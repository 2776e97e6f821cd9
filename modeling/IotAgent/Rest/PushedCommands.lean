import IotAgent.Rest.Acceptance
import IotAgent.Rest.UpdateContext
import IotAgent.Util.CommandRoundTrip

/-!
Commands that are sent to a device with an endpoint.

Such a command is saved first and sent then, and what the device answers decides what becomes
of it: carried out, accepted for later, or failed. The answer finds the saved command by its
identifier, and an error of the request is only logged.

* `PushRequest`, `CommandHandle.push`: a command for a device, through `updateCommand`;
* `Settled`: an accepted command waits as delivered, and any other is gone and reported once;
* `Settles`: the request does not throw, the index by identifier meets the saved command
  first, and the store has no older record of its identifier;
* `settled_iff`: a pushed command is settled exactly when it `Settles`.
-/

namespace IotAgent

open HashIndex Mongo

/-- A command for a device. -/
structure PushRequest where
  commandName : String
  parameters : String
  itemDev : Device
  entityType : String
  sequence : String
  service : PTree

namespace PushRequest

variable (P : Plugin) (r : PushRequest)

/-- The identifier and the body that the plugin makes. -/
def commandLine : Except IotaException (String × PTree) :=
  CommandHandle.getCommandLine P r.commandName r.parameters r.sequence r.itemDev r.service

/-- The command that is saved. -/
def item (commandId : String) (commandToSend : PTree) : Command :=
  CommandHandle.newCommand r.commandName commandId P.timeoutCommands commandToSend r.itemDev
    r.entityType r.itemDev.endpoint r.service r.sequence Types.readyForRead

/-- What the request to the device ends with. -/
def outcome (commandId : String) (commandToSend : PTree) : Except String (ℤ × String) :=
  P.executeCommand r.itemDev.endpoint commandId commandToSend P.timeoutCommands r.itemDev r.service

end PushRequest

/-- The device has accepted the command. -/
def Accepts : Except String (ℤ × String) → Prop
  | .ok (resCode, _) => resCode = 202
  | .error _ => False

/-- An update that ends a command that was sent. -/
def UpdateContext.IsFinal (u : UpdateContext) : Prop :=
  u.firstValue = Types.executedMessage ∨ u.firstValue = Types.error

instance (u : UpdateContext) : Decidable u.IsFinal :=
  inferInstanceAs (Decidable (_ ∨ _))

namespace CommandHandle

variable {h : Hashing} (P : Plugin) (o : Order Ptr String) (s : CommandHandle h)
  (r : PushRequest)

/-- `updateCommand` for a command. -/
def push : CommandHandle h × Except IotaException Unit :=
  s.updateCommand P o r.commandName r.parameters r.itemDev r.entityType r.sequence r.service

/-- The record of a command: it has the key of the command in the index. -/
def RecordOf (item : Command) (doc : Doc) : Prop :=
  keyOf commandIndex doc = keyOf commandIndex (CommandCollection.obj2BSON item)

/-- From `s` to `s'` the command is saved and settled: in cache and store as delivered when
it is accepted, in neither when it is not, and then with one final update. The command is the
next object of the heap. -/
structure Settled (s s' : CommandHandle h) (item : Command) (accepted : Prop) : Prop where
  cached : s.asyncCommands.heap.next ∈ s'.asyncCommands.list ↔ accepted
  stored : s.Stored → ((∃ doc ∈ s'.table.docs, RecordOf item doc) ↔ accepted)
  delivered : accepted →
    (s'.asyncCommands.cmd s.asyncCommands.heap.next).status = Types.delivered ∧
      (s.Stored → ∀ doc ∈ s'.table.docs, RecordOf item doc → Marked doc)
  final : ¬accepted →
    (s'.sent.drop s.sent.length).countP (fun u => u.IsFinal) = 1

/-- The index by identifier, with the new command in the cache, meets the new command first. -/
def MetFirst (item : Command) : Prop :=
  let c := (s.asyncCommands.insertNew item).1
  o.find c.idKey item.uniqueId c.list = some s.asyncCommands.heap.next

/-- The cache takes the new command. -/
def Cached (item : Command) : Prop :=
  s.asyncCommands.heap.next ∈ (s.asyncCommands.insertNew item).1.list

/-- The condition under which a pushed command is settled: its request does not throw; an
accepted command is met first and has no older record of its identifier; any other is met
first if it is cached. -/
def Settles (commandId : String) (commandToSend : PTree) : Prop :=
  match r.outcome P commandId commandToSend with
  | .error _ => False
  | .ok (resCode, _) =>
      if resCode = 202 then
        s.MetFirst o (r.item P commandId commandToSend) ∧
          (s.Stored → ∀ doc ∈ s.table.docs, ¬Matches (acceptedQuery commandId) doc)
      else
        s.Cached (r.item P commandId commandToSend) →
          s.MetFirst o (r.item P commandId commandToSend)

/-! ### What is saved -/

/-- From `s` to `s'` the command has been announced and saved. -/
structure SavedPush (s s' : CommandHandle h) (item : Command) : Prop where
  storageType : s'.storageType = s.storageType
  cache : s'.asyncCommands = (s.asyncCommands.insertNew item).1
  docs : s.Stored → s'.table.docs = s.table.docs ++ [CommandCollection.obj2BSON item]
  sent : ∃ u : UpdateContext, s'.sent = s.sent ++ [u] ∧ ¬u.IsFinal

variable {P o s r}

lemma saveInStore_of_ok {p : Ptr} (h : (s.saveInStore p).2 = .ok ()) :
    (s.saveInStore p).1.sent = s.sent ∧
      (s.Stored → (s.saveInStore p).1.table.docs =
        s.table.docs ++ [CommandCollection.obj2BSON (s.asyncCommands.cmd p)]) := by
  rw [saveInStore] at h ⊢
  by_cases hs : s.Stored
  · rw [if_pos hs] at h ⊢
    cases hinsert : CommandCollection.insert s.table (s.asyncCommands.cmd p) with
    | none =>
        rw [hinsert] at h
        cases h
    | some table => exact ⟨rfl, fun _ => Table.insert_docs hinsert⟩
  · rw [if_neg hs]
    exact ⟨rfl, fun h => absurd h hs⟩

/-- A command that is saved has been announced before. -/
lemma savedPush_of_ok {item : Command} {status : String} {name : String} {itemDev : Device}
    {service : PTree} (hname : name ≠ "") (hstatus : status ≠ "")
    (hfinal : status ≠ Types.executedMessage ∧ status ≠ Types.error)
    {s' : CommandHandle h}
    (hsave : ((s.sendUpdateContext name Types.status Types.statusType status itemDev service
      Types.statusOp).saveInCache item).1.saveInStore s.asyncCommands.heap.next = (s', .ok ())) :
    SavedPush s s' item := by
  have hok := saveInStore_of_ok (congrArg Prod.snd hsave)
  have hcmd : ((s.sendUpdateContext name Types.status Types.statusType status itemDev service
      Types.statusOp).saveInCache item).1.asyncCommands.cmd s.asyncCommands.heap.next = item :=
    CommandCache.insertNew_cmd_new
  obtain ⟨u, hsent, hvalue⟩ := @sendUpdateContext_sent h s name Types.status
    Types.statusType status itemDev service Types.statusOp (by decide) hstatus
  rw [if_pos hname] at hvalue
  obtain rfl : _ = s' := congrArg Prod.fst hsave
  refine ⟨congrArg CommandStorage.storageType saveInStore_toCommandStorage,
    saveInStore_asyncCommands _, fun hs => ?_, u, ?_, ?_⟩
  · rw [hok.2 hs, hcmd]
    rfl
  · rw [hok.1]
    exact hsent
  · rw [UpdateContext.IsFinal, hvalue, not_or]
    exact hfinal

/-- A command that is pushed has been saved before its request. -/
lemma push_of_ok (hpush : P.isPushTypeOfCommand r.itemDev = true) (hok : (s.push P o r).2 = .ok ())
    {commandId : String} {commandToSend : PTree}
    (hline : r.commandLine P = .ok (commandId, commandToSend)) :
    r.commandName ≠ "" ∧ commandId ≠ "" ∧
    ∃ s' : CommandHandle h, SavedPush s s' (r.item P commandId commandToSend) ∧
      (s.push P o r).1 = s'.pushCommand P o
        ⟨r.commandName, commandId, r.itemDev, r.service⟩ commandToSend := by
  have hname : r.commandName ≠ "" := by
    intro hnil
    rw [PushRequest.commandLine, getCommandLine, if_pos hnil] at hline
    cases hline
  have hid : commandId ≠ "" := by
    intro hnil
    rw [PushRequest.commandLine] at hline
    rw [push, updateCommand, hline] at hok
    dsimp only at hok
    rw [if_pos hpush, hnil, saveCommand, if_pos rfl] at hok
    cases hok
  refine ⟨hname, hid, ?_⟩
  rw [PushRequest.commandLine] at hline
  rw [push, updateCommand, hline] at hok ⊢
  dsimp only at hok ⊢
  rw [if_pos hpush, saveCommand, if_neg hid, saveInCache] at hok ⊢
  dsimp only at hok ⊢
  generalize hsave : saveInStore _ _ = saved at hok ⊢
  obtain ⟨s', result⟩ := saved
  cases result with
  | error e => cases hok
  | ok u => exact ⟨s', savedPush_of_ok hname (by decide) (by decide) hsave, rfl⟩

/-! ### What an answer does -/

/-- An answer that does not accept the command removes it and reports once. -/
lemma processCommandResponse_removed {d : CommandData} {resCode : ℤ} {respCmd : String}
    (hname : d.commandName ≠ "") (hcode : resCode ≠ 202) :
    ∃ u : UpdateContext, u.IsFinal ∧
      (s.processCommandResponse o d resCode respCmd).sent = s.sent ++ [u] ∧
      (s.processCommandResponse o d resCode respCmd).asyncCommands =
        s.asyncCommands.remove o
          (CommandCollection.keyOf d.commandId d.serviceName d.servicePath) ∧
      (s.processCommandResponse o d resCode respCmd).table =
        (s.removeCommand o d.commandId d.serviceName d.servicePath).1.table := by
  rw [processCommandResponse]
  by_cases hok : resCode = Types.responseCodeOk
  · -- the command is carried out
    rw [if_pos hok]
    dsimp only
    rw [sendExecuted_asyncCommands, sendExecuted_table, removeCommand_asyncCommands]
    rw [sendExecuted]
    split
    · obtain ⟨u, hsent, hvalue, -⟩ := @sendUpdateContext₂_sent h
        (s.removeCommand o d.commandId d.serviceName d.servicePath).1 d.commandName Types.status
        Types.statusType Types.executedMessage Types.info Types.infoType respCmd d.itemDev
        d.service Types.infoOp (by decide) (by decide)
      exact ⟨u, .inl hvalue, by rw [hsent, removeCommand_sent], rfl, rfl⟩
    · obtain ⟨u, hsent, hvalue⟩ := @sendUpdateContext_sent h
        (s.removeCommand o d.commandId d.serviceName d.servicePath).1 d.commandName Types.status
        Types.statusType Types.executedMessage d.itemDev d.service Types.statusOp (by decide)
        (by decide)
      rw [if_pos hname] at hvalue
      exact ⟨u, .inl hvalue, by rw [hsent, removeCommand_sent], rfl, rfl⟩
  · rw [if_neg hok, if_neg hcode]
    obtain ⟨u, hsent, hvalue, -⟩ := @sendUpdateContext₂_sent h
      (s.removeCommand o d.commandId d.serviceName d.servicePath).1 d.commandName Types.status
      Types.statusType Types.error Types.info Types.infoType respCmd d.itemDev d.service
      Types.statusOp (by decide) (by decide)
    exact ⟨u, .inr hvalue, hsent.trans (by rw [removeCommand_sent]),
      removeCommand_asyncCommands, rfl⟩

/-- The query of a removal matches the record of the command. -/
lemma matches_of_recordOf {item : Command} {doc : Doc} (hdoc : RecordOf item doc) :
    Matches (CommandCollection.obj2BSON
      (CommandCollection.keyOf item.id item.service item.servicePath)) doc := by
  have hget := keyOf_eq_iff.mp hdoc
  obtain ⟨hid, -, hservice, hpath, -⟩ := CommandCollection.getStringField_obj2BSON item
  rw [CommandCollection.matches_key]
  refine ⟨fun _ => ?_, fun _ => ?_, fun _ => ?_⟩
  · exact (Doc.getStringField_congr (hget _ (by simp [commandIndex]))).trans hid
  · exact (Doc.getStringField_congr (hget _ (by simp [commandIndex]))).trans hservice
  · exact (Doc.getStringField_congr (hget _ (by simp [commandIndex]))).trans hpath

/-- The mark of an accepted command in the cache: what the look-up by identifier returns. -/
def acceptIn (c : CommandCache h) (o : Order Ptr String) (fetch : GetFunction) (key : Command) :
    CommandCache h :=
  match c.getById o fetch key with
  | (c', some p) => c'.setStatus p Types.delivered
  | (c', none) => c'

lemma processCommandResponse_accepted_cache (d : CommandData) (respCmd : String) :
    ∃ fetch, (s.processCommandResponse o d 202 respCmd).asyncCommands =
      acceptIn s.asyncCommands o fetch
        (CommandCollection.keyOf d.commandId d.serviceName d.servicePath) := by
  refine ⟨(s.markAccepted d.commandId).1.getFunction, ?_⟩
  have hcache : ∀ (s : CommandHandle h) (n : ℕ), (if 0 < n then
      s.sendDelivered d.commandName d.itemDev d.service else s).asyncCommands =
        s.asyncCommands := by
    intro s n
    split <;> rfl
  rw [processCommandResponse, if_neg (by decide), if_pos rfl, acceptIn]
  dsimp only
  rw [hcache, getCommand, markAccepted_asyncCommands]
  generalize s.asyncCommands.getById o _ _ = found
  obtain ⟨c, _ | p⟩ := found <;> rfl

/-- A cached command is marked exactly when the look-up meets it. -/
lemma acceptIn_iff {c : CommandCache h} {fetch : GetFunction} {key : Command} {p : Ptr}
    (hp : p < c.heap.next) (hkey : c.idKey p = key.uniqueId)
    (hstatus : (c.cmd p).status ≠ Types.delivered) :
    (p ∈ (acceptIn c o fetch key).list ∧
        ((acceptIn c o fetch key).cmd p).status = Types.delivered) ↔
      o.find c.idKey key.uniqueId c.list = some p := by
  rw [acceptIn, CommandCache.getById]
  cases hfind : o.find c.idKey key.uniqueId c.list with
  | some q =>
      -- the command that the look-up meets is marked and moved
      have hmem := Order.mem_of_find hfind
      rw [CommandCache.readThrough]
      dsimp only
      rw [CommandCache.setStatus_list, CommandCache.setStatus_cmd,
        (CommandCache.insert_list_perm_of_mem hmem).mem_iff, CommandCache.insert_cmd]
      by_cases hpq : p = q
      · subst hpq
        simp [hmem]
      · simp [hpq, hstatus, Ne.symm hpq]
  | none =>
      have hnot : p ∉ c.list := fun hmem => Order.find_eq_none_iff.mp hfind p hmem hkey
      rw [CommandCache.readThrough]
      refine iff_of_false (fun hand => ?_) (by simp)
      cases hget : fetch.call key with
      | none =>
          rw [hget] at hand
          exact hnot hand.1
      | some newItem =>
          rw [hget] at hand
          rcases CommandCache.mem_of_mem_insert hand.1 with heq | hmem
          · exact absurd (heq ▸ hp) (Nat.lt_irrefl _)
          · exact hnot hmem

/-! ### The record of an accepted command -/

section Record

variable {item : Command}

lemma recordOf_mark {doc : Doc} : RecordOf item (mark doc) ↔ RecordOf item doc := by
  have hkey : keyOf commandIndex (mark doc) = keyOf commandIndex doc :=
    keyOf_eq_iff.mpr fun f hf => Doc.get_set_of_ne _ _ (by
      rintro rfl
      exact absurd hf (by decide))
  rw [RecordOf, hkey, RecordOf]

lemma get_commandId_obj2BSON (hid : item.id ≠ "") :
    (CommandCollection.obj2BSON item).get StoreTypes.commandId = some (.str item.id) :=
  (Doc.getStringField_eq_iff hid).mp (CommandCollection.getStringField_obj2BSON item).1

/-- A record has the identifier of its command. -/
lemma matches_acceptedQuery {doc : Doc} (hid : item.id ≠ "") (hdoc : RecordOf item doc) :
    Matches (acceptedQuery item.id) doc := by
  intro fv hfv
  obtain rfl := List.mem_singleton.mp hfv
  exact (keyOf_eq_iff.mp hdoc _ (by simp [commandIndex])).trans (get_commandId_obj2BSON hid)

/-- A new command is not marked. -/
lemma not_marked_obj2BSON (hstatus : item.status = Types.readyForRead) :
    ¬Marked (CommandCollection.obj2BSON item) := by
  intro hmarked
  have hread := (CommandCollection.getIntField_obj2BSON item).1
  rw [Doc.getIntField_of_get hmarked, hstatus] at hread
  exact absurd hread (by decide)

/-- The mark reaches the record of the last command exactly when no older record has its
identifier. -/
lemma accepted_docs_iff {docs : List Doc} (hid : item.id ≠ "")
    (hstatus : item.status = Types.readyForRead) :
    ((∃ doc ∈ modifyFirst (acceptedQuery item.id) mark
          (docs ++ [CommandCollection.obj2BSON item]), RecordOf item doc) ∧
        ∀ doc ∈ modifyFirst (acceptedQuery item.id) mark
          (docs ++ [CommandCollection.obj2BSON item]), RecordOf item doc → Marked doc) ↔
      ∀ doc ∈ docs, ¬Matches (acceptedQuery item.id) doc := by
  have hown : RecordOf item (CommandCollection.obj2BSON item) := rfl
  by_cases hold : ∃ doc ∈ docs, Matches (acceptedQuery item.id) doc
  · rw [modifyFirst_append_of_exists hold]
    obtain ⟨doc, hdoc, hmatch⟩ := hold
    refine iff_of_false (fun hand => ?_) fun hall => hall doc hdoc hmatch
    exact not_marked_obj2BSON hstatus (hand.2 _ (by simp) hown)
  · have hnone : ∀ doc ∈ docs, ¬Matches (acceptedQuery item.id) doc :=
      fun doc hdoc hmatch => hold ⟨doc, hdoc, hmatch⟩
    rw [modifyFirst_append_of_forall hnone, modifyFirst, if_pos (matches_acceptedQuery hid hown)]
    refine iff_of_true ⟨⟨mark (CommandCollection.obj2BSON item), by simp,
      recordOf_mark.mpr hown⟩, fun doc hdoc hrecord => ?_⟩ hnone
    rcases List.mem_append.mp hdoc with hdoc | hdoc
    · exact absurd (matches_acceptedQuery hid hrecord) (hnone doc hdoc)
    · rw [List.mem_singleton] at hdoc
      rw [hdoc]
      exact Doc.get_set_self _ _ _

end Record

/-! ### Settled commands -/

section Settled

variable {s' : CommandHandle h} {item : Command} {d : CommandData} {accepted : Prop}

lemma SavedPush.lt_next (hsaved : SavedPush s s' item) :
    s.asyncCommands.heap.next < s'.asyncCommands.heap.next := by
  rw [hsaved.cache, CommandCache.insertNew_next]
  exact Nat.lt_succ_self _

lemma SavedPush.cmd_new (hsaved : SavedPush s s' item) :
    s'.asyncCommands.cmd s.asyncCommands.heap.next = item := by
  rw [hsaved.cache]
  exact CommandCache.insertNew_cmd_new

/-- What has been sent since the command came, when one more update follows. -/
lemma SavedPush.countP_final (hsaved : SavedPush s s' item) (us : List UpdateContext) :
    ((s'.sent ++ us).drop s.sent.length).countP (fun u => u.IsFinal) =
      us.countP fun u => u.IsFinal := by
  obtain ⟨u, hsent, hfinal⟩ := hsaved.sent
  rw [hsent, List.append_assoc, List.drop_left, List.singleton_append,
    List.countP_cons_of_neg (by simpa using hfinal)]

/-- Without an answer nothing is reported. -/
lemma not_settled_of_thrown (hsaved : SavedPush s s' item) (haccepted : ¬accepted) :
    ¬Settled s s' item accepted := by
  intro hsettled
  have hcount := hsaved.countP_final []
  rw [List.append_nil, hsettled.final haccepted] at hcount
  simp at hcount

/-- An answer that does not accept the command settles it unless the index meets another one
before. -/
lemma settled_removed_iff (hsaved : SavedPush s s' item) (haccepted : ¬accepted)
    (hname : d.commandName ≠ "") {resCode : ℤ} {respCmd : String} (hcode : resCode ≠ 202)
    (hid : item.id = d.commandId) (hservice : item.service = d.serviceName)
    (hpath : item.servicePath = d.servicePath) :
    Settled s (s'.processCommandResponse o d resCode respCmd) item accepted ↔
      (s.Cached item → s.MetFirst o item) := by
  obtain ⟨u, hfinal, hsent, hcache, htable⟩ :=
    @processCommandResponse_removed h o s' d resCode respCmd hname hcode
  have hkey : item.uniqueId =
      (CommandCollection.keyOf d.commandId d.serviceName d.servicePath).uniqueId := by
    rw [Command.uniqueId, hid, hservice, hpath]
    rfl
  -- the cache holds the command exactly when it took it and meets another one first
  have hcached : s.asyncCommands.heap.next ∈
      (s'.processCommandResponse o d resCode respCmd).asyncCommands.list ↔
        s.Cached item ∧ ¬s.MetFirst o item := by
    rw [hcache, CommandCache.mem_remove_iff, hsaved.cache, ← hkey]
    rfl
  constructor
  · intro hsettled htaken
    by_contra hother
    exact haccepted (hsettled.cached.mp (hcached.mpr ⟨htaken, hother⟩))
  · intro hfirst
    refine ⟨?_, fun hs => ?_, fun h => absurd h haccepted, fun _ => ?_⟩
    · rw [hcached]
      exact iff_of_false (fun hand => hand.2 (hfirst hand.1)) haccepted
    · have hs' : s'.Stored := hsaved.storageType.trans hs
      rw [htable, removeCommand_docs, if_pos hs']
      refine iff_of_false (fun hex => ?_) haccepted
      obtain ⟨doc, hdoc, hrecord⟩ := hex
      have hmatch := matches_of_recordOf hrecord
      rw [hid, hservice, hpath] at hmatch
      exact of_decide_eq_true (List.mem_filter.mp hdoc).2 hmatch
    · rw [hsent, hsaved.countP_final, List.countP_singleton, if_pos (by simpa using hfinal)]

/-- An answer that accepts the command settles it exactly when the index meets it first and
there is no older record of its identifier. -/
lemma settled_accepted_iff (hsaved : SavedPush s s' item) (haccepted : accepted)
    (hne : item.id ≠ "") (hstatus : item.status = Types.readyForRead) {respCmd : String}
    (hid : item.id = d.commandId) (hservice : item.service = d.serviceName)
    (hpath : item.servicePath = d.servicePath) :
    Settled s (s'.processCommandResponse o d 202 respCmd) item accepted ↔
      s.MetFirst o item ∧
        (s.Stored → ∀ doc ∈ s.table.docs, ¬Matches (acceptedQuery item.id) doc) := by
  obtain ⟨fetch, hcache⟩ := @processCommandResponse_accepted_cache h o s' d respCmd
  have hkey : s'.asyncCommands.idKey s.asyncCommands.heap.next =
      (CommandCollection.keyOf d.commandId d.serviceName d.servicePath).uniqueId := by
    rw [CommandCache.idKey, hsaved.cmd_new, Command.uniqueId, hid, hservice, hpath]
    rfl
  have hunmarked : (s'.asyncCommands.cmd s.asyncCommands.heap.next).status ≠ Types.delivered := by
    rw [hsaved.cmd_new, hstatus]
    decide
  have hfirst := @acceptIn_iff h o s'.asyncCommands fetch _ _ hsaved.lt_next hkey hunmarked
  rw [← hcache] at hfirst
  have hmet : o.find s'.asyncCommands.idKey
      (CommandCollection.keyOf d.commandId d.serviceName d.servicePath).uniqueId
        s'.asyncCommands.list = some s.asyncCommands.heap.next ↔ s.MetFirst o item := by
    rw [← hkey, CommandCache.idKey, hsaved.cmd_new, hsaved.cache]
    rfl
  rw [hmet] at hfirst
  have hdocs : s.Stored → (s'.processCommandResponse o d 202 respCmd).table.docs =
      modifyFirst (acceptedQuery item.id) mark
        (s.table.docs ++ [CommandCollection.obj2BSON item]) := by
    intro hs
    rw [processCommandResponse_accepted_docs (hsaved.storageType.trans hs), hsaved.docs hs, hid]
  constructor
  · intro hsettled
    refine ⟨hfirst.mp ⟨hsettled.cached.mpr haccepted, (hsettled.delivered haccepted).1⟩,
      fun hs => (accepted_docs_iff hne hstatus).mp ?_⟩
    rw [← hdocs hs]
    exact ⟨(hsettled.stored hs).mpr haccepted, (hsettled.delivered haccepted).2 hs⟩
  · rintro ⟨hfound, hnone⟩
    have hin := hfirst.mpr hfound
    have hrecord := fun hs => (accepted_docs_iff hne hstatus).mpr (hnone hs)
    refine ⟨iff_of_true hin.1 haccepted, fun hs => ?_, fun _ => ⟨hin.2, fun hs => ?_⟩,
      fun h => absurd haccepted h⟩
    · rw [hdocs hs]
      exact iff_of_true (hrecord hs).1 haccepted
    · rw [hdocs hs]
      exact (hrecord hs).2

end Settled

/-- **A pushed command reaches a definite state** exactly when its request does not throw, the
index by identifier meets it first, and, if it is accepted, no older record has its
identifier. -/
theorem settled_iff (P : Plugin) (o : Order Ptr String) (s : CommandHandle h) (r : PushRequest)
    (hpush : P.isPushTypeOfCommand r.itemDev = true) (hsync : P.callback = false)
    {commandId : String} {commandToSend : PTree}
    (hline : r.commandLine P = .ok (commandId, commandToSend))
    (hok : (s.push P o r).2 = .ok ()) :
    Settled s (s.push P o r).1 (r.item P commandId commandToSend)
        (Accepts (r.outcome P commandId commandToSend)) ↔
      s.Settles P o r commandId commandToSend := by
  obtain ⟨hname, hid, s', hsaved, hpushed⟩ := push_of_ok hpush hok hline
  rw [hpushed, pushCommand, Settles, PushRequest.outcome]
  cases houtcome : P.executeCommand r.itemDev.endpoint commandId commandToSend P.timeoutCommands
      r.itemDev r.service with
  | error e => exact iff_of_false (not_settled_of_thrown hsaved id) id
  | ok answer =>
      obtain ⟨resCode, respCmd⟩ := answer
      dsimp only
      rw [hsync, if_neg Bool.false_ne_true]
      by_cases hcode : resCode = 202
      · subst hcode
        rw [if_pos rfl]
        exact settled_accepted_iff hsaved rfl hid rfl rfl rfl rfl
      · rw [if_neg hcode]
        exact settled_removed_iff hsaved hcode hname hcode rfl rfl rfl

/-- A command for a device with an endpoint. -/
def pingRequest : PushRequest where
  commandName := "ping"
  parameters := "1"
  itemDev := { Device.ofName "d1" "service" with
    endpoint := "http://127.0.0.1:9001", entityName := "room1", commands := [("ping", "ping|%s")] }
  entityType := "thing"
  sequence := "7"
  service := [(StoreTypes.service, "service"), (StoreTypes.servicePath, "/")]

/-- An agent with a store and no commands. -/
def idleHandle : CommandHandle ⟨fun n s => n + s.length, fun n => n⟩ where
  storageType := StoreTypes.mongodb
  bbdd := "iot.COMMAND"
  text _ := ""
  asyncCommands := CommandCache.empty Types.maxSizeCache false
  table := Table.empty
  sent := []

/-- A plugin whose requests end with an error. -/
def unreachable : Plugin :=
  { Plugin.testCommandService with
    executeCommand := fun _ _ _ _ _ _ => .error "Connection refused" }

theorem settled_iff_idle :
    Settled idleHandle (idleHandle.push Plugin.testCommandService Order.blocks pingRequest).1
        (pingRequest.item Plugin.testCommandService "7" [(StoreTypes.body, "ping|1")])
        (Accepts (pingRequest.outcome Plugin.testCommandService "7"
          [(StoreTypes.body, "ping|1")])) ↔
      idleHandle.Settles Plugin.testCommandService Order.blocks pingRequest "7"
        [(StoreTypes.body, "ping|1")] :=
  settled_iff Plugin.testCommandService Order.blocks idleHandle pingRequest rfl rfl rfl rfl

/-- An error of the request leaves the command pending, and nothing is reported. -/
theorem not_settled_unreachable :
    (idleHandle.push unreachable Order.blocks pingRequest).2 = .ok () ∧
      ¬Settled idleHandle (idleHandle.push unreachable Order.blocks pingRequest).1
        (pingRequest.item unreachable "7" [(StoreTypes.body, "ping|1")])
        (Accepts (pingRequest.outcome unreachable "7" [(StoreTypes.body, "ping|1")])) := by
  obtain ⟨-, -, s', hsaved, hpushed⟩ := @push_of_ok _ unreachable Order.blocks idleHandle
    pingRequest rfl rfl "7" [(StoreTypes.body, "ping|1")] rfl
  refine ⟨rfl, fun hsettled => ?_⟩
  rw [hpushed] at hsettled
  exact not_settled_of_thrown hsaved id hsettled

end CommandHandle

end IotAgent
