import IotAgent.Rest.Acceptance

/-!
What becomes of a command whose timer fires.

The callback of the timer asks the store whether another agent has gone ahead. An agent that
does not store its commands asks as well, and takes no answer for another agent that has.

* `ReportsExpiry`: one update says how the command has expired, and the command is neither
  cached nor stored any longer;
* `CanReport`: the agent stores its commands, and the callback finds the service, the record
  and the cached command;
* `reportsExpiry_iff`: an untouched command is reported exactly in that case.
-/

namespace IotAgent

open HashIndex Mongo

/-- The command has an identifier, a service and a service path. -/
def Command.FullKey (c : Command) : Prop :=
  c.id ≠ "" ∧ c.service ≠ "" ∧ c.servicePath ≠ ""

namespace CommandHandle

variable {h : Hashing} (s : CommandHandle h) (o : Order Ptr String)
  (getServiceByName : String → String → Option PTree) (p : Ptr)

/-! ### Expiry -/

/-- A command with the key is cached. -/
def HoldsKey (item : Command) : Prop :=
  ∃ q ∈ s.asyncCommands.list, (s.asyncCommands.cmd q).key = item.key

/-- A record of the command is stored. -/
def HoldsRecord (item : Command) : Prop :=
  s.Stored ∧ ∃ doc ∈ s.table.docs, IsRecord item.id item.service item.servicePath doc

/-- The attribute that says how a command has expired. -/
def expiredAttribute (item : Command) : Attribute :=
  commandAttribute item.name Types.status Types.statusType (timeoutMessage item.status)

/-- The callback sends one update, which says how the command has expired, and the command is
gone then. -/
structure ReportsExpiry : Prop where
  sent : ∃ u : UpdateContext, (s.timeoutF o getServiceByName p).sent = s.sent ++ [u] ∧
    u.element.attributes = [expiredAttribute (s.asyncCommands.cmd p)]
  not_cached : ¬(s.timeoutF o getServiceByName p).HoldsKey (s.asyncCommands.cmd p)
  not_stored : ¬(s.timeoutF o getServiceByName p).HoldsRecord (s.asyncCommands.cmd p)

/-! ### When it is reported -/

/-- No other agent has advanced or removed the command: if commands are stored, its record is
there, with no higher status. -/
def Untouched (item : Command) : Prop :=
  s.Stored → ∃ doc ∈ s.table.docs, IsRecord item.id item.service item.servicePath doc ∧
    ¬item.status < (CommandCollection.bson2Obj doc).status

/-- What the query for the command finds first has no higher status. -/
def FoundNotAhead (item : Command) : Prop :=
  notAhead item.status (CommandCollection.findOne s.table
    (CommandCollection.keyOf item.id item.service item.servicePath))

/-- Commands are stored, the service of the command is found, the command has a name, the
query for a key with empty parts finds no record that is ahead, and of the cached commands
the index by identifier meets this one and no other has its key. -/
structure CanReport : Prop where
  stored : s.Stored
  service : ∃ service, getServiceByName (s.asyncCommands.cmd p).service
    (s.asyncCommands.cmd p).servicePath = some service
  name : (s.asyncCommands.cmd p).name ≠ ""
  found : ¬(s.asyncCommands.cmd p).FullKey → s.FoundNotAhead (s.asyncCommands.cmd p)
  meets : o.find s.asyncCommands.idKey (s.asyncCommands.cmd p).uniqueId s.asyncCommands.list =
    some p
  alone : ∀ q ∈ s.asyncCommands.list,
    (s.asyncCommands.cmd q).key = (s.asyncCommands.cmd p).key → q = p

variable {s o getServiceByName p}

/-! ### The store -/

lemma getCommandFromMongo_of_stored (hs : s.Stored) (id service servicePath : String) :
    s.getCommandFromMongo id service servicePath = CommandCollection.findOne s.table
      (CommandCollection.keyOf id service servicePath) := by
  rw [getCommandFromMongo, CommandCache.getByIdFromMongo, getFunction, if_pos hs]
  rfl

lemma getCommandFromMongo_of_not_stored (hs : ¬s.Stored) (id service servicePath : String) :
    s.getCommandFromMongo id service servicePath = none := by
  rw [getCommandFromMongo, CommandCache.getByIdFromMongo, getFunction, if_neg hs]
  rfl

/-- The query of a key finds the records of the key. -/
lemma matches_of_isRecord {id service servicePath : String} {doc : Doc}
    (hdoc : IsRecord id service servicePath doc) :
    Matches (CommandCollection.obj2BSON (CommandCollection.keyOf id service servicePath)) doc :=
  CommandCollection.matches_key.mpr ⟨fun _ => hdoc.1, fun _ => hdoc.2.1, fun _ => hdoc.2.2⟩

/-- With a whole key the query finds the record of the command. -/
lemma foundNotAhead_of_fullKey {item : Command} (hs : s.Stored) (hfull : item.FullKey)
    (hun : s.Untouched item) : s.FoundNotAhead item := by
  obtain ⟨doc, hdoc, hrecord, hahead⟩ := hun hs
  obtain ⟨hid, hservice, hpath⟩ := hfull
  rw [FoundNotAhead, CommandCollection.findOne]
  cases hfind : s.table.findOne (CommandCollection.obj2BSON
      (CommandCollection.keyOf item.id item.service item.servicePath)) with
  | none => exact absurd (matches_of_isRecord hrecord) (Table.findOne_eq_none_iff.mp hfind doc hdoc)
  | some d =>
      obtain ⟨hd, hmatch⟩ := Table.findOne_eq_some hfind
      obtain ⟨hdid, hdservice, hdpath⟩ := CommandCollection.matches_key.mp hmatch
      have hget : ∀ {f v : String}, v ≠ "" → d.getStringField f = v → doc.getStringField f = v →
          d.get f = doc.get f := fun hv hd hdoc =>
        ((Doc.getStringField_eq_iff hv).mp hd).trans ((Doc.getStringField_eq_iff hv).mp hdoc).symm
      obtain rfl : d = doc := by
        refine s.table.eq_of_keyOf (List.mem_singleton_self commandIndex) hd hdoc
          (keyOf_eq_iff.mpr ?_)
        simp only [commandIndex, List.forall_mem_cons]
        exact ⟨hget hid (hdid hid) hrecord.1, hget hservice (hdservice hservice) hrecord.2.1,
          hget hpath (hdpath hpath) hrecord.2.2, fun _ h => absurd h List.not_mem_nil⟩
      exact hahead

/-- What is found is removed. -/
lemma removed_pos_of_foundNotAhead {item : Command} (hs : s.Stored)
    (hfound : s.FoundNotAhead item) :
    0 < (s.removeCommand o item.id item.service item.servicePath).2 := by
  have hcount : (s.removeCommand o item.id item.service item.servicePath).2 =
      (CommandCollection.remove s.table
        (CommandCollection.keyOf item.id item.service item.servicePath)).2 := by
    have hs' : (s.removeFromCache o item.id item.service item.servicePath).Stored := hs
    rw [removeCommand, removeFromStore, if_pos hs']
    rfl
  rw [hcount, CommandCollection.remove, Table.remove_pos_iff]
  rw [FoundNotAhead, CommandCollection.findOne] at hfound
  cases hfind : s.table.findOne (CommandCollection.obj2BSON
      (CommandCollection.keyOf item.id item.service item.servicePath)) with
  | none =>
      rw [hfind] at hfound
      exact hfound.elim
  | some d => exact ⟨d, Table.findOne_eq_some hfind⟩

/-! ### The callback -/

/-- The callback either leaves everything as it is, or it removes the command and sends the
update. -/
lemma timeoutF_cases :
    (¬(s.Stored ∧ s.FoundNotAhead (s.asyncCommands.cmd p) ∧
        ∃ service, getServiceByName (s.asyncCommands.cmd p).service
          (s.asyncCommands.cmd p).servicePath = some service) ∧
      s.timeoutF o getServiceByName p = s) ∨
    (s.Stored ∧ s.FoundNotAhead (s.asyncCommands.cmd p) ∧
      ∃ service, getServiceByName (s.asyncCommands.cmd p).service
          (s.asyncCommands.cmd p).servicePath = some service ∧
        s.timeoutF o getServiceByName p =
          (s.removeCommand o (s.asyncCommands.cmd p).id (s.asyncCommands.cmd p).service
            (s.asyncCommands.cmd p).servicePath).1.sendExpired (s.asyncCommands.cmd p)
              (timeoutMessage (s.asyncCommands.cmd p).status) service) := by
  cases hg : getServiceByName (s.asyncCommands.cmd p).service
      (s.asyncCommands.cmd p).servicePath with
  | none =>
      refine .inl ⟨fun hand => ?_, timeoutF_of_none hg⟩
      obtain ⟨-, -, service, hsome⟩ := hand
      cases hsome
  | some service =>
      by_cases hs : s.Stored
      · by_cases hfound : s.FoundNotAhead (s.asyncCommands.cmd p)
        · refine .inr ⟨hs, hfound, service, rfl, ?_⟩
          have hahead := hfound
          rw [FoundNotAhead, ← getCommandFromMongo_of_stored hs] at hahead
          rw [timeoutF_of_notAhead hg hahead (Prod.eta _).symm,
            if_pos (removed_pos_of_foundNotAhead hs hfound)]
        · refine .inl ⟨fun hand => hfound hand.2.1, timeoutF_of_ahead hg ?_⟩
          rwa [getCommandFromMongo_of_stored hs]
      · refine .inl ⟨fun hand => hs hand.1, timeoutF_of_ahead hg ?_⟩
        rw [getCommandFromMongo_of_not_stored hs]
        exact id

/-- The update says how the command has expired, if the command has a name. -/
lemma sendExpired_sent_iff (item : Command) (service : PTree) :
    (∃ u : UpdateContext, (s.sendExpired item (timeoutMessage item.status) service).sent =
        s.sent ++ [u] ∧ u.element.attributes = [expiredAttribute item]) ↔ item.name ≠ "" := by
  by_cases hname : item.name = ""
  · refine iff_of_false ?_ (not_not.mpr hname)
    rintro ⟨u, hu, hattributes⟩
    rw [sendExpired, sendUpdateContext, if_neg (not_not.mpr hname)] at hu
    obtain rfl := List.singleton_inj.mp (List.append_cancel_left hu)
    cases hattributes
  · have htype : Text.renderIdentifier Types.statusType ≠ "" := by decide
    have hadd : (({} : ContextElement).addAttribute (expiredAttribute item)).attributes =
        [expiredAttribute item] :=
      ContextElement.addAttribute_attributes {} htype (Attribute.ofTexts_value_ne _ _ _)
    refine iff_of_true ⟨_, rfl, ?_⟩ hname
    rw [if_pos hname, ContextElement.format_attributes]
    exact hadd

/-- The removal takes all records of the command. -/
lemma not_holdsRecord_removeCommand (hs : s.Stored) (item : Command) (t : String)
    (service : PTree) :
    ¬((s.removeCommand o item.id item.service item.servicePath).1.sendExpired item t
      service).HoldsRecord item := by
  rintro ⟨-, doc, hdoc, hrecord⟩
  have hdocs := @removeCommand_docs h s o item.id item.service item.servicePath
  rw [if_pos hs] at hdocs
  have hmem : doc ∈ (s.removeCommand o item.id item.service item.servicePath).1.table.docs := hdoc
  rw [hdocs, List.mem_filter, decide_eq_true_eq] at hmem
  exact hmem.2 (matches_of_isRecord hrecord)

/-- The removal leaves no cached command with the key when the index meets the command and no
other has its key. -/
lemma not_holdsKey_removeCommand_iff (hp : p ∈ s.asyncCommands.list) (t : String)
    (service : PTree) :
    ¬((s.removeCommand o (s.asyncCommands.cmd p).id (s.asyncCommands.cmd p).service
        (s.asyncCommands.cmd p).servicePath).1.sendExpired (s.asyncCommands.cmd p) t
          service).HoldsKey (s.asyncCommands.cmd p) ↔
      o.find s.asyncCommands.idKey (s.asyncCommands.cmd p).uniqueId s.asyncCommands.list =
          some p ∧
        ∀ q ∈ s.asyncCommands.list,
          (s.asyncCommands.cmd q).key = (s.asyncCommands.cmd p).key → q = p := by
  have hcached : ((s.removeCommand o (s.asyncCommands.cmd p).id (s.asyncCommands.cmd p).service
      (s.asyncCommands.cmd p).servicePath).1.sendExpired (s.asyncCommands.cmd p) t
        service).HoldsKey (s.asyncCommands.cmd p) ↔
      ∃ q ∈ s.asyncCommands.list,
        o.find s.asyncCommands.idKey (s.asyncCommands.cmd p).uniqueId s.asyncCommands.list ≠
          some q ∧ (s.asyncCommands.cmd q).key = (s.asyncCommands.cmd p).key := by
    rw [HoldsKey, sendExpired, sendUpdateContext_asyncCommands, removeCommand_asyncCommands]
    simp only [CommandCache.mem_remove_iff, CommandCache.remove_cmd, and_assoc]
    rfl
  rw [hcached]
  constructor
  · intro hnone
    have hmeets : o.find s.asyncCommands.idKey (s.asyncCommands.cmd p).uniqueId
        s.asyncCommands.list = some p := by
      by_contra hne
      exact hnone ⟨p, hp, hne, rfl⟩
    refine ⟨hmeets, fun q hq hkey => ?_⟩
    by_contra hne
    refine hnone ⟨q, hq, fun hq' => hne ?_, hkey⟩
    exact Option.some.inj (hq'.symm.trans hmeets)
  · rintro ⟨hmeets, halone⟩ ⟨q, hq, hne, hkey⟩
    rw [halone q hq hkey] at hne
    exact hne hmeets

/-- **The expiry of a command is reported** exactly when commands are stored and the callback
finds what it looks for. -/
theorem reportsExpiry_iff (s : CommandHandle h) (o : Order Ptr String)
    (getServiceByName : String → String → Option PTree) (p : Ptr)
    (hcached : p ∈ s.asyncCommands.list) (huntouched : s.Untouched (s.asyncCommands.cmd p)) :
    s.ReportsExpiry o getServiceByName p ↔ s.CanReport o getServiceByName p := by
  rcases @timeoutF_cases h s o getServiceByName p with
    ⟨hnot, hsame⟩ | ⟨hs, hfound, service, hg, hsend⟩
  · constructor
    · intro hreports
      obtain ⟨u, hu, -⟩ := hreports.sent
      rw [hsame] at hu
      exact absurd hu (by simp)
    · intro hcan
      refine absurd ⟨hcan.stored, ?_, hcan.service⟩ hnot
      by_cases hfull : (s.asyncCommands.cmd p).FullKey
      · exact foundNotAhead_of_fullKey hcan.stored hfull huntouched
      · exact hcan.found hfull
  · have hsent : (∃ u : UpdateContext, (s.timeoutF o getServiceByName p).sent = s.sent ++ [u] ∧
        u.element.attributes = [expiredAttribute (s.asyncCommands.cmd p)]) ↔
          (s.asyncCommands.cmd p).name ≠ "" := by
      rw [hsend, ← sendExpired_sent_iff _ service, removeCommand_sent]
    constructor
    · intro hreports
      have hnot := hreports.not_cached
      rw [hsend, not_holdsKey_removeCommand_iff hcached] at hnot
      exact ⟨hs, ⟨service, hg⟩, hsent.mp hreports.sent, fun _ => hfound, hnot.1, hnot.2⟩
    · intro hcan
      refine ⟨hsent.mpr hcan.name, ?_, ?_⟩
      · rw [hsend, not_holdsKey_removeCommand_iff hcached]
        exact ⟨hcan.meets, hcan.alone⟩
      · rw [hsend]
        exact not_holdsRecord_removeCommand hs _ _ service

/-! ### One command -/

/-- A command that waits for a device. -/
def expiringCommand : Command :=
  { Command.ofStored "d1@ping" "ping" "service" "/" "1" "room1" "thing" "" 60 none [] with
    status := Types.readyForRead }

lemma unique_expiringCommand :
    Unique [commandIndex] [CommandCollection.obj2BSON expiringCommand] :=
  fun _ _ => List.pairwise_singleton ..

/-- An agent with the command in its cache, and its record if commands are stored. -/
def expiringIn (storageType : String) : CommandHandle ⟨fun n s => n + s.length, fun n => n⟩ where
  storageType := storageType
  bbdd := "iot.COMMAND"
  text _ := ""
  asyncCommands := ((CommandCache.empty Types.maxSizeCache false).insertNew expiringCommand).1
  table := if storageType = StoreTypes.mongodb then
      ⟨[CommandCollection.obj2BSON expiringCommand], unique_expiringCommand⟩
    else Table.empty
  sent := []

/-- The service of the command. -/
def expiringService (_service _servicePath : String) : Option PTree :=
  some [(StoreTypes.service, "service"), (StoreTypes.servicePath, "/")]

lemma cached_expiringIn (storageType : String) :
    (expiringIn storageType).asyncCommands.list = [0] := by
  have hlist : ((CommandCache.empty (h := ⟨fun n s => n + s.length, fun n => n⟩)
      Types.maxSizeCache false).insertNew expiringCommand).1.list = [0] := by
    decide +kernel
  exact hlist

theorem reportsExpiry_mongodb :
    (expiringIn StoreTypes.mongodb).ReportsExpiry Order.blocks expiringService 0 := by
  refine (reportsExpiry_iff (expiringIn StoreTypes.mongodb) Order.blocks expiringService 0 ?_
    ?_).mpr ⟨rfl, ⟨_, rfl⟩, by decide, fun hpart => ?_, by decide +kernel, ?_⟩
  · rw [cached_expiringIn]
    exact List.mem_singleton_self 0
  · exact fun _ => ⟨CommandCollection.obj2BSON expiringCommand, List.mem_singleton_self _,
      by decide +kernel, by decide +kernel⟩
  · exact absurd ⟨by decide, by decide, by decide⟩ hpart
  · intro q hq _
    rw [cached_expiringIn] at hq
    exact List.mem_singleton.mp hq

/-- An agent that stores no commands says nothing of one that expires. -/
theorem not_reportsExpiry_file :
    0 ∈ (expiringIn "file").asyncCommands.list ∧
      (expiringIn "file").Untouched ((expiringIn "file").asyncCommands.cmd 0) ∧
      ¬(expiringIn "file").ReportsExpiry Order.blocks expiringService 0 := by
  have hstored : ¬(expiringIn "file").Stored := by decide
  refine ⟨?_, fun hs => absurd hs hstored, fun hreports => ?_⟩
  · rw [cached_expiringIn]
    exact List.mem_singleton_self 0
  · obtain ⟨u, hu, -⟩ := hreports.sent
    have hnone : ((expiringIn "file").timeoutF Order.blocks expiringService 0).sent = [] := by
      decide +kernel
    rw [hnone] at hu
    cases hu

end CommandHandle

end IotAgent
