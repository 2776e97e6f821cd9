import IotAgent.Rest.CommandHandle
import IotAgent.Util.Collection
import IotAgent.Util.TimedCommandCache

/-!
A command that cannot be stored.

A command enters the cache, and its timer is armed, before the store is asked. Nothing takes
it back when the store refuses it.

* `TimedCommandHandle`: the cache with its timers and the store, as the constructor sets
  them up;
* `saveCommand`: with every failure of the store;
* `saveCommand_toHandle`: without timers and failures of the driver it is that of
  `CommandHandle`;
* `AllOrNothing`: an exception leaves the cache and its timers as they are, and a command
  that is saved is in the cache and in the store;
* `saveCommand_allOrNothing_iff`: exactly when.
-/

namespace IotAgent

open HashIndex Mongo

/-- The commands of an agent with their timers. The cache has the size and the policy that
the constructor gives it. -/
structure TimedCommandHandle (h : Hashing) where
  storageType : String
  asyncCommands : TimedCommandCache h
  table : CommandTable
  maxNumItems : asyncCommands.cache.maxNumItems = Types.maxSizeCache
  notLru : asyncCommands.cache.lru = false

namespace TimedCommandHandle

variable {h : Hashing} (s : TimedCommandHandle h) (coll : Collection)

/-- Whether commands are stored. -/
abbrev Stored : Prop :=
  s.storageType = StoreTypes.mongodb

/-- Whether the cache is full. -/
abbrev Full : Prop :=
  Types.maxSizeCache ≤ s.asyncCommands.cache.size

/-- The first step of `save_command`: the new object enters the cache. -/
def saveInCache (item : Command) : TimedCommandHandle h × Ptr :=
  ({ s with
      asyncCommands := (s.asyncCommands.insertNew item).1
      maxNumItems := by rw [TimedCommandCache.insertNew_maxNumItems, s.maxNumItems]
      notLru := by rw [TimedCommandCache.insertNew_lru, s.notLru] },
    (s.asyncCommands.insertNew item).2)

/-- The second step: the object, as it is then, enters the store. -/
def saveInStore (p : Ptr) : TimedCommandHandle h × Except IotaException Unit :=
  if s.Stored then
    match coll.insert s.table (CommandCollection.obj2BSON (s.asyncCommands.cmd p)) 0 with
    | .ok table => ({ s with table }, .ok ())
    | .error e => (s, .error e)
  else (s, .ok ())

/-- `save_command`. -/
def saveCommand (commandName commandId : String) (timeout : ℤ) (commandToSend : PTree)
    (itemDev : Device) (entityType endpoint : String) (service : PTree) (sequence : String)
    (status : ℤ) : TimedCommandHandle h × Except IotaException Unit :=
  if commandId = "" then
    (s, .error {
      reason := Types.responseMessageInvalidParameter
      what := "command is is empty " ++ commandName ++ " of device " ++ itemDev.name
      status := Types.responseCodeBadRequest })
  else
    let (s, p) := s.saveInCache (CommandHandle.newCommand commandName commandId timeout
      commandToSend itemDev entityType endpoint service sequence status)
    s.saveInStore coll p

/-! ### Without timers and failures of the driver -/

/-- The commands without their timers, over the collection, and what has been sent. -/
def toHandle (sent : List UpdateContext) : CommandHandle h :=
  ⟨⟨s.storageType, coll.bbdd, coll.text⟩, s.asyncCommands.cache, s.table, sent⟩

section Untimed

variable {s coll} {sent : List UpdateContext} {commandName commandId : String} {timeout : ℤ}
  {commandToSend : PTree} {itemDev : Device} {entityType endpoint : String} {service : PTree}
  {sequence : String} {status : ℤ}

lemma saveInCache_toHandle {item : Command} :
    ((s.saveInCache item).1.toHandle coll sent, (s.saveInCache item).2)
      = (s.toHandle coll sent).saveInCache item := by
  have hcache : _ = s.asyncCommands.cache.insertNew item := TimedCommandCache.insertNew_cache
  rw [Prod.ext_iff] at hcache
  simp only [saveInCache, CommandHandle.saveInCache, toHandle, ← hcache.1, ← hcache.2]

/-- A driver that only hands on what the server answers stores as a table does. -/
lemma saveInStore_toHandle (hfault : coll.fault 0 = none) {p : Ptr} :
    ((s.saveInStore coll p).1.toHandle coll sent, (s.saveInStore coll p).2)
      = (s.toHandle coll sent).saveInStore p := by
  by_cases hs : s.Stored
  · have hs' : (s.toHandle coll sent).Stored := hs
    rw [saveInStore, if_pos hs, CommandHandle.saveInStore, if_pos hs',
      Collection.insert_of_none hfault]
    cases hinsert : s.table.insert (CommandCollection.obj2BSON (s.asyncCommands.cmd p)) with
    | none =>
        have hinsert' : CommandCollection.insert (s.toHandle coll sent).table
            ((s.toHandle coll sent).asyncCommands.cmd p) = none := hinsert
        rw [hinsert']
        rfl
    | some t =>
        have hinsert' : CommandCollection.insert (s.toHandle coll sent).table
            ((s.toHandle coll sent).asyncCommands.cmd p) = some t := hinsert
        rw [hinsert']
        rfl
  · have hs' : ¬ (s.toHandle coll sent).Stored := hs
    rw [saveInStore, if_neg hs, CommandHandle.saveInStore, if_neg hs']

/-- `saveCommand` is that of the commands without timers. -/
theorem saveCommand_toHandle (hfault : coll.fault 0 = none) :
    ((s.saveCommand coll commandName commandId timeout commandToSend itemDev entityType endpoint
        service sequence status).1.toHandle coll sent,
      (s.saveCommand coll commandName commandId timeout commandToSend itemDev entityType endpoint
        service sequence status).2)
      = (s.toHandle coll sent).saveCommand commandName commandId timeout commandToSend itemDev
          entityType endpoint service sequence status := by
  rw [saveCommand, CommandHandle.saveCommand]
  split
  · rfl
  · rw [← saveInCache_toHandle]
    exact saveInStore_toHandle hfault

end Untimed

/-! ### All or nothing -/

/-- The same commands in the same order, and the same timers. -/
structure Unchanged (c c' : TimedCommandCache h) : Prop where
  list : c'.cache.list = c.cache.list
  cmd : ∀ p ∈ c.cache.list, c'.cmd p = c.cmd p
  timers : c'.timers = c.timers

/-- An exception leaves the cache and its timers as they are; otherwise the command is in the
cache, unless that was full, and in the store. -/
def AllOrNothing (s : TimedCommandHandle h) (coll : Collection) (commandName commandId : String)
    (timeout : ℤ) (commandToSend : PTree) (itemDev : Device) (entityType endpoint : String)
    (service : PTree) (sequence : String) (status : ℤ) : Prop :=
  let item := CommandHandle.newCommand commandName commandId timeout commandToSend itemDev
    entityType endpoint service sequence status
  match s.saveCommand coll commandName commandId timeout commandToSend itemDev entityType endpoint
      service sequence status with
  | (s', .error _) => Unchanged s.asyncCommands s'.asyncCommands
  | (s', .ok ()) =>
      (s.Full ∨ ∃ p ∈ s'.asyncCommands.cache.list, s'.asyncCommands.cmd p = item) ∧
      (s.Stored → CommandCollection.obj2BSON item ∈ s'.table.docs)

/-- The store takes the command: the server answers, and has no record of its key. -/
def Takes (s : TimedCommandHandle h) (coll : Collection) (item : Command) : Prop :=
  s.Stored → coll.Answers ∧
    ∀ doc ∈ s.table.docs, keyOf commandIndex doc ≠ keyOf commandIndex
      (CommandCollection.obj2BSON item)

/-- The cache does not see the command: it comes without a timeout and collides with the
last command of the sequence. -/
def Unseen (s : TimedCommandHandle h) (item : Command) : Prop :=
  item.timeout ≤ 0 ∧ ∃ p, s.asyncCommands.cache.list.getLast? = some p ∧
    Command.collide h (s.asyncCommands.cmd p) item

/-- What the command collides with in the cache is equal to it in every field. -/
def OnlyItself (s : TimedCommandHandle h) (item : Command) : Prop :=
  ∀ p ∈ s.asyncCommands.cache.list, Command.collide h (s.asyncCommands.cmd p) item →
    s.asyncCommands.cmd p = item

/-! ### What the cache does -/

section InCache

variable {s coll} {item : Command}

lemma saveInCache_cache : (s.saveInCache item).1.asyncCommands.cache
    = (s.asyncCommands.cache.insertNew item).1 :=
  congrArg Prod.fst TimedCommandCache.insertNew_cache

lemma saveInCache_cmd_new :
    (s.saveInCache item).1.asyncCommands.cmd (s.saveInCache item).2 = item := by
  rw [TimedCommandCache.cmd, saveInCache_cache]
  exact CommandCache.insertNew_cmd_new

/-- The commands that were there stay what they are. -/
lemma saveInCache_cmd {p : Ptr} (hp : p ∈ s.asyncCommands.cache.list) :
    (s.saveInCache item).1.asyncCommands.cmd p = s.asyncCommands.cmd p := by
  rw [TimedCommandCache.cmd, saveInCache_cache]
  exact CommandCache.insertNew_cmd_of_lt (s.asyncCommands.cache.allocated p hp)

lemma room (hroom : ¬ s.Full) :
    s.asyncCommands.cache.size < s.asyncCommands.cache.maxNumItems := by
  rw [s.maxNumItems]
  exact Nat.lt_of_not_le hroom

/-- A full cache stays as it is. -/
lemma saveInCache_unchanged_of_full (hfull : s.Full) :
    Unchanged s.asyncCommands (s.saveInCache item).1.asyncCommands := by
  have hfull' : s.asyncCommands.cache.maxNumItems ≤ s.asyncCommands.cache.size := by
    rw [s.maxNumItems]
    exact hfull
  refine ⟨?_, fun p hp => saveInCache_cmd hp,
    TimedCommandCache.insertNew_timers_of_full s.notLru hfull'⟩
  rw [saveInCache_cache]
  exact CommandCache.insertNew_list_of_full s.notLru hfull'

/-- The sequence changes unless the command is a duplicate of the last one. -/
lemma saveInCache_list_eq_iff (hroom : ¬ s.Full) :
    (s.saveInCache item).1.asyncCommands.cache.list = s.asyncCommands.cache.list ↔
      ∃ p, s.asyncCommands.cache.list.getLast? = some p ∧
        Command.collide h (s.asyncCommands.cmd p) item := by
  rw [saveInCache_cache]
  cases hq : s.asyncCommands.cache.findUnique item with
  | none =>
      rw [CommandCache.insertNew_list_of_new s.notLru (room hroom) hq]
      refine iff_of_false (fun heq => ?_) ?_
      · have hlen := congrArg List.length heq
        simp at hlen
      · rintro ⟨p, hlast, hcollide⟩
        exact CommandCache.findUnique_eq_none_iff.mp hq p (List.mem_of_getLast? hlast) hcollide
  | some q =>
      obtain ⟨hmem, hcollide⟩ := CommandCache.findUnique_eq_some hq
      rw [CommandCache.insertNew_list_of_find s.notLru (room hroom) hq,
        BoundedSeq.erase_append_eq_self_iff CommandCache.list_nodup hmem]
      constructor
      · exact fun hlast => ⟨q, hlast, hcollide⟩
      · rintro ⟨p, hlast, hp⟩
        have hsame : p = q := s.asyncCommands.cache.eq_of_collide (List.mem_of_getLast? hlast)
          hmem hp hcollide
        rwa [← hsame]

/-- With room in the cache an insertion is seen, unless it is a move of the last command to
where it is and arms no timer. -/
lemma saveInCache_unchanged_iff (hroom : ¬ s.Full) :
    Unchanged s.asyncCommands (s.saveInCache item).1.asyncCommands ↔ s.Unseen item := by
  rw [Unseen, ← saveInCache_list_eq_iff hroom]
  constructor
  · rintro ⟨hlist, -, htimers⟩
    refine ⟨Int.not_lt.mp fun ht => ?_, hlist⟩
    exact TimedCommandCache.insertNew_timers_ne s.notLru (room hroom) ht htimers
  · rintro ⟨ht, hlist⟩
    exact ⟨hlist, fun p hp => saveInCache_cmd hp,
      TimedCommandCache.insertNew_timers_of_noTimeout s.notLru ht⟩

/-- With room in the cache the command is in it afterwards, unless the index takes it for
another one. -/
lemma exists_saveInCache_iff (hroom : ¬ s.Full) :
    (∃ p ∈ (s.saveInCache item).1.asyncCommands.cache.list,
      (s.saveInCache item).1.asyncCommands.cmd p = item) ↔ s.OnlyItself item := by
  cases hq : s.asyncCommands.cache.findUnique item with
  | none =>
      refine iff_of_true ⟨s.asyncCommands.cache.heap.next, ?_, saveInCache_cmd_new⟩ ?_
      · rw [saveInCache_cache, CommandCache.insertNew_list_of_new s.notLru (room hroom) hq]
        exact List.mem_append_right _ (List.mem_singleton_self _)
      · exact fun p hp hcollide =>
          absurd hcollide (CommandCache.findUnique_eq_none_iff.mp hq p hp)
  | some q =>
      obtain ⟨hmem, hcollide⟩ := CommandCache.findUnique_eq_some hq
      have hperm : ∀ p, p ∈ (s.saveInCache item).1.asyncCommands.cache.list ↔
          p ∈ s.asyncCommands.cache.list := by
        intro p
        rw [saveInCache_cache, CommandCache.insertNew_list_of_find s.notLru (room hroom) hq]
        exact ((List.perm_append_singleton q _).trans (List.perm_cons_erase hmem).symm).mem_iff
      constructor
      · rintro ⟨p, hp, heq⟩ p' hp' hcollide'
        rw [hperm] at hp
        rw [saveInCache_cmd hp] at heq
        have hp'' : Command.collide h (s.asyncCommands.cmd p) item := heq ▸ Command.collide_self
        rwa [s.asyncCommands.cache.eq_of_collide hp' hp hcollide' hp'']
      · intro honly
        refine ⟨q, (hperm q).mpr hmem, ?_⟩
        rw [saveInCache_cmd hmem]
        exact honly q hmem hcollide

end InCache

/-! ### What the store does -/

section InStore

variable {s coll} {item : Command}

/-- The second step succeeds when the store takes the command, and leaves the cache in any
case. -/
lemma saveInStore_spec :
    (s.Takes coll item ∧ ∃ s', (s.saveInCache item).1.saveInStore coll (s.saveInCache item).2
        = (s', .ok ()) ∧ s'.asyncCommands = (s.saveInCache item).1.asyncCommands ∧
          (s.Stored → CommandCollection.obj2BSON item ∈ s'.table.docs)) ∨
    (¬ s.Takes coll item ∧ ∃ s' e, (s.saveInCache item).1.saveInStore coll (s.saveInCache item).2
        = (s', .error e) ∧ s'.asyncCommands = (s.saveInCache item).1.asyncCommands) := by
  have hstored : (s.saveInCache item).1.Stored ↔ s.Stored := Iff.rfl
  rw [saveInStore, saveInCache_cmd_new]
  by_cases hs : s.Stored
  · rw [if_pos (hstored.mpr hs)]
    cases hinsert : coll.insert (s.saveInCache item).1.table
        (CommandCollection.obj2BSON item) 0 with
    | ok t =>
        obtain ⟨hanswers, hok⟩ := Collection.insert_eq_ok_iff.mp hinsert
        refine Or.inl ⟨fun _ => ⟨hanswers, fun doc hdoc heq => ?_⟩, _, rfl, rfl, fun _ => ?_⟩
        · have hnone : (s.saveInCache item).1.table.insert (CommandCollection.obj2BSON item)
              = none := Table.insert_eq_none_iff.mpr
            ⟨commandIndex, List.mem_singleton_self _, doc, hdoc, heq⟩
          rw [hok] at hnone
          cases hnone
        · show _ ∈ t.docs
          rw [Table.insert_docs hok]
          exact List.mem_append_right _ (List.mem_singleton_self _)
    | error e =>
        refine Or.inr ⟨fun htakes => ?_, _, _, rfl, rfl⟩
        obtain ⟨hanswers, hfresh⟩ := htakes hs
        cases hok : (s.saveInCache item).1.table.insert (CommandCollection.obj2BSON item) with
        | none =>
            obtain ⟨index, hindex, doc, hdoc, heq⟩ := Table.insert_eq_none_iff.mp hok
            rw [List.mem_singleton] at hindex
            exact hfresh doc hdoc (hindex ▸ heq)
        | some t =>
            rw [Collection.insert_eq_ok_iff.mpr ⟨hanswers, hok⟩] at hinsert
            cases hinsert
  · rw [if_neg (mt hstored.mp hs)]
    exact Or.inl ⟨fun h => absurd h hs, _, rfl, rfl, fun h => absurd h hs⟩

end InStore

/-- **A command that cannot be stored** stays in the cache: saving is all or nothing exactly
when there is no identifier, or the cache is full, or the store takes the command and the cache
has no other command in its place, or the store refuses it and the cache has not seen it. -/
theorem saveCommand_allOrNothing_iff (s : TimedCommandHandle h) (coll : Collection)
    (commandName commandId : String) (timeout : ℤ) (commandToSend : PTree) (itemDev : Device)
    (entityType endpoint : String) (service : PTree) (sequence : String) (status : ℤ) :
    s.AllOrNothing coll commandName commandId timeout commandToSend itemDev entityType endpoint
        service sequence status ↔
      commandId = "" ∨ s.Full ∨
        let item := CommandHandle.newCommand commandName commandId timeout commandToSend itemDev
          entityType endpoint service sequence status
        (s.Takes coll item ∧ s.OnlyItself item) ∨ (¬ s.Takes coll item ∧ s.Unseen item) := by
  rw [AllOrNothing, saveCommand]
  by_cases hid : commandId = ""
  · rw [if_pos hid]
    exact iff_of_true ⟨rfl, fun _ _ => rfl, rfl⟩ (Or.inl hid)
  rw [if_neg hid, or_iff_right hid]
  dsimp only
  generalize CommandHandle.newCommand commandName commandId timeout commandToSend itemDev
    entityType endpoint service sequence status = item
  rcases s.saveInStore_spec with ⟨htakes, s', heq, hcache, hdocs⟩ | ⟨htakes, s', e, heq, hcache⟩
  · rw [heq]
    dsimp only
    rw [hcache]
    by_cases hfull : s.Full
    · exact iff_of_true ⟨Or.inl hfull, hdocs⟩ (Or.inl hfull)
    · rw [and_iff_left hdocs, or_iff_right hfull, or_iff_right hfull,
        exists_saveInCache_iff hfull]
      simp [htakes]
  · rw [heq]
    dsimp only
    rw [hcache]
    by_cases hfull : s.Full
    · exact iff_of_true (saveInCache_unchanged_of_full hfull) (Or.inl hfull)
    · rw [or_iff_right hfull, saveInCache_unchanged_iff hfull]
      simp [htakes]

/-- After an exception the property speaks of the cache alone. -/
lemma AllOrNothing.unchanged {s : TimedCommandHandle h} {coll : Collection}
    {commandName commandId : String} {timeout : ℤ} {commandToSend : PTree} {itemDev : Device}
    {entityType endpoint : String} {service : PTree} {sequence : String} {status : ℤ}
    (hall : s.AllOrNothing coll commandName commandId timeout commandToSend itemDev entityType
      endpoint service sequence status)
    (hthrows : (s.saveCommand coll commandName commandId timeout commandToSend itemDev entityType
      endpoint service sequence status).2.isOk = false) :
    Unchanged s.asyncCommands (s.saveCommand coll commandName commandId timeout commandToSend
      itemDev entityType endpoint service sequence status).1.asyncCommands := by
  rw [AllOrNothing] at hall
  revert hall hthrows
  generalize s.saveCommand coll commandName commandId timeout commandToSend itemDev entityType
    endpoint service sequence status = result
  obtain ⟨s', e | u⟩ := result
  · exact fun hunchanged _ => hunchanged
  · exact fun _ hthrows => absurd hthrows (by simp [Except.isOk, Except.toBool])

/-- An agent without commands over an empty store. -/
def started : TimedCommandHandle ⟨fun n s => n + s.length, fun n => n⟩ where
  storageType := StoreTypes.mongodb
  asyncCommands := TimedCommandCache.empty Types.maxSizeCache false
  table := Table.empty
  maxNumItems := rfl
  notLru := rfl

/-- The table of commands on a server that answers. -/
def commandTable : Collection :=
  ⟨"iot", "COMMAND", fun _ => "", fun _ => none⟩

/-- The command `d1@ping`, in the request with the given sequence. -/
def savePing (s : TimedCommandHandle ⟨fun n s => n + s.length, fun n => n⟩) (sequence : String) :
    TimedCommandHandle ⟨fun n s => n + s.length, fun n => n⟩ × Except IotaException Unit :=
  s.saveCommand commandTable "ping" "d1@ping" 60 [] (Device.ofName "d1" "service") "thing" ""
    [(StoreTypes.service, "service"), (StoreTypes.servicePath, "/")] sequence Types.readyForRead

/-- The command is sent again before it is answered. -/
theorem not_allOrNothing_sentTwice :
    ¬ (started.savePing "1").1.AllOrNothing commandTable "ping" "d1@ping" 60 []
      (Device.ofName "d1" "service") "thing" ""
      [(StoreTypes.service, "service"), (StoreTypes.servicePath, "/")] "2"
      Types.readyForRead := by
  intro hall
  have hlist := (hall.unchanged (by decide +kernel)).list
  revert hlist
  decide +kernel

end TimedCommandHandle

end IotAgent
