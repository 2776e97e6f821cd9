import IotAgent.Rest.CommandHandle

/-!
Delivery to a device that polls.

A poll that finds nothing in the cache reads the store, one command at a time.

* `IsWaiting`: a command that waits for the entity of a device;
* `ReturnsWaiting`: a poll returns the stored commands that wait, all of them and no other;
* `returnsWaiting_iff`: without a waiting command in the cache a poll does so exactly when
  at most one waits in the store.
-/

namespace IotAgent

open HashIndex Mongo

namespace CommandHandle

variable {h : Hashing} {s : CommandHandle h} {o : Order Ptr String} {dev : Device}
  {service : PTree}

/-- A command that waits for the entity of the device. -/
def IsWaiting (dev : Device) (service : PTree) (c : Command) : Prop :=
  c.service = service.get StoreTypes.service "" ∧
  c.servicePath = service.get StoreTypes.servicePath "" ∧
  c.entity = dev.getRealName service ∧ c.status = Types.readyForRead

instance (dev : Device) (service : PTree) (c : Command) :
    Decidable (IsWaiting dev service c) :=
  inferInstanceAs (Decidable (_ ∧ _))

/-- The stored commands that wait for the entity of the device. -/
def storedWaiting (s : CommandHandle h) (dev : Device) (service : PTree) : List Command :=
  (s.table.docs.map CommandCollection.bson2Obj).filter fun c => IsWaiting dev service c

/-- The commands that a poll returns. -/
def polled (s : CommandHandle h) (o : Order Ptr String) (dev : Device) (service : PTree) :
    List Command :=
  let (s', res) := s.getAllCommand o (some dev) service
  res.map s'.asyncCommands.cmd

/-- A poll returns every stored command that waits, as delivered, and no other. -/
def ReturnsWaiting (s : CommandHandle h) (o : Order Ptr String) (dev : Device)
    (service : PTree) : Prop :=
  (s.polled o dev service).Perm
    ((s.storedWaiting dev service).map fun c => c.setStatus Types.delivered)

instance (s : CommandHandle h) (o : Order Ptr String) (dev : Device) (service : PTree) :
    Decidable (ReturnsWaiting s o dev service) :=
  inferInstanceAs (Decidable (List.Perm _ _))

/-! ### What a poll returns -/

/-- What a poll returns is what it takes from the cache. -/
lemma polled_eq (hs : s.Stored) : s.polled o dev service =
    (s.takeCommands o dev service).2.map (s.takeCommands o dev service).1.asyncCommands.cmd := by
  simp only [polled, getAllCommand, if_pos hs, foldl_announceDelivered_asyncCommands]

/-- With nothing cached under the key a poll returns the first command of the store. -/
lemma polled_of_miss (hs : s.Stored)
    (hmiss : s.asyncCommands.walk o (waitingKey dev service) = []) :
    s.polled o dev service =
      ((CommandCollection.findOne s.table (waitingKey dev service)).map
        fun c => c.setStatus Types.delivered).toList := by
  have hcall : s.getFunction.call (waitingKey dev service) =
      CommandCollection.findOne s.table (waitingKey dev service) := by
    rw [getFunction, if_pos hs]
    rfl
  rw [polled_eq hs, takeCommands, CommandCache.getByEntityV_miss hmiss, hcall]
  cases CommandCollection.findOne s.table (waitingKey dev service) with
  | none => rfl
  | some c => simp [CommandCache.insertNew_cmd_new]

/-- A command cached under the key is returned, as delivered. -/
lemma mem_polled_of_hit (hs : s.Stored) {p : Ptr}
    (hp : p ∈ s.asyncCommands.walk o (waitingKey dev service)) :
    (s.asyncCommands.cmd p).setStatus Types.delivered ∈ s.polled o dev service := by
  rw [polled_eq hs, takeCommands, CommandCache.getByEntityV_hit (List.ne_nil_of_mem hp)]
  refine List.mem_map.mpr ⟨p, hp, ?_⟩
  dsimp only
  rw [CommandCache.foldl_mark_cmd, if_pos hp]

/-! ### What the store holds -/

/-- Every command that waits matches the query of a poll. -/
lemma matches_of_isWaiting {d : Doc}
    (hd : IsWaiting dev service (CommandCollection.bson2Obj d)) :
    Matches (CommandCollection.obj2BSON (waitingKey dev service)) d := by
  rw [CommandCollection.matches_obj2BSON rfl rfl]
  obtain ⟨hservice, hpath, hentity, hstatus⟩ := hd
  simp [waitingKey, Command.ofEntity, Command.setStatus, hservice, hpath, hentity, hstatus]

lemma mem_storedWaiting {c : Command} : c ∈ s.storedWaiting dev service ↔
    (∃ d ∈ s.table.docs, CommandCollection.bson2Obj d = c) ∧ IsWaiting dev service c := by
  simp [storedWaiting]

/-- A command that the query of a poll finds is stored and ready. -/
lemma stored_of_findOne {c : Command}
    (hc : CommandCollection.findOne s.table (waitingKey dev service) = some c) :
    (∃ d ∈ s.table.docs, CommandCollection.bson2Obj d = c) ∧
      c.status = Types.readyForRead := by
  obtain ⟨d, hd, rfl⟩ := Option.map_eq_some_iff.mp hc
  obtain ⟨hmem, hmatch⟩ := Table.findOne_eq_some hd
  refine ⟨⟨d, hmem, rfl⟩, ?_⟩
  rw [CommandCollection.matches_obj2BSON rfl rfl] at hmatch
  have hready : (waitingKey dev service).status ≠ intMin := by
    simp [waitingKey, Types.readyForRead, intMin]
  exact hmatch.2.2.2.2.2.2.2.1 hready

/-- Where the query finds nothing, nothing waits. -/
lemma storedWaiting_eq_nil
    (hn : CommandCollection.findOne s.table (waitingKey dev service) = none) :
    s.storedWaiting dev service = [] := by
  have hnone := Table.findOne_eq_none_iff.mp (Option.map_eq_none_iff.mp hn)
  refine List.eq_nil_iff_forall_not_mem.mpr fun c hc => ?_
  obtain ⟨⟨d, hd, rfl⟩, hwait⟩ := mem_storedWaiting.mp hc
  exact hnone d hd (matches_of_isWaiting hwait)

/-- Two commands that are ready are told apart when they are delivered. -/
lemma eq_of_setStatus_eq {a b : Command} {n : ℤ} (ha : a.status = Types.readyForRead)
    (hb : b.status = Types.readyForRead) (hab : a.setStatus n = b.setStatus n) : a = b := by
  obtain ⟨⟩ := a
  obtain ⟨⟩ := b
  simp only [Command.setStatus, Command.mk.injEq] at ha hb hab ⊢
  simp [hab, ha, hb]

/-! ### When it is everything that waits -/

/-- A miss returns everything that waits when that is one command at most, and the first
one that the query finds. -/
lemma returnsWaiting_iff_of_miss (hs : s.Stored)
    (hmiss : s.asyncCommands.walk o (waitingKey dev service) = []) :
    ReturnsWaiting s o dev service ↔ (s.storedWaiting dev service).length ≤ 1 ∧
      ∀ c, CommandCollection.findOne s.table (waitingKey dev service) = some c →
        IsWaiting dev service c := by
  rw [ReturnsWaiting, polled_of_miss hs hmiss]
  cases hc : CommandCollection.findOne s.table (waitingKey dev service) with
  | none => simp [storedWaiting_eq_nil hc]
  | some c =>
      obtain ⟨hstored, hready⟩ := stored_of_findOne hc
      simp only [Option.map_some, Option.toList_some, Option.some.injEq, forall_eq']
      constructor
      · intro hperm
        obtain ⟨w, hw⟩ := List.length_eq_one_iff.mp
          (by simpa using hperm.length_eq.symm : (s.storedWaiting dev service).length = 1)
        have hwait := (mem_storedWaiting.mp (hw ▸ List.mem_singleton_self w)).2
        have heq : c.setStatus Types.delivered = w.setStatus Types.delivered := by
          simpa [hw] using hperm
        rw [eq_of_setStatus_eq hready hwait.2.2.2 heq]
        exact ⟨by simp [hw], hwait⟩
      · rintro ⟨hlen, hwait⟩
        have hmem : c ∈ s.storedWaiting dev service := mem_storedWaiting.mpr ⟨hstored, hwait⟩
        obtain ⟨w, hw⟩ := List.length_eq_one_iff.mp
          (Nat.le_antisymm hlen (List.length_pos_of_mem hmem))
        rw [hw, List.mem_singleton] at hmem
        rw [hw, hmem]
        rfl

/-- A hit returns a command that does not wait. -/
lemma not_returnsWaiting_of_hit (hs : s.Stored)
    (hcache : ∀ p ∈ s.asyncCommands.list, ¬ IsWaiting dev service (s.asyncCommands.cmd p))
    {p : Ptr} (hp : p ∈ s.asyncCommands.list)
    (hkey : s.asyncCommands.entityKey p = (waitingKey dev service).uniqueEntity) :
    ¬ ReturnsWaiting s o dev service := by
  intro hret
  have hwalk : p ∈ s.asyncCommands.walk o (waitingKey dev service) := by
    rw [CommandCache.walk_eq ⟨p, hp, hkey⟩, List.mem_append, List.mem_filter, Order.mem_order]
    exact .inl ⟨hp, by simpa using hkey⟩
  obtain ⟨w, hw, heq⟩ := List.mem_map.mp (hret.subset (mem_polled_of_hit hs hwalk))
  obtain ⟨hservice, hpath, hentity, -⟩ := (mem_storedWaiting.mp hw).2
  have hs' := congrArg Command.service heq
  have hp' := congrArg Command.servicePath heq
  have he' := congrArg Command.entity heq
  simp only [Command.setStatus] at hs' hp' he'
  refine hcache p hp ⟨hs' ▸ hservice, hp' ▸ hpath, he' ▸ hentity, ?_⟩
  exact Command.status_of_uniqueEntity rfl hkey

/-- **A poll after a restart**: without a waiting command in the cache a poll returns the
stored commands that wait exactly when there is one at most, the first that the query finds,
and no cached command of other fields has their joined key. -/
theorem returnsWaiting_iff (s : CommandHandle h) (o : Order Ptr String) (dev : Device)
    (service : PTree) (hs : s.Stored)
    (hcache : ∀ p ∈ s.asyncCommands.list, ¬ IsWaiting dev service (s.asyncCommands.cmd p)) :
    ReturnsWaiting s o dev service ↔
      (∀ p ∈ s.asyncCommands.list,
        s.asyncCommands.entityKey p ≠ (waitingKey dev service).uniqueEntity) ∧
      (s.storedWaiting dev service).length ≤ 1 ∧
      ∀ c, CommandCollection.findOne s.table (waitingKey dev service) = some c →
        IsWaiting dev service c := by
  by_cases hkey : ∀ p ∈ s.asyncCommands.list,
      s.asyncCommands.entityKey p ≠ (waitingKey dev service).uniqueEntity
  · rw [returnsWaiting_iff_of_miss hs (CommandCache.walk_eq_nil_iff.mpr hkey)]
    simp only [and_iff_right hkey]
  · rw [iff_false_right fun hr => hkey hr.1]
    push Not at hkey
    obtain ⟨p, hp, hpk⟩ := hkey
    exact not_returnsWaiting_of_hit hs hcache hp hpk

/-- The record of a command that waits for the entity `room1`. -/
def waitingRecord (id : String) : Doc :=
  CommandCollection.obj2BSON
    { Command.ofStored id "ping" "service" "/" id "room1" "thing" "" 60 none [] with
      status := Types.readyForRead }

/-- An agent with an empty cache over some records. -/
def restarted (docs : List Doc) (hu : Unique [commandIndex] docs) :
    CommandHandle ⟨fun n s => n + s.length, fun n => n⟩ where
  storageType := StoreTypes.mongodb
  bbdd := "iot.COMMAND"
  text _ := ""
  asyncCommands := CommandCache.empty Types.maxSizeCache false
  table := ⟨docs, hu⟩
  sent := []

/-- The device of the entity `room1`, and its service. -/
def room1 : Device := { Device.ofName "d1" "service" with entityName := "room1" }

def itsService : PTree := [(StoreTypes.service, "service"), (StoreTypes.servicePath, "/")]

/-- One command waits. -/
theorem returnsWaiting_restarted :
    ReturnsWaiting (restarted [waitingRecord "d1@ping"] (by decide +kernel)) Order.blocks
      room1 itsService := by
  have hone := returnsWaiting_iff (restarted [waitingRecord "d1@ping"] (by decide +kernel))
    Order.blocks room1 itsService rfl (by simp [restarted, CommandCache.empty])
  refine hone.mpr ⟨by simp [restarted, CommandCache.empty], by decide +kernel, ?_⟩
  intro c hc
  have hread : c = CommandCollection.bson2Obj (waitingRecord "d1@ping") :=
    Option.some.inj (hc.symm.trans (by decide +kernel))
  rw [hread]
  decide +kernel

/-- Two commands wait and one is returned. -/
theorem not_returnsWaiting_restarted :
    ¬ ReturnsWaiting
      (restarted [waitingRecord "d1@ping", waitingRecord "d1@set"] (by decide +kernel))
      Order.blocks room1 itsService := by
  decide +kernel

end CommandHandle

end IotAgent
