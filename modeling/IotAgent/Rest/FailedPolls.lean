import IotAgent.Rest.Delivery

/-!
Polls that fail on the way.

A poll marks all commands of a device in the cache and then writes and announces each of
them. A call of the store or of the context broker that throws ends the poll without a
result.

* `PollFaults`: which of the calls throw;
* `pollCommands`: `get_all_command` with its exceptions, and `pollCommands_eq_getAllCommand`:
  without any it is `getAllCommand`;
* `HandsOver`: every command of the device is in the result of the poll or still waits;
* `handsOver_iff`: that is so exactly when none of the calls throws, or the device has no
  command.
-/

namespace IotAgent

open HashIndex Mongo

/-- The calls of a poll that throw: the updates of the store and of the context broker, for
the command of each number. -/
structure PollFaults where
  store : ℕ → Bool
  broker : ℕ → Bool

/-- A call for the command of the number throws. -/
def PollFaults.At (f : PollFaults) (i : ℕ) : Prop :=
  f.store i = true ∨ f.broker i = true

namespace CommandHandle

variable {h : Hashing} (s : CommandHandle h) (o : Order Ptr String) (f : PollFaults)
  (dev : Device) (service : PTree)

/-- The loop over the commands, from a number on, and whether it comes to its end. -/
def announceAll (s : CommandHandle h) : ℕ → List Ptr → CommandHandle h × Bool
  | _, [] => (s, true)
  | i, p :: ps =>
      if f.store i then (s, false)
      else
        let item := s.asyncCommands.cmd p
        let s := (s.markDelivered item.id item.service item.servicePath).1
        if f.broker i then (s, false)
        else announceAll (s.sendDelivered item.name dev service) (i + 1) ps

/-- `get_all_command`, which has no result when one of its calls throws. -/
def pollCommands : CommandHandle h × Option (List Ptr) :=
  if s.Stored then
    let (s, res) := s.takeCommands o dev service
    match announceAll f dev service s 0 res with
    | (s, true) => (s, some res)
    | (s, false) => (s, none)
  else (s, some [])

/-- A command of the device: one that waits in the cache, or the one that the poll reads from
the store. -/
def OfDevice (p : Ptr) : Prop :=
  (p ∈ s.asyncCommands.list ∧ IsWaiting dev service (s.asyncCommands.cmd p)) ∨
    (p ∉ s.asyncCommands.list ∧ p ∈ (s.takeCommands o dev service).2)

/-- After the poll every command of the device is part of the result or waits in the cache. -/
def HandsOver : Prop :=
  ∀ p, s.OfDevice o dev service p →
    (∃ res, (s.pollCommands o f dev service).2 = some res ∧ p ∈ res) ∨
      (p ∈ (s.pollCommands o f dev service).1.asyncCommands.list ∧
        ((s.pollCommands o f dev service).1.asyncCommands.cmd p).status = Types.readyForRead)

variable {s o f dev service}

/-! ### What the loop leaves -/

lemma announceAll_asyncCommands (i : ℕ) (ps : List Ptr) :
    (announceAll f dev service s i ps).1.asyncCommands = s.asyncCommands := by
  induction ps generalizing s i with
  | nil => rfl
  | cons p ps ih =>
      rw [announceAll]
      split
      · rfl
      · dsimp only
        split
        · exact markDelivered_asyncCommands ..
        · rw [ih]
          exact markDelivered_asyncCommands ..

/-- The loop comes to its end when no call for its commands throws. -/
lemma announceAll_end_iff (i : ℕ) (ps : List Ptr) :
    (announceAll f dev service s i ps).2 = true ↔ ∀ j < ps.length, ¬f.At (i + j) := by
  induction ps generalizing s i with
  | nil => simp [announceAll]
  | cons p ps ih =>
      have hshift : (∀ j < (p :: ps).length, ¬f.At (i + j)) ↔
          ¬f.At i ∧ ∀ j < ps.length, ¬f.At (i + 1 + j) := by
        rw [List.length_cons, Nat.forall_lt_succ_left]
        simp only [Nat.add_zero, Nat.add_assoc, Nat.add_comm 1]
      rw [hshift, announceAll]
      by_cases hstore : f.store i = true
      · simp [hstore, PollFaults.At]
      · by_cases hbroker : f.broker i = true
        · simp [hstore, hbroker, PollFaults.At]
        · simp [hstore, hbroker, PollFaults.At, ih]

/-- Without exceptions the poll is `getAllCommand`. -/
theorem pollCommands_eq_getAllCommand (hf : ∀ i, ¬f.At i) :
    s.pollCommands o f dev service =
      ((s.getAllCommand o (some dev) service).1,
        some (s.getAllCommand o (some dev) service).2) := by
  have hloop : ∀ (s : CommandHandle h) (i : ℕ) (ps : List Ptr),
      announceAll f dev service s i ps =
        (ps.foldl (fun s p => s.announceDelivered dev service p) s, true) := by
    intro s i ps
    induction ps generalizing s i with
    | nil => rfl
    | cons p ps ih =>
        obtain ⟨hstore, hbroker⟩ := not_or.mp (hf i)
        rw [announceAll, if_neg hstore]
        dsimp only
        rw [if_neg hbroker, ih]
        rfl
  rw [pollCommands, getAllCommand]
  by_cases hs : s.Stored
  · rw [if_pos hs, if_pos hs]
    dsimp only
    rw [hloop]
  · rw [if_neg hs, if_neg hs]

/-! ### What the poll has taken -/

/-- A waiting command is taken. -/
lemma mem_takeCommands_of_waiting {p : Ptr} (hp : p ∈ s.asyncCommands.list)
    (hwait : IsWaiting dev service (s.asyncCommands.cmd p)) :
    p ∈ (s.takeCommands o dev service).2 := by
  have hkey : s.asyncCommands.entityKey p = (waitingKey dev service).uniqueEntity := by
    obtain ⟨hservice, hpath, hentity, hstatus⟩ := hwait
    rw [CommandCache.entityKey, Command.uniqueEntity, hservice, hpath, hentity, hstatus]
    rfl
  have hwalk : p ∈ s.asyncCommands.walk o (waitingKey dev service) := by
    rw [CommandCache.walk_eq ⟨p, hp, hkey⟩, List.mem_append, List.mem_filter, Order.mem_order]
    exact .inl ⟨hp, by simpa using hkey⟩
  rw [takeCommands, CommandCache.getByEntityV_hit (List.ne_nil_of_mem hwalk)]
  exact hwalk

/-- What is taken is marked. -/
lemma takeCommands_status {p : Ptr} (hp : p ∈ (s.takeCommands o dev service).2) :
    ((s.takeCommands o dev service).1.asyncCommands.cmd p).status = Types.delivered := by
  rw [takeCommands] at hp ⊢
  by_cases hw : s.asyncCommands.walk o (waitingKey dev service) = []
  · rw [CommandCache.getByEntityV_miss hw] at hp ⊢
    cases hget : s.getFunction.call (waitingKey dev service) with
    | none =>
        rw [hget] at hp
        exact absurd hp List.not_mem_nil
    | some newItem =>
        rw [hget] at hp
        obtain rfl := List.mem_singleton.mp hp
        dsimp only
        rw [CommandCache.insertNew_cmd_new, Command.setStatus_status]
  · rw [CommandCache.getByEntityV_hit hw] at hp ⊢
    dsimp only at hp ⊢
    rw [CommandCache.foldl_mark_cmd, if_pos hp, Command.setStatus_status]

lemma OfDevice.mem_taken {p : Ptr} (hp : s.OfDevice o dev service p) :
    p ∈ (s.takeCommands o dev service).2 := by
  rcases hp with ⟨hp, hwait⟩ | ⟨-, hp⟩
  · exact mem_takeCommands_of_waiting hp hwait
  · exact hp

/-! ### Whether everything is handed over -/

/-- Without a store a poll takes nothing. -/
lemma handsOver_of_not_stored (hs : ¬s.Stored) : s.HandsOver o f dev service := by
  have hpoll : s.pollCommands o f dev service = (s, some []) := by
    rw [pollCommands, if_neg hs]
  rintro p (⟨hp, hwait⟩ | ⟨hnot, hp⟩)
  · rw [hpoll]
    exact .inr ⟨hp, hwait.2.2.2⟩
  · -- without a function to get commands only cached ones are taken
    refine absurd ?_ hnot
    rw [takeCommands] at hp
    by_cases hw : s.asyncCommands.walk o (waitingKey dev service) = []
    · rw [CommandCache.getByEntityV_miss hw, getFunction, if_neg hs] at hp
      exact absurd hp List.not_mem_nil
    · rw [CommandCache.getByEntityV_hit hw] at hp
      exact CommandCache.walk_subset hp

/-- **A poll hands over what it marks** exactly when none of its calls throws; else it loses
all commands of the device. -/
theorem handsOver_iff (s : CommandHandle h) (o : Order Ptr String) (f : PollFaults)
    (dev : Device) (service : PTree) :
    s.HandsOver o f dev service ↔
      ¬s.Stored ∨ (∀ i < (s.takeCommands o dev service).2.length, ¬f.At i) ∨
        ∀ p, ¬s.OfDevice o dev service p := by
  by_cases hs : s.Stored
  · rw [or_iff_right (not_not.mpr hs)]
    have hend := @announceAll_end_iff h (s.takeCommands o dev service).1 f dev service 0
      (s.takeCommands o dev service).2
    simp only [Nat.zero_add] at hend
    by_cases hall : ∀ i < (s.takeCommands o dev service).2.length, ¬f.At i
    · refine iff_of_true (fun p hp => .inl ?_) (.inl hall)
      refine ⟨(s.takeCommands o dev service).2, ?_, hp.mem_taken⟩
      rw [pollCommands, if_pos hs]
      dsimp only
      split
      · rfl
      · next heq =>
          have hfalse := congrArg Prod.snd heq
          rw [hend.mpr hall] at hfalse
          cases hfalse
    · have hpoll : (s.pollCommands o f dev service).2 = none ∧
          (s.pollCommands o f dev service).1.asyncCommands =
            (s.takeCommands o dev service).1.asyncCommands := by
        rw [pollCommands, if_pos hs]
        dsimp only
        split
        · next heq => exact absurd (hend.mp (congrArg Prod.snd heq)) hall
        · next s' heq =>
            refine ⟨rfl, ?_⟩
            rw [← congrArg Prod.fst heq]
            exact announceAll_asyncCommands 0 _
      rw [or_iff_right hall]
      refine ⟨fun hover p hp => ?_, fun hnone p hp => absurd hp (hnone p)⟩
      rcases hover p hp with ⟨res, hres, -⟩ | ⟨-, hready⟩
      · rw [hpoll.1] at hres
        cases hres
      · rw [hpoll.2, takeCommands_status hp.mem_taken] at hready
        exact absurd hready (by decide)
  · exact iff_of_true (handsOver_of_not_stored hs) (.inl hs)

lemma unique_waitingRecord : Unique [commandIndex] [waitingRecord "d1@ping"] :=
  fun _ _ => List.pairwise_singleton ..

/-- An agent with a command that waits for the entity `room1`, cached and stored. -/
def oneWaiting : CommandHandle ⟨fun n s => n + s.length, fun n => n⟩ where
  storageType := StoreTypes.mongodb
  bbdd := "iot.COMMAND"
  text _ := ""
  asyncCommands := ((CommandCache.empty Types.maxSizeCache false).insertNew
    { Command.ofStored "d1@ping" "ping" "service" "/" "d1@ping" "room1" "thing" "" 60 none [] with
      status := Types.readyForRead }).1
  table := ⟨[waitingRecord "d1@ping"], unique_waitingRecord⟩
  sent := []

/-- The store cannot be reached. -/
def storeDown : PollFaults := ⟨fun _ => true, fun _ => false⟩

/-- The command is marked and not handed over. -/
theorem not_handsOver_storeDown :
    ¬oneWaiting.HandsOver Order.blocks storeDown room1 itsService := by
  intro hover
  have hdevice : oneWaiting.OfDevice Order.blocks room1 itsService 0 := by
    refine .inl ⟨?_, ?_⟩ <;> decide +kernel
  have hpoll : (oneWaiting.pollCommands Order.blocks storeDown room1 itsService).2 = none := by
    decide +kernel
  rcases hover 0 hdevice with ⟨res, hres, -⟩ | ⟨-, hready⟩
  · rw [hpoll] at hres
    cases hres
  · revert hready
    decide +kernel

end CommandHandle

end IotAgent
