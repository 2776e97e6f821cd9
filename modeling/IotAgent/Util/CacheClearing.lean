import IotAgent.Util.CommandExpiry

/-!
Clearing the cache of commands (`remove_all` in `src/util/command_cache.h`).

The operation erases the element its index by identifier begins with. It does not go on to the
next one, and other than `remove` it does not cancel the timer of what it erases.

* `StillReports`: some continuation has the handler of a command in the queue as successful;
* `Gone`: out of the cache with no handler to come; `gone_run` says that this lasts;
* `Clears`: what clearing promises to the look-ups, to the size and to the timers;
* `clears_run_iff`: it holds of a cache with at most one command that no handler is pending of.
-/

namespace IotAgent

open HashIndex

namespace TimedCommandCache

variable {h : Hashing} (o : Order Ptr String) (c : TimedCommandCache h)

/-- In some continuation a handler of the command is about to report an expiry. -/
def StillReports (p : Ptr) : Prop :=
  ∃ ops a, (a, true) ∈ (c.run o ops).timers.queued ∧ a.owner = p

/-- A command that was inserted once is out of the cache, and no handler of it is to come. -/
structure Gone (p : Ptr) : Prop where
  known : p < c.cache.heap.next
  out : p ∉ c.cache.list
  quiet : ¬ c.timers.Pending p

/-- What clearing a cache means. -/
structure Clears : Prop where
  size : (c.removeAll o).cache.size = 0
  get : ∀ key, ((c.removeAll o).get none key).2 = none
  getByEntity : ∀ key, ((c.removeAll o).getByEntity o none key).2 = none
  getById : ∀ key, ((c.removeAll o).getById o none key).2 = none
  getByEntityV : ∀ key newStatus, ((c.removeAll o).getByEntityV o none key newStatus).2 = []
  silent : ∀ p ∈ c.cache.list, p ∉ (c.removeAll o).cache.list →
    ¬ (c.removeAll o).StillReports o p

variable {o c} {p q : Ptr} {key item : Command} {fetch : GetFunction} {status : ℤ}

/-! ### What is gone stays gone -/

lemma Gone.cancel (hp : c.Gone p) : (c.cancel q).Gone p :=
  ⟨hp.known, hp.out, fun hpend => hp.quiet hpend.of_cancel⟩

lemma Gone.arm (hp : c.Gone p) (hne : p ≠ q) : (c.arm q).Gone p := by
  refine ⟨by simpa using hp.known, by simpa using hp.out, fun hpend => hp.quiet ?_⟩
  rw [arm_timers] at hpend
  split at hpend
  · exact hpend.of_start hne
  · exact hpend

lemma Gone.erase (hp : c.Gone p) : (c.erase q).Gone p :=
  ⟨hp.known, fun hmem => hp.out (List.mem_of_mem_erase hmem), hp.quiet⟩

lemma Gone.alloc (hp : c.Gone p) : (c.alloc item).1.Gone p :=
  ⟨Nat.lt_succ_of_lt hp.known, hp.out, hp.quiet⟩

lemma Gone.setStatus (hp : c.Gone p) : (c.setStatus q status).Gone p :=
  ⟨hp.known, hp.out, hp.quiet⟩

lemma Gone.insertTimers (hp : c.Gone p) (hne : p ≠ q) : (c.insertTimers q).Gone p := by
  rw [TimedCommandCache.insertTimers]
  split
  · split
    · exact hp.arm hne
    · split
      · exact (hp.arm hne).cancel
      · exact hp.arm hne
  · split
    · exact hp.arm hne
    · exact hp

/-- The insertion of another command does not bring it back. -/
lemma Gone.insert (hp : c.Gone p) (hne : p ≠ q) : (c.insert q).Gone p := by
  refine ⟨?_, fun hmem => ?_, (hp.insertTimers hne).quiet⟩
  · rw [insert_cache, CommandCache.insert_heap]
    exact hp.known
  · rw [insert_cache] at hmem
    exact (CommandCache.mem_of_mem_insert hmem).elim hne hp.out

/-- Nor does a new object, which stands behind a pointer of its own. -/
lemma Gone.insertNew (hp : c.Gone p) : (c.insertNew item).1.Gone p :=
  hp.alloc.insert (Nat.ne_of_lt hp.known)

lemma Gone.readThrough {found : Option Ptr} (hp : c.Gone p)
    (hfound : ∀ q, found = some q → q ∈ c.cache.list) :
    (c.readThrough found fetch key).1.Gone p := by
  cases found with
  | some q =>
      refine hp.insert ?_
      rintro rfl
      exact hp.out (hfound p rfl)
  | none =>
      rw [TimedCommandCache.readThrough]
      cases fetch.call key with
      | some newItem => exact hp.insertNew
      | none => exact hp

/-- The loop of the marking look-up inserts what it found in the cache. -/
lemma Gone.foldl_mark {ps : List Ptr} (hp : c.Gone p) (hps : p ∉ ps) :
    (ps.foldl (fun c q => c.mark status q) c).Gone p := by
  induction ps generalizing c with
  | nil => exact hp
  | cons q ps ih =>
      rw [List.mem_cons, not_or] at hps
      exact ih (hp.setStatus.insert hps.1) hps.2

lemma Gone.getByEntityV (hp : c.Gone p) : (c.getByEntityV o fetch key status).1.Gone p := by
  rw [TimedCommandCache.getByEntityV]
  cases hw : c.cache.walk o key with
  | nil =>
      cases fetch.call key with
      | some newItem => exact hp.insertNew
      | none => exact hp
  | cons q ps =>
      refine hp.foldl_mark fun hmem => hp.out ?_
      exact CommandCache.walk_subset (hw ▸ hmem)

lemma Gone.remove (hp : c.Gone p) : (c.remove o key).Gone p := by
  rw [TimedCommandCache.remove]
  split
  · exact hp.cancel.erase
  · exact hp

lemma Gone.removeAll (hp : c.Gone p) : (c.removeAll o).Gone p := by
  rw [TimedCommandCache.removeAll]
  split
  · exact hp.erase
  · exact hp

lemma Gone.itemTimeout {a : Arming Ptr} {success timeoutRemoves : Bool} (hp : c.Gone p) :
    (c.itemTimeout o a success timeoutRemoves).Gone p := by
  have htake : Gone { c with timers := c.timers.take a success } p :=
    ⟨hp.known, hp.out, fun hpend => hp.quiet hpend.of_take⟩
  rw [TimedCommandCache.itemTimeout]
  split
  · cases success with
    | false => exact htake
    | true =>
        cases timeoutRemoves with
        | false => exact htake.remove
        | true => exact htake.remove.remove
  · exact hp

/-- One step keeps it. -/
lemma Gone.apply (hp : c.Gone p) (op : TimedOp) : (c.apply o op).Gone p := by
  cases op with
  | insert item => exact hp.insertNew
  | get fetch key =>
      exact hp.readThrough fun q hq => (CommandCache.findUnique_eq_some hq).1
  | getByEntity fetch key => exact hp.readThrough fun q hq => Order.mem_of_find hq
  | getById fetch key => exact hp.readThrough fun q hq => Order.mem_of_find hq
  | getByEntityV fetch key newStatus => exact hp.getByEntityV
  | remove key => exact hp.remove
  | removeAll => exact hp.removeAll
  | elapse d => exact ⟨hp.known, hp.out, hp.quiet⟩
  | expire a => exact ⟨hp.known, hp.out, fun hpend => hp.quiet hpend.of_expire⟩
  | itemTimeout a success timeoutRemoves => exact hp.itemTimeout

/-- A run keeps it. -/
lemma gone_run (hp : c.Gone p) (ops : List TimedOp) : (c.run o ops).Gone p := by
  induction ops generalizing c with
  | nil => exact hp
  | cons op ops ih => exact ih (hp.apply op)

/-- A command outside of the cache reports an expiry exactly when a handler is pending. -/
lemma stillReports_iff (hknown : p < c.cache.heap.next) (hout : p ∉ c.cache.list) :
    c.StillReports o p ↔ c.timers.Pending p := by
  constructor
  · rintro ⟨ops, a, ha, rfl⟩
    by_contra hquiet
    exact (gone_run ⟨hknown, hout, hquiet⟩ ops).quiet (Or.inr ⟨a, ha, rfl⟩)
  · rintro (⟨a, ha, rfl⟩ | ⟨a, ha, rfl⟩)
    · exact ⟨[.elapse a.deadline, .expire a], a, Timers.mem_queued_of_expire ha, rfl⟩
    · exact ⟨[], a, ha, rfl⟩

/-! ### What clearing does -/

@[simp] lemma removeAll_timers : (c.removeAll o).timers = c.timers := by
  rw [removeAll]
  split <;> rfl

@[simp] lemma removeAll_next : (c.removeAll o).cache.heap.next = c.cache.heap.next := by
  rw [removeAll]
  split <;> rfl

/-- One command is erased, if there is one. -/
lemma removeAll_size : (c.removeAll o).cache.size = c.cache.size - 1 := by
  rw [removeAll]
  split
  · next p ps hord =>
      have hmem : p ∈ c.cache.list := (o.mem_order c.cache.idKey _).mp (hord ▸ List.mem_cons_self)
      exact List.length_erase_of_mem hmem
  · next hord =>
      have hnil : c.cache.list = [] := (hord ▸ o.perm c.cache.idKey c.cache.list).nil_eq.symm
      rw [CommandCache.size, hnil]
      rfl

/-- An empty cache answers no look-up without a function to fetch with. -/
lemma lookups_of_empty (o : Order Ptr String) (hnil : c.cache.list = []) (key : Command)
    (status : ℤ) : (c.get none key).2 = none ∧ (c.getByEntity o none key).2 = none ∧
      (c.getById o none key).2 = none ∧ (c.getByEntityV o none key status).2 = [] := by
  have hnone : ∀ keyOf : Ptr → String, ∀ k, o.find keyOf k c.cache.list = none := fun keyOf k =>
    Order.find_eq_none_iff.mpr (by simp [hnil])
  have hunique : c.cache.findUnique key = none := by simp [CommandCache.findUnique, hnil]
  have hwalk : c.cache.walk o key = [] := CommandCache.walk_eq_nil_iff.mpr (by simp [hnil])
  refine ⟨?_, ?_, ?_, ?_⟩
  · rw [get, hunique]
    rfl
  · rw [getByEntity, hnone]
    rfl
  · rw [getById, hnone]
    rfl
  · rw [getByEntityV, hwalk]
    rfl

/-- A cache is cleared when it holds at most one command and no handler of it is pending. -/
lemma clears_iff :
    c.Clears o ↔ c.cache.size ≤ 1 ∧ ∀ p ∈ c.cache.list, ¬ c.timers.Pending p := by
  have hreports : ∀ p ∈ c.cache.list, p ∉ (c.removeAll o).cache.list →
      ((c.removeAll o).StillReports o p ↔ c.timers.Pending p) := by
    intro p hp hout
    have hknown : p < (c.removeAll o).cache.heap.next := by
      rw [removeAll_next]
      exact c.cache.allocated p hp
    rw [stillReports_iff hknown hout, removeAll_timers]
  constructor
  · intro hcl
    have hsize := hcl.size
    have hnil : (c.removeAll o).cache.list = [] := List.eq_nil_of_length_eq_zero hsize
    rw [removeAll_size] at hsize
    refine ⟨Nat.sub_eq_zero_iff_le.mp hsize, fun p hp hpend => ?_⟩
    have hout : p ∉ (c.removeAll o).cache.list := by simp [hnil]
    exact hcl.silent p hp hout ((hreports p hp hout).mpr hpend)
  · rintro ⟨hone, hquiet⟩
    have hsize : (c.removeAll o).cache.size = 0 := by
      rw [removeAll_size, Nat.sub_eq_zero_of_le hone]
    have hnil : (c.removeAll o).cache.list = [] := List.eq_nil_of_length_eq_zero hsize
    have hlook := lookups_of_empty o hnil
    refine ⟨hsize, fun key => (hlook key 0).1, fun key => (hlook key 0).2.1,
      fun key => (hlook key 0).2.2.1, fun key status => (hlook key status).2.2.2, ?_⟩
    intro p hp hout hrep
    exact hquiet p hp ((hreports p hp hout).mp hrep)

/-- **Clearing**: after every run, clearing empties the cache and silences the timers exactly
when the cache holds at most one command and no handler of that command is pending. -/
theorem clears_run_iff (o : Order Ptr String) (capacity : ℕ) (lru : Bool) (ops : List TimedOp) :
    ((empty capacity lru : TimedCommandCache h).run o ops).Clears o ↔
      ((empty capacity lru : TimedCommandCache h).run o ops).cache.size ≤ 1 ∧
        ∀ p ∈ ((empty capacity lru : TimedCommandCache h).run o ops).cache.list,
          ¬ ((empty capacity lru : TimedCommandCache h).run o ops).timers.Pending p :=
  clears_iff

/-- The second of two commands stays. -/
theorem not_clears_twoCommands :
    ¬ ((empty 10 false : TimedCommandCache Cache.byLength).run Order.blocks
        [.insert { oneSecond with timeout := 0 },
          .insert { oneSecond with id := "dev22@ping", sequence := "1f2e3d", timeout := 0 }]).Clears
      Order.blocks := by
  intro hcl
  have hsize := hcl.size
  revert hsize
  decide +kernel

/-- The timer of a single command goes on to report its expiry. -/
example : ¬ ((empty 10 false : TimedCommandCache Cache.byLength).run Order.blocks
    [.insert oneSecond]).Clears Order.blocks := by
  intro hcl
  refine hcl.silent 0 (by decide +kernel) (by decide +kernel) ?_
  exact ⟨[.elapse second, .expire ⟨0, 0, second⟩], ⟨0, 0, second⟩, by decide +kernel, rfl⟩

end TimedCommandCache

end IotAgent
