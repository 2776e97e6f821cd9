import Mathlib.Data.List.Basic
import Mathlib.Data.Nat.Notation
import Mathlib.Logic.Function.Basic

/-!
Deadline timers with completion handlers, as an event loop runs them.

An owner has one timer. To arm it cancels the wait it has and waits for a new deadline. When a
wait ends, because its deadline has passed or because it is cancelled, its handler is put
into a queue with the result, and runs some time later. A handler that is in the queue is
not taken back by a cancellation.

* `Timers`: the waits and the queue, with the invariant that no handler is queued as
  successful before its deadline;
* `start`, `cancel`, `elapse`, `expire`, `take`: the events;
* `due_of_mem_queued`: how late it is when a successful handler is in the queue;
* `Pending`: whether a handler of an owner is still to come or in the queue as successful.
-/

/-- One arming of the timer of an owner. -/
structure Arming (ι : Type*) where
  owner : ι
  armedAt : ℕ
  duration : ℕ
  deriving DecidableEq

namespace Arming

/-- When the wait is over. -/
def deadline {ι : Type*} (a : Arming ι) : ℕ :=
  a.armedAt + a.duration

end Arming

/-- The timers of an event loop. `last` is the last arming of the timer of an owner. -/
structure Timers (ι : Type*) where
  now : ℕ
  waiting : List (Arming ι)
  queued : List (Arming ι × Bool)
  last : ι → Option (Arming ι)
  due : ∀ a, (a, true) ∈ queued → a.deadline ≤ now

namespace Timers

variable {ι : Type*}

/-- No timer was ever armed. -/
def empty : Timers ι :=
  ⟨0, [], [], fun _ => none, by simp⟩

variable (t : Timers ι)

/-- Time passes. -/
def elapse (d : ℕ) : Timers ι where
  __ := t
  now := t.now + d
  due := fun a ha => Nat.le_add_right_of_le (t.due a ha)

/-- A successful handler is in the queue at its deadline at the earliest. -/
lemma due_of_mem_queued {t : Timers ι} {a : Arming ι} (ha : (a, true) ∈ t.queued) :
    a.armedAt + a.duration ≤ t.now :=
  t.due a ha

@[simp] lemma elapse_last {d : ℕ} : (t.elapse d).last = t.last := rfl

variable [DecidableEq ι]

/-- The wait of an owner ends; its handler gets `false`. -/
def cancel (o : ι) : Timers ι where
  __ := t
  waiting := t.waiting.filter fun a => a.owner ≠ o
  queued := t.queued ++ (t.waiting.filter fun a => a.owner = o).map fun a => (a, false)
  due := fun a ha => by
    rcases List.mem_append.mp ha with ha | ha
    · exact t.due a ha
    · simp at ha

/-- The timer of an owner is armed for `duration` from now. -/
def start (o : ι) (duration : ℕ) : Timers ι where
  __ := t.cancel o
  waiting := ⟨o, t.now, duration⟩ :: (t.cancel o).waiting
  last := Function.update t.last o (some ⟨o, t.now, duration⟩)

/-- A wait whose deadline has passed ends; its handler gets `true`. -/
def expire (a : Arming ι) : Timers ι :=
  if hdue : a ∈ t.waiting ∧ a.deadline ≤ t.now then
    { t with
      waiting := t.waiting.erase a
      queued := t.queued ++ [(a, true)]
      due := fun b hb => by
        rcases List.mem_append.mp hb with hb | hb
        · exact t.due b hb
        · simp only [List.mem_singleton, Prod.mk.injEq, and_true] at hb
          exact hb ▸ hdue.2 }
  else t

/-- A handler leaves the queue to run. -/
def take (a : Arming ι) (result : Bool) : Timers ι where
  __ := t
  queued := t.queued.erase (a, result)
  due := fun b hb => t.due b (List.mem_of_mem_erase hb)

variable {t} {o o' : ι} {d : ℕ} {a : Arming ι} {result : Bool}

/-! ### Armings -/

@[simp] lemma cancel_last : (t.cancel o).last = t.last := rfl

@[simp] lemma cancel_now : (t.cancel o).now = t.now := rfl

@[simp] lemma take_last : (t.take a result).last = t.last := rfl

@[simp] lemma take_now : (t.take a result).now = t.now := rfl

@[simp] lemma expire_last : (t.expire a).last = t.last := by
  rw [expire]
  split <;> rfl

lemma start_last_self : (t.start o d).last o = some ⟨o, t.now, d⟩ :=
  Function.update_self ..

lemma start_last_of_ne (h : o' ≠ o) : (t.start o d).last o' = t.last o' :=
  Function.update_of_ne h ..

/-- What the last arming of an owner is after its timer was armed again, or not. -/
lemma start_last_eq_some (h : (t.start o d).last o' = some a) :
    (o' = o ∧ a = ⟨o, t.now, d⟩) ∨ t.last o' = some a := by
  by_cases ho : o' = o
  · subst ho
    rw [start_last_self, Option.some.injEq] at h
    exact Or.inl ⟨rfl, h.symm⟩
  · rw [start_last_of_ne ho] at h
    exact Or.inr h

/-! ### Handlers to come -/

/-- The owner has a wait that is not over, or a successful handler in the queue. -/
def Pending (t : Timers ι) (o : ι) : Prop :=
  (∃ a ∈ t.waiting, a.owner = o) ∨ ∃ a, (a, true) ∈ t.queued ∧ a.owner = o

/-- A cancellation makes nothing pending. -/
lemma Pending.of_cancel (h : (t.cancel o').Pending o) : t.Pending o := by
  rcases h with ⟨a, ha, rfl⟩ | ⟨a, ha, rfl⟩
  · exact Or.inl ⟨a, List.mem_of_mem_filter ha, rfl⟩
  · rcases List.mem_append.mp ha with ha | ha
    · exact Or.inr ⟨a, ha, rfl⟩
    · simp at ha

/-- An arming makes its own owner pending only. -/
lemma Pending.of_start (h : (t.start o' d).Pending o) (hne : o ≠ o') : t.Pending o := by
  rcases h with ⟨a, ha, rfl⟩ | h
  · rcases List.mem_cons.mp ha with rfl | ha
    · exact absurd rfl hne
    · exact Pending.of_cancel (Or.inl ⟨a, ha, rfl⟩)
  · exact Pending.of_cancel (Or.inr h)

/-- The end of a wait makes nothing pending that was not. -/
lemma Pending.of_expire (h : (t.expire a).Pending o) : t.Pending o := by
  rw [expire] at h
  split at h
  · next hdue =>
      rcases h with ⟨b, hb, rfl⟩ | ⟨b, hb, rfl⟩
      · exact Or.inl ⟨b, List.mem_of_mem_erase hb, rfl⟩
      · rcases List.mem_append.mp hb with hb | hb
        · exact Or.inr ⟨b, hb, rfl⟩
        · obtain ⟨rfl, -⟩ := Prod.mk.inj (List.mem_singleton.mp hb)
          exact Or.inl ⟨b, hdue.1, rfl⟩
  · exact h

lemma Pending.of_take (h : (t.take a result).Pending o) : t.Pending o := by
  rcases h with h | ⟨b, hb, rfl⟩
  · exact Or.inl h
  · exact Or.inr ⟨b, List.mem_of_mem_erase hb, rfl⟩

/-- At its deadline the handler of a wait comes into the queue as successful. -/
lemma mem_queued_of_expire (ha : a ∈ t.waiting) :
    (a, true) ∈ ((t.elapse a.deadline).expire a).queued := by
  have hdue : a ∈ (t.elapse a.deadline).waiting ∧ a.deadline ≤ (t.elapse a.deadline).now :=
    ⟨ha, Nat.le_add_left ..⟩
  rw [expire, dif_pos hdue]
  exact List.mem_append_right _ (List.mem_singleton.mpr rfl)

end Timers
