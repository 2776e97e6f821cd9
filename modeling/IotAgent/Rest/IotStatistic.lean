import Mathlib.Data.List.Induction
import Mathlib.Data.String.Basic
import IotAgent.Lib.Heap
import IotAgent.Lib.OrderedMap

/-!
Statistics by the hour (`src/rest/iot_statistic.{h,cc}`).

A statistic keeps, for every hour in which something was recorded, one accumulator for each
name. A value comes in at once, by `add`, or through the accumulator that the subscript operator
hands out, when the object that holds it goes out of scope. Before a new hour comes in the least
one leaves if there are 24.

* `Arith`, `Accumulator`: the arithmetic of the values, and what is accumulated of them;
* `IotStatistic`: the accumulators by hour and name, with `fetch`, `push` and `add`;
* `fetch_cases`, `add_eq`: what the look-up does, and that an addition is a value for what the
  look-up hands out.
-/

namespace IotAgent

/-! ### Accumulators -/

/-- The arithmetic of the values. -/
structure Arith (V : Type*) where
  zero : V
  add : V → V → V
  lowest : V
  highest : V
  max : V → V → V
  min : V → V → V

/-- An accumulator; the mean is computed from the sum and the count. -/
@[ext] structure Accumulator (V : Type*) where
  count : ℕ
  sum : V
  max : V
  min : V
  deriving DecidableEq

namespace Arith

variable {V : Type*} (A : Arith V)

/-- An accumulator without values. -/
def init : Accumulator V :=
  ⟨0, A.zero, A.lowest, A.highest⟩

/-- One more value. -/
def push (a : Accumulator V) (v : V) : Accumulator V :=
  ⟨a.count + 1, A.add a.sum v, A.max a.max v, A.min a.min v⟩

/-- The values one after the other. -/
def accumulate (vs : List V) : Accumulator V :=
  vs.foldl A.push A.init

lemma accumulate_concat (vs : List V) (v : V) :
    A.accumulate (vs ++ [v]) = A.push (A.accumulate vs) v :=
  List.foldl_concat ..

lemma accumulate_count (vs : List V) : (A.accumulate vs).count = vs.length := by
  induction vs using List.reverseRecOn with
  | nil => rfl
  | append_singleton vs v ih => rw [accumulate_concat, push, ih, List.length_append]; rfl

lemma accumulate_sum (vs : List V) : (A.accumulate vs).sum = vs.foldl A.add A.zero := by
  induction vs using List.reverseRecOn with
  | nil => rfl
  | append_singleton vs v ih => rw [accumulate_concat, push, ih, List.foldl_concat]

end Arith

/-! ### The statistic -/

/-- A statistic; its accumulators stand behind shared pointers. -/
structure IotStatistic (V : Type*) where
  enabled : Bool
  accumulators : OrderedMap ℤ (OrderedMap String Ptr)
  heap : Heap (Accumulator V)

namespace IotStatistic

/-- The second at which the hour of a time begins. -/
def hour (now : ℤ) : ℤ :=
  now.tdiv 3600 * 3600

variable {V : Type*} (A : Arith V)

/-- A new statistic. -/
def new : IotStatistic V :=
  ⟨true, OrderedMap.empty, ⟨fun _ => A.init, 0⟩⟩

variable (s : IotStatistic V)

/-- `set_enable`. -/
def setEnable (enabled : Bool) : IotStatistic V :=
  { s with enabled }

/-- `reset`, which does not look at the time. -/
def reset (_timestamp : ℤ) : IotStatistic V :=
  if 24 ≤ s.accumulators.entries.length then
    { s with accumulators := s.accumulators.tail }
  else s

/-- A new accumulator for a name in an hour that is there. -/
def insertName (accTime : ℤ) (accName : String) (acc : Accumulator V) : IotStatistic V × Ptr :=
  let (heap, p) := s.heap.alloc acc
  ({ s with
      heap
      accumulators := s.accumulators.adjust accTime fun accs => accs.insert (accName, p) }, p)

/-- A new hour with an accumulator for a name. -/
def insertHour (accTime : ℤ) (accName : String) (acc : Accumulator V) : IotStatistic V × Ptr :=
  let (heap, p) := s.heap.alloc acc
  ({ s with
      heap
      accumulators := s.accumulators.insert (accTime, OrderedMap.empty.insert (accName, p)) }, p)

/-- A value for the accumulator behind a pointer. -/
def push (p : Ptr) (value : V) : IotStatistic V :=
  { s with heap := s.heap.modify (A.push · value) p }

/-- The subscript operator. -/
def fetch (accName : String) (now : ℤ) : IotStatistic V × Option Ptr :=
  if s.enabled then
    let accTime := hour now
    match s.accumulators.get accTime with
    | some accs =>
        match accs.get accName with
        | some p => (s, some p)
        | none =>
            let (s', p) := s.insertName accTime accName A.init
            (s', some p)
    | none =>
        let (s', p) := (s.reset accTime).insertHour accTime accName A.init
        (s', some p)
  else (s, none)

/-- `add`. -/
def add (accName : String) (value : V) (now : ℤ) : IotStatistic V :=
  if s.enabled then
    let accTime := hour now
    match s.accumulators.get accTime with
    | some accs =>
        match accs.get accName with
        | some p => s.push A p value
        | none => (s.insertName accTime accName (A.push A.init value)).1
    | none => ((s.reset accTime).insertHour accTime accName (A.push A.init value)).1
  else s

/-- What happens to a statistic; the clock is read when an accumulator is looked for. -/
inductive Op (V : Type*) where
  | setEnable (enabled : Bool)
  | add (accName : String) (value : V) (now : ℤ)
  | fetch (accName : String) (now : ℤ)
  | push (p : Ptr) (value : V)

def apply : Op V → IotStatistic V
  | .setEnable enabled => s.setEnable enabled
  | .add accName value now => s.add A accName value now
  | .fetch accName now => (s.fetch A accName now).1
  | .push p value => s.push A p value

/-- The statistic after a run. -/
def run (ops : List (Op V)) : IotStatistic V :=
  ops.foldl (fun s op => s.apply A op) s

/-- The hours that are kept. -/
def hours : List ℤ :=
  s.accumulators.keys

/-- The pointer for a name in an hour. -/
def find (h : ℤ) (accName : String) : Option Ptr :=
  (s.accumulators.get h).bind (·.get accName)

/-- The accumulator for a name in an hour. -/
def accumulator (h : ℤ) (accName : String) : Option (Accumulator V) :=
  (s.find h accName).map s.heap.obj

variable {s A} {accName : String} {value : V} {now h t : ℤ} {p : Ptr}

/-! ### One look-up for both ways to record -/

lemma heap_push {H : Heap (Accumulator V)} :
    (H.alloc (A.push A.init value)).1 = (H.alloc A.init).1.modify (A.push · value) H.next := by
  simp [Heap.alloc, Heap.modify]

lemma insertName_push : (s.insertName t accName (A.push A.init value)).1 =
    (s.insertName t accName A.init).1.push A s.heap.next value := by
  simp only [insertName, push, ← heap_push]
  rfl

lemma insertHour_push : (s.insertHour t accName (A.push A.init value)).1 =
    (s.insertHour t accName A.init).1.push A s.heap.next value := by
  simp only [insertHour, push, ← heap_push]
  rfl

@[simp] lemma reset_heap : (s.reset t).heap = s.heap := by
  rw [reset]
  split <;> rfl

@[simp] lemma reset_enabled : (s.reset t).enabled = s.enabled := by
  rw [reset]
  split <;> rfl

/-- What the subscript operator does. -/
lemma fetch_cases (A : Arith V) (s : IotStatistic V) (accName : String) (now : ℤ) :
    (s.enabled = false ∧ s.fetch A accName now = (s, none)) ∨
    (s.enabled = true ∧
      ((∃ p, s.find (hour now) accName = some p ∧ s.fetch A accName now = (s, some p)) ∨
       (s.find (hour now) accName = none ∧ hour now ∈ s.hours ∧ s.fetch A accName now =
          ((s.insertName (hour now) accName A.init).1, some s.heap.next)) ∨
       (hour now ∉ s.hours ∧ s.fetch A accName now =
          (((s.reset (hour now)).insertHour (hour now) accName A.init).1,
            some s.heap.next)))) := by
  rw [fetch]
  cases s.enabled with
  | false => exact Or.inl ⟨rfl, rfl⟩
  | true =>
      refine Or.inr ⟨rfl, ?_⟩
      cases hhour : s.accumulators.get (hour now) with
      | none =>
          refine Or.inr (Or.inr ⟨OrderedMap.get_eq_none_iff.mp hhour, ?_⟩)
          simp only [if_true, hhour, insertHour, Heap.alloc_ptr, reset_heap]
      | some accs =>
          have hfind : s.find (hour now) accName = accs.get accName := by rw [find, hhour]; rfl
          cases hname : accs.get accName with
          | none =>
              refine Or.inr (Or.inl ⟨hfind.trans hname, ?_, ?_⟩)
              · exact OrderedMap.mem_keys_iff.mpr ⟨accs, hhour⟩
              · simp only [if_true, hhour, hname, insertName, Heap.alloc_ptr]
          | some p => exact Or.inl ⟨p, hfind.trans hname, by simp only [if_true, hhour, hname]⟩

/-- An addition is a value for what the subscript operator hands out. -/
lemma add_eq : s.add A accName value now =
    ((s.fetch A accName now).2.map fun p => (s.fetch A accName now).1.push A p value).getD s := by
  rw [add, fetch]
  cases s.enabled with
  | false => rfl
  | true =>
      cases hhour : s.accumulators.get (hour now) with
      | none =>
          have hp : ((s.reset (hour now)).insertHour (hour now) accName A.init).2 = s.heap.next :=
            congrArg Heap.next reset_heap
          simp only [if_true, hhour, insertHour_push, reset_heap, hp]
          rfl
      | some accs =>
          cases hname : accs.get accName with
          | none =>
              simp only [if_true, hhour, hname, insertName_push]
              rfl
          | some p =>
              simp only [if_true, hhour, hname]
              rfl

end IotStatistic

end IotAgent
