import Mathlib.Algebra.Order.Group.Nat
import Mathlib.Data.List.TakeDrop

/-!
Windows of lists, and of concatenations.

* `Paging.window`: at most `limit` elements, from position `offset` on;
* `window_append`: the window of a concatenation is two windows;
* `Paging.skipped`: the elements of the leading lists that end before the offset;
* `window_sub_eq_iff`: a smaller limit gives the same window exactly when the list does
  not reach beyond it.
-/

namespace Paging

variable {α : Type*}

/-- At most `limit` elements, from position `offset` on. -/
def window (offset limit : ℕ) (l : List α) : List α :=
  (l.drop offset).take limit

/-- The elements of the leading lists that end before the offset. -/
def skipped : ℕ → List (List α) → ℕ
  | _, [] => 0
  | offset, l :: ls =>
      if l.length < offset then l.length + skipped (offset - l.length) ls else 0

variable {offset limit : ℕ} {l m : List α} {ls : List (List α)}

@[simp] lemma window_zero_limit : window offset 0 l = [] := List.take_zero

@[simp] lemma window_nil : window offset limit ([] : List α) = [] := by
  rw [window, List.drop_nil, List.take_nil]

lemma length_window : (window offset limit l).length = min limit (l.length - offset) := by
  rw [window, List.length_take, List.length_drop]

/-- The window of a concatenation is two windows: the second begins where the first list ends,
and has what the first has left of the limit. -/
lemma window_append : window offset limit (l ++ m) =
    window offset limit l ++ window (offset - l.length) (limit - (l.length - offset)) m := by
  simp only [window, List.drop_append, List.take_append, List.length_drop]

lemma skipped_of_lt (h : l.length < offset) :
    skipped offset (l :: ls) = l.length + skipped (offset - l.length) ls := by
  rw [skipped, if_pos h]

lemma skipped_of_le (h : offset ≤ l.length) : skipped offset (l :: ls) = 0 := by
  rw [skipped, if_neg (not_lt.mpr h)]

@[simp] lemma skipped_zero : skipped 0 ls = 0 := by
  cases ls with
  | nil => rfl
  | cons l ls => exact skipped_of_le (Nat.zero_le _)

/-- A list that ends before the offset has no part in the window. -/
lemma window_of_le (h : l.length ≤ offset) : window offset limit l = [] := by
  rw [window, List.drop_eq_nil_of_le h, List.take_nil]

/-- With less of a limit the window is the same exactly when nothing is cut off. -/
lemma window_sub_eq_iff {s : ℕ} (hlimit : 0 < limit) :
    window offset (limit - s) l = window offset limit l ↔
      s = 0 ∨ l.length - offset ≤ limit - s := by
  constructor
  · intro h
    have hlength : (window offset (limit - s) l).length = (window offset limit l).length :=
      congrArg List.length h
    rw [length_window, length_window] at hlength
    omega
  · rintro (rfl | h)
    · rfl
    · rw [window, window, List.take_of_length_le, List.take_of_length_le]
      · rw [List.length_drop]
        omega
      · rwa [List.length_drop]

end Paging
