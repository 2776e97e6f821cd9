import Mathlib.Data.Nat.Notation
import Mathlib.Logic.Function.Basic

/-!
Objects behind shared pointers.

A pointer is the number of an object; objects are numbered in the order of their
allocation and are never reused while someone may still hold a pointer to them.

* `Heap.alloc`: a new object behind a fresh pointer;
* `Heap.modify`: a change of one object, seen through every pointer to it.
-/

/-- A shared pointer. -/
abbrev Ptr := ℕ

/-- The objects of a process and the next free pointer. -/
structure Heap (α : Type*) where
  obj : Ptr → α
  next : Ptr

namespace Heap

variable {α : Type*} (H : Heap α) (a : α) (f : α → α) (p q : Ptr)

/-- A new object. -/
def alloc : Heap α × Ptr :=
  (⟨Function.update H.obj H.next a, H.next + 1⟩, H.next)

/-- A change of the object behind `p`. -/
def modify : Heap α :=
  ⟨Function.update H.obj p (f (H.obj p)), H.next⟩

@[simp] lemma alloc_ptr : (H.alloc a).2 = H.next := rfl

@[simp] lemma alloc_next : (H.alloc a).1.next = H.next + 1 := rfl

@[simp] lemma alloc_obj_new : (H.alloc a).1.obj H.next = a := by simp [alloc]

/-- The objects allocated before are unchanged. -/
lemma alloc_obj_of_lt {p : Ptr} (h : p < H.next) : (H.alloc a).1.obj p = H.obj p := by
  simp [alloc, Function.update_of_ne (Nat.ne_of_lt h)]

@[simp] lemma modify_next : (H.modify f p).next = H.next := rfl

@[simp] lemma modify_obj_self : (H.modify f p).obj p = f (H.obj p) := by simp [modify]

/-- Every other object is unchanged. -/
lemma modify_obj_of_ne {p q : Ptr} (h : q ≠ p) : (H.modify f p).obj q = H.obj q := by
  simp [modify, Function.update_of_ne h]

lemma modify_obj : (H.modify f p).obj q = if q = p then f (H.obj q) else H.obj q := by
  by_cases h : q = p
  · rw [if_pos h, h, modify_obj_self]
  · rw [if_neg h, modify_obj_of_ne H f h]

end Heap
