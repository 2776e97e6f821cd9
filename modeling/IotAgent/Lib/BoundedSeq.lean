import Mathlib.Data.List.Pairwise
import Mathlib.Data.List.Perm.Subperm

/-!
Bounded sequences with a unique index.

The elements stand in a sequence, and an index refuses an element that it takes for one
that is there. The index compares by a relation `R`, reflexive and symmetric but not
necessarily transitive: a hashed index compares within one bucket only.

* `Distinct`: the index takes no two elements for one another;
* `insert`: insertion that drops the oldest element of a full sequence (`lru`), or refuses
  any element when the sequence is full; a duplicate only moves the element that is there;
* `insert_perm_of_find`, `insert_perm_cons`, `insert_subperm`: the content afterwards;
* `Distinct.insert`: the index stays unique.
-/

namespace BoundedSeq

variable {α : Type*} (R : α → α → Prop)

/-- No two elements are related. -/
def Distinct (l : List α) : Prop :=
  l.Pairwise fun x y => ¬ R x y

/-- The element that the index takes for `x`. -/
def find [DecidableRel R] (x : α) (l : List α) : Option α :=
  l.find? fun y => R y x

/-- Insertion of `x` into a sequence of at most `capacity` elements. -/
def insert [DecidableEq α] [DecidableRel R] (capacity : ℕ) (lru : Bool) (x : α) (l : List α) :
    List α :=
  if lru then
    match find R x l with
    | some y => y :: l.erase y
    | none => if (x :: l).length > capacity then (x :: l).dropLast else x :: l
  else if l.length < capacity then
    match find R x l with
    | some y => l.erase y ++ [y]
    | none => l ++ [x]
  else l

variable {R} {capacity : ℕ} {lru : Bool} {x y : α} {l m : List α}

/-! ### The index -/

lemma Distinct.sublist (hl : Distinct R l) (hm : m.Sublist l) : Distinct R m :=
  List.Pairwise.sublist hm hl

lemma Distinct.perm (hR : ∀ a b, R a b → R b a) (hl : Distinct R l) (hm : m.Perm l) :
    Distinct R m :=
  (hm.symm.pairwise_iff fun hab hba => hab (hR _ _ hba)).mp hl

lemma Distinct.subperm (hR : ∀ a b, R a b → R b a) (hl : Distinct R l) (hm : m.Subperm l) :
    Distinct R m := by
  obtain ⟨m', hperm, hsub⟩ := hm
  exact (hl.sublist hsub).perm hR hperm.symm

/-- Two related elements are one. -/
lemma Distinct.eq_of_rel (hR : ∀ a b, R a b → R b a) (hl : Distinct R l) (hx : x ∈ l)
    (hy : y ∈ l) (hxy : R x y) : x = y := by
  by_contra hne
  have hsymm : Std.Symm fun a b => ¬ R a b := ⟨fun _ _ hab hba => hab (hR _ _ hba)⟩
  exact List.Pairwise.forall hl hx hy hne hxy

lemma Distinct.nodup (hrefl : ∀ a, R a a) (hl : Distinct R l) : l.Nodup := by
  refine List.Pairwise.imp ?_ hl
  rintro a _ hab rfl
  exact hab (hrefl a)

variable [DecidableRel R]

lemma mem_of_find (hy : find R x l = some y) : y ∈ l ∧ R y x :=
  ⟨List.mem_of_find?_eq_some hy, by simpa using List.find?_some hy⟩

lemma find_eq_none_iff : find R x l = none ↔ ∀ y ∈ l, ¬ R y x := by
  simp [find]

lemma Distinct.cons (hR : ∀ a b, R a b → R b a) (hl : Distinct R l)
    (hx : find R x l = none) : Distinct R (x :: l) :=
  List.pairwise_cons.mpr ⟨fun y hy hxy => find_eq_none_iff.mp hx y hy (hR _ _ hxy), hl⟩

/-- An element finds itself. -/
lemma Distinct.find_self (hrefl : ∀ a, R a a) (hR : ∀ a b, R a b → R b a)
    (hl : Distinct R l) (hx : x ∈ l) : find R x l = some x := by
  cases hy : find R x l with
  | none => exact absurd (hrefl x) (find_eq_none_iff.mp hy x hx)
  | some y =>
      obtain ⟨hmem, hyx⟩ := mem_of_find hy
      rw [hl.eq_of_rel hR hmem hx hyx]

/-! ### Insertion -/

variable [DecidableEq α]

/-- A duplicate changes the order only. -/
lemma insert_perm_of_find (hy : find R x l = some y) :
    (insert R capacity lru x l).Perm l := by
  have hfront : (y :: l.erase y).Perm l := (List.perm_cons_erase (mem_of_find hy).1).symm
  rw [insert, hy]
  dsimp only
  split
  · exact hfront
  · split
    · exact (List.perm_append_singleton y _).trans hfront
    · exact .refl _

/-- A new element is taken when there is room. -/
lemma insert_perm_cons (hx : find R x l = none) (hroom : l.length < capacity) :
    (insert R capacity lru x l).Perm (x :: l) := by
  by_cases hl : lru
  · simp [insert, hx, hl, Nat.not_lt_of_le hroom]
  · simp [insert, hx, hl, hroom]

/-- Nothing comes in but the new element. -/
lemma insert_subperm : (insert R capacity lru x l).Subperm (x :: l) := by
  cases hx : find R x l with
  | some y =>
      exact (insert_perm_of_find hx).subperm.trans (List.sublist_cons_self _ _).subperm
  | none =>
      rw [insert, hx]
      dsimp only
      split
      · split
        · exact (List.dropLast_sublist _).subperm
        · exact List.Subperm.refl _
      · split
        · exact (List.perm_append_singleton x l).subperm
        · exact (List.sublist_cons_self _ _).subperm

/-- A full sequence takes nothing. -/
lemma insert_of_full (hfull : capacity ≤ l.length) : insert R capacity false x l = l := by
  simp [insert, Nat.not_lt_of_le hfull]

/-- A duplicate moves the element that is there to the end. -/
lemma insert_of_find (hroom : l.length < capacity) (hy : find R x l = some y) :
    insert R capacity false x l = l.erase y ++ [y] := by
  simp [insert, hroom, hy]

/-- A new element comes to the end. -/
lemma insert_of_new (hroom : l.length < capacity) (hx : find R x l = none) :
    insert R capacity false x l = l ++ [x] := by
  simp [insert, hroom, hx]

omit [DecidableRel R] in
/-- A move to the end leaves the sequence as it is only for its last element. -/
lemma erase_append_eq_self_iff (hl : l.Nodup) (hy : y ∈ l) :
    l.erase y ++ [y] = l ↔ l.getLast? = some y := by
  constructor
  · intro heq
    rw [← heq, List.getLast?_append, List.getLast?_singleton]
    rfl
  · intro hlast
    obtain ⟨m, rfl⟩ := List.getLast?_eq_some_iff.mp hlast
    have hm : y ∉ m := fun hm =>
      (List.nodup_append.mp hl).2.2 y hm y (List.mem_singleton_self y) rfl
    rw [List.erase_append_right _ hm, List.erase_cons_head, List.append_nil]

/-- The index stays unique. -/
theorem Distinct.insert (hR : ∀ a b, R a b → R b a) (hl : Distinct R l) :
    Distinct R (BoundedSeq.insert R capacity lru x l) := by
  cases hx : find R x l with
  | some y => exact hl.perm hR (insert_perm_of_find hx)
  | none => exact (hl.cons hR hx).subperm hR insert_subperm

end BoundedSeq
