import Mathlib.Data.List.Infix

/-!
The first place where a pattern stands in a list.

* `find`, `findFrom`: the place, in the whole list and from a position on;
* `find_of_notMem`, `find_eq_none_of_notMem`: patterns whose first element stands nowhere before;
* `find_eq_some`: what is known of a place that is found;
* `find_element`, `findFrom_element`, `drop_behind`: one element, and what is behind it.
-/

namespace FirstOccurrence

variable {α : Type} [DecidableEq α] {c : α} {pat cs x y z : List α} {i : ℕ}

/-- The first position of a pattern. -/
def find (pat : List α) : List α → Option ℕ
  | [] => if pat = [] then some 0 else none
  | c :: cs => if pat <+: c :: cs then some 0 else (find pat cs).map (· + 1)

/-- The first position of a pattern that is not before the given one. -/
def findFrom (pat : List α) (pos : ℕ) (cs : List α) : Option ℕ :=
  (find pat (cs.drop pos)).map (· + pos)

/-- A pattern is found behind elements of which none is its first one. -/
lemma find_of_notMem (hc : c ∉ x) (pat y : List α) :
    find (c :: pat) (x ++ (c :: pat ++ y)) = some x.length := by
  induction x with
  | nil =>
      exact if_pos (List.prefix_append (c :: pat) y)
  | cons d x ih =>
      obtain ⟨hd, hx⟩ := not_or.mp (List.mem_cons.not.mp hc)
      have hne : ¬ c :: pat <+: d :: (x ++ (c :: pat ++ y)) := by
        rintro ⟨t, ht⟩
        exact hd (List.cons.inj ht).1
      rw [List.cons_append, find, if_neg hne, ih hx]
      rfl

lemma find_eq_none_of_notMem (hc : c ∉ cs) (pat : List α) : find (c :: pat) cs = none := by
  induction cs with
  | nil => exact if_neg (List.cons_ne_nil c pat)
  | cons d cs ih =>
      obtain ⟨hd, hcs⟩ := not_or.mp (List.mem_cons.not.mp hc)
      have hne : ¬ c :: pat <+: d :: cs := by
        rintro ⟨t, ht⟩
        exact hd (List.cons.inj ht).1
      rw [find, if_neg hne, ih hcs]
      rfl

/-- Nothing is found in elements of which none is the first one of the pattern. -/
lemma find_append_of_notMem (hc : c ∉ x) (pat y : List α) :
    find (c :: pat) (x ++ y) = (find (c :: pat) y).map (· + x.length) := by
  induction x with
  | nil =>
      rw [List.nil_append]
      exact (Option.map_id' ..).symm
  | cons d x ih =>
      obtain ⟨hd, hx⟩ := not_or.mp (List.mem_cons.not.mp hc)
      have hne : ¬ c :: pat <+: d :: (x ++ y) := by
        rintro ⟨t, ht⟩
        exact hd (List.cons.inj ht).1
      rw [List.cons_append, find, if_neg hne, ih hx, Option.map_map]
      rfl

/-- The pattern stands at the position that is found, and nowhere before. -/
lemma find_eq_some (h : find pat cs = some i) :
    ∃ x y, cs = x ++ (pat ++ y) ∧ x.length = i ∧
      ∀ x' y', cs = x' ++ (pat ++ y') → i ≤ x'.length := by
  induction cs generalizing i with
  | nil =>
      rw [find] at h
      split at h
      · next hnil =>
          obtain rfl := Option.some.inj h
          exact ⟨[], [], by rw [hnil]; rfl, rfl, fun _ _ _ => Nat.zero_le _⟩
      · cases h
  | cons c cs ih =>
      rw [find] at h
      split at h
      · next hpre =>
          obtain ⟨y, hy⟩ := hpre
          obtain rfl := Option.some.inj h
          exact ⟨[], y, hy.symm, rfl, fun _ _ _ => Nat.zero_le _⟩
      · next hpre =>
          obtain ⟨j, hj, rfl⟩ := Option.map_eq_some_iff.mp h
          obtain ⟨x, y, hcs, hlen, hfirst⟩ := ih hj
          refine ⟨c :: x, y, by rw [hcs, List.cons_append], by rw [List.length_cons, hlen], ?_⟩
          intro x' y' hx'
          cases x' with
          | nil => exact absurd ⟨y', hx'.symm⟩ hpre
          | cons d x' => exact Nat.succ_le_succ (hfirst x' y' (List.cons.inj hx').2)

/-! ### One element -/

lemma find_element (hc : c ∉ x) (y : List α) : find [c] (x ++ c :: y) = some x.length :=
  find_of_notMem hc [] y

/-- From the end of a part on, an element is found that is behind it. -/
lemma findFrom_element (x : List α) (hc : c ∉ y) (z : List α) :
    findFrom [c] x.length (x ++ (y ++ c :: z)) = some (y.length + x.length) := by
  rw [findFrom, List.drop_left, find_element hc]
  rfl

lemma findFrom_eq_none (x : List α) (hc : c ∉ y) : findFrom [c] x.length (x ++ y) = none := by
  rw [findFrom, List.drop_left, find_eq_none_of_notMem hc]
  rfl

omit [DecidableEq α] in
/-- What is behind an element that is found. -/
lemma drop_behind (x : List α) (c : α) (y : List α) : (x ++ c :: y).drop (x.length + 1) = y := by
  rw [List.append_cons]
  exact List.drop_left' (by rw [List.length_append, List.length_singleton])

omit [DecidableEq α] in
lemma drop_behind_from (x y : List α) (c : α) (z : List α) :
    (x ++ (y ++ c :: z)).drop (y.length + x.length + 1) = z := by
  rw [← List.append_assoc, Nat.add_comm y.length, ← List.length_append]
  exact drop_behind (x ++ y) c z

end FirstOccurrence
