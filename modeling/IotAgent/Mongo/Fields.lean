import IotAgent.Mongo.Bson
import Mathlib.Data.List.Nodup

/-!
Fields that are set again.

* `Doc.names`: the names of the fields; `names_setAll`, `nodup_setAll`: what setting does to them;
* `Doc.get_setAll_last`: of a name that is set more than once the last value stays;
* `Doc.ext`: documents with the same names in the same order and the same values are the same;
* `Doc.setAll_setAll`: to set the same fields again changes nothing.
-/

namespace Mongo

namespace Doc

/-- The names of the fields, in order. -/
def names (d : Doc) : List String :=
  d.map Prod.fst

variable {d e vs : Doc} {f g : String} {v : Bson}

@[simp] lemma names_nil : names [] = [] := rfl

@[simp] lemma names_cons (a : String × Bson) : names (a :: d) = a.1 :: names d := rfl

lemma get_eq_none_of_notMem (h : g ∉ names d) : d.get g = none :=
  get_eq_none_iff.mpr h

lemma names_set : names (d.set f v) = if f ∈ names d then names d else names d ++ [f] := by
  induction d with
  | nil => rfl
  | cons a d ih =>
      obtain ⟨k, w⟩ := a
      by_cases hk : k = f
      · simp [set, hk]
      · rw [set, if_neg hk, names_cons, ih, names_cons]
        by_cases hf : f ∈ names d
        · simp [hf]
        · simp [hf, Ne.symm hk]

/-- Setting a field keeps the names distinct. -/
lemma nodup_set (hd : (names d).Nodup) : (names (d.set f v)).Nodup := by
  rw [names_set]
  split
  · exact hd
  · next hf =>
      rw [List.nodup_append]
      refine ⟨hd, List.nodup_singleton f, fun a ha b hb e => hf ?_⟩
      rw [← List.mem_singleton.mp hb, ← e]
      exact ha

lemma setAll_cons (a : String × Bson) : d.setAll (a :: vs) = (d.set a.1 a.2).setAll vs := rfl

lemma setAll_append (ws : Doc) : d.setAll (vs ++ ws) = (d.setAll vs).setAll ws :=
  List.foldl_append

lemma nodup_setAll (hd : (names d).Nodup) : (names (d.setAll vs)).Nodup := by
  induction vs generalizing d with
  | nil => exact hd
  | cons a vs ih =>
      rw [setAll_cons]
      exact ih (nodup_set hd)

/-- A field is there afterwards exactly when it was there or has been set. -/
lemma mem_names_setAll : g ∈ names (d.setAll vs) ↔ g ∈ names d ∨ g ∈ names vs := by
  induction vs generalizing d with
  | nil => simp [setAll]
  | cons a vs ih =>
      rw [setAll_cons, ih, names_set]
      by_cases ha : a.1 ∈ names d
      · rw [if_pos ha, names_cons, List.mem_cons, or_left_comm]
        refine ⟨Or.inr, ?_⟩
        rintro (rfl | h)
        · exact Or.inl ha
        · exact h
      · rw [if_neg ha, List.mem_append, List.mem_singleton, names_cons, List.mem_cons, or_assoc]

/-- If all the fields are there already the names stay as they are. -/
lemma names_setAll (h : ∀ g ∈ names vs, g ∈ names d) : names (d.setAll vs) = names d := by
  induction vs generalizing d with
  | nil => rfl
  | cons a vs ih =>
      have hset : names (d.set a.1 a.2) = names d := by
        rw [names_set, if_pos (h a.1 List.mem_cons_self)]
      rw [setAll_cons, ih, hset]
      intro g hg
      rw [hset]
      exact h g (List.mem_cons_of_mem _ hg)

/-- Of a name that is set more than once the last value stays. -/
lemma get_setAll_last : (d.setAll vs).get g = (Doc.get vs.reverse g).or (d.get g) := by
  induction vs generalizing d with
  | nil => rfl
  | cons a vs ih =>
      rw [setAll_cons, ih, List.reverse_cons, get_append, get_cons, get_nil]
      by_cases hg : g = a.1
      · subst hg
        rw [get_set_self, if_pos rfl, Option.or_assoc, Option.some_or]
      · rw [get_set_of_ne _ _ hg, if_neg hg, Option.or_none]

/-- Documents with the same names in the same order and the same values are the same. -/
lemma ext (hd : (names d).Nodup) (hnames : names d = names e) (h : ∀ g, d.get g = e.get g) :
    d = e := by
  induction d generalizing e with
  | nil => exact (List.map_eq_nil_iff.mp hnames.symm).symm
  | cons a d ih =>
      cases e with
      | nil => cases hnames
      | cons b e =>
          obtain ⟨k, w⟩ := a
          obtain ⟨l, x⟩ := b
          obtain ⟨hkl, hrest⟩ : k = l ∧ names d = names e := List.cons_eq_cons.mp hnames
          subst hkl
          obtain ⟨hk, hd⟩ : k ∉ names d ∧ (names d).Nodup := List.nodup_cons.mp hd
          have hhead := h k
          rw [get_cons, get_cons, if_pos rfl, if_pos rfl, Option.some_inj] at hhead
          obtain rfl : w = x := hhead
          rw [ih hd hrest]
          intro g
          have hg := h g
          rw [get_cons, get_cons] at hg
          by_cases hgk : g = k
          · subst hgk
            rw [get_eq_none_of_notMem hk, get_eq_none_of_notMem (hrest ▸ hk)]
          · rwa [if_neg hgk, if_neg hgk] at hg

/-- To set the same fields again changes nothing. -/
theorem setAll_setAll (hd : (names d).Nodup) : (d.setAll vs).setAll vs = d.setAll vs := by
  refine ext (nodup_setAll (nodup_setAll hd)) (names_setAll fun g hg => ?_) fun g => ?_
  · exact mem_names_setAll.mpr (.inr hg)
  · rw [get_setAll_last, get_setAll_last]
    cases Doc.get vs.reverse g <;> simp

end Doc

end Mongo
