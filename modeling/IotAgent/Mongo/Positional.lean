import Mathlib.Data.List.Perm.Basic
import Mathlib.Data.List.Nodup

/-!
Updates of the first match and of arrays.

An update that is not for many changes the first document that matches, and with the operator
`$` the first element that matches in its array.

* `setFirst`: the change of the first match; `setFirst_eq`: what stands around it;
* `addToSet`: an element that comes in unless it is there;
* `find?_setFirst`: in a list with distinct keys, what is found under a key afterwards.
-/

namespace Mongo

variable {α κ : Type*}

/-- The first element that satisfies `p` is changed by `f`. -/
def setFirst (p : α → Prop) [DecidablePred p] (f : α → α) : List α → List α
  | [] => []
  | a :: l => if p a then f a :: l else a :: setFirst p f l

/-- The element comes in at the end, unless it is there. -/
def addToSet [DecidableEq α] (a : α) (l : List α) : List α :=
  if a ∈ l then l else l ++ [a]

variable {p : α → Prop} [DecidablePred p] {f : α → α} {l : List α}

/-- Around the first match everything stays as it is. -/
lemma setFirst_eq (h : ∃ a ∈ l, p a) : ∃ as a bs, l = as ++ a :: bs ∧ p a ∧
    (∀ x ∈ as, ¬ p x) ∧ setFirst p f l = as ++ f a :: bs := by
  induction l with
  | nil =>
      obtain ⟨a, ha, -⟩ := h
      cases ha
  | cons b l ih =>
      by_cases hb : p b
      · refine ⟨[], b, l, rfl, hb, fun x hx => absurd hx List.not_mem_nil, ?_⟩
        rw [setFirst, if_pos hb]
        rfl
      · have htail : ∃ a ∈ l, p a := by
          obtain ⟨a, ha, hpa⟩ := h
          rcases List.mem_cons.mp ha with rfl | ha
          · exact absurd hpa hb
          · exact ⟨a, ha, hpa⟩
        obtain ⟨as, a, bs, rfl, hpa, has, heq⟩ := ih htail
        refine ⟨b :: as, a, bs, rfl, hpa, fun x hx => ?_, ?_⟩
        · rcases List.mem_cons.mp hx with rfl | hx
          · exact hb
          · exact has x hx
        · rw [setFirst, if_neg hb, heq]
          rfl

/-- What the change leaves alone it leaves alone in the whole list. -/
lemma map_setFirst {key : α → κ} (hf : ∀ a, key (f a) = key a) :
    (setFirst p f l).map key = l.map key := by
  induction l with
  | nil => rfl
  | cons a l ih =>
      rw [setFirst]
      split
      · rw [List.map_cons, List.map_cons, hf]
      · rw [List.map_cons, List.map_cons, ih]

/-- A change that keeps the keys keeps them distinct. -/
lemma nodup_map_setFirst {key : α → κ} (hl : (l.map key).Nodup) (hf : ∀ a, key (f a) = key a) :
    ((setFirst p f l).map key).Nodup := by
  rw [map_setFirst hf]
  exact hl

section AddToSet

variable [DecidableEq α] {a b : α}

lemma mem_addToSet : b ∈ addToSet a l ↔ b = a ∨ b ∈ l := by
  rw [addToSet]
  split
  · next h =>
      refine ⟨Or.inr, ?_⟩
      rintro (rfl | hb)
      · exact h
      · exact hb
  · rw [List.mem_append, List.mem_singleton, or_comm]

lemma nodup_addToSet (hl : l.Nodup) : (addToSet a l).Nodup := by
  rw [addToSet]
  split
  · exact hl
  · next h =>
      rw [List.nodup_append]
      exact ⟨hl, List.nodup_singleton a, fun b hb c hc e => h (List.mem_singleton.mp hc ▸ e ▸ hb)⟩

end AddToSet

section Keys

variable [DecidableEq κ] {key : α → κ} {k : κ}

/-- In a list with distinct keys an element is found under its key. -/
lemma find?_key_eq {a : α} (hl : (l.map key).Nodup) (ha : a ∈ l) :
    l.find? (fun x => key x = key a) = some a := by
  induction l with
  | nil => cases ha
  | cons b l ih =>
      obtain ⟨hb, hl⟩ := List.nodup_cons.mp hl
      rcases List.mem_cons.mp ha with rfl | ha
      · simp
      · have hne : key b ≠ key a := fun e => hb (e ▸ List.mem_map_of_mem ha)
        rw [List.find?_cons_of_neg (by simpa using hne)]
        exact ih hl ha

/-- If the change keeps the keys, its element is found changed and the others as they are. -/
lemma find?_setFirst (hl : (l.map key).Nodup) (hf : ∀ a, key (f a) = key a) {a : α} (ha : a ∈ l)
    (hp : ∀ x ∈ l, p x ↔ x = a) : (setFirst p f l).find? (fun x => key x = k) =
      if k = key a then some (f a) else l.find? fun x => key x = k := by
  obtain ⟨as, b, bs, rfl, hb, has, heq⟩ := setFirst_eq (f := f) ⟨a, ha, (hp a ha).mpr rfl⟩
  obtain rfl : b = a := (hp b (by simp)).mp hb
  rw [heq, List.find?_append, List.find?_append]
  split
  · next hk =>
      subst hk
      have hnone : as.find? (fun x => key x = key b) = none := by
        rw [List.find?_eq_none]
        intro x hx e
        rw [List.map_append, List.nodup_append] at hl
        exact hl.2.2 _ (List.mem_map_of_mem hx) _ (List.mem_map_of_mem List.mem_cons_self)
          (by simpa using e)
      rw [hnone, Option.none_or, List.find?_cons_of_pos (by simp [hf])]
  · next hk =>
      rw [List.find?_cons_of_neg (by simpa [hf] using Ne.symm hk),
        List.find?_cons_of_neg (by simpa using Ne.symm hk)]

end Keys

end Mongo
