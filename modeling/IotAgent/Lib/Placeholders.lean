import Mathlib.Data.List.Basic
import Mathlib.Data.List.Infix

/-!
Texts with placeholders.

A placeholder is a marker of two different letters, so two of its occurrences never overlap.
A text is cut at its placeholders into a first piece and one piece after each placeholder.

* `weave`: pieces with something between them;
* `append_separator_inj`, `map_intercalate`: pieces with a separator between them;
* `cut`, `weave_cut`: the pieces of a text give the text when the marker stands between them;
* `length_cut`: there are as many of them as places where the marker stands.
-/

namespace Placeholders

variable {α : Type*}

/-- A first piece, and the other pieces each after its field. -/
def weave (first : List α) (fields pieces : List (List α)) : List α :=
  first ++ (List.zipWith (· ++ ·) fields pieces).flatten

@[simp]
lemma weave_nil (first : List α) (fields : List (List α)) : weave first fields [] = first := by
  simp [weave]

lemma weave_cons (first field : List α) (fields : List (List α)) (piece : List α)
    (pieces : List (List α)) :
    weave first (field :: fields) (piece :: pieces) =
      first ++ (field ++ weave piece fields pieces) := by
  simp [weave]

lemma cons_weave (x : α) (first : List α) (fields pieces : List (List α)) :
    x :: weave first fields pieces = weave (x :: first) fields pieces :=
  rfl

/-- Fields beyond the pieces have no effect. -/
lemma weave_take (first : List α) (fields pieces : List (List α)) :
    weave first (fields.take pieces.length) pieces = weave first fields pieces := by
  have h : List.zipWith (· ++ ·) (fields.take pieces.length) pieces =
      List.zipWith (· ++ ·) fields pieces := by
    induction pieces generalizing fields with
    | nil => simp
    | cons piece pieces ih =>
        cases fields with
        | nil => simp
        | cons field fields => simp [ih fields]
  rw [weave, weave, h]

/-- Lists with one separator are the same only if their parts are, if the separator is not in the
first parts. -/
lemma append_separator_inj {a : α} {x y z w : List α} (hx : a ∉ x) (hz : a ∉ z)
    (h : x ++ a :: y = z ++ a :: w) : x = z ∧ y = w := by
  induction x generalizing z with
  | nil =>
      cases z with
      | nil => exact ⟨rfl, (List.cons_eq_cons.mp h).2⟩
      | cons b z => exact absurd ((List.cons_eq_cons.mp h).1 ▸ List.mem_cons_self) hz
  | cons b x ih =>
      cases z with
      | nil => exact absurd ((List.cons_eq_cons.mp h).1 ▸ List.mem_cons_self) hx
      | cons c z =>
          obtain ⟨rfl, hrest⟩ := List.cons_eq_cons.mp h
          obtain ⟨rfl, rfl⟩ := ih (fun hm => hx (List.mem_cons_of_mem _ hm))
            (fun hm => hz (List.mem_cons_of_mem _ hm)) hrest
          exact ⟨rfl, rfl⟩

/-- What goes through the pieces of a text goes through the text. -/
lemma map_intercalate {β : Type*} {φ : List α → List β} (hφ : ∀ l l', φ (l ++ l') = φ l ++ φ l')
    {sep : List α} {ls : List (List α)} :
    φ (sep.intercalate ls) = (φ sep).intercalate (ls.map φ) := by
  induction ls with
  | nil => exact List.self_eq_append_right.mp (hφ [] [])
  | cons l ls ih =>
      cases ls with
      | nil => rw [List.map_singleton, List.intercalate_singleton, List.intercalate_singleton]
      | cons l' ls =>
          rw [List.map_cons] at ih
          rw [List.map_cons, List.map_cons, List.intercalate_cons_cons, List.intercalate_cons_cons,
            hφ, hφ, ih]

lemma nil_intercalate {ls : List (List α)} : ([] : List α).intercalate ls = ls.flatten := by
  induction ls with
  | nil => rfl
  | cons l ls ih =>
      cases ls with
      | nil => rw [List.intercalate_singleton, List.flatten_singleton]
      | cons l' ls =>
          rw [List.intercalate_cons_cons, ih, List.append_nil]
          rfl

lemma forall_mem_intercalate {P : α → Prop} {sep : List α} {ls : List (List α)}
    (hsep : ∀ a ∈ sep, P a) (h : ∀ l ∈ ls, ∀ a ∈ l, P a) : ∀ a ∈ sep.intercalate ls, P a := by
  induction ls with
  | nil => exact fun _ ha => absurd ha List.not_mem_nil
  | cons l ls ih =>
      obtain ⟨hl, hls⟩ := List.forall_mem_cons.mp h
      cases ls with
      | nil => rwa [List.intercalate_singleton]
      | cons l' ls =>
          rw [List.intercalate_cons_cons, List.forall_mem_append, List.forall_mem_append]
          exact ⟨⟨hl, hsep⟩, ih hls⟩

variable [DecidableEq α] (a b : α)

/-- How often the marker stands in a text. -/
def occurrences (t : List α) : ℕ :=
  t.tails.countP fun rest => [a, b].isPrefixOf rest

/-- The pieces of a text: the first, and those after a marker. -/
def cut : List α → List α × List (List α)
  | x :: y :: cs =>
      if x = a ∧ y = b then ([], (cut cs).1 :: (cut cs).2)
      else (x :: (cut (y :: cs)).1, (cut (y :: cs)).2)
  | cs => (cs, [])

@[simp]
lemma cut_nil : cut a b [] = ([], []) := rfl

lemma cut_marker (cs : List α) :
    cut a b (a :: b :: cs) = ([], (cut a b cs).1 :: (cut a b cs).2) := by
  rw [cut, if_pos ⟨rfl, rfl⟩]

variable {a b}

lemma cut_cons {x : α} {cs : List α} (h : ¬[a, b] <+: x :: cs) :
    cut a b (x :: cs) = (x :: (cut a b cs).1, (cut a b cs).2) := by
  cases cs with
  | nil => rfl
  | cons y cs =>
      have hne : ¬(x = a ∧ y = b) := fun hxy => h (by simp [hxy.1, hxy.2])
      rw [cut, if_neg hne]

/-- What holds of a marker before a text and of any other letter before a text holds of all
texts. -/
theorem marker_induction {P : List α → Prop} (nil : P [])
    (marker : ∀ cs, P cs → P (a :: b :: cs))
    (cons : ∀ x cs, ¬[a, b] <+: x :: cs → P cs → P (x :: cs)) : ∀ t, P t
  | [] => nil
  | [x] => cons x [] (by simp) nil
  | x :: y :: cs => by
      by_cases h : x = a ∧ y = b
      · rw [h.1, h.2]
        exact marker cs (marker_induction nil marker cons cs)
      · refine cons x (y :: cs) ?_ (marker_induction nil marker cons (y :: cs))
        rintro ⟨rest, hrest⟩
        simp only [List.cons_append, List.cons.injEq] at hrest
        exact h ⟨hrest.1.symm, hrest.2.1.symm⟩

/-- The pieces with the marker between them are the text. -/
theorem weave_cut (t : List α) :
    weave (cut a b t).1 (List.replicate (cut a b t).2.length [a, b]) (cut a b t).2 = t := by
  induction t using marker_induction (a := a) (b := b) with
  | nil => rfl
  | marker cs ih =>
      rw [cut_marker, List.length_cons, List.replicate_succ, weave_cons, ih]
      rfl
  | cons x cs h ih =>
      rw [cut_cons h, ← cons_weave, ih]

lemma occurrences_cons (x : α) (cs : List α) :
    occurrences a b (x :: cs) =
      occurrences a b cs + if [a, b].isPrefixOf (x :: cs) then 1 else 0 := by
  simp [occurrences, List.countP_cons]

/-- There is one piece after each marker. -/
theorem length_cut (hne : a ≠ b) (t : List α) :
    (cut a b t).2.length = occurrences a b t := by
  induction t using marker_induction (a := a) (b := b) with
  | nil => rfl
  | marker cs ih =>
      -- the second letter of a marker begins no marker
      have hb : ¬[a, b].isPrefixOf (b :: cs) := by simp [hne]
      have ha : [a, b].isPrefixOf (a :: b :: cs) := by simp
      rw [cut_marker, List.length_cons, ih, occurrences_cons, occurrences_cons, if_neg hb,
        if_pos ha]
  | cons x cs h ih =>
      have hx : ¬[a, b].isPrefixOf (x :: cs) := by rwa [List.isPrefixOf_iff_prefix]
      rw [cut_cons h, occurrences_cons, if_neg hx]
      exact ih

/-- A marker needs its first letter. -/
lemma occurrences_le_count (t : List α) : occurrences a b t ≤ t.count a := by
  induction t with
  | nil => simp [occurrences]
  | cons x cs ih =>
      rw [occurrences_cons, List.count_cons]
      split
      · next h =>
          have hx : x = a := by
            simp only [List.isPrefixOf, Bool.and_eq_true, beq_iff_eq] at h
            exact h.1.symm
          simp only [hx, beq_self_eq_true, if_true]
          omega
      · omega

end Placeholders
