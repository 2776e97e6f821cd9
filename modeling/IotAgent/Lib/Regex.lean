import Mathlib.Data.List.Basic
import Mathlib.Data.List.Flatten

/-!
Regular expressions with captures, matched by backtracking.

An expression is made of classes of symbols, one symbol or as many as there are, of sequences and
of groups, whose text is captured. A matcher tries the longest repetition first.

* `Regex`, `Regex.Matches`: expressions, and which texts they match with which captures;
* `runs`: the beginnings of a text that an expression matches, in the order in which they are
  tried; `mem_runs_iff` says that these are all;
* `regexMatch`: a whole text; `matches_of_regexMatch`, `regexMatch_eq_none_iff`;
* `search`: the leftmost match in a text; `search_append`, `search_eq_none`.
-/

/-- Expressions over classes of symbols. -/
inductive Regex (κ : Type*) where
  | empty
  | one (set : κ)
  | plus (set : κ)
  | seq (r s : Regex κ)
  | group (r : Regex κ)
  deriving DecidableEq

namespace Regex

variable {κ α : Type*} (mem : κ → α → Bool)

/-- The expression matches the text with these captures, in the order of the groups. -/
inductive Matches : Regex κ → List α → List (List α) → Prop where
  | empty : Matches .empty [] []
  | one {set : κ} {a : α} (h : mem set a) : Matches (.one set) [a] []
  | plus {set : κ} {l : List α} (hne : l ≠ []) (h : ∀ a ∈ l, mem set a) : Matches (.plus set) l []
  | seq {r s : Regex κ} {l l' : List α} {caps caps' : List (List α)} (hr : Matches r l caps)
      (hs : Matches s l' caps') : Matches (.seq r s) (l ++ l') (caps ++ caps')
  | group {r : Regex κ} {l : List α} {caps : List (List α)} (h : Matches r l caps) :
      Matches (.group r) l (l :: caps)

/-- What is behind the beginnings in a class, the longest first. -/
def greedy (p : α → Bool) : List α → List (List α)
  | [] => []
  | a :: l => if p a then greedy p l ++ [l] else []

/-- The beginnings that an expression matches, in the order of trial: the captures, and what is
behind the match. -/
def runs : Regex κ → List α → List (List (List α) × List α)
  | .empty, l => [([], l)]
  | .one _, [] => []
  | .one set, a :: l => if mem set a then [([], l)] else []
  | .plus set, l => (greedy (mem set) l).map fun rest => ([], rest)
  | .seq r s, l => (runs r l).flatMap fun x => (runs s x.2).map fun y => (x.1 ++ y.1, y.2)
  | .group r, l => (runs r l).map fun x => (l.take (l.length - x.2.length) :: x.1, x.2)

/-- The captures of the first match of a whole text. -/
def regexMatch (r : Regex κ) (l : List α) : Option (List (List α)) :=
  ((runs mem r l).find? fun x => x.2.isEmpty).map Prod.fst

/-- A match within a text. -/
structure Found (α : Type*) where
  before : List α
  text : List α
  captures : List (List α)
  behind : List α

/-- The leftmost match. -/
def search (r : Regex κ) : List α → Option (Found α)
  | [] => (runs mem r []).head?.map fun x => ⟨[], [], x.1, x.2⟩
  | a :: l =>
      match (runs mem r (a :: l)).head? with
      | some x => some ⟨[], (a :: l).take ((a :: l).length - x.2.length), x.1, x.2⟩
      | none => (search r l).map fun found => { found with before := a :: found.before }

variable {mem} {p : α → Bool} {r s : Regex κ} {set : κ} {a : α} {l l' rest : List α}
  {caps caps' : List (List α)}

/-! ### Matches by the form of the expression -/

@[simp] lemma matches_empty : Matches mem .empty l caps ↔ l = [] ∧ caps = [] := by
  constructor
  · rintro ⟨⟩
    exact ⟨rfl, rfl⟩
  · rintro ⟨rfl, rfl⟩
    exact .empty

@[simp] lemma matches_one : Matches mem (.one set) l caps ↔
    (∃ a, mem set a ∧ l = [a]) ∧ caps = [] := by
  constructor
  · rintro ⟨⟩
    exact ⟨⟨_, ‹_›, rfl⟩, rfl⟩
  · rintro ⟨⟨a, h, rfl⟩, rfl⟩
    exact .one h

@[simp] lemma matches_plus : Matches mem (.plus set) l caps ↔
    (l ≠ [] ∧ ∀ a ∈ l, mem set a) ∧ caps = [] := by
  constructor
  · rintro ⟨⟩
    exact ⟨⟨‹_›, ‹_›⟩, rfl⟩
  · rintro ⟨⟨hne, h⟩, rfl⟩
    exact .plus hne h

@[simp] lemma matches_seq : Matches mem (.seq r s) l caps ↔
    ∃ l₁ l₂ caps₁ caps₂, Matches mem r l₁ caps₁ ∧ Matches mem s l₂ caps₂ ∧ l = l₁ ++ l₂ ∧
      caps = caps₁ ++ caps₂ := by
  constructor
  · rintro ⟨⟩
    exact ⟨_, _, _, _, ‹_›, ‹_›, rfl, rfl⟩
  · rintro ⟨l₁, l₂, caps₁, caps₂, hr, hs, rfl, rfl⟩
    exact .seq hr hs

@[simp] lemma matches_group : Matches mem (.group r) l caps ↔
    ∃ caps', Matches mem r l caps' ∧ caps = l :: caps' := by
  constructor
  · rintro ⟨⟩
    exact ⟨_, ‹_›, rfl⟩
  · rintro ⟨caps', h, rfl⟩
    exact .group h

/-! ### The runs -/

lemma mem_greedy : rest ∈ greedy p l ↔ ∃ l', l = l' ++ rest ∧ l' ≠ [] ∧ ∀ a ∈ l', p a := by
  induction l with
  | nil => simp [greedy]
  | cons a l ih =>
      rw [greedy]
      split_ifs with ha
      · rw [List.mem_append, ih, List.mem_singleton]
        constructor
        · rintro (⟨l', rfl, hne, hl'⟩ | rfl)
          · exact ⟨a :: l', rfl, List.cons_ne_nil _ _, List.forall_mem_cons.mpr ⟨ha, hl'⟩⟩
          · exact ⟨[a], rfl, List.cons_ne_nil _ _, List.forall_mem_singleton.mpr ha⟩
        · rintro ⟨l', heq, hne, hl'⟩
          cases l' with
          | nil => exact absurd rfl hne
          | cons b l' =>
              obtain ⟨rfl, rfl⟩ := List.cons.inj heq
              cases l' with
              | nil => exact .inr rfl
              | cons c l' =>
                  exact .inl ⟨c :: l', rfl, List.cons_ne_nil _ _, (List.forall_mem_cons.mp hl').2⟩
      · refine iff_of_false List.not_mem_nil ?_
        rintro ⟨l', heq, hne, hl'⟩
        cases l' with
        | nil => exact hne rfl
        | cons b l' =>
            obtain ⟨rfl, -⟩ := List.cons.inj heq
            exact ha (hl' a List.mem_cons_self)

lemma take_length_sub : (l ++ rest).take ((l ++ rest).length - rest.length) = l := by
  rw [List.length_append, Nat.add_sub_cancel, List.take_left]

lemma runs_empty : runs mem .empty l = [([], l)] := rfl

lemma runs_one_cons : runs mem (.one set) (a :: l) = if mem set a then [([], l)] else [] := rfl

lemma runs_plus : runs mem (.plus set) l = (greedy (mem set) l).map fun rest => ([], rest) := rfl

lemma runs_seq : runs mem (.seq r s) l =
    (runs mem r l).flatMap fun x => (runs mem s x.2).map fun y => (x.1 ++ y.1, y.2) := rfl

lemma runs_group : runs mem (.group r) l =
    (runs mem r l).map fun x => (l.take (l.length - x.2.length) :: x.1, x.2) := rfl

lemma mem_runs_one : (caps, rest) ∈ runs mem (.one set) l ↔
    ∃ a, mem set a ∧ l = a :: rest ∧ caps = [] := by
  cases l with
  | nil =>
      refine iff_of_false List.not_mem_nil ?_
      rintro ⟨a, -, heq, -⟩
      cases heq
  | cons a l =>
      rw [runs_one_cons]
      by_cases h : mem set a
      · rw [if_pos h, List.mem_singleton, Prod.mk.injEq]
        constructor
        · rintro ⟨rfl, rfl⟩
          exact ⟨a, h, rfl, rfl⟩
        · rintro ⟨b, -, heq, rfl⟩
          exact ⟨rfl, (List.cons.inj heq).2.symm⟩
      · rw [if_neg h]
        refine iff_of_false List.not_mem_nil ?_
        rintro ⟨b, hb, heq, -⟩
        obtain ⟨rfl, -⟩ := List.cons.inj heq
        exact h hb

lemma mem_runs_plus : (caps, rest) ∈ runs mem (.plus set) l ↔
    rest ∈ greedy (mem set) l ∧ caps = [] := by
  rw [runs_plus, List.mem_map]
  constructor
  · rintro ⟨rest', hrest, heq⟩
    obtain ⟨rfl, rfl⟩ := Prod.mk.inj heq
    exact ⟨hrest, rfl⟩
  · rintro ⟨hrest, rfl⟩
    exact ⟨rest, hrest, rfl⟩

lemma mem_runs_seq : (caps, rest) ∈ runs mem (.seq r s) l ↔
    ∃ caps₁ rest₁ caps₂, (caps₁, rest₁) ∈ runs mem r l ∧ (caps₂, rest) ∈ runs mem s rest₁ ∧
      caps = caps₁ ++ caps₂ := by
  rw [runs_seq, List.mem_flatMap]
  constructor
  · rintro ⟨⟨caps₁, rest₁⟩, hr, hmem⟩
    obtain ⟨⟨caps₂, rest₂⟩, hs, heq⟩ := List.mem_map.mp hmem
    obtain ⟨rfl, rfl⟩ := Prod.mk.inj heq
    exact ⟨caps₁, rest₁, caps₂, hr, hs, rfl⟩
  · rintro ⟨caps₁, rest₁, caps₂, hr, hs, rfl⟩
    exact ⟨(caps₁, rest₁), hr, List.mem_map.mpr ⟨(caps₂, rest), hs, rfl⟩⟩

lemma mem_runs_group : (caps, rest) ∈ runs mem (.group r) l ↔
    ∃ caps', (caps', rest) ∈ runs mem r l ∧ caps = l.take (l.length - rest.length) :: caps' := by
  rw [runs_group, List.mem_map]
  constructor
  · rintro ⟨⟨caps', rest'⟩, hr, heq⟩
    obtain ⟨rfl, rfl⟩ := Prod.mk.inj heq
    exact ⟨caps', hr, rfl⟩
  · rintro ⟨caps', hr, rfl⟩
    exact ⟨(caps', rest), hr, rfl⟩

/-- The runs are the beginnings that match. -/
theorem mem_runs_iff : (caps, rest) ∈ runs mem r l ↔
    ∃ l', l = l' ++ rest ∧ Matches mem r l' caps := by
  induction r generalizing l caps rest with
  | empty => simp [runs_empty, and_comm, eq_comm]
  | one set =>
      rw [mem_runs_one]
      constructor
      · rintro ⟨a, h, rfl, rfl⟩
        exact ⟨[a], rfl, .one h⟩
      · rintro ⟨l', rfl, h⟩
        obtain ⟨⟨a, ha, rfl⟩, rfl⟩ := matches_one.mp h
        exact ⟨a, ha, rfl, rfl⟩
  | plus set =>
      rw [mem_runs_plus, mem_greedy]
      constructor
      · rintro ⟨⟨l', rfl, hne, hl'⟩, rfl⟩
        exact ⟨l', rfl, .plus hne hl'⟩
      · rintro ⟨l', rfl, h⟩
        obtain ⟨⟨hne, hl'⟩, rfl⟩ := matches_plus.mp h
        exact ⟨⟨l', rfl, hne, hl'⟩, rfl⟩
  | seq r s ihr ihs =>
      rw [mem_runs_seq]
      constructor
      · rintro ⟨caps₁, rest₁, caps₂, hr, hs, rfl⟩
        obtain ⟨l₁, rfl, h₁⟩ := ihr.mp hr
        obtain ⟨l₂, rfl, h₂⟩ := ihs.mp hs
        exact ⟨l₁ ++ l₂, (List.append_assoc _ _ _).symm, .seq h₁ h₂⟩
      · rintro ⟨l', rfl, h⟩
        obtain ⟨l₁, l₂, caps₁, caps₂, h₁, h₂, rfl, rfl⟩ := matches_seq.mp h
        exact ⟨caps₁, l₂ ++ rest, caps₂, ihr.mpr ⟨l₁, List.append_assoc _ _ _, h₁⟩,
          ihs.mpr ⟨l₂, rfl, h₂⟩, rfl⟩
  | group r ih =>
      rw [mem_runs_group]
      constructor
      · rintro ⟨caps', hr, rfl⟩
        obtain ⟨l', rfl, h⟩ := ih.mp hr
        rw [take_length_sub]
        exact ⟨l', rfl, .group h⟩
      · rintro ⟨l', rfl, h⟩
        obtain ⟨caps', h', rfl⟩ := matches_group.mp h
        rw [take_length_sub]
        exact ⟨caps', ih.mpr ⟨l', rfl, h'⟩, rfl⟩

/-! ### Whole texts -/

/-- The captures of a whole text are those of a match. -/
lemma matches_of_regexMatch (h : regexMatch mem r l = some caps) : Matches mem r l caps := by
  obtain ⟨⟨caps', rest⟩, hfind, rfl⟩ := Option.map_eq_some_iff.mp h
  obtain ⟨l', rfl, hl'⟩ := mem_runs_iff.mp (List.mem_of_find?_eq_some hfind)
  have hrest := List.find?_some hfind
  obtain rfl : rest = [] := List.isEmpty_iff.mp hrest
  rw [List.append_nil]
  exact hl'

lemma regexMatch_eq_none_iff : regexMatch mem r l = none ↔ ∀ caps, ¬ Matches mem r l caps := by
  rw [regexMatch, Option.map_eq_none_iff, List.find?_eq_none]
  constructor
  · intro h caps hcaps
    exact h (caps, []) (mem_runs_iff.mpr ⟨l, (List.append_nil l).symm, hcaps⟩) rfl
  · rintro h ⟨caps, rest⟩ hmem hrest
    obtain ⟨l', rfl, hl'⟩ := mem_runs_iff.mp hmem
    obtain rfl : rest = [] := List.isEmpty_iff.mp hrest
    rw [List.append_nil] at h
    exact h caps hl'

/-! ### The leftmost match -/

lemma search_nil : search mem r [] = (runs mem r []).head?.map fun x => ⟨[], [], x.1, x.2⟩ := rfl

lemma search_cons : search mem r (a :: l) =
    match (runs mem r (a :: l)).head? with
    | some x => some ⟨[], (a :: l).take ((a :: l).length - x.2.length), x.1, x.2⟩
    | none => (search mem r l).map fun found => { found with before := a :: found.before } :=
  rfl

/-- What is found is a match in its place. -/
lemma search_eq_some {found : Found α} (h : search mem r l = some found) :
    l = found.before ++ (found.text ++ found.behind) ∧
      Matches mem r found.text found.captures := by
  induction l generalizing found with
  | nil =>
      obtain ⟨⟨caps, rest⟩, hhead, rfl⟩ := Option.map_eq_some_iff.mp h
      obtain ⟨l', hl', hmatch⟩ := mem_runs_iff.mp (List.mem_of_mem_head? hhead)
      obtain ⟨rfl, rfl⟩ := List.append_eq_nil_iff.mp hl'.symm
      exact ⟨rfl, hmatch⟩
  | cons a l ih =>
      rw [search_cons] at h
      cases hhead : (runs mem r (a :: l)).head? with
      | some x =>
          obtain ⟨caps, rest⟩ := x
          rw [hhead] at h
          obtain rfl := Option.some.inj h
          obtain ⟨l', hl', hmatch⟩ := mem_runs_iff.mp (List.mem_of_mem_head? hhead)
          dsimp only
          rw [hl', take_length_sub]
          exact ⟨rfl, hmatch⟩
      | none =>
          rw [hhead] at h
          obtain ⟨found', hfound', rfl⟩ := Option.map_eq_some_iff.mp h
          obtain ⟨hl, hmatch⟩ := ih hfound'
          exact ⟨congrArg (a :: ·) hl, hmatch⟩

/-- Where no match begins the search goes on. -/
lemma search_append {pre : List α} (hpre : ∀ a ∈ pre, ∀ l, runs mem r (a :: l) = []) :
    search mem r (pre ++ l) =
      (search mem r l).map fun found => { found with before := pre ++ found.before } := by
  induction pre with
  | nil => exact Option.map_id'.symm
  | cons a pre ih =>
      rw [List.forall_mem_cons] at hpre
      rw [List.cons_append, search_cons, hpre.1, List.head?_nil, ih hpre.2, Option.map_map]
      rfl

/-- Where no match begins there is none. -/
lemma search_eq_none (hl : ∀ a ∈ l, ∀ l', runs mem r (a :: l') = [])
    (hnil : runs mem r [] = []) : search mem r l = none := by
  rw [← List.append_nil l, search_append hl, search_nil, hnil]
  rfl

/-- A match that begins in front is found if there is no other one in front. -/
lemma search_of_unique (hne : l ≠ []) (h : Matches mem r l caps)
    (hunique : ∀ l' rest' caps', l ++ rest = l' ++ rest' → Matches mem r l' caps' →
      rest' = rest ∧ caps' = caps) :
    search mem r (l ++ rest) = some ⟨[], l, caps, rest⟩ := by
  have hmem : (caps, rest) ∈ runs mem r (l ++ rest) := mem_runs_iff.mpr ⟨l, rfl, h⟩
  have hhead : (runs mem r (l ++ rest)).head? = some (caps, rest) := by
    cases hruns : runs mem r (l ++ rest) with
    | nil =>
        rw [hruns] at hmem
        exact absurd hmem List.not_mem_nil
    | cons x xs =>
        obtain ⟨caps', rest'⟩ := x
        have hx : (caps', rest') ∈ runs mem r (l ++ rest) := by
          rw [hruns]
          exact List.mem_cons_self
        obtain ⟨l', hl', hmatch⟩ := mem_runs_iff.mp hx
        obtain ⟨rfl, rfl⟩ := hunique l' rest' caps' hl' hmatch
        rfl
  cases l with
  | nil => exact absurd rfl hne
  | cons a l =>
      rw [List.cons_append] at hhead ⊢
      rw [search_cons, hhead]
      dsimp only
      rw [← List.cons_append, take_length_sub]

end Regex
