import Mathlib.Data.List.Forall2

/-!
Fallible steps one after the other.

* `Attempts.Succeeds`: a step gives a result;
* `Attempts.mapM_eq_ok_iff`: all steps give theirs;
* `Attempts.mapM_eq_error_iff`: the first step that fails decides;
* `Attempts.exists_first_cons`: the first step of a kind, by the head of the list;
* `Attempts.untilOk`: one call, tried until it returns.
-/

namespace Attempts

universe u

variable {ε α β : Type*} {f : α → Except ε β} {l : List α} {r : List β} {e : ε}

/-- The step gives a result. -/
def Succeeds (f : α → Except ε β) (a : α) : Prop :=
  ∃ b, f a = .ok b

lemma not_succeeds {a : α} (he : f a = .error e) : ¬ Succeeds f a := by
  rintro ⟨b, hb⟩
  rw [he] at hb
  cases hb

/-! ### One step after the other -/

lemma ok_bind (a : α) (f : α → Except ε β) : (Except.ok a).bind f = f a := rfl

lemma bind_bind {γ : Type*} (x : Except ε α) (f : α → Except ε β) (g : β → Except ε γ) :
    (x.bind f).bind g = x.bind fun a => (f a).bind g := by
  cases x <;> rfl

lemma toOption_eq_some_iff {x : Except ε α} {a : α} : x.toOption = some a ↔ x = .ok a := by
  cases x <;> simp [Except.toOption]

/-- What is computed from a result shows that there is one. -/
lemma exists_ok_of_map_toOption {γ : Type*} {x : Except ε α} {g : α → γ} {c : γ}
    (hx : x.toOption.map g = some c) : ∃ a, x = .ok a ∧ g a = c := by
  obtain ⟨a, ha, hg⟩ := Option.map_eq_some_iff.mp hx
  exact ⟨a, toOption_eq_some_iff.mp ha, hg⟩

lemma mapError_bind {ε' : Type*} (h : ε → ε') (x : Except ε α) (f : α → Except ε β) :
    (x.bind f).mapError h = (x.mapError h).bind fun a => (f a).mapError h := by
  cases x <;> rfl

/-- Two steps one after the other give a result when both do. -/
lemma bind_eq_ok_iff {α β : Type u} {f : α → Except ε β} {x : Except ε α} {b : β} :
    (x >>= f) = .ok b ↔ ∃ a, x = .ok a ∧ f a = .ok b := by
  cases x with
  | error e =>
      constructor
      · intro h
        cases h
      · rintro ⟨a, ha, -⟩
        cases ha
  | ok a =>
      constructor
      · exact fun h => ⟨a, rfl, h⟩
      · rintro ⟨_, ha, h⟩
        cases ha
        exact h

lemma mapM_cons_ok {a : α} {b : β} (hb : f a = .ok b) :
    (a :: l).mapM f = (l.mapM f).map (b :: ·) := by
  rw [List.mapM_cons, hb]
  cases l.mapM f <;> rfl

lemma mapM_cons_error {a : α} (he : f a = .error e) : (a :: l).mapM f = .error e := by
  rw [List.mapM_cons, he]
  rfl

/-- Errors may be changed in every step. -/
lemma mapM_mapError {ε' : Type*} (h : ε → ε') (f : α → Except ε β) (l : List α) :
    (l.mapM f).mapError h = l.mapM fun a => (f a).mapError h := by
  induction l with
  | nil => rfl
  | cons a l ih =>
      cases ha : f a with
      | error e =>
          have he : (f a).mapError h = .error (h e) := by rw [ha]; rfl
          rw [mapM_cons_error ha, mapM_cons_error (f := fun a => (f a).mapError h) he]
          rfl
      | ok b =>
          have hb : (f a).mapError h = .ok b := by rw [ha]; rfl
          rw [mapM_cons_ok ha, mapM_cons_ok (f := fun a => (f a).mapError h) hb, ← ih]
          cases l.mapM f <;> rfl

/-- What the steps of a loop keep, the loop keeps. -/
lemma foldlM_induction {σ : Type u} {P : σ → Prop} {f : σ → α → Except ε σ}
    (hf : ∀ s a s', P s → f s a = .ok s' → P s') {s s' : σ} (hs : P s)
    (hl : l.foldlM f s = .ok s') : P s' := by
  induction l generalizing s with
  | nil =>
      cases hl
      exact hs
  | cons a l ih =>
      rw [List.foldlM_cons] at hl
      obtain ⟨s₁, ha, hl⟩ := bind_eq_ok_iff.mp hl
      exact ih (hf s a s₁ hs ha) hl

/-- All steps give a result. -/
theorem mapM_eq_ok_iff : l.mapM f = .ok r ↔ List.Forall₂ (fun a b => f a = .ok b) l r := by
  induction l generalizing r with
  | nil =>
      rw [List.mapM_nil, List.forall₂_nil_left_iff]
      constructor
      · intro h
        cases h
        rfl
      · rintro rfl
        rfl
  | cons a l ih =>
      cases ha : f a with
      | error e =>
          rw [mapM_cons_error ha]
          constructor
          · intro h
            cases h
          · intro h
            cases h with
            | cons hb _ =>
                rw [ha] at hb
                cases hb
      | ok b =>
          rw [mapM_cons_ok ha, List.forall₂_cons_left_iff]
          constructor
          · intro h
            cases hl : l.mapM f with
            | error e =>
                rw [hl] at h
                cases h
            | ok r' =>
                rw [hl] at h
                cases h
                exact ⟨b, r', ha, ih.mp hl, rfl⟩
          · rintro ⟨b', r', hb', hr', rfl⟩
            rw [ha] at hb'
            cases hb'
            rw [ih.mpr hr']
            rfl

/-- What is known of the arguments is known of the results. -/
lemma mapM_forall₂ {γ : Type*} {R : γ → α → Prop} {cs : List γ} (hcs : List.Forall₂ R cs l)
    (hl : l.mapM f = .ok r) : List.Forall₂ (fun c b => ∃ a, R c a ∧ f a = .ok b) cs r := by
  replace hl := mapM_eq_ok_iff.mp hl
  induction hcs generalizing r with
  | nil =>
      cases hl
      exact .nil
  | cons hc _ ih =>
      cases hl with
      | cons ha hl => exact .cons ⟨_, hc, ha⟩ (ih hl)

/-- The first step that fails decides. -/
theorem mapM_eq_error_iff : l.mapM f = .error e ↔
    ∃ l₁ a l₂, l = l₁ ++ a :: l₂ ∧ (∀ x ∈ l₁, Succeeds f x) ∧ f a = .error e := by
  induction l with
  | nil =>
      rw [List.mapM_nil]
      constructor
      · intro h
        cases h
      · rintro ⟨l₁, a, l₂, hl, -⟩
        simp at hl
  | cons b l ih =>
      cases hb : f b with
      | error e' =>
          rw [mapM_cons_error hb]
          constructor
          · intro h
            cases h
            exact ⟨[], b, l, rfl, by simp, hb⟩
          · rintro ⟨l₁, a, l₂, hl, hall, ha⟩
            cases l₁ with
            | nil =>
                cases hl
                rw [Except.error.inj (hb.symm.trans ha)]
            | cons c l₁ =>
                cases hl
                exact absurd (hall b List.mem_cons_self) (not_succeeds hb)
      | ok c =>
          have hmap : (b :: l).mapM f = .error e ↔ l.mapM f = .error e := by
            rw [mapM_cons_ok hb]
            cases l.mapM f with
            | error e' => exact Iff.rfl
            | ok r =>
                constructor
                · intro h
                  cases h
                · intro h
                  cases h
          rw [hmap, ih]
          constructor
          · rintro ⟨l₁, a, l₂, rfl, hall, ha⟩
            refine ⟨b :: l₁, a, l₂, rfl, ?_, ha⟩
            rw [List.forall_mem_cons]
            exact ⟨⟨c, hb⟩, hall⟩
          · rintro ⟨l₁, a, l₂, hl, hall, ha⟩
            cases l₁ with
            | nil =>
                cases hl
                rw [hb] at ha
                cases ha
            | cons c' l₁ =>
                cases hl
                exact ⟨l₁, a, l₂, rfl, fun x hx => hall x (List.mem_cons_of_mem _ hx), ha⟩

/-- The first step of a kind `Q` behind steps of the kind `P`: it is the head, or the head is
of the kind `P` and it comes behind. -/
lemma exists_first_cons {P Q : ℕ → α → Prop} {a : α} :
    (∃ l₁ b l₂, a :: l = l₁ ++ b :: l₂ ∧ (∀ k c, l₁[k]? = some c → P k c) ∧ Q l₁.length b) ↔
      Q 0 a ∨ P 0 a ∧ ∃ l₁ b l₂, l = l₁ ++ b :: l₂ ∧
        (∀ k c, l₁[k]? = some c → P (k + 1) c) ∧ Q (l₁.length + 1) b := by
  constructor
  · rintro ⟨l₁, b, l₂, hl, hP, hQ⟩
    cases l₁ with
    | nil =>
        cases hl
        exact Or.inl hQ
    | cons c l₁ =>
        cases hl
        exact Or.inr ⟨hP 0 a rfl, l₁, b, l₂, rfl, fun k c hk => hP (k + 1) c hk, hQ⟩
  · rintro (hQ | ⟨hP, l₁, b, l₂, rfl, hPs, hQ⟩)
    · exact ⟨[], a, l, rfl, by simp, hQ⟩
    · refine ⟨a :: l₁, b, l₂, rfl, fun k c hk => ?_, hQ⟩
      cases k with
      | zero =>
          cases hk
          exact hP
      | succ k => exact hPs k c hk

/-- Either all steps succeed, or there is a first one that fails. -/
theorem mapM_isOk_iff : (∃ r, l.mapM f = .ok r) ↔ ∀ a ∈ l, Succeeds f a := by
  constructor
  · rintro ⟨r, hr⟩ a ha
    obtain ⟨n, hn, rfl⟩ := List.getElem_of_mem ha
    have hforall := mapM_eq_ok_iff.mp hr
    exact ⟨_, List.Forall₂.get hforall hn (hforall.length_eq ▸ hn)⟩
  · intro hall
    cases hm : l.mapM f with
    | ok r => exact ⟨r, rfl⟩
    | error e =>
        obtain ⟨l₁, a, l₂, rfl, -, ha⟩ := mapM_eq_error_iff.mp hm
        exact absurd (hall a (by simp)) (not_succeeds ha)

/-! ### One call until it returns -/

section UntilOk

variable {σ : Type*} {call : α → σ → σ × Except ε Unit} {a : α} {s : σ} {P Q : σ → Prop}

/-- A call over a state is made with one argument after the other until it returns. -/
def untilOk (call : α → σ → σ × Except ε Unit) : List α → σ → σ
  | [], s => s
  | a :: l, s =>
      match call a s with
      | (s, .ok ()) => s
      | (s, .error _) => untilOk call l s

/-- After a call that returns no other is made. -/
lemma untilOk_of_ok (h : (call a s).2 = .ok ()) (l : List α) :
    untilOk call (a :: l) s = (call a s).1 := by
  rw [untilOk]
  split <;> simp_all

/-- What the calls that throw keep, and what every call leads to from there. -/
lemma untilOk_induction (hP : ∀ a ∈ l, ∀ s, P s → ∀ e, (call a s).2 = .error e → P (call a s).1)
    (hQ : ∀ a ∈ l, ∀ s, P s → Q (call a s).1) (hPQ : ∀ s, P s → Q s) (hs : P s) :
    Q (untilOk call l s) := by
  induction l generalizing s with
  | nil => exact hPQ s hs
  | cons a l ih =>
      rw [List.forall_mem_cons] at hP hQ
      have hthrow := hP.1 s hs
      have hcall := hQ.1 s hs
      rw [untilOk]
      split
      · next heq =>
          rw [heq] at hcall
          exact hcall
      · next e heq =>
          rw [heq] at hthrow
          exact ih hP.2 hQ.2 (hthrow e rfl)

end UntilOk

/-! ### Lists in step with their numbers -/

/-- Two lists in step are so with their numbers. -/
lemma forall₂_zipIdx {R : α → β → Prop} (hall : List.Forall₂ R l r) (n : ℕ) :
    List.Forall₂ (fun a b => R a.1 b.1 ∧ b.2 = a.2) (l.zipIdx n) (r.zipIdx n) := by
  induction hall generalizing n with
  | nil => exact .nil
  | cons hab _ ih => exact .cons ⟨hab, rfl⟩ (ih (n + 1))

/-- Whatever stands in a list has its partner in the other. -/
lemma exists_of_forall₂ {R : α × ℕ → β → Prop} {a : α} (hall : List.Forall₂ R l.zipIdx r)
    (ha : a ∈ l) : ∃ k b, R (a, k) b := by
  obtain ⟨k, hk, rfl⟩ := List.getElem_of_mem ha
  have hk' : k < l.zipIdx.length := by rwa [List.length_zipIdx]
  have hget := hall.get hk' (hall.length_eq ▸ hk')
  rw [List.get_eq_getElem, List.getElem_zipIdx] at hget
  exact ⟨_, _, hget⟩

end Attempts
