import Mathlib.Data.List.Basic

/-!
Batches.

The elements of a batch are processed one after the other. A step accepts an element, with
a new state, or refuses it, and the first refusal ends the batch in the state it has come to.

* `Batch.run`: the processing;
* `Batch.Accepts`: every element is accepted; `run_eq_ok_iff`;
* `Batch.AllOrNothing`: a refusal leaves the state as it was. `allOrNothing_iff_or`: where
  every accepted element leaves a trace, that is so exactly when nothing is refused or the
  first element is.
-/

namespace Batch

variable {σ α ε : Type*}

/-- The elements one after the other, up to the first that is refused. -/
def run (step : σ → α → Except ε σ) : σ → List α → σ × Except ε Unit
  | s, [] => (s, .ok ())
  | s, a :: l =>
      match step s a with
      | .ok s' => run step s' l
      | .error e => (s, .error e)

/-- Every element is accepted in the state that the ones before it have led to. -/
inductive Accepts (step : σ → α → Except ε σ) : σ → List α → Prop where
  | nil {s : σ} : Accepts step s []
  | cons {s s' : σ} {a : α} {l : List α} (ha : step s a = .ok s') (hl : Accepts step s' l) :
      Accepts step s (a :: l)

/-- The first element is refused. -/
def RefusesFirst (step : σ → α → Except ε σ) (s : σ) (l : List α) : Prop :=
  ∃ a ∈ l.head?, ∃ e, step s a = .error e

/-- With an error the state is as it was. -/
def AllOrNothing {β : Type*} (s : σ) (r : σ × Except ε β) : Prop :=
  ∀ e, r.2 = .error e → r.1 = s

variable {step : σ → α → Except ε σ} {s s' : σ} {a : α} {l : List α} {e : ε}

lemma run_cons_ok (ha : step s a = .ok s') : run step s (a :: l) = run step s' l := by
  rw [run, ha]

lemma run_cons_error (ha : step s a = .error e) : run step s (a :: l) = (s, .error e) := by
  rw [run, ha]

/-- The batch ends without an error exactly when every element is accepted. -/
lemma run_eq_ok_iff : (run step s l).2 = .ok () ↔ Accepts step s l := by
  induction l generalizing s with
  | nil => exact iff_of_true rfl .nil
  | cons a l ih =>
      cases ha : step s a with
      | ok s' =>
          rw [run_cons_ok ha, ih]
          refine ⟨.cons ha, fun h => ?_⟩
          cases h with
          | cons ha' hl =>
              rw [ha] at ha'
              cases ha'
              exact hl
      | error e =>
          rw [run_cons_error ha]
          refine iff_of_false (fun h => by cases h) fun h => ?_
          cases h with
          | cons ha' hl =>
              rw [ha] at ha'
              cases ha'

/-- What every accepted element preserves the batch preserves. -/
lemma run_invariant {I : σ → Prop} (hstep : ∀ s a s', a ∈ l → I s → step s a = .ok s' → I s')
    (hs : I s) : I (run step s l).1 := by
  induction l generalizing s with
  | nil => exact hs
  | cons a l ih =>
      have htail : ∀ s b s', b ∈ l → I s → step s b = .ok s' → I s' :=
        fun s b s' hb => hstep s b s' (List.mem_cons_of_mem a hb)
      cases ha : step s a with
      | ok s' =>
          rw [run_cons_ok ha]
          exact ih htail (hstep s a s' List.mem_cons_self hs ha)
      | error e =>
          rw [run_cons_error ha]
          exact hs

/-- **All or nothing**: when every accepted element lets a size grow, a batch is processed
wholly or without a trace exactly when nothing is refused or the first element is. -/
theorem allOrNothing_iff_or (size : σ → ℕ)
    (hgrow : ∀ s a s', step s a = .ok s' → size s < size s') :
    AllOrNothing s (run step s l) ↔ Accepts step s l ∨ RefusesFirst step s l := by
  have hle : ∀ (l : List α) (s : σ), size s ≤ size (run step s l).1 := fun l s =>
    run_invariant (I := fun t => size s ≤ size t)
      (fun t a t' _ ht ha => Nat.le_trans ht (Nat.le_of_lt (hgrow t a t' ha))) (Nat.le_refl _)
  cases l with
  | nil => exact iff_of_true (fun e he => by cases he) (.inl .nil)
  | cons a l =>
      cases ha : step s a with
      | error e =>
          rw [run_cons_error ha]
          exact iff_of_true (fun _ _ => rfl) (.inr ⟨a, rfl, e, ha⟩)
      | ok s' =>
          have hno : ¬ RefusesFirst step s (a :: l) := by
            rintro ⟨b, hb, e, he⟩
            cases hb
            rw [ha] at he
            cases he
          rw [or_iff_left hno, ← run_eq_ok_iff]
          refine ⟨fun hall => ?_, fun hok e he => ?_⟩
          · -- behind the first element the state has grown, so there was no error
            cases hres : (run step s (a :: l)).2 with
            | ok _ => rfl
            | error e =>
                have hback := hall e hres
                have hlt := hgrow s a s' ha
                have hmore := hle l s'
                rw [run_cons_ok ha] at hback
                rw [hback] at hmore
                omega
          · rw [hok] at he
            cases he

end Batch
