import Mathlib.Data.List.Basic

/-!
Properties of all states of a run.

A system takes one step for each element of a list of actions. Where a step keeps a property
exactly under a condition, the states of a run have the property exactly if all its steps meet
the condition.

* `Run.run`: the state after a list of actions;
* `Run.Always`: every step of a run meets a condition, in `Run.always_iff` by its place;
* `Run.forall_run_iff`: the property of all states of a run.
-/

namespace Run

variable {σ α : Type*} (step : σ → α → σ)

/-- The state after the actions. -/
def run (s : σ) (l : List α) : σ :=
  l.foldl step s

/-- Every action of the run meets the condition in the state in which it is taken. -/
def Always (C : σ → α → Prop) : σ → List α → Prop
  | _, [] => True
  | s, a :: l => C s a ∧ Always C (step s a) l

instance decidableAlways {C : σ → α → Prop} [∀ s a, Decidable (C s a)] :
    ∀ s l, Decidable (Always step C s l)
  | _, [] => isTrue trivial
  | s, a :: l => @instDecidableAnd _ _ inferInstance (decidableAlways (step s a) l)

variable {step} {s : σ} {l : List α} {C E : σ → α → Prop} {J : σ → Prop}

lemma always_true : Always step (fun _ _ => True) s l := by
  induction l generalizing s with
  | nil => trivial
  | cons a l ih => exact ⟨trivial, ih⟩

/-- The steps of a run, each by what comes before it. -/
lemma always_iff : Always step C s l ↔
    ∀ before a after, l = before ++ a :: after → C (run step s before) a := by
  induction l generalizing s with
  | nil => simp [Always]
  | cons b l ih =>
      constructor
      · rintro ⟨hb, hl⟩ before a after heq
        cases before with
        | nil =>
            obtain ⟨rfl, rfl⟩ := List.cons.inj heq
            exact hb
        | cons b' before =>
            rw [List.cons_append, List.cons.injEq] at heq
            obtain ⟨rfl, hrest⟩ := heq
            exact ih.mp hl before a after hrest
      · intro hall
        exact ⟨hall [] b l rfl, ih.mpr fun before a after heq =>
          hall (b :: before) a after (by rw [heq, List.cons_append])⟩

/-- The actions meet the condition `E`. If under it a step from a state with the property leads
to one with the property exactly if it meets the condition `C`, all states of a run have the
property exactly if all steps meet `C`. -/
theorem forall_run_iff (hstep : ∀ s a, J s → E s a → (J (step s a) ↔ C s a)) (hs : J s)
    (he : Always step E s l) : (∀ n, J (run step s (l.take n))) ↔ Always step C s l := by
  induction l generalizing s with
  | nil => exact iff_of_true (fun n => by rw [List.take_nil]; exact hs) trivial
  | cons a l ih =>
      obtain ⟨hea, hel⟩ := he
      constructor
      · intro hrun
        have hnext : J (step s a) := hrun 1
        exact ⟨(hstep s a hs hea).mp hnext, (ih hnext hel).mp fun n => hrun (n + 1)⟩
      · rintro ⟨hc, hcl⟩ n
        have hnext : J (step s a) := (hstep s a hs hea).mpr hc
        cases n with
        | zero => exact hs
        | succ n => exact (ih hnext hel).mpr hcl n

end Run
