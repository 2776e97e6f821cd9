import Mathlib.Algebra.BigOperators.Group.List.Basic
import Mathlib.Algebra.GroupWithZero.Nat
import Mathlib.Logic.Relation

/-!
Interleavings of sequential tasks over a shared state.

A task is the rest of a sequential program together with its local variables. One step
runs one atomic action of one task; which task is next and how an underspecified action
turns out (the oracle `ω`) is not determined.

* `Step`, `Run`: the steps and runs of a configuration, restricted to steps that meet a
  guard;
* `Run.invariant`, `Run.forall_tasks`: what every step preserves holds after every run;
* `Run.potential_le`: the potential argument. A quantity of the shared state plus the sum
  of a weight over all tasks never grows when no single action lets its own part of the
  sum grow. This is how a token that is handed from the shared state to a task and spent
  once is counted;
* `Step.sum_eq`: a quantity of the shared state that the tasks account for, as the holders
  of a lock do for the lock;
* `RunIn`, `RunIn.invariant`: runs through configurations with a property;
* `RunWith`, `RunWith.invariant`: runs whose guard sees the other tasks as well;
* `filter_set_of_not`, `filter_set_of_single`: the tasks of one party after a step;
* `exec`, `execWith`: a run computed from a schedule, and `run_of_exec`, `runWith_of_execWith`.
-/

namespace Interleaving

variable {σ τ ω : Type*}

/-- The shared state and the tasks that run over it. -/
structure Config (σ τ : Type*) where
  shared : σ
  tasks : List τ

/-- One atomic action of a task; `none` if the task has ended or has to wait. -/
abbrev Program (σ τ ω : Type*) := ω → σ → τ → Option (σ × τ)

/-- A guard on actions: the oracle, the shared state before the action and the task. -/
abbrev Guard (σ τ ω : Type*) := ω → σ → τ → Prop

variable (prog : Program σ τ ω) (ok : Guard σ τ ω)

/-- One action of one task that meets the guard. -/
inductive Step : Config σ τ → Config σ τ → Prop where
  | act {c : Config σ τ} {i : ℕ} {o : ω} {t t' : τ} {s' : σ} (hget : c.tasks[i]? = some t)
      (hok : ok o c.shared t) (hrun : prog o c.shared t = some (s', t')) :
      Step c ⟨s', c.tasks.set i t'⟩

/-- A run: any number of steps. -/
abbrev Run : Config σ τ → Config σ τ → Prop := Relation.ReflTransGen (Step prog ok)

variable {prog ok}

/-! ### Invariants -/

/-- What every step preserves holds after every run. -/
theorem Run.invariant {I : Config σ τ → Prop}
    (hstep : ∀ c c', I c → Step prog ok c c' → I c') {c c' : Config σ τ} (h : I c)
    (hrun : Run prog ok c c') : I c' := by
  induction hrun with
  | refl => exact h
  | tail _ hs ih => exact hstep _ _ ih hs

/-- A property of the single tasks that every action preserves: the action of a task for
the task itself, and for all others, whose view of the shared state it may change. -/
theorem Run.forall_tasks {P : σ → τ → Prop}
    (hself : ∀ o s t s' t', P s t → prog o s t = some (s', t') → P s' t')
    (hframe : ∀ o s t s' t' u, P s t → P s u → prog o s t = some (s', t') → P s' u)
    {c c' : Config σ τ} (h : ∀ t ∈ c.tasks, P c.shared t) (hrun : Run prog ok c c') :
    ∀ t ∈ c'.tasks, P c'.shared t := by
  refine Run.invariant (I := fun c => ∀ t ∈ c.tasks, P c.shared t) ?_ h hrun
  rintro c _ ih ⟨hget, -, hrun⟩ u hu
  have ht := ih _ (List.mem_of_getElem? hget)
  rcases List.mem_or_eq_of_mem_set hu with hu | rfl
  · exact hframe _ _ _ _ _ _ ht (ih u hu) hrun
  · exact hself _ _ _ _ _ ht hrun

/-! ### Runs through certain configurations -/

/-- A run all of whose later configurations have a property. -/
abbrev RunIn (prog : Program σ τ ω) (ok : Guard σ τ ω) (A : Config σ τ → Prop) :
    Config σ τ → Config σ τ → Prop :=
  Relation.ReflTransGen fun c c' => Step prog ok c c' ∧ A c'

/-- An invariant may use the property of the configurations that the run passes. -/
theorem RunIn.invariant {A I : Config σ τ → Prop}
    (hstep : ∀ c c', A c → I c → Step prog ok c c' → A c' → I c') {c c' : Config σ τ}
    (hA : A c) (h : I c) (hrun : RunIn prog ok A c c') : A c' ∧ I c' := by
  induction hrun with
  | refl => exact ⟨hA, h⟩
  | tail _ hs ih => exact ⟨hs.2, hstep _ _ ih.1 ih.2 hs.1 hs.2⟩

/-- A property that all configurations have is no restriction. -/
lemma Run.runIn {A : Config σ τ → Prop} (hA : ∀ c, A c) {c c' : Config σ τ}
    (hrun : Run prog ok c c') : RunIn prog ok A c c' :=
  Relation.ReflTransGen.mono (fun _ c' hs => ⟨hs, hA c'⟩) _ _ hrun

/-! ### Guards that see all tasks -/

/-- A guard that sees the other tasks as well. -/
abbrev GuardAll (σ τ ω : Type*) := ω → Config σ τ → τ → Prop

/-- A run each step of which meets a guard on the configuration before it. -/
abbrev RunWith (prog : Program σ τ ω) (ok : GuardAll σ τ ω) : Config σ τ → Config σ τ → Prop :=
  Relation.ReflTransGen fun c c' => Step prog (fun o _ t => ok o c t) c c'

/-- What every step that meets the guard preserves holds after every run. -/
theorem RunWith.invariant {ok : GuardAll σ τ ω} {I : Config σ τ → Prop}
    (hstep : ∀ c c', I c → Step prog (fun o _ t => ok o c t) c c' → I c') {c c' : Config σ τ}
    (h : I c) (hrun : RunWith prog ok c c') : I c' := by
  induction hrun with
  | refl => exact h
  | tail _ hs ih => exact hstep _ _ ih hs

/-! ### The tasks after a step -/

/-- A task that does not act stays. -/
lemma mem_set_of_ne {l : List τ} {i : ℕ} {t u : τ} (t' : τ) (hget : l[i]? = some t) (hu : u ∈ l)
    (hne : u ≠ t) : u ∈ l.set i t' := by
  obtain ⟨j, hj⟩ := List.mem_iff_getElem?.mp hu
  refine List.mem_iff_getElem?.mpr ⟨j, ?_⟩
  have hij : i ≠ j := by
    rintro rfl
    exact hne (Option.some.inj (hj.symm.trans hget))
  rw [List.getElem?_set_ne hij, hj]

/-- The task that acts is there afterwards. -/
lemma mem_set_self {l : List τ} {i : ℕ} {t : τ} (t' : τ) (hget : l[i]? = some t) :
    t' ∈ l.set i t' :=
  List.mem_set (List.getElem?_eq_some_iff.mp hget).1 t'

/-- Of the tasks with a property the one that acts may leave and may come. -/
lemma countP_set_add {p : τ → Bool} {l : List τ} {i : ℕ} {t : τ} (t' : τ) (hget : l[i]? = some t) :
    (l.set i t').countP p + (p t).toNat = l.countP p + (p t').toNat := by
  obtain ⟨hi, rfl⟩ := List.getElem?_eq_some_iff.mp hget
  have hone : (p l[i]).toNat ≤ l.countP p := by
    cases hp : p l[i] with
    | true => exact List.one_le_countP_iff.mpr ⟨_, List.getElem_mem hi, hp⟩
    | false => exact Nat.zero_le _
  rw [List.countP_set hi]
  cases hp : p l[i] <;> cases hp' : p t' <;> simp_all

/-! ### The tasks of one party -/

section Party

variable {p : τ → Bool} {l : List τ} {i : ℕ} {t t' : τ}

/-- A task of another party leaves the tasks of the party. -/
lemma filter_set_of_not (t' : τ) (hget : l[i]? = some t) (ht : ¬ p t) (ht' : ¬ p t') :
    (l.set i t').filter p = l.filter p := by
  induction l generalizing i with
  | nil => simp at hget
  | cons a l ih =>
      cases i with
      | zero =>
          simp only [List.getElem?_cons_zero, Option.some.injEq] at hget
          subst hget
          simp [ht, ht']
      | succ i =>
          have htail : l[i]? = some t := by simpa using hget
          simp only [List.set_cons_succ, List.filter_cons, ih htail]

/-- The only task of the party takes a step. -/
lemma filter_set_of_single {a : τ} (t' : τ) (h : l.filter p = [a]) (hget : l[i]? = some t)
    (ht : p t) :
    t = a ∧ (l.set i t').filter p = if p t' then [t'] else [] := by
  induction l generalizing i with
  | nil => simp at hget
  | cons b l ih =>
      cases i with
      | zero =>
          simp only [List.getElem?_cons_zero, Option.some.injEq] at hget
          subst hget
          simp only [List.filter_cons, ht, if_true, List.cons.injEq] at h
          by_cases ht' : p t' <;> simp [ht', h.1, h.2]
      | succ i =>
          have htail : l[i]? = some t := by simpa using hget
          have hmem : t ∈ l.filter p :=
            List.mem_filter.mpr ⟨List.mem_of_getElem? htail, ht⟩
          have hb : ¬ p b := by
            intro hb
            simp only [List.filter_cons, hb, if_true, List.cons.injEq] at h
            rw [h.2] at hmem
            cases hmem
          simp only [List.filter_cons, hb, Bool.false_eq_true, if_false] at h
          simpa only [List.set_cons_succ, List.filter_cons, hb, Bool.false_eq_true, if_false]
            using ih h htail

end Party

/-! ### The potential argument -/

/-- The quantity `f` of the shared state and the weights `w` of the tasks, added up. -/
def potential (f : σ → ℕ) (w : τ → ℕ) (c : Config σ τ) : ℕ :=
  f c.shared + (c.tasks.map w).sum

lemma sum_map_set (w : τ → ℕ) {l : List τ} {i : ℕ} {t : τ} (t' : τ) (h : l[i]? = some t) :
    ((l.set i t').map w).sum + w t = (l.map w).sum + w t' := by
  induction l generalizing i with
  | nil => simp at h
  | cons a l ih =>
      cases i with
      | zero =>
          simp only [List.getElem?_cons_zero, Option.some.injEq] at h
          subst h
          simp only [List.set_cons_zero, List.map_cons, List.sum_cons]
          omega
      | succ i =>
          have := ih (by simpa using h)
          simp only [List.set_cons_succ, List.map_cons, List.sum_cons]
          omega

/-- **The potential argument**: if no action of a task with property `P` lets the sum of
`f` and of its own weight grow, no run lets the potential grow. -/
theorem Run.potential_le {P : σ → τ → Prop} (f : σ → ℕ) (w : τ → ℕ)
    (hself : ∀ o s t s' t', P s t → prog o s t = some (s', t') → P s' t')
    (hframe : ∀ o s t s' t' u, P s t → P s u → prog o s t = some (s', t') → P s' u)
    (hstep : ∀ o s t s' t', P s t → ok o s t → prog o s t = some (s', t') →
      f s' + w t' ≤ f s + w t)
    {c c' : Config σ τ} (h : ∀ t ∈ c.tasks, P c.shared t) (hrun : Run prog ok c c') :
    potential f w c' ≤ potential f w c := by
  induction hrun with
  | refl => exact Nat.le_refl _
  | tail hpre hs ih =>
      refine Nat.le_trans ?_ ih
      have hall := Run.forall_tasks hself hframe h hpre
      cases hs with
      | @act i o t t' s' hget hok hact =>
          have hloc := hstep _ _ _ _ _ (hall _ (List.mem_of_getElem? hget)) hok hact
          have hsum := sum_map_set w t' hget
          simp only [potential]
          omega

/-- A quantity of the shared state that the weights of the tasks account for: when an action
changes both alike, the weights go on adding up to the quantity. -/
lemma Step.sum_eq {f : σ → ℕ} {w : τ → ℕ} {c c' : Config σ τ}
    (hstep : ∀ o t s' t', t ∈ c.tasks → prog o c.shared t = some (s', t') →
      f s' + w t = f c.shared + w t')
    (hs : Step prog ok c c') (hc : (c.tasks.map w).sum = f c.shared) :
    (c'.tasks.map w).sum = f c'.shared := by
  cases hs with
  | @act i o t t' s' hget _ hact =>
      have hloc := hstep _ _ _ _ (List.mem_of_getElem? hget) hact
      have hsum := sum_map_set w t' hget
      show ((c.tasks.set i t').map w).sum = f s'
      omega

/-- A weight that is one on some tasks counts them. -/
lemma countP_le_sum {p : τ → Bool} {w : τ → ℕ} (hw : ∀ t, p t → 1 ≤ w t) (l : List τ) :
    l.countP p ≤ (l.map w).sum := by
  induction l with
  | nil => simp
  | cons t l ih =>
      rw [List.countP_cons, List.map_cons, List.sum_cons]
      by_cases ht : p t
      · have := hw t ht
        simp only [ht, if_true]
        omega
      · simp only [ht, Bool.false_eq_true, if_false]
        omega

/-! ### A task alone -/

/-- A first action and a run from there on are a run. -/
lemma Run.alone {o : ω} {s s' : σ} {t t' : τ} {c : Config σ τ}
    (hact : prog o s t = some (s', t')) (hrun : Run prog (fun _ _ _ => True) ⟨s', [t']⟩ c) :
    Run prog (fun _ _ _ => True) ⟨s, [t]⟩ c := by
  refine Relation.ReflTransGen.head ?_ hrun
  exact Step.act (c := ⟨s, [t]⟩) (i := 0) rfl trivial hact

/-! ### Schedules -/

section Schedule

variable (prog) (ok : GuardAll σ τ ω) [∀ o c t, Decidable (ok o c t)]

/-- The run of a schedule: the numbers of the tasks in the order of their actions, with
the oracle of each. There is none if an action cannot be taken or misses the guard. -/
def execWith : List (ω × ℕ) → Config σ τ → Option (Config σ τ)
  | [], c => some c
  | (o, i) :: sched, c =>
      match c.tasks[i]? with
      | none => none
      | some t =>
          if ok o c t then
            match prog o c.shared t with
            | none => none
            | some (s', t') => execWith sched ⟨s', c.tasks.set i t'⟩
          else none

variable {prog ok}

/-- What a schedule computes is a run. -/
theorem runWith_of_execWith {sched : List (ω × ℕ)} {c c' : Config σ τ}
    (h : execWith prog ok sched c = some c') : RunWith prog ok c c' := by
  induction sched generalizing c with
  | nil =>
      simp only [execWith, Option.some.injEq] at h
      exact h ▸ Relation.ReflTransGen.refl
  | cons a sched ih =>
      obtain ⟨o, i⟩ := a
      rw [execWith] at h
      split at h
      · cases h
      · next t hget =>
          split at h
          · next hok =>
              split at h
              · cases h
              · next s' t' hact =>
                  exact Relation.ReflTransGen.head ⟨hget, hok, hact⟩ (ih h)
          · cases h

end Schedule

section Exec

variable (prog ok) [∀ o s t, Decidable (ok o s t)]

/-- The run of a schedule whose guard sees the acting task only. -/
def exec (sched : List (ω × ℕ)) (c : Config σ τ) : Option (Config σ τ) :=
  execWith prog (fun o c t => ok o c.shared t) sched c

variable {prog ok}

theorem run_of_exec {sched : List (ω × ℕ)} {c c' : Config σ τ}
    (h : exec prog ok sched c = some c') : Run prog ok c c' :=
  Relation.ReflTransGen.mono (fun _ _ ⟨hget, hok, hact⟩ => ⟨hget, hok, hact⟩) _ _
    (runWith_of_execWith h)

end Exec

end Interleaving
