import Mathlib.Control.Monad.Basic
import Mathlib.Data.Set.Lattice

/-!
Computations that read a state through accesses that leave a mark in it.

An access of a key may change the state, once; a state in which all the keys have been accessed
does not change any more. A computation is compared with a result that does not depend on the
state, as the accesses read the same before and after.

* `Touching`: the accesses of a kind of state;
* `Touches`: a computation has a result, and accesses keys of a set, all of them if it ends well;
* `Touches.bind`, `Touches.foldlM`: computations one after the other;
* `Touches.unchanged`, `Touches.unchanged_iff`: when the state is the same after it.
-/

/-- Accesses of a state by keys, and the keys that the state has marks of. -/
structure Touching (σ κ : Type) where
  touch : κ → σ → σ
  Has : κ → σ → Prop
  has_touch : ∀ j k s, Has k (touch j s) ↔ k = j ∨ Has k s
  touch_of_has : ∀ k s, Has k s → touch k s = s

namespace Touching

variable {σ κ ε α β : Type} (T : Touching σ κ)

/-- Accesses one after the other. -/
def touchAll (ks : List κ) (s : σ) : σ :=
  ks.foldl (fun s k => T.touch k s) s

/-- A computation from a state. It keeps the state where it throws. -/
def runOn (x : ExceptT ε (StateM σ) α) (s : σ) : Except ε α × σ :=
  Id.run (StateT.run (ExceptT.run x) s)

section

variable {T} {ks : List κ} {s : σ}

lemma touchAll_append (ks ks' : List κ) (s : σ) :
    T.touchAll (ks ++ ks') s = T.touchAll ks' (T.touchAll ks s) :=
  List.foldl_append

lemma has_touchAll_iff {k : κ} : T.Has k (T.touchAll ks s) ↔ k ∈ ks ∨ T.Has k s := by
  induction ks generalizing s with
  | nil => simp [touchAll]
  | cons j ks ih =>
      have hstep : T.touchAll (j :: ks) s = T.touchAll ks (T.touch j s) := rfl
      rw [hstep, ih, T.has_touch, List.mem_cons]
      tauto

lemma touchAll_of_has (hks : ∀ k ∈ ks, T.Has k s) : T.touchAll ks s = s := by
  induction ks with
  | nil => rfl
  | cons j ks ih =>
      have hstep : T.touchAll (j :: ks) s = T.touchAll ks (T.touch j s) := rfl
      rw [hstep, T.touch_of_has j s (hks j List.mem_cons_self)]
      exact ih fun k hk => hks k (List.mem_cons_of_mem _ hk)

end

/-! ### Runs -/

@[simp] lemma runOn_pure (a : α) (s : σ) :
    runOn (pure a : ExceptT ε (StateM σ) α) s = (.ok a, s) := rfl

@[simp] lemma runOn_throw (e : ε) (s : σ) :
    runOn (throw e : ExceptT ε (StateM σ) α) s = (.error e, s) := rfl

section Run

variable {x : ExceptT ε (StateM σ) α} {f : α → ExceptT ε (StateM σ) β} {s s' : σ} {e : ε}

lemma runOn_bind_ok {a : α} (h : runOn x s = (.ok a, s')) :
    runOn (x >>= f) s = runOn (f a) s' := by
  unfold runOn ExceptT.run StateT.run Id.run at *
  simp only [bind, ExceptT.bind, ExceptT.mk, StateT.bind]
  rw [h]
  rfl

lemma runOn_bind_error (h : runOn x s = (.error e, s')) : runOn (x >>= f) s = (.error e, s') := by
  unfold runOn ExceptT.run StateT.run Id.run at *
  simp only [bind, ExceptT.bind, ExceptT.mk, StateT.bind]
  rw [h]
  rfl

lemma runOn_adapt {ε' : Type} (h : ε → ε') :
    runOn (ExceptT.adapt h x) s = ((runOn x s).1.mapError h, (runOn x s).2) :=
  rfl

end Run

/-! ### What a computation accesses -/

variable {T}

/-- The states that may be accessed. -/
def Closed (T : Touching σ κ) (P : σ → Prop) : Prop :=
  ∀ k s, P s → P (T.touch k s)

lemma Closed.touchAll {P : σ → Prop} (hP : Closed T P) {s : σ} (hs : P s) (ks : List κ) :
    P (T.touchAll ks s) := by
  induction ks generalizing s with
  | nil => exact hs
  | cons k ks ih => exact ih (hP k s hs)

/-- From the states of a kind a computation has a result, and accesses keys of a set; if it
ends well, all that are new. -/
def Touches (T : Touching σ κ) (P : σ → Prop) (x : ExceptT ε (StateM σ) α) (r : Except ε α)
    (V : Set κ) : Prop :=
  ∀ s, P s → ∃ ks, runOn x s = (r, T.touchAll ks s) ∧ (∀ k ∈ ks, k ∈ V) ∧
    ((∃ a, r = .ok a) → ∀ k ∈ V, k ∈ ks ∨ T.Has k s)

namespace Touches

variable {P : σ → Prop} {x : ExceptT ε (StateM σ) α} {r : Except ε α} {V W : Set κ}

lemma pure (a : α) : Touches T P (Pure.pure a : ExceptT ε (StateM σ) α) (.ok a) ∅ :=
  fun s _ => ⟨[], runOn_pure a s, by simp, by simp⟩

lemma throw (e : ε) (V : Set κ) :
    Touches T P (MonadExcept.throw e : ExceptT ε (StateM σ) α) (.error e) V :=
  fun s _ => ⟨[], runOn_throw e s, by simp, by simp⟩

/-- From fewer states. -/
lemma weaken {Q : σ → Prop} (h : Touches T P x r V) (hQ : ∀ s, Q s → P s) : Touches T Q x r V :=
  fun s hs => h s (hQ s hs)

/-- With other keys that are there already. -/
lemma of_has (h : Touches T P x r V) (hVW : V ⊆ W)
    (hW : ∀ s, P s → (∃ a, r = .ok a) → ∀ k ∈ W, k ∈ V ∨ T.Has k s) : Touches T P x r W := by
  intro s hs
  obtain ⟨ks, hrun, hsub, hall⟩ := h s hs
  refine ⟨ks, hrun, fun k hk => hVW (hsub k hk), fun hok k hk => ?_⟩
  exact (hW s hs hok k hk).elim (hall hok k) .inr

/-- One computation after the other. -/
lemma bind {f : α → ExceptT ε (StateM σ) β} {g : α → Except ε β} (hP : Closed T P)
    (hx : Touches T P x r V)
    (hf : ∀ a, r = .ok a → Touches T (fun s => P s ∧ ∀ k ∈ V, T.Has k s) (f a) (g a) W) :
    Touches T P (x >>= f) (r >>= g) (V ∪ W) := by
  intro s hs
  obtain ⟨ks, hrun, hsub, hall⟩ := hx s hs
  cases r with
  | error e => exact ⟨ks, runOn_bind_error hrun, fun k hk => .inl (hsub k hk), by
      rintro ⟨a, ha⟩
      cases ha⟩
  | ok a =>
      have hhas : ∀ k ∈ V, T.Has k (T.touchAll ks s) := fun k hk =>
        has_touchAll_iff.mpr (hall ⟨a, rfl⟩ k hk)
      obtain ⟨ks', hrun', hsub', hall'⟩ := hf a rfl _ ⟨hP.touchAll hs ks, hhas⟩
      refine ⟨ks ++ ks', ?_, fun k hk => ?_, fun hok k hk => ?_⟩
      · rw [runOn_bind_ok hrun, hrun', touchAll_append]
        rfl
      · exact (List.mem_append.mp hk).imp (hsub k) (hsub' k)
      · rw [List.mem_append, or_assoc]
        rcases hk with hk | hk
        · exact (hall ⟨a, rfl⟩ k hk).imp_right .inr
        · rcases hall' hok k hk with hk | hk
          · exact .inr (.inl hk)
          · exact (has_touchAll_iff.mp hk).imp_right .inr

/-- An exception may be changed. -/
lemma adapt {ε' : Type} (h : ε → ε') (hx : Touches T P x r V) :
    Touches T P (ExceptT.adapt h x) (r.mapError h) V := by
  intro s hs
  obtain ⟨ks, hrun, hsub, hall⟩ := hx s hs
  refine ⟨ks, by rw [runOn_adapt, hrun], hsub, ?_⟩
  rintro ⟨a, ha⟩
  cases r with
  | error e => cases ha
  | ok a => exact hall ⟨a, rfl⟩

section Loop

variable {Q : α → σ → Prop} {f : α → β → ExceptT ε (StateM σ) α} {g : α → β → Except ε α}
  {U : β → Set κ}

/-- A loop, with what is known of the states before each of its steps. -/
lemma foldlM (hQ : ∀ a, Closed T (Q a)) {l : List β}
    (hstep : ∀ a, ∀ b ∈ l, Touches T (Q a) (f a b) (g a b) (U b))
    (hpost : ∀ a b a' s, Q a s → g a b = .ok a' → (∀ k ∈ U b, T.Has k s) → Q a' s) (a : α) :
    Touches T (Q a) (l.foldlM f a) (l.foldlM g a) {k | ∃ b ∈ l, k ∈ U b} := by
  induction l generalizing a with
  | nil =>
      have hnil : {k | ∃ b ∈ ([] : List β), k ∈ U b} = ∅ := by simp
      rw [hnil]
      exact pure a
  | cons b l ih =>
      have hcons : {k | ∃ c ∈ b :: l, k ∈ U c} = U b ∪ {k | ∃ c ∈ l, k ∈ U c} := by
        ext k
        simp
      rw [hcons, List.foldlM_cons, List.foldlM_cons]
      refine (hstep a b List.mem_cons_self).bind (hQ a) fun a' ha' =>
        (ih (fun a c hc => hstep a c (List.mem_cons_of_mem _ hc)) a').weaken ?_
      rintro s ⟨hs, hhas⟩
      exact hpost a b a' s hs ha' hhas

/-- What is known of the states after it. -/
lemma foldlM_post
    (hpost : ∀ a b a' s, Q a s → g a b = .ok a' → (∀ k ∈ U b, T.Has k s) → Q a' s)
    {l : List β} {a a' : α} {s : σ} (hs : Q a s) (hl : l.foldlM g a = .ok a')
    (hhas : ∀ b ∈ l, ∀ k ∈ U b, T.Has k s) : Q a' s := by
  induction l generalizing a with
  | nil =>
      cases hl
      exact hs
  | cons b l ih =>
      rw [List.foldlM_cons] at hl
      cases hb : g a b with
      | error e =>
          rw [hb] at hl
          cases hl
      | ok a₁ =>
          rw [hb] at hl
          exact ih (hpost a b a₁ s hs hb (hhas b List.mem_cons_self)) hl
            fun c hc => hhas c (List.mem_cons_of_mem _ hc)

end Loop

/-- The result. -/
lemma result (h : Touches T P x r V) {s : σ} (hs : P s) : (runOn x s).1 = r := by
  obtain ⟨ks, hrun, -⟩ := h s hs
  rw [hrun]

/-- Where all keys are there already, the state is the same after the computation. -/
lemma unchanged (h : Touches T P x r V) {s : σ} (hs : P s) (hV : ∀ k ∈ V, T.Has k s) :
    (runOn x s).2 = s := by
  obtain ⟨ks, hrun, hsub, -⟩ := h s hs
  rw [hrun]
  exact touchAll_of_has fun k hk => hV k (hsub k hk)

/-- After a computation that ends well all keys are there. -/
lemma has (h : Touches T P x r V) {s : σ} (hs : P s) (hok : ∃ a, r = .ok a) {k : κ} (hk : k ∈ V) :
    T.Has k (runOn x s).2 := by
  obtain ⟨ks, hrun, -, hall⟩ := h s hs
  rw [hrun]
  exact has_touchAll_iff.mpr (hall hok k hk)

/-- The state is the same after a computation that ends well if it had all keys before. -/
theorem unchanged_iff (h : Touches T P x r V) {s : σ} (hs : P s) (hok : ∃ a, r = .ok a) :
    (runOn x s).2 = s ↔ ∀ k ∈ V, T.Has k s := by
  refine ⟨fun heq k hk => ?_, h.unchanged hs⟩
  rw [← heq]
  exact h.has hs hok hk

end Touches

end Touching
