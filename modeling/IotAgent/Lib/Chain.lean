import Mathlib.Data.Set.Finite.Basic
import Mathlib.Logic.Relation
import Mathlib.Order.Preorder.Finite

/-!
Chains of a partial function.

From a point the function is applied again and again, until it is not defined.

* `Chain.Ends`: the chain from a point comes to an end; `Ends.induction` goes along it;
* `Chain.Cyclic`: the chain comes to a point that it comes back to;
* `Chain.ends_iff_not_cyclic`: for a function that is defined at finitely many points a
  chain that does not end is cyclic;
* `Chain.Ends.bound`: a chain that ends has as many steps as there are such points at most.
-/

namespace Chain

variable {α : Type*} (f : α → Option α)

/-- One step of the chain. -/
def Step (x y : α) : Prop :=
  f x = some y

/-- The point after `n` steps, if there are as many. -/
def iter : ℕ → α → Option α
  | 0, x => some x
  | n + 1, x => (f x).bind (iter n)

/-- The chain comes to an end. -/
def Ends (x : α) : Prop :=
  ∃ n, iter f n x = none

/-- The chain comes to a point that it comes back to. -/
def Cyclic (x : α) : Prop :=
  ∃ y, Relation.ReflTransGen (Step f) x y ∧ Relation.TransGen (Step f) y y

variable {f} {x y : α}

/-! ### Ends -/

lemma ends_of_none (hx : f x = none) : Ends f x :=
  ⟨1, by rw [iter, hx]; rfl⟩

lemma ends_iff_of_step (hxy : f x = some y) : Ends f x ↔ Ends f y := by
  constructor
  · rintro ⟨n, hn⟩
    cases n with
    | zero => cases hn
    | succ n =>
        rw [iter, hxy, Option.bind_some] at hn
        exact ⟨n, hn⟩
  · rintro ⟨n, hn⟩
    refine ⟨n + 1, ?_⟩
    rw [iter, hxy, Option.bind_some, hn]

/-- Induction from the end of a chain. -/
theorem Ends.induction {P : α → Prop} (hx : Ends f x) (hnone : ∀ x, f x = none → P x)
    (hstep : ∀ x y, f x = some y → P y → P x) : P x := by
  obtain ⟨n, hn⟩ := hx
  induction n generalizing x with
  | zero => cases hn
  | succ n ih =>
      cases hfx : f x with
      | none => exact hnone x hfx
      | some y =>
          rw [iter, hfx, Option.bind_some] at hn
          exact hstep x y hfx (ih hn)

/-! ### Cycles -/

/-- A cycle is ahead of every point of the chain. -/
lemma Cyclic.step (hx : Cyclic f x) : ∃ y, f x = some y ∧ Cyclic f y := by
  obtain ⟨z, hxz, hzz⟩ := hx
  obtain ⟨y, hxy, hyz⟩ : ∃ y, Step f x y ∧ Relation.ReflTransGen (Step f) y z := by
    rcases Relation.ReflTransGen.cases_head hxz with rfl | hhead
    · exact Relation.TransGen.head'_iff.mp hzz
    · exact hhead
  exact ⟨y, hxy, z, hyz, hzz⟩

/-- A chain with a cycle does not end. -/
lemma not_cyclic_of_ends (hx : Ends f x) : ¬ Cyclic f x := by
  refine hx.induction (P := fun x => ¬ Cyclic f x) (fun x hfx hcyclic => ?_)
    fun x y hxy hy hcyclic => ?_
  · obtain ⟨y, hxy, -⟩ := hcyclic.step
    rw [hfx] at hxy
    cases hxy
  · obtain ⟨z, hxz, hz⟩ := hcyclic.step
    rw [hxy, Option.some.injEq] at hxz
    exact hy (hxz ▸ hz)

lemma iter_succ (n : ℕ) (x : α) : iter f (n + 1) x = (iter f n x).bind f := by
  induction n generalizing x with
  | zero =>
      rw [iter, iter, Option.bind_some]
      cases f x <;> rfl
  | succ n ih =>
      rw [iter, iter]
      cases f x with
      | none => rfl
      | some y =>
          rw [Option.bind_some, Option.bind_some]
          exact ih y

/-- A chain has all points before one that it has. -/
lemma iter_ne_none_of_le {m n : ℕ} (hmn : m ≤ n) (hn : iter f n x ≠ none) :
    iter f m x ≠ none := by
  induction n, hmn using Nat.le_induction with
  | base => exact hn
  | succ n _ ih =>
      refine ih fun hnone => hn ?_
      rw [iter_succ, hnone]
      rfl

/-- A chain that comes to a point again is cyclic. -/
lemma cyclic_of_iter_eq {m n : ℕ} (hmn : m < n) (hm : iter f m x = some y)
    (hn : iter f n x = some y) : Cyclic f x := by
  have hreach : ∀ (k : ℕ) (u v : α), iter f k u = some v →
      Relation.ReflTransGen (Step f) u v := by
    intro k
    induction k with
    | zero =>
        intro u v huv
        rw [iter, Option.some.injEq] at huv
        exact huv ▸ Relation.ReflTransGen.refl
    | succ k ih =>
        intro u v huv
        rw [iter_succ, Option.bind_eq_some_iff] at huv
        obtain ⟨w, huw, hwv⟩ := huv
        exact (ih u w huw).tail hwv
  have hsplit : ∀ (j k : ℕ) (u v : α), iter f j u = some v → iter f (j + k) u = iter f k v := by
    intro j
    induction j with
    | zero =>
        intro k u v huv
        rw [iter, Option.some.injEq] at huv
        rw [Nat.zero_add, huv]
    | succ j ih =>
        intro k u v huv
        rw [iter, Option.bind_eq_some_iff] at huv
        obtain ⟨w, huw, hwv⟩ := huv
        rw [Nat.add_right_comm, iter, huw, Option.bind_some]
        exact ih k w v hwv
  refine ⟨y, hreach m x y hm, ?_⟩
  obtain ⟨k, rfl⟩ : ∃ k, n = m + (k + 1) := ⟨n - m - 1, by omega⟩
  rw [hsplit m (k + 1) x y hm, iter, Option.bind_eq_some_iff] at hn
  obtain ⟨z, hyz, hzy⟩ := hn
  exact Relation.TransGen.head' hyz (hreach k z y hzy)

/-- **A chain ends or runs in a cycle**, if only finitely many points have a successor. -/
theorem ends_iff_not_cyclic (hfin : {x | f x ≠ none}.Finite) : Ends f x ↔ ¬ Cyclic f x := by
  refine ⟨not_cyclic_of_ends, fun hcyclic => ?_⟩
  by_contra hends
  have hdef : ∀ n, ∃ y, iter f n x = some y := fun n =>
    Option.ne_none_iff_exists'.mp fun hn => hends ⟨n, hn⟩
  choose g hg using hdef
  have hmem : ∀ n, g n ∈ {x | f x ≠ none} := by
    intro n hnone
    have hn := iter_succ (f := f) n x
    rw [hg, hg, Option.bind_some, hnone] at hn
    cases hn
  obtain ⟨m, n, hmn, heq⟩ := Set.Finite.exists_lt_map_eq_of_forall_mem hmem hfin
  exact hcyclic (cyclic_of_iter_eq hmn (hg m) (heq ▸ hg n))

/-- A chain that ends has no point twice, so it is no longer than they are many. -/
theorem Ends.bound {s : List α} (hs : ∀ x, f x ≠ none → x ∈ s) (hx : Ends f x) :
    iter f (s.length + 1) x = none := by
  by_contra hlong
  have hdef : ∀ n : Fin (s.length + 2), ∃ y, iter f n x = some y := fun n =>
    Option.ne_none_iff_exists'.mp (iter_ne_none_of_le (Nat.le_of_lt_succ n.isLt) hlong)
  choose g hg using hdef
  have hmem : ∀ n : Fin (s.length + 1), g n.castSucc ∈ s := by
    intro n
    refine hs _ fun hnone => ?_
    have hsucc := iter_succ (f := f) n x
    have hcast := hg n.castSucc
    rw [Fin.val_castSucc] at hcast
    rw [hcast, Option.bind_some, hnone] at hsucc
    have hnext := hg n.succ
    rw [Fin.val_succ, hsucc] at hnext
    cases hnext
  have hinj : Function.Injective fun n : Fin (s.length + 1) => g n.castSucc := by
    intro a b hab
    have ha := hg a.castSucc
    have hb := hg b.castSucc
    have hab' : g a.castSucc = g b.castSucc := hab
    rw [Fin.val_castSucc] at ha hb
    rw [hab'] at ha
    rcases lt_trichotomy (a : ℕ) b with hlt | heq | hlt
    · exact absurd (cyclic_of_iter_eq hlt ha hb) (not_cyclic_of_ends hx)
    · exact Fin.ext heq
    · exact absurd (cyclic_of_iter_eq hlt hb ha) (not_cyclic_of_ends hx)
  have hlen : (List.ofFn fun n : Fin (s.length + 1) => g n.castSucc).length ≤ s.length := by
    refine (List.Nodup.subperm (List.nodup_ofFn.mpr hinj) ?_).length_le
    intro y hy
    obtain ⟨n, rfl⟩ := (List.mem_ofFn' _ _).mp hy
    exact hmem n
  rw [List.length_ofFn] at hlen
  omega

end Chain
