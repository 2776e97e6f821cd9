import Mathlib.Data.Finset.Card
import Mathlib.Data.Finset.Filter
import Mathlib.Data.List.Basic
import Mathlib.Order.Lattice

/-!
The latest elements of a set that grows upwards.

A list keeps a bounded number of elements in increasing order. When a new greatest element
comes to a full list, the least one leaves.

* `Latest`: the list has the greatest elements of the set, as many as it may;
* `Latest.mem_iff`: an element is in it exactly if there are not too many above it;
* `Latest.insert`: a new greatest element.
-/

variable {α : Type*} [LinearOrder α]

/-- The list `l` has at most `k` elements of `s` in increasing order, and whatever it leaves
out is below a full list. -/
structure Latest (k : ℕ) (l : List α) (s : Finset α) : Prop where
  sorted : l.Pairwise (· < ·)
  length_le : l.length ≤ k
  subset : ∀ x ∈ l, x ∈ s
  older : ∀ x ∈ s, x ∉ l → l.length = k ∧ ∀ y ∈ l, x < y

namespace Latest

variable {k : ℕ} {l l' : List α} {s : Finset α} {x g : α}

lemma nodup (h : l.Pairwise (· < ·)) : l.Nodup :=
  h.imp ne_of_lt

/-- Fewer than `k` elements are above what is in the list, and no others are so high. -/
theorem mem_iff (h : Latest k l s) : x ∈ l ↔ x ∈ s ∧ (s.filter (x < ·)).card < k := by
  constructor
  · intro hx
    refine ⟨h.subset x hx, ?_⟩
    -- whatever is above `x` is in the list too
    have hsub : s.filter (x < ·) ⊆ l.toFinset.erase x := by
      intro y hy
      obtain ⟨hys, hxy⟩ := Finset.mem_filter.mp hy
      refine Finset.mem_erase.mpr ⟨hxy.ne', List.mem_toFinset.mpr ?_⟩
      by_contra hyl
      exact lt_asymm hxy ((h.older y hys hyl).2 x hx)
    have hcard := Finset.card_le_card hsub
    rw [Finset.card_erase_of_mem (List.mem_toFinset.mpr hx),
      List.toFinset_card_of_nodup (nodup h.sorted)] at hcard
    have hpos := List.length_pos_of_mem hx
    have hle := h.length_le
    omega
  · rintro ⟨hxs, hcard⟩
    by_contra hxl
    obtain ⟨hfull, habove⟩ := h.older x hxs hxl
    have hsub : l.toFinset ⊆ s.filter (x < ·) := by
      intro y hy
      have hyl := List.mem_toFinset.mp hy
      exact Finset.mem_filter.mpr ⟨h.subset y hyl, habove y hyl⟩
    have hle := Finset.card_le_card hsub
    rw [List.toFinset_card_of_nodup (nodup h.sorted), hfull] at hle
    exact absurd hcard (not_lt_of_ge hle)

/-- A greatest element of the set is in the list. -/
lemma mem_of_greatest (h : Latest k l s) (hk : 0 < k) (hg : g ∈ s) (hmax : ∀ x ∈ s, x ≤ g) :
    g ∈ l := by
  by_contra hgl
  obtain ⟨hfull, habove⟩ := h.older g hg hgl
  obtain ⟨y, hy⟩ := List.exists_mem_of_length_pos (hfull ▸ hk)
  exact absurd (habove y hy) (not_lt_of_ge (hmax y (h.subset y hy)))

/-- A new greatest element comes in, and the least one of a full list leaves. -/
theorem insert (h : Latest k l s) (hk : 0 < k) (hmax : ∀ x ∈ s, x ≤ g) (hg : g ∉ l)
    (hsorted : l'.Pairwise (· < ·))
    (hmem : ∀ x, x ∈ l' ↔ x = g ∨ x ∈ if k ≤ l.length then l.tail else l) :
    Latest k l' (insert g s) := by
  have hlength : ∀ m : List α, m.Pairwise (· < ·) → g ∉ m → (∀ x, x ∈ l' ↔ x = g ∨ x ∈ m) →
      l'.length = m.length + 1 := by
    intro m hm hgm hl'
    have hperm : l'.Perm (g :: m) :=
      (List.perm_ext_iff_of_nodup (nodup hsorted) (List.nodup_cons.mpr ⟨hgm, nodup hm⟩)).mpr
        fun x => by rw [hl', List.mem_cons]
    rw [hperm.length_eq, List.length_cons]
  by_cases hfull : k ≤ l.length
  · simp only [if_pos hfull] at hmem
    have heq : l.length = k := Nat.le_antisymm h.length_le hfull
    cases l with
    | nil => exact absurd hk (by simpa using heq.symm.le)
    | cons a l =>
        obtain ⟨ha, hl⟩ := List.pairwise_cons.mp h.sorted
        rw [List.mem_cons, not_or] at hg
        have hlen := hlength l hl hg.2 hmem
        have hag : a < g := lt_of_le_of_ne (hmax a (h.subset a List.mem_cons_self)) (Ne.symm hg.1)
        refine ⟨hsorted, by rw [hlen]; exact h.length_le, fun x hx => ?_, fun x hx hxl => ?_⟩
        · rcases (hmem x).mp hx with rfl | hx
          · exact Finset.mem_insert_self ..
          · exact Finset.mem_insert_of_mem (h.subset x (List.mem_cons_of_mem _ hx))
        · rw [hmem, not_or] at hxl
          have hxs : x ∈ s := (Finset.mem_insert.mp hx).resolve_left hxl.1
          -- either the element that leaves, or one that had left before
          have hbelow : x ≤ a := by
            by_cases hxa : x = a
            · exact hxa.le
            · have hout : x ∉ a :: l := by simpa [hxa] using hxl.2
              exact ((h.older x hxs hout).2 a List.mem_cons_self).le
          refine ⟨hlen.trans heq, fun y hy => ?_⟩
          rcases (hmem y).mp hy with rfl | hy
          · exact lt_of_le_of_lt hbelow hag
          · exact lt_of_le_of_lt hbelow (ha y hy)
  · simp only [if_neg hfull] at hmem
    have hlen := hlength l h.sorted hg hmem
    refine ⟨hsorted, by omega, fun x hx => ?_, fun x hx hxl => ?_⟩
    · rcases (hmem x).mp hx with rfl | hx
      · exact Finset.mem_insert_self ..
      · exact Finset.mem_insert_of_mem (h.subset x hx)
    · rw [hmem, not_or] at hxl
      have hxs : x ∈ s := (Finset.mem_insert.mp hx).resolve_left hxl.1
      exact absurd (h.older x hxs hxl.2).1.ge hfull

end Latest
