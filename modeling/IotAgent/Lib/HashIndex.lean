import Mathlib.Data.List.Dedup
import Mathlib.Data.List.Infix
import Mathlib.Data.List.TakeWhile
import Mathlib.Data.List.Perm.Basic

/-!
Hashed indices with non-unique keys, as far as an iteration over one shows them.

A hashed index puts its elements in some order that depends on the hash function, on the
number of buckets and on the order of insertion. All that a caller may rely on is that the
order lists every element once and keeps the elements of one key together.

* `Grouped`: the elements of every key form one block, the equal range of the key;
* `Order`: an iteration order for every content, one that is a permutation and grouped;
* `fromFirst`: the iteration from the first element of a key to the end of the index, and
  `rest`, what it meets behind the equal range. `fromFirst_eq` splits the first in the
  equal range and the second.
* `Order.blocks`: one such order, the keys in the order of their last element;
* `Order.favour`: one for every element, in which a search for its key finds it.
-/

namespace HashIndex

variable {α κ : Type*} [DecidableEq κ]

/-! ### Equal ranges -/

/-- The elements of every key stand together. -/
def Grouped (key : α → κ) (l : List α) : Prop :=
  ∀ k, l.filter (fun x => key x = k) <:+: l

/-- The part of an iteration that starts at the first element of key `k`. -/
def fromFirst (key : α → κ) (k : κ) (l : List α) : List α :=
  l.dropWhile fun x => !decide (key x = k)

/-- What follows the equal range of `k`. -/
def rest (key : α → κ) (k : κ) (l : List α) : List α :=
  (fromFirst key k l).dropWhile fun x => key x = k

variable {key : α → κ} {k : κ} {l : List α}

lemma fromFirst_subset : fromFirst key k l ⊆ l :=
  (List.dropWhile_suffix _).subset

lemma mem_of_mem_rest {x : α} (hx : x ∈ rest key k l) : x ∈ l :=
  fromFirst_subset ((List.dropWhile_suffix _).subset hx)

/-- The iteration is empty exactly when no element has the key. -/
lemma fromFirst_eq_nil_iff : fromFirst key k l = [] ↔ ∀ x ∈ l, key x ≠ k := by
  simp [fromFirst, List.dropWhile_eq_nil_iff]

/-- Everything before a block that holds all elements of the key is skipped. -/
lemma fromFirst_append {a b : List α} (ha : ∀ x ∈ a, key x ≠ k) :
    fromFirst key k (a ++ b) = fromFirst key k b := by
  rw [fromFirst, List.dropWhile_append_of_pos (by simpa using ha), fromFirst]

lemma fromFirst_of_head {f b : List α} (hf : ∀ x ∈ f, key x = k) (hne : f ≠ []) :
    fromFirst key k (f ++ b) = f ++ b := by
  cases f with
  | nil => exact absurd rfl hne
  | cons x f => simp [fromFirst, hf x (by simp)]

lemma dropWhile_of_block {f b : List α} (hf : ∀ x ∈ f, key x = k) (hb : ∀ x ∈ b, key x ≠ k) :
    (f ++ b).dropWhile (fun x => key x = k) = b := by
  rw [List.dropWhile_append_of_pos (by simpa using hf)]
  cases b with
  | nil => rfl
  | cons x b => simp [hb x (by simp)]

/-- Around the equal range of a key no further element has that key. -/
lemma Grouped.split (h : Grouped key l) (k : κ) :
    ∃ a b, l = a ++ l.filter (fun x => key x = k) ++ b
      ∧ (∀ x ∈ a, key x ≠ k) ∧ ∀ x ∈ b, key x ≠ k := by
  obtain ⟨a, b, hab⟩ := h k
  refine ⟨a, b, hab.symm, ?_⟩
  -- filtering once more leaves the block alone, so nothing is left of the two sides
  have hlen := congrArg (fun m => (m.filter fun x => key x = k).length) hab
  simp only [List.filter_append, List.length_append, List.filter_filter, Bool.and_self] at hlen
  have ha : (a.filter fun x => key x = k) = [] := List.eq_nil_of_length_eq_zero (by omega)
  have hb : (b.filter fun x => key x = k) = [] := List.eq_nil_of_length_eq_zero (by omega)
  simp only [List.filter_eq_nil_iff, decide_eq_true_eq] at ha hb
  exact ⟨ha, hb⟩

/-- The iteration runs through the equal range and on to the end of the index. -/
lemma Grouped.exists_rest (h : Grouped key l) (hk : ∃ x ∈ l, key x = k) :
    ∃ b, (∀ x ∈ b, key x ≠ k) ∧ fromFirst key k l = l.filter (fun x => key x = k) ++ b
      ∧ rest key k l = b := by
  obtain ⟨a, b, hl, ha, hb⟩ := h.split k
  have hf : ∀ x ∈ l.filter (fun x => key x = k), key x = k :=
    fun x hx => by simpa using (List.mem_filter.mp hx).2
  have hne : l.filter (fun x => key x = k) ≠ [] := by
    obtain ⟨x, hx, hxk⟩ := hk
    exact List.ne_nil_of_mem (List.mem_filter.mpr ⟨hx, by simpa using hxk⟩)
  have hfrom : fromFirst key k l = l.filter (fun x => key x = k) ++ b := by
    conv_lhs => rw [hl]
    rw [List.append_assoc, fromFirst_append ha, fromFirst_of_head hf hne]
  exact ⟨b, hb, hfrom, by rw [rest, hfrom, dropWhile_of_block hf hb]⟩

/-- In a grouped order the iteration is the equal range and then the rest. -/
theorem fromFirst_eq (h : Grouped key l) (hk : ∃ x ∈ l, key x = k) :
    fromFirst key k l = l.filter (fun x => key x = k) ++ rest key k l := by
  obtain ⟨b, -, hfrom, hrest⟩ := h.exists_rest hk
  rw [hfrom, hrest]

/-- Nothing behind the equal range has its key. -/
lemma Grouped.key_ne_of_mem_rest (h : Grouped key l) {x : α} (hx : x ∈ rest key k l) :
    key x ≠ k := by
  by_cases hk : ∃ y ∈ l, key y = k
  · obtain ⟨b, hb, -, hrest⟩ := h.exists_rest hk
    exact hb x (hrest ▸ hx)
  · push Not at hk
    exact hk x (mem_of_mem_rest hx)

/-! ### Iteration orders -/

/-- An iteration order of a hashed index: for every key function and every content a
permutation of the content that keeps equal keys together. -/
structure Order (α : Type*) (κ : Type*) [DecidableEq κ] where
  order : (α → κ) → List α → List α
  perm : ∀ key l, (order key l).Perm l
  grouped : ∀ key l, Grouped key (order key l)

/-- The blocks of the keys `ks`, one after the other. -/
def blocksOf (key : α → κ) (l : List α) (ks : List κ) : List α :=
  ks.flatMap fun k => l.filter fun x => key x = k

lemma blocksOf_perm (key : α → κ) : ∀ (ks : List κ) (l : List α), ks.Nodup →
    (∀ x ∈ l, key x ∈ ks) → (blocksOf key l ks).Perm l := by
  intro ks
  induction ks with
  | nil =>
      intro l _ hl
      have hnil : l = [] := List.eq_nil_iff_forall_not_mem.mpr fun x hx => by simpa using hl x hx
      simp [blocksOf, hnil]
  | cons k ks ih =>
      intro l hks hl
      obtain ⟨hk, hks⟩ := List.nodup_cons.mp hks
      -- the blocks of the other keys do not see the elements of `k`
      have hrest : blocksOf key l ks = blocksOf key (l.filter fun x => ¬ key x = k) ks := by
        refine List.flatMap_congr fun k' hk' => ?_
        rw [List.filter_filter]
        refine List.filter_congr fun x hx => ?_
        have : k' ≠ k := fun h => hk (h ▸ hk')
        by_cases hx : key x = k' <;> simp_all
      have ih' := ih (l.filter fun x => ¬ key x = k) hks fun x hx => by
        have hx' := List.mem_filter.mp hx
        exact (List.mem_cons.mp (hl x hx'.1)).resolve_left (by simpa using hx'.2)
      have hcons : blocksOf key l (k :: ks)
          = l.filter (fun x => key x = k) ++ blocksOf key l ks := rfl
      rw [hcons, hrest]
      refine (ih'.append_left _).trans ?_
      simpa using List.filter_append_perm (fun x => decide (key x = k)) l

lemma filter_blocksOf_of_notMem {ks : List κ} (hk : k ∉ ks) :
    (blocksOf key l ks).filter (fun x => key x = k) = [] := by
  simp only [blocksOf, List.filter_eq_nil_iff, List.mem_flatMap, List.mem_filter,
    decide_eq_true_eq]
  rintro x ⟨k', hk', _, rfl⟩ h
  exact hk (h ▸ hk')

/-- Around the block of a key no element has it. -/
lemma blocksOf_split {ks : List κ} (hks : ks.Nodup) (hk : k ∈ ks) :
    ∃ a b, blocksOf key l ks = a ++ l.filter (fun x => key x = k) ++ b ∧
      a.filter (fun x => key x = k) = [] ∧ b.filter (fun x => key x = k) = [] := by
  obtain ⟨as, bs, rfl⟩ := List.append_of_mem hk
  have hnd := List.nodup_append.mp hks
  have ha : k ∉ as := fun h => hnd.2.2 k h k (by simp) rfl
  have hb : k ∉ bs := (List.nodup_cons.mp hnd.2.1).1
  exact ⟨blocksOf key l as, blocksOf key l bs, by simp [blocksOf],
    filter_blocksOf_of_notMem ha, filter_blocksOf_of_notMem hb⟩

lemma filter_blocksOf_of_mem {ks : List κ} (hks : ks.Nodup) (hk : k ∈ ks) :
    (blocksOf key l ks).filter (fun x => key x = k) = l.filter fun x => key x = k := by
  obtain ⟨a, b, hsplit, ha, hb⟩ := blocksOf_split hks hk
  rw [hsplit, List.filter_append, List.filter_append, ha, hb, List.filter_filter]
  simp

lemma blocksOf_grouped (key : α → κ) (l : List α) {ks : List κ} (hks : ks.Nodup) :
    Grouped key (blocksOf key l ks) := by
  intro k
  by_cases hk : k ∈ ks
  · rw [filter_blocksOf_of_mem hks hk]
    obtain ⟨a, b, hsplit, -, -⟩ := blocksOf_split hks hk
    exact ⟨a, b, hsplit.symm⟩
  · rw [filter_blocksOf_of_notMem hk]
    exact List.nil_infix

/-- The order that lists the equal ranges one after the other, by the last element of each. -/
def Order.blocks : Order α κ where
  order key l := blocksOf key l (l.map key).dedup
  perm key l := blocksOf_perm key _ l (List.nodup_dedup _) fun _ hx =>
    List.mem_dedup.mpr (List.mem_map_of_mem hx)
  grouped key l := blocksOf_grouped key l (List.nodup_dedup _)

instance : Inhabited (Order α κ) := ⟨Order.blocks⟩

/-- The order that, in its equal range, lists one element first. -/
def Order.favour [DecidableEq α] (a : α) : Order α κ where
  order key l := Order.blocks.order key (if a ∈ l then a :: l.erase a else l)
  perm key l := by
    refine (Order.blocks.perm key _).trans ?_
    split
    · next ha => exact (List.perm_cons_erase ha).symm
    · exact .refl _
  grouped key l := Order.blocks.grouped key _

namespace Order

variable (o : Order α κ) (key : α → κ) (k : κ) (l : List α)

/-- The element a search for key `k` finds. -/
def find : Option α := (o.order key l).find? fun x => key x = k

lemma mem_order {x : α} : x ∈ o.order key l ↔ x ∈ l := (o.perm key l).mem_iff

variable {o key k l}

lemma mem_of_find {x : α} (h : o.find key k l = some x) : x ∈ l :=
  (o.mem_order key l).mp (List.mem_of_find?_eq_some h)

lemma key_of_find {x : α} (h : o.find key k l = some x) : key x = k := by
  simpa using List.find?_some h

lemma find_eq_none_iff : o.find key k l = none ↔ ∀ x ∈ l, key x ≠ k := by
  simp [find, List.find?_eq_none, mem_order]

/-- A search finds the element that the order favours. -/
lemma find_favour [DecidableEq α] {a : α} (ha : a ∈ l) (hk : key a = k) :
    (favour a).find key k l = some a := by
  have hmem : k ∈ ((a :: l.erase a).map key).dedup :=
    List.mem_dedup.mpr (List.mem_map.mpr ⟨a, by simp, hk⟩)
  have hrange : ((favour a).order key l).filter (fun x => key x = k) =
      (a :: l.erase a).filter fun x => key x = k := by
    simp only [favour, if_pos ha]
    exact filter_blocksOf_of_mem (List.nodup_dedup _) hmem
  rw [find, ← List.head?_filter, hrange]
  simp [hk]

end Order

end HashIndex
