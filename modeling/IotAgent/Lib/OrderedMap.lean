import Mathlib.Data.List.Basic
import Mathlib.Order.Lattice

/-!
Maps over ordered keys, built by insertions that leave a key alone which is there already, and
the same for multimaps, where every insertion adds a pair.

* `OrderedMap`, `OrderedMap.insert`, `OrderedMap.insertAll`: the map and its insertions;
* `OrderedMap.get_insertAll`, `OrderedMap.ext_get`: a map is what its lookups say;
* `OrderedMap.insertAll_eq_self_iff`, `OrderedMap.insertAll_eq_ofList_iff`: when insertions
  change nothing, and when what was there before does not show;
* `OrderedMap.find?_eq_some_iff`: the first pair with a property, in the order of the keys;
* `OrderedMap.adjust`, `OrderedMap.tail`, `OrderedMap.erase`: the value of a key changed, the
  least key taken out, and any key taken out;
* `Multimap.insertAll_insertAll_eq_iff`: the same for a multimap, which never forgets a pair.
-/

/-- A map from ordered keys: its pairs in the order of the keys. -/
structure OrderedMap (κ α : Type*) [LinearOrder κ] where
  entries : List (κ × α)
  ordered : entries.Pairwise fun a b => a.1 < b.1
  deriving DecidableEq

namespace OrderedMap

variable {κ α : Type*} [LinearOrder κ]

/-- The pair at the place of its key, unless the key is there already. -/
def insertList (kv : κ × α) : List (κ × α) → List (κ × α)
  | [] => [kv]
  | a :: l =>
      if kv.1 = a.1 then a :: l
      else if kv.1 < a.1 then kv :: a :: l
      else a :: insertList kv l

lemma mem_insertList {kv b : κ × α} {l : List (κ × α)} (h : b ∈ insertList kv l) :
    b = kv ∨ b ∈ l := by
  induction l with
  | nil => exact Or.inl (List.mem_singleton.mp h)
  | cons a l ih =>
      rw [insertList] at h
      split_ifs at h
      · exact Or.inr h
      · exact List.mem_cons.mp h
      · rcases List.mem_cons.mp h with rfl | h
        · exact Or.inr (List.mem_cons_self ..)
        · exact (ih h).imp_right (List.mem_cons_of_mem _)

lemma ordered_insertList (kv : κ × α) {l : List (κ × α)}
    (hl : l.Pairwise fun a b => a.1 < b.1) :
    (insertList kv l).Pairwise fun a b => a.1 < b.1 := by
  induction l with
  | nil => exact List.pairwise_singleton _ _
  | cons a l ih =>
      obtain ⟨ha, hl'⟩ := List.pairwise_cons.mp hl
      rw [insertList]
      split_ifs with he hlt
      · exact hl
      · refine List.pairwise_cons.mpr ⟨fun b hb => ?_, hl⟩
        rcases List.mem_cons.mp hb with rfl | hb
        · exact hlt
        · exact lt_trans hlt (ha b hb)
      · refine List.pairwise_cons.mpr ⟨fun b hb => ?_, ih hl'⟩
        rcases mem_insertList hb with rfl | hb
        · exact lt_of_le_of_ne (not_lt.mp hlt) (Ne.symm he)
        · exact ha b hb

/-- The empty map. -/
def empty : OrderedMap κ α := ⟨[], List.Pairwise.nil⟩

/-- `insert` of a pair: a key that is there already keeps its value. -/
def insert (m : OrderedMap κ α) (kv : κ × α) : OrderedMap κ α :=
  ⟨insertList kv m.entries, ordered_insertList kv m.ordered⟩

/-- The pairs inserted one after the other. -/
def insertAll (m : OrderedMap κ α) (l : List (κ × α)) : OrderedMap κ α :=
  l.foldl insert m

/-- The map of a list of pairs. -/
def ofList (l : List (κ × α)) : OrderedMap κ α :=
  empty.insertAll l

/-- The value of a key. -/
def get (m : OrderedMap κ α) (k : κ) : Option α :=
  m.entries.lookup k

variable {m n : OrderedMap κ α} {k : κ} {kv : κ × α} {l l' : List (κ × α)}

lemma lookup_eq_none_of_lt (hl : ∀ b ∈ l, k < b.1) : l.lookup k = none := by
  induction l with
  | nil => rfl
  | cons a l ih =>
      have hne : (k == a.1) = false := beq_eq_false_iff_ne.mpr (hl a (List.mem_cons_self ..)).ne
      rw [List.lookup_cons, hne]
      exact ih fun b hb => hl b (List.mem_cons_of_mem _ hb)

@[simp] lemma get_empty : (empty : OrderedMap κ α).get k = none := rfl

/-! ### Lookups after insertions -/

lemma lookup_cons_of_ne {a : κ × α} (h : k ≠ a.1) : (a :: l).lookup k = l.lookup k := by
  rw [List.lookup_cons, beq_eq_false_iff_ne.mpr h]

lemma lookup_cons_of_eq {a : κ × α} (h : k = a.1) : (a :: l).lookup k = some a.2 := by
  rw [List.lookup_cons, beq_iff_eq.mpr h]

lemma lookup_insertList_of_ne (h : k ≠ kv.1) : (insertList kv l).lookup k = l.lookup k := by
  induction l with
  | nil => exact lookup_cons_of_ne h
  | cons a l ih =>
      rw [insertList]
      split_ifs
      · rfl
      · exact lookup_cons_of_ne h
      · rw [List.lookup_cons, ih, ← List.lookup_cons]

lemma lookup_insertList_self (hl : l.Pairwise fun a b => a.1 < b.1) :
    (insertList kv l).lookup kv.1 = (l.lookup kv.1).or (some kv.2) := by
  induction l with
  | nil => exact lookup_cons_of_eq rfl
  | cons a l ih =>
      obtain ⟨ha, hl'⟩ := List.pairwise_cons.mp hl
      rw [insertList]
      split_ifs with he hlt
      · rw [lookup_cons_of_eq he]
        rfl
      · have hnone : (a :: l).lookup kv.1 = none := by
          refine lookup_eq_none_of_lt fun b hb => ?_
          rcases List.mem_cons.mp hb with rfl | hb
          · exact hlt
          · exact lt_trans hlt (ha b hb)
        rw [hnone, lookup_cons_of_eq rfl]
        rfl
      · rw [lookup_cons_of_ne he, lookup_cons_of_ne he, ih hl']

lemma get_insert : (m.insert kv).get k = (m.get k).or (if k = kv.1 then some kv.2 else none) := by
  by_cases h : k = kv.1
  · rw [if_pos h, h]
    exact lookup_insertList_self m.ordered
  · rw [if_neg h, Option.or_none]
    exact lookup_insertList_of_ne h

lemma get_insert_of_ne (h : kv.1 ≠ k) : (m.insert kv).get k = m.get k := by
  rw [get_insert, if_neg fun hk => h hk.symm, Option.or_none]

lemma get_insert_of_some {v : α} (h : m.get k = some v) : (m.insert kv).get k = some v := by
  rw [get_insert, h, Option.some_or]

lemma get_insert_of_none (h : m.get kv.1 = none) : (m.insert kv).get kv.1 = some kv.2 := by
  rw [get_insert, h, if_pos rfl, Option.none_or]

/-- The first value of a key stays. -/
lemma get_insertAll : (m.insertAll l).get k = (m.get k).or (l.lookup k) := by
  induction l generalizing m with
  | nil => exact (Option.or_none).symm
  | cons a l ih =>
      rw [insertAll, List.foldl_cons, ← insertAll, ih, get_insert, Option.or_assoc]
      by_cases h : k = a.1
      · rw [if_pos h, lookup_cons_of_eq h]
        rfl
      · rw [if_neg h, lookup_cons_of_ne h, Option.none_or]

lemma get_ofList : (ofList l).get k = l.lookup k := by
  rw [ofList, get_insertAll, get_empty, Option.none_or]

/-- The value of a key in the map of a list that is made of another one. -/
lemma get_ofList_map {β : Type*} {f : β → κ} {g : β → α} {p : β → Bool} {l : List β}
    (hp : ∀ b, p b = true ↔ f b = k) :
    (ofList (l.map fun b => (f b, g b))).get k = (l.find? p).map g := by
  rw [get_ofList]
  induction l with
  | nil => rfl
  | cons b l ih =>
      rw [List.map_cons, List.find?_cons]
      cases hb : p b with
      | true => exact lookup_cons_of_eq ((hp b).mp hb).symm
      | false =>
          have hne : k ≠ f b := fun e => by rw [(hp b).mpr e.symm] at hb; cases hb
          exact (lookup_cons_of_ne hne).trans ih

/-! ### A map is what its lookups say -/

lemma mem_of_lookup {l : List (κ × α)} {v : α} (h : l.lookup k = some v) : (k, v) ∈ l := by
  induction l with
  | nil => cases h
  | cons a l ih =>
      by_cases ha : k = a.1
      · rw [lookup_cons_of_eq ha] at h
        cases h
        exact ha ▸ List.mem_cons_self ..
      · rw [lookup_cons_of_ne ha] at h
        exact List.mem_cons_of_mem _ (ih h)

lemma lookup_of_mem {v : α} (hl : l.Pairwise fun a b => a.1 < b.1) (h : (k, v) ∈ l) :
    l.lookup k = some v := by
  induction l with
  | nil => cases h
  | cons a l ih =>
      obtain ⟨ha, hl'⟩ := List.pairwise_cons.mp hl
      rcases List.mem_cons.mp h with rfl | h
      · exact lookup_cons_of_eq rfl
      · rw [lookup_cons_of_ne (ha _ h).ne', ih hl' h]

/-- Lists in the order of their keys are the same when their lookups are. -/
lemma eq_of_lookup (hl : l.Pairwise fun a b => a.1 < b.1)
    (hl' : l'.Pairwise fun a b => a.1 < b.1) (h : ∀ k, l.lookup k = l'.lookup k) : l = l' := by
  have hnodup : ∀ {l : List (κ × α)}, l.Pairwise (fun a b => a.1 < b.1) → l.Nodup :=
    fun hl => hl.imp fun hab he => hab.ne (congrArg Prod.fst he)
  have hperm : List.Perm l l' := by
    refine (List.perm_ext_iff_of_nodup (hnodup hl) (hnodup hl')).mpr fun a =>
      ⟨fun ha => ?_, fun ha => ?_⟩
    · exact mem_of_lookup (h a.1 ▸ lookup_of_mem hl ha)
    · exact mem_of_lookup ((h a.1).symm ▸ lookup_of_mem hl' ha)
  exact hperm.eq_of_pairwise (fun _ _ _ _ hab hba => absurd hba hab.asymm) hl hl'

theorem ext_get (h : ∀ k, m.get k = n.get k) : m = n := by
  obtain ⟨l, hl⟩ := m
  obtain ⟨l', hl'⟩ := n
  obtain rfl : l = l' := eq_of_lookup hl hl' h
  rfl

theorem ext_get_iff : m = n ↔ ∀ k, m.get k = n.get k :=
  ⟨fun h _ => h ▸ rfl, ext_get⟩

/-! ### Insertions that change nothing -/

/-- Insertions change nothing exactly when their keys are there already. -/
theorem insertAll_eq_self_iff :
    m.insertAll l = m ↔ ∀ k, (l.lookup k).isSome → (m.get k).isSome := by
  rw [ext_get_iff]
  refine forall_congr' fun k => ?_
  rw [get_insertAll]
  cases m.get k <;> cases l.lookup k <;> simp

/-- What was there before does not show exactly when every pair of it is inserted again. -/
theorem insertAll_eq_ofList_iff :
    m.insertAll l = ofList l ↔ ∀ k v, m.get k = some v → l.lookup k = some v := by
  rw [ext_get_iff]
  refine forall_congr' fun k => ?_
  rw [get_insertAll, get_ofList]
  cases m.get k <;> simp [eq_comm]

/-- Insertions that were made already are not seen again. -/
lemma insertAll_insertAll_ofList :
    ((ofList l).insertAll l').insertAll l = (ofList l).insertAll l' := by
  rw [insertAll_eq_self_iff]
  intro k h
  rw [get_insertAll, get_ofList]
  cases hk : l.lookup k with
  | none => rw [hk] at h; cases h
  | some v => rfl

/-! ### Keys -/

/-- The keys in their order. -/
def keys (m : OrderedMap κ α) : List κ :=
  m.entries.map Prod.fst

lemma keys_ordered (m : OrderedMap κ α) : m.keys.Pairwise (· < ·) :=
  List.pairwise_map.mpr m.ordered

lemma mem_keys_iff : k ∈ m.keys ↔ ∃ v, m.get k = some v := by
  constructor
  · intro h
    obtain ⟨⟨k', v⟩, hmem, rfl⟩ := List.mem_map.mp h
    exact ⟨v, lookup_of_mem m.ordered hmem⟩
  · rintro ⟨v, hv⟩
    exact List.mem_map.mpr ⟨(k, v), mem_of_lookup hv, rfl⟩

lemma get_eq_none_iff : m.get k = none ↔ k ∉ m.keys := by
  rw [mem_keys_iff, Option.eq_none_iff_forall_ne_some, not_exists]

lemma mem_keys_insert : k ∈ (m.insert kv).keys ↔ k = kv.1 ∨ k ∈ m.keys := by
  rw [mem_keys_iff, mem_keys_iff, get_insert]
  cases m.get k <;> simp

/-- A new key is one more. -/
lemma length_keys_insert (h : kv.1 ∉ m.keys) : (m.insert kv).keys.length = m.keys.length + 1 := by
  have hlen : ∀ l : List (κ × α), kv.1 ∉ l.map Prod.fst →
      (insertList kv l).length = l.length + 1 := by
    intro l hl
    induction l with
    | nil => rfl
    | cons a l ih =>
        rw [List.map_cons, List.mem_cons, not_or] at hl
        rw [insertList, if_neg hl.1]
        split
        · rfl
        · rw [List.length_cons, ih hl.2, List.length_cons]
  rw [keys, List.length_map, keys, List.length_map]
  exact hlen m.entries h

/-! ### The first pair with a property -/

lemma mem_entries_iff {e : κ × α} : e ∈ m.entries ↔ m.get e.1 = some e.2 :=
  ⟨fun h => lookup_of_mem m.ordered h, fun h => mem_of_lookup h⟩

/-- The first pair with a property is the one with the least key. -/
theorem find?_eq_some_iff {p : κ × α → Bool} {e : κ × α} : m.entries.find? p = some e ↔
    m.get e.1 = some e.2 ∧ p e ∧ ∀ e', m.get e'.1 = some e'.2 → p e' → e.1 ≤ e'.1 := by
  have hlt := m.ordered
  simp only [← mem_entries_iff]
  generalize m.entries = l at hlt ⊢
  induction l with
  | nil => simp
  | cons a l ih =>
      obtain ⟨ha, hl⟩ := List.pairwise_cons.mp hlt
      rw [List.find?_cons]
      cases hpa : p a with
      | true =>
          simp only [Option.some.injEq]
          constructor
          · rintro rfl
            refine ⟨List.mem_cons_self .., hpa, fun e' he' _ => ?_⟩
            rcases List.mem_cons.mp he' with rfl | he'
            · exact le_rfl
            · exact (ha e' he').le
          · rintro ⟨he, -, hleast⟩
            rcases List.mem_cons.mp he with rfl | he
            · rfl
            · exact absurd (hleast a (List.mem_cons_self ..) hpa) (not_le.mpr (ha e he))
      | false =>
          refine (ih hl).trans ?_
          constructor
          · rintro ⟨he, hpe, hleast⟩
            refine ⟨List.mem_cons_of_mem _ he, hpe, fun e' he' hpe' => ?_⟩
            rcases List.mem_cons.mp he' with rfl | he'
            · rw [hpa] at hpe'
              cases hpe'
            · exact hleast e' he' hpe'
          · rintro ⟨he, hpe, hleast⟩
            rcases List.mem_cons.mp he with rfl | he
            · rw [hpa] at hpe
              cases hpe
            · exact ⟨he, hpe, fun e' he' => hleast e' (List.mem_cons_of_mem _ he')⟩

/-! ### One value changed, and keys taken out -/

/-- The value of a key changed. -/
def adjust (m : OrderedMap κ α) (k : κ) (f : α → α) : OrderedMap κ α where
  entries := m.entries.map fun e => if e.1 = k then (e.1, f e.2) else e
  ordered := by
    refine List.pairwise_map.mpr (m.ordered.imp fun {a b} hab => ?_)
    split_ifs <;> exact hab

/-- The map without its least key. -/
def tail (m : OrderedMap κ α) : OrderedMap κ α :=
  ⟨m.entries.tail, m.ordered.tail⟩

@[simp] lemma keys_adjust {f : α → α} : (m.adjust k f).keys = m.keys := by
  rw [keys, keys, adjust, List.map_map]
  refine List.map_congr_left fun e _ => ?_
  rw [Function.comp_apply]
  split <;> rfl

lemma get_adjust {f : α → α} {j : κ} :
    (m.adjust k f).get j = if j = k then (m.get j).map f else m.get j := by
  obtain ⟨l, hl⟩ := m
  show (l.map _).lookup j = if j = k then (l.lookup j).map f else l.lookup j
  induction l with
  | nil => simp
  | cons a l ih =>
      have ih := ih (List.pairwise_cons.mp hl).2
      have hkey : (if a.1 = k then (a.1, f a.2) else a).1 = a.1 := by split <;> rfl
      rw [List.map_cons]
      by_cases hja : j = a.1
      · rw [lookup_cons_of_eq (hja.trans hkey.symm), lookup_cons_of_eq hja, hja]
        split <;> rfl
      · rw [lookup_cons_of_ne (by rwa [hkey]), lookup_cons_of_ne hja, ih]

@[simp] lemma keys_tail : m.tail.keys = m.keys.tail :=
  List.map_tail

lemma get_tail : m.tail.get k = if k ∈ m.keys.tail then m.get k else none := by
  split
  · next h =>
      obtain ⟨v, hv⟩ := mem_keys_iff.mp (keys_tail (m := m) ▸ h)
      rw [hv]
      exact (lookup_of_mem m.ordered (List.mem_of_mem_tail (mem_of_lookup hv))).symm
  · next h => exact get_eq_none_iff.mpr (keys_tail (m := m) ▸ h)

/-- The map without a key. -/
def erase (m : OrderedMap κ α) (k : κ) : OrderedMap κ α :=
  ⟨m.entries.filter fun e => e.1 ≠ k, m.ordered.filter _⟩

lemma keys_erase : (m.erase k).keys = m.keys.filter (· ≠ k) := by
  rw [keys, erase, keys, List.filter_map]
  rfl

lemma get_erase {j : κ} : (m.erase k).get j = if j = k then none else m.get j := by
  obtain ⟨l, hl⟩ := m
  show (l.filter fun e => e.1 ≠ k).lookup j = if j = k then none else l.lookup j
  induction l with
  | nil => simp
  | cons a l ih =>
      have ih := ih (List.pairwise_cons.mp hl).2
      by_cases hak : a.1 = k
      · rw [List.filter_cons_of_neg (by simpa using hak), ih]
        split
        · rfl
        · next hjk => rw [lookup_cons_of_ne fun hja => hjk (hja.trans hak)]
      · rw [List.filter_cons_of_pos (by simpa using hak)]
        by_cases hja : j = a.1
        · rw [lookup_cons_of_eq hja, lookup_cons_of_eq hja, if_neg (hja ▸ hak)]
        · rw [lookup_cons_of_ne hja, lookup_cons_of_ne hja, ih]

end OrderedMap

/-! ### Multimaps -/

namespace Multimap

variable {κ α : Type*} [LinearOrder κ]

/-- `insert` of a multimap: the pair stands behind those of its key. -/
def insert (kv : κ × α) : List (κ × α) → List (κ × α)
  | [] => [kv]
  | a :: l => if kv.1 < a.1 then kv :: a :: l else a :: insert kv l

/-- The pairs inserted one after the other. -/
def insertAll (m l : List (κ × α)) : List (κ × α) :=
  l.foldl (fun m kv => insert kv m) m

variable {m l l' : List (κ × α)} {kv : κ × α}

lemma length_insert : (insert kv m).length = m.length + 1 := by
  induction m with
  | nil => rfl
  | cons a m ih =>
      rw [insert]
      split
      · rfl
      · rw [List.length_cons, ih, List.length_cons]

lemma length_insertAll : (insertAll m l).length = m.length + l.length := by
  induction l generalizing m with
  | nil => rfl
  | cons a l ih =>
      have : insertAll m (a :: l) = insertAll (insert a m) l := rfl
      rw [this, ih, length_insert, List.length_cons]
      omega

/-- Insertions into a multimap that is there show, unless there was nothing in it. -/
theorem insertAll_eq_iff : insertAll m l = insertAll [] l ↔ m = [] := by
  refine ⟨fun h => ?_, fun h => h ▸ rfl⟩
  have hlen := congrArg List.length h
  rw [length_insertAll, length_insertAll, List.length_nil] at hlen
  exact List.eq_nil_of_length_eq_zero (by omega)

/-- Insertions change nothing exactly when there are none. -/
theorem insertAll_eq_self_iff : insertAll m l = m ↔ l = [] := by
  refine ⟨fun h => ?_, fun h => h ▸ rfl⟩
  have hlen := congrArg List.length h
  rw [length_insertAll] at hlen
  exact List.eq_nil_of_length_eq_zero (by omega)

lemma insertAll_append : insertAll m (l ++ l') = insertAll (insertAll m l) l' :=
  List.foldl_append

end Multimap
