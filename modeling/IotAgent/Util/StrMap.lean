import Mathlib.Data.List.Induction
import Mathlib.Data.List.Sort
import Mathlib.Data.String.Basic
import IotAgent.Util.Types

/-!
Ordered maps of texts, built by insertions.

An insertion under a name that is there already changes nothing, so a map built from a list
of pairs has the first value of each name, in the order of the names.

* `StrMap.Ordered`: the names stand in increasing order, as a map keeps them;
* `StrMap.lookup_insert_of_not_mem`: what is found after an insertion;
* `StrMap.erase`: the map without a name;
* `StrMap.ofList`: the insertions of a list of pairs, one after the other;
* `StrMap.mem_keys_ofList`, `StrMap.ofList_perm`, `StrMap.ofList_of_ordered`: what such a
  map has in it;
* `StrMap.get_ofList`: its texts, by their names.
-/

namespace IotAgent

namespace StrMap

/-- The names of a map. -/
abbrev keys (m : StrMap) : List String := m.map Prod.fst

/-- The names in increasing order. -/
def Ordered (m : StrMap) : Prop :=
  m.Pairwise fun a b => a.1 < b.1

instance (m : StrMap) : Decidable (Ordered m) := inferInstanceAs (Decidable (List.Pairwise _ m))

/-- The pairs inserted one after the other. -/
def ofList (l : List (String × String)) : StrMap :=
  l.foldl (fun m kv => StrMap.insert m kv.1 kv.2) []

/-- The map without a name. -/
def erase (m : StrMap) (k : String) : StrMap :=
  m.filter fun kv => kv.1 ≠ k

variable {m : StrMap} {k v : String}

lemma mem_keys_insert {l : String} : l ∈ keys (StrMap.insert m k v) ↔ l = k ∨ l ∈ keys m := by
  induction m with
  | nil => simp [insert, keys]
  | cons a m ih =>
      obtain ⟨b, w⟩ := a
      rw [insert]
      split
      · next h => subst h; simp [keys]
      · split
        · simp [keys]
        · have := ih
          simp only [keys, List.map_cons, List.mem_cons] at this ⊢
          rw [this]
          exact or_left_comm

/-- A new name is added. -/
lemma insert_perm (h : k ∉ keys m) : List.Perm (StrMap.insert m k v) ((k, v) :: m) := by
  induction m with
  | nil => exact List.Perm.refl _
  | cons a m ih =>
      obtain ⟨b, w⟩ := a
      have hkb : k ≠ b := fun e => h (by simp [keys, e])
      have hkm : k ∉ keys m := fun e => h (by simp only [keys, List.map_cons]; exact .tail _ e)
      rw [insert, if_neg hkb]
      split
      · exact List.Perm.refl _
      · exact ((ih hkm).cons (b, w)).trans (List.Perm.swap _ _ _)

lemma lookup_isSome_iff : (m.lookup k).isSome ↔ k ∈ keys m := by
  induction m with
  | nil => simp
  | cons kv m ih =>
      obtain ⟨j, v⟩ := kv
      by_cases hk : k = j
      · simp [hk]
      · have hbeq : (k == j) = false := by simpa using hk
        simp [List.lookup_cons, hbeq, hk, ih]

/-- A name that is absent is found after its insertion, and the others as before. -/
lemma lookup_insert_of_not_mem (hk : k ∉ keys m) (l : String) :
    (StrMap.insert m k v).lookup l = if l = k then some v else m.lookup l := by
  induction m with
  | nil =>
      by_cases hl : l = k
      · simp [insert, hl]
      · simp [insert, List.lookup_cons, beq_eq_false_iff_ne.mpr hl, hl]
  | cons kv m ih =>
      obtain ⟨j, w⟩ := kv
      have hkj : k ≠ j := fun heq => hk (by simp [keys, heq])
      have hkm : k ∉ keys m := fun h => hk (List.mem_cons_of_mem _ h)
      rw [insert, if_neg hkj]
      split
      · by_cases hl : l = k
        · simp [hl]
        · have hbeq : (l == k) = false := by simpa using hl
          rw [List.lookup_cons, hbeq, if_neg hl]
      · by_cases hl : l = j
        · have hne : j ≠ k := hkj.symm
          simp [hl, hne]
        · have hbeq : (l == j) = false := by simpa using hl
          rw [List.lookup_cons, List.lookup_cons, hbeq]
          exact ih hkm

lemma Ordered.insert (hm : Ordered m) : Ordered (StrMap.insert m k v) := by
  induction m with
  | nil => exact List.pairwise_singleton _ _
  | cons a m ih =>
      obtain ⟨b, w⟩ := a
      obtain ⟨hb, hm'⟩ := List.pairwise_cons.mp hm
      rw [StrMap.insert]
      split
      · exact hm
      · next hkb =>
          split
          · next hlt =>
              refine List.pairwise_cons.mpr ⟨fun c hc => ?_, hm⟩
              rcases List.mem_cons.mp hc with rfl | hc
              · exact hlt
              · exact lt_trans hlt (hb c hc)
          · next hlt =>
              refine List.pairwise_cons.mpr ⟨fun c hc => ?_, ih hm'⟩
              have hck : c.1 ∈ keys (StrMap.insert m k v) := List.mem_map_of_mem hc
              rcases mem_keys_insert.mp hck with e | e
              · rw [e]
                exact lt_of_le_of_ne (not_lt.mp hlt) (Ne.symm hkb)
              · obtain ⟨c', hc', he⟩ := List.mem_map.mp e
                exact he ▸ hb c' hc'

/-! ### Maps built from lists -/

lemma foldl_insert_append (l : List (String × String)) (kv : String × String) :
    ofList (l ++ [kv]) = StrMap.insert (ofList l) kv.1 kv.2 := by
  simp [ofList]

lemma ordered_ofList (l : List (String × String)) : Ordered (ofList l) := by
  induction l using List.reverseRecOn with
  | nil => exact List.Pairwise.nil
  | append_singleton l kv ih => exact foldl_insert_append l kv ▸ ih.insert

/-- The names of the list are the names of the map. -/
lemma mem_keys_ofList (l : List (String × String)) :
    k ∈ keys (ofList l) ↔ k ∈ l.map Prod.fst := by
  induction l using List.reverseRecOn with
  | nil => rfl
  | append_singleton l kv ih =>
      rw [foldl_insert_append, mem_keys_insert, ih, List.map_append, List.mem_append, or_comm]
      simp

/-- With distinct names every pair is in the map. -/
lemma ofList_perm {l : List (String × String)} (h : (l.map Prod.fst).Nodup) :
    List.Perm (ofList l) l := by
  induction l using List.reverseRecOn with
  | nil => exact List.Perm.refl _
  | append_singleton l kv ih =>
      rw [List.map_append, List.nodup_append] at h
      have hnew : kv.1 ∉ keys (ofList l) := by
        intro e
        exact h.2.2 _ ((mem_keys_ofList l).mp e) _ (List.mem_singleton_self _) rfl
      calc ofList (l ++ [kv]) = StrMap.insert (ofList l) kv.1 kv.2 := foldl_insert_append l kv
        _ |>.Perm (kv :: ofList l) := insert_perm hnew
        _ |>.Perm (kv :: l) := (ih h.1).cons kv
        _ |>.Perm (l ++ [kv]) := (List.perm_append_singleton kv l).symm

lemma mem_keys_erase {l : String} : l ∈ keys (erase m k) ↔ l ∈ keys m ∧ l ≠ k := by
  simp only [keys, erase, List.mem_map, List.mem_filter, decide_eq_true_eq]
  constructor
  · rintro ⟨kv, ⟨hkv, hne⟩, rfl⟩
    exact ⟨⟨kv, hkv, rfl⟩, hne⟩
  · rintro ⟨⟨kv, hkv, rfl⟩, hne⟩
    exact ⟨kv, ⟨hkv, hne⟩, rfl⟩

lemma Ordered.erase (hm : Ordered m) : Ordered (StrMap.erase m k) :=
  List.Pairwise.filter _ hm

lemma Ordered.nodup_keys (hm : Ordered m) : (keys m).Nodup :=
  List.pairwise_map.mpr (hm.imp fun hab => ne_of_lt hab)

/-- Ordered maps with the same pairs are the same. -/
lemma Ordered.eq_of_perm {n : StrMap} (hm : Ordered m) (hn : Ordered n) (h : List.Perm m n) :
    m = n :=
  h.eq_of_pairwise (fun _ _ _ _ hab hba => absurd hba (lt_asymm hab)) hm hn

/-- The pairs of an ordered map make the map again. -/
lemma ofList_of_ordered (hm : Ordered m) : ofList m = m :=
  (ordered_ofList m).eq_of_perm hm (ofList_perm hm.nodup_keys)

/-- With distinct names a pair is found under its name. -/
lemma lookup_eq_some_iff {l : List (String × String)} (h : (l.map Prod.fst).Nodup) :
    l.lookup k = some v ↔ (k, v) ∈ l := by
  induction l with
  | nil => simp
  | cons a l ih =>
      obtain ⟨b, w⟩ := a
      obtain ⟨hb, hl⟩ := List.nodup_cons.mp h
      by_cases hkb : k = b
      · subst hkb
        have hnot : (k, v) ∉ l := fun hv => hb (List.mem_map.mpr ⟨_, hv, rfl⟩)
        simp [hnot, eq_comm]
      · simp [List.lookup_cons, beq_eq_false_iff_ne.mpr hkb, hkb, ih hl]

/-- The texts of the map, by their names. -/
lemma get_ofList {l : List (String × String)} (h : (l.map Prod.fst).Nodup)
    (path default : String) :
    PTree.get (ofList l) path default = PTree.get l path default := by
  have hperm := ofList_perm h
  have hnodup : ((ofList l).map Prod.fst).Nodup := (ordered_ofList l).nodup_keys
  have hlookup : (ofList l).lookup path = l.lookup path := by
    apply Option.ext
    intro w
    rw [lookup_eq_some_iff hnodup, lookup_eq_some_iff h, hperm.mem_iff]
  rw [PTree.get, PTree.get, hlookup]

end StrMap

end IotAgent
