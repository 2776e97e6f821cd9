import Mathlib.Data.List.Induction
import Mathlib.Data.List.Nodup

/-!
Maps in which the first value of a key stays.

A map is built from a list of pairs by insertions, and an insertion under a key that is there
already changes nothing.

* `FirstMap.insert`, `FirstMap.ofList`: the insertions;
* `FirstMap.mem_keys_ofList`, `FirstMap.nodup_keys_ofList`: every key is there once;
* `FirstMap.mem_ofList_of_unique`: the only pair of its key is there.
-/

namespace FirstMap

variable {κ α : Type*} [DecidableEq κ]

/-- The pair comes in, unless its key is there. -/
def insert (m : List (κ × α)) (kv : κ × α) : List (κ × α) :=
  if kv.1 ∈ m.map Prod.fst then m else m ++ [kv]

/-- The pairs inserted one after the other. -/
def ofList (l : List (κ × α)) : List (κ × α) :=
  l.foldl insert []

variable {l m : List (κ × α)} {k : κ} {kv kw : κ × α}

lemma ofList_append_singleton : ofList (l ++ [kv]) = insert (ofList l) kv := by
  rw [ofList, List.foldl_concat, ← ofList]

lemma mem_keys_insert : k ∈ (insert m kv).map Prod.fst ↔ k ∈ m.map Prod.fst ∨ k = kv.1 := by
  rw [insert]
  split
  · next h =>
      refine ⟨Or.inl, ?_⟩
      rintro (hk | rfl)
      · exact hk
      · exact h
  · rw [List.map_append, List.mem_append, List.map_singleton, List.mem_singleton]

lemma nodup_keys_insert (hm : (m.map Prod.fst).Nodup) : ((insert m kv).map Prod.fst).Nodup := by
  rw [insert]
  split
  · exact hm
  · next h =>
      rw [List.map_append, List.nodup_append]
      exact ⟨hm, List.nodup_singleton _, fun a ha b hb e =>
        h (List.mem_singleton.mp hb ▸ e ▸ ha)⟩

/-- Every key of the list is there, -/
lemma mem_keys_ofList : k ∈ (ofList l).map Prod.fst ↔ k ∈ l.map Prod.fst := by
  induction l using List.reverseRecOn with
  | nil => rfl
  | append_singleton l kv ih =>
      rw [ofList_append_singleton, mem_keys_insert, ih, List.map_append, List.mem_append,
        List.map_singleton, List.mem_singleton]

/-- and it is there once. -/
lemma nodup_keys_ofList (l : List (κ × α)) : ((ofList l).map Prod.fst).Nodup := by
  induction l using List.reverseRecOn with
  | nil => exact List.nodup_nil
  | append_singleton l kv ih =>
      rw [ofList_append_singleton]
      exact nodup_keys_insert ih

lemma mem_of_mem_ofList (h : kv ∈ ofList l) : kv ∈ l := by
  induction l using List.reverseRecOn with
  | nil => cases h
  | append_singleton l kw ih =>
      rw [ofList_append_singleton, insert] at h
      rw [List.mem_append]
      split at h
      · exact .inl (ih h)
      · exact (List.mem_append.mp h).imp_left ih

/-- Pairs of one key are the same. -/
lemma eq_of_mem_ofList (h : kv ∈ ofList l) (h' : kw ∈ ofList l) (hkey : kv.1 = kw.1) : kv = kw :=
  List.inj_on_of_nodup_map (nodup_keys_ofList l) h h' hkey

/-- A pair that shares its key with no other one is there. -/
lemma mem_ofList_of_unique (h : kv ∈ l) (hunique : ∀ kw ∈ l, kw.1 = kv.1 → kw = kv) :
    kv ∈ ofList l := by
  obtain ⟨kw, hkw, hkey⟩ := List.mem_map.mp (mem_keys_ofList.mpr (List.mem_map_of_mem h))
  exact hunique kw (mem_of_mem_ofList hkw) hkey ▸ hkw

end FirstMap
