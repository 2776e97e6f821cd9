import IotAgent.Mongo.Bson
import Mathlib.Data.List.Nodup

/-!
A table of a document store with unique indexes.

A query is a document; it matches a document that has every field of the query with the
value the query gives. A field that is left out of the query puts no condition on the
document. Every operation on the table is atomic.

* `Table`: the documents in natural order; no two agree on all fields of an index, a
  missing field counting as a value of its own;
* `Table.insert`: refused when an index has the key already;
* `Table.update`: sets fields of the first match and tells how many documents it changed;
* `Table.remove`: removes all matches and tells how many they were.
-/

namespace Mongo

/-! ### Queries -/

/-- The document has every field of the query, with the same value. -/
def Matches (q d : Doc) : Prop :=
  ∀ fv ∈ q, d.get fv.1 = some fv.2

instance (q d : Doc) : Decidable (Matches q d) :=
  inferInstanceAs (Decidable (∀ fv ∈ q, d.get fv.1 = some fv.2))

lemma matches_append {q r d : Doc} : Matches (q ++ r) d ↔ Matches q d ∧ Matches r d := by
  simp only [Matches, List.mem_append, or_imp, forall_and]

lemma matches_opt {c : Prop} [Decidable c] {f : String} {v : Bson} {d : Doc} :
    Matches (Doc.opt c f v) d ↔ (c → d.get f = some v) :=
  Doc.forall_mem_opt f v c fun fv => d.get fv.1 = some fv.2

/-! ### Tables -/

/-- The fields of the index that the document has, each with its value. -/
def keyOf (index : List String) (d : Doc) : List (Option Bson) :=
  index.map d.get

/-- No two documents have the same key in any of the indexes. -/
def Unique (indexes : List (List String)) (docs : List Doc) : Prop :=
  ∀ index ∈ indexes, docs.Pairwise fun a b => keyOf index a ≠ keyOf index b

instance (indexes : List (List String)) (docs : List Doc) : Decidable (Unique indexes docs) :=
  inferInstanceAs (Decidable (∀ index ∈ indexes, docs.Pairwise _))

/-- A table with unique indexes, each on some fields. -/
structure Table (indexes : List (List String)) where
  docs : List Doc
  unique : Unique indexes docs

/-- A table without documents. -/
def Table.empty {indexes : List (List String)} : Table indexes :=
  ⟨[], fun _ _ => List.Pairwise.nil⟩

lemma keyOf_eq_iff {index : List String} {a b : Doc} :
    keyOf index a = keyOf index b ↔ ∀ f ∈ index, a.get f = b.get f := by
  simp [keyOf]

/-- Setting fields outside the index keeps the key. -/
lemma keyOf_setAll {index : List String} {vs : Doc} (h : ∀ f ∈ index, f ∉ vs.map Prod.fst)
    (d : Doc) : keyOf index (d.setAll vs) = keyOf index d :=
  keyOf_eq_iff.mpr fun f hf => Doc.get_setAll_of_notMem d f (h f hf)

/-- The first document that matches is changed by `g`. -/
def modifyFirst (q : Doc) (g : Doc → Doc) : List Doc → List Doc
  | [] => []
  | d :: ds => if Matches q d then g d :: ds else d :: modifyFirst q g ds

lemma map_modifyFirst {β : Type*} {q : Doc} {g : Doc → Doc} {k : Doc → β}
    (hk : ∀ d, k (g d) = k d) (ds : List Doc) : (modifyFirst q g ds).map k = ds.map k := by
  induction ds with
  | nil => rfl
  | cons d ds ih =>
      by_cases h : Matches q d
      · simp [modifyFirst, h, hk]
      · simp [modifyFirst, h, ih]

lemma length_modifyFirst {q : Doc} {g : Doc → Doc} (ds : List Doc) :
    (modifyFirst q g ds).length = ds.length := by
  induction ds with
  | nil => rfl
  | cons d ds ih =>
      by_cases h : Matches q d
      · simp [modifyFirst, h]
      · simp [modifyFirst, h, ih]

/-- A property that the change does not touch holds of some document as before. -/
lemma exists_mem_modifyFirst {q : Doc} {g : Doc → Doc} {P : Doc → Prop}
    (hP : ∀ d, P (g d) ↔ P d) (ds : List Doc) :
    (∃ d ∈ modifyFirst q g ds, P d) ↔ ∃ d ∈ ds, P d := by
  induction ds with
  | nil => rfl
  | cons d ds ih =>
      by_cases h : Matches q d
      · simp [modifyFirst, h, hP]
      · simp [modifyFirst, h, ih]

/-- Behind a match nothing is changed. -/
lemma modifyFirst_append_of_exists {q : Doc} {g : Doc → Doc} {ds : List Doc}
    (h : ∃ d ∈ ds, Matches q d) (es : List Doc) :
    modifyFirst q g (ds ++ es) = modifyFirst q g ds ++ es := by
  induction ds with
  | nil => simp at h
  | cons d ds ih =>
      by_cases hd : Matches q d
      · simp [modifyFirst, hd]
      · have hds : ∃ e ∈ ds, Matches q e := by simpa [hd] using h
        simp [modifyFirst, hd, ih hds]

/-- In front of the first match nothing is changed. -/
lemma modifyFirst_append_of_forall {q : Doc} {g : Doc → Doc} {ds : List Doc}
    (h : ∀ d ∈ ds, ¬ Matches q d) (es : List Doc) :
    modifyFirst q g (ds ++ es) = ds ++ modifyFirst q g es := by
  induction ds with
  | nil => rfl
  | cons d ds ih =>
      rw [List.forall_mem_cons] at h
      simp [modifyFirst, h.1, ih h.2]

/-- Either nothing matches, or the documents around the first match stay. -/
lemma modifyFirst_spec (q : Doc) (g : Doc → Doc) (ds : List Doc) :
    ((∀ d ∈ ds, ¬ Matches q d) ∧ modifyFirst q g ds = ds) ∨
    ∃ as d bs, ds = as ++ d :: bs ∧ (∀ a ∈ as, ¬ Matches q a) ∧ Matches q d ∧
      modifyFirst q g ds = as ++ g d :: bs := by
  induction ds with
  | nil => exact .inl ⟨by simp, rfl⟩
  | cons d ds ih =>
      by_cases h : Matches q d
      · exact .inr ⟨[], d, ds, rfl, by simp, h, by simp [modifyFirst, h]⟩
      · rcases ih with ⟨hn, he⟩ | ⟨as, e, bs, rfl, ha, hm, he⟩
        · exact .inl ⟨by simpa [h] using hn, by simp [modifyFirst, h, he]⟩
        · refine .inr ⟨d :: as, e, bs, rfl, ?_, hm, by simp [modifyFirst, h, he]⟩
          simpa [h] using ha

/-- In a list without repetitions only the first match is changed. -/
lemma modifyFirst_eq_map {q : Doc} {g : Doc → Doc} {ds : List Doc} (hnodup : ds.Nodup) :
    modifyFirst q g ds =
      ds.map fun d => if ds.find? (fun d => Matches q d) = some d then g d else d := by
  have hothers : ∀ {e : Doc} {es : List Doc}, e ∉ es →
      es.map (fun d => if some e = some d then g d else d) = es := by
    intro e es he
    refine (List.map_congr_left fun d hd => ?_).trans (List.map_id es)
    refine if_neg fun heq => he ?_
    rwa [Option.some.inj heq]
  induction ds with
  | nil => rfl
  | cons d ds ih =>
      obtain ⟨hd, hds⟩ := List.nodup_cons.mp hnodup
      by_cases h : Matches q d
      · rw [modifyFirst, if_pos h, List.find?_cons_of_pos (by simpa using h), List.map_cons,
          if_pos rfl, hothers hd]
      · rw [modifyFirst, if_neg h, List.find?_cons_of_neg (by simpa using h), List.map_cons, ih hds]
        congr 1
        exact (if_neg fun heq => hd (List.mem_of_find?_eq_some heq)).symm

/-- The uniqueness of an index is one of its keys. -/
lemma pairwise_keyOf {index : List String} {ds : List Doc} :
    (ds.Pairwise fun a b => keyOf index a ≠ keyOf index b) ↔ (ds.map (keyOf index)).Nodup :=
  List.pairwise_map.symm

lemma unique_of_map_eq {indexes : List (List String)} {ds es : List Doc}
    (h : ∀ index ∈ indexes, es.map (keyOf index) = ds.map (keyOf index))
    (hu : Unique indexes ds) : Unique indexes es := by
  intro index hi
  rw [pairwise_keyOf, h index hi, ← pairwise_keyOf]
  exact hu index hi

lemma Unique.filter {indexes : List (List String)} {ds : List Doc} (hu : Unique indexes ds)
    (p : Doc → Bool) : Unique indexes (ds.filter p) :=
  fun index hi => (hu index hi).filter p

namespace Table

variable {indexes : List (List String)} (t : Table indexes) (q d : Doc)

/-- The documents that match, in natural order. -/
def find : List Doc :=
  t.docs.filter fun d => Matches q d

/-- The first document that matches. -/
def findOne : Option Doc :=
  t.docs.find? fun d => Matches q d

/-- The number of documents that match. -/
def count : ℕ :=
  (t.find q).length

/-- A new document; `none` if an index has its key already. -/
def insert : Option (Table indexes) :=
  if h : Unique indexes (t.docs ++ [d]) then some ⟨t.docs ++ [d], h⟩ else none

/-- Fields of the first match are set; `none` if an index has the new key already. With
the table comes the number of documents that were changed. -/
def update (vs : Doc) : Option (Table indexes × ℕ) :=
  if h : Unique indexes (modifyFirst q (·.setAll vs) t.docs) then
    some (⟨modifyFirst q (·.setAll vs) t.docs, h⟩, if (t.findOne q).isSome then 1 else 0)
  else none

/-- All matches are removed; with the table comes their number. -/
def remove : Table indexes × ℕ :=
  (⟨t.docs.filter fun d => ¬ Matches q d, t.unique.filter _⟩, t.count q)

variable {t q d}

lemma findOne_eq_some {e : Doc} (h : t.findOne q = some e) : e ∈ t.docs ∧ Matches q e :=
  ⟨List.mem_of_find?_eq_some h, by simpa using List.find?_some h⟩

lemma findOne_eq_none_iff : t.findOne q = none ↔ ∀ e ∈ t.docs, ¬ Matches q e := by
  simp [findOne]

/-- The first match is the one that an update changes. -/
lemma findOne_append {as bs : List Doc} {e : Doc} (hdocs : t.docs = as ++ e :: bs)
    (has : ∀ a ∈ as, ¬ Matches q a) (he : Matches q e) : t.findOne q = some e := by
  have hnone : as.find? (fun d => Matches q d) = none := by simpa using has
  rw [findOne, hdocs, List.find?_append, hnone]
  simp [he]

/-- An insertion adds the document. -/
lemma insert_docs {t' : Table indexes} (h : t.insert d = some t') : t'.docs = t.docs ++ [d] := by
  rw [insert] at h
  split at h
  · cases h
    rfl
  · cases h

/-- An insertion raises the count of the queries that the document matches. -/
lemma count_insert {t' : Table indexes} (h : t.insert d = some t') :
    t'.count q = t.count q + if Matches q d then 1 else 0 := by
  rw [count, count, find, find, insert_docs h, List.filter_append, List.length_append]
  by_cases hm : Matches q d <;> simp [hm]

/-- A document is refused for a key that is there. -/
lemma insert_eq_none_iff : t.insert d = none ↔
    ∃ index ∈ indexes, ∃ e ∈ t.docs, keyOf index e = keyOf index d := by
  have hunique : Unique indexes (t.docs ++ [d]) ↔
      ∀ index ∈ indexes, ∀ e ∈ t.docs, keyOf index e ≠ keyOf index d := by
    refine forall₂_congr fun index hi => ?_
    rw [List.pairwise_append]
    simp [t.unique index hi]
  rw [insert, dite_eq_right_iff]
  simp [hunique]

/-- No document is stored twice. -/
lemma docs_nodup {index : List String} (hi : index ∈ indexes) : t.docs.Nodup :=
  (t.unique index hi).imp fun hab heq => hab (congrArg (keyOf index) heq)

/-- Documents of one key are one document. -/
lemma eq_of_keyOf {index : List String} (hi : index ∈ indexes) {a b : Doc} (ha : a ∈ t.docs)
    (hb : b ∈ t.docs) (hkey : keyOf index a = keyOf index b) : a = b :=
  List.inj_on_of_nodup_map (pairwise_keyOf.mp (t.unique index hi)) ha hb hkey

/-- An update of fields outside the indexes is never refused. -/
lemma update_eq {vs : Doc} (h : ∀ index ∈ indexes, ∀ f ∈ index, f ∉ vs.map Prod.fst) :
    ∃ t', t.update q vs = some (t', if (t.findOne q).isSome then 1 else 0) ∧
      t'.docs = modifyFirst q (·.setAll vs) t.docs := by
  have hu : Unique indexes (modifyFirst q (·.setAll vs) t.docs) :=
    unique_of_map_eq (fun index hi => map_modifyFirst (keyOf_setAll (h index hi)) t.docs)
      t.unique
  exact ⟨_, by rw [update, dif_pos hu], rfl⟩

/-- What an update leaves behind. -/
lemma update_docs {vs : Doc} {t' : Table indexes} {n : ℕ} (h : t.update q vs = some (t', n)) :
    t'.docs = modifyFirst q (·.setAll vs) t.docs ∧ n = if (t.findOne q).isSome then 1 else 0 := by
  rw [update] at h
  split at h
  · cases h
    exact ⟨rfl, rfl⟩
  · cases h

/-- The only match of an update, and the documents around it. -/
lemma exists_only_match {t' : Table indexes} {query setbo : Doc} {count : ℕ}
    (hcount : t.count query ≤ 1) (hupdate : t.update query setbo = some (t', count))
    (hne : count ≠ 0) :
    ∃ as d bs, t.docs = as ++ d :: bs ∧ t'.docs = as ++ d.setAll setbo :: bs ∧
      t.findOne query = some d ∧ Matches query d ∧ ∀ e ∈ as ++ bs, ¬ Matches query e := by
  obtain ⟨hdocs, rfl⟩ := update_docs hupdate
  rcases modifyFirst_spec query (·.setAll setbo) t.docs with ⟨hnone, -⟩ | ⟨as, d, bs, hl, has,
    hd, hl'⟩
  · rw [findOne_eq_none_iff.mpr hnone] at hne
    exact absurd rfl hne
  · refine ⟨as, d, bs, hl, hdocs.trans hl', findOne_append hl has hd, hd, fun e he => ?_⟩
    rcases List.mem_append.mp he with he | he
    · exact has e he
    · intro hmatch
      have hpos : 0 < (bs.filter fun d => Matches query d).length :=
        List.length_pos_of_mem (List.mem_filter.mpr ⟨he, by simpa using hmatch⟩)
      have hone : (bs.filter fun d => Matches query d).length + 1 ≤ 1 := by
        refine Nat.le_trans ?_ hcount
        rw [count, find, hl, List.filter_append, List.length_append,
          List.filter_cons_of_pos (by simpa using hd), List.length_cons]
        omega
      omega

@[simp] lemma docs_remove : (t.remove q).1.docs = t.docs.filter fun d => ¬ Matches q d := rfl

/-- A removal lowers the count of a wider query by what it removes. -/
lemma count_remove {p : Doc} (h : ∀ d, Matches q d → Matches p d) :
    (t.remove q).1.count p + t.count q = t.count p := by
  simp only [count, find, docs_remove]
  induction t.docs with
  | nil => rfl
  | cons d ds ih =>
      by_cases hq : Matches q d
      · simp only [hq, h d hq, List.filter_cons, decide_true, not_true_eq_false, decide_false,
          if_true, Bool.false_eq_true, if_false, List.length_cons]
        omega
      · by_cases hp : Matches p d
        · simp only [hq, hp, List.filter_cons, decide_true, not_false_eq_true, decide_false,
            if_true, Bool.false_eq_true, if_false, List.length_cons]
          omega
        · simp only [hq, hp, List.filter_cons, not_false_eq_true, decide_true, decide_false,
            if_true, Bool.false_eq_true, if_false]
          exact ih

lemma count_eq_zero_iff : t.count q = 0 ↔ ∀ e ∈ t.docs, ¬ Matches q e := by
  simp [count, find, List.filter_eq_nil_iff]

/-- Two queries remove the same exactly when they match the same documents of the table. -/
lemma remove_eq_remove_iff {p : Doc} : (t.remove q).1 = (t.remove p).1 ↔
    ∀ e ∈ t.docs, (Matches q e ↔ Matches p e) := by
  have hdocs : (t.remove q).1 = (t.remove p).1 ↔
      (t.docs.filter fun d => ¬ Matches q d) = t.docs.filter fun d => ¬ Matches p d := by
    rw [remove, remove, Table.mk.injEq]
  rw [hdocs]
  constructor
  · intro h e he
    have hmem : e ∈ (t.docs.filter fun d => ¬ Matches q d) ↔
        e ∈ t.docs.filter fun d => ¬ Matches p d := by rw [h]
    simpa [he, not_iff_not] using hmem
  · exact fun h => List.filter_congr fun e he => by simp [h e he]

/-- A removal changes nothing exactly when nothing matches. -/
lemma remove_eq_self_iff : (t.remove q).1 = t ↔ ∀ e ∈ t.docs, ¬ Matches q e := by
  have hdocs : (t.remove q).1 = t ↔ (t.docs.filter fun d => ¬ Matches q d) = t.docs := by
    rw [remove, Table.mk.injEq]
  rw [hdocs, List.filter_eq_self]
  simp

/-- Something was removed exactly when something matched. -/
lemma remove_pos_iff : 0 < (t.remove q).2 ↔ ∃ e ∈ t.docs, Matches q e := by
  simp [remove, count, find, List.length_pos_iff, List.filter_eq_nil_iff]

end Table

end Mongo
