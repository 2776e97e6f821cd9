import Mathlib.Data.Int.Notation
import Mathlib.Data.List.Basic

/-!
Documents of a document store.

A document is a list of named values in the order in which they were appended. The
readers follow the C++ driver: a missing field, or one of another type, reads as the
default of the type.

* `Doc.get`, `Doc.set`: the value of a field; the other fields are unchanged;
* `Doc.getStringField`, `Doc.getIntField`, `Doc.getBoolField`, `Doc.getObjectField`: the
  typed readers;
* `Doc.opt`: a field that is there on a condition only, as the builders append it.
-/

namespace Mongo

/-- The values of a document. Integers of all widths compare as numbers. -/
inductive Bson where
  | str (s : String)
  | int (n : ℤ)
  | bool (b : Bool)
  | obj (fields : List (String × Bson))
  | arr (elts : List Bson)

namespace Bson

mutual

/-- Equality of values. -/
def decEq : (a b : Bson) → Decidable (a = b)
  | .str s, .str t => decidable_of_iff (s = t) (by simp)
  | .int m, .int n => decidable_of_iff (m = n) (by simp)
  | .bool b, .bool c => decidable_of_iff (b = c) (by simp)
  | .obj fs, .obj gs => @decidable_of_iff _ (fs = gs) (by simp) (decEqFields fs gs)
  | .arr as, .arr bs => @decidable_of_iff _ (as = bs) (by simp) (decEqElts as bs)
  | .str _, .int _ | .str _, .bool _ | .str _, .obj _ | .str _, .arr _
  | .int _, .str _ | .int _, .bool _ | .int _, .obj _ | .int _, .arr _
  | .bool _, .str _ | .bool _, .int _ | .bool _, .obj _ | .bool _, .arr _
  | .obj _, .str _ | .obj _, .int _ | .obj _, .bool _ | .obj _, .arr _
  | .arr _, .str _ | .arr _, .int _ | .arr _, .bool _ | .arr _, .obj _ =>
      isFalse (by simp)

/-- Equality of embedded documents, field by field. -/
def decEqFields : (fs gs : List (String × Bson)) → Decidable (fs = gs)
  | [], [] => isTrue rfl
  | [], _ :: _ | _ :: _, [] => isFalse (by simp)
  | (f, a) :: fs, (g, b) :: gs =>
      @decidable_of_iff _ (f = g ∧ a = b ∧ fs = gs) (by simp [and_assoc])
        (@instDecidableAnd _ _ inferInstance
          (@instDecidableAnd _ _ (decEq a b) (decEqFields fs gs)))

/-- Equality of arrays, element by element. -/
def decEqElts : (as bs : List Bson) → Decidable (as = bs)
  | [], [] => isTrue rfl
  | [], _ :: _ | _ :: _, [] => isFalse (by simp)
  | a :: as, b :: bs =>
      @decidable_of_iff _ (a = b ∧ as = bs) (by simp)
        (@instDecidableAnd _ _ (decEq a b) (decEqElts as bs))

end

instance : DecidableEq Bson := decEq

end Bson

/-- A document, its fields in order. -/
abbrev Doc := List (String × Bson)

/-- The least `int`, which a missing number reads as. -/
def intMin : ℤ := -2147483648

/-- The greatest `int`. -/
def intMax : ℤ := 2147483647

/-- A number of another width as an `int`. Out of range it is the number that the processor
answers, the least one. -/
def toInt (n : ℤ) : ℤ :=
  if intMin ≤ n ∧ n ≤ intMax then n else intMin

/-- A number is kept exactly when it is in range. -/
lemma toInt_eq_iff {n : ℤ} : toInt n = n ↔ intMin ≤ n ∧ n ≤ intMax := by
  rw [toInt]
  split
  · next h => exact iff_of_true rfl h
  · next h =>
      refine iff_of_false (fun e => h ?_) h
      rw [← e]
      decide

/-- The least `long`. -/
def longMin : ℤ := -9223372036854775808

/-- A value as a document, if it is a document or an array. An array is the document of its
elements under their positions. -/
def Bson.toDoc : Bson → Option Doc
  | .obj fs => some fs
  | .arr as => some (as.zipIdx.map fun a => (toString a.2, a.1))
  | _ => none

namespace Doc

/-! ### Fields -/

/-- The value of a field, if the document has it. -/
def get (d : Doc) (f : String) : Option Bson :=
  d.lookup f

/-- The document with field `f` set to `v`, appended if it was missing. -/
def set : Doc → String → Bson → Doc
  | [], f, v => [(f, v)]
  | (g, w) :: d, f, v => if g = f then (g, v) :: d else (g, w) :: set d f v

/-- All fields of `vs` set, one after the other. -/
def setAll (d : Doc) (vs : Doc) : Doc :=
  vs.foldl (fun d fv => d.set fv.1 fv.2) d

/-- A field that is appended only if `c` holds. -/
def opt (c : Prop) [Decidable c] (f : String) (v : Bson) : Doc :=
  if c then [(f, v)] else []

variable (d : Doc) (f g : String) (v : Bson)

@[simp] lemma get_nil : Doc.get [] f = none := rfl

lemma get_cons (fv : String × Bson) :
    Doc.get (fv :: d) f = if f = fv.1 then some fv.2 else d.get f := by
  obtain ⟨g, w⟩ := fv
  by_cases h : f = g
  · simp [get, h]
  · simp [get, List.lookup_cons, h, beq_eq_false_iff_ne.mpr h]

@[simp] lemma forall_mem_opt (c : Prop) [Decidable c] (p : String × Bson → Prop) :
    (∀ fv ∈ opt c f v, p fv) ↔ (c → p (f, v)) := by
  by_cases hc : c <;> simp [opt, hc]

@[simp] lemma get_set_self : (d.set f v).get f = some v := by
  induction d with
  | nil => simp [set, get_cons]
  | cons a d ih =>
      obtain ⟨g, w⟩ := a
      by_cases h : g = f
      · simp [set, h, get_cons]
      · simp [set, h, get_cons, Ne.symm h, ih]

/-- Setting one field leaves the others. -/
lemma get_set_of_ne {f g : String} (h : g ≠ f) : (d.set f v).get g = d.get g := by
  induction d with
  | nil => simp [set, get_cons, h]
  | cons a d ih =>
      obtain ⟨k, w⟩ := a
      by_cases hk : k = f
      · subst hk
        simp [set, get_cons, h]
      · simp only [set, hk, if_false, get_cons, ih]

/-- Setting a field changes nothing exactly when the field has the value. -/
lemma set_eq_self_iff {d : Doc} {f : String} {v : Bson} :
    d.set f v = d ↔ d.get f = some v := by
  refine ⟨fun h => h ▸ get_set_self d f v, fun h => ?_⟩
  induction d with
  | nil => cases h
  | cons a d ih =>
      obtain ⟨g, w⟩ := a
      rw [get_cons] at h
      by_cases hg : g = f
      · subst hg
        simpa [set, eq_comm] using h
      · rw [if_neg (Ne.symm hg)] at h
        simp [set, hg, ih h]

/-- A field of two parts of a document is that of the first part that has it. -/
lemma get_append (d e : Doc) : Doc.get (d ++ e) f = (d.get f).or (e.get f) := by
  induction d with
  | nil => simp
  | cons a d ih =>
      rw [List.cons_append, get_cons, get_cons, ih]
      by_cases h : f = a.1 <;> simp [h]

lemma get_opt (c : Prop) [Decidable c] :
    (opt c g v).get f = if f = g then (if c then some v else none) else none := by
  by_cases hc : c <;> simp [opt, hc, get_cons]

/-- A field is missing exactly when its name does not occur. -/
lemma get_eq_none_iff {d : Doc} {f : String} : d.get f = none ↔ f ∉ d.map Prod.fst := by
  induction d with
  | nil => simp
  | cons a d ih =>
      rw [get_cons, List.map_cons, List.mem_cons, not_or, ← ih]
      by_cases h : f = a.1 <;> simp [h]

/-- Setting some fields leaves the others. -/
lemma get_setAll_of_notMem {vs : Doc} (h : g ∉ vs.map Prod.fst) :
    (d.setAll vs).get g = d.get g := by
  induction vs generalizing d with
  | nil => rfl
  | cons a vs ih =>
      simp only [List.map_cons, List.mem_cons, not_or] at h
      rw [setAll, List.foldl_cons]
      exact (ih _ h.2).trans (get_set_of_ne _ _ h.1)

/-- Fields that are set once each are read back, and hide what was there. -/
lemma get_setAll {vs : Doc} (h : (vs.map Prod.fst).Nodup) :
    (d.setAll vs).get g = (Doc.get vs g).or (d.get g) := by
  induction vs generalizing d with
  | nil => rfl
  | cons a vs ih =>
      rw [List.map_cons, List.nodup_cons] at h
      have htail : (Doc.setAll d (a :: vs)).get g = (Doc.setAll (d.set a.1 a.2) vs).get g := rfl
      rw [htail, ih _ h.2, get_cons]
      by_cases hg : g = a.1
      · subst hg
        have hnone : Doc.get vs a.1 = none := get_eq_none_iff.mpr h.1
        simp [hnone]
      · rw [get_set_of_ne _ _ hg, if_neg hg]

/-- A field need not be set that has its value already. -/
lemma setAll_eq_filter {vs : Doc} (hnodup : (vs.map Prod.fst).Nodup)
    (h : ∀ v, Doc.get vs f = some v → d.get f = some v) :
    d.setAll vs = d.setAll (vs.filter fun fv => fv.1 ≠ f) := by
  induction vs generalizing d with
  | nil => rfl
  | cons a vs ih =>
      rw [List.map_cons, List.nodup_cons] at hnodup
      by_cases hf : f = a.1
      · subst hf
        have hset : d.set a.1 a.2 = d := set_eq_self_iff.mpr (h _ (by rw [get_cons, if_pos rfl]))
        have hothers : vs.filter (fun fv => fv.1 ≠ a.1) = vs := by
          rw [List.filter_eq_self]
          intro fv hmem
          refine decide_eq_true fun heq => hnodup.1 ?_
          rw [← heq]
          exact List.mem_map_of_mem hmem
        rw [List.filter_cons_of_neg (by simp), hothers, setAll, List.foldl_cons, hset]
        rfl
      · rw [List.filter_cons_of_pos (by simpa using Ne.symm hf)]
        refine ih (d.set a.1 a.2) hnodup.2 fun v hv => ?_
        rw [get_set_of_ne _ _ hf]
        exact h v (by rw [get_cons, if_neg hf, hv])

/-- Fields that are set once each leave a document that has their values. -/
lemma setAll_eq_self_iff {vs : Doc} (hnodup : (vs.map Prod.fst).Nodup) :
    d.setAll vs = d ↔ ∀ fv ∈ vs, d.get fv.1 = some fv.2 := by
  constructor
  · intro hself fv hfv
    have hget : Doc.get vs fv.1 = some fv.2 := by
      clear hself
      induction vs with
      | nil => cases hfv
      | cons a vs ih =>
          rw [List.map_cons, List.nodup_cons] at hnodup
          rw [get_cons]
          rcases List.mem_cons.mp hfv with rfl | hmem
          · rw [if_pos rfl]
          · have hne : fv.1 ≠ a.1 := fun heq => hnodup.1 (heq ▸ List.mem_map_of_mem hmem)
            rw [if_neg hne, ih hnodup.2 hmem]
    rw [← hself, get_setAll _ _ hnodup, hget, Option.some_or]
  · clear hnodup
    intro hvs
    induction vs with
    | nil => rfl
    | cons a vs ih =>
        rw [List.forall_mem_cons] at hvs
        rw [setAll, List.foldl_cons, set_eq_self_iff.mpr hvs.1]
        exact ih hvs.2

/-! ### Typed readers -/

/-- A string field; empty if there is none. -/
def getStringField : String :=
  match d.get f with
  | some (.str s) => s
  | _ => ""

/-- A number field; `intMin` if there is none. -/
def getIntField : ℤ :=
  match d.get f with
  | some (.int n) => n
  | _ => intMin

/-- A number field; zero if there is none. -/
def numberLong : ℤ :=
  match d.get f with
  | some (.int n) => n
  | _ => 0

/-- A Boolean field; false if there is none. -/
def getBoolField : Bool :=
  match d.get f with
  | some (.bool b) => b
  | _ => false

/-- An embedded document; empty if there is none. -/
def getObjectField : Doc :=
  ((d.get f).bind Bson.toDoc).getD []

/-- Whether the document has the field. -/
def hasField : Bool :=
  (d.get f).isSome

variable {d f}

lemma getStringField_of_get {s : String} (h : d.get f = some (.str s)) :
    d.getStringField f = s := by simp [getStringField, h]

lemma getIntField_of_get {n : ℤ} (h : d.get f = some (.int n)) : d.getIntField f = n := by
  simp [getIntField, h]

/-- A text that is not the default comes from the field. -/
lemma getStringField_eq_iff {s : String} (hs : s ≠ "") :
    d.getStringField f = s ↔ d.get f = some (.str s) := by
  constructor
  · intro h
    rw [getStringField] at h
    split at h
    · next heq => rw [heq, h]
    · exact absurd h.symm hs
  · exact getStringField_of_get

/-- A number that is not the default comes from the field. -/
lemma getIntField_eq_iff {n : ℤ} (hn : n ≠ intMin) :
    d.getIntField f = n ↔ d.get f = some (.int n) := by
  constructor
  · intro h
    rw [getIntField] at h
    split at h
    · next heq => rw [heq, h]
    · exact absurd h.symm hn
  · exact getIntField_of_get

/-- A text that is left out when it is the default is read back. -/
lemma getStringField_of_opt {s : String}
    (h : d.get f = if s ≠ "" then some (.str s) else none) : d.getStringField f = s := by
  by_cases hs : s = "" <;> simp [getStringField, h, hs]

/-- A number that is left out when it is the default is read back. -/
lemma getIntField_of_opt {n : ℤ}
    (h : d.get f = if n ≠ intMin then some (.int n) else none) : d.getIntField f = n := by
  by_cases hn : n = intMin <;> simp [getIntField, h, hn]

lemma getStringField_congr {d' : Doc} (h : d'.get f = d.get f) :
    d'.getStringField f = d.getStringField f := by rw [getStringField, h, getStringField]

end Doc

end Mongo
