import IotAgent.Util.Text

/-!
Forbidden characters in a document (`check_forbidden_characters` in `src/util/FuncUtil.cc`).

The check goes through the elements of a document. It looks at a text as far as its first NUL,
and it goes into embedded documents and into the elements of arrays, which it takes for documents;
an array does for one, and for anything else the driver throws. After a hit it skips the documents
that are still to come, but not the arrays beside them.

* `BsonValue`: values of any type; the names of the fields are never looked at;
* `checkForbiddenCharacters`: the check of a document;
* `leaves`, `docs`: the texts of a document, and its embedded documents with the texts before
  them;
* `checkLoop_eq`: what the check answers;
* `finds_iff_searchable`: the documents for which it is right.
-/

namespace IotAgent

/-! ### Values -/

/-- The types of values other than texts, documents and arrays. -/
inductive BsonType where
  | numberDouble
  | binData
  | undefined
  | objectId
  | bool
  | date
  | null
  | regEx
  | dbRef
  | code
  | symbol
  | codeWScope
  | numberInt
  | timestamp
  | numberLong
  | minKey
  | maxKey

/-- A value. A document and an array are the lists of their values. -/
inductive BsonValue where
  | string (s : String)
  | other (type : BsonType)
  | object (elements : List BsonValue)
  | array (elements : List BsonValue)

/-- The driver expected a document. -/
inductive BsonError where
  | expectedObject
  deriving DecidableEq

namespace BsonValue

/-- `valuestrsafe`, as far as a C string goes. -/
def valuestrsafe : BsonValue → String
  | .string s => Text.cString s
  | _ => ""

/-- Whether `Obj` of the value is a document. -/
def isObj : BsonValue → Bool
  | .object _ => true
  | .array _ => true
  | _ => false

end BsonValue

namespace ForbiddenCharacters

open BsonValue

/-! ### The check -/

def iotaForbiddenCharacters : String := "<>\"'=;()"

/-- `check_forbidden_characters` of a text. -/
def checkText (forbidden str : String) : Bool :=
  str.toList.any fun c => c ∈ forbidden.toList

mutual

/-- An element of a document. -/
def checkValue : BsonValue → Bool → Except BsonError Bool
  | .string s, hasForbidden =>
      .ok (hasForbidden || checkText iotaForbiddenCharacters (valuestrsafe (.string s)))
  | .other type, hasForbidden =>
      .ok (hasForbidden || checkText iotaForbiddenCharacters (valuestrsafe (.other type)))
  | .object es, hasForbidden => if hasForbidden then .ok true else checkLoop es false
  | .array es, hasForbidden => checkArray es hasForbidden

/-- An element of an array, which `Obj` takes for a document. -/
def checkElement : BsonValue → Bool → Except BsonError Bool
  | .object es, hasForbidden => if hasForbidden then .ok true else checkLoop es false
  | .array es, hasForbidden => if hasForbidden then .ok true else checkLoop es false
  | .string _, _ => .error .expectedObject
  | .other _, _ => .error .expectedObject

/-- The loop over the elements of a document. -/
def checkLoop : List BsonValue → Bool → Except BsonError Bool
  | [], hasForbidden => .ok hasForbidden
  | e :: es, hasForbidden => do
      let hasForbidden ← checkValue e hasForbidden
      checkLoop es hasForbidden

/-- The loop over the elements of an array. -/
def checkArray : List BsonValue → Bool → Except BsonError Bool
  | [], hasForbidden => .ok hasForbidden
  | e :: es, hasForbidden => do
      let hasForbidden ← checkElement e hasForbidden
      checkArray es hasForbidden

end

/-- `check_forbidden_characters` of a document. -/
def checkForbiddenCharacters (document : List BsonValue) : Except BsonError Bool :=
  checkLoop document false

/-! ### Texts and embedded documents -/

mutual

/-- The texts of a value, -/
def leaves : BsonValue → List String
  | .string s => [s]
  | .other _ => []
  | .object es => leavesAll es
  | .array es => leavesAll es

/-- and those of a list of values, in their order. -/
def leavesAll : List BsonValue → List String
  | [] => []
  | e :: es => leaves e ++ leavesAll es

end

/-- A text has a forbidden character somewhere. -/
def hit (texts : List String) : Bool :=
  texts.any (checkText iotaForbiddenCharacters)

/-- A text has a forbidden character before its first NUL. -/
def visibleHit (texts : List String) : Bool :=
  texts.any fun s => checkText iotaForbiddenCharacters (Text.cString s)

mutual

/-- The documents in a value, each with the texts before it. -/
def docsValue (before : List String) : BsonValue → List (List String × List BsonValue)
  | .object es => (before, es) :: docs before es
  | .array es => docsElements before es
  | .string _ => []
  | .other _ => []

/-- The documents in an element of an array, which may be an array itself. -/
def docsElement (before : List String) : BsonValue → List (List String × List BsonValue)
  | .object es => (before, es) :: docs before es
  | .array es => (before, es) :: docs before es
  | .string _ => []
  | .other _ => []

/-- The documents in a document. -/
def docs (before : List String) : List BsonValue → List (List String × List BsonValue)
  | [] => []
  | e :: es => docsValue before e ++ docs (before ++ leaves e) es

/-- The documents in an array. -/
def docsElements (before : List String) : List BsonValue → List (List String × List BsonValue)
  | [] => []
  | e :: es => docsElement before e ++ docsElements (before ++ leaves e) es

end

/-- An array of documents and arrays, or no array. -/
def fits : BsonValue → Bool
  | .array es => es.all isObj
  | _ => true

/-- Every array that stands in the document is one of documents and arrays. -/
def arraysFit (document : List BsonValue) : Bool :=
  document.all fits

/-- The documents with no hit before them have such arrays only. -/
def fine (ds : List (List String × List BsonValue)) : Bool :=
  ds.all fun d => visibleHit d.1 || arraysFit d.2

/-- What the check answers if the arrays it meets fit, which it does not get to otherwise. -/
def answer (fit : Bool) (texts : List String) : Except BsonError Bool :=
  if fit then .ok (visibleHit texts) else .error .expectedObject

/-! ### What the check answers -/

@[simp] lemma visibleHit_append (a b : List String) :
    visibleHit (a ++ b) = (visibleHit a || visibleHit b) :=
  List.any_append

@[simp] lemma fine_append (a b : List (List String × List BsonValue)) :
    fine (a ++ b) = (fine a && fine b) :=
  List.all_append

lemma checkText_empty (forbidden : String) : checkText forbidden "" = false := rfl

mutual

/-- Nothing is looked at behind a hit. -/
lemma fine_docsValue (before : List String) (h : visibleHit before = true) :
    ∀ v, fine (docsValue before v) = true
  | .string _ => rfl
  | .other _ => rfl
  | .object es => by
      have hdocs := fine_docs before h es
      simp only [docsValue, fine, List.all_cons, h, Bool.true_or, Bool.true_and] at hdocs ⊢
      exact hdocs
  | .array es => fine_docsElements before h es

lemma fine_docsElement (before : List String) (h : visibleHit before = true) :
    ∀ v, fine (docsElement before v) = true
  | .string _ => rfl
  | .other _ => rfl
  | .object es => by
      have hdocs := fine_docs before h es
      simp only [docsElement, fine, List.all_cons, h, Bool.true_or, Bool.true_and] at hdocs ⊢
      exact hdocs
  | .array es => by
      have hdocs := fine_docs before h es
      simp only [docsElement, fine, List.all_cons, h, Bool.true_or, Bool.true_and] at hdocs ⊢
      exact hdocs

lemma fine_docs (before : List String) (h : visibleHit before = true) :
    ∀ es, fine (docs before es) = true
  | [] => rfl
  | e :: es => by
      rw [docs, fine_append, fine_docsValue before h e, fine_docs _ (by simp [h]) es]
      rfl

lemma fine_docsElements (before : List String) (h : visibleHit before = true) :
    ∀ es, fine (docsElements before es) = true
  | [] => rfl
  | e :: es => by
      rw [docsElements, fine_append, fine_docsElement before h e,
        fine_docsElements _ (by simp [h]) es]
      rfl

end

/-- One answer after the other. -/
lemma answer_bind {fit fit' : Bool} {texts texts' : List String}
    {next : Bool → Except BsonError Bool} (h : next (visibleHit texts) = answer fit' texts') :
    (answer fit texts >>= next) = answer (fit && fit') texts' := by
  cases fit with
  | false => rfl
  | true => exact h

/-- A document that is skipped after a hit, or gone through. -/
lemma check_skip {before : List String} {es : List BsonValue}
    (h : checkLoop es (visibleHit before) =
      answer (arraysFit es && fine (docs before es)) (before ++ leavesAll es)) :
    (if visibleHit before then .ok true else checkLoop es false) =
      answer (fine ((before, es) :: docs before es)) (before ++ leavesAll es) := by
  cases hb : visibleHit before with
  | true =>
      have hfine : fine ((before, es) :: docs before es) = true := by
        have hdocs := fine_docs before hb es
        simp only [fine, List.all_cons, hb, Bool.true_or, Bool.true_and] at hdocs ⊢
        exact hdocs
      rw [if_pos rfl, answer, hfine, if_pos rfl, visibleHit_append, hb, Bool.true_or]
  | false =>
      rw [hb] at h
      rw [if_neg Bool.false_ne_true, h]
      simp [fine, hb]

mutual

lemma checkValue_eq (before : List String) : ∀ v,
    checkValue v (visibleHit before) =
      answer (fits v && fine (docsValue before v)) (before ++ leaves v)
  | .string s => by
      simp [checkValue, answer, fits, docsValue, fine, leaves, valuestrsafe, visibleHit]
  | .other type => by
      simp [checkValue, answer, fits, docsValue, fine, leaves, valuestrsafe, checkText_empty]
  | .object es => check_skip (checkLoop_eq before es)
  | .array es => checkArray_eq before es

lemma checkElement_eq (before : List String) : ∀ v,
    checkElement v (visibleHit before) =
      answer (isObj v && fine (docsElement before v)) (before ++ leaves v)
  | .string _ => rfl
  | .other _ => rfl
  | .object es => check_skip (checkLoop_eq before es)
  | .array es => check_skip (checkLoop_eq before es)

/-- The loop over a document that comes behind some texts. -/
lemma checkLoop_eq (before : List String) : ∀ es,
    checkLoop es (visibleHit before) =
      answer (arraysFit es && fine (docs before es)) (before ++ leavesAll es)
  | [] => by simp [checkLoop, answer, arraysFit, docs, fine, leavesAll]
  | e :: es => by
      have hrest := checkLoop_eq (before ++ leaves e) es
      rw [checkLoop, checkValue_eq before e, answer_bind hrest, docs, fine_append, leavesAll,
        List.append_assoc]
      simp only [arraysFit, List.all_cons]
      ac_rfl

lemma checkArray_eq (before : List String) : ∀ es,
    checkArray es (visibleHit before) =
      answer (es.all isObj && fine (docsElements before es)) (before ++ leavesAll es)
  | [] => by simp [checkArray, answer, docsElements, fine, leavesAll]
  | e :: es => by
      have hrest := checkArray_eq (before ++ leaves e) es
      rw [checkArray, checkElement_eq before e, answer_bind hrest, docsElements, fine_append,
        leavesAll, List.append_assoc]
      simp only [List.all_cons]
      ac_rfl

end

/-! ### Documents that can be searched -/

/-- A document that the check gets to: the one to be checked, or one in it with no hit in a text
before it. -/
def Reached (document d : List BsonValue) : Prop :=
  d = document ∨ ∃ before, (before, d) ∈ docs [] document ∧ visibleHit before = false

/-- The arrays in the documents that are reached fit, and a hit behind a NUL is not the only
kind. -/
structure Searchable (document : List BsonValue) : Prop where
  arrays : ∀ d, Reached document d → arraysFit d = true
  texts : hit (leavesAll document) = true → visibleHit (leavesAll document) = true

lemma hit_of_visibleHit {texts : List String} (h : visibleHit texts = true) : hit texts = true := by
  rw [visibleHit, List.any_eq_true] at h
  obtain ⟨s, hs, hc⟩ := h
  rw [checkText, Text.cString, String.toList_ofList, List.any_eq_true] at hc
  obtain ⟨c, hc, hforbidden⟩ := hc
  refine List.any_eq_true.mpr ⟨s, hs, List.any_eq_true.mpr ⟨c, ?_, hforbidden⟩⟩
  exact (List.takeWhile_prefix _).subset hc

/-- The arrays that are reached fit exactly when nothing is thrown. -/
lemma arrays_iff (document : List BsonValue) :
    (∀ d, Reached document d → arraysFit d = true) ↔
      (arraysFit document && fine (docs [] document)) = true := by
  rw [Bool.and_eq_true, fine, List.all_eq_true]
  constructor
  · intro h
    refine ⟨h _ (Or.inl rfl), fun d hd => ?_⟩
    cases hb : visibleHit d.1 with
    | true => rfl
    | false => exact h d.2 (Or.inr ⟨d.1, hd, hb⟩)
  · rintro ⟨hself, hdocs⟩ d (rfl | ⟨before, hd, hb⟩)
    · exact hself
    · have hd := hdocs _ hd
      rwa [hb, Bool.false_or] at hd

/-- **Forbidden characters**: the check answers whether a text has a forbidden character, and
throws nothing, exactly for the documents that can be searched. -/
theorem finds_iff_searchable (document : List BsonValue) :
    checkForbiddenCharacters document = .ok (hit (leavesAll document)) ↔ Searchable document := by
  have hanswer : checkForbiddenCharacters document = answer (arraysFit document &&
      fine (docs [] document)) (leavesAll document) := checkLoop_eq [] document
  have hsplit : Searchable document ↔
      (arraysFit document && fine (docs [] document)) = true ∧
        (hit (leavesAll document) = true → visibleHit (leavesAll document) = true) := by
    rw [← arrays_iff]
    exact ⟨fun h => ⟨h.arrays, h.texts⟩, fun h => ⟨h.1, h.2⟩⟩
  rw [hanswer, hsplit, answer]
  cases hfit : arraysFit document && fine (docs [] document) with
  | false => simp
  | true =>
      rw [if_pos rfl, Except.ok.injEq, Bool.eq_iff_iff]
      exact ⟨fun h => ⟨rfl, h.mpr⟩, fun h => ⟨hit_of_visibleHit, h.2⟩⟩

/-- An array of texts, as in a command with parameters, makes the check throw. -/
theorem throws_array_of_texts :
    checkForbiddenCharacters [.array [.string "ping"]] ≠
      .ok (hit (leavesAll [.array [.string "ping"]])) := by
  intro h
  cases h

/-- A forbidden character behind a NUL is not found. -/
example : checkForbiddenCharacters [.string "a\x00<"] = .ok false := by
  rfl

end ForbiddenCharacters

end IotAgent
