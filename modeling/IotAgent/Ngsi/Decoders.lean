import IotAgent.Ngsi.Messages

/-!
The two constructors of a message, compared.

A message that is built from a text should be the one that is built from the value that the text
is parsed to. For most messages it is. An attribute differs where a name has no character of an
identifier, where the value is missing and where it is no text; a subscription where the
entities are no list, and by the duration, which one of its constructors takes from another
member.

* `SameResult`: both fail, or give equal messages;
* `Attribute.Readable`, `Attribute.Regular`: the objects that are read alike as attributes;
* `Subscription.Common`, `Subscription.Regular`: the same for subscriptions;
* `agree_iff`: the objects on which the two constructors agree, for each type of message.
-/

namespace IotAgent

/-! ### Results -/

section SameResult

variable {ε α : Type} {x y : Except ε α}

/-- Both fail, or both give the same. -/
def SameResult (x y : Except ε α) : Prop :=
  x.toOption = y.toOption

lemma sameResult_iff : SameResult x y ↔ ∀ a, x = .ok a ↔ y = .ok a := by
  rw [SameResult, Option.ext_iff]
  simp only [Attempts.toOption_eq_some_iff]

/-- Two that fail agree. -/
lemma sameResult_of_not_ok (hx : ∀ a, x ≠ .ok a) (hy : ∀ a, y ≠ .ok a) : SameResult x y :=
  sameResult_iff.mpr fun a => iff_of_false (hx a) (hy a)

end SameResult

/-! ### Attributes -/

namespace FullAttribute

open Attempts

variable {write : Json → String} {d : Json} {att : FullAttribute} {name type : String}

/-- An object with the three texts of metadata, or of a member. -/
structure HasTexts (d : Json) : Prop where
  name : d.hasString "name"
  type : d.hasString "type"
  value : d.hasString "value"

/-- The members that both constructors read alike can be read. -/
structure Readable (d : Json) : Prop where
  name : d.hasString "name"
  type : (d.member "type").isSome → d.hasString "type"
  metadatas : (d.member "metadatas").isSome → d.hasArray "metadatas" ∧
    ∀ item ∈ d.itemsAt "metadatas", HasTexts item
  members : Text.renderIdentifier (d.stringAt "type") = Attribute.compound →
    d.hasArray "value" → ∀ item ∈ d.itemsAt "value", HasTexts item

/-- A name with a character for an identifier, and a value that both take as it is. -/
structure Regular (d : Json) : Prop where
  name : Text.renderIdentifier (d.stringAt "name") ≠ ""
  value : ∃ data, d.member "value" = some data ∧
    (Text.renderIdentifier (d.stringAt "type") = Attribute.compound ∨
      (Text.renderIdentifier (d.stringAt "type") = "command" ∧ data.isObject) ∨ data.isString)

lemma hasString_iff {name : String} : d.hasString name ↔ textOf d name = .ok (d.stringAt name) := by
  rw [Json.hasString, textOf, Json.stringAt]
  cases d.member name with
  | none => simp
  | some data => cases data <;> simp [Json.isString]

lemma hasArray_iff {name : String} :
    d.hasArray name ↔ d.member name = some (.array (d.itemsAt name)) := by
  rw [Json.hasArray, Json.itemsAt]
  cases d.member name with
  | none => simp
  | some data => cases data <;> simp [Json.isArray]

lemma succeeds_textsOf_iff : Succeeds textsOf d ↔ HasTexts d := by
  constructor
  · rintro ⟨a, ha⟩
    obtain ⟨name, hname, ha⟩ := bind_eq_ok_iff.mp ha
    obtain ⟨type, htype, ha⟩ := bind_eq_ok_iff.mp ha
    obtain ⟨value, hvalue, -⟩ := bind_eq_ok_iff.mp ha
    exact ⟨hasString_iff.mpr (by rw [hname, textOf_eq_ok hname]),
      hasString_iff.mpr (by rw [htype, textOf_eq_ok htype]),
      hasString_iff.mpr (by rw [hvalue, textOf_eq_ok hvalue])⟩
  · rintro ⟨hname, htype, hvalue⟩
    refine ⟨Attribute.ofTexts (d.stringAt "name") (d.stringAt "type") (d.stringAt "value"), ?_⟩
    rw [textsOf, hasString_iff.mp hname, hasString_iff.mp htype, hasString_iff.mp hvalue]
    rfl

/-- The type can be read if it is not there, or a string. -/
lemma typeOf_isOk_iff : (∃ type, typeOf d = .ok type) ↔
    ((d.member "type").isSome → d.hasString "type") := by
  rw [typeOf]
  by_cases hsome : (d.member "type").isSome = true
  · rw [if_pos hsome, hasString_iff]
    constructor
    · rintro ⟨type, htype⟩ -
      cases htext : textOf d "type" with
      | error e =>
          rw [htext] at htype
          cases htype
      | ok text => rw [textOf_eq_ok htext]
    · intro htext
      rw [htext hsome]
      exact ⟨_, rfl⟩
  · rw [if_neg hsome]
    exact iff_of_true ⟨"", rfl⟩ fun h => absurd h hsome

lemma metadatasOf_isOk_iff : (∃ metadatas, metadatasOf d = .ok metadatas) ↔
    ((d.member "metadatas").isSome → d.hasArray "metadatas" ∧
      ∀ item ∈ d.itemsAt "metadatas", HasTexts item) := by
  simp only [← succeeds_textsOf_iff]
  rw [metadatasOf, hasArray_iff, Json.itemsAt]
  cases hmeta : d.member "metadatas" with
  | none => simp
  | some data =>
      cases data with
      | array items => simpa using mapM_isOk_iff
      | null | bool | number | string | object => simp

lemma ofValue_isOk_iff {hrendered : Text.renderIdentifier type = type} :
    (∃ att, ofValue write name type hrendered (d.member "value") = .ok att) ↔
      (type = Attribute.compound → d.hasArray "value" →
        ∀ item ∈ d.itemsAt "value", HasTexts item) := by
  simp only [← succeeds_textsOf_iff]
  rw [hasArray_iff, Json.itemsAt]
  by_cases htype : type = Attribute.compound
  · cases d.member "value" with
    | none => exact iff_of_true ⟨_, rfl⟩ (by simp)
    | some data =>
        cases data with
        | array items =>
            rw [ofValue_of_array htype]
            simp only [htype, forall_const]
            rw [← mapM_isOk_iff]
            cases items.mapM textsOf <;> simp [Except.map]
        | null | bool | number | string | object =>
            exact iff_of_true ⟨_, ofValue_of_object htype (by simp)⟩ (by simp)
  · refine iff_of_true ?_ fun h => absurd h htype
    cases d.member "value" with
    | none => exact ⟨_, rfl⟩
    | some data => exact ⟨_, ofValue_of_flat htype data⟩

/-- What is made of the type and the value in a text. -/
lemma ofTypeAndTextValue_eq_ok_iff :
    ofTypeAndTextValue write name d = .ok att ↔ ∃ type, ∃ htype : typeOf d = .ok type,
      ofTextValue write name type (rendered_of_typeOf htype) (d.member "value") = .ok att := by
  constructor
  · intro hread
    rw [ofTypeAndTextValue] at hread
    split at hread
    · next type htype => exact ⟨type, htype, hread⟩
    · cases hread
  · rintro ⟨type, htype, hvalue⟩
    rw [ofTypeAndTextValue]
    split
    · next type' htype' =>
        cases htype.symm.trans htype'
        exact hvalue
    · next e he => cases htype.symm.trans he

lemma ofTextObject_eq_ok_iff :
    ofTextObject write d = .ok att ↔
      ∃ name read metadatas, textOf d "name" = .ok name ∧
        ofTypeAndTextValue write (nameInText name) d = .ok read ∧
        metadatasOf d = .ok metadatas ∧ att = { read with metadatas } := by
  have hread : ofTextObject write d = readWith (fun name =>
      ofTypeAndTextValue write (nameInText name) d) d := by
    rw [ofTextObject, readWith]
  rw [hread, readWith_eq_ok_iff]

section Value

variable {hrendered : Text.renderIdentifier type = type} {value : Option Json}
  {name' : String} {read : FullAttribute}

lemma ofTextValue_metadatas
    (hvalue : ofTextValue write name type hrendered value = .ok att) : att.metadatas = [] := by
  cases value with
  | none =>
      cases hvalue
      rfl
  | some data =>
      rw [ofTextValue] at hvalue
      split at hvalue
      · exact (ofValue_name hvalue).2
      · split at hvalue
        · cases hvalue
          rfl
        · cases data with
          | string s =>
              cases hvalue
              rfl
          | null | bool | number | array | object => cases hvalue

/-- What the constructor from a text takes, the one from a value takes. -/
lemma ofValue_isOk_of_text
    (hvalue : ofTextValue write name' type hrendered (d.member "value") = .ok att) :
    ∃ read, ofValue write name type hrendered (d.member "value") = .ok read := by
  refine ofValue_isOk_iff.mpr fun htype => ?_
  cases hmem : d.member "value" with
  | none => simp [hasArray_iff, hmem]
  | some data =>
      rw [hmem, ofTextValue, if_pos htype, ← hmem] at hvalue
      exact ofValue_isOk_iff.mp ⟨att, hvalue⟩ htype

lemma withText_eq_iff {text : String} :
    withText name' type text hrendered = withText name type text hrendered ↔ name' = name := by
  constructor
  · exact fun heq => congrArg (fun att => att.name) heq
  · rintro rfl
    rfl

/-- The constructor from a text makes the same of a value under the same name, unless the value
is missing or no text. -/
lemma ofTextValue_eq_iff (hvalue : ofValue write name type hrendered value = .ok read) :
    ofTextValue write name' type hrendered value = .ok read ↔ name' = name ∧
      ∃ data, value = some data ∧ (type = Attribute.compound ∨
        (type = "command" ∧ data.isObject) ∨ data.isString) := by
  cases value with
  | none =>
      have hspace : Attribute.emptyValue ≠ "" := by decide
      cases hvalue
      refine iff_of_false (fun heq => hspace ?_) (by simp)
      exact congrArg (fun att => att.value) (Except.ok.inj heq)
  | some data =>
      simp only [Option.some.injEq, exists_eq_left']
      rw [ofTextValue]
      by_cases htype : type = Attribute.compound
      · rw [if_pos htype, and_iff_left (Or.inl htype)]
        constructor
        · exact fun heq => (ofValue_name heq).1.symm.trans (ofValue_name hvalue).1
        · rintro rfl
          exact hvalue
      · rw [if_neg htype]
        cases hvalue.symm.trans (ofValue_of_flat htype data)
        by_cases hcommand : type = "command" ∧ data.isObject = true
        · rw [if_pos hcommand, flatValue, if_pos hcommand, Except.ok.injEq, withText_eq_iff]
          simp [hcommand]
        · rw [if_neg hcommand, flatValue, if_neg hcommand]
          cases data with
          | string s =>
              rw [Json.getStrValue, flatInText, Except.map, Except.ok.injEq, withText_eq_iff]
              simp [Json.isString]
          | null | bool | number | array | object =>
              refine iff_of_false (fun heq => ?_) (by simp [htype, hcommand, Json.isString])
              cases heq

end Value

/-- Metadata that are put in at the end do not hide a difference. -/
lemma withMetadatas_inj {read read' : FullAttribute} {metadatas : List Attribute}
    (hread : read.metadatas = []) (hread' : read'.metadatas = []) :
    ({ read with metadatas } : FullAttribute) = { read' with metadatas } ↔ read = read' := by
  constructor
  · intro heq
    cases read
    cases read'
    simp only at hread hread'
    subst hread hread'
    simpa using heq
  · rintro rfl
    rfl

variable {members : List (String × Json)}

lemma readable_of_parts {read : FullAttribute} {metadatas : List Attribute}
    (hname : textOf d "name" = .ok name) (htype : typeOf d = .ok type)
    (hvalue : ofValue write name' type (rendered_of_typeOf htype) (d.member "value") = .ok read)
    (hmeta : metadatasOf d = .ok metadatas) : Readable d where
  name := hasString_iff.mpr (by rw [hname, textOf_eq_ok hname])
  type := typeOf_isOk_iff.mp ⟨type, htype⟩
  metadatas := metadatasOf_isOk_iff.mp ⟨metadatas, hmeta⟩
  members := by
    rw [← typeOf_eq_ok htype]
    exact ofValue_isOk_iff.mp ⟨read, hvalue⟩

/-- Both constructors take only objects that can be read. -/
lemma readable_of_ofJson (hread : ofJson write (.object members) = .ok att) :
    Readable (.object members) := by
  obtain ⟨name, read, metadatas, hname, hatt, hmeta, -⟩ := ofJson_eq_ok_iff.mp hread
  obtain ⟨type, htype, hvalue⟩ := ofTypeAndValue_eq_ok_iff.mp hatt
  exact readable_of_parts hname htype hvalue hmeta

lemma readable_of_ofTextObject (hread : ofTextObject write d = .ok att) : Readable d := by
  obtain ⟨name, read, metadatas, hname, hatt, hmeta, -⟩ := ofTextObject_eq_ok_iff.mp hread
  obtain ⟨type, htype, hvalue⟩ := ofTypeAndTextValue_eq_ok_iff.mp hatt
  obtain ⟨read', hvalue'⟩ : ∃ read', ofValue write name type _ (d.member "value") = .ok read' :=
    ofValue_isOk_of_text hvalue
  exact readable_of_parts hname htype hvalue' hmeta

lemma nameInText_eq_iff {name : String} :
    nameInText name = Text.renderIdentifier name ↔ Text.renderIdentifier name ≠ "" := by
  have hspace : Attribute.emptyValue ≠ "" := by decide
  rw [nameInText]
  split
  · next hnil =>
      rw [hnil]
      exact iff_of_false hspace (not_not_intro rfl)
  · next hne => exact iff_of_true rfl hne

/-- On an object that can be read they agree if both take it as it is. -/
lemma sameResult_of_readable (hreadable : Readable (.object members)) :
    SameResult (ofTextObject write (.object members)) (ofJson write (.object members)) ↔
      Regular (.object members) := by
  set d := Json.object members with hd
  obtain ⟨type, htype⟩ := typeOf_isOk_iff.mpr hreadable.type
  obtain ⟨metadatas, hmeta⟩ := metadatasOf_isOk_iff.mpr hreadable.metadatas
  have hname := hasString_iff.mp hreadable.name
  have hrendered := typeOf_eq_ok htype
  obtain ⟨read, hvalue⟩ : ∃ read, ofValue write (Text.renderIdentifier (d.stringAt "name")) type
      (rendered_of_typeOf htype) (d.member "value") = .ok read := by
    refine ofValue_isOk_iff.mpr ?_
    rw [hrendered]
    exact hreadable.members
  have hjson : ofJson write d = .ok { read with metadatas } :=
    ofJson_eq_ok_iff.mpr ⟨_, read, metadatas, hname,
      ofTypeAndValue_eq_ok_iff.mpr ⟨type, htype, hvalue⟩, hmeta, rfl⟩
  have htext : ofTextObject write d = .ok { read with metadatas } ↔
      ofTextValue write (nameInText (d.stringAt "name")) type (rendered_of_typeOf htype)
        (d.member "value") = .ok read := by
    rw [ofTextObject_eq_ok_iff]
    constructor
    · rintro ⟨name', read', metadatas', hname', hatt', hmeta', heq⟩
      cases hname.symm.trans hname'
      cases hmeta.symm.trans hmeta'
      obtain ⟨type', htype', hvalue'⟩ := ofTypeAndTextValue_eq_ok_iff.mp hatt'
      cases htype.symm.trans htype'
      rw [withMetadatas_inj (ofValue_name hvalue).2 (ofTextValue_metadatas hvalue')] at heq
      rwa [heq]
    · intro hvalue'
      exact ⟨_, read, metadatas, hname,
        ofTypeAndTextValue_eq_ok_iff.mpr ⟨type, htype, hvalue'⟩, hmeta, rfl⟩
  calc
    SameResult (ofTextObject write d) (ofJson write d)
        ↔ ofTextObject write d = .ok { read with metadatas } := by
      rw [hjson, sameResult_iff]
      constructor
      · exact fun h => (h _).mpr rfl
      · intro h a
        rw [h]
    _ ↔ nameInText (d.stringAt "name") = Text.renderIdentifier (d.stringAt "name") ∧ _ :=
      htext.trans (ofTextValue_eq_iff hvalue)
    _ ↔ Regular d := by
      rw [nameInText_eq_iff, hrendered]
      exact ⟨fun h => ⟨h.1, h.2⟩, fun h => ⟨h.name, h.value⟩⟩

/-- **The two constructors of an attribute** agree on an object exactly when neither can read
it, or it is one that both take as it is. -/
theorem sameResult_iff_regular :
    SameResult (ofTextObject write (.object members)) (ofJson write (.object members)) ↔
      (Readable (.object members) → Regular (.object members)) := by
  by_cases hreadable : Readable (.object members)
  · rw [sameResult_of_readable hreadable]
    exact ⟨fun h _ => h, fun h => h hreadable⟩
  · refine iff_of_true (sameResult_of_not_ok ?_ ?_) fun h => absurd h hreadable
    · exact fun att h => hreadable (readable_of_ofTextObject h)
    · exact fun att h => hreadable (readable_of_ofJson h)

end FullAttribute

/-! ### Subscriptions -/

namespace Ngsi.SubscribeContext

open Attempts

variable {d : Json} {s : SubscribeContext} {name text : String}

/-- A condition with its type and its values. -/
structure HasCondition (d : Json) : Prop where
  type : d.hasString "type"
  condValues : d.hasArray "condValues" ∧ ∀ item ∈ d.itemsAt "condValues", item.isString

/-- The members that both constructors read alike can be read. -/
structure Readable (d : Json) : Prop where
  entities : ∀ item ∈ d.itemsAt "entities", item.hasString "id"
  attributes : ∀ item ∈ d.itemsAt "attributes", item.isString
  throttling : (d.member "throttling").isSome → d.hasString "throttling"
  reference : (d.member "reference").isSome → d.hasString "reference"
  conditions : ∀ item ∈ d.itemsAt "notifyConditions", HasCondition item

lemma succeeds_asText_iff : Succeeds Json.asText d ↔ d.isString := by
  cases d <;> simp [Succeeds, Json.asText, Json.isString]

lemma succeeds_entity_iff : Succeeds Entity.ofJson d ↔ d.hasString "id" := by
  cases d with
  | object members =>
      rw [Succeeds, Entity.ofJson, Json.readValue, Entity.ofObject]
      split <;> simp [*]
  | null | bool | number | string | array =>
      exact iff_of_false (by rintro ⟨_, h⟩; cases h) Bool.false_ne_true

lemma succeeds_condition_iff : Succeeds NotifyCondition.ofJson d ↔ HasCondition d := by
  cases d with
  | object members =>
      rw [Succeeds, NotifyCondition.ofJson, Json.readValue]
      constructor
      · rintro ⟨condition, hok⟩
        split at hok
        · next hboth =>
            obtain ⟨values, hvalues, -⟩ := bind_eq_ok_iff.mp hok
            refine ⟨hboth.1, hboth.2, fun item hitem => ?_⟩
            exact succeeds_asText_iff.mp (mapM_isOk_iff.mp ⟨values, hvalues⟩ item hitem)
        · cases hok
      · rintro ⟨htype, harray, hall⟩
        obtain ⟨values, hvalues⟩ :=
          mapM_isOk_iff.mpr fun item hitem => succeeds_asText_iff.mpr (hall item hitem)
        rw [if_pos ⟨htype, harray⟩, hvalues]
        exact ⟨_, rfl⟩
  | null | bool | number | string | array =>
      refine iff_of_false ?_ fun h => Bool.false_ne_true h.type
      rintro ⟨_, h⟩
      cases h

/-- The entities are a list and the duration is the text that stands for the reference too; or
neither constructor finds what it asks for. -/
inductive Regular (d : Json) : Prop
  | same : d.hasArray "entities" → ((d.member "duration").isSome → d.hasString "duration" ∧
      d.hasString "reference" ∧ d.stringAt "duration" = d.stringAt "reference") → Regular d
  | neither : (d.hasArray "entities" → ¬ d.hasString "duration") →
      (d.member "duration").isSome → d.member "reference" = none → Regular d

lemma getString_eq_ok_iff :
    d.getString name = .ok text ↔ d.hasString name ∧ text = d.stringAt name := by
  rw [Json.getString, Json.hasString, Json.stringAt]
  cases d.member name with
  | none => simp
  | some data => cases data <;> simp [Json.isString, eq_comm]

lemma isSome_of_hasString (hname : d.hasString name = true) : (d.member name).isSome = true := by
  rw [Json.hasString] at hname
  cases hmem : d.member name with
  | none => simp [hmem] at hname
  | some data => rfl

lemma stringAt_of_none (hnone : ¬ (d.member name).isSome = true) : d.stringAt name = "" := by
  rw [Option.not_isSome_iff_eq_none] at hnone
  rw [Json.stringAt, hnone]

lemma textIfAny_eq_ok_iff : d.textIfAny name = .ok text ↔
    ((d.member name).isSome → d.hasString name) ∧ text = d.stringAt name := by
  rw [Json.textIfAny]
  by_cases hsome : (d.member name).isSome = true
  · rw [if_pos hsome, getString_eq_ok_iff]
    simp [hsome]
  · rw [if_neg hsome, stringAt_of_none hsome, Except.ok.injEq, eq_comm]
    exact (and_iff_right fun h => absurd h hsome).symm

lemma durationInValue_eq_ok_iff : durationInValue d = .ok text ↔
    ((d.member "duration").isSome → d.hasString "reference") ∧
      text = if (d.member "duration").isSome then d.stringAt "reference" else "" := by
  rw [durationInValue]
  by_cases hsome : (d.member "duration").isSome = true
  · rw [if_pos hsome, if_pos hsome, getString_eq_ok_iff]
    simp [hsome]
  · rw [if_neg hsome, if_neg hsome, Except.ok.injEq, eq_comm]
    exact (and_iff_right fun h => absurd h hsome).symm

/-- What both constructors put into a subscription alike. -/
structure Parts (d : Json) (s : SubscribeContext) : Prop where
  entities : (d.itemsAt "entities").mapM Entity.ofJson = .ok s.entities
  attributes : (d.itemsAt "attributes").mapM Json.asText = .ok s.attributes
  throttling : d.textIfAny "throttling" = .ok s.throttling
  reference : d.textIfAny "reference" = .ok s.reference
  conditions : (d.itemsAt "notifyConditions").mapM NotifyCondition.ofJson = .ok s.conditions

lemma entitiesInText_eq_ok_iff {entities : List Entity} :
    entitiesInText d = .ok entities ↔
      d.hasArray "entities" ∧ (d.itemsAt "entities").mapM Entity.ofJson = .ok entities := by
  rw [entitiesInText, Json.hasArray, Json.itemsAt]
  cases d.member "entities" with
  | none => simp
  | some data => cases data <;> simp [Json.isArray]

lemma ofTextObject_eq_ok_iff : ofTextObject d = .ok s ↔
    Parts d s ∧ d.hasArray "entities" ∧ d.textIfAny "duration" = .ok s.duration := by
  constructor
  · intro hok
    obtain ⟨entities, hentities, hok⟩ := bind_eq_ok_iff.mp hok
    obtain ⟨attributes, hattributes, hok⟩ := bind_eq_ok_iff.mp hok
    obtain ⟨throttling, hthrottling, hok⟩ := bind_eq_ok_iff.mp hok
    obtain ⟨duration, hduration, hok⟩ := bind_eq_ok_iff.mp hok
    obtain ⟨reference, hreference, hok⟩ := bind_eq_ok_iff.mp hok
    obtain ⟨conditions, hconditions, hok⟩ := bind_eq_ok_iff.mp hok
    cases hok
    obtain ⟨harray, hentities⟩ := entitiesInText_eq_ok_iff.mp hentities
    exact ⟨⟨hentities, hattributes, hthrottling, hreference, hconditions⟩, harray, hduration⟩
  · rintro ⟨hparts, harray, hduration⟩
    have hentities := entitiesInText_eq_ok_iff.mpr ⟨harray, hparts.entities⟩
    rw [ofTextObject, hentities, hparts.attributes, hparts.throttling, hduration,
      hparts.reference, hparts.conditions]
    rfl

lemma ofObject_eq_ok_iff : ofObject d = .ok s ↔
    Parts d s ∧ durationInValue d = .ok s.duration := by
  constructor
  · intro hok
    obtain ⟨entities, hentities, hok⟩ := bind_eq_ok_iff.mp hok
    obtain ⟨attributes, hattributes, hok⟩ := bind_eq_ok_iff.mp hok
    obtain ⟨reference, hreference, hok⟩ := bind_eq_ok_iff.mp hok
    obtain ⟨duration, hduration, hok⟩ := bind_eq_ok_iff.mp hok
    obtain ⟨throttling, hthrottling, hok⟩ := bind_eq_ok_iff.mp hok
    obtain ⟨conditions, hconditions, hok⟩ := bind_eq_ok_iff.mp hok
    cases hok
    exact ⟨⟨hentities, hattributes, hthrottling, hreference, hconditions⟩, hduration⟩
  · rintro ⟨hparts, hduration⟩
    rw [ofObject, hparts.entities, hparts.attributes, hparts.reference, hduration,
      hparts.throttling, hparts.conditions]
    rfl

lemma mapM_isOk_iff_of {α : Type} {f : Json → Except Stop α} {p : Json → Prop}
    (hf : ∀ item, Succeeds f item ↔ p item) (items : List Json) :
    (∃ r, items.mapM f = .ok r) ↔ ∀ item ∈ items, p item := by
  rw [mapM_isOk_iff]
  exact forall₂_congr fun item _ => hf item

lemma readable_iff : Readable d ↔ ∃ s, Parts d s := by
  have hentity := mapM_isOk_iff_of (fun _ => succeeds_entity_iff) (d.itemsAt "entities")
  have hattribute := mapM_isOk_iff_of (fun _ => succeeds_asText_iff) (d.itemsAt "attributes")
  have hcondition :=
    mapM_isOk_iff_of (fun _ => succeeds_condition_iff) (d.itemsAt "notifyConditions")
  constructor
  · intro h
    obtain ⟨entities, hentities⟩ := hentity.mpr h.entities
    obtain ⟨attributes, hattributes⟩ := hattribute.mpr h.attributes
    obtain ⟨conditions, hconditions⟩ := hcondition.mpr h.conditions
    exact ⟨⟨entities, attributes, d.stringAt "reference", "", d.stringAt "throttling", conditions⟩,
      hentities, hattributes, textIfAny_eq_ok_iff.mpr ⟨h.throttling, rfl⟩,
      textIfAny_eq_ok_iff.mpr ⟨h.reference, rfl⟩, hconditions⟩
  · rintro ⟨s, hparts⟩
    exact ⟨hentity.mp ⟨_, hparts.entities⟩, hattribute.mp ⟨_, hparts.attributes⟩,
      (textIfAny_eq_ok_iff.mp hparts.throttling).1, (textIfAny_eq_ok_iff.mp hparts.reference).1,
      hcondition.mp ⟨_, hparts.conditions⟩⟩

/-- What is left of the comparison when the members are put aside that are read alike. -/
lemma sameResult_iff_duration : SameResult (ofTextObject d) (ofObject d) ↔
    (Readable d → ∀ text, d.hasArray "entities" ∧ d.textIfAny "duration" = .ok text ↔
      durationInValue d = .ok text) := by
  rw [sameResult_iff]
  simp only [ofTextObject_eq_ok_iff, ofObject_eq_ok_iff, and_congr_right_iff]
  constructor
  · intro h hreadable text
    obtain ⟨s, hparts⟩ := readable_iff.mp hreadable
    exact h { s with duration := text } ⟨hparts.entities, hparts.attributes, hparts.throttling,
      hparts.reference, hparts.conditions⟩
  · exact fun h s hparts => h (readable_iff.mpr ⟨s, hparts⟩) s.duration

/-- Two conditions under which a text is fixed come to the same. -/
lemma forall_and_eq_iff {p q : Prop} {a b : String} :
    (∀ text, p ∧ text = a ↔ q ∧ text = b) ↔ (p ↔ q) ∧ (p → a = b) := by
  constructor
  · intro h
    have hab : p → q ∧ a = b := fun hp => (h a).mp ⟨hp, rfl⟩
    exact ⟨⟨fun hp => (hab hp).1, fun hq => ((h b).mpr ⟨hq, rfl⟩).1⟩, fun hp => (hab hp).2⟩
  · rintro ⟨hpq, hab⟩ text
    rw [← hpq]
    exact and_congr_right fun hp => by rw [hab hp]

/-- **The two constructors of a subscription** agree on an object exactly when neither can read
it, or it is one of those that both read alike. -/
theorem sameResult_iff_regular :
    SameResult (ofTextObject d) (ofObject d) ↔ (Readable d → Regular d) := by
  rw [sameResult_iff_duration]
  refine forall_congr' fun hreadable => ?_
  simp only [textIfAny_eq_ok_iff, durationInValue_eq_ok_iff, ← and_assoc]
  rw [forall_and_eq_iff]
  by_cases hsome : (d.member "duration").isSome = true
  · have hreference : d.member "reference" = none ↔ ¬ d.hasString "reference" = true := by
      rw [← Option.not_isSome_iff_eq_none]
      exact not_congr ⟨hreadable.reference, isSome_of_hasString⟩
    simp only [hsome, forall_const, if_true]
    constructor
    · rintro ⟨hboth, heq⟩
      by_cases htext : d.hasArray "entities" = true ∧ d.hasString "duration" = true
      · exact .same htext.1 fun _ => ⟨htext.2, hboth.mp htext, heq htext⟩
      · exact .neither (fun h h' => htext ⟨h, h'⟩) hsome
          (hreference.mpr fun h => htext (hboth.mpr h))
    · rintro (⟨harray, hsame⟩ | ⟨hneither, -, hnone⟩)
      · obtain ⟨hduration, hstring, heq⟩ := hsame hsome
        exact ⟨iff_of_true ⟨harray, hduration⟩ hstring, fun _ => heq⟩
      · refine ⟨iff_of_false (fun h => hneither h.1 h.2) (hreference.mp hnone), fun h => ?_⟩
        exact absurd h.2 (hneither h.1)
  · rw [if_neg hsome, stringAt_of_none hsome]
    simp only [hsome, Bool.false_eq_true, false_imp_iff, and_true, iff_true, implies_true]
    constructor
    · exact fun harray => .same harray fun h => absurd h hsome
    · rintro (⟨harray, -⟩ | ⟨-, h, -⟩)
      · exact harray
      · exact absurd h hsome

end Ngsi.SubscribeContext

/-! ### Queries -/

namespace Ngsi.QueryContext

open Attempts FullAttribute

variable {d : Json} {q : QueryContext}

/-- What a query is that is read from an object. -/
structure Parts (d : Json) (q : QueryContext) : Prop where
  hasEntities : d.hasArray "entities"
  hasAttributes : d.hasArray "attributes"
  entities : (d.itemsAt "entities").mapM Entity.ofJson = .ok q.entities
  attributes : (d.itemsAt "attributes").mapM Json.asText = .ok q.attributes

lemma ofObject_eq_ok_iff : ofObject d = .ok q ↔ Parts d q := by
  rw [ofObject]
  constructor
  · intro hok
    split at hok
    · next hentities =>
        split at hok
        · next hattributes =>
            obtain ⟨entities, hes, hok⟩ := bind_eq_ok_iff.mp hok
            obtain ⟨attributes, has, hok⟩ := bind_eq_ok_iff.mp hok
            cases hok
            exact ⟨hentities, hattributes, hes, has⟩
        · cases hok
    · cases hok
  · intro hparts
    rw [if_pos hparts.hasEntities, if_pos hparts.hasAttributes, hparts.entities,
      hparts.attributes]
    rfl

/-- The constructor from a text asks for the attributes later, but it does ask for them. -/
lemma ofTextObject_eq_ok_iff : ofTextObject d = .ok q ↔ Parts d q := by
  rw [ofTextObject]
  constructor
  · intro hok
    split at hok
    · next hentities =>
        obtain ⟨entities, hes, hok⟩ := bind_eq_ok_iff.mp hok
        cases hmem : d.member "attributes" with
        | none =>
            rw [hmem] at hok
            cases hok
        | some data =>
            rw [hmem] at hok
            cases data with
            | array items =>
                obtain ⟨attributes, has, hok⟩ := bind_eq_ok_iff.mp hok
                cases hok
                have hitems : d.itemsAt "attributes" = items := by rw [Json.itemsAt, hmem]
                exact ⟨hentities, by rw [Json.hasArray, hmem]; rfl, hes, by rw [hitems, has]⟩
            | null | bool | number | string | object => cases hok
    · cases hok
  · intro hparts
    have hmem := hasArray_iff.mp hparts.hasAttributes
    rw [if_pos hparts.hasEntities, hparts.entities, hmem]
    refine bind_eq_ok_iff.mpr ⟨q.entities, rfl, ?_⟩
    exact bind_eq_ok_iff.mpr ⟨q.attributes, hparts.attributes, rfl⟩

lemma sameResult (d : Json) : SameResult (ofTextObject d) (ofObject d) :=
  sameResult_iff.mpr fun _ => ofTextObject_eq_ok_iff.trans ofObject_eq_ok_iff.symm

end Ngsi.QueryContext

/-! ### All messages -/

namespace Ngsi

/-- The types of messages with two constructors. -/
inductive MessageType where
  | singleAttribute
  | entity
  | contextElement
  | updateContext
  | subscribeContext
  | registerContext
  | queryContext
  | contextResponse

namespace MessageType

/-- The constructor from a text and the one from a value both fail, or give equal messages. -/
def Agree (lib : JsonLib) (text : String) (v : Json) : MessageType → Prop
  | singleAttribute => SameResult (FullAttribute.ofText lib text) (FullAttribute.ofJson lib.write v)
  | entity => SameResult (Entity.ofText lib text) (Entity.ofJson v)
  | contextElement => SameResult (EnvElement.ofText lib text) (EnvElement.ofJson lib v)
  | updateContext => SameResult (UpdateContext.ofText lib text) (UpdateContext.ofJson lib v)
  | subscribeContext => SameResult (SubscribeContext.ofText lib text) (SubscribeContext.ofJson v)
  | registerContext => SameResult (RegisterContext.ofText lib text) (RegisterContext.ofJson v)
  | queryContext => SameResult (QueryContext.ofText lib text) (QueryContext.ofJson v)
  | contextResponse =>
      SameResult (ContextResponse.ofText lib text) (ContextResponse.ofJson lib v)

/-- The objects that are read alike, or by neither constructor. -/
def Regular (v : Json) : MessageType → Prop
  | singleAttribute => FullAttribute.Readable v → FullAttribute.Regular v
  | subscribeContext => SubscribeContext.Readable v → SubscribeContext.Regular v
  | entity | contextElement | updateContext | registerContext | queryContext | contextResponse =>
      True

/-- The message of a registration that fails differs by a blank, and nothing else does. -/
lemma sameResult_registerContext (d : Json) :
    SameResult (RegisterContext.ofObject RegisterContext.invalidText d)
      (RegisterContext.ofObject RegisterContext.invalidValue d) := by
  rw [SameResult, RegisterContext.ofObject, RegisterContext.ofObject]
  split <;> rfl

/-- **The two constructors of a message** agree on the text of an object and the object exactly
when it is regular for its type: always, but for attributes and subscriptions. -/
theorem agree_iff (lib : JsonLib) {text : String} {members : List (String × Json)}
    (hparse : lib.parse text = some (.object members)) (T : MessageType) :
    T.Agree lib text (.object members) ↔ T.Regular (.object members) := by
  have hread : ∀ {α : Type} (what : String) (body : Json → Except Stop α),
      Json.readText lib what body text = body (.object members) := by
    intro α what body
    rw [Json.readText, hparse]
  cases T with
  | singleAttribute =>
      rw [Agree, FullAttribute.ofText, hparse]
      exact FullAttribute.sameResult_iff_regular
  | entity =>
      rw [Agree, Entity.ofText, hread]
      exact iff_of_true rfl trivial
  | contextElement =>
      rw [Agree, EnvElement.ofText, hread]
      exact iff_of_true rfl trivial
  | updateContext =>
      rw [Agree, UpdateContext.ofText, hread]
      exact iff_of_true rfl trivial
  | subscribeContext =>
      rw [Agree, SubscribeContext.ofText, hread]
      exact SubscribeContext.sameResult_iff_regular
  | registerContext =>
      rw [Agree, RegisterContext.ofText, hread]
      exact iff_of_true (sameResult_registerContext _) trivial
  | queryContext =>
      rw [Agree, QueryContext.ofText, hread]
      exact iff_of_true (QueryContext.sameResult _) trivial
  | contextResponse =>
      rw [Agree, ContextResponse.ofText, hread]
      exact iff_of_true rfl trivial

/-- A subscription for a month. -/
def monthDoc : Json :=
  .object [("entities", .array []), ("reference", .string "http://receiver"),
    ("duration", .string "P1M")]

def monthText : String :=
  "\x7b\"entities\":[],\"reference\":\"http://receiver\",\"duration\":\"P1M\"\x7d"

/-- The subscription, read. -/
def monthLib : JsonLib where
  parse text := if text = monthText then some monthDoc else none
  write _ := "\x7b\x7d"

/-- Its duration is the month in one constructor, and the receiver in the other. -/
theorem not_agree_month :
    monthLib.parse monthText = some monthDoc ∧
      SubscribeContext.ofText monthLib monthText =
        .ok ⟨[], [], "http://receiver", "P1M", "", []⟩ ∧
      SubscribeContext.ofJson monthDoc =
        .ok ⟨[], [], "http://receiver", "http://receiver", "", []⟩ ∧
      ¬ subscribeContext.Agree monthLib monthText monthDoc := by
  refine ⟨rfl, rfl, rfl, fun hagree => ?_⟩
  have hne : "P1M" ≠ "http://receiver" := by decide
  have hsame : (some ⟨[], [], "http://receiver", "P1M", "", []⟩ : Option SubscribeContext) =
      some ⟨[], [], "http://receiver", "http://receiver", "", []⟩ := hagree
  exact hne (congrArg SubscribeContext.duration (Option.some.inj hsame))

/-- An attribute with a number in its text. -/
def celsiusDoc : Json :=
  .object [("name", .string "t"), ("type", .string "celsius"), ("value", .string "21")]

def celsiusText : String :=
  "\x7b\"name\":\"t\",\"type\":\"celsius\",\"value\":\"21\"\x7d"

def celsiusLib : JsonLib where
  parse text := if text = celsiusText then some celsiusDoc else none
  write _ := "\x7b\x7d"

/-- Both constructors take it. -/
theorem agree_celsius :
    singleAttribute.Agree celsiusLib celsiusText celsiusDoc ∧
      (FullAttribute.ofText celsiusLib celsiusText).toOption.isSome ∧
      (FullAttribute.ofJson celsiusLib.write celsiusDoc).toOption.isSome := by
  have hname : Text.renderIdentifier (celsiusDoc.stringAt "name") ≠ "" := by decide
  have hvalue : celsiusDoc.member "value" = some (.string "21") := rfl
  refine ⟨(agree_iff celsiusLib rfl singleAttribute).mpr fun _ => ?_, rfl, rfl⟩
  exact ⟨hname, .string "21", hvalue, .inr (.inr rfl)⟩

end MessageType

end Ngsi

end IotAgent
