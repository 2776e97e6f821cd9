import IotAgent.Lib.Attempts
import IotAgent.Ngsi.EnvInfo

/-!
Updates as they are read (`src/ngsi/ContextElement.cc`, `src/ngsi/UpdateContext.cc`).

An update is an action and a list of elements, and an element has a list of attributes. The
attributes of an element come to it by `add_attribute`, which leaves out those without a value.
An element that is read has neither a device nor a service, so no name has a mapping.

* `EnvElement.ofJson`, `UpdateContext.ofText`: the constructors, with their failures;
* `add_of_plain`: what `add_attribute` does where there are no mappings;
* `attributes_of_ofObject`: the attributes that an element has after it is read;
* `complete_iff`: exactly when an update has an attribute for each entry of its text.
-/

namespace IotAgent

/-! ### The members of a value -/

namespace Json

/-- The text of a member if it is a string. -/
def stringAt (d : Json) (name : String) : String :=
  match d.member name with
  | some (.string s) => Text.cString s
  | _ => ""

/-- `d[name].GetString()`, as a text. -/
def getString (d : Json) (name : String) : Except Stop String :=
  match d.member name with
  | some (.string s) => .ok (Text.cString s)
  | _ => .error .assertion

/-- `IsObject`. -/
def isObject : Json → Bool
  | object _ => true
  | _ => false

/-- The items of a member if it is an array. -/
def itemsAt (d : Json) (name : String) : List Json :=
  match d.member name with
  | some (.array items) => items
  | _ => []

/-- The constructors from a text: the text is parsed, and the function `HasMember` asserts that
it has an object. The message of the parser is left out. -/
def readText {α : Type} (lib : JsonLib) (what : String) (body : Json → Except Stop α)
    (text : String) : Except Stop α :=
  match lib.parse text with
  | none => .error (.runtimeError what)
  | some (.object members) => body (.object members)
  | some _ => .error .assertion

/-- The constructors from a value, with what they throw if it is not an object. -/
def readValue {α : Type} (failure : Stop) (body : Json → Except Stop α) :
    Json → Except Stop α
  | .object members => body (.object members)
  | _ => .error failure

end Json

/-! ### Context elements -/

namespace EnvElement

/-- One of the attributes in the array. -/
def addItem (lib : JsonLib) (e : EnvElement) (item : Json) : Except Stop EnvElement :=
  match FullAttribute.ofJson lib.write item with
  | .error failure => .error failure.stop
  | .ok att => e.add lib att

/-- What both constructors make of an object. -/
def ofObject (lib : JsonLib) (d : Json) : Except Stop EnvElement :=
  if (d.member "id").isSome then
    (d.itemsAt "attributes").foldlM (addItem lib)
      (ofTexts (d.stringAt "id") (d.stringAt "type") (d.stringAt "isPattern"))
  else .error (.runtimeError "ContextElement: missing field [id]")

/-- The constructor from a JSON value. -/
def ofJson (lib : JsonLib) : Json → Except Stop EnvElement :=
  Json.readValue (.runtimeError "Invalid Object") (ofObject lib)

/-- The constructor from a text. -/
def ofText (lib : JsonLib) : String → Except Stop EnvElement :=
  Json.readText lib "ContextElement: " (ofObject lib)

end EnvElement

/-! ### Updates -/

namespace Ngsi

/-- An update. -/
structure UpdateContext where
  action : String
  contextElements : List EnvElement

namespace UpdateContext

/-- What both constructors make of an object. -/
def ofObject (lib : JsonLib) (d : Json) : Except Stop UpdateContext :=
  if (d.member "updateAction").isSome then do
    let action ← d.getString "updateAction"
    match d.member "contextElements" with
    | some (.array items) =>
        let contextElements ← items.mapM (EnvElement.ofJson lib)
        return { action, contextElements }
    | some _ => .error (.runtimeError "UpdateContext: invalid type field [contextElements]")
    | none => .error (.runtimeError "UpdateContext: missing field [contextElements]")
  else .error (.runtimeError "UpdateContext: missing field [updateAction]")

/-- The constructor from a JSON value. -/
def ofJson (lib : JsonLib) : Json → Except Stop UpdateContext :=
  Json.readValue (.runtimeError "Invalid object") (ofObject lib)

/-- The constructor from a text. -/
def ofText (lib : JsonLib) : String → Except Stop UpdateContext :=
  Json.readText lib "UpdateContext: " (ofObject lib)

end UpdateContext

end Ngsi

/-! ### Elements without mappings -/

namespace EnvElement

/-- An element under whose device and service no name has a mapping. -/
def Plain (e : EnvElement) : Prop :=
  ∀ name, e.attrMapping name = ""

section Plain

variable {lib : JsonLib} {e e' : EnvElement} {attr : FullAttribute}

lemma plain_ofTexts (id type isPattern : String) : (ofTexts id type isPattern).Plain :=
  fun _ => rfl

lemma Plain.push (hplain : e.Plain) (attr : FullAttribute) : (e.push attr).Plain :=
  hplain

lemma Plain.mapping (hplain : e.Plain) (name : String) : e.mapping lib name = .absent := by
  rw [EnvElement.mapping, if_pos (hplain name)]

/-- Without a mapping the attribute is added as it is if it has a value, with a default type. -/
lemma add_of_absent (hmap : e.mapping lib attr.name = .absent) :
    e.add lib attr = .ok (if attr.withDefaultType.isEmptyValue then e
      else e.push attr.withDefaultType) := by
  refine add_eq_ok_iff.mpr ⟨1, ?_⟩
  rw [addAttribute]
  split
  · rfl
  · rw [withDefaultType_name, hmap]

lemma add_of_plain (hplain : e.Plain) (attr : FullAttribute) :
    e.add lib attr = .ok (if attr.withDefaultType.isEmptyValue then e
      else e.push attr.withDefaultType) :=
  add_of_absent (hplain.mapping attr.name)

end Plain

end EnvElement

/-! ### The entries of the text -/

namespace Json

variable (item : Json)

/-- The name in an entry for an attribute. -/
def nameOf : String :=
  match item.member "name" with
  | some (.string s) => s
  | _ => ""

/-- The name that is made of it. -/
def renderedName : String :=
  Text.renderIdentifier (item.stringAt "name")

/-- No value, or an empty list for a compound value. -/
def lacksValue (type : String) : Option Json → Bool
  | none => true
  | some (array []) => type = Attribute.compound
  | some _ => false

/-- An entry has a value for its attribute. -/
def hasValue : Bool :=
  !lacksValue (Text.renderIdentifier (item.stringAt "type")) (item.member "value")

end Json

namespace FullAttribute

variable {write : Json → String} {d item : Json} {att : FullAttribute} {name type : String}

lemma textOf_eq_ok {text : String} (htext : textOf d name = .ok text) :
    text = d.stringAt name := by
  rw [textOf] at htext
  rw [Json.stringAt]
  split at htext <;> cases htext
  simp only [*]

lemma typeOf_eq_ok (htype : typeOf d = .ok type) :
    type = Text.renderIdentifier (d.stringAt "type") := by
  rw [typeOf] at htype
  split at htype
  · cases htext : textOf d "type" with
    | error e =>
        rw [htext] at htype
        cases htype
    | ok text =>
        rw [htext] at htype
        cases htype
        rw [textOf_eq_ok htext]
  · next hnone =>
      cases htype
      rw [Option.not_isSome_iff_eq_none] at hnone
      rw [Json.stringAt, hnone]
      decide

/-- The default type does not change whether there is a value. -/
lemma isEmptyValue_withDefaultType : att.withDefaultType.isEmptyValue = att.isEmptyValue := by
  rw [withDefaultType]
  split
  · next htype =>
      have hstring : "string" ≠ Attribute.compound := by decide
      have hempty : att.type ≠ Attribute.compound := by
        rw [htype]
        decide
      rw [isEmptyValue, isEmptyValue, if_neg fun h => hstring h.1, if_neg fun h => hempty h.1]
  · rfl

/-- A value that is not compound comes as a text. -/
lemma isEmptyValue_of_flat (htype : att.type ≠ Attribute.compound) (hvalue : att.value ≠ "") :
    att.isEmptyValue = false := by
  rw [isEmptyValue, if_neg fun h => htype h.1]
  exact decide_eq_false hvalue

lemma isEmptyValue_of_object (hobject : att.compoundAsObject = true) (hvalue : att.value ≠ "") :
    att.isEmptyValue = false := by
  rw [isEmptyValue, if_neg fun h => Bool.false_ne_true (h.2.symm.trans hobject)]
  exact decide_eq_false hvalue

lemma isEmptyValue_of_list (htype : att.type = Attribute.compound)
    (hobject : att.compoundAsObject = false) : att.isEmptyValue = att.valueCompound.isEmpty := by
  rw [isEmptyValue, if_pos ⟨htype, hobject⟩]

/-- The text that becomes the value of an attribute that is not compound. -/
def flatValue (write : Json → String) (type : String) (data : Json) : String :=
  if type = "command" ∧ data.isObject then write data
  else if data.getStrValue = "" then Attribute.emptyValue
  else data.getStrValue

lemma flatValue_ne_empty (hwrite : ∀ v, write v ≠ "") (type : String) (data : Json) :
    flatValue write type data ≠ "" := by
  have hempty : Attribute.emptyValue ≠ "" := by decide
  rw [flatValue]
  split_ifs
  · exact hwrite data
  · exact hempty
  · assumption

section OfValue

variable {hrendered : Text.renderIdentifier type = type}

/-- An attribute with a text. -/
def withText (name type value : String) (hrendered : Text.renderIdentifier type = type) :
    FullAttribute where
  name := name
  type := type
  value := value
  rendered := hrendered
  listed := fun hne => absurd rfl hne

/-- An attribute with a list of members. -/
def withMembers (name type : String) (members : List Attribute)
    (hrendered : Text.renderIdentifier type = type) (htype : type = Attribute.compound) :
    FullAttribute where
  name := name
  type := type
  value := ""
  valueCompound := members
  rendered := hrendered
  listed := fun _ => htype

/-- An attribute with an object. -/
def withObject (name type json : String) (hrendered : Text.renderIdentifier type = type) :
    FullAttribute where
  name := name
  type := type
  value := json
  compoundAsObject := true
  rendered := hrendered
  listed := fun hne => absurd rfl hne

lemma ofValue_of_flat (htype : type ≠ Attribute.compound) (data : Json) :
    ofValue write name type hrendered (some data) =
      .ok (withText name type (flatValue write type data) hrendered) := by
  rw [ofValue, dif_neg htype]
  dsimp only
  split
  · rfl
  · next hother =>
      have hno : ¬ (type = "command" ∧ data.isObject = true) := by
        rintro ⟨rfl, hobject⟩
        cases data with
        | object members => exact hother members hrendered htype rfl rfl HEq.rfl HEq.rfl
        | null | bool | number | string | array => cases hobject
      simp only [withText, flatValue, if_neg hno]

lemma ofValue_of_array (htype : type = Attribute.compound) (items : List Json) :
    ofValue write name type hrendered (some (.array items)) =
      (items.mapM textsOf).map fun members =>
        withMembers name type members hrendered htype := by
  rw [ofValue, dif_pos htype]
  rfl

lemma ofValue_of_object (htype : type = Attribute.compound) {data : Json}
    (hdata : ∀ items, data ≠ .array items) :
    ofValue write name type hrendered (some data) =
      .ok (withObject name type (write data) hrendered) := by
  rw [ofValue, dif_pos htype]
  cases data with
  | array items => exact absurd rfl (hdata items)
  | null | bool | number | string | object => rfl

lemma isEmptyValue_withMembers {members : List Attribute} {htype : type = Attribute.compound} :
    (withMembers name type members hrendered htype).isEmptyValue = members.isEmpty :=
  isEmptyValue_of_list htype rfl

/-- What is made of a value. -/
lemma ofValue_cases {value : Option Json}
    (hvalue : ofValue write name type hrendered value = .ok att) :
    (value = none ∧ att = withText name type "" hrendered) ∨
      (∃ htype : type = Attribute.compound, ∃ items members, value = some (.array items) ∧
        items.mapM textsOf = .ok members ∧ att = withMembers name type members hrendered htype) ∨
      (type = Attribute.compound ∧ ∃ data, value = some data ∧ (∀ items, data ≠ .array items) ∧
        att = withObject name type (write data) hrendered) ∨
      (type ≠ Attribute.compound ∧ ∃ data, value = some data ∧
        att = withText name type (flatValue write type data) hrendered) := by
  cases value with
  | none =>
      cases hvalue
      exact Or.inl ⟨rfl, rfl⟩
  | some data =>
      by_cases htype : type = Attribute.compound
      · cases data with
        | array items =>
            rw [ofValue_of_array htype] at hvalue
            cases hmem : items.mapM textsOf with
            | error e =>
                rw [hmem] at hvalue
                cases hvalue
            | ok members =>
                rw [hmem] at hvalue
                cases hvalue
                exact Or.inr (Or.inl ⟨htype, items, members, rfl, hmem, rfl⟩)
        | null | bool | number | string | object =>
            cases hvalue.symm.trans (ofValue_of_object htype (by simp))
            exact Or.inr (Or.inr (Or.inl ⟨htype, _, rfl, by simp, rfl⟩))
      · cases hvalue.symm.trans (ofValue_of_flat htype data)
        exact Or.inr (Or.inr (Or.inr ⟨htype, data, rfl, rfl⟩))

/-- Whether an attribute that is read has a value. -/
lemma isEmptyValue_ofValue (hwrite : ∀ v, write v ≠ "") {value : Option Json}
    (hvalue : ofValue write name type hrendered value = .ok att) :
    att.isEmptyValue = Json.lacksValue type value := by
  obtain ⟨rfl, rfl⟩ | ⟨htype, items, members, rfl, hmem, rfl⟩ | ⟨htype, data, rfl, hdata, rfl⟩ |
    ⟨htype, data, rfl, rfl⟩ := ofValue_cases hvalue
  · rw [isEmptyValue]
    split <;> rfl
  · rw [isEmptyValue_withMembers]
    cases Attempts.mapM_eq_ok_iff.mp hmem with
    | nil => exact (decide_eq_true htype).symm
    | cons _ _ => rfl
  · rw [isEmptyValue_of_object rfl (hwrite data)]
    cases data with
    | array items => exact absurd rfl (hdata items)
    | null | bool | number | string | object => rfl
  · have hflat : (withText name type (flatValue write type data) hrendered).isEmptyValue =
        false := isEmptyValue_of_flat htype (flatValue_ne_empty hwrite type data)
    rw [hflat]
    cases data with
    | array items =>
        cases items with
        | nil => exact (decide_eq_false htype).symm
        | cons item items => rfl
    | null | bool | number | string | object => rfl

end OfValue

/-! #### The constructor -/

lemma ofTypeAndValue_eq_ok_iff :
    ofTypeAndValue write name d = .ok att ↔ ∃ type, ∃ htype : typeOf d = .ok type,
      ofValue write name type (rendered_of_typeOf htype) (d.member "value") = .ok att := by
  constructor
  · intro hread
    rw [ofTypeAndValue] at hread
    split at hread
    · next type htype => exact ⟨type, htype, hread⟩
    · cases hread
  · rintro ⟨type, htype, hvalue⟩
    rw [ofTypeAndValue]
    split
    · next type' htype' =>
        cases htype.symm.trans htype'
        exact hvalue
    · next e he => cases htype.symm.trans he

/-- The reading of an object, whatever is made of the name, the type and the value. -/
def readWith (read : String → Except AttributeFailure FullAttribute) (d : Json) :
    Except AttributeFailure FullAttribute :=
  if (d.member "name").isSome then do
    let name ← textOf d "name"
    let att ← read name
    let metadatas ← metadatasOf d
    return { att with metadatas := metadatas }
  else .error (.runtimeError "Attribute: missing field [name]")

lemma readWith_eq_ok_iff {read : String → Except AttributeFailure FullAttribute} :
    readWith read d = .ok att ↔ ∃ name att' metadatas, textOf d "name" = .ok name ∧
      read name = .ok att' ∧ metadatasOf d = .ok metadatas ∧ att = { att' with metadatas } := by
  rw [readWith]
  constructor
  · intro hok
    split at hok
    · obtain ⟨name, hname, hok⟩ := Attempts.bind_eq_ok_iff.mp hok
      obtain ⟨att', hatt, hok⟩ := Attempts.bind_eq_ok_iff.mp hok
      obtain ⟨metadatas, hmeta, hok⟩ := Attempts.bind_eq_ok_iff.mp hok
      cases hok
      exact ⟨name, att', metadatas, hname, hatt, hmeta, rfl⟩
    · cases hok
  · rintro ⟨name, att', metadatas, hname, hatt, hmeta, rfl⟩
    have hsome : (d.member "name").isSome = true := by
      rw [textOf] at hname
      split at hname
      · next hmem => rw [hmem, Option.isSome_some]
      · cases hname
    rw [if_pos hsome, hname, Attempts.bind_eq_ok_iff]
    refine ⟨name, rfl, Attempts.bind_eq_ok_iff.mpr ⟨att', hatt, ?_⟩⟩
    exact Attempts.bind_eq_ok_iff.mpr ⟨metadatas, hmeta, rfl⟩

/-- What an attribute is that is read from an object. -/
lemma ofJson_eq_ok_iff {members : List (String × Json)} :
    ofJson write (.object members) = .ok att ↔
      ∃ name read metadatas, textOf (.object members) "name" = .ok name ∧
        ofTypeAndValue write (Text.renderIdentifier name) (.object members) = .ok read ∧
        metadatasOf (.object members) = .ok metadatas ∧ att = { read with metadatas } := by
  have hread : ofJson write (.object members) = readWith (fun name =>
      ofTypeAndValue write (Text.renderIdentifier name) (.object members)) (.object members) := by
    rw [ofJson, readWith]
  rw [hread, readWith_eq_ok_iff]

/-- The name is the one that is given, and there are no metadata yet. -/
lemma ofValue_name {hrendered : Text.renderIdentifier type = type} {value : Option Json}
    (hvalue : ofValue write name type hrendered value = .ok att) :
    att.name = name ∧ att.metadatas = [] := by
  obtain ⟨-, rfl⟩ | ⟨-, -, -, -, -, rfl⟩ | ⟨-, -, -, -, rfl⟩ | ⟨-, -, -, rfl⟩ :=
    ofValue_cases hvalue
  all_goals exact ⟨rfl, rfl⟩

/-- An attribute that is read has the name that its entry gives. -/
lemma name_of_ofJson (hread : ofJson write item = .ok att) : att.name = item.renderedName := by
  cases item with
  | null | bool | number | string | array => cases hread
  | object members =>
      obtain ⟨name, read, metadatas, hname, hatt, -, rfl⟩ := ofJson_eq_ok_iff.mp hread
      obtain ⟨type, htype, hvalue⟩ := ofTypeAndValue_eq_ok_iff.mp hatt
      exact (ofValue_name hvalue).1.trans (by rw [textOf_eq_ok hname, Json.renderedName])

/-- It has a value if its entry has one. -/
lemma isEmptyValue_of_ofJson (hwrite : ∀ v, write v ≠ "") (hread : ofJson write item = .ok att) :
    att.isEmptyValue = !item.hasValue := by
  cases item with
  | null | bool | number | string | array => cases hread
  | object members =>
      obtain ⟨name, read, metadatas, hname, hatt, -, rfl⟩ := ofJson_eq_ok_iff.mp hread
      obtain ⟨type, htype, hvalue⟩ := ofTypeAndValue_eq_ok_iff.mp hatt
      have hsame : ({ read with metadatas } : FullAttribute).isEmptyValue = read.isEmptyValue :=
        rfl
      rw [hsame, Json.hasValue, Bool.not_not, ← typeOf_eq_ok htype]
      exact isEmptyValue_ofValue hwrite hvalue

end FullAttribute

/-! ### No entry is lost -/

section Complete

variable {lib : JsonLib} {e e' : EnvElement} {item entry d : Json} {items : List Json}

namespace EnvElement

/-- What one entry adds to an element without mappings. -/
lemma addItem_eq_ok (hwrite : ∀ v, lib.write v ≠ "") (hplain : e.Plain)
    (hadd : addItem lib e item = .ok e') :
    e'.Plain ∧ e'.attributes.map (·.name) =
      e.attributes.map (·.name) ++ ([item].filter Json.hasValue).map Json.renderedName := by
  rw [addItem] at hadd
  cases hread : FullAttribute.ofJson lib.write item with
  | error failure =>
      rw [hread] at hadd
      cases hadd
  | ok att =>
      have hname := FullAttribute.name_of_ofJson hread
      have hempty := FullAttribute.isEmptyValue_of_ofJson hwrite hread
      rw [hread] at hadd
      have hadd' : e.add lib att = .ok e' := hadd
      rw [add_of_plain hplain, FullAttribute.isEmptyValue_withDefaultType, hempty] at hadd'
      cases hvalue : item.hasValue with
      | true =>
          rw [hvalue] at hadd'
          cases hadd'
          refine ⟨hplain.push _, ?_⟩
          simp [push, hvalue, hname]
      | false =>
          rw [hvalue] at hadd'
          cases hadd'
          exact ⟨hplain, by simp [hvalue]⟩

/-- The attributes after the entries of an array: those with a value, in order. -/
lemma foldlM_addItem (hwrite : ∀ v, lib.write v ≠ "") (hplain : e.Plain)
    (hadd : items.foldlM (addItem lib) e = .ok e') :
    e'.attributes.map (·.name) =
      e.attributes.map (·.name) ++ (items.filter Json.hasValue).map Json.renderedName := by
  induction items generalizing e with
  | nil =>
      cases hadd
      simp
  | cons item items ih =>
      rw [List.foldlM_cons] at hadd
      obtain ⟨e₁, hitem, hrest⟩ := Attempts.bind_eq_ok_iff.mp hadd
      obtain ⟨hplain₁, hnames⟩ := addItem_eq_ok hwrite hplain hitem
      rw [ih hplain₁ hrest, hnames, List.append_assoc, ← List.map_append, ← List.filter_append,
        List.singleton_append]

/-- The attributes of an element that is read: an entry without a value has none. -/
theorem attributes_of_ofJson (hwrite : ∀ v, lib.write v ≠ "")
    (hread : ofJson lib entry = .ok e) : e.attributes.map (·.name) =
      ((entry.itemsAt "attributes").filter Json.hasValue).map Json.renderedName := by
  cases entry with
  | null | bool | number | string | array => cases hread
  | object members =>
      have hread' : ofObject lib (.object members) = .ok e := hread
      rw [ofObject] at hread'
      split at hread'
      · exact foldlM_addItem hwrite (plain_ofTexts _ _ _) hread'
      · cases hread'

end EnvElement

namespace Ngsi.UpdateContext

variable {u : UpdateContext}

/-- An update has an element for each entry of its text, and that has an attribute for each of
its entries, in order and of the name that is asked for. -/
def Complete (named : Json → String) (d : Json) (u : UpdateContext) : Prop :=
  List.Forall₂ (fun entry e =>
      e.attributes.map (·.name) = (entry.itemsAt "attributes").map named)
    (d.itemsAt "contextElements") u.contextElements

/-- The elements of an update that is read, one for each entry. -/
lemma forall₂_of_ofObject (hread : ofObject lib d = .ok u) :
    List.Forall₂ (fun entry e => EnvElement.ofJson lib entry = .ok e)
      (d.itemsAt "contextElements") u.contextElements := by
  rw [ofObject] at hread
  split at hread
  · obtain ⟨action, -, hread⟩ := Attempts.bind_eq_ok_iff.mp hread
    split at hread
    · next items hitems =>
        obtain ⟨es, hes, hread⟩ := Attempts.bind_eq_ok_iff.mp hread
        cases hread
        rw [Json.itemsAt, hitems]
        exact Attempts.mapM_eq_ok_iff.mp hes
    · cases hread
    · cases hread
  · cases hread

/-- All entries for attributes meet a condition. -/
def EachEntry (p : Json → Prop) (d : Json) : Prop :=
  ∀ entry ∈ d.itemsAt "contextElements", ∀ item ∈ entry.itemsAt "attributes", p item

/-- A filter loses nothing when every item meets its condition. -/
lemma map_filter_eq_map_iff {α β : Type} {p : α → Bool} {f g : α → β} {l : List α} :
    (l.filter p).map f = l.map g ↔ ∀ a ∈ l, p a = true ∧ f a = g a := by
  constructor
  · intro heq
    have hlength : (l.filter p).length = l.length := by
      have hmaps := congrArg List.length heq
      rwa [List.length_map, List.length_map] at hmaps
    have hall := List.length_filter_eq_length_iff.mp hlength
    rw [List.filter_eq_self.mpr hall, List.map_inj_left] at heq
    exact fun a ha => ⟨hall a ha, heq a ha⟩
  · intro hall
    rw [List.filter_eq_self.mpr fun a ha => (hall a ha).1, List.map_inj_left]
    exact fun a ha => (hall a ha).2

/-- A condition on both lists that comes to one on the first. -/
lemma forall₂_iff_forall {α β : Type} {R Q : α → β → Prop} {p : α → Prop} {l : List α}
    {r : List β} (hl : List.Forall₂ R l r) (hR : ∀ a b, R a b → (Q a b ↔ p a)) :
    List.Forall₂ Q l r ↔ ∀ a ∈ l, p a := by
  induction hl with
  | nil => simp
  | cons hab _ ih => rw [List.forall₂_cons, List.forall_mem_cons, hR _ _ hab, ih]

lemma complete_iff_eachEntry (hwrite : ∀ v, lib.write v ≠ "") (hread : ofObject lib d = .ok u)
    (named : Json → String) : Complete named d u ↔
      EachEntry (fun item => item.hasValue = true ∧ item.renderedName = named item) d :=
  forall₂_iff_forall (forall₂_of_ofObject hread) fun _ _ hentry => by
    rw [EnvElement.attributes_of_ofJson hwrite hentry, map_filter_eq_map_iff]

/-- **The entries of an update**: an update that is read has an attribute for each of them, of
the name that is made of the name in the text, exactly when each has a value; and of the very
name in the text exactly when moreover each name is an identifier. -/
theorem complete_iff (hwrite : ∀ v, lib.write v ≠ "") {text : String}
    (hparse : lib.parse text = some d) (hread : ofText lib text = .ok u) :
    (Complete Json.renderedName d u ↔ EachEntry (fun item => item.hasValue = true) d) ∧
      (Complete Json.nameOf d u ↔
        EachEntry (fun item => item.hasValue = true ∧ item.renderedName = item.nameOf) d) := by
  have hread' : ofObject lib d = .ok u := by
    rw [ofText, Json.readText, hparse] at hread
    cases d with
    | null | bool | number | string | array => cases hread
    | object members => exact hread
  rw [complete_iff_eachEntry hwrite hread', complete_iff_eachEntry hwrite hread']
  refine ⟨?_, Iff.rfl⟩
  simp only [and_true]

end Ngsi.UpdateContext

end Complete

/-! ### A command without a value -/

namespace Ngsi.UpdateContext

/-- The request for an attribute, as it is parsed. -/
def requestFor (item : Json) : Json :=
  .object [("updateAction", .string "UPDATE"), ("contextElements", .array [.object
    [("id", .string "dev1"), ("type", .string "thing"), ("attributes", .array [item])]])]

/-- A command `ping` without a value. -/
def pingAlone : Json :=
  .object [("name", .string "ping"), ("type", .string "command")]

def pingAloneText : String :=
  "\x7b\"updateAction\":\"UPDATE\",\"contextElements\":[\x7b\"id\":\"dev1\"," ++
    "\"type\":\"thing\",\"attributes\":[\x7b\"name\":\"ping\",\"type\":\"command\"\x7d]\x7d]\x7d"

/-- The same with a value. -/
def pingFull : Json :=
  .object [("name", .string "ping"), ("type", .string "command"), ("value", .string "22")]

def pingFullText : String :=
  "\x7b\"updateAction\":\"UPDATE\",\"contextElements\":[\x7b\"id\":\"dev1\"," ++
    "\"type\":\"thing\",\"attributes\":[\x7b\"name\":\"ping\",\"type\":\"command\"," ++
    "\"value\":\"22\"\x7d]\x7d]\x7d"

/-- The two requests, read. -/
def pingLib : JsonLib where
  parse text :=
    if text = pingAloneText then some (requestFor pingAlone)
    else if text = pingFullText then some (requestFor pingFull)
    else none
  write _ := "\x7b\x7d"

lemma pingLib_write {v : Json} : pingLib.write v ≠ "" := by
  have hne : "\x7b\x7d" ≠ "" := by decide
  exact hne

/-- What is read of a request with the attributes given. -/
def readPing (attributes : List FullAttribute) : UpdateContext where
  action := "UPDATE"
  contextElements := [{ EnvElement.ofTexts "dev1" "thing" "" with attributes }]

/-- The command without a value is lost. -/
theorem not_complete_pingAlone :
    pingLib.parse pingAloneText = some (requestFor pingAlone) ∧
      ofText pingLib pingAloneText = .ok (readPing []) ∧
      ¬ Complete Json.renderedName (requestFor pingAlone) (readPing []) ∧
      ¬ Complete Json.nameOf (requestFor pingAlone) (readPing []) := by
  refine ⟨rfl, rfl, ?_, ?_⟩
  · rintro (_ | ⟨hnames, _⟩)
    cases hnames
  · rintro (_ | ⟨hnames, _⟩)
    cases hnames

/-- The command with a value is not. -/
theorem complete_pingFull :
    Complete Json.nameOf (requestFor pingFull)
      (readPing [FullAttribute.ofTexts "ping" "command" "22"]) := by
  have hwrite : ∀ v, pingLib.write v ≠ "" := fun _ => pingLib_write
  have hparse : pingLib.parse pingFullText = some (requestFor pingFull) := by rfl
  have hread : ofText pingLib pingFullText =
      .ok (readPing [FullAttribute.ofTexts "ping" "command" "22"]) := by rfl
  refine (complete_iff hwrite hparse hread).2.mpr ?_
  intro entry hentry item hitem
  obtain rfl := List.mem_singleton.mp hentry
  obtain rfl := List.mem_singleton.mp hitem
  decide

end Ngsi.UpdateContext

end IotAgent
