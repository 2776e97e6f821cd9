import IotAgent.Ngsi.UpdateContext

/-!
Measures under a mapping.

A mapping renames an attribute on its way to the context broker and may give it a type and more
metadata. The attribute is built anew under its new name, and goes through the test for an empty
value a second time.

* `content`: the value of an attribute, in the shape that its type asks for;
* `Shaped`: an attribute with a value in one of these shapes;
* `KeptAs`: one attribute carries the measure of another, as a mapping has it;
* `keeps_iff`: exactly when a measure comes through its mapping.
-/

namespace IotAgent

namespace FullAttribute

/-- The value of an attribute: a text, a list of members, or an object. -/
inductive Value where
  | text (value : String)
  | list (members : List Attribute)
  | object (json : String)

variable {attr att : FullAttribute}

/-- The value of an attribute. -/
def content (att : FullAttribute) : Value :=
  if att.type = Attribute.compound then
    if att.compoundAsObject then .object att.value else .list att.valueCompound
  else .text att.value

/-- An attribute with a value: a text, a list with members, or an object. -/
inductive Shaped (att : FullAttribute) : Prop
  | simple : att.type ≠ Attribute.compound → att.value ≠ "" → Shaped att
  | list : att.type = Attribute.compound → att.compoundAsObject = false →
      att.valueCompound ≠ [] → Shaped att
  | object : att.type = Attribute.compound → att.compoundAsObject = true → att.value ≠ "" →
      att.valueCompound = [] → Shaped att

lemma content_of_simple (htype : att.type ≠ Attribute.compound) :
    att.content = .text att.value := by
  rw [content, if_neg htype]

lemma content_of_list (htype : att.type = Attribute.compound)
    (hobject : att.compoundAsObject = false) : att.content = .list att.valueCompound := by
  rw [content, if_pos htype, if_neg (by simp [hobject])]

lemma content_of_object (htype : att.type = Attribute.compound)
    (hobject : att.compoundAsObject = true) : att.content = .object att.value := by
  rw [content, if_pos htype, if_pos hobject]

/-- An attribute of a shape has a value. -/
lemma Shaped.isEmptyValue (hshaped : att.Shaped) : att.isEmptyValue = false := by
  cases hshaped with
  | simple htype hvalue => exact isEmptyValue_of_flat htype hvalue
  | list htype hobject hne =>
      rw [isEmptyValue_of_list htype hobject]
      exact List.isEmpty_eq_false_iff.mpr hne
  | object htype hobject hvalue => exact isEmptyValue_of_object hobject hvalue

/-! ### What a mapping makes of the value -/

/-- The metadata that coordinates get. -/
def locationOf (type : String) : List Attribute :=
  if type = StoreTypes.coords then [Attribute.ofTexts "location" "string" "WGS84"] else []

/-- The value of a mapped attribute: the text of coordinates has commas. -/
def contentUnder (type : String) : Value → Value
  | .text value =>
      .text (if type = StoreTypes.coords then Text.replaceAll value '/' ',' else value)
  | content => content

lemma handValue_metadatas (m : FullAttribute) :
    (attr.handValue m).metadatas = m.metadatas ++ locationOf m.type := by
  rw [handValue]
  by_cases hm : m.type = Attribute.compound
  · have hcoords : m.type ≠ StoreTypes.coords := by
      rw [hm]
      decide
    rw [dif_pos hm, locationOf, if_neg hcoords, List.append_nil]
    split <;> rfl
  · rw [dif_neg hm, locationOf]
    split
    · rfl
    · exact (List.append_nil _).symm

/-- The metadata of the mapped attribute, in order. -/
lemma mapped_metadatas : (attr.mapped att).metadatas =
    locationOf (attr.mappedType att) ++ attr.metadatas ++ att.metadatas := by
  have hhand : (attr.handValue (attr.fresh att)).metadatas = locationOf (attr.mappedType att) := by
    rw [handValue_metadatas, EnvElement.fresh_type]
    rfl
  rw [← hhand]
  rfl

/-- The value of the mapped attribute, if it is handed on. -/
lemma mapped_content (hshaped : attr.Shaped)
    (hobject : attr.type = Attribute.compound → attr.compoundAsObject = false)
    (hlist : att.type = Attribute.compound → attr.type = Attribute.compound) :
    (attr.mapped att).content = contentUnder (attr.mappedType att) attr.content ∧
      (attr.mapped att).isEmptyValue = false := by
  by_cases hattr : attr.type = Attribute.compound
  · have htype : attr.mappedType att = Attribute.compound :=
      EnvElement.mappedType_eq_compound_iff.mpr (Or.inl hattr)
    obtain ⟨hobject', hmembers⟩ := EnvElement.mapped_of_compound htype
    have htype' : (attr.mapped att).type = Attribute.compound :=
      EnvElement.mapped_type.trans htype
    rw [if_pos (hobject hattr)] at hmembers
    refine ⟨?_, ?_⟩
    · rw [content_of_list htype' hobject', hmembers, content_of_list hattr (hobject hattr)]
      rfl
    · rw [isEmptyValue_of_list htype' hobject', hmembers]
      have hne := hshaped.isEmptyValue
      rwa [isEmptyValue_of_list hattr (hobject hattr)] at hne
  · have hatt : att.type ≠ Attribute.compound := fun h => hattr (hlist h)
    have htype := EnvElement.mappedType_ne_compound hattr hatt
    have htype' : (attr.mapped att).type ≠ Attribute.compound :=
      EnvElement.mapped_type.trans_ne htype
    have hvalue : attr.value ≠ "" := by
      cases hshaped with
      | simple _ hvalue => exact hvalue
      | list h => exact absurd h hattr
      | object h => exact absurd h hattr
    refine ⟨?_, isEmptyValue_of_flat htype' (EnvElement.mapped_of_flat htype hvalue)⟩
    rw [content_of_simple htype', content_of_simple hattr, EnvElement.mapped_value htype]
    rfl

/-- Otherwise nothing is left of it. -/
lemma mapped_isEmptyValue
    (hlost : ¬ ((attr.type = Attribute.compound → attr.compoundAsObject = false) ∧
      (att.type = Attribute.compound → attr.type = Attribute.compound))) :
    (attr.mapped att).isEmptyValue = true := by
  by_cases hattr : attr.type = Attribute.compound
  · refine EnvElement.mapped_isEmptyValue_of_object
      (EnvElement.mappedType_eq_compound_iff.mpr (Or.inl hattr)) fun hobject => ?_
    exact absurd ⟨fun _ => hobject, fun _ => hattr⟩ hlost
  · by_cases hatt : att.type = Attribute.compound
    · exact EnvElement.mapped_isEmptyValue_of_flat hattr hatt
    · exact absurd ⟨fun h => absurd h hattr, fun h => absurd h hatt⟩ hlost

end FullAttribute

/-! ### The default type -/

namespace FullAttribute

variable {attr att : FullAttribute}

lemma shaped_withDefaultType (hshaped : attr.Shaped) : attr.withDefaultType.Shaped := by
  rw [withDefaultType]
  split
  · next htype =>
      have hempty : attr.type ≠ Attribute.compound := by
        rw [htype]
        decide
      have hstring : "string" ≠ Attribute.compound := by decide
      cases hshaped with
      | simple _ hvalue => exact .simple hstring hvalue
      | list h => exact absurd h hempty
      | object h => exact absurd h hempty
  · exact hshaped

lemma content_withDefaultType : attr.withDefaultType.content = attr.content := by
  rw [withDefaultType]
  split
  · next htype =>
      have hempty : attr.type ≠ Attribute.compound := by
        rw [htype]
        decide
      have hstring : "string" ≠ Attribute.compound := by decide
      rw [content_of_simple hempty]
      exact content_of_simple hstring
  · rfl

@[simp] lemma withDefaultType_metadatas : attr.withDefaultType.metadatas = attr.metadatas := by
  rw [withDefaultType]
  split <;> rfl

@[simp] lemma withDefaultType_compoundAsObject :
    attr.withDefaultType.compoundAsObject = attr.compoundAsObject := by
  rw [withDefaultType]
  split <;> rfl

lemma withDefaultType_type_eq_compound_iff :
    attr.withDefaultType.type = Attribute.compound ↔ attr.type = Attribute.compound := by
  have hsame : EnvElement.isCompound attr.withDefaultType = EnvElement.isCompound attr :=
    EnvElement.isCompound_withDefaultType
  rwa [EnvElement.isCompound, EnvElement.isCompound, decide_eq_decide] at hsame

/-- A mapping chooses the same type. -/
lemma mappedType_withDefaultType :
    attr.withDefaultType.mappedType att = attr.mappedType att := by
  rw [withDefaultType]
  split
  · next htype =>
      have hempty : "" ≠ Attribute.compound := by decide
      have hstring : "string" ≠ Attribute.compound := by decide
      rw [mappedType, mappedType, htype]
      by_cases hatt : att.type = ""
      · simp [hatt]
      · simp [hatt, hempty, hstring]
  · rfl

end FullAttribute

/-! ### A measure under its mapping -/

namespace EnvElement

open FullAttribute

variable {lib : JsonLib} {e : EnvElement} {attr att : FullAttribute}

/-- The mapping of a name, if there is one and it can be read. -/
def mappingAt (lib : JsonLib) (e : EnvElement) (name : String) : Option FullAttribute :=
  match e.mapping lib name with
  | .mapsTo att => some att
  | _ => none

/-- An attribute carries the measure of another under a mapping: its name is the one of the
mapping, its value the same and its metadata those of the measure and then of the mapping. -/
structure KeptAs (attr : FullAttribute) (att? : Option FullAttribute) (att' : FullAttribute) :
    Prop where
  name : att'.name = (att?.map (·.name)).getD attr.name
  content : att'.content = (att?.map fun att =>
    contentUnder (attr.mappedType att) attr.content).getD attr.content
  metadatas : att'.metadatas = (att?.map fun att =>
    locationOf (attr.mappedType att) ++ attr.metadatas ++ att.metadatas).getD attr.metadatas

/-- `add_attribute` adds exactly one attribute, which carries the measure. -/
def Keeps (lib : JsonLib) (e : EnvElement) (attr : FullAttribute) : Prop :=
  ∃ att', e.add lib attr = .ok (e.push att') ∧ KeptAs attr (e.mappingAt lib attr.name) att'

/-- No name that a mapping gives has a mapping itself. -/
def Unchained (lib : JsonLib) (e : EnvElement) : Prop :=
  ∀ name att, e.mapping lib name = .mapsTo att →
    e.attrMapping (Attribute.renderName att.name) = ""

/-- The mapping that an attribute meets lets its value through: it has a name, the value is not
an object, and the mapping makes it compound only if it is so already. -/
structure Passes (attr att : FullAttribute) : Prop where
  named : att.name ≠ ""
  noObject : attr.type = Attribute.compound → attr.compoundAsObject = false
  noNewList : att.type = Attribute.compound → attr.type = Attribute.compound

lemma mappingAt_of_absent (hmap : e.mapping lib attr.name = .absent) :
    e.mappingAt lib attr.name = none := by
  rw [mappingAt, hmap]

lemma mapping_eq_absent_iff {name : String} :
    e.mapping lib name = .absent ↔ e.attrMapping name = "" := by
  constructor
  · intro hmap
    by_contra hne
    rw [mapping, if_neg hne] at hmap
    split at hmap
    · cases hmap
    · split at hmap <;> cases hmap
  · intro hnone
    rw [mapping, if_pos hnone]

/-- Under a mapping that leads to no other the attribute is added if its value is left. -/
lemma add_of_mapsTo (hshaped : attr.Shaped) (hunchained : e.Unchained lib)
    (hmap : e.mapping lib attr.name = .mapsTo att) :
    e.add lib attr = .ok (if (attr.withDefaultType.mapped att).isEmptyValue then e
      else e.push (attr.withDefaultType.mapped att)) := by
  have hvalue : attr.withDefaultType.isEmptyValue = false :=
    isEmptyValue_withDefaultType.trans hshaped.isEmptyValue
  have hmap' : e.mapping lib (attr.withDefaultType.mapped att).name = .absent := by
    rw [mapped_name, mapping_eq_absent_iff]
    exact hunchained attr.name att hmap
  obtain ⟨n, hn⟩ := add_eq_ok_iff.mp (add_of_absent hmap')
  rw [mapped_withDefaultType] at hn
  exact add_eq_ok_iff.mpr ⟨n + 1, (addAttribute_of_mapping hvalue hmap).trans hn⟩

/-- The name that a mapping gives is an identifier. -/
lemma renderIdentifier_name (hmap : e.mapping lib attr.name = .mapsTo att) :
    Text.renderIdentifier att.name = att.name := by
  rw [mapping] at hmap
  split at hmap
  · cases hmap
  · split at hmap
    · cases hmap
    · split at hmap
      · cases hmap
      · next hread =>
          cases hmap
          rw [name_of_ofJson hread, Json.renderedName, Text.renderIdentifier_renderIdentifier]

lemma push_ne_self : e ≠ e.push att := by
  intro heq
  have hlength := congrArg (fun e => e.attributes.length) heq
  simp [push] at hlength

lemma not_keeps_of_ok (hadd : e.add lib attr = .ok e) : ¬ Keeps lib e attr := by
  rintro ⟨att', hok, -⟩
  rw [hadd, Except.ok.injEq] at hok
  exact push_ne_self hok

/-- Under a mapping the measure is kept exactly when the mapping lets it through. -/
lemma keeps_of_mapsTo (hshaped : attr.Shaped) (hunchained : e.Unchained lib)
    (hmap : e.mapping lib attr.name = .mapsTo att) : Keeps lib e attr ↔ Passes attr att := by
  have hadd := add_of_mapsTo hshaped hunchained hmap
  have hat : e.mappingAt lib attr.name = some att := by rw [mappingAt, hmap]
  have hspace : Attribute.emptyValue ≠ "" := by decide
  by_cases hpass : (attr.type = Attribute.compound → attr.compoundAsObject = false) ∧
      (att.type = Attribute.compound → attr.type = Attribute.compound)
  · -- the value is handed on, so it is the name that decides
    obtain ⟨hobject, hlist⟩ := hpass
    have hobject' : attr.withDefaultType.type = Attribute.compound →
        attr.withDefaultType.compoundAsObject = false := by
      rwa [withDefaultType_type_eq_compound_iff, withDefaultType_compoundAsObject]
    have hlist' : att.type = Attribute.compound →
        attr.withDefaultType.type = Attribute.compound := by
      rwa [withDefaultType_type_eq_compound_iff]
    obtain ⟨hcontent, hne⟩ := mapped_content (shaped_withDefaultType hshaped) hobject' hlist'
    rw [mappedType_withDefaultType, content_withDefaultType] at hcontent
    rw [hne, if_neg Bool.false_ne_true] at hadd
    constructor
    · rintro ⟨att', hok, hkept⟩
      refine ⟨fun hnil => ?_, hobject, hlist⟩
      rw [hadd, Except.ok.injEq, push, push, EnvElement.mk.injEq] at hok
      have hsame : attr.withDefaultType.mapped att = att' := by
        simpa using hok.2.2.2.1
      have hname := hkept.name
      rw [hat, ← hsame, mapped_name, Attribute.renderName, if_pos hnil] at hname
      exact hspace (hname.trans hnil)
    · intro hpasses
      refine ⟨_, hadd, ?_, ?_, ?_⟩
      · rw [hat, mapped_name, Attribute.renderName, if_neg hpasses.named,
          renderIdentifier_name hmap]
        rfl
      · rw [hat]
        exact hcontent
      · rw [hat, mapped_metadatas, mappedType_withDefaultType, withDefaultType_metadatas]
        rfl
  · have hempty : (attr.withDefaultType.mapped att).isEmptyValue = true := by
      refine mapped_isEmptyValue ?_
      rwa [withDefaultType_type_eq_compound_iff, withDefaultType_compoundAsObject]
    rw [hempty, if_pos rfl] at hadd
    exact iff_of_false (not_keeps_of_ok hadd) fun h => hpass ⟨h.noObject, h.noNewList⟩

/-- **A measure under its mapping** comes to the element, once and unchanged but for its name,
exactly when there is no mapping of its name or one that can be read and lets it through. -/
theorem keeps_iff (hshaped : attr.Shaped) (hunchained : e.Unchained lib) :
    Keeps lib e attr ↔ e.attrMapping attr.name = "" ∨
      ∃ att, e.mapping lib attr.name = .mapsTo att ∧ Passes attr att := by
  have hvalue : attr.withDefaultType.isEmptyValue = false :=
    isEmptyValue_withDefaultType.trans hshaped.isEmptyValue
  have habsent : e.attrMapping attr.name = "" ↔ e.mapping lib attr.name = .absent :=
    mapping_eq_absent_iff.symm
  rw [habsent]
  cases hmap : e.mapping lib attr.name with
  | absent =>
      have hadd : e.add lib attr = .ok (e.push attr.withDefaultType) := by
        rw [add_of_absent hmap, hvalue, if_neg Bool.false_ne_true]
      refine iff_of_true ⟨_, hadd, ?_⟩ (Or.inl rfl)
      rw [mappingAt_of_absent hmap]
      exact ⟨withDefaultType_name, content_withDefaultType, withDefaultType_metadatas⟩
  | unreadable =>
      have hadd : e.add lib attr = .ok e := by
        refine add_eq_ok_iff.mpr ⟨1, ?_⟩
        rw [addAttribute, hvalue, if_neg Bool.false_ne_true, withDefaultType_name, hmap]
      simpa using not_keeps_of_ok hadd
  | failure failure =>
      have hnot : ¬ Keeps lib e attr := by
        rintro ⟨att', hok, -⟩
        obtain ⟨n, hn⟩ := add_eq_ok_iff.mp hok
        cases n with
        | zero => cases hn
        | succ n =>
            rw [addAttribute, hvalue, if_neg Bool.false_ne_true, withDefaultType_name, hmap] at hn
            cases hn
      simpa using hnot
  | mapsTo att => simpa using keeps_of_mapsTo hshaped hunchained hmap

/-! ### A position that gets lost -/

/-- A mapping of `t` to another name. -/
def renamingText : String :=
  "\x7b\"object_id\":\"t\",\"name\":\"temperature\",\"type\":\"string\"\x7d"

def renamingDoc : Json :=
  .object [("object_id", .string "t"), ("name", .string "temperature"), ("type", .string "string")]

/-- The mapping, read. -/
def renamingLib : JsonLib where
  parse text := if text = renamingText then some renamingDoc else none
  write _ := ""

/-- An element of a device with the mapping. -/
def renamed : EnvElement where
  id := "room1"
  type := "thing"
  isPattern := "false"
  attributes := []
  deviceInfo := some { Device.ofName "dev1" "service" with attributes := [("t", renamingText)] }
  serviceInfo := ⟨[], [], []⟩

lemma rendered_string : Text.renderIdentifier "string" = "string" := by
  decide

/-- What the mapping is read as. -/
def temperature : FullAttribute where
  name := "temperature"
  type := "string"
  value := ""
  rendered := rendered_string
  listed := fun hne => absurd rfl hne

lemma attrMapping_renamed {name : String} (hname : name ≠ "t") : renamed.attrMapping name = "" := by
  refine attrMapping_of_notMem ?_ List.not_mem_nil
  rintro device hdevice hmem
  cases hdevice
  exact hname (List.mem_singleton.mp hmem)

lemma mapping_renamed : renamed.mapping renamingLib "t" = .mapsTo temperature := by
  rfl

lemma unchained_renamed : Unchained renamingLib renamed := by
  intro name att hmap
  by_cases hname : name = "t"
  · rw [hname, mapping_renamed, Mapping.mapsTo.injEq] at hmap
    rw [← hmap]
    exact attrMapping_renamed (by decide)
  · rw [mapping, if_pos (attrMapping_renamed hname)] at hmap
    cases hmap

/-- A compound attribute with an object. -/
def objectMeasure : FullAttribute where
  name := "t"
  type := Attribute.compound
  value := "\x7b\"celsius\":\"23\"\x7d"
  compoundAsObject := true
  rendered := by decide
  listed := fun hne => absurd rfl hne

/-- The measure is lost under the mapping. -/
theorem not_keeps_objectMeasure :
    objectMeasure.Shaped ∧ Unchained renamingLib renamed ∧
      renamed.add renamingLib objectMeasure = .ok renamed ∧
      ¬ Keeps renamingLib renamed objectMeasure := by
  have hadd : renamed.add renamingLib objectMeasure = .ok renamed := by rfl
  exact ⟨.object rfl rfl (by decide) rfl, unchained_renamed, hadd, not_keeps_of_ok hadd⟩

/-- A text is kept. -/
theorem keeps_textMeasure :
    Keeps renamingLib renamed (FullAttribute.ofTexts "t" "string" "23") := by
  refine (keeps_iff (.simple (by decide) (by decide)) unchained_renamed).mpr (Or.inr ?_)
  exact ⟨temperature, mapping_renamed, by decide, fun h => absurd h (by decide),
    fun h => absurd h (by decide)⟩

end EnvElement

end IotAgent
