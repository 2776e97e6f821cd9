import IotAgent.Lib.Chain
import IotAgent.Ngsi.Attribute

/-!
Attributes under the mappings of a device and its service.

`add_attribute` looks up the name of an attribute, first among the mappings of the device and
then among those of the service. If there is a mapping it calls itself with the attribute
that the mapping makes, whose name is looked up again. The mappings are what the users of the
administration have written.

* `EnvElement`: a context element with its device and its service;
* `mapping`, `mapped`: what is found under a name, and what is made of an attribute;
* `addAttribute`: `add_attribute`, with a bound on the depth of the calls;
* `Settles`: the calls come to an end, and at most one attribute is added;
* `settles_iff`: exactly when the mappings do not run in a cycle from the name of the
  attribute, or its value is lost on the way.
-/

namespace IotAgent

/-! ### The environment -/

/-- A mapping of a service: the name it is for, and its text as `write_json` writes it. -/
structure ServiceMapping where
  objectId : String
  json : String

/-- A static attribute of a service, and its text as `write_json` writes it. -/
structure ServiceStatic where
  name : String
  value : String
  json : String

/-- What an element needs of its service. -/
structure ServiceInfo where
  fields : PTree
  attributes : List ServiceMapping
  staticAttributes : List ServiceStatic

/-- A context element with its environment. -/
structure EnvElement where
  id : String
  type : String
  isPattern : String
  attributes : List FullAttribute
  deviceInfo : Option Device
  serviceInfo : ServiceInfo

/-- What is found under the name of an attr. -/
inductive Mapping where
  | absent
  | unreadable
  | failure (e : AttributeFailure)
  | mapsTo (att : FullAttribute)

namespace EnvElement

variable (lib : JsonLib) (e : EnvElement)

/-- The attribute comes to the end. -/
def push (attr : FullAttribute) : EnvElement :=
  { e with attributes := e.attributes ++ [attr] }

/-- The text of the mapping of a name, empty if there is none. A mapping of the device
comes first. -/
def attrMapping (name : String) : String :=
  let ofDevice :=
    match e.deviceInfo with
    | some device => device.getAttribute name
    | none => ""
  if ofDevice = "" then
    match e.serviceInfo.attributes.find? fun it => it.objectId = name ∧ it.json ≠ "" with
    | some it => it.json
    | none => ""
  else ofDevice

/-- What is found under a name. -/
def mapping (name : String) : Mapping :=
  if e.attrMapping name = "" then .absent
  else
    match lib.parse (e.attrMapping name) with
    | none => .unreadable
    | some d =>
        match FullAttribute.ofJson lib.write d with
        | .error e => .failure e
        | .ok att => .mapsTo att

end EnvElement

namespace FullAttribute

variable (attr att : FullAttribute)

/-- The type of the mapped attribute. -/
def mappedType : String :=
  let type := if att.type = "" ∨ attr.type = Attribute.compound then attr.type
    else att.type
  if type = "" then "string" else type

/-- The value of the attribute in the mapped one. -/
def handValue (mappedAttr : FullAttribute) : FullAttribute :=
  if htype : mappedAttr.type = Attribute.compound then
    if attr.compoundAsObject = false then
      { mappedAttr with valueCompound := attr.valueCompound, listed := fun _ => htype }
    else mappedAttr.setValue attr.value
  else if mappedAttr.type = StoreTypes.coords then
    (mappedAttr.setValue (Text.replaceAll attr.value '/' ',')).addMetadata
      (Attribute.ofTexts "location" "string" "WGS84")
  else mappedAttr.setValue attr.value

/-- What the mapped attribute is before it gets the value. -/
def fresh : FullAttribute :=
  ofTexts att.name (mappedType attr att) ""

/-- The attribute that a mapping makes of an attribute. -/
def mapped : FullAttribute :=
  ((handValue attr (fresh attr att)).addMetadatas attr.metadatas).addMetadatas att.metadatas

end FullAttribute

namespace EnvElement

/-- `add_attribute`, with at most `n` calls; `none` if they do not suffice. -/
def addAttribute (lib : JsonLib) (e : EnvElement) :
    ℕ → FullAttribute → Option (Except AttributeFailure EnvElement)
  | 0, _ => none
  | n + 1, attr =>
      let attr := attr.withDefaultType
      if attr.isEmptyValue then some (.ok e)
      else
        match e.mapping lib attr.name with
        | .absent => some (.ok (e.push attr))
        | .unreadable => some (.ok e)
        | .failure failure => some (.error failure)
        | .mapsTo att => addAttribute lib e n (attr.mapped att)

/-- The calls come to an end; if they do not throw, at most one attribute is added. -/
structure Settles (lib : JsonLib) (e : EnvElement) (attr : FullAttribute) : Prop where
  terminates : ∃ n, addAttribute lib e n attr ≠ none
  atMostOne : ∀ n e', addAttribute lib e n attr = some (.ok e') →
    e' = e ∨ ∃ att, e' = e.push att

/-- An attribute has a value that a mapping hands on: a text, or a list of members. -/
structure Kept (attr : FullAttribute) : Prop where
  list : attr.type = Attribute.compound →
    attr.compoundAsObject = false ∧ attr.valueCompound ≠ []
  text : attr.type ≠ Attribute.compound → attr.value ≠ ""

lemma kept_of_compound {attr : FullAttribute} (htype : attr.type = Attribute.compound) :
    Kept attr ↔ attr.compoundAsObject = false ∧ attr.valueCompound ≠ [] :=
  ⟨fun h => h.list htype, fun h => ⟨fun _ => h, fun hne => absurd htype hne⟩⟩

lemma kept_of_flat {attr : FullAttribute} (htype : attr.type ≠ Attribute.compound) :
    Kept attr ↔ attr.value ≠ "" :=
  ⟨fun h => h.text htype, fun h => ⟨fun heq => absurd heq htype, fun _ => h⟩⟩

/-- The name under which the mapping of a name looks on. A mapping to a compound type loses
the value of an attribute that is not compound, and the look-up stops. -/
def next (lib : JsonLib) (e : EnvElement) (compound : Bool) (name : String) : Option String :=
  match e.mapping lib name with
  | .mapsTo att =>
      if compound = false ∧ att.type = Attribute.compound then none
      else some (Attribute.renderName att.name)
  | _ => none

/-- Whether an attribute is compound. -/
def isCompound (attr : FullAttribute) : Bool :=
  attr.type = Attribute.compound

/-! ### The mapped attribute -/

section Mapped

variable {lib : JsonLib} {e : EnvElement} {attr att : FullAttribute}

lemma replaceAll_ne_empty {s : String} (hs : s ≠ "") (old new : Char) :
    Text.replaceAll s old new ≠ "" := by
  intro heq
  have hlist := congrArg String.toList heq
  rw [Text.replaceAll, String.toList_ofList, String.toList_empty, List.map_eq_nil_iff] at hlist
  exact hs (String.toList_inj.mp hlist)

lemma handValue_name (m : FullAttribute) : (attr.handValue m).name = m.name := by
  rw [FullAttribute.handValue]
  split
  · split <;> rfl
  · split <;> rfl

lemma handValue_type (m : FullAttribute) : (attr.handValue m).type = m.type := by
  rw [FullAttribute.handValue]
  split
  · split <;> rfl
  · split <;> rfl

/-- A list of members is handed on, and an object only as a text. -/
lemma handValue_of_compound {m : FullAttribute} (hm : m.type = Attribute.compound) :
    (attr.handValue m).compoundAsObject = m.compoundAsObject ∧
      (attr.handValue m).valueCompound =
        if attr.compoundAsObject = false then attr.valueCompound else m.valueCompound := by
  rw [FullAttribute.handValue, dif_pos hm]
  split <;> exact ⟨rfl, rfl⟩

/-- A text is handed on. -/
lemma handValue_of_flat {m : FullAttribute} (hm : m.type ≠ Attribute.compound)
    (hvalue : attr.value ≠ "") : (attr.handValue m).value ≠ "" := by
  rw [FullAttribute.handValue, dif_neg hm]
  split
  · exact replaceAll_ne_empty hvalue _ _
  · exact hvalue

lemma withString_ne_empty (type : String) : (if type = "" then "string" else type) ≠ "" := by
  have hstring : "string" ≠ "" := by decide
  split
  · exact hstring
  · assumption

lemma mappedType_ne_empty : attr.mappedType att ≠ "" :=
  withString_ne_empty _

/-- The type of the mapped attribute is an identifier already. -/
lemma mappedType_rendered : Text.renderIdentifier (attr.mappedType att) = attr.mappedType att := by
  have hrendered : ∀ type, Text.renderIdentifier type = type →
      Text.renderIdentifier (if type = "" then "string" else type)
        = if type = "" then "string" else type := by
    have hstring : Text.renderIdentifier "string" = "string" := by decide
    intro type htype
    split
    · exact hstring
    · exact htype
  refine hrendered _ ?_
  split
  · exact attr.rendered
  · exact att.rendered

/-- Compound attributes stay compound, and a mapping can make one compound. -/
lemma mappedType_eq_compound_iff : attr.mappedType att = Attribute.compound ↔
    attr.type = Attribute.compound ∨ att.type = Attribute.compound := by
  have hstring : "string" ≠ Attribute.compound := by decide
  have hempty : "" ≠ Attribute.compound := by decide
  have hdefault : ∀ type : String, (if type = "" then "string" else type) = Attribute.compound ↔
      type = Attribute.compound := by
    intro type
    split
    · next hnil => simp [hnil, hstring, hempty]
    · rfl
  refine (hdefault _).trans ?_
  by_cases hattr : attr.type = Attribute.compound
  · simp [hattr]
  by_cases hatt : att.type = ""
  · simp [hatt, hattr, hempty]
  · simp [hatt, hattr]

lemma mappedType_ne_compound (hattr : attr.type ≠ Attribute.compound)
    (hatt : att.type ≠ Attribute.compound) : attr.mappedType att ≠ Attribute.compound := by
  rw [ne_eq, mappedType_eq_compound_iff]
  exact not_or.mpr ⟨hattr, hatt⟩

lemma fresh_type : (attr.fresh att).type = attr.mappedType att :=
  mappedType_rendered

lemma mapped_name : (attr.mapped att).name = Attribute.renderName att.name := by
  rw [FullAttribute.mapped, FullAttribute.addMetadatas_toAttribute,
    FullAttribute.addMetadatas_toAttribute, handValue_name]
  rfl

lemma mapped_type : (attr.mapped att).type = attr.mappedType att := by
  rw [FullAttribute.mapped, FullAttribute.addMetadatas_toAttribute,
    FullAttribute.addMetadatas_toAttribute, handValue_type, fresh_type]

lemma mapped_of_compound (htype : attr.mappedType att = Attribute.compound) :
    (attr.mapped att).compoundAsObject = false ∧ (attr.mapped att).valueCompound =
      if attr.compoundAsObject = false then attr.valueCompound else [] := by
  simp only [FullAttribute.mapped, FullAttribute.addMetadatas_compoundAsObject,
    FullAttribute.addMetadatas_valueCompound]
  exact handValue_of_compound (fresh_type.trans htype)

lemma mapped_of_flat (htype : attr.mappedType att ≠ Attribute.compound)
    (hvalue : attr.value ≠ "") : (attr.mapped att).value ≠ "" := by
  rw [FullAttribute.mapped, FullAttribute.addMetadatas_toAttribute,
    FullAttribute.addMetadatas_toAttribute]
  exact handValue_of_flat (fun heq => htype (fresh_type.symm.trans heq)) hvalue

/-- A compound value that is an object is lost. -/
lemma mapped_isEmptyValue_of_object (htype : attr.mappedType att = Attribute.compound)
    (hlost : attr.compoundAsObject = false → attr.valueCompound = []) :
    (attr.mapped att).isEmptyValue = true := by
  obtain ⟨hobject, hlist⟩ := mapped_of_compound htype
  have htype' : (attr.mapped att).type = Attribute.compound := mapped_type.trans htype
  rw [FullAttribute.isEmptyValue, if_pos ⟨htype', hobject⟩, hlist]
  split
  · next h => rw [hlost h]; rfl
  · rfl

/-- A mapping that makes a text compound loses it. -/
lemma mapped_isEmptyValue_of_flat (hattr : attr.type ≠ Attribute.compound)
    (hatt : att.type = Attribute.compound) : (attr.mapped att).isEmptyValue = true := by
  have hlist : attr.valueCompound = [] := by
    by_contra hne
    exact hattr (attr.listed hne)
  exact mapped_isEmptyValue_of_object (mappedType_eq_compound_iff.mpr (Or.inr hatt)) fun _ => hlist

/-- What becomes of an attribute with a value: the mapping hands it on under the next name,
or it is lost. -/
lemma kept_mapped (hkept : Kept attr) (hmap : e.mapping lib attr.name = .mapsTo att) :
    (next lib e (isCompound attr) attr.name = none ∧ (attr.mapped att).isEmptyValue = true) ∨
    (next lib e (isCompound attr) attr.name = some (attr.mapped att).name ∧
      Kept (attr.mapped att) ∧ isCompound (attr.mapped att) = isCompound attr) := by
  rw [next, hmap, isCompound, isCompound, mapped_type, mapped_name]
  by_cases hattr : attr.type = Attribute.compound
  · -- a list of members
    have htype : attr.mappedType att = Attribute.compound :=
      mappedType_eq_compound_iff.mpr (Or.inl hattr)
    obtain ⟨hobject, hne⟩ := (kept_of_compound hattr).mp hkept
    obtain ⟨hobject', hlist⟩ := mapped_of_compound htype
    rw [if_pos hobject] at hlist
    have hkept' : Kept (attr.mapped att) :=
      (kept_of_compound (mapped_type.trans htype)).mpr ⟨hobject', by rwa [hlist]⟩
    simp [hattr, htype, hkept']
  · have hvalue := (kept_of_flat hattr).mp hkept
    by_cases hatt : att.type = Attribute.compound
    · exact Or.inl ⟨by simp [hattr, hatt], mapped_isEmptyValue_of_flat hattr hatt⟩
    · have htype := mappedType_ne_compound hattr hatt
      have hkept' : Kept (attr.mapped att) :=
        (kept_of_flat (mapped_type.trans_ne htype)).mpr (mapped_of_flat htype hvalue)
      simp [hattr, hatt, htype, hkept']

end Mapped

/-! ### The default type -/

section DefaultType

variable {attr : FullAttribute}

lemma withDefaultType_of_ne (htype : attr.type ≠ "") : attr.withDefaultType = attr := by
  rw [FullAttribute.withDefaultType, dif_neg htype]

@[simp] lemma withDefaultType_name : attr.withDefaultType.name = attr.name := by
  rw [FullAttribute.withDefaultType]
  split <;> rfl

lemma withDefaultType_type_ne : attr.withDefaultType.type ≠ "" := by
  have hstring : "string" ≠ "" := by decide
  rw [FullAttribute.withDefaultType]
  split
  · exact hstring
  · assumption

@[simp] lemma isCompound_withDefaultType : isCompound attr.withDefaultType = isCompound attr := by
  rw [FullAttribute.withDefaultType]
  split
  · next htype =>
      have hstring : decide ("string" = Attribute.compound) = decide ("" = Attribute.compound) := by
        decide
      rw [isCompound, isCompound, htype]
      exact hstring
  · rfl

@[simp] lemma kept_withDefaultType : Kept attr.withDefaultType ↔ Kept attr := by
  rw [FullAttribute.withDefaultType]
  split
  · next htype =>
      have hstring : "string" ≠ Attribute.compound := by decide
      have hempty : attr.type ≠ Attribute.compound := by
        rw [htype]
        decide
      rw [kept_of_flat hempty]
      exact kept_of_flat hstring
  · rfl

end DefaultType

/-! ### When the calls come to an end -/

section Settles

variable {lib : JsonLib} {e : EnvElement} {attr att : FullAttribute} {n : ℕ}

/-- An attribute with a value is not dropped. -/
lemma Kept.isEmptyValue (hkept : Kept attr) : attr.isEmptyValue = false := by
  rw [FullAttribute.isEmptyValue]
  by_cases htype : attr.type = Attribute.compound
  · obtain ⟨hobject, hne⟩ := (kept_of_compound htype).mp hkept
    rw [if_pos ⟨htype, hobject⟩]
    simpa using hne
  · rw [if_neg fun h => htype h.1]
    simpa using (kept_of_flat htype).mp hkept

lemma addAttribute_of_empty (hempty : attr.withDefaultType.isEmptyValue = true) :
    addAttribute lib e (n + 1) attr = some (.ok e) := by
  rw [addAttribute]
  simp only [hempty, if_true]

/-- A call that follows a mapping. -/
lemma addAttribute_of_mapping (hvalue : attr.withDefaultType.isEmptyValue = false)
    (hmap : e.mapping lib attr.name = .mapsTo att) :
    addAttribute lib e (n + 1) attr = addAttribute lib e n (attr.withDefaultType.mapped att) := by
  rw [addAttribute]
  simp only [hvalue, Bool.false_eq_true, if_false, withDefaultType_name, hmap]

/-- A call that makes no other. -/
lemma addAttribute_ne_none (hmap : ∀ att, e.mapping lib attr.name ≠ .mapsTo att) :
    addAttribute lib e (n + 1) attr ≠ none := by
  rw [addAttribute]
  simp only [withDefaultType_name]
  split
  · simp
  · cases hm : e.mapping lib attr.name with
    | mapsTo att => exact absurd hm (hmap att)
    | absent | unreadable | failure => simp

lemma next_of_not_to {k : Bool} {name : String} (hmap : ∀ att, e.mapping lib name ≠ .mapsTo att) :
    next lib e k name = none := by
  rw [next]
  cases hm : e.mapping lib name with
  | mapsTo att => exact absurd hm (hmap att)
  | absent | unreadable | failure => rfl

/-- The mapped attribute has a type already. -/
lemma mapped_withDefaultType : (attr.mapped att).withDefaultType = attr.mapped att :=
  withDefaultType_of_ne (by rw [mapped_type]; exact mappedType_ne_empty)

/-- What a call does with an attribute that has a value: it makes no other call, or the value
is lost in the next one, or that has an attribute with a value of the same kind. -/
lemma addAttribute_cases (lib : JsonLib) (e : EnvElement) (hkept : Kept attr) :
    (next lib e (isCompound attr) attr.name = none ∧ ∀ n, addAttribute lib e (n + 2) attr ≠ none) ∨
    ∃ attr', next lib e (isCompound attr) attr.name = some attr'.name ∧ Kept attr' ∧
      isCompound attr' = isCompound attr ∧
      ∀ n, addAttribute lib e (n + 1) attr = addAttribute lib e n attr' := by
  have hkept' : Kept attr.withDefaultType := kept_withDefaultType.mpr hkept
  by_cases hto : ∃ att, e.mapping lib attr.name = .mapsTo att
  · obtain ⟨att, hmap⟩ := hto
    have hstep : ∀ n, addAttribute lib e (n + 1) attr
        = addAttribute lib e n (attr.withDefaultType.mapped att) :=
      fun n => addAttribute_of_mapping hkept'.isEmptyValue hmap
    have hmap' : e.mapping lib attr.withDefaultType.name = .mapsTo att := by
      rw [withDefaultType_name, hmap]
    rcases kept_mapped hkept' hmap' with ⟨hnext, hempty⟩ | ⟨hnext, hkept'', hsame⟩
    · rw [withDefaultType_name, isCompound_withDefaultType] at hnext
      refine Or.inl ⟨hnext, fun n => ?_⟩
      rw [hstep, addAttribute_of_empty (by rw [mapped_withDefaultType, hempty])]
      simp
    · rw [withDefaultType_name, isCompound_withDefaultType] at hnext
      rw [isCompound_withDefaultType] at hsame
      exact Or.inr ⟨attr.withDefaultType.mapped att, hnext, hkept'', hsame, hstep⟩
  · push Not at hto
    exact Or.inl ⟨next_of_not_to hto, fun n => addAttribute_ne_none hto⟩

/-- With a value the calls come to an end as the chain of the mappings does. -/
lemma terminates_iff_ends (hkept : Kept attr) :
    (∃ n, addAttribute lib e n attr ≠ none) ↔
      Chain.Ends (next lib e (isCompound attr)) attr.name := by
  constructor
  · rintro ⟨n, hn⟩
    induction n generalizing attr with
    | zero => exact absurd rfl hn
    | succ n ih =>
        rcases addAttribute_cases lib e hkept with ⟨hnext, -⟩ | ⟨attr', hnext, hkept', hsame, hstep⟩
        · exact Chain.ends_of_none hnext
        · rw [hstep] at hn
          rw [Chain.ends_iff_of_step hnext, ← hsame]
          exact ih hkept' hn
  · intro hends
    have hall : ∀ attr' : FullAttribute, attr'.name = attr.name → Kept attr' →
        isCompound attr' = isCompound attr → ∃ n, addAttribute lib e n attr' ≠ none := by
      refine hends.induction (P := fun name => ∀ attr' : FullAttribute, attr'.name = name →
        Kept attr' → isCompound attr' = isCompound attr → ∃ n, addAttribute lib e n attr' ≠ none)
        ?_ ?_
      · intro name hnone attr' hname hkept' hsame
        rw [← hname, ← hsame] at hnone
        rcases addAttribute_cases lib e hkept' with ⟨-, hn⟩ | ⟨attr'', hnext, -⟩
        · exact ⟨2, hn 0⟩
        · rw [hnone] at hnext
          cases hnext
      · intro name name' hstep ih attr' hname hkept' hsame
        rw [← hname, ← hsame] at hstep
        rcases addAttribute_cases lib e hkept' with
          ⟨hnone, -⟩ | ⟨attr'', hnext, hkept'', hsame', hcall⟩
        · rw [hstep] at hnone
          cases hnone
        · rw [hstep, Option.some.injEq] at hnext
          obtain ⟨n, hn⟩ := ih attr'' hnext.symm hkept'' (hsame'.trans hsame)
          exact ⟨n + 1, by rwa [hcall]⟩
    exact hall attr rfl hkept rfl

/-- Without a value to hand on there are two calls at most. -/
lemma addAttribute_of_not_kept (hkept : ¬ Kept attr) (n : ℕ) :
    addAttribute lib e (n + 2) attr ≠ none := by
  rw [← kept_withDefaultType] at hkept
  cases hvalue : attr.withDefaultType.isEmptyValue with
  | true => rw [addAttribute_of_empty hvalue]; simp
  | false =>
      by_cases hto : ∃ att, e.mapping lib attr.name = .mapsTo att
      · obtain ⟨att, hmap⟩ := hto
        -- a value, but none that is kept: an object of a compound attribute
        have hobject : attr.withDefaultType.type = Attribute.compound ∧
            attr.withDefaultType.compoundAsObject ≠ false := by
          rw [FullAttribute.isEmptyValue] at hvalue
          by_cases htype : attr.withDefaultType.type = Attribute.compound
          · refine ⟨htype, fun hobject => hkept ?_⟩
            rw [if_pos ⟨htype, hobject⟩] at hvalue
            exact (kept_of_compound htype).mpr ⟨hobject, by simpa using hvalue⟩
          · rw [if_neg fun h => htype h.1] at hvalue
            exact absurd ((kept_of_flat htype).mpr (by simpa using hvalue)) hkept
        have hempty : (attr.withDefaultType.mapped att).isEmptyValue = true :=
          mapped_isEmptyValue_of_object (mappedType_eq_compound_iff.mpr (Or.inl hobject.1))
            fun h => absurd h hobject.2
        rw [addAttribute_of_mapping hvalue hmap,
          addAttribute_of_empty (by rw [mapped_withDefaultType, hempty])]
        simp
      · push Not at hto
        exact addAttribute_ne_none hto

/-- At most one attribute comes to the element. -/
lemma addAttribute_atMostOne {e' : EnvElement} (hok : addAttribute lib e n attr = some (.ok e')) :
    e' = e ∨ ∃ att, e' = e.push att := by
  induction n generalizing attr with
  | zero => cases hok
  | succ n ih =>
      rw [addAttribute] at hok
      split at hok
      · cases hok
        exact Or.inl rfl
      · cases hm : e.mapping lib attr.withDefaultType.name with
        | absent =>
            rw [hm] at hok
            cases hok
            exact Or.inr ⟨_, rfl⟩
        | unreadable =>
            rw [hm] at hok
            cases hok
            exact Or.inl rfl
        | failure failure =>
            rw [hm] at hok
            cases hok
        | mapsTo att =>
            rw [hm] at hok
            exact ih hok

/-- A name that stands in neither list has no mapping. -/
lemma attrMapping_of_notMem {name : String}
    (hdevice : ∀ device, e.deviceInfo = some device → name ∉ device.attributes.map Prod.fst)
    (hservice : name ∉ e.serviceInfo.attributes.map ServiceMapping.objectId) :
    e.attrMapping name = "" := by
  have hfind : (e.serviceInfo.attributes.find? fun it => it.objectId = name ∧ it.json ≠ "")
      = none := by
    refine List.find?_eq_none.mpr fun it hit hname => hservice ?_
    rw [decide_eq_true_eq] at hname
    exact List.mem_map.mpr ⟨it, hit, hname.1⟩
  rw [attrMapping, hfind]
  cases hd : e.deviceInfo with
  | none => rfl
  | some device =>
      have hlookup : device.attributes.lookup name = none := by
        rw [List.lookup_eq_none_iff]
        intro p hp
        rw [bne_iff_ne]
        rintro rfl
        exact hdevice device hd (List.mem_map.mpr ⟨p, hp, rfl⟩)
      have hget : device.getAttribute name = "" := by
        rw [Device.getAttribute, hlookup]
        rfl
      simp [hget]

/-- The names that have a mapping. -/
def names (e : EnvElement) : List String :=
  ((e.deviceInfo.map Device.attributes).getD []).map Prod.fst ++
    e.serviceInfo.attributes.map ServiceMapping.objectId

/-- A name that looks on stands among them. -/
lemma mem_names {k : Bool} {name : String} (hname : next lib e k name ≠ none) :
    name ∈ e.names := by
  by_contra hnot
  rw [names, List.mem_append, not_or] at hnot
  refine hname (next_of_not_to fun att hmap => ?_)
  have habsent : e.attrMapping name = "" := by
    refine attrMapping_of_notMem (fun device hdevice hmem => hnot.1 ?_) hnot.2
    rw [hdevice]
    exact hmem
  rw [mapping, if_pos habsent] at hmap
  cases hmap

/-- Only finitely many names have a mapping. -/
lemma finite_next (lib : JsonLib) (e : EnvElement) (k : Bool) :
    {name | next lib e k name ≠ none}.Finite :=
  (List.finite_toSet e.names).subset fun _ => mem_names

end Settles

/-- **The mappings of an attribute** come to an end exactly when it has no value that they
hand on, or they do not run in a cycle from its name. -/
theorem settles_iff (lib : JsonLib) (e : EnvElement) (attr : FullAttribute) :
    Settles lib e attr ↔
      ¬ Kept attr ∨ ¬ Chain.Cyclic (next lib e (isCompound attr)) attr.name := by
  have hterminates : Settles lib e attr ↔ ∃ n, addAttribute lib e n attr ≠ none :=
    ⟨Settles.terminates, fun hn => ⟨hn, fun _ _ => addAttribute_atMostOne⟩⟩
  rw [hterminates]
  by_cases hkept : Kept attr
  · rw [terminates_iff_ends hkept, Chain.ends_iff_not_cyclic (finite_next lib e _)]
    simp [hkept]
  · exact iff_of_true ⟨2, addAttribute_of_not_kept hkept 0⟩ (Or.inl hkept)

/-- A mapping of `t` to its own name. -/
def ownMapping : String :=
  "\x7b\"object_id\":\"t\",\"name\":\"t\",\"type\":\"string\"\x7d"

/-- The mapping, read. -/
def ownMappingLib : JsonLib where
  parse text := if text = ownMapping then
      some (.object [("object_id", .string "t"), ("name", .string "t"), ("type", .string "string")])
    else none
  write _ := ""

/-- An element of a device with the mapping. -/
def ownMapped : EnvElement where
  id := "room1"
  type := "thing"
  isPattern := "false"
  attributes := []
  deviceInfo := some { Device.ofName "dev1" "service" with attributes := [("t", ownMapping)] }
  serviceInfo := ⟨[], [], []⟩

/-- The calls do not end for an attribute that is mapped to its own name. -/
theorem not_settles_ownMapped :
    ¬ Settles ownMappingLib ownMapped (FullAttribute.ofTexts "t" "string" "23") := by
  rintro ⟨hterminates, -⟩
  have hkept : Kept (FullAttribute.ofTexts "t" "string" "23") :=
    (kept_of_flat (by decide)).mpr (by decide)
  have hstep : next ownMappingLib ownMapped false "t" = some "t" := by decide +kernel
  rw [terminates_iff_ends hkept] at hterminates
  refine Chain.not_cyclic_of_ends hterminates ⟨"t", ?_, Relation.TransGen.single ?_⟩
  · exact Relation.ReflTransGen.refl
  · exact hstep

end EnvElement

end IotAgent
