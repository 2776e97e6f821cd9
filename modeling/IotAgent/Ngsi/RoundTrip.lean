import IotAgent.Ngsi.MappedMeasure

/-!
Updates as they are written, and read again.

An update is written as JSON (`Serialize` in `src/ngsi/*.h`). A compound value is written as the
list of its members, or as the JSON that its text is; if that cannot be parsed there is no value
behind its name, and the text is no JSON.

* `toJson`, `UpdateContext.getString`: the writers;
* `Sendable`: the attributes that the reader can tell from what is written of them;
* `Built`: elements as they are put together, whose attributes all have a type;
* `roundTrip`: an update is read as it was written, if no text has a character NUL.
-/

namespace IotAgent

/-! ### Writing -/

/-- The value of an attribute that is no list: a text, or the JSON of its text. -/
def valueJson (lib : JsonLib) (type value : String) : Option Json :=
  if type ≠ Attribute.compound then some (.string value)
  else lib.parse (if value = "" then "\x7b\x7d" else value)

/-- The members of the object for an attribute. -/
def attributeJson (name type : String) (value : Json) : List (String × Json) :=
  [("name", .string name), ("type", .string type), ("value", value)]

/-- `Serialize`, for metadata and members. -/
def Attribute.toJson (lib : JsonLib) (a : Attribute) : Option Json :=
  (valueJson lib a.type a.value).map fun value => .object (attributeJson a.name a.type value)

namespace FullAttribute

/-- What is written of the value. -/
def valueToJson (lib : JsonLib) (att : FullAttribute) : Option Json :=
  if att.type = Attribute.compound ∧ att.valueCompound ≠ [] then
    (att.valueCompound.mapM (Attribute.toJson lib)).map .array
  else valueJson lib att.type att.value

/-- `Serialize`. -/
def toJson (lib : JsonLib) (att : FullAttribute) : Option Json := do
  let value ← att.valueToJson lib
  let metadatas ← att.metadatas.mapM (Attribute.toJson lib)
  return .object (attributeJson att.name att.type value ++
    if metadatas = [] then [] else [("metadatas", .array metadatas)])

end FullAttribute

/-- `Serialize`. -/
def EnvElement.toJson (lib : JsonLib) (e : EnvElement) : Option Json := do
  let attributes ← e.attributes.mapM (FullAttribute.toJson lib)
  return .object ([("id", .string e.id), ("type", .string e.type),
      ("isPattern", .string e.isPattern)] ++
    if attributes = [] then [] else [("attributes", .array attributes)])

namespace Ngsi.UpdateContext

/-- `Serialize`. -/
def toJson (lib : JsonLib) (u : UpdateContext) : Option Json := do
  let contextElements ← u.contextElements.mapM (EnvElement.toJson lib)
  return .object [("updateAction", .string u.action), ("contextElements", .array contextElements)]

/-- `get_string`, if it is JSON. -/
def getString (lib : JsonLib) (u : UpdateContext) : Option String :=
  (u.toJson lib).map lib.write

end Ngsi.UpdateContext

/-! ### What the reader can tell -/

/-- A text that is the whole of what its pointer shows. -/
def NoNul (s : String) : Prop :=
  '\x00' ∉ s.toList

instance : DecidablePred NoNul := fun s => inferInstanceAs (Decidable ('\x00' ∉ s.toList))

/-- A name that reading leaves as it is. -/
structure IsIdentifier (name : String) : Prop where
  nonempty : name ≠ ""
  rendered : Text.renderIdentifier name = name

/-- Metadata, or a member of a compound value, with a text. -/
structure Attribute.Simple (a : Attribute) : Prop where
  name : IsIdentifier a.name
  rendered : Text.renderIdentifier a.type = a.type
  flat : a.type ≠ Attribute.compound
  value : a.value ≠ ""

/-- The texts of metadata, or of a member. -/
def Attribute.texts (a : Attribute) : List String :=
  [a.name, a.type, a.value]

namespace FullAttribute

/-- An attribute of one of the three shapes; an object is given by the text that is written of
it, and this can be read. -/
structure Sendable (lib : JsonLib) (att : FullAttribute) : Prop where
  shaped : att.Shaped
  name : IsIdentifier att.name
  members : ∀ a ∈ att.valueCompound, a.Simple
  object : att.type = Attribute.compound → att.compoundAsObject = true →
    ∃ json, lib.write (.object json) = att.value ∧ lib.parse att.value = some (.object json)
  metadatas : ∀ a ∈ att.metadatas, a.Simple

/-- The texts in a value. The text of an object has its own reader. -/
def Value.texts : Value → List String
  | .text value => [value]
  | .list members => members.flatMap Attribute.texts
  | .object _ => []

/-- The texts of an attribute. -/
def texts (att : FullAttribute) : List String :=
  [att.name, att.type] ++ att.content.texts ++ att.metadatas.flatMap Attribute.texts

/-- Two attributes with the same name, type, value and metadata. -/
structure Same (a b : FullAttribute) : Prop where
  name : a.name = b.name
  type : a.type = b.type
  content : a.content = b.content
  metadatas : a.metadatas = b.metadatas

end FullAttribute

/-! ### Metadata and members -/

section Simple

variable {lib : JsonLib} {a : Attribute} {l : List Attribute}

/-- What is written of metadata with a text. -/
def Attribute.doc (a : Attribute) : Json :=
  .object (attributeJson a.name a.type (.string a.value))

lemma toJson_of_simple (hsimple : a.Simple) : a.toJson lib = some a.doc := by
  rw [Attribute.toJson, valueJson, if_pos hsimple.flat]
  rfl

lemma ofTexts_of_simple (hsimple : a.Simple) : Attribute.ofTexts a.name a.type a.value = a := by
  rw [Attribute.ofTexts, Attribute.renderName, if_neg hsimple.name.nonempty,
    hsimple.name.rendered, hsimple.rendered, if_neg hsimple.value]

/-- Metadata is read as it was written. -/
lemma textsOf_doc (hsimple : a.Simple) (hnul : ∀ s ∈ a.texts, NoNul s) :
    FullAttribute.textsOf a.doc = .ok a := by
  have hname : Text.cString a.name = a.name :=
    Text.cString_eq_self_iff.mpr (hnul _ (by simp [Attribute.texts]))
  have htype : Text.cString a.type = a.type :=
    Text.cString_eq_self_iff.mpr (hnul _ (by simp [Attribute.texts]))
  have hvalue : Text.cString a.value = a.value :=
    Text.cString_eq_self_iff.mpr (hnul _ (by simp [Attribute.texts]))
  have hread : FullAttribute.textsOf a.doc = .ok (Attribute.ofTexts (Text.cString a.name)
      (Text.cString a.type) (Text.cString a.value)) := by rfl
  rw [hread, hname, htype, hvalue, ofTexts_of_simple hsimple]

/-- Steps that always give their results. -/
lemma mapM_eq_some {α β : Type} {f : α → Option β} {g : α → β} {l : List α}
    (hf : ∀ a ∈ l, f a = some (g a)) : l.mapM f = some (l.map g) := by
  induction l with
  | nil => rfl
  | cons a l ih =>
      rw [List.mapM_cons, hf a List.mem_cons_self, ih fun a ha => hf a (List.mem_cons_of_mem _ ha)]
      rfl

lemma mapM_toJson (hsimple : ∀ a ∈ l, a.Simple) :
    l.mapM (Attribute.toJson lib) = some (l.map Attribute.doc) :=
  mapM_eq_some fun a ha => toJson_of_simple (hsimple a ha)

lemma mapM_textsOf (hsimple : ∀ a ∈ l, a.Simple)
    (hnul : ∀ s ∈ l.flatMap Attribute.texts, NoNul s) :
    (l.map Attribute.doc).mapM FullAttribute.textsOf = .ok l := by
  rw [Attempts.mapM_eq_ok_iff, List.forall₂_map_left_iff, List.forall₂_same]
  exact fun a ha => textsOf_doc (hsimple a ha) fun s hs =>
    hnul s (List.mem_flatMap.mpr ⟨a, ha, hs⟩)

end Simple

/-! ### Attributes -/

namespace FullAttribute

variable {lib : JsonLib} {att : FullAttribute}

/-- The object that is written of an attribute. -/
def docOf (att : FullAttribute) (value : Json) : Json :=
  .object (attributeJson att.name att.type value ++
    if att.metadatas.map Attribute.doc = [] then []
    else [("metadatas", .array (att.metadatas.map Attribute.doc))])

lemma metadatasOf_docOf {value : Json} (hsimple : ∀ a ∈ att.metadatas, a.Simple)
    (hnul : ∀ s ∈ att.metadatas.flatMap Attribute.texts, NoNul s) :
    metadatasOf (att.docOf value) = .ok att.metadatas := by
  have hread := mapM_textsOf hsimple hnul
  rw [metadatasOf, docOf]
  cases hmeta : att.metadatas with
  | nil => rfl
  | cons a l =>
      rw [hmeta] at hread
      exact hread

lemma typeOf_docOf {value : Json} (hnul : NoNul att.type) :
    typeOf (att.docOf value) = .ok att.type := by
  have hread : typeOf (att.docOf value) =
      .ok (Text.renderIdentifier (Text.cString att.type)) := by rfl
  rw [hread, Text.cString_eq_self_iff.mpr hnul, att.rendered]

lemma nameOf_docOf {value : Json} (hnul : NoNul att.name) :
    textOf (att.docOf value) "name" = .ok att.name := by
  have hread : textOf (att.docOf value) "name" = .ok (Text.cString att.name) := by rfl
  rw [hread, Text.cString_eq_self_iff.mpr hnul]

/-- The reader gets the name, the type and the metadata back; the value is left to `ofValue`. -/
lemma ofJson_docOf {value : Json} {read : FullAttribute} (hsend : att.Sendable lib)
    (hnul : ∀ s ∈ att.texts, NoNul s)
    (hvalue : ofValue lib.write att.name att.type att.rendered (some value) = .ok read) :
    ofJson lib.write (att.docOf value) = .ok { read with metadatas := att.metadatas } := by
  have hname : NoNul att.name := hnul _ (by simp [texts])
  have htype : NoNul att.type := hnul _ (by simp [texts])
  have hmeta : ∀ s ∈ att.metadatas.flatMap Attribute.texts, NoNul s := fun s hs =>
    hnul s (List.mem_append_right _ hs)
  refine ofJson_eq_ok_iff.mpr ⟨att.name, read, att.metadatas, nameOf_docOf hname, ?_,
    metadatasOf_docOf hsend.metadatas hmeta, rfl⟩
  rw [hsend.name.rendered]
  exact ofTypeAndValue_eq_ok_iff.mpr ⟨att.type, typeOf_docOf htype, hvalue⟩

section Read

variable {name type value : String} {members : List Attribute}
  {hrendered : Text.renderIdentifier type = type}

lemma content_withText (htype : type ≠ Attribute.compound) :
    (withText name type value hrendered).content = .text value :=
  content_of_simple htype

lemma content_withMembers {htype : type = Attribute.compound} :
    (withMembers name type members hrendered htype).content = .list members :=
  content_of_list htype rfl

lemma content_withObject (htype : type = Attribute.compound) :
    (withObject name type value hrendered).content = .object value :=
  content_of_object htype rfl

end Read

/-- What is written of the value is read as the same value. -/
lemma exists_valueToJson (hsend : att.Sendable lib) (hnul : ∀ s ∈ att.texts, NoNul s) :
    ∃ value read, att.valueToJson lib = some value ∧
      ofValue lib.write att.name att.type att.rendered (some value) = .ok read ∧
      read.name = att.name ∧ read.type = att.type ∧ read.content = att.content ∧
      read.isEmptyValue = false := by
  cases hsend.shaped with
  | simple htype hvalue =>
      have hwhole : Text.cString att.value = att.value := by
        refine Text.cString_eq_self_iff.mpr (hnul _ ?_)
        simp [texts, content_of_simple htype, Value.texts]
      have hflat : flatValue lib.write att.type (.string att.value) = att.value := by
        have hno : ¬ (att.type = "command" ∧ (Json.string att.value).isObject = true) := by
          simp [Json.isObject]
        rw [flatValue, if_neg hno, Json.getStrValue, hwhole, if_neg hvalue]
      refine ⟨.string att.value, _, ?_, ofValue_of_flat htype _, rfl, rfl, ?_, ?_⟩
      · rw [valueToJson, if_neg fun h => htype h.1, valueJson, if_pos htype]
      · rw [content_withText htype, content_of_simple htype, hflat]
      · exact isEmptyValue_of_flat htype (by rwa [hflat])
  | list htype hobject hne =>
      have hmembers : ∀ s ∈ att.valueCompound.flatMap Attribute.texts, NoNul s := by
        intro s hs
        refine hnul s ?_
        simp only [texts, content_of_list htype hobject, Value.texts, List.mem_append]
        exact Or.inl (Or.inr hs)
      have hread : ofValue lib.write att.name att.type att.rendered
          (some (.array (att.valueCompound.map Attribute.doc))) = _ := ofValue_of_array htype _
      rw [mapM_textsOf hsend.members hmembers] at hread
      refine ⟨.array (att.valueCompound.map Attribute.doc), _, ?_, hread, rfl, rfl, ?_, ?_⟩
      · rw [valueToJson, if_pos ⟨htype, hne⟩, mapM_toJson hsend.members]
        rfl
      · rw [content_withMembers, content_of_list htype hobject]
      · rw [isEmptyValue_withMembers]
        exact List.isEmpty_eq_false_iff.mpr hne
  | object htype hobject hvalue hnil =>
      obtain ⟨json, hwrite, hparse⟩ := hsend.object htype hobject
      refine ⟨.object json, _, ?_, ofValue_of_object htype (by simp), rfl, rfl, ?_, ?_⟩
      · rw [valueToJson, if_neg (by simp [hnil]), valueJson, if_neg (by simp [htype]),
          if_neg hvalue, hparse]
      · rw [content_withObject htype, content_of_object htype hobject, hwrite]
      · exact isEmptyValue_of_object rfl (by rwa [hwrite])

/-- An attribute is read as it was written, with a value. -/
lemma exists_toJson (hsend : att.Sendable lib) (hnul : ∀ s ∈ att.texts, NoNul s) :
    ∃ doc read, att.toJson lib = some doc ∧ ofJson lib.write doc = .ok read ∧ read.Same att ∧
      read.isEmptyValue = false := by
  obtain ⟨value, read, hjson, hvalue, hname, htype, hcontent, hempty⟩ :=
    exists_valueToJson hsend hnul
  refine ⟨att.docOf value, _, ?_, ofJson_docOf hsend hnul hvalue, ⟨hname, htype, hcontent, rfl⟩,
    hempty⟩
  rw [toJson, hjson, mapM_toJson hsend.metadatas]
  rfl

end FullAttribute

/-! ### Elements -/

namespace EnvElement

variable {lib : JsonLib} {e e' : EnvElement}

/-- Elements as they are put together: named, given an environment and attributes. -/
inductive Built (lib : JsonLib) : EnvElement → Prop
  | ofTexts (id type isPattern : String) : Built lib (ofTexts id type isPattern)
  | identify {e : EnvElement} (id type isPattern : String) :
      Built lib e → Built lib { e with id, type, isPattern }
  | setEnvInfo {e e' : EnvElement} {serviceInfo : ServiceInfo} {device : Option Device}
      {timestamp : String} : Built lib e →
      e.setEnvInfo lib serviceInfo device timestamp = .ok e' → Built lib e'
  | add {e e' : EnvElement} {attr : FullAttribute} :
      Built lib e → e.add lib attr = .ok e' → Built lib e'

/-- All attributes have a type. -/
def Typed (e : EnvElement) : Prop :=
  ∀ att ∈ e.attributes, att.type ≠ ""

lemma Typed.push {att : FullAttribute} (htyped : e.Typed) (htype : att.type ≠ "") :
    (e.push att).Typed := by
  intro att' hmem
  rcases List.mem_append.mp hmem with hmem | hmem
  · exact htyped att' hmem
  · rwa [List.mem_singleton.mp hmem]

/-- `add_attribute` gives a type to what it adds. -/
lemma Typed.addAttribute {n : ℕ} {attr : FullAttribute} (htyped : e.Typed)
    (hok : EnvElement.addAttribute lib e n attr = some (.ok e')) : e'.Typed := by
  induction n generalizing attr with
  | zero => cases hok
  | succ n ih =>
      rw [EnvElement.addAttribute] at hok
      split at hok
      · cases hok
        exact htyped
      · cases hm : e.mapping lib attr.withDefaultType.name with
        | absent =>
            rw [hm] at hok
            cases hok
            exact htyped.push withDefaultType_type_ne
        | unreadable =>
            rw [hm] at hok
            cases hok
            exact htyped
        | failure failure =>
            rw [hm] at hok
            cases hok
        | mapsTo att =>
            rw [hm] at hok
            exact ih hok

lemma Typed.add {attr : FullAttribute} (htyped : e.Typed) (hadd : e.add lib attr = .ok e') :
    e'.Typed := by
  obtain ⟨n, hn⟩ := add_eq_ok_iff.mp hadd
  exact htyped.addAttribute hn

lemma Typed.addStatic {timestamp text : String} (htyped : e.Typed)
    (hadd : EnvElement.addStatic lib timestamp e text = .ok e') : e'.Typed := by
  rw [EnvElement.addStatic] at hadd
  split at hadd
  · cases hadd
    exact htyped
  · split at hadd
    · cases hadd
    · exact htyped.add hadd

lemma Typed.addServiceStatic {timestamp : String} {v : ServiceStatic} (htyped : e.Typed)
    (hadd : EnvElement.addServiceStatic lib timestamp e v = .ok e') : e'.Typed := by
  rw [EnvElement.addServiceStatic] at hadd
  split at hadd
  · exact htyped.addStatic hadd
  · cases hadd
    exact htyped

lemma Typed.setEnvInfo {serviceInfo : ServiceInfo} {device : Option Device} {timestamp : String}
    (htyped : e.Typed) (hset : e.setEnvInfo lib serviceInfo device timestamp = .ok e') :
    e'.Typed := by
  rw [EnvElement.setEnvInfo] at hset
  obtain ⟨e₁, hdevice, hservice⟩ := Attempts.bind_eq_ok_iff.mp hset
  have hformat : ({ e with serviceInfo, deviceInfo := device } : EnvElement).format.Typed := by
    rw [Typed, format_attributes]
    exact htyped
  exact Attempts.foldlM_induction (fun _ _ _ => Typed.addServiceStatic)
    (Attempts.foldlM_induction (fun _ _ _ => Typed.addStatic) hformat hdevice) hservice

/-- The attributes of an element all have a type, however it was put together. -/
lemma Built.typed (hbuilt : Built lib e) : e.Typed := by
  induction hbuilt with
  | ofTexts => exact List.forall_mem_nil _
  | identify _ _ _ _ ih => exact ih
  | setEnvInfo _ hset ih => exact ih.setEnvInfo hset
  | add _ hadd ih => exact ih.add hadd

/-- Every list of attributes with a value and a type can be built. -/
lemma Built.append {l : List FullAttribute} (hbuilt : Built lib e) (hplain : e.Plain)
    (hl : ∀ att ∈ l, att.Shaped ∧ att.type ≠ "") :
    Built lib { e with attributes := e.attributes ++ l } := by
  induction l generalizing e with
  | nil =>
      rw [List.append_nil]
      exact hbuilt
  | cons att l ih =>
      obtain ⟨hshaped, htype⟩ := hl att List.mem_cons_self
      have hadd : e.add lib att = .ok (e.push att) := by
        rw [add_of_plain hplain, withDefaultType_of_ne htype, hshaped.isEmptyValue]
        rfl
      have hrest := ih (hbuilt.add hadd) (hplain.push att)
        fun a ha => hl a (List.mem_cons_of_mem _ ha)
      rw [push, List.append_assoc] at hrest
      exact hrest

/-- The texts of an element. -/
def texts (e : EnvElement) : List String :=
  [e.id, e.type, e.isPattern] ++ e.attributes.flatMap FullAttribute.texts

/-- An element with names for identifiers, whose attributes can be told. -/
structure Sendable (lib : JsonLib) (e : EnvElement) : Prop where
  built : Built lib e
  id : IsIdentifier e.id
  type : IsIdentifier e.type
  attributes : ∀ att ∈ e.attributes, att.Sendable lib

/-- Two elements with the same identifier, type and kind, and the same attributes in order. -/
structure Same (a b : EnvElement) : Prop where
  id : a.id = b.id
  type : a.type = b.type
  isPattern : a.isPattern = b.isPattern
  attributes : List.Forall₂ FullAttribute.Same a.attributes b.attributes

/-- Attributes are added to an element without mappings as they were written. -/
lemma exists_foldlM_addItem {l : List FullAttribute} (hplain : e.Plain)
    (hsend : ∀ att ∈ l, att.Sendable lib) (htyped : ∀ att ∈ l, att.type ≠ "")
    (hnul : ∀ s ∈ l.flatMap FullAttribute.texts, NoNul s) :
    ∃ docs reads, l.mapM (FullAttribute.toJson lib) = some docs ∧
      docs.foldlM (addItem lib) e = .ok { e with attributes := e.attributes ++ reads } ∧
      List.Forall₂ FullAttribute.Same reads l := by
  induction l generalizing e with
  | nil => exact ⟨[], [], rfl, by rw [List.append_nil]; rfl, .nil⟩
  | cons att l ih =>
      simp only [List.flatMap_cons, List.mem_append] at hnul
      obtain ⟨doc, read, hdoc, hread, hsame, hvalue⟩ :=
        FullAttribute.exists_toJson (hsend att List.mem_cons_self) fun s hs => hnul s (Or.inl hs)
      have htype : read.type ≠ "" := by
        rw [hsame.type]
        exact htyped att List.mem_cons_self
      have hadd : addItem lib e doc = .ok (e.push read) := by
        rw [addItem, hread]
        dsimp only
        rw [add_of_plain hplain, withDefaultType_of_ne htype, hvalue]
        rfl
      obtain ⟨docs, reads, hdocs, hfold, hreads⟩ := ih (hplain.push read)
        (fun a ha => hsend a (List.mem_cons_of_mem _ ha))
        (fun a ha => htyped a (List.mem_cons_of_mem _ ha)) fun s hs => hnul s (Or.inr hs)
      refine ⟨doc :: docs, read :: reads, ?_, ?_, .cons hsame hreads⟩
      · rw [List.mapM_cons, hdoc, hdocs]
        rfl
      · rw [List.foldlM_cons, hadd]
        refine hfold.trans ?_
        rw [push, List.append_assoc]
        rfl

/-- The object that is written of an element. -/
def docOf (e : EnvElement) (attributes : List Json) : Json :=
  .object ([("id", .string e.id), ("type", .string e.type), ("isPattern", .string e.isPattern)] ++
    if attributes = [] then [] else [("attributes", .array attributes)])

lemma itemsAt_docOf (attributes : List Json) :
    (e.docOf attributes).itemsAt "attributes" = attributes := by
  cases attributes <;> rfl

/-- The constructor makes of the object what it makes of its three texts and the array. -/
lemma ofJson_docOf (attributes : List Json) (hid : Text.cString e.id = e.id)
    (htype : Text.cString e.type = e.type) (hpattern : Text.cString e.isPattern = e.isPattern) :
    ofJson lib (e.docOf attributes) =
      attributes.foldlM (addItem lib) (ofTexts e.id e.type e.isPattern) := by
  have hread : ofJson lib (e.docOf attributes) =
      ((e.docOf attributes).itemsAt "attributes").foldlM (addItem lib)
        (ofTexts (Text.cString e.id) (Text.cString e.type) (Text.cString e.isPattern)) := by rfl
  rw [hread, itemsAt_docOf, hid, htype, hpattern]

/-- An element is read as it was written. -/
lemma exists_toJson (hsend : e.Sendable lib) (hnul : ∀ s ∈ e.texts, NoNul s) :
    ∃ doc read, e.toJson lib = some doc ∧ ofJson lib doc = .ok read ∧ read.Same e := by
  have hid : Text.cString e.id = e.id :=
    Text.cString_eq_self_iff.mpr (hnul _ (by simp [texts]))
  have htype : Text.cString e.type = e.type :=
    Text.cString_eq_self_iff.mpr (hnul _ (by simp [texts]))
  have hpattern : Text.cString e.isPattern = e.isPattern :=
    Text.cString_eq_self_iff.mpr (hnul _ (by simp [texts]))
  obtain ⟨docs, reads, hdocs, hfold, hsame⟩ :=
    exists_foldlM_addItem (plain_ofTexts e.id e.type e.isPattern) hsend.attributes
      hsend.built.typed fun s hs => hnul s (List.mem_append_right _ hs)
  refine ⟨e.docOf docs, _, ?_, (ofJson_docOf docs hid htype hpattern).trans hfold, ?_⟩
  · rw [toJson, hdocs]
    rfl
  · exact ⟨hsend.id.rendered, hsend.type.rendered, rfl, hsame⟩

end EnvElement

/-! ### Updates -/

namespace Ngsi.UpdateContext

variable {lib : JsonLib} {u : UpdateContext}

/-- The texts of an update. -/
def texts (u : UpdateContext) : List String :=
  u.action :: u.contextElements.flatMap EnvElement.texts

/-- Two updates with the same action and the same elements in order. -/
structure Same (a b : UpdateContext) : Prop where
  action : a.action = b.action
  contextElements : List.Forall₂ EnvElement.Same a.contextElements b.contextElements

/-- The elements are read as they were written. -/
lemma exists_mapM_toJson {l : List EnvElement} (hsend : ∀ e ∈ l, e.Sendable lib)
    (hnul : ∀ s ∈ l.flatMap EnvElement.texts, NoNul s) :
    ∃ docs reads, l.mapM (EnvElement.toJson lib) = some docs ∧
      docs.mapM (EnvElement.ofJson lib) = .ok reads ∧ List.Forall₂ EnvElement.Same reads l := by
  induction l with
  | nil => exact ⟨[], [], rfl, rfl, .nil⟩
  | cons e l ih =>
      simp only [List.flatMap_cons, List.mem_append] at hnul
      obtain ⟨doc, read, hdoc, hread, hsame⟩ :=
        EnvElement.exists_toJson (hsend e List.mem_cons_self) fun s hs => hnul s (Or.inl hs)
      obtain ⟨docs, reads, hdocs, hreads, hsames⟩ :=
        ih (fun a ha => hsend a (List.mem_cons_of_mem _ ha)) fun s hs => hnul s (Or.inr hs)
      refine ⟨doc :: docs, read :: reads, ?_, ?_, .cons hsame hsames⟩
      · rw [List.mapM_cons, hdoc, hdocs]
        rfl
      · rw [Attempts.mapM_cons_ok hread, hreads]
        rfl

/-- **An update is read as it was written**, if none of its texts has a character NUL and the
parser inverts the writer. -/
theorem roundTrip (hsend : ∀ e ∈ u.contextElements, e.Sendable lib)
    (hnul : ∀ s ∈ u.texts, NoNul s)
    (hparse : ∀ doc, u.toJson lib = some doc → lib.parse (lib.write doc) = some doc) :
    ∃ text read, u.getString lib = some text ∧ ofText lib text = .ok read ∧ read.Same u := by
  obtain ⟨docs, reads, hdocs, hreads, hsame⟩ := exists_mapM_toJson hsend fun s hs =>
    hnul s (List.mem_cons_of_mem _ hs)
  have haction : Text.cString u.action = u.action :=
    Text.cString_eq_self_iff.mpr (hnul _ List.mem_cons_self)
  have hdoc : u.toJson lib =
      some (.object [("updateAction", .string u.action), ("contextElements", .array docs)]) := by
    rw [toJson, hdocs]
    rfl
  refine ⟨_, ⟨u.action, reads⟩, by rw [getString, hdoc]; rfl, ?_, rfl, hsame⟩
  rw [ofText, Json.readText, hparse _ hdoc]
  have hread : ofObject lib
      (.object [("updateAction", .string u.action), ("contextElements", .array docs)]) =
      (docs.mapM (EnvElement.ofJson lib)).bind fun contextElements =>
        .ok ⟨Text.cString u.action, contextElements⟩ := by rfl
  refine hread.trans ?_
  rw [hreads, haction]
  rfl

/-! ### Two updates -/

/-- An update whose action has a character NUL behind it. -/
def nulUpdate : UpdateContext where
  action := "UPDATE\x00"
  contextElements := []

def nulUpdateDoc : Json :=
  .object [("updateAction", .string "UPDATE\x00"), ("contextElements", .array [])]

def nulUpdateText : String :=
  "\x7b\"updateAction\":\"UPDATE\\u0000\",\"contextElements\":[]\x7d"

/-- How it is written and parsed. -/
def nulUpdateLib : JsonLib where
  parse text := if text = nulUpdateText then some nulUpdateDoc else none
  write _ := nulUpdateText

/-- It is read without the character, though the parser inverts the writer. -/
theorem not_roundTrip_nulUpdate :
    nulUpdate.toJson nulUpdateLib = some nulUpdateDoc ∧
      nulUpdateLib.parse (nulUpdateLib.write nulUpdateDoc) = some nulUpdateDoc ∧
      nulUpdate.getString nulUpdateLib = some nulUpdateText ∧
      ofText nulUpdateLib nulUpdateText = .ok ⟨"UPDATE", []⟩ ∧
      ¬ Same ⟨"UPDATE", []⟩ nulUpdate := by
  have hne : "UPDATE" ≠ "UPDATE\x00" := by decide
  exact ⟨rfl, rfl, rfl, rfl, fun hsame => hne hsame.action⟩

lemma rendered_compound : Text.renderIdentifier Attribute.compound = Attribute.compound := by
  decide

/-- A measure of each shape. -/
def threeShapes : List FullAttribute :=
  [(FullAttribute.ofTexts "t" "string" "23").addMetadata
      (Attribute.ofTexts "unit" "string" "celsius"),
    FullAttribute.withMembers "place" Attribute.compound [Attribute.ofTexts "room" "string" "1"]
      rendered_compound rfl,
    FullAttribute.withObject "raw" Attribute.compound "\x7b\"v\":\"1\"\x7d" rendered_compound]

def threeShapesUpdate : UpdateContext where
  action := "APPEND"
  contextElements :=
    [{ EnvElement.ofTexts "room1" "thing" "false" with attributes := threeShapes }]

/-- The update, as it is parsed. -/
def threeShapesDoc : Json :=
  .object [("updateAction", .string "APPEND"), ("contextElements", .array [.object
    [("id", .string "room1"), ("type", .string "thing"), ("isPattern", .string "false"),
      ("attributes", .array
        [.object [("name", .string "t"), ("type", .string "string"), ("value", .string "23"),
            ("metadatas", .array [.object [("name", .string "unit"), ("type", .string "string"),
              ("value", .string "celsius")]])],
          .object [("name", .string "place"), ("type", .string "compound"), ("value", .array
            [.object [("name", .string "room"), ("type", .string "string"),
              ("value", .string "1")]])],
          .object [("name", .string "raw"), ("type", .string "compound"),
            ("value", .object [("v", .string "1")])]])]])]

def threeShapesText : String :=
  "\x7b\"updateAction\":\"APPEND\",\"contextElements\":[\x7b\"id\":\"room1\"," ++
    "\"type\":\"thing\",\"isPattern\":\"false\",\"attributes\":[\x7b\"name\":\"t\"," ++
    "\"type\":\"string\",\"value\":\"23\",\"metadatas\":[\x7b\"name\":\"unit\"," ++
    "\"type\":\"string\",\"value\":\"celsius\"\x7d]\x7d,\x7b\"name\":\"place\"," ++
    "\"type\":\"compound\",\"value\":[\x7b\"name\":\"room\",\"type\":\"string\"," ++
    "\"value\":\"1\"\x7d]\x7d,\x7b\"name\":\"raw\",\"type\":\"compound\"," ++
    "\"value\":\x7b\"v\":\"1\"\x7d\x7d]\x7d]\x7d"

/-- How the update and the object in it are written and parsed. -/
def threeShapesLib : JsonLib where
  parse text :=
    if text = threeShapesText then some threeShapesDoc
    else if text = "\x7b\"v\":\"1\"\x7d" then some (.object [("v", .string "1")])
    else none
  write
    | .object (("updateAction", _) :: _) => threeShapesText
    | _ => "\x7b\"v\":\"1\"\x7d"

lemma sendable_threeShapes :
    ∀ att ∈ threeShapes, FullAttribute.Sendable threeShapesLib att := by
  intro att hatt
  simp only [threeShapes, List.mem_cons, List.not_mem_nil, or_false] at hatt
  rcases hatt with rfl | rfl | rfl
  · refine ⟨.simple (by decide) (by decide), ⟨by decide, by decide⟩, List.forall_mem_nil _,
      fun htype => absurd htype (by decide), ?_⟩
    rintro a ha
    obtain rfl := List.mem_singleton.mp ha
    exact ⟨⟨by decide, by decide⟩, by decide, by decide, by decide⟩
  · refine ⟨.list rfl rfl (List.cons_ne_nil _ _), ⟨by decide, by decide⟩, ?_,
      fun _ h => (by cases h), List.forall_mem_nil _⟩
    rintro a ha
    obtain rfl := List.mem_singleton.mp ha
    exact ⟨⟨by decide, by decide⟩, by decide, by decide, by decide⟩
  · refine ⟨.object rfl rfl (by decide) rfl, ⟨by decide, by decide⟩, List.forall_mem_nil _,
      fun _ _ => ⟨[("v", .string "1")], rfl, ?_⟩, List.forall_mem_nil _⟩
    rfl

lemma typed_threeShapes : ∀ att ∈ threeShapes, att.type ≠ "" := by
  intro att hatt
  simp only [threeShapes, List.mem_cons, List.not_mem_nil, or_false] at hatt
  rcases hatt with rfl | rfl | rfl <;> decide

/-- The update is read as it was written. -/
theorem roundTrip_threeShapes :
    ∃ text read, threeShapesUpdate.getString threeShapesLib = some text ∧
      ofText threeShapesLib text = .ok read ∧ read.Same threeShapesUpdate := by
  refine roundTrip ?_ (by decide +kernel) ?_
  · intro e he
    obtain rfl := List.mem_singleton.mp he
    refine ⟨?_, ⟨by decide, by decide⟩, ⟨by decide, by decide⟩, sendable_threeShapes⟩
    exact (EnvElement.Built.ofTexts "room1" "thing" "false").append
      (EnvElement.plain_ofTexts _ _ _) fun att hatt =>
        ⟨(sendable_threeShapes att hatt).shaped, typed_threeShapes att hatt⟩
  · intro doc hdoc
    have hjson : threeShapesUpdate.toJson threeShapesLib = some threeShapesDoc := by rfl
    have heq : threeShapesDoc = doc := Option.some.inj (hjson.symm.trans hdoc)
    have hwrite : threeShapesLib.write threeShapesDoc = threeShapesText := by rfl
    rw [← heq, hwrite, threeShapesLib]
    dsimp only
    rw [if_pos rfl]

end Ngsi.UpdateContext

end IotAgent
