import IotAgent.Ngsi.ContextElement
import IotAgent.Util.Json

/-!
Attributes with all their data (`src/ngsi/Attribute.{h,cc}`).

An attribute has metadata, and a compound value in place of a text: a list of attributes, or
the text of a JSON value. Metadata and the members of a compound value are built from three
texts, so they are attributes without further data.

* `FullAttribute`: an attribute whose type is an identifier and that has a list of members
  only if it is compound;
* `FullAttribute.ofJson`: the constructor from a JSON value, with its failures.
-/

namespace IotAgent

/-- An attribute with all its data. -/
structure FullAttribute extends Attribute where
  metadatas : List Attribute := []
  valueCompound : List Attribute := []
  compoundAsObject : Bool := false
  rendered : Text.renderIdentifier type = type
  listed : valueCompound ≠ [] → type = Attribute.compound
  deriving DecidableEq

/-- How the construction of an attribute fails: with an exception, or in an assertion of
rapidjson. -/
inductive AttributeFailure where
  | runtimeError (what : String)
  | assertion
  deriving DecidableEq

namespace FullAttribute

/-- The constructor from three texts. -/
def ofTexts (name type value : String) : FullAttribute where
  __ := Attribute.ofTexts name type value
  rendered := Text.renderIdentifier_renderIdentifier type
  listed := fun hne => absurd rfl hne

variable (att : FullAttribute)

/-- `set_value`. -/
def setValue (value : String) : FullAttribute where
  __ := att
  value := value

/-- `add_metadata`. -/
def addMetadata (metadata : Attribute) : FullAttribute where
  __ := att
  metadatas := att.metadatas ++ [metadata]

/-- The loops of `add_metadata`. -/
def addMetadatas (metadatas : List Attribute) : FullAttribute where
  __ := att
  metadatas := att.metadatas ++ metadatas

@[simp] lemma addMetadatas_toAttribute (metadatas : List Attribute) :
    (att.addMetadatas metadatas).toAttribute = att.toAttribute := rfl

@[simp] lemma addMetadatas_valueCompound (metadatas : List Attribute) :
    (att.addMetadatas metadatas).valueCompound = att.valueCompound := rfl

@[simp] lemma addMetadatas_compoundAsObject (metadatas : List Attribute) :
    (att.addMetadatas metadatas).compoundAsObject = att.compoundAsObject := rfl

/-- An empty type becomes `string`. -/
def withDefaultType : FullAttribute :=
  if htype : att.type = "" then
    { att with
      type := "string"
      rendered := by decide
      listed := fun hne => absurd (htype.symm.trans (att.listed hne)) (by decide) }
  else att

/-- Whether the attribute has no value: a text, or a list of members. -/
def isEmptyValue : Bool :=
  if att.type = Attribute.compound ∧ att.compoundAsObject = false then
    att.valueCompound.isEmpty
  else att.value = ""

/-! ### From JSON -/

/-- `d[name].GetString()`, as a text. -/
def textOf (d : Json) (name : String) : Except AttributeFailure String :=
  match d.member name with
  | some (.string s) => .ok (Text.cString s)
  | _ => .error .assertion

/-- Metadata, and members of a compound value. -/
def textsOf (d : Json) : Except AttributeFailure Attribute := do
  let name ← textOf d "name"
  let type ← textOf d "type"
  let value ← textOf d "value"
  return Attribute.ofTexts name type value

/-- The type in a JSON value. -/
def typeOf (d : Json) : Except AttributeFailure String :=
  if (d.member "type").isSome then (textOf d "type").map Text.renderIdentifier else .ok ""

/-- An attribute of a name and a type with the value that a JSON value gives it. -/
def ofValue (write : Json → String) (name type : String)
    (hrendered : Text.renderIdentifier type = type) :
    Option Json → Except AttributeFailure FullAttribute
  | none => .ok { name, type, value := "", rendered := hrendered, listed := by simp }
  | some data =>
      if htype : type = Attribute.compound then
        match data with
        | .array items => (items.mapM textsOf).map fun members =>
            { name, type, value := "", valueCompound := members, rendered := hrendered
              listed := fun _ => htype }
        | data => .ok
            { name, type, value := write data, compoundAsObject := true, rendered := hrendered
              listed := by simp }
      else
        let value :=
          match type, data with
          | "command", .object members => write (.object members)
          | _, data => if data.getStrValue = "" then Attribute.emptyValue else data.getStrValue
        .ok { name, type, value, rendered := hrendered, listed := by simp }

/-- The metadata in a JSON value. -/
def metadatasOf (d : Json) : Except AttributeFailure (List Attribute) :=
  match d.member "metadatas" with
  | none => .ok []
  | some (.array items) => items.mapM textsOf
  | some _ => .error (.runtimeError "Attribute: invalid type field [metadatas]")

lemma rendered_of_typeOf {d : Json} {type : String} (htype : typeOf d = .ok type) :
    Text.renderIdentifier type = type := by
  rw [typeOf] at htype
  split at htype
  · cases htext : textOf d "type" with
    | error e =>
        rw [htext] at htype
        cases htype
    | ok text =>
        rw [htext] at htype
        cases htype
        exact Text.renderIdentifier_renderIdentifier text
  · cases htype
    decide

/-- An attribute of a name with the type and the value in a JSON value. -/
def ofTypeAndValue (write : Json → String) (name : String) (d : Json) :
    Except AttributeFailure FullAttribute :=
  match htype : typeOf d with
  | .ok type => ofValue write name type (rendered_of_typeOf htype) (d.member "value")
  | .error e => .error e

/-- The constructor from a JSON value. -/
def ofJson (write : Json → String) (d : Json) : Except AttributeFailure FullAttribute :=
  match d with
  | .object _ =>
      if (d.member "name").isSome then do
        let name ← textOf d "name"
        let att ← ofTypeAndValue write (Text.renderIdentifier name) d
        let metadatas ← metadatasOf d
        return { att with metadatas := metadatas }
      else .error (.runtimeError "Attribute: missing field [name]")
  | _ => .error (.runtimeError "Invalid Object")

end FullAttribute

end IotAgent
