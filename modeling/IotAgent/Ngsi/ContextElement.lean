import IotAgent.Util.Device
import IotAgent.Util.Text

/-!
Context elements, as they are sent to the context broker and received from it.

Values are texts here, and an element has what is told of a command. The instant of an update,
its metadata and the static attributes of a device or a service come with the elements under
their environment.

* `Attribute.ofTexts`: the constructor of an attribute from three texts;
* `ContextElement.format`: the identifier and the type that an element gets from the device
  and the service;
* `format_id`: an element that came without a type gets the name of the entity of the
  device;
* `UpdateContext`: an update, its action and its element.
-/

namespace IotAgent

structure Attribute where
  name : String
  type : String
  value : String
  deriving DecidableEq

structure ContextElement where
  id : String := ""
  type : String := ""
  attributes : List Attribute := []
  deriving DecidableEq

namespace Attribute

/-- The context broker does not take empty texts. -/
def emptyValue : String := " "

/-- The type of attributes with a compound value. -/
def compound : String := "compound"

/-- The name that an attribute gets. -/
def renderName (name : String) : String :=
  if name = "" then emptyValue else Text.renderIdentifier name

/-- The constructor from three texts. -/
def ofTexts (name type value : String) : Attribute where
  name := renderName name
  type := Text.renderIdentifier type
  value := if value = "" then emptyValue else value

lemma ofTexts_value_ne (name type value : String) : (ofTexts name type value).value ≠ "" := by
  have hempty : emptyValue ≠ "" := by decide
  rw [ofTexts]
  dsimp only
  split
  · exact hempty
  · assumption

/-- A value that is not empty stays. -/
lemma ofTexts_value {value : String} (hv : value ≠ "") (name type : String) :
    (ofTexts name type value).value = value :=
  if_neg hv

end Attribute

namespace ContextElement

/-- An attribute with a value is added, with a default type; one without is not. -/
def addAttribute (e : ContextElement) (att : Attribute) : ContextElement :=
  let att := if att.type = "" then { att with type := "string" } else att
  if att.value = "" then e else { e with attributes := e.attributes ++ [att] }

/-- The identifier and the type for a device of a service. -/
def format (e : ContextElement) (service : PTree) (device : Device) : ContextElement :=
  let serviceEntityType := service.get StoreTypes.entityType ""
  let entityType :=
    if device.entityType ≠ "" ∧ device.entityType ≠ StoreTypes.default then device.entityType
    else if e.type ≠ "" then e.type
    else if serviceEntityType ≠ "" then serviceEntityType
    else "thing"
  let entityId :=
    if device.entityName ≠ "" ∧ device.entityName ≠ StoreTypes.default then device.entityName
    else if e.type = "" then entityType ++ ":" ++ device.name
    else e.id
  { e with id := entityId, type := entityType }

@[simp] lemma format_attributes (e : ContextElement) (service : PTree) (device : Device) :
    (e.format service device).attributes = e.attributes := rfl

/-- An element without a type stands for the entity of the device. -/
lemma format_id {e : ContextElement} (he : e.type = "") (service : PTree) (device : Device) :
    (e.format service device).id = device.getRealName service := by
  simp [format, Device.getRealName, he]

@[simp] lemma addAttribute_type (e : ContextElement) (att : Attribute) :
    (e.addAttribute att).type = e.type := by
  simp only [addAttribute, apply_ite ContextElement.type, ite_self]

/-- An attribute with a value is added. -/
lemma addAttribute_of_value (e : ContextElement) {att : Attribute} (hv : att.value ≠ "") :
    (e.addAttribute att).attributes =
      e.attributes ++ [if att.type = "" then { att with type := "string" } else att] := by
  rw [addAttribute]
  by_cases ht : att.type = "" <;> simp [ht, hv]

/-- An attribute with a type and a value is added as it is. -/
lemma addAttribute_attributes (e : ContextElement) {att : Attribute} (ht : att.type ≠ "")
    (hv : att.value ≠ "") : (e.addAttribute att).attributes = e.attributes ++ [att] := by
  rw [addAttribute_of_value e hv, if_neg ht]

/-- The attributes that are there come first. -/
lemma addAttribute_prefix (e : ContextElement) (att : Attribute) :
    ∃ l, (e.addAttribute att).attributes = e.attributes ++ l := by
  simp only [addAttribute]
  generalize (if att.type = "" then { att with type := "string" } else att) = att'
  split
  · exact ⟨[], (List.append_nil _).symm⟩
  · exact ⟨_, rfl⟩

end ContextElement

/-- An update of the context broker. -/
structure UpdateContext where
  updateAction : String
  element : ContextElement
  deriving DecidableEq

/-- The value of the attribute that was added first. -/
def UpdateContext.firstValue (u : UpdateContext) : String :=
  (u.element.attributes.head?.map Attribute.value).getD ""

end IotAgent
