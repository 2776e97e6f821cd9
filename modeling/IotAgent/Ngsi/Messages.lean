import IotAgent.Ngsi.ContextRegistration
import IotAgent.Ngsi.UpdateContext

/-!
The other messages of the context broker, as they are read (`src/ngsi`).

Every message has two constructors, one from a text, which parses it, and one from a value that
has been parsed. Most of the pairs are the same lines twice, and are one function of the object
here. Those of an attribute, of a query and of a subscription differ, and are two functions.

* `FullAttribute.ofText`: an attribute from a text;
* `Entity`, `NotifyCondition`, `AttributeRegister`, `ContextRegistration`: the parts;
* `QueryContext`, `SubscribeContext`, `RegisterContext`, `ContextResponse`: the messages.
-/

namespace IotAgent

/-! ### Attributes -/

namespace FullAttribute

variable (write : Json → String)

/-- The value that is neither compound nor a command with an object: it has to be a text. -/
def flatInText : Json → Except AttributeFailure String
  | .string s => .ok (if Text.cString s = "" then Attribute.emptyValue else Text.cString s)
  | _ => .error .assertion

/-- The value of an attribute in a text. -/
def ofTextValue (name type : String) (hrendered : Text.renderIdentifier type = type) :
    Option Json → Except AttributeFailure FullAttribute
  | none => .ok (withText name type Attribute.emptyValue hrendered)
  | some data =>
      if type = Attribute.compound then ofValue write name type hrendered (some data)
      else if type = "command" ∧ data.isObject then .ok (withText name type (write data) hrendered)
      else (flatInText data).map fun value => withText name type value hrendered

/-- The name of an attribute in a text. -/
def nameInText (name : String) : String :=
  if Text.renderIdentifier name = "" then Attribute.emptyValue else Text.renderIdentifier name

/-- An attribute of a name with the type and the value in a text. -/
def ofTypeAndTextValue (name : String) (d : Json) : Except AttributeFailure FullAttribute :=
  match htype : typeOf d with
  | .ok type => ofTextValue write name type (rendered_of_typeOf htype) (d.member "value")
  | .error e => .error e

/-- What the constructor from a text makes of an object. -/
def ofTextObject (d : Json) : Except AttributeFailure FullAttribute :=
  if (d.member "name").isSome then do
    let name ← textOf d "name"
    let att ← ofTypeAndTextValue write (nameInText name) d
    let metadatas ← metadatasOf d
    return { att with metadatas := metadatas }
  else .error (.runtimeError "Attribute: missing field [name]")

/-- The constructor from a text. -/
def ofText (lib : JsonLib) (text : String) : Except AttributeFailure FullAttribute :=
  match lib.parse text with
  | none => .error (.runtimeError "Attribute: ")
  | some (.object members) => ofTextObject lib.write (.object members)
  | some _ => .error .assertion

end FullAttribute

/-! ### Parts of messages -/

namespace Json

/-- `GetString()`, as a text. -/
def asText : Json → Except Stop String
  | string s => .ok (Text.cString s)
  | _ => .error .assertion

/-- The text of a member that need not be there, but has to be a string. -/
def textIfAny (d : Json) (name : String) : Except Stop String :=
  if (d.member name).isSome then d.getString name else .ok ""

/-- `IsString`. -/
def isString : Json → Bool
  | string _ => true
  | _ => false

/-- `IsArray`. -/
def isArray : Json → Bool
  | array _ => true
  | _ => false

/-- A member is there and is a string. -/
def hasString (d : Json) (name : String) : Bool :=
  (d.member name).any isString

/-- A member is there and is an array. -/
def hasArray (d : Json) (name : String) : Bool :=
  (d.member name).any isArray

end Json

namespace Entity

/-- What is missing without an identifier. -/
def missingId : Stop :=
  .runtimeError "Entity: missing field [id]"

/-- What both constructors make of an object. -/
def ofObject (d : Json) : Except Stop Entity :=
  if d.hasString "id" then
    .ok ⟨d.stringAt "id", d.stringAt "type", d.stringAt "isPattern"⟩
  else .error missingId

/-- The constructor from a JSON value. -/
def ofJson : Json → Except Stop Entity :=
  Json.readValue missingId ofObject

/-- The constructor from a text. -/
def ofText (lib : JsonLib) : String → Except Stop Entity :=
  Json.readText lib "Entity: " ofObject

end Entity

namespace Ngsi

/-- A condition of a subscription. -/
structure NotifyCondition where
  type : String
  values : List String

/-- An attribute of a registration. -/
structure AttributeRegister where
  name : String
  type : String
  isDomain : String

/-- A registration of entities. -/
structure ContextRegistration where
  entities : List Entity
  attributes : List AttributeRegister
  provider : String

namespace NotifyCondition

/-- What is missing without a type or values. -/
def invalid : Stop :=
  .runtimeError "NotifyCondition: invalid or missing field [type/condValues]"

/-- The constructor from a JSON value. -/
def ofJson : Json → Except Stop NotifyCondition :=
  Json.readValue invalid fun d =>
    if d.hasString "type" ∧ d.hasArray "condValues" then do
      let values ← (d.itemsAt "condValues").mapM Json.asText
      return { type := d.stringAt "type", values }
    else .error invalid

end NotifyCondition

/-- The constructor from a JSON value. -/
def AttributeRegister.ofJson : Json → Except Stop AttributeRegister :=
  Json.readValue (.runtimeError "Invalid Object") fun d =>
    if (d.member "name").isSome then do
      let name ← d.getString "name"
      let type ← d.textIfAny "type"
      let isDomain ← d.textIfAny "isDomain"
      return { name, type, isDomain }
    else .error (.runtimeError "AttributeRegister:  missing field [name]")

namespace ContextRegistration

/-- What is missing without a list of entities or attributes. -/
def invalid (name : String) : Stop :=
  .runtimeError ("ContextRegistration: invalid or missing field [" ++ name ++ "]")

/-- The constructor from a JSON value. -/
def ofJson : Json → Except Stop ContextRegistration :=
  Json.readValue (invalid "entities") fun d =>
    if d.hasArray "entities" then do
      let entities ← (d.itemsAt "entities").mapM Entity.ofJson
      if d.hasArray "attributes" then
        let attributes ← (d.itemsAt "attributes").mapM AttributeRegister.ofJson
        return { entities, attributes, provider := d.stringAt "providingApplication" }
      else .error (invalid "attributes")
    else .error (invalid "entities")

end ContextRegistration

/-! ### Registrations -/

/-- A message with registrations. -/
structure RegisterContext where
  contextRegistrations : List ContextRegistration
  duration : String
  registrationId : String

namespace RegisterContext

/-- What both constructors make of an object, but for a blank in the message. -/
def ofObject (failure : Stop) (d : Json) : Except Stop RegisterContext :=
  if d.hasArray "contextRegistrations" then do
    let contextRegistrations ← (d.itemsAt "contextRegistrations").mapM ContextRegistration.ofJson
    return {
      contextRegistrations
      duration := d.stringAt "duration"
      registrationId := d.stringAt "registrationId" }
  else .error failure

def invalidText : Stop :=
  .runtimeError "RegisterContext: invalid or missing  field [contextRegistrations]"

def invalidValue : Stop :=
  .runtimeError "RegisterContext: invalid or missing field [contextRegistrations]"

/-- The constructor from a text. -/
def ofText (lib : JsonLib) : String → Except Stop RegisterContext :=
  Json.readText lib "RegisterContext: " (ofObject invalidText)

/-- The constructor from a JSON value. -/
def ofJson : Json → Except Stop RegisterContext :=
  Json.readValue invalidValue (ofObject invalidValue)

end RegisterContext

/-! ### Queries -/

/-- A query. -/
structure QueryContext where
  entities : List Entity
  attributes : List String

namespace QueryContext

def invalid (name : String) : Stop :=
  .runtimeError ("QueryContext: invalid or missing field [" ++ name ++ "]")

/-- What the constructor from a text makes of an object. Without attributes there is no array
whose size could be asked for. -/
def ofTextObject (d : Json) : Except Stop QueryContext :=
  if d.hasArray "entities" then do
    let entities ← (d.itemsAt "entities").mapM Entity.ofJson
    match d.member "attributes" with
    | some (.array items) =>
        let attributes ← items.mapM Json.asText
        return { entities, attributes }
    | some _ => .error (invalid "attributes")
    | none => .error .assertion
  else .error (invalid "entities")

/-- What the constructor from a value makes of an object. -/
def ofObject (d : Json) : Except Stop QueryContext :=
  if d.hasArray "entities" then
    if d.hasArray "attributes" then do
      let entities ← (d.itemsAt "entities").mapM Entity.ofJson
      let attributes ← (d.itemsAt "attributes").mapM Json.asText
      return { entities, attributes }
    else .error (invalid "attributes")
  else .error (invalid "entities")

/-- The constructor from a text. -/
def ofText (lib : JsonLib) : String → Except Stop QueryContext :=
  Json.readText lib "QueryContext: " ofTextObject

/-- The constructor from a JSON value. -/
def ofJson : Json → Except Stop QueryContext :=
  Json.readValue (invalid "entities") ofObject

end QueryContext

/-! ### Subscriptions -/

/-- A subscription. -/
structure SubscribeContext where
  entities : List Entity
  attributes : List String
  reference : String
  duration : String
  throttling : String
  conditions : List NotifyCondition

namespace SubscribeContext

def missing : Stop :=
  .runtimeError "SubscribeContext: [entities] Missing field"

/-- The entities in a text. -/
def entitiesInText (d : Json) : Except Stop (List Entity) :=
  match d.member "entities" with
  | some (.array items) => items.mapM Entity.ofJson
  | some _ => .error (.runtimeError "SubscribeContext: [entities] Malformed field")
  | none => .error missing

/-- What the constructor from a text makes of an object. -/
def ofTextObject (d : Json) : Except Stop SubscribeContext := do
  let entities ← entitiesInText d
  let attributes ← (d.itemsAt "attributes").mapM Json.asText
  let throttling ← d.textIfAny "throttling"
  let duration ← d.textIfAny "duration"
  let reference ← d.textIfAny "reference"
  let conditions ← (d.itemsAt "notifyConditions").mapM NotifyCondition.ofJson
  return { entities, attributes, reference, duration, throttling, conditions }

/-- The duration in a value: the text of the member `reference`, if there is a duration. -/
def durationInValue (d : Json) : Except Stop String :=
  if (d.member "duration").isSome then d.getString "reference" else .ok ""

/-- What the constructor from a value makes of an object. -/
def ofObject (d : Json) : Except Stop SubscribeContext := do
  let entities ← (d.itemsAt "entities").mapM Entity.ofJson
  let attributes ← (d.itemsAt "attributes").mapM Json.asText
  let reference ← d.textIfAny "reference"
  let duration ← durationInValue d
  let throttling ← d.textIfAny "throttling"
  let conditions ← (d.itemsAt "notifyConditions").mapM NotifyCondition.ofJson
  return { entities, attributes, reference, duration, throttling, conditions }

/-- The constructor from a text. -/
def ofText (lib : JsonLib) : String → Except Stop SubscribeContext :=
  Json.readText lib "SubscribeContext: " ofTextObject

/-- The constructor from a JSON value. -/
def ofJson : Json → Except Stop SubscribeContext :=
  Json.readValue missing ofObject

end SubscribeContext

/-! ### Responses -/

/-- A response for an element. -/
structure ContextResponse where
  code : String
  reason : String
  details : String
  contextElement : EnvElement

namespace ContextResponse

/-- The element in a response, if there is one. -/
def elementOf (lib : JsonLib) (d : Json) : Except Stop EnvElement :=
  match d.member "contextElement" with
  | some (.object members) => EnvElement.ofJson lib (.object members)
  | _ => .ok (EnvElement.ofTexts "" "" "")

/-- What both constructors make of an object. -/
def ofObject (lib : JsonLib) (d : Json) : Except Stop ContextResponse :=
  match d.member "statusCode" with
  | some (.object members) =>
      if (Json.object members).hasString "code" then do
        let contextElement ← elementOf lib d
        return {
          code := (Json.object members).stringAt "code"
          reason := (Json.object members).stringAt "reasonPhrase"
          details := (Json.object members).stringAt "details"
          contextElement }
      else .error (.runtimeError "ContextResponse: invalid or missing field [statusCode]")
  | _ => .error (.runtimeError "ContextResponse: invalid or missing field [statusCode]")

/-- The constructor from a text. -/
def ofText (lib : JsonLib) : String → Except Stop ContextResponse :=
  Json.readText lib "ContextResponse: " (ofObject lib)

/-- The constructor from a JSON value, where `HasMember` asserts that it has an object. -/
def ofJson (lib : JsonLib) : Json → Except Stop ContextResponse :=
  Json.readValue .assertion (ofObject lib)

end ContextResponse

end Ngsi

end IotAgent
