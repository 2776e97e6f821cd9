import IotAgent.Util.Cache
import IotAgent.Util.Json

/-!
The file of devices (`src/util/dev_file.cc`).

An agent without a database reads its devices from a file, once, into the cache. A value of
the wrong kind ends the reading, and what was read before it stays.

* `DevicesFile.deviceOfJson`: a device of the file, and `deviceOfJson_spec`: it has a service
  path and never a protocol;
* `DevicesFile.parseToCache`: the devices of a document put into a cache;
* `DevicesFile.mem_parseToCache`: what is in the cache afterwards.
-/

namespace IotAgent

/-- `get_value_from_rapidjson`: the text of a scalar; it throws for any other value. -/
def getValueFromRapidjson : Json → Option String
  | .bool b => some (if b then "1" else "0")
  | .number text => some text
  | .string s => some s
  | .null | .array _ | .object _ => none

namespace DevicesFile

/-- A member that must be there. `none` stands for an exception and for a failed assertion:
nothing is read behind either. -/
def mandatory (item : Json) (name : String) : Option String :=
  (item.member name).bind getValueFromRapidjson

/-- A member that is empty if it is not there. -/
def optional (item : Json) (name : String) : Option String :=
  match item with
  | .object _ =>
      match item.member name with
      | some value => getValueFromRapidjson value
      | none => some ""
  | _ => none

/-- A map with an entry for each item of a member, if there is one. -/
def mapOf (item : Json) (name : String) (entry : Json → Option (String × String)) :
    Option StrMap :=
  match item.member name with
  | none => some []
  | some (.array items) => (items.mapM entry).map fun entries =>
      entries.foldl (fun m kv => StrMap.insert m kv.1 kv.2) []
  | some _ => none

/-- The name of a command and its text. -/
def commandEntry (item : Json) : Option (String × String) := do
  let attrName ← mandatory item StoreTypes.name
  let attrCmd ← mandatory item StoreTypes.command
  return (attrName, attrCmd)

/-- The identifier of an attribute and the JSON text of its type and name. -/
def attributeEntry (item : Json) : Option (String × String) := do
  let attrName ← optional item StoreTypes.attributeId
  let attrAttr ← optional item StoreTypes.name
  let attrType ← optional item StoreTypes.type
  return (attrName, "\x7b" ++
    (if attrType ≠ "" then "\"type\":\"" ++ attrType ++ "\"," else "") ++
    (if attrAttr ≠ "" then "\"name\":\"" ++ attrAttr ++ "\"" else "") ++ "\x7d")

variable (lib : JsonLib)

/-- The name of a static attribute and its text. -/
def staticAttributeEntry (item : Json) : Option (String × String) := do
  let attrName ← mandatory item StoreTypes.name
  return (attrName, lib.write item)

/-- A device of the file. -/
def deviceOfJson (item : Json) : Option Device := do
  let id ← mandatory item StoreTypes.deviceId
  let type ← optional item StoreTypes.entityType
  let endpoint ← optional item StoreTypes.endpoint
  let timezone ← optional item StoreTypes.timezone
  let entity ← optional item StoreTypes.entityName
  let service ← optional item StoreTypes.service
  let servicePath ← optional item StoreTypes.servicePath
  let status ← optional item StoreTypes.status
  let commands ← mapOf item StoreTypes.commands commandEntry
  let attributes ← mapOf item StoreTypes.attributes attributeEntry
  let staticAttributes ← mapOf item StoreTypes.staticAttributes (staticAttributeEntry lib)
  return { Device.ofEntity entity type service with
    name := id
    timezone
    endpoint
    servicePath := if servicePath = "" then Types.fiwareServicepathDefault else servicePath
    active := if status = StoreTypes.inactive then 0 else 1
    commands
    attributes
    staticAttributes }

variable {h : Hashing}

/-- The devices of a list, up to the first that cannot be read. -/
def parseDevices (pcache : Cache h) : List Json → Cache h
  | [] => pcache
  | item :: items =>
      match deviceOfJson lib item with
      | some d => parseDevices (pcache.insert d) items
      | none => pcache

/-- The devices of a document put into a cache. -/
def parseToCache (document : Json) (pcache : Cache h) : Cache h :=
  match document.member StoreTypes.devices with
  | some (.array items) => parseDevices lib pcache items
  | _ => pcache

variable {lib} {document : Json} {pcache : Cache h} {d : Device}

/-- A device of the file has a service path, and no protocol. -/
lemma deviceOfJson_spec {item : Json} (hd : deviceOfJson lib item = some d) :
    d.servicePath ≠ "" ∧ d.protocol = "" := by
  simp only [deviceOfJson, Option.bind_eq_bind, Option.bind_eq_some_iff, Option.pure_def,
    Option.some.injEq] at hd
  obtain ⟨id, -, type, -, endpoint, -, timezone, -, entity, -, service, -, servicePath, -,
    status, -, commands, -, attributes, -, staticAttributes, -, rfl⟩ := hd
  refine ⟨?_, rfl⟩
  dsimp only
  split
  · decide
  · next hpath => exact hpath

lemma mem_parseDevices {items : List Json} (hd : d ∈ (parseDevices lib pcache items).list) :
    d ∈ pcache.list ∨ ∃ item ∈ items, deviceOfJson lib item = some d := by
  induction items generalizing pcache with
  | nil => exact .inl hd
  | cons item items ih =>
      rw [parseDevices] at hd
      split at hd
      · next e he =>
          rcases ih hd with hd | ⟨i, hi, hid⟩
          · rcases Cache.eq_or_mem_of_mem_insert hd with rfl | hd
            · exact .inr ⟨item, by simp, he⟩
            · exact .inl hd
          · exact .inr ⟨i, .tail _ hi, hid⟩
      · exact .inl hd

/-- A cache holds what it held, and devices of the file. -/
theorem mem_parseToCache (hd : d ∈ (parseToCache lib document pcache).list) :
    d ∈ pcache.list ∨ ∃ item, deviceOfJson lib item = some d := by
  rw [parseToCache] at hd
  split at hd
  · next items hitems =>
      rcases mem_parseDevices hd with hd | ⟨item, -, hitem⟩
      · exact .inl hd
      · exact .inr ⟨item, hitem⟩
  · exact .inl hd

end DevicesFile

end IotAgent
