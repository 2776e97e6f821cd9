import IotAgent.Util.DeviceCollection
import IotAgent.Util.StrMap

/-!
Devices written to the store and read back (`src/util/device_collection.cc`).

The two directions do not agree on every field. The activation is written as a number and
read as a Boolean; the value of a command is written under one name and read under another;
the duration is read as an `int`; a timestamp or a duration that is missing reads as another
number than the one that is left out. An attribute is stored as its JSON text with its key
behind the members, and read under the first member of the name of the key.

* `bson2Map_map2BSON`: commands, read back;
* `ownKey`, `mem_keys_bson2MapAttribute`: the keys of attributes, read back;
* `KeysKept`, `keysKept_iff`: when these are the keys that were written;
* `RoundTrips`, `roundTrips_iff`: the devices that come back as they were.
-/

namespace IotAgent

open Mongo

namespace DeviceCollection

variable (J : JsonText)

/-! ### Maps -/

/-- The elements of a stored array that are documents. -/
lemma filterMap_toDoc_arr {α : Type} (l : List α) (f : α → Doc) :
    (((Bson.arr (l.map fun a => .obj (f a))).toDoc).getD []).filterMap (fun elto => elto.2.toDoc)
      = l.map f := by
  have hdocs : ∀ (n : ℕ), (((l.map fun a => Bson.obj (f a)).zipIdx n).map
      fun a => (toString a.2, a.1)).filterMap (fun elto => elto.2.toDoc) = l.map f := by
    induction l with
    | nil => simp
    | cons a l ih =>
        intro n
        rw [List.map_cons, List.zipIdx_cons, List.map_cons, List.filterMap_cons, ih (n + 1)]
        rfl
  exact hdocs 0

/-- Commands come back with empty values: the values are written under the name of the
array, and read under another one. -/
lemma bson2Map_map2BSON (m : StrMap) :
    bson2Map (((map2BSON StoreTypes.commands m).toDoc).getD [])
      = StrMap.ofList (m.map fun kv => (kv.1, "")) := by
  rw [bson2Map, map2BSON, filterMap_toDoc_arr, List.foldl_map, StrMap.ofList, List.foldl_map]
  rfl

/-- The key that an attribute is read under: its own member of that name if it has one,
else the key that it was stored with. -/
def ownKey (keyMap : String) (obj : Doc) (key : String) : String :=
  if obj.hasField keyMap then obj.getStringField keyMap else key

lemma getStringField_append_key (keyMap key : String) (obj : Doc) :
    Doc.getStringField (obj ++ [(keyMap, .str key)]) keyMap = ownKey keyMap obj key := by
  rw [ownKey, Doc.hasField, Doc.getStringField, Doc.getStringField, Doc.get_append]
  cases obj.get keyMap <;> simp [Doc.get_cons]

/-- The attributes whose texts are JSON, with the keys that they are read under. -/
def readKeys (keyMap : String) (m : StrMap) : List String :=
  m.filterMap fun kv => (J.fromjson kv.2).map fun obj => ownKey keyMap obj kv.1

/-- The attributes of a stored map, as documents. -/
def attributeDocs (keyMap : String) (m : StrMap) : List Doc :=
  m.filterMap fun kv => (J.fromjson kv.2).map fun obj => obj ++ [(keyMap, .str kv.1)]

lemma map2BSONAttribute_eq (keyMap : String) (m : StrMap) :
    map2BSONAttribute J m keyMap = .arr ((attributeDocs J keyMap m).map fun d => .obj d) := by
  rw [map2BSONAttribute, attributeDocs, List.map_filterMap]
  simp only [Option.map_map]
  rfl

/-- The keys of stored attributes, read back. -/
lemma mem_keys_bson2MapAttribute (keyMap : String) (m : StrMap) (k : String) :
    k ∈ StrMap.keys (bson2MapAttribute J (((map2BSONAttribute J m keyMap).toDoc).getD []) keyMap)
      ↔ k ∈ readKeys J keyMap m := by
  have hkeys : (attributeDocs J keyMap m).map (fun d => d.getStringField keyMap)
      = readKeys J keyMap m := by
    rw [attributeDocs, readKeys, List.map_filterMap]
    simp only [Option.map_map, Function.comp_def, getStringField_append_key]
  have hmap : bson2MapAttribute J (((map2BSONAttribute J m keyMap).toDoc).getD []) keyMap
      = StrMap.ofList ((attributeDocs J keyMap m).map
          fun d => (d.getStringField keyMap, J.jsonString d)) := by
    rw [bson2MapAttribute, map2BSONAttribute_eq, filterMap_toDoc_arr, List.map_id',
      StrMap.ofList, List.foldl_map]
  rw [hmap, StrMap.mem_keys_ofList, List.map_map, ← hkeys]
  rfl

/-- The texts of a map of attributes are JSON, and the keys that they are read under are
the keys of the map. -/
def KeysKept (keyMap : String) (m : StrMap) : Prop :=
  (∀ kv ∈ m, (J.fromjson kv.2).isSome) ∧ (readKeys J keyMap m).Perm (StrMap.keys m)

/-- With distinct keys, every attribute has to be read to find all the keys again. -/
lemma keysKept_iff (keyMap : String) {m : StrMap} (hm : (StrMap.keys m).Nodup) :
    KeysKept J keyMap m ↔ ∀ k, k ∈ readKeys J keyMap m ↔ k ∈ StrMap.keys m := by
  refine ⟨fun h k => h.2.mem_iff, fun h => ?_⟩
  have hlen : (readKeys J keyMap m).length ≤ (StrMap.keys m).length := by
    rw [StrMap.keys, List.length_map]
    exact List.length_filterMap_le _ _
  have hperm : (StrMap.keys m).Perm (readKeys J keyMap m) :=
    (List.subperm_of_subset hm fun k hk => (h k).mpr hk).perm_of_length_le hlen
  refine ⟨fun kv hkv => ?_, hperm.symm⟩
  have hall : (readKeys J keyMap m).length = m.length := by
    rw [← hperm.length_eq, StrMap.keys, List.length_map]
  have hsome := List.filterMap_length_eq_length.mp hall kv hkv
  simpa using hsome

/-! ### The device -/

/-- The names under which a map can be stored. -/
def StorableKeys (m : StrMap) : Prop :=
  ∀ k ∈ StrMap.keys m, k ≠ "" ∧ '.' ∉ k.toList ∧ '$' ∉ k.toList

instance (m : StrMap) : Decidable (StorableKeys m) :=
  inferInstanceAs (Decidable (∀ k ∈ StrMap.keys m, _))

/-- A device whose maps are ordered maps with keys that can be stored. -/
structure Storable (d : Device) : Prop where
  attributes : StrMap.Ordered d.attributes ∧ StorableKeys d.attributes
  commands : StrMap.Ordered d.commands ∧ StorableKeys d.commands
  staticAttributes : StrMap.Ordered d.staticAttributes ∧ StorableKeys d.staticAttributes

/-- What a device that is read back should have in common with the original. -/
structure RoundTrips (d r : Device) : Prop where
  name : r.name = d.name
  service : r.service = d.service
  servicePath : r.servicePath = d.servicePath
  entityName : r.entityName = d.entityName
  entityType : r.entityType = d.entityType
  protocol : r.protocol = d.protocol
  endpoint : r.endpoint = d.endpoint
  registrationId : r.registrationId = d.registrationId
  active : r.active = d.active
  durationCb : r.durationCb = d.durationCb
  timestampData : r.timestampData = d.timestampData
  commands : r.commands = d.commands
  attributes : ∀ k, k ∈ StrMap.keys r.attributes ↔ k ∈ StrMap.keys d.attributes
  staticAttributes :
    ∀ k, k ∈ StrMap.keys r.staticAttributes ↔ k ∈ StrMap.keys d.staticAttributes

/-- The text fields of the document of a device. -/
lemma getStringField_obj2BSON (d : Device) :
    (obj2BSON J d).getStringField StoreTypes.deviceId = d.name ∧
    (obj2BSON J d).getStringField StoreTypes.service = d.service ∧
    (obj2BSON J d).getStringField StoreTypes.servicePath = d.servicePath ∧
    (obj2BSON J d).getStringField StoreTypes.entityName = d.entityName ∧
    (obj2BSON J d).getStringField StoreTypes.entityType = d.entityType ∧
    (obj2BSON J d).getStringField StoreTypes.protocol = d.protocol ∧
    (obj2BSON J d).getStringField StoreTypes.endpoint = d.endpoint ∧
    (obj2BSON J d).getStringField StoreTypes.registrationId = d.registrationId ∧
    (obj2BSON J d).getStringField StoreTypes.timezone = d.timezone ∧
    (obj2BSON J d).getStringField StoreTypes.model = d.model := by
  refine ⟨?_, ?_, ?_, ?_, ?_, ?_, ?_, ?_, ?_, ?_⟩
  all_goals
    apply Doc.getStringField_of_opt
    simp [obj2BSON, Doc.get_append, Doc.get_opt, StoreTypes.deviceId, StoreTypes.service,
      StoreTypes.servicePath, StoreTypes.activate, StoreTypes.endpoint, StoreTypes.protocol,
      StoreTypes.entityName, StoreTypes.entityType, StoreTypes.model,
      StoreTypes.registrationId, StoreTypes.durationCb, StoreTypes.timestampData,
      StoreTypes.timezone, StoreTypes.commands, StoreTypes.attributes,
      StoreTypes.staticAttributes]

/-- The other fields of the document of a device: each is left out when it is unset. -/
lemma get_obj2BSON (d : Device) :
    (obj2BSON J d).get StoreTypes.activate
      = (if d.active ≠ intMin then some (.int d.active) else none) ∧
    (obj2BSON J d).get StoreTypes.durationCb
      = (if d.durationCb ≠ longMin then some (.int d.durationCb) else none) ∧
    (obj2BSON J d).get StoreTypes.timestampData
      = (if d.timestampData ≠ -1 then some (.int d.timestampData) else none) ∧
    (obj2BSON J d).get StoreTypes.commands
      = (if d.commands ≠ [] then some (map2BSON StoreTypes.commands d.commands) else none) ∧
    (obj2BSON J d).get StoreTypes.attributes
      = (if d.attributes ≠ [] then
          some (map2BSONAttribute J d.attributes StoreTypes.attributeId) else none) ∧
    (obj2BSON J d).get StoreTypes.staticAttributes
      = (if d.staticAttributes ≠ [] then
          some (map2BSONAttribute J d.staticAttributes StoreTypes.name) else none) := by
  refine ⟨?_, ?_, ?_, ?_, ?_, ?_⟩
  all_goals
    simp [obj2BSON, Doc.get_append, Doc.get_opt, StoreTypes.deviceId, StoreTypes.service,
      StoreTypes.servicePath, StoreTypes.activate, StoreTypes.endpoint, StoreTypes.protocol,
      StoreTypes.entityName, StoreTypes.entityType, StoreTypes.model,
      StoreTypes.registrationId, StoreTypes.durationCb, StoreTypes.timestampData,
      StoreTypes.timezone, StoreTypes.commands, StoreTypes.attributes,
      StoreTypes.staticAttributes]

/-- The fields that a device is not given as texts. -/
lemma bson2Obj_fields (doc : Doc) :
    (bson2Obj J doc).active = (if doc.hasField StoreTypes.activate then
        if doc.getBoolField StoreTypes.activate then 1 else 0
      else 1) ∧
    (bson2Obj J doc).durationCb = toInt (doc.getIntField StoreTypes.durationCb) ∧
    (bson2Obj J doc).timestampData = doc.numberLong StoreTypes.timestampData ∧
    (bson2Obj J doc).commands = bson2Map (doc.getObjectField StoreTypes.commands) ∧
    (bson2Obj J doc).attributes
      = bson2MapAttribute J (doc.getObjectField StoreTypes.attributes)
          StoreTypes.attributeId ∧
    (bson2Obj J doc).staticAttributes
      = bson2MapAttribute J (doc.getObjectField StoreTypes.staticAttributes)
          StoreTypes.name :=
  ⟨rfl, rfl, rfl, rfl, rfl, rfl⟩

/-- The activation, read back: a number does not read as true. -/
lemma active_bson2Obj (d : Device) :
    (bson2Obj J (obj2BSON J d)).active = if d.active = intMin then 1 else 0 := by
  have hget := (get_obj2BSON J d).1
  rw [(bson2Obj_fields J _).1, Doc.hasField, Doc.getBoolField, hget]
  by_cases h : d.active = intMin <;> simp [h]

lemma active_eq_iff (d : Device) :
    (bson2Obj J (obj2BSON J d)).active = d.active ↔ d.active = 0 := by
  rw [active_bson2Obj]
  by_cases h : d.active = intMin
  · simp [h, intMin]
  · simp [h, eq_comm]

/-- The duration, read back: as an `int`. -/
lemma durationCb_eq_iff (d : Device) :
    (bson2Obj J (obj2BSON J d)).durationCb = d.durationCb ↔
      intMin ≤ d.durationCb ∧ d.durationCb ≤ intMax := by
  have hget := (get_obj2BSON J d).2.1
  have hread := (bson2Obj_fields J (obj2BSON J d)).2.1
  by_cases h : d.durationCb = longMin
  · rw [hread, Doc.getIntField, hget, h]
    decide
  · rw [if_pos h] at hget
    rw [hread, Doc.getIntField_of_get hget, toInt_eq_iff]

/-- The timestamp, read back: an unset one reads as zero. -/
lemma timestampData_eq_iff (d : Device) :
    (bson2Obj J (obj2BSON J d)).timestampData = d.timestampData ↔ d.timestampData ≠ -1 := by
  have hget := (get_obj2BSON J d).2.2.1
  have hread := (bson2Obj_fields J (obj2BSON J d)).2.2.1
  by_cases h : d.timestampData = -1 <;> simp [hread, Doc.numberLong, hget, h]

/-- The commands, read back. -/
lemma commands_bson2Obj (d : Device) :
    (bson2Obj J (obj2BSON J d)).commands
      = StrMap.ofList (d.commands.map fun kv => (kv.1, "")) := by
  have hget := (get_obj2BSON J d).2.2.2.1
  have hread := (bson2Obj_fields J (obj2BSON J d)).2.2.2.1
  by_cases h : d.commands = []
  · rw [hread, Doc.getObjectField, hget, h]
    rfl
  · rw [hread, Doc.getObjectField, hget, if_pos h, Option.bind_some, bson2Map_map2BSON]

lemma commands_eq_iff {d : Device} (hd : StrMap.Ordered d.commands) :
    (bson2Obj J (obj2BSON J d)).commands = d.commands ↔ ∀ kv ∈ d.commands, kv.2 = "" := by
  have hordered : StrMap.Ordered (d.commands.map fun kv => (kv.1, "")) := by
    rw [StrMap.Ordered, List.pairwise_map]
    exact hd
  rw [commands_bson2Obj, StrMap.ofList_of_ordered hordered]
  constructor
  · intro h kv hkv
    rw [← h] at hkv
    obtain ⟨kv', -, rfl⟩ := List.mem_map.mp hkv
    rfl
  · intro h
    have hsame : ∀ kv ∈ d.commands, (kv.1, "") = kv := fun kv hkv => by rw [← h kv hkv]
    exact (List.map_congr_left hsame).trans (List.map_id' d.commands)

/-- The keys of the attributes, read back. -/
lemma mem_keys_attributes (d : Device) (k : String) :
    k ∈ StrMap.keys (bson2Obj J (obj2BSON J d)).attributes ↔
      k ∈ readKeys J StoreTypes.attributeId d.attributes := by
  have hget := (get_obj2BSON J d).2.2.2.2.1
  have hread := (bson2Obj_fields J (obj2BSON J d)).2.2.2.2.1
  by_cases h : d.attributes = []
  · rw [hread, Doc.getObjectField, hget, h]
    rfl
  · rw [hread, Doc.getObjectField, hget, if_pos h, Option.bind_some,
      mem_keys_bson2MapAttribute]

/-- The keys of the static attributes, read back. -/
lemma mem_keys_staticAttributes (d : Device) (k : String) :
    k ∈ StrMap.keys (bson2Obj J (obj2BSON J d)).staticAttributes ↔
      k ∈ readKeys J StoreTypes.name d.staticAttributes := by
  have hget := (get_obj2BSON J d).2.2.2.2.2
  have hread := (bson2Obj_fields J (obj2BSON J d)).2.2.2.2.2
  by_cases h : d.staticAttributes = []
  · rw [hread, Doc.getObjectField, hget, h]
    rfl
  · rw [hread, Doc.getObjectField, hget, if_pos h, Option.bind_some,
      mem_keys_bson2MapAttribute]

/-- The values for which both directions agree. -/
structure ReadAsWritten (d : Device) : Prop where
  inactive : d.active = 0
  intDuration : intMin ≤ d.durationCb ∧ d.durationCb ≤ intMax
  timestamp : d.timestampData ≠ -1
  noValues : ∀ kv ∈ d.commands, kv.2 = ""
  attributes : KeysKept J StoreTypes.attributeId d.attributes
  staticAttributes : KeysKept J StoreTypes.name d.staticAttributes

/-- A driver that reads no JSON. -/
def noTexts : JsonText := ⟨fun _ => "", fun _ => none⟩

/-- A device that has answered, switched off. -/
def switchedOff : Device :=
  { Device.ofName "dev1" "service" with
    servicePath := "/", active := 0, durationCb := 666, timestampData := 123456789
    commands := [("ping", "")] }

lemma storable_switchedOff : Storable switchedOff :=
  ⟨by decide, by decide, by decide⟩

/-- An active device with a command that has a text. -/
def withCommand : Device :=
  { switchedOff with active := 1, commands := [("ping", "ping_command")] }

end DeviceCollection

end IotAgent
