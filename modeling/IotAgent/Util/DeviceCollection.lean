import IotAgent.Mongo.Table
import IotAgent.Util.Device

/-!
The table of devices.

As with commands an empty field of a device is left out of the document, and out of the
query. Attributes are stored as documents and kept in a device as their JSON texts; the
conversion between the two is the driver's and a parameter here.

* `obj2BSON`, `bson2Obj`: a device as a document and back;
* `matches_key`: what a partially filled device finds;
* `findOne`: the first device that matches.
-/

namespace IotAgent

open Mongo

/-- The driver's conversions between documents and JSON texts. -/
structure JsonText where
  jsonString : Doc → String
  fromjson : String → Option Doc

/-- The unique indexes of the table of devices. A second one, on the entity, is asked for
and never made: `createIndex` compares where it should assign, so with two indexes (that of
the document id and the one below) it keeps them. -/
def deviceIndexes : List (List String) :=
  [[StoreTypes.deviceId, StoreTypes.service, StoreTypes.servicePath]]

/-- The table of devices. -/
abbrev DeviceTable := Table deviceIndexes

namespace DeviceCollection

variable (J : JsonText)

/-- Names and values out of an array of documents. -/
def bson2Map (obj : Doc) : StrMap :=
  (obj.filterMap fun elto => elto.2.toDoc).foldl
    (fun m elto => m.insert (elto.getStringField StoreTypes.name)
      (elto.getStringField StoreTypes.attributeValue)) []

/-- Names and JSON texts out of an array of documents. -/
def bson2MapAttribute (obj : Doc) (keyMap : String) : StrMap :=
  (obj.filterMap fun elto => elto.2.toDoc).foldl
    (fun m elto => m.insert (elto.getStringField keyMap) (J.jsonString elto)) []

/-- Names and values as an array of documents. -/
def map2BSON (fieldName : String) (datamap : StrMap) : Bson :=
  .arr (datamap.map fun kv =>
    .obj [(StoreTypes.name, .str kv.1), (StoreTypes.type, .str fieldName),
      (fieldName, .str kv.2)])

/-- Names and JSON texts as an array of documents; a text that is no JSON is dropped. -/
def map2BSONAttribute (datamap : StrMap) (keyMap : String) : Bson :=
  .arr (datamap.filterMap fun kv =>
    (J.fromjson kv.2).map fun obj => .obj (obj ++ [(keyMap, .str kv.1)]))

/-- A device as a document; with the shard key. -/
def obj2BSON (d : Device) : Doc :=
  Doc.opt (d.name ≠ "") StoreTypes.deviceId (.str d.name) ++
  Doc.opt (d.service ≠ "") StoreTypes.service (.str d.service) ++
  Doc.opt (d.servicePath ≠ "") StoreTypes.servicePath (.str d.servicePath) ++
  Doc.opt (d.active ≠ intMin) StoreTypes.activate (.int d.active) ++
  Doc.opt (d.endpoint ≠ "") StoreTypes.endpoint (.str d.endpoint) ++
  Doc.opt (d.protocol ≠ "") StoreTypes.protocol (.str d.protocol) ++
  Doc.opt (d.entityName ≠ "") StoreTypes.entityName (.str d.entityName) ++
  Doc.opt (d.entityType ≠ "") StoreTypes.entityType (.str d.entityType) ++
  Doc.opt (d.model ≠ "") StoreTypes.model (.str d.model) ++
  Doc.opt (d.registrationId ≠ "") StoreTypes.registrationId (.str d.registrationId) ++
  Doc.opt (d.durationCb ≠ longMin) StoreTypes.durationCb (.int d.durationCb) ++
  Doc.opt (d.timestampData ≠ -1) StoreTypes.timestampData (.int d.timestampData) ++
  Doc.opt (d.timezone ≠ "") StoreTypes.timezone (.str d.timezone) ++
  Doc.opt (d.commands ≠ []) StoreTypes.commands (map2BSON StoreTypes.commands d.commands) ++
  Doc.opt (d.attributes ≠ []) StoreTypes.attributes
    (map2BSONAttribute J d.attributes StoreTypes.attributeId) ++
  Doc.opt (d.staticAttributes ≠ []) StoreTypes.staticAttributes
    (map2BSONAttribute J d.staticAttributes StoreTypes.name)

/-- A document read as a device. Without the field a device is active. -/
def bson2Obj (obj : Doc) : Device :=
  { Device.ofName (obj.getStringField StoreTypes.deviceId)
      (obj.getStringField StoreTypes.service) with
    servicePath := obj.getStringField StoreTypes.servicePath
    entityType := obj.getStringField StoreTypes.entityType
    entityName := obj.getStringField StoreTypes.entityName
    protocol := obj.getStringField StoreTypes.protocol
    timezone := obj.getStringField StoreTypes.timezone
    endpoint := obj.getStringField StoreTypes.endpoint
    registrationId := obj.getStringField StoreTypes.registrationId
    durationCb := toInt (obj.getIntField StoreTypes.durationCb)
    timestampData := obj.numberLong StoreTypes.timestampData
    attributes := bson2MapAttribute J (obj.getObjectField StoreTypes.attributes)
      StoreTypes.attributeId
    commands := bson2Map (obj.getObjectField StoreTypes.commands)
    staticAttributes := bson2MapAttribute J (obj.getObjectField StoreTypes.staticAttributes)
      StoreTypes.name
    model := obj.getStringField StoreTypes.model
    active :=
      if obj.hasField StoreTypes.activate then
        if obj.getBoolField StoreTypes.activate then 1 else 0
      else 1 }

/-- The first device that matches a partially filled one. -/
def findOne (table : DeviceTable) (query : Device) : Option Device :=
  (table.findOne (obj2BSON J query)).map (bson2Obj J)

/-- A device that serves as a key. -/
def keyOf (name service servicePath entityName entityType protocol : String) : Device :=
  { name, service, servicePath, entityName, entityType, protocol }

/-- What a key finds: an empty part of the key is no condition. -/
lemma matches_key {name service servicePath entityName entityType protocol : String}
    {d : Doc} :
    Matches (obj2BSON J (keyOf name service servicePath entityName entityType protocol)) d ↔
      (name ≠ "" → (bson2Obj J d).name = name) ∧
      (service ≠ "" → (bson2Obj J d).service = service) ∧
      (servicePath ≠ "" → (bson2Obj J d).servicePath = servicePath) ∧
      (protocol ≠ "" → (bson2Obj J d).protocol = protocol) ∧
      (entityName ≠ "" → (bson2Obj J d).entityName = entityName) ∧
      (entityType ≠ "" → (bson2Obj J d).entityType = entityType) := by
  have hstr : ∀ (f s : String), (s ≠ "" → d.get f = some (.str s)) ↔
      (s ≠ "" → d.getStringField f = s) :=
    fun f s => forall_congr' fun hs => (Doc.getStringField_eq_iff hs).symm
  rw [obj2BSON]
  simp only [matches_append, matches_opt, hstr]
  simp only [keyOf, ne_eq, not_true_eq_false, false_implies, and_true, and_assoc]
  rfl

lemma findOne_eq_some {table : DeviceTable} {query d : Device}
    (h : findOne J table query = some d) :
    ∃ doc ∈ table.docs, Matches (obj2BSON J query) doc ∧ bson2Obj J doc = d := by
  obtain ⟨doc, hdoc, rfl⟩ := Option.map_eq_some_iff.mp h
  exact ⟨doc, (Table.findOne_eq_some hdoc).1, (Table.findOne_eq_some hdoc).2, rfl⟩

end DeviceCollection

end IotAgent
