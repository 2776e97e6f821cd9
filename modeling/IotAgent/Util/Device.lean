import IotAgent.Util.Types

/-!
Devices.

A device of a service and a service path, with the entity it stands for. As with commands
the unique index of a cache compares the name and the service, and the hash value mixes in
the service path as well.

* `Device.ofName`, `Device.ofEntity`: the constructors;
* `Device.collide`: equality as the unique index of a hashed container sees it;
* `Device.getRealName`: the name of the entity of the device;
* `Device.getAttribute`: the mapping of an attribute of the device.
-/

namespace IotAgent

open Mongo

structure Device where
  name : String := ""
  protocol : String := ""
  service : String := ""
  servicePath : String := ""
  entityType : String := ""
  entityName : String := ""
  timezone : String := ""
  endpoint : String := ""
  attributes : StrMap := []
  commands : StrMap := []
  staticAttributes : StrMap := []
  model : String := ""
  active : ℤ := intMin
  registrationId : String := ""
  durationCb : ℤ := longMin
  timestampData : ℤ := -1
  deriving DecidableEq, Inhabited

namespace Device

/-- A device of a name. -/
def ofName (name service : String) : Device :=
  { name, service }

/-- A device of an entity. -/
def ofEntity (entityName entityType service : String) : Device :=
  { entityName, entityType, service }

/-- `operator==`. -/
def Equal (a b : Device) : Prop :=
  a.name = b.name ∧ a.service = b.service

instance (a b : Device) : Decidable (Equal a b) :=
  inferInstanceAs (Decidable (_ ∧ _))

/-- `hash_value`, which also mixes in the service path. -/
def hashValue (h : Hashing) (d : Device) : ℕ :=
  h.hashCombine (h.hashCombine (h.hashCombine 0 d.name) d.service) d.servicePath

/-- The bucket of a device. -/
def bucket (h : Hashing) (d : Device) : ℕ :=
  h.bucket (d.hashValue h)

/-- Two devices that a unique hashed index takes for one: equal, and in one bucket. -/
def collide (h : Hashing) (a b : Device) : Prop :=
  a.bucket h = b.bucket h ∧ Equal a b

instance (h : Hashing) : DecidableRel (collide h) :=
  fun _ _ => inferInstanceAs (Decidable (_ ∧ _))

/-- The key of the index by entity. -/
def uniqueEntity (d : Device) : String :=
  d.service ++ ":" ++ d.servicePath ++ ":" ++ d.entityName ++ ":" ++ d.entityType ++ ":" ++
    d.protocol

/-- The key of the index by name. -/
def uniqueName (d : Device) : String :=
  d.name

/-- The name of the entity of the device; by default made of a type and the name. -/
def getRealName (d : Device) (service : PTree) : String :=
  let serviceEntityType := service.get StoreTypes.entityType ""
  let entityType :=
    if d.entityType ≠ "" ∧ d.entityType ≠ StoreTypes.default then d.entityType
    else if serviceEntityType ≠ "" then serviceEntityType
    else "thing"
  if d.entityName ≠ "" ∧ d.entityName ≠ StoreTypes.default then d.entityName
  else entityType ++ ":" ++ d.name

/-- `get_attribute`. A look-up of a name that is not there leaves an empty text under it,
which reads the same. -/
def getAttribute (d : Device) (objectId : String) : String :=
  (d.attributes.lookup objectId).getD ""

variable {h : Hashing} {a b : Device}

lemma collide_refl (a : Device) : collide h a a := ⟨rfl, rfl, rfl⟩

lemma collide_symm (a b : Device) (hab : collide h a b) : collide h b a :=
  ⟨hab.1.symm, hab.2.1.symm, hab.2.2.symm⟩

/-- What is taken for one key is taken for one another. -/
lemma collide_of_key {k : Device} (ha : collide h a k) (hb : collide h b k) : collide h a b :=
  ⟨ha.1.trans hb.1.symm, ha.2.1.trans hb.2.1.symm, ha.2.2.trans hb.2.2.symm⟩

/-- The key of the unique index, its part of the hash value included. -/
def SameKey (a b : Device) : Prop :=
  a.name = b.name ∧ a.service = b.service ∧ a.servicePath = b.servicePath

lemma SameKey.bucket_eq (hab : SameKey a b) : a.bucket h = b.bucket h := by
  rw [bucket, bucket, hashValue, hashValue, hab.1, hab.2.1, hab.2.2]

/-- Devices with the same key collide with the same devices. -/
lemma SameKey.collide_iff (hab : SameKey a b) (d : Device) :
    collide h d a ↔ collide h d b := by
  rw [collide, collide, Equal, Equal, hab.bucket_eq, hab.1, hab.2.1]

end Device

end IotAgent
