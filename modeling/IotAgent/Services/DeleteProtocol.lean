import IotAgent.Services.PutRuns
import IotAgent.Util.Cache

/-!
Devices of other protocols when a device is deleted (`src/services/admin_service.cc`).

The deletion of a device is asked for with a protocol, as its change is. The query of a change
has the protocol; of a deletion neither the query nor the key for the caches has it.

* `deleteDevice`: the deletion, in the store and in the caches of the handlers;
* `docs_other_iff`, `Cache.list_other_iff`: when a removal leaves the other protocols as they
  are;
* `respectsProtocol_iff`: the deletions that do.
-/

namespace IotAgent

open Mongo

variable {h : Hashing} {H : Type*}

/-! ### Removals -/

/-- The documents of other protocols. -/
def otherDocs (protocol : String) (docs : List Doc) : List Doc :=
  docs.filter fun d => d.getStringField StoreTypes.protocol ≠ protocol

/-- The devices of other protocols. -/
def otherDevices (protocol : String) (devices : List Device) : List Device :=
  devices.filter fun d => d.protocol ≠ protocol

/-- A removal leaves the other protocols as they are if it matches none of their documents. -/
lemma docs_other_iff (t : DeviceTable) (q : Doc) (protocol : String) :
    otherDocs protocol (t.remove q).1.docs = otherDocs protocol t.docs
      ↔ ∀ d ∈ t.docs, Matches q d → d.getStringField StoreTypes.protocol = protocol := by
  rw [Table.docs_remove, otherDocs, otherDocs, List.filter_filter]
  constructor
  · intro heq d hd hmatch
    by_contra hne
    have hmem : d ∈ t.docs.filter fun d => d.getStringField StoreTypes.protocol ≠ protocol := by
      simp [hd, hne]
    rw [← heq] at hmem
    simp [hmatch] at hmem
  · intro hall
    refine List.filter_congr fun d hd => ?_
    have := hall d hd
    grind

/-- The same for a cache and the device that it finds. -/
lemma Cache.list_other_iff (c : Cache h) (key : Device) (protocol : String) :
    otherDevices protocol (c.remove key).list = otherDevices protocol c.list
      ↔ ∀ d ∈ BoundedSeq.find (Device.collide h) key c.list, d.protocol = protocol := by
  rw [Cache.remove]
  split
  · next d hfind =>
      have hmem := (BoundedSeq.mem_of_find hfind).1
      rw [hfind, Cache.erase, otherDevices, ← List.erase_filter, otherDevices,
        List.erase_eq_self_iff]
      simp [hmem]
  · next hfind => simp [hfind]

/-! ### The deletion -/

namespace AdminService

variable (a : AdminService) (s : AdminState) (caches : H → Cache h)
  (service servicePath idDevice protocol : String)

/-- The device that is removed from the caches. -/
def deletedDevice : Device := { Device.ofName idDevice service with servicePath }

/-- `delete_device_json` with the caches of the handlers. The protocol is an argument that nothing
reads. -/
def deleteDevice (_protocol : String) : AdminState × (H → Cache h) :=
  ((a.deleteDeviceJson s service servicePath idDevice).1,
    fun hd => (caches hd).remove (deletedDevice service servicePath idDevice))

/-- Neither the store nor a cache loses a device of another protocol. -/
structure RespectsProtocol : Prop where
  stored : otherDocs protocol
      (a.deleteDevice s caches service servicePath idDevice protocol).1.devices.docs
    = otherDocs protocol s.devices.docs
  cached : ∀ hd, otherDevices protocol
      ((a.deleteDevice s caches service servicePath idDevice protocol).2 hd).list
    = otherDevices protocol (caches hd).list

/-- **The deletions that respect their protocol** find no device of another, neither in the store
nor in a cache. -/
theorem respectsProtocol_iff :
    a.RespectsProtocol s caches service servicePath idDevice protocol ↔
      (∀ d ∈ s.devices.docs, Matches (deleteQuery service servicePath idDevice) d →
        d.getStringField StoreTypes.protocol = protocol) ∧
      ∀ hd, ∀ d ∈ BoundedSeq.find (Device.collide h) (deletedDevice service servicePath idDevice)
        (caches hd).list, d.protocol = protocol := by
  have hstored := docs_other_iff s.devices (deleteQuery service servicePath idDevice) protocol
  constructor
  · rintro ⟨hstore, hcache⟩
    exact ⟨hstored.mp hstore, fun hd => ((caches hd).list_other_iff _ _).mp (hcache hd)⟩
  · rintro ⟨hstore, hcache⟩
    exact ⟨hstored.mpr hstore, fun hd => ((caches hd).list_other_iff _ _).mpr (hcache hd)⟩

/-- The deletion of `d1` for a protocol removes the `d1` of another. -/
theorem not_respectsProtocol_other :
    ¬ resourceAgent.RespectsProtocol resourceState
      (fun _ : Unit => Cache.empty (h := Cache.byLength) Types.maxSizeCache false)
      "service" "/" "d1" "PDI-IoTA-MQTT-UltraLight" := by
  intro hrespects
  have hstored := hrespects.stored
  revert hstored
  decide +kernel

end AdminService

end IotAgent
