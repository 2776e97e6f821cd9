import IotAgent.Ngsi.EnvInfo

/-!
The identifier under which an element is published, and the name of the entity of its
device (`src/ngsi/ContextElement.cc`, `src/util/device.h`).

The rule of the name is written twice: in `ContextElement::format`, for the updates that
are sent, and in `Device::get_real_name`, for the commands that are kept. An element that
was formatted has a type, and is not named again.

* `Device.realType`, `Device.getRealName_eq`: the type of the entity of a device, and its
  name by that type;
* `format_of_untyped`: an element that comes without a type;
* `format_of_named`: an element that has its name and its type already;
* `publishedId_eq_getRealName`: both, also with the static attributes behind them.
-/

namespace IotAgent

namespace Device

/-- The type of the entity of a device. -/
def realType (d : Device) (service : PTree) : String :=
  if d.entityType ≠ "" ∧ d.entityType ≠ StoreTypes.default then d.entityType
  else if service.get StoreTypes.entityType "" ≠ "" then service.get StoreTypes.entityType ""
  else "thing"

/-- The device has a name for its entity. -/
def Named (d : Device) : Prop :=
  d.entityName ≠ "" ∧ d.entityName ≠ StoreTypes.default

instance (d : Device) : Decidable d.Named := inferInstanceAs (Decidable (_ ∧ _))

/-- The name of the entity is the one of the device, or made of the type and the name. -/
lemma getRealName_eq (d : Device) (service : PTree) :
    d.getRealName service
      = if d.Named then d.entityName else d.realType service ++ ":" ++ d.name := rfl

lemma realType_ne_empty (d : Device) (service : PTree) : d.realType service ≠ "" := by
  rw [realType]
  split
  · next h => exact h.1
  · split
    · next h => exact h
    · decide

/-- The name of the entity is a name for it. -/
lemma getRealName_named (d : Device) (service : PTree) :
    d.getRealName service ≠ "" ∧ d.getRealName service ≠ StoreTypes.default := by
  rw [getRealName_eq]
  split
  · next h => exact h
  · constructor
    · intro heq
      have hcolon := congrArg (fun s : String => ':' ∈ s.toList) heq
      simp at hcolon
    · intro heq
      have hcolon := congrArg (fun s : String => ':' ∈ s.toList) heq
      simp [StoreTypes.default] at hcolon

end Device

namespace EnvElement

variable {e : EnvElement} {d : Device}

/-- An element without a type takes the name and the type of the entity of the device. -/
lemma format_of_untyped (he : e.type = "") (hd : e.deviceInfo = some d) :
    e.format = { e with
      id := d.getRealName e.serviceInfo.fields, type := d.realType e.serviceInfo.fields } := by
  rw [format, hd, Device.getRealName_eq, Device.realType]
  simp only [he, Device.Named, ne_eq, not_true_eq_false, if_false, if_true]

/-- An element with a name and a type of the device keeps them. -/
lemma format_of_named {service : PTree} (hd : e.deviceInfo = some d)
    (hid : e.id = d.getRealName service) (htype : e.type = d.realType service) :
    e.format.id = e.id ∧ e.format.type = e.type := by
  have hne : e.type ≠ "" := htype ▸ d.realType_ne_empty service
  have hkeep : (if d.entityType ≠ "" ∧ d.entityType ≠ StoreTypes.default then d.entityType
      else e.type) = e.type := by
    split
    · next h => rw [htype, Device.realType, if_pos h]
    · rfl
  rw [format, hd]
  refine ⟨?_, by simpa only [hne, ne_eq, not_false_eq_true, if_true] using hkeep⟩
  simp only [hne, if_false]
  split
  · next h => rw [hid, Device.getRealName_eq, if_pos (show d.Named from h)]
  · rfl

/-- The identifier and the type of an element are those of the entity of the device. -/
def PublishedAs (d : Device) (service : PTree) (e : EnvElement) : Prop :=
  e.id = d.getRealName service ∧ e.type = d.realType service

/-- An element without a type is published under the name and the type of the entity of its
device, and a second time under the same. -/
theorem publishedId_eq_getRealName (lib : JsonLib) (d : Device) (serviceInfo : ServiceInfo)
    (e : EnvElement) (he : e.type = "") :
    PublishedAs d serviceInfo.fields { e with serviceInfo, deviceInfo := some d }.format ∧
    PublishedAs d serviceInfo.fields { e with serviceInfo, deviceInfo := some d }.format.format ∧
    ∀ timestamp e', e.setEnvInfo lib serviceInfo (some d) timestamp = .ok e' →
      PublishedAs d serviceInfo.fields e' ∧
      ∀ timestamp' e'', e'.setEnvInfo lib serviceInfo (some d) timestamp' = .ok e'' →
        PublishedAs d serviceInfo.fields e'' := by
  have hfirst : PublishedAs d serviceInfo.fields
      { e with serviceInfo, deviceInfo := some d }.format := by
    rw [format_of_untyped (e := { e with serviceInfo, deviceInfo := some d }) he rfl]
    exact ⟨rfl, rfl⟩
  have hagain : ∀ e' : EnvElement, e'.deviceInfo = some d →
      PublishedAs d serviceInfo.fields e' → PublishedAs d serviceInfo.fields e'.format := by
    intro e' hd' hpub
    obtain ⟨hid, htype⟩ := format_of_named hd' hpub.1 hpub.2
    exact ⟨hid.trans hpub.1, htype.trans hpub.2⟩
  refine ⟨hfirst, hagain _ format_sameInfo.1 hfirst, fun timestamp e' hset => ?_⟩
  obtain ⟨attributes, rfl⟩ := setEnvInfo_upToAttributes hset
  refine ⟨hfirst, fun timestamp' e'' hset' => ?_⟩
  obtain ⟨attributes', rfl⟩ := setEnvInfo_upToAttributes hset'
  exact hagain { { e with serviceInfo, deviceInfo := some d }.format with
    attributes, serviceInfo, deviceInfo := some d } rfl hfirst

/-- A service with a type for its entities. -/
def roomService : ServiceInfo := ⟨[(StoreTypes.entityType, "room")], [], []⟩

/-- A device with the names of the defaults. -/
def defaultDevice : Device :=
  { Device.ofName "dev1" "service" with
    entityName := StoreTypes.default, entityType := StoreTypes.default }

/-- A reader and writer of no JSON. -/
def noJson : JsonLib where
  parse _ := none
  write _ := ""

theorem publishedId_defaultDevice :
    ({ ofTexts "dev1" "" "false" with
        serviceInfo := roomService, deviceInfo := some defaultDevice }.format).id = "room:dev1" :=
  (publishedId_eq_getRealName noJson defaultDevice roomService (ofTexts "dev1" "" "false")
    (by decide)).1.1.trans (by decide)

end EnvElement

end IotAgent
