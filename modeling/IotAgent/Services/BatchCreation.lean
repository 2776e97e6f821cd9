import IotAgent.Services.AdminService

/-!
The creation of several devices, or services, in one request.

The elements of a body are checked, stored and (the devices) deployed one after the other.

* `deviceBatch`, `serviceBatch`: the elements that a request comes to process;
* `postDevice_length`, `postService_length`: every accepted element leaves a document;
* `creation_allOrNothing_iff`: a request that fails leaves everything as it was exactly when
  none of its elements is refused or its first element is;
* `not_allOrNothing_twoElements`: an element that is refused behind an accepted one.
-/

namespace IotAgent

open Mongo ServiceCollection

namespace AdminService

variable (a : AdminService) (s : AdminState) (service servicePath body : String)

/-- The devices that `post_device_json` comes to process. -/
def deviceBatch : List Doc :=
  if body = "" ∨ s.services.findOne (inPath service servicePath) = none then []
  else
    match a.postDeviceSchema.validate body with
    | .error _ => []
    | .ok obj => elements StoreTypes.devices obj

/-- The services that `post_service_json` comes to process. -/
def serviceBatch : List Doc :=
  if body = "" then []
  else
    match a.postServiceSchema.validate body with
    | .error _ => []
    | .ok obj => elements StoreTypes.services obj

variable {a s service servicePath body}

/-! ### What an element leaves -/

lemma noteRegistration_length (t : DeviceTable) (dev : Device) (reg : String × ℤ) :
    (noteRegistration t dev reg).docs.length = t.docs.length := by
  rw [noteRegistration]
  split
  · next heq => rw [(Table.update_docs heq).1, length_modifyFirst]
  · rfl

lemma sendRegisterDevice_length (resource : String) (plugin : ProtocolHandler) (dev : Device)
    (s : AdminState) :
    (sendRegisterDevice resource plugin dev s).devices.docs.length = s.devices.docs.length := by
  rw [sendRegisterDevice]
  cases plugin.registerContext s.devices dev with
  | none => rfl
  | some reg => exact noteRegistration_length s.devices dev reg

/-- A deployment changes documents and adds none. -/
lemma deployDevice_length (s : AdminState) (dev : Device) :
    (a.deployDevice s dev).devices.docs.length = s.devices.docs.length := by
  rw [deployDevice]
  induction a.serviceManager generalizing s with
  | nil => rfl
  | cons rp l ih =>
      rw [List.foldl_cons, ih]
      split
      · exact sendRegisterDevice_length rp.1 rp.2 dev s
      · rfl

lemma length_of_insert {indexes : List (List String)} {coll : Collection}
    {t t' : Table indexes} {obj : Doc} (h : coll.insert t obj 0 = .ok t') :
    t.docs.length < t'.docs.length := by
  rw [Table.insert_docs (Collection.insert_eq_ok_iff.mp h).2, List.length_append]
  simp

/-- An accepted device leaves a document. -/
lemma postDevice_length {bo : Doc} {s' : AdminState}
    (h : a.postDevice service servicePath body s bo = .ok s') :
    s.devices.docs.length < s'.devices.docs.length := by
  obtain ⟨plugin, bo', devices, -, -, -, hins, rfl⟩ := postDevice_eq_ok h
  rw [deployDevice_length]
  exact length_of_insert hins

/-- An accepted service leaves a document. -/
lemma postService_length {bo : Doc} {s' : AdminState}
    (h : a.postService service servicePath s bo = .ok s') :
    s.services.docs.length < s'.services.docs.length := by
  obtain ⟨services, -, hins, rfl⟩ := postService_eq_ok h
  exact length_of_insert hins

/-! ### The batches -/

/-- A request that fails leaves the store and what was sent as they were. -/
def AllOrNothing (s : AdminState) (r : AdminState × Except IotaException Answer) : Prop :=
  Fails r.2 → r.1 = s

lemma allOrNothing_self (r : Except IotaException Answer) : AllOrNothing s (s, r) :=
  fun _ => rfl

lemma batch_allOrNothing_nil {α ε : Type*} {step : AdminState → α → Except ε AdminState} :
    Batch.AllOrNothing s (Batch.run step s []) :=
  fun _ _ => rfl

/-- A creation of devices fails in the state of its batch, or without having touched it. -/
lemma allOrNothing_postDeviceJson :
    AllOrNothing s (a.postDeviceJson s service servicePath body) ↔
      Batch.AllOrNothing s (Batch.run (a.postDevice service servicePath body) s
        (a.deviceBatch s service servicePath body)) := by
  rw [postDeviceJson, deviceBatch]
  by_cases hbody : body = ""
  · simp only [hbody, true_or, if_true]
    exact iff_of_true (allOrNothing_self _) batch_allOrNothing_nil
  by_cases hservice : s.services.findOne (inPath service servicePath) = none
  · simp only [hbody, hservice, or_true, if_true, if_false]
    exact iff_of_true (allOrNothing_self _) batch_allOrNothing_nil
  simp only [hbody, hservice, or_self, if_false]
  cases a.postDeviceSchema.validate body with
  | error details => exact iff_of_true (allOrNothing_self _) batch_allOrNothing_nil
  | ok obj =>
      dsimp only
      cases hres : (Batch.run (a.postDevice service servicePath body) s
          (elements StoreTypes.devices obj)).2 with
      | error e => simp [AllOrNothing, Batch.AllOrNothing, Fails, Except.map, hres]
      | ok u =>
          simp [AllOrNothing, Batch.AllOrNothing, Fails, Except.map, hres,
            Types.responseCodeCreated]

/-- And a creation of services. -/
lemma allOrNothing_postServiceJson :
    AllOrNothing s (a.postServiceJson s service servicePath body) ↔
      Batch.AllOrNothing s (Batch.run (a.postService service servicePath) s
        (a.serviceBatch body)) := by
  rw [postServiceJson, serviceBatch]
  by_cases hbody : body = ""
  · simp only [hbody, if_true]
    exact iff_of_true (allOrNothing_self _) batch_allOrNothing_nil
  simp only [hbody, if_false]
  cases a.postServiceSchema.validate body with
  | error details => exact iff_of_true (allOrNothing_self _) batch_allOrNothing_nil
  | ok obj =>
      dsimp only
      split
      · next s' e heq => simp [heq, AllOrNothing, Batch.AllOrNothing, Fails]
      · next s' heq =>
          simp [heq, AllOrNothing, Batch.AllOrNothing, Fails, Types.responseCodeCreated]

/-- **All or nothing**: a request that creates devices, or services, and fails leaves the
store and what was sent as they were exactly when no element of its batch is refused or the
first one is. -/
theorem creation_allOrNothing_iff (a : AdminService) (s : AdminState)
    (service servicePath body : String) :
    (AllOrNothing s (a.postDeviceJson s service servicePath body) ↔
      Batch.Accepts (a.postDevice service servicePath body) s
          (a.deviceBatch s service servicePath body) ∨
        Batch.RefusesFirst (a.postDevice service servicePath body) s
          (a.deviceBatch s service servicePath body)) ∧
    (AllOrNothing s (a.postServiceJson s service servicePath body) ↔
      Batch.Accepts (a.postService service servicePath) s (a.serviceBatch body) ∨
        Batch.RefusesFirst (a.postService service servicePath) s (a.serviceBatch body)) := by
  rw [allOrNothing_postDeviceJson, allOrNothing_postServiceJson]
  exact ⟨Batch.allOrNothing_iff_or (fun s => s.devices.docs.length) fun _ _ _ => postDevice_length,
    Batch.allOrNothing_iff_or (fun s => s.services.docs.length) fun _ _ _ => postService_length⟩

/-! ### Two elements -/

/-- A device of a body. -/
def ultraLight (deviceId : String) : Doc :=
  [(StoreTypes.deviceId, .str deviceId), (StoreTypes.protocol, .str "PDI-IoTA-UltraLight")]

/-- A service of a body. -/
def ofResource (resource : String) : Doc :=
  [(StoreTypes.apikey, .str "key"), (StoreTypes.resource, .str resource)]

/-- The text of a body with two elements. -/
def twoOf (field first second : String) : String :=
  "\x7b\"" ++ field ++ "\":[" ++ first ++ "," ++ second ++ "]\x7d"

def twoDevices : String :=
  twoOf "devices" "\x7b\"device_id\":\"d2\",\"protocol\":\"PDI-IoTA-UltraLight\"\x7d"
    "\x7b\"device_id\":\"d1\",\"protocol\":\"PDI-IoTA-UltraLight\"\x7d"

def twoServices : String :=
  twoOf "services" "\x7b\"apikey\":\"key\",\"resource\":\"/iot/d\"\x7d"
    "\x7b\"apikey\":\"key\",\"resource\":\"/iot/none\"\x7d"

lemma deviceShape_ultraLight (deviceId : String) : DeviceShape (ultraLight deviceId) where
  service := rfl
  servicePath := rfl
  commands := fun v hv => by cases hv

/-- A schema that knows one body. -/
def onlyBody {Shape : Doc → Prop} (known : String) (obj : Doc) (hobj : Shape obj) :
    BodySchema Shape where
  validate := fun body => if body = known then .ok obj else .error "Malformed data"
  shape := by
    intro body d hd
    split at hd
    · cases hd
      exact hobj
    · cases hd

/-- A server that answers. -/
def answering (aBbdd : String) : Collection :=
  ⟨"iot", aBbdd, fun _ => "", fun _ => none⟩

/-- An agent with one handler. -/
def ultraLightAgent : AdminService where
  serviceManager := [("/iot/d", ⟨"PDI-IoTA-UltraLight", true,
    fun _ => (Types.responseCodeNone, ""), [], fun _ _ => none⟩)]
  postDeviceSchema := onlyBody twoDevices
    [(StoreTypes.devices, .arr [.obj (ultraLight "d2"), .obj (ultraLight "d1")])]
    ⟨_, rfl, by simp [deviceShape_ultraLight]⟩
  putDeviceSchema := ⟨fun _ => .error "Malformed data", fun _ _ h => by cases h⟩
  postServiceSchema := onlyBody twoServices
    [(StoreTypes.services, .arr [.obj (ofResource "/iot/d"), .obj (ofResource "/iot/none")])]
    ⟨_, rfl, by simp⟩
  deviceColl := fun _ => answering "DEVICE"
  serviceColl := fun _ => answering "SERVICE"

/-- A service path with one service and one device. -/
def oneDevice : AdminState where
  services := ⟨[insertObj "service" "/" (ofResource "/iot/d")], by decide⟩
  devices := ⟨[insertObj "service" "/" (ultraLight "d1")], by decide⟩
  sent := []

/-- Nothing yet. -/
def emptyStore : AdminState :=
  ⟨Table.empty, Table.empty, []⟩

/-- The second device exists: the request fails, and the first is stored and registered. The
second service is of no handler: the request fails, and the first is stored. -/
theorem not_allOrNothing_twoElements :
    ¬ AllOrNothing oneDevice
        (ultraLightAgent.postDeviceJson oneDevice "service" "/" twoDevices) ∧
      ¬ AllOrNothing emptyStore
        (ultraLightAgent.postServiceJson emptyStore "service" "/" twoServices) := by
  constructor
  · intro hall
    have hsent := congrArg (fun s => s.sent.length) (hall (by decide +kernel))
    revert hsent
    decide +kernel
  · intro hall
    have hlength := congrArg (fun s => s.services.docs.length) (hall (by decide +kernel))
    revert hlength
    decide +kernel

end AdminService

end IotAgent
