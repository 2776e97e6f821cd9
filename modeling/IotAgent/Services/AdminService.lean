import IotAgent.Lib.Batch
import IotAgent.Util.Collection
import IotAgent.Util.DeviceCollection
import IotAgent.Util.ServiceCollection
import Mathlib.Data.List.Infix

/-!
The requests of the administration that create, change and delete devices, and create
services.

* `AdminService`: the handlers and the schemas;
* `checkDeviceCommandsDuplicate`: whether the entity of a device has one of its commands;
* `postDeviceJson`, `putDeviceJson`, `deleteDeviceJson`, `postServiceJson`: the requests.
-/

namespace IotAgent

open Mongo ServiceCollection

/-! ### What the requests work on -/

/-- A handler, as the administration sees it. The context broker's answer to a registration,
an id and a duration, is whatever it is; there is none if nothing was registered. -/
structure ProtocolHandler where
  protocol : String
  isCommandHandle : Bool
  checkProvisionedData : Doc → ℤ × String
  protocolCommands : List Doc
  registerContext : DeviceTable → Device → Option (String × ℤ)

/-- A request to the context broker, by the resource of the handler that makes it. -/
inductive Sent where
  | register (resource : String) (device : Device)
  | unregister (resource : String) (device : Device)
  | manager
  deriving DecidableEq

/-- The tables and what was sent. -/
structure AdminState where
  services : ServiceTable
  devices : DeviceTable
  sent : List Sent

/-- A validation of request bodies. What it lets through has the shape of its schema. -/
structure BodySchema (Shape : Doc → Prop) where
  validate : String → Except String Doc
  shape : ∀ body obj, validate body = .ok obj → Shape obj

/-- A device in a body. It names no service and no service path, and its commands, if there
are any, are documents with a name. -/
structure DeviceShape (obj : Doc) : Prop where
  service : obj.get StoreTypes.service = none
  servicePath : obj.get StoreTypes.servicePath = none
  commands : ∀ v, obj.get StoreTypes.commands = some v → ∃ elts, v = .arr elts ∧
    ∀ e ∈ elts, ∃ fs n, e = .obj fs ∧ Doc.get fs StoreTypes.name = some (.str n) ∧ n ≠ ""

/-- An array of documents of a shape. -/
def ArrayOf (Shape : Doc → Prop) (field : String) (obj : Doc) : Prop :=
  ∃ elts, obj.get field = some (.arr elts) ∧ ∀ e ∈ elts, ∃ fs, e = .obj fs ∧ Shape fs

/-- The handlers by their resources, the schemas and the driver of the store. -/
structure AdminService where
  serviceManager : List (String × ProtocolHandler)
  postDeviceSchema : BodySchema (ArrayOf DeviceShape StoreTypes.devices)
  putDeviceSchema : BodySchema DeviceShape
  postServiceSchema : BodySchema (ArrayOf (fun _ => True) StoreTypes.services)
  deviceColl : DeviceTable → Collection
  serviceColl : ServiceTable → Collection

/-- The answer to a request. -/
structure Answer where
  code : ℤ
  reason : String := ""
  details : String := ""
  deriving DecidableEq

namespace AdminService

/-- A schema that lets certain bodies through. -/
def knowing {Shape : Doc → Prop} (bodies : List (String × {obj : Doc // Shape obj})) :
    BodySchema Shape where
  validate := fun body =>
    match bodies.lookup body with
    | some obj => .ok obj.1
    | none => .error "Malformed data"
  shape := by
    intro body obj h
    split at h
    · next found _ =>
        cases h
        exact found.2
    · cases h

variable (a : AdminService) (s : AdminState)

/-! ### Handlers -/

/-- `get_service`. -/
def getService (resource : String) : Option ProtocolHandler :=
  a.serviceManager.lookup resource

/-- `get_device_protocol`: the handler of a protocol among those of the service path. -/
def getDeviceProtocol (protocolName service servicePath : String) : Option ProtocolHandler :=
  if protocolName = "" then none
  else ((fillAllResources s.services service servicePath).filterMap a.getService).find?
    fun plugin => plugin.protocol = protocolName

/-- The registration that a handler notes with the first device of the name and service. -/
def noteRegistration (t : DeviceTable) (dev : Device) (reg : String × ℤ) : DeviceTable :=
  match t.update
      (Doc.opt (dev.name ≠ "") StoreTypes.deviceId (.str dev.name) ++
        Doc.opt (dev.service ≠ "") StoreTypes.service (.str dev.service))
      (Doc.opt (reg.1 ≠ "") StoreTypes.registrationId (.str reg.1) ++
        Doc.opt (reg.2 ≠ longMin) StoreTypes.durationCb (.int reg.2)) with
  | some (t, _) => t
  | none => t

/-- `send_register_device` of a handler. -/
def sendRegisterDevice (resource : String) (plugin : ProtocolHandler) (dev : Device)
    (s : AdminState) : AdminState :=
  { s with
    sent := s.sent ++ [.register resource dev]
    devices :=
      match plugin.registerContext s.devices dev with
      | some reg => noteRegistration s.devices dev reg
      | none => s.devices }

/-- `deploy_device`: the handlers of the protocol register the device. -/
def deployDevice (dev : Device) : AdminState :=
  a.serviceManager.foldl (fun s rp =>
    if rp.2.isCommandHandle ∧ dev.protocol = rp.2.protocol then
      sendRegisterDevice rp.1 rp.2 dev s
    else s) s

/-- `undeploy_device`. -/
def undeployDevice (dev : Device) : AdminState :=
  { s with sent := s.sent ++ (a.serviceManager.filter fun rp =>
      rp.2.isCommandHandle ∧ dev.protocol = rp.2.protocol).map fun rp =>
        .unregister rp.1 dev }

/-! ### Commands -/

/-- The names of the commands of a device. -/
def commandNames (obj : Doc) : List String :=
  (((obj.getObjectField StoreTypes.commands).filterMap fun elto => elto.2.toDoc).map
    fun eltoBSON => eltoBSON.getStringField StoreTypes.name).filter (· ≠ "")

/-- Whether a document has one of the names. -/
def hasName (names : List String) : Bson → Bool
  | .obj fs =>
      match Doc.get fs StoreTypes.name with
      | some (.str n) => n ∈ names
      | _ => false
  | _ => false

/-- The match of `commands.name`: in an array the path leads into every document. -/
def hasCommandName (names : List String) (d : Doc) : Bool :=
  match d.get StoreTypes.commands with
  | some (.arr elts) => elts.any (hasName names)
  | some v => hasName names v
  | none => false

/-- The devices of an entity. -/
def ofEntity (entityName service servicePath protocol : String) : Doc :=
  [(StoreTypes.entityName, .str entityName), (StoreTypes.service, .str service),
    (StoreTypes.servicePath, .str servicePath), (StoreTypes.protocol, .str protocol)]

/-- `check_device_commands_duplicate`: true unless there is a device of the same entity with
one of the commands. -/
def checkDeviceCommandsDuplicate (protocolName serviceName servicePath : String)
    (bsonobj : Doc) (devTable : DeviceTable) : Bool :=
  let entityName := bsonobj.getStringField StoreTypes.entityName
  let names := commandNames bsonobj
  if entityName = "" then true
  else if names = [] then true
  else ¬ ∃ d ∈ devTable.docs,
    Matches (ofEntity entityName serviceName servicePath protocolName) d ∧ hasCommandName names d

/-- `joinCommands` and the parsing of its text, for devices and lists that it cuts where it
should: the commands of the protocol come in front of those of the device. Behind them an empty
array leaves a comma, which is no JSON. -/
def joinCommands (obj1 : Doc) (commands : List Doc) : Option Doc :=
  match obj1.get StoreTypes.commands with
  | none => some ((StoreTypes.commands, .arr (commands.map .obj)) :: obj1)
  | some (.arr (e :: elts)) =>
      some (obj1.set StoreTypes.commands (.arr (commands.map .obj ++ e :: elts)))
  | some _ => none

/-! ### Creation of devices -/

/-- The elements of an array of documents. -/
def elements (field : String) (obj : Doc) : List Doc :=
  match obj.get field with
  | some (.arr elts) => elts.filterMap Bson.toDoc
  | _ => []

/-- The elements of an array of documents of a shape have the shape. -/
lemma mem_elements_shape {Shape : Doc → Prop} {field : String} {obj : Doc}
    (h : ArrayOf Shape field obj) :
    ∀ bo ∈ elements field obj, Shape bo := by
  obtain ⟨elts, hget, hall⟩ := h
  intro bo hbo
  rw [elements, hget] at hbo
  obtain ⟨e, he, hdoc⟩ := List.mem_filterMap.mp hbo
  obtain ⟨fs, rfl, hfs⟩ := hall e he
  obtain rfl : fs = bo := by simpa [Bson.toDoc] using hdoc
  exact hfs

/-- The private restrictions of a handler on a new device. -/
def checkRestrictions (plugin : ProtocolHandler) (bo : Doc) : Except IotaException Unit :=
  let (errorCheck, errorProvisionedData) := plugin.checkProvisionedData bo
  if errorCheck = Types.responseCodeInvalidParameter then
    .error ⟨Types.responseMessageInvalidParameter, " [" ++ errorProvisionedData ++ "]",
      Types.responseCodeBadRequest⟩
  else if errorCheck = Types.responseCodeMissingParameter then
    .error ⟨Types.responseMessageMissingParameter, " [" ++ errorProvisionedData ++ "]",
      Types.responseCodeBadRequest⟩
  else .ok ()

/-- A device of a body with the commands of its protocol. A text that is no JSON throws in
the driver, which answers as an internal error. -/
def withProtocolCommands (plugin : ProtocolHandler) (bo : Doc) : Except IotaException Doc :=
  if plugin.protocolCommands = [] then .ok bo
  else
    match joinCommands bo plugin.protocolCommands with
    | some bo => .ok bo
    | none => .error ⟨"", "", Types.responseCodeReceiverInternalError⟩

/-- The document that is stored for a device of a body. -/
def insertObj (service servicePath : String) (bo : Doc) : Doc :=
  bo ++ [(StoreTypes.service, .str service), (StoreTypes.servicePath, .str servicePath)]

/-- The device that is deployed for it. -/
def deployed (service servicePath protocolName : String) (bo : Doc) : Device :=
  { Device.ofName (bo.getStringField StoreTypes.deviceId) service with
    servicePath, protocol := protocolName }

/-- One device of a body is checked, stored and deployed. -/
def postDevice (service servicePath body : String) (s : AdminState) (bo : Doc) :
    Except IotaException AdminState :=
  let protocolName := bo.getStringField StoreTypes.protocol
  match a.getDeviceProtocol s protocolName service servicePath with
  | none =>
      .error ⟨Types.responseMessageBadProtocol, " [ protocol: " ++ protocolName ++ "]",
        Types.responseCodeBadRequest⟩
  | some plugin => do
      checkRestrictions plugin bo
      let bo ← withProtocolCommands plugin bo
      let obj := insertObj service servicePath bo
      if checkDeviceCommandsDuplicate protocolName service servicePath obj s.devices then
        let devices ← (a.deviceColl s.devices).insert s.devices obj 0
        return a.deployDevice { s with devices } (deployed service servicePath protocolName bo)
      else
        throw ⟨Types.responseMessageEntityCommandsAlreadyExists, " [ " ++ body ++ "]",
          Types.responseCodeEntityAlreadyExists⟩

/-- `post_device_json`. -/
def postDeviceJson (service servicePath body : String) :
    AdminState × Except IotaException Answer :=
  if body = "" then
    (s, .ok ⟨Types.responseCodeBadRequest, Types.responseMessageBadRequest, "empty body"⟩)
  else if s.services.findOne (inPath service servicePath) = none then
    (s, .ok ⟨Types.responseCodeNoService, Types.responseMessageNoService,
      " service:" ++ service ++ " service_path:" ++ servicePath⟩)
  else
    match a.postDeviceSchema.validate body with
    | .error errorDetails =>
        (s, .ok ⟨Types.responseCodeBadRequest, Types.responseMessageBadRequest, errorDetails⟩)
    | .ok obj =>
        let (s, result) := Batch.run (a.postDevice service servicePath body) s
          (elements StoreTypes.devices obj)
        (s, result.map fun _ => ⟨Types.responseCodeCreated, "", ""⟩)

/-! ### Changes and deletion of devices -/

/-- The query of `put_device_json`. -/
def putQuery (service servicePath deviceId protocol : String) : Doc :=
  [(StoreTypes.service, .str service), (StoreTypes.servicePath, .str servicePath),
    (StoreTypes.deviceId, .str deviceId)] ++
  Doc.opt (protocol ≠ "") StoreTypes.protocol (.str protocol)

/-- The query of `delete_device_json`. -/
def deleteQuery (service servicePath idDevice : String) : Doc :=
  Doc.opt (idDevice ≠ "") StoreTypes.deviceId (.str idDevice) ++
  Doc.opt (service ≠ "") StoreTypes.service (.str service) ++
  Doc.opt (servicePath ≠ "") StoreTypes.servicePath (.str servicePath)

/-- The protocol of the device that is changed, and the restrictions of its handler; only a
malformed field counts. Without a device it is the one of the request. -/
def putProtocol (service servicePath protocol : String) (setbo : Doc) (found : Option Doc) :
    Except IotaException String :=
  match found with
  | none => .ok protocol
  | some objDev =>
      let protocolName := objDev.getStringField StoreTypes.protocol
      match a.getDeviceProtocol s protocolName service servicePath with
      | none =>
          .error ⟨Types.responseMessageBadProtocol, " [ protocol: " ++ protocol ++ "]",
            Types.responseCodeBadRequest⟩
      | some plugin =>
          let (errorCheck, errorProvisionedData) := plugin.checkProvisionedData setbo
          if errorCheck = Types.responseCodeInvalidParameter then
            .error ⟨Types.responseMessageInvalidParameter, " [ " ++ errorProvisionedData ++ "]",
              Types.responseCodeBadRequest⟩
          else .ok protocolName

/-- The deployment behind a write: the device that the query still finds. -/
def redeploy (query : Doc) (deviceId service servicePath : String) : AdminState :=
  match s.devices.findOne query with
  | some objDev =>
      a.deployDevice s { Device.ofName deviceId service with
        servicePath, protocol := objDev.getStringField StoreTypes.protocol }
  | none => s

/-- The write of `put_device_json`, with the device deployed that it finds behind it. The
server refuses to set a field twice. -/
def putDevice (service servicePath deviceId protocol body : String) (setbo : Doc) :
    AdminState × Except IotaException Answer :=
  let query := putQuery service servicePath deviceId protocol
  let coll := a.deviceColl s.devices
  if ¬ (setbo.map Prod.fst).Nodup then
    (s, .error (Collection.databaseError (coll.bbdd ++ " " ++ coll.text query)))
  else
    match s.devices.update query setbo with
    | none =>
        (s, .error ⟨Types.responseMessageDuplicatedData,
          "duplicate key: " ++ coll.bbdd ++ " " ++ coll.text query,
          Types.responseCodeDuplicateKey⟩)
    | some (devices, count) =>
        if count = 0 then
          (s, .error ⟨Types.responseMessageNoDevice,
            " [ device: put_device_json service=" ++ service ++ " service_path=" ++
              servicePath ++ " device=" ++ deviceId ++ " content=" ++ body ++ "]",
            Types.responseCodeDataNotFound⟩)
        else
          (a.redeploy { s with devices } query deviceId service servicePath,
            .ok ⟨Types.responseCodeNoContent, "", ""⟩)

/-- `put_device_json`. The removal of the protocol from the body makes a copy that is dropped,
so the body goes to the store as it came. -/
def putDeviceJson (service servicePath deviceId body protocol : String) :
    AdminState × Except IotaException Answer :=
  if body = "" then
    (s, .ok ⟨Types.responseCodeBadRequest, Types.responseMessageBadRequest, "empty body"⟩)
  else
    match a.putDeviceSchema.validate body with
    | .error errorDetails =>
        (s, .ok ⟨Types.responseCodeBadRequest, Types.responseMessageBadRequest, errorDetails⟩)
    | .ok setbo =>
        let query := putQuery service servicePath deviceId protocol
        if setbo = [] then
          (s, .ok ⟨Types.responseCodeBadRequest, Types.responseMessageBadRequest, "empty body"⟩)
        else if 1 < s.devices.count query then
          (s, .error ⟨Types.responseMessageMissingParameter,
            "This operation needs protocol parameter", Types.responseCodeBadRequest⟩)
        else
          match a.putProtocol s service servicePath protocol setbo (s.devices.findOne query) with
          | .error e => (s, .error e)
          | .ok protocolName =>
              if checkDeviceCommandsDuplicate protocolName service servicePath setbo s.devices then
                a.putDevice s service servicePath deviceId protocol body setbo
              else
                (s, .error ⟨Types.responseMessageEntityCommandsAlreadyExists,
                  " [ entity_name: " ++ setbo.getStringField StoreTypes.entityName ++ "]",
                  Types.responseCodeEntityAlreadyExists⟩)

/-- `delete_device_json`. -/
def deleteDeviceJson (service servicePath idDevice : String) :
    AdminState × Except IotaException Answer :=
  let s := a.undeployDevice s { Device.ofName idDevice service with servicePath }
  ({ s with devices := (s.devices.remove (deleteQuery service servicePath idDevice)).1 },
    .ok ⟨Types.responseCodeNoContent, "", ""⟩)

/-! ### Creation of services -/

/-- `check_uri`: a text without a protocol is no address. -/
def checkUri (data : String) : Except IotaException Unit :=
  if "://".toList <:+: data.toList then .ok ()
  else .error ⟨Types.responseMessageInvalidParameter ++ "[" ++ data ++ "]",
    data ++ " is not a correct uri", Types.responseCodeBadRequest⟩

/-- `check_existing_resource`. -/
def checkExistingResource (resource : String) : Except IotaException Unit :=
  if (a.getService resource).isSome then .ok ()
  else .error ⟨Types.responseMessageBadRequest, "Resource does not exist",
    Types.responseCodeBadRequest⟩

/-- The checks of a service, each of a field that is there. -/
def checkService (obj : Doc) : Except IotaException Unit := do
  let cbroker := obj.getStringField StoreTypes.cbroker
  if cbroker ≠ "" then checkUri cbroker
  let resource := obj.getStringField StoreTypes.resource
  if resource ≠ "" then a.checkExistingResource resource

/-- One service of a body is checked and stored. -/
def postService (service servicePath : String) (s : AdminState) (bo : Doc) :
    Except IotaException AdminState := do
  let obj := insertObj service servicePath bo
  a.checkService obj
  let services ← (a.serviceColl s.services).insert s.services obj 0
  return { s with services }

/-- `register_iota_manager`. -/
def registerIotaManager (s : AdminState) : AdminState :=
  { s with sent := s.sent ++ [.manager] }

/-- `post_service_json`. -/
def postServiceJson (service servicePath body : String) :
    AdminState × Except IotaException Answer :=
  if body = "" then
    (s, .ok ⟨Types.responseCodeBadRequest, Types.responseMessageBadRequest, "empty body"⟩)
  else
    match a.postServiceSchema.validate body with
    | .error errorDetails =>
        (s, .ok ⟨Types.responseCodeBadRequest, Types.responseMessageBadRequest, errorDetails⟩)
    | .ok obj =>
        match Batch.run (a.postService service servicePath) s
            (elements StoreTypes.services obj) with
        | (s, .error e) => (s, .error e)
        | (s, .ok ()) => (registerIotaManager s, .ok ⟨Types.responseCodeCreated, "", ""⟩)

/-! ### What a deployment leaves -/

/-- The query for the device of a note, and the fields that are noted. -/
def noteQuery (dev : Device) : Doc :=
  Doc.opt (dev.name ≠ "") StoreTypes.deviceId (.str dev.name) ++
    Doc.opt (dev.service ≠ "") StoreTypes.service (.str dev.service)

@[inherit_doc noteQuery]
def noted (reg : String × ℤ) : Doc :=
  Doc.opt (reg.1 ≠ "") StoreTypes.registrationId (.str reg.1) ++
    Doc.opt (reg.2 ≠ longMin) StoreTypes.durationCb (.int reg.2)

lemma mem_names_noted {reg : String × ℤ} {f : String} (hf : f ∈ (noted reg).map Prod.fst) :
    f = StoreTypes.registrationId ∨ f = StoreTypes.durationCb := by
  rw [noted, List.map_append, List.mem_append] at hf
  rcases hf with hf | hf
  · obtain ⟨-, rfl⟩ : _ ∧ f = StoreTypes.registrationId := by simpa [Doc.opt] using hf
    exact .inl rfl
  · obtain ⟨-, rfl⟩ : _ ∧ f = StoreTypes.durationCb := by simpa [Doc.opt] using hf
    exact .inr rfl

/-- A note changes the first device of the name and service. -/
lemma noteRegistration_docs (t : DeviceTable) (dev : Device) (reg : String × ℤ) :
    (noteRegistration t dev reg).docs =
      modifyFirst (noteQuery dev) (·.setAll (noted reg)) t.docs := by
  have hindex : ∀ index ∈ deviceIndexes, ∀ f ∈ index, f ∉ (noted reg).map Prod.fst := by
    intro index hindex f hf hmem
    obtain rfl := List.mem_singleton.mp hindex
    rcases mem_names_noted hmem with rfl | rfl
    · exact absurd hf (by decide)
    · exact absurd hf (by decide)
  obtain ⟨t', hupdate, hdocs⟩ := Table.update_eq (t := t) (q := noteQuery dev) hindex
  rw [← hdocs, noteRegistration]
  split
  · next heq => rw [(Prod.mk.inj (Option.some.inj (hupdate.symm.trans heq))).1]
  · next heq => exact absurd (hupdate.symm.trans heq) (Option.some_ne_none _)

/-- A deployment writes registration ids and durations only. -/
lemma keyOf_noteRegistration {fields : List String} (hid : StoreTypes.registrationId ∉ fields)
    (hduration : StoreTypes.durationCb ∉ fields) (t : DeviceTable) (dev : Device)
    (reg : String × ℤ) :
    (noteRegistration t dev reg).docs.map (keyOf fields) = t.docs.map (keyOf fields) := by
  rw [noteRegistration_docs]
  refine map_modifyFirst (keyOf_setAll fun f hf hmem => ?_) t.docs
  rcases mem_names_noted hmem with rfl | rfl
  · exact hid hf
  · exact hduration hf

lemma keyOf_deployDevice {fields : List String} (hid : StoreTypes.registrationId ∉ fields)
    (hduration : StoreTypes.durationCb ∉ fields) (a : AdminService) (s : AdminState)
    (dev : Device) :
    (a.deployDevice s dev).devices.docs.map (keyOf fields) =
      s.devices.docs.map (keyOf fields) := by
  rw [deployDevice]
  induction a.serviceManager generalizing s with
  | nil => rfl
  | cons rp l ih =>
      rw [List.foldl_cons, ih]
      split
      · rw [sendRegisterDevice]
        cases rp.2.registerContext s.devices dev with
        | none => rfl
        | some reg => exact keyOf_noteRegistration hid hduration s.devices dev reg
      · rfl

lemma keyOf_redeploy {fields : List String} (hid : StoreTypes.registrationId ∉ fields)
    (hduration : StoreTypes.durationCb ∉ fields) (a : AdminService) (s : AdminState)
    (query : Doc) (deviceId service servicePath : String) :
    (a.redeploy s query deviceId service servicePath).devices.docs.map (keyOf fields) =
      s.devices.docs.map (keyOf fields) := by
  rw [redeploy]
  split
  · exact keyOf_deployDevice hid hduration a s _
  · rfl

/-! ### Failure -/

/-- An answer that tells an error, or an exception, which is made into one. -/
def Fails : Except IotaException Answer → Prop
  | .error _ => True
  | .ok answer => 400 ≤ answer.code

instance : DecidablePred Fails := fun r => by
  cases r <;> unfold Fails <;> infer_instance

/-! ### What an accepted element has passed -/

variable {a s} {service servicePath body : String} {bo : Doc} {s' : AdminState}

/-- What an accepted device has passed. -/
lemma postDevice_eq_ok
    (h : a.postDevice service servicePath body s bo = .ok s') :
    ∃ plugin bo' devices,
      a.getDeviceProtocol s (bo.getStringField StoreTypes.protocol) service servicePath =
        some plugin ∧
      withProtocolCommands plugin bo = .ok bo' ∧
      checkDeviceCommandsDuplicate (bo.getStringField StoreTypes.protocol) service servicePath
        (insertObj service servicePath bo') s.devices ∧
      (a.deviceColl s.devices).insert s.devices (insertObj service servicePath bo') 0 =
        .ok devices ∧
      s' = a.deployDevice { s with devices }
        (deployed service servicePath (bo.getStringField StoreTypes.protocol) bo') := by
  rw [postDevice] at h
  dsimp only at h
  split at h
  · cases h
  · next plugin hplugin =>
      cases hcheck : checkRestrictions plugin bo with
      | error e =>
          rw [hcheck] at h
          cases h
      | ok u =>
          cases hjoin : withProtocolCommands plugin bo with
          | error e =>
              rw [hcheck, hjoin] at h
              cases h
          | ok bo' =>
              rw [hcheck, hjoin] at h
              simp only [bind, Except.bind] at h
              split at h
              · next hdup =>
                  cases hins : (a.deviceColl s.devices).insert s.devices
                      (insertObj service servicePath bo') 0 with
                  | error e =>
                      rw [hins] at h
                      cases h
                  | ok devices =>
                      rw [hins] at h
                      cases h
                      exact ⟨plugin, bo', devices, hplugin, hjoin, hdup, hins, rfl⟩
              · cases h

/-- And an accepted service. -/
lemma postService_eq_ok (h : a.postService service servicePath s bo = .ok s') :
    ∃ services, a.checkService (insertObj service servicePath bo) = .ok () ∧
      (a.serviceColl s.services).insert s.services (insertObj service servicePath bo) 0 =
        .ok services ∧
      s' = { s with services } := by
  rw [postService] at h
  cases hcheck : a.checkService (insertObj service servicePath bo) with
  | error e =>
      rw [hcheck] at h
      cases h
  | ok u =>
      cases hins : (a.serviceColl s.services).insert s.services
          (insertObj service servicePath bo) 0 with
      | error e =>
          rw [hcheck, hins] at h
          cases h
      | ok services =>
          rw [hcheck, hins] at h
          cases h
          exact ⟨services, rfl, rfl, rfl⟩

/-- What the write of a change has done that does not fail. -/
lemma putDevice_of_not_fails {deviceId protocol : String} {setbo : Doc}
    (h : ¬ Fails (a.putDevice s service servicePath deviceId protocol body setbo).2) :
    ∃ devices count, (setbo.map Prod.fst).Nodup ∧
      s.devices.update (putQuery service servicePath deviceId protocol) setbo =
        some (devices, count) ∧ count ≠ 0 ∧
      (a.putDevice s service servicePath deviceId protocol body setbo).1 =
        a.redeploy { s with devices } (putQuery service servicePath deviceId protocol)
          deviceId service servicePath := by
  rw [putDevice] at h ⊢
  by_cases hnodup : (setbo.map Prod.fst).Nodup
  · rw [if_neg (not_not.mpr hnodup)] at h ⊢
    cases hupdate : s.devices.update (putQuery service servicePath deviceId protocol) setbo with
    | none =>
        rw [hupdate] at h
        exact absurd trivial h
    | some p =>
        obtain ⟨devices, count⟩ := p
        rw [hupdate] at h
        dsimp only at h ⊢
        by_cases hne : count = 0
        · rw [if_pos hne] at h
          exact absurd trivial h
        · refine ⟨devices, count, hnodup, rfl, hne, ?_⟩
          rw [if_neg hne]
  · rw [if_pos hnodup] at h
    exact absurd trivial h

/-- What a change that does not fail has passed, and what it has done. -/
lemma putDeviceJson_of_not_fails {deviceId protocol : String}
    (h : ¬ Fails (a.putDeviceJson s service servicePath deviceId body protocol).2) :
    ∃ setbo protocolName devices count,
      a.putDeviceSchema.validate body = .ok setbo ∧ (setbo.map Prod.fst).Nodup ∧
      s.devices.count (putQuery service servicePath deviceId protocol) ≤ 1 ∧
      a.putProtocol s service servicePath protocol setbo
        (s.devices.findOne (putQuery service servicePath deviceId protocol)) =
          .ok protocolName ∧
      checkDeviceCommandsDuplicate protocolName service servicePath setbo s.devices ∧
      s.devices.update (putQuery service servicePath deviceId protocol) setbo =
        some (devices, count) ∧ count ≠ 0 ∧
      (a.putDeviceJson s service servicePath deviceId body protocol).1 =
        a.redeploy { s with devices } (putQuery service servicePath deviceId protocol)
          deviceId service servicePath := by
  rw [putDeviceJson] at h ⊢
  by_cases hbody : body = ""
  · exact absurd (by simp [hbody, Fails, Types.responseCodeBadRequest]) h
  simp only [hbody, if_false] at h ⊢
  cases hvalid : a.putDeviceSchema.validate body with
  | error details =>
      rw [hvalid] at h
      exact absurd (by simp [Fails, Types.responseCodeBadRequest]) h
  | ok setbo =>
      rw [hvalid] at h
      dsimp only at h ⊢
      by_cases hempty : setbo = []
      · exact absurd (by simp [hempty, Fails, Types.responseCodeBadRequest]) h
      by_cases hcount : 1 < s.devices.count (putQuery service servicePath deviceId protocol)
      · exact absurd (by simp [hempty, hcount, Fails]) h
      simp only [hempty, hcount, if_false] at h ⊢
      cases hprotocol : a.putProtocol s service servicePath protocol setbo
          (s.devices.findOne (putQuery service servicePath deviceId protocol)) with
      | error e =>
          rw [hprotocol] at h
          exact absurd trivial h
      | ok protocolName =>
          rw [hprotocol] at h
          dsimp only at h ⊢
          split at h
          · next hcheck =>
              rw [if_pos hcheck]
              obtain ⟨devices, count, hnodup, hupdate, hne, hstate⟩ := putDevice_of_not_fails h
              exact ⟨setbo, protocolName, devices, count, rfl, hnodup, Nat.le_of_not_lt hcount,
                hprotocol, hcheck, hupdate, hne, hstate⟩
          · exact absurd trivial h

end AdminService

end IotAgent
