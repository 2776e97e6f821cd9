import IotAgent.Ngsi.Messages
import IotAgent.Services.AdminService

/-!
What the context broker is told about a device that is deleted.

A registration is taken back by registering again under the same id, for a second. The
deletion of a device makes the device for this from the address of the request alone.

* `CommandHandler.sendUnregister`: the request of a handler;
* `unregistrations`: the requests that come of a deletion;
* `Unregistered`: one of them takes the registration of the device back;
* `unregistered_iff`: there is one exactly for a device without a registration and a handler
  without a protocol.
-/

namespace IotAgent

open Mongo DeviceCollection

/-! ### Requests to the context broker -/

/-- What a command handler knows of the context broker and of the services. The look-up of a
service may end with an exception. -/
structure CommandHandler where
  myProvidingApp : String
  registerContextOperation : String
  getServiceByName : (service servicePath : String) → Option PTree

/-- A registration with the address that it goes to. -/
structure BrokerRequest where
  cbUrl : String
  registerContext : Ngsi.RegisterContext

/-- The providing application before there is one. -/
def unknownProvidingApp : String := "unkown"

namespace CommandHandler

variable (h : CommandHandler)

/-- The address for registrations in the broker of a service. -/
def cbUrl (ptCb : PTree) : String :=
  let cbroker := ptCb.get "cbroker" ""
  if cbroker ≠ "" then cbroker ++ h.registerContextOperation else ""

/-- The type of the entity of a service. -/
def serviceEntityType (ptCb : PTree) : String :=
  let entityType := ptCb.get "entity_type" ""
  if entityType ≠ "" then entityType else "thing"

/-- `send_unregister`: nothing is sent without a providing application. -/
def sendUnregister (ptCb : PTree) (device : Device) (regId : String) : Option BrokerRequest :=
  if h.myProvidingApp = unknownProvidingApp then none
  else some {
    cbUrl := h.cbUrl ptCb
    registerContext := {
      contextRegistrations := [{
        entities := [⟨device.getRealName ptCb, serviceEntityType ptCb, "false"⟩]
        attributes := []
        provider := h.myProvidingApp }]
      duration := "PT1S"
      registrationId := regId } }

/-- A handler in `undeploy_device`, up to an exception. -/
def undeploy (device : Device) : Option BrokerRequest :=
  (h.getServiceByName device.service device.servicePath).bind fun servicePtree =>
    h.sendUnregister servicePtree device device.registrationId

end CommandHandler

/-! ### The deletion of a device -/

namespace AdminService

variable (a : AdminService) (handlers : String → CommandHandler) (J : JsonText)
  (s : AdminState) (d : Doc)

/-- The requests to the context broker that undeployed devices give, the handlers taken by
their resources. -/
def unregistrations (sent : List Sent) : List BrokerRequest :=
  sent.filterMap fun
    | .unregister resource device => (handlers resource).undeploy device
    | _ => none

/-- What the context broker is told when the device of a document is deleted. -/
def toldOnDelete : List BrokerRequest :=
  unregistrations handlers
    ((a.deleteDeviceJson s (d.getStringField StoreTypes.service)
      (d.getStringField StoreTypes.servicePath)
      (d.getStringField StoreTypes.deviceId)).1.sent.drop s.sent.length)

/-- The services of the handlers of a protocol for a device, where they find them. -/
def servicesOf (protocol : String) (device : Device) : List (CommandHandler × PTree) :=
  (a.serviceManager.filter fun rp => rp.2.isCommandHandle ∧ protocol = rp.2.protocol).filterMap
    fun rp => ((handlers rp.1).getServiceByName device.service device.servicePath).map
      (handlers rp.1, ·)

/-- A request that takes back the registration `regId` of an entity. -/
structure TakesBack (regId realName : String) (u : BrokerRequest) : Prop where
  registrationId : u.registerContext.registrationId = regId
  duration : u.registerContext.duration = "PT1S"
  entity : ∃ cr ∈ u.registerContext.contextRegistrations, ∃ e ∈ cr.entities, e.id = realName

/-- The deletion takes back the registration of a stored device, for its entity in the
service of a handler of its protocol. -/
def Unregistered : Prop :=
  ∃ hp ∈ a.servicesOf handlers (bson2Obj J d).protocol (bson2Obj J d),
    ∃ u ∈ a.toldOnDelete handlers s d,
      TakesBack (bson2Obj J d).registrationId ((bson2Obj J d).getRealName hp.2) u

/-- The device that the deletion works on. -/
def deleted : Device :=
  { Device.ofName (d.getStringField StoreTypes.deviceId) (d.getStringField StoreTypes.service)
    with servicePath := d.getStringField StoreTypes.servicePath }

variable {a handlers J s d}

lemma undeployDevice_sent (dev : Device) :
    (a.undeployDevice s dev).sent.drop s.sent.length =
      (a.serviceManager.filter fun rp => rp.2.isCommandHandle ∧ dev.protocol = rp.2.protocol).map
        fun rp => .unregister rp.1 dev :=
  List.drop_left

/-- The requests of a deletion come from the handlers without a protocol. -/
lemma mem_toldOnDelete {u : BrokerRequest} :
    u ∈ a.toldOnDelete handlers s d ↔
      ∃ hp ∈ a.servicesOf handlers "" (deleted d),
        hp.1.sendUnregister hp.2 (deleted d) "" = some u := by
  have hsent : (a.deleteDeviceJson s (d.getStringField StoreTypes.service)
      (d.getStringField StoreTypes.servicePath)
      (d.getStringField StoreTypes.deviceId)).1.sent = (a.undeployDevice s (deleted d)).sent :=
    rfl
  rw [toldOnDelete, hsent, undeployDevice_sent, unregistrations, servicesOf, List.filterMap_map,
    List.mem_filterMap]
  simp only [List.mem_filterMap, Function.comp_apply]
  constructor
  · rintro ⟨rp, hrp, hu⟩
    obtain ⟨pt, hpt, hsend⟩ := Option.bind_eq_some_iff.mp hu
    exact ⟨(handlers rp.1, pt), ⟨rp, hrp, Option.map_eq_some_iff.mpr ⟨pt, hpt, rfl⟩⟩, hsend⟩
  · rintro ⟨hp, ⟨rp, hrp, hmap⟩, hsend⟩
    obtain ⟨pt, hpt, rfl⟩ := Option.map_eq_some_iff.mp hmap
    exact ⟨rp, hrp, Option.bind_eq_some_iff.mpr ⟨pt, hpt, hsend⟩⟩

/-- What a request takes back. -/
lemma takesBack_iff {h : CommandHandler} {pt : PTree} {dev : Device} {regId regId' name : String} :
    (∃ u, h.sendUnregister pt dev regId = some u ∧ TakesBack regId' name u) ↔
      h.myProvidingApp ≠ unknownProvidingApp ∧ regId = regId' ∧ dev.getRealName pt = name := by
  rw [CommandHandler.sendUnregister]
  by_cases happ : h.myProvidingApp = unknownProvidingApp
  · simp [happ]
  · rw [if_neg happ]
    constructor
    · rintro ⟨u, hu, hback⟩
      obtain rfl := Option.some.inj hu
      obtain ⟨cr, hcr, e, he, hid⟩ := hback.entity
      obtain rfl := List.mem_singleton.mp hcr
      obtain rfl := List.mem_singleton.mp he
      exact ⟨happ, hback.registrationId, hid⟩
    · rintro ⟨-, hreg, hname⟩
      exact ⟨_, rfl, hreg, rfl, _, List.mem_singleton_self _, _, List.mem_singleton_self _, hname⟩

/-- **No registration is taken back**: what a deletion sends carries no id, and comes from
handlers without a protocol. -/
theorem unregistered_iff (a : AdminService) (handlers : String → CommandHandler) (J : JsonText)
    (s : AdminState) (d : Doc) :
    a.Unregistered handlers J s d ↔
      d.getStringField StoreTypes.registrationId = "" ∧
        ∃ hp ∈ a.servicesOf handlers (d.getStringField StoreTypes.protocol) (bson2Obj J d),
        ∃ hp' ∈ a.servicesOf handlers "" (deleted d),
          hp'.1.myProvidingApp ≠ unknownProvidingApp ∧
          (deleted d).getRealName hp'.2 = (bson2Obj J d).getRealName hp.2 := by
  constructor
  · rintro ⟨hp, hhp, u, hu, hback⟩
    obtain ⟨hp', hhp', hsend⟩ := mem_toldOnDelete.mp hu
    obtain ⟨happ, hreg, hname⟩ := takesBack_iff.mp ⟨u, hsend, hback⟩
    exact ⟨hreg.symm, hp, hhp, hp', hhp', happ, hname⟩
  · rintro ⟨hreg, hp, hhp, hp', hhp', happ, hname⟩
    obtain ⟨u, hsend, hback⟩ := takesBack_iff.mpr ⟨happ, hreg.symm, hname⟩
    exact ⟨hp, hhp, u, mem_toldOnDelete.mpr ⟨hp', hhp', hsend⟩, hback⟩

/-- A device with a registration. -/
def registeredDevice : Doc :=
  [(StoreTypes.deviceId, .str "d1"), (StoreTypes.protocol, .str "PDI-IoTA-UltraLight"),
    (StoreTypes.service, .str "service"), (StoreTypes.servicePath, .str "/"),
    (StoreTypes.registrationId, .str "51c0ac9ed714fb3b37d7d5a8")]

lemma unique_registeredDevice : Unique deviceIndexes [registeredDevice] :=
  fun _ _ => List.pairwise_singleton ..

/-- The device is stored. -/
def registeredState : AdminState :=
  ⟨Table.empty, ⟨[registeredDevice], unique_registeredDevice⟩, []⟩

/-- An agent with the handler of its protocol. -/
def registeringAgent : AdminService where
  serviceManager := [("/iot/d", ⟨"PDI-IoTA-UltraLight", true,
    fun _ => (Types.responseCodeNone, ""), [], fun _ _ => none⟩)]
  postDeviceSchema := knowing []
  putDeviceSchema := knowing []
  postServiceSchema := knowing []
  deviceColl := fun _ => ⟨"iot", "DEVICE", fun _ => "", fun _ => none⟩
  serviceColl := fun _ => ⟨"iot", "SERVICE", fun _ => "", fun _ => none⟩

/-- A handler that finds the service. -/
def knowingService : CommandHandler where
  myProvidingApp := "http://127.0.0.1:8080/iot/ngsi"
  registerContextOperation := "/NGSI10/registerContext"
  getServiceByName := fun _ _ => some [("cbroker", "http://127.0.0.1:1026")]

/-- The context broker is told nothing. -/
theorem not_unregistered_registeredDevice :
    registeredDevice ∈ registeredState.devices.docs ∧
      (registeringAgent.servicesOf (fun _ => knowingService) "PDI-IoTA-UltraLight"
        (deleted registeredDevice)).length = 1 ∧
      ∀ J, ¬registeringAgent.Unregistered (fun _ => knowingService) J registeredState
        registeredDevice := by
  refine ⟨List.mem_singleton_self _, by decide +kernel, fun J h => ?_⟩
  have htold : registeringAgent.toldOnDelete (fun _ => knowingService) registeredState
      registeredDevice = [] := rfl
  obtain ⟨-, -, u, hu, -⟩ := h
  rw [htold] at hu
  exact absurd hu List.not_mem_nil

end AdminService

end IotAgent
