import IotAgent.Lib.Attempts
import IotAgent.Services.AdminRequests
import IotAgent.Services.ManagerFanOut
import IotAgent.Util.ServiceMgmtCollection

/-!
Changes and deletions through the manager (`put_service_json`, `delete_service_json`,
`put_device_json` and `delete_device_json` of `AdminManagerService`).

The manager reads a request as an agent does and makes a new one for every agent that it is
for, with a query that it writes itself.

* `AgentManager.handle`: what the manager sends for a request;
* `AgentManager.asked`: what each agent is asked for, as a request to the agent itself;
* `DeleteService.Kept`: the deletions that lose nothing with the key and the devices;
* `AgentManager.forwards_iff`: what the manager sends does to the tables of an agent what the
  request itself does exactly for these deletions, and for every other request;
* `AgentManager.forwards_run`: the same for all requests to an agent, one after the other.
-/

namespace IotAgent

open Mongo CascadeDelete AdminManagerService ManagerService

/-! ### The manager -/

/-- A manager with the schemas for changes, what it keeps of the agents and the writer of
documents. -/
structure AgentManager extends ManagerService where
  putServiceSchema :
    BodySchema (ArrayOf (fun d => d.get "description" = none) StoreTypes.services)
  putDeviceSchema : BodySchema DeviceShape
  serviceMgmt : ServiceMgmtCollection
  jsonString : Doc → String

/-- A request to the agent with an endpoint. -/
structure Forward where
  endpoint : String
  request : AdminRequest
  deriving DecidableEq

/-- What the manager does with a request: it makes requests to agents, answers itself or throws
an exception. -/
inductive Managed where
  | forwards (requests : List Forward)
  | answers (x : Answer)
  | throws (e : IotaException)
  deriving DecidableEq

/-- The result of one of the functions. -/
def Managed.ofExcept : Except IotaException (List Forward) → Managed
  | .ok requests => .forwards requests
  | .error e => .throws e

namespace AgentManager

variable (m : AgentManager)

/-- `make_query_string`: an empty parameter is left out. -/
def makeQueryString (queryParameters : List (String × String)) : List (String × String) :=
  queryParameters.filter fun p => p.2 ≠ ""

/-- `create_request`. The requests for devices have the same headers. -/
def createRequest (method : Method) (target : Target) (query : List (String × String))
    (content service servicePath : String) : AdminRequest where
  target := target
  method := method
  fiwareService := service
  fiwareServicepath := servicePath
  query := query
  content := content

/-- `delete_service_json`, which is given the protocol for a resource. -/
def deleteServiceJson (r : DeleteService) : Except IotaException (List Forward) :=
  if r.resource = "" then
    .error ⟨Types.responseMessageBadRequest, "protocol is madatory",
      Types.responseCodeBadRequest⟩
  else if ∀ d ∈ m.protocols, ¬ Matches [(StoreTypes.protocol, .str r.resource)] d then
    .error ⟨Types.responseMessageBadRequest, "Protocol does not exists [" ++ r.resource ++ "]",
      Types.responseCodeContextElementNotFound⟩
  else
    .ok ((m.allDest r.resource).map fun dest =>
      { endpoint := dest.endpoint
        request := createRequest .delete .services
          (makeQueryString [(StoreTypes.resource, dest.resource)]) "" r.id r.servicePath })

/-- `put_service_json`. The key comes first in the query, which is ordered. -/
def putServiceJson (service servicePath apikey body : String) :
    Except IotaException (List Forward) :=
  if body = "" then
    .error ⟨Types.responseMessageBadRequest, "empty body", Types.responseCodeBadRequest⟩
  else
    match m.putServiceSchema.validate body with
    | .error errorDetails =>
        .error ⟨Types.responseMessageBadRequest, errorDetails, Types.responseCodeBadRequest⟩
    | .ok obj => do
        let objProtocols ← m.getElementsFromBSON obj
        return objProtocols.flatMap fun o =>
          (m.allDest (o.getStringField StoreTypes.protocol)).map fun dest =>
            { endpoint := dest.endpoint
              request := createRequest .put .services
                (makeQueryString
                  [(StoreTypes.apikey, apikey), (StoreTypes.resource, dest.resource)])
                (m.jsonString (removeField (removeField o "description") StoreTypes.protocol))
                service servicePath }

/-- `delete_device_json` with `delete_multiple_devices`. -/
def deleteDeviceJson (service servicePath deviceId protocol : String) :
    Except IotaException (List Forward) :=
  if protocol = "" then
    .error ⟨Types.responseMessageMissingParameter, "protocol parameter is mandatory",
      Types.responseCodeBadRequest⟩
  else if service = "" ∨ servicePath = "" then
    .error ⟨Types.responseMessageBadRequest, "Service or Service path are missing",
      Types.responseCodeBadRequest⟩
  else do
    let endpoints ← m.serviceMgmt.getIotagentsByService service servicePath protocol
    return endpoints.map fun endpoint =>
      { endpoint := endpoint
        request := createRequest .delete (.device deviceId) [] "" service servicePath }

/-- `put_device_json` with `put_multiple_devices`. -/
def putDeviceJson (service servicePath deviceId body protocol : String) :
    Except IotaException (List Forward) :=
  if service = "" ∨ servicePath = "" then
    .error ⟨Types.responseMessageBadRequest, "Service or Service path are missing",
      Types.responseCodeBadRequest⟩
  else if body = "" then
    .error ⟨Types.responseMessageBadRequest, "Body is missing", Types.responseCodeBadRequest⟩
  else if protocol = "" then
    .error ⟨Types.responseMessageMissingParameter, "protocol parameter is mandatory",
      Types.responseCodeBadRequest⟩
  else
    match m.putDeviceSchema.validate body with
    | .error errorDetails =>
        .error ⟨Types.responseMessageBadRequest, errorDetails, Types.responseCodeBadRequest⟩
    | .ok _ => do
        let endpoints ← m.serviceMgmt.getIotagentsByService service servicePath protocol
        return endpoints.map fun endpoint =>
          { endpoint := endpoint
            request := createRequest .put (.device deviceId) [(StoreTypes.protocol, protocol)]
              body service servicePath }

/-- The functions of the manager. The protocol is in the place of the resource, which is no
part of a change. -/
def operations : Operations Managed where
  resourceParam := StoreTypes.protocol
  putServiceJson service servicePath apikey _ body :=
    .ofExcept (m.putServiceJson service servicePath apikey body)
  deleteServiceJson r := .ofExcept (m.deleteServiceJson r)
  putDeviceJson service servicePath deviceId body protocol :=
    .ofExcept (m.putDeviceJson service servicePath deviceId body protocol)
  deleteDeviceJson service servicePath deviceId protocol :=
    .ofExcept (m.deleteDeviceJson service servicePath deviceId protocol)
  answer := .answers
  throw := .throws

/-- A request to the manager. -/
def handle (r : AdminRequest) : Managed :=
  dispatch m.operations r

end AgentManager

/-! ### What is asked of an agent -/

/-- The request with a resource in the place of the protocol. -/
def AdminRequest.withResource (r : AdminRequest) (resource : String) : AdminRequest :=
  { r with query := (StoreTypes.resource, resource) ::
      r.query.filter fun p => p.1 ≠ StoreTypes.protocol ∧ p.1 ≠ StoreTypes.resource }

/-- The change of a service of a protocol. -/
def AgentManager.askedOf (m : AgentManager) (r : AdminRequest) (service : Doc)
    (protocol : String) : List Forward :=
  (m.allDest protocol).map fun dest => ⟨dest.endpoint, { r.withResource dest.resource with
    content := m.jsonString (removeField service StoreTypes.protocol) }⟩

/-- The agents that a request is for, each with the same request to the agent itself: a
request for a device as it is; for services the resource of the agent instead of the protocol,
and each service alone. -/
def AgentManager.asked (m : AgentManager) (r : AdminRequest) : List Forward :=
  match r.target, r.method with
  | .services, .delete =>
      (m.allDest (r.param StoreTypes.protocol)).map fun dest =>
        ⟨dest.endpoint, r.withResource dest.resource⟩
  | .services, .put =>
      match m.putServiceSchema.validate (Text.trim r.content) with
      | .error _ => []
      | .ok obj => (AdminService.elements StoreTypes.services obj).flatMap fun service =>
          (protocolIds service).flatMap (m.askedOf r service)
  | .device _, _ =>
      (m.serviceMgmt.iotagents r.fiwareService r.servicePath (r.param StoreTypes.protocol)).map
        fun endpoint => ⟨endpoint, r⟩

/-- The tables. -/
def AdminState.stores (s : AdminState) : CascadeDelete.State where
  services := s.services
  devices := s.devices

/-- A deletion that loses nothing with its key and the devices: every document of the service
path and the resource has the key, if there is one, and if the devices go as well, a document
of the service path is left or there are no devices. -/
structure CascadeDelete.DeleteService.Kept (r : DeleteService) (s : AdminState) : Prop where
  apikey : r.apikey ≠ "" → ∀ d ∈ s.services.docs, Matches r.objCount d →
    d.get StoreTypes.resource = some (.str r.resource) →
      d.get StoreTypes.apikey = some (.str r.apikey)
  devices : r.removeDevices = true →
    (∃ d ∈ s.services.docs, Matches r.objCount d ∧ ¬ Matches r.objDelete d) ∨
      ∀ d ∈ s.devices.docs, ¬ Matches r.objDevice d

instance (r : DeleteService) (s : AdminState) : Decidable (r.Kept s) :=
  decidable_of_iff (_ ∧ _) ⟨fun h => ⟨h.1, h.2⟩, fun h => ⟨h.apikey, h.devices⟩⟩

/-- The request is no deletion of services that loses something. -/
def AdminRequest.Kept (r : AdminRequest) (s : AdminState) : Prop :=
  r.target = .services → r.method = .delete → r.param StoreTypes.resource ≠ "" →
    (r.deleteService (r.param StoreTypes.resource)).Kept s

instance (r : AdminRequest) (s : AdminState) : Decidable (r.Kept s) :=
  inferInstanceAs (Decidable (_ → _))

/-! ### Reading a request -/

section Dispatch

variable {τ : Type} (ops : Operations τ) {r : AdminRequest}

lemma dispatch_putService (ht : r.target = .services) (hm : r.method = .put)
    (ha : r.Addressed) (hw : ¬ r.Wildcard) : dispatch ops r =
      ops.putServiceJson r.fiwareService r.servicePath (r.param StoreTypes.apikey)
        (r.param StoreTypes.resource) (Text.trim r.content) := by
  simp only [dispatch, ha, ht, hm, hw, not_true_eq_false, if_false]

lemma dispatch_deleteService (ht : r.target = .services) (hm : r.method = .delete)
    (ha : r.Addressed) (hp : r.param ops.resourceParam ≠ "")
    (hw : ¬ (r.Wildcard ∧ r.removeDevices = true)) :
    dispatch ops r = ops.deleteServiceJson (r.deleteService (r.param ops.resourceParam)) := by
  simp only [dispatch, ha, ht, hm, hp, hw, not_true_eq_false, if_false]

lemma dispatch_putDevice {deviceInUrl : String} (ht : r.target = .device deviceInUrl)
    (hm : r.method = .put) (ha : r.Addressed) : dispatch ops r =
      ops.putDeviceJson r.fiwareService r.servicePath deviceInUrl (Text.trim r.content)
        (r.param StoreTypes.protocol) := by
  simp only [dispatch, ha, ht, hm, not_true_eq_false, if_false]

lemma dispatch_deleteDevice {deviceInUrl : String} (ht : r.target = .device deviceInUrl)
    (hm : r.method = .delete) (ha : r.Addressed) : dispatch ops r =
      ops.deleteDeviceJson r.fiwareService r.servicePath deviceInUrl
        (r.param StoreTypes.protocol) := by
  simp only [dispatch, ha, ht, hm, not_true_eq_false, if_false]

/-- A request without a place to look for services is refused. -/
lemma dispatch_noResource (ht : r.target = .services) (hm : r.method = .delete)
    (ha : r.Addressed) (hp : r.param ops.resourceParam = "") : dispatch ops r =
      ops.throw ⟨Types.responseMessageMissingParameter,
        ops.resourceParam ++ " parameter is mandatory", Types.responseCodeBadRequest⟩ := by
  simp only [dispatch, ha, ht, hm, hp, not_true_eq_false, if_false, if_true]

end Dispatch

namespace AdminRequest

variable {r r' : AdminRequest} {name resource : String}

lemma servicePath_ne : r.servicePath ≠ "" := by
  rw [servicePath]
  split
  · decide
  · assumption

/-- A request with the headers of another one as they are read. -/
structure Restates (r' r : AdminRequest) : Prop where
  fiwareService : r'.fiwareService = r.fiwareService
  fiwareServicepath : r'.fiwareServicepath = r.servicePath

lemma Restates.servicePath_eq (h : r'.Restates r) : r'.servicePath = r.servicePath := by
  rw [servicePath, h.fiwareServicepath, if_neg servicePath_ne]

lemma Restates.addressed (h : r'.Restates r) (ha : r.Addressed) : r'.Addressed := by
  refine ⟨h.fiwareService ▸ ha.1, fun _ => ?_⟩
  rw [h.fiwareServicepath, servicePath]
  split
  · rfl
  · next hne => exact ha.2 hne

lemma Restates.wildcard_iff (h : r'.Restates r) : r'.Wildcard ↔ r.Wildcard := by
  rw [Wildcard, Wildcard, h.servicePath_eq]

/-- The other parameters are those of the request. -/
lemma lookup_withResource (hp : name ≠ StoreTypes.protocol) (hr : name ≠ StoreTypes.resource) :
    (r.withResource resource).query.lookup name = r.query.lookup name := by
  rw [withResource, List.lookup_cons, beq_eq_false_iff_ne.mpr hr]
  induction r.query with
  | nil => rfl
  | cons p l ih =>
      rw [List.lookup_cons]
      by_cases hname : name = p.1
      · rw [beq_iff_eq.mpr hname, List.filter_cons_of_pos
          (by simpa using ⟨hname ▸ hp, hname ▸ hr⟩), List.lookup_cons, beq_iff_eq.mpr hname]
      · rw [beq_eq_false_iff_ne.mpr hname]
        by_cases hkept : p.1 ≠ StoreTypes.protocol ∧ p.1 ≠ StoreTypes.resource
        · rw [List.filter_cons_of_pos (by simpa using hkept), List.lookup_cons,
            beq_eq_false_iff_ne.mpr hname]
          exact ih
        · rw [List.filter_cons_of_neg (by simpa using hkept)]
          exact ih

lemma param_withResource : (r.withResource resource).param StoreTypes.resource = resource := by
  rw [param, withResource, List.lookup_cons, beq_self_eq_true]
  rfl

lemma apikey_withResource :
    (r.withResource resource).param StoreTypes.apikey = r.param StoreTypes.apikey := by
  rw [param, param, lookup_withResource (by decide) (by decide)]

lemma removeDevices_withResource :
    (r.withResource resource).removeDevices = r.removeDevices := by
  rw [removeDevices, removeDevices, lookup_withResource (by decide) (by decide)]

/-- What is read of the headers is not empty and begins with a slash. -/
lemma Addressed.check (ha : r.Addressed) : (r.deleteService resource).check = .ok () := by
  have hslash : r.servicePath.toList.head? = some '/' := by
    rw [servicePath]
    split
    · rfl
    · next hne => exact ha.2 hne
  rw [DeleteService.check, deleteService, if_neg ha.1, if_neg (not_not.mpr hslash)]

end AdminRequest

lemma AdminState.eq_of_stores {s s' : AdminState} (h : s.stores = s'.stores)
    (hsent : s.sent = s'.sent) : s = s' := by
  obtain ⟨services, devices, sent⟩ := s
  obtain ⟨hservices, hdevices⟩ := CascadeDelete.State.mk.inj h
  obtain rfl := hservices
  obtain rfl := hdevices
  obtain rfl := hsent
  rfl

/-! ### Deletions of services -/

namespace CascadeDelete.DeleteService

variable {r : DeleteService} {s : AdminState} {d : Doc}

/-- The deletion as the manager sends it on. -/
def widened (r : DeleteService) : DeleteService :=
  { r with apikey := "", removeDevices := false }

lemma matches_objDelete_iff : Matches r.objDelete d ↔ Matches r.objCount d ∧
    (r.apikey ≠ "" → d.get StoreTypes.apikey = some (.str r.apikey)) ∧
      (r.resource ≠ "" → d.get StoreTypes.resource = some (.str r.resource)) := by
  simp only [objDelete, objCount, matches_append, matches_opt]
  tauto

lemma matches_widened_iff : Matches r.widened.objDelete d ↔ Matches r.objCount d ∧
    (r.resource ≠ "" → d.get StoreTypes.resource = some (.str r.resource)) := by
  rw [matches_objDelete_iff]
  have hkey : r.widened.apikey ≠ "" → d.get StoreTypes.apikey = some (.str r.widened.apikey) :=
    fun h => absurd rfl h
  exact and_congr_right fun _ => and_iff_right hkey

lemma stores_deleteServiceJson (hcheck : r.check = .ok ()) :
    (AgentAdmin.deleteServiceJson s r).1.stores = {
      services := (s.services.remove r.objDelete).1
      devices := if (s.services.count r.objCount : ℤ) - (s.services.remove r.objDelete).2 = 0 ∧
          r.removeDevices = true then (s.devices.remove r.objDevice).1 else s.devices } := by
  rw [AgentAdmin.deleteServiceJson, hcheck]
  rfl

/-- The manager is told of every deletion. -/
lemma sent_deleteServiceJson (hcheck : r.check = .ok ()) :
    (AgentAdmin.deleteServiceJson s r).1.sent = s.sent ++ [.manager] := by
  rw [AgentAdmin.deleteServiceJson, hcheck]
  rfl

lemma stores_widened (hcheck : r.check = .ok ()) :
    (AgentAdmin.deleteServiceJson s r.widened).1.stores =
      ⟨(s.services.remove r.widened.objDelete).1, s.devices⟩ := by
  have hcheck' : r.widened.check = .ok () := hcheck
  have hno : ¬ ((s.services.count r.widened.objCount : ℤ) -
      (s.services.remove r.widened.objDelete).2 = 0 ∧ r.widened.removeDevices = true) :=
    fun h => Bool.false_ne_true h.2
  rw [stores_deleteServiceJson hcheck', if_neg hno]

/-- The difference of the numbers is nothing exactly when every document of the service path
goes. -/
lemma sub_eq_zero_iff : (s.services.count r.objCount : ℤ) -
    (s.services.remove r.objDelete).2 = 0 ↔
      ∀ d ∈ s.services.docs, Matches r.objCount d → Matches r.objDelete d := by
  have hcount := Table.count_remove (t := s.services) (q := r.objDelete) (p := r.objCount)
    fun d hd => (matches_objDelete_iff.mp hd).1
  have hnum : (s.services.remove r.objDelete).2 = s.services.count r.objDelete := rfl
  have hzero : (s.services.count r.objCount : ℤ) - (s.services.remove r.objDelete).2 = 0 ↔
      (s.services.remove r.objDelete).1.count r.objCount = 0 := by
    rw [hnum]
    omega
  rw [hzero, Table.count_eq_zero_iff, Table.docs_remove]
  simp only [List.mem_filter, decide_eq_true_eq, and_imp]
  exact forall₂_congr fun d _ => by tauto

/-- The services lose the same exactly when those of the resource have the key. -/
lemma services_eq_iff (hresource : r.resource ≠ "") :
    (s.services.remove r.widened.objDelete).1 = (s.services.remove r.objDelete).1 ↔
      (r.apikey ≠ "" → ∀ d ∈ s.services.docs, Matches r.objCount d →
        d.get StoreTypes.resource = some (.str r.resource) →
          d.get StoreTypes.apikey = some (.str r.apikey)) := by
  rw [Table.remove_eq_remove_iff]
  constructor
  · intro h hapikey d hd hpath hres
    have hwide : Matches r.widened.objDelete d := matches_widened_iff.mpr ⟨hpath, fun _ => hres⟩
    exact (matches_objDelete_iff.mp ((h d hd).mp hwide)).2.1 hapikey
  · intro h d hd
    rw [matches_widened_iff, matches_objDelete_iff]
    constructor
    · rintro ⟨hpath, hres⟩
      exact ⟨hpath, fun hapikey => h hapikey d hd hpath (hres hresource), hres⟩
    · rintro ⟨hpath, -, hres⟩
      exact ⟨hpath, hres⟩

/-- No devices go exactly when none should. -/
lemma devices_eq_iff : s.devices = (if (s.services.count r.objCount : ℤ) -
      (s.services.remove r.objDelete).2 = 0 ∧ r.removeDevices = true then
        (s.devices.remove r.objDevice).1 else s.devices) ↔
    (r.removeDevices = true →
      (∃ d ∈ s.services.docs, Matches r.objCount d ∧ ¬ Matches r.objDelete d) ∨
        ∀ d ∈ s.devices.docs, ¬ Matches r.objDevice d) := by
  split
  · next hall =>
      rw [eq_comm, Table.remove_eq_self_iff]
      constructor
      · exact fun h _ => .inr h
      · intro h
        rcases h hall.2 with ⟨d, hd, hpath, hnot⟩ | hnone
        · exact absurd (sub_eq_zero_iff.mp hall.1 d hd hpath) hnot
        · exact hnone
  · next hnot =>
      simp only [true_iff]
      intro hremove
      left
      by_contra hno
      refine hnot ⟨sub_eq_zero_iff.mpr fun d hd hpath => ?_, hremove⟩
      by_contra hd'
      exact hno ⟨d, hd, hpath, hd'⟩

/-- The deletion that is sent on does the same exactly when nothing is lost. -/
lemma stores_widened_eq_iff (hcheck : r.check = .ok ()) (hresource : r.resource ≠ "") :
    (AgentAdmin.deleteServiceJson s r.widened).1.stores =
      (AgentAdmin.deleteServiceJson s r).1.stores ↔ r.Kept s := by
  rw [stores_widened hcheck, stores_deleteServiceJson hcheck, CascadeDelete.State.mk.injEq,
    services_eq_iff hresource, devices_eq_iff]
  exact ⟨fun h => ⟨h.1, h.2⟩, fun h => ⟨h.apikey, h.devices⟩⟩

end CascadeDelete.DeleteService

/-! ### What the manager sends -/

/-- What is sent to an agent and what it is asked for: to the tables both do the same exactly
if nothing is lost, and then they do the same altogether. -/
structure Forward.Follows (sent direct : Forward) : Prop where
  endpoint : sent.endpoint = direct.endpoint
  stores_iff : ∀ (a : AgentAdmin) (s : AdminState),
    (a.handle s sent.request).1.stores = (a.handle s direct.request).1.stores ↔
      direct.request.Kept s
  state_eq : ∀ (a : AgentAdmin) (s : AdminState), direct.request.Kept s →
    (a.handle s sent.request).1 = (a.handle s direct.request).1

namespace AgentAdmin

variable {a : AgentAdmin} {s : AdminState} {r : AdminRequest} {deviceInUrl : String}

lemma handle_putService (ht : r.target = .services) (hm : r.method = .put) (ha : r.Addressed)
    (hw : ¬ r.Wildcard) : a.handle s r = a.putServiceJson s r.fiwareService r.servicePath
      (r.param StoreTypes.apikey) (r.param StoreTypes.resource) (Text.trim r.content) := by
  rw [handle, dispatch_putService _ ht hm ha hw, operations]

lemma handle_deleteService {resource : String} (ht : r.target = .services)
    (hm : r.method = .delete) (ha : r.Addressed) (hr : r.param StoreTypes.resource = resource)
    (hne : resource ≠ "") (hw : ¬ (r.Wildcard ∧ r.removeDevices = true)) :
    a.handle s r = deleteServiceJson s (r.deleteService resource) := by
  subst hr
  rw [handle, dispatch_deleteService _ ht hm ha (by rw [operations]; exact hne) hw, operations]

lemma handle_noResource (ht : r.target = .services) (hm : r.method = .delete)
    (ha : r.Addressed) (hr : r.param StoreTypes.resource = "") : a.handle s r =
      (s, .error ⟨Types.responseMessageMissingParameter,
        StoreTypes.resource ++ " parameter is mandatory", Types.responseCodeBadRequest⟩) := by
  rw [handle, dispatch_noResource _ ht hm ha (by rw [operations]; exact hr), operations]

lemma handle_putDevice (ht : r.target = .device deviceInUrl) (hm : r.method = .put)
    (ha : r.Addressed) : a.handle s r = a.putDeviceJson s r.fiwareService r.servicePath
      deviceInUrl (Text.trim r.content) (r.param StoreTypes.protocol) := by
  rw [handle, dispatch_putDevice _ ht hm ha, operations]

lemma handle_deleteDevice (ht : r.target = .device deviceInUrl) (hm : r.method = .delete)
    (ha : r.Addressed) : a.handle s r =
      a.deleteDeviceJson s r.fiwareService r.servicePath deviceInUrl := by
  rw [handle, dispatch_deleteDevice _ ht hm ha, operations]

end AgentAdmin

namespace AgentManager

open AgentAdmin

variable {m : AgentManager} {r : AdminRequest} {endpoint resource content : String}

lemma restates_createRequest {method : Method} {target : Target}
    {query : List (String × String)} : (createRequest method target query content
      r.fiwareService r.servicePath).Restates r where
  fiwareService := rfl
  fiwareServicepath := rfl

/-- A request that every agent takes for the one that it is asked. -/
lemma follows_of_handle_eq {sent direct : AdminRequest}
    (hkept : ∀ s, direct.Kept s)
    (h : ∀ (a : AgentAdmin) (s : AdminState), a.handle s sent = a.handle s direct) :
    Forward.Follows ⟨endpoint, sent⟩ ⟨endpoint, direct⟩ where
  endpoint := rfl
  stores_iff a s := iff_of_true (by rw [h]) (hkept s)
  state_eq a s _ := by rw [h]

/-- A parameter that is left out reads as the empty one. -/
lemma getD_lookup_makeQueryString {l : List (String × String)} (hl : (l.map Prod.fst).Nodup)
    (name : String) : ((makeQueryString l).lookup name).getD "" = (l.lookup name).getD "" := by
  induction l with
  | nil => rfl
  | cons p l ih =>
      obtain ⟨hp, hl⟩ := List.nodup_cons.mp hl
      have ih := ih hl
      rw [makeQueryString] at ih
      rw [makeQueryString, List.lookup_cons]
      by_cases hname : name = p.1
      · rw [beq_iff_eq.mpr hname]
        by_cases hempty : p.2 = ""
        · have hnone : l.lookup name = none := by
            rw [List.lookup_eq_none_iff]
            intro q hq
            rw [bne_iff_ne, hname]
            exact fun e => hp (e ▸ List.mem_map_of_mem hq)
          rw [List.filter_cons_of_neg (by simpa using hempty), ih, hnone, hempty]
          rfl
        · rw [List.filter_cons_of_pos (by simpa using hempty), List.lookup_cons,
            beq_iff_eq.mpr hname]
      · rw [beq_eq_false_iff_ne.mpr hname, ← ih]
        by_cases hempty : p.2 = ""
        · rw [List.filter_cons_of_neg (by simpa using hempty)]
        · rw [List.filter_cons_of_pos (by simpa using hempty), List.lookup_cons,
            beq_eq_false_iff_ne.mpr hname]

/-! #### Devices -/

/-- A deletion of a device: the agent asks for no protocol. -/
lemma follows_deleteDevice {deviceInUrl : String} (ht : r.target = .device deviceInUrl)
    (hm : r.method = .delete) (ha : r.Addressed) :
    Forward.Follows ⟨endpoint, createRequest .delete (.device deviceInUrl) [] ""
      r.fiwareService r.servicePath⟩ ⟨endpoint, r⟩ := by
  refine follows_of_handle_eq (fun s h => by rw [ht] at h; cases h) fun a s => ?_
  set sent := createRequest .delete (.device deviceInUrl) [] "" r.fiwareService r.servicePath
  have hr : sent.Restates r := restates_createRequest
  calc a.handle s sent = a.deleteDeviceJson s sent.fiwareService sent.servicePath deviceInUrl :=
        handle_deleteDevice rfl rfl (hr.addressed ha)
    _ = a.deleteDeviceJson s r.fiwareService r.servicePath deviceInUrl := by
        rw [hr.fiwareService, hr.servicePath_eq]
    _ = a.handle s r := (handle_deleteDevice ht hm ha).symm

/-- A change of a device: the body is trimmed twice. -/
lemma follows_putDevice {deviceInUrl : String} (ht : r.target = .device deviceInUrl)
    (hm : r.method = .put) (ha : r.Addressed) :
    Forward.Follows ⟨endpoint, createRequest .put (.device deviceInUrl)
      [(StoreTypes.protocol, r.param StoreTypes.protocol)] (Text.trim r.content)
      r.fiwareService r.servicePath⟩ ⟨endpoint, r⟩ := by
  refine follows_of_handle_eq (fun s h => by rw [ht] at h; cases h) fun a s => ?_
  set sent := createRequest .put (.device deviceInUrl)
    [(StoreTypes.protocol, r.param StoreTypes.protocol)] (Text.trim r.content)
    r.fiwareService r.servicePath
  have hr : sent.Restates r := restates_createRequest
  have hprotocol : sent.param StoreTypes.protocol = r.param StoreTypes.protocol := rfl
  have hcontent : Text.trim sent.content = Text.trim r.content := Text.trim_trim _
  calc a.handle s sent = a.putDeviceJson s sent.fiwareService sent.servicePath deviceInUrl
          (Text.trim sent.content) (sent.param StoreTypes.protocol) :=
        handle_putDevice rfl rfl (hr.addressed ha)
    _ = a.putDeviceJson s r.fiwareService r.servicePath deviceInUrl (Text.trim r.content)
          (r.param StoreTypes.protocol) := by
        rw [hr.fiwareService, hr.servicePath_eq, hcontent, hprotocol]
    _ = a.handle s r := (handle_putDevice ht hm ha).symm

/-! #### Services -/

/-- A change of a service: the key and the resource are in the query. -/
lemma follows_putService (ht : r.target = .services) (hm : r.method = .put)
    (ha : r.Addressed) (hw : ¬ r.Wildcard) :
    Forward.Follows ⟨endpoint, createRequest .put .services (makeQueryString
      [(StoreTypes.apikey, r.param StoreTypes.apikey), (StoreTypes.resource, resource)])
      content r.fiwareService r.servicePath⟩
      ⟨endpoint, { r.withResource resource with content }⟩ := by
  set query := [(StoreTypes.apikey, r.param StoreTypes.apikey), (StoreTypes.resource, resource)]
    with hquery
  set sent := createRequest .put .services (makeQueryString query) content r.fiwareService
    r.servicePath
  set direct : AdminRequest := { r.withResource resource with content }
  have hdirect : direct.method = .put := hm
  refine follows_of_handle_eq (fun s _ h => by rw [hdirect] at h; cases h) fun a s => ?_
  have hr : sent.Restates r := restates_createRequest
  have hnames : query.map Prod.fst = ["apikey", "resource"] := rfl
  have hparam (name : String) : sent.param name = (query.lookup name).getD "" :=
    getD_lookup_makeQueryString (hnames ▸ by decide) name
  have hkey : sent.param StoreTypes.apikey = direct.param StoreTypes.apikey :=
    (hparam _).trans AdminRequest.apikey_withResource.symm
  have hresource : sent.param StoreTypes.resource = direct.param StoreTypes.resource :=
    (hparam _).trans AdminRequest.param_withResource.symm
  calc a.handle s sent = a.putServiceJson s sent.fiwareService sent.servicePath
          (sent.param StoreTypes.apikey) (sent.param StoreTypes.resource)
          (Text.trim sent.content) :=
        handle_putService rfl rfl (hr.addressed ha) (hr.wildcard_iff.not.mpr hw)
    _ = a.putServiceJson s r.fiwareService r.servicePath
          (direct.param StoreTypes.apikey) (direct.param StoreTypes.resource)
          (Text.trim direct.content) := by
        rw [hr.fiwareService, hr.servicePath_eq, hkey, hresource]
        rfl
    _ = a.handle s direct := by
        symm
        exact handle_putService (r := direct) ht hm ha hw

/-- A deletion of services: the key and the devices are lost. -/
lemma follows_deleteService (ht : r.target = .services) (hm : r.method = .delete)
    (ha : r.Addressed) (hw : ¬ (r.Wildcard ∧ r.removeDevices = true)) :
    Forward.Follows ⟨endpoint, createRequest .delete .services
      (makeQueryString [(StoreTypes.resource, resource)]) "" r.fiwareService r.servicePath⟩
      ⟨endpoint, r.withResource resource⟩ := by
  set query := [(StoreTypes.resource, resource)] with hquery
  set sent := createRequest .delete .services (makeQueryString query) "" r.fiwareService
    r.servicePath
  set direct := r.withResource resource with hdirect
  have hr : sent.Restates r := restates_createRequest
  have hnames : query.map Prod.fst = ["resource"] := rfl
  have hparam (name : String) : sent.param name = (query.lookup name).getD "" :=
    getD_lookup_makeQueryString (hnames ▸ by decide) name
  have hsentResource : sent.param StoreTypes.resource = resource := hparam _
  have hdirectResource : direct.param StoreTypes.resource = resource :=
    AdminRequest.param_withResource
  have htd : direct.target = .services := ht
  have hmd : direct.method = .delete := hm
  have had : direct.Addressed := ha
  by_cases hempty : resource = ""
  · -- without a resource an agent refuses both
    refine follows_of_handle_eq (fun s _ _ hne => absurd (hdirectResource.trans hempty) hne)
      fun a s => ?_
    rw [handle_noResource rfl rfl (hr.addressed ha) (hsentResource.trans hempty),
      handle_noResource htd hmd had (hdirectResource.trans hempty)]
  · have hremove : sent.removeDevices = false := by
      have hlookup : sent.query.lookup "device" = none := by
        have hall : sent.query = query :=
          List.filter_eq_self.mpr (by simpa [hquery] using hempty)
        rw [hall]
        rfl
      rw [AdminRequest.removeDevices, hlookup]
      decide
    have hwd : ¬ (direct.Wildcard ∧ direct.removeDevices = true) := by
      rw [hdirect, AdminRequest.removeDevices_withResource]
      exact hw
    have hwide : sent.deleteService resource = (direct.deleteService resource).widened := by
      rw [AdminRequest.deleteService, AdminRequest.deleteService, DeleteService.widened,
        hr.servicePath_eq, hremove, hparam]
      rfl
    have hsent (a : AgentAdmin) (s : AdminState) : a.handle s sent =
        AgentAdmin.deleteServiceJson s (direct.deleteService resource).widened := by
      rw [handle_deleteService rfl rfl (hr.addressed ha) hsentResource hempty
        (fun h => Bool.false_ne_true (hremove.symm.trans h.2)), hwide]
    have hasked (a : AgentAdmin) (s : AdminState) : a.handle s direct =
        AgentAdmin.deleteServiceJson s (direct.deleteService resource) :=
      handle_deleteService htd hmd had hdirectResource hempty hwd
    have hcheck : (direct.deleteService resource).check = .ok () := had.check
    have hkept (s : AdminState) : direct.Kept s ↔ (direct.deleteService resource).Kept s := by
      rw [AdminRequest.Kept, hdirectResource]
      exact ⟨fun h => h ht hm hempty, fun h _ _ _ => h⟩
    have hiff (a : AgentAdmin) (s : AdminState) :
        (a.handle s sent).1.stores = (a.handle s direct).1.stores ↔ direct.Kept s := by
      rw [hkept, hsent, hasked]
      exact DeleteService.stores_widened_eq_iff hcheck hempty
    refine ⟨rfl, hiff, fun a s hk => AdminState.eq_of_stores ((hiff a s).mpr hk) ?_⟩
    rw [hsent, hasked, DeleteService.sent_deleteServiceJson hcheck]
    exact DeleteService.sent_deleteServiceJson (r := DeleteService.widened _) hcheck

end AgentManager

/-! ### Every agent -/

namespace AgentManager

variable {m : AgentManager} {r : AdminRequest} {forwards : List Forward}

lemma ofExcept_eq_forwards_iff {x : Except IotaException (List Forward)} :
    Managed.ofExcept x = .forwards forwards ↔ x = .ok forwards := by
  cases x <;> simp [Managed.ofExcept]

/-- A request that the manager sends something for names its service. -/
lemma addressed_of_forwards (h : m.handle r = .forwards forwards) : r.Addressed := by
  by_contra ha
  rw [handle, dispatch, if_pos ha, operations] at h
  cases h

/-- A change of services that is sent is for one service path. -/
lemma putServiceJson_of_forwards (h : m.handle r = .forwards forwards)
    (ht : r.target = .services) (hm : r.method = .put) : ¬ r.Wildcard ∧
      m.putServiceJson r.fiwareService r.servicePath (r.param StoreTypes.apikey)
        (Text.trim r.content) = .ok forwards := by
  have ha := addressed_of_forwards h
  have hw : ¬ r.Wildcard := by
    intro hw
    simp only [handle, dispatch, ha, ht, hm, hw, not_true_eq_false, if_false, if_true,
      operations] at h
    cases h
  rw [handle, dispatch_putService _ ht hm ha hw, operations, ofExcept_eq_forwards_iff] at h
  exact ⟨hw, h⟩

/-- A deletion of services that is sent names a protocol and keeps the devices of all paths. -/
lemma deleteServiceJson_of_forwards (h : m.handle r = .forwards forwards)
    (ht : r.target = .services) (hm : r.method = .delete) :
    ¬ (r.Wildcard ∧ r.removeDevices = true) ∧
      m.deleteServiceJson (r.deleteService (r.param StoreTypes.protocol)) = .ok forwards := by
  have ha := addressed_of_forwards h
  have hp : r.param StoreTypes.protocol ≠ "" := by
    intro hp
    rw [handle, dispatch_noResource _ ht hm ha (by rw [operations]; exact hp)] at h
    cases h
  have hw : ¬ (r.Wildcard ∧ r.removeDevices = true) := by
    intro hw
    simp only [handle, dispatch, ha, ht, hm, hw, hp, operations, not_true_eq_false, if_false,
      if_true, and_self] at h
    cases h
  rw [handle, dispatch_deleteService _ ht hm ha (by rw [operations]; exact hp) hw, operations,
    ofExcept_eq_forwards_iff] at h
  exact ⟨hw, h⟩

lemma putDeviceJson_of_forwards {deviceInUrl : String} (h : m.handle r = .forwards forwards)
    (ht : r.target = .device deviceInUrl) (hm : r.method = .put) :
    m.putDeviceJson r.fiwareService r.servicePath deviceInUrl (Text.trim r.content)
      (r.param StoreTypes.protocol) = .ok forwards := by
  rwa [handle, dispatch_putDevice _ ht hm (addressed_of_forwards h), operations,
    ofExcept_eq_forwards_iff] at h

lemma deleteDeviceJson_of_forwards {deviceInUrl : String} (h : m.handle r = .forwards forwards)
    (ht : r.target = .device deviceInUrl) (hm : r.method = .delete) :
    m.deleteDeviceJson r.fiwareService r.servicePath deviceInUrl (r.param StoreTypes.protocol) =
      .ok forwards := by
  rwa [handle, dispatch_deleteDevice _ ht hm (addressed_of_forwards h), operations,
    ofExcept_eq_forwards_iff] at h

/-- The agents of a service, if there are any. -/
lemma bind_getIotagentsByService {t : ServiceMgmtCollection}
    {service servicePath protocol : String} {f : List String → List Forward}
    (h : (t.getIotagentsByService service servicePath protocol).bind (fun l => .ok (f l)) =
      .ok forwards) : forwards = f (t.iotagents service servicePath protocol) := by
  rw [ServiceMgmtCollection.getIotagentsByService] at h
  split at h
  · cases h
  · cases h
    rfl

lemma forwards_deleteDeviceJson {service servicePath deviceId protocol : String}
    (h : m.deleteDeviceJson service servicePath deviceId protocol = .ok forwards) :
    forwards = (m.serviceMgmt.iotagents service servicePath protocol).map fun endpoint =>
      ⟨endpoint, createRequest .delete (.device deviceId) [] "" service servicePath⟩ := by
  rw [deleteDeviceJson] at h
  split at h
  · cases h
  · split at h
    · cases h
    · exact bind_getIotagentsByService h

lemma forwards_putDeviceJson {service servicePath deviceId body protocol : String}
    (h : m.putDeviceJson service servicePath deviceId body protocol = .ok forwards) :
    forwards = (m.serviceMgmt.iotagents service servicePath protocol).map fun endpoint =>
      ⟨endpoint, createRequest .put (.device deviceId) [(StoreTypes.protocol, protocol)] body
        service servicePath⟩ := by
  rw [putDeviceJson] at h
  split at h
  · cases h
  · split at h
    · cases h
    · split at h
      · cases h
      · split at h
        · cases h
        · exact bind_getIotagentsByService h

lemma forwards_deleteServiceJson {d : DeleteService}
    (h : m.deleteServiceJson d = .ok forwards) :
    forwards = (m.allDest d.resource).map fun dest =>
      ⟨dest.endpoint, createRequest .delete .services
        (makeQueryString [(StoreTypes.resource, dest.resource)]) "" d.id d.servicePath⟩ := by
  rw [deleteServiceJson] at h
  split at h
  · cases h
  · split at h
    · cases h
    · cases h
      rfl

/-- What is sent for an element. -/
def forwardsOf (m : AgentManager) (service servicePath apikey protocol : String)
    (content : Doc) : List Forward :=
  (m.allDest protocol).map fun dest => ⟨dest.endpoint, createRequest .put .services
    (makeQueryString [(StoreTypes.apikey, apikey), (StoreTypes.resource, dest.resource)])
    (m.jsonString content) service servicePath⟩

lemma forwards_putServiceJson {service servicePath apikey body : String}
    (h : m.putServiceJson service servicePath apikey body = .ok forwards) :
    ∃ obj os, m.putServiceSchema.validate body = .ok obj ∧
      m.getElementsFromBSON obj = .ok os ∧ forwards = os.flatMap fun o =>
        m.forwardsOf service servicePath apikey (o.getStringField StoreTypes.protocol)
          (removeField (removeField o "description") StoreTypes.protocol) := by
  rw [putServiceJson] at h
  split at h
  · cases h
  · split at h
    · cases h
    · next obj hvalid =>
        obtain ⟨os, hos, hforwards⟩ := Attempts.bind_eq_ok_iff.mp h
        cases hforwards
        exact ⟨obj, os, hvalid, hos, rfl⟩

/-- An element for a protocol: the service of the body, without what was added to it. -/
lemma of_withProtocol {service o : Doc} {id : String} (h : m.withProtocol service id = .ok o)
    (hdescription : service.get "description" = none) :
    o.getStringField StoreTypes.protocol = id ∧
      removeField (removeField o "description") StoreTypes.protocol =
        removeField service StoreTypes.protocol := by
  rw [withProtocol] at h
  split at h
  · next description _ =>
      cases h
      have hnone : Doc.get (removeField service StoreTypes.protocol) StoreTypes.protocol =
          none := by
        rw [Doc.get_eq_none_iff]
        simp [removeField]
      constructor
      · apply Doc.getStringField_of_get
        rw [Doc.get_append, hnone]
        rfl
      · have hkept : ∀ fv ∈ service, fv.1 ≠ "description" := fun fv hfv e =>
          Doc.get_eq_none_iff.mp hdescription (List.mem_map.mpr ⟨fv, hfv, e⟩)
        have htwice : removeField (removeField (removeField service StoreTypes.protocol)
            "description") StoreTypes.protocol = removeField service StoreTypes.protocol := by
          rw [removeField, removeField, removeField, List.filter_filter, List.filter_filter]
          refine List.filter_congr fun fv hfv => ?_
          simp [hkept fv hfv]
        rw [removeField, removeField, List.filter_append, List.filter_append]
        exact (List.append_nil _).trans htwice
  · cases h

/-- The elements of a body are its services, each for its protocols. -/
lemma forall₂_elements {obj : Doc} {os : List Doc} (h : m.getElementsFromBSON obj = .ok os)
    (hobj : ArrayOf (fun d => d.get "description" = none) StoreTypes.services obj) :
    List.Forall₂ (fun si o => o.getStringField StoreTypes.protocol = si.2 ∧
      removeField (removeField o "description") StoreTypes.protocol =
        removeField si.1 StoreTypes.protocol)
      ((AdminService.elements StoreTypes.services obj).flatMap fun service =>
        (protocolIds service).map fun id => (service, id)) os := by
  rw [getElementsFromBSON] at h
  have hshape : ∀ si ∈ (AdminService.elements StoreTypes.services obj).flatMap fun service =>
      (protocolIds service).map fun id => (service, id),
      si.1.get "description" = none := by
    intro si hsi
    obtain ⟨service, hservice, hsi⟩ := List.mem_flatMap.mp hsi
    obtain ⟨id, -, rfl⟩ := List.mem_map.mp hsi
    exact AdminService.mem_elements_shape hobj service hservice
  have hboth := (List.forall₂_and_left _ _).mpr ⟨hshape, Attempts.mapM_eq_ok_iff.mp h⟩
  exact hboth.imp fun si o hso => of_withProtocol hso.2 hso.1

/-- **Forwarding**: what is sent follows what is asked, agent by agent. -/
lemma forall₂_follows (h : m.handle r = .forwards forwards) :
    List.Forall₂ Forward.Follows forwards (m.asked r) := by
  have ha : r.Addressed := addressed_of_forwards h
  cases ht : r.target with
  | services =>
      cases hm : r.method with
      | put =>
          obtain ⟨hw, h⟩ := putServiceJson_of_forwards h ht hm
          obtain ⟨obj, os, hvalid, hos, rfl⟩ := forwards_putServiceJson h
          simp only [asked, ht, hm, hvalid]
          have helements := forall₂_elements hos (m.putServiceSchema.shape _ _ hvalid)
          have hflat : ((AdminService.elements StoreTypes.services obj).flatMap fun service =>
              (protocolIds service).flatMap (m.askedOf r service)) =
              ((AdminService.elements StoreTypes.services obj).flatMap fun service =>
                (protocolIds service).map fun id => (service, id)).flatMap fun si =>
                  m.askedOf r si.1 si.2 := by
            simp only [List.flatMap_assoc, List.flatMap_map]
          rw [hflat]
          refine List.rel_flatMap helements.flip ?_
          rintro o si ⟨hprotocol, hcontent⟩
          simp only [forwardsOf, askedOf, hprotocol, hcontent]
          rw [List.forall₂_map_left_iff, List.forall₂_map_right_iff]
          exact List.forall₂_same.mpr fun dest _ => follows_putService ht hm ha hw
      | delete =>
          obtain ⟨hw, h⟩ := deleteServiceJson_of_forwards h ht hm
          obtain rfl := forwards_deleteServiceJson h
          simp only [asked, ht, hm]
          rw [List.forall₂_map_left_iff, List.forall₂_map_right_iff]
          exact List.forall₂_same.mpr fun dest _ => follows_deleteService ht hm ha hw
  | device deviceInUrl =>
      cases hm : r.method with
      | put =>
          obtain rfl := forwards_putDeviceJson (putDeviceJson_of_forwards h ht hm)
          simp only [asked, ht]
          rw [List.forall₂_map_left_iff, List.forall₂_map_right_iff]
          exact List.forall₂_same.mpr fun endpoint _ => follows_putDevice ht hm ha
      | delete =>
          obtain rfl := forwards_deleteDeviceJson (deleteDeviceJson_of_forwards h ht hm)
          simp only [asked, ht]
          rw [List.forall₂_map_left_iff, List.forall₂_map_right_iff]
          exact List.forall₂_same.mpr fun endpoint _ => follows_deleteDevice ht hm ha

end AgentManager

/-! ### An agent that is asked more than once -/

/-- Requests to an agent, one after the other. -/
def AgentAdmin.run (a : AgentAdmin) (s : AdminState) (requests : List AdminRequest) :
    AdminState :=
  requests.foldl (fun s r => (a.handle s r).1) s

/-- None of the requests loses anything in the state that it is made in. -/
def AgentAdmin.KeptRun (a : AgentAdmin) : AdminState → List AdminRequest → Prop
  | _, [] => True
  | s, r :: requests => r.Kept s ∧ a.KeptRun (a.handle s r).1 requests

/-- The requests to an agent. -/
def toAgent (endpoint : String) (forwards : List Forward) : List AdminRequest :=
  (forwards.filter fun f => f.endpoint = endpoint).map Forward.request

lemma toAgent_cons {endpoint : String} {f : Forward} {forwards : List Forward} :
    toAgent endpoint (f :: forwards) = if f.endpoint = endpoint then
      f.request :: toAgent endpoint forwards else toAgent endpoint forwards := by
  rw [toAgent, List.filter_cons]
  by_cases he : f.endpoint = endpoint <;> simp [he, toAgent]

namespace AgentManager

lemma run_eq_of_follows {a : AgentAdmin} {s : AdminState} {endpoint : String}
    {forwards asked : List Forward} (h : List.Forall₂ Forward.Follows forwards asked)
    (hkept : a.KeptRun s (toAgent endpoint asked)) :
    a.run s (toAgent endpoint forwards) = a.run s (toAgent endpoint asked) := by
  induction h generalizing s with
  | nil => rfl
  | @cons sent direct forwards asked hf h ih =>
      rw [toAgent_cons] at hkept
      rw [toAgent_cons, toAgent_cons, hf.endpoint]
      by_cases he : direct.endpoint = endpoint
      · rw [if_pos he] at hkept
        rw [if_pos he, if_pos he, AgentAdmin.run, AgentAdmin.run, List.foldl_cons,
          List.foldl_cons, hf.state_eq a s hkept.1]
        exact ih hkept.2
      · rw [if_neg he] at hkept
        rw [if_neg he, if_neg he]
        exact ih hkept

/-- All requests that the manager sends to an agent do what the agent is asked, one after the
other, if no deletion among them loses anything. -/
theorem forwards_run (m : AgentManager) (r : AdminRequest) {forwards : List Forward}
    (h : m.handle r = .forwards forwards) (a : AgentAdmin) (s : AdminState) (endpoint : String)
    (hkept : a.KeptRun s (toAgent endpoint (m.asked r))) :
    a.run s (toAgent endpoint forwards) = a.run s (toAgent endpoint (m.asked r)) :=
  run_eq_of_follows (forall₂_follows h) hkept

/-- Agent by agent, what the manager sends does to the tables what the request itself does
exactly if it is no deletion of services that loses something: the key, where another one has
the resource, or the devices, where the last service goes. -/
theorem forwards_iff (m : AgentManager) (r : AdminRequest) {forwards : List Forward}
    (h : m.handle r = .forwards forwards) :
    List.Forall₂ (fun sent direct => sent.endpoint = direct.endpoint ∧
      ∀ (a : AgentAdmin) (s : AdminState),
        (a.handle s sent.request).1.stores = (a.handle s direct.request).1.stores ↔
          direct.request.Kept s) forwards (m.asked r) :=
  (forall₂_follows h).imp fun _ _ hf => ⟨hf.endpoint, hf.stores_iff⟩

/-! ### A deletion with a key and the devices -/

/-- The manager of two agents with a request for neither. -/
def deletingManager : AgentManager where
  toManagerService := twoAgentManager
  putServiceSchema := AdminService.knowing []
  putDeviceSchema := AdminService.knowing []
  serviceMgmt := .empty
  jsonString := fun _ => "\x7b\x7d"

/-- An agent. -/
def ultraLight : AgentAdmin where
  toAdminService := AdminService.ultraLightAgent
  putServiceSchema := AdminService.knowing []

/-- The request for the services of a key with the devices. -/
def deleteByKey : AdminRequest :=
  createRequest .delete .services
    [(StoreTypes.protocol, "UL20"), (StoreTypes.apikey, "k1"), ("device", "true")] ""
    "service" "/"

/-- What the agents are sent. -/
def deleteResource : AdminRequest :=
  createRequest .delete .services [(StoreTypes.resource, "/iot/d")] "" "service" "/"

/-- A service with a key. -/
def ofKey (apikey : String) : Doc :=
  [(StoreTypes.apikey, .str apikey), (StoreTypes.resource, .str "/iot/d"),
    (StoreTypes.service, .str "service"), (StoreTypes.servicePath, .str "/")]

/-- A service without devices. -/
def oneKey : AdminState where
  services := ⟨[ofKey "k1"], by decide⟩
  devices := Table.empty
  sent := []

/-- The service alone goes both ways. -/
theorem forwards_iff_oneKey :
    (ultraLight.handle oneKey deleteResource).1.stores =
      (ultraLight.handle oneKey (deleteByKey.withResource "/iot/d")).1.stores := by
  have hsent : deletingManager.handle deleteByKey =
      .forwards [⟨"http://a", deleteResource⟩, ⟨"http://b", deleteResource⟩] := rfl
  obtain ⟨hfirst, -⟩ := List.forall₂_cons.mp (forwards_iff deletingManager deleteByKey hsent)
  exact (hfirst.2 ultraLight oneKey).mpr (by decide +kernel)

/-- Two services with a key each, and a service with a device. -/
def twoKeys : AdminState where
  services := ⟨[ofKey "k1", ofKey "k2"], by decide⟩
  devices := Table.empty
  sent := []

lemma unique_device : Unique deviceIndexes [[(StoreTypes.deviceId, .str "d1"),
    (StoreTypes.service, .str "service"), (StoreTypes.servicePath, .str "/")]] := by
  decide

def keyWithDevice : AdminState where
  services := ⟨[ofKey "k1"], by decide⟩
  devices := ⟨_, unique_device⟩
  sent := []

/-- The service of the other key goes as well, and the device stays. -/
theorem not_forwards_deleteByKey :
    deletingManager.handle deleteByKey =
        .forwards [⟨"http://a", deleteResource⟩, ⟨"http://b", deleteResource⟩] ∧
      deletingManager.asked deleteByKey =
        [⟨"http://a", deleteByKey.withResource "/iot/d"⟩,
          ⟨"http://b", deleteByKey.withResource "/iot/d"⟩] ∧
      ((ultraLight.handle twoKeys deleteResource).1.services.docs = [] ∧
        (ultraLight.handle twoKeys (deleteByKey.withResource "/iot/d")).1.services.docs =
          [ofKey "k2"]) ∧
      (ultraLight.handle keyWithDevice deleteResource).1.devices.docs ≠ [] ∧
        (ultraLight.handle keyWithDevice (deleteByKey.withResource "/iot/d")).1.devices.docs =
          [] :=
  ⟨rfl, rfl, by decide +kernel, by decide +kernel⟩

end AgentManager

end IotAgent
