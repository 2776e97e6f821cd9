import IotAgent.Services.AdminService
import IotAgent.Services.CascadeDelete
import IotAgent.Util.Text

/-!
The requests of the administration as they arrive (`AdminService::services` and
`AdminService::device`).

The agent and the manager read a request in the same way, from its headers, its query and its
body, and differ in the functions that they call then: the manager overrides them.

* `AdminRequest`, `Operations`, `dispatch`: a request, the functions that are overridden, and
  the reading of the request;
* `AgentAdmin.putServiceJson`, `AgentAdmin.deleteServiceJson`: the functions of the agent on
  services;
* `AgentAdmin.handle`: what a request does to an agent.
-/

namespace IotAgent

open Mongo ServiceCollection CascadeDelete

/-! ### Requests -/

/-- The methods that change or delete. -/
inductive Method where
  | put
  | delete
  deriving DecidableEq

/-- What a request is for: the services, or a device with the identifier in the address. -/
inductive Target where
  | services
  | device (deviceInUrl : String)
  deriving DecidableEq

/-- A request, with its identifier and the parameters of its query decoded. -/
structure AdminRequest where
  target : Target
  method : Method
  fiwareService : String
  fiwareServicepath : String
  query : List (String × String)
  content : String
  deriving DecidableEq

namespace AdminRequest

variable (r : AdminRequest)

/-- A parameter of the query. -/
def param (name : String) : String :=
  (r.query.lookup name).getD ""

/-- The service path; the root without a header. -/
def servicePath : String :=
  if r.fiwareServicepath = "" then Types.fiwareServicepathDefault else r.fiwareServicepath

/-- The reading of a truth value as a word, which is false where it fails. -/
def boolalpha (s : String) : Bool :=
  "true".toList.isPrefixOf (s.toList.dropWhile Text.isSpace)

/-- Whether the devices go with the service. -/
def removeDevices : Bool :=
  boolalpha ((r.query.lookup "device").getD "false")

/-- The headers name a service and a service path, if any, that begins with a slash. -/
def Addressed : Prop :=
  r.fiwareService ≠ "" ∧
    (r.fiwareServicepath ≠ "" → r.fiwareServicepath.toList.head? = some '/')

instance : Decidable r.Addressed :=
  inferInstanceAs (Decidable (_ ∧ _))

/-- The service path stands for all. -/
def Wildcard : Prop :=
  r.servicePath = "/*" ∨ r.servicePath = "/#"

instance : Decidable r.Wildcard :=
  inferInstanceAs (Decidable (_ ∨ _))

/-- The deletion of services that is asked for. -/
def deleteService (resource : String) : DeleteService where
  id := r.fiwareService
  servicePath := r.servicePath
  apikey := r.param StoreTypes.apikey
  resource := resource
  removeDevices := r.removeDevices

end AdminRequest

/-- The functions that the manager overrides, and what becomes of an answer or an exception of
the caller itself. -/
structure Operations (τ : Type) where
  resourceParam : String
  putServiceJson : (service servicePath apikey resource body : String) → τ
  deleteServiceJson : DeleteService → τ
  putDeviceJson : (service servicePath deviceId body protocol : String) → τ
  deleteDeviceJson : (service servicePath deviceId protocol : String) → τ
  answer : Answer → τ
  throw : IotaException → τ

/-- The answer to a request that is not accepted. -/
def badParameter (details : String) : Answer :=
  ⟨Types.responseCodeBadRequest, Types.responseMessageInvalidParameter, details⟩

/-- `services` and `device`. For a deletion of services one parameter has to be there, which
is not the same for the agent and the manager (`get_param_resource`). -/
def dispatch {τ : Type} (ops : Operations τ) (r : AdminRequest) : τ :=
  if ¬ r.Addressed then
    ops.answer (badParameter "Fiware-Service/Fiware-ServicePath not present or invalid")
  else
    match r.target, r.method with
    | .services, .put =>
        if r.Wildcard then
          ops.answer (badParameter
            ("Fiware-ServicePath is invalid in PUT operation [" ++ r.servicePath ++ "]"))
        else ops.putServiceJson r.fiwareService r.servicePath (r.param StoreTypes.apikey)
          (r.param StoreTypes.resource) (Text.trim r.content)
    | .services, .delete =>
        if r.param ops.resourceParam = "" then
          ops.throw ⟨Types.responseMessageMissingParameter,
            ops.resourceParam ++ " parameter is mandatory", Types.responseCodeBadRequest⟩
        else if r.Wildcard ∧ r.removeDevices then
          ops.answer (badParameter ("Fiware-ServicePath is invalid in DELETE operation [" ++
            r.servicePath ++ "] removing devices"))
        else ops.deleteServiceJson (r.deleteService (r.param ops.resourceParam))
    | .device deviceInUrl, .put =>
        ops.putDeviceJson r.fiwareService r.servicePath deviceInUrl (Text.trim r.content)
          (r.param StoreTypes.protocol)
    | .device deviceInUrl, .delete =>
        ops.deleteDeviceJson r.fiwareService r.servicePath deviceInUrl
          (r.param StoreTypes.protocol)

/-! ### The agent -/

/-- An agent with the schema for changes of services. -/
structure AgentAdmin extends AdminService where
  putServiceSchema : BodySchema fun _ => True

namespace AgentAdmin

variable (a : AgentAdmin) (s : AdminState)

/-- The query of `put_service_json`. -/
def putServiceQuery (service servicePath apikey resource : String) : Doc :=
  [(StoreTypes.serviceId, .str service), (StoreTypes.servicePath, .str servicePath),
    (StoreTypes.apikey, .str apikey), (StoreTypes.resource, .str resource)]

/-- The write of `put_service_json`. -/
def putService (service servicePath apikey resource body : String) (setbo : Doc) :
    AdminState × Except IotaException Answer :=
  let query := putServiceQuery service servicePath apikey resource
  let coll := a.serviceColl s.services
  if ¬ (setbo.map Prod.fst).Nodup then
    (s, .error (Collection.databaseError (coll.bbdd ++ " " ++ coll.text query)))
  else
    match s.services.update query setbo with
    | none =>
        (s, .error ⟨Types.responseMessageDuplicatedData,
          "duplicate key: " ++ coll.bbdd ++ " " ++ coll.text query,
          Types.responseCodeDuplicateKey⟩)
    | some (services, count) =>
        if count = 0 then
          (s, .error ⟨Types.responseMessageNoService,
            " [  put_service_json service=" ++ service ++ " service_path=" ++ servicePath ++
              " service_id=" ++ service ++ " content=" ++ body ++ " resource=" ++ resource ++
              "]", Types.responseCodeDataNotFound⟩)
        else
          (AdminService.registerIotaManager { s with services },
            .ok ⟨Types.responseCodeNoContent, "", ""⟩)

/-- `put_service_json`. -/
def putServiceJson (service servicePath apikey resource body : String) :
    AdminState × Except IotaException Answer :=
  if resource = "" then
    (s, .error ⟨Types.responseMessageMissingParameter,
      "resource parameter is mandatory in PUT operation", Types.responseCodeBadRequest⟩)
  else
    match a.checkExistingResource resource with
    | .error e => (s, .error e)
    | .ok () =>
        if body = "" then
          (s, .ok ⟨Types.responseCodeBadRequest, Types.responseMessageBadRequest,
            "empty body"⟩)
        else
          match a.putServiceSchema.validate body with
          | .error errorDetails =>
              (s, .ok ⟨Types.responseCodeBadRequest, Types.responseMessageBadRequest,
                errorDetails⟩)
          | .ok setbo =>
              if setbo = [] then
                (s, .ok ⟨Types.responseCodeBadRequest, Types.responseMessageBadRequest,
                  "empty body"⟩)
              else
                match a.checkService setbo with
                | .error e => (s, .error e)
                | .ok () => a.putService s service servicePath apikey resource body setbo

/-- `delete_service_json`. -/
def deleteServiceJson (r : DeleteService) : AdminState × Except IotaException Answer :=
  match r.check with
  | .error e => (s, .error e)
  | .ok () =>
      let numServices : ℤ := s.services.count r.objCount
      let (services, numRemovedServices) := s.services.remove r.objDelete
      let devices := if numServices - numRemovedServices = 0 ∧ r.removeDevices then
          (s.devices.remove r.objDevice).1
        else s.devices
      (AdminService.registerIotaManager { s with services, devices },
        .ok ⟨Types.responseCodeNoContent, "", ""⟩)

/-- The functions of the agent. The protocol is no part of the deletion of a device. -/
def operations : Operations (AdminState × Except IotaException Answer) where
  resourceParam := StoreTypes.resource
  putServiceJson service servicePath apikey resource body :=
    a.putServiceJson s service servicePath apikey resource body
  deleteServiceJson r := deleteServiceJson s r
  putDeviceJson service servicePath deviceId body protocol :=
    a.putDeviceJson s service servicePath deviceId body protocol
  deleteDeviceJson service servicePath deviceId _ :=
    a.deleteDeviceJson s service servicePath deviceId
  answer x := (s, .ok x)
  throw e := (s, .error e)

/-- A request to the agent. -/
def handle (r : AdminRequest) : AdminState × Except IotaException Answer :=
  dispatch (a.operations s) r

end AgentAdmin

end IotAgent
