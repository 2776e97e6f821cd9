import IotAgent.Services.AdminManagerService
import IotAgent.Services.BatchCreation

/-!
Devices and services for several agents (`post_multiple_devices`, `post_service_json` of the
manager).

The manager sends every item to every agent it is for. What the agents answer is kept in two
maps under their endpoints, one for success and one for errors, and the status of the manager
comes from what is in the maps.

* `AdminManagerService.postMultipleDevices`, `AdminManagerService.postServiceJson`: the requests;
* `Honest`: the answer tells what has become of the requests to the agents;
* `honest_reply_iff`, `fanOut_honest_iff`: it does exactly when, of requests of which some
  succeed and some fail, those that fail are noted and are for different endpoints.
-/

namespace IotAgent

open Mongo

/-! ### Requests to agents -/

/-- A request to an agent. The endpoint is what the answer is kept under. -/
structure Request (α : Type*) where
  endpoint : String
  content : α

/-- A request that has been made. -/
structure Exchange where
  endpoint : String
  outcome : Outcome String
  deriving DecidableEq

/-- What becomes of the requests, by their number. -/
abbrev Agents (α : Type*) := ℕ → Request α → Outcome String

/-- The requests are made one after the other. -/
def Agents.send {α : Type*} (agents : Agents α) (requests : List (Request α)) : List Exchange :=
  requests.zipIdx.map fun ri => ⟨ri.1.endpoint, agents ri.2 ri.1⟩

namespace Exchange

variable (parses : String → Bool) (onException : Option String) (a : Exchange)

/-- The agent has answered that the item is created. -/
def Created : Prop :=
  ∃ content, a.outcome = .response Types.responseCodeCreated content

/-- There was an exception. -/
def Throws : Prop :=
  ∃ what, a.outcome = .exception what

/-- The code of the request: its status, or that there is none. -/
def codeI : ℤ :=
  match a.outcome with
  | .response code _ => code
  | _ => AdminManagerService.noAnswer

/-- What is kept of a success. -/
def success : Option (String × String) :=
  match a.outcome with
  | .response code content =>
      if code = Types.responseCodeCreated then some (a.endpoint, content) else none
  | _ => none

/-- What is noted of a failure. -/
def failure : Option (String × String) :=
  match a.outcome with
  | .response code content =>
      if code = Types.responseCodeCreated then none
      else some (a.endpoint, AdminManagerService.errorManager parses code content)
  | .noConnection message => some
      (a.endpoint, AdminManagerService.errorManager parses AdminManagerService.noAnswer message)
  | .exception _ => onException.map fun message =>
      (a.endpoint, AdminManagerService.errorManager parses AdminManagerService.noAnswer message)

instance : Decidable a.Created :=
  match h : a.outcome with
  | .response code content =>
      decidable_of_iff (code = Types.responseCodeCreated) (by simp [Created, h])
  | .noConnection _ => isFalse (by simp [Created, h])
  | .exception _ => isFalse (by simp [Created, h])

end Exchange

namespace AdminManagerService

/-! ### The maps -/

/-- What the agents have answered, under their endpoints. -/
structure Responses where
  fromIotagent : StrMap := []
  nok : StrMap := []

/-- One more answer. -/
def Responses.add (parses : String → Bool) (onException : Option String) (r : Responses)
    (a : Exchange) : Responses :=
  match a.success, a.failure parses onException with
  | some (endpoint, content), _ =>
      { r with fromIotagent := StrMap.insert r.fromIotagent endpoint content }
  | none, some (endpoint, error) => { r with nok := StrMap.insert r.nok endpoint error }
  | none, none => r

/-- All answers. -/
def collect (parses : String → Bool) (onException : Option String) (exchanges : List Exchange) :
    Responses :=
  exchanges.foldl (Responses.add parses onException) {}

/-- The answer of the manager: the status, and the errors that its text lists. -/
structure FanReply where
  code : ℤ
  nok : StrMap

/-- The text of the answer. -/
def FanReply.response (r : FanReply) : String :=
  addErrorsToResponse "" r.nok

/-- The answer for what has been collected. -/
def Responses.reply (r : Responses) : FanReply where
  code :=
    if r.fromIotagent = [] then Types.responseCodeReceiverInternalError
    else if addErrorsToResponse "" r.nok ≠ "" then Types.responseCodeOk
    else Types.responseCodeCreated
  nok := r.nok

/-! ### Devices -/

/-- A device for an agent. -/
structure DeviceToBeAdded where
  deviceJson : String
  endpoint : String

/-- The request for a device. -/
def DeviceToBeAdded.request (dev : DeviceToBeAdded) : Request String where
  endpoint := dev.endpoint ++ "/devices"
  content := "\x7b\"devices\":[" ++ dev.deviceJson ++ "]\x7d"

/-- `post_multiple_devices`. An exception in `operation_device_iotagent` is an error with an
empty message. -/
def postMultipleDevices (parses : String → Bool) (agents : Agents String)
    (devices : List DeviceToBeAdded) : FanReply :=
  (collect parses (some "") (agents.send (devices.map DeviceToBeAdded.request))).reply

/-! ### Services -/

/-- An agent of a protocol. -/
structure ResourceEndpoint where
  endpoint : String
  resource : String

/-- The agents of a document of the protocols. -/
def endpoints (doc : Doc) : List ResourceEndpoint :=
  (AdminService.elements "endpoints" doc).map fun e =>
    ⟨e.getStringField StoreTypes.endpoint, e.getStringField StoreTypes.resource⟩

end AdminManagerService

/-- What the manager works with: the JSON library, the schema of services and the protocols. -/
structure ManagerService where
  parses : String → Bool
  postServiceSchema : BodySchema (ArrayOf (fun _ => True) StoreTypes.services)
  protocols : List Doc

namespace ManagerService

open AdminManagerService

variable (m : ManagerService)

/-- The agents of a protocol: those of the last document that is found. -/
def allDest (protocol : String) : List ResourceEndpoint :=
  ((m.protocols.filter fun d => Matches [(StoreTypes.protocol, .str protocol)] d).map
    endpoints).getLastD []

/-- `fillProtocols`: the descriptions of the protocols. -/
def fillProtocols : StrMap :=
  StrMap.ofList (m.protocols.map fun d =>
    (d.getStringField StoreTypes.protocol, d.getStringField "description"))

/-- The protocols of a service in a body. -/
def protocolIds (service : Doc) : List String :=
  match service.get StoreTypes.protocol with
  | some (.arr ids) => ids.map fun id => Doc.getStringField [("", id)] ""
  | _ => []

/-- The document without a field. -/
def removeField (d : Doc) (f : String) : Doc :=
  d.filter fun fv => fv.1 ≠ f

/-- A service of a body for one of its protocols. -/
def withProtocol (service : Doc) (protocolId : String) : Except IotaException Doc :=
  match m.fillProtocols.lookup protocolId with
  | some description => .ok (removeField service StoreTypes.protocol ++
      [(StoreTypes.protocol, .str protocolId), ("description", .str description)])
  | none => .error ⟨Types.responseMessageBadRequest, "No exists protocol " ++ protocolId,
      Types.responseCodeBadRequest⟩

/-- `getElementsFromBSON`: every service of the body once for each of its protocols. -/
def getElementsFromBSON (obj : Doc) : Except IotaException (List Doc) :=
  ((AdminService.elements StoreTypes.services obj).flatMap fun service =>
    (protocolIds service).map fun id => (service, id)).mapM fun si => m.withProtocol si.1 si.2

/-- What is sent to an agent for a service. -/
def toSend (obj : Doc) (resource : String) : Doc :=
  [(StoreTypes.services, .arr [.obj
    (removeField (removeField obj "description") StoreTypes.protocol ++
      [(StoreTypes.resource, .str resource)])])]

/-- The requests that a body asks for. -/
def serviceRequests (body : String) : Except IotaException (List (Request Doc)) :=
  if body = "" then
    .error ⟨Types.responseMessageBadRequest, "empty body", Types.responseCodeBadRequest⟩
  else
    match m.postServiceSchema.validate body with
    | .error errorDetails =>
        .error ⟨Types.responseMessageBadRequest, errorDetails, Types.responseCodeBadRequest⟩
    | .ok obj => do
        let objProtocols ← m.getElementsFromBSON obj
        return objProtocols.flatMap fun o =>
          (m.allDest (o.getStringField StoreTypes.protocol)).map fun dest =>
            ⟨dest.endpoint, toSend o dest.resource⟩

/-- `post_service_json`. An exception raises an alarm and is noted nowhere else. -/
def postServiceJson (agents : Agents Doc) (body : String) : Except IotaException FanReply := do
  let requests ← m.serviceRequests body
  return (collect m.parses none (agents.send requests)).reply

end ManagerService

/-! ### One answer -/

namespace Exchange

variable {parses : String → Bool} {onException : Option String} {a : Exchange}
  {e : String × String}

lemma isSome_success_iff : a.success.isSome ↔ a.Created := by
  obtain ⟨endpoint, outcome⟩ := a
  cases outcome with
  | response code content => by_cases h : code = Types.responseCodeCreated <;>
      simp [success, Created, h]
  | noConnection message => simp [success, Created]
  | exception what => simp [success, Created]

/-- A failure is noted, unless it is an exception and these are not noted. -/
lemma isSome_failure_iff : (a.failure parses onException).isSome ↔
    ¬ a.Created ∧ (a.Throws → onException.isSome) := by
  obtain ⟨endpoint, outcome⟩ := a
  cases outcome with
  | response code content => by_cases h : code = Types.responseCodeCreated <;>
      simp [failure, Created, Throws, h]
  | noConnection message => simp [failure, Created, Throws]
  | exception what => simp [failure, Created, Throws]

/-- What is noted names the endpoint and the code. -/
lemma failure_eq_some (h : a.failure parses onException = some e) : e.1 = a.endpoint ∧
    ∃ message, e.2 = AdminManagerService.errorManager parses a.codeI message := by
  obtain ⟨endpoint, outcome⟩ := a
  cases outcome with
  | response code content =>
      simp only [failure] at h
      split at h
      · cases h
      · obtain rfl := Option.some.inj h
        exact ⟨rfl, content, rfl⟩
  | noConnection message =>
      obtain rfl := Option.some.inj h
      exact ⟨rfl, message, rfl⟩
  | exception what =>
      obtain ⟨message, -, rfl⟩ := Option.map_eq_some_iff.mp h
      exact ⟨rfl, message, rfl⟩

end Exchange

/-! ### All answers -/

namespace AdminManagerService

variable {parses : String → Bool} {onException : Option String} {exchanges : List Exchange}

/-- The maps are built from what succeeds and from what is noted. -/
lemma collect_eq : collect parses onException exchanges =
    ⟨StrMap.ofList (exchanges.filterMap Exchange.success),
      StrMap.ofList (exchanges.filterMap (Exchange.failure parses onException))⟩ := by
  induction exchanges using List.reverseRecOn with
  | nil => rfl
  | append_singleton exchanges a ih =>
      rw [collect, List.foldl_concat, ← collect, ih, Responses.add, List.filterMap_append,
        List.filterMap_append]
      cases hs : a.success with
      | some kv =>
          have hcreated : a.Created := Exchange.isSome_success_iff.mp (hs ▸ rfl)
          have hnone : a.failure parses onException = none := by
            rw [← Option.not_isSome_iff_eq_none, Exchange.isSome_failure_iff]
            exact fun h => h.1 hcreated
          simp [hs, hnone, StrMap.foldl_insert_append]
      | none =>
          cases hf : a.failure parses onException with
          | some kv => simp [hs, hf, StrMap.foldl_insert_append]
          | none => simp [hs, hf]

lemma ofList_eq_nil_iff {l : List (String × String)} : StrMap.ofList l = [] ↔ l = [] := by
  rw [← List.map_eq_nil_iff (f := Prod.fst), ← List.map_eq_nil_iff (f := Prod.fst) (l := l),
    List.eq_nil_iff_forall_not_mem, List.eq_nil_iff_forall_not_mem]
  exact forall_congr' fun k => not_congr (StrMap.mem_keys_ofList l)

/-- There is a success exactly when the first map has something. -/
lemma fromIotagent_eq_nil_iff : (collect parses onException exchanges).fromIotagent = [] ↔
    ∀ a ∈ exchanges, ¬ a.Created := by
  rw [collect_eq, ofList_eq_nil_iff, List.filterMap_eq_nil_iff]
  refine forall₂_congr fun a _ => ?_
  rw [← Exchange.isSome_success_iff, Option.not_isSome_iff_eq_none]

lemma nok_eq_nil_iff : (collect parses onException exchanges).nok = [] ↔
    ∀ a ∈ exchanges, a.failure parses onException = none := by
  rw [collect_eq, ofList_eq_nil_iff, List.filterMap_eq_nil_iff]

lemma mem_keys_nok {k : String} : k ∈ StrMap.keys (collect parses onException exchanges).nok ↔
    ∃ a ∈ exchanges, (a.failure parses onException).isSome ∧ a.endpoint = k := by
  rw [collect_eq, StrMap.mem_keys_ofList]
  simp only [List.mem_map, List.mem_filterMap]
  constructor
  · rintro ⟨e, ⟨a, ha, he⟩, rfl⟩
    exact ⟨a, ha, he ▸ rfl, (Exchange.failure_eq_some he).1.symm⟩
  · rintro ⟨a, ha, hsome, rfl⟩
    obtain ⟨e, he⟩ := Option.isSome_iff_exists.mp hsome
    exact ⟨e, ⟨a, ha, he⟩, (Exchange.failure_eq_some he).1⟩

/-! ### Honesty -/

/-- Some requests succeed and some do not. -/
def Mixed (exchanges : List Exchange) : Prop :=
  (∃ a ∈ exchanges, a.Created) ∧ ∃ a ∈ exchanges, ¬ a.Created

instance (exchanges : List Exchange) : Decidable (Mixed exchanges) :=
  inferInstanceAs (Decidable (_ ∧ _))

/-- The requests that do not succeed. -/
def failing (exchanges : List Exchange) : List Exchange :=
  exchanges.filter fun a => ¬ a.Created

/-- The answer tells what has become of the requests: it says that everything is created only
if it is; if some requests succeed and some do not, it lists one error for each that does not,
under its endpoint and with its code; and it is an error if none succeeds. -/
structure Honest (parses : String → Bool) (exchanges : List Exchange) (reply : FanReply) :
    Prop where
  created : reply.code = Types.responseCodeCreated → ∀ a ∈ exchanges, a.Created
  partly : Mixed exchanges → reply.code = Types.responseCodeOk ∧
    (StrMap.keys reply.nok).Perm ((failing exchanges).map Exchange.endpoint) ∧
    ∀ e ∈ reply.nok, ∃ a ∈ failing exchanges, a.endpoint = e.1 ∧
      ∃ message, e.2 = errorManager parses a.codeI message
  none : (∀ a ∈ exchanges, ¬ a.Created) → 400 ≤ reply.code

lemma mem_failing {a : Exchange} : a ∈ failing exchanges ↔ a ∈ exchanges ∧ ¬ a.Created := by
  simp [failing]

/-- If every failure is noted, the notes are for the endpoints of the failures. -/
lemma keys_failures (h : ∀ a ∈ failing exchanges, (a.failure parses onException).isSome) :
    (exchanges.filterMap (Exchange.failure parses onException)).map Prod.fst =
      (failing exchanges).map Exchange.endpoint := by
  induction exchanges with
  | nil => rfl
  | cons a exchanges ih =>
      have htail := ih fun b hb => h b
        (mem_failing.mpr ⟨List.mem_cons_of_mem a (mem_failing.mp hb).1, (mem_failing.mp hb).2⟩)
      by_cases hc : a.Created
      · have hnone : a.failure parses onException = none := by
          rw [← Option.not_isSome_iff_eq_none, Exchange.isSome_failure_iff]
          exact fun h => h.1 hc
        rw [List.filterMap_cons_none hnone, htail, failing, failing,
          List.filter_cons_of_neg (by simpa using hc)]
      · obtain ⟨e, he⟩ := Option.isSome_iff_exists.mp
          (h a (mem_failing.mpr ⟨List.mem_cons_self, hc⟩))
        rw [List.filterMap_cons_some he, List.map_cons, htail, failing, failing,
          List.filter_cons_of_pos (by simpa using hc), List.map_cons,
          (Exchange.failure_eq_some he).1]

/-- The status says that everything is created, or that there are errors, only if something is
created. -/
lemma reply_code (h : ∃ a ∈ exchanges, a.Created) :
    (collect parses onException exchanges).reply.code =
      if ∃ a ∈ exchanges, (a.failure parses onException).isSome then Types.responseCodeOk
      else Types.responseCodeCreated := by
  obtain ⟨a, ha, hc⟩ := h
  have hok : (collect parses onException exchanges).fromIotagent ≠ [] := fun e =>
    fromIotagent_eq_nil_iff.mp e a ha hc
  have hnok : addErrorsToResponse "" (collect parses onException exchanges).nok ≠ "" ↔
      ∃ a ∈ exchanges, (a.failure parses onException).isSome := by
    rw [Ne, addErrorsToResponse_empty_eq_empty_iff, nok_eq_nil_iff]
    simp [Option.isSome_iff_ne_none]
  rw [Responses.reply, if_neg hok]
  exact if_congr hnok rfl rfl

/-- If nothing is created the answer is an error. -/
lemma reply_code_of_none (h : ∀ a ∈ exchanges, ¬ a.Created) :
    (collect parses onException exchanges).reply.code = Types.responseCodeReceiverInternalError :=
  if_pos (fromIotagent_eq_nil_iff.mpr h)

/-- The answer is honest exactly when, of requests of which some succeed and some do not, those
that do not are all noted and are for different endpoints. -/
lemma honest_reply_iff : Honest parses exchanges (collect parses onException exchanges).reply ↔
    (Mixed exchanges → (∀ a ∈ failing exchanges, (a.failure parses onException).isSome) ∧
      ((failing exchanges).map Exchange.endpoint).Nodup) := by
  constructor
  · intro h hmixed
    obtain ⟨-, hperm, -⟩ := h.partly hmixed
    have hordered : StrMap.Ordered (collect parses onException exchanges).reply.nok := by
      rw [Responses.reply, collect_eq]
      exact StrMap.ordered_ofList _
    have hnodup : ((failing exchanges).map Exchange.endpoint).Nodup :=
      hperm.nodup_iff.mp hordered.nodup_keys
    refine ⟨fun a ha => ?_, hnodup⟩
    -- the entry under the endpoint of `a` is for `a`, as no other failure has the endpoint
    obtain ⟨b, hb, hsome, heq⟩ := mem_keys_nok.mp
      (hperm.mem_iff.mpr (List.mem_map_of_mem ha))
    have hbf : b ∈ failing exchanges :=
      mem_failing.mpr ⟨hb, (Exchange.isSome_failure_iff.mp hsome).1⟩
    obtain rfl := List.inj_on_of_nodup_map hnodup hbf ha heq
    exact hsome
  · intro h
    refine ⟨fun hcode a ha => ?_, fun hmixed => ?_, fun hnone => ?_⟩
    · by_contra hc
      have hsome : ∃ b ∈ exchanges, b.Created := by
        by_contra hno
        rw [reply_code_of_none fun b hb hbc => hno ⟨b, hb, hbc⟩] at hcode
        exact absurd hcode (by decide)
      have hnoted := (h ⟨hsome, a, ha, hc⟩).1 a (mem_failing.mpr ⟨ha, hc⟩)
      rw [reply_code hsome, if_pos ⟨a, ha, hnoted⟩] at hcode
      exact absurd hcode (by decide)
    · obtain ⟨hnoted, hnodup⟩ := h hmixed
      obtain ⟨hsome, a, ha, hc⟩ := hmixed
      have hkeys := keys_failures hnoted
      refine ⟨?_, ?_, fun e he => ?_⟩
      · rw [reply_code hsome, if_pos ⟨a, ha, hnoted a (mem_failing.mpr ⟨ha, hc⟩)⟩]
      · rw [Responses.reply, collect_eq, ← hkeys]
        exact (StrMap.ofList_perm (hkeys ▸ hnodup)).map Prod.fst
      · rw [Responses.reply, collect_eq, (StrMap.ofList_perm (hkeys ▸ hnodup)).mem_iff] at he
        obtain ⟨b, hb, hfailure⟩ := List.mem_filterMap.mp he
        obtain ⟨hfst, hmessage⟩ := Exchange.failure_eq_some hfailure
        exact ⟨b, mem_failing.mpr
          ⟨hb, (Exchange.isSome_failure_iff.mp (Option.isSome_of_mem hfailure)).1⟩,
          hfst.symm, hmessage⟩
    · rw [reply_code_of_none hnone]
      decide

end AdminManagerService

namespace ManagerService

open AdminManagerService

variable (m : ManagerService)

lemma postServiceJson_eq {agents : Agents Doc} {body : String} {requests : List (Request Doc)}
    (h : m.serviceRequests body = .ok requests) : m.postServiceJson agents body =
      .ok (collect m.parses none (agents.send requests)).reply := by
  rw [postServiceJson, h]
  rfl

/-- Devices: the answer is honest exactly when, of requests of which some succeed and some do
not, those that do not are for different endpoints. Services: exactly when, moreover, none of
them throws. -/
theorem fanOut_honest_iff :
    (∀ (agents : Agents String) (devices : List DeviceToBeAdded),
      let exchanges := agents.send (devices.map DeviceToBeAdded.request)
      Honest m.parses exchanges (postMultipleDevices m.parses agents devices) ↔
        (Mixed exchanges → ((failing exchanges).map Exchange.endpoint).Nodup)) ∧
    ∀ (agents : Agents Doc) (body : String) (requests : List (Request Doc)),
      m.serviceRequests body = .ok requests →
      ∃ reply, m.postServiceJson agents body = .ok reply ∧
        let exchanges := agents.send requests
        (Honest m.parses exchanges reply ↔
          (Mixed exchanges → (∀ a ∈ failing exchanges, ¬ a.Throws) ∧
            ((failing exchanges).map Exchange.endpoint).Nodup)) := by
  constructor
  · intro agents devices
    refine honest_reply_iff.trans (imp_congr_right fun _ => and_iff_right fun a ha => ?_)
    exact Exchange.isSome_failure_iff.mpr ⟨(mem_failing.mp ha).2, fun _ => rfl⟩
  · intro agents body requests hrequests
    refine ⟨_, m.postServiceJson_eq hrequests, honest_reply_iff.trans
      (imp_congr_right fun _ => and_congr_left fun _ => forall₂_congr fun a ha => ?_)⟩
    rw [Exchange.isSome_failure_iff, and_iff_right (mem_failing.mp ha).2]
    simp

/-- A manager of two agents of one protocol, which are sent a service by the body "S". -/
def twoAgentManager : ManagerService where
  parses _ := true
  postServiceSchema := AdminService.onlyBody "S"
    [(StoreTypes.services, .arr [.obj [(StoreTypes.protocol, .arr [.str "UL20"])]])]
    ⟨_, rfl, by simp⟩
  protocols := [[(StoreTypes.protocol, .str "UL20"), ("endpoints", .arr [
    .obj [(StoreTypes.endpoint, .str "http://a"), (StoreTypes.resource, .str "/iot/d")],
    .obj [(StoreTypes.endpoint, .str "http://b"), (StoreTypes.resource, .str "/iot/d")]])]]

/-- The service for an agent. -/
def serviceFor (endpoint : String) : Request Doc where
  endpoint
  content := toSend [] "/iot/d"

lemma serviceRequests_twoAgentManager : twoAgentManager.serviceRequests "S" =
    .ok [serviceFor "http://a", serviceFor "http://b"] := by rfl

/-- One agent answers that the service is created, the other one has a conflict. -/
theorem fanOut_honest_iff_conflict :
    ∃ reply, twoAgentManager.postServiceJson
        (fun i _ => if i = 0 then .response 201 "" else .response 409 "{}") "S" = .ok reply ∧
      Honest (fun _ => true) [⟨"http://a", .response 201 ""⟩,
        ⟨"http://b", .response 409 "{}"⟩] reply := by
  obtain ⟨reply, hreply, hiff⟩ := (fanOut_honest_iff twoAgentManager).2
    (fun i _ => if i = 0 then .response 201 "" else .response 409 "{}") "S" _
    serviceRequests_twoAgentManager
  refine ⟨reply, hreply, hiff.mpr fun _ => ⟨?_, by decide⟩⟩
  rintro a ha ⟨what, hwhat⟩
  obtain rfl : a = ⟨"http://b", .response 409 "{}"⟩ := List.mem_singleton.mp ha
  cases hwhat

/-- Two devices that one agent refuses are one error, and a service that throws on its way to an
agent is none. -/
theorem not_fanOut_honest :
    (∃ (agents : Agents String) (devices : List DeviceToBeAdded),
      ¬ Honest (fun _ => true) (agents.send (devices.map DeviceToBeAdded.request))
        (postMultipleDevices (fun _ => true) agents devices)) ∧
    ∃ (agents : Agents Doc) (reply : FanReply),
      twoAgentManager.postServiceJson agents "S" = .ok reply ∧
        reply.code = Types.responseCodeCreated ∧
        ¬ Honest (fun _ => true)
          (agents.send [serviceFor "http://a", serviceFor "http://b"]) reply := by
  constructor
  · refine ⟨fun i _ => if i = 0 then .response 201 "" else .response 409 "{}",
      [⟨"{}", "http://a"⟩, ⟨"{}", "http://b"⟩, ⟨"{}", "http://b"⟩], fun h => ?_⟩
    have hlength := ((h.partly (by decide)).2.1).length_eq
    revert hlength
    decide
  · refine ⟨fun i _ => if i = 0 then .response 201 "" else .exception "timeout", ⟨201, []⟩,
      by rfl, rfl, fun h => ?_⟩
    have hcreated := h.created rfl
    revert hcreated
    decide

end ManagerService

end IotAgent
