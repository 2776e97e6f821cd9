import IotAgent.Lib.Batch
import IotAgent.Rest.Configurator
import IotAgent.Services.ManagerFanOut
import IotAgent.Util.ServiceMgmtCollection

/-!
The agents for the devices of a batch (`AdminManagerService::resolve_endpoints` in
`src/services/admin_mgmt_service.cc`).

The manager goes through the devices, looks up the agents of each protocol once, and pairs a
device with every agent of its protocol. A device without a protocol is left out; only when
nothing is left the batch is refused.

* `resolveEndpoints`: the pairs, or the exception;
* `pairs`: what a device should be paired with;
* `NoneDropped`: a batch that is not refused has all of the pairs, and some for every device;
* `noneDropped_iff`: the batches of which no device is dropped.
-/

namespace IotAgent

open AdminManagerService (DeviceToBeAdded)

deriving instance DecidableEq for DeviceToBeAdded

namespace ResolveEndpoints

/-! ### The loop over the devices -/

/-- The cache of the agents by protocol, and the pairs so far. A protocol that is not in the map
gets an empty vector at its first look-up. -/
structure Resolving where
  mapEndpoints : String → List String := fun _ => []
  vDevicesEndpointOut : List DeviceToBeAdded := []

/-- Exceptions, and `none` for an assertion of the JSON library. -/
abbrev Fault := Option IotaException

/-- `HasMember` and `operator[]`, of an object. -/
def memberOf (name : String) : Json → Except Fault (Option Json)
  | .object members => .ok (members.lookup name)
  | _ => .error none

/-- `GetString`, of a string. -/
def getString : Json → Except Fault String
  | .string s => .ok (Text.cString s)
  | _ => .error none

variable (lib : ConfLib) (agents : String → Except IotaException (List String))

/-- The agents of a protocol: those of the map, or else what the collection has. -/
def endpointsFor (s : Resolving) (protocol : String) : Except IotaException (List String) :=
  if s.mapEndpoints protocol = [] then agents protocol else .ok (s.mapEndpoints protocol)

/-- The body of the loop. -/
def resolveDevice (s : Resolving) (device : Json) : Except Fault Resolving :=
  match memberOf "protocol" device with
  | .error fault => .error fault
  | .ok none => .ok s
  | .ok (some value) =>
      match getString value with
      | .error fault => .error fault
      | .ok protocol =>
          match endpointsFor agents s protocol with
          | .error e => .error (some e)
          | .ok vEndpoint => .ok {
              mapEndpoints := Function.update s.mapEndpoints protocol vEndpoint
              vDevicesEndpointOut := s.vDevicesEndpointOut ++
                vEndpoint.map fun endpoint => ⟨lib.prettyWrite device, endpoint⟩ }

/-- The loop. Exceptions of the collection are turned into bad requests. -/
def resolveDevices (devices : List Json) : Except Fault (List DeviceToBeAdded) :=
  match Batch.run (resolveDevice lib agents) {} devices with
  | (s, .ok ()) => .ok s.vDevicesEndpointOut
  | (_, .error (some e)) => .error (some
      ⟨Types.responseMessageBadRequest, e.what, Types.responseCodeBadRequest⟩)
  | (_, .error none) => .error none

end ResolveEndpoints

open ResolveEndpoints in
/-- `resolve_endpoints`. -/
def AdminManagerService.resolveEndpoints (lib : ConfLib) (serviceMgmt : ServiceMgmtCollection)
    (devicesProtocolsIn service subService : String) : Except Fault (List DeviceToBeAdded) :=
  let badRequest (what : String) : Fault :=
    some ⟨Types.responseMessageBadRequest, what, Types.responseCodeBadRequest⟩
  match lib.parse (Text.cString devicesProtocolsIn) with
  | .error (parseError, errorOffset) =>
      .error (badRequest ("AdminManagerService: " ++ parseError ++ "[" ++ toString errorOffset ++
        "]"))
  | .ok document =>
      match memberOf "devices" document with
      | .error fault => .error fault
      | .ok none => .error (badRequest "not proper formatted [devices] : not found")
      | .ok (some (.array devices)) =>
          match resolveDevices lib (serviceMgmt.getIotagentsByService service subService)
              devices with
          | .error fault => .error fault
          | .ok [] => .error (badRequest (Types.responseMessageMissingIotagents ++ "[service " ++
              service ++ " sub-service " ++ subService ++ "]"))
          | .ok out => .ok out
      | .ok (some _) => .error (badRequest "not proper formatted [devices]: not an array")

namespace ResolveEndpoints

/-! ### What a device is paired with -/

/-- The protocol of a device. -/
def protocolOf (device : Json) : Option String :=
  match device.member "protocol" with
  | some (.string s) => some (Text.cString s)
  | _ => none

variable (lib : ConfLib) (serviceMgmt : ServiceMgmtCollection) (service subService : String)

/-- A pair for each agent that the collection gives for the protocol of a device. -/
def pairs (device : Json) : List DeviceToBeAdded :=
  match protocolOf device with
  | some protocol => (serviceMgmt.iotagents service subService protocol).map fun endpoint =>
      ⟨lib.prettyWrite device, endpoint⟩
  | none => []

/-- If the batch is not refused, every device has a pair, and the pairs are these. -/
def NoneDropped (devices : List Json) (result : Except Fault (List DeviceToBeAdded)) : Prop :=
  ∀ out, result = .ok out →
    out = devices.flatMap (pairs lib serviceMgmt service subService) ∧
      ∀ device ∈ devices, pairs lib serviceMgmt service subService device ≠ []

/-- An object whose protocol, if there is one, is a string. -/
def DeviceObject (device : Json) : Prop :=
  ∃ members, device = .object members ∧
    ∀ value, members.lookup "protocol" = some value → ∃ s, value = .string s

/-- A body with an array of devices. -/
def HasDevices (body : String) (devices : List Json) : Prop :=
  (∃ members, lib.parse (Text.cString body) = .ok (.object members) ∧
      members.lookup "devices" = some (.array devices)) ∧
    ∀ device ∈ devices, DeviceObject device

/-- The collection has an agent for the protocol, if there is one. -/
def Served (device : Json) : Prop :=
  ∀ protocol, protocolOf device = some protocol →
    serviceMgmt.iotagents service subService protocol ≠ []

/-! ### A device -/

/-- The map holds what the collection gives. -/
def Cached (s : Resolving) : Prop :=
  ∀ protocol, s.mapEndpoints protocol = [] ∨
    s.mapEndpoints protocol = serviceMgmt.iotagents service subService protocol

variable {lib serviceMgmt service subService} {s : Resolving} {device : Json}
  {devices : List Json} {body protocol : String}

/-- From the map or from the collection, the agents are the same. -/
lemma endpointsFor_eq (hs : Cached serviceMgmt service subService s) :
    endpointsFor (serviceMgmt.getIotagentsByService service subService) s protocol =
      serviceMgmt.getIotagentsByService service subService protocol := by
  rw [endpointsFor]
  split
  case isTrue h => rfl
  case isFalse h =>
    have heq := (hs protocol).resolve_left h
    rw [heq] at h ⊢
    rw [ServiceMgmtCollection.getIotagentsByService, if_neg h]

/-- What the loop reads of a device. -/
lemma memberOf_protocol (hdevice : DeviceObject device) :
    (memberOf "protocol" device = .ok none ∧ protocolOf device = none) ∨
      ∃ text, memberOf "protocol" device = .ok (some (.string text)) ∧
        protocolOf device = some (Text.cString text) := by
  obtain ⟨members, rfl, hstring⟩ := hdevice
  cases hvalue : members.lookup "protocol" with
  | none =>
      refine .inl ⟨congrArg Except.ok hvalue, ?_⟩
      rw [protocolOf, Json.member, hvalue]
  | some value =>
      obtain ⟨text, rfl⟩ := hstring value hvalue
      refine .inr ⟨text, congrArg Except.ok hvalue, ?_⟩
      rw [protocolOf, Json.member, hvalue]

variable (lib) in
/-- A device that is served adds its pairs. -/
lemma resolveDevice_of_served (hdevice : DeviceObject device)
    (hs : Cached serviceMgmt service subService s)
    (hserved : Served serviceMgmt service subService device) :
    ∃ s', resolveDevice lib (serviceMgmt.getIotagentsByService service subService) s device =
        .ok s' ∧ Cached serviceMgmt service subService s' ∧
      s'.vDevicesEndpointOut =
        s.vDevicesEndpointOut ++ pairs lib serviceMgmt service subService device := by
  rcases memberOf_protocol hdevice with ⟨hmember, hprotocol⟩ | ⟨text, hmember, hprotocol⟩
  · refine ⟨s, ?_, hs, ?_⟩
    · rw [resolveDevice, hmember]
    · rw [pairs, hprotocol, List.append_nil]
  · have hget : endpointsFor (serviceMgmt.getIotagentsByService service subService) s
        (Text.cString text) =
          .ok (serviceMgmt.iotagents service subService (Text.cString text)) := by
      rw [endpointsFor_eq hs, ServiceMgmtCollection.getIotagentsByService,
        if_neg (hserved _ hprotocol)]
    refine ⟨⟨Function.update s.mapEndpoints (Text.cString text)
        (serviceMgmt.iotagents service subService (Text.cString text)),
      s.vDevicesEndpointOut ++ pairs lib serviceMgmt service subService device⟩, ?_, ?_, rfl⟩
    · simp only [resolveDevice, hmember, getString, hget, pairs, hprotocol]
    · intro protocol
      by_cases hp : protocol = Text.cString text
      · subst hp
        exact .inr (Function.update_self ..)
      · dsimp only
        rw [Function.update_of_ne hp]
        exact hs protocol

variable (lib) in
/-- For a protocol without an agent the collection throws. -/
lemma resolveDevice_of_not_served (hdevice : DeviceObject device)
    (hs : Cached serviceMgmt service subService s)
    (hserved : ¬ Served serviceMgmt service subService device) :
    ∃ e, resolveDevice lib (serviceMgmt.getIotagentsByService service subService) s device =
      .error (some e) := by
  rw [Served] at hserved
  push Not at hserved
  obtain ⟨protocol, hprotocol, hnone⟩ := hserved
  rcases memberOf_protocol hdevice with ⟨-, hno⟩ | ⟨text, hmember, htext⟩
  · rw [hno] at hprotocol
    cases hprotocol
  · obtain rfl : Text.cString text = protocol := Option.some.inj (htext.symm.trans hprotocol)
    obtain ⟨e, hget⟩ : ∃ e, serviceMgmt.getIotagentsByService service subService
        (Text.cString text) = .error e := ⟨_, if_pos hnone⟩
    refine ⟨e, ?_⟩
    simp only [resolveDevice, hmember, getString, endpointsFor_eq hs, hget]

/-! ### The batch -/

variable (lib) in
/-- When every device is served the pairs are in the order of the devices. -/
lemma run_of_served (hdevices : ∀ device ∈ devices, DeviceObject device)
    (hs : Cached serviceMgmt service subService s)
    (hserved : ∀ device ∈ devices, Served serviceMgmt service subService device) :
    ∃ s', Batch.run (resolveDevice lib (serviceMgmt.getIotagentsByService service subService)) s
        devices = (s', .ok ()) ∧
      s'.vDevicesEndpointOut = s.vDevicesEndpointOut ++
        devices.flatMap (pairs lib serviceMgmt service subService) := by
  induction devices generalizing s with
  | nil => exact ⟨s, rfl, (List.append_nil _).symm⟩
  | cons device devices ih =>
      obtain ⟨s₁, hstep, hs₁, hout₁⟩ := resolveDevice_of_served lib
        (hdevices device List.mem_cons_self) hs (hserved device List.mem_cons_self)
      obtain ⟨s', hrun, hout⟩ := ih (fun d hd => hdevices d (List.mem_cons_of_mem _ hd)) hs₁
        fun d hd => hserved d (List.mem_cons_of_mem _ hd)
      refine ⟨s', (Batch.run_cons_ok hstep).trans hrun, ?_⟩
      rw [hout, hout₁, List.flatMap_cons, List.append_assoc]

variable (lib) in
/-- A device that is not served ends the batch. -/
lemma run_of_not_served (hdevices : ∀ device ∈ devices, DeviceObject device)
    (hs : Cached serviceMgmt service subService s)
    (hserved : ¬ ∀ device ∈ devices, Served serviceMgmt service subService device) :
    ∃ s' e, Batch.run (resolveDevice lib (serviceMgmt.getIotagentsByService service subService))
      s devices = (s', .error (some e)) := by
  induction devices generalizing s with
  | nil => exact absurd (fun d hd => absurd hd List.not_mem_nil) hserved
  | cons device devices ih =>
      by_cases hfirst : Served serviceMgmt service subService device
      · obtain ⟨s₁, hstep, hs₁, -⟩ := resolveDevice_of_served lib
          (hdevices device List.mem_cons_self) hs hfirst
        rw [Batch.run_cons_ok hstep]
        refine ih (fun d hd => hdevices d (List.mem_cons_of_mem _ hd)) hs₁ fun hall => ?_
        exact hserved (List.forall_mem_cons.mpr ⟨hfirst, hall⟩)
      · obtain ⟨e, hstep⟩ := resolveDevice_of_not_served lib
          (hdevices device List.mem_cons_self) hs hfirst
        exact ⟨s, e, Batch.run_cons_error hstep⟩

lemma cached_start : Cached serviceMgmt service subService {} :=
  fun _ => .inl rfl

/-- When every device is served the pairs are returned, unless there is none. -/
lemma resolveEndpoints_eq_ok_iff (hbody : HasDevices lib body devices)
    (hserved : ∀ device ∈ devices, Served serviceMgmt service subService device)
    (out : List DeviceToBeAdded) :
    AdminManagerService.resolveEndpoints lib serviceMgmt body service subService = .ok out ↔
      out ≠ [] ∧ out = devices.flatMap (pairs lib serviceMgmt service subService) := by
  obtain ⟨⟨members, hparse, hlookup⟩, hdevices⟩ := hbody
  obtain ⟨s', hrun, hout⟩ := run_of_served lib hdevices cached_start hserved
  have hloop : resolveDevices lib (serviceMgmt.getIotagentsByService service subService) devices =
      .ok (devices.flatMap (pairs lib serviceMgmt service subService)) := by
    rw [resolveDevices, hrun]
    exact congrArg Except.ok hout
  simp only [AdminManagerService.resolveEndpoints, hparse, memberOf, hlookup, hloop]
  cases devices.flatMap (pairs lib serviceMgmt service subService) with
  | nil => exact iff_of_false (fun h => by cases h) fun h => h.1 h.2
  | cons pair pairs =>
      constructor
      · rintro ⟨⟩
        exact ⟨List.cons_ne_nil _ _, rfl⟩
      · rintro ⟨-, rfl⟩
        rfl

/-- When a device is not served the batch is refused. -/
lemma resolveEndpoints_ne_ok (hbody : HasDevices lib body devices)
    (hserved : ¬ ∀ device ∈ devices, Served serviceMgmt service subService device)
    (out : List DeviceToBeAdded) :
    AdminManagerService.resolveEndpoints lib serviceMgmt body service subService ≠ .ok out := by
  obtain ⟨⟨members, hparse, hlookup⟩, hdevices⟩ := hbody
  obtain ⟨s', e, hrun⟩ := run_of_not_served lib hdevices cached_start hserved
  simp only [AdminManagerService.resolveEndpoints, hparse, memberOf, hlookup, resolveDevices, hrun]
  exact fun h => by cases h

/-- A device that is served has a pair exactly when it has a protocol. -/
lemma pairs_eq_nil_iff (hserved : Served serviceMgmt service subService device) :
    pairs lib serviceMgmt service subService device = [] ↔ protocolOf device = none := by
  rw [pairs]
  cases hprotocol : protocolOf device with
  | none => exact iff_of_true rfl rfl
  | some protocol =>
      exact iff_of_false (fun h => hserved protocol hprotocol (List.map_eq_nil_iff.mp h))
        (Option.some_ne_none protocol)

/-- **No device is dropped** from a batch exactly when all of its devices have a protocol, or
none has, or there is one of a protocol without agents, for which the whole batch is refused. -/
theorem noneDropped_iff (hbody : HasDevices lib body devices) :
    NoneDropped lib serviceMgmt service subService devices
        (AdminManagerService.resolveEndpoints lib serviceMgmt body service subService) ↔
      (∀ device ∈ devices, protocolOf device ≠ none) ∨
        (∀ device ∈ devices, protocolOf device = none) ∨
        ∃ device ∈ devices, ∃ protocol, protocolOf device = some protocol ∧
          serviceMgmt.iotagents service subService protocol = [] := by
  by_cases hserved : ∀ device ∈ devices, Served serviceMgmt service subService device
  · have hall : ¬ ∃ device ∈ devices, ∃ protocol, protocolOf device = some protocol ∧
        serviceMgmt.iotagents service subService protocol = [] := by
      rintro ⟨device, hmem, protocol, hprotocol, hnone⟩
      exact hserved device hmem protocol hprotocol hnone
    have hresult := resolveEndpoints_eq_ok_iff hbody hserved
    have hempty : devices.flatMap (pairs lib serviceMgmt service subService) = [] ↔
        ∀ device ∈ devices, protocolOf device = none := by
      rw [List.flatMap_eq_nil_iff]
      exact forall₂_congr fun device hmem => pairs_eq_nil_iff (hserved device hmem)
    rw [or_iff_left hall]
    by_cases hnone : ∀ device ∈ devices, protocolOf device = none
    · refine iff_of_true (fun out hout => ?_) (.inr hnone)
      obtain ⟨hne, heq⟩ := (hresult out).mp hout
      exact absurd (heq.trans (hempty.mpr hnone)) hne
    · rw [or_iff_left hnone]
      constructor
      · intro h device hmem hprotocol
        have hpairs := (h _ ((hresult _).mpr ⟨hnone ∘ hempty.mp, rfl⟩)).2 device hmem
        exact hpairs ((pairs_eq_nil_iff (hserved device hmem)).mpr hprotocol)
      · intro h out hout
        exact ⟨((hresult out).mp hout).2, fun device hmem hnil =>
          h device hmem ((pairs_eq_nil_iff (hserved device hmem)).mp hnil)⟩
  · refine iff_of_true (fun out hout => absurd hout (resolveEndpoints_ne_ok hbody hserved out))
      (.inr (.inr ?_))
    simp only [Served] at hserved
    push Not at hserved
    exact hserved

/-! ### Batches of an agent -/

open Configurator (libOf prettyText)

/-- The collection of an agent for one protocol. -/
def oneAgent : ServiceMgmtCollection :=
  ServiceMgmtCollection.empty.setKey ⟨"s", "/ss", "http://agent", "UL20"⟩ []

/-- A device of a protocol, and one without. -/
def ulDevice (deviceId : String) : Json :=
  .object [("device_id", .string deviceId), ("protocol", .string "UL20")]

@[inherit_doc ulDevice]
def plainDevice : Json := .object [("device_id", .string "d2")]

/-- A batch of devices. -/
def batch (devices : List Json) : Json := .object [("devices", .array devices)]

lemma deviceObject_ulDevice (deviceId : String) : DeviceObject (ulDevice deviceId) :=
  ⟨_, rfl, fun _ hvalue => ⟨"UL20", (Option.some.inj hvalue).symm⟩⟩

lemma deviceObject_plainDevice : DeviceObject plainDevice :=
  ⟨_, rfl, nofun⟩

/-- The text of a batch is read as the batch. -/
lemma hasDevices_batch (devices : List Json)
    (hplain : Text.cString (prettyText 0 (batch devices)) = prettyText 0 (batch devices))
    (hdevices : ∀ device ∈ devices, DeviceObject device) :
    HasDevices (libOf [batch devices]) (prettyText 0 (batch devices)) devices := by
  refine ⟨⟨[("devices", .array devices)], ?_, rfl⟩, hdevices⟩
  rw [hplain]
  simp [libOf, batch]

/-- A batch of two devices of a protocol is answered with their pairs. -/
theorem noneDropped_twoDevices :
    NoneDropped (libOf [batch [ulDevice "d1", ulDevice "d2"]]) oneAgent "s" "/ss"
      [ulDevice "d1", ulDevice "d2"] (AdminManagerService.resolveEndpoints
        (libOf [batch [ulDevice "d1", ulDevice "d2"]]) oneAgent
        (prettyText 0 (batch [ulDevice "d1", ulDevice "d2"])) "s" "/ss") := by
  have hbody := hasDevices_batch [ulDevice "d1", ulDevice "d2"] (by decide +kernel)
    (by simp [deviceObject_ulDevice])
  refine (noneDropped_iff hbody).mpr (.inl fun device hdevice => ?_)
  simp only [List.mem_cons, List.not_mem_nil, or_false] at hdevice
  rcases hdevice with rfl | rfl
  · exact Option.some_ne_none _
  · exact Option.some_ne_none _

/-- A device without a protocol is dropped next to one that is served. -/
theorem not_noneDropped_plainDevice :
    HasDevices (libOf [batch [plainDevice, ulDevice "d1"]])
      (prettyText 0 (batch [plainDevice, ulDevice "d1"])) [plainDevice, ulDevice "d1"] ∧
    ¬ NoneDropped (libOf [batch [plainDevice, ulDevice "d1"]]) oneAgent "s" "/ss"
      [plainDevice, ulDevice "d1"] (AdminManagerService.resolveEndpoints
        (libOf [batch [plainDevice, ulDevice "d1"]]) oneAgent
        (prettyText 0 (batch [plainDevice, ulDevice "d1"])) "s" "/ss") := by
  have hbody := hasDevices_batch [plainDevice, ulDevice "d1"] (by decide +kernel)
    (by simp [deviceObject_plainDevice, deviceObject_ulDevice])
  have hok : (AdminManagerService.resolveEndpoints (libOf [batch [plainDevice, ulDevice "d1"]])
      oneAgent (prettyText 0 (batch [plainDevice, ulDevice "d1"])) "s" "/ss").isOk := by
    decide +kernel
  refine ⟨hbody, fun h => ?_⟩
  cases hresult : AdminManagerService.resolveEndpoints (libOf [batch [plainDevice, ulDevice "d1"]])
      oneAgent (prettyText 0 (batch [plainDevice, ulDevice "d1"])) "s" "/ss" with
  | error fault =>
      rw [hresult] at hok
      cases hok
  | ok out => exact (h out hresult).2 plainDevice List.mem_cons_self rfl

end ResolveEndpoints

end IotAgent
