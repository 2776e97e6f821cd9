import IotAgent.Lib.Runs
import IotAgent.Mongo.Fields
import IotAgent.Services.AdminService

/-!
Changes of devices, one after the other.

A change sets the fields of its body in the stored document of a device. The protocol is to
be left out, since it decides which handler the device belongs to.

* `AdminService.put`: a request for a change;
* `Overrides`: what it should leave behind;
* `answered`, `NotedAlready`: what the handlers of a protocol answer to the registration of a
  device, and that this is stored already;
* `KeepsProtocol`, `NotesNothing`: the protocol of the body is the stored one, and what is answered
  behind the write is noted already;
* `put_overrides`: an accepted request overrides the document exactly under both conditions,
  and a run of requests keeps all protocols exactly when its requests meet the first.
-/

namespace IotAgent

open Mongo

/-- A request for a change of a device. -/
structure PutRequest where
  service : String
  servicePath : String
  deviceId : String
  body : String
  protocol : String

/-- The query for the device. -/
def PutRequest.query (r : PutRequest) : Doc :=
  AdminService.putQuery r.service r.servicePath r.deviceId r.protocol

namespace AdminService

variable (a : AdminService) (s : AdminState) (r : PutRequest)

/-- `put_device_json` for a request. -/
def put : AdminState × Except IotaException Answer :=
  a.putDeviceJson s r.service r.servicePath r.deviceId r.body r.protocol

/-- The request was accepted. -/
def Accepted : Prop :=
  ¬Fails (a.put s r).2

/-- The protocols of the stored devices. -/
def protocols : List (Option Bson) :=
  s.devices.docs.map fun d => d.get StoreTypes.protocol

/-- A body without its protocol. -/
def withoutProtocol (setbo : Doc) : Doc :=
  setbo.filter fun fv => fv.1 ≠ StoreTypes.protocol

/-- The documents with the fields of a body in the device of the query. -/
def overridden (query setbo : Doc) (docs : List Doc) : List Doc :=
  docs.map fun d => if Matches query d then d.setAll setbo else d

/-- The device has the fields of the body afterwards except for the protocol, and nothing
else is changed. -/
def Overrides : Prop :=
  ∃ setbo, a.putDeviceSchema.validate r.body = .ok setbo ∧
    (a.put s r).1.devices.docs = overridden r.query (withoutProtocol setbo) s.devices.docs

/-- A protocol in the body is that of the device. -/
def KeepsProtocol : Prop :=
  ∀ setbo, a.putDeviceSchema.validate r.body = .ok setbo →
    ∀ d ∈ s.devices.docs, Matches r.query d →
      ∀ v, setbo.get StoreTypes.protocol = some v → d.get StoreTypes.protocol = some v

/-- What the handlers of its protocol answer to the registration of a device, one after the
other, to each what was answered before having been noted. -/
def answered (dev : Device) : List (String × ProtocolHandler) → DeviceTable → List (String × ℤ)
  | [], _ => []
  | rp :: handlers, t =>
      if rp.2.isCommandHandle ∧ dev.protocol = rp.2.protocol then
        match rp.2.registerContext t dev with
        | some reg => reg :: answered dev handlers (noteRegistration t dev reg)
        | none => answered dev handlers t
      else answered dev handlers t

/-- The device under the name has what is answered. -/
def NotedAlready (t : DeviceTable) (dev : Device) : Prop :=
  ∀ d, t.findOne (noteQuery dev) = some d →
    d.setAll ((answered dev a.serviceManager t).flatMap noted) = d

/-- The device of a request, as it is deployed behind the write. -/
def deployedBy (t : DeviceTable) (r : PutRequest) : Option Device :=
  (t.findOne r.query).map fun objDev => { Device.ofName r.deviceId r.service with
    servicePath := r.servicePath, protocol := objDev.getStringField StoreTypes.protocol }

/-- In the table that a change should leave, the device has what the handlers answer to its
registration, if they answer anything. -/
def NotesNothing : Prop :=
  ∀ setbo (t : DeviceTable), a.putDeviceSchema.validate r.body = .ok setbo →
    t.docs = overridden r.query (withoutProtocol setbo) s.devices.docs →
      ∀ dev, deployedBy t r = some dev → a.NotedAlready t dev

variable {a s r}

/-! ### A change of a table -/

/-- The only match is overridden. -/
lemma overridden_eq {query setbo d : Doc} {as bs : List Doc} (hd : Matches query d)
    (hothers : ∀ e ∈ as ++ bs, ¬Matches query e) :
    overridden query setbo (as ++ d :: bs) = as ++ d.setAll setbo :: bs := by
  have hid : ∀ l : List Doc, (∀ e ∈ l, ¬Matches query e) → overridden query setbo l = l := by
    intro l hl
    rw [overridden, List.map_congr_left fun e he => if_neg (hl e he), List.map_id']
  have has := hid as fun e he => hothers e (List.mem_append_left bs he)
  have hbs := hid bs fun e he => hothers e (List.mem_append_right as he)
  rw [overridden] at has hbs ⊢
  rw [List.map_append, List.map_cons, if_pos hd, has, hbs]

lemma map_middle_eq_iff {β : Type*} {f : Doc → β} {d e : Doc} {as bs : List Doc} :
    (as ++ d :: bs).map f = (as ++ e :: bs).map f ↔ f d = f e := by
  simp

/-- Setting a field keeps it exactly when it is not set to something else. -/
lemma get_setAll_eq_self_iff {d setbo : Doc} {f : String} (hnodup : (setbo.map Prod.fst).Nodup) :
    (d.setAll setbo).get f = d.get f ↔
      ∀ v, setbo.get f = some v → d.get f = some v := by
  rw [Doc.get_setAll _ _ hnodup]
  cases h : Doc.get setbo f with
  | none => simp
  | some v => simp [eq_comm]

/-- The body without its protocol keeps the protocol. -/
lemma get_setAll_withoutProtocol (d setbo : Doc) :
    (d.setAll (withoutProtocol setbo)).get StoreTypes.protocol = d.get StoreTypes.protocol := by
  refine Doc.get_setAll_of_notMem _ _ fun hmem => ?_
  obtain ⟨fv, hfv, hname⟩ := List.mem_map.mp hmem
  exact absurd hname (of_decide_eq_true (List.mem_filter.mp hfv).2)

/-! ### What is noted -/

/-- Notes for one device are one note of all their fields. -/
lemma foldl_noteRegistration_docs (dev : Device) (regs : List (String × ℤ)) (t : DeviceTable) :
    (regs.foldl (noteRegistration · dev ·) t).docs =
      modifyFirst (noteQuery dev) (·.setAll (regs.flatMap noted)) t.docs := by
  have hquery : ∀ reg d, Matches (noteQuery dev) (d.setAll (noted reg)) ↔
      Matches (noteQuery dev) d := by
    intro reg d
    refine forall₂_congr fun fv hfv => ?_
    have hname : fv.1 = StoreTypes.deviceId ∨ fv.1 = StoreTypes.service := by
      rw [noteQuery, List.mem_append] at hfv
      rcases hfv with hfv | hfv
      · exact .inl (congrArg Prod.fst (by simpa [Doc.opt] using hfv : _ ∧ fv = _).2)
      · exact .inr (congrArg Prod.fst (by simpa [Doc.opt] using hfv : _ ∧ fv = _).2)
    rw [Doc.get_setAll_of_notMem]
    intro hmem
    rcases mem_names_noted hmem with hnoted | hnoted <;> rcases hname with hname | hname <;>
      exact absurd (hname.symm.trans hnoted) (by decide)
  induction regs generalizing t with
  | nil =>
      rcases modifyFirst_spec (noteQuery dev) (·.setAll []) t.docs with
        ⟨-, h⟩ | ⟨as, d, bs, hl, -, -, h⟩
      · exact h.symm
      · exact hl.trans h.symm
  | cons reg regs ih =>
      rw [List.foldl_cons, ih, noteRegistration_docs, List.flatMap_cons]
      rcases modifyFirst_spec (noteQuery dev) (·.setAll (noted reg)) t.docs with
        ⟨hnone, h⟩ | ⟨as, d, bs, hl, has, hd, h⟩
      · have hsame : ∀ g, modifyFirst (noteQuery dev) g t.docs = t.docs := by
          intro g
          rcases modifyFirst_spec (noteQuery dev) g t.docs with ⟨-, h⟩ | ⟨as, e, bs, hl, -, he, -⟩
          · exact h
          · exact absurd he (hnone e (by simp [hl]))
        rw [h, hsame, hsame]
      · rw [h, hl, modifyFirst_append_of_forall has, modifyFirst_append_of_forall has, modifyFirst,
          modifyFirst, if_pos ((hquery reg d).mpr hd), if_pos hd, Doc.setAll_append]

/-- A deployment notes what is answered. -/
lemma deployDevice_devices (dev : Device) : (a.deployDevice s dev).devices =
    (answered dev a.serviceManager s.devices).foldl (noteRegistration · dev ·) s.devices := by
  rw [deployDevice]
  induction a.serviceManager generalizing s with
  | nil => rfl
  | cons rp handlers ih =>
      rw [List.foldl_cons, ih, answered]
      split
      · rw [sendRegisterDevice]
        dsimp only
        cases rp.2.registerContext s.devices dev with
        | none => rfl
        | some reg => rfl
      · rfl

/-- The devices stay exactly when what is answered is noted already. -/
lemma deployDevice_docs_iff (dev : Device) :
    (a.deployDevice s dev).devices.docs = s.devices.docs ↔ a.NotedAlready s.devices dev := by
  rw [deployDevice_devices, foldl_noteRegistration_docs, NotedAlready]
  rcases modifyFirst_spec (noteQuery dev)
    (·.setAll ((answered dev a.serviceManager s.devices).flatMap noted)) s.devices.docs with
    ⟨hnone, h⟩ | ⟨as, d, bs, hl, has, hd, h⟩
  · simp [h, Table.findOne_eq_none_iff.mpr hnone]
  · rw [h, Table.findOne_append hl has hd, hl]
    simp

/-- The deployment behind a write leaves the devices exactly when what is answered is noted
already. -/
lemma redeploy_docs_iff : (a.redeploy s r.query r.deviceId r.service r.servicePath).devices.docs =
    s.devices.docs ↔ ∀ dev, deployedBy s.devices r = some dev → a.NotedAlready s.devices dev := by
  rw [redeploy, deployedBy]
  cases s.devices.findOne r.query with
  | none => simp
  | some objDev =>
      dsimp only
      rw [deployDevice_docs_iff]
      simp

/-! ### One request -/

/-- What an accepted request has done: its device, the documents around it and the write. -/
structure Written (a : AdminService) (s : AdminState) (r : PutRequest) (setbo : Doc)
    (devices : DeviceTable) (d : Doc) (as bs : List Doc) : Prop where
  valid : a.putDeviceSchema.validate r.body = .ok setbo
  nodup : (setbo.map Prod.fst).Nodup
  before : s.devices.docs = as ++ d :: bs
  after : devices.docs = as ++ d.setAll setbo :: bs
  device : Matches r.query d
  others : ∀ e ∈ as ++ bs, ¬Matches r.query e
  state : (a.put s r).1 =
    a.redeploy { s with devices } r.query r.deviceId r.service r.servicePath

lemma Accepted.written (h : a.Accepted s r) :
    ∃ setbo devices d as bs, Written a s r setbo devices d as bs := by
  obtain ⟨setbo, _, devices, count, hvalid, hnodup, hcount, -, -, hupdate, hne, hstate⟩ :=
    putDeviceJson_of_not_fails h
  obtain ⟨as, d, bs, hbefore, hafter, -, hd, hothers⟩ :=
    Table.exists_only_match hcount hupdate hne
  exact ⟨setbo, devices, d, as, bs, hvalid, hnodup, hbefore, hafter, hd, hothers, hstate⟩

namespace Written

variable {setbo d : Doc} {devices : DeviceTable} {as bs : List Doc}
  (h : Written a s r setbo devices d as bs)

include h

lemma overridden_eq : overridden r.query (withoutProtocol setbo) s.devices.docs =
    as ++ d.setAll (withoutProtocol setbo) :: bs := by
  rw [h.before, AdminService.overridden_eq h.device h.others]

/-- The condition on the protocol, for the device alone. -/
lemma keepsProtocol_iff : a.KeepsProtocol s r ↔
    ∀ v, setbo.get StoreTypes.protocol = some v → d.get StoreTypes.protocol = some v := by
  have hmem : d ∈ s.devices.docs := by simp [h.before]
  refine ⟨fun hkeeps => hkeeps setbo h.valid d hmem h.device, fun hkeeps => ?_⟩
  intro setbo' hvalid e he hq
  obtain rfl := Except.ok.inj (h.valid.symm.trans hvalid)
  rw [h.before, List.mem_append, List.mem_cons, or_left_comm, ← List.mem_append] at he
  obtain rfl := he.resolve_right fun he => h.others e he hq
  exact hkeeps

/-- Under it the write is the one without the protocol. -/
lemma docs_eq (hkeeps : a.KeepsProtocol s r) :
    devices.docs = overridden r.query (withoutProtocol setbo) s.devices.docs := by
  rw [h.overridden_eq, h.after, withoutProtocol,
    Doc.setAll_eq_filter _ _ h.nodup (h.keepsProtocol_iff.mp hkeeps)]

lemma keyOf_protocol : (a.put s r).1.devices.docs.map (keyOf [StoreTypes.protocol]) =
    (as ++ d.setAll setbo :: bs).map (keyOf [StoreTypes.protocol]) := by
  rw [h.state, keyOf_redeploy (by decide) (by decide), ← h.after]

end Written

/-- A write changes no protocol exactly when the body keeps that of the device. -/
lemma keyOf_protocol_iff {setbo d e : Doc} {as bs : List Doc}
    (hnodup : (setbo.map Prod.fst).Nodup)
    (he : e.get StoreTypes.protocol = d.get StoreTypes.protocol) :
    (as ++ d.setAll setbo :: bs).map (keyOf [StoreTypes.protocol]) =
        (as ++ e :: bs).map (keyOf [StoreTypes.protocol]) ↔
      ∀ v, setbo.get StoreTypes.protocol = some v → d.get StoreTypes.protocol = some v := by
  rw [map_middle_eq_iff, ← get_setAll_eq_self_iff hnodup]
  simp [keyOf, he]

/-- A refused write changes nothing. -/
lemma putDevice_of_fails {service servicePath deviceId protocol body : String} {setbo : Doc}
    (h : Fails (a.putDevice s service servicePath deviceId protocol body setbo).2) :
    (a.putDevice s service servicePath deviceId protocol body setbo).1 = s := by
  rw [putDevice] at h ⊢
  by_cases hnodup : (setbo.map Prod.fst).Nodup
  · rw [if_neg (not_not.mpr hnodup)] at h ⊢
    cases hupdate : s.devices.update (putQuery service servicePath deviceId protocol) setbo with
    | none => rfl
    | some p =>
        rw [hupdate] at h
        dsimp only at h ⊢
        by_cases hzero : p.2 = 0
        · rw [if_pos hzero]
        · rw [if_neg hzero] at h
          exact absurd h (by simp [Fails, Types.responseCodeNoContent])
  · rw [if_pos hnodup]

/-- A refused request changes nothing. -/
lemma put_of_not_accepted (h : ¬a.Accepted s r) : (a.put s r).1 = s := by
  rw [Accepted, not_not, put, putDeviceJson] at h
  rw [put, putDeviceJson]
  split
  · rfl
  · next hbody =>
      rw [if_neg hbody] at h
      split
      · rfl
      · next setbo hvalid =>
          rw [hvalid] at h
          dsimp only at h ⊢
          split
          · rfl
          split
          · rfl
          next hempty hcount =>
          rw [if_neg hempty, if_neg hcount] at h
          split
          · rfl
          · next protocolName hprotocol =>
              rw [hprotocol] at h
              dsimp only at h ⊢
              split
              · next hcheck =>
                  rw [if_pos hcheck] at h
                  exact putDevice_of_fails h
              · rfl

/-- What a request does to the protocols. -/
lemma protocols_put_iff :
    protocols (a.put s r).1 = protocols s ↔ (a.Accepted s r → a.KeepsProtocol s r) := by
  have hkey : ∀ ds es : List Doc, (ds.map fun d => d.get StoreTypes.protocol) =
      (es.map fun d => d.get StoreTypes.protocol) ↔
        ds.map (keyOf [StoreTypes.protocol]) = es.map (keyOf [StoreTypes.protocol]) := by
    intro ds es
    have hinj : Function.Injective fun v : Option Bson => [v] := fun v w hvw => by simpa using hvw
    rw [← (List.map_injective_iff.mpr hinj).eq_iff, List.map_map, List.map_map]
    rfl
  by_cases haccepted : a.Accepted s r
  · obtain ⟨setbo, devices, d, as, bs, hw⟩ := haccepted.written
    rw [protocols, protocols, hkey, hw.keyOf_protocol, hw.before, keyOf_protocol_iff hw.nodup rfl,
      ← hw.keepsProtocol_iff]
    exact ⟨fun h _ => h, fun h => h haccepted⟩
  · rw [put_of_not_accepted haccepted]
    exact iff_of_true rfl fun h => absurd h haccepted

/-- When an accepted request overrides the document of its device. -/
lemma overrides_iff (h : a.Accepted s r) :
    a.Overrides s r ↔ a.KeepsProtocol s r ∧ a.NotesNothing s r := by
  obtain ⟨setbo, devices, d, as, bs, hw⟩ := h.written
  constructor
  · rintro ⟨setbo', hvalid, hdocs⟩
    obtain rfl := Except.ok.inj (hw.valid.symm.trans hvalid)
    have hkeeps : a.KeepsProtocol s r := by
      rw [hw.keepsProtocol_iff,
        ← keyOf_protocol_iff hw.nodup (get_setAll_withoutProtocol d setbo), ← hw.keyOf_protocol,
        hdocs, hw.overridden_eq]
    refine ⟨hkeeps, fun setbo' t hvalid' ht => ?_⟩
    obtain rfl := Except.ok.inj (hw.valid.symm.trans hvalid')
    have htable : t = devices := (Table.mk.injEq ..).mpr (ht.trans (hw.docs_eq hkeeps).symm)
    refine redeploy_docs_iff (s := { s with devices := t }).mp ?_
    show (a.redeploy { s with devices := t } r.query r.deviceId r.service
      r.servicePath).devices.docs = t.docs
    rw [htable, ← hw.state, hdocs, hw.docs_eq hkeeps]
  · rintro ⟨hkeeps, hnotes⟩
    refine ⟨setbo, hw.valid, ?_⟩
    rw [hw.state, redeploy_docs_iff.mpr (hnotes setbo devices hw.valid (hw.docs_eq hkeeps)),
      hw.docs_eq hkeeps]

/-! ### Runs -/

/-- **A change is an override** exactly when its body has no other protocol than the device
and the device has what the handlers answer to its registration; the protocols stay throughout
a run of changes exactly when no accepted body has another protocol than the device. -/
theorem put_overrides (a : AdminService) :
    (∀ s r, a.Accepted s r → (a.Overrides s r ↔ a.KeepsProtocol s r ∧ a.NotesNothing s r)) ∧
    ∀ s rs, (∀ n, protocols (Run.run (fun s r => (a.put s r).1) s (rs.take n)) = protocols s) ↔
      Run.Always (fun s r => (a.put s r).1) (fun s r => a.Accepted s r → a.KeepsProtocol s r)
        s rs := by
  refine ⟨fun s r h => overrides_iff h, fun s rs => ?_⟩
  refine Run.forall_run_iff (J := fun s' => protocols s' = protocols s) (E := fun _ _ => True)
    (fun s' r hs' _ => ?_) rfl Run.always_true
  rw [← hs', protocols_put_iff]

/-! ### A change of protocol -/

/-- The body of a change of time zone. -/
def putTimezone : String := "\x7b\"timezone\":\"Europe/Madrid\"\x7d"

/-- The body of a change of protocol. -/
def putProtocolField : String := "\x7b\"protocol\":\"PDI-IoTA-MQTT\"\x7d"

lemma deviceShape_timezone : DeviceShape [(StoreTypes.timezone, .str "Europe/Madrid")] :=
  ⟨rfl, rfl, fun _ h => by cases h⟩

lemma deviceShape_protocol : DeviceShape [(StoreTypes.protocol, .str "PDI-IoTA-MQTT")] :=
  ⟨rfl, rfl, fun _ h => by cases h⟩

/-- A service with the resource of the agent. -/
def resourceService : Doc :=
  [(StoreTypes.apikey, .str "key"), (StoreTypes.resource, .str "/iot/d"),
    (StoreTypes.service, .str "service"), (StoreTypes.servicePath, .str "/")]

/-- A device of its protocol. -/
def resourceDevice : Doc :=
  [(StoreTypes.deviceId, .str "d1"), (StoreTypes.protocol, .str "PDI-IoTA-UltraLight"),
    (StoreTypes.service, .str "service"), (StoreTypes.servicePath, .str "/")]

lemma unique_resourceService : Unique serviceIndexes [resourceService] :=
  fun _ _ => List.pairwise_singleton ..

lemma unique_resourceDevice : Unique deviceIndexes [resourceDevice] :=
  fun _ _ => List.pairwise_singleton ..

/-- The service and the device are stored. -/
def resourceState : AdminState :=
  ⟨⟨[resourceService], unique_resourceService⟩, ⟨[resourceDevice], unique_resourceDevice⟩, []⟩

/-- An agent with the handler of the resource. -/
def resourceAgent : AdminService where
  serviceManager := [("/iot/d", ⟨"PDI-IoTA-UltraLight", true,
    fun _ => (Types.responseCodeNone, ""), [], fun _ _ => none⟩)]
  postDeviceSchema := knowing []
  putDeviceSchema := knowing [(putTimezone, ⟨_, deviceShape_timezone⟩),
    (putProtocolField, ⟨_, deviceShape_protocol⟩)]
  postServiceSchema := knowing []
  deviceColl := fun _ => ⟨"iot", "DEVICE", fun _ => "", fun _ => none⟩
  serviceColl := fun _ => ⟨"iot", "SERVICE", fun _ => "", fun _ => none⟩

/-- A request for the device. -/
def resourceRequest (body : String) : PutRequest :=
  ⟨"service", "/", "d1", body, ""⟩

lemma accepted_putTimezone :
    resourceAgent.Accepted resourceState (resourceRequest putTimezone) := by
  rw [Accepted]
  decide +kernel

lemma accepted_putProtocolField :
    resourceAgent.Accepted resourceState (resourceRequest putProtocolField) := by
  rw [Accepted]
  decide +kernel

theorem put_overrides_timezone :
    resourceAgent.Overrides resourceState (resourceRequest putTimezone) ↔
      resourceAgent.KeepsProtocol resourceState (resourceRequest putTimezone) ∧
        resourceAgent.NotesNothing resourceState (resourceRequest putTimezone) :=
  (put_overrides resourceAgent).1 resourceState (resourceRequest putTimezone)
    accepted_putTimezone

/-- The protocol of a body reaches the store. -/
theorem not_overrides_putProtocolField :
    resourceAgent.Accepted resourceState (resourceRequest putProtocolField) ∧
      ¬resourceAgent.Overrides resourceState (resourceRequest putProtocolField) ∧
      protocols (resourceAgent.put resourceState (resourceRequest putProtocolField)).1 ≠
        protocols resourceState := by
  have hnot : ¬resourceAgent.KeepsProtocol resourceState (resourceRequest putProtocolField) := by
    intro hkeeps
    have hstored := hkeeps [(StoreTypes.protocol, .str "PDI-IoTA-MQTT")] rfl resourceDevice
      (List.mem_singleton_self _) (by decide +kernel) (.str "PDI-IoTA-MQTT") rfl
    exact absurd hstored (by decide +kernel)
  refine ⟨accepted_putProtocolField, fun h => ?_, fun h => ?_⟩
  · exact hnot ((overrides_iff accepted_putProtocolField).mp h).1
  · exact hnot (protocols_put_iff.mp h accepted_putProtocolField)

end AdminService

end IotAgent
