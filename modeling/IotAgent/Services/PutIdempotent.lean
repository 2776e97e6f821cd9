import IotAgent.Services.CommandNames
import IotAgent.Services.PutRuns

/-!
Repeated changes of devices (`src/services/admin_service.cc`).

The check of the command names of a change runs against the table with the device that is
changed, and does not leave it out. A change that brings an entity and commands which the device
has already finds the device itself, and is refused.

* `accepted_iff`: when a change is accepted;
* `checked_own_iff`: what the check makes of fields that a stored device has;
* `OwnPut`, `unchanged_iff`: a change to the fields that the device has;
* `Repeatable`, `accepted_again_iff`: an accepted change that comes again;
* `put_idempotent_iff`: the two together.
-/

namespace IotAgent

open Mongo

namespace AdminService

variable {a : AdminService} {s : AdminState} {r : PutRequest} {d setbo : Doc}

/-! ### When a change is accepted -/

/-- The handler of the protocol is found for the service, and does not call the fields
malformed. -/
def HandlerAccepts (a : AdminService) (s : AdminState) (r : PutRequest) (protocolName : String)
    (setbo : Doc) : Prop :=
  ∃ plugin, a.getDeviceProtocol s protocolName r.service r.servicePath = some plugin ∧
    (plugin.checkProvisionedData setbo).1 ≠ Types.responseCodeInvalidParameter

lemma matches_query_iff {e : Doc} : Matches r.query e ↔
    e.get StoreTypes.service = some (.str r.service) ∧
      e.get StoreTypes.servicePath = some (.str r.servicePath) ∧
      e.get StoreTypes.deviceId = some (.str r.deviceId) ∧
      (r.protocol ≠ "" → e.get StoreTypes.protocol = some (.str r.protocol)) := by
  rw [PutRequest.query, putQuery, matches_append, matches_opt]
  simp [Matches, and_assoc]

/-- A device is found under its id at most once, since the ids are unique. -/
lemma eq_of_query {t : DeviceTable} {e : Doc} (hd : d ∈ t.docs) (he : e ∈ t.docs)
    (hdq : Matches r.query d) (heq : Matches r.query e) : d = e := by
  have hkey : ∀ e, Matches r.query e →
      keyOf [StoreTypes.deviceId, StoreTypes.service, StoreTypes.servicePath] e =
        [some (.str r.deviceId), some (.str r.service), some (.str r.servicePath)] := by
    intro e he
    obtain ⟨hservice, hpath, hid, -⟩ := matches_query_iff.mp he
    simp [keyOf, hservice, hpath, hid]
  exact Table.eq_of_keyOf (List.mem_singleton_self _) hd he ((hkey d hdq).trans (hkey e heq).symm)

lemma count_query_le_one (t : DeviceTable) (r : PutRequest) : t.count r.query ≤ 1 := by
  have hnodup : (t.find r.query).Nodup := (Table.docs_nodup (List.mem_singleton_self _)).filter _
  have hall : ∀ e ∈ t.find r.query, e ∈ t.docs ∧ Matches r.query e := by
    intro e he
    simpa [Table.find] using he
  rw [Table.count]
  by_contra hlen
  obtain ⟨d, e, l, hl⟩ : ∃ d e l, t.find r.query = d :: e :: l := by
    rcases hfind : t.find r.query with _ | ⟨d, _ | ⟨e, l⟩⟩
    · simp [hfind] at hlen
    · simp [hfind] at hlen
    · exact ⟨d, e, l, rfl⟩
  rw [hl] at hnodup hall
  have hd := hall d (by simp)
  have he := hall e (by simp)
  have heq := eq_of_query hd.1 he.1 hd.2 he.2
  exact (List.nodup_cons.mp hnodup).1 (heq ▸ List.mem_cons_self ..)

/-- The device is the one that the change is for. -/
lemma findOne_of_matches {t : DeviceTable} (hd : d ∈ t.docs) (hmatch : Matches r.query d) :
    t.findOne r.query = some d := by
  cases hfind : t.findOne r.query with
  | none => exact absurd hmatch (Table.findOne_eq_none_iff.mp hfind d hd)
  | some e =>
      obtain ⟨he, heq⟩ := Table.findOne_eq_some hfind
      rw [eq_of_query hd he hmatch heq]

lemma putProtocol_found_iff {protocolName : String} :
    a.putProtocol s r.service r.servicePath r.protocol setbo (some d) = .ok protocolName ↔
      protocolName = d.getStringField StoreTypes.protocol ∧
        a.HandlerAccepts s r protocolName setbo := by
  rw [putProtocol]
  dsimp only
  cases hplugin : a.getDeviceProtocol s (d.getStringField StoreTypes.protocol) r.service
      r.servicePath with
  | none =>
      refine iff_of_false (by simp) ?_
      rintro ⟨rfl, plugin, hfound, -⟩
      rw [hplugin] at hfound
      cases hfound
  | some plugin =>
      dsimp only
      split
      · next hmalformed =>
          refine iff_of_false (by simp) ?_
          rintro ⟨rfl, plugin', hfound, haccepts⟩
          obtain rfl := Option.some.inj (hplugin.symm.trans hfound)
          exact haccepts hmalformed
      · next haccepts =>
          constructor
          · intro h
            obtain rfl := Except.ok.inj h
            exact ⟨rfl, plugin, hplugin, haccepts⟩
          · rintro ⟨rfl, -⟩
            rfl

/-- What a change has to pass. -/
structure Passes (a : AdminService) (s : AdminState) (r : PutRequest) (setbo d : Doc) : Prop where
  body : r.body ≠ ""
  valid : a.putDeviceSchema.validate r.body = .ok setbo
  ne_nil : setbo ≠ []
  nodup : (setbo.map Prod.fst).Nodup
  handler : a.HandlerAccepts s r (d.getStringField StoreTypes.protocol) setbo
  checked : checkDeviceCommandsDuplicate (d.getStringField StoreTypes.protocol) r.service
    r.servicePath setbo s.devices
  written : (s.devices.update r.query setbo).isSome

/-- What a change does that passes. -/
lemma Passes.put (h : a.Passes s r setbo d) (hfound : s.devices.findOne r.query = some d) :
    ∃ devices, s.devices.update r.query setbo = some (devices, 1) ∧
      a.put s r = (a.redeploy { s with devices } r.query r.deviceId r.service r.servicePath,
        .ok ⟨Types.responseCodeNoContent, "", ""⟩) := by
  obtain ⟨⟨devices, n⟩, hupdate⟩ := Option.isSome_iff_exists.mp h.written
  obtain rfl : n = 1 := by rw [(Table.update_docs hupdate).2, hfound]; rfl
  refine ⟨devices, hupdate, ?_⟩
  have hcount : ¬ 1 < s.devices.count r.query := Nat.not_lt.mpr (count_query_le_one _ _)
  have hprotocol := putProtocol_found_iff.mpr ⟨rfl, h.handler⟩
  have hquery : putQuery r.service r.servicePath r.deviceId r.protocol = r.query := rfl
  rw [AdminService.put, putDeviceJson, if_neg h.body, h.valid]
  simp only [hquery, if_neg h.ne_nil, if_neg hcount, hfound, hprotocol, if_pos h.checked]
  rw [putDevice, if_neg (not_not.mpr h.nodup), hquery, hupdate]
  rfl

/-- A change without a text or without fields is not accepted. -/
lemma Accepted.body_ne (h : a.Accepted s r) : r.body ≠ "" := by
  intro hbody
  refine h ?_
  simp [put, putDeviceJson, hbody, Fails, Types.responseCodeBadRequest]

lemma Accepted.ne_nil (h : a.Accepted s r)
    (hvalid : a.putDeviceSchema.validate r.body = .ok setbo) : setbo ≠ [] := by
  intro hnil
  refine h ?_
  rw [put, putDeviceJson, if_neg h.body_ne, hvalid]
  simp [hnil, Fails, Types.responseCodeBadRequest]

/-- **A change is accepted** if it passes for the device that it is for. -/
lemma accepted_iff : a.Accepted s r ↔
    ∃ d setbo, s.devices.findOne r.query = some d ∧ a.Passes s r setbo d := by
  constructor
  · intro h
    obtain ⟨setbo, protocolName, devices, count, hvalid, hnodup, -, hprotocol, hcheck, hupdate, hne,
      -⟩ := putDeviceJson_of_not_fails h
    obtain ⟨d, hfound⟩ : ∃ d, s.devices.findOne r.query = some d := by
      by_contra hnone
      have hnone' : s.devices.findOne r.query = none := by
        simpa [Option.eq_none_iff_forall_ne_some] using hnone
      exact hne ((Table.update_docs hupdate).2.trans (by
        have hquery : putQuery r.service r.servicePath r.deviceId r.protocol = r.query := rfl
        rw [hquery, hnone']
        rfl))
    have hquery : putQuery r.service r.servicePath r.deviceId r.protocol = r.query := rfl
    rw [hquery, hfound, putProtocol_found_iff] at hprotocol
    obtain ⟨rfl, hhandler⟩ := hprotocol
    exact ⟨d, setbo, hfound, h.body_ne, hvalid, h.ne_nil hvalid, hnodup, hhandler, hcheck,
      Option.isSome_of_eq_some hupdate⟩
  · rintro ⟨d, setbo, hfound, hpasses⟩
    obtain ⟨devices, -, hput⟩ := hpasses.put hfound
    simp [Accepted, hput, Fails, Types.responseCodeNoContent]

/-! ### Fields that a device has -/

/-- The fields of the body name no entity or no command. -/
def NamesNothing (setbo : Doc) : Prop :=
  setbo.getStringField StoreTypes.entityName = "" ∨ commandNames setbo = []

instance (setbo : Doc) : Decidable (NamesNothing setbo) :=
  inferInstanceAs (Decidable (_ ∨ _))

/-- The check finds the device itself. -/
lemma checked_own_iff {protocolName service servicePath : String} {t : DeviceTable} {e : Doc}
    (hshape : DeviceShape setbo) (he : e ∈ t.docs)
    (hservice : e.get StoreTypes.service = some (.str service))
    (hpath : e.get StoreTypes.servicePath = some (.str servicePath))
    (hprotocol : e.get StoreTypes.protocol = some (.str protocolName))
    (hentity : ∀ v, setbo.get StoreTypes.entityName = some v →
      e.get StoreTypes.entityName = some v)
    (hcommands : ∀ v, setbo.get StoreTypes.commands = some v →
      e.get StoreTypes.commands = some v) :
    checkDeviceCommandsDuplicate protocolName service servicePath setbo t = true
      ↔ NamesNothing setbo := by
  constructor
  · intro hcheck
    by_contra hboth
    rw [NamesNothing, not_or] at hboth
    obtain ⟨hne, hnames⟩ := hboth
    have hname := (Doc.getStringField_eq_iff hne).mp rfl
    have hsame : e.getStringField StoreTypes.entityName =
        setbo.getStringField StoreTypes.entityName :=
      Doc.getStringField_congr ((hentity _ hname).trans hname.symm)
    obtain ⟨v, hv⟩ : ∃ v, setbo.get StoreTypes.commands = some v := by
      by_contra hnone
      have hget : setbo.get StoreTypes.commands = none := by
        simpa [Option.eq_none_iff_forall_ne_some] using hnone
      exact hnames (by simp [commandNames, Doc.getObjectField, hget])
    have hget : e.get StoreTypes.commands = setbo.get StoreTypes.commands :=
      (hcommands v hv).trans hv.symm
    have harr : CommandsArray e := by
      intro w hw
      exact commandsArray_of_shape hshape w (hget.symm.trans hw)
    obtain ⟨n, hn⟩ := List.exists_mem_of_ne_nil _ hnames
    refine checked_not_common hcheck hne he harr hservice hpath hprotocol hsame hn ?_
    rwa [commandNames_congr hget]
  · rintro (h | h) <;> simp [checkDeviceCommandsDuplicate, h]

/-! ### A change to what the device has -/

/-- The entity and the commands of a device. -/
def ownFields (d : Doc) : Doc :=
  [StoreTypes.entityName, StoreTypes.commands].filterMap fun f => (d.get f).map (f, ·)

/-- A change of a stored device that carries its own entity and commands. -/
structure OwnPut (a : AdminService) (s : AdminState) (r : PutRequest) (d : Doc) : Prop where
  stored : d ∈ s.devices.docs
  addressed : Matches r.query d
  body : r.body ≠ ""
  valid : a.putDeviceSchema.validate r.body = .ok (ownFields d)

lemma mem_ownFields {fv : String × Bson} (h : fv ∈ ownFields d) : d.get fv.1 = some fv.2 := by
  obtain ⟨f, -, hf⟩ := List.mem_filterMap.mp h
  obtain ⟨v, hv, rfl⟩ := Option.map_eq_some_iff.mp hf
  exact hv

lemma nodup_ownFields (d : Doc) : ((ownFields d).map Prod.fst).Nodup := by
  have hne : StoreTypes.entityName ≠ StoreTypes.commands := by decide
  cases hentity : d.get StoreTypes.entityName <;> cases hcommands : d.get StoreTypes.commands <;>
    simp [ownFields, hentity, hcommands, hne]

lemma setAll_ownFields (d : Doc) : d.setAll (ownFields d) = d :=
  (Doc.setAll_eq_self_iff d (nodup_ownFields d)).mpr fun _ hfv => mem_ownFields hfv

lemma get_ownFields {f : String} (hf : f ∈ [StoreTypes.entityName, StoreTypes.commands]) :
    (ownFields d).get f = d.get f := by
  have hne : StoreTypes.commands ≠ StoreTypes.entityName := by decide
  simp only [List.mem_cons, List.not_mem_nil, or_false] at hf
  rcases hf with rfl | rfl <;> cases hentity : d.get StoreTypes.entityName <;>
    cases hcommands : d.get StoreTypes.commands <;>
    simp [ownFields, hentity, hcommands, Doc.get_cons, hne, hne.symm]

/-- The fields name what the device names. -/
lemma namesNothing_ownFields : NamesNothing (ownFields d) ↔ NamesNothing d := by
  rw [NamesNothing, NamesNothing, Doc.getStringField_congr (get_ownFields (by simp)),
    commandNames_congr (get_ownFields (by simp))]

/-- A device that stays as it is leaves the table as it is. -/
lemma update_self {t : DeviceTable} {query vs e : Doc} (hfound : t.findOne query = some e)
    (hself : e.setAll vs = e) : t.update query vs = some (t, 1) := by
  have hdocs : modifyFirst query (·.setAll vs) t.docs = t.docs := by
    rcases modifyFirst_spec query (·.setAll vs) t.docs with ⟨-, h⟩ | ⟨as, d, bs, hl, has, hd, h⟩
    · exact h
    · obtain rfl := Option.some.inj ((Table.findOne_append hl has hd).symm.trans hfound)
      rw [h, hself, hl]
  have hunique : Unique deviceIndexes (modifyFirst query (·.setAll vs) t.docs) := by
    rw [hdocs]
    exact t.unique
  rw [Table.update, dif_pos hunique, hfound]
  simp [hdocs]

/-- The device has what the handlers answer to its registration, if they answer anything. -/
def DeploysNothing (a : AdminService) (s : AdminState) (r : PutRequest) : Prop :=
  ∀ dev, deployedBy s.devices r = some dev → a.NotedAlready s.devices dev

/-- The protocol that a handler was found for. -/
lemma HandlerAccepts.protocol_eq {e : Doc}
    (h : a.HandlerAccepts s r (e.getStringField StoreTypes.protocol) setbo) :
    e.get StoreTypes.protocol = some (.str (e.getStringField StoreTypes.protocol)) := by
  obtain ⟨plugin, hplugin, -⟩ := h
  exact (Doc.getStringField_eq_iff (getDeviceProtocol_ne hplugin)).mp rfl

/-- What is put together to a change to what the device has. -/
lemma OwnPut.passes_iff (h : OwnPut a s r d) : a.Passes s r (ownFields d) d ↔
    ownFields d ≠ [] ∧ a.HandlerAccepts s r (d.getStringField StoreTypes.protocol) (ownFields d) ∧
      NamesNothing d := by
  have hshape := a.putDeviceSchema.shape r.body _ h.valid
  obtain ⟨hservice, hpath⟩ := get_service_of_matches h.addressed
  have hchecked : a.HandlerAccepts s r (d.getStringField StoreTypes.protocol) (ownFields d) →
      (checkDeviceCommandsDuplicate (d.getStringField StoreTypes.protocol) r.service r.servicePath
        (ownFields d) s.devices = true ↔ NamesNothing d) := by
    intro hhandler
    rw [← namesNothing_ownFields]
    refine checked_own_iff hshape h.stored hservice hpath hhandler.protocol_eq ?_ ?_ <;>
    · intro v hv
      rwa [get_ownFields (by simp)] at hv
  constructor
  · intro hpasses
    exact ⟨hpasses.ne_nil, hpasses.handler, (hchecked hpasses.handler).mp hpasses.checked⟩
  · rintro ⟨hne, hhandler, hnothing⟩
    have hupdate := update_self (findOne_of_matches h.stored h.addressed) (setAll_ownFields d)
    exact ⟨h.body, h.valid, hne, nodup_ownFields d, hhandler, (hchecked hhandler).mpr hnothing,
      Option.isSome_of_eq_some hupdate⟩

/-- **A change to what the device has** is accepted and leaves the devices as they are. -/
lemma unchanged_iff (h : OwnPut a s r d) :
    a.Accepted s r ∧ (a.put s r).1.devices = s.devices ↔
      ownFields d ≠ [] ∧ a.HandlerAccepts s r (d.getStringField StoreTypes.protocol) (ownFields d) ∧
        NamesNothing d ∧ a.DeploysNothing s r := by
  have hfound := findOne_of_matches h.stored h.addressed
  have haccepted : a.Accepted s r ↔ a.Passes s r (ownFields d) d := by
    rw [accepted_iff]
    constructor
    · rintro ⟨d', setbo, hfound', hpasses⟩
      obtain rfl := Option.some.inj (hfound.symm.trans hfound')
      obtain rfl := Except.ok.inj (hpasses.valid.symm.trans h.valid)
      exact hpasses
    · exact fun hpasses => ⟨d, _, hfound, hpasses⟩
  have hstate : a.Passes s r (ownFields d) d →
      ((a.put s r).1.devices = s.devices ↔ a.DeploysNothing s r) := by
    intro hpasses
    obtain ⟨devices, hupdate, hput⟩ := hpasses.put hfound
    have hself := update_self hfound (setAll_ownFields d)
    obtain rfl : s.devices = devices :=
      congrArg Prod.fst (Option.some.inj (hself.symm.trans hupdate))
    rw [hput, DeploysNothing, ← redeploy_docs_iff]
    exact ⟨congrArg Table.docs, fun hdocs => (Table.mk.injEq ..).mpr hdocs⟩
  rw [haccepted, and_congr_right hstate, h.passes_iff, and_assoc, and_assoc]

/-! ### A change that comes again -/

/-- The fields of a body that may come again: they leave the device under the query, with a
protocol that a handler is found for, and name nothing. -/
structure Repeatable (a : AdminService) (s : AdminState) (r : PutRequest) (setbo : Doc) : Prop where
  deviceId : ∀ v, setbo.get StoreTypes.deviceId = some v → v = .str r.deviceId
  protocol : r.protocol ≠ "" → ∀ v, setbo.get StoreTypes.protocol = some v → v = .str r.protocol
  handler : ∀ v, setbo.get StoreTypes.protocol = some v →
    a.HandlerAccepts s r (setbo.getStringField StoreTypes.protocol) setbo
  names : NamesNothing setbo

/-- The fields that a change is checked by. -/
def checkedFields : List String :=
  [StoreTypes.deviceId, StoreTypes.service, StoreTypes.servicePath, StoreTypes.protocol,
    StoreTypes.entityName, StoreTypes.commands]

lemma matches_query_congr {e e' : Doc} (h : keyOf checkedFields e = keyOf checkedFields e') :
    Matches r.query e ↔ Matches r.query e' := by
  have hget := keyOf_eq_iff.mp h
  rw [matches_query_iff, matches_query_iff, hget _ (by simp [checkedFields]),
    hget StoreTypes.servicePath (by simp [checkedFields]),
    hget StoreTypes.deviceId (by simp [checkedFields]),
    hget StoreTypes.protocol (by simp [checkedFields])]

/-- A field that is set as the query asks, or stays. -/
lemma get_setAll_eq_iff {f : String} {w : Bson} (hnodup : (setbo.map Prod.fst).Nodup)
    (hd : d.get f = some w) :
    (d.setAll setbo).get f = some w ↔ ∀ v, setbo.get f = some v → v = w := by
  rw [Doc.get_setAll _ _ hnodup]
  cases setbo.get f <;> simp [hd]

/-- Where the changed device is found again. -/
lemma matches_query_setAll_iff (hshape : DeviceShape setbo) (hnodup : (setbo.map Prod.fst).Nodup)
    (hd : Matches r.query d) : Matches r.query (d.setAll setbo) ↔
      (∀ v, setbo.get StoreTypes.deviceId = some v → v = .str r.deviceId) ∧
        (r.protocol ≠ "" → ∀ v, setbo.get StoreTypes.protocol = some v → v = .str r.protocol) := by
  obtain ⟨hservice, hpath, hid, hprotocol⟩ := matches_query_iff.mp hd
  rw [matches_query_iff, get_setAll_eq_iff hnodup hservice, get_setAll_eq_iff hnodup hpath,
    get_setAll_eq_iff hnodup hid, hshape.service, hshape.servicePath]
  simp only [reduceCtorEq, false_imp_iff, implies_true, true_and]
  refine and_congr_right fun _ => forall_congr' fun hne => ?_
  exact get_setAll_eq_iff hnodup (hprotocol hne)

lemma services_deployDevice (a : AdminService) (s : AdminState) (dev : Device) :
    (a.deployDevice s dev).services = s.services := by
  rw [deployDevice]
  induction a.serviceManager generalizing s with
  | nil => rfl
  | cons rp l ih =>
      rw [List.foldl_cons, ih]
      split <;> rfl

lemma services_redeploy (query : Doc) (deviceId service servicePath : String) :
    (a.redeploy s query deviceId service servicePath).services = s.services := by
  rw [redeploy]
  split
  · exact services_deployDevice a s _
  · rfl

lemma handlerAccepts_congr {s' : AdminState} (h : s'.services = s.services)
    {protocolName : String} : a.HandlerAccepts s' r protocolName setbo ↔
      a.HandlerAccepts s r protocolName setbo := by
  rw [HandlerAccepts, HandlerAccepts, getDeviceProtocol, getDeviceProtocol, h]

/-- What an accepted change leaves: the device with its fields set, up to its registration,
among documents that the query does not match. -/
structure Left (a : AdminService) (s : AdminState) (r : PutRequest) (setbo d d' : Doc) : Prop where
  stored : d' ∈ (a.put s r).1.devices.docs
  fields : keyOf checkedFields d' = keyOf checkedFields (d.setAll setbo)
  others : ∀ e ∈ (a.put s r).1.devices.docs, Matches r.query e → e = d'
  services : (a.put s r).1.services = s.services
  rewritten : ((a.put s r).1.devices.update r.query setbo).isSome

/-- Fields that are in the match already keep the index. -/
lemma unique_setAll_again {query : Doc} {docs : List Doc} (hnodup : (setbo.map Prod.fst).Nodup)
    (h : ∀ e ∈ docs, Matches query e → ∀ f v, f ∈ checkedFields → setbo.get f = some v →
      e.get f = some v) (hunique : Unique deviceIndexes docs) :
    Unique deviceIndexes (modifyFirst query (·.setAll setbo) docs) := by
  rcases modifyFirst_spec query (·.setAll setbo) docs with ⟨-, heq⟩ | ⟨as, e, bs, rfl, -, he, heq⟩
  · rwa [heq]
  · refine unique_of_map_eq (fun index hindex => ?_) hunique
    obtain rfl := List.mem_singleton.mp hindex
    have hkey : keyOf [StoreTypes.deviceId, StoreTypes.service, StoreTypes.servicePath]
        (e.setAll setbo)
          = keyOf [StoreTypes.deviceId, StoreTypes.service, StoreTypes.servicePath] e := by
      refine keyOf_eq_iff.mpr fun f hf => ?_
      rw [Doc.get_setAll _ _ hnodup]
      cases hset : Doc.get setbo f with
      | none => rfl
      | some v =>
          refine (h e (by simp) he f v ?_ hset).symm
          simp only [checkedFields, List.mem_cons] at hf ⊢
          tauto
    rw [heq, List.map_append, List.map_append, List.map_cons, List.map_cons, hkey]

lemma exists_left (h : a.Accepted s r) :
    ∃ setbo d d', a.Passes s r setbo d ∧ Matches r.query d ∧ Left a s r setbo d d' := by
  obtain ⟨d, setbo, hfound, hpasses⟩ := accepted_iff.mp h
  obtain ⟨devices, hupdate, hput⟩ := hpasses.put hfound
  obtain ⟨as, e, bs, -, hafter, hfound', hd, hothers⟩ :=
    Table.exists_only_match (count_query_le_one _ _) hupdate Nat.one_ne_zero
  obtain rfl := Option.some.inj (hfound.symm.trans hfound')
  have hkeys : (a.put s r).1.devices.docs.map (keyOf checkedFields) =
      (as ++ d.setAll setbo :: bs).map (keyOf checkedFields) := by
    rw [hput, keyOf_redeploy (by decide) (by decide), ← hafter]
  rw [List.map_append, List.map_cons] at hkeys
  obtain ⟨as', l, hdocs, has, hl⟩ := List.map_eq_append_iff.mp hkeys
  obtain ⟨d', bs', rfl, hd', hbs⟩ := List.map_eq_cons_iff.mp hl
  -- the others are not found, as before
  have hnone : ∀ e ∈ as' ++ bs', ¬ Matches r.query e := by
    intro e he hmatch
    have hmem : keyOf checkedFields e ∈ (as ++ bs).map (keyOf checkedFields) := by
      rw [List.map_append, ← has, ← hbs, ← List.map_append]
      exact List.mem_map_of_mem he
    obtain ⟨e', he', hkey⟩ := List.mem_map.mp hmem
    exact hothers e' he' ((matches_query_congr hkey).mpr hmatch)
  have honly : ∀ e ∈ (a.put s r).1.devices.docs, Matches r.query e → e = d' := by
    intro e he hmatch
    rw [hdocs, List.mem_append, List.mem_cons, or_left_comm, ← List.mem_append] at he
    exact he.resolve_right fun hin => hnone e hin hmatch
  refine ⟨setbo, d, d', hpasses, hd, ?_, hd', honly, ?_, ?_⟩
  · rw [hdocs]
    simp
  · rw [hput, services_redeploy]
  · have hunique : Unique deviceIndexes
        (modifyFirst r.query (·.setAll setbo) (a.put s r).1.devices.docs) := by
      refine unique_setAll_again hpasses.nodup ?_ (a.put s r).1.devices.unique
      intro e he hmatch f v hf hset
      rw [honly e he hmatch, keyOf_eq_iff.mp hd' f hf, Doc.get_setAll _ _ hpasses.nodup, hset]
      rfl
    rw [Table.update, dif_pos hunique]
    rfl

section Again

variable {d' : Doc} (hpasses : a.Passes s r setbo d) (hleft : Left a s r setbo d d')

include hpasses hleft

lemma Left.get_eq {f : String} (hf : f ∈ checkedFields) :
    d'.get f = (setbo.get f).or (d.get f) := by
  rw [keyOf_eq_iff.mp hleft.fields f hf, Doc.get_setAll _ _ hpasses.nodup]

/-- The change is accepted again if it passes for the device that it has left. -/
lemma Left.accepted_iff : a.Accepted (a.put s r).1 r ↔
    Matches r.query d' ∧ a.Passes (a.put s r).1 r setbo d' := by
  rw [AdminService.accepted_iff]
  constructor
  · rintro ⟨e, setbo', hfind, hpasses'⟩
    obtain ⟨he, hmatch⟩ := Table.findOne_eq_some hfind
    obtain rfl := hleft.others e he hmatch
    obtain rfl := Except.ok.inj (hpasses'.valid.symm.trans hpasses.valid)
    exact ⟨hmatch, hpasses'⟩
  · rintro ⟨hmatch, hpasses'⟩
    exact ⟨d', setbo, findOne_of_matches hleft.stored hmatch, hpasses'⟩

/-- The handler is that of the body's protocol, if it has one, and else the one before. -/
lemma Left.handlerAccepts_iff :
    a.HandlerAccepts (a.put s r).1 r (d'.getStringField StoreTypes.protocol) setbo ↔
      ∀ v, setbo.get StoreTypes.protocol = some v →
        a.HandlerAccepts s r (setbo.getStringField StoreTypes.protocol) setbo := by
  rw [handlerAccepts_congr hleft.services]
  have hprotocol := hleft.get_eq hpasses (by simp [checkedFields] : StoreTypes.protocol ∈ _)
  cases hset : setbo.get StoreTypes.protocol with
  | none =>
      rw [hset, Option.none_or] at hprotocol
      rw [Doc.getStringField_congr hprotocol]
      simp [hpasses.handler]
  | some v =>
      rw [hset, Option.some_or, ← hset] at hprotocol
      rw [Doc.getStringField_congr hprotocol]
      simp

/-- What is left to pass for the device that is found again. -/
lemma Left.passes_iff (hmatch : Matches r.query d') : a.Passes (a.put s r).1 r setbo d' ↔
    a.HandlerAccepts (a.put s r).1 r (d'.getStringField StoreTypes.protocol) setbo ∧
      NamesNothing setbo := by
  have hshape := a.putDeviceSchema.shape r.body _ hpasses.valid
  obtain ⟨hservice, hpath, -, -⟩ := matches_query_iff.mp hmatch
  have hchecked :
      a.HandlerAccepts (a.put s r).1 r (d'.getStringField StoreTypes.protocol) setbo →
      (checkDeviceCommandsDuplicate (d'.getStringField StoreTypes.protocol) r.service
        r.servicePath setbo (a.put s r).1.devices = true ↔ NamesNothing setbo) := by
    intro hhandler
    refine checked_own_iff hshape hleft.stored hservice hpath hhandler.protocol_eq ?_ ?_ <;>
    · intro v hv
      rw [hleft.get_eq hpasses (by simp [checkedFields]), hv, Option.some_or]
  constructor
  · intro hpasses'
    exact ⟨hpasses'.handler, (hchecked hpasses'.handler).mp hpasses'.checked⟩
  · rintro ⟨hhandler, hnames⟩
    exact ⟨hpasses.body, hpasses.valid, hpasses.ne_nil, hpasses.nodup, hhandler,
      (hchecked hhandler).mpr hnames, hleft.rewritten⟩

end Again

/-- **An accepted change that comes again** is accepted if its body may come again. -/
lemma accepted_again_iff (h : a.Accepted s r) : a.Accepted (a.put s r).1 r ↔
    ∀ setbo, a.putDeviceSchema.validate r.body = .ok setbo → a.Repeatable s r setbo := by
  obtain ⟨setbo, d, d', hpasses, hd, hleft⟩ := exists_left h
  have hshape := a.putDeviceSchema.shape r.body _ hpasses.valid
  have hbody : (∀ setbo', a.putDeviceSchema.validate r.body = .ok setbo' →
      a.Repeatable s r setbo') ↔ a.Repeatable s r setbo := by
    refine ⟨fun hall => hall setbo hpasses.valid, fun hone setbo' hvalid => ?_⟩
    rwa [← Except.ok.inj (hpasses.valid.symm.trans hvalid)]
  rw [hleft.accepted_iff hpasses, hbody, and_congr_right (hleft.passes_iff hpasses),
    matches_query_congr hleft.fields, matches_query_setAll_iff hshape hpasses.nodup hd,
    hleft.handlerAccepts_iff hpasses]
  constructor
  · rintro ⟨⟨hid, hprotocol⟩, hhandler, hnames⟩
    exact ⟨hid, hprotocol, hhandler, hnames⟩
  · rintro ⟨hid, hprotocol, hhandler, hnames⟩
    exact ⟨⟨hid, hprotocol⟩, hhandler, hnames⟩

/-- A body with an entity and a command. -/
def putSwitch : String :=
  "\x7b\"entity_name\":\"lamp\",\"commands\":[\x7b\"name\":\"switch\"\x7d]\x7d"

def switchFields : Doc :=
  [(StoreTypes.entityName, .str "lamp"),
    (StoreTypes.commands, .arr [.obj [(StoreTypes.name, .str "switch")]])]

lemma deviceShape_switch : DeviceShape switchFields := by
  refine ⟨rfl, rfl, fun v hv => ?_⟩
  obtain rfl : .arr [.obj [(StoreTypes.name, .str "switch")]] = v := Option.some.inj hv
  refine ⟨_, rfl, fun e he => ?_⟩
  exact ⟨_, "switch", List.mem_singleton.mp he, rfl, by decide⟩

/-- The only device has the entity and the command. -/
def switchState : AdminState :=
  { resourceState with
    devices := ⟨[resourceDevice ++ switchFields], fun _ _ => List.pairwise_singleton ..⟩ }

/-- An agent that knows the body, and a change of time zone. -/
def switchAgent : AdminService :=
  { resourceAgent with
    putDeviceSchema := knowing [(putSwitch, ⟨_, deviceShape_switch⟩),
      (putTimezone, ⟨_, deviceShape_timezone⟩)] }

lemma ownPut_switch : OwnPut switchAgent switchState (resourceRequest putSwitch)
    (resourceDevice ++ switchFields) where
  stored := List.mem_singleton_self _
  addressed := by decide
  body := by decide
  valid := by rfl

end AdminService

end IotAgent
