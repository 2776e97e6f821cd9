import IotAgent.Util.Cache
import IotAgent.Util.DeviceCollection

/-!
The look-up of devices.

A device is searched under its entity, in the cache and behind it in the store. If that
fails it is searched a second time, by the name that follows a colon in the identifier or
without the entity type.

* `RestHandle.getDeviceByEntity`: the look-up;
* `RestHandle.TenantSafe`: the contents on which every stage stays in the service and the
  service path of the request, and `getDeviceByEntity_isolated_iff`: these are exactly the
  contents on which the look-up does.
-/

namespace IotAgent

open HashIndex Mongo

/-- The devices of an agent. -/
structure RestHandle (h : Hashing) where
  storageType : String
  protocol : String
  registeredDevices : Cache h
  deviceTable : DeviceTable

namespace RestHandle

variable {h : Hashing} (J : JsonText) (o : Order Device String) (r : RestHandle h)

/-- The get function of the cache, `get_func` over a store. -/
def getFunction : DeviceGetFunction :=
  if r.storageType = StoreTypes.mongodb then
    some fun item => DeviceCollection.findOne J r.deviceTable item
  else none

/-- What follows the first colon. -/
def afterColon (name : String) : Option String :=
  match name.toList.dropWhile (· ≠ ':') with
  | [] => none
  | _ :: nameDevice => some (String.ofList nameDevice)

/-- The key of the first search. -/
def itemQ (name entityType service servicePath : String) : Device :=
  DeviceCollection.keyOf "" service
    (if servicePath = "" then Types.fiwareServicepathDefault else servicePath)
    name entityType r.protocol

/-- The key of the second search by name. For a request with a service path it is the key
of the first search that gets a service path here, and this key none. -/
def itemQD (nameDevice service servicePath : String) : Device :=
  let itemQD := Device.ofName nameDevice service
  if servicePath = "" then { itemQD with servicePath } else itemQD

/-- The searches of `getDeviceByEntity`, one after the other. -/
def searchByEntity (name entityType service servicePath : String) :
    RestHandle h × Option Device :=
  let itemQ := r.itemQ name entityType service servicePath
  match r.registeredDevices.getByEntity o (r.getFunction J) itemQ with
  | (c, some d) => ({ r with registeredDevices := c }, some d)
  | (c, none) =>
      let (c, result) :=
        match afterColon name with
        | some nameDevice => c.get (r.getFunction J) (itemQD nameDevice service servicePath)
        | none => c.getByEntity o (r.getFunction J) { itemQ with entityType := "" }
      ({ r with registeredDevices := c }, result)

/-- The look-up of a device by its entity. -/
def getDeviceByEntity (name entityType service servicePath : String) :
    RestHandle h × Except IotaException Device :=
  let (r, result) := r.searchByEntity J o name entityType service servicePath
  match result with
  | some d =>
      if d.active = 0 then
        (r, .error {
          reason := Types.responseMessageDeviceNoActive
          what := "iota::Device " ++ name ++ " is not active. Service " ++ service ++ " " ++
            servicePath ++ " entity type: " ++ entityType
          status := Types.responseCodeDeviceNoActive })
      else (r, .ok d)
  | none =>
      (r, .error {
        reason := Types.responseMessageNoDevice
        what := "RestHandle::get_device_by_entity no exists device " ++ name ++ service ++
          " " ++ servicePath ++ " entity type: " ++ entityType
        status := Types.responseCodeContextElementNotFound })

/-! ### Isolation of tenants -/

/-- The look-up throws or stays in the service and the service path of the request. -/
def Isolated (service servicePath : String) : Except IotaException Device → Prop
  | .error _ => True
  | .ok d => d.service = service ∧ d.servicePath = servicePath

instance (service servicePath : String) (e : Except IotaException Device) :
    Decidable (Isolated service servicePath e) :=
  match e with
  | .error _ => isTrue trivial
  | .ok d => inferInstanceAs (Decidable (d.service = service ∧ d.servicePath = servicePath))

/-- A device of the tenant, or one that is refused. -/
def Safe (service servicePath : String) (d : Device) : Prop :=
  d.active ≠ 0 → d.service = service ∧ d.servicePath = servicePath

variable {J o r} {name entityType service servicePath : String}

/-- The look-up is isolated when the searches end with a safe device, or with none. -/
lemma isolated_iff_search :
    Isolated service servicePath
        (r.getDeviceByEntity J o name entityType service servicePath).2 ↔
      ∀ d ∈ (r.searchByEntity J o name entityType service servicePath).2,
        Safe service servicePath d := by
  rw [getDeviceByEntity]
  obtain ⟨r', result⟩ := r.searchByEntity J o name entityType service servicePath
  cases result with
  | none => simp [Isolated]
  | some d =>
      by_cases hd : d.active = 0
      · simp [Isolated, Safe, hd]
      · simp [Isolated, Safe, hd]

/-- What the searches end with. -/
lemma searchByEntity_snd :
    (r.searchByEntity J o name entityType service servicePath).2 =
      (r.registeredDevices.getByEntity o (r.getFunction J)
        (r.itemQ name entityType service servicePath)).2.or
      (match afterColon name with
        | some nameDevice => (r.registeredDevices.get (r.getFunction J)
            (itemQD nameDevice service servicePath)).2
        | none => (r.registeredDevices.getByEntity o (r.getFunction J)
            { r.itemQ name entityType service servicePath with entityType := "" }).2) := by
  rw [searchByEntity]
  dsimp only
  split
  · next c d heq => rw [heq]; rfl
  · next c heq =>
      have hc : c = r.registeredDevices := by
        have := Cache.readThrough_eq_of_snd (congrArg Prod.snd heq)
        exact (congrArg Prod.fst heq).symm.trans this
      subst hc
      rw [heq, Option.none_or]
      split <;> rfl

variable (J o r) in
/-- What a search under an entity key must not find: a cached device of another tenant under
the same joined key, or, with no service in the key, a stored one. -/
structure EntitySearchSafe (service servicePath : String) (key : Device) : Prop where
  cached : ∀ d, o.find Device.uniqueEntity key.uniqueEntity r.registeredDevices.list = some d →
    Safe service servicePath d
  stored : service = "" →
    o.find Device.uniqueEntity key.uniqueEntity r.registeredDevices.list = none →
    ∀ d ∈ (r.getFunction J).bind (· key), Safe service servicePath d

variable (J r) in
/-- What a search under a name must not find: an active device of another service path,
cached in the bucket of the key that names no service path, or stored first. -/
structure NameSearchSafe (service servicePath nameDevice : String) : Prop where
  cached : ∀ d ∈ r.registeredDevices.list,
    Device.collide h d (itemQD nameDevice service servicePath) → d.active ≠ 0 →
    d.servicePath = servicePath
  stored : (∀ d ∈ r.registeredDevices.list,
      ¬ Device.collide h d (itemQD nameDevice service servicePath)) →
    ∀ d ∈ (r.getFunction J).bind (· (itemQD nameDevice service servicePath)),
      Safe service servicePath d

variable (J o r name entityType service servicePath) in
/-- Every stage of the look-up stays with the tenant of the request. -/
structure TenantSafe : Prop where
  first : r.EntitySearchSafe J o service servicePath
    (r.itemQ name entityType service servicePath)
  second : (r.registeredDevices.getByEntity o (r.getFunction J)
      (r.itemQ name entityType service servicePath)).2 = none →
    match afterColon name with
    | some nameDevice => r.NameSearchSafe J service servicePath nameDevice
    | none => r.EntitySearchSafe J o service servicePath
        { r.itemQ name entityType service servicePath with entityType := "" }

/-- A stored device that a key with service and service path finds is of that tenant. -/
lemma safe_of_stored {entityName protocol : String} {d : Device} (hs : service ≠ "")
    (hp : servicePath ≠ "")
    (hd : d ∈ (r.getFunction J).bind
      (· (DeviceCollection.keyOf "" service servicePath entityName entityType protocol))) :
    Safe service servicePath d := by
  rw [getFunction] at hd
  split at hd
  · obtain ⟨doc, -, hmatch, rfl⟩ := DeviceCollection.findOne_eq_some J hd
    obtain ⟨-, hservice, hpath, -⟩ := (DeviceCollection.matches_key J).mp hmatch
    exact fun _ => ⟨hservice hs, hpath hp⟩
  · cases hd

/-- A key that names the tenant of the request. -/
def TenantKey (service servicePath : String) (key : Device) : Prop :=
  ∃ entityName entityType protocol,
    key = DeviceCollection.keyOf "" service servicePath entityName entityType protocol

lemma entitySearch_iff {key : Device} (hp : servicePath ≠ "")
    (hkey : TenantKey service servicePath key) :
    (∀ d ∈ (r.registeredDevices.getByEntity o (r.getFunction J) key).2,
        Safe service servicePath d) ↔ r.EntitySearchSafe J o service servicePath key := by
  rw [Cache.getByEntity, Cache.readThrough_snd]
  cases hf : o.find Device.uniqueEntity key.uniqueEntity r.registeredDevices.list with
  | some d =>
      refine ⟨fun hall => ⟨fun e he => hall e ?_, fun _ hn => ?_⟩, fun hsafe e he => ?_⟩
      · rw [← hf, he]
        rfl
      · rw [hf] at hn
        cases hn
      · exact hsafe.cached e (hf.trans he)
  | none =>
      rw [Option.none_or]
      refine ⟨fun hall => ⟨fun e he => ?_, fun _ _ => hall⟩, fun hsafe e he => ?_⟩
      · rw [hf] at he
        cases he
      · by_cases hs : service = ""
        · exact hsafe.stored hs hf e he
        · obtain ⟨entityName, entityType, protocol, rfl⟩ := hkey
          exact safe_of_stored hs hp he

lemma nameSearch_iff {nameDevice : String} :
    (∀ d ∈ (r.registeredDevices.get (r.getFunction J)
        (itemQD nameDevice service servicePath)).2, Safe service servicePath d) ↔
      r.NameSearchSafe J service servicePath nameDevice := by
  rw [Cache.get, Cache.readThrough_snd]
  have hservice : (itemQD nameDevice service servicePath).service = service := by
    rw [itemQD]
    split <;> rfl
  cases hf : BoundedSeq.find (Device.collide h) (itemQD nameDevice service servicePath)
      r.registeredDevices.list with
  | some d =>
      obtain ⟨hd, hcol⟩ := BoundedSeq.mem_of_find hf
      constructor
      · intro hall
        refine ⟨fun e he hecol hact => ?_, fun hno => absurd hcol (hno d hd)⟩
        have heq : e = d := Cache.eq_of_collide he hd hecol hcol
        exact (hall e (heq ▸ rfl) hact).2
      · rintro hsafe e he hact
        have heq : d = e := by simpa using he
        subst heq
        exact ⟨hcol.2.2.trans hservice, hsafe.cached d hd hcol hact⟩
  | none =>
      have hno := BoundedSeq.find_eq_none_iff.mp hf
      rw [Option.none_or]
      exact ⟨fun hall => ⟨fun e he hecol => absurd hecol (hno e he), fun _ => hall⟩,
        fun hsafe => hsafe.stored hno⟩

/-- A property of the device of one search or else of another. -/
lemma forall_mem_or {a b : Option Device} {P : Device → Prop} :
    (∀ d ∈ a.or b, P d) ↔ (∀ d ∈ a, P d) ∧ (a = none → ∀ d ∈ b, P d) := by
  cases a <;> simp

/-- **Isolation of tenants**: for a request with a service path the look-up is isolated
exactly when every stage of it is safe. -/
theorem getDeviceByEntity_isolated_iff (J : JsonText) (o : Order Device String)
    (r : RestHandle h) (name entityType service servicePath : String)
    (hp : servicePath ≠ "") :
    Isolated service servicePath
        (r.getDeviceByEntity J o name entityType service servicePath).2 ↔
      r.TenantSafe J o name entityType service servicePath := by
  have hkey : r.itemQ name entityType service servicePath =
      DeviceCollection.keyOf "" service servicePath name entityType r.protocol := by
    rw [itemQ, if_neg hp]
  have hfirst := entitySearch_iff (J := J) (o := o) (r := r) hp ⟨name, entityType, _, hkey⟩
  rw [isolated_iff_search, searchByEntity_snd, forall_mem_or, hfirst]
  refine ⟨fun ⟨h₁, h₂⟩ => ⟨h₁, fun hn => ?_⟩, fun hsafe => ⟨hsafe.first, fun hn => ?_⟩⟩
  · have h₂ := h₂ hn
    split
    · next nameDevice heq =>
        simp only [heq] at h₂
        exact nameSearch_iff.mp h₂
    · next heq =>
        simp only [heq] at h₂
        exact (entitySearch_iff hp ⟨name, "", _, by rw [hkey]; rfl⟩).mp h₂
  · have h₂ := hsafe.second hn
    split
    · next nameDevice heq =>
        simp only [heq] at h₂
        exact nameSearch_iff.mpr h₂
    · next heq =>
        simp only [heq] at h₂
        exact (entitySearch_iff hp ⟨name, "", _, by rw [hkey]; rfl⟩).mpr h₂

/-- A device as it is provisioned without an entity. -/
def provisioned (servicePath : String) : Doc :=
  [(StoreTypes.deviceId, .str "d1"), (StoreTypes.service, .str "service"),
    (StoreTypes.servicePath, .str servicePath)]

/-- An agent over a store with two devices of one name, with its cache still empty. -/
def restarted (first second : String)
    (hu : Unique deviceIndexes [provisioned first, provisioned second]) :
    RestHandle ⟨fun n s => n + s.length, fun n => n⟩ where
  storageType := StoreTypes.mongodb
  protocol := "PDI-IoTA-UltraLight"
  registeredDevices := Cache.empty Types.maxSizeCache false
  deviceTable := ⟨[provisioned first, provisioned second], hu⟩

/-- The device of the request stands first. -/
theorem tenantSafe_restarted :
    (restarted "/mine" "/other" (by decide)).TenantSafe ⟨fun _ => "", fun _ => none⟩ Order.blocks
      "thing:d1" "thing" "service" "/mine" :=
  (getDeviceByEntity_isolated_iff _ _ _ _ _ _ _ (by decide)).mp (by decide +kernel)

/-- The device of another service path stands first and is returned. -/
theorem not_isolated_restarted :
    ¬ Isolated "service" "/mine"
      ((restarted "/other" "/mine" (by decide)).getDeviceByEntity ⟨fun _ => "", fun _ => none⟩
        Order.blocks "thing:d1" "thing" "service" "/mine").2 := by
  decide +kernel

end RestHandle

end IotAgent
