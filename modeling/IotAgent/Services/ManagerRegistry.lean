import IotAgent.Lib.Runs
import IotAgent.Services.RegistrationSync
import IotAgent.Util.ProtocolCollection

/-!
The registry of the manager (`post_protocol_json`).

An agent registers with its URL, its identifier and its services for a protocol. The manager
looks for the agent by the identifier, then by the URL, changes what it finds or adds the agent,
and stores the services under the URL.

* `ManagerRegistry.registerEndpoint`, `ManagerRegistry.postProtocolJson`: the request;
* `register`: what it does to the agents of a protocol, as a list;
  `endpointsOf_registerEndpoint`;
* `Registered`: agents have different identifiers and URLs, and services are stored under URLs
  of agents; `run_registered_iff`: that stays so exactly as long as no agent moves to the URL of
  another one, or away from a URL with services;
* `Synced`: the services of an agent are those that it has registered last; `synced_iff`: that is
  so exactly if the texts under which the stored services are looked up are apart.
-/

namespace IotAgent

open Mongo ServiceMgmtCollection

/-! ### The request -/

/-- A registration whose services, if the field is there, are documents with known fields. -/
def RegistrationShape (obj : Doc) : Prop :=
  ∀ v, obj.get StoreTypes.services = some v → ∃ elts, v = .arr elts ∧
    ∀ e ∈ elts, ∃ fs, e = .obj fs ∧ KnownFields fs

/-- The collections of the manager. -/
structure ManagerState where
  protocols : ProtocolCollection
  services : ServiceMgmtCollection

/-- A manager without an agent. -/
def ManagerState.empty : ManagerState :=
  ⟨.empty, .empty⟩

/-- The manager, by its schema for registrations. -/
structure ManagerRegistry where
  postProtocolSchema : BodySchema RegistrationShape

namespace ManagerRegistry

/-- What a body says of the agent. -/
def registrationOf (obj : Doc) : Registration where
  endpoint := obj.getStringField "iotagent"
  protocol := obj.getStringField StoreTypes.protocol
  description := obj.getStringField "description"

/-- The agent of a body. Without an identifier the URL serves as one. -/
def endpointOf (obj : Doc) : ProtocolEndpoint where
  endpoint := obj.getStringField "iotagent"
  resource := obj.getStringField StoreTypes.resource
  identifier :=
    if obj.getStringField "identifier" = "" then obj.getStringField "iotagent"
    else obj.getStringField "identifier"

/-- The services of a body; there are none if the field is missing. -/
def servicesOf (obj : Doc) : List Doc :=
  AdminService.elements StoreTypes.services obj

/-- The agent is found by its identifier, and gets the URL and the resource; or by its URL, and
gets the identifier and the resource; or it is added. -/
def registerEndpoint (t : ProtocolCollection) (name description : String)
    (new : ProtocolEndpoint) : ProtocolCollection :=
  match t.updateElement name (fun e => e.identifier = new.identifier)
      (fun e => { e with endpoint := new.endpoint, resource := new.resource }) with
  | some t => t
  | none =>
      match t.updateElement name (fun e => e.endpoint = new.endpoint)
          (fun e => { e with identifier := new.identifier, resource := new.resource }) with
      | some t => t
      | none => t.addEndpoint name description new

variable (m : ManagerRegistry) (s : ManagerState)

/-- `post_protocol_json`. -/
def postProtocolJson (body : String) : ManagerState × Except IotaException Answer :=
  if body = "" then
    (s, .ok ⟨Types.responseCodeBadRequest, Types.responseMessageBadRequest, "empty body"⟩)
  else
    match m.postProtocolSchema.validate body with
    | .error errorDetails =>
        (s, .ok ⟨Types.responseCodeBadRequest, Types.responseMessageBadRequest, errorDetails⟩)
    | .ok obj =>
        let r := registrationOf obj
        let protocols := registerEndpoint s.protocols r.protocol r.description (endpointOf obj)
        match r.sync s.services (servicesOf obj) with
        | (services, .ok ()) => (⟨protocols, services⟩, .ok ⟨Types.responseCodeCreated, "", ""⟩)
        | (services, .error e) => (⟨protocols, services⟩, .error e)

/-- The state after a request. -/
def step (body : String) : ManagerState :=
  (m.postProtocolJson s body).1

/-- The request succeeds. -/
def Succeeds (body : String) : Prop :=
  (m.postProtocolJson s body).2 = .ok ⟨Types.responseCodeCreated, "", ""⟩

instance (body : String) : Decidable (m.Succeeds s body) :=
  inferInstanceAs (Decidable (_ = _))

variable {m s} {body : String}

lemma knownFields_servicesOf {obj : Doc} (h : RegistrationShape obj) :
    ∀ i ∈ servicesOf obj, KnownFields i := by
  intro i hi
  rw [servicesOf, AdminService.elements] at hi
  cases hget : obj.get StoreTypes.services with
  | none =>
      rw [hget] at hi
      cases hi
  | some v =>
      obtain ⟨elts, rfl, helts⟩ := h v hget
      rw [hget] at hi
      obtain ⟨e, he, hei⟩ := List.mem_filterMap.mp hi
      obtain ⟨fs, rfl, hfs⟩ := helts e he
      obtain rfl : fs = i := Option.some.inj hei
      exact hfs

/-- A request that succeeds has a valid body, and its two parts succeed. -/
lemma Succeeds.cases (h : m.Succeeds s body) :
    ∃ obj, m.postProtocolSchema.validate body = .ok obj ∧
      ((registrationOf obj).sync s.services (servicesOf obj)).2 = .ok () ∧
      m.step s body =
        ⟨registerEndpoint s.protocols (registrationOf obj).protocol
          (registrationOf obj).description (endpointOf obj),
        ((registrationOf obj).sync s.services (servicesOf obj)).1⟩ := by
  rw [Succeeds, postProtocolJson] at h
  rw [step, postProtocolJson]
  by_cases hbody : body = ""
  · rw [if_pos hbody] at h
    cases h
  · rw [if_neg hbody] at h ⊢
    cases hobj : m.postProtocolSchema.validate body with
    | error e =>
        rw [hobj] at h
        cases h
    | ok obj =>
        rw [hobj] at h
        refine ⟨obj, rfl, ?_⟩
        dsimp only at h ⊢
        generalize (registrationOf obj).sync s.services (servicesOf obj) = res at h ⊢
        obtain ⟨services, _ | _⟩ := res
        · cases h
        · exact ⟨rfl, rfl⟩

lemma ne_empty_of_succeeds (h : m.Succeeds s body) : body ≠ "" := by
  rintro rfl
  rw [Succeeds, postProtocolJson, if_pos rfl] at h
  cases h

/-- With a valid body the services are those after the second part, also if it fails. -/
lemma step_services {obj : Doc} (hbody : body ≠ "")
    (hobj : m.postProtocolSchema.validate body = .ok obj) : (m.step s body).services =
      ((registrationOf obj).sync s.services (servicesOf obj)).1 := by
  rw [step, postProtocolJson, if_neg hbody, hobj]
  dsimp only
  generalize (registrationOf obj).sync s.services (servicesOf obj) = res
  obtain ⟨services, _ | _⟩ := res <;> rfl

/-! ### The agents of a protocol -/

/-- The agents of a protocol after a registration. -/
def register (new : ProtocolEndpoint) (es : List ProtocolEndpoint) : List ProtocolEndpoint :=
  if ∃ e ∈ es, e.identifier = new.identifier then
    setFirst (fun e => e.identifier = new.identifier)
      (fun e => { e with endpoint := new.endpoint, resource := new.resource }) es
  else if ∃ e ∈ es, e.endpoint = new.endpoint then
    setFirst (fun e => e.endpoint = new.endpoint)
      (fun e => { e with identifier := new.identifier, resource := new.resource }) es
  else addToSet new es

/-- The three updates do this to the agents of the protocol, and nothing to those of others. -/
lemma endpointsOf_registerEndpoint {t : ProtocolCollection} {name name' description : String}
    {new : ProtocolEndpoint} : (registerEndpoint t name description new).endpointsOf name' =
      if name' = name then register new (t.endpointsOf name) else t.endpointsOf name' := by
  rw [registerEndpoint, register]
  cases hid : t.updateElement name (fun e => e.identifier = new.identifier)
      (fun e => { e with endpoint := new.endpoint, resource := new.resource }) with
  | some t' =>
      rw [if_pos (ProtocolCollection.exists_of_updateElement hid)]
      exact ProtocolCollection.endpointsOf_updateElement hid
  | none =>
      have hno : ¬ ∃ e ∈ t.endpointsOf name, e.identifier = new.identifier := by
        rintro ⟨e, he, hq⟩
        exact ProtocolCollection.updateElement_eq_none_iff.mp hid e he hq
      rw [if_neg hno]
      dsimp only
      cases hurl : t.updateElement name (fun e => e.endpoint = new.endpoint)
          (fun e => { e with identifier := new.identifier, resource := new.resource }) with
      | some t' =>
          rw [if_pos (ProtocolCollection.exists_of_updateElement hurl)]
          exact ProtocolCollection.endpointsOf_updateElement hurl
      | none =>
          have hno : ¬ ∃ e ∈ t.endpointsOf name, e.endpoint = new.endpoint := by
            rintro ⟨e, he, hq⟩
            exact ProtocolCollection.updateElement_eq_none_iff.mp hurl e he hq
          rw [if_neg hno]
          exact ProtocolCollection.endpointsOf_addEndpoint

section Register

variable {new : ProtocolEndpoint} {es : List ProtocolEndpoint}

/-- The identifiers stay distinct. -/
lemma nodup_identifiers_register (hid : (es.map ProtocolEndpoint.identifier).Nodup) :
    ((register new es).map ProtocolEndpoint.identifier).Nodup := by
  rw [register]
  split
  · exact nodup_map_setFirst hid fun _ => rfl
  · next hnew =>
      have hnotMem : new.identifier ∉ es.map ProtocolEndpoint.identifier := fun hmem =>
        hnew (List.mem_map.mp hmem)
      split
      · next hurl =>
          obtain ⟨as, e, bs, rfl, -, -, heq⟩ := setFirst_eq
            (f := fun e => { e with identifier := new.identifier, resource := new.resource }) hurl
          rw [heq]
          simp only [List.map_append, List.map_cons] at hid hnotMem ⊢
          rw [List.nodup_middle, List.nodup_cons] at hid ⊢
          refine ⟨fun hmem => hnotMem ?_, hid.2⟩
          rw [List.mem_append] at hmem ⊢
          exact hmem.imp_right (List.mem_cons_of_mem _)
      · rw [addToSet]
        split
        · exact hid
        · rw [List.map_append]
          exact List.nodup_append.mpr ⟨hid, List.nodup_singleton _, fun a ha b hb e =>
            hnotMem (List.mem_singleton.mp hb ▸ e ▸ ha)⟩

/-- The URLs of agents. -/
abbrev urls (es : List ProtocolEndpoint) : List String :=
  es.map ProtocolEndpoint.endpoint

/-- An agent that is found by its identifier gets the URL in its place. -/
lemma exists_urls_register (hid : (es.map ProtocolEndpoint.identifier).Nodup)
    (hold : ∃ e ∈ es, e.identifier = new.identifier) : ∃ as e bs, es = as ++ e :: bs ∧
      e.identifier = new.identifier ∧ (∀ x ∈ as ++ bs, x.identifier ≠ new.identifier) ∧
      urls (register new es) = urls as ++ new.endpoint :: urls bs := by
  rw [register, if_pos hold]
  obtain ⟨as, e, bs, rfl, he, -, heq⟩ := setFirst_eq
    (f := fun e => { e with endpoint := new.endpoint, resource := new.resource }) hold
  refine ⟨as, e, bs, rfl, he, fun x hx hxid => ?_, ?_⟩
  · rw [List.map_append, List.map_cons, List.nodup_middle, List.nodup_cons, ← List.map_append]
      at hid
    exact hid.1 (List.mem_map.mpr ⟨x, hx, hxid.trans he.symm⟩)
  · rw [heq, urls, List.map_append, List.map_cons]

/-- Otherwise the URL comes in, unless it is there. -/
lemma urls_register_of_new (hnew : ¬ ∃ e ∈ es, e.identifier = new.identifier) :
    urls (register new es) = addToSet new.endpoint (urls es) := by
  rw [register, if_neg hnew]
  split
  · next hurl =>
      rw [addToSet, if_pos (List.mem_map.mpr hurl)]
      exact map_setFirst fun _ => rfl
  · next hurl =>
      have hmem : new ∉ es := fun h => hnew ⟨new, h, rfl⟩
      have hurlMem : new.endpoint ∉ urls es := fun h => hurl (List.mem_map.mp h)
      rw [addToSet, if_neg hmem, addToSet, if_neg hurlMem, urls, List.map_append,
        List.map_singleton]

/-- The URLs stay distinct exactly if no agent takes the URL of another one. -/
lemma nodup_urls_register_iff (hid : (es.map ProtocolEndpoint.identifier).Nodup)
    (hurl : (urls es).Nodup) : (urls (register new es)).Nodup ↔
      ∀ e ∈ es, e.identifier = new.identifier →
        ∀ e' ∈ es, e'.endpoint = new.endpoint → e'.identifier = new.identifier := by
  by_cases hold : ∃ e ∈ es, e.identifier = new.identifier
  · obtain ⟨as, e, bs, rfl, he, hothers, heq⟩ := exists_urls_register hid hold
    rw [urls, List.map_append, List.map_cons, List.nodup_middle, List.nodup_cons] at hurl
    rw [heq, List.nodup_middle, List.nodup_cons, and_iff_left hurl.2, ← List.map_append,
      List.mem_map]
    constructor
    · intro hfree _ _ _ e' he' hsame
      rcases List.mem_append.mp he' with hmem | hmem
      · exact absurd ⟨e', List.mem_append_left _ hmem, hsame⟩ hfree
      · rcases List.mem_cons.mp hmem with rfl | hmem
        · exact he
        · exact absurd ⟨e', List.mem_append_right _ hmem, hsame⟩ hfree
    · rintro hfree ⟨e', hmem, hsame⟩
      have he' : e' ∈ as ++ e :: bs := List.perm_middle.mem_iff.mpr (List.mem_cons_of_mem e hmem)
      exact hothers e' hmem (hfree e (by simp) he e' he' hsame)
  · rw [urls_register_of_new hold]
    refine iff_of_true (nodup_addToSet hurl) fun e hmem he => ?_
    exact absurd ⟨e, hmem, he⟩ hold

/-- The URLs are the new one and those that were there, without the one that the agent had. -/
lemma mem_urls_register {u : String} (hid : (es.map ProtocolEndpoint.identifier).Nodup)
    (hurl : (urls es).Nodup) : u ∈ urls (register new es) ↔
      u = new.endpoint ∨
        u ∈ urls es ∧ ∀ e ∈ es, e.identifier = new.identifier → e.endpoint ≠ u := by
  by_cases hold : ∃ e ∈ es, e.identifier = new.identifier
  · obtain ⟨as, e, bs, rfl, he, hothers, heq⟩ := exists_urls_register hid hold
    have hmiddle : urls (as ++ e :: bs) = urls as ++ e.endpoint :: urls bs := by
      rw [urls, List.map_append, List.map_cons]
    rw [hmiddle, List.nodup_middle, List.nodup_cons] at hurl
    rw [heq, hmiddle, List.perm_middle.mem_iff, List.perm_middle.mem_iff, List.mem_cons,
      List.mem_cons]
    refine or_congr_right ⟨fun hu => ⟨.inr hu, fun x hx hxid hxu => ?_⟩, fun ⟨hu, hmoved⟩ => ?_⟩
    · rcases List.mem_cons.mp (List.perm_middle.mem_iff.mp hx) with rfl | hx
      · exact hurl.1 (hxu ▸ hu)
      · exact hothers x hx hxid
    · exact hu.resolve_left fun h => hmoved e (by simp) he h.symm
  · rw [urls_register_of_new hold, mem_addToSet]
    refine or_congr_right (and_iff_left fun e hmem he => ?_).symm
    exact absurd ⟨e, hmem, he⟩ hold

end Register

/-! ### Some registrations -/

/-- The text of a service, and of a registration with identifier, URL and services. -/
def serviceText (service servicePath : String) : String :=
  "\x7b\"service\":\"" ++ service ++ "\",\"service_path\":\"" ++ servicePath ++
    "\",\"apikey\":\"\",\"resource\":\"/iot/d\"\x7d"

def registerText (identifier url : String) (services : List (String × String)) : String :=
  "\x7b\"protocol\":\"PDI-IoTA-UltraLight\",\"iotagent\":\"" ++ url ++
    "\",\"resource\":\"/iot/d\",\"identifier\":\"" ++ identifier ++ "\",\"services\":[" ++
    ",".intercalate (services.map fun sp => serviceText sp.1 sp.2) ++ "]\x7d"

/-- The documents of these texts. -/
def serviceObj (service servicePath : String) : Doc :=
  [(StoreTypes.service, .str service), (StoreTypes.servicePath, .str servicePath),
    (StoreTypes.apikey, .str ""), (StoreTypes.resource, .str "/iot/d")]

def registerObj (identifier url : String) (services : List (String × String)) : Doc :=
  [(StoreTypes.protocol, .str "PDI-IoTA-UltraLight"), ("iotagent", .str url),
    (StoreTypes.resource, .str "/iot/d"), ("identifier", .str identifier),
    (StoreTypes.services, .arr (services.map fun sp => .obj (serviceObj sp.1 sp.2)))]

lemma knownFields_serviceObj (service servicePath : String) :
    KnownFields (serviceObj service servicePath) := by
  intro f hf
  have hnames : ∀ f ∈ [StoreTypes.service, StoreTypes.servicePath, StoreTypes.apikey,
      StoreTypes.resource], f ∈ serviceFields := by decide
  exact hnames f hf

lemma shape_registerObj (identifier url : String) (services : List (String × String)) :
    RegistrationShape (registerObj identifier url services) := by
  intro v hv
  obtain rfl : .arr (services.map fun sp => .obj (serviceObj sp.1 sp.2)) = v := Option.some.inj hv
  refine ⟨_, rfl, fun e he => ?_⟩
  obtain ⟨sp, -, rfl⟩ := List.mem_map.mp he
  exact ⟨_, rfl, knownFields_serviceObj sp.1 sp.2⟩

def agentText (x : String × String × List (String × String)) : String :=
  registerText x.1 x.2.1 x.2.2

def agentObj (x : String × String × List (String × String)) : Doc :=
  registerObj x.1 x.2.1 x.2.2

/-- A manager that knows some registrations. -/
def knowingRegistrations (l : List (String × String × List (String × String))) :
    ManagerRegistry where
  postProtocolSchema := AdminService.knowing (l.map fun x =>
    (agentText x, ⟨agentObj x, shape_registerObj _ _ _⟩))

/-- Two agents, the first with a service; -/
def firstAgent : String × String × List (String × String) :=
  ("iota1", "http://10.0.0.1:8080/iot", [("house", "/")])

def secondAgent : String × String × List (String × String) :=
  ("iota2", "http://10.0.0.2:8080/iot", [])

/-- the first at another URL, and at the URL of the second. -/
def movedAgent : String × String × List (String × String) :=
  ("iota1", "http://10.0.0.3:8080/iot", [])

def takenAgent : String × String × List (String × String) :=
  ("iota1", "http://10.0.0.2:8080/iot", [])

def twoAgents : ManagerRegistry :=
  knowingRegistrations [firstAgent, secondAgent, movedAgent, takenAgent]

/-! ### The registry -/

/-- The agents of a protocol have different identifiers and different URLs, and services are
stored under URLs of agents of their protocol. -/
structure Registered (s : ManagerState) : Prop where
  identifiers : ∀ d ∈ s.protocols.docs, (d.endpoints.map ProtocolEndpoint.identifier).Nodup
  urls : ∀ d ∈ s.protocols.docs, (d.endpoints.map ProtocolEndpoint.endpoint).Nodup
  services : ∀ v ∈ s.services.docs, ∃ d ∈ s.protocols.docs, d.protocol = v.key.protocol ∧
    ∃ e ∈ d.endpoints, e.endpoint = v.key.iotagent

/-- An agent that is found by its identifier does not take the URL of another agent, and leaves
no services under the URL that it had. -/
structure MovesFreely (s : ManagerState) (name : String) (new : ProtocolEndpoint) : Prop where
  urlFree : ∀ e ∈ s.protocols.endpointsOf name, e.identifier = new.identifier →
    ∀ e' ∈ s.protocols.endpointsOf name, e'.endpoint = new.endpoint →
      e'.identifier = new.identifier
  noServices : ∀ e ∈ s.protocols.endpointsOf name, e.identifier = new.identifier →
    e.endpoint ≠ new.endpoint →
      ∀ v ∈ s.services.docs, v.key.protocol = name → v.key.iotagent ≠ e.endpoint

/-- The agent of a request moves freely. -/
def KeepsRegistered (m : ManagerRegistry) (s : ManagerState) (body : String) : Prop :=
  ∀ obj, m.postProtocolSchema.validate body = .ok obj →
    MovesFreely s (registrationOf obj).protocol (endpointOf obj)

lemma registered_empty : Registered .empty where
  identifiers := fun _ hd => absurd hd List.not_mem_nil
  urls := fun _ hd => absurd hd List.not_mem_nil
  services := fun _ hv => absurd hv List.not_mem_nil

/-- The same, by protocols and keys. -/
lemma registered_iff : Registered s ↔
    (∀ name, ((s.protocols.endpointsOf name).map ProtocolEndpoint.identifier).Nodup) ∧
    (∀ name, (ManagerRegistry.urls (s.protocols.endpointsOf name)).Nodup) ∧
    ∀ k ∈ s.services.keys,
      k.iotagent ∈ ManagerRegistry.urls (s.protocols.endpointsOf k.protocol) := by
  have hservice : ∀ k : ServiceKey,
      (∃ d ∈ s.protocols.docs, d.protocol = k.protocol ∧ ∃ e ∈ d.endpoints,
        e.endpoint = k.iotagent) ↔
      k.iotagent ∈ ManagerRegistry.urls (s.protocols.endpointsOf k.protocol) := by
    intro k
    rw [List.mem_map]
    constructor
    · rintro ⟨d, hd, hname, e, he, hurl⟩
      exact ⟨e, hname ▸ (ProtocolCollection.endpointsOf_of_mem hd).symm ▸ he, hurl⟩
    · rintro ⟨e, he, hurl⟩
      obtain ⟨d, hd, hname, hed⟩ := ProtocolCollection.exists_mem_of_endpointsOf he
      exact ⟨d, hd, hname, e, hed, hurl⟩
  have hids := ProtocolCollection.forall_endpointsOf_iff (t := s.protocols)
    (P := fun es => (es.map ProtocolEndpoint.identifier).Nodup) List.nodup_nil
  have hurls := ProtocolCollection.forall_endpointsOf_iff (t := s.protocols)
    (P := fun es => (ManagerRegistry.urls es).Nodup) List.nodup_nil
  rw [hids, hurls, List.forall_mem_map]
  constructor
  · rintro ⟨h1, h2, h3⟩
    exact ⟨h1, h2, fun v hv => (hservice v.key).mp (h3 v hv)⟩
  · rintro ⟨h1, h2, h3⟩
    exact ⟨h1, h2, fun v hv => (hservice v.key).mpr (h3 v hv)⟩

section Step

variable {obj : Doc}

/-- The URLs of every protocol stay distinct exactly if the URL of the request is free. -/
lemma nodup_urls_registerEndpoint_iff (hs : Registered s) :
    (∀ name, (ManagerRegistry.urls ((registerEndpoint s.protocols (registrationOf obj).protocol
      (registrationOf obj).description (endpointOf obj)).endpointsOf name)).Nodup) ↔
    ∀ e ∈ s.protocols.endpointsOf (registrationOf obj).protocol,
      e.identifier = (endpointOf obj).identifier →
        ∀ e' ∈ s.protocols.endpointsOf (registrationOf obj).protocol,
          e'.endpoint = (endpointOf obj).endpoint →
            e'.identifier = (endpointOf obj).identifier := by
  obtain ⟨hids, hurls, -⟩ := registered_iff.mp hs
  rw [← nodup_urls_register_iff (hids _) (hurls _)]
  constructor
  · intro h
    have hname := h (registrationOf obj).protocol
    rwa [endpointsOf_registerEndpoint, if_pos rfl] at hname
  · intro h name
    rw [endpointsOf_registerEndpoint]
    split
    · exact h
    · exact hurls name

/-- The services are stored under URLs of agents exactly if the agent leaves none behind. -/
lemma services_registerEndpoint_iff (hs : Registered s)
    (hknown : ∀ i ∈ servicesOf obj, KnownFields i)
    (hsync : ((registrationOf obj).sync s.services (servicesOf obj)).2 = .ok ()) :
    (∀ k ∈ ((registrationOf obj).sync s.services (servicesOf obj)).1.keys,
      k.iotagent ∈ ManagerRegistry.urls ((registerEndpoint s.protocols
        (registrationOf obj).protocol (registrationOf obj).description
        (endpointOf obj)).endpointsOf k.protocol)) ↔
    ∀ e ∈ s.protocols.endpointsOf (registrationOf obj).protocol,
      e.identifier = (endpointOf obj).identifier → e.endpoint ≠ (endpointOf obj).endpoint →
        ∀ v ∈ s.services.docs, v.key.protocol = (registrationOf obj).protocol →
          v.key.iotagent ≠ e.endpoint := by
  obtain ⟨hids, hurls, hservices⟩ := registered_iff.mp hs
  constructor
  · intro hall e he heid hmoved v hv hname hurl
    have hnotOwn : ¬ (registrationOf obj).Own v.key := fun hown =>
      hmoved (hurl.symm.trans hown.1)
    have hstays : v.key ∈ ((registrationOf obj).sync s.services (servicesOf obj)).1.keys :=
      (Registration.mem_keys_sync_of_not_own hknown hsync hnotOwn).mpr (List.mem_map_of_mem hv)
    have hmem := hall v.key hstays
    rw [endpointsOf_registerEndpoint, if_pos hname, mem_urls_register (hids _) (hurls _)] at hmem
    rcases hmem with hnew | ⟨-, hothers⟩
    · exact hmoved (hurl.symm.trans hnew)
    · exact hothers e he heid hurl.symm
  · intro hnone k hk
    rw [endpointsOf_registerEndpoint]
    by_cases hown : (registrationOf obj).Own k
    · rw [if_pos hown.2, mem_urls_register (hids _) (hurls _)]
      exact .inl hown.1
    · have hold := (Registration.mem_keys_sync_of_not_own hknown hsync hown).mp hk
      have hurl := hservices k hold
      split
      · next hname =>
          rw [mem_urls_register (hids _) (hurls _)]
          refine .inr ⟨hname ▸ hurl, fun e he heid hsame => ?_⟩
          obtain ⟨v, hv, rfl⟩ := List.mem_map.mp hold
          have hmoved : e.endpoint ≠ (endpointOf obj).endpoint := fun hnew =>
            hown ⟨hsame.symm.trans hnew, hname⟩
          exact hnone e he heid hmoved v hv hname hsame.symm
      · exact hurl

lemma keepsRegistered_iff (hobj : m.postProtocolSchema.validate body = .ok obj) :
    m.KeepsRegistered s body ↔
      MovesFreely s (registrationOf obj).protocol (endpointOf obj) := by
  refine ⟨fun h => h obj hobj, fun h obj' hobj' => ?_⟩
  obtain rfl : obj = obj' := Except.ok.inj (hobj.symm.trans hobj')
  exact h

end Step

/-- A successful request keeps the registry exactly if its agent moves freely. -/
lemma registered_step_iff (hs : Registered s) (hok : m.Succeeds s body) :
    Registered (m.step s body) ↔ m.KeepsRegistered s body := by
  obtain ⟨obj, hobj, hsync, hstep⟩ := hok.cases
  have hknown := knownFields_servicesOf (m.postProtocolSchema.shape _ _ hobj)
  rw [keepsRegistered_iff hobj, hstep, registered_iff, nodup_urls_registerEndpoint_iff hs,
    services_registerEndpoint_iff hs hknown hsync]
  constructor
  · rintro ⟨-, hfree, hnone⟩
    exact ⟨hfree, hnone⟩
  · rintro ⟨hfree, hnone⟩
    refine ⟨fun name => ?_, hfree, hnone⟩
    have hids := (registered_iff.mp hs).1
    rw [endpointsOf_registerEndpoint]
    split
    · exact nodup_identifiers_register (hids _)
    · exact hids name

/-- After successful requests the registry is as it should be exactly as long as every agent
moves freely. -/
theorem run_registered_iff {bodies : List String} (hs : Registered s)
    (hok : Run.Always m.step m.Succeeds s bodies) :
    (∀ n, Registered (Run.run m.step s (bodies.take n))) ↔
      Run.Always m.step m.KeepsRegistered s bodies :=
  Run.forall_run_iff (fun _ _ => registered_step_iff) hs hok

theorem run_registered_iff_twoAgents :
    (∀ n, Registered (Run.run twoAgents.step .empty
      (([firstAgent, secondAgent, movedAgent].map agentText).take n))) ↔
    Run.Always twoAgents.step twoAgents.KeepsRegistered .empty
      ([firstAgent, secondAgent, movedAgent].map agentText) :=
  run_registered_iff registered_empty (by decide +kernel)

/-- An agent that moves away from its URL leaves its services there, and one that takes the URL
of another is registered beside it. -/
theorem not_registered_moved :
    (Run.Always twoAgents.step twoAgents.Succeeds .empty ([firstAgent, movedAgent].map agentText) ∧
      ¬ Registered (Run.run twoAgents.step .empty ([firstAgent, movedAgent].map agentText))) ∧
    (Run.Always twoAgents.step twoAgents.Succeeds .empty
        ([firstAgent, secondAgent, takenAgent].map agentText) ∧
      ¬ Registered
        (Run.run twoAgents.step .empty ([firstAgent, secondAgent, takenAgent].map agentText))) := by
  refine ⟨⟨by decide +kernel, fun h => ?_⟩, by decide +kernel, fun h => ?_⟩
  · exact absurd h.services (by decide +kernel)
  · exact absurd h.urls (by decide +kernel)

/-! ### The services of an agent -/

/-- The services of the agent are those of the request, the documents of others are as before,
and the same request again changes no service. -/
structure Synced (m : ManagerRegistry) (s : ManagerState) (body : String) (obj : Doc) : Prop where
  pairs : ∀ service servicePath,
    (⟨service, servicePath, (registrationOf obj).endpoint, (registrationOf obj).protocol⟩ :
        ServiceKey) ∈ (m.step s body).services.keys ↔
      ∃ i ∈ servicesOf obj, i.getStringField StoreTypes.service = service ∧
        i.getStringField StoreTypes.servicePath = servicePath
  others : ((m.step s body).services.docs.filter fun d => ¬ (registrationOf obj).Own d.key) =
    s.services.docs.filter fun d => ¬ (registrationOf obj).Own d.key
  again : (m.step (m.step s body) body).services = (m.step s body).services

/-- The pairs of a service and a service path, as keys of the agent. -/
lemma forall_pairs_iff {r : Registration} {t : ServiceMgmtCollection} {items : List Doc} :
    (∀ service servicePath, (⟨service, servicePath, r.endpoint, r.protocol⟩ : ServiceKey) ∈ t.keys ↔
      ∃ i ∈ items, i.getStringField StoreTypes.service = service ∧
        i.getStringField StoreTypes.servicePath = servicePath) ↔
    ∀ k, r.Own k → (k ∈ t.keys ↔ k ∈ items.map r.keyOf) := by
  have hlist : ∀ service servicePath,
      (∃ i ∈ items, i.getStringField StoreTypes.service = service ∧
        i.getStringField StoreTypes.servicePath = servicePath) ↔
      (⟨service, servicePath, r.endpoint, r.protocol⟩ : ServiceKey) ∈ items.map r.keyOf := by
    intro service servicePath
    rw [List.mem_map]
    refine exists_congr fun i => and_congr_right fun _ => ?_
    rw [Registration.keyOf, ServiceKey.mk.injEq]
    simp
  constructor
  · rintro hpairs ⟨service, servicePath, iotagent, protocol⟩ ⟨rfl, rfl⟩
    exact (hpairs service servicePath).trans (hlist service servicePath)
  · intro hkeys service servicePath
    exact (hkeys _ ⟨rfl, rfl⟩).trans (hlist service servicePath).symm

lemma synced_of_textsApart {obj : Doc} (hobj : m.postProtocolSchema.validate body = .ok obj)
    (hok : m.Succeeds s body)
    (hapart : (registrationOf obj).TextsApart s.services (servicesOf obj)) :
    m.Synced s body obj := by
  obtain ⟨obj', hobj', hsync, -⟩ := hok.cases
  obtain rfl : obj = obj' := Except.ok.inj (hobj.symm.trans hobj')
  have hknown := knownFields_servicesOf (m.postProtocolSchema.shape _ _ hobj)
  have hservices := fun s => step_services (s := s) (ne_empty_of_succeeds hok) hobj
  constructor
  · rw [forall_pairs_iff, hservices]
    exact (Registration.keys_sync_iff hknown hsync).mpr hapart
  · rw [hservices]
    exact Registration.others_sync hknown hsync
  · rw [hservices, hservices, Registration.sync_sync hknown hsync hapart]

/-- So it is with no bar in the names of services. -/
theorem synced_of_noBar {obj : Doc} (hobj : m.postProtocolSchema.validate body = .ok obj)
    (hok : m.Succeeds s body)
    (hitems : ∀ i ∈ servicesOf obj, Registration.NoBar ((registrationOf obj).keyOf i))
    (hbar : ∀ d ∈ (registrationOf obj).ownDocs s.services, Registration.NoBar d.key) :
    m.Synced s body obj :=
  synced_of_textsApart hobj hok (Registration.textsApart_of_noBar hitems hbar)

/-- A successful request is a sync exactly if the texts in the map are apart. -/
theorem synced_iff {obj : Doc} (hobj : m.postProtocolSchema.validate body = .ok obj)
    (hok : m.Succeeds s body) : m.Synced s body obj ↔
      (registrationOf obj).TextsApart s.services (servicesOf obj) := by
  refine ⟨fun hsynced => ?_, synced_of_textsApart hobj hok⟩
  obtain ⟨obj', hobj', hsync, -⟩ := hok.cases
  obtain rfl : obj = obj' := Except.ok.inj (hobj.symm.trans hobj')
  have hknown := knownFields_servicesOf (m.postProtocolSchema.shape _ _ hobj)
  refine (Registration.keys_sync_iff hknown hsync).mp ?_
  rw [← step_services (ne_empty_of_succeeds hok) hobj]
  exact forall_pairs_iff.mp hsynced.pairs

theorem synced_iff_firstAgent :
    twoAgents.Synced .empty (agentText firstAgent) (agentObj firstAgent) ↔
      (registrationOf (agentObj firstAgent)).TextsApart .empty (servicesOf (agentObj firstAgent)) :=
  synced_iff (by decide +kernel) (by decide +kernel)

/-- An agent registers with a service whose name has a bar, and then with another service whose
text is the same; -/
def barAgent : String × String × List (String × String) :=
  ("iota1", "http://10.0.0.1:8080/iot", [("a|/b", "/c")])

def noBarAgent : String × String × List (String × String) :=
  ("iota1", "http://10.0.0.1:8080/iot", [("a", "/b|/c")])

def barManager : ManagerRegistry :=
  knowingRegistrations [barAgent, noBarAgent]

/-- the first service stays. -/
theorem not_synced_bar :
    barManager.Succeeds .empty (agentText barAgent) ∧
    barManager.postProtocolSchema.validate (agentText noBarAgent) = .ok (agentObj noBarAgent) ∧
    barManager.Succeeds (barManager.step .empty (agentText barAgent)) (agentText noBarAgent) ∧
    (∀ i ∈ servicesOf (agentObj noBarAgent),
      Registration.NoBar ((registrationOf (agentObj noBarAgent)).keyOf i)) ∧
    ¬ barManager.Synced (barManager.step .empty (agentText barAgent)) (agentText noBarAgent)
      (agentObj noBarAgent) := by
  refine ⟨by decide +kernel, by decide +kernel, by decide +kernel, by decide +kernel, fun h => ?_⟩
  have hstays : ∃ i ∈ servicesOf (agentObj noBarAgent),
      i.getStringField StoreTypes.service = "a|/b" ∧
        i.getStringField StoreTypes.servicePath = "/c" :=
    (h.pairs "a|/b" "/c").mp (by decide +kernel)
  exact absurd hstays (by decide +kernel)

end ManagerRegistry

end IotAgent
