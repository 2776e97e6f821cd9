import IotAgent.Rest.Configurator
import IotAgent.Rest.RestHandle
import IotAgent.Util.UrlComposition

/-!
The look-ups of services in the configuration (`src/rest/riot_conf.cc`), and the devices that an
agent with a device file finds through them (`RestHandle::get_device`, `src/rest/rest_handle.cc`).

A resource keeps its services in a map, under the name of the service and its path with a colon
between them. A look-up with a path composes the key; one without a path goes through the map and
takes what begins with the name and a colon.

* `Configurator.getService`, `getServicebyApiKey`, `getAllServicePath`: the look-ups;
* `Configurator.addResource`: the replacement of one resource, which is an update by the text of
  all that is there;
* `Configurator.Sound`, `sound_run`: in every state that operations reach, the services have passed
  their check and stand under their own keys;
* `Configurator.addResource_takes_iff`: what a replacement leaves in these states, and when the
  text takes effect;
* `Configurator.getServicebyApiKey_eq_ok_iff`: the service of an API key;
* `Configurator.lookups_run`: what the look-ups by names answer in these states, where the names of
  the services have no colon;
* `RestHandle.getDevice_run`: the device that is found without a service path.
-/

namespace IotAgent

namespace Configurator

/-! ### The look-ups -/

/-- The exceptions of the look-ups. -/
def noService (what : String) : IotaException :=
  ⟨Types.responseMessageNoService, what, Types.responseCodeNoService⟩

def moreThanOne (service : String) : IotaException :=
  ⟨"There are conflicts in provisioned service",
    "Service : more than one" ++ " " ++ service ++ " ", 409⟩

namespace Resource

/-- `Resource::get_service_by_apikey`. -/
def getServiceByApikey (resource : Resource) (apikey : String) : Except IotaException Json :=
  match resource.services.entries.find? fun e => textOf "apikey" e.2 = some apikey with
  | some e => .ok e.2
  | none => .error (noService ("Service by ApiKey: not found" ++ "[" ++ apikey ++ "]"))

/-- The loop of `Resource::get_all_servicepath`; `none` is an assertion of the JSON library. -/
def servicePaths (strCompa : String) : List (String × Json) → Option (List String)
  | [] => some []
  | (key, mySrv) :: iter =>
      if Text.startsWith key strCompa then
        match textOf "service_path" mySrv with
        | none => none
        | some servicePath => (servicePaths strCompa iter).map (servicePath :: ·)
      else servicePaths strCompa iter

/-- `Resource::get_all_servicepath`. -/
def getAllServicepath (resource : Resource) (service : String) : Option (List String) :=
  servicePaths (service ++ ":") resource.services.entries

/-- The loop of `Resource::get_service` without a path. -/
def foundOf (service : String) :
    List (String × Json) → Option Json → Except IotaException (Option Json)
  | [], found => .ok found
  | (key, d) :: iter, found =>
      if Text.startsWith key (service ++ ":") then
        match found with
        | some _ => .error (moreThanOne service)
        | none => foundOf service iter (some d)
      else foundOf service iter found

/-- `Resource::get_service` without a path. -/
def getOnlyService (resource : Resource) (service : String) : Except IotaException Json :=
  match foundOf service resource.services.entries none with
  | .error e => .error e
  | .ok (some d) => .ok d
  | .ok none => .error (noService (" " ++ service ++ " " ++ "/#" ++ " "))

/-- `Resource::get_service`. -/
def getService (resource : Resource) (service servicePath : String) : Except IotaException Json :=
  if servicePath = "" then resource.getOnlyService service
  else
    match resource.services.get (service ++ ":" ++ servicePath) with
    | some d => .ok d
    | none => .error (noService ("Service not found" ++ "[service:" ++ service ++
        " service_path:" ++ servicePath ++ "]"))

end Resource

/-- `getServicebyApiKey`. -/
def getServicebyApiKey (c : Configurator) (resource apiKey : String) : Except IotaException Json :=
  match c.resources.get resource with
  | some r => r.getServiceByApikey apiKey
  | none => .error (noService ("Service by ApiKey: not found" ++ "[" ++ resource ++ "," ++ apiKey ++
      "]"))

/-- `getService`. -/
def getService (c : Configurator) (resource service servicePath : String) :
    Except IotaException Json :=
  match c.resources.get resource with
  | some r => r.getService service servicePath
  | none => .error (noService ("Service by Service: not found" ++ "[" ++ resource ++ "," ++
      service ++ "]"))

/-- `getAllServicePath`; `none` is an assertion of the JSON library. -/
def getAllServicePath (c : Configurator) (resource service : String) :
    Option (Except IotaException (List String)) :=
  match c.resources.get resource with
  | some r => (r.getAllServicepath service).map .ok
  | none => some (.error ⟨"service_path",
      "Service get all Service Path: not found" ++ "[" ++ resource ++ "," ++ service ++ "]",
      Types.responseCodeReceiverInternalError⟩)

/-! ### The operations -/

section Operations

variable (lib : ConfLib)

/-- The members of a value that is written and read again; `none` is an assertion of the JSON
library. -/
def rewritten (v : Json) : Option (List (String × Json)) :=
  match lib.parse (lib.prettyWrite v) with
  | .ok (.object members) => some members
  | _ => none

/-- `Resource::get_value`. -/
def Resource.getValue (resource : Resource) : Option Json :=
  match rewritten lib (.object resource.rootFields),
    resource.services.entries.mapM fun e => (rewritten lib e.2).map Json.object with
  | some fields, some services => some (.object (fields ++ [("services", .array services)]))
  | _, _ => none

/-- `Resource::get_string`. -/
def Resource.getString (resource : Resource) : Option String :=
  (resource.getValue lib).map lib.prettyWrite

/-- The document that `getAll` builds. -/
def buildDocument (c : Configurator) : Option Json :=
  let fields := match c.rootFields with
    | some rootFields => rewritten lib (.object rootFields)
    | none => some []
  let resources := c.resources.entries.mapM fun e =>
    match (e.2.getString lib).map lib.parse with
    | some (.ok (.object members)) => some (Json.object members)
    | _ => none
  match fields, resources with
  | some fields, some resources => some (.object (fields ++ [("resources", .array resources)]))
  | _, _ => none

/-- `getAll`: the state after it, which keeps the document that is built, and the text. -/
def getAll (c : Configurator) : Option (Configurator × String) :=
  match c.document with
  | .null => (buildDocument lib c).map fun doc => ({ c with document := doc }, lib.prettyWrite doc)
  | doc => some (c, lib.prettyWrite doc)

/-- `remove_resource`. -/
def removeResource (c : Configurator) (resourceName : String) : Configurator :=
  { c with resources := c.resources.erase resourceName }

/-- What `add_resource` makes of a text: its error, or the resource under the name that the text
says. -/
def readResource (resourceName json : String) : Option (Except String (String × Resource)) :=
  match lib.parse json with
  | .error e => some (.error e.1)
  | .ok (.object members) =>
      let members := if (members.lookup "resource").isNone then
        members ++ [("resource", .string resourceName)] else members
      match checkResource lib (.object members) with
      | none => none
      | some (resource, error) =>
          if error = "" then
            match resource.rootFields.lookup "resource" with
            | some (.string name) => some (.ok (name, resource))
            | _ => none
          else some (.error error)
  | .ok _ => none

/-- `add_resource` of a text: the state after it and its error. The resource that is taken out has
the given name, and the one that comes in has its own. -/
def addResource (c : Configurator) (resourceName json : String) :
    Option (Configurator × String) :=
  match readResource lib resourceName json with
  | none => none
  | some (.error error) => some (c, error)
  | some (.ok kv) =>
      let c := c.removeResource resourceName
      match getAll lib { c with resources := c.resources.insert kv, document := .null } with
      | none => none
      | some (c, text) => (updateConf lib c text).map fun r => (r.1, "")

/-- What can happen to a configurator. -/
inductive Operation where
  | updateConf (text : String)
  | addResource (resourceName json : String)
  | getAll

/-- One operation; `none` is an assertion of the JSON library. -/
def apply (c : Configurator) : Operation → Option Configurator
  | .updateConf text => (Configurator.updateConf lib c text).map Prod.fst
  | .addResource resourceName json =>
      (Configurator.addResource lib c resourceName json).map Prod.fst
  | .getAll => (Configurator.getAll lib c).map Prod.fst

/-- A run. -/
def run (c : Configurator) : List Operation → Option Configurator
  | [] => some c
  | op :: ops => (apply lib c op).bind fun c => run c ops

end Operations

/-! ### Two services of one name -/

/-- A service of the name `smart`. -/
def smartIn (path : String) : Json :=
  .object [("apikey", .string "k"), ("service", .string "smart"), ("entity_type", .string "thing"),
    ("service_path", .string path), ("cbroker", .string ""), ("token", .string "")]

/-- A resource with such services. -/
def smartResource (name : String) (paths : List String) : Json :=
  .object [("resource", .string name), ("services", .array (paths.map smartIn))]

/-- The values that are read and written here. -/
def smartValues : List Json :=
  let withServices := [smartResource "/iot/d" ["/a", "/b"], smartResource "/iot/d" ["/a"],
    smartResource "/iot/e" []]
  [.object [], .object [("resource", .string "/iot/d")], .object [("resource", .string "/iot/e")],
    smartIn "/a", smartIn "/b"] ++ withServices ++
  [[smartResource "/iot/d" ["/a", "/b"]],
    [smartResource "/iot/d" ["/a", "/b"], smartResource "/iot/e" []],
    [smartResource "/iot/d" ["/a"], smartResource "/iot/e" []]].map fun resources =>
      .object [("resources", .array resources)]

/-- The library on these values. -/
def smartTexts : ConfLib :=
  libOf smartValues

/-- The text of a configuration with some resources. -/
def smartFile (resources : List Json) : String :=
  prettyText 0 (.object [("resources", .array resources)])

/-- The configuration of two services, read and updated by its own text. -/
def smartConf : Option Configurator :=
  (init smartTexts (smartFile [smartResource "/iot/d" ["/a", "/b"]])).bind fun c =>
    run smartTexts c [.updateConf (smartFile [smartResource "/iot/d" ["/a", "/b"]])]

/-! ### What is there has passed its check -/

/-- A service that has passed its check, under its own key. -/
structure Filed (key : String) (service : Json) : Prop where
  checked : checkService service serviceFields = some ""
  keyed : ∃ name path, textOf "service" service = some name ∧
    textOf "service_path" service = some path ∧ key = name ++ ":" ++ path

/-- A resource whose services are all filed. -/
def Resource.Sound (resource : Resource) : Prop :=
  ∀ key service, resource.services.get key = some service → Filed key service

/-- A resource that stands under a name: its fields say the name, and its services stand apart
from them. -/
structure Resource.SoundAs (name : String) (resource : Resource) : Prop where
  sound : resource.Sound
  named : resource.rootFields.lookup "resource" = some (.string name)
  apart : resource.rootFields.lookup "services" = none

/-- Every resource is sound under its name, and the resources stand apart from the fields of the
configuration. -/
structure Sound (c : Configurator) : Prop where
  resource : ∀ name resource, c.resources.get name = some resource → resource.SoundAs name
  apart : ∀ fields, c.rootFields = some fields → fields.lookup "resources" = none

variable {lib : ConfLib} {c d : Configurator} {resource r : Resource} {service doc item : Json}
  {name path text error resourceName : String}

lemma Resource.Sound.addService (hr : r.Sound)
    (hcheck : checkService service serviceFields = some "")
    (h : Configurator.addService r service = some resource) :
    resource.Sound ∧ resource.rootFields = r.rootFields := by
  unfold Configurator.addService at h
  split at h
  · next name path hname hpath =>
      cases h
      refine ⟨fun key service' hget => ?_, rfl⟩
      rw [OrderedMap.get_insert] at hget
      rcases Option.or_eq_some_iff.mp hget with hold | ⟨-, hnew⟩
      · exact hr key service' hold
      · split at hnew
        · next hkey =>
            cases hnew
            exact ⟨hcheck, name, path, hname, hpath, hkey⟩
        · cases hnew
  · cases h

/-- The loop over the services adds those that pass. -/
lemma Resource.Sound.checkServices {services : List Json} (hr : r.Sound)
    (h : Configurator.checkServices lib services (r, error) = some (resource, text)) :
    resource.Sound ∧ resource.rootFields = r.rootFields := by
  induction services generalizing r error with
  | nil => cases h; exact ⟨hr, rfl⟩
  | cons service services ih =>
      rw [Configurator.checkServices] at h
      split at h
      · exact ih hr h
      · split at h
        · cases h
        · next hcheck =>
            split at h
            · next hempty =>
                subst hempty
                split at h
                · cases h
                · next r' hadd =>
                    obtain ⟨hr', hfields⟩ := hr.addService hcheck hadd
                    obtain ⟨hsound, heq⟩ := ih hr' h
                    exact ⟨hsound, heq.trans hfields⟩
            · exact ih hr h

lemma sound_empty (fields : List (String × Json)) : Resource.Sound ⟨fields, OrderedMap.empty⟩ :=
  fun _ _ h => by cases h

/-- A checked resource is sound, and has the first-level fields of its document. -/
lemma sound_of_checkResource {members : List (String × Json)}
    (h : checkResource lib (.object members) = some (resource, error)) : resource.Sound ∧
      (error = "" → resource.rootFields = members.filter fun m => m.1 ≠ "services") := by
  rw [checkResource] at h
  split at h
  · cases h
    exact ⟨sound_empty _, fun he => absurd he (append_ne_empty confFileError_ne)⟩
  · split at h
    · obtain ⟨hsound, heq⟩ := (sound_empty _).checkServices h
      exact ⟨hsound, fun _ => heq⟩
    · cases h
      exact ⟨sound_empty _, fun _ => rfl⟩

lemma lookup_filter_ne {members : List (String × Json)} (hne : name ≠ text) :
    (members.filter fun m => m.1 ≠ text).lookup name = members.lookup name := by
  induction members with
  | nil => rfl
  | cons m members ih =>
      by_cases hm : m.1 = text
      · rw [List.filter_cons_of_neg (by simpa using hm), ih,
          OrderedMap.lookup_cons_of_ne (hm ▸ hne)]
      · rw [List.filter_cons_of_pos (by simpa using hm), List.lookup_cons, List.lookup_cons, ih]

lemma lookup_filter_self {members : List (String × Json)} :
    (members.filter fun m => m.1 ≠ text).lookup text = none := by
  refine List.lookup_eq_none_iff.mpr fun m hm => ?_
  have hne : m.1 ≠ text := by simpa using (List.mem_filter.mp hm).2
  simpa using hne.symm

lemma sound_of_checkItem (h : checkItem lib item = some (.ok (name, resource))) :
    resource.SoundAs name := by
  unfold checkItem at h
  split at h
  · split at h
    · cases h
    · next doc _ =>
        split at h
        · cases h
        · next hcheck =>
            split at h
            · next hempty =>
                obtain ⟨s, hs, hpair⟩ := Option.map_eq_some_iff.mp h
                cases hpair
                subst hempty
                unfold textOf Json.member at hs
                cases doc with
                | object members =>
                    obtain ⟨hsound, hfields⟩ := sound_of_checkResource hcheck
                    refine ⟨hsound, ?_, ?_⟩
                    · rw [hfields rfl, lookup_filter_ne (by decide)]
                      dsimp only at hs
                      split at hs
                      · next hlookup => rw [hlookup, ← Option.some.inj hs]
                      · cases hs
                    · rw [hfields rfl, lookup_filter_self]
                | _ => cases hcheck
            · cases h
  · cases h

/-- A reading keeps it. -/
lemma Sound.reads (hc : Sound c) (h : Reads lib text c d) : Sound d where
  resource name resource hget := by
    rw [h.resources, OrderedMap.get_insertAll] at hget
    rcases Option.or_eq_some_iff.mp hget with hold | ⟨-, hnew⟩
    · exact hc.resource name resource hold
    · have hmem := OrderedMap.mem_of_lookup hnew
      unfold resourcesIn at hmem
      split at hmem
      · obtain ⟨item, -, hadded⟩ := List.mem_filterMap.mp hmem
        unfold added at hadded
        split at hadded
        · next hitem =>
            cases hadded
            exact sound_of_checkItem hitem
        · cases hadded
      · cases hmem
  apart fields hfields := by
    rw [h.rootFields] at hfields
    rcases Option.or_eq_some_iff.mp hfields with hnew | ⟨-, hold⟩
    · unfold rootFieldsIn at hnew
      split at hnew
      · rw [← Option.some.inj hnew, lookup_filter_self]
      · cases hnew
    · exact hc.apart fields hold

lemma Sound.updateConf (hc : Sound c) (h : Configurator.updateConf lib c text = some (d, error)) :
    Sound d := by
  unfold Configurator.updateConf at h
  split at h
  · cases h
  · next c' hread =>
      have hc' : Sound c' := hc.reads (reads_of_readFile hread)
      split at h
      · cases h
        exact ⟨hc'.resource, hc'.apart⟩
      · obtain ⟨c'', hreload, hpair⟩ := Option.map_eq_some_iff.mp h
        cases hpair
        exact hc'.reads (reads_of_readFile hreload)

lemma Sound.getAll (hc : Sound c) (h : Configurator.getAll lib c = some (d, text)) : Sound d := by
  unfold Configurator.getAll at h
  split at h
  · obtain ⟨doc, -, hpair⟩ := Option.map_eq_some_iff.mp h
    cases hpair
    exact ⟨hc.resource, hc.apart⟩
  · cases h
    exact hc

lemma sound_of_readResource {json : String}
    (h : readResource lib text json = some (.ok (name, resource))) : resource.SoundAs name := by
  unfold readResource at h
  split at h
  · cases h
  · dsimp only at h
    split at h
    · cases h
    · next hcheck =>
        split at h
        · next hempty =>
            split at h
            · next hname =>
                cases h
                obtain ⟨hsound, hfields⟩ := sound_of_checkResource hcheck
                exact ⟨hsound, hname, by rw [hfields hempty, lookup_filter_self]⟩
            · cases h
        · cases h
  · cases h

/-- The state between the removal of a resource and the update: another resource in its place. -/
def replaced (c : Configurator) (resourceName : String) (kv : String × Resource) : Configurator :=
  { c.removeResource resourceName with
    resources := (c.removeResource resourceName).resources.insert kv
    document := .null }

/-- What stays, and what comes in if nothing is there. -/
lemma get_replaced (k : String) : (c.replaced resourceName (name, resource)).resources.get k =
    (if k = resourceName then none else c.resources.get k).or
      (if k = name then some resource else none) := by
  rw [replaced, OrderedMap.get_insert, removeResource, OrderedMap.get_erase]

lemma Sound.replaced (hc : Sound c) (hr : resource.SoundAs name) :
    Sound (c.replaced resourceName (name, resource)) where
  resource k r hget := by
    rw [get_replaced] at hget
    rcases Option.or_eq_some_iff.mp hget with hold | ⟨-, hnew⟩
    · split at hold
      · cases hold
      · exact hc.resource k r hold
    · split at hnew
      · next hk =>
          cases hnew
          exact hk ▸ hr
      · cases hnew
  apart := hc.apart

/-- A text that is accepted is written together with what is there, and read again. -/
lemma addResource_of_readResource {json : String} {kv : String × Resource}
    (hread : readResource lib resourceName json = some (.ok kv)) :
    addResource lib c resourceName json = (getAll lib (c.replaced resourceName kv)).bind fun r =>
      (updateConf lib r.1 r.2).map fun r => (r.1, "") := by
  rw [addResource, hread, replaced]
  dsimp only
  cases getAll lib { c.removeResource resourceName with
    resources := (c.removeResource resourceName).resources.insert kv
    document := .null } with
  | none => rfl
  | some r => rfl

lemma Sound.addResource {json : String} (hc : Sound c)
    (h : Configurator.addResource lib c resourceName json = some (d, error)) : Sound d := by
  cases hread : readResource lib resourceName json with
  | none =>
      rw [Configurator.addResource, hread] at h
      cases h
  | some result =>
      cases result with
      | error e =>
          rw [Configurator.addResource, hread] at h
          cases h
          exact hc
      | ok kv =>
          rw [addResource_of_readResource hread] at h
          obtain ⟨⟨c', text⟩, hall, hmap⟩ := Option.bind_eq_some_iff.mp h
          obtain ⟨⟨d', error'⟩, hupdate, hpair⟩ := Option.map_eq_some_iff.mp hmap
          cases hpair
          exact ((hc.replaced (sound_of_readResource hread)).getAll hall).updateConf hupdate

/-- One operation keeps it. -/
lemma Sound.apply {op : Operation} (hc : Sound c) (h : Configurator.apply lib c op = some d) :
    Sound d := by
  cases op with
  | updateConf text =>
      obtain ⟨⟨d', error⟩, hupdate, rfl⟩ := Option.map_eq_some_iff.mp h
      exact hc.updateConf hupdate
  | addResource resourceName json =>
      obtain ⟨⟨d', error⟩, hadd, rfl⟩ := Option.map_eq_some_iff.mp h
      exact hc.addResource hadd
  | getAll =>
      obtain ⟨⟨d', text⟩, hall, rfl⟩ := Option.map_eq_some_iff.mp h
      exact hc.getAll hall

/-- So it holds of every state that a run reaches from the first reading of a file. -/
lemma sound_run {file : String} {ops : List Operation} (hinit : init lib file = some c)
    (hrun : run lib c ops = some d) : Sound d := by
  have hfresh : Sound (fresh file) := ⟨nofun, nofun⟩
  have hc : Sound c := hfresh.reads (reads_of_readFile hinit)
  clear hinit
  induction ops generalizing c with
  | nil => cases hrun; exact hc
  | cons op ops ih =>
      obtain ⟨c', hop, hrun⟩ := Option.bind_eq_some_iff.mp hrun
      exact ih hrun (hc.apply hop)

/-! ### The text of what is there -/

/-- The members of a resource as a value. -/
def Resource.members (resource : Resource) : List (String × Json) :=
  resource.rootFields ++ [("services", .array (resource.services.entries.map Prod.snd))]

/-- The members of a configuration as a document. -/
def members (c : Configurator) : List (String × Json) :=
  c.rootFields.getD [] ++
    [("resources", .array (c.resources.entries.map fun e => .object e.2.members))]

/-- What is written for a resource, and read again. -/
def Resource.written (resource : Resource) : List Json :=
  .object resource.rootFields :: .object resource.members :: resource.services.entries.map Prod.snd

/-- What is written for a configuration, and read again. -/
def written (c : Configurator) : List Json :=
  .object c.members :: (c.rootFields.map Json.object).toList ++
    c.resources.entries.flatMap fun e => e.2.written

variable (lib) in
/-- The library reads back what it writes of a configuration. -/
def ReadsBack (c : Configurator) : Prop :=
  ∀ v ∈ c.written, lib.parse (lib.prettyWrite v) = .ok v

lemma rewritten_eq {members : List (String × Json)}
    (h : lib.parse (lib.prettyWrite (.object members)) = .ok (.object members)) :
    rewritten lib (.object members) = some members := by
  rw [rewritten, h]

/-- Values that are all there. -/
lemma mapM_eq_map {α β : Type*} {f : α → Option β} {g : α → β} {l : List α}
    (h : ∀ a ∈ l, f a = some (g a)) : l.mapM f = some (l.map g) := by
  induction l with
  | nil => rfl
  | cons a l ih =>
      have hrest := ih fun b hb => h b (List.mem_cons_of_mem a hb)
      rw [List.mapM_cons, h a (List.mem_cons_self ..), hrest]
      rfl

/-- A service that passes is an object. -/
lemma exists_object_of_checkService (h : checkService service serviceFields = some "") :
    ∃ members, service = .object members := by
  cases service with
  | object members => exact ⟨members, rfl⟩
  | _ => cases h

lemma ReadsBack.of_get (hback : ReadsBack lib c) (hget : c.resources.get name = some r) {v : Json}
    (hv : v ∈ r.written) : lib.parse (lib.prettyWrite v) = .ok v :=
  hback v (List.mem_append_right _ (List.mem_flatMap.mpr
    ⟨(name, r), OrderedMap.mem_entries_iff.mpr hget, hv⟩))

lemma Resource.mem_written_of_get {key : String} (hget : r.services.get key = some service) :
    service ∈ r.written :=
  List.mem_cons_of_mem _ (List.mem_cons_of_mem _
    (List.mem_map.mpr ⟨(key, service), OrderedMap.mem_entries_iff.mpr hget, rfl⟩))

/-- The value of a resource that is read again is its value. -/
lemma getValue_eq (hr : r.SoundAs name)
    (hback : ∀ v ∈ r.written, lib.parse (lib.prettyWrite v) = .ok v) :
    r.getValue lib = some (.object r.members) := by
  have hfields := rewritten_eq (hback _ (List.mem_cons_self ..))
  have hservices : r.services.entries.mapM (fun e => (rewritten lib e.2).map Json.object) =
      some (r.services.entries.map Prod.snd) := by
    refine mapM_eq_map fun e he => ?_
    have hget := OrderedMap.mem_entries_iff.mp he
    obtain ⟨members, hobject⟩ := exists_object_of_checkService (hr.sound e.1 e.2 hget).checked
    have hread := hback e.2 (Resource.mem_written_of_get hget)
    rw [hobject] at hread ⊢
    rw [rewritten_eq hread]
    rfl
  rw [Resource.getValue, hfields, hservices]
  rfl

/-- The document that is built is the value of the configuration. -/
lemma buildDocument_eq (hc : Sound c) (hback : ReadsBack lib c) :
    buildDocument lib c = some (.object c.members) := by
  have hfields : (match c.rootFields with
      | some rootFields => rewritten lib (.object rootFields)
      | none => some []) = some (c.rootFields.getD []) := by
    cases hroot : c.rootFields with
    | none => rfl
    | some fields => exact rewritten_eq (hback _ (by simp [written, hroot]))
  have hresources : c.resources.entries.mapM (fun e =>
      match (e.2.getString lib).map lib.parse with
      | some (.ok (.object members)) => some (Json.object members)
      | _ => none) = some (c.resources.entries.map fun e => .object e.2.members) := by
    refine mapM_eq_map fun e he => ?_
    have hget := OrderedMap.mem_entries_iff.mp he
    have hwritten : ∀ v ∈ e.2.written, lib.parse (lib.prettyWrite v) = .ok v :=
      fun v hv => hback.of_get hget hv
    rw [Resource.getString, getValue_eq (hc.resource e.1 e.2 hget) hwritten, Option.map_some,
      Option.map_some, hwritten (.object e.2.members) (by simp [Resource.written])]
  unfold buildDocument
  dsimp only
  rw [hfields, hresources]
  rfl
/-- Services that have passed their check pass it again. -/
lemma checkServices_eq {services : List Json}
    (hchecked : ∀ service ∈ services, ∃ key, Filed key service)
    (hback : ∀ service ∈ services, lib.parse (lib.prettyWrite service) = .ok service) :
    ∃ r', checkServices lib services (r, "") = some (r', "") := by
  induction services generalizing r with
  | nil => exact ⟨r, rfl⟩
  | cons service services ih =>
      obtain ⟨key, hfiled⟩ := hchecked service (List.mem_cons_self ..)
      obtain ⟨name, path, hname, hpath, -⟩ := hfiled.keyed
      obtain ⟨r', hrest⟩ := ih
        (r := { r with services := r.services.insert (name ++ ":" ++ path, service) })
        (fun v hv => hchecked v (List.mem_cons_of_mem _ hv))
        fun v hv => hback v (List.mem_cons_of_mem _ hv)
      refine ⟨r', ?_⟩
      rw [checkServices, hback service (List.mem_cons_self ..)]
      dsimp only
      rw [hfiled.checked, addService, hname, hpath]
      exact hrest

/-- The value of a resource is read as a resource of the same name. -/
lemma checkItem_members (hr : r.SoundAs name)
    (hback : ∀ v ∈ r.written, lib.parse (lib.prettyWrite v) = .ok v) :
    ∃ r', checkItem lib (.object r.members) = some (.ok (name, r')) := by
  have hnamed : r.members.lookup "resource" = some (.string name) := by
    rw [Resource.members, List.lookup_append, hr.named]
    rfl
  have hservices : r.members.lookup "services" =
      some (.array (r.services.entries.map Prod.snd)) := by
    rw [Resource.members, List.lookup_append, hr.apart]
    rfl
  have hfiled : ∀ service ∈ r.services.entries.map Prod.snd, ∃ key,
      r.services.get key = some service := by
    intro service hservice
    obtain ⟨e, he, rfl⟩ := List.mem_map.mp hservice
    exact ⟨e.1, OrderedMap.mem_entries_iff.mp he⟩
  obtain ⟨r', hr'⟩ := checkServices_eq
    (r := ⟨r.members.filter fun m => m.1 ≠ "services", OrderedMap.empty⟩)
    (fun service hservice => (hfiled service hservice).imp fun key => hr.sound key service)
    fun service hservice => hback service
      (Resource.mem_written_of_get (hfiled service hservice).choose_spec)
  have hcheck : checkResource lib (.object r.members) = some (r', "") := by
    rw [checkResource, hnamed, if_neg (by simp)]
    dsimp only
    rw [hservices]
    exact hr'
  have hname : textOf "resource" (.object r.members) = some name := by
    rw [textOf, Json.member, hnamed]
  refine ⟨r', ?_⟩
  rw [checkItem, hback (.object r.members) (by simp [Resource.written])]
  dsimp only
  rw [hcheck, hname]
  rfl

/-- The document of a configuration is accepted, and names what is there. -/
lemma resourcesIn_members (hc : Sound c) (hback : ReadsBack lib c) :
    Accepted lib (lib.prettyWrite (.object c.members)) ∧
      ∀ kv ∈ resourcesIn lib (lib.prettyWrite (.object c.members)),
        ∃ r, c.resources.get kv.1 = some r := by
  have hlookup : c.members.lookup "resources" =
      some (.array (c.resources.entries.map fun e => .object e.2.members)) := by
    have hapart : (c.rootFields.getD []).lookup "resources" = none := by
      cases hroot : c.rootFields with
      | none => rfl
      | some fields => exact hc.apart fields hroot
    rw [members, List.lookup_append, hapart]
    rfl
  have harray : resourceArray lib (lib.prettyWrite (.object c.members)) =
      some (c.members, c.resources.entries.map fun e => .object e.2.members) := by
    rw [resourceArray, hback (.object c.members) (by simp [written])]
    dsimp only
    rw [hlookup]
  have hadded : ∀ e ∈ c.resources.entries,
      ∃ r', added lib (.object e.2.members) = some (e.1, r') := by
    intro e he
    have hget := OrderedMap.mem_entries_iff.mp he
    obtain ⟨r', hr'⟩ := checkItem_members (hc.resource e.1 e.2 hget)
      fun v hv => hback.of_get hget hv
    exact ⟨r', by rw [added, hr']⟩
  refine ⟨⟨_, _, harray, fun item hitem => ?_⟩, fun kv hkv => ?_⟩
  · obtain ⟨e, he, rfl⟩ := List.mem_map.mp hitem
    obtain ⟨r', hr'⟩ := hadded e he
    rw [hr']
    rfl
  · rw [resourcesIn, harray] at hkv
    obtain ⟨item, hitem, hkv⟩ := List.mem_filterMap.mp hkv
    obtain ⟨e, he, rfl⟩ := List.mem_map.mp hitem
    obtain ⟨r', hr'⟩ := hadded e he
    rw [hr'] at hkv
    exact ⟨e.2, Option.some.inj hkv ▸ OrderedMap.mem_entries_iff.mp he⟩

/-- An update by the text of what is there changes no resource. -/
lemma updateConf_members {c' : Configurator} (hc : Sound c) (hback : ReadsBack lib c)
    (hsame : c'.resources = c.resources)
    (h : updateConf lib c' (lib.prettyWrite (.object c.members)) = some (d, error)) :
    d.resources = c.resources := by
  obtain ⟨haccepted, hnames⟩ := resourcesIn_members hc hback
  unfold updateConf at h
  split at h
  · cases h
  · next c₂ hread =>
      have hreads := reads_of_readFile hread
      rw [if_pos (hreads.error.mpr haccepted)] at h
      cases h
      show c₂.resources = c.resources
      rw [hreads.resources, hsame, OrderedMap.insertAll_eq_self_iff]
      intro k hk
      obtain ⟨r, hr⟩ := Option.isSome_iff_exists.mp hk
      obtain ⟨r', hr'⟩ := hnames (k, r) (OrderedMap.mem_of_lookup hr)
      rw [hr']
      rfl

/-! ### The replacement of a resource -/

/-- **The replacement of a resource**: the resource of the given name is gone, the one of the text
comes in if nothing else stands under its name, and all others stay. So it takes effect exactly
when its text says the name that is replaced, or one under which nothing else stands; and no error
is reported. -/
theorem addResource_takes_iff {file json : String} {ops : List Operation} {c₀ : Configurator}
    (hinit : init lib file = some c₀) (hrun : run lib c₀ ops = some c)
    (hread : readResource lib resourceName json = some (.ok (name, resource)))
    (hback : ReadsBack lib (c.replaced resourceName (name, resource)))
    (h : addResource lib c resourceName json = some (d, error)) : error = "" ∧
      (∀ k, d.resources.get k = (if k = resourceName then none else c.resources.get k).or
        (if k = name then some resource else none)) ∧
      (d.resources.get name = some resource ↔
        name = resourceName ∨ ∀ old, c.resources.get name = some old → old = resource) := by
  have hsound : Sound (c.replaced resourceName (name, resource)) :=
    (sound_run hinit hrun).replaced (sound_of_readResource hread)
  have hall : getAll lib (c.replaced resourceName (name, resource)) =
      some ({ c.replaced resourceName (name, resource) with
          document := .object (c.replaced resourceName (name, resource)).members },
        lib.prettyWrite (.object (c.replaced resourceName (name, resource)).members)) := by
    rw [getAll]
    show (buildDocument lib (c.replaced resourceName (name, resource))).map _ = _
    rw [buildDocument_eq hsound hback]
    rfl
  rw [addResource_of_readResource hread, hall, Option.bind_some] at h
  obtain ⟨⟨d', error'⟩, hupdate, hpair⟩ := Option.map_eq_some_iff.mp h
  cases hpair
  have hget : ∀ k, d'.resources.get k =
      (if k = resourceName then none else c.resources.get k).or
        (if k = name then some resource else none) := by
    intro k
    rw [updateConf_members hsound hback (by rfl) hupdate, get_replaced]
  refine ⟨rfl, hget, ?_⟩
  rw [hget name, if_pos rfl]
  by_cases hname : name = resourceName
  · simp [hname]
  · cases hold : c.resources.get name <;> simp [hname]

instance (lib : ConfLib) (c : Configurator) : Decidable (ReadsBack lib c) :=
  inferInstanceAs (Decidable (∀ v ∈ _, _))

/-- A configuration of two resources. -/
def bothConf : Configurator :=
  (init smartTexts (smartFile [smartResource "/iot/d" ["/a", "/b"], smartResource "/iot/e" []])).get
    (by decide +kernel)

/-- A text with one of the services. -/
def onePath : String :=
  prettyText 0 (smartResource "/iot/d" ["/a"])

lemma bothConf_eq : init smartTexts (smartFile [smartResource "/iot/d" ["/a", "/b"],
    smartResource "/iot/e" []]) = some bothConf :=
  (Option.some_get _).symm

/-- The resource of the text. -/
def onePathResource : String × Resource :=
  ((readResource smartTexts "/iot/d" onePath).bind Except.toOption).get (by decide +kernel)

lemma onePathResource_eq : readResource smartTexts "/iot/d" onePath =
    some (.ok (onePathResource.1, onePathResource.2)) := by
  have hget : (readResource smartTexts "/iot/d" onePath).bind Except.toOption =
      some onePathResource := (Option.some_get _).symm
  obtain ⟨result, hread, hok⟩ := Option.bind_eq_some_iff.mp hget
  cases result with
  | error e => cases hok
  | ok kv => rw [hread, ← Option.some.inj hok]

/-- The configuration with the resource of the text, and the error. -/
def onePathConf : Configurator × String :=
  (addResource smartTexts bothConf "/iot/d" onePath).get (by decide +kernel)

lemma onePathConf_eq : addResource smartTexts bothConf "/iot/d" onePath =
    some (onePathConf.1, onePathConf.2) := by
  rw [Prod.mk.eta]
  exact (Option.some_get _).symm

/-- A resource is replaced by another of its name. -/
theorem addResource_smart : onePathConf.2 = "" ∧
    (∀ k, onePathConf.1.resources.get k =
      (if k = "/iot/d" then none else bothConf.resources.get k).or
        (if k = onePathResource.1 then some onePathResource.2 else none)) ∧
    (onePathConf.1.resources.get onePathResource.1 = some onePathResource.2 ↔
      onePathResource.1 = "/iot/d" ∨
        ∀ old, bothConf.resources.get onePathResource.1 = some old → old = onePathResource.2) := by
  have hrun : run smartTexts bothConf [] = some bothConf := rfl
  have hback : ReadsBack smartTexts
      (bothConf.replaced "/iot/d" (onePathResource.1, onePathResource.2)) := by
    decide +kernel
  exact addResource_takes_iff bothConf_eq hrun onePathResource_eq hback onePathConf_eq

example : (addResource smartTexts bothConf "/iot/e" onePath).map
    (fun r => (r.1.resources.keys, r.2)) = some (["/iot/d"], "") := by decide +kernel

/-! ### What the look-ups answer -/

/-- The key of a service, split at its first colon. -/
lemma startsWith_join_iff {s n p : String} (hs : ':' ∉ s.toList) (hn : ':' ∉ n.toList) :
    Text.startsWith (n ++ ":" ++ p) (s ++ ":") ↔ n = s := by
  have hjoin : (n ++ ":" ++ p).toList = n.toList ++ ':' :: p.toList := by simp
  have hcompa : (s ++ ":").toList = s.toList ++ [':'] := by simp
  rw [Text.startsWith, List.isPrefixOf_iff_prefix, hjoin, hcompa]
  constructor
  · rintro ⟨t, ht⟩
    rw [List.append_assoc, List.singleton_append] at ht
    have htake := congrArg (List.takeWhile (· ≠ ':')) ht
    rw [UrlParts.takeWhile_ne_append hs (.inr ⟨t, rfl⟩),
      UrlParts.takeWhile_ne_append hn (.inr ⟨p.toList, rfl⟩)] at htake
    exact (String.toList_inj.mp htake).symm
  · rintro rfl
    exact ⟨p.toList, by simp⟩

lemma join_inj_iff {s n p q : String} (hs : ':' ∉ s.toList) (hn : ':' ∉ n.toList) :
    s ++ ":" ++ p = n ++ ":" ++ q ↔ n = s ∧ q = p := by
  constructor
  · intro h
    have hstart : Text.startsWith (n ++ ":" ++ q) (s ++ ":") := by
      rw [← h]
      exact (startsWith_join_iff hs hs).mpr rfl
    obtain rfl := (startsWith_join_iff hs hn).mp hstart
    exact ⟨rfl, (String.append_right_inj _).mp h.symm⟩
  · rintro ⟨rfl, rfl⟩
    rfl

lemma lt_of_join_lt {s p q : String} (h : s ++ ":" ++ p < s ++ ":" ++ q) : p < q := by
  have hmono : ∀ {p q : String}, p < q → s ++ ":" ++ p < s ++ ":" ++ q := by
    intro p q hpq
    rw [String.lt_iff_toList_lt] at hpq ⊢
    have happend : ∀ t : String, (s ++ ":" ++ t).toList = (s ++ ":").toList ++ t.toList :=
      fun _ => String.toList_append
    rw [happend, happend]
    exact List.append_left_lt hpq
  rcases lt_trichotomy p q with hpq | rfl | hqp
  · exact hpq
  · exact absurd h (lt_irrefl _)
  · exact absurd (hmono hqp) h.asymm

namespace Resource

/-- The services of a resource. -/
def Has (r : Resource) (service : Json) : Prop :=
  ∃ key, r.services.get key = some service

/-- No name of a service has a colon. -/
def NoColons (r : Resource) : Prop :=
  ∀ service name, r.Has service → textOf "service" service = some name → ':' ∉ name.toList

/-- The entries that a look-up of a name goes through. -/
def entriesOf (r : Resource) (s : String) : List (String × Json) :=
  r.services.entries.filter fun e => Text.startsWith e.1 (s ++ ":")

variable {s : String}

/-- They are the services of the name, under their paths. -/
lemma mem_entriesOf_iff {e : String × Json} (hr : r.Sound) (hn : r.NoColons)
    (hs : ':' ∉ s.toList) : e ∈ r.entriesOf s ↔ r.services.get e.1 = some e.2 ∧
      textOf "service" e.2 = some s ∧
      ∃ path, textOf "service_path" e.2 = some path ∧ e.1 = s ++ ":" ++ path := by
  rw [entriesOf, List.mem_filter, OrderedMap.mem_entries_iff]
  refine and_congr_right fun hget => ?_
  obtain ⟨name, path, hname, hpath, hkey⟩ := (hr e.1 e.2 hget).keyed
  rw [hkey, startsWith_join_iff hs (hn e.2 name ⟨e.1, hget⟩ hname)]
  constructor
  · rintro rfl
    exact ⟨hname, path, hpath, rfl⟩
  · rintro ⟨hname', -⟩
    rw [hname] at hname'
    exact Option.some.inj hname'

/-- The path of an entry. -/
def pathOf (e : String × Json) : String :=
  (textOf "service_path" e.2).getD ""

lemma servicePaths_eq {strCompa : String} {l : List (String × Json)}
    (h : ∀ e ∈ l, (textOf "service_path" e.2).isSome) : servicePaths strCompa l =
      some ((l.filter fun e => Text.startsWith e.1 strCompa).map pathOf) := by
  induction l with
  | nil => rfl
  | cons e l ih =>
      have ih := ih fun e he => h e (List.mem_cons_of_mem _ he)
      obtain ⟨p, hp⟩ := Option.isSome_iff_exists.mp (h e (List.mem_cons_self ..))
      rw [servicePaths]
      by_cases hstart : Text.startsWith e.1 strCompa = true
      · rw [if_pos hstart, hp, ih, List.filter_cons_of_pos (by exact hstart), List.map_cons,
          pathOf, hp]
        rfl
      · rw [if_neg hstart, ih, List.filter_cons_of_neg (by exact hstart)]

/-- A second entry is an error. -/
lemma foundOf_some {l : List (String × Json)} {v : Json} : foundOf s l (some v) =
    if (l.filter fun e => Text.startsWith e.1 (s ++ ":")) = [] then .ok (some v)
    else .error (moreThanOne s) := by
  induction l with
  | nil => rfl
  | cons e l ih =>
      rw [foundOf]
      by_cases hstart : Text.startsWith e.1 (s ++ ":") = true
      · rw [if_pos hstart, List.filter_cons_of_pos (by exact hstart), if_neg (List.cons_ne_nil _ _)]
      · rw [if_neg hstart, List.filter_cons_of_neg (by exact hstart), ih]

lemma foundOf_none {l : List (String × Json)} : foundOf s l none =
    match l.filter fun e => Text.startsWith e.1 (s ++ ":") with
    | [] => .ok none
    | [e] => .ok (some e.2)
    | _ => .error (moreThanOne s) := by
  induction l with
  | nil => rfl
  | cons e l ih =>
      rw [foundOf]
      by_cases hstart : Text.startsWith e.1 (s ++ ":") = true
      · rw [if_pos hstart, List.filter_cons_of_pos (by exact hstart), foundOf_some]
        cases l.filter fun e => Text.startsWith e.1 (s ++ ":") <;> rfl
      · rw [if_neg hstart, List.filter_cons_of_neg (by exact hstart), ih]

/-- Without a path, the only service of the name is found. -/
lemma getOnlyService_eq : r.getOnlyService s =
    match r.entriesOf s with
    | [] => .error (noService (" " ++ s ++ " " ++ "/#" ++ " "))
    | [e] => .ok e.2
    | _ => .error (moreThanOne s) := by
  have hfound : foundOf s r.services.entries none = match r.entriesOf s with
      | [] => .ok none
      | [e] => .ok (some e.2)
      | _ => .error (moreThanOne s) := foundOf_none
  rw [getOnlyService, hfound]
  rcases r.entriesOf s with _ | ⟨e, _ | ⟨e', l⟩⟩ <;> rfl

lemma getOnlyService_eq_ok_iff {v : Json} :
    r.getOnlyService s = .ok v ↔ ∃ e, r.entriesOf s = [e] ∧ e.2 = v := by
  rw [getOnlyService_eq]
  rcases r.entriesOf s with _ | ⟨e, _ | ⟨e', l⟩⟩ <;> simp

lemma getOnlyService_eq_error_iff :
    r.getOnlyService s = .error (moreThanOne s) ↔ 1 < (r.entriesOf s).length := by
  have hne : noService (" " ++ s ++ " " ++ "/#" ++ " ") ≠ moreThanOne s := fun h =>
    absurd (congrArg IotaException.status h) (show (404 : ℤ) ≠ 409 by decide)
  rw [getOnlyService_eq]
  rcases r.entriesOf s with _ | ⟨e, _ | ⟨e', l⟩⟩ <;> simp [hne]

/-- The paths of the services of a name. -/
def pathsOf (r : Resource) (s : String) : List String :=
  (r.entriesOf s).map pathOf

lemma pathOf_eq_iff {e : String × Json} {p : String} (hp : (textOf "service_path" e.2).isSome) :
    pathOf e = p ↔ textOf "service_path" e.2 = some p := by
  obtain ⟨q, hq⟩ := Option.isSome_iff_exists.mp hp
  rw [pathOf, hq, Option.getD_some, Option.some_inj]

end Resource

/-- What the look-ups of a name `s` answer, where its services have the paths `paths`. -/
structure Lookups (c : Configurator) (resource : String) (r : Resource) (s : String)
    (paths : List String) : Prop where
  ordered : paths.Pairwise (· < ·)
  mem_iff : ∀ p, p ∈ paths ↔ ∃ v, r.Has v ∧ textOf "service" v = some s ∧
    textOf "service_path" v = some p
  all : getAllServicePath c resource s = some (.ok paths)
  one : ∀ p v, p ≠ "" → (getService c resource s p = .ok v ↔
    r.Has v ∧ textOf "service" v = some s ∧ textOf "service_path" v = some p)
  only : ∀ v, getService c resource s "" = .ok v ↔
    paths.length = 1 ∧ r.Has v ∧ textOf "service" v = some s
  many : getService c resource s "" = .error (moreThanOne s) ↔ 1 < paths.length

/-- The look-up by an API key finds the service that stands first among those of the key. -/
theorem getServicebyApiKey_eq_ok_iff {apiKey : String} {v : Json}
    (hget : d.resources.get name = some r) : getServicebyApiKey d name apiKey = .ok v ↔
      ∃ key, r.services.get key = some v ∧ textOf "apikey" v = some apiKey ∧
        ∀ key' v', r.services.get key' = some v' → textOf "apikey" v' = some apiKey →
          key ≤ key' := by
  have hfind : ∀ e, (r.services.entries.find? fun e => textOf "apikey" e.2 = some apiKey) =
      some e ↔ r.services.get e.1 = some e.2 ∧ textOf "apikey" e.2 = some apiKey ∧
        ∀ key' v', r.services.get key' = some v' → textOf "apikey" v' = some apiKey →
          e.1 ≤ key' := by
    intro e
    simp only [OrderedMap.find?_eq_some_iff, decide_eq_true_eq, Prod.forall]
  rw [getServicebyApiKey, hget]
  dsimp only
  rw [Resource.getServiceByApikey]
  constructor
  · intro h
    split at h
    · next e he =>
        cases h
        exact ⟨e.1, (hfind e).mp he⟩
    · cases h
  · rintro ⟨key, hkey⟩
    rw [(hfind (key, v)).mpr hkey]

section Run

variable {file s : String} {ops : List Operation}

lemma Resource.Sound.isSome_path {e : String × Json} (hr : r.Sound)
    (hget : r.services.get e.1 = some e.2) : (textOf "service_path" e.2).isSome := by
  obtain ⟨name, path, -, hpath, -⟩ := (hr e.1 e.2 hget).keyed
  rw [hpath]
  rfl

/-- The look-ups of a sound resource. -/
lemma lookups_of_sound (hget : d.resources.get name = some r) (hr : r.Sound) (hn : r.NoColons)
    (hs : ':' ∉ s.toList) : Lookups d name r s (r.pathsOf s) where
  ordered := by
    refine List.pairwise_map.mpr ((r.services.ordered.filter _).imp_of_mem ?_)
    intro e e' he he' hlt
    obtain ⟨hget, -, p, hp, hkey⟩ := (Resource.mem_entriesOf_iff hr hn hs).mp he
    obtain ⟨hget', -, p', hp', hkey'⟩ := (Resource.mem_entriesOf_iff hr hn hs).mp he'
    rw [(Resource.pathOf_eq_iff (hr.isSome_path hget)).mpr hp,
      (Resource.pathOf_eq_iff (hr.isSome_path hget')).mpr hp']
    rw [hkey, hkey'] at hlt
    exact lt_of_join_lt hlt
  mem_iff p := by
    rw [Resource.pathsOf, List.mem_map]
    constructor
    · rintro ⟨e, he, rfl⟩
      obtain ⟨hget, hname, -⟩ := (Resource.mem_entriesOf_iff hr hn hs).mp he
      exact ⟨e.2, ⟨e.1, hget⟩, hname,
        (Resource.pathOf_eq_iff (hr.isSome_path hget)).mp rfl⟩
    · rintro ⟨v, ⟨key, hkey⟩, hname, hpath⟩
      obtain ⟨name', path', hname', hpath', hjoin⟩ := (hr key v hkey).keyed
      rw [hname] at hname'
      rw [hpath] at hpath'
      obtain rfl := Option.some.inj hname'
      obtain rfl := Option.some.inj hpath'
      exact ⟨(key, v), (Resource.mem_entriesOf_iff hr hn hs).mpr ⟨hkey, hname, p, hpath, hjoin⟩,
        (Resource.pathOf_eq_iff (hr.isSome_path hkey)).mpr hpath⟩
  all := by
    rw [getAllServicePath, hget]
    dsimp only
    rw [Resource.getAllServicepath, Resource.servicePaths_eq fun e he =>
      hr.isSome_path (OrderedMap.mem_entries_iff.mp he)]
    rfl
  one p v hp := by
    rw [getService, hget]
    dsimp only
    rw [Resource.getService, if_neg hp]
    constructor
    · intro h
      split at h
      · next v' hv =>
          cases h
          obtain ⟨name', path', hname', hpath', hjoin⟩ := (hr _ v hv).keyed
          obtain ⟨rfl, rfl⟩ := (join_inj_iff hs (hn v name' ⟨_, hv⟩ hname')).mp hjoin
          exact ⟨⟨_, hv⟩, hname', hpath'⟩
      · cases h
    · rintro ⟨⟨key, hkey⟩, hname, hpath⟩
      obtain ⟨name', path', hname', hpath', rfl⟩ := (hr key v hkey).keyed
      rw [hname] at hname'
      rw [hpath] at hpath'
      obtain rfl := Option.some.inj hname'
      obtain rfl := Option.some.inj hpath'
      rw [hkey]
  only v := by
    rw [getService, hget]
    dsimp only
    rw [Resource.getService, if_pos rfl, Resource.getOnlyService_eq_ok_iff, Resource.pathsOf,
      List.length_map, List.length_eq_one_iff]
    constructor
    · rintro ⟨e, he, rfl⟩
      have hmem : e ∈ r.entriesOf s := by rw [he]; exact List.mem_singleton_self e
      obtain ⟨hkey, hname, -⟩ := (Resource.mem_entriesOf_iff hr hn hs).mp hmem
      exact ⟨⟨e, he⟩, ⟨e.1, hkey⟩, hname⟩
    · rintro ⟨⟨e, he⟩, ⟨key, hkey⟩, hname⟩
      obtain ⟨name', path', hname', hpath', hjoin⟩ := (hr key v hkey).keyed
      rw [hname] at hname'
      obtain rfl := Option.some.inj hname'
      have hmem : (key, v) ∈ r.entriesOf s :=
        (Resource.mem_entriesOf_iff hr hn hs).mpr ⟨hkey, hname, path', hpath', hjoin⟩
      rw [he, List.mem_singleton] at hmem
      exact ⟨e, he, hmem ▸ rfl⟩
  many := by
    rw [getService, hget]
    dsimp only
    rw [Resource.getService, if_pos rfl, Resource.getOnlyService_eq_error_iff, Resource.pathsOf,
      List.length_map]

/-- **The look-ups in every state that a run reaches.** With a path, the service of the name and
the path is found; without one the only service of the name, and it is an error that there are
several. All the paths of a name are found, in their order. -/
theorem lookups_run (hinit : init lib file = some c) (hrun : run lib c ops = some d)
    (hget : d.resources.get name = some r) (hn : r.NoColons) (hs : ':' ∉ s.toList) :
    ∃ paths, Lookups d name r s paths :=
  ⟨r.pathsOf s, lookups_of_sound hget ((sound_run hinit hrun).resource name r hget).sound hn hs⟩

end Run

lemma exists_smartConf : ∃ c d res,
    init smartTexts (smartFile [smartResource "/iot/d" ["/a", "/b"]]) = some c ∧
    run smartTexts c [.updateConf (smartFile [smartResource "/iot/d" ["/a", "/b"]])] = some d ∧
    d.resources.get "/iot/d" = some res ∧ res.NoColons ∧ smartConf = some d := by
  have hnames : (smartConf.bind fun d => d.resources.get "/iot/d").map (fun res =>
      res.services.entries.map fun e => textOf "service" e.2) =
      some [some "smart", some "smart"] := by decide +kernel
  obtain ⟨res, hres, hentries⟩ := Option.map_eq_some_iff.mp hnames
  obtain ⟨d, hd, hget⟩ := Option.bind_eq_some_iff.mp hres
  obtain ⟨c, hinit, hrun⟩ := Option.bind_eq_some_iff.mp hd
  refine ⟨c, d, res, hinit, hrun, hget, ?_, hd⟩
  rintro service name ⟨key, hkey⟩ hname
  have hmem : some name ∈ res.services.entries.map fun e => textOf "service" e.2 :=
    List.mem_map.mpr ⟨(key, service), OrderedMap.mem_entries_iff.mpr hkey, hname⟩
  rw [hentries] at hmem
  have heq : name = "smart" := by simpa using hmem
  rw [heq]
  decide

/-- With two services of the name, a look-up without a path is an error. -/
theorem lookups_smart : ∃ d res paths, smartConf = some d ∧
    Lookups d "/iot/d" res "smart" paths := by
  obtain ⟨c, d, res, hinit, hrun, hget, hn, hd⟩ := exists_smartConf
  obtain ⟨paths, hpaths⟩ := lookups_run hinit hrun hget hn (s := "smart") (by decide)
  exact ⟨d, res, paths, hd, hpaths⟩

end Configurator

/-! ### The device behind them -/

/-- `FILE`. -/
def StoreTypes.file : String := "file"

namespace RestHandle

variable {h : Hashing} (J : JsonText) (o : HashIndex.Order Device String) (r : RestHandle h)

/-- The loop of `get_device_empty_service_path`. -/
def getInPaths (fetch : DeviceGetFunction) (itemQ : Device) :
    List String → Cache h → Cache h × Option Device
  | [], c => (c, none)
  | srvpath :: vec, c =>
      match c.get fetch { itemQ with servicePath := srvpath } with
      | (c, some d) => (c, some d)
      | (c, none) => getInPaths fetch itemQ vec c

/-- `get_device` of an agent with a resource in the configuration; `none` is an assertion of the
JSON library. -/
def getDevice (conf : Configurator) (resource name service servicePath : String) :
    Option (RestHandle h × Except IotaException (Option Device)) :=
  let itemQ : Device := { Device.ofName name service with servicePath }
  let found : Option (Except IotaException (Cache h × Option Device)) :=
    if r.storageType = StoreTypes.file ∧ servicePath = "" ∧ service ≠ "" then
      (conf.getAllServicePath resource service).map fun
        | .ok vec => .ok (getInPaths (r.getFunction J) itemQ vec r.registeredDevices)
        | .error e => .error e
    else if service = "" then
      some (.ok (r.registeredDevices.getByName o (r.getFunction J) itemQ))
    else some (.ok (r.registeredDevices.get (r.getFunction J) itemQ))
  found.map fun
    | .error e => (r, .error e)
    | .ok (c, some d) => ({ r with registeredDevices := c },
        if d.active = 0 then .error {
          reason := Types.responseMessageDeviceNoActive
          what := " iota::Device " ++ name ++ " is not active. Service " ++ service ++ " " ++
            servicePath
          status := Types.responseCodeDeviceNoActive }
        else .ok (some d))
    | .ok (c, none) => ({ r with registeredDevices := c }, .ok none)

/-- The device that is held for a name, a service and a path. -/
def held (name service path : String) : Option Device :=
  BoundedSeq.find (Device.collide h) { Device.ofName name service with servicePath := path }
    r.registeredDevices.list

variable {J o r}

/-- The loop ends with the first path under which a device is held. -/
lemma getInPaths_snd {itemQ : Device} {vec : List String} {c : Cache h} :
    (getInPaths none itemQ vec c).2 = vec.findSome? fun path =>
      BoundedSeq.find (Device.collide h) { itemQ with servicePath := path } c.list := by
  induction vec with
  | nil => rfl
  | cons path vec ih =>
      have hsnd : (c.get none { itemQ with servicePath := path }).2 =
          BoundedSeq.find (Device.collide h) { itemQ with servicePath := path } c.list :=
        Cache.readThrough_snd.trans Option.or_none
      rw [getInPaths, List.findSome?_cons]
      split
      · next c' d heq => rw [← hsnd, heq]
      · next c' heq =>
          -- a look-up that finds nothing leaves the cache
          have hc : c' = c :=
            (congrArg Prod.fst heq).symm.trans (Cache.readThrough_eq_of_snd (congrArg Prod.snd heq))
          rw [← hsnd, heq, hc, ih]

/-- The exception for a device that is not active. -/
def notActive (name service servicePath : String) : IotaException where
  reason := Types.responseMessageDeviceNoActive
  what := " iota::Device " ++ name ++ " is not active. Service " ++ service ++ " " ++ servicePath
  status := Types.responseCodeDeviceNoActive

/-- What is answered for a device that is found, or for none. -/
def answerOf (name service servicePath : String) :
    Option Device → Except IotaException (Option Device)
  | some dev =>
      if dev.active = 0 then .error (notActive name service servicePath) else .ok (some dev)
  | none => .ok none

/-- **The device that is found without a service path**: an agent with a device file looks under
the paths of the services of the name that its configuration has, in their order, and answers the
first device that is held under one of them, whatever operations came before. If this one is not
active, the answer is the error that says so, whatever stands under the paths behind. -/
theorem getDevice_run {lib : ConfLib} {c d : Configurator} {file resource name service : String}
    {ops : List Configurator.Operation} {res : Configurator.Resource}
    (hfile : r.storageType = StoreTypes.file) (hservice : service ≠ "")
    (hinit : Configurator.init lib file = some c) (hrun : Configurator.run lib c ops = some d)
    (hget : d.resources.get resource = some res) (hn : res.NoColons)
    (hs : ':' ∉ service.toList) :
    ∃ r' answer, r.getDevice J o d resource name service "" = some (r', answer) ∧
      ∃ paths, Configurator.Lookups d resource res service paths ∧
        answer = answerOf name service ""
          (paths.findSome? fun path => r.held name service path) := by
  have hpaths := Configurator.lookups_of_sound hget
    ((Configurator.sound_run hinit hrun).resource resource res hget).sound hn hs
  set paths := res.pathsOf service
  have hfetch : r.getFunction J = none := by
    rw [getFunction, hfile]
    rfl
  have hsnd : (getInPaths none { Device.ofName name service with servicePath := "" } paths
      r.registeredDevices).2 = paths.findSome? fun path => r.held name service path :=
    getInPaths_snd
  rw [getDevice]
  dsimp only
  rw [if_pos ⟨hfile, rfl, hservice⟩, hpaths.all, hfetch]
  cases hloop : getInPaths none { Device.ofName name service with servicePath := "" } paths
    r.registeredDevices with
  | mk c' found =>
      rw [hloop] at hsnd
      simp only [Option.map_some, hloop]
      obtain rfl := hsnd
      cases hfirst : paths.findSome? fun path => r.held name service path with
      | none => exact ⟨_, _, rfl, paths, hpaths, by rw [hfirst]; rfl⟩
      | some dev => exact ⟨_, _, rfl, paths, hpaths, by rw [hfirst]; rfl⟩

/-- A device under the first path that is not active, one under the second that is, and an agent
that holds both. -/
def lamp (path : String) (active : ℤ) : Device :=
  { Device.ofName "lamp" "smart" with servicePath := path, active }

def holdsLamps : RestHandle ⟨fun n s => n + s.length, fun n => n⟩ where
  storageType := StoreTypes.file
  protocol := ""
  registeredDevices := ((Cache.empty Types.maxSizeCache false).insert (lamp "/a" 0)).insert
    (lamp "/b" 1)
  deviceTable := .empty

/-- The device is looked for without a path. -/
theorem getDevice_lamps : ∃ d, Configurator.smartConf = some d ∧ ∃ res r' answer,
    holdsLamps.getDevice ⟨fun _ => "", fun _ => none⟩ HashIndex.Order.blocks d "/iot/d" "lamp"
      "smart" "" = some (r', answer) ∧
    ∃ paths, Configurator.Lookups d "/iot/d" res "smart" paths ∧
      answer = answerOf "lamp" "smart" ""
        (paths.findSome? fun path => holdsLamps.held "lamp" "smart" path) := by
  obtain ⟨c, d, res, hinit, hrun, hget, hn, hd⟩ := Configurator.exists_smartConf
  have hservice : "smart" ≠ "" := by decide
  have hcolon : ':' ∉ "smart".toList := by decide
  exact ⟨d, hd, res, getDevice_run rfl hservice hinit hrun hget hn hcolon⟩

example : Configurator.smartConf.bind (fun d => (holdsLamps.getDevice
    ⟨fun _ => "", fun _ => none⟩ HashIndex.Order.blocks d "/iot/d" "lamp" "smart" "").map
      fun a => a.2) = some (.error (notActive "lamp" "smart" "")) := by decide +kernel

end RestHandle

end IotAgent
