import Mathlib.Data.String.Basic
import IotAgent.Lib.OrderedMap
import IotAgent.Util.Json

/-!
The configuration and its update (`src/rest/riot_conf.cc`).

A text is checked and installed in one pass: the first-level fields are replaced, every resource
that passes its check comes into the map of the resources under its name, and the PEP rules are
added to those that are there. An update that fails reads the file again, by the same pass.

* `Configurator.checkConfigurationJson`, `readFile`, `updateConf`: the pass, the reading of a
  text, and the update;
* `Configurator.readFile_eq`: what a reading does to a state, by the text alone;
* `Configurator.Atomic`: an update does all of its work, or none;
* `Configurator.atomic_iff`: the updates that do.
-/

namespace IotAgent

/-- The JSON library of the configuration: a parse error has a text and an offset. -/
structure ConfLib where
  parse : String → Except (String × ℕ) Json
  prettyWrite : Json → String

/-- `PepRule`. -/
structure PepRule where
  verb : String
  uri : String
  deriving DecidableEq

namespace Configurator

/-- `Configurator::Resource`. -/
structure Resource where
  rootFields : List (String × Json)
  services : OrderedMap String Json
  deriving DecidableEq

end Configurator

/-- `Configurator`: its maps, and the content of the file `_filename`. -/
structure Configurator where
  file : String
  error : String
  document : Json
  rootFields : Option (List (String × Json))
  resources : OrderedMap String Configurator.Resource
  pepRules : List (String × PepRule)

namespace Configurator

/-- `CONF_FILE_ERROR`. -/
def confFileError : String := "Configuration file with errors"

/-- The texts that a service has to have, in the order of their checks. -/
def serviceFields : List String :=
  ["apikey", "service", "entity_type", "service_path", "cbroker", "token"]

/-- One check of `check_service`; `none` is an assertion of the JSON library. -/
def hasText (name : String) : Json → Option Bool
  | .object members => some (match members.lookup name with
      | some (.string _) => true
      | _ => false)
  | _ => none

/-- `check_service`: its error, empty for a service that passes. -/
def checkService (service : Json) : List String → Option String
  | [] => some ""
  | name :: names =>
      match hasText name service with
      | none => none
      | some false => some (confFileError ++ " [" ++ name ++ "]")
      | some true => checkService service names

/-- A text member, `GetString` of it. -/
def textOf (name : String) (v : Json) : Option String :=
  match v.member name with
  | some (.string s) => some s
  | _ => none

/-- `Resource::add_service`. -/
def addService (resource : Resource) (service : Json) : Option Resource :=
  match textOf "service" service, textOf "service_path" service with
  | some s, some path =>
      some { resource with services := resource.services.insert (s ++ ":" ++ path, service) }
  | _, _ => none

section Library

variable (lib : ConfLib)

/-- The loop of `check_resource` over the services. -/
def checkServices : List Json → Resource × String → Option (Resource × String)
  | [], s => some s
  | service :: services, (resource, error) =>
      match lib.parse (lib.prettyWrite service) with
      | .error e => checkServices services (resource, confFileError ++ " [" ++ e.1 ++ "]")
      | .ok service =>
          match checkService service serviceFields with
          | none => none
          | some localError =>
              if localError = "" then
                match addService resource service with
                | none => none
                | some resource => checkServices services (resource, error)
              else checkServices services (resource, localError)

/-- `check_resource`: the resource and its error. -/
def checkResource : Json → Option (Resource × String)
  | .object members =>
      if (members.lookup "resource").isNone then
        some (⟨[], OrderedMap.empty⟩, confFileError ++ " [resource field not found]")
      else
        let resource : Resource :=
          ⟨members.filter fun m => m.1 ≠ "services", OrderedMap.empty⟩
        match members.lookup "services" with
        | some (.array services) => checkServices lib services (resource, "")
        | _ => some (resource, "")
  | _ => none

/-- What the pass makes of one element of `resources`: its error, or the resource that is added,
under its name. -/
def checkItem (item : Json) : Option (Except String (String × Resource)) :=
  match item with
  | .object _ =>
      match lib.parse (lib.prettyWrite item) with
      | .error e => some (.error (confFileError ++ " [" ++ e.1 ++ "]"))
      | .ok doc =>
          match checkResource lib doc with
          | none => none
          | some (resource, localError) =>
              if localError = "" then
                (textOf "resource" doc).map fun name => .ok (name, resource)
              else some (.error localError)
  | _ => some (.error (confFileError ++ " [resource is not a JSON object]"))

/-- What one element does to the map and to the error of the pass. -/
def install (s : OrderedMap String Resource × String) :
    Except String (String × Resource) → OrderedMap String Resource × String
  | .error e => (s.1, e)
  | .ok kv => (s.1.insert kv, s.2)

/-- The loop of `check_configuration_json` over the resources. -/
def checkItems : List Json → OrderedMap String Resource × String →
    Option (OrderedMap String Resource × String)
  | [], s => some s
  | item :: items, s =>
      match checkItem lib item with
      | none => none
      | some result => checkItems items (install s result)

/-- The rule of an element of `pep_rules`, if it has its three texts. -/
def pepRule (item : Json) : Option (Option (String × PepRule)) :=
  match item with
  | .object _ => some (match textOf "action" item, textOf "verb" item, textOf "uri" item with
      | some action, some verb, some uri => some (action, ⟨verb, uri⟩)
      | _, _, _ => none)
  | _ => none

/-- The loop over the PEP rules. -/
def addPepRules : List Json → List (String × PepRule) → Option (List (String × PepRule))
  | [], rules => some rules
  | item :: items, rules =>
      match pepRule item with
      | none => none
      | some none => addPepRules items rules
      | some (some rule) => addPepRules items (Multimap.insert rule rules)

/-- `check_configuration_json`: the state after it and the error it returns. -/
def checkConfigurationJson (c : Configurator) : Json → Option (Configurator × String)
  | .object members =>
      let rootFields := members.filter fun m => m.1 ≠ "resources"
      let c := { c with rootFields := some rootFields }
      match members.lookup "resources" with
      | some (.array resources) =>
          match checkItems lib resources (c.resources, "") with
          | none => none
          | some (resources, error) =>
              let c := { c with resources := resources }
              match rootFields.lookup "pep_rules" with
              | some (.array items) =>
                  (addPepRules items c.pepRules).map fun rules =>
                    ({ c with pepRules := rules }, error)
              | _ => some (c, error)
      | _ => some (c, confFileError ++ " [resources is not a JSON array]")
  | _ => some (c, confFileError ++ " [No JSON object]")

/-- `read_file`: the state after it; the error it returns is the state's. -/
def readFile (c : Configurator) (text : String) : Option Configurator :=
  match lib.parse text with
  | .error e => some { c with error :=
      "Configurator: " ++ e.1 ++ "[" ++ toString e.2 ++ "]" }
  | .ok doc =>
      match checkConfigurationJson lib c doc with
      | none => none
      | some (c, error) =>
          some { c with error := error, document := if error = "" then doc else .null }

/-- `update_conf`: the state after it and the text it returns. -/
def updateConf (c : Configurator) (text : String) : Option (Configurator × String) :=
  match readFile lib c text with
  | none => none
  | some c' =>
      if c'.error = "" then some ({ c' with file := lib.prettyWrite c'.document }, "")
      else (readFile lib c' c'.file).map fun c'' => (c'', c'.error)

/-- A fresh configurator over a file, before it has read it. -/
def fresh (file : String) : Configurator where
  file := file
  error := "error, no config file was initializated"
  document := .null
  rootFields := none
  resources := OrderedMap.empty
  pepRules := []

/-- `initialize`, `init`: a fresh configurator reads its file. -/
def init (file : String) : Option Configurator :=
  readFile lib (fresh file) file

/-! ### What a reading does to a state -/

/-- The members of a text and its array of resources, where it has one. -/
def resourceArray (text : String) : Option (List (String × Json) × List Json) :=
  match lib.parse text with
  | .ok (.object members) =>
      match members.lookup "resources" with
      | some (.array items) => some (members, items)
      | _ => none
  | _ => none

/-- The resource that an element adds, under its name. -/
def added (item : Json) : Option (String × Resource) :=
  match checkItem lib item with
  | some (.ok kv) => some kv
  | _ => none

/-- The resources of a text that pass their check. -/
def resourcesIn (text : String) : List (String × Resource) :=
  match resourceArray lib text with
  | some (_, items) => items.filterMap (added lib)
  | none => []

/-- The PEP rules of a text. -/
def pepRulesIn (text : String) : List (String × PepRule) :=
  match resourceArray lib text with
  | some (members, _) =>
      match (members.filter fun m => m.1 ≠ "resources").lookup "pep_rules" with
      | some (.array items) => items.filterMap fun item => (pepRule item).join
      | _ => []
  | none => []

/-- The first-level fields of a text. -/
def rootFieldsIn (text : String) : Option (List (String × Json)) :=
  match lib.parse text with
  | .ok (.object members) => some (members.filter fun m => m.1 ≠ "resources")
  | _ => none

/-- The text is an object with an array of resources, which all pass their check. -/
def Accepted (text : String) : Prop :=
  ∃ members items, resourceArray lib text = some (members, items) ∧
    ∀ item ∈ items, (added lib item).isSome

/-- The state after a reading, by the state before it and the text. -/
structure Reads (text : String) (c c' : Configurator) : Prop where
  file : c'.file = c.file
  rootFields : c'.rootFields = (rootFieldsIn lib text).or c.rootFields
  resources : c'.resources = c.resources.insertAll (resourcesIn lib text)
  pepRules : c'.pepRules = Multimap.insertAll c.pepRules (pepRulesIn lib text)
  error : c'.error = "" ↔ Accepted lib text

variable {lib} {item doc : Json} {items : List Json} {c c' d : Configurator}
  {text file error : String} {s s' : OrderedMap String Resource × String}
  {rules rules' : List (String × PepRule)}

lemma append_ne_empty {a b : String} (h : a ≠ "") : a ++ b ≠ "" := fun he =>
  h (String.append_eq_empty_iff.mp he).1

lemma confFileError_ne : confFileError ≠ "" := by decide

/-- The error of an element is a text. -/
lemma error_ne_of_checkItem (h : checkItem lib item = some (.error error)) : error ≠ "" := by
  unfold checkItem at h
  split at h
  · split at h
    · cases h
      exact append_ne_empty (append_ne_empty (append_ne_empty confFileError_ne))
    · split at h
      · cases h
      · next localError _ =>
          split at h
          · cases hname : textOf "resource" _ <;> rw [hname] at h <;> cases h
          · next hne =>
              cases h
              exact hne
  · cases h
    exact append_ne_empty confFileError_ne

/-- The loop over the resources adds those that pass their check, and its error is empty when
they all do. -/
lemma checkItems_some (h : checkItems lib items s = some s') :
    s'.1 = s.1.insertAll (items.filterMap (added lib)) ∧
    (s'.2 = "" ↔ s.2 = "" ∧ ∀ item ∈ items, (added lib item).isSome) := by
  induction items generalizing s with
  | nil =>
      cases h
      exact ⟨rfl, by simp⟩
  | cons item items ih =>
      rw [checkItems] at h
      cases hitem : checkItem lib item with
      | none => rw [hitem] at h; cases h
      | some result =>
          rw [hitem] at h
          obtain ⟨hmap, herr⟩ := ih h
          cases result with
          | error e =>
              have hnone : added lib item = none := by rw [added, hitem]
              refine ⟨by rw [List.filterMap_cons_none hnone]; exact hmap, ?_⟩
              rw [herr]
              simp [install, hnone, error_ne_of_checkItem hitem]
          | ok kv =>
              have hsome : added lib item = some kv := by rw [added, hitem]
              refine ⟨by rw [List.filterMap_cons_some hsome]; exact hmap, ?_⟩
              rw [herr]
              simp [install, hsome]

lemma isSome_checkItems :
    (checkItems lib items s).isSome = items.all fun item => (checkItem lib item).isSome := by
  induction items generalizing s with
  | nil => rfl
  | cons item items ih =>
      rw [checkItems, List.all_cons]
      cases checkItem lib item with
      | none => rfl
      | some result => exact ih

lemma addPepRules_some (h : addPepRules items rules = some rules') :
    rules' = Multimap.insertAll rules (items.filterMap fun item => (pepRule item).join) := by
  induction items generalizing rules with
  | nil => cases h; rfl
  | cons item items ih =>
      rw [addPepRules] at h
      rw [List.filterMap_cons]
      cases hitem : pepRule item with
      | none => rw [hitem] at h; cases h
      | some rule =>
          rw [hitem] at h
          cases rule with
          | none => exact ih h
          | some rule => exact ih h

lemma isSome_addPepRules :
    (addPepRules items rules).isSome = items.all fun item => (pepRule item).isSome := by
  induction items generalizing rules with
  | nil => rfl
  | cons item items ih =>
      rw [addPepRules, List.all_cons]
      cases pepRule item with
      | none => rfl
      | some rule => cases rule <;> exact ih

/-- The pass finishes on a document, or stops at an assertion, whatever the state. -/
lemma isSome_checkConfigurationJson :
    (checkConfigurationJson lib c doc).isSome = (checkConfigurationJson lib d doc).isSome := by
  unfold checkConfigurationJson
  split
  · next members =>
      dsimp only
      split
      · next items _ =>
          have heq : (checkItems lib items (c.resources, "")).isSome =
              (checkItems lib items (d.resources, "")).isSome := by
            rw [isSome_checkItems, isSome_checkItems]
          cases hc : checkItems lib items (c.resources, "") <;>
            cases hd : checkItems lib items (d.resources, "") <;> rw [hc, hd] at heq
          · cases heq
          · cases heq
          · dsimp only
            split
            · rw [Option.isSome_map, Option.isSome_map, isSome_addPepRules, isSome_addPepRules]
            · rfl
      · rfl
  · rfl

lemma isSome_readFile : (readFile lib c text).isSome = (readFile lib d text).isSome := by
  unfold readFile
  split
  · rfl
  · next doc _ =>
      have heq : (checkConfigurationJson lib c doc).isSome =
        (checkConfigurationJson lib d doc).isSome := isSome_checkConfigurationJson
      cases hc : checkConfigurationJson lib c doc <;>
        cases hd : checkConfigurationJson lib d doc <;> rw [hc, hd] at heq
      · cases heq
      · cases heq
      · rfl

variable (c error) in
/-- A text without an array of resources is not accepted, and adds nothing. -/
lemma reads_of_resourceArray_eq_none (document : Json) {root : Option (List (String × Json))}
    (hroot : rootFieldsIn lib text = root) (harray : resourceArray lib text = none)
    (herror : error ≠ "") :
    Reads lib text c { c with
      rootFields := root.or c.rootFields
      error := error
      document := document } where
  file := rfl
  rootFields := by rw [hroot]
  resources := by rw [resourcesIn, harray]; rfl
  pepRules := by rw [pepRulesIn, harray]; rfl
  error := by
    refine iff_of_false herror ?_
    rintro ⟨members, items, h, -⟩
    rw [harray] at h
    cases h

lemma reads_of_resourceArray {members : List (String × Json)} {document : Json}
    {resources : OrderedMap String Resource}
    (harray : resourceArray lib text = some (members, items))
    (hroot : rootFieldsIn lib text = some (members.filter fun m => m.1 ≠ "resources"))
    (hitems : checkItems lib items (c.resources, "") = some (resources, error))
    (hrules : rules = Multimap.insertAll c.pepRules (pepRulesIn lib text)) :
    Reads lib text c { c with
      rootFields := some (members.filter fun m => m.1 ≠ "resources")
      resources := resources
      pepRules := rules
      error := error
      document := document } where
  file := rfl
  rootFields := by rw [hroot]; rfl
  resources := by
    rw [resourcesIn, harray]
    exact (checkItems_some hitems).1
  pepRules := hrules
  error := by
    constructor
    · intro h
      exact ⟨members, items, harray, ((checkItems_some hitems).2.mp h).2⟩
    · rintro ⟨members', items', harray', hadded⟩
      rw [harray] at harray'
      cases harray'
      exact (checkItems_some hitems).2.mpr ⟨rfl, hadded⟩

lemma reads_of_checkConfigurationJson (he : lib.parse text = .ok doc)
    (h : checkConfigurationJson lib c doc = some (c', error)) (document : Json) :
    Reads lib text c { c' with error := error, document := document } := by
  unfold checkConfigurationJson at h
  split at h
  · next members =>
      have hroot : rootFieldsIn lib text = some (members.filter fun m => m.1 ≠ "resources") := by
        rw [rootFieldsIn, he]
      dsimp only at h
      split at h
      · next items hlookup =>
          have harray : resourceArray lib text = some (members, items) := by
            rw [resourceArray, he]
            dsimp only
            rw [hlookup]
          split at h
          · cases h
          · next resources error' hitems =>
              split at h
              · next rules hrules =>
                  obtain ⟨rules', hadd, hc⟩ := Option.map_eq_some_iff.mp h
                  cases hc
                  refine reads_of_resourceArray harray hroot hitems ?_
                  rw [addPepRules_some hadd, pepRulesIn, harray]
                  dsimp only
                  rw [hrules]
              · next hrules =>
                  cases h
                  refine reads_of_resourceArray harray hroot hitems ?_
                  rw [pepRulesIn, harray]
                  dsimp only
                  split
                  · next rules hsome => exact absurd hsome (hrules rules)
                  · rfl
      · next hlookup =>
          cases h
          have harray : resourceArray lib text = none := by
            rw [resourceArray, he]
            dsimp only
            split
            · next items hsome => exact absurd hsome (hlookup items)
            · rfl
          exact reads_of_resourceArray_eq_none c
            (confFileError ++ " [resources is not a JSON array]") document hroot harray
            (append_ne_empty confFileError_ne)
  · next hobject =>
      cases h
      have hroot : rootFieldsIn lib text = none := by
        rw [rootFieldsIn, he]
        split
        · next members hok => cases hok; exact absurd rfl (hobject members)
        · rfl
      have harray : resourceArray lib text = none := by
        rw [resourceArray, he]
        split
        · next members hok => cases hok; exact absurd rfl (hobject members)
        · rfl
      exact reads_of_resourceArray_eq_none c (confFileError ++ " [No JSON object]") document
        hroot harray (append_ne_empty confFileError_ne)

/-- What a reading does to a state. -/
theorem reads_of_readFile (h : readFile lib c text = some c') : Reads lib text c c' := by
  unfold readFile at h
  split at h
  · next e he =>
      cases h
      have hroot : rootFieldsIn lib text = none := by rw [rootFieldsIn, he]
      have harray : resourceArray lib text = none := by rw [resourceArray, he]
      exact reads_of_resourceArray_eq_none c
        ("Configurator: " ++ e.1 ++ "[" ++ toString e.2 ++ "]") c.document hroot harray
        (append_ne_empty (append_ne_empty (append_ne_empty (append_ne_empty (by decide)))))
  · next doc he =>
      split at h
      · cases h
      · next c₁ error hcheck =>
          cases h
          exact reads_of_checkConfigurationJson he hcheck _

/-! ### The update -/

/-- What a configurator has in memory. -/
def memory (c : Configurator) :
    Option (List (String × Json)) × OrderedMap String Resource × List (String × PepRule) :=
  (c.rootFields, c.resources, c.pepRules)

lemma memory_eq_iff : memory c = memory d ↔
    c.rootFields = d.rootFields ∧ c.resources = d.resources ∧ c.pepRules = d.pepRules := by
  simp only [memory, Prod.mk.injEq]

variable (lib) in
/-- An update that succeeds leaves what a fresh configurator has that reads the text, and one
that reports an error leaves what was there. -/
def Atomic (c : Configurator) (text : String) : Prop :=
  ∀ c' error, updateConf lib c text = some (c', error) →
    (error = "" → (init lib text).map memory = some (memory c')) ∧
    (error ≠ "" → memory c' = memory c)

variable (lib) in
/-- Nothing of an update of the file by the text shows that should not: the file has no PEP rules,
an accepted text has every resource of the file as it stands there, and a text that is not
accepted has no PEP rules and no resources but those of the file. -/
structure Harmless (file text : String) : Prop where
  noRules : pepRulesIn lib file = []
  kept : Accepted lib text → ∀ name resource,
    (OrderedMap.ofList (resourcesIn lib file)).get name = some resource →
      (OrderedMap.ofList (resourcesIn lib text)).get name = some resource
  rejected : ¬ Accepted lib text → pepRulesIn lib text = [] ∧
    ∀ name, ((OrderedMap.ofList (resourcesIn lib text)).get name).isSome →
      ((OrderedMap.ofList (resourcesIn lib file)).get name).isSome

lemma rootFieldsIn_of_accepted (h : Accepted lib text) : (rootFieldsIn lib text).isSome := by
  obtain ⟨members, items, harray, -⟩ := h
  unfold resourceArray at harray
  rw [rootFieldsIn]
  split at harray
  · rfl
  · cases harray

/-- After a first reading, a configurator has what its file says. -/
lemma memory_of_init (h : init lib file = some c) :
    c.file = file ∧ c.rootFields = rootFieldsIn lib file ∧
      c.resources = OrderedMap.ofList (resourcesIn lib file) ∧
      c.pepRules = Multimap.insertAll [] (pepRulesIn lib file) := by
  have hread := reads_of_readFile h
  exact ⟨hread.file, hread.rootFields.trans Option.or_none, hread.resources, hread.pepRules⟩

/-- An accepted text: what is there after the update is what the text says exactly when nothing
of the file shows. -/
lemma memory_eq_init_iff (hc : init lib file = some c) (hread : Reads lib text c c')
    (haccepted : Accepted lib text) (hd : init lib text = some d) :
    memory d = memory c' ↔ Harmless lib file text := by
  obtain ⟨-, -, hres, hrules⟩ := memory_of_init hc
  obtain ⟨-, hdroot, hdres, hdrules⟩ := memory_of_init hd
  obtain ⟨fields, hfields⟩ := Option.isSome_iff_exists.mp (rootFieldsIn_of_accepted haccepted)
  have hrules' : c'.pepRules = d.pepRules ↔ pepRulesIn lib file = [] := by
    rw [hread.pepRules, hrules, hdrules, Multimap.insertAll_eq_iff,
      Multimap.insertAll_eq_self_iff]
  have hres' : c'.resources = d.resources ↔ ∀ name resource,
      (OrderedMap.ofList (resourcesIn lib file)).get name = some resource →
        (OrderedMap.ofList (resourcesIn lib text)).get name = some resource := by
    rw [hread.resources, hres, hdres, OrderedMap.insertAll_eq_ofList_iff]
    simp only [OrderedMap.get_ofList]
  rw [eq_comm, memory_eq_iff, hread.rootFields, hdroot, hfields, hres', hrules']
  constructor
  · rintro ⟨-, hkept, hnone⟩
    exact ⟨hnone, fun _ => hkept, fun h => absurd haccepted h⟩
  · intro h
    exact ⟨rfl, h.kept haccepted, h.noRules⟩

/-- A text that is not accepted: reading the file again gives back what was there exactly when
nothing came in with the text, and the file's own rules are not added twice. -/
lemma memory_eq_iff_of_rejected {c'' : Configurator} (hc : init lib file = some c)
    (haccepted : Accepted lib file) (hread : Reads lib text c c') (hreload : Reads lib file c' c'')
    (hrejected : ¬ Accepted lib text) : memory c'' = memory c ↔ Harmless lib file text := by
  obtain ⟨-, hroot, hres, hrules⟩ := memory_of_init hc
  obtain ⟨fields, hfields⟩ := Option.isSome_iff_exists.mp (rootFieldsIn_of_accepted haccepted)
  have hrules' : c''.pepRules = c.pepRules ↔
      pepRulesIn lib file = [] ∧ pepRulesIn lib text = [] := by
    rw [hreload.pepRules, hread.pepRules, ← Multimap.insertAll_append,
      Multimap.insertAll_eq_self_iff, List.append_eq_nil_iff, and_comm]
  have hres' : c''.resources = c.resources ↔ ∀ name,
      ((OrderedMap.ofList (resourcesIn lib text)).get name).isSome →
        ((OrderedMap.ofList (resourcesIn lib file)).get name).isSome := by
    rw [hreload.resources, hread.resources, hres, OrderedMap.insertAll_insertAll_ofList,
      OrderedMap.insertAll_eq_self_iff]
    simp only [OrderedMap.get_ofList]
  rw [memory_eq_iff, hreload.rootFields, hroot, hfields, hres', hrules']
  constructor
  · rintro ⟨-, hnames, hfile, htext⟩
    exact ⟨hfile, fun h => absurd h hrejected, fun _ => ⟨htext, hnames⟩⟩
  · intro h
    exact ⟨rfl, (h.rejected hrejected).2, h.noRules, (h.rejected hrejected).1⟩

/-- **The atomic updates**: an update of a configurator that has read a valid file is atomic
exactly when nothing of the file or of a rejected text shows in it. -/
theorem atomic_iff {result : Configurator × String} (hc : init lib file = some c)
    (hvalid : c.error = "") (hupdate : updateConf lib c text = some result) :
    Atomic lib c text ↔ Harmless lib file text := by
  obtain ⟨last, error⟩ := result
  have haccepted : Accepted lib file := (reads_of_readFile hc).error.mp hvalid
  have hatomic : Atomic lib c text ↔
      (error = "" → (init lib text).map memory = some (memory last)) ∧
      (error ≠ "" → memory last = memory c) := by
    refine ⟨fun h => h last error hupdate, fun h c' error' h' => ?_⟩
    rw [hupdate] at h'
    cases h'
    exact h
  rw [hatomic]
  unfold updateConf at hupdate
  split at hupdate
  · cases hupdate
  · next c' hread =>
      have hreads := reads_of_readFile hread
      split at hupdate
      · next herror =>
          cases hupdate
          have hsome : (init lib text).isSome := by
            rw [init, isSome_readFile (d := c), hread]
            rfl
          obtain ⟨d, hd⟩ := Option.isSome_iff_exists.mp hsome
          have hiff := memory_eq_init_iff hc hreads (hreads.error.mp herror) hd
          rw [hd, Option.map_some, Option.some_inj]
          exact ⟨fun h => hiff.mp (h.1 rfl),
            fun h => ⟨fun _ => hiff.mpr h, fun hne => absurd rfl hne⟩⟩
      · next herror =>
          obtain ⟨c'', hreload, hpair⟩ := Option.map_eq_some_iff.mp hupdate
          cases hpair
          rw [hreads.file, (memory_of_init hc).1] at hreload
          have hiff := memory_eq_iff_of_rejected hc haccepted hreads (reads_of_readFile hreload)
            fun h => herror (hreads.error.mpr h)
          exact ⟨fun h => hiff.mp (h.2 herror), fun h => ⟨fun he => absurd he herror,
            fun _ => hiff.mpr h⟩⟩

end Library

/-! ### A file with a rule, and one without -/

/-- A new line of `PrettyWriter`. -/
def newline (level : ℕ) : String :=
  "\n" ++ String.ofList (List.replicate (4 * level) ' ')

mutual

/-- `PrettyWriter`, for texts in which nothing has to be escaped. -/
def prettyText (level : ℕ) : Json → String
  | .null => "null"
  | .bool b => if b then "true" else "false"
  | .number text => text
  | .string s => "\"" ++ s ++ "\""
  | .array items => "[" ++ prettyItems (level + 1) "" items ++
      (if items.isEmpty then "" else newline level) ++ "]"
  | .object members => "\x7b" ++ prettyMembers (level + 1) "" members ++
      (if members.isEmpty then "" else newline level) ++ "\x7d"

def prettyItems (level : ℕ) (separator : String) : List Json → String
  | [] => ""
  | item :: items => separator ++ newline level ++ prettyText level item ++
      prettyItems level "," items

def prettyMembers (level : ℕ) (separator : String) : List (String × Json) → String
  | [] => ""
  | (name, v) :: members => separator ++ newline level ++ "\"" ++ name ++ "\": " ++
      prettyText level v ++ prettyMembers level "," members

end

/-- The library on the texts of some values. -/
def libOf (values : List Json) : ConfLib where
  parse text := match values.find? fun v => prettyText 0 v = text with
    | some v => .ok v
    | none => .error ("Expect either an object or array at root", 0)
  prettyWrite := prettyText 0

/-- A configuration without resources, and with one PEP rule. -/
def oneRule : Json :=
  .object [("resources", .array []),
    ("pep_rules", .array [.object [("action", .string "read"), ("verb", .string "GET"),
      ("uri", .string "/iot/devices")]])]

/-- Resources without services, and a configuration without rules. -/
def bareResource (name : String) : Json := .object [("resource", .string name)]

def bareResources (names : List String) : Json :=
  .object [("resources", .array (names.map bareResource))]

/-- The library on these values. -/
def bareTexts : ConfLib :=
  libOf [oneRule, bareResources ["/iot/d"], bareResources ["/iot/d", "/iot/e"],
    bareResource "/iot/d", bareResource "/iot/e"]

/-- The update of a file with a rule by its own text has the rule twice. -/
theorem not_atomic_same_text : ¬ ∀ (lib : ConfLib) (file text : String) (c : Configurator),
    init lib file = some c → c.error = "" → Atomic lib c text := by
  intro h
  have hinit : (init bareTexts (prettyText 0 oneRule)).map (fun c => (c.error, c.pepRules.length)) =
      some ("", 1) := by decide +kernel
  have hupdate : ((init bareTexts (prettyText 0 oneRule)).bind fun c =>
      (updateConf bareTexts c (prettyText 0 oneRule))).map (fun r => (r.2, r.1.pepRules.length)) =
      some ("", 2) := by decide +kernel
  obtain ⟨c, hc, hfirst⟩ := Option.map_eq_some_iff.mp hinit
  rw [hc, Option.bind_some] at hupdate
  obtain ⟨⟨c', error⟩, hresult, htwice⟩ := Option.map_eq_some_iff.mp hupdate
  have hfresh := (h bareTexts (prettyText 0 oneRule) (prettyText 0 oneRule) c hc
    (congrArg Prod.fst hfirst) c' error hresult).1 (congrArg Prod.fst htwice)
  rw [hc, Option.map_some, Option.some_inj] at hfresh
  have hlength : c.pepRules.length = c'.pepRules.length :=
    congrArg List.length (memory_eq_iff.mp hfresh).2.2
  rw [show c.pepRules.length = 1 from congrArg Prod.snd hfirst,
    show c'.pepRules.length = 2 from congrArg Prod.snd htwice] at hlength
  cases hlength

/-- Without rules an update by a text with another resource is atomic. -/
theorem atomic_twoResources : ∃ c,
    init bareTexts (prettyText 0 (bareResources ["/iot/d"])) = some c ∧
    Atomic bareTexts c (prettyText 0 (bareResources ["/iot/d", "/iot/e"])) := by
  have hinit : (init bareTexts (prettyText 0 (bareResources ["/iot/d"]))).map
      (fun c => c.error) = some "" := by decide +kernel
  have hupdate : ((init bareTexts (prettyText 0 (bareResources ["/iot/d"]))).bind fun c =>
      (updateConf bareTexts c (prettyText 0 (bareResources ["/iot/d", "/iot/e"])))).isSome := by
    decide +kernel
  obtain ⟨c, hc, herror⟩ := Option.map_eq_some_iff.mp hinit
  rw [hc, Option.bind_some] at hupdate
  obtain ⟨result, hresult⟩ := Option.isSome_iff_exists.mp hupdate
  have hrules : pepRulesIn bareTexts (prettyText 0 (bareResources ["/iot/d"])) = [] := by
    decide +kernel
  have hkept : ∀ e ∈ resourcesIn bareTexts (prettyText 0 (bareResources ["/iot/d"])),
      (OrderedMap.ofList (resourcesIn bareTexts
        (prettyText 0 (bareResources ["/iot/d", "/iot/e"])))).get e.1 = some e.2 := by
    decide +kernel
  have harray : resourceArray bareTexts (prettyText 0 (bareResources ["/iot/d", "/iot/e"])) =
      some ([("resources", .array [bareResource "/iot/d", bareResource "/iot/e"])],
        [bareResource "/iot/d", bareResource "/iot/e"]) := by decide +kernel
  have hadded : ∀ item ∈ [bareResource "/iot/d", bareResource "/iot/e"],
      (added bareTexts item).isSome := by decide +kernel
  refine ⟨c, hc, (atomic_iff hc herror hresult).mpr ⟨hrules, fun _ name resource hget => ?_,
    fun hnot => absurd ⟨_, _, harray, hadded⟩ hnot⟩⟩
  rw [OrderedMap.get_ofList] at hget
  exact hkept (name, resource) (OrderedMap.mem_of_lookup hget)

end Configurator

end IotAgent
