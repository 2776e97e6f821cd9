import IotAgent.Ngsi.Landing

/-!
Static attributes in an element (`src/ngsi/ContextElement.cc`, and `send_update_context` of
`src/rest/rest_handle.cc`).

`set_env_info` adds the static attributes of the device each time that it is called, and those
of the service unless the element has one of that name. `send_update_context` calls it once for
each measure, on the same element.

* `deviceStatics`, `serviceStatics`, `statics`: the static attributes of an element;
* `setEnvInfo_attributes`: what one call of `set_env_info` adds;
* `sentElement`: the element that `send_update_context` sends;
* `AllOnce`, `TurnsFit`: that each static attribute is there once, and the condition for it;
* `staticsOnce_iff`: the two agree.
-/

namespace IotAgent

namespace EnvElement

/-! ### Static attributes -/

/-- The attribute of a text. -/
def staticOf (lib : JsonLib) (text : String) : Option FullAttribute :=
  (lib.parse text).bind fun d => (FullAttribute.ofJson lib.write d).toOption

/-- A static attribute as it is added. -/
def stamp (timestamp : String) (att : FullAttribute) : FullAttribute :=
  (att.addMetadata (timeInstant timestamp)).withDefaultType

/-- The static attributes of a device. -/
def deviceStatics (lib : JsonLib) (device : Option Device) : List FullAttribute :=
  (((device.map Device.staticAttributes).getD []).map Prod.snd).filterMap (staticOf lib)

/-- The static attributes of a service. -/
def serviceStatics (lib : JsonLib) (service : ServiceInfo) : List FullAttribute :=
  service.staticAttributes.filterMap fun v => staticOf lib v.json

/-- What the schema of a service lets through: a static attribute has a name and a value, and
the name is an identifier, which its text has too. -/
structure Valid (lib : JsonLib) (v : ServiceStatic) : Prop where
  name : v.name ≠ ""
  value : v.value ≠ ""
  text : ∀ att ∈ staticOf lib v.json, att.name = v.name

/-- The names of attributes. -/
def namesOf (l : List FullAttribute) : List String := l.map fun att => att.name

section Statics

variable {lib : JsonLib} {e e' : EnvElement} {timestamp : String} {att : FullAttribute}

@[simp] lemma stamp_name : (stamp timestamp att).name = att.name := withDefaultType_name

lemma stamp_eq : stamp timestamp att
    = { att.withDefaultType with metadatas := att.metadatas ++ [timeInstant timestamp] } :=
  withDefaultType_withMetadatas att _

lemma stamp_isEmptyValue :
    (stamp timestamp att).isEmptyValue = att.withDefaultType.isEmptyValue := by
  rw [stamp_eq]
  rfl

lemma settled_stamp {mapping : String → Mapping} :
    Settled mapping (stamp timestamp att) ↔ Settled mapping att.withDefaultType := by
  rw [Settled, Settled, stamp_isEmptyValue, stamp_name, withDefaultType_name]

lemma existsName_iff {name : String} : e.existsName name = true ↔ name ∈ namesOf e.attributes := by
  simp [existsName, namesOf]

/-- A text adds its static attribute, if it has one. -/
lemma addStatic_eq {text : String}
    (hset : ∀ att ∈ staticOf lib text, Settled (e.mapping lib) att.withDefaultType)
    (hadd : addStatic lib timestamp e text = .ok e') :
    e'.attributes = e.attributes ++ (staticOf lib text).toList.map (stamp timestamp) := by
  rw [addStatic] at hadd
  cases hparse : lib.parse text with
  | none =>
      rw [hparse] at hadd
      cases hadd
      simp [staticOf, hparse]
  | some d =>
      rw [hparse] at hadd
      cases hof : FullAttribute.ofJson lib.write d with
      | error failure => simp only [hof] at hadd; cases hadd
      | ok att =>
          have hstatic : staticOf lib text = some att := by
            simp [staticOf, hparse, hof, Except.toOption]
          have hplain := hset att hstatic
          simp only [hof] at hadd
          rw [add_of_settled (settled_stamp.mpr hplain)] at hadd
          cases hadd
          rw [hstatic]
          rfl

/-- The static attributes of a device are added, all of them. -/
lemma addStatics_eq {texts : List String}
    (hset : ∀ att ∈ texts.filterMap (staticOf lib), Settled (e.mapping lib) att.withDefaultType)
    (hadd : texts.foldlM (addStatic lib timestamp) e = .ok e') :
    e'.attributes = e.attributes ++ (texts.filterMap (staticOf lib)).map (stamp timestamp) := by
  induction texts generalizing e with
  | nil =>
      cases hadd
      simp
  | cons text texts ih =>
      rw [List.foldlM_cons] at hadd
      obtain ⟨e₁, hfirst, hadd⟩ := Attempts.bind_eq_ok_iff.mp hadd
      have hmap : e₁.mapping lib = e.mapping lib := (addStatic_grows hfirst).1.mapping
      rw [List.filterMap_eq_flatMap_toList, List.flatMap_cons] at hset ⊢
      have hone := addStatic_eq
        (fun att hatt => hset att (List.mem_append_left _ (Option.mem_toList.mpr hatt))) hfirst
      rw [← List.filterMap_eq_flatMap_toList] at hset ⊢
      rw [ih (fun att hatt => by rw [hmap]; exact hset att (List.mem_append_right _ hatt)) hadd,
        hone, List.append_assoc, List.map_append]

lemma namesOf_append (l l' : List FullAttribute) : namesOf (l ++ l') = namesOf l ++ namesOf l' :=
  List.map_append

@[simp] lemma namesOf_map_stamp (l : List FullAttribute) :
    namesOf (l.map (stamp timestamp)) = namesOf l := by
  simp [namesOf, Function.comp_def]

/-- The attributes whose names an element does not have. -/
def missing (e : EnvElement) (l : List FullAttribute) : List FullAttribute :=
  l.filter fun att => att.name ∉ namesOf e.attributes

lemma mem_missing {l : List FullAttribute} :
    att ∈ missing e l ↔ att ∈ l ∧ att.name ∉ namesOf e.attributes := by
  simp [missing]

/-- A static attribute of a service is added unless its name is there. -/
lemma addServiceStatic_eq {v : ServiceStatic} (hvalid : Valid lib v)
    (hset : ∀ att ∈ staticOf lib v.json, att.name ∉ namesOf e.attributes →
      Settled (e.mapping lib) att.withDefaultType)
    (hadd : addServiceStatic lib timestamp e v = .ok e') :
    e'.attributes
      = e.attributes ++ (missing e (staticOf lib v.json).toList).map (stamp timestamp) := by
  rw [addServiceStatic] at hadd
  by_cases hthere : v.name ∈ namesOf e.attributes
  · rw [if_neg (by simp [existsName_iff.mpr hthere])] at hadd
    cases hadd
    have hnone : missing e (staticOf lib v.json).toList = [] := by
      refine List.filter_eq_nil_iff.mpr fun att hatt => ?_
      simpa [hvalid.text att (Option.mem_toList.mp hatt)] using hthere
    rw [hnone, List.map_nil, List.append_nil]
  · have hnot : e.existsName v.name = false := by
      rw [Bool.eq_false_iff, ne_eq, existsName_iff]
      exact hthere
    have hname : ∀ att ∈ staticOf lib v.json, att.name ∉ namesOf e.attributes := fun att hatt => by
      rwa [hvalid.text att hatt]
    rw [if_pos ⟨hvalid.name, hnot, hvalid.value⟩] at hadd
    have hall : missing e (staticOf lib v.json).toList = (staticOf lib v.json).toList := by
      refine List.filter_eq_self.mpr fun att hatt => ?_
      simpa using hname att (Option.mem_toList.mp hatt)
    rw [hall]
    exact addStatic_eq (fun att hatt => hset att hatt (hname att hatt)) hadd

/-- Static attributes of a service of different names are added unless their names are there. -/
lemma addServiceStatics_eq {vs : List ServiceStatic} (hvalid : ∀ v ∈ vs, Valid lib v)
    (hnodup : (namesOf (vs.filterMap fun v => staticOf lib v.json)).Nodup)
    (hset : ∀ att ∈ vs.filterMap fun v => staticOf lib v.json, att.name ∉ namesOf e.attributes →
      Settled (e.mapping lib) att.withDefaultType)
    (hadd : vs.foldlM (addServiceStatic lib timestamp) e = .ok e') :
    e'.attributes = e.attributes
      ++ (missing e (vs.filterMap fun v => staticOf lib v.json)).map (stamp timestamp) := by
  induction vs generalizing e with
  | nil =>
      cases hadd
      simp [missing]
  | cons v vs ih =>
      rw [List.foldlM_cons] at hadd
      obtain ⟨e₁, hfirst, hadd⟩ := Attempts.bind_eq_ok_iff.mp hadd
      have hmap : e₁.mapping lib = e.mapping lib := (addServiceStatic_grows hfirst).1.mapping
      rw [List.filterMap_eq_flatMap_toList, List.flatMap_cons,
        ← List.filterMap_eq_flatMap_toList] at hset hnodup ⊢
      rw [namesOf_append, List.nodup_append] at hnodup
      obtain ⟨-, hnodup, hapart⟩ := hnodup
      have hone := addServiceStatic_eq (hvalid v List.mem_cons_self)
        (fun att hatt => hset att (List.mem_append_left _ (Option.mem_toList.mpr hatt))) hfirst
      -- the names behind it are not those that it adds
      have hsame : missing e₁ (vs.filterMap fun v => staticOf lib v.json)
          = missing e (vs.filterMap fun v => staticOf lib v.json) := by
        refine List.filter_congr fun att hatt => ?_
        have hnot : att.name ∉ namesOf (missing e (staticOf lib v.json).toList) := fun hmem =>
          hapart _ ((List.Sublist.map _ List.filter_sublist).subset hmem) _
            (List.mem_map_of_mem hatt) rfl
        simp only [hone, namesOf_append, namesOf_map_stamp, List.mem_append, or_iff_left hnot]
      have hrest := ih (fun w hw => hvalid w (List.mem_cons_of_mem _ hw)) hnodup
        (fun att hatt hthere => by
          rw [hmap]
          have hmem := mem_missing.mpr ⟨hatt, hthere⟩
          rw [hsame] at hmem
          exact hset att (List.mem_append_right _ hatt) (mem_missing.mp hmem).2) hadd
      rw [hrest, hsame, hone, missing, missing, missing, List.filter_append, List.map_append,
        List.append_assoc]

end Statics

/-! ### The element that is sent -/

section Turns

variable (lib : JsonLib) (service : ServiceInfo) (device : Option Device)

/-- The mappings of a device and its service. -/
def envMapping : String → Mapping :=
  mapping lib ⟨"", "", "", [], device, service⟩

/-- The static attributes that an element is to have: one of the device comes before that of
the service. -/
def statics : List FullAttribute :=
  deviceStatics lib device ++
    (serviceStatics lib service).filter fun att => att.name ∉ namesOf (deviceStatics lib device)

/-- `set_env_info` at a time, and attributes that are added after it. -/
def turn (e : EnvElement) (t : String × List FullAttribute) : Except Stop EnvElement := do
  let e ← e.setEnvInfo lib service device t.1
  t.2.foldlM (add lib) e

/-- The element that `send_update_context` sends. -/
def sentElement (deviceId dateToCb : String) (timestamp : ℕ → String)
    (attributes : List FullAttribute) : Except Stop EnvElement :=
  attributes.zipIdx.foldlM
    (fun ngsiContextElement it => do
      let att := it.1.addMetadata (timeInstant dateToCb)
      let ngsiContextElement ← ngsiContextElement.setEnvInfo lib service device (timestamp it.2)
      ngsiContextElement.add lib att)
    (ofTexts deviceId "" "false")

/-- What the administration lets through: static attributes of different names on each level,
and those of the service with a name and a value. -/
structure SoundStatics : Prop where
  valid : ∀ v ∈ service.staticAttributes, Valid lib v
  device : (namesOf (deviceStatics lib device)).Nodup
  service : (namesOf (serviceStatics lib service)).Nodup

/-- The static attributes have values, and their names no mappings. -/
def StaticsSettled : Prop :=
  ∀ att ∈ statics lib service device,
    Settled (envMapping lib service device) att.withDefaultType

/-- The element has each static attribute once. -/
def AllOnce (e : EnvElement) : Prop :=
  ∀ att ∈ statics lib service device, ∃ timestamp, e.named att.name = [stamp timestamp att]

/-- The static attributes have values and no mappings, an attribute that is added lands under no
name of theirs, and `set_env_info` is called: once if the device has static attributes. -/
structure TurnsFit (turns : List (String × List FullAttribute)) : Prop where
  settled : StaticsSettled lib service device
  some : turns ≠ []
  one : deviceStatics lib device ≠ [] → turns.length = 1
  apart : ∀ t ∈ turns, ∀ attr ∈ t.2, ∀ att ∈ statics lib service device,
    ¬ Lands (envMapping lib service device) attr att.name

variable {lib service device} {e e' : EnvElement} {timestamp : String}

/-- The static attributes of the device come first, and then those of the service. -/
lemma setEnvInfo_steps (hset : e.setEnvInfo lib service device timestamp = .ok e') :
    ∃ e₀ e₁, e₀.attributes = e.attributes ∧ e₀.mapping lib = envMapping lib service device ∧
      (((device.map Device.staticAttributes).getD []).map Prod.snd).foldlM
        (addStatic lib timestamp) e₀ = .ok e₁ ∧
      service.staticAttributes.foldlM (addServiceStatic lib timestamp) e₁ = .ok e' := by
  rw [setEnvInfo] at hset
  obtain ⟨e₁, hfirst, hset⟩ := Attempts.bind_eq_ok_iff.mp hset
  refine ⟨{ e with serviceInfo := service, deviceInfo := device }.format, e₁,
    format_attributes, ?_, hfirst, hset⟩
  have hsame : SameInfo { e with serviceInfo := service, deviceInfo := device }
      { e with serviceInfo := service, deviceInfo := device }.format := format_sameInfo
  rw [hsame.mapping]
  rfl

/-- The element is under its new mappings, and has grown. -/
lemma setEnvInfo_grows (hset : e.setEnvInfo lib service device timestamp = .ok e') :
    e'.mapping lib = envMapping lib service device ∧
      ∃ l, e'.attributes = e.attributes ++ l ∧
        ∀ att ∈ l, Settled (envMapping lib service device) att := by
  obtain ⟨e₀, e₁, hattr, hmap, hfirst, hsecond⟩ := setEnvInfo_steps hset
  obtain ⟨hsame, l, hl, hsettled⟩ := (foldlM_grows (fun _ _ _ => addStatic_grows) hfirst).trans
    (foldlM_grows (fun _ _ _ => addServiceStatic_grows) hsecond)
  rw [hmap] at hsettled
  exact ⟨hsame.mapping.trans hmap, l, by rw [hl, hattr], hsettled⟩

/-- What one call adds: all static attributes of the device, and those of the service that are
not there. -/
lemma setEnvInfo_attributes (hsound : SoundStatics lib service device)
    (hsettled : StaticsSettled lib service device)
    (hset : e.setEnvInfo lib service device timestamp = .ok e') :
    e'.attributes = e.attributes ++ (deviceStatics lib device ++
      (serviceStatics lib service).filter fun att =>
        att.name ∉ namesOf e.attributes ++ namesOf (deviceStatics lib device)).map
          (stamp timestamp) := by
  obtain ⟨e₀, e₁, hattr, hmap, hfirst, hsecond⟩ := setEnvInfo_steps hset
  have hdevice : e₁.attributes
      = e.attributes ++ (deviceStatics lib device).map (stamp timestamp) := by
    rw [← hattr]
    refine addStatics_eq (fun att hatt => ?_) hfirst
    rw [hmap]
    exact hsettled att (List.mem_append_left _ hatt)
  have hnames : namesOf e₁.attributes
      = namesOf e.attributes ++ namesOf (deviceStatics lib device) := by
    rw [hdevice, namesOf_append, namesOf_map_stamp]
  have hmap₁ : e₁.mapping lib = envMapping lib service device :=
    (foldlM_grows (fun _ _ _ => addStatic_grows) hfirst).1.mapping.trans hmap
  have hservice := addServiceStatics_eq hsound.valid hsound.service (fun att hatt hthere => by
    rw [hmap₁]
    refine hsettled att (List.mem_append_right _ (List.mem_filter.mpr ⟨hatt, ?_⟩))
    rw [hnames, List.mem_append, not_or] at hthere
    simpa using hthere.2) hsecond
  rw [hservice, missing, hnames, hdevice, List.append_assoc, List.map_append]
  rfl

/-! ### One call after the other -/

/-- A run of calls, with what is added after each. -/
def run (lib : JsonLib) (service : ServiceInfo) (device : Option Device) (e : EnvElement)
    (turns : List (String × List FullAttribute)) : Except Stop EnvElement :=
  turns.foldlM (turn lib service device) e

variable {turns : List (String × List FullAttribute)} {t : String × List FullAttribute}

/-- An element whose attributes are settled under the mappings. -/
def AllSettled (lib : JsonLib) (service : ServiceInfo) (device : Option Device)
    (e : EnvElement) : Prop :=
  ∀ att ∈ e.attributes, Settled (envMapping lib service device) att

lemma turn_steps (h : turn lib service device e t = .ok e') :
    ∃ e₁, e.setEnvInfo lib service device t.1 = .ok e₁ ∧ t.2.foldlM (add lib) e₁ = .ok e' :=
  Attempts.bind_eq_ok_iff.mp h

lemma run_cons (h : run lib service device e (t :: turns) = .ok e') :
    ∃ e₁, turn lib service device e t = .ok e₁ ∧ run lib service device e₁ turns = .ok e' := by
  rw [run, List.foldlM_cons] at h
  exact Attempts.bind_eq_ok_iff.mp h

/-- A turn adds settled attributes at the end. -/
lemma turn_attributes (h : turn lib service device e t = .ok e') :
    ∃ l, e'.attributes = e.attributes ++ l ∧
      ∀ att ∈ l, Settled (envMapping lib service device) att := by
  obtain ⟨e₁, hset, hadds⟩ := turn_steps h
  obtain ⟨hmap, l, hl, hsettled⟩ := setEnvInfo_grows hset
  obtain ⟨-, l', hl', hsettled'⟩ := foldlM_grows (fun _ _ _ => add_grows) hadds
  rw [hmap] at hsettled'
  exact ⟨l ++ l', by rw [hl', hl, List.append_assoc],
    fun att hatt => (List.mem_append.mp hatt).elim (hsettled att) (hsettled' att)⟩

lemma turn_length_le (name : String) (h : turn lib service device e t = .ok e') :
    (e.named name).length ≤ (e'.named name).length := by
  obtain ⟨l, hl, -⟩ := turn_attributes h
  rw [named, named, hl, List.filter_append, List.length_append]
  exact Nat.le_add_right _ _

lemma run_length_le (name : String) (h : run lib service device e turns = .ok e') :
    (e.named name).length ≤ (e'.named name).length :=
  Attempts.foldlM_induction (P := fun s => (e.named name).length ≤ (s.named name).length)
    (fun _ _ _ hs hstep => hs.trans (turn_length_le name hstep)) le_rfl h

lemma run_allSettled (he : AllSettled lib service device e)
    (h : run lib service device e turns = .ok e') : AllSettled lib service device e' := by
  refine Attempts.foldlM_induction (P := AllSettled lib service device) ?_ he h
  intro s t s' hs hstep att hatt
  obtain ⟨l, hl, hsettled⟩ := turn_attributes hstep
  rw [hl] at hatt
  exact (List.mem_append.mp hatt).elim (hs att) (hsettled att)

/-! ### Each static attribute once -/

lemma length_named_pos_iff {name : String} :
    0 < (e.named name).length ↔ name ∈ namesOf e.attributes := by
  simp [named, namesOf, List.length_pos_iff_exists_mem]

/-- Of attributes of different names one has its own name. -/
lemma filter_name_eq {l : List FullAttribute} (hnodup : (namesOf l).Nodup) {att : FullAttribute}
    (hatt : att ∈ l) : l.filter (fun a => a.name = att.name) = [att] := by
  induction l with
  | nil => cases hatt
  | cons b l ih =>
      rw [namesOf, List.map_cons, List.nodup_cons] at hnodup
      rcases List.mem_cons.mp hatt with rfl | hatt
      · have hnone : l.filter (fun a => a.name = att.name) = [] := by
          refine List.filter_eq_nil_iff.mpr fun a ha heq => hnodup.1 ?_
          rw [← of_decide_eq_true heq]
          exact List.mem_map_of_mem ha
        rw [List.filter_cons_of_pos (by simp), hnone]
      · have hne : b.name ≠ att.name := by
          rintro heq
          exact hnodup.1 (heq ▸ List.mem_map_of_mem hatt)
        rw [List.filter_cons_of_neg (by simpa using hne), ih hnodup.2 hatt]

lemma SoundStatics.nodup (hsound : SoundStatics lib service device) :
    (namesOf (statics lib service device)).Nodup := by
  rw [statics, namesOf_append, List.nodup_append]
  refine ⟨hsound.device, hsound.service.sublist (List.Sublist.map _ List.filter_sublist), ?_⟩
  rintro name hname _ hother rfl
  obtain ⟨att, hatt, rfl⟩ := List.mem_map.mp hother
  exact absurd hname (by simpa using (List.mem_filter.mp hatt).2)

/-- After a call each static attribute is there, and one more of each of the device. -/
lemma setEnvInfo_present (hsound : SoundStatics lib service device)
    (hsettled : StaticsSettled lib service device)
    (hset : e.setEnvInfo lib service device timestamp = .ok e') {att : FullAttribute} :
    (att ∈ statics lib service device → 1 ≤ (e'.named att.name).length) ∧
      (att ∈ deviceStatics lib device →
        (e.named att.name).length + 1 ≤ (e'.named att.name).length) := by
  have hattr := setEnvInfo_attributes hsound hsettled hset
  refine ⟨fun hatt => length_named_pos_iff.mpr ?_, fun hatt => ?_⟩
  · rw [hattr, namesOf_append, namesOf_map_stamp, namesOf_append, List.mem_append, List.mem_append]
    by_cases hthere : att.name ∈ namesOf e.attributes
    · exact .inl hthere
    · rcases List.mem_append.mp hatt with hatt | hatt
      · exact .inr (.inl (List.mem_map_of_mem hatt))
      · refine .inr (.inr (List.mem_map_of_mem (List.mem_filter.mpr ?_)))
        obtain ⟨hatt, hnot⟩ := List.mem_filter.mp hatt
        exact ⟨hatt, by simpa [hthere] using hnot⟩
  · rw [named, named, hattr, List.filter_append, List.length_append]
    refine Nat.add_le_add_left (List.length_pos_iff_exists_mem.mpr ⟨stamp timestamp att, ?_⟩) _
    exact List.mem_filter.mpr
      ⟨List.mem_map_of_mem (List.mem_append_left _ hatt), by simp⟩

/-- A run adds as many of each static attribute of the device as it has turns. -/
lemma run_length (hsound : SoundStatics lib service device)
    (hsettled : StaticsSettled lib service device)
    {att : FullAttribute} (hatt : att ∈ deviceStatics lib device)
    (h : run lib service device e turns = .ok e') :
    (e.named att.name).length + turns.length ≤ (e'.named att.name).length := by
  induction turns generalizing e with
  | nil =>
      cases h
      exact le_rfl
  | cons t turns ih =>
      obtain ⟨e₁, hturn, h⟩ := run_cons h
      obtain ⟨e₂, hset, hadds⟩ := turn_steps hturn
      have hmore := (setEnvInfo_present hsound hsettled hset).2 hatt
      have hkept := (foldlM_grows (fun _ _ _ => add_grows) hadds).length_le att.name
      have hrest := ih h
      rw [List.length_cons]
      omega

/-- Where an attribute lands under the name of a static one, there are two of that name. -/
lemma run_lands (hsound : SoundStatics lib service device)
    (hsettled : StaticsSettled lib service device)
    {att : FullAttribute} (hatt : att ∈ statics lib service device)
    (hlands : ∃ t ∈ turns, ∃ attr ∈ t.2,
      Lands (envMapping lib service device) attr att.name)
    (h : run lib service device e turns = .ok e') : 2 ≤ (e'.named att.name).length := by
  induction turns generalizing e with
  | nil => simp at hlands
  | cons t turns ih =>
      obtain ⟨e₁, hturn, hrest⟩ := run_cons h
      obtain ⟨u, hu, hlands⟩ := hlands
      rcases List.mem_cons.mp hu with rfl | hu
      · obtain ⟨e₂, hset, hadds⟩ := turn_steps hturn
        have hthere := (setEnvInfo_present hsound hsettled hset).1 hatt
        rw [← (setEnvInfo_grows hset).1] at hlands
        have hmore := length_adds_named hlands hadds
        have hkept := run_length_le att.name hrest
        omega
      · exact ih ⟨u, hu, hlands⟩ hrest

/-- What each static attribute being there once means for the turns. -/
lemma turnsFit_of_allOnce (hsound : SoundStatics lib service device)
    (hne : statics lib service device ≠ []) (he : e.attributes = [])
    (h : run lib service device e turns = .ok e') (honce : AllOnce lib service device e') :
    TurnsFit lib service device turns := by
  have hall : AllSettled lib service device e' :=
    run_allSettled (by simp [AllSettled, he]) h
  have hlength : ∀ att ∈ statics lib service device, (e'.named att.name).length = 1 := by
    intro att hatt
    obtain ⟨timestamp, hnamed⟩ := honce att hatt
    rw [hnamed]
    rfl
  have hsettled : StaticsSettled lib service device := by
    intro att hatt
    obtain ⟨timestamp, hnamed⟩ := honce att hatt
    refine settled_stamp.mp (hall (stamp timestamp att) ?_)
    have hmem : stamp timestamp att ∈ e'.named att.name := by simp [hnamed]
    exact (List.mem_filter.mp hmem).1
  refine ⟨hsettled, ?_, fun hdev => ?_, fun t ht attr hattr att hatt hlands => ?_⟩
  · rintro rfl
    obtain ⟨att, hatt⟩ := List.exists_mem_of_ne_nil _ hne
    cases h
    have hone := hlength att hatt
    simp [named, he] at hone
  · obtain ⟨att, hatt⟩ := List.exists_mem_of_ne_nil _ hdev
    have hcount := run_length hsound hsettled hatt h
    rw [hlength att (List.mem_append_left _ hatt)] at hcount
    have hpos : turns ≠ [] := by
      rintro rfl
      cases h
      have hone := hlength att (List.mem_append_left _ hatt)
      simp [named, he] at hone
    have := List.length_pos_iff.mpr hpos
    omega
  · have htwo := run_lands hsound hsettled hatt ⟨t, ht, attr, hattr, hlands⟩ h
    rw [hlength att hatt] at htwo
    omega

/-- The first call on an element without attributes adds each static attribute once. -/
lemma turn_fresh (hsound : SoundStatics lib service device)
    (hsettled : StaticsSettled lib service device) (he : e.attributes = [])
    (hapart : ∀ attr ∈ t.2, ∀ att ∈ statics lib service device,
      ¬ Lands (envMapping lib service device) attr att.name)
    (h : turn lib service device e t = .ok e') : AllOnce lib service device e' := by
  intro att hatt
  obtain ⟨e₁, hset, hadds⟩ := turn_steps h
  have hnot : ∀ attr ∈ t.2, ¬ Lands (e₁.mapping lib) attr att.name := by
    rw [(setEnvInfo_grows hset).1]
    exact fun attr hattr => hapart attr hattr att hatt
  have hall : e₁.attributes = (statics lib service device).map (stamp t.1) := by
    have hattr := setEnvInfo_attributes hsound hsettled hset
    rw [he] at hattr
    simpa [namesOf, statics] using hattr
  refine ⟨t.1, ?_⟩
  rw [adds_named hnot hadds, named, hall, List.filter_map]
  have hcomp : ((fun a : FullAttribute => decide (a.name = att.name)) ∘ stamp t.1)
      = fun a => decide (a.name = att.name) := by
    funext a
    simp
  rw [hcomp, filter_name_eq hsound.nodup hatt]
  rfl

/-- Without static attributes of the device a later call adds none. -/
lemma turn_again (hsound : SoundStatics lib service device)
    (hsettled : StaticsSettled lib service device) (hdev : deviceStatics lib device = [])
    (hapart : ∀ attr ∈ t.2, ∀ att ∈ statics lib service device,
      ¬ Lands (envMapping lib service device) attr att.name)
    (he : AllOnce lib service device e) (h : turn lib service device e t = .ok e') :
    AllOnce lib service device e' := by
  intro att hatt
  obtain ⟨e₁, hset, hadds⟩ := turn_steps h
  have hnot : ∀ attr ∈ t.2, ¬ Lands (e₁.mapping lib) attr att.name := by
    rw [(setEnvInfo_grows hset).1]
    exact fun attr hattr => hapart attr hattr att hatt
  have hthere : ∀ b ∈ serviceStatics lib service, b.name ∈ namesOf e.attributes := by
    intro b hb
    have hb : b ∈ statics lib service device := by simpa [statics, hdev, namesOf] using hb
    obtain ⟨timestamp, hnamed⟩ := he b hb
    exact length_named_pos_iff.mp (by rw [hnamed]; exact Nat.one_pos)
  have hall : e₁.attributes = e.attributes := by
    have hattr := setEnvInfo_attributes hsound hsettled hset
    have hnone : (serviceStatics lib service).filter (fun b =>
        b.name ∉ namesOf e.attributes ++ namesOf (deviceStatics lib device)) = [] :=
      List.filter_eq_nil_iff.mpr fun b hb => by simp [hthere b hb]
    rwa [hnone, hdev, List.append_nil, List.map_nil, List.append_nil] at hattr
  obtain ⟨timestamp, hnamed⟩ := he att hatt
  exact ⟨timestamp, by rw [adds_named hnot hadds, named, hall]; exact hnamed⟩

lemma run_again (hsound : SoundStatics lib service device)
    (hsettled : StaticsSettled lib service device) (hdev : deviceStatics lib device = [])
    (hapart : ∀ t ∈ turns, ∀ attr ∈ t.2, ∀ att ∈ statics lib service device,
      ¬ Lands (envMapping lib service device) attr att.name)
    (he : AllOnce lib service device e) (h : run lib service device e turns = .ok e') :
    AllOnce lib service device e' := by
  induction turns generalizing e with
  | nil =>
      cases h
      exact he
  | cons t turns ih =>
      obtain ⟨e₁, hturn, hrest⟩ := run_cons h
      exact ih (fun u hu => hapart u (List.mem_cons_of_mem _ hu))
        (turn_again hsound hsettled hdev (hapart t List.mem_cons_self) he hturn) hrest

/-- Under the condition the turns leave each static attribute once. -/
lemma allOnce_of_turnsFit (hsound : SoundStatics lib service device) (he : e.attributes = [])
    (hfit : TurnsFit lib service device turns) (h : run lib service device e turns = .ok e') :
    AllOnce lib service device e' := by
  obtain ⟨hsettled, hne, hone, hapart⟩ := hfit
  cases turns with
  | nil => exact absurd rfl hne
  | cons t turns =>
      obtain ⟨e₁, hturn, hrest⟩ := run_cons h
      have hfirst := turn_fresh hsound hsettled he (hapart t List.mem_cons_self) hturn
      by_cases hdev : deviceStatics lib device = []
      · exact run_again hsound hsettled hdev
          (fun u hu => hapart u (List.mem_cons_of_mem _ hu)) hfirst hrest
      · -- the device has static attributes, so this turn is the only one
        have hnil : turns = [] := by simpa using hone hdev
        subst hnil
        cases hrest
        exact hfirst

/-- After the turns the element has each static attribute once if there are none, or under the
condition. -/
lemma allOnce_run_iff (hsound : SoundStatics lib service device) (he : e.attributes = [])
    (h : run lib service device e turns = .ok e') : AllOnce lib service device e' ↔
      statics lib service device = [] ∨ TurnsFit lib service device turns := by
  by_cases hnil : statics lib service device = []
  · simp [AllOnce, hnil]
  · rw [or_iff_right hnil]
    exact ⟨turnsFit_of_allOnce hsound hnil he h, fun hfit => allOnce_of_turnsFit hsound he hfit h⟩

/-- The element that is sent is made in turns of one attribute. -/
lemma sentElement_eq (deviceId dateToCb : String) (timestamp : ℕ → String)
    (attributes : List FullAttribute) :
    sentElement lib service device deviceId dateToCb timestamp attributes
      = run lib service device (ofTexts deviceId "" "false") (attributes.zipIdx.map fun it =>
          (timestamp it.2, [it.1.addMetadata (timeInstant dateToCb)])) := by
  rw [sentElement, run, List.foldlM_map]
  congr 1
  funext e it
  simp [turn]

/-- Calls of `set_env_info` are turns without attributes. -/
lemma foldlM_setEnvInfo_eq (timestamps : List String) :
    timestamps.foldlM (fun e t => e.setEnvInfo lib service device t) e
      = run lib service device e (timestamps.map fun t => (t, [])) := by
  rw [run, List.foldlM_map]
  congr 1
  funext e t
  simp [turn]

/-- The condition for turns of one measure each. -/
lemma turnsFit_measures_iff {dateToCb : String} {timestamp : ℕ → String}
    {attributes : List FullAttribute} :
    TurnsFit lib service device (attributes.zipIdx.map fun it =>
        (timestamp it.2, [it.1.addMetadata (timeInstant dateToCb)])) ↔
      StaticsSettled lib service device ∧ attributes ≠ [] ∧
        (deviceStatics lib device ≠ [] → attributes.length = 1) ∧
        ∀ attr ∈ attributes, ∀ att ∈ statics lib service device,
          ¬ Lands (envMapping lib service device) attr att.name := by
  refine ⟨fun hfit => ⟨hfit.settled, ?_, ?_, ?_⟩, fun hfit => ⟨hfit.1, ?_, ?_, ?_⟩⟩
  · simpa using hfit.some
  · simpa using hfit.one
  · intro attr hattr att hatt hlands
    obtain ⟨i, hi⟩ := List.mem_iff_getElem?.mp hattr
    have hmem : (attr, i) ∈ attributes.zipIdx := List.mem_zipIdx_iff_getElem?.mpr hi
    exact hfit.apart _ (List.mem_map_of_mem hmem) _ List.mem_cons_self att hatt
      ((lands_addMetadata_iff _).mpr hlands)
  · simpa using hfit.2.1
  · simpa using hfit.2.2.1
  · intro t ht attr hattr att hatt
    obtain ⟨⟨a, i⟩, hmem, rfl⟩ := List.mem_map.mp ht
    rw [List.mem_singleton.mp hattr, lands_addMetadata_iff]
    exact hfit.2.2.2 a (List.mem_of_getElem? (List.mem_zipIdx_iff_getElem?.mp hmem)) att hatt

/-- The condition for calls alone: nothing lands anywhere. -/
lemma turnsFit_calls_iff {timestamps : List String} :
    TurnsFit lib service device (timestamps.map fun t => (t, [])) ↔
      StaticsSettled lib service device ∧ timestamps ≠ [] ∧
        (deviceStatics lib device ≠ [] → timestamps.length = 1) := by
  refine ⟨fun hfit => ⟨hfit.settled, ?_, ?_⟩, fun hfit => ⟨hfit.1, ?_, ?_, ?_⟩⟩
  · simpa using hfit.some
  · simpa using hfit.one
  · simpa using hfit.2.1
  · simpa using hfit.2.2
  · simp

/-- **The static attributes in an element**: each is in the element that is sent once, and in
the one that `set_env_info` was called on, if the element has none at all or the condition is
met. -/
theorem staticsOnce_iff (hsound : SoundStatics lib service device) :
    (∀ deviceId dateToCb timestamp attributes e',
      sentElement lib service device deviceId dateToCb timestamp attributes = .ok e' →
      (AllOnce lib service device e' ↔ statics lib service device = [] ∨
        (StaticsSettled lib service device ∧ attributes ≠ [] ∧
          (deviceStatics lib device ≠ [] → attributes.length = 1) ∧
          ∀ attr ∈ attributes, ∀ att ∈ statics lib service device,
            ¬ Lands (envMapping lib service device) attr att.name))) ∧
    ∀ id type isPattern timestamps e',
      timestamps.foldlM (fun e t => e.setEnvInfo lib service device t) (ofTexts id type isPattern)
        = .ok e' →
      (AllOnce lib service device e' ↔ statics lib service device = [] ∨
        (StaticsSettled lib service device ∧ timestamps ≠ [] ∧
          (deviceStatics lib device ≠ [] → timestamps.length = 1))) := by
  constructor
  · intro deviceId dateToCb timestamp attributes e' h
    rw [sentElement_eq] at h
    rw [allOnce_run_iff hsound rfl h, turnsFit_measures_iff]
  · intro id type isPattern timestamps e' h
    rw [foldlM_setEnvInfo_eq] at h
    rw [allOnce_run_iff hsound rfl h, turnsFit_calls_iff]

end Turns

/-- A static attribute. -/
def placeText : String :=
  "\x7b\"name\":\"place\",\"type\":\"string\",\"value\":\"lab\"\x7d"

/-- The static attribute, read. -/
def placeLib : JsonLib where
  parse text := if text = placeText then
      some (.object [("name", .string "place"), ("type", .string "string"),
        ("value", .string "lab")])
    else none
  write _ := ""

/-- A device with the static attribute. -/
def placed : Device :=
  { Device.ofName "dev1" "service" with staticAttributes := [("place", placeText)] }

lemma soundStatics_placed : SoundStatics placeLib ⟨[], [], []⟩ (some placed) where
  valid := by simp
  device := by decide +kernel
  service := by decide

lemma placed_absent (name : String) :
    envMapping placeLib ⟨[], [], []⟩ (some placed) name = .absent := rfl

/-- The static attribute of a device is sent once with one measure. -/
theorem staticsOnce_placed :
    ∃ e', sentElement placeLib ⟨[], [], []⟩ (some placed) "dev1" "now" (fun _ => "now")
        [FullAttribute.ofTexts "t" "string" "1"] = .ok e' ∧
      AllOnce placeLib ⟨[], [], []⟩ (some placed) e' := by
  have hsent : (sentElement placeLib ⟨[], [], []⟩ (some placed) "dev1" "now" (fun _ => "now")
      [FullAttribute.ofTexts "t" "string" "1"]).toOption.map
        (fun e' => (e'.named "place").length) = some 1 := by
    decide +kernel
  have hstatics : (statics placeLib ⟨[], [], []⟩ (some placed)).all (fun att =>
      att.name = "place" && !att.withDefaultType.isEmptyValue) := by
    decide +kernel
  have hatt := List.all_eq_true.mp hstatics
  obtain ⟨e', hok, -⟩ := Attempts.exists_ok_of_map_toOption hsent
  refine ⟨e', hok, ((staticsOnce_iff soundStatics_placed).1 _ _ _ _ _ hok).mpr
    (.inr ⟨fun att h => ⟨?_, placed_absent _⟩, by simp, fun _ => rfl, ?_⟩)⟩
  · simpa using (Bool.and_eq_true_iff.mp (hatt att h)).2
  · intro attr hattr att h hlands
    rw [List.mem_singleton.mp hattr] at hlands
    have hname := (Bool.and_eq_true_iff.mp (hatt att h)).1
    rw [of_decide_eq_true hname] at hlands
    have hother : "place" = (FullAttribute.ofTexts "t" "string" "1").name :=
      (lands_iff_of_absent (by decide) (placed_absent _) "place").mp hlands
    exact absurd hother (by decide)

/-- With two measures it is sent twice. -/
theorem not_allOnce_placed :
    ∃ e', sentElement placeLib ⟨[], [], []⟩ (some placed) "dev1" "now" (fun _ => "now")
        [FullAttribute.ofTexts "t" "string" "1", FullAttribute.ofTexts "h" "string" "2"]
          = .ok e' ∧
      (e'.named "place").length = 2 ∧ ¬ AllOnce placeLib ⟨[], [], []⟩ (some placed) e' := by
  have hsent : (sentElement placeLib ⟨[], [], []⟩ (some placed) "dev1" "now" (fun _ => "now")
      [FullAttribute.ofTexts "t" "string" "1", FullAttribute.ofTexts "h" "string" "2"]).toOption.map
        (fun e' => (e'.named "place").length) = some 2 := by
    decide +kernel
  have hnames : "place" ∈ namesOf (statics placeLib ⟨[], [], []⟩ (some placed)) := by
    decide +kernel
  obtain ⟨e', hok, htwo⟩ := Attempts.exists_ok_of_map_toOption hsent
  refine ⟨e', hok, htwo, fun honce => ?_⟩
  obtain ⟨att, hatt, hname⟩ := List.mem_map.mp hnames
  obtain ⟨timestamp, hnamed⟩ := honce att hatt
  rw [← hname, hnamed] at htwo
  simp at htwo

end EnvElement

end IotAgent
