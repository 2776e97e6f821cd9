import IotAgent.Lib.Touching
import IotAgent.Ngsi.StaticAttributes
import IotAgent.Util.StrMap

/-!
Elements of a device that is shared (`src/util/device.h`, `src/ngsi/ContextElement.cc`).

The device of an element is the one in the cache. `get_attribute` reads its map of attributes by
an operator that inserts an empty text under a name that is absent. Everything that looks up the
mapping of a name goes through it. The fields that nothing changes are read from the copy in the
element.

* `Device.lookUp`: `get_attribute`, with the device that it leaves;
* `Shared`: computations on the device, and the functions of an element among them;
* `reaches_iff`: the names that are looked up for an attribute, by its mapping;
* `touches_add`, `touches_setEnvInfo`: the results are those on a copy, and which names are
  looked up.
-/

namespace IotAgent

/-! ### Looking up a name -/

/-- `get_attribute`, and the device after it. -/
def Device.lookUp (d : Device) (objectId : String) : String × Device :=
  match d.attributes.lookup objectId with
  | some text => (text, d)
  | none => ("", { d with attributes := StrMap.insert d.attributes objectId "" })

section LookUp

variable {d s : Device} {name : String}

/-- The device has an entry of a name. -/
def Device.HasEntry (name : String) (d : Device) : Prop := name ∈ StrMap.keys d.attributes

lemma lookUp_of_hasEntry (h : d.HasEntry name) : (d.lookUp name).2 = d := by
  obtain ⟨text, htext⟩ := Option.isSome_iff_exists.mp (StrMap.lookup_isSome_iff.mpr h)
  rw [Device.lookUp, htext]

lemma lookUp_of_not_hasEntry (h : ¬ d.HasEntry name) :
    d.lookUp name = ("", { d with attributes := StrMap.insert d.attributes name "" }) := by
  have hnone : d.attributes.lookup name = none := by
    rw [← Option.not_isSome_iff_eq_none, StrMap.lookup_isSome_iff]
    exact h
  rw [Device.lookUp, hnone]

lemma lookUp_fst : (d.lookUp name).1 = d.getAttribute name := by
  rw [Device.lookUp, Device.getAttribute]
  cases d.attributes.lookup name <;> rfl

/-- The look-ups of a device. -/
def lookUps : Touching Device String where
  touch name d := (d.lookUp name).2
  Has := Device.HasEntry
  has_touch j k d := by
    by_cases hj : d.HasEntry j
    · rw [lookUp_of_hasEntry hj, or_iff_right_of_imp]
      rintro rfl
      exact hj
    · rw [lookUp_of_not_hasEntry hj]
      exact StrMap.mem_keys_insert
  touch_of_has _ _ h := lookUp_of_hasEntry h

/-- A device reads as another one, whatever the name. -/
def ReadsAs (d s : Device) : Prop := ∀ name, s.getAttribute name = d.getAttribute name

/-- What is inserted reads as what was absent. -/
lemma closed_readsAs (d : Device) : Touching.Closed lookUps (ReadsAs d) := by
  intro k s hs name
  rw [← hs name]
  by_cases hk : s.HasEntry k
  · exact congrArg (Device.getAttribute · name) (lookUp_of_hasEntry hk)
  · have hdev : lookUps.touch k s = { s with attributes := StrMap.insert s.attributes k "" } :=
      congrArg Prod.snd (lookUp_of_not_hasEntry hk)
    rw [hdev, Device.getAttribute, Device.getAttribute, StrMap.lookup_insert_of_not_mem hk]
    by_cases hname : name = k
    · have hnone : s.attributes.lookup k = none := by
        rw [← Option.not_isSome_iff_eq_none, StrMap.lookup_isSome_iff]
        exact hk
      rw [if_pos hname, hname, hnone]
      rfl
    · rw [if_neg hname]

end LookUp

/-! ### Computations on the device -/

/-- Computations on the device in the cache. -/
abbrev Shared (α : Type) : Type := ExceptT Stop (StateM Device) α

namespace Shared

variable (lib : JsonLib)

/-- A computation that does not use the device. -/
def ofExcept {α : Type} (r : Except Stop α) : Shared α := ExceptT.mk (pure r)

/-- `get_attribute`. -/
def getAttribute (objectId : String) : Shared String :=
  modifyGet fun d => d.lookUp objectId

/-- The text of the mapping of a name. -/
def attrMapping (e : EnvElement) (name : String) : Shared String := do
  let ofDevice ← if e.deviceInfo.isSome then getAttribute name else pure ""
  if ofDevice = "" then
    match e.serviceInfo.attributes.find? fun it => it.objectId = name ∧ it.json ≠ "" with
    | some it => return it.json
    | none => return ""
  else return ofDevice

/-- `add_attribute`, with at most `n` calls. -/
def addAttribute (e : EnvElement) : ℕ → FullAttribute → Shared EnvElement
  | 0, _ => throw .endless
  | n + 1, attr =>
      let attr := attr.withDefaultType
      if attr.isEmptyValue then return e
      else do
        let attrMapping ← attrMapping e attr.name
        if attrMapping = "" then return e.push attr
        else
          match lib.parse attrMapping with
          | none => return e
          | some d =>
              match FullAttribute.ofJson lib.write d with
              | .error failure => throw failure.stop
              | .ok att => addAttribute e n (attr.mapped att)

/-- `add_attribute`. -/
def add (e : EnvElement) (attr : FullAttribute) : Shared EnvElement :=
  addAttribute lib e e.depth attr

/-- A static attribute, given by its text. -/
def addStatic (timestamp : String) (e : EnvElement) (text : String) : Shared EnvElement :=
  match lib.parse text with
  | none => return e
  | some d =>
      match FullAttribute.ofJson lib.write d with
      | .error failure => throw failure.stop
      | .ok att => add lib e (att.addMetadata (EnvElement.timeInstant timestamp))

/-- A static attribute of a service. -/
def addServiceStatic (timestamp : String) (e : EnvElement) (v : ServiceStatic) :
    Shared EnvElement :=
  if v.name ≠ "" ∧ e.existsName v.name = false ∧ v.value ≠ "" then
    addStatic lib timestamp e v.json
  else return e

/-- `set_env_info`. -/
def setEnvInfo (serviceInfo : ServiceInfo) (device : Option Device) (timestamp : String)
    (e : EnvElement) : Shared EnvElement := do
  let e := { e with serviceInfo, deviceInfo := device }.format
  let ofDevice := ((device.map Device.staticAttributes).getD []).map Prod.snd
  let e ← ofDevice.foldlM (addStatic lib timestamp) e
  serviceInfo.staticAttributes.foldlM (addServiceStatic lib timestamp) e

end Shared

/-! ### The names that are looked up -/

namespace EnvElement

section Reaches

variable {mapping : String → Mapping} {attr : FullAttribute} {name : String}

lemma reaches_iff_of_empty (hempty : attr.withDefaultType.isEmptyValue = true) :
    ¬ Reaches mapping attr name := by
  intro h
  cases h with
  | here hvalue | there hvalue =>
      rw [hempty] at hvalue
      cases hvalue

lemma reaches_iff (hvalue : attr.withDefaultType.isEmptyValue = false) :
    Reaches mapping attr name ↔ name = attr.name ∨
      ∃ att, mapping attr.name = .mapsTo att ∧
        Reaches mapping (attr.withDefaultType.mapped att) name := by
  constructor
  · intro h
    cases h with
    | here => exact .inl rfl
    | there _ hmap h => exact .inr ⟨_, hmap, h⟩
  · rintro (rfl | ⟨att, hmap, h⟩)
    · exact .here hvalue
    · exact .there hvalue hmap h

end Reaches

/-! ### The results, and what is looked up -/

section Touches

open Touching

variable {lib : JsonLib} {d : Device} {e e' : EnvElement} {attr : FullAttribute} {n : ℕ}
  {P : Device → Prop}

lemma touches_getAttribute (d : Device) (name : String) :
    Touches lookUps (ReadsAs d) (Shared.getAttribute name) (.ok (d.getAttribute name)) {name} := by
  intro s hs
  refine ⟨[name], ?_, by simp, by simp⟩
  have hrun : runOn (Shared.getAttribute name) s
      = (.ok (s.lookUp name).1, (s.lookUp name).2) := rfl
  rw [hrun, lookUp_fst, hs name]
  rfl

/-- The text of a mapping is looked up by its name. -/
lemma touches_attrMapping (he : e.deviceInfo = some d) (name : String) :
    Touches lookUps (ReadsAs d) (Shared.attrMapping e name) (.ok (e.attrMapping name)) {name} := by
  have hget := (touches_getAttribute d name).bind (closed_readsAs d)
    (f := fun ofDevice => if ofDevice = "" then
      match e.serviceInfo.attributes.find? fun it => it.objectId = name ∧ it.json ≠ "" with
      | some it => return it.json
      | none => return ""
    else return ofDevice)
    (g := fun ofDevice => .ok (if ofDevice = "" then
      match e.serviceInfo.attributes.find? fun it => it.objectId = name ∧ it.json ≠ "" with
      | some it => it.json
      | none => ""
    else ofDevice)) (W := ∅) (fun ofDevice _ => by
      split
      · split
        · exact Touches.pure _
        · exact Touches.pure _
      · exact Touches.pure _)
  rw [Set.union_empty] at hget
  rw [Shared.attrMapping, attrMapping, he]
  exact hget

/-- A result of `add_attribute` with a bound. -/
def outcome : Option (Except AttributeFailure EnvElement) → Except Stop EnvElement
  | some (.ok e) => .ok e
  | some (.error failure) => .error failure.stop
  | none => .error .endless

lemma add_eq_outcome : e.add lib attr = outcome (addAttribute lib e e.depth attr) := by
  rw [add]
  rcases addAttribute lib e e.depth attr with _ | _ | _ <;> rfl

/-- Adding an attribute looks up the names that it reaches. -/
lemma touches_addAttribute (he : e.deviceInfo = some d) (n : ℕ) (attr : FullAttribute) :
    Touches lookUps (ReadsAs d) (Shared.addAttribute lib e n attr)
      (outcome (addAttribute lib e n attr)) {name | Reaches (e.mapping lib) attr name} := by
  induction n generalizing attr with
  | zero => exact Touches.throw _ _
  | succ n ih =>
      rw [Shared.addAttribute, addAttribute]
      by_cases hempty : attr.withDefaultType.isEmptyValue = true
      · have hnone : {name | Reaches (e.mapping lib) attr name} = ∅ :=
          Set.eq_empty_of_forall_notMem fun name => reaches_iff_of_empty hempty
        rw [hnone, if_pos hempty, if_pos hempty]
        exact Touches.pure e
      · have hset : {name | Reaches (e.mapping lib) attr name} = {attr.name} ∪ {name |
            ∃ att, e.mapping lib attr.name = .mapsTo att ∧
              Reaches (e.mapping lib) (attr.withDefaultType.mapped att) name} := by
          ext name
          exact reaches_iff (by simpa using hempty)
        rw [hset, if_neg hempty, if_neg hempty, withDefaultType_name]
        refine (touches_attrMapping he attr.name).bind (closed_readsAs d)
          (g := fun _ => outcome _) ?_
        rintro _ ⟨rfl⟩
        refine Touches.weaken ?_ fun _ hs => hs.1
        by_cases htext : e.attrMapping attr.name = ""
        · have hm : e.mapping lib attr.name = .absent := by rw [mapping, if_pos htext]
          simp only [hm, htext, if_true, reduceCtorEq, false_and, exists_false, Set.ofPred_false]
          exact Touches.pure _
        · rw [if_neg htext]
          cases hparse : lib.parse (e.attrMapping attr.name) with
          | none =>
              have hm : e.mapping lib attr.name = .unreadable := by
                rw [mapping, if_neg htext, hparse]
              simp only [hm, reduceCtorEq, false_and, exists_false, Set.ofPred_false]
              exact Touches.pure _
          | some dom =>
              cases hof : FullAttribute.ofJson lib.write dom with
              | error failure =>
                  have hm : e.mapping lib attr.name = .failure failure := by
                    rw [mapping, if_neg htext, hparse]
                    simp only [hof]
                  simp only [hm, hof]
                  exact Touches.throw _ _
              | ok att =>
                  have hm : e.mapping lib attr.name = .mapsTo att := by
                    rw [mapping, if_neg htext, hparse]
                    simp only [hof]
                  simp only [hm, hof, Mapping.mapsTo.injEq, exists_eq_left']
                  exact ih _

lemma touches_add (he : e.deviceInfo = some d) (attr : FullAttribute) :
    Touches lookUps (ReadsAs d) (Shared.add lib e attr) (e.add lib attr)
      {name | Reaches (e.mapping lib) attr name} := by
  rw [add_eq_outcome]
  exact touches_addAttribute he _ attr

/-- The names that are looked up for the static attribute of a text. -/
def staticNames (lib : JsonLib) (mapping : String → Mapping) (text : String) : Set String :=
  {name | ∃ att ∈ staticOf lib text, Reaches mapping att name}

lemma touches_addStatic (he : e.deviceInfo = some d) (timestamp text : String) :
    Touches lookUps (ReadsAs d) (Shared.addStatic lib timestamp e text)
      (addStatic lib timestamp e text) (staticNames lib (e.mapping lib) text) := by
  rw [Shared.addStatic, addStatic]
  cases hparse : lib.parse text with
  | none =>
      have hnone : staticNames lib (e.mapping lib) text = ∅ := by
        simp [staticNames, staticOf, hparse]
      rw [hnone]
      exact Touches.pure e
  | some dom =>
      cases hof : FullAttribute.ofJson lib.write dom with
      | error failure =>
          simp only [hof]
          exact Touches.throw _ _
      | ok att =>
          have hstatic : staticOf lib text = some att := by
            simp [staticOf, hparse, hof, Except.toOption]
          have hset : staticNames lib (e.mapping lib) text = {name |
              Reaches (e.mapping lib) (att.addMetadata (timeInstant timestamp)) name} := by
            simp [staticNames, hstatic, reaches_addMetadata_iff]
          simp only [hof, hset]
          exact touches_add he _

/-- The attribute that a text adds is under a name that was looked up. -/
lemma addStatic_mem {timestamp text : String} (hadd : addStatic lib timestamp e text = .ok e')
    {att : FullAttribute} (hatt : att ∈ e'.attributes) :
    att ∈ e.attributes ∨
      e.mapping lib att.name = .absent ∧ att.name ∈ staticNames lib (e.mapping lib) text := by
  rw [addStatic] at hadd
  cases hparse : lib.parse text with
  | none =>
      rw [hparse] at hadd
      cases hadd
      exact .inl hatt
  | some dom =>
      rw [hparse] at hadd
      cases hof : FullAttribute.ofJson lib.write dom with
      | error failure => simp only [hof] at hadd; cases hadd
      | ok b =>
          have hstatic : staticOf lib text = some b := by
            simp [staticOf, hparse, hof, Except.toOption]
          simp only [hof] at hadd
          rcases add_lands hadd with ⟨rfl, -⟩ | ⟨c, rfl, hset, hlands⟩
          · exact .inl hatt
          · refine (List.mem_append.mp hatt).imp_right fun hc => ?_
            rw [List.mem_singleton.mp hc]
            have hreach := (lands_iff.mp ((hlands c.name).mpr rfl)).1
            exact ⟨hset.2, b, hstatic, (reaches_addMetadata_iff _).mp hreach⟩

/-- The names that are looked up for a static attribute of a service. -/
def serviceNames (lib : JsonLib) (mapping : String → Mapping) (v : ServiceStatic) : Set String :=
  {name | v.name ≠ "" ∧ v.value ≠ "" ∧ name ∈ staticNames lib mapping v.json}

/-- An element of the device whose attributes are under names that were looked up. -/
def LookedUp (lib : JsonLib) (service : ServiceInfo) (d : Device) (e : EnvElement)
    (s : Device) : Prop :=
  ReadsAs d s ∧ SameInfo ⟨"", "", "", [], some d, service⟩ e ∧
    ∀ att ∈ e.attributes, s.HasEntry att.name ∧ e.mapping lib att.name = .absent

section SetEnvInfo

variable {service : ServiceInfo}

lemma closed_lookedUp (e : EnvElement) : Closed lookUps (LookedUp lib service d e) :=
  fun k s hs => ⟨closed_readsAs d k s hs.1, hs.2.1, fun att hatt =>
    ⟨(lookUps.has_touch k att.name s).mpr (.inr (hs.2.2 att hatt).1), (hs.2.2 att hatt).2⟩⟩

lemma LookedUp.mapping {s : Device} (h : LookedUp lib service d e s) :
    e.mapping lib = envMapping lib service (some d) := h.2.1.mapping

lemma lookedUp_addStatic {timestamp text : String} {s : Device} (hs : LookedUp lib service d e s)
    (hadd : addStatic lib timestamp e text = .ok e')
    (hhas : ∀ name ∈ staticNames lib (envMapping lib service (some d)) text, s.HasEntry name) :
    LookedUp lib service d e' s := by
  have hsame := (addStatic_grows hadd).1
  refine ⟨hs.1, hs.2.1.trans hsame, fun att hatt => ?_⟩
  rw [hsame.mapping]
  rcases addStatic_mem hadd hatt with hold | ⟨habsent, hname⟩
  · exact hs.2.2 att hold
  · rw [hs.mapping] at hname
    exact ⟨hhas _ hname, habsent⟩

/-- The static attributes of the device. -/
lemma touches_addStatics (timestamp : String) (texts : List String) (e : EnvElement) :
    Touches lookUps (LookedUp lib service d e)
      (texts.foldlM (Shared.addStatic lib timestamp) e) (texts.foldlM (addStatic lib timestamp) e)
      {name | ∃ text ∈ texts, name ∈ staticNames lib (envMapping lib service (some d)) text} := by
  refine Touches.foldlM (f := Shared.addStatic lib timestamp) (g := addStatic lib timestamp)
    (U := staticNames lib (envMapping lib service (some d))) closed_lookedUp
    (fun e text _ s hs => ?_)
    (fun e text e' s hs hadd hhas => lookedUp_addStatic hs hadd hhas) e
  rw [← hs.mapping]
  exact touches_addStatic hs.2.1.1 timestamp text s hs.1

/-- A static attribute of a service whose name is there was looked up before. -/
lemma touches_addServiceStatic {v : ServiceStatic}
    (hname : ∀ att ∈ staticOf lib v.json, att.name = v.name) (timestamp : String)
    (e : EnvElement) :
    Touches lookUps (LookedUp lib service d e) (Shared.addServiceStatic lib timestamp e v)
      (addServiceStatic lib timestamp e v)
      (serviceNames lib (envMapping lib service (some d)) v) := by
  rw [Shared.addServiceStatic, addServiceStatic]
  by_cases hadd : v.name ≠ "" ∧ e.existsName v.name = false ∧ v.value ≠ ""
  · have hset : serviceNames lib (envMapping lib service (some d)) v
        = staticNames lib (envMapping lib service (some d)) v.json := by
      simp [serviceNames, hadd.1, hadd.2.2]
    rw [if_pos hadd, if_pos hadd, hset]
    intro s hs
    rw [← hs.mapping]
    exact touches_addStatic hs.2.1.1 timestamp v.json s hs.1
  · rw [if_neg hadd, if_neg hadd]
    refine (Touches.pure e).of_has (Set.empty_subset _) fun s hs _ name hk => .inr ?_
    obtain ⟨hne, hvalue, att, hatt, hreach⟩ := hk
    -- the name is there, so it has no mapping, and nothing else is looked up for it
    have hthere : e.existsName v.name = true := by
      by_contra hno
      exact hadd ⟨hne, by simpa using hno, hvalue⟩
    obtain ⟨b, hb, hbname⟩ := List.mem_map.mp (existsName_iff.mp hthere)
    obtain ⟨hentry, habsent⟩ := hs.2.2 b hb
    rw [hbname] at hentry habsent
    rw [hs.mapping, ← hname att hatt] at habsent
    cases hreach with
    | here => exact hname att hatt ▸ hentry
    | there _ hmap =>
        rw [habsent] at hmap
        cases hmap

lemma lookedUp_addServiceStatic {timestamp : String} {v : ServiceStatic} {s : Device}
    (hs : LookedUp lib service d e s) (hadd : addServiceStatic lib timestamp e v = .ok e')
    (hhas : ∀ name ∈ serviceNames lib (envMapping lib service (some d)) v, s.HasEntry name) :
    LookedUp lib service d e' s := by
  rw [addServiceStatic] at hadd
  by_cases hcond : v.name ≠ "" ∧ e.existsName v.name = false ∧ v.value ≠ ""
  · rw [if_pos hcond] at hadd
    exact lookedUp_addStatic hs hadd fun name hname => hhas name ⟨hcond.1, hcond.2.2, hname⟩
  · rw [if_neg hcond] at hadd
    cases hadd
    exact hs

/-- The names that are looked up for the static attributes of a device and its service. -/
def envNames (lib : JsonLib) (service : ServiceInfo) (d : Device) : Set String :=
  {name | ∃ text ∈ d.staticAttributes.map Prod.snd,
      name ∈ staticNames lib (envMapping lib service (some d)) text} ∪
    {name | ∃ v ∈ service.staticAttributes,
      name ∈ serviceNames lib (envMapping lib service (some d)) v}

/-- `set_env_info` on an element without attributes. -/
lemma touches_setEnvInfo (hname : ∀ v ∈ service.staticAttributes,
      ∀ att ∈ staticOf lib v.json, att.name = v.name)
    (he : e.attributes = []) (timestamp : String) :
    Touches lookUps (ReadsAs d) (Shared.setEnvInfo lib service (some d) timestamp e)
      (e.setEnvInfo lib service (some d) timestamp) (envNames lib service d) := by
  have hstart : ∀ s, ReadsAs d s → LookedUp lib service d
      { e with serviceInfo := service, deviceInfo := some d }.format s := by
    intro s hs
    have hsame : SameInfo { e with serviceInfo := service, deviceInfo := some d }
        { e with serviceInfo := service, deviceInfo := some d }.format := format_sameInfo
    refine ⟨hs, hsame, fun att hatt => ?_⟩
    rw [format_attributes] at hatt
    simp [he] at hatt
  rw [Shared.setEnvInfo, setEnvInfo]
  refine Touches.weaken (P := LookedUp lib service d
    { e with serviceInfo := service, deviceInfo := some d }.format) ?_ hstart
  refine (touches_addStatics timestamp _ _).bind (closed_lookedUp _) fun e₁ hfirst => ?_
  refine Touches.weaken (P := LookedUp lib service d e₁) ?_ fun s hs => ?_
  · exact Touches.foldlM (f := Shared.addServiceStatic lib timestamp)
      (g := addServiceStatic lib timestamp)
      (U := serviceNames lib (envMapping lib service (some d))) closed_lookedUp
      (fun e v hv => touches_addServiceStatic (hname v hv) timestamp e)
      (fun e v e' s hs hadd hhas => lookedUp_addServiceStatic hs hadd hhas) e₁
  · exact Touches.foldlM_post (Q := LookedUp lib service d) (g := addStatic lib timestamp)
      (U := staticNames lib (envMapping lib service (some d)))
      (fun e text e' s hs hadd hhas => lookedUp_addStatic hs hadd hhas) hs.1 hfirst
      fun text htext name hmem => hs.2 name ⟨text, htext, hmem⟩

end SetEnvInfo

end Touches

end EnvElement

end IotAgent
