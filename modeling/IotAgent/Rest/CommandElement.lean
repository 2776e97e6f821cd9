import IotAgent.Ngsi.PublishedId
import IotAgent.Ngsi.StaticAttributes
import IotAgent.Rest.CommandHandle

/-!
The elements of commands in their environment (`src/rest/command_handle.cc`,
`src/rest/iot_cb_comm.cc`).

What is told of a command goes out in an element with the instant of the update and with the
static attributes of the device and the service. The agent of the other modules keeps the
identifier, the type and what is told; the rest says nothing about commands.

* `addUpdateContext`: `add_updateContext`;
* `commandElement`, `commandElement₂`: the elements that the two functions `send_updateContext`
  build;
* `Shows`: an element has the identifier and the type of another one and its attributes, and the
  instant and the static attributes behind them;
* `sendUpdateContext_shows`, `sendUpdateContext₂_shows`: the element that is built shows the one
  that the agent keeps.
-/

namespace IotAgent

namespace EnvElement

/-! ### The elements that are built -/

/-- An element without an environment. -/
def bare (isPattern : String) : EnvElement :=
  ⟨"", "", isPattern, [], none, ⟨[], [], []⟩⟩

section Build

variable (lib : JsonLib) (service : ServiceInfo) (itemDev : Device) (clock : ℕ → String)

/-- `add_updateContext`, at a time. -/
def addUpdateContext (dateToCb commandName commandAtt type value : String) (e : EnvElement) :
    Except Stop EnvElement :=
  e.add lib ((FullAttribute.ofTexts (commandName ++ "_" ++ commandAtt) type value).addMetadata
    (timeInstant dateToCb))

/-- The instant of the update, and then the environment. -/
def withEnvironment (dateToCb timestamp : String) (e : EnvElement) : Except Stop EnvElement := do
  let e ← e.add lib (FullAttribute.ofTexts "TimeInstant" "ISO8601" dateToCb)
  e.setEnvInfo lib service (some itemDev) timestamp

/-- The element of `send_updateContext` with one attribute. The clock is read for the attribute,
for the instant and for the static attributes. -/
def commandElement (commandName commandAtt type value : String) : Except Stop EnvElement := do
  let e ←
    if commandName ≠ "" then
      addUpdateContext lib (clock 0) commandName commandAtt type value (bare "")
    else .ok (bare "false")
  e.withEnvironment lib service itemDev (clock 1) (clock 2)

/-- The element of `send_updateContext` with two attributes. -/
def commandElement₂ (commandName commandAtt type value commandAtt₂ type₂ value₂ : String) :
    Except Stop EnvElement := do
  let e ← addUpdateContext lib (clock 0) commandName commandAtt type value (bare "")
  let e ← addUpdateContext lib (clock 1) commandName commandAtt₂ type₂ value₂ e
  e.withEnvironment lib service itemDev (clock 2) (clock 3)

end Build

/-! ### Without an environment -/

section Bare

variable {lib : JsonLib} {e e' : EnvElement} {c : ContextElement} {attr : FullAttribute}

/-- An element without an environment that says what another one says. -/
structure Bare (c : ContextElement) (e : EnvElement) : Prop where
  type : e.type = ""
  deviceInfo : e.deviceInfo = none
  serviceInfo : e.serviceInfo = ⟨[], [], []⟩
  attributes : e.attributes.map FullAttribute.toAttribute = c.attributes

lemma bare_bare (isPattern : String) : Bare {} (bare isPattern) := ⟨rfl, rfl, rfl, rfl⟩

/-- No name has a mapping. -/
lemma Bare.mapping_eq (he : Bare c e) (name : String) : e.mapping lib name = .absent := by
  have hnone : e.attrMapping name = "" := by
    rw [attrMapping, he.deviceInfo, he.serviceInfo]
    rfl
  rw [mapping, if_pos hnone]

/-- An attribute with a text is added as it is. -/
lemma Bare.add_eq (he : Bare c e) (hflat : attr.type ≠ Attribute.compound)
    (hvalue : attr.value ≠ "") : e.add lib attr = .ok (e.push attr.withDefaultType) :=
  add_of_settled ⟨(kept_withDefaultType.mpr ((kept_of_flat hflat).mpr hvalue)).isEmptyValue,
    he.mapping_eq _⟩

lemma withDefaultType_toAttribute : attr.withDefaultType.toAttribute =
    if attr.type = "" then { attr.toAttribute with type := "string" } else attr.toAttribute := by
  rw [FullAttribute.withDefaultType]
  split <;> rfl

/-- Both elements get what is told of the command. -/
lemma Bare.addUpdateContext (he : Bare c e) (lib : JsonLib) (dateToCb name att value : String)
    {type : String} (hflat : Text.renderIdentifier type ≠ Attribute.compound) :
    ∃ e', e.addUpdateContext lib dateToCb name att type value = .ok e' ∧
      Bare (c.addAttribute (CommandHandle.commandAttribute name att type value)) e' := by
  have hvalue := Attribute.ofTexts_value_ne (name ++ "_" ++ att) type value
  refine ⟨_, he.add_eq hflat hvalue, he.type, he.deviceInfo, he.serviceInfo, ?_⟩
  have hadd : (c.addAttribute (CommandHandle.commandAttribute name att type value)).attributes =
      c.attributes ++ [_] := ContextElement.addAttribute_of_value c hvalue
  rw [hadd, push, List.map_append, he.attributes, List.map_singleton, withDefaultType_toAttribute]
  rfl

end Bare

/-! ### What an element shows -/

/-- The element has the identifier and the type, and the attributes before the instant. Behind it
are attributes that came under the mappings of the device and the service. -/
structure Shows (lib : JsonLib) (service : ServiceInfo) (itemDev : Device) (dateToCb : String)
    (c : ContextElement) (e : EnvElement) : Prop where
  id : e.id = c.id
  type : e.type = c.type
  attributes : ∃ told statics, e.attributes = told ++
    (FullAttribute.ofTexts "TimeInstant" "ISO8601" dateToCb) :: statics ∧
      told.map FullAttribute.toAttribute = c.attributes ∧
      ∀ att ∈ statics, Settled (envMapping lib service (some itemDev)) att

section Shows

variable {lib : JsonLib} {service : ServiceInfo} {itemDev : Device} {e e' : EnvElement}
  {c : ContextElement} {dateToCb timestamp : String}

/-- The environment comes behind what is told. -/
lemma Bare.withEnvironment (he : Bare c e) (hc : c.type = "")
    (hok : e.withEnvironment lib service itemDev dateToCb timestamp = .ok e') :
    Shows lib service itemDev dateToCb (c.format service.fields itemDev) e' := by
  have hinstant : (FullAttribute.ofTexts "TimeInstant" "ISO8601" dateToCb).withDefaultType =
      FullAttribute.ofTexts "TimeInstant" "ISO8601" dateToCb :=
    withDefaultType_of_ne (by decide : Text.renderIdentifier "ISO8601" ≠ "")
  rw [EnvElement.withEnvironment, he.add_eq
    (by decide : Text.renderIdentifier "ISO8601" ≠ Attribute.compound)
    (Attribute.ofTexts_value_ne _ _ _), hinstant] at hok
  have hset : (e.push (FullAttribute.ofTexts "TimeInstant" "ISO8601" dateToCb)).setEnvInfo lib
      service (some itemDev) timestamp = .ok e' := hok
  obtain ⟨-, l, hl, hsettled⟩ := setEnvInfo_grows hset
  obtain ⟨attributes, rfl⟩ := setEnvInfo_upToAttributes hset
  have hformat := format_of_untyped (d := itemDev)
    (e := { e.push (FullAttribute.ofTexts "TimeInstant" "ISO8601" dateToCb) with
      serviceInfo := service, deviceInfo := some itemDev }) he.type rfl
  have htype : (c.format service.fields itemDev).type = itemDev.realType service.fields := by
    rw [ContextElement.format, Device.realType]
    simp only [hc, ne_eq, not_true_eq_false, if_false]
  refine ⟨?_, ?_, e.attributes, l, ?_, he.attributes, hsettled⟩
  · exact (congrArg EnvElement.id hformat).trans (ContextElement.format_id hc _ _).symm
  · exact (congrArg EnvElement.type hformat).trans htype.symm
  · rw [hl, push, List.append_assoc, List.singleton_append]

end Shows

end EnvElement

namespace CommandHandle

open EnvElement

variable {h : Hashing} {s : CommandHandle h} {lib : JsonLib} {service : ServiceInfo}
  {itemDev : Device} {clock : ℕ → String} {e : EnvElement} {name att type value op : String}

/-- **The element of an update** shows what the agent keeps of it. -/
theorem sendUpdateContext_shows (hflat : Text.renderIdentifier type ≠ Attribute.compound)
    (hok : commandElement lib service itemDev clock name att type value = .ok e) :
    ∃ u, (s.sendUpdateContext name att type value itemDev service.fields op).sent = s.sent ++ [u] ∧
      u.updateAction = op ∧ Shows lib service itemDev (clock 1) u.element e := by
  refine ⟨_, rfl, rfl, ?_⟩
  dsimp only
  rw [commandElement] at hok
  by_cases hname : name ≠ ""
  · obtain ⟨e₁, hadd, hbare⟩ := (bare_bare "").addUpdateContext lib (clock 0) name att value hflat
    rw [if_pos hname, hadd] at hok
    rw [if_pos hname]
    exact hbare.withEnvironment (ContextElement.addAttribute_type _ _) hok
  · rw [if_neg hname] at hok ⊢
    exact (bare_bare "false").withEnvironment rfl hok

/-- The same with two attributes. -/
theorem sendUpdateContext₂_shows {att₂ type₂ value₂ : String}
    (hflat : Text.renderIdentifier type ≠ Attribute.compound)
    (hflat₂ : Text.renderIdentifier type₂ ≠ Attribute.compound)
    (hok : commandElement₂ lib service itemDev clock name att type value att₂ type₂ value₂ =
      .ok e) :
    ∃ u, (s.sendUpdateContext₂ name att type value att₂ type₂ value₂ itemDev service.fields
        op).sent = s.sent ++ [u] ∧
      u.updateAction = op ∧ Shows lib service itemDev (clock 2) u.element e := by
  refine ⟨_, rfl, rfl, ?_⟩
  dsimp only
  obtain ⟨e₁, hadd₁, hbare₁⟩ := (bare_bare "").addUpdateContext lib (clock 0) name att value hflat
  obtain ⟨e₂, hadd₂, hbare₂⟩ := hbare₁.addUpdateContext lib (clock 1) name att₂ value₂ hflat₂
  rw [commandElement₂, hadd₁] at hok
  have hrest : (addUpdateContext lib (clock 1) name att₂ type₂ value₂ e₁ >>= fun e =>
      e.withEnvironment lib service itemDev (clock 2) (clock 3)) = .ok e := hok
  rw [hadd₂] at hrest
  refine hbare₂.withEnvironment ?_ hrest
  rw [ContextElement.addAttribute_type, ContextElement.addAttribute_type]

end CommandHandle

end IotAgent
