import IotAgent.Ngsi.PublishedId

/-!
The entity under which a device is registered (`src/ngsi/ContextRegistration.cc`).

`set_env_info` writes the rule of the name a third time. It asks the type of the entity that
it has just made of the device where `ContextElement::format` asks the type of the element,
so a device with a type of its own but without a name keeps its empty name, and the type
`default` is kept where the service has none.

* `ContextRegistration.setEnvInfo`: the registration with the entity of a device, and the
  device of the cache, which takes the names over;
* `RegistersPublished`: the registered entity is the published one;
* `registersPublished_iff`: the devices and services for which it is;
* `getRealName_registered`: the device of the cache keeps the name of its entity then.
-/

namespace IotAgent

/-- An entity of a registration. -/
structure Entity where
  id : String
  type : String
  isPattern : String
  deriving DecidableEq

/-- A registration with its environment. -/
structure ContextRegistration where
  entities : List Entity
  serviceInfo : PTree
  deviceInfo : Option Device

namespace ContextRegistration

/-- The type of the entity. -/
def entityType (service : PTree) (d : Device) (ent : Entity) : String :=
  if d.entityType ≠ "" ∧ d.entityType ≠ StoreTypes.default then d.entityType
  else if service.get StoreTypes.entityType "" ≠ "" then service.get StoreTypes.entityType ""
  else if ent.type ≠ "" then ent.type
  else "thing"

/-- The identifier of the entity. -/
def entityId (service : PTree) (d : Device) (ent : Entity) : String :=
  if d.entityName ≠ "" ∧ d.entityName ≠ StoreTypes.default then d.entityName
  else if ent.type = "" then entityType service d ent ++ ":" ++ d.name
  else ent.id

/-- The entity as it is made of the fields of a device. -/
def ofDevice (d : Device) : Entity :=
  ⟨d.entityName, d.entityType, "false"⟩

/-- `set_env_info`, with the device of the cache as it is afterwards. -/
def setEnvInfo (cr : ContextRegistration) (serviceInfo : PTree) (device : Option Device) :
    ContextRegistration × Option Device :=
  match device with
  | none => ({ cr with serviceInfo, deviceInfo := none }, none)
  | some d =>
      let type := entityType serviceInfo d (ofDevice d)
      let id := entityId serviceInfo d (ofDevice d)
      let d' := { d with entityType := type, entityName := id }
      ({ cr with
          serviceInfo, deviceInfo := some d'
          entities := cr.entities ++ [{ ofDevice d with id, type }] }, some d')

/-- The element of a device, with the environment of the device. -/
def elementOf (service : ServiceInfo) (d : Device) : EnvElement :=
  { EnvElement.ofTexts d.name "" "false" with serviceInfo := service, deviceInfo := some d }

/-- The registered entity has the name of the entity of the device, and the type that the
element of the device is formatted with. -/
def RegistersPublished (service : ServiceInfo) (d : Device) : Prop :=
  ∀ cr : ContextRegistration, (cr.setEnvInfo service.fields (some d)).1.entities =
    cr.entities ++ [⟨d.getRealName service.fields, (elementOf service d).format.type, "false"⟩]

variable {service : ServiceInfo} {d : Device}

/-- The element of a device is formatted with the type of the entity of the device. -/
lemma format_elementOf : (elementOf service d).format.type = d.realType service.fields := by
  have huntyped : (elementOf service d).type = "" := by
    show Text.renderIdentifier "" = ""
    decide
  rw [EnvElement.format_of_untyped huntyped rfl]
  rfl

lemma registersPublished_iff_eq :
    RegistersPublished service d ↔
      entityId service.fields d (ofDevice d) = d.getRealName service.fields ∧
      entityType service.fields d (ofDevice d) = d.realType service.fields := by
  have hentities : ∀ cr : ContextRegistration,
      (cr.setEnvInfo service.fields (some d)).1.entities = cr.entities ++
        [⟨entityId service.fields d (ofDevice d), entityType service.fields d (ofDevice d),
          "false"⟩] := fun cr => rfl
  constructor
  · intro h
    have heq := (hentities ⟨[], [], none⟩).symm.trans (h ⟨[], [], none⟩)
    rw [format_elementOf] at heq
    have hent := Entity.mk.inj (List.head_eq_of_cons_eq heq)
    exact ⟨hent.1, hent.2.1⟩
  · rintro ⟨hid, htype⟩ cr
    rw [hentities cr, format_elementOf, hid, htype]

/-- The types agree unless the device has the default for its type and the service has
none. -/
lemma entityType_eq_iff :
    entityType service.fields d (ofDevice d) = d.realType service.fields ↔
      ¬ (d.entityType = StoreTypes.default ∧ service.fields.get StoreTypes.entityType "" = "") := by
  rw [entityType, Device.realType]
  by_cases hown : d.entityType ≠ "" ∧ d.entityType ≠ StoreTypes.default
  · rw [if_pos hown, if_pos hown]
    exact iff_of_true rfl fun h => hown.2 h.1
  · rw [if_neg hown, if_neg hown]
    by_cases hservice : service.fields.get StoreTypes.entityType "" ≠ ""
    · rw [if_pos hservice, if_pos hservice]
      exact iff_of_true rfl fun h => hservice h.2
    · rw [if_neg hservice, if_neg hservice]
      rw [ne_eq, not_not] at hservice
      by_cases hempty : d.entityType = ""
      · have hnot : ¬ (ofDevice d).type ≠ "" := not_not_intro hempty
        rw [if_neg hnot, hempty]
        exact iff_of_true rfl fun h => absurd h.1 (by decide)
      · have hdefault : d.entityType = StoreTypes.default := by
          by_contra hne
          exact hown ⟨hempty, hne⟩
        have hpos : (ofDevice d).type ≠ "" := hempty
        rw [if_pos hpos]
        refine iff_of_false ?_ (not_not_intro ⟨hdefault, hservice⟩)
        show d.entityType ≠ "thing"
        rw [hdefault]
        decide

/-- The names agree if the device has one, or neither a name nor a type. -/
lemma entityId_eq_iff (htype : entityType service.fields d (ofDevice d) =
    d.realType service.fields) :
    entityId service.fields d (ofDevice d) = d.getRealName service.fields ↔
      d.Named ∨ d.entityType = "" := by
  rw [entityId]
  by_cases hnamed : d.Named
  · have hname : d.entityName ≠ "" ∧ d.entityName ≠ StoreTypes.default := hnamed
    rw [if_pos hname, Device.getRealName_eq, if_pos hnamed]
    exact iff_of_true rfl (.inl hnamed)
  · have hname : ¬ (d.entityName ≠ "" ∧ d.entityName ≠ StoreTypes.default) := hnamed
    rw [if_neg hname]
    by_cases hempty : d.entityType = ""
    · have hent : (ofDevice d).type = "" := hempty
      rw [if_pos hent, htype, Device.getRealName_eq, if_neg hnamed]
      exact iff_of_true rfl (.inr hempty)
    · have hent : ¬ (ofDevice d).type = "" := hempty
      rw [if_neg hent]
      refine iff_of_false (fun heq => ?_) (by simp [hnamed, hempty])
      -- the name that is kept is none
      have hreal := d.getRealName_named service.fields
      have hid : d.entityName = d.getRealName service.fields := heq
      rw [← hid] at hreal
      exact hname hreal

/-- **The registered entity**: it is the published one exactly if the device has no type of
its own, or a name and, where its type is the default, a service with a type. -/
theorem registersPublished_iff (service : ServiceInfo) (d : Device) :
    RegistersPublished service d ↔ d.entityType = "" ∨
      (d.Named ∧ (d.entityType ≠ StoreTypes.default ∨
        service.fields.get StoreTypes.entityType "" ≠ "")) := by
  rw [registersPublished_iff_eq]
  constructor
  · rintro ⟨hid, htype⟩
    rcases (entityId_eq_iff htype).mp hid with hnamed | hempty
    · have hnot := entityType_eq_iff.mp htype
      rw [not_and_or] at hnot
      exact .inr ⟨hnamed, hnot⟩
    · exact .inl hempty
  · intro h
    have htype : entityType service.fields d (ofDevice d) = d.realType service.fields := by
      refine entityType_eq_iff.mpr ?_
      rintro ⟨hdefault, hservice⟩
      rcases h with hempty | ⟨-, hne | hne⟩
      · rw [hempty] at hdefault
        exact absurd hdefault (by decide)
      · exact hne hdefault
      · exact hne hservice
    refine ⟨(entityId_eq_iff htype).mpr ?_, htype⟩
    rcases h with hempty | ⟨hnamed, -⟩
    · exact .inr hempty
    · exact .inl hnamed

/-- The device of the cache keeps the name of its entity when the registration is right. -/
theorem getRealName_registered {d' : Device} (h : RegistersPublished service d)
    {cr : ContextRegistration} (hd : (cr.setEnvInfo service.fields (some d)).2 = some d') :
    d'.getRealName service.fields = d.getRealName service.fields := by
  obtain ⟨hid, -⟩ := registersPublished_iff_eq.mp h
  have hname : d'.entityName = d.getRealName service.fields := by
    cases hd
    exact hid
  have hnamed : d'.Named := by
    rw [Device.Named, hname]
    exact d.getRealName_named service.fields
  rw [Device.getRealName_eq, if_pos hnamed, hname]

/-- A device with a type and without a name is registered without a name. -/
theorem not_registersPublished_typed :
    ¬ RegistersPublished ⟨[], [], []⟩
      { Device.ofName "dev1" "service" with entityType := "room" } := by
  intro h
  have hcond := (registersPublished_iff _ _).mp h
  revert hcond
  decide

end ContextRegistration

end IotAgent
