import IotAgent.Lib.Attempts
import IotAgent.Ngsi.AddAttribute

/-!
Elements with the environment of a device and its service.

An element takes its identifier and its type from the device and the service, and their
static attributes. As the names with a mapping are finitely many, the calls of
`add_attribute` end within a number that is known, or never.

* `Stop`: how the work on an element comes to a stop;
* `add`: `add_attribute` without a bound, by `add_eq_ok_iff` and `add_eq_endless_iff`;
* `setEnvInfo`: `set_env_info`;
* `Alias`, `Lost`: where the mappings lead from a name, and when a value is lost on the way;
* `add_cases`: what becomes of an attribute with a text.
-/

namespace IotAgent

/-- How a function comes to a stop without a result. -/
inductive Stop where
  | iota (e : IotaException)
  | runtimeError (what : String)
  | other (what : String)
  | outOfBounds
  | assertion
  | endless
  deriving DecidableEq

/-- The stops that are exceptions. -/
def Stop.IsException : Stop → Prop
  | .iota _ | .runtimeError _ | .other _ => True
  | .outOfBounds | .assertion | .endless => False

instance : DecidablePred Stop.IsException := fun stop => by
  cases stop <;> first | exact isTrue trivial | exact isFalse id

/-- A failure of an attribute stops the work. -/
def AttributeFailure.stop : AttributeFailure → Stop
  | .runtimeError what => .runtimeError what
  | .assertion => .assertion

namespace EnvElement

/-! ### Calls without a bound -/

section Depth

variable {lib : JsonLib} {e : EnvElement} {attr : FullAttribute} {n : ℕ}

/-- More calls than these are never of use. -/
def depth (e : EnvElement) : ℕ :=
  e.names.length + 2

/-- A result does not change with the bound. -/
lemma addAttribute_succ {r : Except AttributeFailure EnvElement}
    (hr : addAttribute lib e n attr = some r) : addAttribute lib e (n + 1) attr = some r := by
  induction n generalizing attr with
  | zero => cases hr
  | succ n ih =>
      rw [addAttribute] at hr
      rw [addAttribute]
      by_cases hempty : attr.withDefaultType.isEmptyValue = true
      · rw [if_pos hempty] at hr ⊢
        exact hr
      · rw [if_neg hempty] at hr ⊢
        cases hm : e.mapping lib attr.withDefaultType.name with
        | mapsTo att =>
            rw [hm] at hr
            exact ih hr
        | absent | unreadable | failure =>
            rw [hm] at hr
            exact hr

lemma addAttribute_mono {m : ℕ} {r : Except AttributeFailure EnvElement} (hmn : n ≤ m)
    (hr : addAttribute lib e n attr = some r) : addAttribute lib e m attr = some r := by
  induction m, hmn using Nat.le_induction with
  | base => exact hr
  | succ m _ ih => exact addAttribute_succ ih

/-- As many calls as the chain has steps suffice. -/
lemma addAttribute_of_iter {k : ℕ} (hkept : Kept attr)
    (hk : Chain.iter (next lib e (isCompound attr)) k attr.name = none) :
    addAttribute lib e (k + 1) attr ≠ none := by
  induction k generalizing attr with
  | zero => cases hk
  | succ k ih =>
      rcases addAttribute_cases lib e hkept with ⟨-, hend⟩ | ⟨attr', hnext, hkept', hsame, hcall⟩
      · exact hend k
      · rw [Chain.iter, hnext, Option.bind_some, ← hsame] at hk
        rw [hcall]
        exact ih hkept' hk

/-- The calls end within the depth or never. -/
theorem addAttribute_depth {r : Except AttributeFailure EnvElement}
    (hr : addAttribute lib e n attr = some r) : addAttribute lib e e.depth attr = some r := by
  have hne : addAttribute lib e e.depth attr ≠ none := by
    by_cases hkept : Kept attr
    · have hends : Chain.Ends (next lib e (isCompound attr)) attr.name :=
        (terminates_iff_ends hkept).mp ⟨n, by rw [hr]; simp⟩
      exact addAttribute_of_iter hkept (hends.bound fun _ => mem_names)
    · exact addAttribute_of_not_kept hkept _
  obtain ⟨r', hr'⟩ := Option.ne_none_iff_exists'.mp hne
  rcases Nat.le_total n e.depth with hle | hle
  · exact addAttribute_mono hle hr
  · rw [← hr, addAttribute_mono hle hr', hr']

end Depth

/-- `add_attribute`. -/
def add (lib : JsonLib) (e : EnvElement) (attr : FullAttribute) : Except Stop EnvElement :=
  match addAttribute lib e e.depth attr with
  | some (.ok e') => .ok e'
  | some (.error failure) => .error failure.stop
  | none => .error .endless

/-- What `add` gives is what enough calls give. -/
theorem add_eq_ok_iff {lib : JsonLib} {e e' : EnvElement} {attr : FullAttribute} :
    e.add lib attr = .ok e' ↔ ∃ n, addAttribute lib e n attr = some (.ok e') := by
  constructor
  · intro hadd
    refine ⟨e.depth, ?_⟩
    rw [add] at hadd
    cases hcall : addAttribute lib e e.depth attr with
    | none =>
        rw [hcall] at hadd
        cases hadd
    | some r =>
        rw [hcall] at hadd
        cases r with
        | error failure => cases hadd
        | ok e'' =>
            cases hadd
            rfl
  · rintro ⟨n, hn⟩
    rw [add, addAttribute_depth hn]

/-- It does not end only where no number of calls is enough. -/
theorem add_eq_endless_iff {lib : JsonLib} {e : EnvElement} {attr : FullAttribute} :
    e.add lib attr = .error .endless ↔ ∀ n, addAttribute lib e n attr = none := by
  constructor
  · intro hadd n
    by_contra hne
    obtain ⟨r, hr⟩ := Option.ne_none_iff_exists'.mp hne
    rw [add, addAttribute_depth hr] at hadd
    cases r with
    | ok e' => cases hadd
    | error failure => cases failure <;> cases hadd
  · intro hall
    rw [add, hall]

/-! ### The environment -/

/-- The constructor from the identifier, the type and the kind of the identifier. -/
def ofTexts (id type isPattern : String) : EnvElement where
  id := Text.renderIdentifier id
  type := Text.renderIdentifier type
  isPattern := isPattern
  attributes := []
  deviceInfo := none
  serviceInfo := ⟨[], [], []⟩

/-- The identifier and the type, from the device and the service. -/
def format (e : EnvElement) : EnvElement :=
  let serviceEntityType := e.serviceInfo.fields.get StoreTypes.entityType ""
  let ownType :=
    if e.type ≠ "" then e.type
    else if serviceEntityType ≠ "" then serviceEntityType
    else "thing"
  match e.deviceInfo with
  | some device =>
      let entityType :=
        if device.entityType ≠ "" ∧ device.entityType ≠ StoreTypes.default then device.entityType
        else ownType
      let entityId :=
        if device.entityName ≠ "" ∧ device.entityName ≠ StoreTypes.default then device.entityName
        else if e.type = "" then entityType ++ ":" ++ device.name
        else e.id
      { e with id := entityId, type := entityType }
  | none => { e with id := if e.type = "" then ownType ++ ":" ++ e.id else e.id, type := ownType }

/-- Whether the element has an attribute of a name. -/
def existsName (e : EnvElement) (name : String) : Bool :=
  e.attributes.any fun att => att.name = name

/-- The metadata with the time of an attribute. -/
def timeInstant (date : String) : Attribute :=
  Attribute.ofTexts "TimeInstant" "ISO8601" date

/-- A static attribute, given by its text. A text that is not JSON adds nothing. -/
def addStatic (lib : JsonLib) (timestamp : String) (e : EnvElement) (text : String) :
    Except Stop EnvElement :=
  match lib.parse text with
  | none => .ok e
  | some d =>
      match FullAttribute.ofJson lib.write d with
      | .error failure => .error failure.stop
      | .ok att => e.add lib (att.addMetadata (timeInstant timestamp))

/-- A static attribute of a service, unless the element has one of its name. -/
def addServiceStatic (lib : JsonLib) (timestamp : String) (e : EnvElement) (v : ServiceStatic) :
    Except Stop EnvElement :=
  if v.name ≠ "" ∧ e.existsName v.name = false ∧ v.value ≠ "" then
    addStatic lib timestamp e v.json
  else .ok e

/-- `set_env_info`. -/
def setEnvInfo (lib : JsonLib) (serviceInfo : ServiceInfo) (device : Option Device)
    (timestamp : String) (e : EnvElement) : Except Stop EnvElement := do
  let e := { e with serviceInfo, deviceInfo := device }.format
  let ofDevice := ((device.map Device.staticAttributes).getD []).map Prod.snd
  let e ← ofDevice.foldlM (addStatic lib timestamp) e
  serviceInfo.staticAttributes.foldlM (addServiceStatic lib timestamp) e

/-! ### What the environment keeps -/

section Kept

variable {lib : JsonLib} {e e' : EnvElement} {attr : FullAttribute}

/-- An element under the same mappings. -/
def SameInfo (e e' : EnvElement) : Prop :=
  e'.deviceInfo = e.deviceInfo ∧ e'.serviceInfo = e.serviceInfo

lemma SameInfo.mapping (hsame : SameInfo e e') : e'.mapping lib = e.mapping lib := by
  funext name
  rw [EnvElement.mapping, EnvElement.mapping, attrMapping, attrMapping, hsame.1, hsame.2]

lemma SameInfo.trans {e'' : EnvElement} (h : SameInfo e e') (h' : SameInfo e' e'') :
    SameInfo e e'' :=
  ⟨h'.1.trans h.1, h'.2.trans h.2⟩

/-- The same element, with other attributes. -/
def UpToAttributes (e e' : EnvElement) : Prop :=
  ∃ attributes, e' = { e with attributes }

lemma UpToAttributes.refl (e : EnvElement) : UpToAttributes e e := ⟨e.attributes, rfl⟩

lemma UpToAttributes.trans {e'' : EnvElement} (h : UpToAttributes e e')
    (h' : UpToAttributes e' e'') : UpToAttributes e e'' := by
  obtain ⟨attributes, rfl⟩ := h
  obtain ⟨attributes', rfl⟩ := h'
  exact ⟨attributes', rfl⟩

lemma UpToAttributes.sameInfo (h : UpToAttributes e e') : SameInfo e e' := by
  obtain ⟨attributes, rfl⟩ := h
  exact ⟨rfl, rfl⟩

lemma add_upToAttributes (hadd : e.add lib attr = .ok e') : UpToAttributes e e' := by
  obtain ⟨n, hn⟩ := add_eq_ok_iff.mp hadd
  rcases addAttribute_atMostOne hn with rfl | ⟨att, rfl⟩
  · exact UpToAttributes.refl e'
  · exact ⟨_, rfl⟩

lemma addStatic_upToAttributes {timestamp text : String}
    (hadd : addStatic lib timestamp e text = .ok e') : UpToAttributes e e' := by
  rw [addStatic] at hadd
  split at hadd
  · cases hadd
    exact UpToAttributes.refl e
  · split at hadd
    · cases hadd
    · exact add_upToAttributes hadd

lemma addServiceStatic_upToAttributes {timestamp : String} {v : ServiceStatic}
    (hadd : addServiceStatic lib timestamp e v = .ok e') : UpToAttributes e e' := by
  rw [addServiceStatic] at hadd
  split at hadd
  · exact addStatic_upToAttributes hadd
  · cases hadd
    exact UpToAttributes.refl e

/-- What the steps of a loop keep, the loop keeps. -/
lemma foldlM_upToAttributes {α : Type} {f : EnvElement → α → Except Stop EnvElement}
    (hf : ∀ e a e', f e a = .ok e' → UpToAttributes e e') {l : List α}
    (hl : l.foldlM f e = .ok e') : UpToAttributes e e' :=
  Attempts.foldlM_induction (P := UpToAttributes e)
    (fun s a s' hs hstep => hs.trans (hf s a s' hstep)) (UpToAttributes.refl e) hl

/-- The static attributes come behind the identifier and the type. -/
lemma setEnvInfo_upToAttributes {serviceInfo : ServiceInfo} {device : Option Device}
    {timestamp : String} (hset : e.setEnvInfo lib serviceInfo device timestamp = .ok e') :
    UpToAttributes { e with serviceInfo, deviceInfo := device }.format e' := by
  rw [setEnvInfo] at hset
  obtain ⟨e₁, hdev, hset⟩ := Attempts.bind_eq_ok_iff.mp hset
  exact (foldlM_upToAttributes (fun _ _ _ => addStatic_upToAttributes) hdev).trans
    (foldlM_upToAttributes (fun _ _ _ => addServiceStatic_upToAttributes) hset)

lemma format_attributes : e.format.attributes = e.attributes := by
  rw [format]
  split <;> rfl

lemma format_sameInfo : SameInfo e e.format := by
  rw [format]
  split <;> exact ⟨rfl, rfl⟩

/-- The environment is the one that was set. -/
lemma setEnvInfo_sameInfo {serviceInfo : ServiceInfo} {device : Option Device}
    {timestamp : String} (hset : e.setEnvInfo lib serviceInfo device timestamp = .ok e') :
    SameInfo { e with serviceInfo, deviceInfo := device } e' :=
  format_sameInfo.trans (setEnvInfo_upToAttributes hset).sameInfo

end Kept

/-! ### Names and values under a mapping -/

/-- The value under a mapping. Coordinates are written with commas. -/
def valueUnder (att : FullAttribute) (value : String) : String :=
  if att.type = StoreTypes.coords then Text.replaceAll value '/' ',' else value

/-- Where the mappings lead from a name and a value. -/
inductive Alias (mapping : String → Mapping) : String → String → String → String → Prop
  | unmapped {name value : String} : mapping name = .absent → Alias mapping name value name value
  | mapped {name value name' value' : String} {att : FullAttribute} :
      mapping name = .mapsTo att → att.type ≠ Attribute.compound →
      Alias mapping (Attribute.renderName att.name) (valueUnder att value) name' value' →
      Alias mapping name value name' value'

/-- The mappings lead from a name to a text that cannot be read, or to a compound type. -/
inductive Lost (mapping : String → Mapping) : String → Prop
  | unreadable {name : String} : mapping name = .unreadable → Lost mapping name
  | compound {name : String} {att : FullAttribute} : mapping name = .mapsTo att →
      att.type = Attribute.compound → Lost mapping name
  | mapped {name : String} {att : FullAttribute} : mapping name = .mapsTo att →
      att.type ≠ Attribute.compound → Lost mapping (Attribute.renderName att.name) →
      Lost mapping name

/-- A name whose values are lost leads nowhere. -/
lemma Lost.not_alias {mapping : String → Mapping} {name value name' value' : String}
    (hlost : Lost mapping name) : ¬ Alias mapping name value name' value' := by
  intro halias
  induction halias with
  | unmapped habsent =>
      cases hlost with
      | unreadable hmap | compound hmap | mapped hmap =>
          rw [habsent] at hmap
          cases hmap
  | mapped hmap htype _ ih =>
      cases hlost with
      | unreadable hmap' =>
          rw [hmap] at hmap'
          cases hmap'
      | compound hmap' htype' =>
          rw [hmap, Mapping.mapsTo.injEq] at hmap'
          exact htype (hmap' ▸ htype')
      | mapped hmap' _ hlost' =>
          rw [hmap, Mapping.mapsTo.injEq] at hmap'
          exact ih (hmap' ▸ hlost')

section Cases

variable {lib : JsonLib} {e e' : EnvElement} {attr att : FullAttribute} {n : ℕ}

lemma replaceAll_replaceAll (s : String) :
    Text.replaceAll (Text.replaceAll s '/' ',') '/' ',' = Text.replaceAll s '/' ',' := by
  rw [Text.replaceAll, Text.replaceAll, String.toList_ofList, List.map_map]
  congr 1
  refine List.map_congr_left fun c _ => ?_
  by_cases hc : c = '/' <;> simp [hc]

/-- An attribute of the type of coordinates has its commas already. -/
def Written (attr : FullAttribute) : Prop :=
  attr.type = StoreTypes.coords → Text.replaceAll attr.value '/' ',' = attr.value

lemma mapped_value (htype : attr.mappedType att ≠ Attribute.compound) :
    (attr.mapped att).value = if attr.mappedType att = StoreTypes.coords then
      Text.replaceAll attr.value '/' ',' else attr.value := by
  rw [FullAttribute.mapped, FullAttribute.addMetadatas_toAttribute,
    FullAttribute.addMetadatas_toAttribute, FullAttribute.handValue, dif_neg (by rwa [fresh_type]),
    fresh_type]
  split <;> rfl

lemma mappedType_of_flat (hattr : attr.type ≠ Attribute.compound) (hne : attr.type ≠ "") :
    attr.mappedType att = if att.type = "" then attr.type else att.type := by
  rw [FullAttribute.mappedType]
  by_cases hatt : att.type = ""
  · rw [if_pos (Or.inl hatt), if_pos hatt, if_neg hne]
  · rw [if_neg (not_or.mpr ⟨hatt, hattr⟩), if_neg hatt, if_neg hatt]

/-- The value that comes out of a mapping, when the commas of coordinates are written. -/
lemma mapped_value_eq (hattr : attr.type ≠ Attribute.compound) (hne : attr.type ≠ "")
    (hatt : att.type ≠ Attribute.compound) (hwritten : Written attr) :
    (attr.mapped att).value = valueUnder att attr.value := by
  have hcoords : "" ≠ StoreTypes.coords := by decide
  rw [mapped_value (mappedType_ne_compound hattr hatt), mappedType_of_flat hattr hne, valueUnder]
  by_cases hnil : att.type = ""
  · rw [if_pos hnil, hnil, if_neg hcoords]
    by_cases hc : attr.type = StoreTypes.coords
    · rw [if_pos hc, hwritten hc]
    · rw [if_neg hc]
  · rw [if_neg hnil]

lemma written_mapped (hattr : attr.type ≠ Attribute.compound)
    (hatt : att.type ≠ Attribute.compound) : Written (attr.mapped att) := by
  intro hcoords
  rw [mapped_type] at hcoords
  rw [mapped_value (mappedType_ne_compound hattr hatt), if_pos hcoords, replaceAll_replaceAll]

@[simp] lemma withDefaultType_value : attr.withDefaultType.value = attr.value := by
  rw [FullAttribute.withDefaultType]
  split <;> rfl

lemma written_withDefaultType (hwritten : Written attr) : Written attr.withDefaultType := by
  have hstring : "string" ≠ StoreTypes.coords := by decide
  rw [FullAttribute.withDefaultType]
  split
  · exact fun h => absurd h hstring
  · exact hwritten

/-- What becomes of an attribute with a text: it is lost, or comes to the element under the
name and with the value to which the mappings lead. -/
theorem addAttribute_text (hflat : isCompound attr = false) (hvalue : attr.value ≠ "")
    (hwritten : Written attr) (hok : addAttribute lib e n attr = some (.ok e')) :
    (Lost (e.mapping lib) attr.name ∧ e' = e) ∨
    ∃ att, Alias (e.mapping lib) attr.name attr.value att.name att.value ∧ e' = e.push att := by
  induction n generalizing attr with
  | zero => cases hok
  | succ n ih =>
      have hflat' : attr.type ≠ Attribute.compound := of_decide_eq_false hflat
      have hkept : Kept attr.withDefaultType :=
        kept_withDefaultType.mpr ((kept_of_flat hflat').mpr hvalue)
      rw [addAttribute, hkept.isEmptyValue, if_neg Bool.false_ne_true, withDefaultType_name] at hok
      cases hm : e.mapping lib attr.name with
      | absent =>
          rw [hm] at hok
          cases hok
          refine Or.inr ⟨attr.withDefaultType, ?_, rfl⟩
          rw [withDefaultType_name, withDefaultType_value]
          exact .unmapped hm
      | unreadable =>
          rw [hm] at hok
          cases hok
          exact Or.inl ⟨.unreadable hm, rfl⟩
      | failure failure =>
          rw [hm] at hok
          cases hok
      | mapsTo att =>
          rw [hm] at hok
          have hok' : addAttribute lib e n (attr.withDefaultType.mapped att) = some (.ok e') := hok
          have hattr : attr.withDefaultType.type ≠ Attribute.compound :=
            of_decide_eq_false (isCompound_withDefaultType.trans hflat)
          by_cases hatt : att.type = Attribute.compound
          · -- the text is not a list of members, so nothing is left of it
            have hempty := mapped_isEmptyValue_of_flat hattr hatt
            cases n with
            | zero => cases hok'
            | succ n =>
                rw [addAttribute_of_empty (by rw [mapped_withDefaultType, hempty])] at hok'
                cases hok'
                exact Or.inl ⟨.compound hm hatt, rfl⟩
          · have htype := mappedType_ne_compound hattr hatt
            have hvalue' : (attr.withDefaultType.mapped att).value ≠ "" :=
              mapped_of_flat htype (by rwa [withDefaultType_value])
            have hflat'' : isCompound (attr.withDefaultType.mapped att) = false := by
              rw [isCompound, mapped_type]
              exact decide_eq_false htype
            have heq := mapped_value_eq hattr withDefaultType_type_ne hatt
              (written_withDefaultType hwritten)
            rw [withDefaultType_value] at heq
            rcases ih hflat'' hvalue' (written_mapped hattr hatt) hok' with
              ⟨hlost, rfl⟩ | ⟨att', halias, rfl⟩
            · rw [mapped_name] at hlost
              exact Or.inl ⟨.mapped hm hatt hlost, rfl⟩
            · rw [mapped_name, heq] at halias
              exact Or.inr ⟨att', .mapped hm hatt halias, rfl⟩

/-- What `add` makes of an attribute with a text. -/
theorem add_cases (hflat : isCompound attr = false) (hvalue : attr.value ≠ "")
    (hwritten : Written attr) (hadd : e.add lib attr = .ok e') :
    (Lost (e.mapping lib) attr.name ∧ e' = e) ∨
    ∃ att, Alias (e.mapping lib) attr.name attr.value att.name att.value ∧ e' = e.push att := by
  obtain ⟨n, hn⟩ := add_eq_ok_iff.mp hadd
  exact addAttribute_text hflat hvalue hwritten hn

end Cases

end EnvElement

end IotAgent
