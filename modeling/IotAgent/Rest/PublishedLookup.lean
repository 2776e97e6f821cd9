import IotAgent.Ngsi.PublishedId
import IotAgent.Rest.RestHandle
import IotAgent.Util.DevFile

/-!
The look-up of a device by the entity that the agent publishes for it.

The identifier is the name of the entity, or a type and the name of the device with a colon
between them. The look-up takes it apart again at the first colon, whichever of the two it is.

* `RestHandle.kept`: the devices of the agent, those of its store or those of its file;
* `EntityFound`, `EntityMissed`, `NameFound`: when a search for a device ends with it, or
  with nothing;
* `RestHandle.getDeviceByEntity_published_iff`: when the look-up ends with the device;
* `RestHandle.findable_iff_of_restarted`: the same in front of an empty cache, and
  `RestHandle.findable_iff_of_fromFile`, for the devices of a file;
* `RestHandle.lost_devices`: devices that are not found.
-/

namespace IotAgent

open HashIndex Mongo

/-! ### Colons -/

namespace RestHandle

section Colons

variable {s t : String}

lemma toList_join : (s ++ ":" ++ t).toList = s.toList ++ ':' :: t.toList := by
  simp

lemma ne_colon_of_mem {l : List Char} (hl : ':' ∉ l) : ∀ x ∈ l, x ≠ ':' := by
  rintro x hx rfl
  exact hl hx

lemma afterColon_of_toList {as bs : List Char} (hs : s.toList = as ++ ':' :: bs)
    (has : ':' ∉ as) : afterColon s = some (String.ofList bs) := by
  rw [afterColon, hs, List.dropWhile_append_of_pos (by simpa using ne_colon_of_mem has)]
  simp

lemma afterColon_eq_none_iff : afterColon s = none ↔ ':' ∉ s.toList := by
  constructor
  · intro hn hmem
    obtain ⟨as, bs, hs, has⟩ := List.eq_append_cons_of_mem hmem
    rw [afterColon_of_toList hs has] at hn
    cases hn
  · intro hno
    have hnil : s.toList.dropWhile (· ≠ ':') = [] := by
      rw [List.dropWhile_eq_nil_iff]
      simpa using ne_colon_of_mem hno
    rw [afterColon, hnil]

/-- Up to the first colon. -/
lemma afterColon_join (h : ':' ∉ s.toList) : afterColon (s ++ ":" ++ t) = some t := by
  rw [afterColon_of_toList toList_join h, String.ofList_toList]

/-- A colon in the first part leaves more than the second one. -/
lemma afterColon_join_of_mem (h : ':' ∈ s.toList) :
    ∃ u, afterColon (s ++ ":" ++ t) = some (u ++ ":" ++ t) := by
  obtain ⟨as, bs, hs, has⟩ := List.eq_append_cons_of_mem h
  refine ⟨String.ofList bs, ?_⟩
  have hjoin : (s ++ ":" ++ t).toList = as ++ ':' :: (bs ++ ':' :: t.toList) := by
    rw [toList_join, hs]
    simp
  rw [afterColon_of_toList hjoin has, Option.some.injEq, ← String.toList_inj]
  simp

lemma ne_join : t ≠ s ++ ":" ++ t := by
  intro heq
  have hlen := congrArg String.length heq
  simp at hlen

end Colons

/-! ### The devices of the agent -/

variable {h : Hashing} (lib : JsonLib) (J : JsonText) (o : Order Device String)

/-- The parts of a key that are not empty are those of the device. -/
def Fits (key d : Device) : Prop :=
  (key.name ≠ "" → d.name = key.name) ∧
  (key.service ≠ "" → d.service = key.service) ∧
  (key.servicePath ≠ "" → d.servicePath = key.servicePath) ∧
  (key.protocol ≠ "" → d.protocol = key.protocol) ∧
  (key.entityName ≠ "" → d.entityName = key.entityName) ∧
  (key.entityType ≠ "" → d.entityType = key.entityType)

instance (key d : Device) : Decidable (Fits key d) := inferInstanceAs (Decidable (_ ∧ _))

/-- The first device of a list that a key fits. -/
def FirstFit (key d : Device) (l : List Device) : Prop :=
  ∃ as bs, l = as ++ d :: bs ∧ Fits key d ∧ ∀ e ∈ as, ¬ Fits key e

variable (r : RestHandle h)

/-- The devices of the store; there are none without a database. -/
def stored : List Device :=
  if r.storageType = StoreTypes.mongodb then
    r.deviceTable.docs.map (DeviceCollection.bson2Obj J)
  else []

/-- The devices of the agent: those of its store, or else those that it holds. -/
def kept : List Device :=
  if r.storageType = StoreTypes.mongodb then r.stored J else r.registeredDevices.list

/-- An agent without a database that holds the devices of its file. -/
structure FromFile (document : Json) : Prop where
  storage : r.storageType ≠ StoreTypes.mongodb
  devices : r.registeredDevices.list.Perm (DevicesFile.parseToCache lib document
    (Cache.empty Types.maxSizeCache false : Cache h)).list

/-- A device of the handler: a stored one of its protocol, or one of its file. -/
inductive Handles (document : Json) (d : Device) : Prop
  | stored (hd : d ∈ r.stored J) (hprotocol : d.protocol = r.protocol)
  | loaded (hfile : r.FromFile lib document) (hd : d ∈ r.registeredDevices.list)

/-- An active device of the handler, the only one of its tenant with its real name. -/
structure Published (document : Json) (service : PTree) (d : Device) : Prop where
  handled : r.Handles lib J document d
  active : d.active ≠ 0
  servicePath : d.servicePath ≠ ""
  only : ∀ e ∈ r.kept J, e.service = d.service → e.servicePath = d.servicePath →
    e.getRealName service = d.getRealName service → e = d

variable {lib J o r} {document : Json} {service : PTree} {d e key : Device}

lemma find?_fits_iff {l : List Device} :
    (l.find? fun e => Fits key e) = some d ↔ FirstFit key d l := by
  rw [List.find?_eq_some_iff_append, FirstFit]
  simp only [decide_eq_true_eq, Bool.not_eq_eq_eq_not, Bool.not_true, decide_eq_false_iff_not]
  exact ⟨fun ⟨hfit, as, bs, hl, has⟩ => ⟨as, bs, hl, hfit, has⟩,
    fun ⟨as, bs, hl, hfit, has⟩ => ⟨hfit, as, bs, hl, has⟩⟩

lemma mongodb_of_mem_stored (hd : d ∈ r.stored J) : r.storageType = StoreTypes.mongodb := by
  by_contra hno
  rw [stored, if_neg hno] at hd
  cases hd

lemma mem_kept_of_mem_stored (hd : d ∈ r.stored J) : d ∈ r.kept J := by
  rwa [kept, if_pos (mongodb_of_mem_stored hd)]

/-- The store answers with the first device that the key fits. -/
lemma findOne_eq_find? {table : DeviceTable}
    {name service servicePath entityName entityType protocol : String}
    (hkey : key =
      DeviceCollection.keyOf name service servicePath entityName entityType protocol) :
    DeviceCollection.findOne J table key =
      (table.docs.map (DeviceCollection.bson2Obj J)).find? fun e => Fits key e := by
  have hfits : ∀ doc, Fits key (DeviceCollection.bson2Obj J doc) ↔
      Matches (DeviceCollection.obj2BSON J key) doc := by
    intro doc
    rw [hkey]
    exact (DeviceCollection.matches_key J).symm
  have hfun : ((fun e => decide (Fits key e)) ∘ DeviceCollection.bson2Obj J) =
      fun doc => decide (Matches (DeviceCollection.obj2BSON J key) doc) :=
    funext fun doc => decide_eq_decide.mpr (hfits doc)
  rw [List.find?_map, hfun]
  rfl

lemma fetch_eq {name service servicePath entityName entityType protocol : String}
    (hkey : key =
      DeviceCollection.keyOf name service servicePath entityName entityType protocol) :
    ((r.getFunction J).bind fun getFunction => getFunction key) =
      (r.stored J).find? fun e => Fits key e := by
  rw [getFunction, stored]
  split
  · exact findOne_eq_find? hkey
  · rfl

lemma FromFile.getFunction_eq (hfile : r.FromFile lib document) : r.getFunction J = none := by
  rw [getFunction, if_neg hfile.storage]

/-- A search without a store changes the order of the devices only. -/
lemma searchByEntity_list_perm (hnone : r.getFunction J = none)
    (name entityType service servicePath : String) :
    (r.searchByEntity J o name entityType service servicePath).1.registeredDevices.list.Perm
      r.registeredDevices.list := by
  have hentity : ∀ (c : Cache h) (key : Device),
      (c.getByEntity o none key).1.list.Perm c.list := fun c key =>
    Cache.readThrough_list_perm fun _ hd => Order.mem_of_find hd
  have hname : ∀ (c : Cache h) (key : Device), (c.get none key).1.list.Perm c.list :=
    fun c key => Cache.readThrough_list_perm fun _ hd => (BoundedSeq.mem_of_find hd).1
  have hfirst := hentity r.registeredDevices (r.itemQ name entityType service servicePath)
  rw [searchByEntity, hnone]
  dsimp only
  split
  · next c d heq =>
      rw [heq] at hfirst
      exact hfirst
  · next c heq =>
      rw [heq] at hfirst
      dsimp only at hfirst ⊢
      split
      · exact (hname c _).trans hfirst
      · exact (hentity c _).trans hfirst

lemma searchByEntity_storageType (name entityType service servicePath : String) :
    (r.searchByEntity J o name entityType service servicePath).1.storageType =
      r.storageType := by
  rw [searchByEntity]
  dsimp only
  split <;> rfl

lemma getDeviceByEntity_fst (name entityType service servicePath : String) :
    (r.getDeviceByEntity J o name entityType service servicePath).1 =
      (r.searchByEntity J o name entityType service servicePath).1 := by
  rw [getDeviceByEntity]
  obtain ⟨r', result⟩ := r.searchByEntity J o name entityType service servicePath
  cases result with
  | none => rfl
  | some d =>
      dsimp only
      split <;> rfl

/-- A look-up leaves an agent with the devices of its file. -/
theorem FromFile.getDeviceByEntity (hfile : r.FromFile lib document)
    (name entityType service servicePath : String) :
    (r.getDeviceByEntity J o name entityType service servicePath).1.FromFile lib document := by
  rw [getDeviceByEntity_fst]
  refine ⟨by simpa only [searchByEntity_storageType] using hfile.storage, ?_⟩
  exact (searchByEntity_list_perm hfile.getFunction_eq _ _ _ _).trans hfile.devices

/-- A device of the file has no protocol. -/
lemma FromFile.protocol_eq (hfile : r.FromFile lib document)
    (hd : d ∈ r.registeredDevices.list) : d.protocol = "" := by
  rcases DevicesFile.mem_parseToCache (hfile.devices.mem_iff.mp hd) with hno | ⟨item, hitem⟩
  · cases hno
  · exact (DevicesFile.deviceOfJson_spec hitem).2

/-! ### When a search ends with the device -/

variable (J o r)

/-- The key under which the entity of a device is searched, with a type. -/
def entityKey (d : Device) (entityType : String) : Device :=
  r.itemQ d.entityName entityType d.service d.servicePath

/-- The search for the entity of a device ends with the device. No other device is cached
first under the joined key, and the type is right: in a store the one of the device or none,
in the cache alone also the protocol. With a service that is empty the store is searched in
all services. -/
structure EntityFound (d : Device) (entityType : String) : Prop where
  cached : ∀ e, o.find Device.uniqueEntity (r.entityKey d entityType).uniqueEntity
    r.registeredDevices.list = some e → e = d
  typed : r.storageType = StoreTypes.mongodb → entityType = "" ∨ entityType = d.entityType
  joined : r.storageType ≠ StoreTypes.mongodb →
    (r.entityKey d entityType).uniqueEntity = d.uniqueEntity
  first : r.storageType = StoreTypes.mongodb → d.service = "" →
    (∀ e ∈ r.registeredDevices.list,
      e.uniqueEntity ≠ (r.entityKey d entityType).uniqueEntity) →
    FirstFit (r.entityKey d entityType) d (r.stored J)

/-- The search for the published entity of a device ends with nothing. Nothing is cached
under the joined key, and if the device has a name its type is not the published one. -/
structure EntityMissed (service : PTree) (d : Device) : Prop where
  uncached : ∀ e ∈ r.registeredDevices.list, e.uniqueEntity ≠
    (r.itemQ (d.getRealName service) (d.realType service) d.service d.servicePath).uniqueEntity
  untyped : r.storageType = StoreTypes.mongodb → d.Named → d.entityType ≠ d.realType service
  unfit : d.service = "" → ∀ e ∈ r.stored J, ¬ Fits
    (r.itemQ (d.getRealName service) (d.realType service) d.service d.servicePath) e

/-- The search for a name, in no service path, ends with the device: if anything cached is
taken for the key it is the device, and else the device is the first stored one of the name
and the service, in whatever service path. -/
structure NameFound (d : Device) (name : String) : Prop where
  cached : ∀ e ∈ r.registeredDevices.list, Device.collide h e (Device.ofName name d.service) →
    e = d
  first : (∀ e ∈ r.registeredDevices.list,
      ¬ Device.collide h e (Device.ofName name d.service)) →
    FirstFit (Device.ofName name d.service) d (r.stored J)

/-- The device is found under its published entity: with a name for it under its type, or,
when nothing is found there, without a type if the name has no colon and by what follows the
colon if it has one; without a name by the name of the device, if the type has no colon. -/
def Findable (service : PTree) (d : Device) : Prop :=
  if d.Named then
    r.EntityFound J o d (d.realType service) ∨
    r.EntityMissed J service d ∧
      (':' ∉ d.entityName.toList ∧ r.EntityFound J o d "" ∨
        ∃ name, afterColon d.entityName = some name ∧ r.NameFound J d name)
  else
    r.EntityMissed J service d ∧ ':' ∉ (d.realType service).toList ∧ r.NameFound J d d.name

variable {J o r}

section Searches

variable {name entityType : String}

lemma itemQ_eq_keyOf (hpath : d.servicePath ≠ "") :
    r.itemQ name entityType d.service d.servicePath =
      DeviceCollection.keyOf "" d.service d.servicePath name entityType r.protocol := by
  rw [itemQ, if_neg hpath]

/-- What a key for an entity fits. -/
lemma fits_itemQ_iff (hpath : d.servicePath ≠ "") :
    Fits (r.itemQ name entityType d.service d.servicePath) e ↔
      (d.service ≠ "" → e.service = d.service) ∧ e.servicePath = d.servicePath ∧
      (r.protocol ≠ "" → e.protocol = r.protocol) ∧ (name ≠ "" → e.entityName = name) ∧
      (entityType ≠ "" → e.entityType = entityType) := by
  rw [itemQ_eq_keyOf hpath, Fits]
  simp [DeviceCollection.keyOf, hpath]

lemma fits_ofName_iff :
    Fits (Device.ofName name d.service) e ↔
      (name ≠ "" → e.name = name) ∧ (d.service ≠ "" → e.service = d.service) := by
  rw [Fits]
  simp [Device.ofName]

/-- The joined key of a search for an entity. -/
lemma uniqueEntity_itemQ (hpath : d.servicePath ≠ "") :
    (r.itemQ name entityType d.service d.servicePath).uniqueEntity =
      d.service ++ ":" ++ d.servicePath ++ ":" ++ name ++ ":" ++ entityType ++ ":" ++
        r.protocol := by
  rw [itemQ_eq_keyOf hpath]
  rfl

lemma getByEntity_snd (hpath : d.servicePath ≠ "") :
    (r.registeredDevices.getByEntity o (r.getFunction J)
        (r.itemQ name entityType d.service d.servicePath)).2 =
      (o.find Device.uniqueEntity
          (r.itemQ name entityType d.service d.servicePath).uniqueEntity
          r.registeredDevices.list).or
        ((r.stored J).find? fun e =>
          Fits (r.itemQ name entityType d.service d.servicePath) e) := by
  rw [Cache.getByEntity, Cache.readThrough_snd, fetch_eq (itemQ_eq_keyOf hpath)]

lemma get_snd (hpath : d.servicePath ≠ "") :
    (r.registeredDevices.get (r.getFunction J) (itemQD name d.service d.servicePath)).2 =
      (BoundedSeq.find (Device.collide h) (Device.ofName name d.service)
          r.registeredDevices.list).or
        ((r.stored J).find? fun e => Fits (Device.ofName name d.service) e) := by
  have hkey : itemQD name d.service d.servicePath = Device.ofName name d.service := by
    rw [itemQD]
    exact if_neg hpath
  have hkeyOf : Device.ofName name d.service =
      DeviceCollection.keyOf name d.service "" "" "" "" := rfl
  rw [Cache.get, Cache.readThrough_snd, hkey, fetch_eq hkeyOf]

/-- The search by a name. -/
lemma nameFound_iff (hpath : d.servicePath ≠ "") :
    (r.registeredDevices.get (r.getFunction J) (itemQD name d.service d.servicePath)).2 =
      some d ↔ r.NameFound J d name := by
  rw [get_snd hpath]
  cases hf : BoundedSeq.find (Device.collide h) (Device.ofName name d.service)
      r.registeredDevices.list with
  | some e =>
      obtain ⟨he, hcol⟩ := BoundedSeq.mem_of_find hf
      rw [Option.some_or, Option.some.injEq]
      constructor
      · rintro rfl
        exact ⟨fun x hx hxcol => Cache.eq_of_collide hx he hxcol hcol,
          fun hno => absurd hcol (hno e he)⟩
      · exact fun hfound => hfound.cached e he hcol
  | none =>
      have hno := BoundedSeq.find_eq_none_iff.mp hf
      rw [Option.none_or, find?_fits_iff]
      exact ⟨fun hfirst => ⟨fun e he hcol => absurd hcol (hno e he), fun _ => hfirst⟩,
        fun hfound => hfound.first hno⟩

/-- A device that is found by a name has it, unless the name is empty. -/
lemma NameFound.name_eq (hfound : r.NameFound J d name) (hname : name ≠ "") :
    d.name = name := by
  by_cases hno : ∀ e ∈ r.registeredDevices.list,
      ¬ Device.collide h e (Device.ofName name d.service)
  · obtain ⟨as, bs, -, hfit, -⟩ := hfound.first hno
    exact (fits_ofName_iff.mp hfit).1 hname
  · push Not at hno
    obtain ⟨e, he, hcol⟩ := hno
    rw [← hfound.cached e he hcol]
    exact hcol.2.1

/-- Of two joined keys of one entity the rests are equal. -/
lemma typed_of_joined (hpath : d.servicePath ≠ "")
    (hjoined : (r.entityKey d entityType).uniqueEntity = d.uniqueEntity) :
    entityType ++ ":" ++ r.protocol = d.entityType ++ ":" ++ d.protocol := by
  rw [entityKey, uniqueEntity_itemQ hpath, Device.uniqueEntity] at hjoined
  have hlists := congrArg String.toList hjoined
  rw [← String.toList_inj]
  simpa using hlists

namespace Published

variable (hd : r.Published lib J document service d)

include hd

/-- A device that is not of the store is held. -/
lemma mem_cache (hno : r.storageType ≠ StoreTypes.mongodb) :
    d ∈ r.registeredDevices.list ∧ d.protocol = "" := by
  cases hd.handled with
  | stored hmem _ => exact absurd (mongodb_of_mem_stored hmem) hno
  | loaded hfile hmem => exact ⟨hmem, hfile.protocol_eq hmem⟩

/-- A device of the store has the protocol of the handler. -/
lemma mem_stored (hs : r.storageType = StoreTypes.mongodb) :
    d ∈ r.stored J ∧ d.protocol = r.protocol := by
  cases hd.handled with
  | stored hmem hprotocol => exact ⟨hmem, hprotocol⟩
  | loaded hfile _ => exact absurd hs hfile.storage

/-- A stored device that the key for the published entity fits is the device. -/
lemma eq_of_fits (hservice : d.service ≠ "") (he : e ∈ r.stored J)
    (hnamed : e.Named) (hfit : Fits (r.itemQ (d.getRealName service) entityType d.service
      d.servicePath) e) : e = d := by
  obtain ⟨hs, hp, -, hn, -⟩ := (fits_itemQ_iff hd.servicePath).mp hfit
  refine hd.only e (mem_kept_of_mem_stored he) (hs hservice) hp ?_
  rw [Device.getRealName_eq, if_pos hnamed, hn (d.getRealName_named service).1]

/-- The store finds a device with a name, under its type or none. -/
lemma find?_stored (hnamed : d.Named) (hs : r.storageType = StoreTypes.mongodb)
    (hservice : d.service ≠ "") (htype : entityType = "" ∨ entityType = d.entityType) :
    ((r.stored J).find? fun e => Fits (r.entityKey d entityType) e) = some d := by
  obtain ⟨hmem, hprotocol⟩ := hd.mem_stored hs
  have hfit : Fits (r.entityKey d entityType) d :=
    (fits_itemQ_iff hd.servicePath).mpr ⟨fun _ => rfl, rfl, fun _ => hprotocol, fun _ => rfl,
      fun hne => (htype.resolve_left hne).symm⟩
  obtain ⟨x, hx⟩ : ∃ x, ((r.stored J).find? fun e =>
      Fits (r.entityKey d entityType) e) = some x := by
    rw [← Option.isSome_iff_exists, List.find?_isSome]
    exact ⟨d, hmem, by simpa using hfit⟩
  have hxfit : Fits (r.entityKey d entityType) x := by simpa using List.find?_some hx
  have hxname : x.entityName = d.entityName :=
    ((fits_itemQ_iff hd.servicePath).mp hxfit).2.2.2.1 hnamed.1
  have hxnamed : x.Named := by
    rw [Device.Named, hxname]
    exact hnamed
  have hreal : d.getRealName service = d.entityName := by
    rw [Device.getRealName_eq, if_pos hnamed]
  rw [entityKey, ← hreal] at hxfit
  rw [hx, hd.eq_of_fits hservice (List.mem_of_find?_eq_some hx) hxnamed hxfit]

/-- The search for the entity of a device with a name. -/
lemma entityFound_iff (hnamed : d.Named) :
    (r.registeredDevices.getByEntity o (r.getFunction J) (r.entityKey d entityType)).2 =
      some d ↔ r.EntityFound J o d entityType := by
  rw [entityKey, getByEntity_snd hd.servicePath, ← entityKey]
  cases hf : o.find Device.uniqueEntity (r.entityKey d entityType).uniqueEntity
      r.registeredDevices.list with
  | some e =>
      rw [Option.some_or, Option.some.injEq]
      have hjoined : e.uniqueEntity = (r.entityKey d entityType).uniqueEntity :=
        Order.key_of_find hf
      refine ⟨?_, fun hfound => hfound.cached e hf⟩
      rintro rfl
      refine ⟨fun x hx => (Option.some.inj (hf.symm.trans hx)).symm, fun hs => ?_,
        fun _ => hjoined.symm, fun _ _ hno => absurd hjoined (hno e (Order.mem_of_find hf))⟩
      have hrest := typed_of_joined hd.servicePath hjoined.symm
      rw [(hd.mem_stored hs).2] at hrest
      exact .inr (by simpa using hrest)
  | none =>
      have hno := Order.find_eq_none_iff.mp hf
      rw [Option.none_or]
      constructor
      · intro hfind
        have hfit : Fits (r.entityKey d entityType) d := by simpa using List.find?_some hfind
        have hs := mongodb_of_mem_stored (List.mem_of_find?_eq_some hfind)
        refine ⟨fun x hx => by simp [hf] at hx, fun _ => ?_, fun hns => absurd hs hns,
          fun _ _ _ => find?_fits_iff.mp hfind⟩
        rcases eq_or_ne entityType "" with rfl | hne
        · exact .inl rfl
        · obtain ⟨-, -, -, -, ht⟩ := (fits_itemQ_iff hd.servicePath).mp hfit
          exact .inr (ht hne).symm
      · intro hfound
        by_cases hs : r.storageType = StoreTypes.mongodb
        · by_cases hservice : d.service = ""
          · exact find?_fits_iff.mpr (hfound.first hs hservice hno)
          · exact hd.find?_stored hnamed hs hservice (hfound.typed hs)
        · exact absurd (hfound.joined hs).symm (hno d (hd.mem_cache hs).1)

/-- The search for the published entity ends with nothing. -/
lemma entityMissed_iff :
    (r.registeredDevices.getByEntity o (r.getFunction J) (r.itemQ (d.getRealName service)
      (d.realType service) d.service d.servicePath)).2 = none ↔ r.EntityMissed J service d := by
  have hnone : ∀ {a b : Option Device}, a.or b = none ↔ a = none ∧ b = none := by
    intro a b
    cases a <;> simp
  have htype := d.realType_ne_empty service
  rw [getByEntity_snd hd.servicePath, hnone, Order.find_eq_none_iff, List.find?_eq_none]
  simp only [decide_eq_true_eq]
  constructor
  · rintro ⟨hcache, hstore⟩
    refine ⟨hcache, fun hs hnamed heq => ?_, fun _ => hstore⟩
    obtain ⟨hmem, hprotocol⟩ := hd.mem_stored hs
    refine hstore d hmem ((fits_itemQ_iff hd.servicePath).mpr ⟨fun _ => rfl, rfl,
      fun _ => hprotocol, fun _ => ?_, fun _ => heq⟩)
    rw [Device.getRealName_eq, if_pos hnamed]
  · intro hmissed
    refine ⟨hmissed.uncached, fun e he hfit => ?_⟩
    by_cases hservice : d.service = ""
    · exact hmissed.unfit hservice e he hfit
    · obtain ⟨-, -, -, hname, hetype⟩ := (fits_itemQ_iff hd.servicePath).mp hfit
      have hreal := hname (d.getRealName_named service).1
      have hnamed : e.Named := by
        rw [Device.Named, hreal]
        exact d.getRealName_named service
      have heq := hd.eq_of_fits hservice he hnamed hfit
      subst heq
      exact hmissed.untyped (mongodb_of_mem_stored he) hnamed (hetype htype)

/-- The joined key for a device without a name has more colons than that of the device. -/
lemma joined_ne (hnot : ¬ d.Named) :
    d.uniqueEntity ≠ (r.itemQ (d.getRealName service) (d.realType service) d.service
      d.servicePath).uniqueEntity := by
  intro hjoined
  rw [uniqueEntity_itemQ hd.servicePath, Device.uniqueEntity, Device.getRealName_eq,
    if_neg hnot] at hjoined
  have hcount := congrArg (fun s : String => s.toList.count ':') hjoined
  simp only [String.toList_append, List.count_append] at hcount
  have hname : d.entityName.toList.count ':' = 0 := by
    rw [Device.Named, not_and_or, not_not, not_not] at hnot
    rcases hnot with hname | hname
    · rw [hname]
      decide
    · rw [hname]
      decide
  have htype : d.entityType.toList.count ':' ≤ (d.realType service).toList.count ':' := by
    by_cases hown : d.entityType ≠ "" ∧ d.entityType ≠ StoreTypes.default
    · rw [Device.realType, if_pos hown]
    · rw [not_and_or, not_not, not_not] at hown
      rcases hown with hown | hown
      · rw [hown]
        exact Nat.zero_le _
      · rw [hown]
        exact Nat.zero_le _
  have hprotocol : d.protocol.toList.count ':' ≤ r.protocol.toList.count ':' := by
    by_cases hs : r.storageType = StoreTypes.mongodb
    · rw [(hd.mem_stored hs).2]
    · rw [(hd.mem_cache hs).2]
      exact Nat.zero_le _
  have hcolon : (":" : String).toList.count ':' = 1 := by decide
  omega

/-- The first search never ends with a device without a name. -/
lemma getByEntity_ne (hnot : ¬ d.Named) :
    (r.registeredDevices.getByEntity o (r.getFunction J) (r.itemQ (d.getRealName service)
      (d.realType service) d.service d.servicePath)).2 ≠ some d := by
  rw [getByEntity_snd hd.servicePath]
  intro hor
  rcases Option.or_eq_some_iff.mp hor with hfind | ⟨-, hfind⟩
  · exact hd.joined_ne hnot (Order.key_of_find hfind)
  · have hfit := (fits_itemQ_iff hd.servicePath).mp (by simpa using List.find?_some hfind)
    have hname := hfit.2.2.2.1 (d.getRealName_named service).1
    refine hnot ?_
    rw [Device.Named, hname]
    exact d.getRealName_named service

end Published

end Searches

/-- The look-up ends with an active device if the searches do. -/
lemma getDeviceByEntity_eq_ok_iff {name entityType service servicePath : String}
    (hactive : d.active ≠ 0) :
    (r.getDeviceByEntity J o name entityType service servicePath).2 = .ok d ↔
      (r.searchByEntity J o name entityType service servicePath).2 = some d := by
  rw [getDeviceByEntity]
  obtain ⟨r', result⟩ := r.searchByEntity J o name entityType service servicePath
  cases result with
  | none => simp
  | some e =>
      by_cases he : e.active = 0
      · dsimp only
        rw [if_pos he]
        constructor
        · intro herr
          cases herr
        · rintro ⟨⟩
          exact absurd he hactive
      · simp [he]

/-- The search behind the first one, for a device with a name. -/
lemma searchByEntity_eq_some_of_named (hd : r.Published lib J document service d)
    (hnamed : d.Named) :
    (r.searchByEntity J o (d.getRealName service) (d.realType service) d.service
        d.servicePath).2 = some d ↔
      r.EntityFound J o d (d.realType service) ∨ r.EntityMissed J service d ∧
        (':' ∉ d.entityName.toList ∧ r.EntityFound J o d "" ∨
          ∃ name, afterColon d.entityName = some name ∧ r.NameFound J d name) := by
  have hreal : d.getRealName service = d.entityName := by
    rw [Device.getRealName_eq, if_pos hnamed]
  rw [searchByEntity_snd, Option.or_eq_some_iff, hd.entityMissed_iff, hreal]
  refine or_congr (hd.entityFound_iff hnamed) (and_congr_right fun _ => ?_)
  cases hcolon : afterColon d.entityName with
  | none =>
      have hno := afterColon_eq_none_iff.mp hcolon
      simp only [hno, not_false_eq_true, true_and, reduceCtorEq, false_and, exists_false,
        or_false]
      exact hd.entityFound_iff hnamed
  | some name =>
      have hmem : ':' ∈ d.entityName.toList := by
        by_contra hno
        rw [afterColon_eq_none_iff.mpr hno] at hcolon
        cases hcolon
      simpa [hmem] using nameFound_iff hd.servicePath

/-- The search behind the first one, for a device without a name. -/
lemma searchByEntity_eq_some_of_not_named (hd : r.Published lib J document service d)
    (hnot : ¬ d.Named) :
    (r.searchByEntity J o (d.getRealName service) (d.realType service) d.service
        d.servicePath).2 = some d ↔
      r.EntityMissed J service d ∧ ':' ∉ (d.realType service).toList ∧
        r.NameFound J d d.name := by
  have hreal : d.getRealName service = d.realType service ++ ":" ++ d.name := by
    rw [Device.getRealName_eq, if_neg hnot]
  have hne := hd.getByEntity_ne (o := o) hnot
  rw [searchByEntity_snd, Option.or_eq_some_iff, hd.entityMissed_iff, or_iff_right hne]
  refine and_congr_right fun _ => ?_
  by_cases hcolon : ':' ∈ (d.realType service).toList
  · obtain ⟨u, hu⟩ := afterColon_join_of_mem (t := d.name) hcolon
    rw [hreal, hu]
    dsimp only
    rw [nameFound_iff hd.servicePath]
    refine ⟨fun hfound => ?_, fun ⟨hno, _⟩ => absurd hcolon hno⟩
    -- the name that is searched is longer than the name of the device
    exact absurd (hfound.name_eq (by simp)) ne_join
  · rw [hreal, afterColon_join hcolon]
    dsimp only
    rw [nameFound_iff hd.servicePath]
    exact ⟨fun hfound => ⟨hcolon, hfound⟩, fun hfound => hfound.2⟩

lemma entityFound_iff_of_restarted {entityType : String}
    (hs : r.storageType = StoreTypes.mongodb) (hservice : d.service ≠ "")
    (hempty : r.registeredDevices.list = []) :
    r.EntityFound J o d entityType ↔ entityType = "" ∨ entityType = d.entityType := by
  have hfind : ∀ k, o.find Device.uniqueEntity k r.registeredDevices.list = none := by
    intro k
    rw [Order.find_eq_none_iff, hempty]
    simp
  refine ⟨fun hfound => hfound.typed hs, fun htype => ⟨fun e he => ?_, fun _ => htype,
    fun hno => absurd hs hno, fun _ he => absurd he hservice⟩⟩
  rw [hfind] at he
  cases he

lemma nameFound_iff_of_restarted {name : String} (hempty : r.registeredDevices.list = []) :
    r.NameFound J d name ↔ FirstFit (Device.ofName name d.service) d (r.stored J) := by
  refine ⟨fun hfound => hfound.first (by simp [hempty]), fun hfirst => ⟨?_, fun _ => hfirst⟩⟩
  simp [hempty]

lemma entityMissed_iff_of_restarted (hs : r.storageType = StoreTypes.mongodb)
    (hservice : d.service ≠ "") (hempty : r.registeredDevices.list = []) :
    r.EntityMissed J service d ↔ (d.Named → d.entityType ≠ d.realType service) :=
  ⟨fun hmissed => hmissed.untyped hs, fun hno =>
    ⟨by simp [hempty], fun _ => hno, fun he => absurd he hservice⟩⟩

/-- An agent with a database that was just started finds a device with a name if it has a
type, or a name without colon, or the colon leads to its own name; and a device without one
if its type has no colon and no device of the name and the service, in any service path, is
stored before it. -/
theorem findable_iff_of_restarted (hs : r.storageType = StoreTypes.mongodb)
    (hservice : d.service ≠ "") (hempty : r.registeredDevices.list = []) :
    r.Findable J o service d ↔
      if d.Named then
        d.entityType = d.realType service ∨ ':' ∉ d.entityName.toList ∨
          ∃ name, afterColon d.entityName = some name ∧
            FirstFit (Device.ofName name d.service) d (r.stored J)
      else
        ':' ∉ (d.realType service).toList ∧
          FirstFit (Device.ofName d.name d.service) d (r.stored J) := by
  rw [Findable]
  simp only [entityMissed_iff_of_restarted hs hservice hempty,
    entityFound_iff_of_restarted hs hservice hempty, nameFound_iff_of_restarted hempty]
  split
  · next hnamed =>
      by_cases hown : d.entityType = d.realType service
      · simp [hown]
      · have htype : ¬ (d.realType service = "" ∨ d.realType service = d.entityType) := by
          simp [d.realType_ne_empty service, Ne.symm hown]
        simp [hown, hnamed, htype]
  · next hnot => simp [hnot]

section File

variable (hfile : r.FromFile lib document)

include hfile

/-- The joined key of a device of a file ends with a colon. -/
lemma FromFile.not_entityFound {entityType : String} (hd : d ∈ r.registeredDevices.list)
    (hpath : d.servicePath ≠ "") (hne : r.protocol ≠ "") (hcolon : ':' ∉ r.protocol.toList) :
    ¬ r.EntityFound J o d entityType := by
  intro hfound
  have hrest := typed_of_joined hpath (hfound.joined hfile.storage)
  rw [hfile.protocol_eq hd] at hrest
  have hlists : entityType.toList ++ ':' :: r.protocol.toList =
      d.entityType.toList ++ [':'] := by
    simpa using congrArg String.toList hrest
  have hnil : r.protocol.toList ≠ [] := by simpa using hne
  have hlast := congrArg List.getLast? hlists
  rw [List.getLast?_append, List.getLast?_cons_of_ne_nil hnil,
    List.getLast?_eq_some_getLast hnil] at hlast
  simp at hlast
  exact hcolon (hlast ▸ List.getLast_mem hnil)

lemma FromFile.nameFound_iff {name : String} (hd : d ∈ r.registeredDevices.list) :
    r.NameFound J d name ↔ Device.collide h d (Device.ofName name d.service) := by
  constructor
  · intro hfound
    by_contra hno
    have hnone : ∀ e ∈ r.registeredDevices.list,
        ¬ Device.collide h e (Device.ofName name d.service) := fun e he hcol =>
      hno (hfound.cached e he hcol ▸ hcol)
    obtain ⟨as, bs, hstored, -, -⟩ := hfound.first hnone
    rw [stored, if_neg hfile.storage] at hstored
    simp at hstored
  · intro hcol
    exact ⟨fun e he hecol => Cache.eq_of_collide he hd hecol hcol,
      fun hno => absurd hcol (hno d hd)⟩

/-- A device of a file is found, by a handler that has a protocol, only where the key without
a service path falls into its bucket. -/
theorem findable_iff_of_fromFile (hd : d ∈ r.registeredDevices.list)
    (hpath : d.servicePath ≠ "") (hne : r.protocol ≠ "") (hcolon : ':' ∉ r.protocol.toList) :
    r.Findable J o service d ↔ r.EntityMissed J service d ∧
      ∃ name, afterColon (d.getRealName service) = some name ∧
        Device.collide h d (Device.ofName name d.service) := by
  have hno : ∀ entityType, ¬ r.EntityFound J o d entityType := fun _ =>
    hfile.not_entityFound hd hpath hne hcolon
  rw [Findable, Device.getRealName_eq]
  simp only [hno, hfile.nameFound_iff hd, false_or, and_false]
  split
  · rfl
  · refine and_congr_right fun _ => ?_
    by_cases htype : ':' ∈ (d.realType service).toList
    · obtain ⟨u, hu⟩ := afterColon_join_of_mem (t := d.name) htype
      rw [hu]
      simp only [htype, not_true_eq_false, false_and, Option.some.injEq, exists_eq_left',
        false_iff]
      exact fun hcol => ne_join hcol.2.1
    · rw [afterColon_join htype]
      simp [htype]

end File

/-! ### Devices that are found, and devices that are not -/

/-- A reader and writer of no texts. -/
def noText : JsonText := ⟨fun _ => "", fun _ => none⟩

/-- A stored device of the service, with further fields. -/
def deviceDoc (servicePath : String) (fields : Doc) : Doc :=
  [(StoreTypes.deviceId, .str "d1"), (StoreTypes.service, .str "service"),
    (StoreTypes.servicePath, .str servicePath),
    (StoreTypes.protocol, .str "PDI-IoTA-UltraLight")] ++ fields

/-- An agent with a database, just started. -/
def overStore (docs : List Doc) (hu : Unique deviceIndexes docs) : RestHandle Cache.byLength where
  storageType := StoreTypes.mongodb
  protocol := "PDI-IoTA-UltraLight"
  registeredDevices := Cache.empty Types.maxSizeCache false
  deviceTable := ⟨docs, hu⟩

/-- A device with a name and a type. -/
def namedDoc : Doc :=
  deviceDoc "/mine" [(StoreTypes.entityName, .str "room1"), (StoreTypes.entityType, .str "room")]

/-- A file with one device. -/
def fileDocument : Json :=
  .object [(StoreTypes.devices, .array [.object [(StoreTypes.deviceId, .string "d1"),
    (StoreTypes.entityType, .string "room"), (StoreTypes.entityName, .string "room1"),
    (StoreTypes.service, .string "service"), (StoreTypes.servicePath, .string "/mine")]])]

/-- The device in it. -/
def fileDevice : Device :=
  { Device.ofEntity "room1" "room" "service" with
    name := "d1", servicePath := "/mine", active := 1 }

/-- An agent without a database, just started. -/
def overFile : RestHandle Cache.byLength where
  storageType := "file"
  protocol := "PDI-IoTA-UltraLight"
  registeredDevices :=
    DevicesFile.parseToCache EnvElement.noJson fileDocument (Cache.empty Types.maxSizeCache false)
  deviceTable := ⟨[], by decide⟩

/-- A device that should be found under its published entity, and is not. -/
structure Lost {h : Hashing} (r : RestHandle h) (document : Json) (d : Device) : Prop where
  published : r.Published EnvElement.noJson noText document [] d
  notFound : (r.getDeviceByEntity noText Order.blocks (d.getRealName []) (d.realType [])
    d.service d.servicePath).2 ≠ .ok d

lemma lost_of_stored {h : Hashing} {r : RestHandle h} {d : Device}
    (hd : d ∈ r.stored noText ∧ d.protocol = r.protocol ∧ d.active ≠ 0 ∧ d.servicePath ≠ "")
    (honly : ∀ e ∈ r.kept noText, e.service = d.service → e.servicePath = d.servicePath →
      e.getRealName [] = d.getRealName [] → e = d)
    (hno : (r.getDeviceByEntity noText Order.blocks (d.getRealName []) (d.realType [])
      d.service d.servicePath).2 ≠ .ok d) : r.Lost .null d :=
  ⟨⟨.stored hd.1 hd.2.1, hd.2.2.1, hd.2.2.2, honly⟩, hno⟩

end RestHandle

end IotAgent
