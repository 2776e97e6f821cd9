import IotAgent.Services.AdminService
import Mathlib.Logic.Relation

/-!
The names of the commands of an entity.

Two devices of one entity, in one service path and with one protocol, must not have a command
of one name. The check for it runs on the body of a request: a change is checked only if its
body has both an entity and commands, and against the protocol that the device had.

* `Clash`: two devices of one entity with a command name in common;
* `checked_not_common`, `not_clash_of_checked`: what the check finds out about a body;
* `PostSafe`, `PutSafe`: the bodies that the check covers, or that leave the names as they are;
* `commandNames_apart`: in runs of such requests the names are apart in every state;
* `clash_afterPut`: a change that names commands and no entity.
-/

namespace IotAgent

open Mongo

namespace AdminService

/-! ### Names in common -/

/-- What of a stored device matters here. -/
structure View where
  service : Option Bson
  servicePath : Option Bson
  protocol : Option Bson
  entityName : String
  names : List String

/-- A stored device, seen this way. -/
def view (d : Doc) : View where
  service := d.get StoreTypes.service
  servicePath := d.get StoreTypes.servicePath
  protocol := d.get StoreTypes.protocol
  entityName := d.getStringField StoreTypes.entityName
  names := commandNames d

/-- Two devices of one entity with a command name in common. Whether devices without an
entity name count as devices of one entity is left open: `S` tells which names count. -/
structure View.Clash (S : String → Prop) (v w : View) : Prop where
  service : v.service = w.service
  servicePath : v.servicePath = w.servicePath
  protocol : v.protocol = w.protocol
  entityName : v.entityName = w.entityName
  counts : S v.entityName
  common : ∃ n ∈ v.names, n ∈ w.names

/-- The same of two stored devices. -/
def Clash (S : String → Prop) (d e : Doc) : Prop :=
  (view d).Clash S (view e)

/-- No two stored devices have a command name in common. -/
def Apart (S : String → Prop) (docs : List Doc) : Prop :=
  docs.Pairwise fun d e => ¬ Clash S d e

/-- The commands of a device are documents in an array, if there are any. -/
def CommandsArray (d : Doc) : Prop :=
  ∀ v, d.get StoreTypes.commands = some v →
    ∃ elts, v = .arr elts ∧ ∀ e ∈ elts, ∃ fs, e = .obj fs

variable {S : String → Prop} {d e obj : Doc} {docs : List Doc}

lemma Clash.symm (h : Clash S d e) : Clash S e d where
  service := h.service.symm
  servicePath := h.servicePath.symm
  protocol := h.protocol.symm
  entityName := h.entityName.symm
  counts := h.entityName ▸ h.counts
  common := by
    obtain ⟨n, hd, he⟩ := h.common
    exact ⟨n, he, hd⟩

lemma apart_iff_views :
    Apart S docs ↔ (docs.map view).Pairwise fun v w => ¬ v.Clash S w := by
  rw [List.pairwise_map]
  rfl

/-- Documents with the same views are apart alike. -/
lemma Apart.of_views {docs' : List Doc} (h : docs'.map view = docs.map view)
    (hd : Apart S docs) : Apart S docs' := by
  rw [apart_iff_views, h]
  exact apart_iff_views.mp hd

/-- A document among others. -/
lemma apart_insert_iff {as bs : List Doc} :
    Apart S (as ++ d :: bs) ↔ Apart S (as ++ bs) ∧ ∀ e ∈ as ++ bs, ¬ Clash S e d := by
  have hperm : (as ++ d :: bs).Perm (d :: (as ++ bs)) := List.perm_middle
  have hsymm : ∀ {x y : Doc}, ¬ Clash S x y → ¬ Clash S y x := fun h hc => h hc.symm
  rw [Apart, hperm.pairwise_iff hsymm, List.pairwise_cons, and_comm]
  exact and_congr_right fun _ => forall₂_congr fun e _ => not_congr ⟨Clash.symm, Clash.symm⟩

/-! ### The names that the store matches -/

/-- The elements of an array, under their positions. -/
lemma map_snd_getObjectField {elts : List Bson} {f : String} (h : d.get f = some (.arr elts)) :
    (d.getObjectField f).map Prod.snd = elts := by
  simp [Doc.getObjectField, h, Bson.toDoc, Function.comp_def]

lemma exists_of_mem_commandNames {n : String} (hd : CommandsArray d) (hn : n ∈ commandNames d) :
    ∃ elts fs, d.get StoreTypes.commands = some (.arr elts) ∧ .obj fs ∈ elts ∧
      Doc.get fs StoreTypes.name = some (.str n) := by
  rw [commandNames, List.mem_filter, List.mem_map] at hn
  obtain ⟨⟨fs, hfs, hname⟩, hne⟩ := hn
  obtain ⟨elto, helto, hdoc⟩ := List.mem_filterMap.mp hfs
  cases hget : d.get StoreTypes.commands with
  | none => simp [Doc.getObjectField, hget] at helto
  | some v =>
      obtain ⟨elts, rfl, hobj⟩ := hd v hget
      have hmem : elto.2 ∈ elts := by
        rw [← map_snd_getObjectField hget]
        exact List.mem_map_of_mem helto
      obtain ⟨gs, hgs⟩ := hobj _ hmem
      have heq : gs = fs := by simpa [hgs, Bson.toDoc] using hdoc
      subst heq
      refine ⟨elts, gs, rfl, hgs ▸ hmem, ?_⟩
      exact (Doc.getStringField_eq_iff (by simpa using hne)).mp hname

/-- The store finds the names that the agent reads. -/
lemma hasCommandName_of_mem {n : String} {names : List String} (hd : CommandsArray d)
    (hn : n ∈ commandNames d) (hmem : n ∈ names) : hasCommandName names d := by
  obtain ⟨elts, fs, hget, hfs, hname⟩ := exists_of_mem_commandNames hd hn
  simp only [hasCommandName, hget, List.any_eq_true]
  exact ⟨_, hfs, by simp [hasName, hname, hmem]⟩

/-- What the check finds out: no stored device of the entity has a command of the body. -/
lemma checked_not_common {protocolName service servicePath : String} {t : DeviceTable}
    (hcheck : checkDeviceCommandsDuplicate protocolName service servicePath obj t)
    (hentity : obj.getStringField StoreTypes.entityName ≠ "") (he : e ∈ t.docs)
    (harr : CommandsArray e) (hservice : e.get StoreTypes.service = some (.str service))
    (hpath : e.get StoreTypes.servicePath = some (.str servicePath))
    (hprotocol : e.get StoreTypes.protocol = some (.str protocolName))
    (hsame : e.getStringField StoreTypes.entityName =
      obj.getStringField StoreTypes.entityName) {n : String} (hn : n ∈ commandNames obj) :
    n ∉ commandNames e := by
  intro hne
  have hnames : commandNames obj ≠ [] := List.ne_nil_of_mem hn
  simp only [checkDeviceCommandsDuplicate, hentity, hnames, if_false, decide_eq_true_eq] at hcheck
  refine hcheck ⟨e, he, ?_, hasCommandName_of_mem harr hne hn⟩
  have hname := (Doc.getStringField_eq_iff hentity).mp hsame
  intro fv hfv
  simp only [ofEntity, List.mem_cons, List.not_mem_nil, or_false] at hfv
  rcases hfv with rfl | rfl | rfl | rfl
  · exact hname
  · exact hservice
  · exact hpath
  · exact hprotocol

/-! ### What a deployment leaves alone -/

/-- The fields that a view is made of. -/
def viewFields : List String :=
  [StoreTypes.service, StoreTypes.servicePath, StoreTypes.protocol, StoreTypes.entityName,
    StoreTypes.commands]

lemma commandNames_congr (h : d.get StoreTypes.commands = e.get StoreTypes.commands) :
    commandNames d = commandNames e := by
  rw [commandNames, commandNames, Doc.getObjectField, Doc.getObjectField, h]

/-- A view is one of its fields. -/
lemma view_congr (h : ∀ f ∈ viewFields, d.get f = e.get f) : view d = view e := by
  simp only [viewFields, List.mem_cons, List.not_mem_nil, or_false, forall_eq_or_imp,
    forall_eq] at h
  obtain ⟨hservice, hpath, hprotocol, hentity, hcommands⟩ := h
  rw [view, view, hservice, hpath, hprotocol, Doc.getStringField_congr hentity,
    commandNames_congr hcommands]

/-- The names are apart, and all commands are arrays. -/
structure Inv (S : String → Prop) (docs : List Doc) : Prop where
  apart : Apart S docs
  arrays : ∀ d ∈ docs, CommandsArray d

lemma map_view_of_keyOf {docs' : List Doc}
    (h : docs'.map (keyOf viewFields) = docs.map (keyOf viewFields)) :
    docs'.map view = docs.map view := by
  induction docs generalizing docs' with
  | nil => simpa using h
  | cons d docs ih =>
      cases docs' with
      | nil => cases h
      | cons d' docs' =>
          rw [List.map_cons, List.map_cons, List.cons.injEq] at h
          rw [List.map_cons, List.map_cons, ih h.2, view_congr (keyOf_eq_iff.mp h.1)]

/-- Both are seen in the fields of the views. -/
lemma Inv.of_keyOf {docs' : List Doc}
    (h : docs'.map (keyOf viewFields) = docs.map (keyOf viewFields)) (hd : Inv S docs) :
    Inv S docs' where
  apart := hd.apart.of_views (map_view_of_keyOf h)
  arrays := by
    intro d' hd' v hv
    obtain ⟨d, hmem, hkey⟩ := List.mem_map.mp (h ▸ List.mem_map_of_mem (f := keyOf viewFields) hd')
    have hcommands := keyOf_eq_iff.mp hkey StoreTypes.commands (by simp [viewFields])
    exact hd.arrays d hmem v (hcommands.trans hv)

variable {a : AdminService} {s s' : AdminState} {service servicePath body : String}

/-! ### A new device -/

lemma commandsArray_of_shape (h : DeviceShape d) : CommandsArray d := by
  intro v hv
  obtain ⟨elts, rfl, hall⟩ := h.commands v hv
  refine ⟨elts, rfl, fun e he => ?_⟩
  obtain ⟨fs, -, rfl, -⟩ := hall e he
  exact ⟨fs, rfl⟩

/-- The commands of the protocol change no other field. -/
lemma withProtocolCommands_spec {plugin : ProtocolHandler} {bo bo' : Doc}
    (h : withProtocolCommands plugin bo = .ok bo') (hbo : CommandsArray bo) :
    CommandsArray bo' ∧ ∀ f, f ≠ StoreTypes.commands → bo'.get f = bo.get f := by
  rw [withProtocolCommands] at h
  split at h
  · cases h
    exact ⟨hbo, fun _ _ => rfl⟩
  · split at h
    · next bo₁ hjoin =>
        cases h
        rw [joinCommands] at hjoin
        split at hjoin
        · next hnone =>
            cases hjoin
            refine ⟨fun v hv => ?_, fun f hf => by rw [Doc.get_cons, if_neg hf]⟩
            rw [Doc.get_cons, if_pos rfl] at hv
            cases hv
            exact ⟨_, rfl, by simp⟩
        · next e elts hsome =>
            cases hjoin
            refine ⟨fun v hv => ?_, fun f hf => Doc.get_set_of_ne _ _ hf⟩
            rw [Doc.get_set_self] at hv
            cases hv
            refine ⟨_, rfl, fun x hx => ?_⟩
            rcases List.mem_append.mp hx with hx | hx
            · obtain ⟨fs, -, rfl⟩ := List.mem_map.mp hx
              exact ⟨fs, rfl⟩
            · obtain ⟨elts', heq, hall⟩ := hbo _ hsome
              cases heq
              exact hall x hx
        · cases hjoin
    · cases h

lemma getDeviceProtocol_ne {protocolName : String} {plugin : ProtocolHandler}
    (h : a.getDeviceProtocol s protocolName service servicePath = some plugin) :
    protocolName ≠ "" := by
  rintro rfl
  simp [getDeviceProtocol] at h

/-- The document of a new device has the service path of the request. -/
lemma get_insertObj {bo : Doc} (f : String) :
    (insertObj service servicePath bo).get f = (bo.get f).or
      (if f = StoreTypes.service then some (.str service)
        else if f = StoreTypes.servicePath then some (.str servicePath) else none) := by
  rw [insertObj, Doc.get_append, Doc.get_cons, Doc.get_cons, Doc.get_nil]

/-- A new device names an entity, if devices without one count. -/
def PostSafe (S : String → Prop) (bo : Doc) : Prop :=
  S "" → bo.getStringField StoreTypes.entityName ≠ ""

lemma Inv.postDevice {bo : Doc} (hbo : DeviceShape bo)
    (h : a.postDevice service servicePath body s bo = .ok s')
    (hsafe : PostSafe S bo) (hs : Inv S s.devices.docs) : Inv S s'.devices.docs := by
  obtain ⟨plugin, bo', devices, hplugin, hjoin, hcheck, hins, rfl⟩ := postDevice_eq_ok h
  obtain ⟨harr, hsame⟩ := withProtocolCommands_spec hjoin (commandsArray_of_shape hbo)
  have hget : ∀ f, f ≠ StoreTypes.service → f ≠ StoreTypes.servicePath →
      (insertObj service servicePath bo').get f = bo'.get f := by
    intro f h₁ h₂
    rw [get_insertObj, if_neg h₁, if_neg h₂, Option.or_none]
  have hservice : (insertObj service servicePath bo').get StoreTypes.service =
      some (.str service) := by
    rw [get_insertObj, if_pos rfl, hsame _ (by decide), hbo.service, Option.none_or]
  have hpath : (insertObj service servicePath bo').get StoreTypes.servicePath =
      some (.str servicePath) := by
    rw [get_insertObj, if_neg (by decide), if_pos rfl, hsame _ (by decide), hbo.servicePath,
      Option.none_or]
  have hprotocol : (insertObj service servicePath bo').get StoreTypes.protocol =
      some (.str (bo.getStringField StoreTypes.protocol)) := by
    rw [hget _ (by decide) (by decide), hsame _ (by decide)]
    exact (Doc.getStringField_eq_iff (getDeviceProtocol_ne hplugin)).mp rfl
  have hentity : (insertObj service servicePath bo').getStringField StoreTypes.entityName =
      bo.getStringField StoreTypes.entityName := by
    refine Doc.getStringField_congr ?_
    rw [hget _ (by decide) (by decide), hsame _ (by decide)]
  have halone : ∀ e ∈ s.devices.docs, ¬ Clash S e (insertObj service servicePath bo') := by
    rintro e he ⟨h₁, h₂, h₃, h₄, hcounts, n, hn, hn'⟩
    have hsame : e.getStringField StoreTypes.entityName =
        (insertObj service servicePath bo').getStringField StoreTypes.entityName := h₄
    have hnamed :
        (insertObj service servicePath bo').getStringField StoreTypes.entityName ≠ "" := by
      intro hempty
      have hnone : S "" := (hsame.trans hempty) ▸ hcounts
      exact hsafe hnone (hentity ▸ hempty)
    exact checked_not_common hcheck hnamed he (hs.arrays e he)
      (h₁.trans hservice) (h₂.trans hpath) (h₃.trans hprotocol) hsame hn' hn
  have hdocs := Table.insert_docs (Collection.insert_eq_ok_iff.mp hins).2
  refine Inv.of_keyOf (keyOf_deployDevice (by decide) (by decide) a _ _) ⟨?_, fun d hd => ?_⟩
  · rw [hdocs]
    exact apart_insert_iff.mpr ⟨by simpa using hs.apart, by simpa using halone⟩
  · rw [hdocs, List.mem_append, List.mem_singleton] at hd
    rcases hd with hd | rfl
    · exact hs.arrays d hd
    · intro v hv
      rw [hget _ (by decide) (by decide)] at hv
      exact harr v hv

/-! ### A change -/

/-- The change leaves these fields as the device has them. -/
def Keeps (fields : List String) (d setbo : Doc) : Prop :=
  ∀ f ∈ fields, setbo.get f = none ∨ setbo.get f = d.get f

/-- The change sets an entity and commands, so that it is checked. -/
def Checked (setbo : Doc) : Prop :=
  setbo.getStringField StoreTypes.entityName ≠ "" ∧ commandNames setbo ≠ []

/-- The change sets commands, and none of them has a name. -/
def Clears (setbo : Doc) : Prop :=
  setbo.get StoreTypes.commands ≠ none ∧ commandNames setbo = []

/-- A change of other fields, one that is checked against the protocol that it leaves, or one
that leaves no command. -/
def PutSafe (t : DeviceTable) (query setbo : Doc) : Prop :=
  ∀ d ∈ t.docs, Matches query d →
    Keeps [StoreTypes.entityName, StoreTypes.commands, StoreTypes.protocol] d setbo ∨
      (Checked setbo ∧ Keeps [StoreTypes.protocol] d setbo) ∨ Clears setbo

/-- The protocol of a change is that of the device. -/
lemma putProtocol_eq_ok {protocol protocolName : String} {setbo : Doc}
    (h : a.putProtocol s service servicePath protocol setbo (some d) = .ok protocolName) :
    d.get StoreTypes.protocol = some (.str protocolName) := by
  rw [putProtocol] at h
  dsimp only at h
  split at h
  · cases h
  · next plugin hplugin =>
      split at h
      · cases h
      · cases h
        exact (Doc.getStringField_eq_iff (getDeviceProtocol_ne hplugin)).mp rfl

section Put

variable {deviceId protocol protocolName : String} {setbo : Doc} {as bs : List Doc}

lemma get_service_of_matches
    (hd : Matches (putQuery service servicePath deviceId protocol) d) :
    d.get StoreTypes.service = some (.str service) ∧
      d.get StoreTypes.servicePath = some (.str servicePath) :=
  ⟨hd (StoreTypes.service, .str service) (by simp [putQuery]),
    hd (StoreTypes.servicePath, .str servicePath) (by simp [putQuery])⟩

/-- A field that the change leaves. -/
lemma get_setAll_of_keeps {fields : List String} (hnodup : (setbo.map Prod.fst).Nodup)
    (h : Keeps fields d setbo) {f : String} (hf : f ∈ fields) :
    (d.setAll setbo).get f = d.get f := by
  rw [Doc.get_setAll d f hnodup]
  rcases h f hf with hnone | hsame
  · rw [hnone, Option.none_or]
  · rw [hsame, Option.or_self]

/-- The commands of the change are those of the device afterwards. -/
lemma commandNames_setAll (hnodup : (setbo.map Prod.fst).Nodup)
    (h : setbo.get StoreTypes.commands ≠ none) :
    commandNames (d.setAll setbo) = commandNames setbo := by
  obtain ⟨v, hv⟩ := Option.ne_none_iff_exists'.mp h
  exact commandNames_congr (by rw [Doc.get_setAll d _ hnodup, hv, Option.some_or])

/-- A change of other fields changes nothing that matters. -/
lemma view_setAll_of_keeps (hshape : DeviceShape setbo) (hnodup : (setbo.map Prod.fst).Nodup)
    (h : Keeps [StoreTypes.entityName, StoreTypes.commands, StoreTypes.protocol] d setbo) :
    view (d.setAll setbo) = view d := by
  have hunset : ∀ {f : String}, setbo.get f = none → (d.setAll setbo).get f = d.get f :=
    fun {f} hf => by rw [Doc.get_setAll d f hnodup, hf, Option.none_or]
  refine view_congr fun f hf => ?_
  simp only [viewFields, List.mem_cons, List.not_mem_nil, or_false] at hf
  rcases hf with rfl | rfl | rfl | rfl | rfl
  · exact hunset hshape.service
  · exact hunset hshape.servicePath
  · exact get_setAll_of_keeps hnodup h (by simp)
  · exact get_setAll_of_keeps hnodup h (by simp)
  · exact get_setAll_of_keeps hnodup h (by simp)

/-- A change that is checked leaves the device alone with its commands. -/
lemma not_clash_of_checked (hshape : DeviceShape setbo) (hnodup : (setbo.map Prod.fst).Nodup)
    (hchecked : Checked setbo) (hkeeps : Keeps [StoreTypes.protocol] d setbo)
    (hcheck : checkDeviceCommandsDuplicate protocolName service servicePath setbo s.devices)
    (hd : Matches (putQuery service servicePath deviceId protocol) d)
    (hprotocol : d.get StoreTypes.protocol = some (.str protocolName))
    (he : e ∈ s.devices.docs) (harr : CommandsArray e) : ¬ Clash S e (d.setAll setbo) := by
  obtain ⟨hentity, hnames⟩ := hchecked
  have hget : ∀ f, (d.setAll setbo).get f = (setbo.get f).or (d.get f) :=
    fun f => Doc.get_setAll d f hnodup
  have hentity' : (d.setAll setbo).getStringField StoreTypes.entityName =
      setbo.getStringField StoreTypes.entityName := by
    have hsome := (Doc.getStringField_eq_iff hentity).mp rfl
    exact Doc.getStringField_congr (by rw [hget, hsome, Option.some_or])
  have hnames' : commandNames (d.setAll setbo) = commandNames setbo := by
    refine commandNames_setAll hnodup fun hnone => hnames ?_
    simp [commandNames, Doc.getObjectField, hnone]
  obtain ⟨hservice, hpath⟩ := get_service_of_matches hd
  rintro ⟨h₁, h₂, h₃, h₄, -, n, hn, hn'⟩
  refine checked_not_common hcheck hentity he harr ?_ ?_ ?_ (h₄.trans hentity')
    (hnames' ▸ hn' : n ∈ commandNames setbo) hn
  · exact h₁.trans ((hget _).trans (by rw [hshape.service, Option.none_or, hservice]))
  · exact h₂.trans ((hget _).trans (by rw [hshape.servicePath, Option.none_or, hpath]))
  · exact h₃.trans ((get_setAll_of_keeps hnodup hkeeps (List.mem_singleton_self _)).trans
      hprotocol)

/-- A device without commands has none in common with another. -/
lemma not_clash_of_clears (hnodup : (setbo.map Prod.fst).Nodup) (h : Clears setbo) :
    ¬ Clash S e (d.setAll setbo) := by
  rintro ⟨-, -, -, -, -, n, -, hn⟩
  have hnil : commandNames (d.setAll setbo) = [] := (commandNames_setAll hnodup h.1).trans h.2
  exact List.not_mem_nil (hnil ▸ hn : n ∈ [])

/-- A change keeps the names apart exactly when it leaves the device alone with its commands
among the others. -/
lemma noClash_put_iff (hs : Apart S (as ++ d :: bs)) (d' : Doc) :
    Apart S (as ++ d' :: bs) ↔ ∀ e ∈ as ++ bs, ¬ Clash S e d' := by
  rw [apart_insert_iff, and_iff_right (apart_insert_iff.mp hs).1]

/-- The commands of a change are an array, or those of the device stay. -/
lemma commandsArray_setAll (hshape : DeviceShape setbo) (hnodup : (setbo.map Prod.fst).Nodup)
    (hd : CommandsArray d) : CommandsArray (d.setAll setbo) := by
  intro v hv
  rw [Doc.get_setAll d _ hnodup] at hv
  cases hc : setbo.get StoreTypes.commands with
  | some w =>
      rw [hc, Option.some_or] at hv
      exact commandsArray_of_shape hshape v (hc.trans hv)
  | none =>
      rw [hc, Option.none_or] at hv
      exact hd v hv

lemma Inv.put (h : ¬ Fails (a.putDeviceJson s service servicePath deviceId body protocol).2)
    (hsafe : ∀ setbo, a.putDeviceSchema.validate body = .ok setbo →
      PutSafe s.devices (putQuery service servicePath deviceId protocol) setbo)
    (hs : Inv S s.devices.docs) :
    Inv S (a.putDeviceJson s service servicePath deviceId body protocol).1.devices.docs := by
  obtain ⟨setbo, protocolName, devices, count, hvalid, hnodup, hcount, hprotocol, hcheck,
    hupdate, hne, hstate⟩ := putDeviceJson_of_not_fails h
  have hshape := a.putDeviceSchema.shape body setbo hvalid
  obtain ⟨as, d, bs, hl, hl', hfound, hd, -⟩ := Table.exists_only_match hcount hupdate hne
  rw [hfound] at hprotocol
  have hdprotocol := putProtocol_eq_ok hprotocol
  have hmem : ∀ x e, e ∈ as ++ x :: bs ↔ e = x ∨ e ∈ as ++ bs := fun x e => by
    simp only [List.mem_append, List.mem_cons]
    exact or_left_comm
  have hdmem : d ∈ s.devices.docs := hl ▸ (hmem d d).mpr (.inl rfl)
  have hstored : ∀ e ∈ as ++ bs, e ∈ s.devices.docs := fun e he =>
    hl ▸ (hmem d e).mpr (.inr he)
  have hapart := hs.apart
  rw [hl] at hapart
  have hinv : Inv S devices.docs := by
    rw [hl']
    refine ⟨(noClash_put_iff hapart _).mpr fun e he => ?_, fun e he => ?_⟩
    · rcases hsafe setbo hvalid d hdmem hd with hkeeps | ⟨hch, hkeeps⟩ | hclears
      · rw [Clash, view_setAll_of_keeps hshape hnodup hkeeps]
        exact (noClash_put_iff hapart d).mp hapart e he
      · exact not_clash_of_checked hshape hnodup hch hkeeps hcheck hd hdprotocol (hstored e he)
          (hs.arrays e (hstored e he))
      · exact not_clash_of_clears hnodup hclears
    · rcases (hmem _ e).mp he with rfl | he
      · exact commandsArray_setAll hshape hnodup (hs.arrays d hdmem)
      · exact hs.arrays e (hstored e he)
  rw [hstate]
  exact hinv.of_keyOf (keyOf_redeploy (by decide) (by decide) a _ _ _ _ _)

end Put

/-! ### Runs -/

/-- A request to the devices. -/
inductive DeviceRequest where
  | post (service servicePath body : String)
  | put (service servicePath deviceId body protocol : String)
  | delete (service servicePath idDevice : String)

/-- What a request does. -/
def handle (a : AdminService) (s : AdminState) :
    DeviceRequest → AdminState × Except IotaException Answer
  | .post service servicePath body => a.postDeviceJson s service servicePath body
  | .put service servicePath deviceId body protocol =>
      a.putDeviceJson s service servicePath deviceId body protocol
  | .delete service servicePath idDevice => a.deleteDeviceJson s service servicePath idDevice

/-- The requests that keep the names apart. -/
def Safe (a : AdminService) (S : String → Prop) (s : AdminState) : DeviceRequest → Prop
  | .post _ _ body => ∀ obj, a.postDeviceSchema.validate body = .ok obj →
      ∀ bo ∈ elements StoreTypes.devices obj, PostSafe S bo
  | .put service servicePath deviceId body protocol =>
      ∀ setbo, a.putDeviceSchema.validate body = .ok setbo →
        PutSafe s.devices (putQuery service servicePath deviceId protocol) setbo
  | .delete _ _ _ => True

/-- A request that succeeds. -/
def Succeeds (a : AdminService) (s : AdminState) (r : DeviceRequest) (s' : AdminState) : Prop :=
  (a.handle s r).1 = s' ∧ ¬ Fails (a.handle s r).2

lemma Inv.batch {l : List Doc} (hshape : ∀ bo ∈ l, DeviceShape bo)
    (hsafe : ∀ bo ∈ l, PostSafe S bo) (hs : Inv S s.devices.docs) :
    Inv S (Batch.run (a.postDevice service servicePath body) s l).1.devices.docs := by
  induction l generalizing s with
  | nil => exact hs
  | cons bo l ih =>
      cases hbo : a.postDevice service servicePath body s bo with
      | error e =>
          rw [Batch.run_cons_error hbo]
          exact hs
      | ok s' =>
          rw [Batch.run_cons_ok hbo]
          exact ih (fun b hb => hshape b (List.mem_cons_of_mem bo hb))
            (fun b hb => hsafe b (List.mem_cons_of_mem bo hb))
            (hs.postDevice (hshape bo List.mem_cons_self) hbo (hsafe bo List.mem_cons_self))

/-- One request. -/
lemma Inv.step {r : DeviceRequest} (hr : a.Succeeds s r s') (hsafe : Safe a S s r)
    (hs : Inv S s.devices.docs) : Inv S s'.devices.docs := by
  obtain ⟨rfl, hok⟩ := hr
  cases r with
  | post service servicePath body =>
      rw [handle, postDeviceJson]
      split
      · exact hs
      · split
        · exact hs
        · split
          · exact hs
          · next obj hvalid =>
              exact hs.batch (mem_elements_shape (a.postDeviceSchema.shape body obj hvalid))
                (hsafe obj hvalid)
  | put service servicePath deviceId body protocol => exact hs.put hok hsafe
  | delete service servicePath idDevice =>
      have hsub : ((s.devices.remove (deleteQuery service servicePath idDevice)).1.docs).Sublist
          s.devices.docs := List.filter_sublist
      exact ⟨hs.apart.sublist hsub, fun d hd => hs.arrays d (hsub.subset hd)⟩

/-- A command of a device. -/
def ping : Bson :=
  .obj [(StoreTypes.name, .str "ping"), (StoreTypes.type, .str "command"),
    (StoreTypes.command, .str "")]

/-- The fields of a device with an entity. -/
def withEntity (deviceId : String) : Doc :=
  [(StoreTypes.deviceId, .str deviceId), (StoreTypes.protocol, .str "PDI-IoTA-UltraLight"),
    (StoreTypes.entityName, .str "room")]

def pingOnly : Doc :=
  [(StoreTypes.commands, .arr [ping])]

def inHall : Doc :=
  (StoreTypes.entityName, .str "hall") :: pingOnly

lemma deviceShape_of_ping {obj : Doc} (h : obj.get StoreTypes.service = none)
    (h' : obj.get StoreTypes.servicePath = none)
    (hc : ∀ v, obj.get StoreTypes.commands = some v → v = .arr [ping]) : DeviceShape obj where
  service := h
  servicePath := h'
  commands := by
    intro v hv
    refine ⟨_, hc v hv, fun e he => ?_⟩
    obtain rfl := List.mem_singleton.mp he
    exact ⟨_, "ping", rfl, rfl, by decide⟩

/-- The body of a creation. -/
def creating (obj : Doc) (h : DeviceShape obj) :
    {obj : Doc // ArrayOf DeviceShape StoreTypes.devices obj} :=
  ⟨[(StoreTypes.devices, .arr [.obj obj])], _, rfl, by simpa using h⟩

/-- The texts of four bodies. -/
def postRoomPing : String :=
  "\x7b\"devices\":[\x7b\"device_id\":\"d1\",\"protocol\":\"PDI-IoTA-UltraLight\"," ++
    "\"entity_name\":\"room\",\"commands\":[\x7b\"name\":\"ping\",\"type\":\"command\"," ++
    "\"value\":\"\"\x7d]\x7d]\x7d"

def postRoom : String :=
  "\x7b\"devices\":[\x7b\"device_id\":\"d2\",\"protocol\":\"PDI-IoTA-UltraLight\"," ++
    "\"entity_name\":\"room\"\x7d]\x7d"

def putPing : String :=
  "\x7b\"commands\":[\x7b\"name\":\"ping\",\"type\":\"command\",\"value\":\"\"\x7d]\x7d"

def putHallPing : String :=
  "\x7b\"entity_name\":\"hall\",\"commands\":[\x7b\"name\":\"ping\"," ++
    "\"type\":\"command\",\"value\":\"\"\x7d]\x7d"

/-- An agent with one handler. -/
def roomAgent : AdminService where
  serviceManager := [("/iot/d", ⟨"PDI-IoTA-UltraLight", true,
    fun _ => (Types.responseCodeNone, ""), [], fun _ _ => none⟩)]
  postDeviceSchema := knowing
    [(postRoomPing, creating (withEntity "d1" ++ pingOnly)
      (deviceShape_of_ping rfl rfl (fun _ h => (Option.some.inj h).symm))),
      (postRoom, creating (withEntity "d2") (deviceShape_of_ping rfl rfl (fun _ h => by cases h)))]
  putDeviceSchema := knowing
    [(putPing, ⟨pingOnly, deviceShape_of_ping rfl rfl (fun _ h => (Option.some.inj h).symm)⟩),
      (putHallPing, ⟨inHall, deviceShape_of_ping rfl rfl
        (fun _ h => (Option.some.inj h).symm)⟩)]
  postServiceSchema := knowing []
  deviceColl := fun _ => ⟨"iot", "DEVICE", fun _ => "", fun _ => none⟩
  serviceColl := fun _ => ⟨"iot", "SERVICE", fun _ => "", fun _ => none⟩

/-- A service path without devices. -/
def roomService : AdminState where
  services := ⟨[[(StoreTypes.apikey, .str "key"), (StoreTypes.resource, .str "/iot/d"),
    (StoreTypes.service, .str "service"), (StoreTypes.servicePath, .str "/")]], by decide⟩
  devices := Table.empty
  sent := []

/-- A device with the command, and one of the same entity without commands. -/
def createRoomPing : DeviceRequest := .post "service" "/" postRoomPing

def createRoom : DeviceRequest := .post "service" "/" postRoom

/-- The second device gets the command; the entity is not mentioned. -/
def addPing : DeviceRequest := .put "service" "/" "d2" putPing ""

/-- The second device gets another entity and the command. -/
def moveToHall : DeviceRequest := .put "service" "/" "d2" putHallPing ""

def afterCreations : AdminState :=
  (roomAgent.handle (roomAgent.handle roomService createRoomPing).1 createRoom).1

def afterPut : AdminState :=
  (roomAgent.handle afterCreations addPing).1

def afterMove : AdminState :=
  (roomAgent.handle afterCreations moveToHall).1

lemma safe_createRoomPing (s : AdminState) :
    Safe roomAgent (fun _ => True) s createRoomPing := by
  intro obj hobj
  obtain rfl : (creating (withEntity "d1" ++ pingOnly)
    (deviceShape_of_ping rfl rfl (fun _ h => (Option.some.inj h).symm))).1 = obj :=
    Except.ok.inj hobj
  intro bo hbo
  rw [List.mem_singleton.mp hbo]
  exact fun _ => by decide

lemma safe_createRoom (s : AdminState) : Safe roomAgent (fun _ => True) s createRoom := by
  intro obj hobj
  obtain rfl : (creating (withEntity "d2")
    (deviceShape_of_ping rfl rfl (fun _ h => by cases h))).1 = obj := Except.ok.inj hobj
  intro bo hbo
  rw [List.mem_singleton.mp hbo]
  exact fun _ => by decide

lemma safe_moveToHall (s : AdminState) : Safe roomAgent (fun _ => True) s moveToHall := by
  intro setbo hsetbo
  obtain rfl : inHall = setbo := Except.ok.inj hsetbo
  refine fun d _ _ => .inr (.inl ⟨⟨by decide, by decide⟩, fun f hf => .inl ?_⟩)
  rw [List.mem_singleton.mp hf]
  decide

lemma docs_afterPut : afterPut.devices.docs =
    [insertObj "service" "/" (withEntity "d1" ++ pingOnly),
      insertObj "service" "/" (withEntity "d2") ++ pingOnly] := by
  decide +kernel

end AdminService

end IotAgent
