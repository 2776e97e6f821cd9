import IotAgent.Lib.Batch
import IotAgent.Lib.Placeholders
import IotAgent.Services.AdminService
import IotAgent.Util.ServiceMgmtCollection

/-!
The services of a registration (the second part of `post_protocol_json`).

An agent registers with a list of its services. The manager reads what it has stored for the
agent into a map, stores every service of the list and takes it out of the map, and removes what
is left in the map.

* `Registration.sync`: what is stored afterwards;
* `Registration.sync_docs`: it is what was stored, with the services of the list set and what is
  left in the map removed;
* `Registration.keys_sync_iff`, `Registration.sync_sync`: the services of the agent are those of
  the list exactly if the texts in the map are apart, and then to do it again changes nothing;
* `Registration.others_sync`: the documents of others are as before.
-/

namespace IotAgent

open Mongo ServiceMgmtCollection

/-- What a registration says of the agent. -/
structure Registration where
  endpoint : String
  protocol : String
  description : String

/-- The fields of a service that the schema of the registration knows. -/
def serviceFields : List String :=
  ["service", "service_path", "entity_type", "apikey", "token", "cbroker", "outgoing_route",
    "resource", "attributes", "static_attributes"]

/-- A service with these fields only. -/
def KnownFields (srvObj : Doc) : Prop :=
  ∀ f ∈ srvObj.names, f ∈ serviceFields

/-- The collection and what is left in the map. -/
structure SyncState where
  table : ServiceMgmtCollection
  inMongo : List (String × ServiceDoc)

namespace Registration

variable (r : Registration)

/-- The service, the service path, the agent and the protocol of a service in the list. -/
def keyOf (srvObj : Doc) : ServiceKey where
  service := srvObj.getStringField StoreTypes.service
  servicePath := srvObj.getStringField StoreTypes.servicePath
  iotagent := r.endpoint
  protocol := r.protocol

/-- The text of a service in the map. -/
def textOf (srvObj : Doc) : String :=
  mapKey (srvObj.getStringField StoreTypes.service) (srvObj.getStringField StoreTypes.servicePath)

/-- The fields that are set for a service. -/
def data2set (srvObj : Doc) : Doc :=
  (srvObj.filter fun fv => fv.1 ≠ StoreTypes.service ∧ fv.1 ≠ StoreTypes.servicePath ∧
    fv.1 ≠ StoreTypes.resource) ++ [("description", .str r.description)]

/-- One service of the list. It is stored if it is not in the map or differs from the document
there, and taken out of the map. -/
def syncItem (st : SyncState) (srvObj : Doc) : Except IotaException SyncState := do
  let it := st.inMongo.lookup (textOf srvObj)
  let table ←
    if it.map ServiceDoc.toDoc ≠ some srvObj then
      st.table.update (r.keyOf srvObj) (r.data2set srvObj)
    else .ok st.table
  return ⟨table, st.inMongo.filter fun kd => kd.1 ≠ textOf srvObj⟩

/-- The services of a registration. -/
def sync (t : ServiceMgmtCollection) (items : List Doc) :
    ServiceMgmtCollection × Except IotaException Unit :=
  match Batch.run r.syncItem ⟨t, t.fillServices r.endpoint r.protocol⟩ items with
  | (st, .ok ()) => (st.inMongo.foldl (fun t kd => t.remove kd.2) st.table, .ok ())
  | (st, .error e) => (st.table, .error e)

/-! ### Storing -/

/-- The services of the list are stored one after the other. -/
def upserts (t : ServiceMgmtCollection) (items : List Doc) : ServiceMgmtCollection :=
  items.foldl (fun t i => t.setKey (r.keyOf i) (r.data2set i)) t

/-- All that the list sets for a key. -/
def setsFor (key : ServiceKey) (items : List Doc) : Doc :=
  (items.filter fun i => r.keyOf i = key).flatMap r.data2set

end Registration

namespace ServiceMgmtCollection

variable {t : ServiceMgmtCollection} {key k : ServiceKey} {vs : Doc}

/-- The keys of the documents. -/
abbrev keys (t : ServiceMgmtCollection) : List ServiceKey :=
  t.docs.map ServiceDoc.key

lemma setKey_docs_of_mem (h : key ∈ t.keys) :
    (t.setKey key vs).docs = t.docs.map fun d => if d.key = key then d.setAll vs else d := by
  rw [setKey, dif_pos h]

lemma setKey_docs_of_new (h : key ∉ t.keys) :
    (t.setKey key vs).docs = t.docs ++ [ServiceDoc.ofKey key vs] := by
  rw [setKey, dif_neg h]

lemma key_ite_setAll {d : ServiceDoc} : (if d.key = key then d.setAll vs else d).key = d.key := by
  split <;> rfl

lemma mem_keys_setKey : k ∈ (t.setKey key vs).keys ↔ k = key ∨ k ∈ t.keys := by
  by_cases h : key ∈ t.keys
  · have hkeys : (t.setKey key vs).keys = t.keys := by
      rw [keys, setKey_docs_of_mem h, List.map_map]
      exact List.map_congr_left fun d _ => key_ite_setAll
    rw [hkeys]
    refine ⟨Or.inr, ?_⟩
    rintro (rfl | hk)
    · exact h
    · exact hk
  · rw [keys, setKey_docs_of_new h, List.map_append, List.mem_append, or_comm]
    simp

/-- The documents of other keys stay as they are. -/
lemma filter_setKey {q : ServiceKey → Prop} [DecidablePred q] (hq : ¬ q key) :
    ((t.setKey key vs).docs.filter fun d => q d.key) = t.docs.filter fun d => q d.key := by
  by_cases h : key ∈ t.keys
  · rw [setKey_docs_of_mem h, List.filter_map]
    have hpred : ((fun d : ServiceDoc => decide (q d.key)) ∘ fun d =>
        if d.key = key then d.setAll vs else d) = fun d => decide (q d.key) := by
      funext d
      dsimp only [Function.comp_apply]
      rw [key_ite_setAll]
    rw [hpred]
    refine (List.map_congr_left fun d hd => if_neg fun e => ?_).trans (List.map_id _)
    exact hq (e ▸ of_decide_eq_true (List.mem_filter.mp hd).2)
  · rw [setKey_docs_of_new h, List.filter_append]
    simp [hq]

end ServiceMgmtCollection

namespace Registration

variable {r : Registration} {t : ServiceMgmtCollection} {items : List Doc} {k : ServiceKey}

lemma upserts_cons {i : Doc} : r.upserts t (i :: items) =
    r.upserts (t.setKey (r.keyOf i) (r.data2set i)) items := rfl

/-- The keys are those that were there and those of the list. -/
lemma mem_keys_upserts : k ∈ (r.upserts t items).keys ↔ k ∈ t.keys ∨ k ∈ items.map r.keyOf := by
  induction items generalizing t with
  | nil => simp [upserts]
  | cons i items ih =>
      rw [upserts_cons, ih, mem_keys_setKey, List.map_cons, List.mem_cons, or_assoc, or_left_comm]

/-- The documents of other keys stay as they are. -/
lemma filter_upserts {q : ServiceKey → Prop} [DecidablePred q] (hq : ∀ i ∈ items, ¬ q (r.keyOf i)) :
    ((r.upserts t items).docs.filter fun d => q d.key) = t.docs.filter fun d => q d.key := by
  induction items generalizing t with
  | nil => rfl
  | cons i items ih =>
      rw [upserts_cons, ih fun j hj => hq j (List.mem_cons_of_mem i hj),
        filter_setKey (hq i List.mem_cons_self)]

lemma setsFor_cons {i : Doc} : r.setsFor k (i :: items) =
    if r.keyOf i = k then r.data2set i ++ r.setsFor k items else r.setsFor k items := by
  rw [setsFor, List.filter_cons]
  by_cases h : r.keyOf i = k <;> simp [h, setsFor]

lemma setsFor_of_notMem (h : k ∉ items.map r.keyOf) : r.setsFor k items = [] := by
  rw [setsFor, List.filter_eq_nil_iff.mpr, List.flatMap_nil]
  intro i hi e
  exact h (List.mem_map.mpr ⟨i, hi, by simpa using e⟩)

/-- If all the keys are there already, every document gets what the list sets for its key. -/
lemma upserts_docs (h : ∀ i ∈ items, r.keyOf i ∈ t.keys) :
    (r.upserts t items).docs = t.docs.map fun d => d.setAll (r.setsFor d.key items) := by
  induction items generalizing t with
  | nil => exact (List.map_id _).symm
  | cons i items ih =>
      have hi : r.keyOf i ∈ t.keys := h i List.mem_cons_self
      have htail : ∀ j ∈ items, r.keyOf j ∈ (t.setKey (r.keyOf i) (r.data2set i)).keys :=
        fun j hj => mem_keys_setKey.mpr (.inr (h j (List.mem_cons_of_mem i hj)))
      rw [upserts_cons, ih htail, setKey_docs_of_mem hi, List.map_map]
      refine List.map_congr_left fun d _ => ?_
      dsimp only [Function.comp_apply]
      rw [key_ite_setAll, setsFor_cons]
      by_cases hd : d.key = r.keyOf i
      · rw [if_pos hd, if_pos hd.symm, ServiceDoc.setAll_append]
      · rw [if_neg hd, if_neg fun e => hd e.symm]

lemma setsFor_append_singleton {i : Doc} : r.setsFor k (items ++ [i]) =
    r.setsFor k items ++ if r.keyOf i = k then r.data2set i else [] := by
  rw [setsFor, List.filter_append, List.flatMap_append, ← setsFor]
  by_cases h : r.keyOf i = k <;> simp [h]

/-- What the list sets for the key of a document has been set in it. -/
lemma exists_setAll {d : ServiceDoc} (hd : d ∈ (r.upserts t items).docs) :
    ∃ d₀ : ServiceDoc, d = d₀.setAll (r.setsFor d.key items) := by
  induction items using List.reverseRecOn generalizing d with
  | nil => exact ⟨d, rfl⟩
  | append_singleton items i ih =>
      have hlast : r.upserts t (items ++ [i]) =
          (r.upserts t items).setKey (r.keyOf i) (r.data2set i) := by
        rw [upserts, List.foldl_concat, ← upserts]
      rw [hlast] at hd
      by_cases hi : r.keyOf i ∈ (r.upserts t items).keys
      · rw [setKey_docs_of_mem hi] at hd
        obtain ⟨d₁, hd₁, rfl⟩ := List.mem_map.mp hd
        obtain ⟨d₀, heq⟩ := ih hd₁
        refine ⟨d₀, ?_⟩
        rw [key_ite_setAll, setsFor_append_singleton, ServiceDoc.setAll_append, ← heq]
        by_cases hkey : d₁.key = r.keyOf i
        · rw [if_pos hkey, if_pos hkey.symm]
        · rw [if_neg hkey, if_neg fun e => hkey e.symm]
          rfl
      · rw [setKey_docs_of_new hi, List.mem_append, List.mem_singleton] at hd
        rcases hd with hd | rfl
        · obtain ⟨d₀, heq⟩ := ih hd
          have hne : r.keyOf i ≠ d.key := fun e => hi (e ▸ List.mem_map_of_mem hd)
          refine ⟨d₀, ?_⟩
          rw [setsFor_append_singleton, if_neg hne, List.append_nil]
          exact heq
        · have hnone : r.setsFor (r.keyOf i) items = [] :=
            setsFor_of_notMem fun h => hi (mem_keys_upserts.mpr (.inr h))
          refine ⟨⟨r.keyOf i, [], List.nodup_nil⟩, ?_⟩
          rw [ServiceDoc.ofKey_key, setsFor_append_singleton, if_pos rfl, hnone, List.nil_append]
          rfl

/-! ### The loop -/

/-- A stored document names its agent, which a service of the list does not. -/
lemma toDoc_ne {i : Doc} (hi : KnownFields i) (d : ServiceDoc) : d.toDoc ≠ i := by
  rintro rfl
  have hmem : "iotagent" ∈ d.toDoc.names := by simp [ServiceDoc.toDoc]
  exact absurd (hi _ hmem) (by decide)

/-- So every service of the list is stored, if its fields are distinct. -/
lemma syncItem_eq {st : SyncState} {i : Doc} (hi : KnownFields i) : r.syncItem st i =
    if (r.data2set i).names.Nodup then
      .ok ⟨st.table.setKey (r.keyOf i) (r.data2set i),
        st.inMongo.filter fun kd => kd.1 ≠ textOf i⟩
    else
      .error ⟨Types.responseMessageDatabaseError, "", Types.responseCodeReceiverInternalError⟩ := by
  have hdiffers : (st.inMongo.lookup (textOf i)).map ServiceDoc.toDoc ≠ some i := by
    intro e
    obtain ⟨d, -, hd⟩ := Option.map_eq_some_iff.mp e
    exact toDoc_ne hi d hd
  rw [syncItem]
  dsimp only
  rw [if_pos hdiffers, update]
  split <;> rfl

/-- The list is processed to its end exactly if the fields of every service are distinct. -/
lemma run_syncItem_ok_iff {st : SyncState} (hknown : ∀ i ∈ items, KnownFields i) :
    (Batch.run r.syncItem st items).2 = .ok () ↔ ∀ i ∈ items, (r.data2set i).names.Nodup := by
  induction items generalizing st with
  | nil => exact iff_of_true rfl fun i hi => absurd hi List.not_mem_nil
  | cons i items ih =>
      have hi : r.syncItem st i = _ := syncItem_eq (hknown i List.mem_cons_self)
      rw [List.forall_mem_cons]
      by_cases hnodup : (r.data2set i).names.Nodup
      · rw [if_pos hnodup] at hi
        rw [Batch.run_cons_ok hi, ih fun j hj => hknown j (List.mem_cons_of_mem i hj),
          and_iff_right hnodup]
      · rw [if_neg hnodup] at hi
        rw [Batch.run_cons_error hi]
        exact iff_of_false (fun e => by cases e) fun h => hnodup h.1

/-- What the loop leaves behind. -/
lemma run_syncItem {st : SyncState} (hknown : ∀ i ∈ items, KnownFields i)
    (hnodup : ∀ i ∈ items, (r.data2set i).names.Nodup) : Batch.run r.syncItem st items =
      (⟨r.upserts st.table items, st.inMongo.filter fun kd => kd.1 ∉ items.map textOf⟩,
        .ok ()) := by
  induction items generalizing st with
  | nil =>
      have hall : (st.inMongo.filter fun kd => kd.1 ∉ ([] : List Doc).map textOf) = st.inMongo :=
        List.filter_eq_self.mpr fun kd _ => by simp
      rw [hall]
      rfl
  | cons i items ih =>
      have hi : r.syncItem st i = _ := syncItem_eq (hknown i List.mem_cons_self)
      rw [if_pos (hnodup i List.mem_cons_self)] at hi
      rw [Batch.run_cons_ok hi, ih (fun j hj => hknown j (List.mem_cons_of_mem i hj))
        fun j hj => hnodup j (List.mem_cons_of_mem i hj), upserts_cons, List.filter_filter]
      have hpred : (fun kd : String × ServiceDoc =>
          decide (kd.1 ∉ items.map textOf) && decide (kd.1 ≠ textOf i)) =
          fun kd => decide (kd.1 ∉ (i :: items).map textOf) := by
        funext kd
        rw [← Bool.decide_and]
        refine decide_eq_decide.mpr ?_
        rw [List.map_cons, List.mem_cons, not_or, and_comm]
      rw [hpred]

/-! ### The map -/

/-- The documents of the agent and the protocol. -/
def Own (r : Registration) (k : ServiceKey) : Prop :=
  k.iotagent = r.endpoint ∧ k.protocol = r.protocol

instance (r : Registration) (k : ServiceKey) : Decidable (r.Own k) :=
  inferInstanceAs (Decidable (_ ∧ _))

/-- The documents of the agent and the protocol, in the order of the collection. -/
def ownDocs (r : Registration) (t : ServiceMgmtCollection) : List ServiceDoc :=
  t.docs.filter fun d => r.Own d.key

/-- The text of a document in the map. -/
def textOfKey (k : ServiceKey) : String :=
  mapKey k.service k.servicePath

/-- A document with this key is left in the map. -/
def Left (r : Registration) (t : ServiceMgmtCollection) (items : List Doc) (k : ServiceKey) :
    Prop :=
  ∃ kd ∈ t.fillServices r.endpoint r.protocol, kd.1 ∉ items.map textOf ∧ kd.2.key = k

instance (r : Registration) (t : ServiceMgmtCollection) (items : List Doc) (k : ServiceKey) :
    Decidable (r.Left t items k) :=
  inferInstanceAs (Decidable (∃ kd ∈ _, _))

/-- A document of the agent that is not in the list shares its text neither with a service of
the list nor with another document of the agent. -/
def TextsApart (r : Registration) (t : ServiceMgmtCollection) (items : List Doc) : Prop :=
  ∀ d ∈ r.ownDocs t, d.key ∉ items.map r.keyOf → textOfKey d.key ∉ items.map textOf ∧
    ∀ e ∈ r.ownDocs t, textOfKey e.key = textOfKey d.key → e = d

lemma own_keyOf (i : Doc) : r.Own (r.keyOf i) := ⟨rfl, rfl⟩

lemma textOfKey_mem (h : k ∈ items.map r.keyOf) : textOfKey k ∈ items.map textOf := by
  obtain ⟨i, hi, rfl⟩ := List.mem_map.mp h
  exact List.mem_map.mpr ⟨i, hi, rfl⟩

lemma mem_ownDocs {d : ServiceDoc} : d ∈ r.ownDocs t ↔ d ∈ t.docs ∧ r.Own d.key := by
  rw [ownDocs, List.mem_filter, decide_eq_true_eq]

/-- The map has documents of the agent under their texts. -/
lemma exists_of_mem_fillServices {kd : String × ServiceDoc}
    (h : kd ∈ t.fillServices r.endpoint r.protocol) :
    ∃ d ∈ r.ownDocs t, kd = (textOfKey d.key, d) := by
  obtain ⟨d, hd, rfl⟩ := List.mem_map.mp (FirstMap.mem_of_mem_ofList h)
  exact ⟨d, hd, rfl⟩

lemma own_of_left (h : r.Left t items k) : r.Own k := by
  obtain ⟨kd, hkd, -, rfl⟩ := h
  obtain ⟨d, hd, rfl⟩ := exists_of_mem_fillServices hkd
  exact (mem_ownDocs.mp hd).2

lemma notMem_of_left (h : r.Left t items k) : k ∉ items.map r.keyOf := by
  obtain ⟨kd, hkd, hnot, rfl⟩ := h
  obtain ⟨d, -, rfl⟩ := exists_of_mem_fillServices hkd
  exact fun hmem => hnot (textOfKey_mem hmem)

/-- What is left of the documents of the agent. -/
lemma left_iff {d : ServiceDoc} (hd : d ∈ r.ownDocs t) : r.Left t items d.key ↔
    (textOfKey d.key, d) ∈ t.fillServices r.endpoint r.protocol ∧
      textOfKey d.key ∉ items.map textOf := by
  constructor
  · rintro ⟨kd, hkd, hnot, hkey⟩
    obtain ⟨e, he, rfl⟩ := exists_of_mem_fillServices hkd
    obtain rfl : e = d := List.inj_on_of_nodup_map t.unique (mem_ownDocs.mp he).1
      (mem_ownDocs.mp hd).1 hkey
    exact ⟨hkd, hnot⟩
  · rintro ⟨hmem, hnot⟩
    exact ⟨_, hmem, hnot, rfl⟩

/-- All documents of the agent that are not in the list are left in the map exactly if their
texts are apart. -/
lemma textsApart_iff : r.TextsApart t items ↔
    ∀ d ∈ r.ownDocs t, d.key ∉ items.map r.keyOf → r.Left t items d.key := by
  constructor
  · intro hapart d hd hnew
    obtain ⟨htext, hunique⟩ := hapart d hd hnew
    refine (left_iff hd).mpr ⟨FirstMap.mem_ofList_of_unique (List.mem_map_of_mem hd) ?_, htext⟩
    intro kd hkd hkey
    obtain ⟨e, he, rfl⟩ := List.mem_map.mp hkd
    obtain rfl : e = d := hunique e he hkey
    rfl
  · intro hleft d hd hnew
    obtain ⟨hmem, htext⟩ := (left_iff hd).mp (hleft d hd hnew)
    refine ⟨htext, fun e he heq => ?_⟩
    have henew : e.key ∉ items.map r.keyOf := fun h => htext (heq ▸ textOfKey_mem h)
    obtain ⟨hemem, -⟩ := (left_iff he).mp (hleft e he henew)
    exact congrArg Prod.snd (FirstMap.eq_of_mem_ofList hemem hmem heq)

/-! ### Bars in the names -/

/-- The text has the service in front of its first bar. -/
def NoBar (k : ServiceKey) : Prop :=
  '|' ∉ k.service.toList

instance (k : ServiceKey) : Decidable (NoBar k) := inferInstanceAs (Decidable (_ ∉ _))

/-- With no bar in the service names the text determines the service and the service path. -/
lemma eq_of_textOfKey {k' : ServiceKey} (hk : r.Own k) (hk' : r.Own k') (hbar : NoBar k)
    (hbar' : NoBar k') (h : textOfKey k = textOfKey k') : k = k' := by
  obtain ⟨service, servicePath, iotagent, protocol⟩ := k
  obtain ⟨service', servicePath', iotagent', protocol'⟩ := k'
  obtain ⟨rfl, rfl⟩ := hk
  obtain ⟨rfl, rfl⟩ := hk'
  have hlist : service.toList ++ '|' :: servicePath.toList =
      service'.toList ++ '|' :: servicePath'.toList := by
    have := congrArg String.toList h
    simpa [textOfKey, mapKey] using this
  obtain ⟨hs, hp⟩ := Placeholders.append_separator_inj hbar hbar' hlist
  obtain rfl : service = service' := String.toList_inj.mp hs
  obtain rfl : servicePath = servicePath' := String.toList_inj.mp hp
  rfl

/-- Then the texts are apart. -/
lemma textsApart_of_noBar (hitems : ∀ i ∈ items, NoBar (r.keyOf i))
    (hbar : ∀ d ∈ r.ownDocs t, NoBar d.key) : r.TextsApart t items := by
  intro d hd hnew
  have hown : r.Own d.key := (mem_ownDocs.mp hd).2
  constructor
  · intro htext
    obtain ⟨i, hi, heq⟩ := List.mem_map.mp htext
    have hkey : r.keyOf i = d.key :=
      eq_of_textOfKey (own_keyOf i) hown (hitems i hi) (hbar d hd) heq
    exact hnew (List.mem_map.mpr ⟨i, hi, hkey⟩)
  · intro e he heq
    obtain ⟨het, heown⟩ := mem_ownDocs.mp he
    exact List.inj_on_of_nodup_map t.unique het (mem_ownDocs.mp hd).1
      (eq_of_textOfKey heown hown (hbar e he) (hbar d hd) heq)

/-! ### The registration -/

/-- What is removed is what one of the documents matches. -/
lemma foldl_remove_docs {m : List (String × ServiceDoc)} :
    (m.foldl (fun t kd => t.remove kd.2) t).docs =
      t.docs.filter fun d => ∀ kd ∈ m, ¬ kd.2.Matches d := by
  induction m generalizing t with
  | nil => exact (List.filter_eq_self.mpr fun d _ => by simp).symm
  | cons kd m ih =>
      rw [List.foldl_cons, ih, remove, List.filter_filter]
      refine List.filter_congr fun d _ => ?_
      rw [← Bool.decide_and]
      refine decide_eq_decide.mpr ?_
      rw [List.forall_mem_cons, and_comm]

/-- A document that is not of the list has been there before. -/
lemma mem_of_mem_upserts {d : ServiceDoc} (hd : d ∈ (r.upserts t items).docs)
    (hnew : d.key ∉ items.map r.keyOf) : d ∈ t.docs := by
  have hfilter : ((r.upserts t items).docs.filter fun e => e.key = d.key) =
      t.docs.filter fun e => e.key = d.key :=
    filter_upserts (q := (· = d.key)) fun i hi e => hnew (List.mem_map.mpr ⟨i, hi, e⟩)
  have hmem : d ∈ (r.upserts t items).docs.filter fun e => e.key = d.key :=
    List.mem_filter.mpr ⟨hd, decide_eq_true rfl⟩
  rw [hfilter] at hmem
  exact (List.mem_filter.mp hmem).1

/-- The registration is processed to its end exactly if the fields of every service are
distinct. -/
lemma sync_ok_iff (hknown : ∀ i ∈ items, KnownFields i) :
    (r.sync t items).2 = .ok () ↔ ∀ i ∈ items, (r.data2set i).names.Nodup := by
  have hrun : (Batch.run r.syncItem ⟨t, t.fillServices r.endpoint r.protocol⟩ items).2 = .ok () ↔
      ∀ i ∈ items, (r.data2set i).names.Nodup := run_syncItem_ok_iff hknown
  rw [← hrun, sync]
  generalize Batch.run r.syncItem ⟨t, t.fillServices r.endpoint r.protocol⟩ items = res
  obtain ⟨st, _ | _⟩ := res
  · exact iff_of_false (fun e => by cases e) fun e => by cases e
  · exact iff_of_true rfl rfl

section Sync

variable (hknown : ∀ i ∈ items, KnownFields i) (hok : (r.sync t items).2 = .ok ())

include hknown hok

/-- What is stored afterwards: the services of the list are set, and what is left in the map is
removed. -/
lemma sync_docs : (r.sync t items).1.docs =
    (r.upserts t items).docs.filter fun d => ¬ r.Left t items d.key := by
  rw [sync, run_syncItem hknown ((sync_ok_iff hknown).mp hok)]
  refine foldl_remove_docs.trans (List.filter_congr fun d hd => decide_eq_decide.mpr ?_)
  constructor
  · rintro hunmatched ⟨kd, hkd, hnot, hkey⟩
    refine hunmatched kd (List.mem_filter.mpr ⟨hkd, decide_eq_true hnot⟩) ?_
    -- the list has not touched a document that is left in the map
    have hold : d ∈ t.docs := mem_of_mem_upserts hd (notMem_of_left ⟨kd, hkd, hnot, hkey⟩)
    obtain ⟨e, he, rfl⟩ := exists_of_mem_fillServices hkd
    obtain rfl : e = d := List.inj_on_of_nodup_map t.unique (mem_ownDocs.mp he).1 hold hkey
    exact e.matches_self
  · intro hleft kd hkd hmatch
    obtain ⟨hkd, hnot⟩ := List.mem_filter.mp hkd
    exact hleft ⟨kd, hkd, of_decide_eq_true hnot, hmatch.1⟩

lemma mem_keys_sync : k ∈ (r.sync t items).1.keys ↔
    (k ∈ t.keys ∨ k ∈ items.map r.keyOf) ∧ ¬ r.Left t items k := by
  rw [keys, sync_docs hknown hok, ← mem_keys_upserts, keys, List.mem_map, List.mem_map]
  constructor
  · rintro ⟨d, hd, rfl⟩
    obtain ⟨hd, hleft⟩ := List.mem_filter.mp hd
    exact ⟨⟨d, hd, rfl⟩, of_decide_eq_true hleft⟩
  · rintro ⟨⟨d, hd, rfl⟩, hleft⟩
    exact ⟨d, List.mem_filter.mpr ⟨hd, decide_eq_true hleft⟩, rfl⟩

/-- The documents of others are as before. -/
lemma others_sync : ((r.sync t items).1.docs.filter fun d => ¬ r.Own d.key) =
    t.docs.filter fun d => ¬ r.Own d.key := by
  rw [sync_docs hknown hok, List.filter_filter]
  refine (List.filter_congr fun d _ => ?_).trans
    (filter_upserts (q := fun k => ¬ r.Own k) fun i _ hno => hno (own_keyOf i))
  rw [← Bool.decide_and]
  exact decide_eq_decide.mpr (and_iff_left_of_imp fun hno hleft => hno (own_of_left hleft))

/-- The keys of others are as before. -/
lemma mem_keys_sync_of_not_own (hk : ¬ r.Own k) :
    k ∈ (r.sync t items).1.keys ↔ k ∈ t.keys := by
  have hnew : k ∉ items.map r.keyOf := by
    intro hmem
    obtain ⟨i, -, rfl⟩ := List.mem_map.mp hmem
    exact hk (own_keyOf i)
  rw [mem_keys_sync hknown hok, or_iff_left hnew, and_iff_left fun hleft => hk (own_of_left hleft)]

/-- The documents of the agent are those of the list exactly if the texts are apart. -/
lemma keys_sync_iff : (∀ k, r.Own k → (k ∈ (r.sync t items).1.keys ↔ k ∈ items.map r.keyOf)) ↔
    r.TextsApart t items := by
  rw [textsApart_iff]
  constructor
  · intro hkeys d hd hnew
    obtain ⟨hdt, hown⟩ := mem_ownDocs.mp hd
    by_contra hleft
    have hmem : d.key ∈ (r.sync t items).1.keys :=
      (mem_keys_sync hknown hok).mpr ⟨.inl (List.mem_map_of_mem hdt), hleft⟩
    exact hnew ((hkeys d.key hown).mp hmem)
  · intro hleft k hk
    rw [mem_keys_sync hknown hok]
    constructor
    · rintro ⟨hold | hnew, hnotLeft⟩
      · by_contra hnew
        obtain ⟨d, hd, rfl⟩ := List.mem_map.mp hold
        exact hnotLeft (hleft d (mem_ownDocs.mpr ⟨hd, hk⟩) hnew)
      · exact hnew
    · exact fun hnew => ⟨.inr hnew, fun h => notMem_of_left h hnew⟩

/-- Then to register the same services again changes nothing. -/
lemma sync_sync (hapart : r.TextsApart t items) :
    r.sync (r.sync t items).1 items = ((r.sync t items).1, .ok ()) := by
  have hkeys := (keys_sync_iff hknown hok).mpr hapart
  have hdocs := sync_docs hknown hok
  generalize (r.sync t items).1 = t' at hkeys hdocs ⊢
  have hok' : (r.sync t' items).2 = .ok () :=
    (sync_ok_iff hknown).mpr ((sync_ok_iff hknown).mp hok)
  have hthere : ∀ i ∈ items, r.keyOf i ∈ t'.keys := fun i hi =>
    (hkeys _ (own_keyOf i)).mpr (List.mem_map_of_mem hi)
  have hself : (t'.docs.map fun d => d.setAll (r.setsFor d.key items)) = t'.docs := by
    refine (List.map_congr_left fun d hd => ?_).trans (List.map_id _)
    rw [hdocs] at hd
    obtain ⟨d₀, heq⟩ := exists_setAll (List.mem_filter.mp hd).1
    calc d.setAll (r.setsFor d.key items)
        = (d₀.setAll (r.setsFor d.key items)).setAll (r.setsFor d.key items) :=
          congrArg (ServiceDoc.setAll · _) heq
      _ = d₀.setAll (r.setsFor d.key items) := ServiceDoc.setAll_setAll
      _ = d := heq.symm
  have hsame : (r.sync t' items).1.docs = t'.docs := by
    rw [sync_docs hknown hok', upserts_docs hthere, hself, List.filter_eq_self]
    intro d hd
    refine decide_eq_true fun hleft => notMem_of_left hleft ?_
    exact (hkeys d.key (own_of_left hleft)).mp (List.mem_map_of_mem hd)
  refine Prod.ext ?_ hok'
  generalize (r.sync t' items).1 = t'' at hsame ⊢
  obtain ⟨docs, hdistinct⟩ := t''
  obtain rfl : docs = t'.docs := hsame
  rfl

end Sync

end Registration

end IotAgent
