import IotAgent.Rest.CommandHandle

/-!
The answer of a device that accepts a command.

The table is unique in the identifier, the service and the service path together, and the
mark of an accepted command names the identifier only. It reaches the first record of that
identifier, in whatever service.

* `IsRecord`: the record of a command, by its whole key;
* `MarksOwnRecord`: the answer marks the record of its command and leaves all others;
* `marksOwnRecord_iff`: exactly when the first record of the identifier is that record, or
  there is nothing left to mark.
-/

namespace IotAgent

open HashIndex Mongo

namespace CommandHandle

variable {h : Hashing} {s : CommandHandle h} {o : Order Ptr String}

/-- The record of a command. -/
def IsRecord (commandId service servicePath : String) (doc : Doc) : Prop :=
  (CommandCollection.bson2Obj doc).id = commandId ∧
  (CommandCollection.bson2Obj doc).service = service ∧
  (CommandCollection.bson2Obj doc).servicePath = servicePath

instance (commandId service servicePath : String) (doc : Doc) :
    Decidable (IsRecord commandId service servicePath doc) :=
  inferInstanceAs (Decidable (_ ∧ _))

/-- A record with the mark. -/
def mark (doc : Doc) : Doc :=
  doc.set StoreTypes.status (.int Types.delivered)

/-- A record that has the mark. -/
def Marked (doc : Doc) : Prop :=
  doc.get StoreTypes.status = some (.int Types.delivered)

lemma mark_eq_self_iff {doc : Doc} : mark doc = doc ↔ Marked doc :=
  Doc.set_eq_self_iff

/-- The query of the mark. -/
def acceptedQuery (commandId : String) : Doc :=
  [(StoreTypes.commandId, .str commandId)]

/-- The own record of a command among others, with the mark. -/
def markOwn (commandId service servicePath : String) (doc : Doc) : Doc :=
  if IsRecord commandId service servicePath doc then mark doc else doc

/-- The answer marks the record of the command and leaves every other record. -/
def MarksOwnRecord (s : CommandHandle h) (o : Order Ptr String) (d : CommandData)
    (respCmd : String) : Prop :=
  (s.processCommandResponse o d 202 respCmd).table.docs =
    s.table.docs.map (markOwn d.commandId d.serviceName d.servicePath)

instance (s : CommandHandle h) (o : Order Ptr String) (d : CommandData) (respCmd : String) :
    Decidable (MarksOwnRecord s o d respCmd) :=
  inferInstanceAs (Decidable (_ = _))

/-! ### What the answer does to the table -/

/-- The status is no field of the index. -/
lemma status_notMem_index (vs : Doc) (hvs : vs.map Prod.fst = [StoreTypes.status]) :
    ∀ index ∈ [commandIndex], ∀ f ∈ index, f ∉ vs.map Prod.fst := by
  rw [hvs]
  decide

@[simp] lemma getCommand_table (id service servicePath : String) :
    (s.getCommand o id service servicePath).1.table = s.table := rfl

@[simp] lemma setStatus_table (p : Option Ptr) (status : ℤ) :
    (s.setStatus p status).table = s.table := by
  cases p <;> rfl

/-- The first record of the identifier is marked. -/
lemma markAccepted_docs (hs : s.Stored) (commandId : String) :
    (s.markAccepted commandId).1.table.docs =
      modifyFirst (acceptedQuery commandId) mark s.table.docs := by
  obtain ⟨t, hupdate, hdocs⟩ := Table.update_eq (t := s.table)
    (q := [(StoreTypes.commandId, .str commandId)])
    (status_notMem_index [(StoreTypes.status, .int Types.delivered)] rfl)
  rw [markAccepted, if_pos hs, hupdate]
  exact hdocs

lemma processCommandResponse_accepted_docs (hs : s.Stored) (d : CommandData)
    (respCmd : String) :
    (s.processCommandResponse o d 202 respCmd).table.docs =
      modifyFirst (acceptedQuery d.commandId) mark s.table.docs := by
  rw [← markAccepted_docs hs, processCommandResponse, if_neg (by decide), if_pos rfl]
  dsimp only
  split <;> simp [sendDelivered, sendUpdateContext]

/-! ### When it is the record of the command -/

variable {commandId service servicePath : String}

lemma markOwn_eq_self_iff {doc : Doc} : doc = markOwn commandId service servicePath doc ↔
    (IsRecord commandId service servicePath doc → Marked doc) := by
  by_cases hr : IsRecord commandId service servicePath doc
  · simp [markOwn, hr, ← mark_eq_self_iff, eq_comm]
  · simp [markOwn, hr]

lemma mark_eq_markOwn_iff {doc : Doc} : mark doc = markOwn commandId service servicePath doc ↔
    IsRecord commandId service servicePath doc ∨ Marked doc := by
  by_cases hr : IsRecord commandId service servicePath doc
  · simp [markOwn, hr]
  · simp [markOwn, hr, mark_eq_self_iff]

/-- Records without the own record, or with its mark, stay as they are. -/
lemma map_markOwn_iff {docs : List Doc} :
    docs = docs.map (markOwn commandId service servicePath) ↔
      ∀ doc ∈ docs, IsRecord commandId service servicePath doc → Marked doc := by
  conv_lhs => lhs; rw [← List.map_id docs]
  rw [List.map_inj_left]
  exact forall₂_congr fun doc _ => markOwn_eq_self_iff

/-- The first record of the identifier is the record of the command. Records that have the
mark already do not count. -/
structure FirstIsOwn (s : CommandHandle h) (d : CommandData) : Prop where
  first : ∀ doc, s.table.findOne (acceptedQuery d.commandId) = some doc →
    IsRecord d.commandId d.serviceName d.servicePath doc ∨ Marked doc
  own : ∀ doc ∈ s.table.docs, IsRecord d.commandId d.serviceName d.servicePath doc →
    s.table.findOne (acceptedQuery d.commandId) = some doc ∨ Marked doc

/-- Without a record of the identifier nothing is marked. -/
lemma firstIsOwn_iff_of_none {d : CommandData}
    (hnone : ∀ doc ∈ s.table.docs, ¬ Matches (acceptedQuery d.commandId) doc) :
    s.table.docs = s.table.docs.map (markOwn d.commandId d.serviceName d.servicePath) ↔
      FirstIsOwn s d := by
  have hfirst := Table.findOne_eq_none_iff.mpr hnone
  rw [map_markOwn_iff]
  refine ⟨fun hall => ⟨fun doc hdoc => ?_, fun doc hdoc hr => .inr (hall doc hdoc hr)⟩,
    fun hown doc hdoc hr => (hown.own doc hdoc hr).resolve_left ?_⟩
  · rw [hfirst] at hdoc
    cases hdoc
  · rw [hfirst]
    simp

section First

variable {d : CommandData} {as bs : List Doc} {e : Doc}

/-- The first record of the identifier stands at one place only. -/
lemma ne_first (hdocs : s.table.docs = as ++ e :: bs) {doc : Doc} (hdoc : doc ∈ as ∨ doc ∈ bs) :
    doc ≠ e := by
  have hnd : (as ++ e :: bs).Nodup :=
    hdocs ▸ Table.docs_nodup (List.mem_singleton_self commandIndex)
  have hmid := List.nodup_middle.mp hnd
  rw [List.nodup_cons, List.mem_append] at hmid
  rintro rfl
  exact hmid.1 hdoc

/-- If only the own record is marked, it is the first of the identifier. -/
lemma firstIsOwn_of_map (hdocs : s.table.docs = as ++ e :: bs)
    (hfirst : s.table.findOne (acceptedQuery d.commandId) = some e)
    (hmap : as ++ mark e :: bs =
      (as ++ e :: bs).map (markOwn d.commandId d.serviceName d.servicePath)) : FirstIsOwn s d := by
  rw [List.map_append, List.map_cons] at hmap
  obtain ⟨has, hcons⟩ := List.append_inj hmap (by simp)
  obtain ⟨he, hbs⟩ := List.cons.inj hcons
  refine ⟨fun doc hdoc => ?_, fun doc hdoc hr => ?_⟩
  · rw [hfirst, Option.some.injEq] at hdoc
    exact hdoc ▸ mark_eq_markOwn_iff.mp he
  · rw [hdocs, List.mem_append, List.mem_cons] at hdoc
    rcases hdoc with hdoc | rfl | hdoc
    · exact .inr (map_markOwn_iff.mp has doc hdoc hr)
    · exact .inl hfirst
    · exact .inr (map_markOwn_iff.mp hbs doc hdoc hr)

/-- If the own record is the first of the identifier, it alone is marked. -/
lemma map_of_firstIsOwn (hdocs : s.table.docs = as ++ e :: bs)
    (hfirst : s.table.findOne (acceptedQuery d.commandId) = some e) (hown : FirstIsOwn s d) :
    as ++ mark e :: bs =
      (as ++ e :: bs).map (markOwn d.commandId d.serviceName d.servicePath) := by
  have hrest : ∀ ds : List Doc, (∀ doc ∈ ds, doc ∈ as ∨ doc ∈ bs) →
      ds = ds.map (markOwn d.commandId d.serviceName d.servicePath) := by
    intro ds hds
    refine map_markOwn_iff.mpr fun doc hdoc hr => ?_
    have hin : doc ∈ s.table.docs := by
      rw [hdocs]
      rcases hds doc hdoc with hdoc | hdoc <;> simp [hdoc]
    refine (hown.own doc hin hr).resolve_left fun hsame => ne_first hdocs (hds doc hdoc) ?_
    rw [hfirst, Option.some.injEq] at hsame
    exact hsame.symm
  rw [List.map_append, List.map_cons, ← hrest as fun _ hdoc => .inl hdoc,
    ← hrest bs fun _ hdoc => .inr hdoc, ← mark_eq_markOwn_iff.mpr (hown.first e hfirst)]

end First

/-- **An accepted command**: the answer marks the record of its command and no other exactly
when the first record of the identifier is that record. -/
theorem marksOwnRecord_iff (s : CommandHandle h) (o : Order Ptr String) (d : CommandData)
    (respCmd : String) (hs : s.Stored) :
    MarksOwnRecord s o d respCmd ↔ FirstIsOwn s d := by
  rw [MarksOwnRecord, processCommandResponse_accepted_docs hs]
  rcases modifyFirst_spec (acceptedQuery d.commandId) mark s.table.docs with
    ⟨hnone, heq⟩ | ⟨as, e, bs, hdocs, has, he, heq⟩
  · rw [heq]
    exact firstIsOwn_iff_of_none hnone
  · have hfirst := Table.findOne_append hdocs has he
    rw [heq, hdocs]
    exact ⟨firstIsOwn_of_map hdocs hfirst, map_of_firstIsOwn hdocs hfirst⟩

/-- A record of a command that waits, in a given service. -/
def waiting (service : String) : Doc :=
  CommandCollection.obj2BSON
    { Command.ofStored "d1@ping" "ping" service "/" "1" "room1" "thing" "" 60 none [] with
      status := Types.readyForRead }

/-- Two services that use one identifier. -/
def sharedId (first second : String) (hu : Unique [commandIndex] [waiting first, waiting second]) :
    CommandHandle ⟨fun n s => n + s.length, fun n => n⟩ where
  storageType := StoreTypes.mongodb
  bbdd := "iot.COMMAND"
  text _ := ""
  asyncCommands := CommandCache.empty Types.maxSizeCache false
  table := ⟨[waiting first, waiting second], hu⟩
  sent := []

/-- The command of service `b`. -/
def ofServiceB : CommandData :=
  { commandName := "ping", commandId := "d1@ping", itemDev := Device.ofName "d1" "b"
    service := [(StoreTypes.service, "b"), (StoreTypes.servicePath, "/")] }

/-- The record of the command stands first. -/
theorem firstIsOwn_sharedId : FirstIsOwn (sharedId "b" "a" (by decide +kernel)) ofServiceB :=
  (marksOwnRecord_iff _ Order.blocks ofServiceB "" rfl).mp (by decide +kernel)

/-- The record of the other service stands first and is marked instead. -/
theorem not_marksOwnRecord_sharedId :
    ¬ MarksOwnRecord (sharedId "a" "b" (by decide +kernel)) Order.blocks ofServiceB "" := by
  decide +kernel

end CommandHandle

end IotAgent
