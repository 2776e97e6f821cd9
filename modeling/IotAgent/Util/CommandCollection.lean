import IotAgent.Mongo.Table
import IotAgent.Util.Command

/-!
The table of commands.

A command is written without its empty fields, and a command with empty fields is a query
that puts no condition on them. The index of the table is unique in the identifier, the
service and the service path together.

* `obj2BSON`, `bson2Obj`: a command as a document and back;
* `matches_obj2BSON`: what a partially filled command finds;
* `matches_key`: what the query of a command key finds.
-/

namespace IotAgent

open Mongo

/-- The unique index of the table of commands. -/
def commandIndex : List String :=
  [StoreTypes.commandId, StoreTypes.service, StoreTypes.servicePath]

/-- The table of commands. -/
abbrev CommandTable := Table [commandIndex]

namespace CommandCollection

/-- A command as a document; with the shard key. -/
def obj2BSON (c : Command) : Doc :=
  Doc.opt (c.id ≠ "") StoreTypes.commandId (.str c.id) ++
  Doc.opt (c.name ≠ "") StoreTypes.name (.str c.name) ++
  Doc.opt (c.service ≠ "") StoreTypes.service (.str c.service) ++
  Doc.opt (c.servicePath ≠ "") StoreTypes.servicePath (.str c.servicePath) ++
  Doc.opt (c.entity ≠ "") StoreTypes.device (.str c.entity) ++
  Doc.opt (c.entityType ≠ "") StoreTypes.entityType (.str c.entityType) ++
  Doc.opt (c.expired ≠ intMin) StoreTypes.expired (.int c.expired) ++
  Doc.opt (c.sequence ≠ "") StoreTypes.sequence (.str c.sequence) ++
  Doc.opt (c.status ≠ intMin) StoreTypes.status (.int c.status) ++
  Doc.opt (c.timeout ≠ intMin) StoreTypes.timeout (.int c.timeout) ++
  Doc.opt (c.responseURI ≠ "") StoreTypes.uriResp (.str c.responseURI) ++
  Doc.opt (c.command ≠ []) StoreTypes.command
    (.obj (c.command.map fun pos => (pos.1, .str pos.2)))

/-- The body of a stored command: its fields in the order of their names. -/
def bodyOf (body : Doc) : PTree :=
  let fields := body.foldl (fun s fv => StrMap.insert s fv.1 (body.getStringField fv.1)) []
  fields.foldl (fun pt f => PTree.put pt f.1 f.2) []

/-- A document read as a command. -/
def bson2Obj (obj : Doc) : Command :=
  { Command.ofEntity (obj.getStringField StoreTypes.device)
      (obj.getStringField StoreTypes.service) (obj.getStringField StoreTypes.servicePath) with
    timeout := obj.getIntField StoreTypes.timeout
    entityType := obj.getStringField StoreTypes.entityType
    responseURI := obj.getStringField StoreTypes.uriResp
    id := obj.getStringField StoreTypes.commandId
    name := obj.getStringField StoreTypes.name
    command := bodyOf (obj.getObjectField StoreTypes.command)
    status := obj.getIntField StoreTypes.status
    sequence := obj.getStringField StoreTypes.sequence }

/-! ### Operations of the table -/

/-- The first command that matches a partially filled one. -/
def findOne (table : CommandTable) (query : Command) : Option Command :=
  (table.findOne (obj2BSON query)).map bson2Obj

/-- A command inserted; refused when its key is there. -/
def insert (table : CommandTable) (obj : Command) : Option CommandTable :=
  table.insert (obj2BSON obj)

/-- All matches of a partially filled command removed, and their number. -/
def remove (table : CommandTable) (query : Command) : CommandTable × ℕ :=
  table.remove (obj2BSON query)

/-! ### Queries -/

/-- What a partially filled command finds: an empty field is no condition. -/
lemma matches_obj2BSON {q : Command} (he : q.expired = intMin) (hc : q.command = [])
    (d : Doc) :
    Matches (obj2BSON q) d ↔
      (q.id ≠ "" → (bson2Obj d).id = q.id) ∧ (q.name ≠ "" → (bson2Obj d).name = q.name) ∧
      (q.service ≠ "" → (bson2Obj d).service = q.service) ∧
      (q.servicePath ≠ "" → (bson2Obj d).servicePath = q.servicePath) ∧
      (q.entity ≠ "" → (bson2Obj d).entity = q.entity) ∧
      (q.entityType ≠ "" → (bson2Obj d).entityType = q.entityType) ∧
      (q.sequence ≠ "" → (bson2Obj d).sequence = q.sequence) ∧
      (q.status ≠ intMin → (bson2Obj d).status = q.status) ∧
      (q.timeout ≠ intMin → (bson2Obj d).timeout = q.timeout) ∧
      (q.responseURI ≠ "" → (bson2Obj d).responseURI = q.responseURI) := by
  have hstr : ∀ (f s : String), (s ≠ "" → d.get f = some (.str s)) ↔
      (s ≠ "" → d.getStringField f = s) :=
    fun f s => forall_congr' fun hs => (Doc.getStringField_eq_iff hs).symm
  have hint : ∀ (f : String) (n : ℤ), (n ≠ intMin → d.get f = some (.int n)) ↔
      (n ≠ intMin → d.getIntField f = n) :=
    fun f n => forall_congr' fun hn => (Doc.getIntField_eq_iff hn).symm
  simp only [obj2BSON, matches_append, matches_opt, he, hc, hstr, hint, ne_eq,
    not_true_eq_false, false_implies, and_true, and_assoc]
  rfl

/-- The query of a key. -/
def keyOf (commandId service servicePath : String) : Command :=
  { Command.ofEntity "" service servicePath with id := commandId }

variable {id service servicePath : String} {d : Doc}

/-- What the query of a key finds: an empty part of the key is no condition. -/
lemma matches_key : Matches (obj2BSON (keyOf id service servicePath)) d ↔
    (id ≠ "" → (bson2Obj d).id = id) ∧ (service ≠ "" → (bson2Obj d).service = service) ∧
    (servicePath ≠ "" → (bson2Obj d).servicePath = servicePath) := by
  rw [matches_obj2BSON rfl rfl]
  simp [keyOf, Command.ofEntity]

/-- The status is no part of the key. -/
lemma matches_key_setStatus (v : Bson) :
    Matches (obj2BSON (keyOf id service servicePath)) (d.set StoreTypes.status v) ↔
      Matches (obj2BSON (keyOf id service servicePath)) d := by
  have hfield : ∀ f, f ≠ StoreTypes.status →
      (d.set StoreTypes.status v).getStringField f = d.getStringField f :=
    fun f hf => Doc.getStringField_congr (Doc.get_set_of_ne _ _ hf)
  rw [matches_key, matches_key]
  simp only [bson2Obj, Command.ofEntity, hfield StoreTypes.commandId (by decide),
    hfield StoreTypes.service (by decide), hfield StoreTypes.servicePath (by decide)]

/-- The query that names the whole index. -/
def recordQuery (id service servicePath : String) : Doc :=
  [(StoreTypes.commandId, .str id), (StoreTypes.service, .str service),
    (StoreTypes.servicePath, .str servicePath)]

end CommandCollection

end IotAgent
