import IotAgent.Lib.FirstMap
import IotAgent.Mongo.Fields
import IotAgent.Util.Types

/-!
The services of the agents, as the manager stores them
(`src/util/service_mgmt_collection.{h,cc}`).

* `ServiceDoc`: a document; every document is written by an upsert with a service, a service
  path, an agent and a protocol in its query, and has these as texts;
* `ServiceMgmtCollection`: the collection, unique in these four;
* `upsert`, `remove`: the updates that `post_protocol_json` makes;
* `fillServices`: the documents of an agent and a protocol, under the service and the service
  path;
* `getIotagentsByService`: the agents of a service.
-/

namespace IotAgent

open Mongo

/-- The service, the service path, the agent and the protocol. -/
structure ServiceKey where
  service : String
  servicePath : String
  iotagent : String
  protocol : String
  deriving DecidableEq

/-- A document with its other fields. -/
structure ServiceDoc where
  key : ServiceKey
  data : Doc
  nodup : data.names.Nodup
  deriving DecidableEq

namespace ServiceDoc

/-- The whole document. -/
def toDoc (d : ServiceDoc) : Doc :=
  [(StoreTypes.service, .str d.key.service), (StoreTypes.servicePath, .str d.key.servicePath),
    ("iotagent", .str d.key.iotagent), (StoreTypes.protocol, .str d.key.protocol)] ++ d.data

/-- Some other fields are set. -/
def setAll (d : ServiceDoc) (vs : Doc) : ServiceDoc where
  key := d.key
  data := d.data.setAll vs
  nodup := Doc.nodup_setAll d.nodup

/-- A new document, with the fields of the query and those that are set. -/
def ofKey (key : ServiceKey) (vs : Doc) : ServiceDoc :=
  setAll ⟨key, [], List.nodup_nil⟩ vs

/-- A whole document as a query: every field has the value. -/
def Matches (query d : ServiceDoc) : Prop :=
  query.key = d.key ∧ ∀ fv ∈ query.data, d.data.get fv.1 = some fv.2

instance (query d : ServiceDoc) : Decidable (query.Matches d) :=
  inferInstanceAs (Decidable (_ ∧ _))

variable {d e : ServiceDoc} {vs ws : Doc}

@[simp] lemma setAll_key : (d.setAll vs).key = d.key := rfl

@[simp] lemma ofKey_key {key : ServiceKey} : (ofKey key vs).key = key := rfl

lemma setAll_append : d.setAll (vs ++ ws) = (d.setAll vs).setAll ws := by
  simp only [setAll, Doc.setAll_append]

/-- To set the same fields again changes nothing. -/
lemma setAll_setAll : (d.setAll vs).setAll vs = d.setAll vs := by
  simp only [setAll, Doc.setAll_setAll d.nodup]

/-- A document matches itself. -/
lemma matches_self : d.Matches d := by
  refine ⟨rfl, fun fv hfv => ?_⟩
  have hget : ∀ l : Doc, l.names.Nodup → fv ∈ l → l.get fv.1 = some fv.2 := by
    intro l hl hmem
    induction l with
    | nil => cases hmem
    | cons a l ih =>
        obtain ⟨ha, hl⟩ := List.nodup_cons.mp hl
        rw [Doc.get_cons]
        rcases List.mem_cons.mp hmem with rfl | hmem
        · rw [if_pos rfl]
        · have hne : fv.1 ≠ a.1 := fun e => ha (e ▸ List.mem_map_of_mem hmem)
          rw [if_neg hne, ih hl hmem]
  exact hget d.data d.nodup hfv

end ServiceDoc

/-- The collection of services with its unique index. -/
structure ServiceMgmtCollection where
  docs : List ServiceDoc
  unique : (docs.map ServiceDoc.key).Nodup

namespace ServiceMgmtCollection

/-- The collection without a document. -/
def empty : ServiceMgmtCollection :=
  ⟨[], List.nodup_nil⟩

variable (t : ServiceMgmtCollection)

/-- The fields of the document with a key are set; the upsert makes a new document for a new
key. -/
def setKey (key : ServiceKey) (vs : Doc) : ServiceMgmtCollection :=
  if h : key ∈ t.docs.map ServiceDoc.key then
    { docs := t.docs.map fun d => if d.key = key then d.setAll vs else d
      unique := by
        have hkeys : (t.docs.map fun d => if d.key = key then d.setAll vs else d).map
            ServiceDoc.key = t.docs.map ServiceDoc.key := by
          rw [List.map_map]
          refine List.map_congr_left fun d _ => ?_
          dsimp only [Function.comp_apply]
          split <;> rfl
        rw [hkeys]
        exact t.unique }
  else
    { docs := t.docs ++ [ServiceDoc.ofKey key vs]
      unique := by
        rw [List.map_append, List.nodup_append]
        refine ⟨t.unique, List.nodup_singleton _, fun a ha b hb e => h ?_⟩
        rw [List.map_singleton, List.mem_singleton] at hb
        rw [hb, ServiceDoc.ofKey_key] at e
        exact e ▸ ha }

/-- `update`, for the document with a key. The server refuses to set a field twice. -/
def update (key : ServiceKey) (vs : Doc) : Except IotaException ServiceMgmtCollection :=
  if vs.names.Nodup then .ok (t.setKey key vs)
  else .error ⟨Types.responseMessageDatabaseError, "", Types.responseCodeReceiverInternalError⟩

/-- `remove`, with a whole document as query. -/
def remove (query : ServiceDoc) : ServiceMgmtCollection where
  docs := t.docs.filter fun d => ¬ query.Matches d
  unique := t.unique.sublist (List.Sublist.map _ List.filter_sublist)

/-- The text under which `fillServices` keeps a document. -/
def mapKey (service servicePath : String) : String :=
  service ++ "|" ++ servicePath

/-- `fillServices`: the documents of an agent and a protocol under their texts. -/
def fillServices (iotagent protocol : String) : List (String × ServiceDoc) :=
  FirstMap.ofList
    ((t.docs.filter fun d => d.key.iotagent = iotagent ∧ d.key.protocol = protocol).map fun d =>
      (mapKey d.key.service d.key.servicePath, d))

/-- `addServicePath`: what a query asks of a service path. -/
def OfServicePath (data servicePath : String) : Prop :=
  data = "/*" ∨ data = "/#" ∨
    servicePath = if data = "" then Types.fiwareServicepathDefault else data

instance (data servicePath : String) : Decidable (OfServicePath data servicePath) :=
  inferInstanceAs (Decidable (_ ∨ _))

/-- `distinct`: the agents of a service and of a protocol, if there is one. -/
def iotagents (service servicePath protocolId : String) : List String :=
  ((t.docs.filter fun d => d.key.service = service ∧ OfServicePath servicePath d.key.servicePath ∧
    (protocolId ≠ "" → d.key.protocol = protocolId)).map fun d => d.key.iotagent).eraseDups

/-- `get_iotagents_by_service`, without a limit. -/
def getIotagentsByService (service servicePath protocolId : String) :
    Except IotaException (List String) :=
  if t.iotagents service servicePath protocolId = [] then
    .error ⟨Types.responseMessageMissingIotagents,
      "[protocol:" ++ protocolId ++ " service: " ++ service ++ " service_path:" ++
        servicePath ++ "]", Types.responseCodeDataNotFound⟩
  else .ok (t.iotagents service servicePath protocolId)

end ServiceMgmtCollection

end IotAgent
