import IotAgent.Lib.HashBuckets
import IotAgent.Lib.Runs
import IotAgent.Util.CommandCache

/-!
The buckets of the cache of commands (`src/util/command_cache.{h,cc}`).

The cache holds pointers to commands in three hashed indices, and the key of one of them, the
entity with the status, changes whenever the status is written through a pointer. Here the
indices are modelled down to their buckets.

* `CommandIndices`: the cache; `insert`, `get`, `getByEntity`, `getByEntityV`, `getById`,
  `remove`, `itemTimeout`, and `acceptCommand`, what `process_command_response` does to it;
* `AllFound`: every stored command is found under its present keys in all three indices;
* `allFound_step_iff`, `reachable_allFound_iff`: that stays so exactly as long as every status
  that is written into a stored command leaves its key in the same bucket.
-/

namespace IotAgent

open HashBuckets

/-- The hash functions of the containers and the assignment of buckets. -/
structure Containers where
  hashing : Hashing
  hash : String → ℕ
  policy : Policy Ptr

/-- The cache of commands with the buckets of its indices. -/
structure CommandIndices (b : Containers) where
  maxNumItems : ℕ
  lru : Bool
  heap : Heap Command
  list : List Ptr
  allocated : ∀ p ∈ list, p < heap.next
  unique : Index Ptr
  entity : Index Ptr
  id : Index Ptr

namespace CommandIndices

variable {b : Containers}

lemma allocated_nil : ∀ p ∈ ([] : List Ptr), p < 0 := fun _ hp => absurd hp List.not_mem_nil

/-- An empty cache. -/
def empty (b : Containers) (capacity : ℕ) (lru : Bool) (count : ℕ) : CommandIndices b where
  maxNumItems := capacity
  lru
  heap := ⟨fun _ => default, 0⟩
  list := []
  allocated := allocated_nil
  unique := ⟨count, fun _ => 0⟩
  entity := ⟨count, fun _ => 0⟩
  id := ⟨count, fun _ => 0⟩

variable (s : CommandIndices b)

/-- The command behind a pointer. -/
def cmd (p : Ptr) : Command :=
  s.heap.obj p

def size : ℕ :=
  s.list.length

/-! ### Keys -/

/-- What `operator==` compares. -/
def equalKey (p : Ptr) : String × String :=
  ((s.cmd p).sequence, (s.cmd p).service)

def uniqueHash (p : Ptr) : ℕ :=
  (s.cmd p).hashValue b.hashing

def entityKey (p : Ptr) : String :=
  (s.cmd p).uniqueEntity

def entityHash (p : Ptr) : ℕ :=
  b.hash (s.entityKey p)

def idKey (p : Ptr) : String :=
  (s.cmd p).uniqueId

def idHash (p : Ptr) : ℕ :=
  b.hash (s.idKey p)

/-- What the unique index meets in a search for a command. -/
abbrev MeetsUnique (item : Command) (q : Ptr) : Prop :=
  b.policy.Meets s.unique s.equalKey (item.sequence, item.service) (item.hashValue b.hashing) q

/-- What the index by entity meets in a search for a key. -/
abbrev MeetsEntity (key : Command) (q : Ptr) : Prop :=
  b.policy.Meets s.entity s.entityKey key.uniqueEntity (b.hash key.uniqueEntity) q

/-- What the index by identifier meets in a search for a key. -/
abbrev MeetsId (key : Command) (q : Ptr) : Prop :=
  b.policy.Meets s.id s.idKey key.uniqueId (b.hash key.uniqueId) q

/-- What the unique index takes for one. -/
abbrev Same (q p : Ptr) : Prop :=
  s.MeetsUnique (s.cmd p) q

/-! ### Insertion -/

/-- Room for one more element in the unique index, which is made before the search for a
duplicate. -/
def reserveUnique : CommandIndices b :=
  { s with unique := b.policy.reserve s.uniqueHash s.list s.unique (s.size + 1) }

/-- A new element comes into all indices; the other two make room for it. -/
def link (p : Ptr) : CommandIndices b :=
  { s with
    unique := b.policy.file s.uniqueHash s.unique p
    entity := b.policy.file s.entityHash
      (b.policy.reserve s.entityHash s.list s.entity (s.size + 1)) p
    id := b.policy.file s.idHash (b.policy.reserve s.idHash s.list s.id (s.size + 1)) p }

/-- The indices after an insertion of `p`: a duplicate stays where it is. -/
def indexed (p : Ptr) : CommandIndices b :=
  if (BoundedSeq.find s.Same p s.list).isSome then s else s.link p

/-- Insertion of a command. A full cache that is not LRU does not look at it. A pointer to no
command, which no caller has, is ignored. -/
def insert (p : Ptr) : CommandIndices b :=
  if hp : p < s.heap.next then
    if s.lru ∨ s.size < s.maxNumItems then
      let i := s.reserveUnique.indexed p
      { s with
        list := BoundedSeq.insert s.reserveUnique.Same s.maxNumItems s.lru p s.list
        allocated := fun q hq => by
          rcases List.mem_cons.mp (BoundedSeq.insert_subperm.subset hq) with rfl | hq
          · exact hp
          · exact s.allocated q hq
        unique := i.unique
        entity := i.entity
        id := i.id }
    else s
  else s

/-- A new status for the command behind a pointer; the container is not told. -/
def setStatus (p : Ptr) (status : ℤ) : CommandIndices b :=
  { s with heap := s.heap.modify (·.setStatus status) p }

/-- A new command behind a fresh pointer, not in the cache yet. -/
def alloc (item : Command) : CommandIndices b × Ptr :=
  ({ s with
      heap := (s.heap.alloc item).1
      allocated := fun p hp => Nat.lt_succ_of_lt (s.allocated p hp) },
    s.heap.next)

/-- A new object, inserted. -/
def insertNew (item : Command) : CommandIndices b × Ptr :=
  let (s', p) := s.alloc item
  (s'.insert p, p)

/-! ### Look-ups -/

/-- The look-ups end alike: a hit is inserted again, a miss is read through. -/
def readThrough (found : Option Ptr) (fetch : GetFunction) (key : Command) :
    CommandIndices b × Option Ptr :=
  match found with
  | some p => (s.insert p, some p)
  | none =>
      match fetch.call key with
      | some newItem =>
          let (s', p) := s.insertNew newItem
          (s', some p)
      | none => (s, none)

variable (o : Iteration Ptr)

/-- `get`. -/
def get (fetch : GetFunction) (key : Command) : CommandIndices b × Option Ptr :=
  s.readThrough (o.find (s.MeetsUnique key) s.list) fetch key

/-- `get_by_entity`. -/
def getByEntity (fetch : GetFunction) (key : Command) : CommandIndices b × Option Ptr :=
  s.readThrough (o.find (s.MeetsEntity key) s.list) fetch key

/-- `get_by_id`. -/
def getById (fetch : GetFunction) (key : Command) : CommandIndices b × Option Ptr :=
  s.readThrough (o.find (s.MeetsId key) s.list) fetch key

/-- The elements that the loop of `getByEntityV` runs through, from the first that the search
meets to the end of the index. -/
def walk (key : Command) : List Ptr :=
  o.walk (s.MeetsEntity key) s.list

/-- The body of the loop of `getByEntityV`. -/
def mark (status : ℤ) (p : Ptr) : CommandIndices b :=
  (s.setStatus p status).insert p

/-- `get_by_entityV`. -/
def getByEntityV (fetch : GetFunction) (key : Command) (newStatus : ℤ) :
    CommandIndices b × List Ptr :=
  match s.walk o key with
  | [] =>
      match fetch.call key with
      | some newItem =>
          let (s', p) := s.insertNew (newItem.setStatus newStatus)
          (s', [p])
      | none => (s, [])
  | ps => (ps.foldl (fun s p => s.mark newStatus p) s, ps)

/-! ### Removal -/

/-- The cache without an element. -/
def erase (p : Ptr) : CommandIndices b :=
  { s with
    list := s.list.erase p
    allocated := fun q hq => s.allocated q (List.mem_of_mem_erase hq) }

/-- `remove`. -/
def remove (key : Command) : CommandIndices b :=
  match o.find (s.MeetsId key) s.list with
  | some p => s.erase p
  | none => s

/-- `item_timeout`, for the command behind a pointer. The function for timeouts may remove it
as well. -/
def itemTimeout (aborted removes : Bool) (p : Ptr) : CommandIndices b :=
  if aborted then s
  else if removes then (s.remove o (s.cmd p)).remove o (s.cmd p)
  else s.remove o (s.cmd p)

/-- The key of `get_command`. -/
def commandKey (idCommand service servicePath : String) : Command :=
  { Command.ofEntity "" service servicePath with id := idCommand }

/-- What `process_command_response` does when a device accepts a command: the command that
`get_command` returns is delivered. -/
def acceptCommand (fetch : GetFunction) (idCommand service servicePath : String) :
    CommandIndices b :=
  match s.getById o fetch (commandKey idCommand service servicePath) with
  | (s, some p) => s.setStatus p Types.delivered
  | (s, none) => s

/-! ### What is found -/

/-- The elements that a search by the unique index meets. -/
def uniqueRange (item : Command) : List Ptr :=
  b.policy.range s.list s.unique s.equalKey (item.sequence, item.service)
    (item.hashValue b.hashing)

/-- The elements that a search by entity meets. -/
def entityRange (key : String) : List Ptr :=
  b.policy.range s.list s.entity s.entityKey key (b.hash key)

/-- The elements that a search by identifier meets. -/
def idRange (key : String) : List Ptr :=
  b.policy.range s.list s.id s.idKey key (b.hash key)

/-- The command is found in all indices under its present keys. -/
structure Found (p : Ptr) : Prop where
  unique : p ∈ s.uniqueRange (s.cmd p)
  entity : p ∈ s.entityRange (s.entityKey p)
  id : p ∈ s.idRange (s.idKey p)

/-- Every stored command is. -/
def AllFound : Prop :=
  ∀ p ∈ s.list, s.Found p

/-- The elements of the unique index are where they belong. -/
def UniqueFiled : Prop :=
  ∀ p ∈ s.list, b.policy.Filed s.uniqueHash s.unique p

def EntityFiled : Prop :=
  ∀ p ∈ s.list, b.policy.Filed s.entityHash s.entity p

def IdFiled : Prop :=
  ∀ p ∈ s.list, b.policy.Filed s.idHash s.id p

variable {s} {p q : Ptr} {st : ℤ}

/-- What is found is what is in the buckets of the present keys. -/
lemma allFound_iff : s.AllFound ↔ s.UniqueFiled ∧ s.EntityFiled ∧ s.IdFiled := by
  constructor
  · intro h
    exact ⟨fun p hp => (Policy.mem_range_iff hp).mp (h p hp).unique,
      fun p hp => (Policy.mem_range_iff hp).mp (h p hp).entity,
      fun p hp => (Policy.mem_range_iff hp).mp (h p hp).id⟩
  · rintro ⟨hu, he, hi⟩ p hp
    exact ⟨(Policy.mem_range_iff hp).mpr (hu p hp), (Policy.mem_range_iff hp).mpr (he p hp),
      (Policy.mem_range_iff hp).mpr (hi p hp)⟩

/-! ### Insertion -/

/-- A duplicate leaves the other two indices alone. -/
lemma indexed_of_find (h : BoundedSeq.find s.Same p s.list = some q) : s.indexed p = s := by
  rw [indexed, h]
  rfl

lemma indexed_of_new (h : BoundedSeq.find s.Same p s.list = none) :
    s.indexed p = s.link p := by
  rw [indexed, h]
  rfl

@[simp] lemma insert_heap : (s.insert p).heap = s.heap := by
  rw [insert]
  split
  · split <;> rfl
  · rfl

lemma UniqueFiled.reserveUnique (h : s.UniqueFiled) : s.reserveUnique.UniqueFiled :=
  Policy.filed_reserve h

/-- A stored command is a duplicate of itself. -/
lemma UniqueFiled.exists_find (h : s.UniqueFiled) (hp : p ∈ s.list) :
    ∃ q, BoundedSeq.find s.Same p s.list = some q := by
  refine Option.ne_none_iff_exists'.mp fun hnone => ?_
  exact BoundedSeq.find_eq_none_iff.mp hnone p hp ⟨h p hp, rfl⟩

/-- The unique index, the others and the sequence after the insertion of an element that is
there. -/
lemma insert_of_mem (h : s.UniqueFiled) (hp : p ∈ s.list) :
    (s.insert p).UniqueFiled ∧ (s.insert p).entity = s.entity ∧ (s.insert p).id = s.id ∧
      (s.insert p).list.Perm s.list := by
  rw [insert, dif_pos (s.allocated p hp)]
  split
  · have hu : s.reserveUnique.UniqueFiled := h.reserveUnique
    obtain ⟨q, hq⟩ := hu.exists_find hp
    have hlist : (BoundedSeq.insert s.reserveUnique.Same s.maxNumItems s.lru p s.list).Perm
        s.list := BoundedSeq.insert_perm_of_find hq
    rw [indexed_of_find hq]
    exact ⟨fun r hr => hu r (hlist.mem_iff.mp hr), rfl, rfl, hlist⟩
  · exact ⟨h, rfl, rfl, List.Perm.refl _⟩

/-- An element that is filed stays filed when another one comes in. -/
lemma filed_of_subset {hash : Ptr → ℕ} {i : Index Ptr} {l m : List Ptr}
    (h : ∀ q ∈ l, b.policy.Filed hash i q) (hm : m ⊆ p :: l) :
    ∀ q ∈ m, b.policy.Filed hash (b.policy.file hash i p) q := by
  intro q hq
  rcases List.mem_cons.mp (hm hq) with rfl | hq
  · exact Policy.filed_file_self
  · exact Policy.filed_file (h q hq)

/-- Insertion keeps everything where it is found. -/
lemma AllFound.insert (h : s.AllFound) : (s.insert p).AllFound := by
  obtain ⟨hu, he, hi⟩ := allFound_iff.mp h
  rw [CommandIndices.insert]
  split
  · split
    · have hu' : s.reserveUnique.UniqueFiled := hu.reserveUnique
      cases hq : BoundedSeq.find s.reserveUnique.Same p s.reserveUnique.list with
      | some q =>
          have hlist : (BoundedSeq.insert s.reserveUnique.Same s.maxNumItems s.lru p
              s.list).Perm s.list := BoundedSeq.insert_perm_of_find hq
          rw [indexed_of_find hq]
          exact allFound_iff.mpr ⟨fun r hr => hu' r (hlist.mem_iff.mp hr),
            fun r hr => he r (hlist.mem_iff.mp hr), fun r hr => hi r (hlist.mem_iff.mp hr)⟩
      | none =>
          have hsub : BoundedSeq.insert s.reserveUnique.Same s.maxNumItems s.lru p s.list ⊆
              p :: s.list := BoundedSeq.insert_subperm.subset
          rw [indexed_of_new hq]
          exact allFound_iff.mpr ⟨filed_of_subset hu' hsub,
            filed_of_subset (Policy.filed_reserve he) hsub,
            filed_of_subset (Policy.filed_reserve hi) hsub⟩
    · exact h
  · exact h

/-! ### New commands and new statuses -/

lemma alloc_cmd_of_lt {item : Command} (hp : p < s.heap.next) :
    (s.alloc item).1.cmd p = s.cmd p :=
  Heap.alloc_obj_of_lt _ _ hp

/-- A fresh object changes nothing for the stored ones. -/
lemma AllFound.alloc (h : s.AllFound) {item : Command} : (s.alloc item).1.AllFound := by
  obtain ⟨hu, he, hi⟩ := allFound_iff.mp h
  have hcmd : ∀ p ∈ s.list, s.cmd p = (s.alloc item).1.cmd p :=
    fun p hp => (alloc_cmd_of_lt (s.allocated p hp)).symm
  refine allFound_iff.mpr ⟨fun p hp => ?_, fun p hp => ?_, fun p hp => ?_⟩
  · exact (Policy.filed_congr (by rw [uniqueHash, hcmd p hp, uniqueHash])).mp (hu p hp)
  · exact (Policy.filed_congr (by rw [entityHash, entityKey, hcmd p hp, entityHash, entityKey])).mp
      (he p hp)
  · exact (Policy.filed_congr (by rw [idHash, idKey, hcmd p hp, idHash, idKey])).mp (hi p hp)

lemma AllFound.insertNew (h : s.AllFound) {item : Command} : (s.insertNew item).1.AllFound :=
  h.alloc.insert

lemma setStatus_cmd :
    (s.setStatus p st).cmd q = if q = p then (s.cmd q).setStatus st else s.cmd q :=
  Heap.modify_obj s.heap (·.setStatus st) p q

@[simp] lemma setStatus_uniqueHash : (s.setStatus p st).uniqueHash = s.uniqueHash := by
  funext q
  rw [uniqueHash, setStatus_cmd]
  split <;> rfl

@[simp] lemma setStatus_idHash : (s.setStatus p st).idHash = s.idHash := by
  funext q
  rw [idHash, idKey, setStatus_cmd]
  split <;> rfl

variable (s)

/-- The status leaves the key of the command in its bucket of the index by entity. -/
def KeepsBucket (p : Ptr) (st : ℤ) : Prop :=
  b.policy.position s.entity.count (b.hash ((s.cmd p).setStatus st).uniqueEntity) =
    b.policy.position s.entity.count (s.entityHash p)

instance (p : Ptr) (st : ℤ) : Decidable (s.KeepsBucket p st) :=
  inferInstanceAs (Decidable (_ = _))

variable {s}

/-- Some stored commands get a status: they are found exactly if it keeps their bucket. -/
lemma filed_setStatus_iff {r : CommandIndices b} {ps : List Ptr} (h : s.EntityFiled)
    (hentity : r.entity = s.entity)
    (hcmd : ∀ q, r.cmd q = if q ∈ ps then (s.cmd q).setStatus st else s.cmd q) :
    (∀ q ∈ s.list, b.policy.Filed r.entityHash r.entity q) ↔
      ∀ q ∈ ps, q ∈ s.list → s.KeepsBucket q st := by
  have hkey : ∀ q ∈ s.list, b.policy.Filed r.entityHash r.entity q ↔
      (q ∈ ps → s.KeepsBucket q st) := by
    intro q hq
    rw [hentity, Policy.filed_iff_home_eq (h q hq), Policy.home, Policy.home, entityHash, entityKey,
      hcmd q]
    by_cases hps : q ∈ ps
    · rw [if_pos hps]
      exact ⟨fun e _ => e, fun e => e hps⟩
    · rw [if_neg hps]
      exact iff_of_true rfl fun hq => absurd hq hps
  exact ⟨fun hall q hps hq => (hkey q hq).mp (hall q hq) hps,
    fun hall q hq => (hkey q hq).mpr fun hps => hall q hps hq⟩

/-- A status that is written into a command. -/
lemma AllFound.setStatus_iff (h : s.AllFound) :
    (s.setStatus p st).AllFound ↔ (p ∈ s.list → s.KeepsBucket p st) := by
  obtain ⟨hu, he, hi⟩ := allFound_iff.mp h
  have hu' : (s.setStatus p st).UniqueFiled := by
    rw [UniqueFiled, setStatus_uniqueHash]
    exact hu
  have hi' : (s.setStatus p st).IdFiled := by
    rw [IdFiled, setStatus_idHash]
    exact hi
  have hcmd : ∀ q, (s.setStatus p st).cmd q =
      if q ∈ [p] then (s.cmd q).setStatus st else s.cmd q := fun q => by
    simp only [setStatus_cmd, List.mem_singleton]
  have hiff := filed_setStatus_iff (r := s.setStatus p st) he rfl hcmd
  rw [allFound_iff, and_iff_right hu', and_iff_left hi', EntityFiled]
  refine hiff.trans ?_
  simp

/-- What the loop of `getByEntityV` does to the heap and the indices. -/
lemma foldl_mark {ps : List Ptr} (h : s.UniqueFiled) (hps : ps ⊆ s.list) :
    let r := ps.foldl (fun s p => s.mark st p) s
    r.UniqueFiled ∧ r.entity = s.entity ∧ r.id = s.id ∧ r.list.Perm s.list ∧
      ∀ q, r.cmd q = if q ∈ ps then (s.cmd q).setStatus st else s.cmd q := by
  induction ps generalizing s with
  | nil => exact ⟨h, rfl, rfl, List.Perm.refl _, by simp⟩
  | cons p ps ih =>
      have hset : (s.setStatus p st).UniqueFiled := by
        rw [UniqueFiled, setStatus_uniqueHash]
        exact h
      obtain ⟨hu, he, hi, hlist⟩ := insert_of_mem hset (hps List.mem_cons_self)
      have hsub : ps ⊆ (s.mark st p).list := fun q hq =>
        hlist.mem_iff.mpr (hps (List.mem_cons_of_mem p hq))
      obtain ⟨ru, re, ri, rlist, rcmd⟩ := ih hu hsub
      refine ⟨ru, re.trans he, ri.trans hi, rlist.trans hlist, fun q => ?_⟩
      have hcmd : ((s.setStatus p st).insert p).cmd q = (s.setStatus p st).cmd q := by
        rw [cmd, insert_heap, cmd]
      refine (rcmd q).trans ?_
      rw [hcmd, setStatus_cmd]
      by_cases hqp : q = p
      · subst hqp
        simp [Command.setStatus]
      · simp [hqp]

/-! ### The look-ups -/

section LookUps

variable {o : Iteration Ptr} {fetch : GetFunction} {key : Command}

/-- The look-ups that end alike keep everything where it is found. -/
lemma AllFound.readThrough (h : s.AllFound) {found : Option Ptr} :
    (s.readThrough found fetch key).1.AllFound := by
  cases found with
  | some p => exact h.insert
  | none =>
      rw [CommandIndices.readThrough]
      cases fetch.call key with
      | none => exact h
      | some newItem => exact h.insertNew

lemma AllFound.remove (h : s.AllFound) : (s.remove o key).AllFound := by
  obtain ⟨hu, he, hi⟩ := allFound_iff.mp h
  rw [CommandIndices.remove]
  cases o.find (s.MeetsId key) s.list with
  | none => exact h
  | some p =>
      exact allFound_iff.mpr ⟨fun q hq => hu q (List.mem_of_mem_erase hq),
        fun q hq => he q (List.mem_of_mem_erase hq), fun q hq => hi q (List.mem_of_mem_erase hq)⟩

/-- The look-up that marks: a miss keeps everything where it is found, a hit does so exactly if
the status keeps the bucket of every command that it runs through. -/
lemma AllFound.getByEntityV_iff (h : s.AllFound) :
    (s.getByEntityV o fetch key st).1.AllFound ↔ ∀ p ∈ s.walk o key, s.KeepsBucket p st := by
  rw [getByEntityV]
  cases hw : s.walk o key with
  | nil =>
      refine iff_of_true ?_ fun p hp => by cases hp
      cases fetch.call key with
      | none => exact h
      | some newItem => exact h.insertNew
  | cons q ps =>
      have hsub : q :: ps ⊆ s.list := fun p hp => Iteration.mem_of_walk (hw ▸ hp)
      obtain ⟨hu, he, hi⟩ := allFound_iff.mp h
      obtain ⟨ru, re, ri, rlist, rcmd⟩ := @foldl_mark b s st (q :: ps) hu hsub
      have hid : ∀ p, (List.foldl (fun s p => s.mark st p) s (q :: ps)).idHash p = s.idHash p := by
        intro p
        rw [idHash, idKey, rcmd p]
        split <;> rfl
      have ri' : (List.foldl (fun s p => s.mark st p) s (q :: ps)).IdFiled := fun p hp => by
        rw [ri]
        exact (Policy.filed_congr (hid p)).mpr (hi p (rlist.mem_iff.mp hp))
      have hiff := filed_setStatus_iff he re rcmd
      rw [allFound_iff, and_iff_right ru, and_iff_left ri']
      calc (∀ p ∈ (List.foldl (fun s p => s.mark st p) s (q :: ps)).list, _)
          ↔ ∀ p ∈ s.list, _ := forall_congr' fun p => imp_congr_left rlist.mem_iff
        _ ↔ ∀ p ∈ q :: ps, p ∈ s.list → s.KeepsBucket p st := hiff
        _ ↔ ∀ p ∈ q :: ps, s.KeepsBucket p st :=
            forall₂_congr fun p hp => imp_iff_right (hsub hp)

end LookUps

/-! ### Runs -/

/-- An operation on the cache, with what the store answers and the order of the index. -/
inductive Op where
  | insert (item : Command)
  | insertAgain (p : Ptr)
  | get (o : Iteration Ptr) (fetch : GetFunction) (key : Command)
  | getByEntity (o : Iteration Ptr) (fetch : GetFunction) (key : Command)
  | getByEntityV (o : Iteration Ptr) (fetch : GetFunction) (key : Command) (newStatus : ℤ)
  | getById (o : Iteration Ptr) (fetch : GetFunction) (key : Command)
  | remove (o : Iteration Ptr) (key : Command)
  | itemTimeout (o : Iteration Ptr) (aborted removes : Bool) (p : Ptr)
  | acceptCommand (o : Iteration Ptr) (fetch : GetFunction)
      (idCommand service servicePath : String)

variable (s)

/-- The cache after an operation. -/
def step : Op → CommandIndices b
  | .insert item => (s.insertNew item).1
  | .insertAgain p => s.insert p
  | .get o fetch key => (s.get o fetch key).1
  | .getByEntity o fetch key => (s.getByEntity o fetch key).1
  | .getByEntityV o fetch key newStatus => (s.getByEntityV o fetch key newStatus).1
  | .getById o fetch key => (s.getById o fetch key).1
  | .remove o key => s.remove o key
  | .itemTimeout o aborted removes p => s.itemTimeout o aborted removes p
  | .acceptCommand o fetch idCommand service servicePath =>
      s.acceptCommand o fetch idCommand service servicePath

/-- Every status that the operation writes into a stored command keeps the bucket of the
command. -/
def KeepsBuckets : Op → Prop
  | .getByEntityV o _ key newStatus => ∀ p ∈ s.walk o key, s.KeepsBucket p newStatus
  | .acceptCommand o fetch idCommand service servicePath =>
      let r := s.getById o fetch (commandKey idCommand service servicePath)
      ∀ p ∈ r.2, p ∈ r.1.list → r.1.KeepsBucket p Types.delivered
  | _ => True

variable {s}

/-- From a cache in which everything is found, an operation leads to such a cache exactly if it
keeps the buckets of the commands whose status it writes. -/
lemma allFound_step_iff (h : s.AllFound) (op : Op) :
    (s.step op).AllFound ↔ s.KeepsBuckets op := by
  cases op with
  | insert item => exact iff_of_true h.insertNew trivial
  | insertAgain p => exact iff_of_true h.insert trivial
  | get o fetch key => exact iff_of_true h.readThrough trivial
  | getByEntity o fetch key => exact iff_of_true h.readThrough trivial
  | getByEntityV o fetch key newStatus => exact h.getByEntityV_iff
  | getById o fetch key => exact iff_of_true h.readThrough trivial
  | remove o key => exact iff_of_true h.remove trivial
  | itemTimeout o aborted removes p =>
      refine iff_of_true ?_ trivial
      rw [step, itemTimeout]
      split
      · exact h
      · split
        · exact h.remove.remove
        · exact h.remove
  | acceptCommand o fetch idCommand service servicePath =>
      have hget : (s.getById o fetch (commandKey idCommand service servicePath)).1.AllFound :=
        h.readThrough
      rw [step, acceptCommand, KeepsBuckets]
      generalize s.getById o fetch (commandKey idCommand service servicePath) = r at hget ⊢
      obtain ⟨r, found⟩ := r
      cases found with
      | none => exact iff_of_true hget fun p hp => by cases hp
      | some p => simpa using hget.setStatus_iff

lemma allFound_empty {capacity count : ℕ} {lru : Bool} :
    (empty b capacity lru count).AllFound :=
  fun p hp => by cases hp

/-- In every state that is reached from an empty cache every stored command is found in all
indices under its present keys exactly if every status that is written into a stored command
leaves its key in the bucket in which it is. -/
theorem reachable_allFound_iff (b : Containers) (capacity : ℕ) (lru : Bool) (count : ℕ)
    (ops : List Op) :
    (∀ n, (Run.run step (empty b capacity lru count) (ops.take n)).AllFound) ↔
      Run.Always step KeepsBuckets (empty b capacity lru count) ops :=
  Run.forall_run_iff (fun _ op h _ => allFound_step_iff h op) allFound_empty Run.always_true

/-- The buckets of a container that does not grow. -/
def fixedBuckets : Policy Ptr where
  position count n := n % count
  reserved count _ := count
  rehash hash _ _ count x := hash x % count
  rehash_spec _ _ _ _ _ _ _ := rfl

/-- Texts are hashed to the sum of their characters. -/
def summing : Containers where
  hashing := ⟨fun n t => n + t.length, fun n => n⟩
  hash t := t.toList.foldl (fun n c => n + c.toNat) 0
  policy := fixedBuckets

/-- The elements one after the other. -/
def sequential : Iteration Ptr where
  order l := l
  perm l := List.Perm.refl l

/-- A command that waits, and a poll of its device. -/
def pollOfOne : List Op :=
  [.insert ((Command.ofStored "d1@ping" "ping" "service" "/" "1" "room1" "thing" "" 60 none
      []).setStatus Types.readyForRead),
    .getByEntityV sequential none
      ((Command.ofEntity "room1" "service" "/").setStatus Types.readyForRead) Types.delivered]

/-- The poll delivers the command, which is then not found as a delivered command of its
entity. -/
theorem not_allFound_poll :
    ¬ ∀ n, (Run.run step (empty summing Types.maxSizeCache false 53)
      (pollOfOne.take n)).AllFound := by
  intro h
  have hentity := (h 2 0 (by decide)).entity
  revert hentity
  decide +kernel

end CommandIndices

end IotAgent
