import Mathlib.Data.List.Find
import IotAgent.Lib.BoundedSeq
import IotAgent.Lib.HashIndex
import IotAgent.Lib.Heap
import IotAgent.Util.Command

/-!
The cache of commands.

A cache holds shared pointers to commands in a sequence with three hashed indices over it:
one unique by `Command.collide`, two non-unique by `Command.uniqueEntity` and
`Command.uniqueId`. Commands stay in the heap of the agent when they leave the cache.
Timers are no part of the content; the callback of a timer is modelled with the handler.

* `CommandCache`: the cache with its invariant, pointers allocated and no two commands
  colliding;
* `CommandCache.insert`: insertion, of which a duplicate only moves the command that is
  there; `insert_list_perm_of_find` and `insert_list_perm_cons` say what becomes of the
  sequence;
* `CommandCache.get`, `getByEntity`, `getById`: look-ups that read through to the store;
* `CommandCache.getByEntityV`: the look-up that marks what it returns, and
  `getByEntityV_hit`, `getByEntityV_miss` what it does;
* `CommandCache.remove`, `CommandCache.removeAll`.
-/

namespace IotAgent

open HashIndex

/-- How a cache gets an element that it does not hold; `none` if it has no such function.
The functions by key, by entity and by identifier are always set together. -/
abbrev GetFunction := Option (Command → Option Command)

/-- What such a function gets for a key. -/
def GetFunction.call (fetch : GetFunction) (key : Command) : Option Command :=
  fetch.bind fun getFunction => getFunction key

/-- The cache of commands, with the heap its pointers lead to. -/
structure CommandCache (h : Hashing) where
  maxNumItems : ℕ
  lru : Bool
  heap : Heap Command
  list : List Ptr
  allocated : ∀ p ∈ list, p < heap.next
  distinct : BoundedSeq.Distinct (fun p q => Command.collide h (heap.obj p) (heap.obj q)) list

namespace CommandCache

variable {h : Hashing}

/-- An empty cache. -/
def empty (capacity : ℕ) (lru : Bool) : CommandCache h :=
  ⟨capacity, lru, ⟨fun _ => default, 0⟩, [], by simp, List.Pairwise.nil⟩

variable (c : CommandCache h)

/-- The command behind a pointer. -/
def cmd (p : Ptr) : Command :=
  c.heap.obj p

/-- The number of commands in the cache. -/
def size : ℕ :=
  c.list.length

/-- What the unique index takes for one. -/
abbrev Same (p q : Ptr) : Prop :=
  Command.collide h (c.cmd p) (c.cmd q)

lemma same_refl (p : Ptr) : c.Same p p := Command.collide_self

lemma same_symm (p q : Ptr) (hpq : c.Same p q) : c.Same q p := hpq.symm

/-- Two cached commands that collide with one are one. -/
lemma eq_of_collide {p q : Ptr} {item : Command} (hp : p ∈ c.list) (hq : q ∈ c.list)
    (hpi : Command.collide h (c.cmd p) item) (hqi : Command.collide h (c.cmd q) item) : p = q :=
  c.distinct.eq_of_rel c.same_symm hp hq (hpi.trans hqi.symm)

/-! ### Changes of the heap and of the sequence -/

/-- A new status for the command behind a pointer. -/
def setStatus (p : Ptr) (status : ℤ) : CommandCache h where
  __ := c
  heap := c.heap.modify (·.setStatus status) p
  distinct := List.Pairwise.imp (fun {a b} hab => by
    simp only [Heap.modify_obj]
    split <;> split <;> simpa using hab) c.distinct

/-- A new command behind a fresh pointer, not in the cache yet. -/
def alloc (item : Command) : CommandCache h × Ptr :=
  ({ c with
      heap := (c.heap.alloc item).1
      allocated := fun p hp => Nat.lt_succ_of_lt (c.allocated p hp)
      distinct := List.Pairwise.imp_of_mem (fun ha hb hab => by
        dsimp only
        rwa [Heap.alloc_obj_of_lt _ _ (c.allocated _ ha),
          Heap.alloc_obj_of_lt _ _ (c.allocated _ hb)]) c.distinct },
    c.heap.next)

/-- The cache without an element. -/
def erase (p : Ptr) : CommandCache h where
  __ := c
  list := c.list.erase p
  allocated := fun q hq => c.allocated q (List.mem_of_mem_erase hq)
  distinct := c.distinct.sublist List.erase_sublist

/-- Insertion of a command. A pointer to no command, which no caller has, is ignored. -/
def insert (p : Ptr) : CommandCache h :=
  if hp : p < c.heap.next then
    { c with
      list := BoundedSeq.insert c.Same c.maxNumItems c.lru p c.list
      allocated := fun q hq => by
        rcases List.mem_cons.mp (BoundedSeq.insert_subperm.subset hq) with rfl | hq
        · exact hp
        · exact c.allocated q hq
      distinct := c.distinct.insert c.same_symm }
  else c

/-- A new object, inserted. -/
def insertNew (item : Command) : CommandCache h × Ptr :=
  let (c', p) := c.alloc item
  (c'.insert p, p)

/-! ### Look-ups -/

/-- The look-ups end alike: a hit is inserted again, a miss is read through. -/
def readThrough (found : Option Ptr) (fetch : GetFunction) (key : Command) :
    CommandCache h × Option Ptr :=
  match found with
  | some p => (c.insert p, some p)
  | none =>
      match fetch.call key with
      | some newItem =>
          let (c', p) := c.insertNew newItem
          (c', some p)
      | none => (c, none)

/-- `get_by_id_from_mongo`, which does not look into the cache. -/
def getByIdFromMongo (_c : CommandCache h) (fetch : GetFunction) (key : Command) :
    Option Command :=
  fetch.call key

/-- The element that the unique index takes for `item`. -/
def findUnique (item : Command) : Option Ptr :=
  c.list.find? fun q => Command.collide h (c.cmd q) item

/-- `get`, by the unique index. -/
def get (fetch : GetFunction) (key : Command) : CommandCache h × Option Ptr :=
  c.readThrough (c.findUnique key) fetch key

variable (o : Order Ptr String)

/-- The key of the index by entity, behind a pointer. -/
def entityKey (p : Ptr) : String :=
  (c.cmd p).uniqueEntity

/-- The key of the index by identifier, behind a pointer. -/
def idKey (p : Ptr) : String :=
  (c.cmd p).uniqueId

/-- `get_by_entity`. -/
def getByEntity (fetch : GetFunction) (key : Command) : CommandCache h × Option Ptr :=
  c.readThrough (o.find c.entityKey key.uniqueEntity c.list) fetch key

/-- `get_by_id`. -/
def getById (fetch : GetFunction) (key : Command) : CommandCache h × Option Ptr :=
  c.readThrough (o.find c.idKey key.uniqueId c.list) fetch key

/-- The body of the loop of `getByEntityV`. -/
def mark (status : ℤ) (p : Ptr) : CommandCache h :=
  (c.setStatus p status).insert p

/-- The elements that the loop of `getByEntityV` runs through: it starts at the first
element of the key and stops at the end of the index. -/
def walk (key : Command) : List Ptr :=
  fromFirst c.entityKey key.uniqueEntity (o.order c.entityKey c.list)

/-- `get_by_entityV`. -/
def getByEntityV (fetch : GetFunction) (key : Command) (newStatus : ℤ) :
    CommandCache h × List Ptr :=
  match c.walk o key with
  | [] =>
      match fetch.call key with
      | some newItem =>
          let (c', p) := c.insertNew (newItem.setStatus newStatus)
          (c', [p])
      | none => (c, [])
  | ps => (ps.foldl (fun c p => c.mark newStatus p) c, ps)

/-! ### Removal -/

/-- `remove`, by the index by identifier. -/
def remove (key : Command) : CommandCache h :=
  match o.find c.idKey key.uniqueId c.list with
  | some p => c.erase p
  | none => c

/-- `remove_all`, which removes the first element of the index by identifier. -/
def removeAll : CommandCache h :=
  match o.order c.idKey c.list with
  | p :: _ => c.erase p
  | [] => c

/-! ### What the operations do to the heap -/

section Heap

variable {c} {p q : Ptr} {item : Command} {s : ℤ}

@[simp] lemma setStatus_list : (c.setStatus p s).list = c.list := rfl

lemma setStatus_cmd :
    (c.setStatus p s).cmd q = if q = p then (c.cmd q).setStatus s else c.cmd q :=
  Heap.modify_obj c.heap (·.setStatus s) p q

@[simp] lemma erase_list : (c.erase p).list = c.list.erase p := rfl

@[simp] lemma erase_cmd : (c.erase p).cmd = c.cmd := rfl

@[simp] lemma alloc_list : (c.alloc item).1.list = c.list := rfl

@[simp] lemma alloc_ptr : (c.alloc item).2 = c.heap.next := rfl

@[simp] lemma alloc_next : (c.alloc item).1.heap.next = c.heap.next + 1 := rfl

@[simp] lemma alloc_cmd_new : (c.alloc item).1.cmd c.heap.next = item :=
  Heap.alloc_obj_new _ _

lemma alloc_cmd_of_lt (hp : p < c.heap.next) : (c.alloc item).1.cmd p = c.cmd p :=
  Heap.alloc_obj_of_lt _ _ hp

@[simp] lemma insert_heap : (c.insert p).heap = c.heap := by
  rw [insert]
  split <;> rfl

@[simp] lemma insert_maxNumItems : (c.insert p).maxNumItems = c.maxNumItems := by
  rw [insert]
  split <;> rfl

@[simp] lemma insert_lru : (c.insert p).lru = c.lru := by
  rw [insert]
  split <;> rfl

@[simp] lemma insert_cmd : (c.insert p).cmd = c.cmd := by
  funext q
  rw [cmd, insert_heap, cmd]

lemma insertNew_ptr : (c.insertNew item).2 = c.heap.next := rfl

@[simp] lemma insertNew_next : (c.insertNew item).1.heap.next = c.heap.next + 1 := by
  simp [insertNew]

lemma insertNew_cmd_new : (c.insertNew item).1.cmd c.heap.next = item := by
  simp [insertNew]

lemma insertNew_cmd_of_lt (hp : p < c.heap.next) : (c.insertNew item).1.cmd p = c.cmd p := by
  simp [insertNew, alloc_cmd_of_lt hp]

end Heap

/-! ### What insertion does to the sequence -/

section Insert

variable {c} {p q : Ptr}

lemma insert_list (hp : p < c.heap.next) :
    (c.insert p).list = BoundedSeq.insert c.Same c.maxNumItems c.lru p c.list := by
  rw [insert, dif_pos hp]

/-- Nothing else comes in. -/
lemma mem_of_mem_insert (hq : q ∈ (c.insert p).list) : q = p ∨ q ∈ c.list := by
  rw [insert] at hq
  split at hq
  · exact List.mem_cons.mp (BoundedSeq.insert_subperm.subset hq)
  · exact .inr hq

/-- A duplicate only moves the command that is there. -/
lemma insert_list_perm_of_find (hq : BoundedSeq.find c.Same p c.list = some q) :
    (c.insert p).list.Perm c.list := by
  by_cases hp : p < c.heap.next
  · rw [insert_list hp]
    exact BoundedSeq.insert_perm_of_find hq
  · rw [insert, dif_neg hp]

/-- Another insertion of an element changes the order only. -/
lemma insert_list_perm_of_mem (hp : p ∈ c.list) : (c.insert p).list.Perm c.list :=
  insert_list_perm_of_find (c.distinct.find_self c.same_refl c.same_symm hp)

/-- With room in the cache a command that collides with none is taken. -/
lemma insert_list_perm_cons (hp : p < c.heap.next)
    (hn : BoundedSeq.find c.Same p c.list = none) (hroom : c.size < c.maxNumItems) :
    (c.insert p).list.Perm (p :: c.list) := by
  rw [insert_list hp]
  exact BoundedSeq.insert_perm_cons hn hroom

/-- With room in the cache a new command that collides with none is taken. -/
lemma insertNew_list_perm_cons {item : Command}
    (hn : ∀ q ∈ c.list, ¬ Command.collide h (c.cmd q) item) (hroom : c.size < c.maxNumItems) :
    (c.insertNew item).1.list.Perm (c.heap.next :: c.list) := by
  refine insert_list_perm_cons (c := (c.alloc item).1) ?_ ?_ hroom
  · rw [alloc_next]
    exact Nat.lt_succ_self _
  · refine BoundedSeq.find_eq_none_iff.mpr fun q hq => ?_
    rw [Same, alloc_cmd_new, alloc_cmd_of_lt (c.allocated q hq)]
    exact hn q hq

lemma findUnique_eq_none_iff {item : Command} :
    c.findUnique item = none ↔ ∀ q ∈ c.list, ¬ Command.collide h (c.cmd q) item := by
  simp [findUnique]

lemma findUnique_eq_some {item : Command} (hq : c.findUnique item = some q) :
    q ∈ c.list ∧ Command.collide h (c.cmd q) item :=
  ⟨List.mem_of_find?_eq_some hq, by simpa using List.find?_some hq⟩

/-- A new object meets what its command collides with. -/
lemma find_alloc (item : Command) :
    BoundedSeq.find (c.alloc item).1.Same c.heap.next (c.alloc item).1.list
      = c.findUnique item := by
  refine List.find?_congr fun q hq => ?_
  show decide (Command.collide h ((c.alloc item).1.cmd q) ((c.alloc item).1.cmd c.heap.next)) = _
  rw [alloc_cmd_new, alloc_cmd_of_lt (c.allocated q hq)]

/-- A full cache that is not LRU does not take a new command. -/
lemma insertNew_list_of_full {item : Command} (hlru : c.lru = false)
    (hfull : c.maxNumItems ≤ c.size) : (c.insertNew item).1.list = c.list := by
  have hlru' : (c.alloc item).1.lru = false := hlru
  show ((c.alloc item).1.insert c.heap.next).list = c.list
  rw [insert_list (Nat.lt_succ_self _), hlru']
  exact BoundedSeq.insert_of_full hfull

/-- With room a duplicate moves the command that is there to the end. -/
lemma insertNew_list_of_find {item : Command} (hlru : c.lru = false)
    (hroom : c.size < c.maxNumItems) (hq : c.findUnique item = some q) :
    (c.insertNew item).1.list = c.list.erase q ++ [q] := by
  have hlru' : (c.alloc item).1.lru = false := hlru
  show ((c.alloc item).1.insert c.heap.next).list = c.list.erase q ++ [q]
  rw [insert_list (Nat.lt_succ_self _), hlru']
  exact BoundedSeq.insert_of_find hroom ((find_alloc item).trans hq)

/-- With room a new command comes to the end. -/
lemma insertNew_list_of_new {item : Command} (hlru : c.lru = false)
    (hroom : c.size < c.maxNumItems) (hn : c.findUnique item = none) :
    (c.insertNew item).1.list = c.list ++ [c.heap.next] := by
  have hlru' : (c.alloc item).1.lru = false := hlru
  show ((c.alloc item).1.insert c.heap.next).list = c.list ++ [c.heap.next]
  rw [insert_list (Nat.lt_succ_self _), hlru']
  exact BoundedSeq.insert_of_new hroom ((find_alloc item).trans hn)

end Insert

/-! ### What a removal does -/

section Remove

variable {c} {o : Order Ptr String} {key : Command} {p : Ptr}

@[simp] lemma remove_heap : (c.remove o key).heap = c.heap := by
  rw [remove]
  split <;> rfl

@[simp] lemma remove_cmd : (c.remove o key).cmd = c.cmd := by
  funext q
  rw [cmd, remove_heap, cmd]

/-- The element that the index finds is removed. -/
lemma remove_list_of_find (hp : o.find c.idKey key.uniqueId c.list = some p) :
    (c.remove o key).list = c.list.erase p := by
  rw [remove, hp]
  rfl

/-- What is left is what the index does not find. -/
lemma mem_remove_iff : p ∈ (c.remove o key).list ↔
    p ∈ c.list ∧ o.find c.idKey key.uniqueId c.list ≠ some p := by
  cases hfind : o.find c.idKey key.uniqueId c.list with
  | none =>
      rw [remove, hfind]
      simp
  | some q =>
      have hnodup : c.list.Nodup := c.distinct.nodup c.same_refl
      rw [remove_list_of_find hfind, hnodup.mem_erase_iff, and_comm]
      simp [eq_comm]

end Remove

/-! ### What the look-ups do -/

section Mark

variable {c} {p q : Ptr} {s : ℤ}

/-- A look-up by entity finds a cached command of the key. -/
lemma getByEntity_hit {o : Order Ptr String} {fetch : GetFunction} {key : Command}
    (hp : p ∈ c.list) (hkey : c.entityKey p = key.uniqueEntity) :
    ∃ q, (c.getByEntity o fetch key).2 = some q ∧ c.entityKey q = key.uniqueEntity := by
  cases hf : o.find c.entityKey key.uniqueEntity c.list with
  | none => exact absurd hkey (Order.find_eq_none_iff.mp hf p hp)
  | some q =>
      have hget : c.getByEntity o fetch key = (c.insert q, some q) := by
        rw [getByEntity, hf]
        rfl
      exact ⟨q, by rw [hget], Order.key_of_find hf⟩

lemma mark_cmd : (c.mark s p).cmd q = if q = p then (c.cmd q).setStatus s else c.cmd q := by
  rw [mark, insert_cmd, setStatus_cmd]

/-- The loop sets the status of what it runs through, and of nothing else. -/
lemma foldl_mark_cmd {ps : List Ptr} :
    (ps.foldl (fun c p => c.mark s p) c).cmd q =
      if q ∈ ps then (c.cmd q).setStatus s else c.cmd q := by
  induction ps generalizing c with
  | nil => simp
  | cons p ps ih =>
      rw [List.foldl_cons, ih, mark_cmd]
      by_cases hqp : q = p
      · subst hqp
        simp [Command.setStatus]
      · simp [hqp]

/-- A hit: the loop runs from the equal range to the end of the index. -/
lemma getByEntityV_hit {o : Order Ptr String} {fetch : GetFunction} {key : Command}
    (hw : c.walk o key ≠ []) :
    c.getByEntityV o fetch key s =
      ((c.walk o key).foldl (fun c p => c.mark s p) c, c.walk o key) := by
  unfold getByEntityV
  split
  · next hnil => exact absurd hnil hw
  · rfl

/-- A miss: nothing cached has the key, and the one command that is got is marked. -/
lemma getByEntityV_miss {o : Order Ptr String} {fetch : GetFunction} {key : Command}
    (hw : c.walk o key = []) :
    c.getByEntityV o fetch key s =
      match fetch.call key with
      | some newItem => ((c.insertNew (newItem.setStatus s)).1, [c.heap.next])
      | none => (c, []) := by
  unfold getByEntityV
  rw [hw]
  rfl

lemma walk_eq_nil_iff {o : Order Ptr String} {key : Command} :
    c.walk o key = [] ↔ ∀ p ∈ c.list, c.entityKey p ≠ key.uniqueEntity := by
  simp [walk, fromFirst_eq_nil_iff, Order.mem_order]

lemma walk_subset {o : Order Ptr String} {key : Command} (hp : p ∈ c.walk o key) :
    p ∈ c.list :=
  (o.mem_order _ _).mp (fromFirst_subset hp)

end Mark

/-! ### The equal range -/

/-- What stands behind the equal range of a key in the index by entity. -/
def behind (key : Command) : List Ptr :=
  rest c.entityKey key.uniqueEntity (o.order c.entityKey c.list)

/-- The look-up that marks returns the cached commands of the key, each once, and nothing
else but a command it had to get; it sets the status of what it returns only. -/
structure MarksEqualRange (fetch : GetFunction) (key : Command) (newStatus : ℤ) : Prop where
  nodup : (c.getByEntityV o fetch key newStatus).2.Nodup
  mem_iff : ∀ p ∈ c.list, p ∈ (c.getByEntityV o fetch key newStatus).2 ↔
    c.entityKey p = key.uniqueEntity
  fetched : ∀ p ∈ (c.getByEntityV o fetch key newStatus).2, p ∉ c.list →
    (∀ q ∈ c.list, c.entityKey q ≠ key.uniqueEntity) ∧
    ∃ newItem, fetch.call key = some newItem ∧
      (c.getByEntityV o fetch key newStatus).1.cmd p = newItem.setStatus newStatus
  marked : ∀ p < c.heap.next, (c.getByEntityV o fetch key newStatus).1.cmd p =
    if p ∈ c.list ∧ c.entityKey p = key.uniqueEntity then (c.cmd p).setStatus newStatus
    else c.cmd p

variable {c o}

lemma list_nodup : c.list.Nodup :=
  c.distinct.nodup c.same_refl

lemma walk_eq {key : Command} (hk : ∃ p ∈ c.list, c.entityKey p = key.uniqueEntity) :
    c.walk o key = (o.order c.entityKey c.list).filter
      (fun p => c.entityKey p = key.uniqueEntity) ++ c.behind o key := by
  refine fromFirst_eq (o.grouped _ _) ?_
  simpa only [Order.mem_order] using hk

lemma mem_behind {key : Command} {p : Ptr} (hp : p ∈ c.behind o key) :
    p ∈ c.list ∧ c.entityKey p ≠ key.uniqueEntity :=
  ⟨(o.mem_order _ _).mp (mem_of_mem_rest hp), (o.grouped _ _).key_ne_of_mem_rest hp⟩

/-- Nothing stands behind a range that is not there. -/
lemma behind_eq_nil_of_miss {key : Command} (hw : c.walk o key = []) :
    c.behind o key = [] := by
  have hfrom : fromFirst c.entityKey key.uniqueEntity (o.order c.entityKey c.list) = [] := hw
  rw [behind, rest, hfrom]
  rfl

/-- With nothing behind the equal range a hit runs through the equal range. -/
lemma marksEqualRange_of_hit {fetch : GetFunction} {key : Command} {newStatus : ℤ}
    (hw : c.walk o key ≠ []) (hb : c.behind o key = []) :
    c.MarksEqualRange o fetch key newStatus := by
  have hk : ∃ p ∈ c.list, c.entityKey p = key.uniqueEntity := by
    simpa [walk_eq_nil_iff] using hw
  have hwalk := walk_eq (o := o) hk
  rw [hb, List.append_nil] at hwalk
  have hmem : ∀ p, p ∈ c.walk o key ↔ p ∈ c.list ∧ c.entityKey p = key.uniqueEntity := by
    intro p
    rw [hwalk, List.mem_filter, Order.mem_order, decide_eq_true_eq]
  refine ⟨?_, ?_, ?_, ?_⟩ <;> rw [getByEntityV_hit hw]
  · rw [hwalk]
    exact ((o.perm _ _).nodup_iff.mpr list_nodup).filter _
  · intro p hp
    simp [hmem, hp]
  · intro p hp hnot
    exact absurd ((hmem p).mp hp).1 hnot
  · intro p _
    rw [foldl_mark_cmd]
    simp only [hmem]

/-- A miss returns what it gets, a command that was not cached. -/
lemma marksEqualRange_of_miss {fetch : GetFunction} {key : Command} {newStatus : ℤ}
    (hw : c.walk o key = []) : c.MarksEqualRange o fetch key newStatus := by
  have hkey := walk_eq_nil_iff.mp hw
  have hold : ∀ p < c.heap.next, ¬ (p ∈ c.list ∧ c.entityKey p = key.uniqueEntity) :=
    fun p _ hp => hkey p hp.1 hp.2
  cases hget : fetch.call key with
  | none =>
      have hres : c.getByEntityV o fetch key newStatus = (c, []) := by
        rw [getByEntityV_miss hw, hget]
      refine ⟨?_, ?_, ?_, ?_⟩ <;> rw [hres]
      · exact List.nodup_nil
      · intro p hp
        simpa using hkey p hp
      · intro p hp
        cases hp
      · intro p hp
        rw [if_neg (hold p hp)]
  | some newItem =>
      have hres : c.getByEntityV o fetch key newStatus =
          ((c.insertNew (newItem.setStatus newStatus)).1, [c.heap.next]) := by
        rw [getByEntityV_miss hw, hget]
      refine ⟨?_, ?_, ?_, ?_⟩ <;> rw [hres]
      · exact List.nodup_singleton _
      · intro p hp
        have := c.allocated p hp
        simpa [hkey p hp] using Nat.ne_of_lt this
      · intro p hp _
        rw [List.mem_singleton] at hp
        subst hp
        exact ⟨hkey, newItem, hget, insertNew_cmd_new⟩
      · intro p hp
        rw [if_neg (hold p hp)]
        exact insertNew_cmd_of_lt hp

/-- **The look-up that marks**: it returns and marks the equal range alone exactly when the
equal range stands last in the index by entity. -/
theorem marksEqualRange_iff {fetch : GetFunction} {key : Command} {newStatus : ℤ} :
    c.MarksEqualRange o fetch key newStatus ↔ c.behind o key = [] := by
  by_cases hw : c.walk o key = []
  · exact ⟨fun _ => behind_eq_nil_of_miss hw, fun _ => marksEqualRange_of_miss hw⟩
  · refine ⟨fun hm => ?_, marksEqualRange_of_hit hw⟩
    -- an element behind the range would be returned without having the key
    rw [List.eq_nil_iff_forall_not_mem]
    intro p hp
    obtain ⟨hlist, hne⟩ := mem_behind hp
    have hret : p ∈ (c.getByEntityV o fetch key newStatus).2 := by
      have hk : ∃ p ∈ c.list, c.entityKey p = key.uniqueEntity := by
        simpa [walk_eq_nil_iff] using hw
      rw [getByEntityV_hit hw, walk_eq hk]
      exact List.mem_append_right _ hp
    exact hne ((hm.mem_iff p hlist).mp hret)

/-- Two commands waiting for two entities. -/
def twoEntities : CommandCache ⟨fun n s => n + s.length, fun n => n⟩ :=
  let waiting (id sequence entity : String) : Command :=
    { Command.ofStored id "ping" "service" "/" sequence entity "thing" "" 60 none [] with
      status := Types.readyForRead }
  let c := (empty Types.maxSizeCache false).insertNew (waiting "d1@ping" "1" "room1")
  (c.1.insertNew (waiting "d2@ping" "22" "room2")).1

/-- A poll for the first entity takes the command of the second. -/
theorem not_marksEqualRange_twoEntities :
    ¬ twoEntities.MarksEqualRange Order.blocks none
      ((Command.ofEntity "room1" "service" "/").setStatus Types.readyForRead)
      Types.delivered := by
  intro hm
  have hmem := hm.mem_iff 1 (by decide)
  revert hmem
  decide

end CommandCache

end IotAgent
