import IotAgent.Lib.Timers
import IotAgent.Util.CommandCache

/-!
The cache of commands with its timers (`src/util/timer.h`, `src/util/command_cache.{h,cc}`).

Every command has a timer. An insertion arms it for the timeout of the command, also when the
command is a duplicate that only moves the one that is there, and a look-up inserts what it
finds. A removal cancels it. The number of seconds is handed over as an unsigned short.

* `TimedCommandCache`: the cache and the timers, with the invariant that the last arming of
  a command lasts as long as its timeout says;
* `insert`, `get`, `getByEntity`, `getById`, `getByEntityV`, `remove`, `removeAll`: the
  operations of `CommandCache` with what they do to the timers;
* `itemTimeout`: the handler of a timer;
* `insert_cache`, `get_cache`, and so on: without the timers they are those operations.
-/

namespace IotAgent

open HashIndex

/-- The units of time in a second. -/
def second : ℕ := 1000000

/-- How long `Timer::start` waits; the timeout arrives as an unsigned short. -/
def Command.duration (c : Command) : ℕ :=
  (c.timeout % 65536).toNat * second

/-- The cache of commands with its timers. -/
structure TimedCommandCache (h : Hashing) where
  cache : CommandCache h
  timers : Timers Ptr
  armed : ∀ p a, timers.last p = some a →
    p < cache.heap.next ∧ a.owner = p ∧ a.duration = (cache.cmd p).duration

namespace TimedCommandCache

variable {h : Hashing}

/-- An empty cache. -/
def empty (capacity : ℕ) (lru : Bool) : TimedCommandCache h :=
  ⟨CommandCache.empty capacity lru, Timers.empty, fun _ _ ha => by cases ha⟩

variable (c : TimedCommandCache h)

/-- The command behind a pointer. -/
abbrev cmd (p : Ptr) : Command :=
  c.cache.cmd p

/-! ### Timers of commands -/

/-- `start` with the timeout of the command, if it has one. -/
def arm (p : Ptr) : TimedCommandCache h :=
  if hp : p < c.cache.heap.next ∧ 0 < (c.cmd p).timeout then
    { c with
      timers := c.timers.start p (c.cmd p).duration
      armed := fun q a ha => by
        rcases Timers.start_last_eq_some ha with ⟨rfl, rfl⟩ | ha
        · exact ⟨hp.1, rfl, rfl⟩
        · exact c.armed q a ha }
  else c

/-- `cancel`. -/
def cancel (p : Ptr) : TimedCommandCache h :=
  { c with timers := c.timers.cancel p }

/-! ### Changes of the cache alone -/

/-- A new command behind a fresh pointer. -/
def alloc (item : Command) : TimedCommandCache h × Ptr :=
  ({ c with
      cache := (c.cache.alloc item).1
      armed := fun p a ha => by
        obtain ⟨hp, howner, hdur⟩ := c.armed p a ha
        rw [CommandCache.alloc_next, CommandCache.alloc_cmd_of_lt hp]
        exact ⟨Nat.lt_succ_of_lt hp, howner, hdur⟩ },
    c.cache.heap.next)

/-- A new status for the command behind a pointer. -/
def setStatus (p : Ptr) (status : ℤ) : TimedCommandCache h where
  __ := c
  cache := c.cache.setStatus p status
  armed := fun q a ha => by
    obtain ⟨hq, howner, hdur⟩ := c.armed q a ha
    refine ⟨hq, howner, hdur.trans ?_⟩
    rw [CommandCache.setStatus_cmd]
    split <;> rfl

/-- The sequence after an insertion. -/
def insertItem (p : Ptr) : TimedCommandCache h where
  __ := c
  cache := c.cache.insert p
  armed := fun q a ha => by
    rw [CommandCache.insert_heap, CommandCache.insert_cmd]
    exact c.armed q a ha

/-- The sequence without an element. -/
def erase (p : Ptr) : TimedCommandCache h :=
  { c with cache := c.cache.erase p }

/-! ### Insertion -/

/-- What an insertion does to the timers: the item is armed, and an element that has to
leave is cancelled. A full cache that is not LRU does neither. -/
def insertTimers (p : Ptr) : TimedCommandCache h :=
  if c.cache.lru then
    match BoundedSeq.find c.cache.Same p c.cache.list with
    | some _ => c.arm p
    | none =>
        if (p :: c.cache.list).length > c.cache.maxNumItems then
          (c.arm p).cancel ((p :: c.cache.list).getLast (List.cons_ne_nil _ _))
        else c.arm p
  else if c.cache.size < c.cache.maxNumItems then c.arm p
  else c

/-- `insert`. -/
def insert (p : Ptr) : TimedCommandCache h :=
  (c.insertTimers p).insertItem p

/-- A new object, inserted. -/
def insertNew (item : Command) : TimedCommandCache h × Ptr :=
  let (c', p) := c.alloc item
  (c'.insert p, p)

/-! ### Look-ups -/

/-- The look-ups end alike: a hit is inserted again, a miss is read through. -/
def readThrough (found : Option Ptr) (fetch : GetFunction) (key : Command) :
    TimedCommandCache h × Option Ptr :=
  match found with
  | some p => (c.insert p, some p)
  | none =>
      match fetch.call key with
      | some newItem =>
          let (c', p) := c.insertNew newItem
          (c', some p)
      | none => (c, none)

/-- `get`. -/
def get (fetch : GetFunction) (key : Command) : TimedCommandCache h × Option Ptr :=
  c.readThrough (c.cache.findUnique key) fetch key

variable (o : Order Ptr String)

/-- `get_by_entity`. -/
def getByEntity (fetch : GetFunction) (key : Command) : TimedCommandCache h × Option Ptr :=
  c.readThrough (o.find c.cache.entityKey key.uniqueEntity c.cache.list) fetch key

/-- `get_by_id`. -/
def getById (fetch : GetFunction) (key : Command) : TimedCommandCache h × Option Ptr :=
  c.readThrough (o.find c.cache.idKey key.uniqueId c.cache.list) fetch key

/-- The body of the loop of `getByEntityV`. -/
def mark (status : ℤ) (p : Ptr) : TimedCommandCache h :=
  (c.setStatus p status).insert p

/-- `get_by_entityV`. -/
def getByEntityV (fetch : GetFunction) (key : Command) (newStatus : ℤ) :
    TimedCommandCache h × List Ptr :=
  match c.cache.walk o key with
  | [] =>
      match fetch.call key with
      | some newItem =>
          let (c', p) := c.insertNew (newItem.setStatus newStatus)
          (c', [p])
      | none => (c, [])
  | ps => (ps.foldl (fun c p => c.mark newStatus p) c, ps)

/-! ### Removal -/

/-- `remove`, which cancels the timer of what it finds. -/
def remove (key : Command) : TimedCommandCache h :=
  match o.find c.cache.idKey key.uniqueId c.cache.list with
  | some p => (c.cancel p).erase p
  | none => c

/-- `remove_all`, which cancels no timer. -/
def removeAll : TimedCommandCache h :=
  match o.order c.cache.idKey c.cache.list with
  | p :: _ => c.erase p
  | [] => c

/-! ### Handlers -/

/-- The handler of an arming leaves the queue and runs. Unless its wait was cancelled, it calls
the timeout function, which may remove the command itself, and removes the command. Both
removals go by the identifier. -/
def itemTimeout (a : Arming Ptr) (success timeoutRemoves : Bool) : TimedCommandCache h :=
  if (a, success) ∈ c.timers.queued then
    let c : TimedCommandCache h := { c with timers := c.timers.take a success }
    if success then
      let item := c.cmd a.owner
      let c := if timeoutRemoves then c.remove o item else c
      c.remove o item
    else c
  else c

/-! ### Without the timers -/

section Untimed

variable {c o} {p : Ptr} {item key : Command} {fetch : GetFunction} {s : ℤ}

@[simp] lemma arm_cache : (c.arm p).cache = c.cache := by
  rw [arm]
  split <;> rfl

@[simp] lemma cancel_cache : (c.cancel p).cache = c.cache := rfl

@[simp] lemma insertTimers_cache : (c.insertTimers p).cache = c.cache := by
  rw [insertTimers]
  split
  · split
    · exact arm_cache
    · split <;> simp
  · split <;> simp

@[simp] lemma insert_cache : (c.insert p).cache = c.cache.insert p := by
  show (c.insertTimers p).cache.insert p = _
  rw [insertTimers_cache]

@[simp] lemma insertNew_maxNumItems :
    (c.insertNew item).1.cache.maxNumItems = c.cache.maxNumItems := by
  simp [insertNew, alloc, CommandCache.alloc]

@[simp] lemma insertNew_lru : (c.insertNew item).1.cache.lru = c.cache.lru := by
  simp [insertNew, alloc, CommandCache.alloc]

lemma insertNew_cache : ((c.insertNew item).1.cache, (c.insertNew item).2)
    = c.cache.insertNew item := by
  simp [insertNew, CommandCache.insertNew, alloc]

lemma readThrough_cache {found : Option Ptr} :
    ((c.readThrough found fetch key).1.cache, (c.readThrough found fetch key).2)
      = c.cache.readThrough found fetch key := by
  cases found with
  | some p => simp [readThrough, CommandCache.readThrough]
  | none =>
      cases hf : fetch.call key with
      | none => simp [readThrough, CommandCache.readThrough, hf]
      | some newItem =>
          simp [readThrough, CommandCache.readThrough, hf, insertNew, CommandCache.insertNew, alloc]

/-- Without the timers a look-up is that of the cache alone. -/
lemma get_cache : ((c.get fetch key).1.cache, (c.get fetch key).2) = c.cache.get fetch key :=
  readThrough_cache

lemma getByEntity_cache : ((c.getByEntity o fetch key).1.cache, (c.getByEntity o fetch key).2)
    = c.cache.getByEntity o fetch key :=
  readThrough_cache

lemma getById_cache : ((c.getById o fetch key).1.cache, (c.getById o fetch key).2)
    = c.cache.getById o fetch key :=
  readThrough_cache

lemma foldl_mark_cache (ps : List Ptr) :
    (ps.foldl (fun c p => c.mark s p) c).cache = ps.foldl (fun c p => c.mark s p) c.cache := by
  induction ps generalizing c with
  | nil => rfl
  | cons p ps ih =>
      rw [List.foldl_cons, ih, List.foldl_cons]
      congr 1
      exact insert_cache

lemma getByEntityV_cache :
    ((c.getByEntityV o fetch key s).1.cache, (c.getByEntityV o fetch key s).2)
      = c.cache.getByEntityV o fetch key s := by
  rw [getByEntityV, CommandCache.getByEntityV]
  cases hw : c.cache.walk o key with
  | nil =>
      cases hf : fetch.call key with
      | none => rfl
      | some newItem =>
          have hins : _ = c.cache.insertNew (newItem.setStatus s) := insertNew_cache
          simp only [← hins]
  | cons p ps => simp only [foldl_mark_cache]

lemma remove_cache : (c.remove o key).cache = c.cache.remove o key := by
  rw [remove, CommandCache.remove]
  cases o.find c.cache.idKey key.uniqueId c.cache.list <;> rfl

lemma removeAll_cache : (c.removeAll o).cache = c.cache.removeAll o := by
  rw [removeAll, CommandCache.removeAll]
  cases o.order c.cache.idKey c.cache.list <;> rfl

end Untimed

/-! ### A new command in a cache that is not LRU -/

section InsertNew

variable {c} {item : Command}

@[simp] lemma insert_timers {p : Ptr} : (c.insert p).timers = (c.insertTimers p).timers := rfl

lemma arm_timers {p : Ptr} : (c.arm p).timers =
    if p < c.cache.heap.next ∧ 0 < (c.cmd p).timeout then
      c.timers.start p (c.cmd p).duration
    else c.timers := by
  rw [arm]
  split <;> rfl

/-- A full cache arms no timer. -/
lemma insertNew_timers_of_full (hlru : c.cache.lru = false)
    (hfull : c.cache.maxNumItems ≤ c.cache.size) : (c.insertNew item).1.timers = c.timers := by
  have hlru' : (c.alloc item).1.cache.lru = false := hlru
  have hfull' : ¬ (c.alloc item).1.cache.size < (c.alloc item).1.cache.maxNumItems :=
    Nat.not_lt_of_le hfull
  show ((c.alloc item).1.insertTimers c.cache.heap.next).timers = c.timers
  rw [insertTimers, hlru', if_neg Bool.false_ne_true, if_neg hfull']
  rfl

/-- With room in the cache a command with a timeout is armed. -/
lemma insertNew_timers_of_room (hlru : c.cache.lru = false)
    (hroom : c.cache.size < c.cache.maxNumItems) (ht : 0 < item.timeout) :
    (c.insertNew item).1.timers = c.timers.start c.cache.heap.next item.duration := by
  have hlru' : (c.alloc item).1.cache.lru = false := hlru
  have hroom' : (c.alloc item).1.cache.size < (c.alloc item).1.cache.maxNumItems := hroom
  have hcmd : (c.alloc item).1.cmd c.cache.heap.next = item := CommandCache.alloc_cmd_new
  have hnext : c.cache.heap.next < (c.alloc item).1.cache.heap.next := Nat.lt_succ_self _
  show ((c.alloc item).1.insertTimers c.cache.heap.next).timers = _
  rw [insertTimers, hlru', if_neg Bool.false_ne_true, if_pos hroom', arm_timers, hcmd,
    if_pos ⟨hnext, ht⟩]
  rfl

/-- A command without a timeout is not armed. -/
lemma insertNew_timers_of_noTimeout (hlru : c.cache.lru = false) (ht : item.timeout ≤ 0) :
    (c.insertNew item).1.timers = c.timers := by
  have hlru' : (c.alloc item).1.cache.lru = false := hlru
  have hcmd : (c.alloc item).1.cmd c.cache.heap.next = item := CommandCache.alloc_cmd_new
  have harm : ((c.alloc item).1.arm c.cache.heap.next).timers = c.timers := by
    rw [arm_timers, hcmd, if_neg fun hp => Int.not_lt.mpr ht hp.2]
    rfl
  show ((c.alloc item).1.insertTimers c.cache.heap.next).timers = c.timers
  rw [insertTimers, hlru', if_neg Bool.false_ne_true]
  split
  · exact harm
  · rfl

/-- A new object has no timer yet. -/
lemma last_next : c.timers.last c.cache.heap.next = none := by
  cases hlast : c.timers.last c.cache.heap.next with
  | none => rfl
  | some a => exact absurd (c.armed _ a hlast).1 (Nat.lt_irrefl _)

/-- An arming is seen in the timers. -/
lemma insertNew_timers_ne (hlru : c.cache.lru = false)
    (hroom : c.cache.size < c.cache.maxNumItems) (ht : 0 < item.timeout) :
    (c.insertNew item).1.timers ≠ c.timers := by
  intro heq
  have hlast := last_next (c := c)
  rw [← heq, insertNew_timers_of_room hlru hroom ht, Timers.start_last_self] at hlast
  cases hlast

end InsertNew

end TimedCommandCache

end IotAgent
