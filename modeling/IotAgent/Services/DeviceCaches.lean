import IotAgent.Lib.Interleaving
import IotAgent.Services.AdminService
import IotAgent.Util.Cache

/-!
Changes of devices and the caches of the handlers.

Every handler has a cache that reads through to the table of devices: under the lock of the
cache a device that is not there is read from the table and inserted. A request that deletes
or changes a device writes to the table first and then removes the device from the cache of
one handler after the other.

* `prog`: the actions of the look-ups and of the requests;
* `DeviceStep.incoming`, `DeviceStep.removing`: what one step can bring into a cache, and
  what it does to a request on its way through the caches;
* `noStaleDevice`: behind a completed request no cache holds the device as it was;
* `not_cached_of_deleted`: in particular none holds a deleted one;
* `run_get`: a look-up alone is `Cache::get`.
-/

namespace IotAgent

open AdminService Interleaving Mongo

namespace DeviceCaches

/-! ### The requests -/

/-- What a request does that has passed its checks. -/
inductive AdminOp where
  | delete (service servicePath idDevice : String)
  | put (service servicePath deviceId protocol : String) (setbo : Doc)
  deriving DecidableEq

/-- The device that is removed from the caches. Behind a PUT it has what is stored as well,
under the same key. -/
def AdminOp.device : AdminOp → Device
  | delete service servicePath idDevice => { Device.ofName idDevice service with servicePath }
  | put service servicePath deviceId _ _ => { Device.ofName deviceId service with servicePath }

/-- The write to the table. A PUT throws when the table refuses the change, and when there
is no device to change. -/
def AdminOp.write (t : DeviceTable) : AdminOp → Option DeviceTable
  | delete service servicePath idDevice =>
      some (t.remove (deleteQuery service servicePath idDevice)).1
  | put service servicePath deviceId protocol setbo =>
      match t.update (putQuery service servicePath deviceId protocol) setbo with
      | none => none
      | some (t', count) => if count = 0 then none else some t'

/-! ### The actions -/

variable {h : Hashing} {H : Type*}

/-- The table with what it was before, and the cache and the lock of every handler. -/
structure State (h : Hashing) (H : Type*) where
  earlier : List DeviceTable
  table : DeviceTable
  caches : H → Cache h
  locked : H → Bool

/-- The tables from the first to the one that is there now. -/
def State.history (s : State h H) : List DeviceTable :=
  s.earlier ++ [s.table]

/-- A look-up in the cache of a handler and a request. Under the lock a look-up reads the
table and inserts what it got; a request that has written, the time since when, goes on to
the handlers that are left. -/
inductive Task (H : Type*) where
  | get (hd : H) (key : Device)
  | reading (hd : H) (key : Device)
  | inserting (hd : H) (newItem : Option Device)
  | got (item : Option Device)
  | admin (op : AdminOp)
  | removing (since : ℕ) (op : AdminOp) (rest : List H)
  | refused
  deriving DecidableEq

namespace State

variable [DecidableEq H] (s : State h H)

/-- The cache of a handler is replaced. -/
def setCache (hd : H) (c : Cache h) : State h H :=
  { s with caches := Function.update s.caches hd c }

/-- The lock of a handler is taken or given back. -/
def setLocked (hd : H) (b : Bool) : State h H :=
  { s with locked := Function.update s.locked hd b }

/-- A new table. -/
def write (t : DeviceTable) : State h H :=
  { s with earlier := s.history, table := t }

end State

variable [DecidableEq H] (J : JsonText) (handlers : List H) (readsThrough : H → Bool)

/-- The actions. The oracle tells whether the table can be reached: a look-up that cannot
reach it gets nothing, and a request throws. -/
def prog : Program (State h H) (Task H) Bool := fun reached s t =>
  match t with
  | .get hd key =>
      if s.locked hd then none
      else
        match BoundedSeq.find (Device.collide h) key (s.caches hd).list with
        | some d => some (s.setCache hd ((s.caches hd).insert d), .got (some d))
        | none =>
            if readsThrough hd then some (s.setLocked hd true, .reading hd key)
            else some (s, .got none)
  | .reading hd key =>
      some (s, .inserting hd
        (if reached then DeviceCollection.findOne J s.table key else none))
  | .inserting hd (some newItem) =>
      some ((s.setCache hd ((s.caches hd).insert newItem)).setLocked hd false,
        .got (some newItem))
  | .inserting hd none => some (s.setLocked hd false, .got none)
  | .admin op =>
      if reached then
        match op.write s.table with
        | some t => some (s.write t, .removing (s.earlier.length + 1) op handlers)
        | none => some (s, .refused)
      else some (s, .refused)
  | .removing since op (hd :: rest) =>
      if s.locked hd then none
      else some (s.setCache hd ((s.caches hd).remove op.device), .removing since op rest)
  | .got _ | .removing _ _ [] | .refused => none

/-- A task that has not taken an action yet. -/
def Task.Fresh : Task H → Prop
  | .get _ _ | .admin _ => True
  | _ => False

/-- No lock is taken, and look-ups and requests are about to start. Whatever is cached and
stored is arbitrary. -/
structure Init (c : Config (State h H) (Task H)) : Prop where
  unlocked : ∀ hd, c.shared.locked hd = false
  fresh : ∀ t ∈ c.tasks, t.Fresh

/-! ### What an action does -/

/-- A table has a device. -/
def InTable (t : DeviceTable) (d : Device) : Prop :=
  ∃ doc ∈ t.docs, DeviceCollection.bson2Obj J doc = d

/-- The actions one by one. -/
inductive Act (s : State h H) : Task H → State h H → Task H → Prop where
  | hit {hd : H} {key d : Device} (hd_mem : d ∈ (s.caches hd).list) :
      Act s (.get hd key) (s.setCache hd ((s.caches hd).insert d)) (.got (some d))
  | miss {hd : H} {key : Device} (hfree : s.locked hd = false) :
      Act s (.get hd key) (s.setLocked hd true) (.reading hd key)
  | noFunction {hd : H} {key : Device} : Act s (.get hd key) s (.got none)
  | read {hd : H} {key : Device} {newItem : Option Device}
      (hread : ∀ d ∈ newItem, InTable J s.table d) :
      Act s (.reading hd key) s (.inserting hd newItem)
  | insert {hd : H} {d : Device} :
      Act s (.inserting hd (some d))
        ((s.setCache hd ((s.caches hd).insert d)).setLocked hd false) (.got (some d))
  | nothing {hd : H} : Act s (.inserting hd none) (s.setLocked hd false) (.got none)
  | write {op : AdminOp} {t : DeviceTable} (hwrite : op.write s.table = some t) :
      Act s (.admin op) (s.write t) (.removing (s.earlier.length + 1) op handlers)
  | refuse {op : AdminOp} : Act s (.admin op) s .refused
  | remove {since : ℕ} {op : AdminOp} {hd : H} {rest : List H} (hfree : s.locked hd = false) :
      Act s (.removing since op (hd :: rest))
        (s.setCache hd ((s.caches hd).remove op.device)) (.removing since op rest)

variable {J handlers readsThrough} {s s' : State h H} {t t' : Task H} {reached : Bool}

lemma inTable_of_findOne {table : DeviceTable} {key d : Device}
    (hd : DeviceCollection.findOne J table key = some d) : InTable J table d := by
  obtain ⟨doc, hdoc, -, rfl⟩ := DeviceCollection.findOne_eq_some J hd
  exact ⟨doc, hdoc, rfl⟩

/-- There are no others. -/
lemma act_of_prog (hact : prog J handlers readsThrough reached s t = some (s', t')) :
    Act J handlers s t s' t' := by
  cases t with
  | get hd key =>
      simp only [prog] at hact
      split at hact
      · cases hact
      · next hfree =>
          split at hact
          · next d hfind =>
              cases hact
              exact .hit (BoundedSeq.mem_of_find hfind).1
          · split at hact
            · cases hact
              exact .miss (by simpa using hfree)
            · cases hact
              exact .noFunction
  | reading hd key =>
      cases hact
      refine .read fun d hd => ?_
      split at hd
      · exact inTable_of_findOne hd
      · cases hd
  | inserting hd newItem =>
      cases newItem with
      | none =>
          cases hact
          exact .nothing
      | some d =>
          cases hact
          exact .insert
  | admin op =>
      simp only [prog] at hact
      split at hact
      · split at hact
        · next t hwrite =>
            cases hact
            exact .write hwrite
        · cases hact
          exact .refuse
      · cases hact
        exact .refuse
  | removing since op rest =>
      cases rest with
      | nil => cases hact
      | cons hd rest =>
          simp only [prog] at hact
          split at hact
          · cases hact
          · next hfree =>
              cases hact
              exact .remove (by simpa using hfree)
  | got item => cases hact
  | refused => cases hact

/-! ### The lock of a cache -/

/-- Whether a task is in the critical section of a handler's cache. -/
def Task.holds (hd : H) : Task H → Bool
  | .reading hd' _ | .inserting hd' _ => hd' = hd
  | _ => false

/-- The tasks in the critical section of a cache are as many as its lock says. -/
def Locking (c : Config (State h H) (Task H)) : Prop :=
  ∀ hd, (c.tasks.map fun t => (t.holds hd).toNat).sum = (c.shared.locked hd).toNat

@[simp] lemma locked_setCache (hd : H) (k : Cache h) : (s.setCache hd k).locked = s.locked := rfl

@[simp] lemma table_setLocked (hd : H) (b : Bool) : (s.setLocked hd b).table = s.table := rfl

@[simp] lemma caches_setLocked (hd : H) (b : Bool) : (s.setLocked hd b).caches = s.caches := rfl

omit [DecidableEq H] in
@[simp] lemma locked_write (t : DeviceTable) : (s.write t).locked = s.locked := rfl

omit [DecidableEq H] in
@[simp] lemma caches_write (t : DeviceTable) : (s.write t).caches = s.caches := rfl

@[simp] lemma caches_setCache (hd hd' : H) (k : Cache h) :
    (s.setCache hd k).caches hd' = if hd' = hd then k else s.caches hd' := by
  by_cases hh : hd' = hd
  · subst hh
    simp [State.setCache]
  · simp [State.setCache, hh]

@[simp] lemma locked_setLocked (hd hd' : H) (b : Bool) :
    (s.setLocked hd b).locked hd' = if hd' = hd then b else s.locked hd' := by
  by_cases hh : hd' = hd
  · subst hh
    simp [State.setLocked]
  · simp [State.setLocked, hh]

/-- A lock is taken by the task that enters and given back by the one that leaves. -/
lemma Act.holds {s s' : State h H} {t t' : Task H} (hact : Act J handlers s t s' t')
    (hlock : ∀ hd, t.holds hd → s.locked hd) (hd : H) :
    (s'.locked hd).toNat + (t.holds hd).toNat = (s.locked hd).toNat + (t'.holds hd).toNat := by
  cases hact with
  | @miss hd' key hfree =>
      by_cases hh : hd = hd'
      · subst hh
        simp [Task.holds, hfree]
      · simp [Task.holds, hh, Ne.symm hh]
  | @insert hd' d =>
      have hl := hlock hd'
      by_cases hh : hd = hd'
      · subst hh
        simp_all [Task.holds]
      · simp [Task.holds, hh, Ne.symm hh]
  | @nothing hd' =>
      have hl := hlock hd'
      by_cases hh : hd = hd'
      · subst hh
        simp_all [Task.holds]
      · simp [Task.holds, hh, Ne.symm hh]
  | hit | noFunction | read | write | refuse | remove => simp [Task.holds]

lemma Locking.locked_of_holds {c : Config (State h H) (Task H)} (hc : Locking c) {t : Task H}
    (ht : t ∈ c.tasks) (hd : H) (hh : t.holds hd) : c.shared.locked hd := by
  have hpos : 0 < c.tasks.countP (Task.holds hd) := List.countP_pos_iff.mpr ⟨t, ht, hh⟩
  have hle := countP_le_sum (p := Task.holds hd) (w := fun t => (t.holds hd).toNat)
    (fun t ht => by simp [ht]) c.tasks
  rw [hc hd] at hle
  cases hl : c.shared.locked hd with
  | true => rfl
  | false =>
      simp only [hl, Bool.toNat_false] at hle
      omega

/-- The steps of the look-ups and the requests. -/
abbrev DeviceStep (J : JsonText) (handlers : List H) (readsThrough : H → Bool) :
    Config (State h H) (Task H) → Config (State h H) (Task H) → Prop :=
  Step (prog J handlers readsThrough) fun _ _ _ => True

lemma Locking.step {c c' : Config (State h H) (Task H)}
    (hs : DeviceStep J handlers readsThrough c c') (hc : Locking c) : Locking c' := by
  intro hd
  refine Step.sum_eq (f := fun s => (s.locked hd).toNat) (fun o t s' t' ht hact => ?_) hs (hc hd)
  exact (act_of_prog hact).holds (fun hd hh => hc.locked_of_holds ht hd hh) hd

/-! ### What a step does -/

/-- A device is in the cache of a handler, or is about to be inserted. -/
def Incoming (c : Config (State h H) (Task H)) (hd : H) (d : Device) : Prop :=
  d ∈ (c.shared.caches hd).list ∨ .inserting hd (some d) ∈ c.tasks

/-- What an action brings into a cache was cached or read before, or is read now. -/
lemma Act.incoming (hact : Act J handlers s t s' t') {hd : H} {d : Device}
    (hd' : d ∈ (s'.caches hd).list ∨ t' = .inserting hd (some d)) :
    d ∈ (s.caches hd).list ∨ t = .inserting hd (some d) ∨ InTable J s.table d := by
  cases hact with
  | @hit hd₁ key e he =>
      simp only [caches_setCache, reduceCtorEq, or_false] at hd'
      split at hd'
      · next heq =>
          subst heq
          rcases Cache.eq_or_mem_of_mem_insert hd' with rfl | hmem
          · exact .inl he
          · exact .inl hmem
      · exact .inl hd'
  | @read hd₁ key newItem hread =>
      rcases hd' with hmem | heq
      · exact .inl hmem
      · cases heq
        exact .inr (.inr (hread d rfl))
  | @insert hd₁ e =>
      simp only [caches_setLocked, caches_setCache, reduceCtorEq, or_false] at hd'
      split at hd'
      · next heq =>
          subst heq
          rcases Cache.eq_or_mem_of_mem_insert hd' with rfl | hmem
          · exact .inr (.inl rfl)
          · exact .inl hmem
      · exact .inl hd'
  | @remove since op hd₁ rest hfree =>
      simp only [caches_setCache, reduceCtorEq, or_false] at hd'
      split at hd'
      · next heq =>
          subst heq
          exact .inl (Cache.not_collide_of_mem_remove hd').1
      · exact .inl hd'
  | miss | noFunction | nothing | write | refuse => exact .inl (by simpa using hd')

/-- What is new in a cache was read from the table just now. -/
lemma DeviceStep.incoming {c c' : Config (State h H) (Task H)}
    (hs : DeviceStep J handlers readsThrough c c') {hd : H} {d : Device}
    (hd' : Incoming c' hd d) : Incoming c hd d ∨ InTable J c.shared.table d := by
  cases hs with
  | @act i o t t' s' hget _ hrun =>
      have ht := List.mem_of_getElem? hget
      have hnew : d ∈ (s'.caches hd).list ∨ t' = .inserting hd (some d) ∨
          .inserting hd (some d) ∈ c.tasks := by
        rcases hd' with hmem | hmem
        · exact .inl hmem
        · rcases List.mem_or_eq_of_mem_set hmem with hmem | heq
          · exact .inr (.inr hmem)
          · exact .inr (.inl heq.symm)
      rcases or_assoc.mpr hnew with hact | hmem
      · rcases (act_of_prog hrun).incoming hact with hmem | rfl | hin
        · exact .inl (.inl hmem)
        · exact .inl (.inr ht)
        · exact .inr hin
      · exact .inl (.inr hmem)

/-- A request on its way through the caches was there before the step, or has just removed
its device from one more cache, or has just written. -/
lemma DeviceStep.removing {c c' : Config (State h H) (Task H)}
    (hs : DeviceStep J handlers readsThrough c c') (hc : Locking c) {since : ℕ}
    {op : AdminOp} {rest : List H} (hmem : .removing since op rest ∈ c'.tasks) :
    .removing since op rest ∈ c.tasks ∨
    (∃ hd, .removing since op (hd :: rest) ∈ c.tasks ∧
      ∀ d, Incoming c' hd d → ¬ Device.collide h d op.device) ∨
    (rest = handlers ∧ since = c'.shared.earlier.length ∧
      op.write c.shared.table = some c'.shared.table) := by
  have hc' := hc.step hs
  cases hs with
  | @act i o t t' s' hget _ hrun =>
      have ht := List.mem_of_getElem? hget
      rcases List.mem_or_eq_of_mem_set hmem with hmem | rfl
      · exact .inl hmem
      · have hact := act_of_prog hrun
        cases hact with
        | write hwrite =>
            refine .inr (.inr ⟨rfl, ?_, hwrite⟩)
            simp [State.write, State.history]
        | @remove _ _ hd _ hfree =>
            refine .inr (.inl ⟨hd, ht, fun d hd' => ?_⟩)
            rcases hd' with hmem | hmem
            · simp only [caches_setCache, if_true] at hmem
              exact (Cache.not_collide_of_mem_remove hmem).2
            · have hlocked := hc'.locked_of_holds hmem hd (by simp [Task.holds])
              simp [hfree] at hlocked

/-- The tables that were there stay in the history. -/
lemma DeviceStep.history {c c' : Config (State h H) (Task H)}
    (hs : DeviceStep J handlers readsThrough c c') :
    c.shared.history <+: c'.shared.history := by
  cases hs with
  | @act i o t t' s' hget _ hrun =>
      cases act_of_prog hrun with
      | @write op t hwrite => exact List.prefix_append _ _
      | hit | miss | noFunction | read | insert | nothing | refuse | remove =>
          exact List.prefix_refl _

/-! ### Behind a completed request -/

/-- Some table since a time has the device. -/
def StoredSince (J : JsonText) (s : State h H) (since : ℕ) (d : Device) : Prop :=
  ∃ t ∈ s.history.drop since, InTable J t d

/-- A request that has written, seen from the caches it has passed. -/
structure Behind (J : JsonText) (handlers : List H) (c : Config (State h H) (Task H))
    (since : ℕ) (op : AdminOp) (rest : List H) : Prop where
  since_le : since ≤ c.shared.earlier.length
  written : ∃ before after, op.write before = some after ∧ c.shared.history[since]? = some after
  fresh : ∀ hd ∈ handlers, hd ∉ rest → ∀ d, Incoming c hd d →
    Device.collide h d op.device → StoredSince J c.shared since d

/-- The locks agree with the tasks, and no request has an old device behind it. -/
structure Inv (J : JsonText) (handlers : List H) (c : Config (State h H) (Task H)) : Prop where
  locking : Locking c
  behind : ∀ since op rest, .removing since op rest ∈ c.tasks →
    Behind J handlers c since op rest

omit [DecidableEq H] in
lemma StoredSince.mono {since : ℕ} {d : Device} (hs : s.history <+: s'.history)
    (hd : StoredSince J s since d) : StoredSince J s' since d := by
  obtain ⟨t, ht, hin⟩ := hd
  exact ⟨t, (hs.drop since).subset ht, hin⟩

omit [DecidableEq H] in
/-- What is read now is stored since any time that has come. -/
lemma StoredSince.of_inTable {since : ℕ} {d : Device} (hle : since ≤ s.earlier.length)
    (hd : InTable J s.table d) : StoredSince J s since d := by
  refine ⟨s.table, ?_, hd⟩
  rw [State.history, List.drop_append_of_le_length hle]
  exact List.mem_append_right _ (List.mem_singleton_self _)

lemma DeviceStep.earlier_le {c c' : Config (State h H) (Task H)}
    (hs : DeviceStep J handlers readsThrough c c') :
    c.shared.earlier.length ≤ c'.shared.earlier.length := by
  have hle := hs.history.length_le
  simp only [State.history, List.length_append, List.length_singleton] at hle
  omega

/-- What a step brings into the caches that are passed is fresh. -/
lemma Behind.step {c c' : Config (State h H) (Task H)}
    (hs : DeviceStep J handlers readsThrough c c') {since : ℕ} {op : AdminOp} {rest : List H}
    (hb : Behind J handlers c since op rest) : Behind J handlers c' since op rest where
  since_le := hb.since_le.trans hs.earlier_le
  written := by
    obtain ⟨before, after, hwrite, hget⟩ := hb.written
    obtain ⟨later, hlater⟩ := hs.history
    refine ⟨before, after, hwrite, ?_⟩
    rw [← hlater, List.getElem?_append_left (List.getElem?_eq_some_iff.mp hget).1, hget]
  fresh := by
    intro hd hhd hrest d hd' hcol
    rcases hs.incoming hd' with hin | hin
    · exact (hb.fresh hd hhd hrest d hin hcol).mono hs.history
    · exact (StoredSince.of_inTable hb.since_le hin).mono hs.history

theorem Inv.step {c c' : Config (State h H) (Task H)}
    (hs : DeviceStep J handlers readsThrough c c') (hc : Inv J handlers c) :
    Inv J handlers c' where
  locking := hc.locking.step hs
  behind := by
    intro since op rest hmem
    rcases hs.removing hc.locking hmem with hold | ⟨hd, hold, hnone⟩ | ⟨rfl, hsince, hwrite⟩
    · exact (hc.behind since op rest hold).step hs
    · -- one cache more is passed, and nothing there is taken for the device
      have hb := (hc.behind since op _ hold).step hs
      refine ⟨hb.since_le, hb.written, fun hd' hhd' hrest d hin hcol => ?_⟩
      by_cases heq : hd' = hd
      · subst heq
        exact absurd hcol (hnone d hin)
      · exact hb.fresh hd' hhd' (by simp [heq, hrest]) d hin hcol
    · -- no cache is passed yet
      refine ⟨hsince.le, ⟨_, _, hwrite, ?_⟩, fun hd hhd hrest => absurd hhd hrest⟩
      simp [State.history, hsince]

theorem Inv.init {c : Config (State h H) (Task H)} (hc : Init c) : Inv J handlers c where
  locking := by
    intro hd
    rw [hc.unlocked hd, Bool.toNat_false, List.sum_eq_zero]
    intro n hn
    obtain ⟨t, ht, rfl⟩ := List.mem_map.mp hn
    cases t with
    | get | admin => rfl
    | reading | inserting | got | removing | refused => exact (hc.fresh _ ht).elim
  behind := fun since op rest hmem => (hc.fresh _ hmem).elim

/-- What is taken for the device of a completed request was stored since its write. -/
lemma behind_of_run {c c' : Config (State h H) (Task H)} (hc : Init c)
    (hrun : Run (prog J handlers readsThrough) (fun _ _ _ => True) c c') {since : ℕ}
    {op : AdminOp} {rest : List H} (hmem : .removing since op rest ∈ c'.tasks) :
    Behind J handlers c' since op rest :=
  (Run.invariant (I := Inv J handlers) (fun _ _ hi hs => Inv.step hs hi) (Inv.init hc)
    hrun).behind since op rest hmem

/-- **No stale device**: in every interleaving of look-ups and requests, once a request that
deletes or changes a device is completed, a cached device that equals it and has its hash
value was stored at a time when the request had written. The old version is in no cache. (If the
request is a DELETE and no other has written since, no device with its key is in one:
`not_cached_of_deleted`.) -/
theorem noStaleDevice (J : JsonText) (handlers : List H) (readsThrough : H → Bool)
    {c c' : Config (State h H) (Task H)} (hc : Init c)
    (hrun : Run (prog J handlers readsThrough) (fun _ _ _ => True) c c') {since : ℕ}
    {op : AdminOp} (hdone : .removing since op [] ∈ c'.tasks) :
    (∃ before after, op.write before = some after ∧ c'.shared.history[since]? = some after) ∧
    ∀ hd ∈ handlers, ∀ d ∈ (c'.shared.caches hd).list, Device.Equal d op.device →
      d.hashValue h = op.device.hashValue h → StoredSince J c'.shared since d := by
  have hb := behind_of_run hc hrun hdone
  refine ⟨hb.written, fun hd hhd d hd' hequal hhash => ?_⟩
  refine hb.fresh hd hhd List.not_mem_nil d (.inl hd') ⟨?_, hequal⟩
  rw [Device.bucket, Device.bucket, hhash]

/-- A device that is looked up, changed and looked up again. -/
def ofEndpoint (endpoint : String) : Doc :=
  [(StoreTypes.deviceId, .str "d1"), (StoreTypes.service, .str "service"),
    (StoreTypes.servicePath, .str "/"), (StoreTypes.endpoint, .str endpoint)]

def lookUpsAndPut : Config (State ⟨fun n s => n + s.length, fun n => n⟩ Unit) (Task Unit) where
  shared := {
    earlier := []
    table := ⟨[ofEndpoint "before"], by decide⟩
    caches := fun _ => Cache.empty Types.maxSizeCache false
    locked := fun _ => false }
  tasks := [.get () { Device.ofName "d1" "service" with servicePath := "/" },
    .admin (.put "service" "/" "d1" "" [(StoreTypes.endpoint, .str "after")]),
    .get () { Device.ofName "d1" "service" with servicePath := "/" }]

/-- The first look-up reads before the write and inserts behind it. -/
def afterPut : Config (State ⟨fun n s => n + s.length, fun n => n⟩ Unit) (Task Unit) :=
  (exec (prog ⟨fun _ => "", fun _ => none⟩ [()] fun _ => true) (fun _ _ _ => True)
    ([0, 0, 1, 0, 1, 2, 2, 2].map fun i => (true, i)) lookUpsAndPut).get (by decide +kernel)

lemma init_lookUpsAndPut : Init lookUpsAndPut where
  unlocked := fun _ => rfl
  fresh := by
    intro t ht
    simp only [lookUpsAndPut, List.mem_cons, List.not_mem_nil, or_false] at ht
    rcases ht with rfl | rfl | rfl <;> trivial

theorem noStaleDevice_afterPut :
    (∃ d ∈ (afterPut.shared.caches ()).list, d.endpoint = "after") ∧
    ∀ d ∈ (afterPut.shared.caches ()).list, Device.Equal d (Device.ofName "d1" "service") →
      d.servicePath = "/" → StoredSince ⟨fun _ => "", fun _ => none⟩ afterPut.shared 1 d := by
  have hdone : .removing 1 (.put "service" "/" "d1" "" [(StoreTypes.endpoint, .str "after")]) [] ∈
      afterPut.tasks := by decide +kernel
  have hfresh := (noStaleDevice ⟨fun _ => "", fun _ => none⟩ [()] (fun _ => true)
    init_lookUpsAndPut (run_of_exec (Option.some_get _).symm) hdone).2
  refine ⟨by decide +kernel, fun d hd hequal hpath => ?_⟩
  refine hfresh () (List.mem_singleton_self _) d hd hequal ?_
  rw [Device.hashValue, hequal.1, hequal.2, hpath]
  rfl

/-! ### A deleted device -/

lemma sameKey_of_matches {service servicePath idDevice : String} {doc : Doc}
    (hkey : Device.SameKey (DeviceCollection.bson2Obj J doc)
      (AdminOp.delete service servicePath idDevice).device) :
    Matches (deleteQuery service servicePath idDevice) doc := by
  obtain ⟨hname, hservice, hpath⟩ := hkey
  simp only [deleteQuery, matches_append, matches_opt]
  exact ⟨⟨fun hne => (Doc.getStringField_eq_iff hne).mp hname,
    fun hne => (Doc.getStringField_eq_iff hne).mp hservice⟩,
    fun hne => (Doc.getStringField_eq_iff hne).mp hpath⟩

/-- Behind a completed DELETE that wrote last no cache holds a device with its key, whatever
the hash function. -/
theorem not_cached_of_deleted {c c' : Config (State h H) (Task H)} (hc : Init c)
    (hrun : Run (prog J handlers readsThrough) (fun _ _ _ => True) c c') {since : ℕ}
    {service servicePath idDevice : String}
    (hdone : .removing since (.delete service servicePath idDevice) [] ∈ c'.tasks)
    (hlast : since = c'.shared.earlier.length) {hd : H} (hhd : hd ∈ handlers) {d : Device}
    (hd' : d ∈ (c'.shared.caches hd).list) :
    ¬ Device.SameKey d (AdminOp.delete service servicePath idDevice).device := by
  intro hkey
  have hb := behind_of_run hc hrun hdone
  obtain ⟨t, ht, doc, hdoc, rfl⟩ := hb.fresh hd hhd List.not_mem_nil d (.inl hd')
    ⟨hkey.bucket_eq, hkey.1, hkey.2.1⟩
  obtain ⟨before, after, hwrite, hget⟩ := hb.written
  -- the table is still the one that the request wrote
  have hafter : after = c'.shared.table := by simpa [State.history, hlast] using hget.symm
  have htable : t = c'.shared.table := by simpa [State.history, hlast] using ht
  obtain rfl : (before.remove (deleteQuery service servicePath idDevice)).1 = after := by
    simpa [AdminOp.write] using hwrite
  rw [htable, ← hafter, Table.docs_remove, List.mem_filter] at hdoc
  exact absurd (sameKey_of_matches hkey) (by simpa using hdoc.2)

/-! ### A look-up alone -/

/-- The actions of a look-up that nothing interrupts are `Cache::get`. -/
theorem run_get (J : JsonText) (handlers : List H) (readsThrough : H → Bool) (s : State h H)
    {hd : H} (key : Device) (hfree : s.locked hd = false) :
    ∃ s', Run (prog J handlers readsThrough) (fun _ _ _ => True) ⟨s, [.get hd key]⟩
      ⟨s', [.got ((s.caches hd).get (if readsThrough hd then
        some fun item => DeviceCollection.findOne J s.table item else none) key).2]⟩ ∧
      s'.caches hd = ((s.caches hd).get (if readsThrough hd then
        some fun item => DeviceCollection.findOne J s.table item else none) key).1 := by
  cases hfind : BoundedSeq.find (Device.collide h) key (s.caches hd).list with
  | some d =>
      refine ⟨s.setCache hd ((s.caches hd).insert d), Run.alone (o := true) ?_ .refl, ?_⟩
      · simp [prog, hfree, hfind, Cache.get, Cache.readThrough]
      · simp [Cache.get, Cache.readThrough, hfind]
  | none =>
      by_cases hr : readsThrough hd
      · have henter : prog J handlers readsThrough true s (.get hd key) =
            some (s.setLocked hd true, .reading hd key) := by simp [prog, hfree, hfind, hr]
        cases hread : DeviceCollection.findOne J s.table key with
        | none =>
            have hreading : prog J handlers readsThrough true (s.setLocked hd true)
                (.reading hd key) = some (s.setLocked hd true, .inserting hd none) := by
              simp [prog, hread]
            refine ⟨(s.setLocked hd true).setLocked hd false, Run.alone henter
              (Run.alone hreading (Run.alone (o := true) ?_ .refl)), ?_⟩
            · simp [prog, Cache.get, Cache.readThrough, hfind, hr, hread]
            · simp [Cache.get, Cache.readThrough, hfind, hr, hread]
        | some d =>
            have hreading : prog J handlers readsThrough true (s.setLocked hd true)
                (.reading hd key) = some (s.setLocked hd true, .inserting hd (some d)) := by
              simp [prog, hread]
            refine ⟨((s.setLocked hd true).setCache hd ((s.caches hd).insert d)).setLocked hd
              false, Run.alone henter (Run.alone hreading (Run.alone (o := true) ?_ .refl)), ?_⟩
            · simp [prog, Cache.get, Cache.readThrough, hfind, hr, hread]
            · simp [Cache.get, Cache.readThrough, hfind, hr, hread]
      · refine ⟨s, Run.alone (o := true) ?_ .refl, ?_⟩
        · simp [prog, hfree, hfind, hr, Cache.get, Cache.readThrough]
        · simp [Cache.get, Cache.readThrough, hfind, hr]

end DeviceCaches

end IotAgent
