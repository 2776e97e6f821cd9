import IotAgent.Lib.Runs
import Mathlib.Data.List.Perm.Subperm

/-!
The connections to the database (`src/util/mongo_connection.cc`, and the constructors and the
destructor of `src/util/collection.cc`).

A `Collection` takes a connection out of the pool when it is made and gives it back at its end. A
pool without a connection makes a new one. To reconnect deletes what is in the pool and fills it
anew; what is held by collections meanwhile comes back later. The queue behind the pool takes in
every connection for which there is memory.

* `MongoConnection`: the pool, the connections that are held, and those that were deleted;
* `reconnect`, `conn`, `done`: the operations, and `step`: what collections do with them;
* `PoolSafe`: one holder for a connection, none deleted in the pool, never more than the pool
  size, and nothing old handed out;
* `exclusive_run`: the first two hold in all runs;
* `poolSafe_iff`: the runs in which all of them hold.
-/

namespace IotAgent

/-- The connections, numbered as they are made. `held` has one for each `Collection`, and `since`
is the number of those that were made before the last reconnect. -/
structure MongoConnection where
  pool : List ℕ := []
  held : List ℕ := []
  deleted : List ℕ := []
  next : ℕ := 0
  since : ℕ := 0
  deriving DecidableEq

/-- What is done with the pool. `creates` says whether a connection can be made, `pushes` whether
there is memory for it in the queue. A `Collection` is named by its place. -/
inductive PoolAction where
  | reconnect (configured : Bool) (creates pushes : ℕ → Bool)
  | construct (creates : Bool)
  | destruct (collection : ℕ) (pushes : Bool)

namespace MongoConnection

/-- The loop that deletes what is in the pool. -/
def removeOld (s : MongoConnection) : MongoConnection :=
  { s with pool := [], deleted := s.deleted ++ s.pool, since := s.next }

/-- The loop that fills the pool, with as many rounds to go. An exception of the database ends it,
and so does a push that fails, after which the new connection is lost. -/
def refill (creates pushes : ℕ → Bool) : ℕ → MongoConnection → MongoConnection
  | 0, s => s
  | rounds + 1, s =>
      if creates rounds then
        if pushes rounds then
          refill creates pushes rounds { s with pool := s.pool ++ [s.next], next := s.next + 1 }
        else { s with next := s.next + 1 }
      else s

/-- `reconnect`. Without a storage of type mongodb the pool stays empty. -/
def reconnect (poolSize : ℕ) (s : MongoConnection) (configured : Bool)
    (creates pushes : ℕ → Bool) : MongoConnection :=
  if configured then refill creates pushes poolSize (removeOld s) else removeOld s

/-- `conn`. Without a connection in the pool one is made, or there is an exception. -/
def conn (s : MongoConnection) (creates : Bool) : MongoConnection × Option ℕ :=
  match s.pool with
  | conexion :: pool => ({ s with pool }, some conexion)
  | [] => if creates then ({ s with next := s.next + 1 }, some s.next) else (s, none)

/-- `done`. A connection for which there is no memory is neither kept nor deleted. -/
def done (s : MongoConnection) (conexion : ℕ) (pushes : Bool) : MongoConnection :=
  if pushes then { s with pool := s.pool ++ [conexion] } else s

/-- The constructors of `Collection`. -/
def construct (s : MongoConnection) (creates : Bool) : MongoConnection :=
  match conn s creates with
  | (s, some conexion) => { s with held := s.held ++ [conexion] }
  | (s, none) => s

/-- The destructor of `Collection`. -/
def destruct (s : MongoConnection) (collection : ℕ) (pushes : Bool) : MongoConnection :=
  match s.held[collection]? with
  | some conexion => done { s with held := s.held.eraseIdx collection } conexion pushes
  | none => s

/-- One operation; each is done under the lock. -/
def step (poolSize : ℕ) (s : MongoConnection) : PoolAction → MongoConnection
  | .reconnect configured creates pushes => reconnect poolSize s configured creates pushes
  | .construct creates => construct s creates
  | .destruct collection pushes => destruct s collection pushes

/-- The state after some operations, the first of which is the `reconnect` of the constructor. -/
abbrev after (poolSize : ℕ) (actions : List PoolAction) : MongoConnection :=
  Run.run (step poolSize) {} actions

/-! ### What is wanted of the pool -/

/-- A connection that is handed out was made since the last reconnect. -/
def HandsOutFresh (s : MongoConnection) : PoolAction → Prop
  | .construct creates => ∀ conexion, (conn s creates).2 = some conexion → s.since ≤ conexion
  | _ => True

/-- A connection has one holder, none in the pool is deleted, the pool has its size at most, and
what is handed out was made since the last reconnect. -/
structure PoolSafe (poolSize : ℕ) (actions : List PoolAction) : Prop where
  oneHolder : ∀ n, (after poolSize (actions.take n)).held.Nodup
  notDeleted : ∀ n, ∀ conexion ∈ (after poolSize (actions.take n)).pool,
    conexion ∉ (after poolSize (actions.take n)).deleted
  bounded : ∀ n, (after poolSize (actions.take n)).pool.length ≤ poolSize
  fresh : Run.Always (step poolSize) HandsOutFresh {} actions

/-- A connection that is given back finds room in the pool. -/
def FindsRoom (poolSize : ℕ) (s : MongoConnection) : PoolAction → Prop
  | .destruct collection true => collection < s.held.length → s.pool.length < poolSize
  | _ => True

/-- How many collections are made up to the next reconnect. -/
def constructed : List PoolAction → ℕ
  | [] => 0
  | .construct _ :: actions => constructed actions + 1
  | .destruct _ _ :: actions => constructed actions
  | .reconnect _ _ _ :: _ => 0

/-- An old connection is given back. -/
def GivesBackOld (s : MongoConnection) (a : PoolAction) : Prop :=
  ∃ collection conexion, a = .destruct collection true ∧ s.held[collection]? = some conexion ∧
    conexion < s.since

/-- Behind an old connection that is given back no more collections are made, up to the next
reconnect, than there are connections before it in the pool. -/
def OldStayPooled (poolSize : ℕ) (s : MongoConnection) : List PoolAction → Prop
  | [] => True
  | a :: actions =>
      (GivesBackOld s a → constructed actions ≤ s.pool.length) ∧
        OldStayPooled poolSize (step poolSize s a) actions

/-! ### One holder -/

/-- All connections that are not lost. -/
def all (s : MongoConnection) : List ℕ :=
  s.pool ++ s.held ++ s.deleted

/-- No connection is in two places. -/
structure Exclusive (s : MongoConnection) : Prop where
  nodup : s.all.Nodup
  lt : ∀ conexion ∈ s.all, conexion < s.next

variable {poolSize : ℕ} {s s' : MongoConnection} {creates pushes : ℕ → Bool}
  {actions : List PoolAction}

lemma nodup_of_subperm {l l' : List ℕ} (h : List.Subperm l' l) (hl : l.Nodup) : l'.Nodup := by
  obtain ⟨l'', hperm, hsub⟩ := h
  exact hperm.nodup_iff.mp (hl.sublist hsub)

/-- Connections are moved or lost. -/
lemma Exclusive.of_subperm (hs : Exclusive s) (h : List.Subperm s'.all s.all)
    (hnext : s'.next = s.next) : Exclusive s' where
  nodup := nodup_of_subperm h hs.nodup
  lt conexion hmem := hnext ▸ hs.lt conexion (h.subset hmem)

/-- A new connection is there as well. -/
lemma Exclusive.of_new (hs : Exclusive s) (h : List.Subperm s'.all (s.next :: s.all))
    (hnext : s'.next = s.next + 1) : Exclusive s' where
  nodup := nodup_of_subperm h
    (List.nodup_cons.mpr ⟨fun hmem => Nat.lt_irrefl _ (hs.lt _ hmem), hs.nodup⟩)
  lt conexion hmem := by
    rw [hnext]
    rcases List.mem_cons.mp (h.subset hmem) with rfl | hmem
    · exact Nat.lt_succ_self _
    · exact Nat.lt_succ_of_lt (hs.lt conexion hmem)

lemma exclusive_removeOld (hs : Exclusive s) : Exclusive (removeOld s) := by
  refine hs.of_subperm (List.Perm.subperm ?_) rfl
  rw [List.perm_iff_count]
  intro c
  simp only [all, removeOld, List.count_append, List.count_nil]
  omega

lemma exclusive_refill (rounds : ℕ) (hs : Exclusive s) :
    Exclusive (refill creates pushes rounds s) := by
  induction rounds generalizing s with
  | zero => exact hs
  | succ rounds ih =>
      rw [refill]
      split_ifs
      · refine ih (hs.of_new (List.Perm.subperm ?_) rfl)
        rw [List.perm_iff_count]
        intro c
        simp only [all, List.count_append, List.count_cons, List.count_nil]
        omega
      · exact hs.of_new (List.Sublist.subperm (List.sublist_cons_self _ _)) rfl
      · exact hs

lemma exclusive_reconnect {configured : Bool} (hs : Exclusive s) :
    Exclusive (reconnect poolSize s configured creates pushes) := by
  rw [reconnect]
  split_ifs
  · exact exclusive_refill poolSize (exclusive_removeOld hs)
  · exact exclusive_removeOld hs

lemma exclusive_construct {creates : Bool} (hs : Exclusive s) :
    Exclusive (construct s creates) := by
  rw [construct, conn]
  cases hpool : s.pool with
  | cons conexion pool =>
      refine hs.of_subperm (List.Perm.subperm ?_) rfl
      rw [List.perm_iff_count]
      intro c
      simp only [all, hpool, List.count_append, List.count_cons, List.count_nil]
      omega
  | nil =>
      cases creates with
      | false => exact hs
      | true =>
          refine hs.of_new (List.Perm.subperm ?_) rfl
          rw [List.perm_iff_count]
          intro c
          simp only [all, hpool, if_true, List.count_append, List.count_cons, List.count_nil]
          omega

lemma exclusive_destruct {collection : ℕ} {pushes : Bool} (hs : Exclusive s) :
    Exclusive (destruct s collection pushes) := by
  rw [destruct]
  cases hheld : s.held[collection]? with
  | none => exact hs
  | some conexion =>
      obtain ⟨hlt, rfl⟩ := List.getElem?_eq_some_iff.mp hheld
      have herase := List.perm_iff_count.mp (List.getElem_cons_eraseIdx_perm hlt)
      dsimp only
      rw [done]
      cases pushes with
      | true =>
          refine hs.of_subperm (List.Perm.subperm ?_) rfl
          rw [List.perm_iff_count]
          intro c
          have hc := herase c
          simp only [all, if_true, List.count_append, List.count_cons, List.count_nil] at hc ⊢
          omega
      | false =>
          refine hs.of_subperm (List.Sublist.subperm ?_) rfl
          exact ((List.Sublist.refl _).append (List.eraseIdx_sublist _ _)).append
            (List.Sublist.refl _)

lemma exclusive_step (a : PoolAction) (hs : Exclusive s) : Exclusive (step poolSize s a) := by
  cases a with
  | reconnect configured creates pushes => exact exclusive_reconnect hs
  | construct creates => exact exclusive_construct hs
  | destruct collection pushes => exact exclusive_destruct hs

/-- No connection is in two places, whatever is done. -/
theorem exclusive_run (hs : Exclusive s) : Exclusive (Run.run (step poolSize) s actions) := by
  induction actions generalizing s with
  | nil => exact hs
  | cons a actions ih => exact ih (exclusive_step a hs)

lemma exclusive_start : Exclusive {} :=
  ⟨List.nodup_nil, fun _ h => absurd h List.not_mem_nil⟩

lemma Exclusive.held_nodup (hs : Exclusive s) : s.held.Nodup :=
  (List.nodup_append.mp (List.nodup_append.mp hs.nodup).1).2.1

lemma Exclusive.not_deleted (hs : Exclusive s) {conexion : ℕ} (h : conexion ∈ s.pool) :
    conexion ∉ s.deleted := fun hdeleted =>
  (List.nodup_append.mp hs.nodup).2.2 conexion (List.mem_append_left _ h) conexion hdeleted rfl

/-! ### The size of the pool -/

lemma length_refill_le (rounds : ℕ) :
    (refill creates pushes rounds s).pool.length ≤ s.pool.length + rounds := by
  induction rounds generalizing s with
  | zero => exact Nat.le_refl _
  | succ rounds ih =>
      rw [refill]
      split_ifs
      · refine Nat.le_trans ih ?_
        dsimp only
        rw [List.length_append, List.length_singleton]
        omega
      · exact Nat.le_add_right _ _
      · exact Nat.le_add_right _ _

/-- To reconnect leaves no more than the size in the pool. -/
lemma length_reconnect_le {configured : Bool} :
    (reconnect poolSize s configured creates pushes).pool.length ≤ poolSize := by
  rw [reconnect]
  split_ifs
  · exact Nat.le_trans (length_refill_le _) (Nat.le_of_eq (Nat.zero_add _))
  · exact Nat.zero_le _

/-- A new `Collection` adds nothing to the pool. -/
lemma length_construct_le {creates : Bool} :
    (construct s creates).pool.length ≤ s.pool.length := by
  rw [construct, conn]
  cases hpool : s.pool with
  | cons conexion pool => exact Nat.le_succ _
  | nil =>
      cases creates with
      | true => exact Nat.le_refl _
      | false => exact Nat.le_of_eq (congrArg List.length hpool)

/-- The pool keeps its size exactly if what is given back finds room. -/
lemma length_step_le_iff (a : PoolAction) (hs : s.pool.length ≤ poolSize) :
    (step poolSize s a).pool.length ≤ poolSize ↔ FindsRoom poolSize s a := by
  cases a with
  | reconnect configured creates pushes => exact iff_of_true length_reconnect_le trivial
  | construct creates => exact iff_of_true (Nat.le_trans length_construct_le hs) trivial
  | destruct collection pushes =>
      rw [step, destruct]
      cases hheld : s.held[collection]? with
      | none =>
          refine iff_of_true hs ?_
          cases pushes with
          | true =>
              exact fun hlt => absurd hlt (Nat.not_lt.mpr (List.getElem?_eq_none_iff.mp hheld))
          | false => trivial
      | some conexion =>
          obtain ⟨hlt, -⟩ := List.getElem?_eq_some_iff.mp hheld
          cases pushes with
          | false => exact iff_of_true hs trivial
          | true =>
              dsimp only [done, FindsRoom]
              rw [if_pos rfl, List.length_append, List.length_singleton]
              exact ⟨fun h _ => h, fun h => h hlt⟩

/-! ### Old connections -/

/-- The connections of a pool that were made before the last reconnect are behind more places than
collections are made up to the next one. -/
def OldOutOfReach (pool : List ℕ) (since count : ℕ) : Prop :=
  ∀ n conexion, pool[n]? = some conexion → conexion < since → count ≤ n

variable {pool : List ℕ} {since count conexion : ℕ}

lemma oldOutOfReach_of_new (h : ∀ conexion ∈ pool, since ≤ conexion) :
    OldOutOfReach pool since count := fun _ conexion hget hold =>
  absurd (h conexion (List.mem_of_getElem? hget)) (Nat.not_le.mpr hold)

/-- The first connection is taken. -/
lemma oldOutOfReach_cons : OldOutOfReach (conexion :: pool) since (count + 1) ↔
    since ≤ conexion ∧ OldOutOfReach pool since count := by
  constructor
  · intro h
    refine ⟨Nat.not_lt.mp fun hold => ?_, fun n conexion hget hold => ?_⟩
    · exact absurd (h 0 conexion rfl hold) (Nat.not_succ_le_zero _)
    · exact Nat.le_of_succ_le_succ (h (n + 1) conexion hget hold)
  · rintro ⟨hnew, h⟩ n conexion' hget hold
    cases n with
    | zero =>
        obtain rfl := Option.some.inj hget
        exact absurd hnew (Nat.not_le.mpr hold)
    | succ n => exact Nat.succ_le_succ (h n conexion' hget hold)

/-- A connection is given back behind the others. -/
lemma oldOutOfReach_concat : OldOutOfReach (pool ++ [conexion]) since count ↔
    OldOutOfReach pool since count ∧ (conexion < since → count ≤ pool.length) := by
  constructor
  · refine fun h => ⟨fun n conexion' hget hold => ?_, fun hold => ?_⟩
    · refine h n conexion' ?_ hold
      rw [List.getElem?_append_left (List.getElem?_eq_some_iff.mp hget).1, hget]
    · exact h pool.length conexion List.getElem?_concat_length hold
  · rintro ⟨h, hlast⟩ n conexion' hget hold
    rcases Nat.lt_or_ge n pool.length with hlt | hge
    · rw [List.getElem?_append_left hlt] at hget
      exact h n conexion' hget hold
    · rw [List.getElem?_append_right hge] at hget
      obtain rfl := List.mem_singleton.mp (List.mem_of_getElem? hget)
      exact Nat.le_trans (hlast hold) hge

lemma since_refill (rounds : ℕ) : (refill creates pushes rounds s).since = s.since := by
  induction rounds generalizing s with
  | zero => rfl
  | succ rounds ih =>
      rw [refill]
      split_ifs
      · exact ih
      · rfl
      · rfl

lemma next_le_refill (rounds : ℕ) : s.next ≤ (refill creates pushes rounds s).next := by
  induction rounds generalizing s with
  | zero => exact Nat.le_refl _
  | succ rounds ih =>
      rw [refill]
      split_ifs
      · refine Nat.le_trans ?_ ih
        exact Nat.le_succ _
      · exact Nat.le_succ _
      · exact Nat.le_refl _

/-- What the pool is filled with is new. -/
lemma le_of_mem_refill (rounds : ℕ) (hs : ∀ conexion ∈ s.pool, since ≤ conexion)
    (hnext : since ≤ s.next) :
    ∀ conexion ∈ (refill creates pushes rounds s).pool, since ≤ conexion := by
  induction rounds generalizing s with
  | zero => exact hs
  | succ rounds ih =>
      rw [refill]
      split_ifs
      · refine ih (fun conexion hmem => ?_) (Nat.le_succ_of_le hnext)
        rcases List.mem_append.mp hmem with hmem | hmem
        · exact hs conexion hmem
        · rw [List.mem_singleton.mp hmem]
          exact hnext
      · exact hs
      · exact hs

/-- Behind a reconnect the pool is new. -/
lemma reconnect_spec (poolSize : ℕ) (s : MongoConnection) (configured : Bool)
    (creates pushes : ℕ → Bool) :
    (reconnect poolSize s configured creates pushes).since = s.next ∧
      s.next ≤ (reconnect poolSize s configured creates pushes).next ∧
      ∀ conexion ∈ (reconnect poolSize s configured creates pushes).pool, s.next ≤ conexion := by
  rw [reconnect]
  split_ifs
  · exact ⟨since_refill poolSize, @next_le_refill (removeOld s) creates pushes poolSize,
      le_of_mem_refill poolSize (fun _ h => absurd h List.not_mem_nil) (Nat.le_refl _)⟩
  · exact ⟨rfl, Nat.le_refl _, fun _ h => absurd h List.not_mem_nil⟩

/-- A new `Collection` takes the first connection, or makes one. -/
lemma construct_of_cons (creates : Bool) (hpool : s.pool = conexion :: pool) :
    conn s creates = ({ s with pool }, some conexion) ∧
      construct s creates = { s with pool, held := s.held ++ [conexion] } := by
  have hconn : conn s creates = ({ s with pool }, some conexion) := by
    rw [conn, hpool]
  rw [construct, hconn]
  exact ⟨rfl, rfl⟩

lemma construct_of_nil (creates : Bool) (hpool : s.pool = []) :
    (∀ conexion, (conn s creates).2 = some conexion → conexion = s.next) ∧
      (construct s creates).pool = [] ∧ (construct s creates).since = s.since ∧
      s.next ≤ (construct s creates).next := by
  rw [construct, conn, hpool]
  cases creates with
  | true => exact ⟨fun _ h => (Option.some.inj h).symm, rfl, rfl, Nat.le_succ _⟩
  | false => exact ⟨(fun _ h => by cases h), hpool, rfl, Nat.le_refl _⟩

/-- A `Collection` gives back its connection, or nothing changes but what is held. -/
lemma destruct_cases (s : MongoConnection) (collection : ℕ) (pushes : Bool) :
    (∃ conexion, pushes = true ∧ s.held[collection]? = some conexion ∧
      destruct s collection pushes =
        { s with pool := s.pool ++ [conexion], held := s.held.eraseIdx collection }) ∨
    ((pushes = true → s.held[collection]? = none) ∧
      (destruct s collection pushes).pool = s.pool ∧
      (destruct s collection pushes).since = s.since ∧
      (destruct s collection pushes).next = s.next) := by
  rw [destruct]
  cases hheld : s.held[collection]? with
  | none => exact .inr ⟨fun _ => rfl, rfl, rfl, rfl⟩
  | some conexion =>
      cases pushes with
      | true => exact .inl ⟨conexion, rfl, rfl, rfl⟩
      | false => exact .inr ⟨(fun h => by cases h), rfl, rfl, rfl⟩

lemma since_le_next_step (a : PoolAction) (hs : s.since ≤ s.next) :
    (step poolSize s a).since ≤ (step poolSize s a).next := by
  cases a with
  | reconnect configured creates pushes =>
      obtain ⟨hsince, hnext, -⟩ := reconnect_spec poolSize s configured creates pushes
      rw [step, hsince]
      exact hnext
  | construct creates =>
      rw [step]
      cases hpool : s.pool with
      | cons conexion pool =>
          rw [(construct_of_cons creates hpool).2]
          exact hs
      | nil =>
          obtain ⟨-, -, hsince, hnext⟩ := construct_of_nil creates hpool
          rw [hsince]
          exact Nat.le_trans hs hnext
  | destruct collection pushes =>
      rw [step]
      rcases destruct_cases s collection pushes with ⟨conexion, -, -, heq⟩ | ⟨-, -, hsince, hnext⟩
      · rw [heq]
        exact hs
      · rw [hsince, hnext]
        exact hs

/-- One operation: what is handed out, and the places of the old connections behind it. -/
lemma handsOutFresh_and_iff (a : PoolAction) (hnext : s.since ≤ s.next) :
    (HandsOutFresh s a ∧ OldOutOfReach (step poolSize s a).pool (step poolSize s a).since
        (constructed actions)) ↔
      OldOutOfReach s.pool s.since (constructed (a :: actions)) ∧
        (GivesBackOld s a → constructed actions ≤ s.pool.length) := by
  cases a with
  | reconnect configured creates pushes =>
      obtain ⟨hsince, -, hnew⟩ := reconnect_spec poolSize s configured creates pushes
      refine iff_of_true ⟨trivial, ?_⟩ ⟨fun _ _ _ _ => Nat.zero_le _, ?_⟩
      · rw [step, hsince]
        exact oldOutOfReach_of_new hnew
      · rintro ⟨_, _, h, -⟩
        cases h
  | construct creates =>
      have hno : ¬ GivesBackOld s (.construct creates) := by
        rintro ⟨_, _, h, -⟩
        cases h
      rw [step, constructed, and_iff_left (fun h => absurd h hno)]
      cases hpool : s.pool with
      | cons conexion pool =>
          obtain ⟨hconn, hconstruct⟩ := construct_of_cons creates hpool
          have hfresh : HandsOutFresh s (.construct creates) ↔ s.since ≤ conexion := by
            rw [HandsOutFresh, hconn]
            exact ⟨fun h => h conexion rfl, fun h c hc => Option.some.inj hc ▸ h⟩
          rw [hconstruct, hfresh, oldOutOfReach_cons]
      | nil =>
          obtain ⟨hmade, hpool', -, -⟩ := construct_of_nil creates hpool
          rw [hpool']
          have hempty : ∀ since count, OldOutOfReach [] since count :=
            fun _ _ => oldOutOfReach_of_new fun _ h => absurd h List.not_mem_nil
          exact iff_of_true ⟨fun c hc => hmade c hc ▸ hnext, hempty _ _⟩ (hempty _ _)
  | destruct collection pushes =>
      rw [and_iff_right (by trivial), step, constructed]
      rcases destruct_cases s collection pushes with ⟨conexion, rfl, hheld, heq⟩ |
        ⟨hnone, hpool, hsince, -⟩
      · have hold : GivesBackOld s (.destruct collection true) ↔ conexion < s.since := by
          constructor
          · rintro ⟨_, _, h, hget, hlt⟩
            cases h
            obtain rfl := Option.some.inj (hheld.symm.trans hget)
            exact hlt
          · exact fun hlt => ⟨collection, conexion, rfl, hheld, hlt⟩
        rw [heq, hold, oldOutOfReach_concat]
      · have hno : ¬ GivesBackOld s (.destruct collection pushes) := by
          rintro ⟨_, _, h, hget, -⟩
          cases h
          rw [hnone rfl] at hget
          cases hget
        rw [hpool, hsince, and_iff_left (fun h => absurd h hno)]

/-- Nothing old is handed out exactly if the old connections of the pool are out of reach, and so
are those that are given back. -/
lemma always_handsOutFresh_iff (hnext : s.since ≤ s.next) :
    Run.Always (step poolSize) HandsOutFresh s actions ↔
      OldOutOfReach s.pool s.since (constructed actions) ∧ OldStayPooled poolSize s actions := by
  induction actions generalizing s with
  | nil => exact iff_of_true trivial ⟨fun _ _ _ _ => Nat.zero_le _, trivial⟩
  | cons a actions ih =>
      rw [Run.Always, ih (since_le_next_step a hnext), OldStayPooled, ← and_assoc, ← and_assoc,
        handsOutFresh_and_iff a hnext]

/-- **The pool is as it should be** in every run exactly if every connection that is given back
finds room, and every old one stays behind more connections than collections are made up to the
next reconnect. -/
theorem poolSafe_iff (poolSize : ℕ) (actions : List PoolAction) :
    PoolSafe poolSize actions ↔
      Run.Always (step poolSize) (FindsRoom poolSize) {} actions ∧
        OldStayPooled poolSize {} actions := by
  have hbounded := Run.forall_run_iff (l := actions) (E := fun _ _ => True)
    (J := fun s : MongoConnection => s.pool.length ≤ poolSize) (C := FindsRoom poolSize)
    (fun s a hs _ => length_step_le_iff a hs) (s := {}) (Nat.zero_le _) Run.always_true
  have hfresh : Run.Always (step poolSize) HandsOutFresh {} actions ↔
      OldStayPooled poolSize {} actions := by
    rw [always_handsOutFresh_iff (Nat.le_refl 0)]
    exact and_iff_right (oldOutOfReach_of_new fun _ h => absurd h List.not_mem_nil)
  rw [← hbounded, ← hfresh]
  constructor
  · exact fun h => ⟨h.bounded, h.fresh⟩
  · rintro ⟨hlength, hall⟩
    exact {
      oneHolder := fun n => (exclusive_run exclusive_start).held_nodup
      notDeleted := fun n conexion hmem => (exclusive_run exclusive_start).not_deleted hmem
      bounded := hlength
      fresh := hall }

/-! ### A pool of one connection, and one of two -/

/-- A reconnect with a database that answers. -/
def reconnects : PoolAction :=
  .reconnect true (fun _ => true) fun _ => true

/-- Two collections at once, of which one makes its connection on demand. -/
def onDemand : List PoolAction :=
  [reconnects, .construct true, .construct true, .destruct 0 true, .destruct 0 true]

/-- A connection is held during a reconnect and given back to an empty pool. -/
def acrossReconnect : List PoolAction :=
  [reconnects, .construct true, reconnects, .construct true, .construct true, .destruct 0 true]

/-- Both connections end up in the pool, and the old one is handed out again. -/
theorem not_poolSafe_onDemand :
    ¬ PoolSafe 1 onDemand ∧ ¬ PoolSafe 2 (acrossReconnect ++ [.construct true]) := by
  constructor
  · intro h
    exact absurd (h.bounded 5) (by decide)
  · intro h
    have hfresh : (after 2 acrossReconnect).since ≤ 0 :=
      Run.always_iff.mp h.fresh acrossReconnect (.construct true) [] rfl 0 rfl
    exact absurd hfresh (by decide)

end MongoConnection

end IotAgent
