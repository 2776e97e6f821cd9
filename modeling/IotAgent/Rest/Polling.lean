import IotAgent.Rest.Terminal

/-!
Polls of several agents.

A poll reads the cache of its own agent first and marks what it takes there. It tells the
other agents by a mark in the store, and an agent that has a copy of its own does not look at
that mark.

* `CommandHandle.waitingCopies`: the copies that wait where an agent looks;
* `takeCommands_waits`: what a poll takes is one of them, or stands behind the equal range of its
  key;
* `World.InStep`: the agent of a poll is in step with the store for a command. What waits there
  is recorded, nothing waits any more once the store has the mark, and no copy of the command
  stands behind the equal range;
* `World.Accounted`: a poll that has the command in its result has marked it in the store, or
  is going to;
* `deliveredOnce_act`: a step keeps this, and keeps the command in one result at most, if a
  poll is in step and no other is half way;
* `taken_countP_le_one`: so does a run;
* `taken_twice_twoAgents`: a run with a poll of an agent that has a waiting copy of its own,
  while the store has the mark of another.
-/

namespace IotAgent

open HashIndex Mongo Interleaving

namespace CommandHandle

variable {h : Hashing} (s : CommandHandle h)

/-- The copies that wait in the cache and in the store. -/
def waitingCopies : List Command :=
  (s.asyncCommands.list.map s.asyncCommands.cmd ++
    s.table.docs.map CommandCollection.bson2Obj).filter
      fun c => c.status = Types.readyForRead

variable {s} {o : Order Ptr String} {dev : Device} {service : PTree} {p : Ptr} {c : Command}

lemma mem_waitingCopies : c ∈ s.waitingCopies ↔
    ((∃ p ∈ s.asyncCommands.list, s.asyncCommands.cmd p = c) ∨
      ∃ doc ∈ s.table.docs, CommandCollection.bson2Obj doc = c) ∧
    c.status = Types.readyForRead := by
  simp only [waitingCopies, List.mem_filter, List.mem_append, List.mem_map, decide_eq_true_eq]

/-- A cached command of the key that a poll looks up waits. -/
lemma cmd_mem_waitingCopiesCopies (hp : p ∈ s.asyncCommands.list)
    (hkey : s.asyncCommands.entityKey p = (waitingKey dev service).uniqueEntity) :
    s.asyncCommands.cmd p ∈ s.waitingCopies :=
  mem_waitingCopies.mpr ⟨.inl ⟨p, hp, rfl⟩, Command.status_of_uniqueEntity rfl hkey⟩

/-- A stored command that a poll gets waits. -/
lemma call_mem_waitingCopies (hcall : s.getFunction.call (waitingKey dev service) = some c) :
    c ∈ s.waitingCopies := by
  rw [getFunction] at hcall
  split at hcall
  · obtain ⟨doc, hfirst, rfl⟩ := Option.map_eq_some_iff.mp hcall
    obtain ⟨hdoc, hmatch⟩ := Table.findOne_eq_some hfirst
    obtain ⟨-, -, -, -, -, -, -, hstatus, -, -⟩ :=
      (CommandCollection.matches_obj2BSON rfl rfl doc).mp hmatch
    have hready : Types.readyForRead ≠ intMin := by decide
    exact mem_waitingCopies.mpr ⟨.inr ⟨doc, hdoc, rfl⟩, hstatus hready⟩
  · cases hcall

/-- **What a poll takes**: a copy that waits, or one that stands behind the equal range. -/
theorem takeCommands_waits (hp : p ∈ (s.takeCommands o dev service).2) :
    p < (s.takeCommands o dev service).1.asyncCommands.heap.next ∧
    ((p ∈ s.asyncCommands.behind o (waitingKey dev service) ∧
        ((s.takeCommands o dev service).1.asyncCommands.cmd p).key =
          (s.asyncCommands.cmd p).key) ∨
      ∃ c ∈ s.waitingCopies,
        ((s.takeCommands o dev service).1.asyncCommands.cmd p).key = c.key) := by
  have hext : s.asyncCommands.Extends (s.takeCommands o dev service).1.asyncCommands :=
    CommandCache.getByEntityV_extends
  by_cases hw : s.asyncCommands.walk o (waitingKey dev service) = []
  · cases hcall : s.getFunction.call (waitingKey dev service) with
    | none =>
        have htake : s.takeCommands o dev service = (s, []) := by
          rw [takeCommands, CommandCache.getByEntityV_miss hw, hcall]
        rw [htake] at hp
        cases hp
    | some item =>
        have htake : s.takeCommands o dev service =
            ({ s with asyncCommands :=
                (s.asyncCommands.insertNew (item.setStatus Types.delivered)).1 },
              [s.asyncCommands.heap.next]) := by
          rw [takeCommands, CommandCache.getByEntityV_miss hw, hcall]
        rw [htake, List.mem_singleton] at hp
        subst hp
        rw [htake]
        refine ⟨?_, .inr ⟨item, call_mem_waitingCopies hcall, ?_⟩⟩
        · rw [CommandCache.insertNew_next]
          exact Nat.lt_succ_self _
        · rw [CommandCache.insertNew_cmd_new, Command.key_setStatus]
  · have hres : (s.takeCommands o dev service).2 =
        s.asyncCommands.walk o (waitingKey dev service) := by
      rw [takeCommands, CommandCache.getByEntityV_hit hw]
    rw [hres] at hp
    have hold : p < s.asyncCommands.heap.next :=
      s.asyncCommands.allocated p (CommandCache.walk_subset hp)
    refine ⟨Nat.lt_of_lt_of_le hold hext.next, ?_⟩
    rw [hext.key p hold]
    have hk : ∃ q ∈ s.asyncCommands.list,
        s.asyncCommands.entityKey q = (waitingKey dev service).uniqueEntity := by
      simpa [CommandCache.walk_eq_nil_iff] using hw
    rw [CommandCache.walk_eq hk, List.mem_append, List.mem_filter, Order.mem_order,
      decide_eq_true_eq] at hp
    rcases hp with ⟨hlist, hkey⟩ | hbehind
    · exact .inr ⟨s.asyncCommands.cmd p, cmd_mem_waitingCopiesCopies hlist hkey, rfl⟩
    · exact .inl ⟨hbehind, rfl⟩

/-- The first record of the key is marked. -/
lemma markDelivered_docs (id svc path : String) : (s.markDelivered id svc path).1.table.docs =
    modifyFirst (CommandCollection.recordQuery id svc path) mark s.table.docs := by
  obtain ⟨t, hupdate, hdocs⟩ := Table.update_eq (t := s.table)
    (q := CommandCollection.recordQuery id svc path)
    (status_notMem_index [(StoreTypes.status, .int Types.delivered)] rfl)
  rw [markDelivered, hupdate]
  exact hdocs

@[simp] lemma bson2Obj_mark_id (doc : Doc) :
    (CommandCollection.bson2Obj (mark doc)).id = (CommandCollection.bson2Obj doc).id :=
  Doc.getStringField_congr (Doc.get_set_of_ne _ _ (by decide))

@[simp] lemma bson2Obj_mark_status (doc : Doc) :
    (CommandCollection.bson2Obj (mark doc)).status = Types.delivered :=
  Doc.getIntField_of_get (Doc.get_set_self _ _ _)

lemma matches_recordQuery_mark {id svc path : String} (doc : Doc) :
    Matches (CommandCollection.recordQuery id svc path) (mark doc) ↔
      Matches (CommandCollection.recordQuery id svc path) doc := by
  have hid : (mark doc).get StoreTypes.commandId = doc.get StoreTypes.commandId :=
    Doc.get_set_of_ne _ _ (by decide)
  have hservice : (mark doc).get StoreTypes.service = doc.get StoreTypes.service :=
    Doc.get_set_of_ne _ _ (by decide)
  have hpath : (mark doc).get StoreTypes.servicePath = doc.get StoreTypes.servicePath :=
    Doc.get_set_of_ne _ _ (by decide)
  simp [Matches, CommandCollection.recordQuery, hid, hservice, hpath]

end CommandHandle

namespace World

variable {h : Hashing} {n : ℕ} {w w' : World h n} {i : Fin n} {t t' u : Task n}
  {G : String → String → Option PTree} {o : Order Ptr String} {id : String} {k : Command.Key}

/-! ### Marks in the store -/

/-- The store has a record of the command that does not wait. -/
def MarkedInStore (w : World h n) (id : String) : Prop :=
  ∃ doc ∈ w.table.docs, (CommandCollection.bson2Obj doc).id = id ∧
    (CommandCollection.bson2Obj doc).status ≠ Types.readyForRead

/-- The store has a record that the mark of the command reaches. -/
def HasRecord (w : World h n) (k : Command.Key) : Prop :=
  ∃ doc ∈ w.table.docs, Matches (CommandCollection.recordQuery k.1 k.2.1 k.2.2) doc

instance (w : World h n) (id : String) : Decidable (w.MarkedInStore id) :=
  inferInstanceAs (Decidable (∃ doc ∈ _, _))

instance (w : World h n) (k : Command.Key) : Decidable (w.HasRecord k) :=
  inferInstanceAs (Decidable (∃ doc ∈ _, _))

/-- The store keeps its records and its marks. -/
structure Keeps (w w' : World h n) : Prop where
  record : ∀ k, w.HasRecord k → w'.HasRecord k
  mark : ∀ id, w.MarkedInStore id → w'.MarkedInStore id

/-- New documents take no record and no mark away. -/
lemma keeps_of_subset (hdocs : ∀ doc ∈ w.table.docs, doc ∈ w'.table.docs) : w.Keeps w' where
  record _ := fun ⟨doc, hdoc, hmatch⟩ => ⟨doc, hdocs doc hdoc, hmatch⟩
  mark _ := fun ⟨doc, hdoc, hmarked⟩ => ⟨doc, hdocs doc hdoc, hmarked⟩

lemma keeps_saveInStore {p : Ptr} : w.Keeps (w.update i ((w.agent i).saveInStore p).1) := by
  refine keeps_of_subset fun doc hdoc => ?_
  rw [update_table, CommandHandle.saveInStore]
  split
  · split
    · next table hinsert =>
        rw [Table.insert_docs hinsert]
        exact List.mem_append_left _ hdoc
    · exact hdoc
  · exact hdoc

/-- A mark leaves the marks that are there. -/
lemma keeps_markDelivered {commandId svc path : String} :
    w.Keeps (w.update i ((w.agent i).markDelivered commandId svc path).1) where
  record k hk := by
    rw [HasRecord, update_table, CommandHandle.markDelivered_docs]
    exact (exists_mem_modifyFirst CommandHandle.matches_recordQuery_mark _).mpr hk
  mark id hmarked := by
    obtain ⟨doc, hdoc, hid, hst⟩ := hmarked
    rw [MarkedInStore, update_table, CommandHandle.markDelivered_docs]
    rcases modifyFirst_spec (CommandCollection.recordQuery commandId svc path)
      CommandHandle.mark (w.agent i).table.docs with ⟨-, heq⟩ | ⟨as, e, bs, hdocs, -, -, heq⟩
    · rw [heq]
      exact ⟨doc, hdoc, hid, hst⟩
    · rw [heq]
      have hmem : doc ∈ as ++ e :: bs := hdocs ▸ hdoc
      rw [List.mem_append, List.mem_cons] at hmem
      rcases hmem with hmem | rfl | hmem
      · exact ⟨doc, by simp [hmem], hid, hst⟩
      · exact ⟨CommandHandle.mark doc, by simp, by simpa using hid, by simp; decide⟩
      · exact ⟨doc, by simp [hmem], hid, hst⟩

/-- The mark of a command that has a record. -/
lemma marked_markDelivered {commandId svc path : String} (hk : w.HasRecord (commandId, svc, path)) :
    (w.update i ((w.agent i).markDelivered commandId svc path).1).MarkedInStore commandId := by
  obtain ⟨doc, hdoc, hmatch⟩ := hk
  rw [MarkedInStore, update_table, CommandHandle.markDelivered_docs]
  rcases modifyFirst_spec (CommandCollection.recordQuery commandId svc path)
    CommandHandle.mark (w.agent i).table.docs with ⟨hnone, -⟩ | ⟨as, e, bs, -, -, he, heq⟩
  · exact absurd hmatch (hnone doc hdoc)
  · rw [heq]
    refine ⟨CommandHandle.mark e, by simp, ?_, by simp; decide⟩
    rw [CommandHandle.bson2Obj_mark_id]
    exact Doc.getStringField_of_get (he (StoreTypes.commandId, .str commandId) (by
      simp [CommandCollection.recordQuery]))

/-! ### Saves and polls -/

/-- The steps of `save_command` and of `get_all_command`. -/
def SavesOrPolls : Task n → Prop
  | .save .. | .saveInStore .. | .poll .. | .mark .. | .announce .. | .done => True
  | _ => False

/-- The polls that have the command in their result. -/
def HasTaken (id : String) : Task n → Bool
  | .mark _ _ _ res _ | .announce _ _ _ res _ _ => res.any fun k => k.1 = id
  | _ => false

/-- What a poll has taken and is still to mark in the store. -/
def toMark : Task n → List (Fin n × Ptr)
  | .mark i _ _ _ todo | .announce i _ _ _ _ todo => todo.map (i, ·)
  | _ => []

/-- A poll between the take of the command and its mark. -/
def HalfWay (w : World h n) (id : String) (t : Task n) : Prop :=
  ∃ x ∈ toMark t, (w.cmd x.1 x.2).id = id

instance (w : World h n) (id : String) (t : Task n) : Decidable (w.HalfWay id t) :=
  inferInstanceAs (Decidable (∃ x ∈ toMark t, _))

/-- A poll that is going to mark the command in the store. -/
def GoingToMark (w : World h n) (id : String) (t : Task n) : Prop :=
  ∃ x ∈ toMark t, x.2 < (w.cache x.1).heap.next ∧ (w.cmd x.1 x.2).id = id ∧
    w.HasRecord (w.cmd x.1 x.2).key

/-- What a poll has in its result is marked in the store, or is going to be. -/
def Accounted (w : World h n) (id : String) (t : Task n) : Prop :=
  HasTaken id t → w.MarkedInStore id ∨ w.GoingToMark id t

/-- The agent of a poll is in step with the store for the command. -/
structure InStep (w : World h n) (id : String) (o : Order Ptr String) (i : Fin n) (dev : Device)
    (service : PTree) : Prop where
  /-- Once the store has the mark, nothing waits there or in the cache. -/
  coherent : w.MarkedInStore id → ∀ c ∈ (w.agent i).waitingCopies, c.id ≠ id
  /-- What waits has a record. -/
  recorded : ∀ c ∈ (w.agent i).waitingCopies, c.id = id → w.HasRecord c.key
  /-- No copy stands behind the equal range of what is polled. -/
  behind : ∀ p ∈ (w.cache i).behind o (CommandHandle.waitingKey dev service), (w.cmd i p).id ≠ id

lemma inStep_iff {dev : Device} {service : PTree} : w.InStep id o i dev service ↔
    (w.MarkedInStore id → ∀ c ∈ (w.agent i).waitingCopies, c.id ≠ id) ∧
    (∀ c ∈ (w.agent i).waitingCopies, c.id = id → w.HasRecord c.key) ∧
    ∀ p ∈ (w.cache i).behind o (CommandHandle.waitingKey dev service), (w.cmd i p).id ≠ id :=
  ⟨fun ⟨hc, hr, hb⟩ => ⟨hc, hr, hb⟩, fun ⟨hc, hr, hb⟩ => ⟨hc, hr, hb⟩⟩

instance (w : World h n) (o : Order Ptr String) (dev : Device) (service : PTree) :
    Decidable (w.InStep id o i dev service) :=
  decidable_of_iff _ inStep_iff.symm

/-- The agent that a first step of a poll asks, and for what. -/
def polled : Task n → Option (Fin n × Device × PTree)
  | .poll i dev service => some (i, dev, service)
  | _ => none

/-- An agent is polled in step with the store, and while no other poll is half way. -/
def PollsInStep (id : String) : GuardAll (World h n) (Task n) (Order Ptr String) :=
  fun o c t => ∀ x ∈ polled t, c.shared.Stored →
    c.shared.InStep id o x.1 x.2.1 x.2.2 ∧ ∀ u ∈ c.tasks, ¬ c.shared.HalfWay id u

instance (o : Order Ptr String) (c : Config (World h n) (Task n)) (t : Task n) :
    Decidable (PollsInStep id o c t) :=
  inferInstanceAs (Decidable (∀ x ∈ polled t, _ → _ ∧ _))

lemma savesOrPolls_act (ht : SavesOrPolls t) (hact : act G o w t = some (w', t')) :
    SavesOrPolls t' := by
  cases t with
  | save i item =>
      obtain ⟨-, heq⟩ := withLock_eq_some.mp hact
      obtain ⟨-, rfl⟩ := Prod.mk.inj heq
      trivial
  | saveInStore i p =>
      obtain ⟨-, rfl⟩ := Prod.mk.inj (Option.some.inj hact)
      trivial
  | poll i dev service =>
      obtain ⟨-, -, rfl⟩ | ⟨-, rfl⟩ := act_poll hact
      · trivial
      · trivial
  | mark i dev service res todo =>
      cases todo with
      | nil => cases hact
      | cons p todo =>
          obtain ⟨-, rfl⟩ := Prod.mk.inj (Option.some.inj hact)
          trivial
  | announce i dev service res p todo =>
      obtain ⟨-, rfl⟩ := Prod.mk.inj (Option.some.inj hact)
      trivial
  | done => cases hact
  | _ => exact ht.elim

/-- The records and the marks of the store outlast saves and polls. -/
lemma savesOrPolls_keeps (ht : SavesOrPolls t) (hact : act G o w t = some (w', t')) :
    w.Keeps w' := by
  cases t with
  | save i item =>
      obtain ⟨-, heq⟩ := withLock_eq_some.mp hact
      obtain ⟨rfl, -⟩ := Prod.mk.inj heq
      exact keeps_of_subset fun _ hdoc => hdoc
  | saveInStore i p =>
      obtain ⟨rfl, -⟩ := Prod.mk.inj (Option.some.inj hact)
      exact keeps_saveInStore
  | poll i dev service =>
      obtain ⟨-, rfl, -⟩ | ⟨rfl, -⟩ := act_poll hact
      · exact keeps_of_subset fun _ hdoc => hdoc
      · exact keeps_of_subset fun _ hdoc => hdoc
  | mark i dev service res todo =>
      cases todo with
      | nil => cases hact
      | cons p todo =>
          obtain ⟨rfl, -⟩ := Prod.mk.inj (Option.some.inj hact)
          exact keeps_markDelivered
  | announce i dev service res p todo =>
      obtain ⟨rfl, -⟩ := Prod.mk.inj (Option.some.inj hact)
      exact keeps_of_subset fun _ hdoc => hdoc
  | done => cases hact
  | _ => exact ht.elim

/-! ### What one step preserves -/

lemma GoingToMark.mono (hu : w.GoingToMark id u) (hw : w.Extends w') (hk : w.Keeps w') :
    w'.GoingToMark id u := by
  obtain ⟨x, hx, hlt, hid, hrec⟩ := hu
  have hkey : (w'.cmd x.1 x.2).key = (w.cmd x.1 x.2).key := (hw.cache x.1).key x.2 hlt
  refine ⟨x, hx, Nat.lt_of_lt_of_le hlt (hw.cache x.1).next, ?_, ?_⟩
  · exact (congrArg Prod.fst hkey).trans hid
  · rw [hkey]
    exact hk.record _ hrec

lemma Accounted.mono (hu : w.Accounted id u) (hw : w.Extends w') (hk : w.Keeps w') :
    w'.Accounted id u :=
  fun htaken => (hu htaken).imp (hk.mark id) fun hgoing => hgoing.mono hw hk

/-- **The first step of a poll** in step with the store: a command that it takes is not marked
yet, and is going to be. -/
lemma poll_accounted {dev : Device} {service : PTree} (hstep : w.InStep id o i dev service)
    (htaken : HasTaken id (.mark i dev service
      (((w.agent i).takeCommands o dev service).2.map fun p =>
        (((w.agent i).takeCommands o dev service).1.asyncCommands.cmd p).key)
      ((w.agent i).takeCommands o dev service).2)) :
    ¬ w.MarkedInStore id ∧
      (w.update i ((w.agent i).takeCommands o dev service).1).GoingToMark id
        (.mark i dev service (((w.agent i).takeCommands o dev service).2.map fun p =>
          (((w.agent i).takeCommands o dev service).1.asyncCommands.cmd p).key)
          ((w.agent i).takeCommands o dev service).2) := by
  obtain ⟨k, hk, hid⟩ := List.any_eq_true.mp htaken
  obtain ⟨p, hp, rfl⟩ := List.mem_map.mp hk
  rw [decide_eq_true_eq] at hid
  obtain ⟨hlt, ⟨hbehind, hkey⟩ | ⟨c, hc, hkey⟩⟩ := CommandHandle.takeCommands_waits hp
  · exact absurd ((congrArg Prod.fst hkey).symm.trans hid) (hstep.behind p hbehind)
  · have hcid : c.id = id := (congrArg Prod.fst hkey).symm.trans hid
    refine ⟨fun hmarked => hstep.coherent hmarked c hc hcid, (i, p), ?_, ?_, ?_, ?_⟩
    · exact List.mem_map_of_mem hp
    · rwa [update_cache_self]
    · rw [update_cmd]
      exact hid
    · rw [update_cmd, hkey]
      exact hstep.recorded c hc hcid

/-- A mark or an announcement stays accounted for. -/
lemma mark_accounted {dev : Device} {service : PTree} {res : List Command.Key} {p : Ptr}
    {todo : List Ptr} (ht : w.Accounted id (.mark i dev service res (p :: todo))) :
    (w.update i ((w.agent i).markDelivered (w.cmd i p).id (w.cmd i p).service
      (w.cmd i p).servicePath).1).Accounted id (.announce i dev service res p todo) := by
  intro htaken
  have hw : w.Extends (w.update i ((w.agent i).markDelivered (w.cmd i p).id (w.cmd i p).service
      (w.cmd i p).servicePath).1) :=
    extends_update_of_eq (CommandHandle.markDelivered_asyncCommands _ _ _)
  rcases ht htaken with hmarked | ⟨x, hx, hlt, hid, hrec⟩
  · exact .inl (keeps_markDelivered.mark id hmarked)
  · rcases List.mem_cons.mp hx with rfl | hx
    · rw [← hid]
      exact .inl (marked_markDelivered hrec)
    · have hgoing : w.GoingToMark id (.announce i dev service res p todo) :=
        ⟨x, hx, hlt, hid, hrec⟩
      exact .inr (hgoing.mono hw keeps_markDelivered)

/-- Every poll that has the command in its result is accounted for, and there is one at
most. -/
structure DeliveredOnce (id : String) (c : Config (World h n) (Task n)) : Prop where
  tasks : ∀ t ∈ c.tasks, SavesOrPolls t
  accounted : ∀ t ∈ c.tasks, c.shared.Accounted id t
  once : c.tasks.countP (HasTaken id) ≤ 1

/-- A step that leaves its own task accounted for, and that takes the command only if no other
has it. -/
lemma deliveredOnce_act {c : Config (World h n) (Task n)} {j : ℕ} (hc : DeliveredOnce id c)
    (hget : c.tasks[j]? = some t) (hact : act G o c.shared t = some (w', t'))
    (hacc : w'.Accounted id t')
    (htaken : HasTaken id t' → HasTaken id t ∨ c.tasks.countP (HasTaken id) = 0) :
    DeliveredOnce id ⟨w', c.tasks.set j t'⟩ where
  tasks u hu := by
    have ht := hc.tasks t (List.mem_of_getElem? hget)
    rcases List.mem_or_eq_of_mem_set hu with hu | rfl
    · exact hc.tasks u hu
    · exact savesOrPolls_act ht hact
  accounted u hu := by
    have ht := hc.tasks t (List.mem_of_getElem? hget)
    rcases List.mem_or_eq_of_mem_set hu with hu | rfl
    · exact (hc.accounted u hu).mono (act_extends hact) (savesOrPolls_keeps ht hact)
    · exact hacc
  once := by
    have hcount := countP_set_add (p := HasTaken id) t' hget
    have honce := hc.once
    have hle := Bool.toNat_le (HasTaken id t')
    show (c.tasks.set j t').countP (HasTaken id) ≤ 1
    cases ht' : HasTaken id t' with
    | false =>
        rw [ht', Bool.toNat_false] at hcount
        omega
    | true =>
        rcases htaken ht' with ht | hnone
        · rw [ht', ht] at hcount
          omega
        · omega

/-- While no poll is half way, a command without a mark in the store is in no result. -/
lemma countP_eq_zero {c : Config (World h n) (Task n)} (hc : DeliveredOnce id c)
    (hnone : ∀ u ∈ c.tasks, ¬ c.shared.HalfWay id u) (hmarked : ¬ c.shared.MarkedInStore id) :
    c.tasks.countP (HasTaken id) = 0 := by
  refine List.countP_eq_zero.mpr fun u hu htaken => ?_
  obtain ⟨x, hx, -, hid, -⟩ := (hc.accounted u hu htaken).resolve_left hmarked
  exact hnone u hu ⟨x, hx, hid⟩

/-- **One step** of a save or of a poll. -/
lemma deliveredOnce_step {c c' : Config (World h n) (Task n)} (hc : DeliveredOnce id c)
    (hs : Step (act G) (fun o _ t => PollsInStep id o c t) c c') : DeliveredOnce id c' := by
  cases hs with
  | @act j o t t' w' hget hok hact =>
      have ht := hc.tasks t (List.mem_of_getElem? hget)
      have hacc := hc.accounted t (List.mem_of_getElem? hget)
      cases t with
      | save i item =>
          obtain ⟨-, heq⟩ := withLock_eq_some.mp hact
          obtain ⟨-, rfl⟩ := Prod.mk.inj heq
          exact deliveredOnce_act hc hget hact nofun nofun
      | saveInStore i p =>
          obtain ⟨-, rfl⟩ := Prod.mk.inj (Option.some.inj hact)
          exact deliveredOnce_act hc hget hact nofun nofun
      | poll i dev service =>
          obtain ⟨hstored, rfl, rfl⟩ | ⟨rfl, rfl⟩ := act_poll hact
          · obtain ⟨hstep, hnone⟩ := hok (i, dev, service) rfl hstored
            refine deliveredOnce_act hc hget hact (fun htaken => ?_) fun htaken => ?_
            · exact .inr (poll_accounted hstep htaken).2
            · exact .inr (countP_eq_zero hc hnone (poll_accounted hstep htaken).1)
          · exact deliveredOnce_act hc hget hact nofun nofun
      | mark i dev service res todo =>
          cases todo with
          | nil => cases hact
          | cons p todo =>
              obtain ⟨rfl, rfl⟩ := Prod.mk.inj (Option.some.inj hact)
              exact deliveredOnce_act hc hget hact (mark_accounted hacc) .inl
      | announce i dev service res p todo =>
          have hkeeps := savesOrPolls_keeps ht hact
          have hext := act_extends hact
          obtain ⟨-, rfl⟩ := Prod.mk.inj (Option.some.inj hact)
          have hmark : c.shared.Accounted id (.mark i dev service res todo) := hacc
          exact deliveredOnce_act hc hget hact (hmark.mono hext hkeeps) .inl
      | done => cases hact
      | _ => exact ht.elim

/-- **Delivery**: in a run of saves and polls in which agents are polled in step with the
store, and not while another poll is half way, the command is in the result of one poll at
most. -/
theorem taken_countP_le_one (G : String → String → Option PTree) (id : String)
    (c c' : Config (World h n) (Task n))
    (htasks : ∀ t ∈ c.tasks, (∃ i item, t = .save i item) ∨ ∃ i dev service,
      t = .poll i dev service)
    (hrun : RunWith (act G) (PollsInStep id) c c') : c'.tasks.countP (HasTaken id) ≤ 1 := by
  have hstart : DeliveredOnce id c := by
    have hfresh : ∀ t ∈ c.tasks, SavesOrPolls t ∧ HasTaken id t = false := by
      intro t ht
      obtain ⟨i, item, rfl⟩ | ⟨i, dev, service, rfl⟩ := htasks t ht
      · exact ⟨trivial, rfl⟩
      · exact ⟨trivial, rfl⟩
    refine ⟨fun t ht => (hfresh t ht).1, fun t ht htaken => ?_, ?_⟩
    · rw [(hfresh t ht).2] at htaken
      cases htaken
    · rw [List.countP_eq_zero.mpr fun t ht => by simp [(hfresh t ht).2]]
      exact Nat.zero_le _
  exact (RunWith.invariant (fun _ _ => deliveredOnce_step) hstart hrun).once

/-- Two agents that have nothing yet. -/
def emptyWorld : World ⟨fun n s => n + s.length, fun n => n⟩ 2 where
  storageType := StoreTypes.mongodb
  bbdd := "iot.COMMAND"
  text _ := ""
  cache _ := CommandCache.empty Types.maxSizeCache false
  locked _ := false
  table := .empty
  sent := []

/-- One agent saves a command, and the device polls both. -/
def saveAndPolls : Config (World ⟨fun n s => n + s.length, fun n => n⟩ 2) (Task 2) :=
  ⟨emptyWorld, [.save agentA pinged, .poll agentA pingedDevice itsService,
    .poll agentB pingedDevice itsService]⟩

lemma saveAndPolls_tasks : ∀ t ∈ saveAndPolls.tasks, (∃ i item, t = .save i item) ∨
    ∃ i dev service, t = .poll i dev service := by
  intro t ht
  simp only [saveAndPolls, List.mem_cons, List.not_mem_nil, or_false] at ht
  rcases ht with rfl | rfl | rfl
  · exact .inl ⟨_, _, rfl⟩
  · exact .inr ⟨_, _, _, rfl⟩
  · exact .inr ⟨_, _, _, rfl⟩

/-- The agent that saved the command delivers it, and marks it before the other is polled. -/
def afterBothPolls : Config (World ⟨fun n s => n + s.length, fun n => n⟩ 2) (Task 2) :=
  (execWith (act fun _ _ => some itsService) (PollsInStep pinged.id)
    (inOrder [0, 0, 1, 1, 2, 1]) saveAndPolls).get (by decide +kernel)

theorem taken_afterBothPolls : afterBothPolls.tasks.countP (HasTaken pinged.id) ≤ 1 :=
  taken_countP_le_one (fun _ _ => some itsService) pinged.id saveAndPolls afterBothPolls
    saveAndPolls_tasks (runWith_of_execWith (Option.some_get _).symm)

/-- The other agent reads the command from the store and delivers it; then the agent that
saved it delivers its own copy. -/
theorem taken_twice_twoAgents :
    (∀ t ∈ saveAndPolls.tasks, (∃ i item, t = .save i item) ∨
      ∃ i dev service, t = .poll i dev service) ∧
    ∃ c', Run (act fun _ _ => some itsService) (fun _ _ _ => True) saveAndPolls c' ∧
      c'.tasks.countP (HasTaken pinged.id) = 2 := by
  refine ⟨saveAndPolls_tasks, (exec (act fun _ _ => some itsService) (fun _ _ _ => True)
      (inOrder [0, 0, 2, 2, 2, 1]) saveAndPolls).get (by decide +kernel),
    run_of_exec (Option.some_get _).symm, by decide +kernel⟩

end World

end IotAgent
