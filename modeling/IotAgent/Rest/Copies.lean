import IotAgent.Rest.Tasks

/-!
What stays the same while agents work side by side.

The status of a command changes, and commands come into a cache and leave it. The object
behind a pointer stays, and so do its identifier, its service and its service path, whatever
any task does.

* `CommandCache.Extends`: objects stay with their keys, for each operation of the cache;
* `World.act_extends`: for each action of a task;
* `World.IsCopy`: a pointer of an agent leads to a copy of a command, and keeps doing so.
-/

namespace IotAgent

open HashIndex Mongo Interleaving

namespace CommandCache

variable {h : Hashing}

/-- The objects of `c` are still there in `c'`, with their keys. -/
structure Extends (c c' : CommandCache h) : Prop where
  next : c.heap.next ≤ c'.heap.next
  key : ∀ p < c.heap.next, (c'.cmd p).key = (c.cmd p).key

variable {c c' c'' : CommandCache h} {p : Ptr} {item key : Command} {o : Order Ptr String}
  {fetch : GetFunction} {status : ℤ}

lemma Extends.refl (c : CommandCache h) : c.Extends c :=
  ⟨Nat.le_refl _, fun _ _ => rfl⟩

lemma Extends.trans (h₁ : c.Extends c') (h₂ : c'.Extends c'') : c.Extends c'' where
  next := Nat.le_trans h₁.next h₂.next
  key p hp := by
    rw [h₂.key p (Nat.lt_of_lt_of_le hp h₁.next), h₁.key p hp]

/-- Whatever leaves the heap alone. -/
lemma Extends.of_heap (hheap : c'.heap = c.heap) : c.Extends c' where
  next := by rw [hheap]
  key p _ := by rw [cmd, hheap, cmd]

lemma setStatus_extends : c.Extends (c.setStatus p status) where
  next := Nat.le_refl _
  key q _ := by
    rw [setStatus_cmd]
    split <;> rfl

lemma insertNew_extends : c.Extends (c.insertNew item).1 where
  next := by
    rw [insertNew_next]
    exact Nat.le_succ _
  key q hq := by rw [insertNew_cmd_of_lt hq]

lemma mark_extends : c.Extends (c.mark status p) :=
  setStatus_extends.trans (.of_heap insert_heap)

lemma foldl_mark_extends (ps : List Ptr) :
    c.Extends (ps.foldl (fun c p => c.mark status p) c) := by
  induction ps generalizing c with
  | nil => exact .refl c
  | cons p ps ih => exact mark_extends.trans ih

lemma readThrough_extends (found : Option Ptr) :
    c.Extends (c.readThrough found fetch key).1 := by
  unfold readThrough
  split
  · exact .of_heap insert_heap
  · split
    · exact insertNew_extends
    · exact .refl c

lemma getById_extends : c.Extends (c.getById o fetch key).1 :=
  readThrough_extends _

lemma getByEntityV_extends : c.Extends (c.getByEntityV o fetch key status).1 := by
  by_cases hw : c.walk o key = []
  · rw [getByEntityV_miss hw]
    split
    · exact insertNew_extends
    · exact .refl c
  · rw [getByEntityV_hit hw]
    exact foldl_mark_extends _

lemma remove_extends : c.Extends (c.remove o key) :=
  .of_heap remove_heap

end CommandCache

namespace World

variable {h : Hashing} {n : ℕ} {w w' w'' : World h n} {i j : Fin n} {s : CommandHandle h}
  {t t' : Task n}
  {G : String → String → Option PTree} {o : Order Ptr String}

/-- The objects of all agents are still there, with their keys, over the same kind of
storage. -/
structure Extends (w w' : World h n) : Prop where
  storageType : w'.storageType = w.storageType
  cache : ∀ i, (w.cache i).Extends (w'.cache i)

lemma Extends.refl (w : World h n) : w.Extends w :=
  ⟨rfl, fun _ => .refl _⟩

/-- A step of one agent leaves the others alone. -/
lemma extends_update (hs : (w.cache i).Extends s.asyncCommands) : w.Extends (w.update i s) where
  storageType := rfl
  cache j := by
    by_cases hj : j = i
    · subst hj
      rwa [update_cache_self]
    · rw [update_cache_of_ne hj]
      exact .refl _

lemma extends_setLock (b : Bool) : w.Extends (w.setLock i b) :=
  ⟨rfl, fun _ => .refl _⟩

lemma Extends.trans (h₁ : w.Extends w') (h₂ : w'.Extends w'') : w.Extends w'' :=
  ⟨h₂.storageType.trans h₁.storageType, fun i => (h₁.cache i).trans (h₂.cache i)⟩

/-- A step outside the cache. -/
lemma extends_update_of_eq (hs : s.asyncCommands = w.cache i) : w.Extends (w.update i s) :=
  extends_update (hs ▸ .refl _)

/-- No action of any task takes an object or its key away. -/
theorem act_extends (hact : act G o w t = some (w', t')) : w.Extends w' := by
  cases t with
  | save i item =>
      obtain ⟨-, heq⟩ := withLock_eq_some.mp hact
      obtain ⟨rfl, -⟩ := Prod.mk.inj heq
      exact extends_update CommandCache.insertNew_extends
  | saveInStore i p =>
      obtain ⟨rfl, -⟩ := Prod.mk.inj (Option.some.inj hact)
      exact extends_update_of_eq (CommandHandle.saveInStore_asyncCommands p)
  | poll i dev service =>
      obtain ⟨-, rfl, -⟩ | ⟨rfl, -⟩ := act_poll hact
      · exact extends_update CommandCache.getByEntityV_extends
      · exact .refl _
  | mark i dev service res todo =>
      cases todo with
      | nil => cases hact
      | cons p todo =>
          obtain ⟨rfl, -⟩ := Prod.mk.inj (Option.some.inj hact)
          exact extends_update_of_eq (CommandHandle.markDelivered_asyncCommands _ _ _)
  | announce i dev service res p todo =>
      obtain ⟨rfl, -⟩ := Prod.mk.inj (Option.some.inj hact)
      exact extends_update_of_eq rfl
  | response i idCommand response dev service =>
      obtain ⟨rfl, -⟩ := act_response hact
      exact extends_update CommandCache.getById_extends
  | responseFound i idCommand response dev service command =>
      obtain ⟨-, heq⟩ := withLock_eq_some.mp hact
      obtain ⟨rfl, -⟩ := Prod.mk.inj heq
      exact extends_update CommandCache.remove_extends
  | responseInStore i idCommand response dev service command =>
      obtain ⟨rfl, -⟩ := Prod.mk.inj (Option.some.inj hact)
      exact extends_update_of_eq CommandHandle.removeFromStore_asyncCommands
  | responseSend i response dev service command =>
      obtain ⟨rfl, -⟩ := Prod.mk.inj (Option.some.inj hact)
      exact extends_update_of_eq rfl
  | callback i d resCode respCmd =>
      obtain ⟨rfl, -⟩ | ⟨rfl, -⟩ := act_callback hact
      · exact extends_update_of_eq CommandHandle.markAccepted_asyncCommands
      · exact extends_update CommandCache.remove_extends
  | callbackInStore i d resCode respCmd =>
      obtain ⟨rfl, -⟩ := Prod.mk.inj (Option.some.inj hact)
      exact extends_update_of_eq CommandHandle.removeFromStore_asyncCommands
  | callbackSend i d resCode respCmd =>
      obtain ⟨rfl | rfl, -⟩ := act_callbackSend hact
      · exact extends_update_of_eq CommandHandle.sendExecuted_asyncCommands
      · exact extends_update_of_eq rfl
  | accepted i d updated =>
      obtain ⟨-, heq⟩ := withLock_eq_some.mp hact
      obtain ⟨rfl, -⟩ := Prod.mk.inj heq
      exact extends_update CommandCache.getById_extends
  | acceptedFound i d updated pt =>
      obtain ⟨rfl, -⟩ := Prod.mk.inj (Option.some.inj hact)
      cases pt with
      | none => exact extends_update_of_eq rfl
      | some p => exact extends_update CommandCache.setStatus_extends
  | acceptedSend i d updated =>
      obtain ⟨rfl | rfl, -⟩ := act_acceptedSend hact
      · exact extends_update_of_eq rfl
      · exact .refl _
  | timer i p =>
      obtain ⟨rfl, -⟩ := act_timer hact
      exact extends_setLock true
  | timerRead i p service status =>
      obtain ⟨rfl, -⟩ := act_timerRead hact
      exact .refl _
  | timerRemove i p service status =>
      obtain ⟨rfl, -⟩ := Prod.mk.inj (Option.some.inj hact)
      exact extends_update CommandCache.remove_extends
  | timerInStore i p service status =>
      obtain ⟨rfl, -⟩ := Prod.mk.inj (Option.some.inj hact)
      exact extends_update_of_eq CommandHandle.removeFromStore_asyncCommands
  | timerSend i p service status =>
      obtain ⟨rfl, -⟩ := Prod.mk.inj (Option.some.inj hact)
      exact extends_update_of_eq rfl
  | timerEnd i p =>
      obtain ⟨rfl, -⟩ := Prod.mk.inj (Option.some.inj hact)
      exact (extends_update CommandCache.remove_extends).trans (extends_setLock false)
  | done => cases hact

/-- The pointer of agent `i` leads to a copy of the command. -/
def IsCopy (w : World h n) (i : Fin n) (p : Ptr) (k : Command.Key) : Prop :=
  p < (w.cache i).heap.next ∧ (w.cmd i p).key = k

instance (w : World h n) (i : Fin n) (p : Ptr) (k : Command.Key) : Decidable (w.IsCopy i p k) :=
  inferInstanceAs (Decidable (_ ∧ _))

lemma IsCopy.mono {p : Ptr} {k : Command.Key} (hp : w.IsCopy i p k) (hw : w.Extends w') :
    w'.IsCopy i p k :=
  ⟨Nat.lt_of_lt_of_le hp.1 (hw.cache i).next, ((hw.cache i).key p hp.1).trans hp.2⟩

end World

end IotAgent
