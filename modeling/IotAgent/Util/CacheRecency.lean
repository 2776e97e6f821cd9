import IotAgent.Lib.Recency
import IotAgent.Util.Cache

/-!
The cache of devices as a bounded recency list.

On devices whose equality and hash value agree the unique index is an index by name and
service. Then an LRU cache is a bounded set that forgets the least recently used device,
listed with the most recently used device first, and any other cache keeps what it took.

* `CacheOp`, `Cache.run`: runs of the operations without a fetch function;
* `CacheOp.request`, `Cache.trace`: what they ask of a bounded set, with the cache's answers;
* `Agreeing`, `collide_iff`: devices on which equality and hash value agree;
* `CacheInv`, `CacheInv.apply`: every operation answers as the set does and lists what it holds;
* `run_refines_recency`: the answers of any run, and the cache after it.
-/

namespace IotAgent

open HashIndex

/-- An operation of the cache. -/
inductive CacheOp where
  | insert (item : Device)
  | get (key : Device)
  | getByEntity (key : Device)
  | getByName (key : Device)
  | remove (key : Device)

/-- The device of an operation. -/
def CacheOp.device : CacheOp → Device
  | insert d | get d | getByEntity d | getByName d | remove d => d

namespace Device

/-- What equality compares. -/
def classKey (d : Device) : String × String :=
  (d.name, d.service)

lemma equal_iff_classKey {a b : Device} : Equal a b ↔ a.classKey = b.classKey := by
  rw [classKey, classKey, Prod.mk.injEq, Equal]

end Device

namespace Cache

variable {h : Hashing} (o : Order Device String)

/-- An operation and its answer, without a fetch function. -/
def apply (c : Cache h) : CacheOp → Cache h × Option Device
  | .insert d => (c.insert d, none)
  | .get key => c.get none key
  | .getByEntity key => c.getByEntity o none key
  | .getByName key => c.getByName o none key
  | .remove key => (c.remove key, none)

/-- The cache after a run. -/
def run (c : Cache h) (ops : List CacheOp) : Cache h :=
  ops.foldl (fun c op => (c.apply o op).1) c

lemma run_append (c : Cache h) (ops ops' : List CacheOp) :
    c.run o (ops ++ ops') = (c.run o ops).run o ops' :=
  List.foldl_append

end Cache

/-! ### What an operation asks for -/

/-- The request to a bounded set that an operation stands for: a look-up asks for any device
with the key of its index. -/
def CacheOp.request : CacheOp → Recency.Request Device (String × String)
  | insert d => .insert d
  | get key => .fetch fun d => d.classKey = key.classKey
  | getByEntity key => .fetch fun d => d.uniqueEntity = key.uniqueEntity
  | getByName key => .fetch fun d => d.uniqueName = key.uniqueName
  | remove key => .remove key.classKey

/-- The requests of a run, with the answers of the cache. -/
def Cache.trace {h : Hashing} (o : Order Device String) :
    Cache h → List CacheOp → List (Recency.Request Device (String × String) × Option Device)
  | _, [] => []
  | c, op :: ops => (op.request, (c.apply o op).2) :: trace o (c.apply o op).1 ops

/-! ### Agreement -/

/-- Equal devices have one hash value. -/
def Agreeing (h : Hashing) (ds : List Device) : Prop :=
  ∀ a ∈ ds, ∀ b ∈ ds, Device.Equal a b → a.hashValue h = b.hashValue h

/-- On such devices the unique index compares what equality compares. -/
lemma Agreeing.collide_iff {h : Hashing} {ds : List Device} {a b : Device} (hds : Agreeing h ds)
    (ha : a ∈ ds) (hb : b ∈ ds) : Device.collide h a b ↔ a.classKey = b.classKey := by
  rw [← Device.equal_iff_classKey]
  refine ⟨And.right, fun hab => ⟨?_, hab⟩⟩
  rw [Device.bucket, Device.bucket, hds a ha b hb hab]

/-! ### Every operation -/

namespace Cache

/-- The cache holds devices of `ds` only, no more than its capacity, and lists the set. -/
structure CacheInv {h : Hashing} (ds : List Device) (c : Cache h)
    (s : Recency Device (String × String)) : Prop where
  mem : ∀ x ∈ c.list, x ∈ ds
  size : c.list.length ≤ c.maxNumItems
  lists : Recency.Lists Device.classKey c.lru s c.list

variable {h : Hashing} {o : Order Device String} {ds : List Device} {c : Cache h}
  {s : Recency Device (String × String)} {d key : Device} {op : CacheOp}

/-- What an insertion takes, it takes within the capacity. -/
lemma insert_length_le (hsize : c.list.length ≤ c.maxNumItems) :
    (c.insert d).list.length ≤ c.maxNumItems := by
  cases hf : BoundedSeq.find (Device.collide h) d c.list with
  | some y => rwa [(insert_list_perm_of_find hf).length_eq]
  | none =>
      cases hl : c.lru with
      | true =>
          rw [insert_list_lru hl hf]
          split
          · simpa using hsize
          · next hover => exact Nat.not_lt.mp hover
      | false =>
          by_cases hfull : c.maxNumItems ≤ c.list.length
          · rwa [insert_list_full hl hfull]
          · rw [(insert_list_perm_cons hf (Nat.not_le.mp hfull)).length_eq, List.length_cons]
            omega

lemma CacheInv.insert (hds : Agreeing h ds) (hcap : 1 ≤ c.maxNumItems) (hd : d ∈ ds)
    (hc : CacheInv ds c s) :
    CacheInv ds (c.insert d) (s.enter Device.classKey c.maxNumItems c.lru d) := by
  have hR : ∀ z ∈ c.list, Device.collide h z d ↔ z.classKey = d.classKey :=
    fun z hz => hds.collide_iff (hc.mem z hz) hd
  refine ⟨fun x hx => ?_, insert_length_le hc.size, hc.lists.insert hR hcap hc.size⟩
  rcases eq_or_mem_of_mem_insert hx with rfl | hx
  · exact hd
  · exact hc.mem x hx

/-- A look-up in an index answers as the set does, if the index finds what is wanted. -/
lemma CacheInv.readThrough (key : Device) (hds : Agreeing h ds) (hcap : 1 ≤ c.maxNumItems)
    {found : Option Device} {wanted : Device → Prop}
    (hsome : ∀ d, found = some d → d ∈ c.list ∧ wanted d)
    (hnone : found = none → ∀ d ∈ c.list, ¬ wanted d) (hc : CacheInv ds c s) :
    ∃ s', Recency.Answers Device.classKey c.maxNumItems c.lru s (.fetch wanted)
        (c.readThrough found none key).2 s' ∧
      CacheInv ds (c.readThrough found none key).1 s' := by
  cases found with
  | none => exact ⟨s, .missed fun d hd => hnone rfl d (hc.lists.mem_held.mp hd), hc⟩
  | some d =>
      obtain ⟨hd, hwanted⟩ := hsome d rfl
      exact ⟨_, .found (hc.lists.mem_held.mpr hd) hwanted, hc.insert hds hcap (hc.mem d hd)⟩

/-- The same in one of the indices that are not unique. -/
lemma CacheInv.readThrough_find (index : Device → String) (key : Device) (hds : Agreeing h ds)
    (hcap : 1 ≤ c.maxNumItems) (hc : CacheInv ds c s) :
    ∃ s', Recency.Answers Device.classKey c.maxNumItems c.lru s
        (.fetch fun d => index d = index key)
        (c.readThrough (o.find index (index key) c.list) none key).2 s' ∧
      CacheInv ds (c.readThrough (o.find index (index key) c.list) none key).1 s' :=
  hc.readThrough key hds hcap (fun _ hd => ⟨o.mem_of_find hd, o.key_of_find hd⟩)
    fun hn => Order.find_eq_none_iff.mp hn

lemma CacheInv.remove (hds : Agreeing h ds) (hkey : key ∈ ds) (hc : CacheInv ds c s) :
    CacheInv ds (c.remove key) (s.drop Device.classKey key.classKey) := by
  rw [Cache.remove]
  cases hf : BoundedSeq.find (Device.collide h) key c.list with
  | some d =>
      obtain ⟨hd, hcol⟩ := BoundedSeq.mem_of_find hf
      have heq := (hds.collide_iff (hc.mem d hd) hkey).mp hcol
      have hsub : (c.list.erase d).Sublist c.list := List.erase_sublist
      exact ⟨fun x hx => hc.mem x (hsub.subset hx), hsub.length_le.trans hc.size,
        heq ▸ hc.lists.erase hd⟩
  | none =>
      refine ⟨hc.mem, hc.size, hc.lists.drop_absent fun z hz hzk => ?_⟩
      exact BoundedSeq.find_eq_none_iff.mp hf z hz ((hds.collide_iff (hc.mem z hz) hkey).mpr hzk)

/-- Every operation answers as the set does, and keeps the invariant. -/
lemma CacheInv.apply (hds : Agreeing h ds) (hcap : 1 ≤ c.maxNumItems) (hop : op.device ∈ ds)
    (hc : CacheInv ds c s) :
    ∃ s', Recency.Answers Device.classKey c.maxNumItems c.lru s op.request (c.apply o op).2 s' ∧
      CacheInv ds (c.apply o op).1 s' := by
  cases op with
  | insert d => exact ⟨_, .insert, hc.insert hds hcap hop⟩
  | get key =>
      refine hc.readThrough key hds hcap (fun d hd => ?_) fun hn d hd hk => ?_
      · obtain ⟨hmem, hcol⟩ := BoundedSeq.mem_of_find hd
        exact ⟨hmem, (hds.collide_iff (hc.mem d hmem) hop).mp hcol⟩
      · exact BoundedSeq.find_eq_none_iff.mp hn d hd ((hds.collide_iff (hc.mem d hd) hop).mpr hk)
  | getByEntity key => exact hc.readThrough_find Device.uniqueEntity key hds hcap
  | getByName key => exact hc.readThrough_find Device.uniqueName key hds hcap
  | remove key => exact ⟨_, .remove, hc.remove hds hop⟩

/-- No operation changes the capacity or the policy. -/
lemma apply_config :
    (c.apply o op).1.maxNumItems = c.maxNumItems ∧ (c.apply o op).1.lru = c.lru := by
  have hread : ∀ found key, (c.readThrough found none key).1.maxNumItems = c.maxNumItems
      ∧ (c.readThrough found none key).1.lru = c.lru := by
    intro found key
    cases found <;> exact ⟨rfl, rfl⟩
  cases op with
  | insert d => exact ⟨rfl, rfl⟩
  | get key => exact hread _ key
  | getByEntity key => exact hread _ key
  | getByName key => exact hread _ key
  | remove key =>
      show (c.remove key).maxNumItems = _ ∧ (c.remove key).lru = _
      rw [Cache.remove]
      split <;> exact ⟨rfl, rfl⟩

/-! ### Runs -/

/-- Every run answers as the set does, and keeps the invariant. -/
lemma CacheInv.run (hds : Agreeing h ds) (ops : List CacheOp) (hops : ∀ op ∈ ops, op.device ∈ ds)
    (hcap : 1 ≤ c.maxNumItems) (hc : CacheInv ds c s) :
    ∃ s', Recency.Runs Device.classKey c.maxNumItems c.lru s (c.trace o ops) s' ∧
      CacheInv ds (c.run o ops) s' := by
  induction ops generalizing c s with
  | nil => exact ⟨s, .nil, hc⟩
  | cons op ops ih =>
      obtain ⟨s₁, hanswer, hstep⟩ := hc.apply (o := o) hds hcap (hops op (List.mem_cons_self ..))
      obtain ⟨hmax, hlru⟩ : (c.apply o op).1.maxNumItems = c.maxNumItems ∧
          (c.apply o op).1.lru = c.lru := apply_config
      obtain ⟨s', hrest, hinv⟩ := ih (fun op' hop' => hops op' (List.mem_cons_of_mem _ hop'))
        (by rwa [hmax]) hstep
      rw [hmax, hlru] at hrest
      exact ⟨s', .cons hanswer hrest, hinv⟩

lemma run_config (ops : List CacheOp) :
    (c.run o ops).maxNumItems = c.maxNumItems ∧ (c.run o ops).lru = c.lru := by
  induction ops generalizing c with
  | nil => exact ⟨rfl, rfl⟩
  | cons op ops ih =>
      obtain ⟨hmax, hlru⟩ := ih (c := (c.apply o op).1)
      exact ⟨hmax.trans apply_config.1, hlru.trans apply_config.2⟩

/-- What is in a cache that is not LRU stays there until it is removed. -/
lemma mem_apply_of_not_lru (hl : c.lru = false) {e : Device} (he : e ∈ c.list) :
    e ∈ (c.apply o op).1.list ∨ ∃ key, op = .remove key ∧ Device.Equal e key := by
  have hins : ∀ d, e ∈ (c.insert d).list := by
    intro d
    by_cases hfull : c.maxNumItems ≤ c.list.length
    · rwa [insert_list_full hl hfull]
    · exact mem_insert_of_mem (Nat.not_le.mp hfull) he
  have hread : ∀ found key, e ∈ (c.readThrough found none key).1.list := by
    intro found key
    cases found with
    | none => exact he
    | some d => exact hins d
  cases op with
  | insert d => exact Or.inl (hins d)
  | get key => exact Or.inl (hread _ key)
  | getByEntity key => exact Or.inl (hread _ key)
  | getByName key => exact Or.inl (hread _ key)
  | remove key =>
      show e ∈ (c.remove key).list ∨ _
      rw [Cache.remove]
      cases hf : BoundedSeq.find (Device.collide h) key c.list with
      | none => exact Or.inl he
      | some d =>
          obtain ⟨-, hcol⟩ := BoundedSeq.mem_of_find hf
          by_cases hed : e = d
          · exact Or.inr ⟨key, rfl, hed ▸ hcol.2⟩
          · exact Or.inl ((c.distinct.nodup Device.collide_refl).mem_erase_iff.mpr ⟨hed, he⟩)

lemma mem_run_of_not_lru (hl : c.lru = false) {e : Device} (he : e ∈ c.list)
    (ops : List CacheOp) :
    e ∈ (c.run o ops).list ∨ ∃ key, .remove key ∈ ops ∧ Device.Equal e key := by
  induction ops generalizing c with
  | nil => exact Or.inl he
  | cons op ops ih =>
      have hstay : e ∈ (c.apply o op).1.list ∨ _ := mem_apply_of_not_lru hl he
      rcases hstay with hmem | ⟨key, rfl, heq⟩
      · refine (ih (by rw [apply_config.2, hl]) hmem).imp_right ?_
        rintro ⟨key, hkey, heq⟩
        exact ⟨key, List.mem_cons_of_mem _ hkey, heq⟩
      · exact Or.inr ⟨key, List.mem_cons_self .., heq⟩

/-- **The cache is a bounded recency list**: no more devices than its capacity and no two
equal ones; it answers every operation as a bounded set does and lists what the set holds, and
an LRU cache in the order of use. A cache that is not LRU takes nothing when it is full and
gives up nothing but what is removed. -/
theorem run_refines_recency (o : Order Device String) (capacity : ℕ) (hcap : 1 ≤ capacity)
    (lru : Bool) (ops : List CacheOp) (hagree : Agreeing h (ops.map CacheOp.device)) :
    ((empty capacity lru : Cache h).run o ops).size ≤ capacity ∧
    ((empty capacity lru : Cache h).run o ops).list.Pairwise (fun x y => ¬ Device.Equal x y) ∧
    (∃ s, Recency.Runs Device.classKey capacity lru Recency.empty
        ((empty capacity lru : Cache h).trace o ops) s ∧
      Recency.Lists Device.classKey lru s ((empty capacity lru : Cache h).run o ops).list) ∧
    (lru = false →
      (((empty capacity lru : Cache h).run o ops).size = capacity →
        ∀ d, (((empty capacity lru : Cache h).run o ops).insert d).list
          = ((empty capacity lru : Cache h).run o ops).list) ∧
      ∀ before after, ops = before ++ after →
        ∀ e ∈ ((empty capacity lru : Cache h).run o before).list,
          e ∈ ((empty capacity lru : Cache h).run o ops).list ∨
            ∃ key, .remove key ∈ after ∧ Device.Equal e key) := by
  have hstart : CacheInv (ops.map CacheOp.device) (empty capacity lru : Cache h) Recency.empty :=
    ⟨by simp [empty], Nat.zero_le _, Recency.Lists.empty⟩
  obtain ⟨s, hruns, hinv⟩ := hstart.run (o := o) hagree ops
    (fun op hop => List.mem_map_of_mem hop) hcap
  obtain ⟨hmax, hlru⟩ := run_config (o := o) (c := (empty capacity lru : Cache h)) ops
  have hlists := hinv.lists
  rw [hlru] at hlists
  refine ⟨hinv.size.trans_eq hmax, ?_, ⟨s, hruns, hlists⟩, fun hl => ⟨?_, ?_⟩⟩
  · refine (Cache.distinct _).imp_of_mem fun {a b} ha hb hab heq => hab ?_
    exact (hagree.collide_iff (hinv.mem a ha) (hinv.mem b hb)).mpr
      (Device.equal_iff_classKey.mp heq)
  · intro hfull d
    exact insert_list_full (hlru.trans hl) (hmax.trans hfull.symm).le
  · rintro before after rfl e he
    rw [run_append]
    exact mem_run_of_not_lru ((run_config before).2.trans hl) he after

/-- A cache of two devices: `a` is looked up, so that `b` has to go when `c` comes. -/
def threeNames : List CacheOp :=
  [.insert (Device.ofName "a" "s"), .insert (Device.ofName "b" "s"),
    .get (Device.ofName "a" "s"), .insert (Device.ofName "c" "s"),
    .getByName (Device.ofName "b" "")]

theorem run_refines_recency_threeNames :
    ∃ s, Recency.Runs Device.classKey 2 true Recency.empty
        [(.insert (Device.ofName "a" "s"), none), (.insert (Device.ofName "b" "s"), none),
          (.fetch fun d => d.classKey = ("a", "s"), some (Device.ofName "a" "s")),
          (.insert (Device.ofName "c" "s"), none), (.fetch fun d => d.uniqueName = "b", none)] s ∧
      Recency.Lists Device.classKey true s [Device.ofName "c" "s", Device.ofName "a" "s"] := by
  have hagree : Agreeing byLength (threeNames.map CacheOp.device) := by
    simp [Agreeing, threeNames, CacheOp.device, Device.Equal, Device.ofName]
  obtain ⟨-, -, ⟨s, hruns, hlists⟩, -⟩ := run_refines_recency
    (Order.favour (Device.ofName "a" "s")) 2 (by decide) true threeNames hagree
  have hlist : ((empty 2 true : Cache byLength).run (Order.favour (Device.ofName "a" "s"))
      threeNames).list = [Device.ofName "c" "s", Device.ofName "a" "s"] := by
    decide
  exact ⟨s, hruns, hlist ▸ hlists⟩

end Cache

end IotAgent
