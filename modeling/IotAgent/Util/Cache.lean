import IotAgent.Lib.BoundedSeq
import IotAgent.Lib.HashIndex
import IotAgent.Util.Device

/-!
The cache of devices.

The same container as the cache of commands, over devices. Its timers only remove devices
and are no part of the content.

* `Cache`: the cache with its invariant, no two devices colliding;
* `Cache.get`, `Cache.getByEntity`, `Cache.getByName`: look-ups that read through to the
  store;
* `Cache.remove`: removal by the unique index;
* `HoldsApart`: two devices are held side by side, each found and removed under its own
  key. `holdsApart_iff` says when two devices of one name and service are.
-/

namespace IotAgent

open HashIndex

/-- How a cache gets a device that it does not hold; `none` if it has no such function. -/
abbrev DeviceGetFunction := Option (Device → Option Device)

/-- The cache of devices. -/
structure Cache (h : Hashing) where
  maxNumItems : ℕ
  lru : Bool
  list : List Device
  distinct : BoundedSeq.Distinct (Device.collide h) list

namespace Cache

variable {h : Hashing}

/-- An empty cache. -/
def empty (capacity : ℕ) (lru : Bool) : Cache h :=
  ⟨capacity, lru, [], List.Pairwise.nil⟩

variable (c : Cache h)

/-- The number of devices in the cache. -/
def size : ℕ :=
  c.list.length

/-- Insertion of a device. -/
def insert (item : Device) : Cache h where
  __ := c
  list := BoundedSeq.insert (Device.collide h) c.maxNumItems c.lru item c.list
  distinct := c.distinct.insert Device.collide_symm

/-- The cache without an element. -/
def erase (d : Device) : Cache h where
  __ := c
  list := c.list.erase d
  distinct := c.distinct.sublist List.erase_sublist

/-- The look-ups end alike: a hit is inserted again, a miss is read through. -/
def readThrough (found : Option Device) (fetch : DeviceGetFunction) (key : Device) :
    Cache h × Option Device :=
  match found with
  | some d => (c.insert d, some d)
  | none =>
      match fetch.bind fun getFunction => getFunction key with
      | some newItem => (c.insert newItem, some newItem)
      | none => (c, none)

/-- `get`, by the unique index. -/
def get (fetch : DeviceGetFunction) (key : Device) : Cache h × Option Device :=
  c.readThrough (BoundedSeq.find (Device.collide h) key c.list) fetch key

variable (o : Order Device String)

/-- `get_by_entity`. -/
def getByEntity (fetch : DeviceGetFunction) (key : Device) : Cache h × Option Device :=
  c.readThrough (o.find Device.uniqueEntity key.uniqueEntity c.list) fetch key

/-- `get_by_name`. -/
def getByName (fetch : DeviceGetFunction) (key : Device) : Cache h × Option Device :=
  c.readThrough (o.find Device.uniqueName key.uniqueName c.list) fetch key

/-- `remove`, by the unique index. -/
def remove (key : Device) : Cache h :=
  match BoundedSeq.find (Device.collide h) key c.list with
  | some d => c.erase d
  | none => c

/-- A look-up ends with what it found, or with what it got. -/
lemma readThrough_snd {c : Cache h} {found : Option Device} {fetch : DeviceGetFunction}
    {key : Device} :
    (c.readThrough found fetch key).2 = found.or (fetch.bind fun getFunction =>
      getFunction key) := by
  cases found with
  | some d => rfl
  | none =>
      rw [readThrough]
      cases fetch.bind fun getFunction => getFunction key <;> rfl

/-- A look-up that ends with nothing leaves the cache. -/
lemma readThrough_eq_of_snd {c : Cache h} {found : Option Device} {fetch : DeviceGetFunction}
    {key : Device} (hn : (c.readThrough found fetch key).2 = none) :
    (c.readThrough found fetch key).1 = c := by
  cases found with
  | some d => cases hn
  | none =>
      rw [readThrough] at hn ⊢
      cases hf : fetch.bind fun getFunction => getFunction key with
      | some newItem => simp [hf] at hn
      | none => rfl

/-! ### The content after an insertion -/

section Insert

variable {c} {d e : Device}

@[simp] lemma insert_maxNumItems : (c.insert d).maxNumItems = c.maxNumItems := rfl

@[simp] lemma insert_lru : (c.insert d).lru = c.lru := rfl

lemma insert_list_perm_of_find (he : BoundedSeq.find (Device.collide h) d c.list = some e) :
    (c.insert d).list.Perm c.list :=
  BoundedSeq.insert_perm_of_find he

lemma insert_list_perm_cons (hn : BoundedSeq.find (Device.collide h) d c.list = none)
    (hroom : c.size < c.maxNumItems) : (c.insert d).list.Perm (d :: c.list) :=
  BoundedSeq.insert_perm_cons hn hroom

lemma eq_or_mem_of_mem_insert (he : e ∈ (c.insert d).list) : e = d ∨ e ∈ c.list :=
  List.mem_cons.mp (BoundedSeq.insert_subperm.subset he)

/-- With room nothing is dropped. -/
lemma mem_insert_of_mem (hroom : c.size < c.maxNumItems) (he : e ∈ c.list) :
    e ∈ (c.insert d).list := by
  cases hf : BoundedSeq.find (Device.collide h) d c.list with
  | some y => exact (insert_list_perm_of_find hf).mem_iff.mpr he
  | none => exact (insert_list_perm_cons hf hroom).mem_iff.mpr (List.mem_cons_of_mem _ he)

/-- With room a device is held afterwards unless another one stands in its way. -/
lemma mem_insert_self_iff (hroom : c.size < c.maxNumItems) :
    d ∈ (c.insert d).list ↔ ∀ y ∈ c.list, Device.collide h y d → y = d := by
  cases hf : BoundedSeq.find (Device.collide h) d c.list with
  | some y =>
      obtain ⟨hy, hyd⟩ := BoundedSeq.mem_of_find hf
      rw [(insert_list_perm_of_find hf).mem_iff]
      refine ⟨fun hd z hz hzd => c.distinct.eq_of_rel Device.collide_symm hz hd hzd, ?_⟩
      intro hall
      exact hall y hy hyd ▸ hy
  | none =>
      have hfree := BoundedSeq.find_eq_none_iff.mp hf
      refine ⟨fun _ y hy hyd => absurd hyd (hfree y hy), fun _ => ?_⟩
      exact (insert_list_perm_cons hf hroom).mem_iff.mpr (by simp)

/-- A key collides with one held device only. -/
lemma eq_of_collide {key : Device} (hd : d ∈ c.list) (he : e ∈ c.list)
    (hdkey : Device.collide h d key) (hekey : Device.collide h e key) : d = e :=
  c.distinct.eq_of_rel Device.collide_symm hd he (Device.collide_of_key hdkey hekey)

/-- A held device is found under its key. -/
lemma find_of_sameKey {key : Device} (hd : d ∈ c.list) (hk : Device.SameKey key d) :
    BoundedSeq.find (Device.collide h) key c.list = some d := by
  have hself := c.distinct.find_self Device.collide_refl Device.collide_symm hd
  rw [← hself, BoundedSeq.find, BoundedSeq.find]
  congr 1
  funext y
  exact decide_eq_decide.mpr (hk.collide_iff y)

/-- A held device is got under its key. -/
lemma get_of_sameKey {key : Device} (fetch : DeviceGetFunction) (hd : d ∈ c.list)
    (hk : Device.SameKey key d) : (c.get fetch key).2 = some d := by
  rw [get, find_of_sameKey hd hk]
  rfl

/-- With nothing to get devices from, a look-up changes their order only. -/
lemma readThrough_list_perm {found : Option Device} {key : Device}
    (hfound : ∀ d ∈ found, d ∈ c.list) : (c.readThrough found none key).1.list.Perm c.list := by
  cases found with
  | none => exact .refl _
  | some d =>
      exact insert_list_perm_of_find
        (c.distinct.find_self Device.collide_refl Device.collide_symm (hfound d rfl))

/-- A held device is removed under its key, and no other device is. -/
lemma mem_remove_of_sameKey {key : Device} (hd : d ∈ c.list) (hk : Device.SameKey key d) :
    e ∈ (c.remove key).list ↔ e ∈ c.list ∧ e ≠ d := by
  rw [remove, find_of_sameKey hd hk]
  have hnd := c.distinct.nodup Device.collide_refl
  exact hnd.mem_erase_iff.trans and_comm

/-- Behind a removal nothing that the index takes for the key is held. -/
lemma not_collide_of_mem_remove {key : Device} (he : e ∈ (c.remove key).list) :
    e ∈ c.list ∧ ¬ Device.collide h e key := by
  rw [remove] at he
  cases hf : BoundedSeq.find (Device.collide h) key c.list with
  | none =>
      rw [hf] at he
      exact ⟨he, BoundedSeq.find_eq_none_iff.mp hf e he⟩
  | some d =>
      rw [hf] at he
      obtain ⟨hd, hdkey⟩ := BoundedSeq.mem_of_find hf
      have hmem := (c.distinct.nodup Device.collide_refl).mem_erase_iff.mp he
      exact ⟨hmem.2, fun hekey => hmem.1 (eq_of_collide hmem.2 hd hekey hdkey)⟩

end Insert

/-! ### Two devices of one name and service -/

/-- Both devices are held, each found and removed under its own key and no other. -/
structure HoldsApart (d₁ d₂ : Device) : Prop where
  mem₁ : d₁ ∈ c.list
  mem₂ : d₂ ∈ c.list
  get₁ : ∀ fetch key, Device.SameKey key d₁ → (c.get fetch key).2 = some d₁
  get₂ : ∀ fetch key, Device.SameKey key d₂ → (c.get fetch key).2 = some d₂
  remove₁ : ∀ key, Device.SameKey key d₁ →
    ∀ e, e ∈ (c.remove key).list ↔ e ∈ c.list ∧ e ≠ d₁
  remove₂ : ∀ key, Device.SameKey key d₂ →
    ∀ e, e ∈ (c.remove key).list ↔ e ∈ c.list ∧ e ≠ d₂

section Apart

variable {c} {d₁ d₂ : Device}

/-- Being held is all there is to it. -/
lemma holdsApart_iff_mem : c.HoldsApart d₁ d₂ ↔ d₁ ∈ c.list ∧ d₂ ∈ c.list :=
  ⟨fun ha => ⟨ha.mem₁, ha.mem₂⟩, fun ⟨h₁, h₂⟩ =>
    ⟨h₁, h₂, fun fetch _ hk => get_of_sameKey fetch h₁ hk,
      fun fetch _ hk => get_of_sameKey fetch h₂ hk,
      fun _ hk _ => mem_remove_of_sameKey h₁ hk, fun _ hk _ => mem_remove_of_sameKey h₂ hk⟩⟩

/-- Nothing that is cached stands in the way of a device. -/
def Free (c : Cache h) (d : Device) : Prop :=
  ∀ y ∈ c.list, Device.collide h y d → y = d

/-- There is room for both devices, or one is there already. An LRU cache makes room by
dropping its oldest device. -/
def RoomForBoth (c : Cache h) (d₁ d₂ : Device) : Prop :=
  d₁ ∈ c.list ∨ d₂ ∈ c.list ∨ c.size + 2 ≤ c.maxNumItems ∨ (c.lru = true ∧ 2 ≤ c.maxNumItems)

/-- What is held after both insertions had nothing in its way. -/
lemma free_of_mem (hne : d₁ ≠ d₂) (hroom : c.size < c.maxNumItems)
    (h₁ : d₁ ∈ ((c.insert d₁).insert d₂).list) (h₂ : d₂ ∈ ((c.insert d₁).insert d₂).list) :
    ¬ Device.collide h d₁ d₂ ∧ c.Free d₁ ∧ c.Free d₂ := by
  have hmem₁ : d₁ ∈ (c.insert d₁).list := (eq_or_mem_of_mem_insert h₁).resolve_left hne
  refine ⟨fun hcol => hne ?_, (mem_insert_self_iff hroom).mp hmem₁, fun y hy hyd => ?_⟩
  · exact ((c.insert d₁).insert d₂).distinct.eq_of_rel Device.collide_symm h₁ h₂ hcol
  · -- the second insertion finds `y`, so it brings in nothing
    have hy' : y ∈ (c.insert d₁).list := mem_insert_of_mem hroom hy
    cases hf : BoundedSeq.find (Device.collide h) d₂ (c.insert d₁).list with
    | none => exact absurd hyd (BoundedSeq.find_eq_none_iff.mp hf y hy')
    | some z =>
        have hmem₂ := (insert_list_perm_of_find hf).mem_iff.mp h₂
        exact (c.insert d₁).distinct.eq_of_rel Device.collide_symm hy' hmem₂ hyd

/-- An LRU cache puts a new device in front, and drops the last one if it is full. -/
lemma insert_list_lru (hl : c.lru = true)
    (hn : BoundedSeq.find (Device.collide h) d₁ c.list = none) :
    (c.insert d₁).list =
      if (d₁ :: c.list).length > c.maxNumItems then (d₁ :: c.list).dropLast
      else d₁ :: c.list := by
  simp only [insert, BoundedSeq.insert, hl, hn, if_true]

/-- Any other cache takes nothing when it is full. -/
lemma insert_list_full (hl : c.lru = false) (hfull : c.maxNumItems ≤ c.list.length) :
    (c.insert d₁).list = c.list := by
  simp only [insert, BoundedSeq.insert, hl, Bool.false_eq_true, if_false,
    Nat.not_lt_of_le hfull]

/-- Where both insertions took something new, there was room. -/
lemma roomForBoth_of_mem (hne : d₁ ≠ d₂) (hroom : c.size < c.maxNumItems)
    (h₁ : d₁ ∈ ((c.insert d₁).insert d₂).list) (h₂ : d₂ ∈ ((c.insert d₁).insert d₂).list) :
    c.RoomForBoth d₁ d₂ := by
  by_contra hno
  simp only [RoomForBoth, not_or, not_and, not_le] at hno
  obtain ⟨hn₁, hn₂, hfull, hlru⟩ := hno
  have hsize : c.list.length + 1 = c.maxNumItems := by
    simp only [size] at hroom hfull
    omega
  have hmem₁ : d₁ ∈ (c.insert d₁).list := (eq_or_mem_of_mem_insert h₁).resolve_left hne
  have hnew₂ : d₂ ∉ (c.insert d₁).list := fun hmem =>
    (eq_or_mem_of_mem_insert hmem).elim (fun heq => hne heq.symm) hn₂
  have hf₁ : BoundedSeq.find (Device.collide h) d₁ c.list = none := by
    refine BoundedSeq.find_eq_none_iff.mpr fun y hy hyd => hn₁ ?_
    exact (mem_insert_self_iff hroom).mp hmem₁ y hy hyd ▸ hy
  have hf₂ : BoundedSeq.find (Device.collide h) d₂ (c.insert d₁).list = none := by
    cases hf : BoundedSeq.find (Device.collide h) d₂ (c.insert d₁).list with
    | none => rfl
    | some z => exact absurd ((insert_list_perm_of_find hf).mem_iff.mp h₂) hnew₂
  have hlen : (c.insert d₁).list.length = c.maxNumItems := by
    rw [(insert_list_perm_cons hf₁ hroom).length_eq, List.length_cons, hsize]
  by_cases hl : c.lru = true
  · -- the only device that was there is the first of the two
    have hnil : c.list = [] := List.eq_nil_of_length_eq_zero (by have := hlru hl; omega)
    have hfirst : (c.insert d₁).list = [d₁] := by
      rw [insert_list_lru hl hf₁, hnil, if_neg]
      simp only [List.length_singleton, ← hsize, hnil, List.length_nil]
      omega
    have hboth : ((c.insert d₁).insert d₂).list = [d₂] := by
      rw [insert_list_lru (c := c.insert d₁) hl hf₂, hfirst, if_pos]
      · rfl
      · simp only [insert_maxNumItems, ← hlen, hfirst, List.length_cons, List.length_nil]
        omega
    rw [hboth, List.mem_singleton] at h₁
    exact hne h₁
  · refine hnew₂ ?_
    have hsame : ((c.insert d₁).insert d₂).list = (c.insert d₁).list :=
      insert_list_full (by simpa using hl) (Nat.le_of_eq hlen.symm)
    exact hsame ▸ h₂

/-- With nothing in the way and room for both, both are held. -/
lemma mem_insert_insert (hne : d₁ ≠ d₂) (hroom : c.size < c.maxNumItems)
    (hcol : ¬ Device.collide h d₁ d₂) (hfree₁ : c.Free d₁) (hfree₂ : c.Free d₂)
    (hboth : c.RoomForBoth d₁ d₂) :
    d₁ ∈ ((c.insert d₁).insert d₂).list ∧ d₂ ∈ ((c.insert d₁).insert d₂).list := by
  have hmem₁ : d₁ ∈ (c.insert d₁).list := (mem_insert_self_iff hroom).mpr hfree₁
  have hfree : (c.insert d₁).Free d₂ := by
    intro y hy hyd
    rcases eq_or_mem_of_mem_insert hy with rfl | hy
    · exact absurd hyd hcol
    · exact hfree₂ y hy hyd
  have hheld : (c.insert d₁).size < (c.insert d₁).maxNumItems →
      d₁ ∈ ((c.insert d₁).insert d₂).list ∧ d₂ ∈ ((c.insert d₁).insert d₂).list :=
    fun hr => ⟨mem_insert_of_mem hr hmem₁, (mem_insert_self_iff hr).mpr hfree⟩
  by_cases hin₁ : d₁ ∈ c.list
  · have hf := c.distinct.find_self Device.collide_refl Device.collide_symm hin₁
    have hlen := (insert_list_perm_of_find hf).length_eq
    refine hheld ?_
    rwa [size, hlen]
  by_cases hin₂ : d₂ ∈ c.list
  · have hin' : d₂ ∈ (c.insert d₁).list := mem_insert_of_mem hroom hin₂
    have hf := (c.insert d₁).distinct.find_self Device.collide_refl Device.collide_symm hin'
    have hperm := insert_list_perm_of_find hf
    exact ⟨hperm.mem_iff.mpr hmem₁, hperm.mem_iff.mpr hin'⟩
  have hf₁ : BoundedSeq.find (Device.collide h) d₁ c.list = none :=
    BoundedSeq.find_eq_none_iff.mpr fun y hy hyd => hin₁ (hfree₁ y hy hyd ▸ hy)
  have hlen : (c.insert d₁).size = c.size + 1 :=
    (insert_list_perm_cons hf₁ hroom).length_eq
  rcases (hboth.resolve_left hin₁).resolve_left hin₂ with hsize | ⟨hl, htwo⟩
  · exact hheld (by rw [hlen, insert_maxNumItems]; omega)
  · by_cases hsize : c.size + 2 ≤ c.maxNumItems
    · exact hheld (by rw [hlen, insert_maxNumItems]; omega)
    · -- the last device is dropped, and it is none of the two
      have hfirst : (c.insert d₁).list = d₁ :: c.list := by
        rw [insert_list_lru hl hf₁, if_neg]
        exact Nat.not_lt.mpr hroom
      have hf₂ : BoundedSeq.find (Device.collide h) d₂ (c.insert d₁).list = none := by
        refine BoundedSeq.find_eq_none_iff.mpr fun y hy hyd => ?_
        have := eq_or_mem_of_mem_insert (hfree y hy hyd ▸ hy)
        exact this.elim (fun heq => hne heq.symm) hin₂
      obtain ⟨x, xs, hxs⟩ : ∃ x xs, c.list = x :: xs := by
        refine List.exists_cons_of_ne_nil fun hnil => ?_
        simp only [size, hnil, List.length_nil] at hsize
        omega
      rw [insert_list_lru (c := c.insert d₁) hl hf₂, hfirst, hxs]
      split <;> simp

/-- **Two devices of one name and service** in different service paths are held apart
exactly when they and whatever else is cached are told apart by their buckets, and there is
room for both. -/
theorem holdsApart_iff (c : Cache h) (d₁ d₂ : Device) (hname : d₁.name = d₂.name)
    (hservice : d₁.service = d₂.service) (hpath : d₁.servicePath ≠ d₂.servicePath)
    (hroom : c.size < c.maxNumItems) :
    ((c.insert d₁).insert d₂).HoldsApart d₁ d₂ ↔
      d₁.bucket h ≠ d₂.bucket h ∧ c.Free d₁ ∧ c.Free d₂ ∧ c.RoomForBoth d₁ d₂ := by
  have hne : d₁ ≠ d₂ := fun heq => hpath (congrArg Device.servicePath heq)
  have hcol : Device.collide h d₁ d₂ ↔ d₁.bucket h = d₂.bucket h := by
    simp [Device.collide, Device.Equal, hname, hservice]
  rw [holdsApart_iff_mem, ne_eq, ← hcol]
  constructor
  · rintro ⟨h₁, h₂⟩
    obtain ⟨hc, hf₁, hf₂⟩ := free_of_mem hne hroom h₁ h₂
    exact ⟨hc, hf₁, hf₂, roomForBoth_of_mem hne hroom h₁ h₂⟩
  · rintro ⟨hc, hf₁, hf₂, hb⟩
    exact mem_insert_insert hne hroom hc hf₁ hf₂ hb

/-- A device of one name and service in a given service path. -/
def inPath (servicePath : String) : Device :=
  { Device.ofName "d1" "service" with servicePath, active := 1 }

/-- The hash value is the length of the mixed texts, with a bucket for each. -/
def byLength : Hashing := ⟨fun n s => n + s.length, fun n => n⟩

/-- One bucket for all. -/
def oneBucket : Hashing := ⟨fun n s => n + s.length, fun _ => 0⟩

/-- A cache with two devices of one name and service inserted. -/
def bothInserted (h : Hashing) : Cache h :=
  ((empty Types.maxSizeCache false).insert (inPath "/")).insert (inPath "/a")

/-- Two service paths that fall into two buckets. -/
theorem holdsApart_inPath : (bothInserted byLength).HoldsApart (inPath "/") (inPath "/a") :=
  (holdsApart_iff (empty Types.maxSizeCache false) (inPath "/") (inPath "/a") rfl rfl
    (by decide) (by decide)).mpr
    ⟨by decide, by simp [Free, empty], by simp [Free, empty], .inr (.inr (.inl (by decide)))⟩

/-- Two service paths that fall into one bucket: the second device is not inserted. -/
theorem not_holdsApart_inPath :
    ¬ (bothInserted oneBucket).HoldsApart (inPath "/") (inPath "/a") := by
  intro ha
  have hmem := ha.mem₂
  revert hmem
  decide

end Apart

end Cache

end IotAgent
