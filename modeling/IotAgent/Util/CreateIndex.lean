import IotAgent.Util.Collection
import IotAgent.Util.CommandCollection
import IotAgent.Util.DeviceCollection
import IotAgent.Util.ServiceCollection

/-!
The indexes that the collections ask for at the start (`src/util/collection.cc` and the
functions `createTableAndIndex`).

`createIndex` counts the indexes of the collection. If they are two, it is to compare the one
beside `_id` with what is asked for, but the result of the comparison is thrown away and
nothing happens. In every other case all indexes are dropped and the one is created. A
collection that asks for two indexes has one of them at best afterwards.

* `Indexes`: the indexes of a collection;
* `createIndex`, `createIndexes`: the function of the source, and its calls for one collection,
  over what fails in each call;
* `Ensures`: after every success the unique indexes are there;
* `createTableAndIndex_ensures_iff`: the index sets that the collections start well from.
-/

namespace IotAgent

open Mongo

/-- An index on some fields. -/
structure Index where
  keys : List String
  unique : Bool
  deriving DecidableEq

/-- The indexes of a collection: the one on `_id`, which every collection has that exists,
and the others. -/
structure Indexes where
  idIndex : Bool
  others : List Index
  idIndex_of_others : others ≠ [] → idIndex = true

/-- What fails in a call of `createIndex`. -/
structure IndexFaults where
  count : Bool
  check : Bool
  drop : Bool
  ensure : Bool

/-- A server that answers all requests. -/
def noFaults : IndexFaults :=
  ⟨false, false, false, false⟩

namespace Indexes

/-- The number of entries in `system.indexes`. -/
def count (s : Indexes) : ℕ :=
  s.others.length + s.idIndex.toNat

/-- A collection has a unique index on these fields. -/
def HasUnique (s : Indexes) (keys : List String) : Prop :=
  ⟨keys, true⟩ ∈ s.others

instance (s : Indexes) (keys : List String) : Decidable (s.HasUnique keys) :=
  inferInstanceAs (Decidable (_ ∈ _))

/-- `dropIndexes`, which keeps the index on `_id`. What the server throws is caught. -/
def dropIndexes (fails : Bool) (s : Indexes) : Indexes :=
  if fails then s else { s with others := [], idIndex_of_others := fun h => absurd rfl h }

/-- `ensureIndex`. The server keeps an index that is there, and refuses to change its
options. -/
def ensureIndex (fails : Bool) (s : Indexes) (index : Index) : Except IotaException Indexes :=
  if fails then .error (Collection.databaseError "DBException ")
  else
    match s.others.find? fun i => i.keys = index.keys with
    | some i => if i.unique = index.unique then .ok s
        else .error (Collection.databaseError "DBException ")
    | none => .ok ⟨true, s.others ++ [index], fun _ => rfl⟩

/-- The exception of `count`; `what` is its text. -/
def countError (what : String) : IotaException :=
  ⟨Types.responseMessageDatabaseError, what, 500⟩

/-- `createIndex`. -/
def createIndex (f : IndexFaults) (what : String) (s : Indexes) (index : Index) :
    Except IotaException (Indexes × ℤ) :=
  if f.count then .error (countError what)
  else if s.count = 2 then
    -- `dropIndex == ...`: the index is looked for, and the answer is not assigned
    if f.check then .error (countError what) else .ok (s, 200)
  else (ensureIndex f.ensure (dropIndexes f.drop s) index).map fun s' => (s', 200)

/-- Unique indexes, created one after the other; the code is that of the last call. -/
def createIndexes (what : String) : (ℕ → IndexFaults) → Indexes → List (List String) →
    Except IotaException (Indexes × ℤ)
  | _, s, [] => .ok (s, 200)
  | f, s, [keys] => createIndex (f 0) what s ⟨keys, true⟩
  | f, s, keys :: rest =>
      match createIndex (f 0) what s ⟨keys, true⟩ with
      | .ok (s', _) => createIndexes what (fun i => f (i + 1)) s' rest
      | .error e => .error e

end Indexes

/-! ### What the collections ask for -/

/-- The unique indexes of `DeviceCollection::createTableAndIndex`. -/
def deviceRequired : List (List String) :=
  [[StoreTypes.deviceId, StoreTypes.service, StoreTypes.servicePath],
    [StoreTypes.entityName, StoreTypes.entityType, StoreTypes.service, StoreTypes.servicePath]]

/-- The unique index of `CommandCollection::createTableAndIndex`. -/
def commandRequired : List (List String) :=
  [commandIndex]

/-- The unique indexes of `ServiceCollection::createTableAndIndex`. -/
def serviceRequired : List (List String) :=
  [[StoreTypes.apikey, StoreTypes.resource],
    [StoreTypes.service, StoreTypes.servicePath, StoreTypes.resource]]

namespace Indexes

/-- Whenever `createTableAndIndex` returns, the collection has what was asked for. -/
def Ensures (required : List (List String)) (s : Indexes) : Prop :=
  ∀ f what s' code, createIndexes what f s required = .ok (s', code) →
    ∀ keys ∈ required, s'.HasUnique keys

variable {s s' : Indexes} {f : IndexFaults} {what : String} {index : Index} {code : ℤ}
  {keys keys' : List String}

/-! ### One call -/

/-- A server that has taken an index has it. -/
lemma mem_of_ensureIndex {fails : Bool} (h : ensureIndex fails s index = .ok s') :
    index ∈ s'.others := by
  rw [ensureIndex] at h
  split at h
  · cases h
  · split at h
    · next i hi =>
        split at h
        · next hu =>
            cases h
            have hmem := List.mem_of_find?_eq_some hi
            have hkeys : i.keys = index.keys := by simpa using List.find?_some hi
            have heq : i = index := by
              cases i
              cases index
              simp_all
            exact heq ▸ hmem
        · cases h
    · cases h
      simp

/-- A call that returns has left everything as it was, or made the index. -/
lemma createIndex_ok (h : createIndex f what s index = .ok (s', code)) :
    s.count = 2 ∧ s' = s ∨ s.count ≠ 2 ∧ index ∈ s'.others := by
  rw [createIndex] at h
  split at h
  · cases h
  · split at h
    · next hc =>
        split at h
        · cases h
        · cases h
          exact .inl ⟨hc, rfl⟩
    · next hc =>
        cases he : ensureIndex f.ensure (dropIndexes f.drop s) index with
        | error e =>
            rw [he] at h
            cases h
        | ok s'' =>
            rw [he] at h
            cases h
            exact .inr ⟨hc, mem_of_ensureIndex he⟩

lemma createIndex_of_two (hs : s.count = 2) :
    createIndex noFaults what s index = .ok (s, 200) := by
  have hcount : ¬ noFaults.count = true := Bool.false_ne_true
  rw [createIndex, if_neg hcount, if_pos hs]
  rfl

/-- Otherwise the index is the only one beside that on `_id`. -/
lemma createIndex_of_ne_two (hs : s.count ≠ 2) :
    createIndex noFaults what s index = .ok (⟨true, [index], fun _ => rfl⟩, 200) := by
  have hcount : ¬ noFaults.count = true := Bool.false_ne_true
  rw [createIndex, if_neg hcount, if_neg hs]
  rfl

/-- With two indexes there is one beside that on `_id`. -/
lemma length_others_of_two (hs : s.count = 2) : s.others.length = 1 := by
  have hid : s.others ≠ [] → s.idIndex = true := s.idIndex_of_others
  cases hl : s.others with
  | nil =>
      rw [count, hl, List.length_nil] at hs
      have hle : s.idIndex.toNat ≤ 1 := Bool.toNat_le s.idIndex
      omega
  | cons i is =>
      have htrue : s.idIndex = true := hid (by simp [hl])
      rw [count, hl, htrue, Bool.toNat_true] at hs
      omega

/-! ### One required index -/

lemma ensures_one_iff : Ensures [keys] s ↔ s.count ≠ 2 ∨ s.HasUnique keys := by
  constructor
  · intro h
    by_cases hs : s.count = 2
    · exact .inr (h (fun _ => noFaults) "" s 200 (createIndex_of_two hs) keys (by simp))
    · exact .inl hs
  · intro h f what s' code hok keys' hk
    obtain rfl : keys' = keys := List.mem_singleton.mp hk
    rcases createIndex_ok hok with ⟨htwo, rfl⟩ | ⟨-, hmem⟩
    · exact h.resolve_left (not_not_intro htwo)
    · exact hmem

/-! ### Two required indexes -/

/-- From every index set but those of two, the first of the indexes is made and the second
is not. -/
lemma createIndexes_two (hs : s.count ≠ 2) :
    createIndexes what (fun _ => noFaults) s [keys, keys'] =
      .ok (⟨true, [⟨keys, true⟩], fun _ => rfl⟩, 200) := by
  rw [createIndexes, createIndex_of_ne_two hs]
  · exact createIndex_of_two rfl
  · simp

/-- From an index set of two nothing is made. -/
lemma createIndexes_two_of_two (hs : s.count = 2) :
    createIndexes what (fun _ => noFaults) s [keys, keys'] = .ok (s, 200) := by
  rw [createIndexes, createIndex_of_two hs]
  · exact createIndex_of_two hs
  · simp

lemma not_ensures_two (hne : keys ≠ keys') : ¬ Ensures [keys, keys'] s := by
  intro h
  by_cases hs : s.count = 2
  · have hok := h _ "" s 200 (createIndexes_two_of_two hs)
    obtain ⟨i, hi⟩ := List.length_eq_one_iff.mp (length_others_of_two hs)
    have h1 : (⟨keys, true⟩ : Index) ∈ s.others := hok keys (by simp)
    have h2 : (⟨keys', true⟩ : Index) ∈ s.others := hok keys' (by simp)
    rw [hi, List.mem_singleton] at h1 h2
    exact hne (Index.mk.inj (h1.trans h2.symm)).1
  · have h2 := h _ "" _ 200 (createIndexes_two hs) keys' (by simp)
    have heq : (⟨keys', true⟩ : Index) = ⟨keys, true⟩ := List.mem_singleton.mp h2
    exact hne (Index.mk.inj heq).1.symm

/-- A table of devices that was not there gets the indexes of `deviceIndexes`. -/
theorem deviceIndexes_created : ∃ s', createIndexes what (fun _ => noFaults)
    ⟨false, [], fun h => absurd rfl h⟩ deviceRequired = .ok (s', 200) ∧
      s'.others.map Index.keys = deviceIndexes :=
  ⟨_, createIndexes_two (by decide), rfl⟩

/-- A table of services that was not there gets the indexes of `serviceIndexes`. -/
theorem serviceIndexes_created : ∃ s', createIndexes what (fun _ => noFaults)
    ⟨false, [], fun h => absurd rfl h⟩ serviceRequired = .ok (s', 200) ∧
      s'.others.map Index.keys = serviceIndexes :=
  ⟨_, createIndexes_two (by decide), rfl⟩

/-- **Required indexes**: the collection of commands has its index after every success if it
did not start with two indexes, or with this one among them; the collections of devices and
of services never have theirs. -/
theorem createTableAndIndex_ensures_iff (s : Indexes) :
    (Ensures commandRequired s ↔ s.count ≠ 2 ∨ s.HasUnique commandIndex) ∧
      ¬ Ensures deviceRequired s ∧ ¬ Ensures serviceRequired s :=
  ⟨ensures_one_iff, not_ensures_two (by decide), not_ensures_two (by decide)⟩

/-- A collection that is not there, and one with an index of another version. -/
theorem not_ensures_fresh :
    ¬ Ensures deviceRequired ⟨false, [], fun h => absurd rfl h⟩ ∧
    ¬ Ensures serviceRequired ⟨false, [], fun h => absurd rfl h⟩ ∧
    ¬ Ensures commandRequired ⟨true, [⟨["sequence"], false⟩], fun _ => rfl⟩ :=
  ⟨not_ensures_two (by decide), not_ensures_two (by decide),
    fun h => absurd (ensures_one_iff.mp h) (by decide)⟩

end Indexes

end IotAgent
