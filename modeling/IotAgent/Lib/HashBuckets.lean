import Mathlib.Data.List.TakeWhile
import Mathlib.Data.List.Perm.Basic
import Mathlib.Logic.Function.Basic

/-!
The buckets of hashed indices.

A hashed index files an element in the bucket that belongs to the hash value of its key, and a
search for a key looks into one bucket only. The bucket of an element is chosen when it comes
in and when the index gets more buckets, at no other time: if the key changes meanwhile, the
element stays where it is.

* `Index`, `Policy`: an index, and how elements are assigned to buckets;
* `Policy.Filed`: the element is in the bucket of its present key;
* `Policy.reserve`, `Policy.file`: more buckets, a new element; `filed_reserve`, `filed_file`:
  what is filed stays filed;
* `Policy.range`: what a search for a key meets; `mem_range_iff`: an element is met under its
  present key exactly when it is filed;
* `Iteration`: the order in which an index is run through.
-/

namespace HashBuckets

variable {α κ : Type*}

/-- The number of buckets, and the bucket in which each element is. -/
structure Index (α : Type*) where
  count : ℕ
  bucketOf : α → ℕ

/-- How a container assigns buckets: the bucket of a hash value, the number of buckets for a
number of elements, and the buckets after a change of their number. If all elements are in the
bucket of their keys before it, they are afterwards. -/
structure Policy (α : Type*) where
  position : ℕ → ℕ → ℕ
  reserved : ℕ → ℕ → ℕ
  rehash : (α → ℕ) → List α → Index α → ℕ → α → ℕ
  rehash_spec : ∀ hash l i count, (∀ x ∈ l, i.bucketOf x = position i.count (hash x)) →
    ∀ x ∈ l, rehash hash l i count x = position count (hash x)

namespace Policy

variable (P : Policy α) (hash : α → ℕ) (l : List α) (i : Index α)

/-- The bucket where an element belongs. -/
def home (x : α) : ℕ :=
  P.position i.count (hash x)

/-- The element is in the bucket where it belongs. -/
def Filed (x : α) : Prop :=
  i.bucketOf x = P.home hash i x

instance (x : α) : Decidable (P.Filed hash i x) :=
  inferInstanceAs (Decidable (_ = _))

/-- Room for `n` elements. -/
def reserve (n : ℕ) : Index α :=
  if P.reserved i.count n = i.count then i
  else ⟨P.reserved i.count n, P.rehash hash l i (P.reserved i.count n)⟩

/-- A new element comes into the bucket of its key. -/
def file [DecidableEq α] (x : α) : Index α :=
  { i with bucketOf := Function.update i.bucketOf x (P.home hash i x) }

/-- Whether a search for the key `k`, with the hash value `n`, meets the element. -/
def Meets (key : α → κ) (k : κ) (n : ℕ) (x : α) : Prop :=
  i.bucketOf x = P.position i.count n ∧ key x = k

instance [DecidableEq κ] (key : α → κ) (k : κ) (n : ℕ) (x : α) :
    Decidable (P.Meets i key k n x) :=
  inferInstanceAs (Decidable (_ ∧ _))

/-- The elements that a search for the key `k`, with the hash value `n`, meets. -/
def range [DecidableEq κ] (key : α → κ) (k : κ) (n : ℕ) : List α :=
  l.filter fun x => P.Meets i key k n x

variable {P hash l i} {x : α}

/-- More buckets leave every element where it belongs, if they all were. -/
lemma filed_reserve {n : ℕ} (h : ∀ x ∈ l, P.Filed hash i x) :
    ∀ x ∈ l, P.Filed hash (P.reserve hash l i n) x := by
  intro x hx
  rw [reserve]
  split
  · exact h x hx
  · exact P.rehash_spec hash l i _ h x hx

lemma filed_file_self [DecidableEq α] : P.Filed hash (P.file hash i x) x :=
  Function.update_self _ _ _

/-- A new element leaves the others where they are. -/
lemma filed_file [DecidableEq α] {y : α} (h : P.Filed hash i y) :
    P.Filed hash (P.file hash i x) y := by
  by_cases hyx : y = x
  · subst hyx
    exact filed_file_self
  · exact (Function.update_of_ne hyx _ _).trans h

/-- An element is met under its present key exactly when it is filed. -/
lemma mem_range_iff [DecidableEq κ] {key : α → κ} (hx : x ∈ l) :
    x ∈ P.range l i key (key x) (hash x) ↔ P.Filed hash i x := by
  rw [range, List.mem_filter, decide_eq_true_eq]
  exact ⟨fun h => h.2.1, fun h => ⟨hx, h, rfl⟩⟩

/-- Only the keys of the elements matter. -/
lemma filed_congr {hash' : α → ℕ} (h : hash x = hash' x) :
    P.Filed hash i x ↔ P.Filed hash' i x := by
  rw [Filed, Filed, home, home, h]

/-- For an element that is filed a change of the key matters as far as the bucket goes. -/
lemma filed_iff_home_eq {hash' : α → ℕ} (h : P.Filed hash i x) :
    P.Filed hash' i x ↔ P.home hash' i x = P.home hash i x := by
  rw [Filed, h, eq_comm]

end Policy

/-! ### Iterations -/

/-- An order of the elements, whatever it is. -/
structure Iteration (α : Type*) where
  order : List α → List α
  perm : ∀ l, (order l).Perm l

namespace Iteration

variable (o : Iteration α) (p : α → Prop) [DecidablePred p] (l : List α)

/-- The first element that a search meets. -/
def find : Option α :=
  (o.order l).find? fun x => p x

/-- The elements from there to the end of the index. -/
def walk : List α :=
  (o.order l).dropWhile fun x => ¬ p x

variable {o p l} {x : α}

lemma mem_of_find (h : o.find p l = some x) : x ∈ l :=
  (o.perm l).mem_iff.mp (List.mem_of_find?_eq_some h)

lemma mem_of_walk (h : x ∈ o.walk p l) : x ∈ l :=
  (o.perm l).mem_iff.mp ((List.dropWhile_suffix _).subset h)

end Iteration

end HashBuckets
