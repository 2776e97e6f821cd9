import IotAgent.Util.Types

/-!
Commands.

A command of the context broker to a device. Three keys identify it in three places: the
sequence and the service (`Command.Equal`) with the service path mixed into the hash value
only, the texts `Command.uniqueEntity` and `Command.uniqueId`, and in the store the
identifier, the service and the service path.

* `Command.ofEntity`, `Command.ofRequest`, `Command.ofStored`: the three constructors;
* `Command.collide`: equality as the unique index of a hashed container sees it.
-/

namespace IotAgent

open Mongo

structure Command where
  timeout : ℤ := intMin
  entity : String := ""
  entityType : String := ""
  responseURI : String := ""
  id : String := ""
  name : String := ""
  expired : ℤ := intMin
  command : PTree := []
  status : ℤ := intMin
  service : String := ""
  servicePath : String := ""
  sequence : String := ""
  deriving DecidableEq, Inhabited

namespace Command

/-! ### Constructors -/

/-- A command that serves as a key. -/
def ofEntity (idEntity service servicePath : String) : Command :=
  { entity := idEntity, service, servicePath }

/-- A command of a request. -/
def ofRequest (idCmd service servicePath sequence idEntity responseURI : String)
    (cmd : PTree) : Command :=
  { id := idCmd, service, servicePath, sequence, entity := idEntity, responseURI,
    command := cmd }

/-- A command with all its data. `age` is the time since the timestamp in milliseconds,
`none` for an empty timestamp. -/
def ofStored (idCmd name service servicePath sequence idEntity entityType responseURI : String)
    (timeout : ℤ) (age : Option ℤ) (cmd : PTree) : Command :=
  let started := if timeout < 0 then intMin else timeout
  { id := idCmd, name, service, servicePath, sequence, entity := idEntity, entityType,
    responseURI, command := cmd, timeout
    expired :=
      match age with
      | some ms => if ms ≥ started then 1 else 0
      | none => 0 }

/-! ### Keys -/

/-- `operator==`. -/
def Equal (a b : Command) : Prop :=
  a.sequence = b.sequence ∧ a.service = b.service

instance (a b : Command) : Decidable (Equal a b) :=
  inferInstanceAs (Decidable (_ ∧ _))

/-- `hash_value`, which also mixes in the service path. -/
def hashValue (h : Hashing) (c : Command) : ℕ :=
  h.hashCombine (h.hashCombine (h.hashCombine 0 c.sequence) c.service) c.servicePath

/-- Two commands that a unique hashed index takes for one: equal, and in one bucket. -/
def collide (h : Hashing) (a b : Command) : Prop :=
  h.bucket (a.hashValue h) = h.bucket (b.hashValue h) ∧ Equal a b

instance (h : Hashing) (a b : Command) : Decidable (collide h a b) :=
  inferInstanceAs (Decidable (_ ∧ _))

/-- The key of the index by entity. -/
def uniqueEntity (c : Command) : String :=
  c.service ++ ":" ++ c.servicePath ++ ":" ++ c.entity ++ ":" ++ toString c.status

/-- The key of the index by identifier. -/
def uniqueId (c : Command) : String :=
  c.service ++ ":" ++ c.servicePath ++ ":" ++ c.id

/-- The identifier, the service and the service path, which the store is unique in. -/
abbrev Key := String × String × String

def key (c : Command) : Key :=
  (c.id, c.service, c.servicePath)

/-- The command with a new status. -/
def setStatus (c : Command) (status : ℤ) : Command :=
  { c with status }

variable {h : Hashing} {a b c : Command}

lemma Equal.symm (hab : Equal a b) : Equal b a :=
  ⟨hab.1.symm, hab.2.symm⟩

lemma collide_self : collide h a a := ⟨rfl, rfl, rfl⟩

lemma collide.symm (hab : collide h a b) : collide h b a :=
  ⟨hab.1.symm, hab.2.symm⟩

lemma collide.trans (hab : collide h a b) (hbc : collide h b c) : collide h a c :=
  ⟨hab.1.trans hbc.1, hab.2.1.trans hbc.2.1, hab.2.2.trans hbc.2.2⟩

/-- Commands of one service path collide as soon as they are equal. -/
lemma collide_of_equal (hab : Equal a b) (hp : a.servicePath = b.servicePath) :
    collide h a b := by
  refine ⟨?_, hab⟩
  rw [hashValue, hashValue, hab.1, hab.2, hp]

@[simp] lemma setStatus_status (s : ℤ) : (c.setStatus s).status = s := rfl

@[simp] lemma collide_setStatus_left (s : ℤ) :
    collide h (a.setStatus s) b ↔ collide h a b := Iff.rfl

@[simp] lemma collide_setStatus_right (s : ℤ) :
    collide h a (b.setStatus s) ↔ collide h a b := Iff.rfl

@[simp] lemma key_setStatus (s : ℤ) : (c.setStatus s).key = c.key := rfl

@[simp] lemma uniqueId_setStatus (s : ℤ) : (c.setStatus s).uniqueId = c.uniqueId := rfl

/-- The text of a natural number determines it. -/
lemma natRepr_inj {m n : ℕ} (hmn : m.repr = n.repr) : m = n := by
  have hd : Nat.toDigits 10 m = Nat.toDigits 10 n := by
    simpa [Nat.repr] using congrArg String.toList hmn
  rw [← Nat.ofDigitChars_ten_toDigits (n := m), hd, Nat.ofDigitChars_ten_toDigits]

/-- The text of a natural number is that of no other integer. -/
lemma eq_of_toString {n : ℤ} {m : ℕ} (hn : toString n = m.repr) : n = m := by
  cases n with
  | ofNat k =>
      have hk : k.repr = m.repr := hn
      rw [natRepr_inj hk]
      rfl
  | negSucc k =>
      -- a text of digits has no sign
      have hsign : '-' ∈ m.repr.toList := by
        rw [← hn]
        simp [Int.repr]
      rw [Nat.repr, String.toList_ofList] at hsign
      have hdigit := Nat.isDigit_of_mem_toDigits (by decide) (by decide) hsign
      simp at hdigit

/-- The text of the status `readyForRead` is that of no other status. -/
lemma eq_readyForRead_of_toString {n : ℤ} (hn : toString n = toString Types.readyForRead) :
    n = Types.readyForRead :=
  @eq_of_toString n 0 hn

/-- The text of an integer has no colon. -/
lemma colon_notMem_toString (n : ℤ) : ':' ∉ (toString n).toList := by
  have hdigits : ∀ m : ℕ, ':' ∉ m.repr.toList := by
    intro m hm
    rw [Nat.repr, String.toList_ofList] at hm
    have hdigit := Nat.isDigit_of_mem_toDigits (by decide) (by decide) hm
    simp at hdigit
  cases n with
  | ofNat k => exact hdigits k
  | negSucc k =>
      have hsign : (toString (Int.negSucc k)).toList = '-' :: (k + 1).repr.toList := by
        simp [toString, Int.repr]
      rw [hsign, List.mem_cons, not_or]
      exact ⟨by decide, hdigits (k + 1)⟩

/-- A joined key determines what stands behind its last colon. -/
lemma eq_of_append_colon {s t x y : String} (hx : ':' ∉ x.toList) (hy : ':' ∉ y.toList)
    (hxy : s ++ ":" ++ x = t ++ ":" ++ y) : x = y := by
  have hlist : s.toList ++ ':' :: x.toList = t.toList ++ ':' :: y.toList := by
    simpa using congrArg String.toList hxy
  rw [List.append_eq_append_iff] at hlist
  refine String.toList_injective ?_
  -- a longer part in front would leave its colon to the part behind
  obtain ⟨l, -, hl⟩ | ⟨l, -, hl⟩ := hlist
  · cases l with
    | nil => simpa using hl
    | cons d l => exact absurd (by simp [(List.cons.inj hl).2]) hx
  · cases l with
    | nil => simpa using hl.symm
    | cons d l => exact absurd (by simp [(List.cons.inj hl).2]) hy

/-- Under the key of waiting commands stand the waiting ones only. -/
lemma status_of_uniqueEntity {k : Command} (hk : k.status = Types.readyForRead)
    (hkey : c.uniqueEntity = k.uniqueEntity) : c.status = Types.readyForRead := by
  refine eq_readyForRead_of_toString ?_
  rw [← hk]
  exact eq_of_append_colon (colon_notMem_toString _) (colon_notMem_toString _) hkey

end Command

end IotAgent
