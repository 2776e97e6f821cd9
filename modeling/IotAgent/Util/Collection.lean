import IotAgent.Mongo.Table
import IotAgent.Util.Types

/-!
A collection of the store (`src/util/collection.{h,cc}`).

Every way in which the driver can fail is turned into an exception of the agent. A request
that the driver refuses for its own reasons is made once more.

* `DriverException`: what the driver throws;
* `Collection.insert`: insertion, with its exceptions;
* `Collection.insert_eq_ok_iff`: when it takes a document.
-/

namespace IotAgent

open Mongo

/-- What the driver throws, by the clause that catches it. -/
inductive DriverException where
  | socket
  | connect
  | user
  | assertion
  | operation (code : ℤ)
  | db
  deriving DecidableEq

/-- A collection with its driver: how it writes a document, and what it throws in each
attempt of a call, if it does not get an answer of the server. -/
structure Collection where
  databaseName : String
  aBbdd : String
  text : Doc → String
  fault : ℕ → Option DriverException

namespace Collection

def maxRetry : ℕ := 1
def errorMongo : ℤ := 500

/-- The code with which the server refuses a duplicate key. -/
def duplicateKey : ℤ := 11000

variable (coll : Collection) {indexes : List (List String)} (table : Table indexes) (data : Doc)

/-- The database and the name of the collection. -/
def bbdd : String :=
  coll.databaseName ++ "." ++ coll.aBbdd

/-- The insertion of the driver in an attempt. -/
def connInsert (retry : ℕ) : Except DriverException (Table indexes) :=
  match coll.fault retry with
  | some e => .error e
  | none =>
      match table.insert data with
      | some t => .ok t
      | none => .error (.operation duplicateKey)

/-- An error of the database. -/
def databaseError (what : String) : IotaException :=
  ⟨Types.responseMessageDatabaseError, what, errorMongo⟩

/-- `insert`. -/
def insert (retry : ℕ) : Except IotaException (Table indexes) :=
  match coll.connInsert table data retry with
  | .ok t => .ok t
  | .error .socket => .error (databaseError "SocketException ")
  | .error .connect => .error (databaseError "ConnectException ")
  | .error .user =>
      if retry < maxRetry then insert (retry + 1)
      else .error (databaseError "problem with dabaseUSerConnection")
  | .error .assertion => .error (databaseError "AssertionException ")
  | .error (.operation code) =>
      if code = 11000 ∨ code = 11001 then
        .error ⟨Types.responseMessageDuplicatedData,
          "duplicate key: " ++ coll.bbdd ++ " " ++ coll.text data, 409⟩
      else .error (databaseError (coll.bbdd ++ " " ++ coll.text data))
  | .error .db => .error (databaseError "DBException ")
termination_by maxRetry - retry

/-! ### When a document is taken -/

/-- The server answers in the first attempt, or in the second after the driver has refused
the first. -/
def Answers : Prop :=
  coll.fault 0 = none ∨ coll.fault 0 = some .user ∧ coll.fault 1 = none

instance : Decidable coll.Answers :=
  inferInstanceAs (Decidable (_ ∨ _))

variable {coll table data} {retry : ℕ} {t : Table indexes}

lemma connInsert_of_fault {e : DriverException} (he : coll.fault retry = some e) :
    coll.connInsert table data retry = .error e := by
  rw [connInsert, he]

lemma connInsert_of_none (he : coll.fault retry = none) :
    coll.connInsert table data retry =
      match table.insert data with
      | some t => .ok t
      | none => .error (.operation duplicateKey) := by
  rw [connInsert, he]

/-- Without a fault the table decides. -/
lemma insert_of_none (he : coll.fault retry = none) :
    coll.insert table data retry =
      match table.insert data with
      | some t => .ok t
      | none => .error ⟨Types.responseMessageDuplicatedData,
          "duplicate key: " ++ coll.bbdd ++ " " ++ coll.text data, 409⟩ := by
  rw [insert, connInsert_of_none he]
  cases table.insert data with
  | none => simp [duplicateKey]
  | some t => rfl

/-- A fault other than a refusal ends the call. -/
lemma insert_ne_ok_of_fault {e : DriverException} (he : coll.fault retry = some e)
    (huser : e = .user → ¬ retry < maxRetry) : coll.insert table data retry ≠ .ok t := by
  rw [insert, connInsert_of_fault he]
  cases e with
  | user => simp [huser rfl]
  | operation code =>
      dsimp only
      split <;> simp
  | socket | connect | assertion | db => simp

/-- A refused request is made once more. -/
lemma insert_zero_of_user (he : coll.fault 0 = some .user) :
    coll.insert table data 0 = coll.insert table data 1 := by
  rw [insert, connInsert_of_fault he]
  exact if_pos Nat.zero_lt_one

/-- A document is taken when the server answers and the table has room for its key. -/
theorem insert_eq_ok_iff :
    coll.insert table data 0 = .ok t ↔ coll.Answers ∧ table.insert data = some t := by
  have hnone : ∀ retry, coll.fault retry = none →
      (coll.insert table data retry = .ok t ↔ table.insert data = some t) := by
    intro retry he
    rw [insert_of_none he]
    cases table.insert data with
    | none => simp
    | some t' => simp
  cases h0 : coll.fault 0 with
  | none =>
      have hanswers : coll.Answers := Or.inl h0
      rw [hnone 0 h0, and_iff_right hanswers]
  | some e =>
      by_cases huser : e = .user
      · subst huser
        rw [insert_zero_of_user h0]
        cases h1 : coll.fault 1 with
        | none =>
            have hanswers : coll.Answers := Or.inr ⟨h0, h1⟩
            rw [hnone 1 h1, and_iff_right hanswers]
        | some e =>
            have hne : coll.insert table data 1 ≠ .ok t :=
              insert_ne_ok_of_fault h1 fun _ => Nat.lt_irrefl 1
            simp [hne, Answers, h0, h1]
      · have hne : coll.insert table data 0 ≠ .ok t :=
          insert_ne_ok_of_fault h0 fun he => absurd he huser
        simp [hne, Answers, h0, huser]

end Collection

end IotAgent
