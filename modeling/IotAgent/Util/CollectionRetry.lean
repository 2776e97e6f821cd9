import IotAgent.Util.Collection

/-!
Updates and removals that are made once more (`src/util/collection.cc`).

When the driver refuses a request for its own reasons, `update_r` calls `update` and `remove`
calls itself. `update` wraps the document in a `$set`, which has been done already, and takes
no notice of the number of the attempt; neither of the two callers hands on what the second
attempt returned.

* `LastError`, `getLastError`: the answer of the server to a request;
* `Attempt`, `Call`: what a call sends, and what its caller gets;
* `update`, `updateR`, `remove`: the functions of the source, over the answers of the driver
  to the attempts of a call;
* `Keeps`: a call keeps its operation over its attempts;
* `retry_keeps_iff`: the calls that do.
-/

namespace IotAgent

open Mongo

/-- What `getLastErrorDetailed` answers. -/
structure LastError where
  code : ℤ
  ok : ℤ
  n : ℤ
  err : String
  deriving DecidableEq

/-- The number of documents of a request that went well. -/
def LastError.changed (e : LastError) : Option ℤ :=
  if e.code = 0 ∧ e.ok ≠ 0 then some e.n else none

/-- The driver over the attempts of a call: it throws, or the server answers. -/
abbrev Driver := ℕ → Except DriverException LastError

/-- The number of documents of an attempt that went well. -/
def Driver.changed (driver : Driver) (attempt : ℕ) : Option ℤ :=
  match driver attempt with
  | .ok e => e.changed
  | .error _ => none

/-- What an attempt sends. A removal sends no document. -/
structure Attempt where
  query : Doc
  setData : Doc
  upsert : Bool
  deriving DecidableEq

/-- The attempts of a call in order, and what the caller gets. -/
structure Call where
  attempts : List Attempt
  result : Except IotaException ℤ

/-- An attempt before those of an inner call whose number of documents is dropped: the outer
call returns its own, which is still zero. -/
def Call.dropped (attempt : Attempt) (inner : Call) : Call where
  attempts := attempt :: inner.attempts
  result := inner.result.map fun _ => 0

namespace Collection

variable (coll : Collection) (driver : Driver)

/-- `getLastError`. -/
def getLastError (obj : Doc) (e : LastError) : Except IotaException ℤ :=
  if e.code = 0 then
    if e.ok = 0 then
      .error (databaseError (e.err ++ "   mongoiota::store:: " ++ coll.bbdd ++ "::getLastError"))
    else .ok e.n
  else if e.code = 11000 ∨ e.code = 11001 then
    .error ⟨Types.responseMessageInvalidParameter, "duplicate key ", 409⟩
  else
    .error (databaseError
      (coll.bbdd ++ coll.text obj ++ " error:" ++ toString e.code ++ ":" ++ e.err))

/-- What the clauses of `update_r` and `remove` throw for an exception of the driver, the
last one if the driver has refused for its own reasons. -/
def caught (query : Doc) : DriverException → IotaException
  | .socket => databaseError "SocketException "
  | .connect => databaseError "ConnectException "
  | .user => databaseError "problem with database UserConnection"
  | .assertion => databaseError "AssertionException "
  | .operation code =>
      if code = 11000 ∨ code = 11001 then
        ⟨Types.responseMessageDuplicatedData,
          "duplicate key: " ++ coll.bbdd ++ " " ++ coll.text query, 409⟩
      else databaseError (coll.bbdd ++ " " ++ coll.text query)
  | .db => databaseError "DBException "

/-- The document that `update` sends. -/
def setObj (setData : Doc) : Doc :=
  [("$set", .obj setData)]

mutual

/-- `update`. The number of nested calls is bounded by `fuel`; `k` counts the attempts. -/
def update (fuel k : ℕ) (query setData : Doc) (upsert : Bool) (_retry : ℕ) : Option Call :=
  match fuel with
  | 0 => none
  | fuel + 1 => updateR fuel k query (setObj setData) upsert 0

/-- `update_r`. -/
def updateR (fuel k : ℕ) (query setData : Doc) (upsert : Bool) (retry : ℕ) : Option Call :=
  match fuel with
  | 0 => none
  | fuel + 1 =>
      match driver k with
      | .ok e => some ⟨[⟨query, setData, upsert⟩], coll.getLastError setData e⟩
      | .error .user =>
          if retry < maxRetry then
            (update fuel (k + 1) query setData upsert (retry + 1)).map
              (Call.dropped ⟨query, setData, upsert⟩)
          else some ⟨[⟨query, setData, upsert⟩], .error (coll.caught query .user)⟩
      | .error e => some ⟨[⟨query, setData, upsert⟩], .error (coll.caught query e)⟩

end

/-- `remove`. -/
def remove (k : ℕ) (query : Doc) (retry : ℕ) : Call :=
  match driver k with
  | .ok e => ⟨[⟨query, [], false⟩], coll.getLastError query e⟩
  | .error .user =>
      if retry < maxRetry then Call.dropped ⟨query, [], false⟩ (remove (k + 1) query (retry + 1))
      else ⟨[⟨query, [], false⟩], .error (coll.caught query .user)⟩
  | .error e => ⟨[⟨query, [], false⟩], .error (coll.caught query e)⟩
termination_by maxRetry - retry

/-! ### What a retry should keep -/

/-- A call keeps its operation: it makes no more attempts than it may, all of them send the
same, the caller gets the number of the attempt that went well, and an exception if none
did. -/
structure Keeps (sent : Attempt) (call : Call) : Prop where
  bounded : call.attempts.length ≤ maxRetry + 1
  same : ∀ a ∈ call.attempts, a = sent
  changed : ∀ i < call.attempts.length, ∀ n, driver.changed i = some n → call.result = .ok n
  failed : (∀ i < call.attempts.length, driver.changed i = none) → ∃ e, call.result = .error e

/-- An update ends and keeps its operation. -/
def UpdateKeeps (query setData : Doc) (upsert : Bool) : Prop :=
  ∃ fuel call, coll.update driver fuel 0 query setData upsert 0 = some call ∧
    Keeps driver ⟨query, setObj setData, upsert⟩ call

/-- A removal keeps its operation. -/
def RemoveKeeps (query : Doc) : Prop :=
  Keeps driver ⟨query, [], false⟩ (coll.remove driver 0 query 0)

variable {coll driver} {query setData : Doc} {upsert : Bool} {fuel k retry : ℕ} {call : Call}

/-! ### One attempt -/

lemma getLastError_of_changed {obj : Doc} {e : LastError} {n : ℤ} (h : e.changed = some n) :
    coll.getLastError obj e = .ok n := by
  rw [LastError.changed] at h
  split at h
  · next hc =>
      cases h
      rw [getLastError, if_pos hc.1, if_neg hc.2]
  · cases h

lemma getLastError_of_not_changed {obj : Doc} {e : LastError} (h : e.changed = none) :
    ∃ x, coll.getLastError obj e = .error x := by
  rw [LastError.changed] at h
  split at h
  · cases h
  · next hc =>
      rw [not_and_not_right] at hc
      rw [getLastError]
      split
      · next h0 => exact ⟨_, if_pos (by simpa using hc h0)⟩
      · split <;> exact ⟨_, rfl⟩

lemma changed_of_ok {e : LastError} (h : driver k = .ok e) : driver.changed k = e.changed := by
  rw [Driver.changed, h]

lemma changed_of_error {e : DriverException} (h : driver k = .error e) :
    driver.changed k = none := by
  rw [Driver.changed, h]

/-- A call of one attempt that hands on what the server answers keeps its operation. -/
lemma keeps_of_ok (coll : Collection) (obj : Doc) {sent : Attempt} {e : LastError}
    (h : driver 0 = .ok e) : Keeps driver sent ⟨[sent], coll.getLastError obj e⟩ where
  bounded := Nat.le_succ _
  same := by simp
  changed := fun i hi n hn => by
    obtain rfl : i = 0 := Nat.lt_one_iff.mp hi
    rw [changed_of_ok h] at hn
    exact getLastError_of_changed hn
  failed := fun hf => by
    have h0 := hf 0 Nat.zero_lt_one
    rw [changed_of_ok h] at h0
    exact getLastError_of_not_changed h0

/-- A call of one attempt that throws when the driver does keeps its operation. -/
lemma keeps_of_error (x : IotaException) {sent : Attempt} {e : DriverException}
    (h : driver 0 = .error e) : Keeps driver sent ⟨[sent], .error x⟩ where
  bounded := Nat.le_succ _
  same := by simp
  changed := fun i hi n hn => by
    obtain rfl : i = 0 := Nat.lt_one_iff.mp hi
    rw [changed_of_error h] at hn
    cases hn
  failed := fun _ => ⟨x, rfl⟩

/-! ### Updates -/

/-- Whatever an update does later, it sends its document first. -/
lemma updateR_head (h : coll.updateR driver fuel k query setData upsert retry = some call) :
    ∃ rest, call.attempts = ⟨query, setData, upsert⟩ :: rest := by
  cases fuel with
  | zero =>
      rw [updateR] at h
      cases h
  | succ fuel =>
      rw [updateR] at h
      cases hd : driver k with
      | ok e =>
          rw [hd] at h
          cases h
          exact ⟨[], rfl⟩
      | error e =>
          rw [hd] at h
          cases e with
          | user =>
              dsimp only at h
              split at h
              · obtain ⟨inner, -, rfl⟩ := Option.map_eq_some_iff.mp h
                exact ⟨inner.attempts, rfl⟩
              · cases h
                exact ⟨[], rfl⟩
          | socket | connect | assertion | operation | db =>
              cases h
              exact ⟨[], rfl⟩

/-- After a refusal a document is sent that has been wrapped twice. -/
lemma update_of_user (hd : driver 0 = .error .user)
    (h : coll.update driver fuel 0 query setData upsert 0 = some call) :
    ⟨query, setObj (setObj setData), upsert⟩ ∈ call.attempts := by
  cases fuel with
  | zero =>
      rw [update] at h
      cases h
  | succ fuel =>
      rw [update] at h
      cases fuel with
      | zero =>
          rw [updateR] at h
          cases h
      | succ fuel =>
          rw [updateR, hd] at h
          have hretry : 0 < maxRetry := Nat.zero_lt_one
          dsimp only at h
          rw [if_pos hretry] at h
          obtain ⟨inner, hinner, rfl⟩ := Option.map_eq_some_iff.mp h
          cases fuel with
          | zero =>
              rw [update] at hinner
              cases hinner
          | succ fuel =>
              rw [update] at hinner
              obtain ⟨rest, hrest⟩ := updateR_head hinner
              rw [Call.dropped, hrest]
              exact List.mem_cons_of_mem _ List.mem_cons_self

lemma setObj_setObj_ne : setObj (setObj setData) ≠ setObj setData := by
  intro h
  have hsize := congrArg sizeOf h
  simp only [setObj, List.cons.sizeOf_spec, List.nil.sizeOf_spec, Prod.mk.sizeOf_spec,
    Mongo.Bson.obj.sizeOf_spec] at hsize
  omega

lemma updateKeeps_iff :
    coll.UpdateKeeps driver query setData upsert ↔ driver 0 ≠ .error .user := by
  constructor
  · rintro ⟨fuel, call, hcall, hkeeps⟩ hd
    have hsame := hkeeps.same _ (update_of_user hd hcall)
    exact setObj_setObj_ne (Attempt.mk.inj hsame).2.1
  · intro hne
    cases hd : driver 0 with
    | ok e =>
        refine ⟨2, _, ?_, keeps_of_ok coll (setObj setData) hd⟩
        rw [update, updateR, hd]
    | error e =>
        refine ⟨2, _, ?_, keeps_of_error (coll.caught query e) hd⟩
        rw [update, updateR, hd]
        cases e with
        | user => exact absurd hd hne
        | socket | connect | assertion | operation | db => rfl

/-! ### Removals -/

variable (coll query) in
/-- What an attempt to remove hands on if it is the last. -/
def lastResult : Except DriverException LastError → Except IotaException ℤ
  | .ok e => coll.getLastError query e
  | .error e => .error (coll.caught query e)

/-- Without a refusal a removal is one attempt. -/
lemma remove_of_ne_user (hne : driver k ≠ .error .user) :
    coll.remove driver k query retry =
      ⟨[⟨query, [], false⟩], coll.lastResult query (driver k)⟩ := by
  rw [remove]
  cases hd : driver k with
  | ok e => rfl
  | error e =>
      cases e with
      | user => exact absurd hd hne
      | socket | connect | assertion | operation | db => rfl

/-- A second attempt is the last one, whatever the driver does. -/
lemma remove_second :
    coll.remove driver 1 query 1 = ⟨[⟨query, [], false⟩], coll.lastResult query (driver 1)⟩ := by
  by_cases hd : driver 1 = .error .user
  · have hretry : ¬ 1 < maxRetry := Nat.lt_irrefl 1
    rw [remove, hd]
    dsimp only
    rw [if_neg hretry]
    rfl
  · exact remove_of_ne_user hd

/-- A refused removal is made once more, and its number of documents is dropped. -/
lemma remove_of_user (hd : driver 0 = .error .user) :
    coll.remove driver 0 query 0 =
      Call.dropped ⟨query, [], false⟩ (coll.remove driver 1 query 1) := by
  have hretry : 0 < maxRetry := Nat.zero_lt_one
  rw [remove, hd]
  dsimp only
  rw [if_pos hretry]

/-- After a refusal the caller gets zero if the second attempt goes well. -/
lemma remove_of_user_of_changed {n : ℤ} (hd : driver 0 = .error .user)
    (hn : driver.changed 1 = some n) :
    coll.remove driver 0 query 0 = ⟨[⟨query, [], false⟩, ⟨query, [], false⟩], .ok 0⟩ := by
  rw [remove_of_user hd, remove_second]
  cases h1 : driver 1 with
  | ok e =>
      rw [changed_of_ok h1] at hn
      rw [lastResult, getLastError_of_changed hn]
      rfl
  | error e =>
      rw [changed_of_error h1] at hn
      cases hn

/-- After a refusal an exception is raised if the second attempt fails. -/
lemma remove_of_user_of_failed (coll : Collection) (query : Doc) (hd : driver 0 = .error .user)
    (hn : driver.changed 1 = none) : ∃ x,
      coll.remove driver 0 query 0 = ⟨[⟨query, [], false⟩, ⟨query, [], false⟩], .error x⟩ := by
  rw [remove_of_user hd, remove_second]
  cases h1 : driver 1 with
  | ok e =>
      rw [changed_of_ok h1] at hn
      obtain ⟨x, hx⟩ : ∃ x, coll.getLastError query e = .error x := getLastError_of_not_changed hn
      refine ⟨x, ?_⟩
      rw [lastResult, hx]
      rfl
  | error e => exact ⟨coll.caught query e, rfl⟩

/-- A removal of two attempts keeps its operation if the caller gets what is due. -/
lemma keeps_of_user {sent : Attempt} {result : Except IotaException ℤ}
    (hd : driver 0 = .error .user) (hc : ∀ n, driver.changed 1 = some n → result = .ok n)
    (hf : driver.changed 1 = none → ∃ x, result = .error x) :
    Keeps driver sent ⟨[sent, sent], result⟩ where
  bounded := Nat.le_refl _
  same := by simp
  changed := fun i hi n hn => by
    have hi2 : i < 2 := hi
    obtain rfl | rfl : i = 0 ∨ i = 1 := by omega
    · rw [changed_of_error hd] at hn
      cases hn
    · exact hc n hn
  failed := fun h => hf (h 1 Nat.one_lt_two)

lemma removeKeeps_iff :
    coll.RemoveKeeps driver query ↔
      ¬ (driver 0 = .error .user ∧ ∃ n, n ≠ 0 ∧ driver.changed 1 = some n) := by
  by_cases hd : driver 0 = .error .user
  · rw [RemoveKeeps]
    cases hc : driver.changed 1 with
    | none =>
        obtain ⟨x, hx⟩ := remove_of_user_of_failed coll query hd hc
        refine iff_of_true ?_ (by simp)
        rw [hx]
        exact keeps_of_user hd (fun n hn => by simp [hc] at hn) fun _ => ⟨x, rfl⟩
    | some n =>
        rw [remove_of_user_of_changed hd hc]
        constructor
        · rintro hkeeps ⟨-, m, hm, hsome⟩
          obtain rfl : n = m := Option.some.inj hsome
          have hres := hkeeps.changed 1 Nat.one_lt_two n hc
          exact hm (Except.ok.inj hres).symm
        · intro hn
          have hzero : n = 0 := by
            by_contra hne
            exact hn ⟨hd, n, hne, rfl⟩
          refine keeps_of_user hd (fun m hm => ?_) fun h => by simp [hc] at h
          rw [hc, hzero] at hm
          rw [Option.some.inj hm]
  · refine iff_of_true ?_ fun h => hd h.1
    rw [RemoveKeeps, remove_of_ne_user hd]
    cases h0 : driver 0 with
    | ok e => exact keeps_of_ok coll query h0
    | error e => exact keeps_of_error (coll.caught query e) h0

/-- **Bounded retry**: an update keeps its operation exactly when the driver does not refuse
the first attempt, a removal exactly when it is not the second attempt that removes
something. -/
theorem retry_keeps_iff (coll : Collection) (driver : Driver) (query setData : Doc)
    (upsert : Bool) :
    (coll.UpdateKeeps driver query setData upsert ↔ driver 0 ≠ .error .user) ∧
      (coll.RemoveKeeps driver query ↔
        ¬ (driver 0 = .error .user ∧ ∃ n, n ≠ 0 ∧ driver.changed 1 = some n)) :=
  ⟨updateKeeps_iff, removeKeeps_iff⟩

/-- A driver that refuses the first attempt and then changes one document. -/
def refusedOnce : Driver
  | 0 => .error .user
  | _ => .ok ⟨0, 1, 1, ""⟩

/-- The update of the status of a command and its removal, each after a refusal. -/
theorem not_keeps_refusedOnce :
    ¬ (⟨"iot", "COMMAND", fun _ => "", fun _ => none⟩ : Collection).UpdateKeeps refusedOnce
      [("id", .str "d1@ping")] [("status", .int 2)] false ∧
    ¬ (⟨"iot", "COMMAND", fun _ => "", fun _ => none⟩ : Collection).RemoveKeeps refusedOnce
      [("id", .str "d1@ping")] := by
  constructor
  · exact fun h => updateKeeps_iff.mp h rfl
  · exact fun h => removeKeeps_iff.mp h ⟨rfl, 1, Int.one_ne_zero, rfl⟩

end Collection

end IotAgent
