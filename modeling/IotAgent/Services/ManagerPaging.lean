import IotAgent.Lib.Paging
import IotAgent.Services.AdminManagerService
import Mathlib.Algebra.BigOperators.Group.List.Basic
import Mathlib.Algebra.Group.Nat.Defs
import Mathlib.Data.Int.Bitwise
import Mathlib.Data.Int.DivMod

/-!
The devices of all agents (`get_all_devices_json` of the manager and of an agent).

The manager asks one agent after the other and puts the devices of the answers into one list.
After every answer it rewrites the offset and the limit for the next agent; the limit -1 asks
for the number of devices only.

* `AdminService.devicesJson`: what an agent answers;
* `Collected.add`: what the manager does with an answer;
* `AdminManagerService.getAllDevicesJson`: the request;
* `getAllDevicesJson_agents`: what it answers to agents that answer;
* `pagesConcatenation_iff`: it answers the window of the concatenation exactly when the number
  of devices is an `int` and the agents before the window have cost nothing of the limit.
-/

namespace IotAgent

open Mongo Paging

/-! ### Agents -/

/-- What the query of a devices request says. -/
structure DevicesQuery where
  protocol : String
  limit : ℤ
  offset : ℤ
  entity : String
  detailed : String

/-- The JSON library and the driver of the store: which texts are documents, and what is said
of an answer whose field for the devices is no array. -/
structure Readers where
  parses : String → Bool
  noArray : Doc → String

/-- A body, and what `fromjson` makes of it: a document or an exception. -/
structure JsonBody where
  text : String
  fromjson : Except String Doc

/-- An agent, and what it answers to a devices request. -/
structure IotagentType where
  endpoint : String
  devices : DevicesQuery → Outcome JsonBody

/-- `get_all_devices_json` of an agent whose query finds `found`, in the order of the sort: the
number of the devices and, unless the limit is negative, those of the window. The limit zero is
none. -/
def AdminService.devicesJson (found : List Bson) (limit offset : ℤ) : Doc :=
  let page := if limit < 0 then []
    else if limit = 0 then found.drop offset.toNat
    else window offset.toNat limit.toNat found
  [("count", .int (toInt found.length)), ("devices", .arr page)]

/-- The agent answers a devices request with the devices `found`. -/
def IotagentType.Answers (agent : IotagentType) (found : List Bson) : Prop :=
  ∀ q, ∃ text, agent.devices q =
    .response Types.responseCodeOk ⟨text, .ok (AdminService.devicesJson found q.limit q.offset)⟩

/-! ### The manager -/

/-- A number as an `int` of 32 bits. -/
def wrapInt (n : ℤ) : ℤ :=
  Int.bmod n (2 ^ 32)

/-- What the manager has collected, and the limit and the offset for the next agent. -/
structure Collected where
  limitI : ℤ
  offsetI : ℤ
  totalCount : ℤ := 0
  devices : List Bson := []
  nok : StrMap := []

namespace Collected

/-- The document of the answer. -/
def result (c : Collected) : Doc :=
  [("count", .int c.totalCount), ("devices", .arr c.devices)]

/-- An error is noted under the endpoint. -/
def note (r : Readers) (c : Collected) (endpoint : String) (code : ℤ)
    (message : String) : Collected :=
  { c with
    nok := StrMap.insert c.nok endpoint
      (AdminManagerService.errorManager r.parses code message) }

/-- The offset, and the number of devices that count against the limit, after an answer with
`countI` devices. -/
def advanceOffset (offsetI countI : ℤ) : ℤ × ℤ :=
  if offsetI > 0 then
    if offsetI > countI then (wrapInt (offsetI - countI), countI)
    else (0, wrapInt (countI - offsetI))
  else (offsetI, countI)

/-- The limit after `countI` devices. -/
def advanceLimit (limitI countI : ℤ) : ℤ :=
  if limitI > 0 then
    if limitI > countI then wrapInt (limitI - countI) else -1
  else limitI

/-- An answer with the status of success. The count is added before the array is asked for. -/
def addAnswer (r : Readers) (c : Collected) (endpoint : String) (answer : Doc) :
    Collected :=
  let countI := toInt (answer.getIntField "count")
  let c := { c with totalCount := wrapInt (c.totalCount + countI) }
  match answer.get "devices" with
  | some (.arr devices) =>
      let (offsetI, counted) := advanceOffset c.offsetI countI
      { c with
        devices := c.devices ++ devices
        offsetI
        limitI := advanceLimit c.limitI counted }
  | _ => c.note r endpoint AdminManagerService.noAnswer (r.noArray answer)

/-- The outcome of a request to an agent. -/
def add (r : Readers) (c : Collected) (endpoint : String) :
    Outcome JsonBody → Collected
  | .response code content =>
      if code = Types.responseCodeOk then
        match content.fromjson with
        | .ok answer => c.addAnswer r endpoint answer
        | .error what => c.note r endpoint AdminManagerService.noAnswer what
      else c.note r endpoint code content.text
  | .noConnection message => c.note r endpoint AdminManagerService.noAnswer message
  | .exception what => c.note r endpoint AdminManagerService.noAnswer what

end Collected

namespace AdminManagerService

/-- An answer of the manager: the status and, for an error, the reason and the details, else a
document with the errors of agents. -/
structure Reply where
  code : ℤ
  reason : String := ""
  details : String := ""
  result : Doc := []
  nok : StrMap := []

/-- The text of an answer that is no error. -/
def Reply.content (jsonString : Doc → String) (r : Reply) : String :=
  addErrorsToResponse (jsonString r.result) r.nok

/-- The values of the parameter `detailed`. -/
def IsDetailed (detailed : String) : Prop :=
  detailed = "" ∨ detailed = "on" ∨ detailed = "off"

instance (detailed : String) : Decidable (IsDetailed detailed) :=
  inferInstanceAs (Decidable (_ ∨ _))

/-- The request to the next agent. -/
def ask (r : Readers) (protocol entity detailed : String) (c : Collected)
    (agent : IotagentType) : Collected :=
  c.add r agent.endpoint
    (agent.devices ⟨protocol, c.limitI, c.offsetI, entity, detailed⟩)

/-- `get_all_devices_json`, with the agents of the service; there are none if the search for
them fails. -/
def getAllDevicesJson (r : Readers) (allDest : Except IotaException (List IotagentType))
    (limit offset : ℤ) (detailed entity protocolFilter : String) : Reply :=
  if IsDetailed detailed then
    let c := (allDest.toOption.getD []).foldl (ask r protocolFilter entity detailed)
      { limitI := limit, offsetI := offset }
    { code := Types.responseCodeOk, result := c.result, nok := c.nok }
  else
    { code := Types.responseCodeBadRequest, reason := Types.responseMessageBadRequest,
      details := "parameter detailed must be on or off" }

/-! ### One answer -/

section Step

variable {n : ℤ} {limit offset k : ℕ}

lemma wrapInt_of_mem (h0 : 0 ≤ n) (h : n ≤ intMax) : wrapInt n = n := by
  simp only [intMax] at h
  exact Int.bmod_eq_of_le (by omega) (by omega)

lemma wrapInt_le (n : ℤ) : wrapInt n ≤ intMax := by
  have h : wrapInt n < (2 ^ 32 + 1) / 2 := Int.bmod_lt (by omega)
  simp only [intMax]
  omega

/-- The limit as the manager keeps it: -1 for no more devices. -/
def limitOf (limit : ℕ) : ℤ :=
  if limit = 0 then -1 else limit

lemma limitOf_of_pos (h : 0 < limit) : limitOf limit = limit := if_neg h.ne'

/-- The devices of an answer are taken off the limit, down to nothing. -/
lemma advanceLimit_limitOf (h : (limit : ℤ) ≤ intMax) :
    Collected.advanceLimit (limitOf limit) k = limitOf (limit - k) := by
  rcases Nat.eq_zero_or_pos limit with rfl | hpos
  · rw [Nat.zero_sub]
    rfl
  · rw [limitOf_of_pos hpos, Collected.advanceLimit, if_pos (by omega)]
    split
    · next hk =>
        rw [wrapInt_of_mem (by omega) (by omega), limitOf_of_pos (by omega)]
        omega
    · next hk => rw [limitOf, if_pos (by omega)]

/-- An answer that ends before the offset is taken off the offset, and counts in full. -/
lemma advanceOffset_of_lt (h : (offset : ℤ) ≤ intMax) (hk : k < offset) :
    Collected.advanceOffset offset k = (((offset - k : ℕ) : ℤ), (k : ℤ)) := by
  rw [Collected.advanceOffset, if_pos (by omega), if_pos (by omega),
    wrapInt_of_mem (by omega) (by omega), Nat.cast_sub hk.le]

/-- Else the offset is used up, and what comes after it counts. -/
lemma advanceOffset_of_le (h : (k : ℤ) ≤ intMax) (hk : offset ≤ k) :
    Collected.advanceOffset offset k = (0, ((k - offset : ℕ) : ℤ)) := by
  rw [Collected.advanceOffset]
  split
  · rw [if_neg (by omega), wrapInt_of_mem (by omega) (by omega), Nat.cast_sub hk]
  · next h0 =>
      obtain rfl : offset = 0 := by omega
      rfl

variable {found : List Bson}

/-- The page of an agent is the window of its list. -/
lemma devicesJson_limitOf : AdminService.devicesJson found (limitOf limit) offset =
    [("count", .int (toInt found.length)), ("devices", .arr (window offset limit found))] := by
  rw [AdminService.devicesJson]
  rcases Nat.eq_zero_or_pos limit with rfl | hpos
  · rw [window_zero_limit]
    rfl
  · rw [limitOf_of_pos hpos, if_neg (by omega), if_neg (by omega), Int.toNat_natCast,
      Int.toNat_natCast]

variable {r : Readers} {protocol entity detailed : String} {c : Collected}
  {agent : IotagentType} {agents : List IotagentType} {lists : List (List Bson)}

/-- An answer that has its count and its devices. -/
lemma addAnswer_eq {endpoint : String} {answer : Doc} {devices : List Bson} {countI : ℤ}
    (hcount : toInt (answer.getIntField "count") = countI)
    (hdevices : answer.get "devices" = some (.arr devices)) :
    c.addAnswer r endpoint answer =
      { c with
        totalCount := wrapInt (c.totalCount + countI)
        devices := c.devices ++ devices
        offsetI := (Collected.advanceOffset c.offsetI countI).1
        limitI := Collected.advanceLimit c.limitI
          (Collected.advanceOffset c.offsetI countI).2 } := by
  simp only [Collected.addAnswer, hcount, hdevices]

/-- The step of an agent that answers. -/
lemma ask_answers (h : agent.Answers found) (hlimit : c.limitI = limitOf limit)
    (hoffset : c.offsetI = offset) (hfound : (found.length : ℤ) ≤ intMax) :
    ask r protocol entity detailed c agent =
      { c with
        totalCount := wrapInt (c.totalCount + found.length)
        devices := c.devices ++ window offset limit found
        offsetI := (Collected.advanceOffset offset found.length).1
        limitI := Collected.advanceLimit (limitOf limit)
          (Collected.advanceOffset offset found.length).2 } := by
  obtain ⟨text, htext⟩ := h ⟨protocol, c.limitI, c.offsetI, entity, detailed⟩
  have hcount : toInt found.length = found.length :=
    toInt_eq_iff.mpr ⟨by simp only [intMin]; omega, hfound⟩
  have hread : toInt (Doc.getIntField [("count", .int (toInt found.length)),
      ("devices", .arr (window offset limit found))] "count") = found.length :=
    (congrArg toInt hcount).trans hcount
  have hadd := @addAnswer_eq r c agent.endpoint _ _ _ hread rfl
  rw [ask, htext, hlimit, hoffset, devicesJson_limitOf, Collected.add, if_pos rfl]
  rw [hlimit, hoffset] at hadd
  exact hadd

/-- The total stays an `int`, whatever the agents do. -/
lemma ask_totalCount_le (h : c.totalCount ≤ intMax) :
    (ask r protocol entity detailed c agent).totalCount ≤ intMax := by
  rw [ask]
  cases agent.devices ⟨protocol, c.limitI, c.offsetI, entity, detailed⟩ with
  | noConnection => exact h
  | exception => exact h
  | response code content =>
      rw [Collected.add]
      split
      · cases content.fromjson with
        | error => exact h
        | ok answer =>
            simp only [Collected.addAnswer]
            split
            · exact wrapInt_le _
            · exact wrapInt_le _
      · exact h

lemma foldl_ask_totalCount_le (h : c.totalCount ≤ intMax) :
    (agents.foldl (ask r protocol entity detailed) c).totalCount ≤ intMax := by
  induction agents generalizing c with
  | nil => exact h
  | cons agent agents ih => exact ih (ask_totalCount_le h)

/-! ### All answers -/

/-- What is collected from agents that answer. The agents before the window are taken off the
limit, though they send nothing. -/
lemma foldl_ask_answers (h : List.Forall₂ IotagentType.Answers agents lists)
    (hlimit : c.limitI = limitOf limit) (hoffset : c.offsetI = offset)
    (hl : (limit : ℤ) ≤ intMax) (ho : (offset : ℤ) ≤ intMax) (hc : 0 ≤ c.totalCount)
    (htotal : c.totalCount + lists.flatten.length ≤ intMax) :
    let c' := agents.foldl (ask r protocol entity detailed) c
    c'.totalCount = c.totalCount + lists.flatten.length ∧
    c'.devices = c.devices ++ window offset (limit - skipped offset lists) lists.flatten ∧
    c'.nok = c.nok := by
  induction h generalizing c limit offset with
  | nil => simp
  | @cons agent found agents lists hagent _ ih =>
      rw [List.flatten_cons, List.length_append, Nat.cast_add] at htotal ⊢
      have hcount : wrapInt (c.totalCount + found.length) = c.totalCount + found.length :=
        wrapInt_of_mem (by omega) (by omega)
      rw [List.foldl_cons, ask_answers hagent hlimit hoffset (by omega), hcount]
      rcases Nat.lt_or_ge found.length offset with hlt | hge
      · -- the agent ends before the window
        rw [advanceOffset_of_lt ho hlt, advanceLimit_limitOf hl, skipped_of_lt hlt,
          window_of_le hlt.le, List.append_nil]
        obtain ⟨ht, hd, hn⟩ := @ih (limit - found.length) (offset - found.length)
          { c with
            totalCount := c.totalCount + found.length
            offsetI := ((offset - found.length : ℕ) : ℤ)
            limitI := limitOf (limit - found.length) } rfl rfl (by omega) (by omega)
          (by dsimp only; omega) (by dsimp only; omega)
        refine ⟨by rw [ht]; dsimp only; omega, ?_, hn⟩
        rw [hd, window_append, window_of_le hlt.le, List.nil_append, Nat.sub_sub,
          Nat.sub_eq_zero_of_le hlt.le, Nat.sub_zero]
      · -- the window begins at this agent or before it
        rw [advanceOffset_of_le (by omega) hge, advanceLimit_limitOf hl, skipped_of_le hge,
          Nat.sub_zero]
        obtain ⟨ht, hd, hn⟩ := @ih (limit - (found.length - offset)) 0
          { c with
            totalCount := c.totalCount + found.length
            devices := c.devices ++ window offset limit found
            offsetI := 0
            limitI := limitOf (limit - (found.length - offset)) } rfl rfl (by omega) (by omega)
          (by dsimp only; omega) (by dsimp only; omega)
        refine ⟨by rw [ht]; dsimp only; omega, ?_, hn⟩
        rw [hd, window_append, List.append_assoc, Nat.sub_eq_zero_of_le hge, skipped_zero,
          Nat.sub_zero]

end Step

/-! ### The window of the concatenation -/

/-- The answer is the window of the concatenation, with the sum of the counts, and there are no
errors. -/
structure PagesConcatenation (lists : List (List Bson)) (limit offset : ℤ) (reply : Reply) :
    Prop where
  code : reply.code = Types.responseCodeOk
  count : reply.result.get "count" = some (.int ((lists.map List.length).sum : ℕ))
  devices : reply.result.get "devices" =
    some (.arr (window offset.toNat limit.toNat lists.flatten))
  nok : reply.nok = []

/-- The manager answers agents that answer with the window of the concatenation exactly when the
number of devices is an `int` and the agents that end before the window have no devices, or so
few that what they take off the limit is not needed. -/
theorem pagesConcatenation_iff (r : Readers) (agents : List IotagentType)
    (lists : List (List Bson)) (hagents : List.Forall₂ IotagentType.Answers agents lists)
    (limit offset : ℤ) (hlimit : 1 ≤ limit ∧ limit ≤ intMax)
    (hoffset : 0 ≤ offset ∧ offset ≤ intMax) (detailed entity protocolFilter : String)
    (hdetailed : IsDetailed detailed) :
    PagesConcatenation lists limit offset
        (getAllDevicesJson r (.ok agents) limit offset detailed entity protocolFilter) ↔
      ((lists.map List.length).sum : ℕ) ≤ intMax ∧
        (skipped offset.toNat lists = 0 ∨
          (lists.map List.length).sum - offset.toNat ≤
            limit.toNat - skipped offset.toNat lists) := by
  obtain ⟨limit, rfl⟩ := Int.eq_ofNat_of_zero_le (show 0 ≤ limit by omega)
  obtain ⟨offset, rfl⟩ := Int.eq_ofNat_of_zero_le hoffset.1
  have hpos : 0 < limit := by omega
  let c : Collected := { limitI := limit, offsetI := offset }
  let c' := agents.foldl (ask r protocolFilter entity detailed) c
  have hreply : getAllDevicesJson r (.ok agents) limit offset detailed entity protocolFilter =
      { code := Types.responseCodeOk, result := c'.result, nok := c'.nok } := if_pos hdetailed
  have hle : c'.totalCount ≤ intMax := foldl_ask_totalCount_le (show (0 : ℤ) ≤ intMax by decide)
  rw [hreply, ← List.length_flatten, Int.toNat_natCast, Int.toNat_natCast]
  by_cases htotal : (lists.flatten.length : ℤ) ≤ intMax
  · obtain ⟨ht, hd, hn⟩ := @foldl_ask_answers limit offset r protocolFilter entity detailed c
      agents lists hagents (limitOf_of_pos hpos).symm rfl hlimit.2 hoffset.2 le_rfl
      (by rw [zero_add]; exact htotal)
    rw [zero_add] at ht
    rw [List.nil_append] at hd
    rw [← window_sub_eq_iff hpos, and_iff_right htotal]
    constructor
    · intro h
      have hdevices := h.devices
      have hget : Doc.get c'.result "devices" = some (.arr c'.devices) := rfl
      rw [hget, Option.some_inj, Bson.arr.injEq, hd] at hdevices
      exact hdevices
    · intro hwindow
      exact
        { code := rfl
          count := by rw [← List.length_flatten, ← ht]; rfl
          devices := by rw [Int.toNat_natCast, Int.toNat_natCast, ← hwindow, ← hd]; rfl
          nok := hn }
  · refine iff_of_false (fun h => htotal ?_) fun h => htotal h.1
    have hcount := h.count
    have hget : Doc.get c'.result "count" = some (.int c'.totalCount) := rfl
    rw [hget, Option.some_inj, Bson.int.injEq, ← List.length_flatten] at hcount
    rwa [← hcount]

/-- An agent that answers with a list of devices. -/
def agentOf (endpoint : String) (found : List Bson) : IotagentType where
  endpoint
  devices q := .response Types.responseCodeOk
    ⟨"", .ok (AdminService.devicesJson found q.limit q.offset)⟩

lemma answers_agentOf (endpoint : String) (found : List Bson) :
    (agentOf endpoint found).Answers found :=
  fun _ => ⟨"", rfl⟩

/-- A device, by its name. -/
def deviceNamed (name : String) : Bson :=
  .obj [("device_id", .str name)]

/-- Two agents, with one device and with three. -/
def twoLists : List (List Bson) :=
  [[deviceNamed "d1"], [deviceNamed "d2", deviceNamed "d3", deviceNamed "d4"]]

def twoAgents : List IotagentType :=
  [agentOf "http://a" [deviceNamed "d1"],
    agentOf "http://b" [deviceNamed "d2", deviceNamed "d3", deviceNamed "d4"]]

lemma answers_twoAgents : List.Forall₂ IotagentType.Answers twoAgents twoLists :=
  .cons (answers_agentOf _ _) (.cons (answers_agentOf _ _) .nil)

/-- Readers for answers without errors. -/
def plainReaders : Readers where
  parses _ := true
  noArray _ := ""

/-- A window that begins at the end of the first agent's list. -/
theorem pagesConcatenation_iff_border :
    PagesConcatenation twoLists 2 1 (getAllDevicesJson plainReaders (.ok twoAgents) 2 1 "" "" "") :=
  (pagesConcatenation_iff plainReaders twoAgents twoLists answers_twoAgents 2 1 (by decide)
    (by decide) "" "" "" (by decide)).mpr (by decide)

/-- Beyond it the second agent is asked for one device less. -/
theorem not_pagesConcatenation_beyond :
    List.Forall₂ IotagentType.Answers twoAgents twoLists ∧
      ¬ PagesConcatenation twoLists 2 2
        (getAllDevicesJson plainReaders (.ok twoAgents) 2 2 "" "" "") := by
  refine ⟨answers_twoAgents, fun h => ?_⟩
  have hdevices := h.devices
  revert hdevices
  decide

end AdminManagerService

end IotAgent
