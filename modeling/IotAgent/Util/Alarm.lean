import Mathlib.Data.Finset.Card
import IotAgent.Lib.Runs
import IotAgent.Util.StrMap

/-!
Alarms (`src/util/alarm.{h,cc}`).

An error of a code at an endpoint puts an alarm into a map, and an info of the same code at the
same endpoint takes it out. Both write a line. The key of an alarm is the text of its code with
the endpoint behind it, so that two alarms may have one key.

* `Alarm`: the map, with its order as an invariant, and the lines written;
* `Alarm.put`, `Alarm.putWith`, `Alarm.remove`: the operations; `Alarm.apply` does what a call
  of `error` or `info` asks for;
* `AlarmBoard`: what the alarms are meant to be, a set of codes and endpoints;
  `mem_outstanding_iff` says which are in it;
* `Exact`: the map and the lines are those of the board;
* `exact_iff_keysApart`: the runs in which they are so throughout.
-/

namespace IotAgent

/-- The levels of the lines that alarms write. -/
inductive LogLevel where
  | debug
  | error
  deriving DecidableEq

structure LogLine where
  level : LogLevel
  text : String
  deriving DecidableEq

/-- The outstanding alarms by their keys, each with the line it was put with. -/
structure Alarm where
  alarms : StrMap
  lines : List LogLine
  ordered : StrMap.Ordered alarms

/-- A call of `error`, in its two forms, or of `info`. -/
inductive AlarmCall where
  | error (code : ℤ) (endpoint status text : String)
  | errorWith (code : ℤ) (endpoint content : String) (additionalInfo : PTree)
      (status text : String)
  | info (code : ℤ) (endpoint status text : String)

namespace Alarm

/-! ### Keys and messages -/

/-- `get_key`, which does not look at the status. -/
def getKey (code : ℤ) (endpoint _status : String) : String :=
  toString code ++ endpoint

/-- `message`. -/
def message (code : ℤ) (endpoint _status text : String) : String :=
  " code=" ++ toString code ++ " to=" ++ endpoint ++ " info=" ++ text

/-- `message`, with what could not be delivered. -/
def messageWith (code : ℤ) (endpoint content : String) (servicept : PTree)
    (_status text : String) : String :=
  " code=" ++ toString code ++ " to=" ++ endpoint ++
    " service=" ++ servicept.get "service" "" ++
    " service_path=" ++ servicept.get "service_path" "/" ++
    " content=" ++ content ++ " info=" ++ text

/-! ### Operations -/

/-- No alarm, and nothing written. -/
def empty : Alarm :=
  ⟨[], [], List.Pairwise.nil⟩

variable (a : Alarm)

def size : ℕ :=
  a.alarms.length

def write (level : LogLevel) (text : String) : Alarm :=
  { a with lines := a.lines ++ [⟨level, text⟩] }

/-- Insertion into the map, where an alarm that is there already stays as it is. -/
def insert (key text : String) : Alarm :=
  { a with alarms := StrMap.insert a.alarms key text, ordered := a.ordered.insert }

def erase (key : String) : Alarm :=
  { a with alarms := StrMap.erase a.alarms key, ordered := a.ordered.erase }

/-- `put`. -/
def put (code : ℤ) (endpoint status text : String) : Alarm :=
  let errorSTR := " event=ALARM" ++ message code endpoint status text
  (a.write .error errorSTR).insert (getKey code endpoint status) errorSTR

/-- `put`, with what could not be delivered. -/
def putWith (code : ℤ) (endpoint content : String) (additionalInfo : PTree)
    (status text : String) : Alarm :=
  let errorSTR := " event=ALARM" ++ messageWith code endpoint content additionalInfo status text
  (a.write .error errorSTR).insert (getKey code endpoint status) errorSTR

/-- `remove`, which writes an error if there was something to remove. -/
def remove (code : ℤ) (endpoint status text : String) : Alarm :=
  let errorSTR := " event=END-ALARM" ++ message code endpoint status text
  let key := getKey code endpoint status
  let level := if key ∈ StrMap.keys a.alarms then LogLevel.error else LogLevel.debug
  (a.erase key).write level errorSTR

/-- `error` and `info`. -/
def apply : AlarmCall → Alarm
  | .error code endpoint status text => a.put code endpoint status text
  | .errorWith code endpoint content additionalInfo status text =>
      a.putWith code endpoint content additionalInfo status text
  | .info code endpoint status text => a.remove code endpoint status text

/-- The alarms after a list of calls. -/
def after (calls : List AlarmCall) : Alarm :=
  Run.run apply empty calls

end Alarm

/-! ### What a call is about -/

namespace AlarmCall

/-- The code and the endpoint. -/
def pair : AlarmCall → ℤ × String
  | .error code endpoint _ _ => (code, endpoint)
  | .errorWith code endpoint _ _ _ _ => (code, endpoint)
  | .info code endpoint _ _ => (code, endpoint)

/-- Whether the call is of `error`. -/
def raises : AlarmCall → Bool
  | .error .. => true
  | .errorWith .. => true
  | .info .. => false

def message : AlarmCall → String
  | .error code endpoint status text => Alarm.message code endpoint status text
  | .errorWith code endpoint content additionalInfo status text =>
      Alarm.messageWith code endpoint content additionalInfo status text
  | .info code endpoint status text => Alarm.message code endpoint status text

end AlarmCall

/-- The key of a code and an endpoint. -/
def Alarm.pairKey (p : ℤ × String) : String :=
  Alarm.getKey p.1 p.2 ""

/-! ### The board -/

/-- The codes and endpoints with an alarm outstanding, and the lines written so far. -/
structure AlarmBoard where
  outstanding : Finset (ℤ × String)
  lines : List LogLine

namespace AlarmBoard

/-- An error raises its pair and writes a line, also if the pair was raised before. An info
clears its pair; its line is an error if the pair was raised. -/
def apply (b : AlarmBoard) (c : AlarmCall) : AlarmBoard :=
  if c.raises then
    { outstanding := insert c.pair b.outstanding
      lines := b.lines ++ [⟨.error, " event=ALARM" ++ c.message⟩] }
  else
    { outstanding := b.outstanding.erase c.pair
      lines := b.lines ++ [⟨if c.pair ∈ b.outstanding then .error else .debug,
        " event=END-ALARM" ++ c.message⟩] }

/-- The board after a list of calls. -/
def after (calls : List AlarmCall) : AlarmBoard :=
  Run.run apply ⟨∅, []⟩ calls

/-- A pair was raised and not cleared since. -/
def RaisedSince (calls : List AlarmCall) (p : ℤ × String) : Prop :=
  ∃ before c after, calls = before ++ c :: after ∧ c.raises = true ∧ c.pair = p ∧
    ∀ d ∈ after, d.pair = p → d.raises = true

variable {b : AlarmBoard} {c d : AlarmCall} {calls : List AlarmCall} {p : ℤ × String}

lemma after_concat : after (calls ++ [d]) = (after calls).apply d :=
  List.foldl_concat ..

lemma mem_apply_iff : p ∈ (b.apply d).outstanding ↔
    (d.raises = true ∧ d.pair = p) ∨ (p ∈ b.outstanding ∧ (d.pair = p → d.raises = true)) := by
  rw [apply]
  cases hd : d.raises with
  | true => simp [eq_comm]
  | false => simp [and_comm, eq_comm]

/-- With one more call. -/
lemma raisedSince_concat : RaisedSince (calls ++ [d]) p ↔
    (d.raises = true ∧ d.pair = p) ∨
      (RaisedSince calls p ∧ (d.pair = p → d.raises = true)) := by
  constructor
  · rintro ⟨before, c, after, heq, hc, hp, hafter⟩
    rcases List.eq_nil_or_concat after with rfl | ⟨after, e, rfl⟩
    · obtain ⟨-, hcd⟩ := List.append_inj' heq rfl
      rw [List.singleton_inj] at hcd
      exact Or.inl ⟨hcd ▸ hc, hcd ▸ hp⟩
    · rw [List.concat_eq_append, ← List.cons_append, ← List.append_assoc] at heq
      obtain ⟨hcalls, hde⟩ := List.append_inj' heq rfl
      rw [List.singleton_inj] at hde
      subst hde
      rw [List.concat_eq_append] at hafter
      refine Or.inr ⟨⟨before, c, after, hcalls, hc, hp, fun e he => ?_⟩, ?_⟩
      · exact hafter e (List.mem_append_left _ he)
      · exact hafter d (List.mem_append_right _ (List.mem_singleton.mpr rfl))
  · rintro (⟨hd, hp⟩ | ⟨⟨before, c, after, rfl, hc, hp, hafter⟩, hd⟩)
    · exact ⟨calls, d, [], rfl, hd, hp, by simp⟩
    · refine ⟨before, c, after ++ [d], by simp, hc, hp, fun e he => ?_⟩
      rcases List.mem_append.mp he with he | he
      · exact hafter e he
      · rw [List.mem_singleton.mp he]
        exact hd

/-- On the board stands what was raised and not cleared since. -/
lemma mem_outstanding_iff : p ∈ (after calls).outstanding ↔ RaisedSince calls p := by
  induction calls using List.reverseRecOn with
  | nil => simp [after, Run.run, RaisedSince]
  | append_singleton calls d ih => rw [after_concat, mem_apply_iff, raisedSince_concat, ih]

end AlarmBoard

/-! ### The map and the board -/

namespace Alarm

open AlarmBoard (RaisedSince)

/-- The alarms of the map are those of the board, and so are the lines. -/
structure Exact (a : Alarm) (b : AlarmBoard) : Prop where
  keys : ∀ k, k ∈ StrMap.keys a.alarms ↔ ∃ p ∈ b.outstanding, pairKey p = k
  size : a.size = b.outstanding.card
  lines : a.lines = b.lines

/-- No call meets an outstanding alarm of another pair with the same key. -/
def KeysApart (calls : List AlarmCall) : Prop :=
  ∀ before c after, calls = before ++ c :: after →
    ∀ p, RaisedSince before p → pairKey p = pairKey c.pair → p = c.pair

variable {a : Alarm} {b : AlarmBoard} {c d : AlarmCall} {calls : List AlarmCall}

/-- What a call does to the keys. -/
lemma mem_keys_apply {k : String} : k ∈ StrMap.keys (a.apply c).alarms ↔
    if c.raises then k = pairKey c.pair ∨ k ∈ StrMap.keys a.alarms
    else k ∈ StrMap.keys a.alarms ∧ k ≠ pairKey c.pair := by
  cases c with
  | error code endpoint status text => exact StrMap.mem_keys_insert
  | errorWith code endpoint content additionalInfo status text => exact StrMap.mem_keys_insert
  | info code endpoint status text => exact StrMap.mem_keys_erase

/-- What a call writes. -/
lemma apply_lines : (a.apply c).lines = a.lines ++
    [if c.raises then ⟨.error, " event=ALARM" ++ c.message⟩
     else ⟨if pairKey c.pair ∈ StrMap.keys a.alarms then .error else .debug,
       " event=END-ALARM" ++ c.message⟩] := by
  cases c <;> rfl

/-- The size of the map, by the set of its keys. -/
lemma size_eq_card : a.size = (StrMap.keys a.alarms).toFinset.card := by
  rw [List.toFinset_card_of_nodup a.ordered.nodup_keys, size, List.length_map]

/-- The map is exact when it has the keys of the board and these differ. -/
lemma exact_iff : a.Exact b ↔
    (∀ k, k ∈ StrMap.keys a.alarms ↔ ∃ p ∈ b.outstanding, pairKey p = k) ∧
      Set.InjOn pairKey b.outstanding ∧ a.lines = b.lines := by
  have hcard (hkeys : ∀ k, k ∈ StrMap.keys a.alarms ↔ ∃ p ∈ b.outstanding, pairKey p = k) :
      a.size = b.outstanding.card ↔ Set.InjOn pairKey b.outstanding := by
    have himage : (StrMap.keys a.alarms).toFinset = b.outstanding.image pairKey := by
      ext k
      rw [List.mem_toFinset, hkeys, Finset.mem_image]
    rw [size_eq_card, himage, Finset.card_image_iff]
  exact ⟨fun h => ⟨h.keys, (hcard h.keys).mp h.size, h.lines⟩,
    fun h => ⟨h.1, (hcard h.1).mpr h.2.1, h.2.2⟩⟩

/-- One call keeps the map exact exactly if no other alarm on the board has its key. -/
lemma exact_apply_iff (hab : a.Exact b) : (a.apply c).Exact (b.apply c) ↔
    ∀ p ∈ b.outstanding, pairKey p = pairKey c.pair → p = c.pair := by
  obtain ⟨hkeys, hinj, hlines⟩ := exact_iff.mp hab
  constructor
  · intro hnext p hp hpc
    obtain ⟨hkeys', hinj', -⟩ := exact_iff.mp hnext
    by_contra hne
    have hstays : p ∈ (b.apply c).outstanding :=
      AlarmBoard.mem_apply_iff.mpr (Or.inr ⟨hp, fun h => absurd h.symm hne⟩)
    cases hc : c.raises with
    | true =>
        have hraised : c.pair ∈ (b.apply c).outstanding :=
          AlarmBoard.mem_apply_iff.mpr (Or.inl ⟨hc, rfl⟩)
        exact hne (hinj' hstays hraised hpc)
    | false =>
        have hmem := (hkeys' (pairKey p)).mpr ⟨p, hstays, rfl⟩
        rw [mem_keys_apply, if_neg (by simp [hc])] at hmem
        exact hmem.2 hpc
  · intro hapart
    have hmem : pairKey c.pair ∈ StrMap.keys a.alarms ↔ c.pair ∈ b.outstanding := by
      rw [hkeys]
      exact ⟨fun ⟨p, hp, hpc⟩ => hapart p hp hpc ▸ hp, fun h => ⟨_, h, rfl⟩⟩
    refine exact_iff.mpr ⟨fun k => ?_, ?_, ?_⟩
    · simp only [mem_keys_apply, AlarmBoard.mem_apply_iff, hkeys]
      cases hc : c.raises with
      | true =>
          constructor
          · rintro (rfl | ⟨p, hp, rfl⟩)
            · exact ⟨c.pair, Or.inl ⟨rfl, rfl⟩, rfl⟩
            · exact ⟨p, Or.inr ⟨hp, fun _ => rfl⟩, rfl⟩
          · rintro ⟨p, ⟨-, rfl⟩ | ⟨hp, -⟩, rfl⟩
            · exact Or.inl rfl
            · exact Or.inr ⟨p, hp, rfl⟩
      | false =>
          constructor
          · rintro ⟨⟨p, hp, rfl⟩, hne⟩
            exact ⟨p, Or.inr ⟨hp, fun h => absurd (congrArg pairKey h.symm) hne⟩, rfl⟩
          · rintro ⟨p, ⟨h, -⟩ | ⟨hp, hne⟩, rfl⟩
            · cases h
            · exact ⟨⟨p, hp, rfl⟩, fun h => by cases hne (hapart p hp h).symm⟩
    · intro p hp q hq hpq
      rcases AlarmBoard.mem_apply_iff.mp hp with ⟨-, rfl⟩ | ⟨hp, -⟩ <;>
        rcases AlarmBoard.mem_apply_iff.mp hq with ⟨-, rfl⟩ | ⟨hq, -⟩
      · rfl
      · exact (hapart q hq hpq.symm).symm
      · exact hapart p hp hpq
      · exact hinj hp hq hpq
    · rw [apply_lines, hlines, AlarmBoard.apply]
      cases c.raises <;> simp [hmem]

/-- The map and the board side by side. -/
def applyBoth (s : Alarm × AlarmBoard) (c : AlarmCall) : Alarm × AlarmBoard :=
  (s.1.apply c, s.2.apply c)

lemma run_applyBoth (s : Alarm × AlarmBoard) (calls : List AlarmCall) :
    Run.run applyBoth s calls = (Run.run apply s.1 calls, Run.run AlarmBoard.apply s.2 calls) := by
  induction calls generalizing s with
  | nil => rfl
  | cons c calls ih => exact ih _

/-- **Alarms**: the alarms outstanding are those raised and not cleared since, with a line for
every error and an error line for every info that clears one, after every call exactly if no
call meets another outstanding alarm with the same key; and then a call about one pair leaves
the alarms of the others. -/
theorem exact_iff_keysApart (calls : List AlarmCall) :
    (∀ p, p ∈ (AlarmBoard.after calls).outstanding ↔ RaisedSince calls p) ∧
    ((∀ n, (after (calls.take n)).Exact (AlarmBoard.after (calls.take n))) ↔ KeysApart calls) ∧
    (KeysApart calls → ∀ before c rest, calls = before ++ c :: rest →
      ∀ p, RaisedSince before p → p ≠ c.pair →
        pairKey p ∈ StrMap.keys (after (before ++ [c])).alarms) := by
  have hexact : (∀ n, (after (calls.take n)).Exact (AlarmBoard.after (calls.take n))) ↔
      KeysApart calls := by
    have hempty : empty.Exact ⟨∅, []⟩ := ⟨by simp [empty], rfl, rfl⟩
    have hstep : ∀ (s : Alarm × AlarmBoard) c, s.1.Exact s.2 → True →
        ((applyBoth s c).1.Exact (applyBoth s c).2 ↔
          ∀ p ∈ s.2.outstanding, pairKey p = pairKey c.pair → p = c.pair) :=
      fun s c hs _ => exact_apply_iff hs
    have hiff := Run.forall_run_iff (J := fun s => s.1.Exact s.2) (s := (empty, ⟨∅, []⟩))
      (l := calls) hstep hempty Run.always_true
    rw [Run.always_iff] at hiff
    simp only [run_applyBoth] at hiff
    refine hiff.trans ?_
    simp only [KeysApart, ← AlarmBoard.mem_outstanding_iff]
    rfl
  refine ⟨fun p => AlarmBoard.mem_outstanding_iff, hexact, ?_⟩
  rintro hapart before c rest rfl p hp hne
  have htake : (before ++ c :: rest).take (before.length + 1) = before ++ [c] := by
    simp [List.take_append]
  have hkeys := (hexact.mpr hapart (before.length + 1)).keys (pairKey p)
  rw [htake] at hkeys
  refine hkeys.mpr ⟨p, ?_, rfl⟩
  rw [AlarmBoard.mem_outstanding_iff, AlarmBoard.raisedSince_concat]
  exact Or.inr ⟨hp, fun h => absurd h.symm hne⟩

/-- An info about another pair with the same key clears an alarm. -/
example : (after [.error 100 "0.iot" "error" "text",
    .info 1000 ".iot" "error" "text"]).size = 0 := by
  decide +kernel

/-! ### A line for every error -/

/-- The lines that are errors. -/
def errorLines (a : Alarm) : List LogLine :=
  a.lines.filter fun l => l.level = .error

/-- An error line is written exactly when the set of outstanding alarms changes. -/
def LinesOnChange (calls : List AlarmCall) : Prop :=
  ∀ before c rest, calls = before ++ c :: rest →
    ((after (before ++ [c])).errorLines ≠ (after before).errorLines ↔
      (AlarmBoard.after (before ++ [c])).outstanding ≠ (AlarmBoard.after before).outstanding)

/-- The same error twice writes two lines for one alarm. -/
theorem not_linesOnChange_repeated :
    ¬ LinesOnChange [.error 100 " 127.0.0.1:27017" "error" "socket exception",
      .error 100 " 127.0.0.1:27017" "error" "socket exception"] := by
  intro hlines
  have hsecond := (hlines [.error 100 " 127.0.0.1:27017" "error" "socket exception"] _ [] rfl).mp
    (by decide +kernel)
  exact hsecond (by decide +kernel)

end Alarm

end IotAgent
