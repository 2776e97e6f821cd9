import IotAgent.Lib.JsonTexts
import IotAgent.Util.Json
import Mathlib.Tactic.IntervalCases

/-!
The writer for JSON (`third_party/rapidjson/include/rapidjson/writer.h`).

The writer is told of one value after the other. It keeps a level for each object and array that
is open, with the number of the values in it, and puts the commas and colons by that; the names
and the values of an object count alike.

* `Writer`, `valuePrefix`: the writer and what it puts in front of a value;
* `accept`: how a value is told to it;
* `compact`, `accept_eq`: the text that is written;
* `Edit`: changes of a text which concern its strings only;
* `yields_compact`: what is read of the text behind such a change.
-/

namespace IotAgent

open JsonLexer

namespace JsonWriter

/-! ### The writer -/

/-- `Type`. -/
inductive Kind where
  | null
  | bool
  | number
  | string
  | object
  | array
  deriving DecidableEq

/-- `Level`: in an array or in an object, and the number of values. -/
structure Level where
  inArray : Bool
  valueCount : ℕ := 0

/-- `Writer`, with its stream. -/
structure Writer where
  stream : List Char := []
  levels : List Level := []

/-- What comes in front of the next value. -/
def Level.separator (level : Level) : List Char :=
  if 0 < level.valueCount then
    if level.inArray then [','] else if level.valueCount % 2 = 0 then [','] else [':']
  else []

def Level.next (level : Level) : Level :=
  { level with valueCount := level.valueCount + 1 }

namespace Writer

/-- `Prefix`. `none` is an assertion that fails: the names in an object are strings, and at the
root is an object or an array. -/
def valuePrefix (w : Writer) (kind : Kind) : Option Writer :=
  match w.levels with
  | [] => if kind = .object ∨ kind = .array then some w else none
  | level :: levels =>
      if level.inArray = false ∧ level.valueCount % 2 = 0 ∧ kind ≠ .string then none
      else some { stream := w.stream ++ level.separator, levels := level.next :: levels }

/-- `Put`, for some letters. -/
def put (w : Writer) (cs : List Char) : Writer :=
  { w with stream := w.stream ++ cs }

end Writer

def hexDigits : List Char :=
  ['0', '1', '2', '3', '4', '5', '6', '7', '8', '9', 'A', 'B', 'C', 'D', 'E', 'F']

/-- What `WriteString` makes of one letter. -/
def escape (c : Char) : List Char :=
  if c = '"' then ['\\', '"']
  else if c = '\\' then ['\\', '\\']
  else if c = '\x08' then ['\\', 'b']
  else if c = '\x09' then ['\\', 't']
  else if c = '\x0a' then ['\\', 'n']
  else if c = '\x0c' then ['\\', 'f']
  else if c = '\x0d' then ['\\', 'r']
  else if c.toNat < 0x20 then
    ['\\', 'u', '0', '0', hexDigits.getD (c.toNat / 16) '0', hexDigits.getD (c.toNat % 16) '0']
  else [c]

namespace Writer

/-- `String`. -/
def string (w : Writer) (s : List Char) : Option Writer :=
  (w.valuePrefix .string).map fun w => w.put (quoted (s.flatMap escape))

/-- `Null` and `Bool`. -/
def word (w : Writer) (kind : Kind) (name : Word) : Option Writer :=
  (w.valuePrefix kind).map fun w => w.put name.letters

/-- `Int` to `Double`, with the text of the number. -/
def number (w : Writer) (text : List Char) : Option Writer :=
  (w.valuePrefix .number).map fun w => w.put text

/-- `StartObject`. -/
def startObject (w : Writer) : Option Writer :=
  (w.valuePrefix .object).map fun w =>
    { stream := w.stream ++ ['\x7b'], levels := { inArray := false } :: w.levels }

/-- `EndObject`. -/
def endObject (w : Writer) : Option Writer :=
  match w.levels with
  | [] => none
  | level :: levels =>
      if level.inArray then none else some { stream := w.stream ++ ['\x7d'], levels }

/-- `StartArray`. -/
def startArray (w : Writer) : Option Writer :=
  (w.valuePrefix .array).map fun w =>
    { stream := w.stream ++ ['['], levels := { inArray := true } :: w.levels }

/-- `EndArray`. -/
def endArray (w : Writer) : Option Writer :=
  match w.levels with
  | [] => none
  | level :: levels =>
      if level.inArray then some { stream := w.stream ++ [']'], levels } else none

end Writer

mutual

/-- `Accept`: a value is told to the writer. -/
def accept : Json → Writer → Option Writer
  | .null, w => w.word .null .null
  | .bool b, w => w.word .bool (if b then .yes else .no)
  | .number text, w => w.number text.toList
  | .string s, w => w.string s.toList
  | .array items, w => w.startArray.bind fun w => (acceptItems items w).bind Writer.endArray
  | .object members, w =>
      w.startObject.bind fun w => (acceptMembers members w).bind Writer.endObject

def acceptItems : List Json → Writer → Option Writer
  | [], w => some w
  | v :: vs, w => (accept v w).bind fun w => acceptItems vs w

def acceptMembers : List (String × Json) → Writer → Option Writer
  | [], w => some w
  | (name, v) :: ms, w =>
      (w.string name.toList).bind fun w => (accept v w).bind fun w => acceptMembers ms w

end

/-! ### The text -/

mutual

/-- The text of a value. -/
def compact : Json → List Char
  | .null => Word.letters .null
  | .bool b => Word.letters (if b then .yes else .no)
  | .number text => text.toList
  | .string s => quoted (s.toList.flatMap escape)
  | .array items => '[' :: compactItems items
  | .object members => '\x7b' :: compactMembers members

/-- Items and the bracket behind them. -/
def compactItems : List Json → List Char
  | [] => [']']
  | v :: vs => compact v ++ ((if vs.isEmpty then [] else [',']) ++ compactItems vs)

/-- Members and the brace behind them. -/
def compactMembers : List (String × Json) → List Char
  | [] => ['\x7d']
  | (name, v) :: ms =>
      quoted (name.toList.flatMap escape) ++ (':' :: (compact v ++
        ((if ms.isEmpty then [] else [',']) ++ compactMembers ms)))

end

variable {level : Level} {levels : List Level} {out : List Char} {kind : Kind} {n : ℕ}

/-- A level takes values of any kind. -/
def Level.Free (level : Level) : Prop :=
  level.inArray = true ∨ level.valueCount % 2 = 1

lemma valuePrefix_of_free (h : level.Free) (kind : Kind) :
    (Writer.mk out (level :: levels)).valuePrefix kind =
      some ⟨out ++ level.separator, level.next :: levels⟩ := by
  refine if_neg fun hnot => ?_
  rcases h with h | h
  · rw [h] at hnot
    exact absurd hnot.1 (by decide)
  · omega

lemma valuePrefix_string :
    (Writer.mk out (level :: levels)).valuePrefix .string =
      some ⟨out ++ level.separator, level.next :: levels⟩ :=
  if_neg fun h => h.2.2 rfl

/-- The comma in front of an item or a member, if it is not the first one. -/
def comma {α : Type*} (n : ℕ) (l : List α) : List Char :=
  if 0 < n ∧ l ≠ [] then [','] else []

lemma comma_of_pos {α : Type*} (l : List α) (hn : 0 < n) :
    comma n l = if l.isEmpty then [] else [','] := by
  cases l with
  | nil => exact if_neg fun h => h.2 rfl
  | cons a l => exact if_pos ⟨hn, List.cons_ne_nil _ _⟩

lemma separator_array : (Level.mk true n).separator = if 0 < n then [','] else [] := rfl

lemma separator_even (hn : n % 2 = 0) :
    (Level.mk false n).separator = if 0 < n then [','] else [] := by
  rw [Level.separator]
  split_ifs <;> rfl

lemma separator_odd (hn : n % 2 = 1) : (Level.mk false n).separator = [':'] := by
  rw [Level.separator, if_pos (show 0 < n by omega), if_neg Bool.false_ne_true,
    if_neg (show ¬ n % 2 = 0 by omega)]

lemma comma_cons {α : Type*} (a : α) (l : List α) :
    comma n (a :: l) = if 0 < n then [','] else [] := by
  rw [comma]
  simp

mutual

/-- What a value adds to the stream. The induction is on the value, with the items of an array
behind a number of others and the members of an object behind a number of names and values. -/
theorem accept_free (v : Json) (level : Level) (h : level.Free) (out : List Char)
    (levels : List Level) : accept v ⟨out, level :: levels⟩ =
      some ⟨out ++ level.separator ++ compact v, level.next :: levels⟩ := by
  match v with
  | .null | .bool _ | .number _ | .string _ =>
      simp only [accept, Writer.word, Writer.number, Writer.string, valuePrefix_of_free h]
      rfl
  | .array items =>
      rw [accept, Writer.startArray, valuePrefix_of_free h, Option.map_some, Option.bind_some,
        acceptItems_eq items 0, compact, comma, if_neg fun h => absurd h.1 (Nat.lt_irrefl 0)]
      simp
  | .object members =>
      rw [accept, Writer.startObject, valuePrefix_of_free h, Option.map_some, Option.bind_some,
        acceptMembers_eq members 0 rfl, compact, comma,
        if_neg fun h => absurd h.1 (Nat.lt_irrefl 0)]
      simp

theorem acceptItems_eq (vs : List Json) (n : ℕ) (out : List Char) (levels : List Level) :
    (acceptItems vs ⟨out, ⟨true, n⟩ :: levels⟩).bind Writer.endArray =
      some ⟨out ++ comma n vs ++ compactItems vs, levels⟩ := by
  match vs with
  | [] =>
      rw [acceptItems, compactItems, comma, if_neg fun h => h.2 rfl, List.append_nil]
      rfl
  | v :: vs =>
      rw [acceptItems, accept_free v _ (.inl rfl), Option.bind_some, Level.next,
        acceptItems_eq vs (n + 1), compactItems, comma_of_pos vs (Nat.succ_pos n), comma_cons,
        separator_array]
      simp only [List.append_assoc]

theorem acceptMembers_eq (ms : List (String × Json)) (n : ℕ) (hn : n % 2 = 0) (out : List Char)
    (levels : List Level) :
    (acceptMembers ms ⟨out, ⟨false, n⟩ :: levels⟩).bind Writer.endObject =
      some ⟨out ++ comma n ms ++ compactMembers ms, levels⟩ := by
  match ms with
  | [] =>
      rw [acceptMembers, compactMembers, comma, if_neg fun h => h.2 rfl, List.append_nil]
      rfl
  | (name, v) :: ms =>
      have hodd : (Level.mk false (n + 1)).Free := .inr (by rw [Nat.add_mod, hn])
      rw [acceptMembers, Writer.string, valuePrefix_string, Option.map_some, Option.bind_some,
        Writer.put, Level.next, accept_free v _ hodd, Option.bind_some, Level.next,
        acceptMembers_eq ms (n + 1 + 1) (by omega), compactMembers,
        comma_of_pos ms (Nat.succ_pos _), comma_cons, separator_even hn,
        separator_odd (by omega)]
      simp only [List.append_assoc, List.cons_append, List.nil_append]

end

/-- A value that can stand at the root. -/
def AtRoot : Json → Prop
  | .array _ | .object _ => True
  | _ => False

/-- The writer writes the text of every object and of every array. -/
theorem accept_eq (v : Json) (h : AtRoot v) (out : List Char) :
    accept v ⟨out, []⟩ = some ⟨out ++ compact v, []⟩ := by
  match v, h with
  | .array items, _ =>
      have hstart : Writer.startArray ⟨out, []⟩ = some ⟨out ++ ['['], [⟨true, 0⟩]⟩ := rfl
      rw [accept, hstart, Option.bind_some, acceptItems_eq items 0, compact, comma,
        if_neg fun h => absurd h.1 (Nat.lt_irrefl 0)]
      simp
  | .object members, _ =>
      have hstart : Writer.startObject ⟨out, []⟩ = some ⟨out ++ ['\x7b'], [⟨false, 0⟩]⟩ := rfl
      rw [accept, hstart, Option.bind_some, acceptMembers_eq members 0 rfl, compact, comma,
        if_neg fun h => absurd h.1 (Nat.lt_irrefl 0)]
      simp

/-! ### What is read of the text -/

/-- An escape with hexadecimal digits. -/
lemma run_hexDigits (read : List ℕ) (hn : n < 32) :
    run (.text read) ['\\', 'u', '0', '0', hexDigits.getD (n / 16) '0',
      hexDigits.getD (n % 16) '0'] = some (.text (read ++ [n]), []) := by
  interval_cases n <;> rfl

lemma unitsOf_of_control {c : Char} (h : c.toNat < 0x20) : unitsOf c = [c.toNat] :=
  if_pos (h.trans (by decide))

/-- Every letter is read as it was. -/
lemma escapes_escape : Escapes (fun _ => True) escape where
  run_of c _ read := by
    rw [escape]
    split_ifs with h₁ h₂ h₃ h₄ h₅ h₆ h₇ hcontrol
    any_goals
      subst c
      rfl
    · rw [run_hexDigits read hcontrol, unitsOf_of_control hcontrol]
    · rw [run, step, if_neg h₁, if_neg h₂, if_neg hcontrol]
      rfl
  run_of_not _ h := absurd trivial h

/-- A change of texts which concerns strings only: what is no backslash stays, and a string in
front of a mark becomes another one if it is good, and else it spoils the text. -/
structure Edit (edit : List Char → List Char) (good : List Char → Prop)
    (f : List Char → List Char) : Prop where
  nil : edit [] = []
  cons : ∀ c t, c ≠ '\\' → edit (c :: t) = c :: edit t
  string : ∀ s c tok, punctuation c = some tok →
    Edited edit (good s) (quoted (s.flatMap escape) ++ [c]) [.string (units (f s)), tok]

mutual

/-- The value, with other strings. -/
def toValue (f : List Char → List Char) : Json → JsonValue
  | .null => .word .null
  | .bool b => .word (if b then .yes else .no)
  | .number text => .number text.toList
  | .string s => .string (units (f s.toList))
  | .array items => .array (toItems f items)
  | .object members => .object (toMembers f members)

def toItems (f : List Char → List Char) : List Json → List JsonValue
  | [] => []
  | v :: vs => toValue f v :: toItems f vs

def toMembers (f : List Char → List Char) : List (String × Json) → List (List ℕ × JsonValue)
  | [] => []
  | (name, v) :: ms => (units (f name.toList), toValue f v) :: toMembers f ms

end

mutual

/-- The strings of a value, the names in objects included. -/
def texts : Json → List (List Char)
  | .null | .bool _ | .number _ => []
  | .string s => [s.toList]
  | .array items => textsOfItems items
  | .object members => textsOfMembers members

def textsOfItems : List Json → List (List Char)
  | [] => []
  | v :: vs => texts v ++ textsOfItems vs

def textsOfMembers : List (String × Json) → List (List Char)
  | [] => []
  | (name, v) :: ms => name.toList :: (texts v ++ textsOfMembers ms)

end

mutual

/-- The numbers of a value are numbers. -/
def Numbers : Json → Prop
  | .null | .bool _ | .string _ => True
  | .number text => validNumber text.toList
  | .array items => NumbersOfItems items
  | .object members => NumbersOfMembers members

def NumbersOfItems : List Json → Prop
  | [] => True
  | v :: vs => Numbers v ∧ NumbersOfItems vs

def NumbersOfMembers : List (String × Json) → Prop
  | [] => True
  | (_, v) :: ms => Numbers v ∧ NumbersOfMembers ms

end

variable {edit : List Char → List Char} {good : List Char → Prop} {f : List Char → List Char}

lemma Edit.of_yields {P : Prop} {cs : List Char} {l : List Token} (h : Edit edit good f)
    (hcs : '\\' ∉ cs) (hyields : Yields P cs l) : Edited edit P cs l :=
  .of_yields h.cons (fun _ hc e => hcs (e ▸ hc)) hyields

lemma backslash_notMem_number {text : List Char} (h : validNumber text = true) :
    '\\' ∉ text := by
  obtain ⟨a, as, rfl, ha, has⟩ := exists_of_validNumber h
  rw [List.mem_cons, not_or]
  refine ⟨fun e => ?_, fun hmem => absurd (has _ hmem) (by decide)⟩
  subst e
  exact absurd ha (by decide)

lemma punctuation_ne_backslash {c : Char} {tok : Token} (hc : punctuation c = some tok) :
    '\\' ≠ c := by
  rintro rfl
  cases hc

/-- A word with a mark behind it. -/
lemma yields_word {c : Char} {tok : Token} (w : Word) (hc : punctuation c = some tok) :
    Yields True (w.letters ++ [c]) [.word w, tok] := by
  refine yields_of_run ?_
  have hword : run (.between false) w.letters = some (.between false, [.word w]) := by
    cases w <;> rfl
  rw [run_append_of_run hword, run_mark hc]
  rfl

mutual

/-- What is read of a value with a mark behind it, when the text has been changed. The induction
is on the value; a string is never read without the mark behind it. -/
theorem edited_compact (h : Edit edit good f) (v : Json) (hv : Numbers v) (c : Char)
    (tok : Token) (hc : punctuation c = some tok) :
    Edited edit (∀ s ∈ texts v, good s) (compact v ++ [c]) ((toValue f v).tokens ++ [tok]) := by
  match v, hv with
  | .null, _ =>
      refine h.of_yields ?_ ((yields_word .null hc).congr ?_ ?_)
      · simp [compact, Word.letters, punctuation_ne_backslash hc]
      · simp [texts]
      · rw [toValue, JsonValue.tokens]
        rfl
  | .bool b, _ =>
      refine h.of_yields ?_ ((yields_word (if b then .yes else .no) hc).congr ?_ ?_)
      · cases b <;> simp [compact, Word.letters, punctuation_ne_backslash hc]
      · simp [texts]
      · rw [toValue, JsonValue.tokens]
        rfl
  | .number text, hv =>
      rw [Numbers] at hv
      refine h.of_yields ?_ ((yields_number hv hc).congr ?_ ?_)
      · simp [compact, backslash_notMem_number hv, punctuation_ne_backslash hc]
      · simp [texts]
      · rw [toValue, JsonValue.tokens]
        rfl
  | .string s, _ =>
      refine (h.string s.toList c tok hc).congr ?_ ?_
      · simp [texts]
      · rw [toValue, JsonValue.tokens]
        rfl
  | .array items, hv =>
      rw [Numbers] at hv
      have hopen : Edited edit True ['['] [.lbracket] := h.of_yields (by simp) (yields_mark rfl)
      have hclose : Edited edit True [c] [tok] :=
        h.of_yields (by simpa using punctuation_ne_backslash hc) (yields_mark hc)
      refine ((hopen.append (edited_compactItems h items hv)).append hclose).congr ?_ ?_
      · simp [texts]
      · rw [toValue, JsonValue.tokens_array]
        rfl
  | .object members, hv =>
      rw [Numbers] at hv
      have hopen : Edited edit True ['\x7b'] [.lbrace] := h.of_yields (by simp) (yields_mark rfl)
      have hclose : Edited edit True [c] [tok] :=
        h.of_yields (by simpa using punctuation_ne_backslash hc) (yields_mark hc)
      refine ((hopen.append (edited_compactMembers h members hv)).append hclose).congr ?_ ?_
      · simp [texts]
      · rw [toValue, JsonValue.tokens_object_eq]
        rfl

theorem edited_compactItems (h : Edit edit good f) (vs : List Json) (hvs : NumbersOfItems vs) :
    Edited edit (∀ s ∈ textsOfItems vs, good s) (compactItems vs)
      (JsonValue.itemsTokens (toItems f vs) ++ [.rbracket]) := by
  match vs, hvs with
  | [], _ =>
      exact (h.of_yields (by simp) (yields_mark (c := ']') rfl)).congr (by simp [textsOfItems])
        rfl
  | [v], hv =>
      rw [NumbersOfItems] at hv
      exact (edited_compact h v hv.1 ']' .rbracket rfl).congr (by simp [textsOfItems])
        (by simp [toItems, JsonValue.itemsTokens, JsonValue.restItems])
  | v :: v' :: vs, hvs =>
      rw [NumbersOfItems] at hvs
      have hrest := edited_compactItems h (v' :: vs) hvs.2
      have hv := edited_compact h v hvs.1 ',' .comma rfl
      have htext : compactItems (v :: v' :: vs) =
          (compact v ++ [',']) ++ compactItems (v' :: vs) := by
        rw [compactItems, List.append_assoc]
        rfl
      rw [htext]
      refine (hv.append hrest).congr ?_ ?_
      · exact List.forall_mem_append.symm
      · simp [toItems, JsonValue.itemsTokens, JsonValue.restItems]

theorem edited_compactMembers (h : Edit edit good f) (ms : List (String × Json))
    (hms : NumbersOfMembers ms) :
    Edited edit (∀ s ∈ textsOfMembers ms, good s) (compactMembers ms)
      (JsonValue.membersTokens (toMembers f ms) ++ [.rbrace]) := by
  match ms, hms with
  | [], _ =>
      exact (h.of_yields (by simp) (yields_mark (c := '\x7d') rfl)).congr
        (by simp [textsOfMembers]) rfl
  | [(name, v)], hms =>
      rw [NumbersOfMembers] at hms
      have hname := h.string name.toList ':' .colon rfl
      have hv := edited_compact h v hms.1 '\x7d' .rbrace rfl
      have htext : compactMembers [(name, v)] =
          (quoted (name.toList.flatMap escape) ++ [':']) ++ (compact v ++ ['\x7d']) := by
        rw [compactMembers, List.append_assoc]
        rfl
      rw [htext]
      refine (hname.append hv).congr ?_ ?_
      · simp [textsOfMembers]
      · simp [toMembers, JsonValue.membersTokens, JsonValue.restMembers]
  | (name, v) :: m :: ms, hms =>
      rw [NumbersOfMembers] at hms
      have hname := h.string name.toList ':' .colon rfl
      have hv := edited_compact h v hms.1 ',' .comma rfl
      have hrest := edited_compactMembers h (m :: ms) hms.2
      have htext : compactMembers ((name, v) :: m :: ms) =
          (quoted (name.toList.flatMap escape) ++ [':']) ++ (compact v ++ [',']) ++
            compactMembers (m :: ms) := by
        rw [compactMembers]
        simp
      rw [htext]
      refine ((hname.append hv).append hrest).congr ?_ ?_
      · rw [and_assoc, ← List.forall_mem_append]
        exact List.forall_mem_cons.symm
      · obtain ⟨name', v'⟩ := m
        simp [toMembers, JsonValue.membersTokens, JsonValue.restMembers]

end

/-- **The whole text of an object or an array**, when it has been changed. -/
theorem yields_compact (h : Edit edit good f) (v : Json) (hroot : AtRoot v) (hv : Numbers v) :
    Yields (∀ s ∈ texts v, good s) (edit (compact v)) (toValue f v).tokens := by
  match v, hroot with
  | .array items, _ =>
      rw [Numbers] at hv
      have hopen : Edited edit True ['['] [.lbracket] := h.of_yields (by simp) (yields_mark rfl)
      refine ((hopen.append (edited_compactItems h items hv)).congr ?_ ?_).yields h.nil
      · simp [texts]
      · rw [toValue, JsonValue.tokens_array]
        rfl
  | .object members, _ =>
      rw [Numbers] at hv
      have hopen : Edited edit True ['\x7b'] [.lbrace] := h.of_yields (by simp) (yields_mark rfl)
      refine ((hopen.append (edited_compactMembers h members hv)).congr ?_ ?_).yields h.nil
      · simp [texts]
      · rw [toValue, JsonValue.tokens_object_eq]
        rfl

end JsonWriter

end IotAgent
