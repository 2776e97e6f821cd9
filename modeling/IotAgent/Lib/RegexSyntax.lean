import IotAgent.Lib.Regex

/-!
Perl regular expressions of bytes as texts.

The texts are those without alternatives, escapes, anchors and counts, and with `+` behind single
characters and classes only. A text is read from left to right; a parenthesis keeps what has been
read on a stack.

* `CharSet`, `CharSet.mem`: a class in brackets, a single character or any character, in a locale
  that says what white space is;
* `parse`: the expression of a text;
* `Reader.run`: reading a piece of a text, with `run_append` for one piece after the other;
* `run_literals`: a text of ordinary characters.
-/

namespace Regex

/-- What stands in brackets. -/
inductive ClassItem where
  | byte (c : UInt8)
  | range (lo hi : UInt8)
  | space
  deriving DecidableEq

/-- A class of characters, perhaps all but those that are listed. -/
structure CharSet where
  negated : Bool := false
  items : List ClassItem
  deriving DecidableEq

namespace CharSet

/-- One character. -/
def literal (c : UInt8) : CharSet where
  items := [.byte c]

/-- Any character. -/
def any : CharSet where
  negated := true
  items := []

/-- A character is in the class, where the locale says what white space is. -/
def mem (isSpace : UInt8 → Bool) (set : CharSet) (c : UInt8) : Bool :=
  xor set.negated <| set.items.any fun item => match item with
    | .byte b => c = b
    | .range lo hi => lo ≤ c ∧ c ≤ hi
    | .space => isSpace c

end CharSet

/-- The characters of an ASCII text. -/
def bytes (s : String) : List UInt8 :=
  s.toList.map fun c => UInt8.ofNat c.toNat

/-- Where a reader is: outside of brackets; behind an opening one; in brackets, with what has been
read there, and there behind a character and a minus, behind another opening bracket or in the
name of a class, whose last character may have been a colon. -/
inductive Mode where
  | normal
  | opened
  | inside (set : CharSet)
  | minus (set : CharSet) (lo : UInt8)
  | bracket (set : CharSet)
  | name (set : CharSet) (name : List UInt8)
  | colon (set : CharSet) (name : List UInt8)
  deriving DecidableEq

/-- What has been read: the expressions in front of the open groups, and the one behind. -/
structure Reader where
  stack : List (Regex CharSet) := []
  regex : Regex CharSet := .empty
  mode : Mode := .normal
  deriving DecidableEq

namespace Reader

/-- The characters with a meaning of their own. -/
def special : List UInt8 :=
  bytes ".[]()*+?\x7b\x7d|^$\\"

/-- A class follows. -/
def add (s : Reader) (set : CharSet) : Reader :=
  { s with regex := .seq s.regex (.one set), mode := .normal }

/-- A character outside of brackets. -/
def readNormal (s : Reader) (c : UInt8) : Option Reader :=
  if c ∉ special then some (s.add (.literal c))
  else if c = 0x2E then some (s.add .any)
  else if c = 0x5B then some { s with mode := .opened }
  else if c = 0x28 then some { s with stack := s.regex :: s.stack, regex := .empty }
  else if c = 0x29 then
    match s.stack with
    | outer :: stack => some { s with stack, regex := .seq outer (.group s.regex) }
    | [] => none
  else if c = 0x2B then
    match s.regex with
    | .seq r (.one set) => some { s with regex := .seq r (.plus set) }
    | _ => none
  else none

/-- A character in brackets; a bracket may only be the closing one or begin the name of a class,
and a minus between two characters makes a range. -/
def readInside (s : Reader) (set : CharSet) (c : UInt8) : Option Reader :=
  if c = 0x5D then if set.items = [] then none else some (s.add set)
  else if c = 0x5B then some { s with mode := .bracket set }
  else if c = 0x5C then none
  else if c = 0x2D then
    match set.items with
    | .byte lo :: items => some { s with mode := .minus { set with items } lo }
    | _ => some { s with mode := .inside { set with items := .byte c :: set.items } }
  else some { s with mode := .inside { set with items := .byte c :: set.items } }

/-- A character behind a minus in brackets. -/
def readMinus (s : Reader) (set : CharSet) (lo c : UInt8) : Option Reader :=
  if c = 0x5D then some (s.add { set with items := .byte 0x2D :: .byte lo :: set.items })
  else if c = 0x5B ∨ c = 0x5C ∨ c < lo then none
  else some { s with mode := .inside { set with items := .range lo c :: set.items } }

/-- One character. -/
def read (s : Reader) (c : UInt8) : Option Reader :=
  match s.mode with
  | .normal => readNormal s c
  | .opened =>
      if c = 0x5E then some { s with mode := .inside { negated := true, items := [] } }
      else readInside s { items := [] } c
  | .inside set => readInside s set c
  | .minus set lo => readMinus s set lo c
  | .bracket set => if c = 0x3A then some { s with mode := .name set [] } else none
  | .name set name =>
      if c = 0x3A then some { s with mode := .colon set name }
      else some { s with mode := .name set (name ++ [c]) }
  | .colon set name =>
      if c = 0x5D ∧ name = bytes "space" then
        some { s with mode := .inside { set with items := .space :: set.items } }
      else none

/-- The characters of a piece of a text. -/
def run (s : Reader) : List UInt8 → Option Reader
  | [] => some s
  | c :: cs => (read s c).bind fun s => run s cs

end Reader

/-- The expression of a text, if it has one. -/
def parse (text : List UInt8) : Option (Regex CharSet) :=
  (Reader.run {} text).bind fun s => if s.stack = [] ∧ s.mode = .normal then some s.regex else none

/-! ### Reading by pieces -/

/-- A text of ordinary characters. -/
def literals (r : Regex CharSet) (cs : List UInt8) : Regex CharSet :=
  cs.foldl (fun r c => .seq r (.one (.literal c))) r

namespace Reader

variable {s : Reader} {cs cs' : List UInt8}

lemma run_append : run s (cs ++ cs') = (run s cs).bind fun s => run s cs' := by
  induction cs generalizing s with
  | nil => rfl
  | cons c cs ih =>
      rw [List.cons_append, run, run, Option.bind_assoc]
      exact congrArg _ (funext fun s => ih)

/-- Ordinary characters are read one after the other. -/
lemma run_literals (hs : s.mode = .normal) (h : ∀ c ∈ cs, c ∉ special) :
    run s cs = some { s with regex := literals s.regex cs } := by
  induction cs generalizing s with
  | nil => rfl
  | cons c cs ih =>
      rw [List.forall_mem_cons] at h
      have hread : read s c = some (s.add (.literal c)) := by
        rw [read, hs]
        exact if_pos h.1
      have hadd : s.add (.literal c) = { s with regex := .seq s.regex (.one (.literal c)) } := by
        rw [add, hs]
      rw [run, hread, Option.bind_some, hadd]
      exact ih hs h.2

end Reader

/-! ### Texts of ordinary characters -/

variable {isSpace : UInt8 → Bool} {r : Regex CharSet} {cs l : List UInt8}
  {caps : List (List UInt8)}

lemma mem_literal {c c' : UInt8} : CharSet.mem isSpace (.literal c) c' = true ↔ c' = c := by
  simp [CharSet.mem, CharSet.literal]

lemma mem_any {c : UInt8} : CharSet.mem isSpace .any c = true := rfl

/-- They match themselves. -/
lemma matches_literals : Matches (CharSet.mem isSpace) (literals r cs) l caps ↔
    ∃ l', l = l' ++ cs ∧ Matches (CharSet.mem isSpace) r l' caps := by
  induction cs generalizing r l with
  | nil =>
      constructor
      · exact fun h => ⟨l, (List.append_nil l).symm, h⟩
      · rintro ⟨l', rfl, h⟩
        rwa [List.append_nil]
  | cons c cs ih =>
      rw [literals, List.foldl_cons, ← literals, ih]
      constructor
      · rintro ⟨l', rfl, h⟩
        obtain ⟨l₁, l₂, caps₁, caps₂, h₁, h₂, rfl, rfl⟩ := matches_seq.mp h
        obtain ⟨⟨c', hc', rfl⟩, rfl⟩ := matches_one.mp h₂
        obtain rfl := mem_literal.mp hc'
        refine ⟨l₁, ?_, ?_⟩
        · rw [List.append_assoc]
          rfl
        · rwa [List.append_nil]
      · rintro ⟨l', rfl, h⟩
        refine ⟨l' ++ [c], ?_, matches_seq.mpr ⟨l', [c], caps, [], h,
          matches_one.mpr ⟨⟨c, mem_literal.mpr rfl, rfl⟩, rfl⟩, rfl, (List.append_nil _).symm⟩⟩
        rw [List.append_assoc]
        rfl

end Regex
