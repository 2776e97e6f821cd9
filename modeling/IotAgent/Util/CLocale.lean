import Mathlib.Data.List.Basic

/-!
Characters of texts in the C locale, and how a stream begins to read a number.

* `isDigit`, `isAlpha`, `isAlnum`, `isSpace`: the classes of characters;
* `cutSign`: a sign in front of digits.
-/

namespace IotAgent

namespace CLocale

/-! ### Characters -/

def isDigit (c : UInt8) : Bool := 0x30 ≤ c ∧ c ≤ 0x39

def isUpper (c : UInt8) : Bool := 0x41 ≤ c ∧ c ≤ 0x5A

def isLower (c : UInt8) : Bool := 0x61 ≤ c ∧ c ≤ 0x7A

def isAlpha (c : UInt8) : Bool := isUpper c || isLower c

def isAlnum (c : UInt8) : Bool := isAlpha c || isDigit c

def isSpace (c : UInt8) : Bool := c = 0x20 ∨ 9 ≤ c ∧ c ≤ 13

def blank : UInt8 := 0x20

def slash : UInt8 := 0x2F

def underscore : UInt8 := 0x5F

def plus : UInt8 := 0x2B

def minus : UInt8 := 0x2D

/-- A letter that is not small is a capital one. -/
lemma isAlpha_and_not_isLower_iff (c : UInt8) :
    (isAlpha c && !isLower c) = false ↔ isUpper c = false := by
  rw [isAlpha, isUpper, isLower]
  simp [UInt8.le_iff_toNat_le]
  omega

/-! ### Signs -/

/-- A sign, if there is one: whether it is a minus, and what is behind it. -/
def cutSign : List UInt8 → Bool × List UInt8
  | c :: cs => if c = minus then (true, cs) else if c = plus then (false, cs) else (false, c :: cs)
  | [] => (false, [])

lemma length_cutSign_le {cs : List UInt8} : (cutSign cs).2.length ≤ cs.length := by
  cases cs with
  | nil => exact Nat.le_refl _
  | cons c cs => rw [cutSign]; split_ifs <;> simp

end CLocale

end IotAgent
