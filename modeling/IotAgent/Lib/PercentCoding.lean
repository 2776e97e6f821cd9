import Mathlib.Data.List.Basic

/-!
Percent-encoded bytes.

A reserved byte is written as a percent sign and two hexadecimal digits. The decoder reads two
characters behind every percent sign that has two characters behind it, in a way of its own as
long as it reads the digits right.

* `hexDigit`, `encodeByte`, `encode`: the encoder, for a choice of reserved bytes;
* `decode`: the decoder, for a reading of two characters;
* `decode_encode_append`: the decoder takes back an encoded text and goes on behind it, if the
  percent sign is reserved.
-/

namespace PercentCoding

/-- `%`. -/
def percent : UInt8 := 0x25

/-! ### The encoder -/

/-- The digit of a number below 16. -/
def hexDigit (n : ℕ) : UInt8 :=
  UInt8.ofNat (if n < 10 then 0x30 + n else 0x41 + (n - 10))

/-- A percent sign and the two digits of the byte. -/
def escape (b : UInt8) : List UInt8 :=
  [percent, hexDigit (b.toNat / 16), hexDigit (b.toNat % 16)]

variable (reserved : UInt8 → Bool)

def encodeByte (b : UInt8) : List UInt8 :=
  if reserved b then escape b else [b]

def encode (s : List UInt8) : List UInt8 :=
  s.flatMap (encodeByte reserved)

/-! ### The decoder -/

variable (value : UInt8 → UInt8 → UInt8)

/-- Two characters behind a percent sign are a byte; all else stays. -/
def decode : List UInt8 → List UInt8
  | c :: a :: b :: s => if c = percent then value a b :: decode s else c :: decode (a :: b :: s)
  | s => s

/-- The reading of two characters reads the digits of a byte. -/
def ReadsDigits : Prop :=
  ∀ b : UInt8, value (hexDigit (b.toNat / 16)) (hexDigit (b.toNat % 16)) = b

lemma decode_cons_of_ne {c : UInt8} (hc : c ≠ percent) (s : List UInt8) :
    decode value (c :: s) = c :: decode value s := by
  match s with
  | [] => rfl
  | [_] => rfl
  | a :: b :: s => rw [decode, if_neg hc]

variable {value}

lemma decode_escape (hvalue : ReadsDigits value) (b : UInt8) (s : List UInt8) :
    decode value (escape b ++ s) = b :: decode value s := by
  rw [escape, List.cons_append, List.cons_append, List.cons_append, List.nil_append, decode,
    if_pos rfl, hvalue]

variable {reserved}

/-- **The decoder takes back an encoded text**, whatever stands behind it. -/
theorem decode_encode_append (hpercent : reserved percent = true) (hvalue : ReadsDigits value)
    (t s : List UInt8) : decode value (encode reserved t ++ s) = t ++ decode value s := by
  induction t with
  | nil => rfl
  | cons b t ih =>
      rw [encode, List.flatMap_cons, List.append_assoc, encodeByte]
      split
      · rw [decode_escape hvalue, ← encode, ih, List.cons_append]
      · next hb =>
          have hne : b ≠ percent := by
            rintro rfl
            exact hb hpercent
          rw [List.singleton_append, decode_cons_of_ne value hne, ← encode, ih, List.cons_append]

end PercentCoding
