import Mathlib.Algebra.Group.Int.Defs
import Mathlib.Data.String.Basic

/-!
Attributes of a frame (`src/esp/source/ESP_Attribute.cpp`).

A value is kept as the bytes of its C representation; the conversions of the C library from and to
text, and the comparison of floating point numbers, are a parameter.

* `EspAttribute`, `EspAttribute.setValue`: an attribute and how it takes a value from a buffer;
* `EspAttribute.compareValue`, `EspAttribute.getValueAsString`: its comparison and its text;
* `EspAttribute.setValue_append`: a value is made of its own bytes, unless it is a long that is
  read as text.
-/

namespace IotAgent

/-- `ESP_DataType`. -/
inductive DataType
  | unknown | int | float | long | double | string
  deriving DecidableEq

/-- `ESP_DataCode`. -/
inductive DataCode
  | unknown | msb | lsb | string | stringdelim
  deriving DecidableEq

/-- What the attributes use of the C library: numbers of texts, as the bytes of an `int`, a
`float`, a `double` and a `long long`, and back. -/
structure CLib where
  atoi : List UInt8 → List UInt8
  atof : List UInt8 → List UInt8
  atofDouble : List UInt8 → List UInt8
  istringstream : List UInt8 → List UInt8
  compareFloat : List UInt8 → List UInt8 → ℤ
  compareDouble : List UInt8 → List UInt8 → ℤ
  floatText : List UInt8 → String
  doubleText : List UInt8 → String

/-- The C library on texts that hold no number: they all read as zero. -/
def CLib.noNumbers : CLib where
  atoi _ := List.replicate 4 0
  atof _ := List.replicate 4 0
  atofDouble _ := List.replicate 8 0
  istringstream _ := List.replicate 8 0
  compareFloat _ _ := 0
  compareDouble _ _ := 0
  floatText _ := "0"
  doubleText _ := "0"

/-- `ESP_Attribute`. -/
structure EspAttribute where
  name : String
  value : Option (List UInt8)
  datasize : ℕ
  datatype : DataType
  datacode : DataCode
  deriving DecidableEq

/-- The text of bytes, one character for each. -/
def textOfBytes (bytes : List UInt8) : String :=
  String.ofList (bytes.map fun b => Char.ofNat b.toNat)

/-- The bytes cut or filled up with zeros to a size. -/
def fitTo (size : ℕ) (bytes : List UInt8) : List UInt8 :=
  (bytes ++ List.replicate size 0).take size

namespace EspAttribute

/-- A new attribute. -/
def empty : EspAttribute := ⟨"", none, 0, .unknown, .unknown⟩

/-- The bytes of the value that a buffer starts with. -/
def decode (lib : CLib) (buffer : List UInt8) (datasize : ℕ) (datatype : DataType)
    (datacode : DataCode) : List UInt8 :=
  let field := buffer.take datasize
  match datatype, datacode with
  | .int, .string | .int, .stringdelim => fitTo 4 (lib.atoi field)
  | .int, _ => fitTo 4 field
  -- `std::istringstream ss(value)` goes on behind the field
  | .long, .string | .long, .stringdelim => fitTo 8 (lib.istringstream buffer)
  | .long, _ => fitTo 8 field
  | .float, .string | .float, .stringdelim => fitTo 4 (lib.atof field)
  | .float, _ => fitTo 4 field
  | .double, .string | .double, .stringdelim => fitTo 8 (lib.atofDouble field)
  | .double, _ => fitTo 8 field
  | .string, _ => fitTo datasize field
  | .unknown, _ => List.replicate datasize 0

/-- `setValue`: the name always, the rest unless the value is `NULL`. -/
def setValue (lib : CLib) (a : EspAttribute) (name : String) (value : Option (List UInt8))
    (datasize : ℕ) (datatype : DataType) (datacode : DataCode) : EspAttribute :=
  match value with
  | none => { a with name := name }
  | some buffer =>
      let bytes := decode lib buffer datasize datatype datacode
      ⟨name, some bytes, bytes.length, datatype, datacode⟩

/-- The number of little-endian bytes, in two's complement. -/
def signedOf (bytes : List UInt8) : ℤ :=
  let n : ℕ := bytes.foldr (fun b acc => b.toNat + 256 * acc) 0
  if 2 * n < 256 ^ bytes.length then (n : ℤ) else (n : ℤ) - (256 : ℤ) ^ bytes.length

/-- `getIntValue`, `getLongValue`: a null value is zero. -/
def getNumber (size : ℕ) (a : EspAttribute) : ℤ :=
  match a.value with
  | some bytes => signedOf (bytes.take size)
  | none => 0

/-- `getFloatValue`, `getDoubleValue`, by their bytes. -/
def getBytes (size : ℕ) (a : EspAttribute) : List UInt8 :=
  match a.value with
  | some bytes => bytes.take size
  | none => List.replicate size 0

/-- `getStringValue`. -/
def getStringValue (a : EspAttribute) : List UInt8 :=
  a.value.getD []

/-- The sign of a comparison. -/
def sign {α : Type*} [LT α] [DecidableRel (fun a b : α => a < b)] (a b : α) : ℤ :=
  if a < b then -1 else if b < a then 1 else 0

/-- `compareValue`; values that are not of one type are not comparable. -/
def compareValue (lib : CLib) (a b : Option EspAttribute) : ℤ :=
  match a, b with
  | some a, some b =>
      if a.datatype = b.datatype then
        match a.datatype with
        | .int => sign (a.getNumber 4) (b.getNumber 4)
        | .long => sign (a.getNumber 8) (b.getNumber 8)
        | .float => lib.compareFloat (a.getBytes 4) (b.getBytes 4)
        | .double => lib.compareDouble (a.getBytes 8) (b.getBytes 8)
        | .string => sign (a.getStringValue.map UInt8.toNat) (b.getStringValue.map UInt8.toNat)
        | .unknown => -1
      else -1
  | _, _ => -1

/-- `getValueAsString`. -/
def getValueAsString (lib : CLib) (a : EspAttribute) : String :=
  match a.datatype with
  | .int => toString (a.getNumber 4)
  | .long => toString (a.getNumber 8)
  | .float => lib.floatText (a.getBytes 4)
  | .double => lib.doubleText (a.getBytes 8)
  | .string => textOfBytes a.getStringValue
  | .unknown => ""

/-- A long whose field is a text: its conversion does not stop at the end of the field. -/
def ReadsOn (datatype : DataType) (datacode : DataCode) : Prop :=
  datatype = .long ∧ (datacode = .string ∨ datacode = .stringdelim)

instance (datatype : DataType) (datacode : DataCode) : Decidable (ReadsOn datatype datacode) :=
  inferInstanceAs (Decidable (_ ∧ _))

variable {lib : CLib} {datatype : DataType} {datacode : DataCode} {buffer more : List UInt8}
  {datasize : ℕ}

/-- A value is made of its own bytes, whatever stands behind them. -/
lemma decode_append (h : ¬ ReadsOn datatype datacode) (hsize : datasize ≤ buffer.length) :
    decode lib (buffer ++ more) datasize datatype datacode =
      decode lib buffer datasize datatype datacode := by
  have htake : (buffer ++ more).take datasize = buffer.take datasize :=
    List.take_append_of_le_length hsize
  unfold decode
  rw [htake]
  cases datatype <;> cases datacode <;> first
    | rfl
    | exact absurd ⟨rfl, Or.inl rfl⟩ h
    | exact absurd ⟨rfl, Or.inr rfl⟩ h

lemma setValue_append {a : EspAttribute} {name : String} (h : ¬ ReadsOn datatype datacode)
    (hsize : datasize ≤ buffer.length) :
    a.setValue lib name (some (buffer ++ more)) datasize datatype datacode =
      a.setValue lib name (some buffer) datasize datatype datacode := by
  unfold setValue
  dsimp only
  rw [decode_append h hsize]

end EspAttribute

end IotAgent
