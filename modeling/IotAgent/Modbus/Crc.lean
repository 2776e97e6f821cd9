import Mathlib.Algebra.Group.Nat.Defs
import Mathlib.Data.List.Basic

/-!
The CRC of Modbus frames (`src/modbus/modbus.cc`).

The checksum is computed with two tables of 256 bytes and stands in the last two bytes of
a frame, high-order byte first.

* `word`, `hiByte`, `loByte`: 16-bit values and their bytes;
* `crc`, `checkCrc`: the functions of the code;
* `withCrc`: a frame closed by its checksum, and `checkCrc_withCrc`.
-/

namespace IotAgent

namespace Modbus

/-! ### Words -/

/-- `(hi << 8) | lo` as an unsigned short. -/
def word (hi lo : UInt8) : UInt16 :=
  (hi.toUInt16 <<< 8) ||| lo.toUInt16

/-- `(w >> 8) & 0xFF`. -/
def hiByte (w : UInt16) : UInt8 :=
  (w >>> 8).toUInt8

/-- `w & 0xFF`. -/
def loByte (w : UInt16) : UInt8 :=
  w.toUInt8

/-! ### Tables -/

/-- Table of CRC values for high-order byte. -/
def tableCrcHi : List UInt8 :=
  [0x00, 0xC1, 0x81, 0x40, 0x01, 0xC0, 0x80, 0x41, 0x01, 0xC0, 0x80, 0x41,
    0x00, 0xC1, 0x81, 0x40, 0x01, 0xC0, 0x80, 0x41, 0x00, 0xC1, 0x81, 0x40,
    0x00, 0xC1, 0x81, 0x40, 0x01, 0xC0, 0x80, 0x41, 0x01, 0xC0, 0x80, 0x41,
    0x00, 0xC1, 0x81, 0x40, 0x00, 0xC1, 0x81, 0x40, 0x01, 0xC0, 0x80, 0x41,
    0x00, 0xC1, 0x81, 0x40, 0x01, 0xC0, 0x80, 0x41, 0x01, 0xC0, 0x80, 0x41,
    0x00, 0xC1, 0x81, 0x40, 0x01, 0xC0, 0x80, 0x41, 0x00, 0xC1, 0x81, 0x40,
    0x00, 0xC1, 0x81, 0x40, 0x01, 0xC0, 0x80, 0x41, 0x00, 0xC1, 0x81, 0x40,
    0x01, 0xC0, 0x80, 0x41, 0x01, 0xC0, 0x80, 0x41, 0x00, 0xC1, 0x81, 0x40,
    0x00, 0xC1, 0x81, 0x40, 0x01, 0xC0, 0x80, 0x41, 0x01, 0xC0, 0x80, 0x41,
    0x00, 0xC1, 0x81, 0x40, 0x01, 0xC0, 0x80, 0x41, 0x00, 0xC1, 0x81, 0x40,
    0x00, 0xC1, 0x81, 0x40, 0x01, 0xC0, 0x80, 0x41, 0x01, 0xC0, 0x80, 0x41,
    0x00, 0xC1, 0x81, 0x40, 0x00, 0xC1, 0x81, 0x40, 0x01, 0xC0, 0x80, 0x41,
    0x00, 0xC1, 0x81, 0x40, 0x01, 0xC0, 0x80, 0x41, 0x01, 0xC0, 0x80, 0x41,
    0x00, 0xC1, 0x81, 0x40, 0x00, 0xC1, 0x81, 0x40, 0x01, 0xC0, 0x80, 0x41,
    0x01, 0xC0, 0x80, 0x41, 0x00, 0xC1, 0x81, 0x40, 0x01, 0xC0, 0x80, 0x41,
    0x00, 0xC1, 0x81, 0x40, 0x00, 0xC1, 0x81, 0x40, 0x01, 0xC0, 0x80, 0x41,
    0x00, 0xC1, 0x81, 0x40, 0x01, 0xC0, 0x80, 0x41, 0x01, 0xC0, 0x80, 0x41,
    0x00, 0xC1, 0x81, 0x40, 0x01, 0xC0, 0x80, 0x41, 0x00, 0xC1, 0x81, 0x40,
    0x00, 0xC1, 0x81, 0x40, 0x01, 0xC0, 0x80, 0x41, 0x01, 0xC0, 0x80, 0x41,
    0x00, 0xC1, 0x81, 0x40, 0x00, 0xC1, 0x81, 0x40, 0x01, 0xC0, 0x80, 0x41,
    0x00, 0xC1, 0x81, 0x40, 0x01, 0xC0, 0x80, 0x41, 0x01, 0xC0, 0x80, 0x41,
    0x00, 0xC1, 0x81, 0x40]

/-- Table of CRC values for low-order byte. -/
def tableCrcLo : List UInt8 :=
  [0x00, 0xC0, 0xC1, 0x01, 0xC3, 0x03, 0x02, 0xC2, 0xC6, 0x06, 0x07, 0xC7,
    0x05, 0xC5, 0xC4, 0x04, 0xCC, 0x0C, 0x0D, 0xCD, 0x0F, 0xCF, 0xCE, 0x0E,
    0x0A, 0xCA, 0xCB, 0x0B, 0xC9, 0x09, 0x08, 0xC8, 0xD8, 0x18, 0x19, 0xD9,
    0x1B, 0xDB, 0xDA, 0x1A, 0x1E, 0xDE, 0xDF, 0x1F, 0xDD, 0x1D, 0x1C, 0xDC,
    0x14, 0xD4, 0xD5, 0x15, 0xD7, 0x17, 0x16, 0xD6, 0xD2, 0x12, 0x13, 0xD3,
    0x11, 0xD1, 0xD0, 0x10, 0xF0, 0x30, 0x31, 0xF1, 0x33, 0xF3, 0xF2, 0x32,
    0x36, 0xF6, 0xF7, 0x37, 0xF5, 0x35, 0x34, 0xF4, 0x3C, 0xFC, 0xFD, 0x3D,
    0xFF, 0x3F, 0x3E, 0xFE, 0xFA, 0x3A, 0x3B, 0xFB, 0x39, 0xF9, 0xF8, 0x38,
    0x28, 0xE8, 0xE9, 0x29, 0xEB, 0x2B, 0x2A, 0xEA, 0xEE, 0x2E, 0x2F, 0xEF,
    0x2D, 0xED, 0xEC, 0x2C, 0xE4, 0x24, 0x25, 0xE5, 0x27, 0xE7, 0xE6, 0x26,
    0x22, 0xE2, 0xE3, 0x23, 0xE1, 0x21, 0x20, 0xE0, 0xA0, 0x60, 0x61, 0xA1,
    0x63, 0xA3, 0xA2, 0x62, 0x66, 0xA6, 0xA7, 0x67, 0xA5, 0x65, 0x64, 0xA4,
    0x6C, 0xAC, 0xAD, 0x6D, 0xAF, 0x6F, 0x6E, 0xAE, 0xAA, 0x6A, 0x6B, 0xAB,
    0x69, 0xA9, 0xA8, 0x68, 0x78, 0xB8, 0xB9, 0x79, 0xBB, 0x7B, 0x7A, 0xBA,
    0xBE, 0x7E, 0x7F, 0xBF, 0x7D, 0xBD, 0xBC, 0x7C, 0xB4, 0x74, 0x75, 0xB5,
    0x77, 0xB7, 0xB6, 0x76, 0x72, 0xB2, 0xB3, 0x73, 0xB1, 0x71, 0x70, 0xB0,
    0x50, 0x90, 0x91, 0x51, 0x93, 0x53, 0x52, 0x92, 0x96, 0x56, 0x57, 0x97,
    0x55, 0x95, 0x94, 0x54, 0x9C, 0x5C, 0x5D, 0x9D, 0x5F, 0x9F, 0x9E, 0x5E,
    0x5A, 0x9A, 0x9B, 0x5B, 0x99, 0x59, 0x58, 0x98, 0x88, 0x48, 0x49, 0x89,
    0x4B, 0x8B, 0x8A, 0x4A, 0x4E, 0x8E, 0x8F, 0x4F, 0x8D, 0x4D, 0x4C, 0x8C,
    0x44, 0x84, 0x85, 0x45, 0x87, 0x47, 0x46, 0x86, 0x82, 0x42, 0x43, 0x83,
    0x41, 0x81, 0x80, 0x40]

lemma length_tableCrcHi : tableCrcHi.length = 256 := by decide +kernel

lemma length_tableCrcLo : tableCrcLo.length = 256 := by decide +kernel

/-- `table_crc_hi[i]`. -/
def crcHiAt (i : UInt8) : UInt8 :=
  tableCrcHi.get ⟨i.toNat, length_tableCrcHi ▸ i.toNat_lt⟩

/-- `table_crc_lo[i]`. -/
def crcLoAt (i : UInt8) : UInt8 :=
  tableCrcLo.get ⟨i.toNat, length_tableCrcLo ▸ i.toNat_lt⟩

/-! ### The checksum -/

/-- One turn of the loop over the buffer: `crc_hi` and `crc_lo`. -/
def crcStep (c : UInt8 × UInt8) (b : UInt8) : UInt8 × UInt8 :=
  let i := c.1 ^^^ b
  (c.2 ^^^ crcHiAt i, crcLoAt i)

/-- `int buffer_length = frame.size()`, which the loop compares with an unsigned position:
the size modulo 2^32. -/
def bufferLength (size : ℕ) : ℕ := size % 2 ^ 32

def crc (frame : List UInt8) : UInt16 :=
  let c := (frame.take (bufferLength frame.length)).foldl crcStep (0xFF, 0xFF)
  word c.1 c.2

/-- The frame without its last two bytes has the checksum that these two bytes hold. A
frame of less than two bytes never gets here; `at` would throw. -/
def checkCrc (frame : List UInt8) : Bool :=
  if frame.length < 2 then false
  else
    match frame[frame.length - 2]?, frame[frame.length - 1]? with
    | some hi, some lo => word hi lo == crc (frame.take (frame.length - 2))
    | _, _ => false

/-- The frame with its checksum behind it. -/
def withCrc (body : List UInt8) : List UInt8 :=
  body ++ [hiByte (crc body), loByte (crc body)]

/-! ### Lemmas -/

lemma toNat_word (hi lo : UInt8) : (word hi lo).toNat = hi.toNat * 256 + lo.toNat := by
  have hlo := lo.toNat_lt
  have hhi := hi.toNat_lt
  have hshift : hi.toNat * 256 % 65536 = hi.toNat <<< 8 := by
    rw [Nat.shiftLeft_eq]
    omega
  calc (word hi lo).toNat = hi.toNat * 256 % 65536 ||| lo.toNat := by
        simp [word, Nat.shiftLeft_eq]
    _ = hi.toNat <<< 8 ||| lo.toNat := by rw [hshift]
    _ = hi.toNat <<< 8 + lo.toNat := (Nat.shiftLeft_add_eq_or_of_lt hlo _).symm
    _ = hi.toNat * 256 + lo.toNat := by rw [Nat.shiftLeft_eq]

lemma toNat_hiByte (w : UInt16) : (hiByte w).toNat = w.toNat / 256 := by
  have := w.toNat_lt
  simp [hiByte, Nat.shiftRight_eq_div_pow]
  omega

lemma toNat_loByte (w : UInt16) : (loByte w).toNat = w.toNat % 256 := by
  simp [loByte]

/-- A word is made of its bytes. -/
@[simp]
lemma word_hiByte_loByte (w : UInt16) : word (hiByte w) (loByte w) = w := by
  apply UInt16.toNat_inj.mp
  rw [toNat_word, toNat_hiByte, toNat_loByte]
  omega

@[simp]
lemma length_withCrc (body : List UInt8) : (withCrc body).length = body.length + 2 := by
  simp [withCrc]

/-- A frame closed by its checksum passes the check. -/
@[simp]
lemma checkCrc_withCrc (body : List UInt8) : checkCrc (withCrc body) = true := by
  simp [checkCrc, withCrc]

end Modbus

end IotAgent
