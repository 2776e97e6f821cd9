import IotAgent.Modbus.CrcReference
import IotAgent.Modbus.Modbus

/-!
The frame that writes multiple registers (`src/modbus/modbus.cc`).

The frame has the number of registers in two bytes and the number of data bytes in one. Both
are cut to their fields, and the smaller field gives out first.

* `decodeWords`, `decodeWords_flatMap`: big-endian words and their bytes;
* `countField`, `byteCountField`, `dataBytes`: the fields of a frame;
* `decodesBack_iff`: the frame says what it holds if and only if there are less than 128 values.
-/

namespace IotAgent

namespace Modbus

/-! ### Words from bytes -/

/-- The words that the bytes hold, big-endian. -/
def decodeWords : List UInt8 → List UInt16
  | hi :: lo :: bytes => word hi lo :: decodeWords bytes
  | _ => []

@[simp]
lemma decodeWords_flatMap (values : List UInt16) :
    decodeWords (values.flatMap fun v => [hiByte v, loByte v]) = values := by
  induction values with
  | nil => rfl
  | cons v values ih =>
      rw [List.flatMap_cons, List.cons_append, List.cons_append, List.nil_append, decodeWords, ih,
        word_hiByte_loByte]

@[simp]
lemma length_flatMap_bytes (values : List UInt16) :
    (values.flatMap fun v => [hiByte v, loByte v]).length = 2 * values.length := by
  induction values with
  | nil => rfl
  | cons v values ih => simp only [List.flatMap_cons, List.length_append, ih]; simp; omega

/-! ### The fields of the frame -/

section Fields

variable (frame : List UInt8)

/-- The number of registers: the bytes 4 and 5. -/
def countField : ℕ := (word (frame.getD 4 0) (frame.getD 5 0)).toNat

/-- The number of data bytes: byte 6. -/
def byteCountField : ℕ := (frame.getD 6 0).toNat

/-- The bytes between the number of data bytes and the checksum. -/
def dataBytes : List UInt8 := (frame.take (frame.length - 2)).drop 7

end Fields

/-- The frame says how many registers and data bytes it holds, and holds the values. -/
structure DecodesBack (frame : List UInt8) (values : List UInt16) : Prop where
  count : countField frame = values.length
  byteCount : byteCountField frame = (dataBytes frame).length
  data : decodeWords (dataBytes frame) = values
  crc : checkCrc frame = true

section

variable (slaveAddr : UInt8) (functionCode : FunctionCode) (addressData : UInt16)
  (values : List UInt16) (confirmed : Bool)

lemma dataBytes_writeMultiple :
    dataBytes (writeMultiple slaveAddr functionCode addressData values confirmed).modbusFrame
      = values.flatMap fun v => [hiByte v, loByte v] := by
  simp [dataBytes, writeMultiple, withCrc]

/-- The number of registers modulo 2^16. -/
lemma countField_writeMultiple :
    countField (writeMultiple slaveAddr functionCode addressData values confirmed).modbusFrame
      = values.length % 65536 := by
  simp only [countField, writeMultiple, withCrc, List.cons_append, List.getD_cons_succ,
    List.getD_cons_zero, toNat_word, UInt8.toNat_ofNat', Nat.shiftRight_eq_div_pow]
  omega

/-- The number of data bytes modulo 2^8. -/
lemma byteCountField_writeMultiple :
    byteCountField (writeMultiple slaveAddr functionCode addressData values confirmed).modbusFrame
      = 2 * values.length % 256 := by
  simp only [byteCountField, writeMultiple, withCrc, List.cons_append, List.getD_cons_succ,
    List.getD_cons_zero, UInt8.toNat_ofNat']
  omega

/-- **The frame decodes back** if and only if the number of data bytes fits into a byte. -/
theorem decodesBack_iff :
    DecodesBack (writeMultiple slaveAddr functionCode addressData values confirmed).modbusFrame
        values ↔ values.length < 128 := by
  have hdata := dataBytes_writeMultiple slaveAddr functionCode addressData values confirmed
  have hcount := countField_writeMultiple slaveAddr functionCode addressData values confirmed
  have hbytes := byteCountField_writeMultiple slaveAddr functionCode addressData values confirmed
  constructor
  · intro h
    have hfield := h.byteCount
    rw [hbytes, hdata, length_flatMap_bytes] at hfield
    omega
  · intro hlen
    refine ⟨?_, ?_, ?_, checkCrc_withCrc _⟩
    · rw [hcount]
      omega
    · rw [hbytes, hdata, length_flatMap_bytes]
      omega
    · rw [hdata, decodeWords_flatMap]

end

/-- With 128 registers the frame says that no data bytes follow. -/
theorem not_decodesBack_128 :
    ¬ DecodesBack
        (writeMultiple 1 .presetMultipleRegister 0 (List.replicate 128 0) false).modbusFrame
        (List.replicate 128 0) := by
  intro h
  have hfield := h.byteCount
  rw [byteCountField_writeMultiple, dataBytes_writeMultiple, length_flatMap_bytes,
    List.length_replicate] at hfield
  omega

end Modbus

end IotAgent
