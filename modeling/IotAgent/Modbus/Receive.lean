import IotAgent.Lib.Fragments
import IotAgent.Modbus.Modbus

/-!
Answers of Modbus slaves that arrive in chunks.

An operation collects the bytes of its answer and looks at their number after every chunk.
Of a whole answer no proper part has the number of bytes that completes it, so the chunks
in which it arrives make no difference.

* `Unconfirmed`, `ValidResponse`: the requests that wait for one frame, and the frames that
  answer them;
* `collects_response`: the operation collects a whole answer;
* `deliver_fragments`: any chunks of a valid answer end as the answer in one piece does.
-/

namespace IotAgent

namespace Modbus

open Fragments

/-- What the caller sees after a chunk: `frame_ok` and the flag `completed`. -/
def feed (m : Modbus) (chunk : List UInt8) : (Bool × Bool) × Modbus :=
  let (frameOk, m') := m.receiveModbusFrame chunk
  ((frameOk, m'.completed), m')

/-- The operation with the bytes `b` of its answer. -/
def collected (m : Modbus) (b : List UInt8) : Modbus :=
  { m with modbusFrameResponse := b }

/-- Not completed, no error. -/
def pending : Bool × Bool := (true, false)

/-- A chunk that does not complete the bytes. -/
lemma feed_of_pending {m m' : Modbus} {c : List UInt8} (hm : m.modbusFrame ≠ [])
    (hcheck : m.checkCompleted c = (false, m')) :
    feed m c = (pending, { m' with completed := false }) := by
  have hlen : ¬ m.modbusFrame.length = 0 := by simp [hm]
  rw [feed, receiveModbusFrame, if_neg hlen, hcheck]
  rfl

/-- The result of complete bytes. -/
def complete (m : Modbus) : (Bool × Bool) × Modbus :=
  let m := { m with completed := true }
  ((m.decode.1, true), { m with values := m.decode.2, finished := true })

/-- A chunk that completes the bytes. -/
lemma feed_of_completed {m m' : Modbus} {c : List UInt8} (hm : m.modbusFrame ≠ [])
    (hcheck : m.checkCompleted c = (true, m')) : feed m c = complete m' := by
  have hlen : ¬ m.modbusFrame.length = 0 := by simp [hm]
  rw [feed, receiveModbusFrame, if_neg hlen, hcheck]
  rfl

/-! ### Requests and answers -/

/-- A request that waits for one frame. -/
inductive Unconfirmed : Modbus → Prop where
  | read (slaveAddr : UInt8) (addressData numberOf : UInt16) :
      Unconfirmed (request slaveAddr .readHoldingRegisters addressData numberOf)
  | single (slaveAddr : UInt8) (addressData value : UInt16) :
      Unconfirmed (request slaveAddr .presetSingleRegister addressData value)
  | multiple (slaveAddr : UInt8) (addressData : UInt16) (values : List UInt16) :
      Unconfirmed (writeMultiple slaveAddr .presetMultipleRegister addressData values false)

/-- The frame without its checksum answers the request: the bytes of the registers behind
their number, or the address and the value or the number of values that were written. -/
def AnswersRequest (m : Modbus) (body : List UInt8) : Prop :=
  match m.functionCode with
  | .readHoldingRegisters =>
      ∃ bytes data, body = m.slaveAddress :: m.functionCode.byte :: bytes :: data ∧
        data.length = bytes.toNat
  | .presetSingleRegister =>
      body = [m.slaveAddress, m.functionCode.byte, hiByte m.addressData, loByte m.addressData,
        hiByte m.numberOfOrValue, loByte m.numberOfOrValue]
  | .presetMultipleRegister =>
      ∃ count : UInt16, count.toNat = m.valuesToWrite.length ∧
        body = [m.slaveAddress, m.functionCode.byte, hiByte m.addressData, loByte m.addressData,
          hiByte count, loByte count]

def ValidResponse (m : Modbus) (frame : List UInt8) : Prop :=
  ∃ body, frame = withCrc body ∧ m.AnswersRequest body

/-- The frame has the number of bytes that completes an answer. -/
def WholeAnswer (m : Modbus) (frame : List UInt8) : Prop :=
  match m.functionCode with
  | .readHoldingRegisters => ∃ bytes, frame[2]? = some bytes ∧ frame.length = bytes.toNat + 5
  | .presetSingleRegister => frame.length = m.modbusFrame.length
  | .presetMultipleRegister => frame.length = 8

/-- The operation waits for the answer itself, not for the echo of its request. -/
structure AwaitsAnswer (m : Modbus) : Prop where
  frame : m.modbusFrame ≠ []
  response : m.modbusFrameResponse = []
  completed : m.completed = false
  echo : (m.needBeConfirmed && !m.confirmed) = false

lemma Unconfirmed.awaitsAnswer {m : Modbus} (hm : Unconfirmed m) : AwaitsAnswer m := by
  cases hm <;> exact ⟨by simp [request, writeMultiple, withCrc], rfl, rfl, rfl⟩

lemma Unconfirmed.wholeAnswer {m : Modbus} (hm : Unconfirmed m) {frame : List UInt8}
    (hframe : ValidResponse m frame) : WholeAnswer m frame := by
  obtain ⟨body, rfl, hbody⟩ := hframe
  cases hm with
  | read slaveAddr addressData numberOf =>
      obtain ⟨bytes, data, rfl, hdata⟩ := hbody
      exact ⟨bytes, rfl, by simp [hdata]⟩
  | single slaveAddr addressData value =>
      obtain rfl := hbody
      simp [WholeAnswer, request]
  | multiple slaveAddr addressData values =>
      obtain ⟨count, -, rfl⟩ := hbody
      simp [WholeAnswer, writeMultiple]

/-! ### Chunks of the answer -/

variable {m : Modbus} {b c d frame : List UInt8}

/-- The bytes of an answer are complete when nothing is missing. -/
lemma checkCompleted_collected (hm : AwaitsAnswer m) (hframe : WholeAnswer m frame)
    (heq : b ++ c ++ d = frame) :
    (m.collected b).checkCompleted c = (decide (d = []), m.collected (b ++ c)) := by
  have hlen : frame.length = (b ++ c).length + d.length := by rw [← heq, List.length_append]
  have hd : d = [] ↔ d.length = 0 := List.length_eq_zero_iff.symm
  unfold WholeAnswer at hframe
  cases hcode : m.functionCode with
  | readHoldingRegisters =>
      simp only [hcode] at hframe
      obtain ⟨bytes, hbytes, hsize⟩ := hframe
      rw [← heq] at hbytes
      by_cases hthree : (b ++ c).length ≤ 2
      · have hnone : (b ++ c)[2]? = none := List.getElem?_eq_none hthree
        simp only [checkCompleted, collected, hcode, hnone, Prod.mk.injEq, and_true]
        rw [eq_comm, decide_eq_false_iff_not, hd]
        omega
      · have hsome : (b ++ c)[2]? = some bytes := by
          rwa [List.getElem?_append_left (by omega)] at hbytes
        simp only [checkCompleted, collected, hcode, hsome, Prod.mk.injEq, and_true]
        rw [beq_eq_decide, decide_eq_decide, hd]
        omega
  | presetSingleRegister =>
      simp only [hcode] at hframe
      simp only [checkCompleted, collected, hcode, Prod.mk.injEq, and_true]
      rw [beq_eq_decide, decide_eq_decide, hd]
      omega
  | presetMultipleRegister =>
      simp only [hcode] at hframe
      simp only [checkCompleted, collected, hcode, hm.echo, Bool.false_eq_true, if_false,
        Prod.mk.injEq, and_true, decide_eq_decide, hd]
      omega

/-- The operation collects a whole answer. -/
lemma collects_response (hm : AwaitsAnswer m) (hframe : WholeAnswer m frame) :
    Collects feed m.collected pending frame (complete (m.collected frame)).1
      (complete (m.collected frame)).2 := by
  constructor
  · intro b c d _ hd heq
    have hcheck := checkCompleted_collected hm hframe heq
    rw [decide_eq_false hd] at hcheck
    have hm' : (m.collected b).modbusFrame ≠ [] := hm.frame
    rw [feed_of_pending hm' hcheck, collected, ← hm.completed]
  · intro b c _ heq
    have hcheck := checkCompleted_collected hm hframe (d := []) (by simpa using heq)
    rw [decide_eq_true rfl, heq] at hcheck
    have hm' : (m.collected b).modbusFrame ≠ [] := hm.frame
    exact feed_of_completed hm' hcheck

/-- **Chunks make no difference**: all chunks of a valid answer but the last leave the
request pending; the last one has the result, and the operation the flags and values, of the
whole answer in one piece. -/
theorem deliver_fragments {m : Modbus} (hm : Unconfirmed m) {frame : List UInt8}
    (hframe : ValidResponse m frame) {chunks : List (List UInt8)}
    (hne : ∀ chunk ∈ chunks, chunk ≠ []) (hchunks : chunks.flatten = frame) :
    deliver feed m chunks
      = (List.replicate (chunks.length - 1) pending ++ [(feed m frame).1], (feed m frame).2) := by
  have hwait := hm.awaitsAnswer
  have hcollects := collects_response hwait (hm.wholeAnswer hframe)
  have hempty : m.collected [] = m := by rw [collected, ← hwait.response]
  have hcs : chunks ≠ [] := by
    rintro rfl
    obtain ⟨body, rfl, -⟩ := hframe
    simp [withCrc] at hchunks
  have hfeed := hcollects.deliver_eq_single hcs hne hchunks
  rwa [hempty] at hfeed

/-- The value of one register in two chunks. -/
theorem deliver_fragments_read :
    deliver feed (request 1 .readHoldingRegisters 0 1) [[1, 3], [2, 0, 7, 0xF9, 0x86]]
      = ([pending, (true, true)],
          (feed (request 1 .readHoldingRegisters 0 1) (withCrc [1, 3, 2, 0, 7])).2) :=
  (deliver_fragments (.read 1 0 1)
    (show ValidResponse _ (withCrc [1, 3, 2, 0, 7]) from ⟨_, rfl, 2, [0, 7], rfl, rfl⟩)
    (by decide) (by decide +kernel)).trans (by decide +kernel)

end Modbus

end IotAgent
