import IotAgent.Modbus.ReadAnswer

/-!
Exception replies of Modbus slaves (`src/modbus/modbus.cc`).

An exception reply has five bytes whatever the request. The operation looks for the layout of a
normal answer: it reads the code of the exception as a byte count, or waits for the size of
another frame. So it goes on waiting, unless a read is refused with the code `0`.

* `Waiting`: the operations that wait for an answer;
* `checkCompleted_short`: what completes an operation that has five bytes at most;
* `exists_collects_exceptionReply`: the operation collects an exception reply;
* `endsWithError_iff`: the exception replies that end an operation.
-/

namespace IotAgent

namespace Modbus

open Fragments

/-! ### Operations that wait -/

/-- The operation is made by a constructor, and no chunk of bytes so far has ended it. -/
inductive Waiting : Modbus → Prop where
  | request (slaveAddr : UInt8) (functionCode : FunctionCode) (addressData numberOf : UInt16) :
      Waiting (request slaveAddr functionCode addressData numberOf)
  | writeMultiple (slaveAddr : UInt8) (functionCode : FunctionCode) (addressData : UInt16)
      (values : List UInt16) (confirmed : Bool) :
      Waiting (writeMultiple slaveAddr functionCode addressData values confirmed)
  | chunk {m m' : Modbus} {c : List UInt8} (hm : Waiting m) (h : feed m c = (pending, m')) :
      Waiting m'

variable {m : Modbus} {b c reply : List UInt8} {code : UInt8} {chunks : List (List UInt8)}

/-- A chunk leaves the request as it is. -/
lemma modbusFrame_checkCompleted (m : Modbus) (c : List UInt8) :
    (m.checkCompleted c).2.modbusFrame = m.modbusFrame := by
  rw [checkCompleted]
  split
  · split <;> rfl
  · rfl
  · split_ifs <;> rfl

/-- What is known of an operation that waits. -/
structure Open (m : Modbus) : Prop where
  frame : 8 ≤ m.modbusFrame.length
  completed : m.completed = false

lemma Open.ne_nil (hm : Open m) : m.modbusFrame ≠ [] := by
  rintro hnil
  have := hm.frame
  simp [hnil] at this

lemma Waiting.isOpen (hm : Waiting m) : Open m := by
  induction hm with
  | request slaveAddr functionCode addressData numberOf => exact ⟨by simp [Modbus.request], rfl⟩
  | writeMultiple slaveAddr functionCode addressData values confirmed =>
      exact ⟨by simp [Modbus.writeMultiple], rfl⟩
  | @chunk m m' c _ h ih =>
      have hne := ih.ne_nil
      rcases hcheck : m.checkCompleted c with ⟨_ | _, m1⟩
      · rw [feed_of_pending hne hcheck] at h
        obtain rfl := (Prod.mk.inj h).2
        have hframe := modbusFrame_checkCompleted m c
        rw [hcheck] at hframe
        refine ⟨?_, rfl⟩
        rw [hframe]
        exact ih.frame
      · rw [feed_of_completed hne hcheck] at h
        exact absurd (congrArg (fun r => r.1.2) h) (by simp [complete, pending])

/-! ### Replies -/

/-- The reply of the slave that it cannot do what is asked for: the function code with its top
bit set and a code, closed by a valid checksum. -/
def ExceptionReply (m : Modbus) (code : UInt8) (reply : List UInt8) : Prop :=
  checkCrc reply = true ∧ reply.length = 5 ∧
    reply.take 3 = [m.slaveAddress, m.functionCode.byte ||| 0x80, code]

/-- A part of the reply is as long as its byte count says only if it is the whole of it and the
byte count is `0`. -/
lemma ExceptionReply.asCounted_iff (hreply : ExceptionReply m code reply) (hpre : b <+: reply) :
    AsCounted b ↔ b = reply ∧ code = 0 := by
  obtain ⟨-, hlen, htake⟩ := hreply
  obtain ⟨x, y, rfl⟩ :
      ∃ x y, reply = [m.slaveAddress, m.functionCode.byte ||| 0x80, code, x, y] := by
    obtain ⟨x, y, hdrop⟩ := List.length_eq_two.mp (show (reply.drop 3).length = 2 by simp [hlen])
    exact ⟨x, y, by rw [← List.take_append_drop 3 reply, htake, hdrop]; rfl⟩
  have hle := hpre.length_le
  constructor
  · rintro ⟨htwo, hcounted⟩
    have hcode : byteCount b = code.toNat := by
      obtain ⟨d, hd⟩ := hpre
      have hget : (b ++ d)[2]? = b[2]? := List.getElem?_append_left htwo
      rw [byteCount, List.getD_eq_getElem?_getD, ← hget, hd]
      rfl
    refine ⟨hpre.eq_of_length (by omega), UInt8.toNat_inj.mp ?_⟩
    simp at hle ⊢
    omega
  · rintro ⟨rfl, rfl⟩
    exact ⟨by simp, rfl⟩

/-- Five bytes complete the answer to a read only, and only with a byte count of `0`. -/
lemma checkCompleted_short (hm : Open m) (hlen : (m.modbusFrameResponse ++ c).length ≤ 5) :
    m.checkCompleted c
      = (decide (m.functionCode = .readHoldingRegisters ∧ AsCounted (m.modbusFrameResponse ++ c)),
          m.collected (m.modbusFrameResponse ++ c)) := by
  have hframe := hm.frame
  cases hcode : m.functionCode with
  | readHoldingRegisters =>
      rw [checkCompleted_read hcode]
      simp
  | presetSingleRegister =>
      have hne : (m.modbusFrameResponse ++ c).length ≠ m.modbusFrame.length := by omega
      simp only [checkCompleted, hcode, beq_eq_false_iff_ne.mpr hne]
      simp [collected, hcode]
  | presetMultipleRegister =>
      have hne : (m.modbusFrameResponse ++ c).length ≠ m.modbusFrame.length := by omega
      have hgt : ¬ (m.modbusFrameResponse ++ c).length > m.modbusFrame.length := by omega
      have hge : ¬ (m.modbusFrameResponse ++ c).length ≥ 8 := by omega
      simp only [checkCompleted, hcode, if_neg hne, decide_eq_false hgt, decide_eq_false hge]
      simp [collected, hcode]

/-- The function code of an exception reply is not that of the request. -/
lemma complete_exceptionReply (hreply : ExceptionReply m code reply) :
    (complete (m.collected reply)).1 = (false, true) := by
  obtain ⟨-, -, htake⟩ := hreply
  have hbyte : m.functionCode.byte ||| 0x80 ≠ m.functionCode.byte := by
    cases m.functionCode <;> decide
  match reply, htake with
  | slave :: second :: third :: rest, htake =>
      simp only [List.take_succ_cons, List.take_zero, List.cons.injEq, and_true] at htake
      obtain ⟨rfl, rfl, rfl⟩ := htake
      simp [complete, decode, collected, hbyte]

section Reply

variable (hm : Open m) (hreply : ExceptionReply m code reply)

include hm hreply

/-- The bytes of the reply are complete when it is whole, and answers a read with the code `0`. -/
lemma checkCompleted_exceptionReply (hpre : b ++ c <+: reply) :
    (m.collected b).checkCompleted c
      = (decide (m.functionCode = .readHoldingRegisters ∧ b ++ c = reply ∧ code = 0),
          m.collected (b ++ c)) := by
  have hlen : (b ++ c).length ≤ 5 := hreply.2.1 ▸ hpre.length_le
  have hshort := checkCompleted_short (m := m.collected b) (c := c) ⟨hm.frame, hm.completed⟩ hlen
  rw [hshort]
  simp only [collected, hreply.asCounted_iff hpre]

/-- As long as the bytes are not complete the operation waits. -/
lemma feed_exceptionReply_pending (hpre : b ++ c <+: reply)
    (h : ¬ (m.functionCode = .readHoldingRegisters ∧ b ++ c = reply ∧ code = 0)) :
    feed (m.collected b) c = (pending, m.collected (b ++ c)) := by
  have hcheck := checkCompleted_exceptionReply hm hreply hpre
  rw [decide_eq_false h] at hcheck
  rw [feed_of_pending (m := m.collected b) hm.ne_nil hcheck, collected, ← hm.completed]

/-- The operation collects an exception reply, and then ends with an error or goes on waiting. -/
lemma exists_collects_exceptionReply : ∃ done, Collects feed m.collected pending reply
    (if m.functionCode = .readHoldingRegisters ∧ code = 0 then (false, true) else pending)
    done := by
  have hmore : ∀ b c d, c ≠ [] → d ≠ [] → b ++ c ++ d = reply →
      feed (m.collected b) c = (pending, m.collected (b ++ c)) := by
    intro b c d _ hd heq
    exact feed_exceptionReply_pending hm hreply ⟨d, heq⟩ fun h => hd (by simpa [h.2.1] using heq)
  by_cases hend : m.functionCode = .readHoldingRegisters ∧ code = 0
  · refine ⟨(complete (m.collected reply)).2, hmore, fun b c _ heq => ?_⟩
    have hcheck := checkCompleted_exceptionReply hm hreply ⟨[], by simpa using heq⟩
    rw [decide_eq_true ⟨hend.1, heq, hend.2⟩, heq] at hcheck
    rw [feed_of_completed (m := m.collected b) hm.ne_nil hcheck, if_pos hend,
      ← complete_exceptionReply hreply]
  · refine ⟨m.collected reply, hmore, fun b c _ heq => ?_⟩
    rw [if_neg hend, ← heq]
    exact feed_exceptionReply_pending hm hreply ⟨[], by simpa using heq⟩
      fun h => hend ⟨h.1, h.2.2⟩

end Reply

/-! ### The end of a request -/

/-- The answers to the chunks: the operation waits until the last byte has arrived, and then ends
with an error. -/
def EndsWithError (m : Modbus) (chunks : List (List UInt8)) : Prop :=
  (deliver feed m chunks).1 = List.replicate (chunks.length - 1) pending ++ [(false, true)]

/-- **The exception replies that end a request** are those to a read whose code is `0`. -/
theorem endsWithError_iff (hm : Waiting m) (hreply : ExceptionReply m code reply)
    (hchunks : chunks ≠ []) (hne : ∀ chunk ∈ chunks, chunk ≠ [])
    (heq : m.modbusFrameResponse ++ chunks.flatten = reply) :
    EndsWithError m chunks ↔ m.functionCode = .readHoldingRegisters ∧ code = 0 := by
  obtain ⟨done, hcollects⟩ := exists_collects_exceptionReply hm.isOpen hreply
  have hdeliver := hcollects.deliver_eq hchunks hne heq
  have hself : m.collected m.modbusFrameResponse = m := rfl
  rw [hself] at hdeliver
  rw [EndsWithError, hdeliver]
  split
  · next h => simp [h]
  · next h => simp [h, pending]

/-- A read refused with the code `2`: the operation goes on waiting. -/
theorem not_endsWithError_read :
    Waiting (request 1 .readHoldingRegisters 0 1)
      ∧ ExceptionReply (request 1 .readHoldingRegisters 0 1) 2 (withCrc [1, 0x83, 2])
      ∧ ¬ EndsWithError (request 1 .readHoldingRegisters 0 1) [withCrc [1, 0x83, 2]] := by
  refine ⟨.request .., ⟨checkCrc_withCrc _, rfl, rfl⟩, ?_⟩
  rw [EndsWithError]
  decide +kernel

/-- A write refused with the code `3`, in two chunks. -/
theorem endsWithError_iff_write :
    EndsWithError (request 1 .presetSingleRegister 0 7) [[1, 0x86], (withCrc [1, 0x86, 3]).drop 2]
      ↔ FunctionCode.presetSingleRegister = .readHoldingRegisters ∧ (3 : UInt8) = 0 :=
  endsWithError_iff (.request 1 .presetSingleRegister 0 7)
    (show ExceptionReply _ 3 (withCrc [1, 0x86, 3]) from ⟨checkCrc_withCrc _, rfl, rfl⟩)
    (by decide) (by decide +kernel) (by decide +kernel)

end Modbus

end IotAgent
