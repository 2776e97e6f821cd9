import IotAgent.Modbus.Receive

/-!
Writes that a slave confirms with an echo of the request.

The answer of such a write is the frame that was sent, followed by the frame of the answer.
The echo is taken away when the bytes so far are exactly the echo. A chunk that reaches
across its end makes them longer than the echo, and the operation ends with an error.

* `collects_echo`, `deliver_echo_answer`: the echo, then the answer, in any chunks each;
* `feed_across_echo`: a chunk across the end of the echo;
* `accepted_iff_cutAtEcho`: chunks are accepted if and only if one of them ends at the end
  of the echo.
-/

namespace IotAgent

namespace Modbus

open Fragments

/-- A write that must be confirmed. -/
def confirmedWrite (slaveAddr : UInt8) (addressData : UInt16) (values : List UInt16) : Modbus :=
  writeMultiple slaveAddr .presetMultipleRegister addressData values true

/-- The operation after the echo. -/
def echoed (m : Modbus) : Modbus :=
  { m with confirmed := true }

/-- Every chunk is taken without an error, and the last completes the operation. -/
def Accepted (answers : List (Bool × Bool)) : Prop :=
  (∀ answer ∈ answers, answer.1 = true) ∧ answers.getLast? = some (true, true)

instance (answers : List (Bool × Bool)) : Decidable (Accepted answers) :=
  inferInstanceAs (Decidable (_ ∧ _))

/-- Some chunk ends where the echo ends. -/
def CutAtEcho (m : Modbus) (chunks : List (List UInt8)) : Prop :=
  ∃ before after, chunks = before ++ after ∧ before.flatten = m.modbusFrame

section

variable {slaveAddr : UInt8} {addressData : UInt16} {values : List UInt16}

lemma confirmedWrite_frame_ne_nil :
    (confirmedWrite slaveAddr addressData values).modbusFrame ≠ [] := by
  simp [confirmedWrite, writeMultiple, withCrc]

/-- What the operation makes of the bytes so far before it has seen the echo. -/
lemma checkCompleted_confirmedWrite (b c : List UInt8) :
    ((confirmedWrite slaveAddr addressData values).collected b).checkCompleted c
      = if (b ++ c).length = (confirmedWrite slaveAddr addressData values).modbusFrame.length then
          if b ++ c = (confirmedWrite slaveAddr addressData values).modbusFrame then
            (false, echoed (confirmedWrite slaveAddr addressData values))
          else (true, (confirmedWrite slaveAddr addressData values).collected (b ++ c))
        else
          (decide ((b ++ c).length
              > (confirmedWrite slaveAddr addressData values).modbusFrame.length),
            (confirmedWrite slaveAddr addressData values).collected (b ++ c)) := rfl

/-- The operation collects the echo. -/
lemma collects_echo :
    Collects feed (confirmedWrite slaveAddr addressData values).collected pending
      (confirmedWrite slaveAddr addressData values).modbusFrame pending
      (echoed (confirmedWrite slaveAddr addressData values)) := by
  set m := confirmedWrite slaveAddr addressData values with hm
  have hframe : ∀ b, (m.collected b).modbusFrame ≠ [] := fun _ => confirmedWrite_frame_ne_nil
  constructor
  · intro b c d _ hd heq
    have hlen : (b ++ c).length < m.modbusFrame.length := by
      have := List.length_pos_of_ne_nil hd
      rw [← heq, @List.length_append _ _ d]
      omega
    have hcheck : (m.collected b).checkCompleted c = (false, m.collected (b ++ c)) := by
      have hne : (b ++ c).length ≠ m.modbusFrame.length := Nat.ne_of_lt hlen
      have hgt : ¬ (b ++ c).length > m.modbusFrame.length := Nat.not_lt_of_gt hlen
      rw [hm, checkCompleted_confirmedWrite, if_neg hne, decide_eq_false hgt]
    rw [feed_of_pending (hframe b) hcheck]
    rfl
  · intro b c _ heq
    have hcheck : (m.collected b).checkCompleted c = (false, echoed m) := by
      rw [hm, checkCompleted_confirmedWrite, if_pos (by rw [heq]), if_pos heq]
    rw [feed_of_pending (hframe b) hcheck]
    rfl

lemma echoed_awaitsAnswer : AwaitsAnswer (echoed (confirmedWrite slaveAddr addressData values)) :=
  ⟨confirmedWrite_frame_ne_nil, rfl, rfl, rfl⟩

/-- A valid answer behind the echo is accepted. -/
lemma complete_validResponse {frame : List UInt8}
    (hframe : ValidResponse (confirmedWrite slaveAddr addressData values) frame) :
    (complete ((echoed (confirmedWrite slaveAddr addressData values)).collected frame)).1
      = (true, true) := by
  obtain ⟨body, rfl, count, hcount, rfl⟩ := hframe
  have hcheck := checkCrc_withCrc [slaveAddr, FunctionCode.byte .presetMultipleRegister,
    hiByte addressData, loByte addressData, hiByte count, loByte count]
  have hcount' : count.toNat = values.length := hcount
  simp only [withCrc, List.cons_append, List.nil_append] at hcheck
  simp [complete, decode, collected, echoed, confirmedWrite, writeMultiple, withCrc, hcheck,
    hcount']

/-- The echo in any chunks, then the answer in any chunks. -/
lemma deliver_echo_answer {frame : List UInt8}
    (hframe : ValidResponse (confirmedWrite slaveAddr addressData values) frame)
    {before after : List (List UInt8)} (hbefore : ∀ c ∈ before, c ≠ [])
    (hafter : ∀ c ∈ after, c ≠ [])
    (hecho : before.flatten = (confirmedWrite slaveAddr addressData values).modbusFrame)
    (hanswer : after.flatten = frame) :
    deliver feed (confirmedWrite slaveAddr addressData values) (before ++ after)
      = (List.replicate (before.length - 1) pending ++ [pending]
            ++ (List.replicate (after.length - 1) pending ++ [(true, true)]),
          (complete
            ((echoed (confirmedWrite slaveAddr addressData values)).collected frame)).2) := by
  set m := confirmedWrite slaveAddr addressData values with hm
  have hbefore' : before ≠ [] := by
    rintro rfl
    exact confirmedWrite_frame_ne_nil hecho.symm
  have hafter' : after ≠ [] := by
    rintro rfl
    obtain ⟨body, rfl, -⟩ := hframe
    simp [withCrc] at hanswer
  have hwhole : WholeAnswer (echoed m) frame := by
    obtain ⟨body, rfl, count, -, rfl⟩ := hframe
    simp [WholeAnswer, echoed, hm, confirmedWrite, writeMultiple]
  have hfirst := collects_echo.deliver_eq (b := []) hbefore' hbefore hecho
  have hsecond := (collects_response echoed_awaitsAnswer hwhole).deliver_eq (b := []) hafter' hafter
    hanswer
  rw [complete_validResponse hframe] at hsecond
  have hstart : m.collected [] = m := rfl
  have hstart' : (echoed m).collected [] = echoed m := rfl
  rw [hstart] at hfirst
  rw [hstart'] at hsecond
  rw [deliver_append, hfirst, hsecond]

/-- **A chunk across the end of the echo**: the operation ends with an error. -/
lemma feed_across_echo {b c : List UInt8}
    (hlen : (b ++ c).length > (confirmedWrite slaveAddr addressData values).modbusFrame.length) :
    (feed ((confirmedWrite slaveAddr addressData values).collected b) c).1 = (false, true) := by
  set m := confirmedWrite slaveAddr addressData values with hm
  have hcheck : (m.collected b).checkCompleted c = (true, m.collected (b ++ c)) := by
    rw [hm, checkCompleted_confirmedWrite, if_neg (Nat.ne_of_gt hlen), decide_eq_true hlen]
  have hbad : ({ m.collected (b ++ c) with completed := true } : Modbus).decode.1 = false := by
    rw [decode]
    split
    · split
      · rfl
      · rfl
    · rfl
  have hframe : (m.collected b).modbusFrame ≠ [] := confirmedWrite_frame_ne_nil
  rw [feed_of_completed hframe hcheck]
  exact Prod.ext hbad rfl

end

/-- **Exactly the cuts at the end of the echo are tolerated.** -/
theorem accepted_iff_cutAtEcho (slaveAddr : UInt8) (addressData : UInt16) (values : List UInt16)
    {frame : List UInt8}
    (hframe : ValidResponse (confirmedWrite slaveAddr addressData values) frame)
    {chunks : List (List UInt8)} (hne : ∀ chunk ∈ chunks, chunk ≠ [])
    (hchunks : chunks.flatten =
      (confirmedWrite slaveAddr addressData values).modbusFrame ++ frame) :
    Accepted (deliver feed (confirmedWrite slaveAddr addressData values) chunks).1
        ∧ (deliver feed (confirmedWrite slaveAddr addressData values) chunks).2
          = (deliver feed (confirmedWrite slaveAddr addressData values)
              [(confirmedWrite slaveAddr addressData values).modbusFrame, frame]).2
      ↔ CutAtEcho (confirmedWrite slaveAddr addressData values) chunks := by
  set m := confirmedWrite slaveAddr addressData values with hm
  have hframe' : frame ≠ [] := by
    obtain ⟨body, rfl, -⟩ := hframe
    simp [withCrc]
  constructor
  · rintro ⟨⟨hok, -⟩, -⟩
    by_contra hcut
    have hcut' : ∀ ds es, chunks = ds ++ es → ds.flatten ≠ m.modbusFrame :=
      fun ds es heq hds => hcut ⟨ds, es, heq, hds⟩
    obtain ⟨ds, c, es, x, y, rfl, hecho, hx, rfl, hy⟩ := exists_piece_across hframe' hchunks hcut'
    -- the chunks before leave the operation waiting for the rest of the echo
    have hne' : ∀ c ∈ ds, c ≠ [] := fun c hc => hne c (by simp [hc])
    have hds := collects_echo.deliver_part (b := []) hne' hx (by simpa using hecho.symm)
    have hlen : (ds.flatten ++ (x ++ y)).length > m.modbusFrame.length := by
      have := List.length_pos_of_ne_nil hy
      rw [hecho, ← List.append_assoc, @List.length_append _ _ y]
      omega
    have hbad := feed_across_echo hlen
    have hstart : m.collected [] = m := rfl
    rw [hstart, List.nil_append] at hds
    have := hok (false, true) (by simp [deliver_append, hds, deliver, hbad])
    simp at this
  · rintro ⟨before, after, rfl, hecho⟩
    have hanswer : after.flatten = frame := by
      rw [List.flatten_append, hecho] at hchunks
      exact List.append_cancel_left hchunks
    have hbefore : ∀ c ∈ before, c ≠ [] := fun c hc => hne c (by simp [hc])
    have hafter : ∀ c ∈ after, c ≠ [] := fun c hc => hne c (by simp [hc])
    have htwo : deliver feed m ([m.modbusFrame] ++ [frame]) = _ :=
      deliver_echo_answer hframe (by simpa using confirmedWrite_frame_ne_nil)
        (by simpa using hframe') (by simp [hm]) (by simp)
    rw [List.singleton_append] at htwo
    rw [deliver_echo_answer hframe hbefore hafter hecho hanswer, htwo]
    refine ⟨⟨?_, by simp [← List.append_assoc]⟩, rfl⟩
    intro answer hanswer'
    simp only [List.mem_append, List.mem_replicate, List.mem_singleton] at hanswer'
    rcases hanswer' with (⟨-, rfl⟩ | rfl) | ⟨-, rfl⟩ | rfl <;> rfl

/-- Echo and answer in one chunk. -/
theorem not_accepted_echo_with_answer :
    ValidResponse (confirmedWrite 1 0 [7]) (withCrc [1, 0x10, 0, 0, 0, 1])
      ∧ ¬ Accepted (deliver feed (confirmedWrite 1 0 [7])
          [(confirmedWrite 1 0 [7]).modbusFrame ++ withCrc [1, 0x10, 0, 0, 0, 1]]).1 :=
  ⟨⟨_, rfl, 1, rfl, rfl⟩, by decide +kernel⟩

/-- The echo in two chunks, then the answer. -/
theorem accepted_cut_at_echo :
    Accepted (deliver feed (confirmedWrite 1 0 [7])
      [[1, 0x10, 0], [0, 0, 1, 2, 0, 7, 0xE7, 0x92], withCrc [1, 0x10, 0, 0, 0, 1]]).1 :=
  ((accepted_iff_cutAtEcho 1 0 [7]
    (show ValidResponse _ (withCrc [1, 0x10, 0, 0, 0, 1]) from ⟨_, rfl, 1, rfl, rfl⟩)
    (by decide +kernel) (by decide +kernel)).mpr
    ⟨[[1, 0x10, 0], [0, 0, 1, 2, 0, 7, 0xE7, 0x92]], [_], rfl, by decide +kernel⟩).1

end Modbus

end IotAgent
