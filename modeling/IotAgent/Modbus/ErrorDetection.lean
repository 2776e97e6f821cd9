import IotAgent.Modbus.CrcReference

/-!
One changed byte in a Modbus frame (`src/modbus/modbus.cc`).

The checksum is a CRC whose polynomial has its top bit set, so a changed byte changes it as long
as the loop of `crc` passes through that byte, and the loop passes through the size of the buffer
modulo 2^32.

* `crc_set_ne_iff`: the changed bytes that change the checksum;
* `checkCrc_set_iff`: the changed bytes that `check_crc` finds;
* `findsChanges_iff`: the frames in which it finds every change.
-/

namespace IotAgent

namespace Modbus

open TableCrc

variable {body frame : List UInt8} {i : ℕ} {b : UInt8}

/-! ### The checksum of a changed buffer -/

lemma polynomial_top : polynomial.getLsbD (16 - 1) = true := by decide

/-- One changed byte changes the CRC. -/
lemma crc16_set_ne (hi : i < body.length) (hb : b ≠ body[i]) :
    crc16 (body.set i b) ≠ crc16 body := by
  intro h
  have href := congrArg UInt16.toBitVec h
  simp only [crc16, List.map_set] at href
  refine reference_set_ne polynomial_top (by omega) 0xFFFF (by simpa using hi) ?_ href
  simpa [UInt8.toBitVec_inj] using hb

/-- The checksum tells as much apart as the CRC of the bytes that the loop passes through. -/
lemma crc_eq_iff (frame frame' : List UInt8) : crc frame = crc frame' ↔
    crc16 (frame.take (bufferLength frame.length))
      = crc16 (frame'.take (bufferLength frame'.length)) := by
  obtain ⟨hhi, hlo⟩ := crc_eq_take frame
  obtain ⟨hhi', hlo'⟩ := crc_eq_take frame'
  constructor
  · intro h
    apply wireBytes_injective
    rw [wireBytes, wireBytes, ← hhi, ← hlo, ← hhi', ← hlo', h]
  · intro h
    rw [← word_hiByte_loByte (crc frame), ← word_hiByte_loByte (crc frame'), hhi, hlo, hhi', hlo',
      h]

/-- A changed byte changes the checksum if and only if the loop passes through it. -/
lemma crc_set_ne_iff (hi : i < body.length) (hb : b ≠ body[i]) :
    crc (body.set i b) ≠ crc body ↔ i < bufferLength body.length := by
  rw [Ne, crc_eq_iff, List.length_set, List.take_set]
  constructor
  · intro hne
    by_contra hlen
    refine hne ?_
    rw [List.set_eq_of_length_le]
    rw [List.length_take]
    omega
  · intro hlen
    have htake : i < (body.take (bufferLength body.length)).length := by
      rw [List.length_take]
      omega
    apply crc16_set_ne htake
    rwa [List.getElem_take]

/-! ### The check of a changed frame -/

/-- A frame that passes the check is a body with the two bytes of its checksum. -/
lemma exists_body (h : checkCrc frame = true) :
    ∃ body, frame = body ++ [hiByte (crc body), loByte (crc body)] := by
  have hlen : 2 ≤ frame.length := by
    by_contra hlen
    have hshort : frame.length < 2 := by omega
    simp [checkCrc, hshort] at h
  obtain ⟨hi, lo, hlast⟩ : ∃ hi lo, frame.drop (frame.length - 2) = [hi, lo] :=
    List.length_eq_two.mp (by rw [List.length_drop]; omega)
  have hframe : frame = frame.take (frame.length - 2) ++ [hi, lo] := by
    rw [← hlast, List.take_append_drop]
  refine ⟨frame.take (frame.length - 2), ?_⟩
  rw [hframe, checkCrc_append_iff] at h
  rw [← h.1, ← h.2]
  exact hframe

/-- A byte of the body is changed. -/
lemma checkCrc_set_body (hi : i < body.length) (hb : b ≠ body[i]) :
    checkCrc (body.set i b ++ [hiByte (crc body), loByte (crc body)]) = false
      ↔ i < bufferLength body.length := by
  rw [← crc_set_ne_iff hi hb, ← Bool.not_eq_true, not_iff_not, checkCrc_append_iff, ← word_eq_iff,
    word_hiByte_loByte, eq_comm]

/-- A byte of the checksum is changed. -/
lemma checkCrc_set_checksum
    (hb : ([hiByte (crc body), loByte (crc body)].set (i - body.length) b)
      ≠ [hiByte (crc body), loByte (crc body)]) :
    checkCrc (body ++ [hiByte (crc body), loByte (crc body)].set (i - body.length) b) = false := by
  rw [← Bool.not_eq_true]
  intro h
  refine hb ?_
  rcases hpos : i - body.length with _ | _ | n
  · rw [hpos, List.set_cons_zero, checkCrc_append_iff] at h
    rw [List.set_cons_zero, h.1]
  · rw [hpos, List.set_cons_succ, List.set_cons_zero, checkCrc_append_iff] at h
    rw [List.set_cons_succ, List.set_cons_zero, h.2]
  · rfl

/-- **The changed bytes that the check finds**: those that the loop of the checksum passes
through, and those of the checksum. -/
theorem checkCrc_set_iff (h : checkCrc frame = true) (hi : i < frame.length) (hb : b ≠ frame[i]) :
    checkCrc (frame.set i b) = false
      ↔ i < bufferLength (frame.length - 2) ∨ frame.length - 2 ≤ i := by
  obtain ⟨body, rfl⟩ := exists_body h
  have hlen : (body ++ [hiByte (crc body), loByte (crc body)]).length - 2 = body.length := by simp
  rw [hlen, List.set_append]
  split
  · next hbody =>
      rw [List.getElem_append_left hbody] at hb
      rw [checkCrc_set_body hbody hb]
      omega
  · next hbody =>
      have hle : body.length ≤ i := Nat.le_of_not_lt hbody
      refine iff_of_true (checkCrc_set_checksum fun hset => hb ?_) (Or.inr hle)
      rw [List.getElem_append_right hle]
      have hget := congrArg (fun l => l[i - body.length]?) hset
      have hin : i - body.length < 2 := by
        rw [List.length_append] at hi
        simp at hi
        omega
      simpa [hin] using hget

/-! ### Every change of a frame -/

/-- No frame with one changed byte passes the check. -/
def FindsChanges (frame : List UInt8) : Prop :=
  ∀ (i : ℕ) (hi : i < frame.length) (b : UInt8),
    b ≠ frame[i] → checkCrc (frame.set i b) = false

lemma add_one_ne (b : UInt8) : b + 1 ≠ b := by
  simp

/-- **Single-byte errors**: all are found in the frames whose body is below 2^32 bytes, and in
no others. -/
theorem findsChanges_iff (h : checkCrc frame = true) :
    FindsChanges frame ↔ frame.length < 2 ^ 32 + 2 := by
  constructor
  · intro hfinds
    by_contra hlen
    -- the first byte that the loop does not reach
    have hreach : bufferLength (frame.length - 2) < 2 ^ 32 := Nat.mod_lt _ (Nat.two_pow_pos 32)
    have hi : bufferLength (frame.length - 2) < frame.length := by omega
    have hb := add_one_ne frame[bufferLength (frame.length - 2)]
    have hfound := (checkCrc_set_iff h hi hb).mp (hfinds _ hi _ hb)
    omega
  · intro hlen i hi b hb
    have hwhole : bufferLength (frame.length - 2) = frame.length - 2 :=
      Nat.mod_eq_of_lt (by omega)
    rw [checkCrc_set_iff h hi hb, hwhole]
    omega

/-- Every change of the frame of the bytes `1` and `3` is found. -/
theorem findsChanges_iff_short :
    FindsChanges (withCrc [1, 3]) ↔ (withCrc [1, 3]).length < 2 ^ 32 + 2 :=
  findsChanges_iff (checkCrc_withCrc [1, 3])

/-- The loop reads nothing of a body of 2^32 bytes. -/
lemma checkCrc_long (hlen : body.length = 2 ^ 32) : checkCrc (body ++ [0xFF, 0xFF]) = true := by
  rw [checkCrc_append_iff, crc_eq_of_length hlen]
  decide

/-- No change of such a body is found. -/
lemma not_findsChanges_long (hlen : body.length = 2 ^ 32) :
    ¬ FindsChanges (body ++ [0xFF, 0xFF]) := by
  intro hfinds
  have hpos : 0 < body.length := by
    rw [hlen]
    exact Nat.two_pow_pos 32
  have hpos' : 0 < (body ++ [0xFF, 0xFF]).length := by
    rw [List.length_append]
    exact Nat.add_pos_left hpos _
  have hfound := hfinds 0 hpos' _ (add_one_ne _)
  rw [List.set_append_left 0 _ hpos,
    checkCrc_long (by rw [List.length_set, hlen])] at hfound
  cases hfound

/-- A frame of 2^32 zeros and two bytes `0xFF` passes the check, and so do frames that differ from
it in one byte. -/
theorem not_findsChanges_zeros :
    checkCrc (List.replicate (2 ^ 32) 0 ++ [0xFF, 0xFF]) = true
      ∧ ¬ FindsChanges (List.replicate (2 ^ 32) 0 ++ [0xFF, 0xFF]) :=
  ⟨checkCrc_long List.length_replicate, not_findsChanges_long List.length_replicate⟩

end Modbus

end IotAgent
