import IotAgent.Lib.TableCrc
import IotAgent.Modbus.Crc

/-!
The checksum of Modbus frames is the CRC-16 with the reflected polynomial `0xA001` and the
initial value `0xFFFF` (`src/modbus/modbus.cc`).

`crc_hi` is the low byte of the register of the CRC, and `crc_lo` the high byte: what `crc`
calls the high-order byte of its result, and what goes first into the frame, is the
low-order byte of the CRC.

* `crc16`: the CRC bit by bit;
* `word_table`: an entry of the two tables is the eight steps of its index;
* `register_crcStep`: a turn of the loop is a byte step of the register;
* `crc_eq_crc16`: the bytes of the checksum, for buffers below 2^32 bytes;
* `closed_iff_length_lt`: the lengths for which every frame is closed by its CRC.
-/

namespace IotAgent

namespace Modbus

open TableCrc

/-- The reflected polynomial. -/
def polynomial : BitVec 16 := 0xA001

/-- The CRC-16 of the bytes, bit by bit from the initial value `0xFFFF`. -/
def crc16 (bytes : List UInt8) : UInt16 :=
  UInt16.ofBitVec (reference polynomial 0xFFFF (bytes.map UInt8.toBitVec))

/-- The bytes of the CRC on the wire, low-order byte first. -/
def wireBytes (w : UInt16) : List UInt8 := [loByte w, hiByte w]

/-! ### Words -/

lemma loByte_word (hi lo : UInt8) : loByte (word hi lo) = lo := by
  have := lo.toNat_lt
  apply UInt8.toNat_inj.mp
  rw [toNat_loByte, toNat_word]
  omega

lemma hiByte_word (hi lo : UInt8) : hiByte (word hi lo) = hi := by
  have := lo.toNat_lt
  apply UInt8.toNat_inj.mp
  rw [toNat_hiByte, toNat_word]
  omega

lemma toBitVec_word (hi lo : UInt8) :
    (word hi lo).toBitVec = (hi.toBitVec.setWidth 16 <<< 8) ||| lo.toBitVec.setWidth 16 := by
  apply BitVec.eq_of_toNat_eq
  simp [word]

lemma getLsbD_word (hi lo : UInt8) (i : ℕ) :
    (word hi lo).toBitVec.getLsbD i
      = if i < 8 then lo.toBitVec.getLsbD i else hi.toBitVec.getLsbD (i - 8) := by
  rw [toBitVec_word]
  by_cases h8 : i < 8
  · have h16 : i < 16 := by omega
    simp [h8, h16]
  · have hlo : lo.toBitVec.getLsbD i = false := BitVec.getLsbD_of_ge _ i (by omega)
    by_cases h16 : i < 16
    · simp [h8, h16, hlo]
    · have hhi : hi.toBitVec.getLsbD (i - 8) = false := BitVec.getLsbD_of_ge _ _ (by omega)
      simp [h8, h16, hhi]

/-- The low byte of a word. -/
lemma low_word (hi lo : UInt8) : low (word hi lo).toBitVec = lo.toBitVec := by
  apply BitVec.eq_of_getLsbD_eq
  intro i hi'
  simp [low, getLsbD_word, hi']

/-- A word moved down by a byte, and another word added to it. -/
lemma word_ushiftRight_xor (hi lo hi' lo' : UInt8) :
    ((word hi lo).toBitVec >>> 8) ^^^ (word hi' lo').toBitVec
      = (word hi' (hi ^^^ lo')).toBitVec := by
  apply BitVec.eq_of_getLsbD_eq
  intro i _
  simp only [BitVec.getLsbD_xor, BitVec.getLsbD_ushiftRight, getLsbD_word]
  by_cases h8 : i < 8
  · simp [h8]
  · have hhi : hi.toBitVec.getLsbD i = false := BitVec.getLsbD_of_ge _ i (by omega)
    simp [h8, hhi]

/-! ### The tables and the loop -/

/-- The two tables together are the eight steps of the indices. -/
lemma words_table : List.zipWith (fun lo hi => (word lo hi).toBitVec) tableCrcLo tableCrcHi =
    (List.range 256).map fun k => bitSteps polynomial 8 (BitVec.ofNat 16 k) := by
  decide +kernel

/-- The entries of the two tables at an index are the eight steps of the index. -/
lemma word_table (i : UInt8) :
    (word (crcLoAt i) (crcHiAt i)).toBitVec
      = bitSteps polynomial 8 (i.toBitVec.setWidth 16) := by
  have hi := i.toNat_lt
  have hlo : tableCrcLo[i.toNat]? = some (crcLoAt i) :=
    List.getElem?_eq_getElem (length_tableCrcLo ▸ hi)
  have hhi : tableCrcHi[i.toNat]? = some (crcHiAt i) :=
    List.getElem?_eq_getElem (length_tableCrcHi ▸ hi)
  have hget := congrArg (fun l => l[i.toNat]?) words_table
  simp only [List.getElem?_zipWith, hlo, hhi, List.getElem?_map, List.getElem?_range hi,
    Option.map_some, Option.some.injEq] at hget
  exact hget.trans (congrArg _ (BitVec.ofNat_toNat 16 i.toBitVec))

/-- The register of the CRC: `crc_hi` is its low byte. -/
def register (c : UInt8 × UInt8) : BitVec 16 := (word c.2 c.1).toBitVec

/-- A turn of the loop is a byte step of the register. -/
lemma register_crcStep (c : UInt8 × UInt8) (b : UInt8) :
    register (crcStep c b) = byteStep polynomial (register c) b.toBitVec := by
  have hindex : low (register c) ^^^ b.toBitVec = (c.1 ^^^ b).toBitVec := by
    rw [register, low_word, UInt8.toBitVec_xor]
  calc register (crcStep c b)
      = (word (crcLoAt (c.1 ^^^ b)) (c.2 ^^^ crcHiAt (c.1 ^^^ b))).toBitVec := rfl
    _ = (register c >>> 8) ^^^ (word (crcLoAt (c.1 ^^^ b)) (crcHiAt (c.1 ^^^ b))).toBitVec :=
        (word_ushiftRight_xor _ _ _ _).symm
    _ = (register c >>> 8) ^^^ bitSteps polynomial 8 ((c.1 ^^^ b).toBitVec.setWidth 16) := by
        rw [word_table]
    _ = byteStep polynomial (register c) b.toBitVec := by
        rw [byteStep_eq polynomial _ _ (by omega), hindex]

lemma register_foldl (bytes : List UInt8) (c : UInt8 × UInt8) :
    register (bytes.foldl crcStep c)
      = reference polynomial (register c) (bytes.map UInt8.toBitVec) := by
  induction bytes generalizing c with
  | nil => rfl
  | cons b bytes ih => rw [List.foldl_cons, ih, register_crcStep]; rfl

/-! ### The checksum -/

/-- The checksum is the CRC of the bytes that the loop passes through. -/
lemma crc_eq_take (frame : List UInt8) :
    hiByte (crc frame) = loByte (crc16 (frame.take (bufferLength frame.length)))
      ∧ loByte (crc frame) = hiByte (crc16 (frame.take (bufferLength frame.length))) := by
  have h := register_foldl (frame.take (bufferLength frame.length)) (0xFF, 0xFF)
  have hinit : register (0xFF, 0xFF) = 0xFFFF := by decide
  set c := (frame.take (bufferLength frame.length)).foldl crcStep (0xFF, 0xFF) with hc
  have hcrc : crc frame = word c.1 c.2 := rfl
  have h16 : crc16 (frame.take (bufferLength frame.length)) = word c.2 c.1 := by
    rw [crc16, ← hinit, ← h, register]
  rw [hcrc, h16]
  simp [hiByte_word, loByte_word]

/-- The loop passes through the whole buffer when it has less than 2^32 bytes. -/
lemma crc_eq_crc16 {frame : List UInt8} (h : frame.length < 2 ^ 32) :
    hiByte (crc frame) = loByte (crc16 frame) ∧ loByte (crc frame) = hiByte (crc16 frame) := by
  have htake : frame.take (bufferLength frame.length) = frame := by
    rw [bufferLength, Nat.mod_eq_of_lt h, List.take_length]
  simpa only [htake] using crc_eq_take frame

/-- The frame is closed by the bytes of its CRC, low-order byte first, and these two bytes
are the only ones that pass the check behind it. -/
def ClosedByCrc (body : List UInt8) : Prop :=
  withCrc body = body ++ wireBytes (crc16 body)
    ∧ ∀ b b', checkCrc (body ++ [b, b']) = true ↔ [b, b'] = wireBytes (crc16 body)

/-- Two words with the same bytes. -/
lemma word_eq_iff (hi lo : UInt8) (w : UInt16) :
    word hi lo = w ↔ hi = hiByte w ∧ lo = loByte w := by
  constructor
  · rintro rfl
    exact ⟨(hiByte_word hi lo).symm, (loByte_word hi lo).symm⟩
  · rintro ⟨rfl, rfl⟩
    exact word_hiByte_loByte w

lemma checkCrc_append_iff (body : List UInt8) (b b' : UInt8) :
    checkCrc (body ++ [b, b']) = true ↔ b = hiByte (crc body) ∧ b' = loByte (crc body) := by
  simp [checkCrc, word_eq_iff]

lemma closedByCrc_of_length {body : List UInt8} (h : body.length < 2 ^ 32) :
    ClosedByCrc body := by
  obtain ⟨hhi, hlo⟩ := crc_eq_crc16 h
  refine ⟨by rw [withCrc, wireBytes, hhi, hlo], fun b b' => ?_⟩
  rw [checkCrc_append_iff, hhi, hlo]
  simp [wireBytes]

/-- The last byte of a buffer of 2^32 bytes or more is not read. -/
lemma crc_concat {body : List UInt8} (h : 2 ^ 32 ≤ body.length + 1) (b b' : UInt8) :
    crc (body ++ [b]) = crc (body ++ [b']) := by
  have hlen : bufferLength (body.length + 1) ≤ body.length := by
    have := Nat.mod_lt (body.length + 1) (show 0 < 2 ^ 32 by omega)
    rw [bufferLength]
    omega
  simp [crc, List.take_append_of_le_length hlen]

/-- Two CRCs of the same wire bytes are the same. -/
lemma wireBytes_injective {v w : UInt16} (h : wireBytes v = wireBytes w) : v = w := by
  simp only [wireBytes, List.cons.injEq, and_true] at h
  rw [← word_hiByte_loByte v, ← word_hiByte_loByte w, h.1, h.2]

/-- The CRC tells a last byte of `0` from one of `1`. -/
lemma crc16_concat_ne (body : List UInt8) : crc16 (body ++ [0]) ≠ crc16 (body ++ [1]) := by
  intro h
  have href := congrArg UInt16.toBitVec h
  simp only [crc16, List.map_append, List.map_cons, List.map_nil] at href
  have hsteps := reference_last_injective polynomial 0xFFFF (body.map UInt8.toBitVec) href
  exact absurd hsteps (by decide +kernel)

/-- The lengths for which every buffer is closed by its CRC are those below 2^32. -/
theorem closed_iff_length_lt (n : ℕ) :
    (∀ body : List UInt8, body.length = n → ClosedByCrc body) ↔ n < 2 ^ 32 := by
  refine ⟨fun h => ?_, fun hn body hlen => closedByCrc_of_length (hlen ▸ hn)⟩
  by_contra hn
  -- two buffers that differ in their last byte, which the loop does not reach
  let body : List UInt8 := List.replicate (n - 1) 0
  have hlen : ∀ b : UInt8, (body ++ [b]).length = n := by
    intro b
    simp only [body, List.length_append, List.length_replicate, List.length_singleton]
    omega
  have hcrc : crc (body ++ [0]) = crc (body ++ [1]) :=
    crc_concat (by simp only [body, List.length_replicate]; omega) 0 1
  have hwire : ∀ b : UInt8, wireBytes (crc16 (body ++ [b]))
      = [hiByte (crc (body ++ [b])), loByte (crc (body ++ [b]))] := by
    intro b
    exact (List.append_cancel_left (h _ (hlen b)).1).symm
  refine crc16_concat_ne body (wireBytes_injective ?_)
  rw [hwire, hwire, hcrc]

/-! ### A buffer of 2^32 bytes -/

/-- Zeros leave an empty register empty. -/
lemma reference_zeros (k : ℕ) :
    reference polynomial 0 ((List.replicate k (0 : UInt8)).map UInt8.toBitVec) = 0 := by
  induction k with
  | zero => rfl
  | succ k ih =>
      rw [List.replicate_succ', List.map_append, List.map_singleton, reference_concat, ih]
      decide

/-- Two bytes `0xFF` empty the register, and the zeros behind them leave it empty. -/
lemma crc16_zeros (k : ℕ) : crc16 ([0xFF, 0xFF] ++ List.replicate k 0) = 0 := by
  have hff : reference polynomial 0xFFFF ([0xFF, 0xFF].map UInt8.toBitVec) = 0 := by
    decide +kernel
  calc crc16 ([0xFF, 0xFF] ++ List.replicate k 0)
      = UInt16.ofBitVec (reference polynomial
          (reference polynomial 0xFFFF ([0xFF, 0xFF].map UInt8.toBitVec))
          ((List.replicate k (0 : UInt8)).map UInt8.toBitVec)) := by
        rw [crc16, List.map_append, reference, List.foldl_append]
        rfl
    _ = 0 := by rw [hff, reference_zeros]; rfl

/-- The loop reads nothing of a buffer of 2^32 bytes. -/
lemma crc_eq_of_length {body : List UInt8} (h : body.length = 2 ^ 32) : crc body = 0xFFFF := by
  have hnone : bufferLength body.length = 0 := by rw [h, bufferLength, Nat.mod_self]
  rw [crc, hnone, List.take_zero]
  decide

lemma not_closedByCrc_zeros {k : ℕ} (hk : k + 2 = 2 ^ 32) :
    ¬ ClosedByCrc ([0xFF, 0xFF] ++ List.replicate k 0) := by
  intro h
  have hcrc : crc ([0xFF, 0xFF] ++ List.replicate k 0) = 0xFFFF := by
    apply crc_eq_of_length
    rw [List.length_append, List.length_replicate, ← hk, Nat.add_comm]
    rfl
  have hwire := List.append_cancel_left h.1
  rw [hcrc, crc16_zeros] at hwire
  exact absurd hwire (by decide)

/-- The CRC of two bytes `0xFF` and 2^32 - 2 zeros is `0`, and the checksum is `0xFFFF`. -/
theorem not_closedByCrc_two_pow :
    ¬ ClosedByCrc ([0xFF, 0xFF] ++ List.replicate (2 ^ 32 - 2) 0) :=
  not_closedByCrc_zeros (Nat.sub_add_cancel (by omega))

end Modbus

end IotAgent
