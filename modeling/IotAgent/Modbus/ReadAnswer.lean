import IotAgent.Modbus.Receive

/-!
The values of a Modbus read.

The number of registers that the loop decodes comes from the byte count of the answer, not
from the request. With a byte count that is twice the number of registers asked for, the
values are these registers, and no byte of the checksum is read; another byte count is
accepted just as well.

* `registerPositions_eq`, `readRegisters_fresh`: the loop over the registers;
* `ReadState`, `ReadState.feed`: what any bytes leave behind;
* `decodedExactly_iff`: the values are those asked for if and only if the byte count is
  twice their number.
-/

namespace IotAgent

/-! ### Registers -/

namespace Registers

variable {k v : UInt16} {l : Registers}

lemma insert_of_gt (h : ∀ p ∈ l, p.1 < k) : l.insert k v = l ++ [(k, v)] := by
  induction l with
  | nil => rfl
  | cons p l ih =>
      have hp : p.1 < k := h p (List.mem_cons_self ..)
      have hnot : ¬ k < p.1 := UInt16.not_lt.mpr (UInt16.le_of_lt hp)
      have hne : k ≠ p.1 := fun heq => UInt16.lt_irrefl _ (heq ▸ hp)
      rw [insert, if_neg hnot, if_neg hne, ih fun q hq => h q (List.mem_cons_of_mem _ hq)]
      rfl

/-- A key that is there keeps its value. -/
lemma insert_of_mem (hl : l.Pairwise fun p q => p.1 < q.1) (h : k ∈ l.map Prod.fst) :
    l.insert k v = l := by
  induction l with
  | nil => simp at h
  | cons p l ih =>
      obtain ⟨hp, hl⟩ := List.pairwise_cons.mp hl
      rw [List.map_cons, List.mem_cons] at h
      rcases h with rfl | h
      · rw [insert, if_neg (UInt16.lt_irrefl _), if_pos rfl]
      · obtain ⟨q, hq, rfl⟩ := List.mem_map.mp h
        have hlt := hp q hq
        have hnot : ¬ q.1 < p.1 := UInt16.not_lt.mpr (UInt16.le_of_lt hlt)
        have hne : q.1 ≠ p.1 := fun heq => UInt16.lt_irrefl _ (heq ▸ hlt)
        rw [insert, if_neg hnot, if_neg hne, ih hl h]

end Registers

namespace Modbus

open Fragments

/-! ### The loop -/

lemma registerPositions_eq (r i : ℕ) :
    registerPositions (i + 2 * r) i = (List.range r).map fun j => i + 2 * j := by
  induction r generalizing i with
  | zero => simp [registerPositions]
  | succ r ih =>
      have hnext : i + 2 * (r + 1) = i + 2 + 2 * r := by omega
      rw [registerPositions, if_pos (by omega), hnext, ih, List.range_succ_eq_map, List.map_cons,
        List.map_map]
      refine congrArg _ (List.map_congr_left fun j _ => ?_)
      simp only [Function.comp_apply, Nat.succ_eq_add_one]
      omega

/-- The value of a register: the bytes at `i` and `i + 1`, big-endian. -/
def registerAt (frame : List UInt8) (i : ℕ) : UInt16 :=
  word (frame.getD i 0) (frame.getD (i + 1) 0)

lemma readRegisters_cons {frame : List UInt8} {addressData : UInt16} {i : ℕ} {positions : List ℕ}
    {numReg : UInt16} {values : Registers} (hi : i + 1 < frame.length) :
    readRegisters frame addressData (i :: positions) numReg values
      = readRegisters frame addressData positions (numReg + 1)
          (values.insert (addressData + (numReg + 1)) (registerAt frame i)) := by
  have hhi : frame[i]? = some (frame.getD i 0) := by
    rw [List.getD_eq_getElem?_getD, List.getElem?_eq_getElem (by omega)]
    rfl
  have hlo : frame[i + 1]? = some (frame.getD (i + 1) 0) := by
    rw [List.getD_eq_getElem?_getD, List.getElem?_eq_getElem hi]
    rfl
  rw [readRegisters, hhi, hlo]
  rfl

/-- The registers of a read of `n` registers from `addressData`, by the bytes of `frame`. -/
def registersFrom (frame : List UInt8) (addressData : UInt16) (n : ℕ) : Registers :=
  (List.range n).map fun j => (addressData + UInt16.ofNat (j + 1), registerAt frame (3 + 2 * j))

lemma toNat_address {a : UInt16} {j : ℕ} (h : a.toNat + j + 1 < 65536) :
    (a + UInt16.ofNat (j + 1)).toNat = a.toNat + j + 1 := by
  rw [UInt16.toNat_add, UInt16.toNat_ofNat']
  omega

lemma registersFrom_pairwise {frame : List UInt8} {a : UInt16} {n : ℕ} (h : a.toNat + n < 65536) :
    (registersFrom frame a n).Pairwise fun p q => p.1 < q.1 := by
  rw [registersFrom, List.pairwise_map]
  refine List.pairwise_lt_range.imp_of_mem ?_
  intro i j hi hj hij
  rw [List.mem_range] at hi hj
  rw [UInt16.lt_iff_toNat_lt, toNat_address (by omega), toNat_address (by omega)]
  omega

lemma registersFrom_succ (frame : List UInt8) (a : UInt16) (n : ℕ) :
    registersFrom frame a (n + 1)
      = registersFrom frame a n ++ [(a + UInt16.ofNat (n + 1), registerAt frame (3 + 2 * n))] := by
  simp [registersFrom, List.range_succ]

/-- One turn of the loop. -/
lemma readRegisters_succ {frame : List UInt8} {a : UInt16} {values : Registers} (k r : ℕ)
    (hlen : 3 + 2 * k + 1 < frame.length) :
    readRegisters frame a ((List.range (r + 1)).map fun j => 3 + 2 * k + 2 * j) (UInt16.ofNat k)
        values
      = readRegisters frame a ((List.range r).map fun j => 3 + 2 * (k + 1) + 2 * j)
          (UInt16.ofNat (k + 1))
          (values.insert (a + UInt16.ofNat (k + 1)) (registerAt frame (3 + 2 * k))) := by
  have hpos : (List.range (r + 1)).map (fun j => 3 + 2 * k + 2 * j)
      = (3 + 2 * k) :: (List.range r).map fun j => 3 + 2 * (k + 1) + 2 * j := by
    rw [List.range_succ_eq_map, List.map_cons, List.map_map]
    refine congrArg _ (List.map_congr_left fun j _ => ?_)
    simp only [Function.comp_apply, Nat.succ_eq_add_one]
    omega
  have hnum : UInt16.ofNat k + 1 = UInt16.ofNat (k + 1) := by simp
  rw [hpos, readRegisters_cons hlen, hnum]

/-- The loop on a map without values of this answer. -/
lemma readRegisters_fresh (frame : List UInt8) (a : UInt16) (k r : ℕ)
    (haddr : a.toNat + (k + r) < 65536) (hlen : 3 + 2 * (k + r) ≤ frame.length) :
    readRegisters frame a ((List.range r).map fun j => 3 + 2 * k + 2 * j) (UInt16.ofNat k)
        (registersFrom frame a k) = (true, registersFrom frame a (k + r)) := by
  induction r generalizing k with
  | zero => rfl
  | succ r ih =>
      have hgt : ∀ p ∈ registersFrom frame a k, p.1 < a + UInt16.ofNat (k + 1) := by
        intro p hp
        obtain ⟨j, hj, rfl⟩ := List.mem_map.mp hp
        rw [List.mem_range] at hj
        rw [UInt16.lt_iff_toNat_lt, toNat_address (by omega), toNat_address (by omega)]
        omega
      have hk : k + (r + 1) = k + 1 + r := by omega
      rw [readRegisters_succ k r (by omega), Registers.insert_of_gt hgt, ← registersFrom_succ,
        ih (k + 1) (by omega) (by omega), hk]

/-- The loop on a map that has the values already. -/
lemma readRegisters_again {frame : List UInt8} {a : UInt16} {n : ℕ} (k r : ℕ) (hkr : k + r = n)
    (haddr : a.toNat + n < 65536) (hlen : 3 + 2 * n ≤ frame.length) :
    readRegisters frame a ((List.range r).map fun j => 3 + 2 * k + 2 * j) (UInt16.ofNat k)
        (registersFrom frame a n) = (true, registersFrom frame a n) := by
  induction r generalizing k with
  | zero => rfl
  | succ r ih =>
      have hmem : a + UInt16.ofNat (k + 1) ∈ (registersFrom frame a n).map Prod.fst := by
        rw [registersFrom, List.map_map, List.mem_map]
        exact ⟨k, List.mem_range.mpr (by omega), rfl⟩
      rw [readRegisters_succ k r (by omega),
        Registers.insert_of_mem (registersFrom_pairwise haddr) hmem, ih (k + 1) (by omega)]

/-! ### Any bytes -/

/-- The byte count of an answer. -/
def byteCount (frame : List UInt8) : ℕ :=
  (frame.getD 2 0).toNat

/-- The answer is as long as its byte count says. -/
def AsCounted (frame : List UInt8) : Prop :=
  2 < frame.length ∧ frame.length = byteCount frame + 5

instance (frame : List UInt8) : Decidable (AsCounted frame) :=
  inferInstanceAs (Decidable (_ ∧ _))

/-- The values of an answer with the byte count that the request makes one expect. -/
lemma readRegisters_asCounted {frame : List UInt8} {a : UInt16} {n : ℕ} {values : Registers}
    (haddr : a.toNat + n < 65536) (hframe : AsCounted frame) (hcount : byteCount frame = 2 * n)
    (hvalues : values = [] ∨ values = registersFrom frame a n) :
    readRegisters frame a (registerPositions (byteCount frame + 3) 3) 0 values
      = (true, registersFrom frame a n) := by
  have hlen : 3 + 2 * n ≤ frame.length := by
    have := hframe.2
    omega
  have hpos : registerPositions (byteCount frame + 3) 3
      = (List.range n).map fun j => 3 + 2 * 0 + 2 * j := by
    rw [hcount, Nat.add_comm, registerPositions_eq]
  rw [hpos]
  rcases hvalues with rfl | rfl
  · have := readRegisters_fresh frame a 0 n (by omega) (by omega)
    rwa [Nat.zero_add] at this
  · exact readRegisters_again 0 n (Nat.zero_add n) haddr hlen

section

variable {m : Modbus} {slaveAddr : UInt8} {addressData numberOf : UInt16} {b c : List UInt8}

lemma checkCompleted_read (hm : m.functionCode = .readHoldingRegisters) :
    m.checkCompleted c
      = (decide (AsCounted (m.modbusFrameResponse ++ c)),
          m.collected (m.modbusFrameResponse ++ c)) := by
  rw [checkCompleted, hm]
  cases hb : (m.modbusFrameResponse ++ c)[2]? with
  | none =>
      have := List.getElem?_eq_none_iff.mp hb
      have hnot : ¬ AsCounted (m.modbusFrameResponse ++ c) := fun h => by
        have := h.1
        omega
      simp only [decide_eq_false hnot, collected, hm]
  | some bytes =>
      have hlt := (List.getElem?_eq_some_iff.mp hb).1
      have hcount : byteCount (m.modbusFrameResponse ++ c) = bytes.toNat := by
        rw [byteCount, List.getD_eq_getElem?_getD, hb]
        rfl
      have hiff : (m.modbusFrameResponse ++ c).length - 2 = bytes.toNat + 3
          ↔ AsCounted (m.modbusFrameResponse ++ c) := by
        rw [AsCounted, hcount]
        omega
      simp only [beq_eq_decide, decide_eq_decide.mpr hiff, collected, hm]

/-- A complete answer is bad, or the loop has run over its registers. -/
lemma decode_read (hm : m.functionCode = .readHoldingRegisters)
    (hframe : AsCounted m.modbusFrameResponse) :
    m.decode = (false, m.values) ∨
      m.decode = readRegisters m.modbusFrameResponse m.addressData
        (registerPositions (byteCount m.modbusFrameResponse + 3) 3) 0 m.values := by
  obtain ⟨hlen, hcount⟩ := hframe
  match hresp : m.modbusFrameResponse, hlen with
  | slave :: code :: b2 :: rest, _ =>
      have hb2 : byteCount (slave :: code :: b2 :: rest) = b2.toNat := rfl
      rw [hresp, hb2] at hcount
      simp only [decode, hresp, hm, hb2]
      split
      · exact Or.inl rfl
      · exact Or.inr (if_neg (by omega))

/-- An answer as long as its byte count says does not stay so when bytes follow. -/
lemma AsCounted.eq_of_prefix {f : List UInt8} (hb : AsCounted b) (hf : AsCounted f)
    (hpre : b <+: f) : b = f := by
  obtain ⟨d, rfl⟩ := hpre
  have hcount : byteCount (b ++ d) = byteCount b := by
    rw [byteCount, byteCount, List.getD_eq_getElem?_getD, List.getElem?_append_left hb.1,
      ← List.getD_eq_getElem?_getD]
  have hlen := hb.2
  have hlen' := hf.2
  rw [List.length_append, hcount] at hlen'
  have hd : d = [] := List.length_eq_zero_iff.mp (by omega)
  rw [hd, List.append_nil]

variable (slaveAddr addressData numberOf)

/-- A read that has got the bytes `b`. -/
def readOperation (b : List UInt8) (values : Registers) (finished completed : Bool) : Modbus :=
  { request slaveAddr .readHoldingRegisters addressData numberOf with
    modbusFrameResponse := b, values, finished, completed }

/-- The values that go with the registers asked for. -/
def HasRegisters (values : Registers) (b : List UInt8) : Prop :=
  byteCount b = 2 * numberOf.toNat → values = registersFrom b addressData numberOf.toNat

/-- What is known of a read that has got the bytes `b`: the values are missing, or they are
those of an answer as long as its byte count says. -/
def ReadState (m : Modbus) (b : List UInt8) : Prop :=
  ∃ values finished completed,
    m = readOperation slaveAddr addressData numberOf b values finished completed ∧
      (values = [] ∨ ∃ answer, answer <+: b ∧ AsCounted answer ∧
        HasRegisters addressData numberOf values answer)

variable {slaveAddr addressData numberOf}

/-- What one chunk leaves behind, and what a result means. -/
lemma ReadState.feed (haddr : addressData.toNat + numberOf.toNat < 65536)
    (hm : ReadState slaveAddr addressData numberOf m b) (c : List UInt8) :
    ReadState slaveAddr addressData numberOf (Modbus.feed m c).2 (b ++ c) ∧
      ((Modbus.feed m c).1 = (true, true) → AsCounted (b ++ c) ∧
        HasRegisters addressData numberOf (Modbus.feed m c).2.values (b ++ c)) := by
  obtain ⟨values, finished, completed, rfl, hvalues⟩ := hm
  have hframe :
      (readOperation slaveAddr addressData numberOf b values finished completed).modbusFrame
        ≠ [] := by
    simp [readOperation, request, withCrc]
  have hcheck := checkCompleted_read (c := c)
    (m := readOperation slaveAddr addressData numberOf b values finished completed) rfl
  by_cases hbc : AsCounted (b ++ c)
  · have hcheck' := hcheck.trans (congrArg (·, _) (decide_eq_true hbc))
    -- the values before this chunk are missing, or those of the same bytes
    have hbefore : byteCount (b ++ c) = 2 * numberOf.toNat → values = [] ∨
        values = registersFrom (b ++ c) addressData numberOf.toNat := by
      intro hcount
      refine hvalues.imp_right ?_
      rintro ⟨answer, hpre, hanswer, hregs⟩
      obtain rfl := hanswer.eq_of_prefix hbc (hpre.trans (List.prefix_append b c))
      exact hregs hcount
    set op := readOperation slaveAddr addressData numberOf (b ++ c) values finished true with hop
    have hdecode := decode_read (m := op) rfl hbc
    have hcomplete : complete (readOperation slaveAddr addressData numberOf (b ++ c) values finished
        completed) = ((op.decode.1, true),
          readOperation slaveAddr addressData numberOf (b ++ c) op.decode.2 true true) := rfl
    have hfeed := (feed_of_completed hframe hcheck').trans hcomplete
    rw [hfeed]
    rcases hdecode with hbad | hgood
    · refine ⟨⟨values, true, true, by rw [hbad, hop]; rfl, hvalues.imp_right ?_⟩, ?_⟩
      · rintro ⟨answer, hpre, hanswer⟩
        exact ⟨answer, hpre.trans (List.prefix_append b c), hanswer⟩
      · intro h
        rw [hbad] at h
        simp at h
    · have hregs : HasRegisters addressData numberOf op.decode.2 (b ++ c) := by
        intro hcount
        rw [hgood]
        exact congrArg Prod.snd (readRegisters_asCounted haddr hbc hcount (hbefore hcount))
      exact ⟨⟨op.decode.2, true, true, rfl, Or.inr ⟨b ++ c, List.prefix_refl _, hbc, hregs⟩⟩,
        fun _ => ⟨hbc, hregs⟩⟩
  · have hcheck' := hcheck.trans (congrArg (·, _) (decide_eq_false hbc))
    rw [feed_of_pending hframe hcheck']
    refine ⟨⟨values, finished, false, rfl, hvalues.imp_right ?_⟩, fun h => by simp [pending] at h⟩
    rintro ⟨answer, hpre, hanswer⟩
    exact ⟨answer, hpre.trans (List.prefix_append b c), hanswer⟩

/-- A result that completes the read comes from an answer as long as its byte count says. -/
lemma deliver_read (haddr : addressData.toNat + numberOf.toNat < 65536)
    {chunks : List (List UInt8)}
    (hlast : (deliver Modbus.feed (request slaveAddr .readHoldingRegisters addressData numberOf)
      chunks).1.getLast? = some (true, true)) :
    AsCounted chunks.flatten ∧ HasRegisters addressData numberOf
      (deliver Modbus.feed (request slaveAddr .readHoldingRegisters addressData numberOf)
        chunks).2.values chunks.flatten := by
  have hstart : ReadState slaveAddr addressData numberOf
      (request slaveAddr .readHoldingRegisters addressData numberOf) [] :=
    ⟨[], false, false, rfl, Or.inl rfl⟩
  rcases List.eq_nil_or_concat chunks with rfl | ⟨before, c, rfl⟩
  · simp at hlast
  · have hbefore := deliver_invariant Modbus.feed
      (fun m b c (hm : ReadState slaveAddr addressData numberOf m b) => (hm.feed haddr c).1)
      hstart before
    have hresult := (hbefore.feed haddr c).2
    rw [List.concat_eq_append, deliver_append, deliver_singleton] at hlast ⊢
    rw [List.getLast?_append, List.getLast?_singleton, Option.some_or, Option.some.injEq] at hlast
    simpa using hresult hlast

end

/-- The values are those of the `numberOf` registers from `addressData` on, read from an
answer with two bytes for each of them, and no byte of the checksum was read. -/
structure DecodedExactly (addressData numberOf : UInt16) (answer : List UInt8) (m : Modbus) :
    Prop where
  count : byteCount answer = 2 * numberOf.toNat
  values : m.values = registersFrom answer addressData numberOf.toNat
  crc : ∀ i ∈ registerPositions (byteCount answer + 3) 3, i + 1 < answer.length - 2

/-- **A read is decoded exactly when the slave sends the byte count asked for.** -/
theorem decodedExactly_iff (slaveAddr : UInt8) (addressData numberOf : UInt16)
    (haddr : addressData.toNat + numberOf.toNat < 65536) (chunks : List (List UInt8))
    (hlast : (deliver feed (request slaveAddr .readHoldingRegisters addressData numberOf)
      chunks).1.getLast? = some (true, true)) :
    DecodedExactly addressData numberOf chunks.flatten
        (deliver feed (request slaveAddr .readHoldingRegisters addressData numberOf) chunks).2
      ↔ byteCount chunks.flatten = 2 * numberOf.toNat := by
  obtain ⟨hcounted, hregs⟩ := deliver_read haddr hlast
  refine ⟨DecodedExactly.count, fun hcount => ⟨hcount, hregs hcount, ?_⟩⟩
  intro i hi
  rw [hcount, Nat.add_comm, registerPositions_eq, List.mem_map] at hi
  obtain ⟨j, hj, rfl⟩ := hi
  rw [List.mem_range] at hj
  have := hcounted.2
  omega

/-- One register is asked for, the slave sends none. -/
theorem not_decodedExactly_empty_answer :
    (deliver feed (request 1 .readHoldingRegisters 0 1) [withCrc [1, 3, 0]]).1.getLast?
        = some (true, true)
      ∧ ¬ DecodedExactly 0 1 (withCrc [1, 3, 0])
          (deliver feed (request 1 .readHoldingRegisters 0 1) [withCrc [1, 3, 0]]).2 :=
  ⟨by decide +kernel, fun h => absurd h.count (by decide +kernel)⟩

/-- One register is asked for and sent. -/
theorem decodedExactly_one_register :
    DecodedExactly 0 1 [1, 3, 2, 0, 7, 0xF9, 0x86]
      (deliver feed (request 1 .readHoldingRegisters 0 1) [[1, 3], [2, 0, 7, 0xF9, 0x86]]).2 :=
  (decodedExactly_iff 1 0 1 (by decide) [[1, 3], [2, 0, 7, 0xF9, 0x86]] (by decide +kernel)).mpr
    (by decide +kernel)

end Modbus

end IotAgent
