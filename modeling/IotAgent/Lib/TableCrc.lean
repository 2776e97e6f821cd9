import Mathlib.Data.List.Basic
import Mathlib.Logic.Function.Iterate

/-!
Reflected cyclic redundancy checks, bit by bit and from a table.

The register is shifted down one bit at a time and the polynomial is added when a one falls
out. Such a step is linear over exclusive or, so the eight steps of a byte are the eight
steps of the low byte of the register, which a table can hold, and the rest of the register
moved down.

* `bitStep`, `bitSteps`, `byteStep`, `reference`: the definition of the check;
* `bitStep_xor`, `bitSteps_xor`: linearity;
* `bitSteps_of_low_clear`: nothing is added while zeros fall out;
* `byteStep_eq`: the byte step by the low byte of the register;
* `reference_last_injective`: the check tells the last byte apart;
* `reference_set_ne`: with a polynomial whose top bit is set, one changed byte changes the
  check.
-/

namespace TableCrc

variable {n : ℕ} (poly : BitVec n)

/-- A bit falls out of the register, and the polynomial is added if it is a one. -/
def bitStep (w : BitVec n) : BitVec n :=
  if w.getLsbD 0 then (w >>> 1) ^^^ poly else w >>> 1

/-- `k` bits fall out. -/
def bitSteps : ℕ → BitVec n → BitVec n
  | 0, w => w
  | k + 1, w => bitStep poly (bitSteps k w)

/-- A byte is added to the low end of the register and its eight bits fall out. -/
def byteStep (w : BitVec n) (b : BitVec 8) : BitVec n :=
  bitSteps poly 8 (w ^^^ b.setWidth n)

/-- The check of a sequence of bytes. -/
def reference (init : BitVec n) (bytes : List (BitVec 8)) : BitVec n :=
  bytes.foldl (byteStep poly) init

@[simp]
lemma reference_nil (init : BitVec n) : reference poly init [] = init := rfl

@[simp]
lemma reference_concat (init : BitVec n) (bytes : List (BitVec 8)) (b : BitVec 8) :
    reference poly init (bytes ++ [b]) = byteStep poly (reference poly init bytes) b := by
  simp [reference]

/-! ### Linearity -/

lemma xor_cancel (a b : BitVec n) : a ^^^ poly ^^^ (b ^^^ poly) = a ^^^ b := by
  calc a ^^^ poly ^^^ (b ^^^ poly) = a ^^^ (poly ^^^ (poly ^^^ b)) := by
        rw [BitVec.xor_assoc, BitVec.xor_comm b poly]
    _ = a ^^^ b := by rw [← BitVec.xor_assoc poly poly b, BitVec.xor_self, BitVec.zero_xor]

/-- A step is linear. -/
lemma bitStep_xor (v w : BitVec n) :
    bitStep poly (v ^^^ w) = bitStep poly v ^^^ bitStep poly w := by
  simp only [bitStep, BitVec.getLsbD_xor, BitVec.ushiftRight_xor_distrib]
  cases v.getLsbD 0 <;> cases w.getLsbD 0
  · simp
  · simp [BitVec.xor_assoc]
  · simp only [Bool.xor_false, if_true, Bool.false_eq_true, if_false]
    rw [BitVec.xor_assoc, BitVec.xor_comm (w >>> 1), ← BitVec.xor_assoc]
  · simp [xor_cancel]

lemma bitSteps_xor (k : ℕ) (v w : BitVec n) :
    bitSteps poly k (v ^^^ w) = bitSteps poly k v ^^^ bitSteps poly k w := by
  induction k with
  | zero => rfl
  | succ k ih => rw [bitSteps, ih, bitStep_xor, bitSteps, bitSteps]

/-- A register whose low bits are clear is only moved down. -/
lemma bitSteps_of_low_clear {w : BitVec n} :
    ∀ {k : ℕ}, (∀ i < k, w.getLsbD i = false) → bitSteps poly k w = w >>> k
  | 0, _ => by simp [bitSteps]
  | k + 1, h => by
      have ih : bitSteps poly k w = w >>> k := bitSteps_of_low_clear fun i hi => h i (by omega)
      have hbit : (w >>> k).getLsbD 0 = false := by simpa using h k (by omega)
      simp [bitSteps, ih, bitStep, hbit, BitVec.shiftRight_add]

/-! ### The step of a byte -/

/-- The low byte of the register. -/
def low (w : BitVec n) : BitVec 8 := w.setWidth 8

/-- The register without its low byte. -/
def high (w : BitVec n) : BitVec n := w ^^^ (low w).setWidth n

lemma getLsbD_high (w : BitVec n) (i : ℕ) :
    (high w).getLsbD i = (w.getLsbD i && !decide (i < 8)) := by
  by_cases hn : i < n
  · by_cases h8 : i < 8 <;> simp [high, low, hn, h8]
  · have hn : n ≤ i := by omega
    rw [BitVec.getLsbD_of_ge _ i hn, BitVec.getLsbD_of_ge w i hn, Bool.false_and]

lemma high_xor_low (w : BitVec n) : high w ^^^ (low w).setWidth n = w := by
  rw [high, BitVec.xor_assoc, BitVec.xor_self, BitVec.xor_zero]

lemma high_ushiftRight (w : BitVec n) : high w >>> 8 = w >>> 8 := by
  apply BitVec.eq_of_getLsbD_eq
  intro i _
  simp [getLsbD_high]

/-- Eight steps of a register: those of its low byte, and the rest moved down. -/
lemma bitSteps_eight (w : BitVec n) :
    bitSteps poly 8 w = (w >>> 8) ^^^ bitSteps poly 8 ((low w).setWidth n) := by
  have hclear : ∀ i < 8, (high w).getLsbD i = false := by
    intro i hi
    simp [getLsbD_high, hi]
  calc bitSteps poly 8 w
      = bitSteps poly 8 (high w ^^^ (low w).setWidth n) := by rw [high_xor_low]
    _ = bitSteps poly 8 (high w) ^^^ bitSteps poly 8 ((low w).setWidth n) :=
        bitSteps_xor poly 8 _ _
    _ = (high w >>> 8) ^^^ bitSteps poly 8 ((low w).setWidth n) := by
        rw [bitSteps_of_low_clear poly hclear]
    _ = (w >>> 8) ^^^ bitSteps poly 8 ((low w).setWidth n) := by rw [high_ushiftRight]

/-- **A byte from the table**: the byte is added to the low byte of the register, the eight
steps of the sum are looked up, and the rest of the register is moved down. -/
theorem byteStep_eq (w : BitVec n) (b : BitVec 8) (hn : 8 ≤ n) :
    byteStep poly w b = (w >>> 8) ^^^ bitSteps poly 8 ((low w ^^^ b).setWidth n) := by
  have hhigh : (w ^^^ b.setWidth n) >>> 8 = w >>> 8 := by
    apply BitVec.eq_of_getLsbD_eq
    intro i _
    simp
  have hlow : low (w ^^^ b.setWidth n) = low w ^^^ b := by
    apply BitVec.eq_of_getLsbD_eq
    intro i hi
    have hin : i < n := by omega
    simp [low, hi, hin]
  rw [byteStep, bitSteps_eight, hhigh, hlow]

/-- Two bytes whose eight steps differ give different checks behind the same bytes. -/
theorem reference_last_injective (init : BitVec n) (bytes : List (BitVec 8)) {b b' : BitVec 8}
    (h : reference poly init (bytes ++ [b]) = reference poly init (bytes ++ [b'])) :
    bitSteps poly 8 (b.setWidth n) = bitSteps poly 8 (b'.setWidth n) := by
  rw [reference_concat, reference_concat, byteStep, byteStep, bitSteps_xor, bitSteps_xor] at h
  exact (BitVec.xor_right_inj _).mp h

/-! ### One changed byte -/

section OneByte

variable {σ β : Type*} {step : σ → β → σ}

/-- Steps that tell states apart do so over any sequence. -/
lemma foldl_injective (hstate : ∀ b, Function.Injective (step · b)) (bytes : List β) :
    Function.Injective fun s => bytes.foldl step s := by
  induction bytes with
  | nil => exact fun s s' h => h
  | cons b bytes ih => exact fun s s' h => hstate b (ih h)

/-- Steps that tell states and bytes apart end in another state for another byte. -/
lemma foldl_set_ne (hstate : ∀ b, Function.Injective (step · b))
    (hbyte : ∀ s, Function.Injective (step s)) {bytes : List β} {i : ℕ} (hi : i < bytes.length)
    {b : β} (hb : b ≠ bytes[i]) (s : σ) : (bytes.set i b).foldl step s ≠ bytes.foldl step s := by
  induction bytes generalizing i s with
  | nil => exact absurd hi (Nat.not_lt_zero i)
  | cons b' bytes ih =>
      cases i with
      | zero => exact fun h => hb (hbyte s (foldl_injective hstate bytes h))
      | succ i => exact ih (Nat.lt_of_succ_lt_succ hi) hb (step s b')

end OneByte

section TopBit

variable {poly}

/-- With a polynomial whose top bit is set a step loses nothing: a one that falls out comes in
again at the top. -/
lemma bitStep_injective (htop : poly.getLsbD (n - 1) = true) :
    Function.Injective (bitStep poly) := by
  have hzero : ∀ x : BitVec n, bitStep poly x = 0 → x = 0 := by
    intro x hx
    rw [bitStep] at hx
    have hn : 0 < n := by
      by_contra hn
      obtain rfl : n = 0 := by omega
      simp at htop
    split at hx
    · have hbit := congrArg (BitVec.getLsbD · (n - 1)) hx
      have hshift : (x >>> 1).getLsbD (n - 1) = false := by
        rw [BitVec.getLsbD_ushiftRight]
        exact BitVec.getLsbD_of_ge x _ (by omega)
      simp [hshift, htop] at hbit
    · next hlow =>
        apply BitVec.eq_of_getLsbD_eq
        intro i _
        cases i with
        | zero => simpa using hlow
        | succ i =>
            have hbit := congrArg (BitVec.getLsbD · i) hx
            simpa [Nat.add_comm] using hbit
  intro v w h
  have hxor : bitStep poly (v ^^^ w) = 0#n := by rw [bitStep_xor, h, BitVec.xor_self]
  exact BitVec.xor_eq_zero_iff.mp (hzero _ hxor)

lemma bitSteps_injective (htop : poly.getLsbD (n - 1) = true) (k : ℕ) :
    Function.Injective (bitSteps poly k) := by
  induction k with
  | zero => exact fun v w h => h
  | succ k ih => exact fun v w h => ih (bitStep_injective htop h)

/-- **One changed byte** changes the check. -/
theorem reference_set_ne (htop : poly.getLsbD (n - 1) = true) (hn : 8 ≤ n) (init : BitVec n)
    {bytes : List (BitVec 8)} {i : ℕ} (hi : i < bytes.length) {b : BitVec 8}
    (hb : b ≠ bytes[i]) :
    reference poly init (bytes.set i b) ≠ reference poly init bytes := by
  refine foldl_set_ne (fun b' v w h => ?_) (fun w b' b'' h => ?_) hi hb init
  · exact (BitVec.xor_left_inj _).mp (bitSteps_injective htop 8 h)
  · have hwide := (BitVec.xor_right_inj w).mp (bitSteps_injective htop 8 h)
    apply BitVec.eq_of_getLsbD_eq
    intro j hj
    have hbit := congrArg (BitVec.getLsbD · j) hwide
    have hjn : j < n := by omega
    simpa [hjn] using hbit

end TopBit

end TableCrc
