import Mathlib.Algebra.Group.Nat.Defs
import Mathlib.Algebra.Order.Group.Nat
import Mathlib.Data.List.TakeWhile
import Mathlib.Order.Lattice
import IotAgent.Esp.Attribute
import IotAgent.Util.CLocale

/-!
Values that respect the length of their field (`ESP_Attribute::setValue`).

A long that is sent as a text is read from a stream over the whole buffer, so its number goes on
behind the field unless it has ended within it.

* `extractLongLong`: a number from a stream, in decimal digits;
* `NumberEnds`: the fields in which a number ends, or that have one beyond all limits;
* `RespectsLength`: the value is the same whatever stands behind the field;
* `respectsLength_iff`: it is, exactly if it is no long sent as a text or its number ends.
-/

namespace IotAgent

open CLocale

namespace LongText

/-! ### Numbers in a stream -/

/-- The number of the digits that a text begins with, zero if there are none. -/
def decimal (cs : List UInt8) : ℕ :=
  (cs.takeWhile isDigit).foldl (fun n c => 10 * n + (c - 0x30).toNat) 0

/-- The greatest absolute value of a `long long`. -/
def limit (negative : Bool) : ℕ :=
  if negative then 2 ^ 63 else 2 ^ 63 - 1

/-- A sign, a number, and what is behind it. -/
def cutNumber (cs : List UInt8) : Bool × ℕ × List UInt8 :=
  let (negative, cs) := cutSign (cs.dropWhile isSpace)
  (negative, decimal cs, cs.dropWhile isDigit)

/-- `ss >> temp`, for a `long long`. A number beyond the limits is set to the limit. -/
def extractLongLong (cs : List UInt8) : ℤ :=
  let (negative, n, _) := cutNumber cs
  if negative then -(min n (limit negative) : ℕ) else (min n (limit negative) : ℕ)

/-- The little-endian bytes of a number. -/
def leBytes : ℕ → ℕ → List UInt8
  | 0, _ => []
  | k + 1, n => UInt8.ofNat n :: leBytes k (n / 256)

/-- The bytes of a `long long`, in two's complement. -/
def longLongBytes (x : ℤ) : List UInt8 :=
  leBytes 8 (x % 2 ^ 64).toNat

/-- `std::istringstream ss(value); ss >> temp`. The text of the stream ends at a NUL. -/
def istringstream (value : List UInt8) : List UInt8 :=
  longLongBytes (extractLongLong (value.takeWhile (· ≠ 0)))

/-- The C library with the streams of the standard library. -/
def withStreams (lib : CLib) : CLib :=
  { lib with istringstream := istringstream }

/-! ### What stands behind a number -/

/-- The number of a field ends within it, or is not within the limits. -/
def NumberEnds (field : List UInt8) : Prop :=
  (cutNumber field).2.2 ≠ [] ∨ limit (cutNumber field).1 ≤ (cutNumber field).2.1

instance : DecidablePred NumberEnds := fun _ => inferInstanceAs (Decidable (_ ∨ _))

variable {cs more : List UInt8} {k n m : ℕ} {x y : ℤ}

lemma cutSign_append (h : cs ≠ []) :
    cutSign (cs ++ more) = ((cutSign cs).1, (cutSign cs).2 ++ more) := by
  cases cs with
  | nil => exact absurd rfl h
  | cons c cs =>
      rw [List.cons_append, cutSign, cutSign]
      split_ifs <;> rfl

/-- The number goes on behind digits, and behind nothing else. -/
lemma decimal_append : decimal (cs ++ more) =
    if cs.dropWhile isDigit = [] then
      (more.takeWhile isDigit).foldl (fun n c => 10 * n + (c - 0x30).toNat) (decimal cs)
    else decimal cs := by
  split
  · next hall =>
      have hdigits := List.dropWhile_eq_nil_iff.mp hall
      rw [decimal, List.takeWhile_append_of_pos hdigits, List.foldl_append, decimal,
        List.takeWhile_eq_self_iff.mpr hdigits]
  · next hrest =>
      have hlen : (cs.takeWhile isDigit).length ≠ cs.length := by
        intro heq
        refine hrest (List.length_eq_zero_iff.mp ?_)
        have hsum := congrArg List.length (List.takeWhile_append_dropWhile (p := isDigit) (l := cs))
        rw [List.length_append] at hsum
        omega
      rw [decimal, List.takeWhile_append, if_neg hlen, decimal]

/-- Behind blanks the number is that of what follows. -/
lemma cutNumber_append_of_blank (h : cs.dropWhile isSpace = []) :
    cutNumber (cs ++ more) = cutNumber more := by
  rw [cutNumber, cutNumber, List.dropWhile_append, h]
  rfl

lemma cutNumber_of_blank (h : cs.dropWhile isSpace = []) : cutNumber cs = (false, 0, []) := by
  rw [cutNumber, h]
  rfl

/-- What stands behind the end of a number does not count. -/
lemma cutNumber_append_of_ne_nil (h : (cutNumber cs).2.2 ≠ []) :
    cutNumber (cs ++ more) =
      ((cutNumber cs).1, (cutNumber cs).2.1, (cutNumber cs).2.2 ++ more) := by
  by_cases hblank : cs.dropWhile isSpace = []
  · rw [cutNumber_of_blank hblank] at h
    exact absurd rfl h
  · have hdrop : (cutSign (cs.dropWhile isSpace)).2.dropWhile isDigit ≠ [] := h
    have hne := List.isEmpty_eq_false_iff.mpr hdrop
    have hspace : (cs.dropWhile isSpace).isEmpty = false := List.isEmpty_eq_false_iff.mpr hblank
    rw [cutNumber, List.dropWhile_append, hspace, if_neg Bool.false_ne_true, cutSign_append hblank]
    dsimp only
    rw [decimal_append, if_neg hdrop, List.dropWhile_append, hne, if_neg Bool.false_ne_true]
    rfl

/-- A number that has not ended goes on. -/
lemma cutNumber_append_of_nil (more : List UInt8) (hblank : cs.dropWhile isSpace ≠ [])
    (h : (cutNumber cs).2.2 = []) :
    cutNumber (cs ++ more) = ((cutNumber cs).1,
      (more.takeWhile isDigit).foldl (fun n c => 10 * n + (c - 0x30).toNat) (cutNumber cs).2.1,
      more.dropWhile isDigit) := by
  have hdrop : (cutSign (cs.dropWhile isSpace)).2.dropWhile isDigit = [] := h
  have hnil := List.isEmpty_iff.mpr hdrop
  have hspace : (cs.dropWhile isSpace).isEmpty = false := List.isEmpty_eq_false_iff.mpr hblank
  rw [cutNumber, List.dropWhile_append, hspace, if_neg Bool.false_ne_true, cutSign_append hblank]
  dsimp only
  rw [decimal_append, if_pos hdrop, List.dropWhile_append, hnil, if_pos rfl]
  rfl

/-- A nine behind a number that has not ended is its next digit. -/
lemma cutNumber_append_nine (h : (cutNumber cs).2.2 = []) :
    cutNumber (cs ++ [0x39]) = ((cutNumber cs).1, 10 * (cutNumber cs).2.1 + 9, []) := by
  by_cases hblank : cs.dropWhile isSpace = []
  · rw [cutNumber_append_of_blank hblank, cutNumber_of_blank hblank]
    decide
  · rw [cutNumber_append_of_nil _ hblank h]
    rfl

/-- A number does not get less with more digits. -/
lemma le_foldl_digits (ds : List UInt8) (n : ℕ) :
    n ≤ ds.foldl (fun n c => 10 * n + (c - 0x30).toNat) n := by
  induction ds generalizing n with
  | nil => exact le_rfl
  | cons c ds ih =>
      have hstep : n ≤ 10 * n + (c - 0x30).toNat := by omega
      exact hstep.trans (ih _)

/-- A number beyond the limits stays there. -/
lemma limit_le_append (more : List UInt8) (h : limit (cutNumber cs).1 ≤ (cutNumber cs).2.1) :
    (cutNumber (cs ++ more)).1 = (cutNumber cs).1 ∧
      limit (cutNumber cs).1 ≤ (cutNumber (cs ++ more)).2.1 := by
  by_cases hnil : (cutNumber cs).2.2 = []
  · have hblank : cs.dropWhile isSpace ≠ [] := by
      intro hblank
      rw [cutNumber_of_blank hblank] at h
      exact absurd h (by decide)
    rw [cutNumber_append_of_nil _ hblank hnil]
    exact ⟨rfl, h.trans (le_foldl_digits _ _)⟩
  · rw [cutNumber_append_of_ne_nil hnil]
    exact ⟨rfl, h⟩

/-- The value is made of the sign and the number. -/
lemma extractLongLong_congr {cs cs' : List UInt8} (hsign : (cutNumber cs).1 = (cutNumber cs').1)
    (hnumber : min (cutNumber cs).2.1 (limit (cutNumber cs).1) =
      min (cutNumber cs').2.1 (limit (cutNumber cs').1)) :
    extractLongLong cs = extractLongLong cs' := by
  rw [extractLongLong, extractLongLong]
  dsimp only
  rw [hnumber, hsign]

/-- A NUL ends a number like any other character that is no digit. -/
lemma extractLongLong_takeWhile (cs : List UInt8) :
    extractLongLong (cs.takeWhile (· ≠ 0)) = extractLongLong cs := by
  cases hrest : cs.dropWhile (· ≠ 0) with
  | nil =>
      conv_rhs => rw [← List.takeWhile_append_dropWhile (p := (· ≠ 0)) (l := cs), hrest,
        List.append_nil]
  | cons c rest =>
      have hc : c = 0 := by
        have hne : cs.dropWhile (· ≠ 0) ≠ [] := by rw [hrest]; exact List.cons_ne_nil _ _
        have hhead := List.head_dropWhile_not (fun c : UInt8 => decide (c ≠ 0)) hne
        simp only [hrest, List.head_cons] at hhead
        simpa using hhead
      subst hc
      conv_rhs => rw [← List.takeWhile_append_dropWhile (p := (· ≠ 0)) (l := cs), hrest]
      generalize cs.takeWhile (· ≠ 0) = field
      by_cases hnil : (cutNumber field).2.2 = []
      · by_cases hblank : field.dropWhile isSpace = []
        · have hzero : cutNumber (0 :: rest) = (false, 0, 0 :: rest) := rfl
          refine extractLongLong_congr ?_ ?_ <;>
            rw [cutNumber_append_of_blank hblank, cutNumber_of_blank hblank, hzero]
        · have hgoes := cutNumber_append_of_nil (0 :: rest) hblank hnil
          exact extractLongLong_congr (congrArg Prod.fst hgoes).symm (by rw [hgoes]; rfl)
      · refine extractLongLong_congr ?_ ?_ <;> rw [cutNumber_append_of_ne_nil hnil]

/-- The value behind a field is that of the field whatever follows, exactly if its number ends. -/
theorem extractLongLong_append_iff (field : List UInt8) :
    (∀ more more', extractLongLong (field ++ more) = extractLongLong (field ++ more')) ↔
      NumberEnds field := by
  constructor
  · intro hall
    by_contra hends
    obtain ⟨hnil, hlt⟩ := not_or.mp hends
    rw [not_not] at hnil
    have heq := hall [] [0x39]
    rw [List.append_nil, extractLongLong, extractLongLong, cutNumber_append_nine hnil] at heq
    dsimp only at heq
    have hmin : min (cutNumber field).2.1 (limit (cutNumber field).1) <
        min (10 * (cutNumber field).2.1 + 9) (limit (cutNumber field).1) := by omega
    split at heq
    · exact hmin.ne (Int.natCast_inj.mp (Int.neg_inj.mp heq))
    · exact hmin.ne (Int.natCast_inj.mp heq)
  · rintro (hne | hfull) more more'
    · refine extractLongLong_congr ?_ ?_ <;> simp only [cutNumber_append_of_ne_nil hne]
    · obtain ⟨hsign, hle⟩ := limit_le_append more hfull
      obtain ⟨hsign', hle'⟩ := limit_le_append more' hfull
      refine extractLongLong_congr (hsign.trans hsign'.symm) ?_
      rw [hsign, hsign', min_eq_right hle, min_eq_right hle']

/-! ### Bytes -/

lemma length_leBytes : (leBytes k n).length = k := by
  induction k generalizing n with
  | zero => rfl
  | succ k ih => rw [leBytes, List.length_cons, ih]

/-- The bytes have the number, as far as they can. -/
lemma foldr_leBytes :
    (leBytes k n).foldr (fun b acc => b.toNat + 256 * acc) 0 = n % 256 ^ k := by
  induction k generalizing n with
  | zero => rw [leBytes, List.foldr_nil, Nat.pow_zero, Nat.mod_one]
  | succ k ih =>
      have hpow : 256 ^ (k + 1) = 256 * 256 ^ k := Nat.pow_succ'
      rw [leBytes, List.foldr_cons, ih, UInt8.toNat_ofNat', hpow]
      exact Nat.mod_mul.symm

/-- The bytes of a `long long` are read back. -/
lemma signedOf_longLongBytes (hle : -2 ^ 63 ≤ x) (hlt : x < 2 ^ 63) :
    EspAttribute.signedOf (longLongBytes x) = x := by
  rw [EspAttribute.signedOf, longLongBytes, foldr_leBytes, length_leBytes]
  split <;> omega

lemma longLongBytes_inj (hx : -2 ^ 63 ≤ x ∧ x < 2 ^ 63) (hy : -2 ^ 63 ≤ y ∧ y < 2 ^ 63)
    (h : longLongBytes x = longLongBytes y) : x = y := by
  rw [← signedOf_longLongBytes hx.1 hx.2, h, signedOf_longLongBytes hy.1 hy.2]

lemma extractLongLong_bounds : -2 ^ 63 ≤ extractLongLong cs ∧ extractLongLong cs < 2 ^ 63 := by
  rw [extractLongLong]
  dsimp only
  cases (cutNumber cs).1 with
  | true =>
      simp only [limit, if_true]
      omega
  | false =>
      simp only [limit, Bool.false_eq_true, if_false]
      omega

/-! ### Values -/

/-- The attribute is the same whatever stands in the buffer behind the field. -/
def RespectsLength (lib : CLib) (a : EspAttribute) (name : String) (datatype : DataType)
    (datacode : DataCode) (field : List UInt8) : Prop :=
  ∀ more more', a.setValue lib name (some (field ++ more)) field.length datatype datacode =
    a.setValue lib name (some (field ++ more')) field.length datatype datacode

variable {lib : CLib} {datatype : DataType} {datacode : DataCode} {field : List UInt8}

lemma setValue_inj {a : EspAttribute} {name : String} {buffer buffer' : List UInt8}
    {datasize : ℕ} :
    a.setValue lib name (some buffer) datasize datatype datacode =
        a.setValue lib name (some buffer') datasize datatype datacode ↔
      EspAttribute.decode lib buffer datasize datatype datacode =
        EspAttribute.decode lib buffer' datasize datatype datacode := by
  simp only [EspAttribute.setValue, EspAttribute.mk.injEq, true_and, and_true, Option.some.injEq]
  exact ⟨And.left, fun h => ⟨h, by rw [h]⟩⟩

/-- A long that is sent as a text has the number of the whole buffer. -/
lemma decode_of_readsOn (h : EspAttribute.ReadsOn datatype datacode) :
    EspAttribute.decode (withStreams lib) more k datatype datacode =
      longLongBytes (extractLongLong more) := by
  have hbytes : fitTo 8 (istringstream more) = longLongBytes (extractLongLong more) := by
    have hlen : (longLongBytes (extractLongLong more)).length = 8 := length_leBytes
    rw [istringstream, extractLongLong_takeWhile, fitTo, ← hlen, List.take_left]
  obtain ⟨rfl, rfl | rfl⟩ := h <;> exact hbytes

end LongText

end IotAgent
