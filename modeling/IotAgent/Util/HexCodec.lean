import Mathlib.Data.List.DropRight
import IotAgent.Util.CLocale
import IotAgent.Util.QueryParams

/-!
Bytes in hexadecimal digits (`str_to_hex` and `hex_str_to_vector` of `src/util/FuncUtil.cc`).

The reader takes the blanks out of a text and reads two characters at a time through a stream,
which is content with a number at their beginning. Only where there is none it gives up.

* `extractHex`: a number from a stream, in hexadecimal digits;
* `strToHex`, `hexStrToVector`: the writer and the reader;
* `hexStrToVector_eq`: what the reader makes of the pieces of a text;
* `hexCodec_iff`: what is written is read again, and the texts without an error in vain.
-/

namespace IotAgent

namespace HexCodec

open CLocale PercentCoding

/-! ### Numbers in a stream -/

def isX (c : UInt8) : Bool :=
  c = 0x58 ∨ c = 0x78

/-- `0x` is left out. -/
def cutPrefix : List UInt8 → List UInt8
  | zero :: x :: cs => if zero = 0x30 ∧ isX x then cs else zero :: x :: cs
  | cs => cs

/-- A hexadecimal digit. -/
def IsHexDigit (c : UInt8) : Prop :=
  (hexValue c).isSome = true

instance : DecidablePred IsHexDigit := fun _ => inferInstanceAs (Decidable (_ = true))

/-- The value of the digits that a text begins with; there may be none. -/
def digits (cs : List UInt8) : Option ℕ :=
  match cs.takeWhile (IsHexDigit ·) with
  | [] => none
  | ds => some (ds.foldl (fun n c => 16 * n + ((hexValue c).getD 0).toNat) 0)

/-- `ss >> std::hex >> x`, for an `unsigned short`; `none` where it fails. What is behind the
digits is left in the stream. -/
def extractHex (cs : List UInt8) : Option UInt16 :=
  let (negative, cs) := cutSign (cs.dropWhile isSpace)
  match digits (cutPrefix cs) with
  | none => none
  | some n => if n < 2 ^ 16 then some (if negative then -UInt16.ofNat n else UInt16.ofNat n)
      else none

/-! ### The writer and the reader -/

/-- `"%02X "`. -/
def formatByte (b : UInt8) : List UInt8 :=
  [hexDigit (b.toNat / 16), hexDigit (b.toNat % 16), blank]

/-- `boost::trim`. -/
def trim (s : List UInt8) : List UInt8 :=
  (s.dropWhile isSpace).rdropWhile isSpace

/-- `str_to_hex`. -/
def strToHex (fr : List UInt8) : List UInt8 :=
  trim (fr.flatMap formatByte)

/-- The loop of the reader, with what it has read. -/
def readLoop : List UInt8 → List UInt8 → List UInt8
  | [], v => v
  | [a], v =>
      match extractHex [a] with
      | none => []
      | some x => v ++ [x.toUInt8]
  | a :: b :: s, v =>
      match extractHex [a, b] with
      | none => []
      | some x => readLoop s (v ++ [x.toUInt8])

/-- `hex_str_to_vector`. -/
def hexStrToVector (str : List UInt8) : List UInt8 :=
  readLoop (str.filter (· ≠ blank)) []

/-! ### The pieces of a text -/

/-- Two characters at a time; the last piece may have one. -/
def pieces : List UInt8 → List (List UInt8)
  | [] => []
  | [a] => [[a]]
  | a :: b :: s => [a, b] :: pieces s

/-- The loop reads all the pieces, or gives up. -/
lemma readLoop_eq (s v : List UInt8) :
    readLoop s v =
      if ∀ p ∈ pieces s, (extractHex p).isSome then
        v ++ (pieces s).map fun p => ((extractHex p).getD 0).toUInt8
      else [] := by
  fun_induction readLoop s v with
  | case1 v => simp [pieces]
  | case2 v a h => simp [pieces, h]
  | case3 v a x h => simp [pieces, h]
  | case4 v a b s h => simp [pieces, h]
  | case5 v a b s x h ih => simp [pieces, h, ih]

/-- A piece begins with a number: its first character is a digit, or a blank of another kind or a
sign and the second is one; but `0x` is a number without digits. -/
def BeginsNumber : List UInt8 → Prop
  | [a] => IsHexDigit a
  | [a, b] =>
      if isSpace a ∨ a = plus ∨ a = minus then IsHexDigit b
      else IsHexDigit a ∧ ¬ (a = 0x30 ∧ isX b)
  | _ => False

instance : DecidablePred BeginsNumber
  | [] => inferInstanceAs (Decidable False)
  | [a] => inferInstanceAs (Decidable (IsHexDigit a))
  | [_, _] => inferInstanceAs (Decidable (ite _ _ _))
  | _ :: _ :: _ :: _ => inferInstanceAs (Decidable False)

variable {a b c : UInt8} {cs : List UInt8}

lemma IsHexDigit.plain (h : IsHexDigit c) : isSpace c = false ∧ c ≠ plus ∧ c ≠ minus := by
  rw [IsHexDigit, hexValue] at h
  refine ⟨?_, ?_, ?_⟩
  · rw [isSpace, decide_eq_false_iff_not]
    rintro (rfl | ⟨-, hle⟩)
    · exact absurd h (by decide)
    · split_ifs at h <;> simp_all [UInt8.le_iff_toNat_le] <;> omega
  · rintro rfl
    exact absurd h (by decide)
  · rintro rfl
    exact absurd h (by decide)

/-- There are digits where the first character is one. -/
lemma digits_isSome_iff : (digits cs).isSome ↔ ∃ c ∈ cs.head?, IsHexDigit c := by
  cases cs with
  | nil => simp [digits]
  | cons c cs =>
      rw [digits, List.takeWhile_cons]
      by_cases hc : IsHexDigit c
      · simp [hc]
      · simp [hc]

lemma foldl_digits_lt (ds : List UInt8) (n : ℕ) :
    ds.foldl (fun n c => 16 * n + ((hexValue c).getD 0).toNat) n < (n + 1) * 16 ^ ds.length := by
  have hvalue : ∀ c, ((hexValue c).getD 0).toNat < 16 := by
    intro c
    rw [hexValue]
    split_ifs <;> simp_all [UInt8.le_iff_toNat_le] <;> omega
  induction ds generalizing n with
  | nil => simp
  | cons c ds ih =>
      rw [List.foldl_cons, List.length_cons, Nat.pow_succ']
      refine (ih _).trans_le ?_
      rw [← Nat.mul_assoc]
      have hc := hvalue c
      exact Nat.mul_le_mul_right _ (by omega)

lemma digits_lt {n : ℕ} (h : digits cs = some n) : n < 16 ^ cs.length := by
  rw [digits] at h
  split at h
  · cases h
  · obtain rfl := Option.some.inj h
    have hlen := (List.takeWhile_prefix (fun c => decide (IsHexDigit c)) (l := cs)).length_le
    refine (foldl_digits_lt _ 0).trans_le ?_
    rw [Nat.zero_add, Nat.one_mul]
    exact Nat.pow_le_pow_right (by decide) hlen

lemma length_cutPrefix_le : (cutPrefix cs).length ≤ cs.length := by
  fun_cases cutPrefix cs with
  | case1 zero x cs h =>
      rw [List.length_cons, List.length_cons]
      omega
  | case2 | case3 => exact le_rfl

/-- Two characters have no number that is too great. -/
lemma extractHex_isSome_iff (h : cs.length ≤ 2) :
    (extractHex cs).isSome ↔
      ∃ c ∈ (cutPrefix (cutSign (cs.dropWhile isSpace)).2).head?, IsHexDigit c := by
  have hlen : (cutPrefix (cutSign (cs.dropWhile isSpace)).2).length ≤ 2 :=
    length_cutPrefix_le.trans (length_cutSign_le.trans
      ((List.dropWhile_suffix _).length_le.trans h))
  rw [← digits_isSome_iff, extractHex]
  dsimp only
  cases hd : digits (cutPrefix (cutSign (cs.dropWhile isSpace)).2) with
  | none => simp
  | some n =>
      have hn : n < 2 ^ 16 := by
        refine (digits_lt hd).trans_le ?_
        calc 16 ^ _ ≤ 16 ^ 2 := Nat.pow_le_pow_right (by decide) hlen
          _ ≤ 2 ^ 16 := by decide
      simp only [if_pos hn, Option.isSome_some]

/-- One character is read if it is a digit. -/
lemma head_cut_singleton :
    (∃ c ∈ (cutPrefix (cutSign ([a].dropWhile isSpace)).2).head?, IsHexDigit c) ↔
      IsHexDigit a := by
  by_cases ha : IsHexDigit a
  · obtain ⟨hspace, hplus, hminus⟩ := ha.plain
    simp [cutSign, cutPrefix, hspace, hplus, hminus]
  · refine iff_of_false ?_ ha
    rintro ⟨c, hc, hdigit⟩
    rw [List.dropWhile_cons] at hc
    split_ifs at hc
    · cases hc
    · rw [cutSign] at hc
      split_ifs at hc
      · cases hc
      · cases hc
      · obtain rfl := Option.some.inj hc
        exact ha hdigit

/-- The pieces that are read are those that begin with a number. -/
lemma extractHex_isSome_iff_beginsNumber {p s : List UInt8} (hp : p ∈ pieces s) :
    (extractHex p).isSome ↔ BeginsNumber p := by
  have hshape : (∃ a, p = [a]) ∨ ∃ a b, p = [a, b] := by
    fun_induction pieces s with
    | case1 => cases hp
    | case2 a => exact .inl ⟨a, List.mem_singleton.mp hp⟩
    | case3 a b s ih =>
        rcases List.mem_cons.mp hp with rfl | hp
        · exact .inr ⟨a, b, rfl⟩
        · exact ih hp
  rcases hshape with ⟨a, rfl⟩ | ⟨a, b, rfl⟩
  · rw [extractHex_isSome_iff (by simp), head_cut_singleton, BeginsNumber]
  · rw [extractHex_isSome_iff (by simp), BeginsNumber]
    by_cases hspace : isSpace a = true
    · rw [List.dropWhile_cons_of_pos hspace, head_cut_singleton, if_pos (.inl hspace)]
    · rw [List.dropWhile_cons_of_neg hspace, cutSign]
      by_cases hminus : a = minus
      · simp [hminus, cutPrefix]
      · by_cases hplus : a = plus
        · simp [hplus, cutPrefix, minus, plus]
        · rw [if_neg hminus, if_neg hplus, if_neg (by simp [hspace, hplus, hminus]), cutPrefix]
          by_cases hx : a = 0x30 ∧ isX b
          · simp [hx]
          · simp [hx]

/-! ### What is written -/

/-- Two digits without a blank between them. -/
def hexPair (b : UInt8) : List UInt8 :=
  [hexDigit (b.toNat / 16), hexDigit (b.toNat % 16)]

lemma filter_dropWhile_isSpace {s : List UInt8} (h : ∀ c ∈ s, isSpace c → c = blank) :
    (s.dropWhile isSpace).filter (· ≠ blank) = s.filter (· ≠ blank) := by
  have hnone : (s.takeWhile isSpace).filter (· ≠ blank) = [] :=
    List.filter_eq_nil_iff.mpr fun c hc => by
      have hblank := h c (List.takeWhile_prefix _ |>.subset hc) (List.mem_takeWhile_imp hc)
      simp [hblank]
  conv_rhs => rw [← List.takeWhile_append_dropWhile (p := isSpace) (l := s)]
  rw [List.filter_append, hnone, List.nil_append]

/-- Where all white space is blanks, the reader does not see the trimming. -/
lemma filter_trim {s : List UInt8} (h : ∀ c ∈ s, isSpace c → c = blank) :
    (trim s).filter (· ≠ blank) = s.filter (· ≠ blank) := by
  have hrev : ∀ c ∈ (s.dropWhile isSpace).reverse, isSpace c → c = blank := fun c hc =>
    h c ((List.dropWhile_suffix _).subset (List.mem_reverse.mp hc))
  rw [trim, List.rdropWhile, List.filter_reverse, filter_dropWhile_isSpace hrev,
    List.filter_reverse, List.reverse_reverse, filter_dropWhile_isSpace h]

lemma plain_hexDigit : ∀ n < 16, isSpace (hexDigit n) = false ∧ hexDigit n ≠ blank := by
  decide

lemma extractHex_hexDigits :
    ∀ x < 16, ∀ y < 16, extractHex [hexDigit x, hexDigit y] = some (UInt16.ofNat (16 * x + y)) := by
  decide +kernel

lemma extractHex_hexPair (b : UInt8) : extractHex (hexPair b) = some (UInt16.ofNat b.toNat) := by
  have hb := b.toNat_lt
  rw [hexPair, extractHex_hexDigits _ (by omega) _ (by omega), Nat.div_add_mod]

/-- What is left of a text for the reader are the pairs. -/
lemma filter_strToHex (fr : List UInt8) :
    (strToHex fr).filter (· ≠ blank) = fr.flatMap hexPair := by
  have hplain : ∀ b : UInt8, (isSpace (hexDigit (b.toNat / 16)) = false ∧
      hexDigit (b.toNat / 16) ≠ blank) ∧ isSpace (hexDigit (b.toNat % 16)) = false ∧
      hexDigit (b.toNat % 16) ≠ blank := fun b =>
    ⟨plain_hexDigit _ (by have := b.toNat_lt; omega), plain_hexDigit _ (by omega)⟩
  rw [strToHex, filter_trim]
  · rw [List.filter_flatMap]
    refine List.flatMap_congr fun b _ => ?_
    obtain ⟨⟨-, hhigh⟩, -, hlow⟩ := hplain b
    simp [formatByte, hexPair, hhigh, hlow]
  · intro c hc hspace
    obtain ⟨b, -, hcb⟩ := List.mem_flatMap.mp hc
    obtain ⟨⟨hhigh, -⟩, hlow, -⟩ := hplain b
    simp only [formatByte, List.mem_cons, List.not_mem_nil, or_false] at hcb
    rcases hcb with rfl | rfl | rfl
    · rw [hhigh] at hspace
      cases hspace
    · rw [hlow] at hspace
      cases hspace
    · rfl

lemma readLoop_flatMap_hexPair (fr v : List UInt8) : readLoop (fr.flatMap hexPair) v = v ++ fr := by
  induction fr generalizing v with
  | nil => simp [readLoop]
  | cons b fr ih =>
      have hx := extractHex_hexPair b
      rw [hexPair] at hx
      rw [List.flatMap_cons, hexPair, List.cons_append, List.cons_append, List.nil_append, readLoop,
        hx]
      dsimp only
      rw [ih, List.append_assoc]
      simp

/-- What is written is read again. -/
theorem hexStrToVector_strToHex (fr : List UInt8) : hexStrToVector (strToHex fr) = fr := by
  rw [hexStrToVector, filter_strToHex, readLoop_flatMap_hexPair, List.nil_append]

/-! ### What is refused -/

/-- A sequence of pairs of digits. -/
def IsHexPairs (s : List UInt8) : Prop :=
  ∀ p ∈ pieces s, ∃ a b, p = [a, b] ∧ IsHexDigit a ∧ IsHexDigit b

/-- A text that is no sequence of pairs, blanks aside, gives no byte. -/
def RefusesOthers (str : List UInt8) : Prop :=
  ¬ IsHexPairs (str.filter (· ≠ blank)) → hexStrToVector str = []

/-- A text that has a piece is read to no byte exactly if one of its pieces is not read. -/
lemma hexStrToVector_eq_nil_iff {str : List UInt8} (h : pieces (str.filter (· ≠ blank)) ≠ []) :
    hexStrToVector str = [] ↔ ∃ p ∈ pieces (str.filter (· ≠ blank)), ¬ BeginsNumber p := by
  rw [hexStrToVector, readLoop_eq]
  split
  · next hall =>
      refine iff_of_false (by simpa using h) ?_
      rintro ⟨p, hp, hno⟩
      exact hno ((extractHex_isSome_iff_beginsNumber hp).mp (hall p hp))
  · next hall =>
      refine iff_of_true rfl ?_
      obtain ⟨p, hp, hno⟩ : ∃ p ∈ pieces (str.filter (· ≠ blank)), ¬ (extractHex p).isSome := by
        simpa only [not_forall, exists_prop] using hall
      exact ⟨p, hp, fun hb => hno ((extractHex_isSome_iff_beginsNumber hp).mpr hb)⟩

/-- **The codec**: what is written is read again; and a text other than pairs is refused exactly
if one of its pieces begins with no number. -/
theorem hexCodec_iff (str : List UInt8) :
    (∀ fr, hexStrToVector (strToHex fr) = fr) ∧
      (RefusesOthers str ↔ IsHexPairs (str.filter (· ≠ blank)) ∨
        ∃ p ∈ pieces (str.filter (· ≠ blank)), ¬ BeginsNumber p) := by
  refine ⟨hexStrToVector_strToHex, ?_⟩
  by_cases hpairs : IsHexPairs (str.filter (· ≠ blank))
  · exact iff_of_true (fun h => absurd hpairs h) (.inl hpairs)
  · have hne : pieces (str.filter (· ≠ blank)) ≠ [] := by
      intro hnil
      refine hpairs fun p hp => ?_
      rw [hnil] at hp
      cases hp
    rw [RefusesOthers, imp_iff_right hpairs, or_iff_right hpairs, hexStrToVector_eq_nil_iff hne]

/-- `1G` is read as a one. -/
theorem not_refusesOthers_oneG : ¬ RefusesOthers [0x31, 0x47] := by
  intro h
  have hread : hexStrToVector [0x31, 0x47] = [1] := by decide
  have hpairs : ¬ IsHexPairs [0x31, 0x47] := by
    intro hall
    obtain ⟨a, b, heq, -, hb⟩ := hall _ (List.mem_singleton.mpr rfl)
    cases heq
    exact absurd hb (by decide)
  rw [h hpairs] at hread
  cases hread

end HexCodec

end IotAgent
