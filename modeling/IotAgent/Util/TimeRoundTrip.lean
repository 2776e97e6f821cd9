import IotAgent.Util.TimeOrder

/-!
What is read of a time that was written (`RiotISO8601::toString` and the constructor of texts in
`src/util/RiotISO8601.cc`).

The zone is written as a sign, the hours, a colon and the minutes, and it is read from the last
six characters. An offset without hours is not written at all, the minutes have a sign of their
own, and a zone of more than six characters is not found.

* `DateArithmetic.Reads`: what the library says of the texts of offsets and of times;
* `offsetText`: a zone as it is written, with its length and its characters;
* `ofText_offset`, `ofText_unstated`, `ofText_utc`: what is read of the three kinds of zone;
* `roundTrips_iff_writtenWhole`: the times that are read as they were.
-/

namespace IotAgent

/-! ### Hours and minutes of a span -/

lemma TimeDuration.eq_iff {d e : TimeDuration} : d = e ↔ d.seconds = e.seconds := by
  obtain ⟨s⟩ := d
  obtain ⟨t⟩ := e
  rw [TimeDuration.mk.injEq]

/-- A span is its hours and minutes if it has whole minutes. -/
lemma TimeDuration.seconds_eq_iff (d : TimeDuration) :
    d.hours * 3600 + d.minutes * 60 = d.seconds ↔ 60 ∣ d.seconds := by
  obtain ⟨s⟩ := d
  have hnat : ∀ n : ℕ, hours ⟨n⟩ = (n / 3600 : ℕ) ∧ minutes ⟨n⟩ = (n / 60 % 60 : ℕ) :=
    fun n => ⟨rfl, rfl⟩
  obtain ⟨n, rfl | rfl⟩ := s.eq_nat_or_neg
  · rw [(hnat n).1, (hnat n).2]
    simp only
    omega
  · rw [hours_neg, minutes_neg, (hnat n).1, (hnat n).2]
    simp only
    omega

lemma TimeDuration.natAbs_minutes_lt (d : TimeDuration) : d.minutes.natAbs < 60 := by
  rw [minutes, Int.natAbs_tmod]
  exact Nat.mod_lt _ (by decide)

/-! ### The text of an offset -/

/-- A sign, the hours, and the minutes with their own sign. -/
def offsetText (west : Bool) (h : ℕ) (m : ℤ) : List Char :=
  (if west then '-' else '+') :: (formatInt 2 h ++ ':' :: formatInt 2 m)

/-- A local time with hours has its offset written. -/
lemma zoneText_of_hours {P : Type} {r : RiotISO8601 P} (hl : r.isLocal = true)
    (hh : r.dUTC.hours ≠ 0) :
    r.zoneText = offsetText (r.dUTC.hours < 0) r.dUTC.hours.natAbs r.dUTC.minutes := by
  obtain ⟨p, d, l⟩ := r
  obtain rfl : l = true := hl
  rw [zoneText_offset, if_pos hh, offsetText]
  by_cases hpos : 0 < d.hours
  · rw [if_pos hpos, Int.natAbs_of_nonneg hpos.le]
    simp [hpos.le.not_gt]
  · have hneg : d.hours < 0 := lt_of_le_of_ne (not_lt.mp hpos) hh
    rw [if_neg hpos, formatInt_of_neg 2 hneg]
    simp [hneg]

lemma length_formatInt (width n : ℕ) :
    (formatInt width n).length = max width (Nat.toDigits 10 n).length := by
  rw [formatInt_natCast, List.length_leftpad]

lemma isDigit_of_mem_formatInt {width n : ℕ} {c : Char} (hc : c ∈ formatInt width n) :
    c.isDigit = true := by
  rw [formatInt_natCast, List.leftpad, List.mem_append] at hc
  obtain hc | hc := hc
  · rw [List.eq_of_mem_replicate hc]
    rfl
  · exact Nat.isDigit_of_mem_toDigits (by decide) (by decide) hc

lemma length_hours_eq_two_iff (h : ℕ) : (formatInt 2 h).length = 2 ↔ h < 100 := by
  have hle : (Nat.toDigits 10 h).length ≤ 2 ↔ h < 10 ^ 2 :=
    Nat.length_toDigits_le_iff (by decide) (by decide)
  rw [length_formatInt]
  omega

/-- The minutes have two characters unless they are ten or more to the west. -/
lemma length_minutes {m : ℤ} (hm : m.natAbs < 60) :
    (formatInt 2 m).length = if -10 < m then 2 else 3 := by
  have htwo := (length_hours_eq_two_iff m.natAbs).mpr (by omega)
  by_cases hneg : m < 0
  · have hone : (Nat.toDigits 10 m.natAbs).length ≤ 1 ↔ m.natAbs < 10 ^ 1 :=
      Nat.length_toDigits_le_iff (by decide) (by decide)
    rw [length_formatInt] at htwo
    rw [formatInt_of_neg 1 hneg, List.length_cons, length_formatInt]
    split_ifs <;> omega
  · rw [if_pos (by omega), ← Int.natAbs_of_nonneg (not_lt.mp hneg), htwo]

/-- The zone has six characters or more, and six if the hours and the minutes have two. -/
lemma length_offsetText (west : Bool) {h : ℕ} {m : ℤ} (hm : m.natAbs < 60) :
    6 ≤ (offsetText west h m).length ∧
      ((offsetText west h m).length = 6 ↔ h < 100 ∧ -10 < m) := by
  have hminutes := length_minutes hm
  have hhours := length_hours_eq_two_iff h
  have htwo : 2 ≤ (formatInt 2 h).length := by rw [length_formatInt]; exact le_max_left _ _
  rw [offsetText, List.length_cons, List.length_append, List.length_cons]
  split_ifs at hminutes <;> omega

/-- The letter of the universal time is not in a zone with an offset. -/
lemma not_mem_offsetText (west : Bool) (h : ℕ) (m : ℤ) : 'Z' ∉ offsetText west h m := by
  have hdigits : ∀ width n : ℕ, 'Z' ∉ formatInt width n :=
    fun width n hc => absurd (isDigit_of_mem_formatInt hc) (by decide)
  have hminutes : 'Z' ∉ formatInt 2 m := by
    by_cases hneg : m < 0
    · rw [formatInt_of_neg 1 hneg, List.mem_cons, not_or]
      exact ⟨by decide, hdigits 1 _⟩
    · rw [← Int.natAbs_of_nonneg (not_lt.mp hneg)]
      exact hdigits 2 _
  cases west <;> simp [offsetText, hdigits, hminutes]

/-- In a longer zone the sixth character from the end is one of the hours. -/
lemma sixth_of_long (west : Bool) {h : ℕ} {m : ℤ} (hm : m.natAbs < 60)
    (hlong : (offsetText west h m).length ≠ 6) :
    ∃ c, (offsetText west h m)[(offsetText west h m).length - 6]? = some c ∧
      c.isDigit = true := by
  have hsix := (length_offsetText west (h := h) hm).1
  have hminutes := length_minutes hm
  have hlen : (offsetText west h m).length
      = (formatInt 2 h).length + ((formatInt 2 m).length + 1) + 1 := by
    rw [offsetText, List.length_cons, List.length_append, List.length_cons]
  obtain ⟨k, hk⟩ : ∃ k, (offsetText west h m).length - 6 = k + 1 :=
    ⟨(offsetText west h m).length - 7, by omega⟩
  have hin : k < (formatInt 2 h).length := by split_ifs at hminutes <;> omega
  refine ⟨(formatInt 2 h)[k], ?_, isDigit_of_mem_formatInt (List.getElem_mem hin)⟩
  rw [hk, offsetText, List.getElem?_cons_succ, List.getElem?_append_left hin,
    List.getElem?_eq_getElem hin]

namespace DateArithmetic

variable {P : Type} (D : DateArithmetic P)

/-! ### What is read -/

/-- What the library says of texts. The numbers of an offset are found between the separators,
of which the hyphen is one, and a point is written with its seconds at the end. -/
structure Reads : Prop extends D.Lawful where
  duration : ∀ (west : Bool) (h : ℕ) (m : ℤ), h < 100 → m.natAbs < 60 →
    D.durationFromString (offsetText west h m)
      = .ok ⟨(if west then -1 else 1) * (h * 3600 + m.natAbs * 60)⟩
  six_le_length : ∀ p, 6 ≤ (D.toIsoExtendedString p).toList.length
  seconds_at_end : ∀ p, ∀ c ∈ lastSix (D.toIsoExtendedString p).toList, c.isDigit ∨ c = ':'

/-- What is read of a time that was written is a time of the same instant and offset. -/
def RoundTrips (r : RiotISO8601 P) : Prop :=
  ∃ y, D.ofText (D.toString r).toList = .ok y ∧ D.utcInstant y = D.utcInstant r ∧
    y.dUTC = r.dUTC

/-- The offset is none, or one of a local time in whole minutes with one or two digits of hours,
and with one digit of minutes where it is to the west. -/
def WrittenWhole (r : RiotISO8601 P) : Prop :=
  r.dUTC.seconds = 0 ∨
    r.isLocal = true ∧ r.dUTC.hours ≠ 0 ∧ r.dUTC.hours.natAbs < 100 ∧ -10 < r.dUTC.minutes ∧
      60 ∣ r.dUTC.seconds

variable {D}

/-- The end of a text is that of its zone. -/
lemma sixth_append (pre : List Char) {zone : List Char} (hlen : 6 ≤ zone.length) :
    (pre ++ zone)[(pre ++ zone).length - 6]? = zone[zone.length - 6]? := by
  rw [List.length_append, Nat.add_sub_assoc hlen, List.getElem?_append_right (by omega),
    Nat.add_sub_cancel_left]

lemma getLast?_append_offsetText (pre : List Char) (west : Bool) (h : ℕ) (m : ℤ) :
    (pre ++ offsetText west h m).getLast? ≠ some 'Z' := by
  rw [List.getLast?_append]
  cases hlast : (offsetText west h m).getLast? with
  | none => cases List.getLast?_eq_none_iff.mp hlast
  | some c =>
      rw [Option.some_or]
      rintro ⟨⟩
      exact not_mem_offsetText west h m (List.mem_of_getLast? hlast)

/-- A text with no zone that is found is a time without an offset. -/
lemma dUTC_of_unsigned {iso : List Char} {y : RiotISO8601 P} (hz : iso.getLast? ≠ some 'Z')
    (hs : ¬ Signed iso) (hy : D.ofText iso = .ok y) : y.dUTC = ⟨0⟩ := by
  rw [DateLib.ofText, D.readZone_of_not_utc hz] at hy
  by_cases hlen : iso.length < 6
  · rw [if_pos hlen] at hy
    cases hy
  · rw [if_neg hlen, if_neg hs] at hy
    simp only [bind, Except.bind] at hy
    cases hiso : D.fromIsoString (withoutSeparators (iso.take iso.length)) with
    | ok p =>
        rw [hiso] at hy
        obtain rfl := Except.ok.inj hy
        rfl
    | error what =>
        rw [hiso] at hy
        cases hy

section RoundTrip

variable (hD : D.Reads)

include hD

/-- A point that is written alone is a local time without an offset. -/
lemma ofText_unstated (p : P) : D.ofText (D.toIsoExtendedString p).toList = .ok ⟨p, ⟨0⟩, true⟩ := by
  have hlen := hD.six_le_length p
  set iso := (D.toIsoExtendedString p).toList with hiso
  have hin : ∀ c, iso[iso.length - 6]? = some c ∨ iso.getLast? = some c →
      c.isDigit = true ∨ c = ':' := by
    intro c hc
    refine hD.seconds_at_end p c ?_
    rw [lastSix, ← hiso]
    rcases hc with hc | hc
    · rw [← List.head?_drop] at hc
      exact List.mem_of_head? hc
    · have hlast : (iso.drop (iso.length - 6)).getLast? = some c := by
        rw [List.getLast?_drop, if_neg (by omega), hc]
      exact List.mem_of_getLast? hlast
  have hz : iso.getLast? ≠ some 'Z' := fun h => absurd (hin 'Z' (.inr h)) (by decide)
  have hs : ¬ Signed iso := by
    rintro ⟨-, h | h⟩
    · exact absurd (hin '+' (.inl h)) (by decide)
    · exact absurd (hin '-' (.inl h)) (by decide)
  rw [DateLib.ofText, D.readZone_of_not_utc hz, if_neg (by omega), if_neg hs]
  simp only [bind, Except.bind, List.take_length, hiso, hD.fromIso_toIso]
  rfl

/-- A zone of six characters is read with the time before it. -/
lemma ofText_offset (p : P) (west : Bool) {h : ℕ} {m : ℤ} (hh : h < 100)
    (hm : m.natAbs < 60) (hten : -10 < m) :
    D.ofText ((D.toIsoExtendedString p).toList ++ offsetText west h m)
      = .ok ⟨p, ⟨(if west then -1 else 1) * (h * 3600 + m.natAbs * 60)⟩, true⟩ := by
  set pre := (D.toIsoExtendedString p).toList with hpre
  have hsix : (offsetText west h m).length = 6 :=
    (length_offsetText west hm).2.mpr ⟨hh, hten⟩
  have hlen : (pre ++ offsetText west h m).length = pre.length + 6 := by
    rw [List.length_append, hsix]
  have hlast : lastSix (pre ++ offsetText west h m) = offsetText west h m := by
    rw [lastSix, hlen, Nat.add_sub_cancel, List.drop_left]
  have htake : (pre ++ offsetText west h m).take (pre.length + 6 - 6) = pre := by
    rw [Nat.add_sub_cancel, List.take_left]
  have hs : Signed (pre ++ offsetText west h m) := by
    refine ⟨by omega, ?_⟩
    rw [sixth_append pre hsix.ge, hsix, offsetText]
    cases west <;> simp
  rw [DateLib.ofText, D.readZone_of_not_utc (getLast?_append_offsetText pre west h m),
    if_neg (by omega), if_pos hs, hlast, hD.duration west h m hh hm, hlen]
  have hread : D.fromIsoString (withoutSeparators pre) = .ok p := hD.fromIso_toIso p
  simp only [bind, Except.bind, htake, hread]
  rfl

omit hD in
/-- A time of which its point is read is read as it was if its offset is read. -/
lemma roundTrips_iff_of_read {r : RiotISO8601 P} {d : TimeDuration} {l : Bool}
    (hread : D.ofText ((D.toIsoExtendedString r.ptime).toList ++ r.zoneText)
      = .ok ⟨r.ptime, d, l⟩) : D.RoundTrips r ↔ d = r.dUTC := by
  have htext : (D.toString r).toList = (D.toIsoExtendedString r.ptime).toList ++ r.zoneText := by
    rw [DateLib.toString, String.toList_append, String.toList_ofList]
  rw [RoundTrips, htext, hread]
  constructor
  · rintro ⟨y, hy, -, hoff⟩
    obtain rfl := Except.ok.inj hy
    exact hoff
  · rintro rfl
    exact ⟨_, rfl, rfl, rfl⟩

/-- Without an offset in the text the time is read as it was if it has none. -/
lemma roundTrips_iff_of_not_offset {r : RiotISO8601 P}
    (hoff : ¬ (r.isLocal = true ∧ r.dUTC.hours ≠ 0)) :
    D.RoundTrips r ↔ r.dUTC.seconds = 0 := by
  obtain ⟨l, hread⟩ : ∃ l, D.ofText ((D.toIsoExtendedString r.ptime).toList ++ r.zoneText)
      = .ok ⟨r.ptime, ⟨0⟩, l⟩ := by
    by_cases hutc : r.dUTC.hours = 0 ∧ r.isLocal = false
    · rw [RiotISO8601.zoneText, if_pos hutc]
      exact ⟨false, ofText_utc hD.toLawful r.ptime⟩
    · rw [RiotISO8601.zoneText, if_neg hutc, if_neg hoff, List.append_nil]
      exact ⟨true, ofText_unstated hD r.ptime⟩
  rw [roundTrips_iff_of_read hread, TimeDuration.eq_iff, eq_comm]

/-- An offset that is written is read if it has two digits of hours, at most one of minutes
behind a sign, and whole minutes. -/
lemma roundTrips_iff_of_offset {r : RiotISO8601 P} (hl : r.isLocal = true)
    (hh : r.dUTC.hours ≠ 0) :
    D.RoundTrips r ↔
      r.dUTC.hours.natAbs < 100 ∧ -10 < r.dUTC.minutes ∧ 60 ∣ r.dUTC.seconds := by
  have hm := r.dUTC.natAbs_minutes_lt
  have hzone := zoneText_of_hours hl hh
  by_cases hsix : r.dUTC.hours.natAbs < 100 ∧ -10 < r.dUTC.minutes
  · -- the sign of the hours is that of the span, and the minutes are read without theirs
    have hread := ofText_offset hD r.ptime (r.dUTC.hours < 0) hsix.1 hm hsix.2
    rw [← hzone] at hread
    have hsum : (if (decide (r.dUTC.hours < 0)) = true then (-1 : ℤ) else 1) *
        (r.dUTC.hours.natAbs * 3600 + r.dUTC.minutes.natAbs * 60)
          = r.dUTC.hours * 3600 + r.dUTC.minutes * 60 := by
      by_cases hneg : r.dUTC.hours < 0
      · have hs : r.dUTC.seconds ≤ 0 :=
          le_of_not_ge fun hs => hneg.not_ge (TimeDuration.sign_of_nonneg hs).1
        have hmin := (TimeDuration.sign_of_nonpos hs).2
        rw [if_pos (decide_eq_true hneg)]
        omega
      · have hs : 0 ≤ r.dUTC.seconds := by
          by_contra hs
          exact hneg (lt_of_le_of_ne (TimeDuration.sign_of_nonpos (not_le.mp hs).le).1 hh)
        have hmin := (TimeDuration.sign_of_nonneg hs).2
        rw [if_neg (by simpa using hneg)]
        omega
    rw [roundTrips_iff_of_read hread, hsum, TimeDuration.eq_iff, TimeDuration.seconds_eq_iff,
      and_iff_right hsix.1, and_iff_right hsix.2]
  · -- the zone is too long to be found, so that no offset is read
    have hlong : (offsetText (r.dUTC.hours < 0) r.dUTC.hours.natAbs r.dUTC.minutes).length ≠ 6 :=
      fun h => hsix ((length_offsetText _ hm).2.mp h)
    obtain ⟨c, hc, hdigit⟩ := sixth_of_long _ hm hlong
    refine iff_of_false ?_ (fun h => hsix ⟨h.1, h.2.1⟩)
    rintro ⟨y, hy, -, hoff⟩
    rw [DateLib.toString, String.toList_append, String.toList_ofList, hzone] at hy
    have hs : ¬ Signed ((D.toIsoExtendedString r.ptime).toList ++
        offsetText (r.dUTC.hours < 0) r.dUTC.hours.natAbs r.dUTC.minutes) := by
      rintro ⟨-, hsign⟩
      rw [sixth_append _ (length_offsetText _ hm).1, hc] at hsign
      obtain ⟨⟨⟩⟩ | ⟨⟨⟩⟩ := hsign <;> cases hdigit
    have hzero := dUTC_of_unsigned (getLast?_append_offsetText _ _ _ _) hs hy
    rw [hoff] at hzero
    exact hh (by rw [hzero]; rfl)

/-- A time is read as it was if its offset is written whole. -/
theorem roundTrips_iff_writtenWhole (r : RiotISO8601 P) : D.RoundTrips r ↔ WrittenWhole r := by
  rw [WrittenWhole]
  by_cases hoff : r.isLocal = true ∧ r.dUTC.hours ≠ 0
  · have hne : r.dUTC.seconds ≠ 0 := by
      intro hzero
      exact hoff.2 (by rw [TimeDuration.hours, hzero]; rfl)
    rw [roundTrips_iff_of_offset hD hoff.1 hoff.2, or_iff_right hne, and_iff_right hoff.1,
      and_iff_right hoff.2]
  · rw [roundTrips_iff_of_not_offset hD hoff]
    exact ⟨.inl, fun h => h.resolve_right fun h => hoff ⟨h.1, h.2.1⟩⟩

end RoundTrip

/-! ### The hours of a day -/

lemma ofDigitChars_formatInt (width n : ℕ) :
    Nat.ofDigitChars 10 (formatInt width n) 0 = n := by
  rw [formatInt_natCast, List.leftpad, Nat.ofDigitChars_append, Nat.ofDigitChars_replicate_zero,
    Nat.mul_zero, Nat.ofDigitChars_ten_toDigits]

/-- A number is one piece, whatever stands behind the separator after it. -/
lemma splitOnP_formatInt (width n : ℕ) (rest : List Char) :
    (formatInt width n).splitOnP (· ∈ [':', '-', ',', '.']) = [formatInt width n] ∧
    (formatInt width n ++ ':' :: rest).splitOnP (· ∈ [':', '-', ',', '.'])
      = formatInt width n :: rest.splitOnP (· ∈ [':', '-', ',', '.']) := by
  have hplain : ∀ c ∈ formatInt width n, decide (c ∈ [':', '-', ',', '.']) = false := by
    intro c hc
    rw [decide_eq_false_iff_not]
    intro hsep
    have hdigit := isDigit_of_mem_formatInt hc
    simp only [List.mem_cons, List.not_mem_nil, or_false] at hsep
    rcases hsep with rfl | rfl | rfl | rfl <;> cases hdigit
  exact ⟨List.splitOnP_eq_singleton hplain,
    List.splitOnP_append_cons_of_forall_mem hplain ':' (by decide) rest⟩

/-- The numbers of an offset are found between its separators. -/
lemma sampleDuration_offsetText (west : Bool) (h : ℕ) (m : ℤ) :
    sampleDuration (offsetText west h m)
      = .ok ⟨(if west then -1 else 1) * (h * 3600 + m.natAbs * 60)⟩ := by
  have hdigits : ∀ width n : ℕ, (formatInt width n).all Char.isDigit = true := fun width n =>
    List.all_eq_true.mpr fun c hc => isDigit_of_mem_formatInt hc
  have hne : ∀ width n : ℕ, formatInt width n ≠ [] := fun width n hnil => by
    have hlen := length_formatInt width n
    have hpos := Nat.length_toDigits_pos (b := 10) (n := n)
    rw [hnil, List.length_nil] at hlen
    omega
  obtain ⟨width, hpieces⟩ : ∃ width : ℕ,
      ((offsetText west h m).tail.splitOnP (· ∈ [':', '-', ',', '.'])).filter (· ≠ [])
        = [formatInt 2 h, formatInt width m.natAbs] := by
    rw [offsetText, List.tail_cons, (splitOnP_formatInt 2 h _).2]
    by_cases hneg : m < 0
    · refine ⟨1, ?_⟩
      rw [formatInt_of_neg 1 hneg, List.splitOnP_cons_eq_if_modifyHead, if_pos (by decide),
        (splitOnP_formatInt 1 m.natAbs []).1]
      generalize m.natAbs = k
      simp [hne]
    · obtain ⟨k, rfl⟩ := Int.eq_ofNat_of_zero_le (not_lt.mp hneg)
      refine ⟨2, ?_⟩
      rw [(splitOnP_formatInt 2 k []).1]
      simp [hne]
  have hsign : (offsetText west h m).head? = some (if west then '-' else '+') := rfl
  rw [sampleDuration, hpieces, hsign]
  generalize m.natAbs = k
  cases west <;> simp [hdigits, ofDigitChars_formatInt]

lemma toList_sampleDay (h : Fin 24) :
    (sampleDay.toIsoExtendedString h).toList = sampleHour h :=
  String.toList_ofList

lemma sampleDay_reads : sampleDay.Reads where
  toLawful := sampleDay_lawful
  duration west h m _ _ := sampleDuration_offsetText west h m
  six_le_length p := by
    have hlen : ∀ h, 6 ≤ (sampleHour h).length := by decide +kernel
    rw [toList_sampleDay]
    exact hlen p
  seconds_at_end p := by
    have hend : ∀ h, (lastSix (sampleHour h)).Forall fun c => c.isDigit ∨ c = ':' := by
      decide +kernel
    rw [toList_sampleDay]
    exact List.forall_iff_forall_mem.mp (hend p)

/-- Five hours and a half to the east are written and read. -/
theorem roundTrips_halfPastFive : sampleDay.RoundTrips ⟨10, ⟨19800⟩, true⟩ :=
  (roundTrips_iff_writtenWhole sampleDay_reads _).mpr (.inr (by decide))

/-- Half an hour to the east is not written, and three hours and a half to the west are written
with a second hyphen. -/
theorem not_roundTrips_halfHours :
    ¬ sampleDay.RoundTrips ⟨10, ⟨1800⟩, true⟩ ∧ ¬ sampleDay.RoundTrips ⟨10, ⟨-12600⟩, true⟩ := by
  refine ⟨fun h => ?_, fun h => ?_⟩
  · rw [roundTrips_iff_of_not_offset sampleDay_reads (by decide)] at h
    revert h
    decide
  · rw [roundTrips_iff_of_offset sampleDay_reads rfl (by decide)] at h
    revert h
    decide

end DateArithmetic

end IotAgent
