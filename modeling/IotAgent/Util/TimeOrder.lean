import IotAgent.Util.RiotISO8601

/-!
The comparison of times (`RiotISO8601::toUTC` and the operators of `src/util/RiotISO8601.cc`).

Two times are compared by their points in universal time. The point is found by writing the
difference and reading it again, and only if the offset has hours or the time is universal; and
the operators have their operands the other way round.

* `DateArithmetic`: what is subtracted and compared, over the library of dates;
* `toUTC`, `lt`, `gt`, `eq`: the operators;
* `normalises_iff`: the times of which the whole offset is subtracted;
* `comparison_of_normalises`: what an operator compares;
* `orderAgrees_iff_sameInstant`: the order of the operators is that of the instants for two
  times of one instant, and for no others.
-/

namespace IotAgent

/-! ### Points in time -/

/-- The library of dates with the difference of a point and a span, which is an error where it
is out of the years of the library. Points are compared by their microseconds. -/
structure DateArithmetic (P : Type) extends DateLib P where
  minus : P → TimeDuration → Except String P
  micros : P → ℤ

/-- What the library says of its own: a point that is written without separators is read again,
and a span is subtracted as it is. -/
structure DateArithmetic.Lawful {P : Type} (D : DateArithmetic P) : Prop where
  fromIso_toIso : ∀ p,
    D.fromIsoString (withoutSeparators (D.toIsoExtendedString p).toList) = .ok p
  micros_minus : ∀ {p d q}, D.minus p d = .ok q → D.micros q = D.micros p - d.seconds * 1000000

/-- The time is universal or has an offset of an hour or more. -/
def RiotISO8601.Shifted {P : Type} (r : RiotISO8601 P) : Prop :=
  r.isLocal = false ∨ r.isLocal = true ∧ r.dUTC.hours ≠ 0

instance {P : Type} (r : RiotISO8601 P) : Decidable r.Shifted :=
  inferInstanceAs (Decidable (_ ∨ _))

namespace DateArithmetic

variable {P : Type} (D : DateArithmetic P)

/-! ### The operators -/

/-- `toUTC`. The difference is written and read again. -/
def toUTC (r : RiotISO8601 P) : Except Stop (RiotISO8601 P) :=
  if r.Shifted then
    match D.minus r.ptime r.dUTC with
    | .ok q => D.ofText ((D.toIsoExtendedString q).toList ++ ['Z'])
    | .error what => .error (.other what)
  else .ok r

/-- The comparison of the argument with the object, both in universal time. -/
def comparison (c : ℤ → ℤ → Bool) (r iso : RiotISO8601 P) : Except Stop Bool := do
  let obj ← D.toUTC r
  let objIso ← D.toUTC iso
  return c (D.micros objIso.ptime) (D.micros obj.ptime)

/-- `operator<`. -/
def lt : RiotISO8601 P → RiotISO8601 P → Except Stop Bool := D.comparison fun m n => m < n

/-- `operator>`. -/
def gt : RiotISO8601 P → RiotISO8601 P → Except Stop Bool := D.comparison fun m n => m > n

/-- `operator==`. -/
def eq : RiotISO8601 P → RiotISO8601 P → Except Stop Bool := D.comparison fun m n => m = n

/-! ### Instants -/

/-- The instant of a time in universal time, in microseconds. -/
def utcInstant (r : RiotISO8601 P) : ℤ := D.micros r.ptime - r.dUTC.seconds * 1000000

/-- `toUTC` finds the instant. -/
def Normalises (r : RiotISO8601 P) : Prop :=
  ∃ u, D.toUTC r = .ok u ∧ D.micros u.ptime = D.utcInstant r

/-- `toUTC` subtracts the whole offset of both times, and the operators have the order of the
instants. -/
structure OrderAgrees (a b : RiotISO8601 P) : Prop where
  left : D.Normalises a
  right : D.Normalises b
  lt_iff : D.lt a b = .ok (decide (D.utcInstant a < D.utcInstant b))
  gt_iff : D.gt a b = .ok (decide (D.utcInstant a > D.utcInstant b))
  eq_iff : D.eq a b = .ok (decide (D.utcInstant a = D.utcInstant b))

/-- An offset that is not subtracted is zero, and one that is subtracted leaves the years of the
library to no side. -/
def OffsetTaken (r : RiotISO8601 P) : Prop :=
  if r.Shifted then ∃ q, D.minus r.ptime r.dUTC = .ok q else r.dUTC.seconds = 0

section Operators

variable {D} (hD : D.Lawful)

include hD

/-- A point that is written with the letter of the universal time is read again. -/
lemma ofText_utc (q : P) :
    D.ofText ((D.toIsoExtendedString q).toList ++ ['Z']) = .ok ⟨q, ⟨0⟩, false⟩ := by
  have hz : ((D.toIsoExtendedString q).toList ++ ['Z']).getLast? = some 'Z' := by simp
  have htake : ((D.toIsoExtendedString q).toList ++ ['Z']).take
      (((D.toIsoExtendedString q).toList ++ ['Z']).length - 1)
        = (D.toIsoExtendedString q).toList := by
    simp
  rw [DateLib.ofText, D.readZone_utc hz]
  simp only [bind, Except.bind, htake, hD.fromIso_toIso]
  rfl

lemma toUTC_of_minus {r : RiotISO8601 P} {q : P} (hs : r.Shifted)
    (hq : D.minus r.ptime r.dUTC = .ok q) : D.toUTC r = .ok ⟨q, ⟨0⟩, false⟩ := by
  rw [toUTC, if_pos hs, hq]
  exact ofText_utc hD q

/-- `toUTC` finds the instant if it takes the whole offset. -/
lemma normalises_iff (r : RiotISO8601 P) : D.Normalises r ↔ D.OffsetTaken r := by
  rw [OffsetTaken]
  by_cases hs : r.Shifted
  · rw [if_pos hs]
    cases hq : D.minus r.ptime r.dUTC with
    | ok q =>
        refine iff_of_true ⟨_, toUTC_of_minus hD hs hq, ?_⟩ ⟨q, rfl⟩
        exact hD.micros_minus hq
    | error what =>
        refine iff_of_false (fun ⟨u, hu, _⟩ => ?_) (fun ⟨q, hq⟩ => by cases hq)
        rw [toUTC, if_pos hs, hq] at hu
        cases hu
  · have hself : D.toUTC r = .ok r := if_neg hs
    rw [if_neg hs]
    constructor
    · rintro ⟨u, hu, hinst⟩
      obtain rfl : r = u := Except.ok.inj (hself.symm.trans hu)
      rw [utcInstant] at hinst
      omega
    · intro hzero
      exact ⟨r, hself, by rw [utcInstant, hzero]; omega⟩

omit hD in
/-- The operators have the instants of the argument and of the object in this order. -/
lemma comparison_of_normalises {a b : RiotISO8601 P} (ha : D.Normalises a)
    (hb : D.Normalises b) (c : ℤ → ℤ → Bool) :
    D.comparison c a b = .ok (c (D.utcInstant b) (D.utcInstant a)) := by
  obtain ⟨u, hu, hua⟩ := ha
  obtain ⟨v, hv, hvb⟩ := hb
  rw [comparison, hu, hv, ← hua, ← hvb]
  rfl

omit hD in
/-- Of two times that have their instants the operators tell the order the other way round. -/
lemma orderAgrees_iff_of_normalises {a b : RiotISO8601 P} (ha : D.Normalises a)
    (hb : D.Normalises b) : D.OrderAgrees a b ↔ D.utcInstant a = D.utcInstant b := by
  constructor
  · intro h
    have hlt := h.lt_iff
    have hgt := h.gt_iff
    rw [lt, comparison_of_normalises ha hb, Except.ok.injEq, decide_eq_decide] at hlt
    rw [gt, comparison_of_normalises ha hb, Except.ok.injEq, decide_eq_decide] at hgt
    omega
  · intro hinst
    refine ⟨ha, hb, ?_, ?_, ?_⟩
    · rw [lt, comparison_of_normalises ha hb, hinst]
    · rw [gt, comparison_of_normalises ha hb, hinst]
    · rw [eq, comparison_of_normalises ha hb, hinst]

/-- The operators have the order of the instants, and `toUTC` subtracts the whole offset, for two
times of one instant whose offsets are taken. -/
theorem orderAgrees_iff_sameInstant (a b : RiotISO8601 P) :
    D.OrderAgrees a b ↔
      D.utcInstant a = D.utcInstant b ∧ D.OffsetTaken a ∧ D.OffsetTaken b := by
  rw [← normalises_iff hD a, ← normalises_iff hD b]
  constructor
  · intro h
    exact ⟨(orderAgrees_iff_of_normalises h.left h.right).mp h, h.left, h.right⟩
  · rintro ⟨hinst, ha, hb⟩
    exact (orderAgrees_iff_of_normalises ha hb).mpr hinst

end Operators

end DateArithmetic

/-! ### The hours of a day -/

/-- `duration_from_string`: a sign, and the numbers between the separators. -/
def sampleDuration (dif : List Char) : Except String TimeDuration :=
  match (dif.tail.splitOnP (· ∈ [':', '-', ',', '.'])).filter (· ≠ []) with
  | [hours, minutes] =>
      if hours.all Char.isDigit ∧ minutes.all Char.isDigit then
        .ok ⟨(if dif.head? = some '-' then -1 else 1) *
          (Nat.ofDigitChars 10 hours 0 * 3600 + Nat.ofDigitChars 10 minutes 0 * 60)⟩
      else .error "bad lexical cast: source type value could not be interpreted as target"
  | _ => .error "bad lexical cast: source type value could not be interpreted as target"

/-- The text of an hour. -/
def sampleHour (h : Fin 24) : List Char :=
  "2016-01-01T".toList ++ formatInt 2 h.val ++ ":00:00".toList

/-- A library of dates whose points are the hours of a day. -/
def sampleDay : DateArithmetic (Fin 24) where
  durationFromString := sampleDuration
  fromIsoString s :=
    let h := Fin.ofNat 24 (Nat.ofDigitChars 10 ((s.drop 9).take 2) 0)
    if withoutSeparators (sampleHour h) = s then .ok h
    else .error "Year is out of valid range: 1400..10000"
  fromTimeT _ := .error "Year is out of valid range: 1400..10000"
  toIsoExtendedString h := String.ofList (sampleHour h)
  number _ := none
  minus h d :=
    match (List.finRange 24).find? fun k => (k.val : ℤ) * 3600 = h.val * 3600 - d.seconds with
    | some k => .ok k
    | none => .error "Year is out of valid range: 1400..10000"
  micros h := h.val * 3600 * 1000000

namespace DateArithmetic

lemma sampleDay_lawful : sampleDay.Lawful where
  fromIso_toIso := by
    have hread : ∀ h, sampleDay.fromIsoString (withoutSeparators (sampleHour h)) = .ok h := by
      decide +kernel
    intro p
    exact (congrArg (fun text => sampleDay.fromIsoString (withoutSeparators text))
      String.toList_ofList).trans (hread p)
  micros_minus := by
    intro p d q hq
    simp only [sampleDay] at hq ⊢
    cases hfind : (List.finRange 24).find? fun k =>
        ((k.val : ℤ) * 3600 = p.val * 3600 - d.seconds : Bool) with
    | none => rw [hfind] at hq; cases hq
    | some k =>
        rw [hfind] at hq
        obtain rfl := Except.ok.inj hq
        have hk := List.find?_some hfind
        rw [decide_eq_true_eq] at hk
        rw [hk]
        exact Int.sub_mul _ _ _

/-- Ten o'clock two hours to the east is eight o'clock. -/
theorem orderAgrees_twoHoursEast :
    sampleDay.OrderAgrees ⟨10, ⟨7200⟩, true⟩ ⟨8, ⟨0⟩, false⟩ :=
  (orderAgrees_iff_sameInstant sampleDay_lawful _ _).mpr
    ⟨by decide, ⟨8, by decide +kernel⟩, ⟨8, by decide +kernel⟩⟩

/-- Eight o'clock is not before nine. -/
theorem not_orderAgrees_hourApart :
    ¬ sampleDay.OrderAgrees ⟨8, ⟨0⟩, false⟩ ⟨9, ⟨0⟩, false⟩ := by
  intro h
  have hlt : sampleDay.lt ⟨8, ⟨0⟩, false⟩ ⟨9, ⟨0⟩, false⟩ = .ok false := by decide +kernel
  have htrue := h.lt_iff
  rw [hlt] at htrue
  revert htrue
  decide

end DateArithmetic

end IotAgent
