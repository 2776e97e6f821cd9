import IotAgent.Ngsi.EnvInfo

/-!
Dates (`src/util/RiotISO8601.{h,cc}`).

A text is read from its end. Its last character may be the letter of the universal time; if it
is not, the sixth one from the end may be the sign of an offset, and both are read by an index
that is not tested. What stands before the zone, without colons and hyphens, is read by the
library of dates.

* `DateLib`: what the library of dates makes of texts and numbers;
* `RiotISO8601`, `readZone`, `ofText`, `ofEpoch`, `toString`: the class;
* `splitZone`, `instant`: the zone and the time of a text, for every text;
* `readsInside_iff`: the texts of which no character outside is read;
* `ofText_of_readable`: where the zone is readable, the constructor finds the instant;
* `zoneText_eq_iff`: the zones that are written as they are.
-/

namespace IotAgent

/-! ### The library of dates -/

/-- A time span. -/
structure TimeDuration where
  seconds : ℤ
  deriving DecidableEq

namespace TimeDuration

/-- `hours`, which is cut towards zero. -/
def hours (d : TimeDuration) : ℤ := d.seconds.tdiv 3600

/-- `minutes`, which has the sign of the span. -/
def minutes (d : TimeDuration) : ℤ := (d.seconds.tdiv 60).tmod 60

lemma hours_neg (s : ℤ) : hours ⟨-s⟩ = -hours ⟨s⟩ := Int.neg_tdiv _ _

lemma minutes_neg (s : ℤ) : minutes ⟨-s⟩ = -minutes ⟨s⟩ := by
  rw [minutes, minutes, Int.neg_tdiv, Int.neg_tmod]

/-- Hours and minutes have the sign of the span. -/
lemma sign_of_nonneg {d : TimeDuration} (h : 0 ≤ d.seconds) : 0 ≤ d.hours ∧ 0 ≤ d.minutes :=
  ⟨Int.tdiv_nonneg h (by decide), Int.tmod_nonneg _ (Int.tdiv_nonneg h (by decide))⟩

lemma sign_of_nonpos {d : TimeDuration} (h : d.seconds ≤ 0) : d.hours ≤ 0 ∧ d.minutes ≤ 0 := by
  obtain ⟨hh, hm⟩ : 0 ≤ hours ⟨-d.seconds⟩ ∧ 0 ≤ minutes ⟨-d.seconds⟩ :=
    sign_of_nonneg (by simpa using h)
  rw [hours_neg] at hh
  rw [minutes_neg] at hm
  exact ⟨by simpa using hh, by simpa using hm⟩

end TimeDuration

/-- The library of dates over its points in time. A number is `none` where the text is not
one, and an error where it is not within the integers. -/
structure DateLib (P : Type) where
  durationFromString : List Char → Except String TimeDuration
  fromIsoString : List Char → Except String P
  fromTimeT : ℤ → Except String P
  toIsoExtendedString : P → String
  number : String → Option (Except String ℤ)

/-- `%0wd`. -/
def formatInt (width : ℕ) (n : ℤ) : List Char :=
  if n < 0 then '-' :: (Nat.toDigits 10 n.natAbs).leftpad (width - 1) '0'
  else (Nat.toDigits 10 n.natAbs).leftpad width '0'

/-! ### The class -/

/-- A point in time with its zone. -/
structure RiotISO8601 (P : Type) where
  ptime : P
  dUTC : TimeDuration
  isLocal : Bool

/-- `iso[iso.length() - k]`, without a test. -/
def charFromEnd (iso : List Char) (k : ℕ) : Except Stop Char :=
  if iso.length < k then .error .outOfBounds else .ok (iso.getD (iso.length - k) '\x00')

/-- The last six characters. -/
def lastSix (iso : List Char) : List Char := iso.drop (iso.length - 6)

/-- The text without the characters between the numbers. -/
def withoutSeparators (iso : List Char) : List Char :=
  iso.filter fun c => c ≠ ':' ∧ c ≠ '-'

namespace DateLib

variable {P : Type} (D : DateLib P)

/-- The zone of a text: its offset, whether it is a local time, and the length of the rest. -/
def readZone (iso : List Char) : Except Stop (TimeDuration × Bool × ℕ) := do
  let last ← charFromEnd iso 1
  if last = 'Z' then return (⟨0⟩, false, iso.length - 1)
  else
    let sign ← charFromEnd iso 6
    if sign = '+' ∨ sign = '-' then
      match D.durationFromString (lastSix iso) with
      | .ok dUTC => return (dUTC, true, iso.length - 6)
      | .error what => .error (.other what)
    else return (⟨0⟩, true, iso.length)

/-- `RiotISO8601(std::string)`. -/
def ofText (iso : List Char) : Except Stop (RiotISO8601 P) := do
  let (dUTC, isLocal, isoLength) ← D.readZone iso
  match D.fromIsoString (withoutSeparators (iso.take isoLength)) with
  | .ok ptime => return ⟨ptime, dUTC, isLocal⟩
  | .error what =>
      .error (.iota
        ⟨Types.responseMessageInvalidParameter ++ " [" ++ String.ofList iso ++ "]", what,
          Types.responseCodeBadRequest⟩)

/-- `RiotISO8601(long)`. -/
def ofEpoch (n : ℤ) : Except String (RiotISO8601 P) :=
  (D.fromTimeT n).map fun ptime => ⟨ptime, ⟨0⟩, false⟩

end DateLib

/-- The zone as `toString` writes it. -/
def RiotISO8601.zoneText {P : Type} (r : RiotISO8601 P) : List Char :=
  if r.dUTC.hours = 0 ∧ r.isLocal = false then ['Z']
  else if r.isLocal = true ∧ r.dUTC.hours ≠ 0 then
    (if 0 < r.dUTC.hours then '+' :: formatInt 2 r.dUTC.hours else formatInt 3 r.dUTC.hours)
      ++ ':' :: formatInt 2 r.dUTC.minutes
  else []

/-- `toString`. -/
def DateLib.toString {P : Type} (D : DateLib P) (r : RiotISO8601 P) : String :=
  D.toIsoExtendedString r.ptime ++ String.ofList r.zoneText

/-! ### The instant of a text -/

/-- The zone of a time. -/
inductive Zone where
  | utc
  | offset (d : TimeDuration)
  | unstated

namespace Zone

/-- The zone as texts have it: hours and minutes in two digits each, behind one sign. -/
def text : Zone → List Char
  | utc => ['Z']
  | offset d =>
      (if d.seconds < 0 then '-' else '+') :: formatInt 2 d.hours.natAbs
        ++ ':' :: formatInt 2 d.minutes.natAbs
  | unstated => []

def dUTC : Zone → TimeDuration
  | offset d => d
  | utc | unstated => ⟨0⟩

def isLocal : Zone → Bool
  | utc => false
  | offset _ | unstated => true

end Zone

/-- The sixth character from the end is a sign. -/
def Signed (iso : List Char) : Prop :=
  6 ≤ iso.length ∧ (iso[iso.length - 6]? = some '+' ∨ iso[iso.length - 6]? = some '-')

instance (iso : List Char) : Decidable (Signed iso) := inferInstanceAs (Decidable (_ ∧ _))

namespace DateLib

variable {P : Type} (D : DateLib P) {iso : List Char}

/-- The zone of a text, and the text before it. A sign with no offset behind it belongs to
the time. -/
def splitZone (iso : List Char) : Zone × List Char :=
  if iso.getLast? = some 'Z' then (.utc, iso.take (iso.length - 1))
  else if Signed iso then
    match D.durationFromString (lastSix iso) with
    | .ok d => (.offset d, iso.take (iso.length - 6))
    | .error _ => (.unstated, iso)
  else (.unstated, iso)

/-- The point in time of a text and its zone, if the text is a valid time. -/
def instant (iso : List Char) : Option (P × Zone) :=
  match D.fromIsoString (withoutSeparators (D.splitZone iso).2) with
  | .ok ptime => some (ptime, (D.splitZone iso).1)
  | .error _ => none

/-- The text of an instant. -/
def instantText (i : P × Zone) : String :=
  D.toIsoExtendedString i.1 ++ String.ofList i.2.text

/-! ### What is read -/

/-- The constructor reads no character outside the text. -/
def ReadsInside (iso : List Char) : Prop := D.ofText iso ≠ .error .outOfBounds

/-- The text has the letter of the universal time at its end, or six characters, which are an
offset if they begin with a sign. -/
def ZoneReadable (iso : List Char) : Prop :=
  iso.getLast? = some 'Z' ∨
    6 ≤ iso.length ∧ (Signed iso → ∃ d, D.durationFromString (lastSix iso) = .ok d)

lemma charFromEnd_of_le {k : ℕ} (hk : k ≤ iso.length) :
    charFromEnd iso k = .ok (iso.getD (iso.length - k) '\x00') :=
  if_neg (by omega)

lemma charFromEnd_of_lt {k : ℕ} (hk : iso.length < k) :
    charFromEnd iso k = .error .outOfBounds :=
  if_pos hk

/-- The last character, where there is one. -/
lemma last_eq_iff (hne : 1 ≤ iso.length) (c : Char) :
    iso.getD (iso.length - 1) '\x00' = c ↔ iso.getLast? = some c := by
  rw [List.getLast?_eq_getElem?, List.getD_eq_getElem?_getD,
    List.getElem?_eq_getElem (by omega : iso.length - 1 < iso.length)]
  simp

lemma sixth_eq_iff (hlen : 6 ≤ iso.length) (c : Char) :
    iso.getD (iso.length - 6) '\x00' = c ↔ iso[iso.length - 6]? = some c := by
  rw [List.getD_eq_getElem?_getD,
    List.getElem?_eq_getElem (by omega : iso.length - 6 < iso.length)]
  simp

lemma length_pos_of_getLast? (hz : iso.getLast? = some 'Z') : 1 ≤ iso.length := by
  cases iso with
  | nil => simp at hz
  | cons c cs => simp

lemma readZone_utc (hz : iso.getLast? = some 'Z') :
    D.readZone iso = .ok (⟨0⟩, false, iso.length - 1) := by
  have hlen := length_pos_of_getLast? hz
  have hlast : iso.getD (iso.length - 1) '\x00' = 'Z' := (last_eq_iff hlen 'Z').mpr hz
  rw [readZone, charFromEnd_of_le hlen, hlast]
  rfl

/-- Without the letter at the end the sixth character from the end is read. -/
lemma readZone_of_not_utc (hz : iso.getLast? ≠ some 'Z') :
    D.readZone iso =
      if iso.length < 6 then .error .outOfBounds
      else if Signed iso then
        match D.durationFromString (lastSix iso) with
        | .ok dUTC => .ok (dUTC, true, iso.length - 6)
        | .error what => .error (.other what)
      else .ok (⟨0⟩, true, iso.length) := by
  rw [readZone]
  by_cases hlen : iso.length < 6
  · rw [if_pos hlen]
    by_cases hne : 1 ≤ iso.length
    · have hlast : iso.getD (iso.length - 1) '\x00' ≠ 'Z' :=
        fun h => hz ((last_eq_iff hne 'Z').mp h)
      rw [charFromEnd_of_le hne, charFromEnd_of_lt hlen]
      simp only [bind, Except.bind, if_neg hlast]
    · rw [charFromEnd_of_lt (by omega)]
      rfl
  · have hsix : 6 ≤ iso.length := by omega
    have hlast : iso.getD (iso.length - 1) '\x00' ≠ 'Z' :=
      fun h => hz ((last_eq_iff (by omega) 'Z').mp h)
    have hsigned : (iso.getD (iso.length - 6) '\x00' = '+' ∨
        iso.getD (iso.length - 6) '\x00' = '-') ↔ Signed iso := by
      rw [sixth_eq_iff hsix, sixth_eq_iff hsix, Signed, and_iff_right hsix]
    rw [if_neg hlen, charFromEnd_of_le (by omega), charFromEnd_of_le hsix]
    simp only [bind, Except.bind, if_neg hlast, hsigned]
    rfl

/-- A zone that is read is the zone of the text, with the text before it. -/
lemma readZone_of_readable (hr : D.ZoneReadable iso) :
    D.readZone iso = .ok ((D.splitZone iso).1.dUTC, (D.splitZone iso).1.isLocal,
        (D.splitZone iso).2.length) ∧
      (D.splitZone iso).2 = iso.take (D.splitZone iso).2.length := by
  by_cases hz : iso.getLast? = some 'Z'
  · rw [readZone_utc D hz, splitZone, if_pos hz]
    simp [Zone.dUTC, Zone.isLocal]
  · obtain ⟨hlen, hd⟩ := hr.resolve_left hz
    rw [readZone_of_not_utc D hz, splitZone, if_neg hz, if_neg (by omega)]
    by_cases hs : Signed iso
    · obtain ⟨d, hd⟩ := hd hs
      rw [if_pos hs, if_pos hs, hd]
      simp [Zone.dUTC, Zone.isLocal]
    · rw [if_neg hs, if_neg hs]
      simp [Zone.dUTC, Zone.isLocal]

/-- Where the zone is readable, the constructor finds the instant of the text or throws the
exception that it makes itself. -/
lemma ofText_of_readable (hr : D.ZoneReadable iso) :
    (∃ i ∈ D.instant iso, D.ofText iso = .ok ⟨i.1, i.2.dUTC, i.2.isLocal⟩) ∨
      D.instant iso = none ∧ ∃ e, D.ofText iso = .error (.iota e) := by
  obtain ⟨hzone, hrest⟩ := D.readZone_of_readable hr
  rw [ofText, hzone, instant]
  cases hiso : D.fromIsoString (withoutSeparators (D.splitZone iso).2) with
  | ok ptime =>
      refine .inl ⟨_, rfl, ?_⟩
      simp only [bind, Except.bind, ← hrest, hiso]
      rfl
  | error what =>
      refine .inr ⟨rfl, ?_⟩
      simp only [bind, Except.bind, ← hrest, hiso]
      exact ⟨_, rfl⟩

/-- A text whose zone is not readable is read outside, or its end is taken for an offset that
it is not. -/
lemma ofText_of_not_readable (hr : ¬ D.ZoneReadable iso) :
    iso.length < 6 ∧ D.ofText iso = .error .outOfBounds ∨
      6 ≤ iso.length ∧ ∃ what, D.ofText iso = .error (.other what) := by
  rw [ZoneReadable, not_or, not_and] at hr
  obtain ⟨hz, hd⟩ := hr
  rw [ofText, readZone_of_not_utc D hz]
  by_cases hlen : iso.length < 6
  · rw [if_pos hlen]
    exact .inl ⟨hlen, rfl⟩
  · have hd := hd (by omega)
    push Not at hd
    obtain ⟨hs, hd⟩ := hd
    rw [if_neg hlen, if_pos hs]
    cases hdur : D.durationFromString (lastSix iso) with
    | ok d => exact absurd hdur (hd d)
    | error what => exact .inr ⟨by omega, what, rfl⟩

/-- The constructor reads inside the text if this ends in the letter of the universal time or
has six characters. -/
lemma readsInside_iff : D.ReadsInside iso ↔ iso.getLast? = some 'Z' ∨ 6 ≤ iso.length := by
  by_cases hr : D.ZoneReadable iso
  · have hin : iso.getLast? = some 'Z' ∨ 6 ≤ iso.length := hr.imp_right And.left
    rw [ReadsInside]
    obtain ⟨i, -, hok⟩ | ⟨-, e, herr⟩ := D.ofText_of_readable hr
    · simp [hok, hin]
    · simp [herr, hin]
  · have hz : iso.getLast? ≠ some 'Z' := fun hz => hr (.inl hz)
    rw [ReadsInside]
    obtain ⟨hlen, hout⟩ | ⟨hlen, what, herr⟩ := D.ofText_of_not_readable hr
    · simp [hout, hz, hlen]
    · simp [herr, hlen]

end DateLib

/-! ### Zones that are written as they are -/

/-- An offset that is written as it is: one of an hour or more to the east, or of whole hours
to the west. Of the others the minutes get a sign of their own, or nothing is written. -/
def Zone.Written : Zone → Prop
  | .offset d => 0 < d.hours ∨ d.hours < 0 ∧ d.minutes = 0
  | .utc | .unstated => True

lemma formatInt_natCast (width n : ℕ) :
    formatInt width n = (Nat.toDigits 10 n).leftpad width '0' := by
  rw [formatInt, if_neg (by omega), Int.natAbs_natCast]

lemma formatInt_of_neg (width : ℕ) {n : ℤ} (hn : n < 0) :
    formatInt (width + 1) n = '-' :: formatInt width n.natAbs := by
  rw [formatInt, if_pos hn, formatInt_natCast, Nat.add_sub_cancel]

/-- No sign stands in a number that has none. -/
lemma not_mem_formatInt (width n : ℕ) : '-' ∉ formatInt width n := by
  rw [formatInt_natCast, List.leftpad, List.mem_append, not_or]
  refine ⟨fun h => ?_, fun h => ?_⟩
  · exact absurd (List.eq_of_mem_replicate h) (by decide)
  · exact absurd (Nat.isDigit_of_mem_toDigits (by decide) (by decide) h) (by decide)

/-- A number that is not positive is written as its absolute value only if it is `0`. -/
lemma formatInt_eq_natAbs_iff (width : ℕ) {n : ℤ} (hn : n ≤ 0) :
    formatInt (width + 1) n = formatInt (width + 1) n.natAbs ↔ n = 0 := by
  refine ⟨fun h => ?_, fun h => by subst h; rfl⟩
  by_contra hne
  refine not_mem_formatInt (width + 1) n.natAbs ?_
  rw [← h, formatInt_of_neg width (by omega)]
  exact List.mem_cons_self

lemma zoneText_offset {P : Type} (ptime : P) (d : TimeDuration) :
    RiotISO8601.zoneText ⟨ptime, d, true⟩ =
      if d.hours ≠ 0 then
        (if 0 < d.hours then '+' :: formatInt 2 d.hours else formatInt 3 d.hours)
          ++ ':' :: formatInt 2 d.minutes
      else [] := by
  simp [RiotISO8601.zoneText]

/-- The zone is written as texts have it if its offset is one of `Zone.Written`. -/
lemma zoneText_eq_iff {P : Type} (ptime : P) (z : Zone) :
    RiotISO8601.zoneText ⟨ptime, z.dUTC, z.isLocal⟩ = z.text ↔ z.Written := by
  cases z with
  | utc => exact iff_of_true rfl trivial
  | unstated => exact iff_of_true rfl trivial
  | offset d =>
      rw [Zone.dUTC, Zone.isLocal, zoneText_offset, Zone.text, Zone.Written]
      rcases lt_trichotomy d.hours 0 with hlt | heq | hgt
      · -- both texts have the sign and the hours, and then the minutes
        have hs : d.seconds < 0 :=
          not_le.mp fun hs => hlt.not_ge (TimeDuration.sign_of_nonneg hs).1
        have hm := (TimeDuration.sign_of_nonpos hs.le).2
        rw [if_pos hlt.ne, if_neg (by omega), if_pos hs, formatInt_of_neg 2 hlt,
          List.cons_append, List.cons_append, List.cons_inj_right, List.append_right_inj,
          List.cons_inj_right, formatInt_eq_natAbs_iff 1 hm, or_iff_right hlt.not_gt,
          and_iff_right hlt]
      · simp [heq]
      · have hs : 0 ≤ d.seconds :=
          not_lt.mp fun hs => hgt.not_ge (TimeDuration.sign_of_nonpos hs.le).1
        have hm := (TimeDuration.sign_of_nonneg hs).2
        rw [if_pos hgt.ne', if_pos hgt, if_neg (by omega), Int.natAbs_of_nonneg hgt.le,
          Int.natAbs_of_nonneg hm]
        exact iff_of_true rfl (.inl hgt)

/-- An instant whose zone is written as it is has its text. -/
lemma DateLib.toString_eq_iff {P : Type} (D : DateLib P) (i : P × Zone) :
    D.toString ⟨i.1, i.2.dUTC, i.2.isLocal⟩ = D.instantText i ↔ i.2.Written := by
  rw [← zoneText_eq_iff i.1, toString, instantText]
  simp [← String.toList_inj]

end IotAgent
