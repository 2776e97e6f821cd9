import IotAgent.UltraLight.Groups
import IotAgent.Util.RiotISO8601

/-!
The sampling time of a measure (`src/ultra_light/ULInsertObservation.cc`, over
`src/util/RiotISO8601.cc`).

A measure may be given the time at which it was taken, or a period of times. Where the text is
no time, the measure is to have the current one. Only a `runtime_error` is taken for that; what
the conversion of an offset throws is none, and a start that is no time is used as it is.

* `clock`: the conversions of a translation over the library of dates;
* `expectedDate`: the time that a measure is to have;
* `UsesTime`, `TimeFits`: the texts with which it has that time, and their condition;
* `samplingTime_iff`: the two agree, and what the constructor reads.
-/

namespace IotAgent

namespace DateLib

variable {P : Type} (D : DateLib P)

/-! ### The conversions -/

/-- `RiotISO8601(date).toString()`. What becomes of a text with reads outside is `outside`. -/
def iso (outside : String → DateResult) (date : String) : DateResult :=
  match D.ofText date.toList with
  | .ok r => .text (D.toString r)
  | .error (.iota e) => .runtimeError e.what
  | .error (.runtimeError what) => .runtimeError what
  | .error (.other what) => .other what
  | .error _ => outside date

/-- The start of a period of seconds. The end is made as well, and may throw. -/
def period (start duration : String) : Option DateResult :=
  match D.number start with
  | none => none
  | some (.error what) => some (.other what)
  | some (.ok sTimeNumber) =>
      match D.ofEpoch sTimeNumber with
      | .error what => some (.other what)
      | .ok isoB =>
          match D.number duration with
          | none => none
          | some (.error what) => some (.other what)
          | some (.ok seconds) =>
              match D.ofEpoch (sTimeNumber + seconds) with
              | .error what => some (.other what)
              | .ok _ => some (.text (D.toString isoB))

/-- The clock of a translation over the library of dates. -/
def clock (outside : String → DateResult) (now timestamp : ℕ → String) : Clock :=
  ⟨now, timestamp, D.iso outside, D.period⟩

/-- The translation with that clock. -/
def translation (t : Translation) (outside : String → DateResult) (now timestamp : ℕ → String) :
    Translation :=
  { t with clock := D.clock outside now timestamp }

/-! ### The time of a measure -/

/-- The start of a period whose parts are seconds, and whose start and end are times. -/
def epochStart (start duration : String) : Option P := do
  let b ← (← D.number start).toOption
  let seconds ← (← D.number duration).toOption
  let ptime ← (D.fromTimeT b).toOption
  let _ ← (D.fromTimeT (b + seconds)).toOption
  return ptime

/-- The time that a measure is to have: the given one, or the start of the period given, if it
is a time, and the current one otherwise. -/
def expectedDate (now text : String) : String :=
  match Text.riotTokenizer text ' ' with
  | [] => now
  | [date] => ((D.instant date.toList).map D.instantText).getD now
  | start :: duration :: _ =>
      ((D.epochStart start duration).map fun ptime => D.instantText (ptime, .utc)).getD
        (if (D.instant start.toList).isSome then start else now)

/-- With the text given as its time, a measure has the time that it is to have. -/
def UsesTime (t : Translation) (text : String) : Prop :=
  ∀ outside now timestamp i,
    (D.translation t outside now timestamp).dateOf i text = .ok (D.expectedDate (now i) text)

/-- The zone of the text can be read, and is written as it is if the text is a time. -/
def DateFits (date : List Char) : Prop :=
  D.ZoneReadable date ∧ ∀ i ∈ D.instant date, i.2.Written

/-- The start or the duration is no number. A start that is one must be a time. -/
def NotSeconds (start duration : String) : Prop :=
  D.number start = none ∨
    ∃ b ptime, D.number start = some (.ok b) ∧ D.fromTimeT b = .ok ptime ∧
      D.number duration = none

/-- The period is one of seconds, or its start is a time in itself. -/
def PeriodFits (start duration : String) : Prop :=
  (D.epochStart start duration).isSome ∨
    D.NotSeconds start duration ∧ (D.instant start.toList).isSome

/-- The texts that a measure can be given as its time. -/
def TimeFits (text : String) : Prop :=
  match Text.riotTokenizer text ' ' with
  | [] => True
  | [date] => D.DateFits date.toList
  | start :: duration :: _ => D.PeriodFits start duration

/-! ### One date -/

/-- A date that fits is written as its instant, or makes a runtime error. -/
lemma iso_of_fits (outside : String → DateResult) {date : String}
    (h : D.DateFits date.toList) :
    (∃ i ∈ D.instant date.toList, D.iso outside date = .text (D.instantText i)) ∨
      D.instant date.toList = none ∧ ∃ what, D.iso outside date = .runtimeError what := by
  obtain ⟨i, hi, hok⟩ | ⟨hnone, e, herr⟩ := D.ofText_of_readable h.1
  · refine .inl ⟨i, hi, ?_⟩
    rw [iso, hok, ← (D.toString_eq_iff i).mpr (h.2 i hi)]
  · refine .inr ⟨hnone, e.what, ?_⟩
    rw [iso, herr]

/-- Of a date that does not fit, one may read outside, throw an exception of the conversion, or
write another zone. -/
lemma iso_of_not_fits {date : String} (h : ¬ D.DateFits date.toList) :
    (∃ what, D.iso .other date = .other what) ∨
      ∃ i ∈ D.instant date.toList, ∃ s, D.iso .other date = .text s ∧ s ≠ D.instantText i := by
  by_cases hr : D.ZoneReadable date.toList
  · rw [DateFits, not_and] at h
    have h := h hr
    push Not at h
    obtain ⟨i, hi, hw⟩ := h
    obtain ⟨j, hj, hok⟩ | ⟨hnone, -⟩ := D.ofText_of_readable hr
    · obtain rfl : i = j := Option.mem_unique hi hj
      refine .inr ⟨i, hi, D.toString ⟨i.1, i.2.dUTC, i.2.isLocal⟩, ?_, ?_⟩
      · rw [iso, hok]
      · exact fun h => hw ((D.toString_eq_iff i).mp h)
    · rw [hnone] at hi
      cases hi
  · obtain ⟨-, hout⟩ | ⟨-, what, herr⟩ := D.ofText_of_not_readable hr
    · exact .inl ⟨date, by rw [iso, hout]⟩
    · exact .inl ⟨what, by rw [iso, herr]⟩

/-- Every text with the letter of the universal time at its end fits. -/
lemma dateFits_of_utc {date : List Char} (hz : date.getLast? = some 'Z') : D.DateFits date := by
  refine ⟨.inl hz, fun i hi => ?_⟩
  rw [instant, splitZone, if_pos hz] at hi
  cases hiso : D.fromIsoString (withoutSeparators (date.take (date.length - 1))) with
  | ok ptime =>
      rw [hiso] at hi
      cases hi
      trivial
  | error what =>
      rw [hiso] at hi
      cases hi

/-! ### Periods -/

/-- What becomes of the duration of a period whose start is a time. -/
def afterStart (ptime : P) (b : ℤ) : Except String ℤ → DateResult
  | .error what => .other what
  | .ok seconds =>
      match D.fromTimeT (b + seconds) with
      | .error what => .other what
      | .ok _ => .text (D.instantText (ptime, .utc))

lemma period_of_start {start duration : String} {b : ℤ} {ptime : P}
    (hs : D.number start = some (.ok b)) (hb : D.fromTimeT b = .ok ptime) :
    D.period start duration = (D.number duration).map (D.afterStart ptime b) := by
  have htext : D.toString ⟨ptime, ⟨0⟩, false⟩ = D.instantText (ptime, .utc) :=
    (D.toString_eq_iff (ptime, .utc)).mpr trivial
  rw [period, hs]
  simp only [ofEpoch, hb, Except.map, htext]
  rcases D.number duration with _ | _ | n
  · rfl
  · rfl
  · simp only [Option.map_some, afterStart]
    cases D.fromTimeT (b + n) <;> rfl

/-- A period is one of seconds, or has a part that is no number, or throws. -/
lemma period_cases (start duration : String) :
    (∃ ptime, D.epochStart start duration = some ptime ∧
        D.period start duration = some (.text (D.instantText (ptime, .utc)))) ∨
      D.epochStart start duration = none ∧
        (D.NotSeconds start duration ∧ D.period start duration = none ∨
          ¬ D.NotSeconds start duration ∧
            ∃ what, D.period start duration = some (.other what)) := by
  rcases hs : D.number start with _ | what | b
  · exact .inr ⟨by simp [epochStart, hs], .inl ⟨.inl hs, by simp [period, hs]⟩⟩
  · refine .inr ⟨by simp [epochStart, hs, Except.toOption], .inr ⟨?_, what, ?_⟩⟩
    · simp [NotSeconds, hs]
    · simp [period, hs]
  · cases hb : D.fromTimeT b with
    | error what =>
        refine .inr ⟨by simp [epochStart, hs, hb, Except.toOption], .inr ⟨?_, what, ?_⟩⟩
        · simp [NotSeconds, hs, hb]
        · simp [period, hs, hb, ofEpoch, Except.map]
    | ok ptime =>
        rw [D.period_of_start hs hb]
        rcases hd : D.number duration with _ | what | n
        · exact .inr ⟨by simp [epochStart, hs, hd], .inl ⟨.inr ⟨b, ptime, hs, hb, hd⟩, rfl⟩⟩
        · refine .inr ⟨by simp [epochStart, hs, hd, Except.toOption], .inr ⟨?_, what, rfl⟩⟩
          simp [NotSeconds, hs, hd]
        · cases he : D.fromTimeT (b + n) with
          | error what =>
              refine .inr ⟨by simp [epochStart, hs, hb, hd, he, Except.toOption],
                .inr ⟨?_, what, by simp [afterStart, he]⟩⟩
              simp [NotSeconds, hs, hd]
          | ok ptimeE =>
              exact .inl ⟨ptime, by simp [epochStart, hs, hb, hd, he, Except.toOption],
                by simp [afterStart, he]⟩

/-! ### The time of a measure, in the translation -/

variable (t : Translation) {D} {text : String}

/-- The texts that fit give a measure the time that it is to have. -/
lemma usesTime_of_fits (h : D.TimeFits text) : D.UsesTime t text := by
  intro outside now timestamp i
  rw [TimeFits] at h
  rw [translation, Translation.dateOf, expectedDate]
  rcases htokens : Text.riotTokenizer text ' ' with _ | ⟨start, _ | ⟨duration, rest⟩⟩
  · rfl
  · rw [htokens] at h
    obtain ⟨d, hd, htext⟩ | ⟨hnone, what, herr⟩ := D.iso_of_fits outside h
    · have hd : D.instant start.toList = some d := hd
      simp [readToken, clock, htext, hd, bind, Except.bind]
    · simp [readToken, clock, herr, hnone, bind, Except.bind]
  · rw [htokens] at h
    obtain ⟨ptime, hepoch, hper⟩ | ⟨hepoch, hrest⟩ := D.period_cases start duration
    · simp [readToken, clock, hepoch, hper, bind, Except.bind]
    · obtain ⟨hns, hvalid⟩ : D.NotSeconds start duration ∧ (D.instant start.toList).isSome :=
        h.resolve_left (by simp [hepoch])
      obtain ⟨-, hper⟩ | ⟨hns', -⟩ := hrest
      · simp [readToken, clock, hepoch, hper, hvalid, bind, Except.bind]
      · exact absurd hns hns'

/-- The other texts do not: the clock may show another time than their start, and what is read
outside may make another exception. -/
lemma fits_of_usesTime (h : D.UsesTime t text) : D.TimeFits text := by
  have h := h .other
  simp only [translation, Translation.dateOf, expectedDate] at h
  rw [TimeFits]
  rcases htokens : Text.riotTokenizer text ' ' with _ | ⟨start, _ | ⟨duration, rest⟩⟩
  · trivial
  · by_contra hfits
    have h := h (fun _ => "") (fun _ => "") 0
    obtain ⟨what, hother⟩ | ⟨d, hd, s, hs, hne⟩ := D.iso_of_not_fits hfits
    · simp [htokens, readToken, clock, hother, bind, Except.bind] at h
    · have hd : D.instant start.toList = some d := hd
      simp [htokens, readToken, clock, hs, hd, bind, Except.bind, hne] at h
  · by_contra hfits
    have hfits : ¬ D.PeriodFits start duration := hfits
    rw [PeriodFits, not_or, not_and] at hfits
    obtain ⟨ptime, hepoch, -⟩ | ⟨hepoch, ⟨hns, hper⟩ | ⟨-, what, hper⟩⟩ :=
      D.period_cases start duration
    · exact hfits.1 (by simp [hepoch])
    · have h := h (fun _ => start ++ "?") (fun _ => "") 0
      have hinvalid := hfits.2 hns
      have heq : start = start ++ "?" := by
        simpa [htokens, readToken, clock, hepoch, hper, hinvalid, bind, Except.bind] using h
      simpa using congrArg String.length heq
    · have h := h (fun _ => "") (fun _ => "") 0
      simp [htokens, readToken, clock, hper, bind, Except.bind] at h

/-- A measure with such a time goes on to its values, with the time that it is to have. -/
lemma translateMeasure_of_fits (h : D.TimeFits text) {outside : String → DateResult}
    {now timestamp : ℕ → String} {protocol i : ℕ} {elements : List EnvElement} {measure : String}
    {tokens : List String} {t' : Translation} (ht : D.translation t outside now timestamp = t')
    (hcheck : t'.checkMeasure (t'.tokensOf protocol measure) = .ok tokens)
    (htime : tokens[2]? = some text) :
    t'.translateMeasure protocol i elements measure
      = (t'.measureLoop (D.expectedDate (now i) text) tokens Translation.numElementsUlProtocol
          elements).mapError Stop.handled := by
  have hread : readToken tokens 2 = .ok text := by rw [readToken, htime]
  have hdate : t'.dateOf i text = .ok (D.expectedDate (now i) text) := by
    rw [← ht]
    exact usesTime_of_fits t h outside now timestamp i
  rw [Translation.translateMeasure, hcheck]
  simp only [bind, Except.bind, hread, hdate]

/-! ### Which times reject a measure -/

/-- A library of dates that reads times of fifteen characters and offsets in hours and minutes,
and no numbers. -/
def sampleDates : DateLib (List Char) where
  durationFromString dif :=
    if dif.length = 6 ∧ dif[3]? = some ':' ∧ (dif.tail.eraseIdx 2).all Char.isDigit then
      .ok ⟨(if dif.head? = some '-' then -60 else 60) *
        (60 * Nat.ofDigitChars 10 (dif.tail.take 2) 0 + Nat.ofDigitChars 10 (dif.drop 4) 0)⟩
    else .error "bad lexical cast: source type value could not be interpreted as target"
  fromIsoString s :=
    if s.length = 15 ∧ s[8]? = some 'T' ∧ (s.eraseIdx 8).all Char.isDigit then .ok s
    else .error "Year is out of valid range: 1400..10000"
  fromTimeT _ := .error "Year is out of valid range: 1400..10000"
  toIsoExtendedString s :=
    String.ofList (s.take 4 ++ '-' :: (s.drop 4).take 2 ++ '-' :: (s.drop 6).take 5
      ++ ':' :: (s.drop 11).take 2 ++ ':' :: s.drop 13)
  number _ := none

end DateLib

end IotAgent
