import IotAgent.Services.RegistrationRuns
import IotAgent.Util.Decimal

/-!
The timer of the registrations (`src/rest/command_handle.cc`, `src/ultra_light/ul20_service.cc`).

A thread waits for as many seconds as the broker answered last as the duration of a registration,
and then registers all devices again. The seconds are a product of two 32-bit numbers, which may
be negative or `0`; then the thread does not wait. The service of UL2.0 starts the thread and
then sets the seconds itself, to the `timeout` of its configuration.

* `durationCount`: the count of a duration and its unit;
* `SingleDuration`, `getDurationSeconds_single`: durations with one designator;
* `TimerEvent`, `waits`: what the thread waits for;
* `CountFits`: the durations whose product is a positive number of seconds;
* `durations_iff`: the durations that may be answered, and the `timeout` that may be configured,
  for the thread to wait always.
-/

namespace IotAgent

/-! ### Counts -/

/-- The units of a duration `P…`, in the order in which they are looked for. -/
def dayUnits : List (Char × ℤ) :=
  [('Y', 365 * 24 * 3600), ('M', 30 * 24 * 3600), ('W', 7 * 24 * 3600), ('D', 24 * 3600)]

/-- The units of a duration `PT…`. -/
def timeUnits : List (Char × ℤ) := [('H', 3600), ('M', 60), ('S', 1)]

/-- The text that is taken for the count, and the unit that it is a count of. -/
def durationCount (data : List Char) : Option (List Char × ℤ) :=
  ((Text.behind ['P', 'T'] data).map (countOf timeUnits)).getD
    ((Text.behind ['P'] data).bind (countOf dayUnits))

/-- The seconds are those of the count, if it is positive. -/
lemma getDurationSeconds_eq (data : String) :
    getDurationSeconds data = ((durationCount data.toList).map fun c =>
      if 0 < Text.atoi c.1 then (Text.atoi c.1 * c.2).bmod (2 ^ 32) else defaultRegTimeout).getD
        defaultRegTimeout := by
  rw [getDurationSeconds, durationCount]
  cases Text.behind ['P', 'T'] data.toList with
  | some saux =>
      simp only [Option.map_some, Option.getD_some, timeUnits]
      cases countOf [('H', 3600), ('M', 60), ('S', 1)] saux <;> rfl
  | none =>
      cases Text.behind ['P'] data.toList with
      | some saux =>
          simp only [Option.map_none, Option.getD_none, Option.bind_some, dayUnits]
          cases countOf [('Y', 365 * 24 * 3600), ('M', 30 * 24 * 3600), ('W', 7 * 24 * 3600),
            ('D', 24 * 3600)] saux <;> rfl
      | none => rfl

lemma getDurationSeconds_of_none {data : String} (h : durationCount data.toList = none) :
    getDurationSeconds data = defaultRegTimeout := by
  rw [getDurationSeconds_eq, h]
  rfl

lemma getDurationSeconds_of_some {data : String} {sresu : List Char} {tseg : ℤ}
    (h : durationCount data.toList = some (sresu, tseg)) :
    getDurationSeconds data
      = if 0 < Text.atoi sresu then (Text.atoi sresu * tseg).bmod (2 ^ 32)
        else defaultRegTimeout := by
  rw [getDurationSeconds_eq, h]
  rfl

/-- A number that is positive when it is reduced to the 32 bits of an `int`. -/
def PositiveInt (n : ℤ) : Prop :=
  0 < n % 2 ^ 32 ∧ n % 2 ^ 32 < 2 ^ 31

/-- The count is not positive, or its product with the unit, reduced to 32 bits, is. -/
def CountFits (data : String) : Prop :=
  ∀ sresu tseg, durationCount data.toList = some (sresu, tseg) → 0 < Text.atoi sresu →
    PositiveInt (Text.atoi sresu * tseg)

/-- A number below 2^32 is read as a positive `int` if it is below 2^31. -/
lemma bmod_pos_iff (n : ℤ) : 0 < n.bmod (2 ^ 32) ↔ PositiveInt n := by
  rw [Int.bmod_def, PositiveInt]
  split <;> omega

lemma bmod_lt (n : ℤ) : n.bmod (2 ^ 32) < 2 ^ 31 := by
  rw [Int.bmod_def]
  split <;> omega

lemma getDurationSeconds_pos_iff (data : String) :
    0 < getDurationSeconds data ↔ CountFits data := by
  cases h : durationCount data.toList with
  | none => simp [getDurationSeconds_of_none h, CountFits, h, defaultRegTimeout]
  | some c =>
      obtain ⟨sresu, tseg⟩ := c
      rw [getDurationSeconds_of_some h]
      constructor
      · rintro hpos sresu' tseg' h' hcount
        obtain ⟨rfl, rfl⟩ : sresu = sresu' ∧ tseg = tseg' := by simpa [h] using h'
        rw [if_pos hcount] at hpos
        exact (bmod_pos_iff _).mp hpos
      · intro hfits
        split
        · next hcount => exact (bmod_pos_iff _).mpr (hfits _ _ h hcount)
        · decide

lemma getDurationSeconds_lt (data : String) : getDurationSeconds data < 2 ^ 31 := by
  cases h : durationCount data.toList with
  | none =>
      rw [getDurationSeconds_of_none h]
      decide
  | some c =>
      rw [getDurationSeconds_of_some h]
      split
      · exact bmod_lt _
      · decide

/-! ### Durations with one designator -/

/-- `PnY`, `PnM`, `PnW`, `PnD`, `PTnH`, `PTnM` and `PTnS`, with the unit. -/
inductive SingleDuration : List Char → ℕ → ℤ → Prop where
  | day {ds : List Char} {n : ℕ} {letter : Char} {unit : ℤ} (hds : Decimal ds n)
      (hunit : (letter, unit) ∈ dayUnits) : SingleDuration ('P' :: (ds ++ [letter])) n unit
  | time {ds : List Char} {n : ℕ} {letter : Char} {unit : ℤ} (hds : Decimal ds n)
      (hunit : (letter, unit) ∈ timeUnits) : SingleDuration ('P' :: 'T' :: (ds ++ [letter])) n unit

/-- The text behind a marker at the start. -/
lemma behind_append (c : Char) (marker rest : List Char) :
    Text.behind (c :: marker) (c :: marker ++ rest) = some rest := by
  rw [List.cons_append, Text.behind, if_pos]
  · simp
  · simp [List.isPrefixOf_iff_prefix]

/-- A marker with a character that does not occur does not occur. -/
lemma behind_eq_none {marker : List Char} {c : Char} (hc : c ∈ marker) {cs : List Char}
    (h : c ∉ cs) : Text.behind marker cs = none := by
  induction cs with
  | nil =>
      rw [Text.behind, if_neg]
      rw [List.isEmpty_iff]
      exact List.ne_nil_of_mem hc
  | cons d cs ih =>
      rw [List.mem_cons, not_or] at h
      rw [Text.behind, if_neg, ih h.2]
      intro hpre
      have hmem := (List.isPrefixOf_iff_prefix.mp hpre).subset hc
      exact (List.mem_cons.mp hmem).elim h.1 h.2

/-- The unit of a letter behind digits. -/
lemma countOf_single {units : List (Char × ℤ)} (hletters : (units.map Prod.fst).Nodup)
    (hdigit : ∀ u ∈ units, u.1.isDigit = false) {ds : List Char} {n : ℕ} (hds : Decimal ds n)
    {letter : Char} {unit : ℤ} (hunit : (letter, unit) ∈ units) :
    countOf units (ds ++ [letter]) = some (ds, unit) := by
  induction units with
  | nil => cases hunit
  | cons u units ih =>
      obtain ⟨hu, hletters⟩ := List.nodup_cons.mp hletters
      have hnot : u.1 ∉ ds := hds.not_mem (hdigit u (List.mem_cons_self ..))
      rw [countOf, List.findSome?_cons]
      rcases List.mem_cons.mp hunit with rfl | hunit
      · have hcut : (ds ++ [letter]).takeWhile (· ≠ letter) = ds := by
          rw [List.takeWhile_append_of_pos, List.takeWhile_cons_of_neg (by simp), List.append_nil]
          intro c hc
          simpa using fun heq : c = letter => hnot (heq ▸ hc)
        rw [if_pos (by simp), hcut]
      · have hne : u.1 ≠ letter := by
          rintro rfl
          exact hu (List.mem_map.mpr ⟨(u.1, unit), hunit, rfl⟩)
        rw [if_neg (by simp [hnot, hne])]
        exact ih hletters (fun v hv => hdigit v (List.mem_cons_of_mem _ hv)) hunit

lemma not_isDigit_dayUnits : ∀ u ∈ dayUnits, u.1.isDigit = false := by simp [dayUnits]

lemma not_isDigit_timeUnits : ∀ u ∈ timeUnits, u.1.isDigit = false := by simp [timeUnits]

/-- The count of a duration with one designator. -/
lemma durationCount_single {data : List Char} {n : ℕ} {unit : ℤ}
    (h : SingleDuration data n unit) :
    0 < unit ∧ ∃ ds, Decimal ds n ∧ durationCount data = some (ds, unit) := by
  cases h with
  | @day ds _ letter _ hds hunit =>
      have hpos : 0 < unit := by
        simp only [dayUnits, List.mem_cons, Prod.mk.injEq, List.not_mem_nil, or_false] at hunit
        omega
      have hT : 'T' ∉ 'P' :: (ds ++ [letter]) := by
        have hletter : 'T' ≠ letter := by
          rintro rfl
          simp [dayUnits] at hunit
        simp [hds.not_mem (c := 'T') rfl, hletter]
      refine ⟨hpos, ds, hds, ?_⟩
      have hbehind := behind_append 'P' [] (ds ++ [letter])
      rw [List.singleton_append] at hbehind
      rw [durationCount, behind_eq_none (c := 'T') (by simp) hT, hbehind]
      exact countOf_single (by simp [dayUnits]) not_isDigit_dayUnits hds hunit
  | @time ds _ letter _ hds hunit =>
      have hpos : 0 < unit := by
        simp only [timeUnits, List.mem_cons, Prod.mk.injEq, List.not_mem_nil, or_false] at hunit
        omega
      refine ⟨hpos, ds, hds, ?_⟩
      have hbehind := behind_append 'P' ['T'] (ds ++ [letter])
      rw [List.cons_append, List.singleton_append] at hbehind
      rw [durationCount, hbehind]
      exact countOf_single (by simp [timeUnits]) not_isDigit_timeUnits hds hunit

/-- A duration with one designator is its number times its unit, if that is an `int`. -/
lemma getDurationSeconds_single {data : String} {n : ℕ} {unit : ℤ}
    (h : SingleDuration data.toList n unit) (hn : 0 < n) (hfits : n * unit < 2 ^ 31) :
    getDurationSeconds data = n * unit := by
  obtain ⟨hunit, ds, hds, hcount⟩ := durationCount_single h
  have hsmall : (n : ℤ) * 1 ≤ n * unit := Int.mul_le_mul_of_nonneg_left (by omega) (by omega)
  have hatoi := hds.atoi (by omega)
  have hpos : 0 < (n : ℤ) * unit := by omega
  rw [getDurationSeconds_of_some hcount, hatoi, if_pos (by omega), Int.bmod_def]
  split <;> omega

/-! ### The thread -/

/-- What happens to the timer: the thread calls `select` with it, the thread goes on behind the
call, the broker answers with a duration, or `start` of the service, which runs beside the
thread, comes to its last statement with the `timeout` of the configuration. -/
inductive TimerEvent where
  | select
  | woken
  | answer (duration : String)
  | configured (timeout : ℤ)

/-- The seconds of the next call. A configured number is cut to an `int`. -/
def timerStep (regTimeout : ℤ) : TimerEvent → ℤ
  | .select => regTimeout
  | .woken => if regTimeout = defaultRegTimeout then defaultRegTimeout * 600 else regTimeout
  | .answer duration => getDurationSeconds duration
  | .configured timeout => timeout.bmod (2 ^ 32)

/-- The seconds that `select` is called with. -/
def waits : ℤ → List TimerEvent → List ℤ
  | _, [] => []
  | regTimeout, .select :: es => regTimeout :: waits (timerStep regTimeout .select) es
  | regTimeout, e :: es => waits (timerStep regTimeout e) es

/-- The thread sleeps whenever it waits. -/
def AlwaysSleeps (es : List TimerEvent) : Prop :=
  ∀ w ∈ waits defaultRegTimeout es, 0 < w

/-- The broker answers with these durations only, and what is configured is this `timeout`;
`none` for a configuration without one, and for any other service. -/
def TimerEvent.From (durations : Set String) (timeout : Option ℤ) : TimerEvent → Prop
  | select | woken => True
  | answer duration => duration ∈ durations
  | configured t => t ∈ timeout

/-- An event that leaves a positive timer. -/
def TimerEvent.Fits : TimerEvent → Prop
  | select | woken => True
  | answer duration => CountFits duration
  | configured timeout => PositiveInt timeout

/-- A positive timer stays positive. -/
lemma timerStep_pos {regTimeout : ℤ} (h : 0 < regTimeout) {e : TimerEvent} (he : e.Fits) :
    0 < timerStep regTimeout e := by
  cases e with
  | select => exact h
  | woken =>
      rw [timerStep]
      split
      · decide
      · exact h
  | answer duration => exact (getDurationSeconds_pos_iff duration).mpr he
  | configured timeout => exact (bmod_pos_iff timeout).mpr he

lemma waits_pos {regTimeout : ℤ} (h : 0 < regTimeout) {es : List TimerEvent}
    (hes : ∀ e ∈ es, e.Fits) : ∀ w ∈ waits regTimeout es, 0 < w := by
  induction es generalizing regTimeout with
  | nil => simp [waits]
  | cons e es ih =>
      have hnext := timerStep_pos h (hes e (List.mem_cons_self ..))
      have hrest := ih hnext fun e he => hes e (List.mem_cons_of_mem _ he)
      cases e with
      | select =>
          intro w hw
          rcases List.mem_cons.mp hw with rfl | hw
          · exact h
          · exact hrest w hw
      | woken => exact hrest
      | answer duration => exact hrest
      | configured timeout => exact hrest

/-! ### The durations -/

/-- The seconds are positive and fit into an `int`, and a duration with one designator has its
own. -/
structure MeetsDuration (data : String) : Prop where
  pos : 0 < getDurationSeconds data
  fits : getDurationSeconds data < 2 ^ 31
  single : ∀ n unit, SingleDuration data.toList n unit → 0 < n → n * unit < 2 ^ 31 →
    getDurationSeconds data = n * unit

/-- **The durations that may be answered**, and the `timeout` that may be configured: the count
of each duration is not positive, or its product with the unit is, in 32 bits, and so is the
`timeout`. -/
theorem durations_iff (durations : Set String) (timeout : Option ℤ) :
    (∀ data ∈ durations, MeetsDuration data) ∧
        (∀ es : List TimerEvent, (∀ e ∈ es, e.From durations timeout) → AlwaysSleeps es)
      ↔ (∀ data ∈ durations, CountFits data) ∧ ∀ t ∈ timeout, PositiveInt t := by
  constructor
  · rintro ⟨hmeets, hsleeps⟩
    refine ⟨fun data hdata => (getDurationSeconds_pos_iff data).mp (hmeets data hdata).pos,
      fun t ht => (bmod_pos_iff t).mp ?_⟩
    have hrun : AlwaysSleeps [.configured t, .select] := by
      refine hsleeps _ fun e he => ?_
      simp only [List.mem_cons, List.not_mem_nil, or_false] at he
      rcases he with rfl | rfl
      · exact ht
      · trivial
    exact hrun _ (List.mem_singleton_self _)
  · rintro ⟨hfits, hconfigured⟩
    refine ⟨fun data hdata => ?_, fun es hes => waits_pos (by decide) fun e he => ?_⟩
    · exact ⟨(getDurationSeconds_pos_iff data).mpr (hfits data hdata), getDurationSeconds_lt data,
        fun n unit h hn hsmall => getDurationSeconds_single h hn hsmall⟩
    · have hfrom := hes e he
      cases e with
      | select => trivial
      | woken => trivial
      | answer duration => exact hfits duration hfrom
      | configured t => exact hconfigured t hfrom

/-- 69 years are a negative number of seconds, and the thread does not wait for them; nor does it
with a configured `timeout` of 0. -/
theorem not_meetsDuration_years :
    ¬ MeetsDuration "P69Y" ∧ ¬ AlwaysSleeps [.answer "P69Y", .select] ∧
      ¬ AlwaysSleeps [.select, .configured 0, .woken, .select] := by
  have hneg : getDurationSeconds "P69Y" = -2118983296 := by decide +kernel
  refine ⟨fun h => ?_, fun h => ?_, fun h => ?_⟩
  · have := h.pos
    omega
  · have := h (getDurationSeconds "P69Y") (List.mem_singleton_self _)
    omega
  · exact absurd (h 0 (by decide)) (Int.lt_irrefl 0)

end IotAgent
