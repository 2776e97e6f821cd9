import IotAgent.Lib.Latest
import IotAgent.Rest.IotStatistic

/-!
What the statistics by the hour say of what was recorded.

A journal has everything that was ever opened or recorded. While the clock does not go back, a
statistic shows the latest hours of it.

* `Journal`: the accumulators in the order in which they were opened, and the values;
* `Traces`: what the statistic has to do with the journal, kept by every operation;
* `Exact`: at most 24 hours, the latest ones, and in each what was recorded in it;
* `exact_of_clocked`: it holds after every run whose clock does not go back.
-/

namespace IotAgent

/-! ### The journal -/

/-- Everything that was ever opened or recorded. An accumulator is opened under an hour and a
name, once, and a value is recorded in an accumulator. -/
structure Journal (V : Type*) where
  enabled : Bool
  opened : List (ℤ × String)
  recorded : List ((ℤ × String) × V)

namespace Journal

open IotStatistic (hour Op)

variable {V : Type*} (j : Journal V)

def empty : Journal V :=
  ⟨true, [], []⟩

def openKey (key : ℤ × String) : Journal V :=
  if key ∈ j.opened then j else { j with opened := j.opened ++ [key] }

def record (key : ℤ × String) (value : V) : Journal V :=
  { j with recorded := j.recorded ++ [(key, value)] }

/-- The hour is that of the clock; what goes through a pointer belongs to the accumulator of
that number. -/
def apply : Op V → Journal V
  | .setEnable enabled => { j with enabled }
  | .add accName value now =>
      if j.enabled then (j.openKey (hour now, accName)).record (hour now, accName) value else j
  | .fetch accName now => if j.enabled then j.openKey (hour now, accName) else j
  | .push p value => (j.opened[p]?.map fun key => j.record key value).getD j

/-- The journal of a run. -/
def run (ops : List (Op V)) : Journal V :=
  ops.foldl apply j

/-- The values of an hour and a name. -/
def valuesOf (key : ℤ × String) : List V :=
  (j.recorded.filter fun r => r.1 = key).map Prod.snd

/-- The hours in which a recording was made, or begun. -/
def hours : Finset ℤ :=
  (j.opened.map Prod.fst).toFinset

/-- The hours in which a recording was made. -/
def recordedHours : Finset ℤ :=
  (j.recorded.map fun r => r.1.1).toFinset

/-- Everything that was opened got a value. -/
def Settled : Prop :=
  ∀ key ∈ j.opened, j.valuesOf key ≠ []

/-- One of the 24 latest hours. -/
def Recent (h : ℤ) : Prop :=
  h ∈ j.hours ∧ (j.hours.filter (h < ·)).card < 24

variable {j} {key k : ℤ × String} {value : V}

@[simp] lemma openKey_recorded : (j.openKey key).recorded = j.recorded := by
  rw [openKey]
  split <;> rfl

@[simp] lemma openKey_enabled : (j.openKey key).enabled = j.enabled := by
  rw [openKey]
  split <;> rfl

@[simp] lemma record_opened : (j.record key value).opened = j.opened := rfl

@[simp] lemma record_hours : (j.record key value).hours = j.hours := rfl

lemma valuesOf_openKey : (j.openKey key).valuesOf k = j.valuesOf k := by
  rw [valuesOf, openKey_recorded, valuesOf]

lemma valuesOf_record : (j.record key value).valuesOf k =
    if key = k then j.valuesOf k ++ [value] else j.valuesOf k := by
  rw [valuesOf, record, List.filter_append, List.map_append]
  split
  · next hk => simp [hk, valuesOf]
  · next hk => simp [hk, valuesOf]

lemma mem_hours_of_opened {h : ℤ} {n : String} (hkey : (h, n) ∈ j.opened) : h ∈ j.hours :=
  List.mem_toFinset.mpr (List.mem_map_of_mem hkey)

lemma valuesOf_eq_nil (hrec : ∀ r ∈ j.recorded, r.1 ∈ j.opened) (hkey : key ∉ j.opened) :
    j.valuesOf key = [] := by
  rw [valuesOf, List.map_eq_nil_iff, List.filter_eq_nil_iff]
  intro r hr hrk
  exact hkey (of_decide_eq_true hrk ▸ hrec r hr)

lemma openKey_hours : (j.openKey key).hours = insert key.1 j.hours := by
  rw [openKey]
  split
  · next hmem => exact (Finset.insert_eq_of_mem (mem_hours_of_opened hmem)).symm
  · ext h
    simp [hours]

/-- When everything opened has a value, the hours are those of the values. -/
lemma hours_eq_recordedHours (hrec : ∀ r ∈ j.recorded, r.1 ∈ j.opened) (hset : j.Settled) :
    j.hours = j.recordedHours := by
  ext h
  simp only [hours, recordedHours, List.mem_toFinset, List.mem_map]
  constructor
  · rintro ⟨key, hkey, rfl⟩
    obtain ⟨v, hv⟩ := List.exists_mem_of_ne_nil _ (hset key hkey)
    obtain ⟨r, hr, -⟩ := List.mem_map.mp hv
    obtain ⟨hmem, hrk⟩ := List.mem_filter.mp hr
    exact ⟨r, hmem, congrArg Prod.fst (of_decide_eq_true hrk)⟩
  · rintro ⟨r, hr, rfl⟩
    exact ⟨r.1, hrec r hr, rfl⟩

end Journal

namespace IotStatistic

variable {V : Type*} {A : Arith V} {s s' : IotStatistic V} {j : Journal V}
variable {accName : String} {value : V} {now h t : ℤ} {p : Ptr}

/-! ### The statistic and the journal -/

/-- The statistic has what the journal has, as far as it keeps the hour. The accumulators are
numbered as they were opened, and an accumulator whose hour has left is still right. -/
structure Traces (A : Arith V) (s : IotStatistic V) (j : Journal V) : Prop where
  enabled : s.enabled = j.enabled
  next : s.heap.next = j.opened.length
  nodup : j.opened.Nodup
  found : ∀ h n p, s.find h n = some p → j.opened[p]? = some (h, n)
  kept : ∀ h n, h ∈ s.hours → (h, n) ∈ j.opened → ∃ p, s.find h n = some p
  obj : ∀ p key, j.opened[p]? = some key → s.heap.obj p = A.accumulate (j.valuesOf key)
  recorded : ∀ r ∈ j.recorded, r.1 ∈ j.opened
  latest : Latest 24 s.hours j.hours

lemma hour_mono (h : t ≤ now) : hour t ≤ hour now :=
  Int.mul_le_mul_of_nonneg_right (Int.tdiv_le_tdiv (by decide) h) (by decide)

lemma find_isSome_hour (h : s.find t accName = some p) : t ∈ s.hours := by
  rw [find, Option.bind_eq_some_iff] at h
  obtain ⟨accs, haccs, -⟩ := h
  exact OrderedMap.mem_keys_iff.mpr ⟨accs, haccs⟩

/-- A value behind a pointer is a value of its accumulator. -/
lemma Traces.push (hs : Traces A s j) : Traces A (s.push A p value) (j.apply (.push p value)) := by
  cases hp : j.opened[p]? with
  | none =>
      have hj : j.apply (.push p value) = j := by rw [Journal.apply, hp]; rfl
      rw [hj]
      refine { hs with obj := fun q key hq => ?_ }
      have hqp : q ≠ p := by
        rintro rfl
        rw [hp] at hq
        cases hq
      rw [← hs.obj q key hq]
      exact Heap.modify_obj_of_ne s.heap (A.push · value) hqp
  | some key =>
      have hj : j.apply (.push p value) = j.record key value := by rw [Journal.apply, hp]; rfl
      rw [hj]
      refine ⟨hs.enabled, hs.next, hs.nodup, hs.found, hs.kept, fun q k hq => ?_, fun r hr => ?_,
        hs.latest⟩
      · rw [Journal.record_opened] at hq
        show (s.heap.modify (A.push · value) p).obj q = _
        rw [Heap.modify_obj, hs.obj q k hq, Journal.valuesOf_record]
        -- no two accumulators have one hour and one name
        by_cases hqp : q = p
        · subst hqp
          rw [hp, Option.some.injEq] at hq
          rw [if_pos rfl, if_pos hq, Arith.accumulate_concat]
        · have hne : key ≠ k := by
            rintro rfl
            obtain ⟨hlt, -⟩ := List.getElem?_eq_some_iff.mp hq
            exact hqp ((List.getElem?_inj hlt hs.nodup).mp (hq.trans hp.symm))
          rw [if_neg hqp, if_neg hne]
      · rcases List.mem_append.mp hr with hr | hr
        · exact hs.recorded r hr
        · rw [List.mem_singleton.mp hr]
          exact List.mem_of_getElem? hp

/-- A new accumulator for an hour and a name. -/
lemma Traces.alloc (hs : Traces A s j) (henabled : s'.enabled = s.enabled)
    (hheap : s'.heap = (s.heap.alloc A.init).1) (hnew : (h, accName) ∉ j.opened)
    (hfind : ∀ g n p, s'.find g n = some p ↔
      ((g, n) = (h, accName) ∧ p = s.heap.next) ∨ (g ∈ s'.hours ∧ s.find g n = some p))
    (hlatest : Latest 24 s'.hours (insert h j.hours)) (hhour : h ∈ s'.hours)
    (hhours : ∀ g ∈ s'.hours, g = h ∨ g ∈ s.hours)
    (hfirst : h ∉ s.hours → ∀ n, (h, n) ∉ j.opened) :
    Traces A s' (j.openKey (h, accName)) := by
  have hopened : (j.openKey (h, accName)).opened = j.opened ++ [(h, accName)] := by
    rw [Journal.openKey, if_neg hnew]
  refine ⟨?_, ?_, ?_, ?_, ?_, ?_, ?_, ?_⟩
  · rw [henabled, hs.enabled, Journal.openKey_enabled]
  · rw [hheap, Heap.alloc_next, hs.next, hopened, List.length_append]
    rfl
  · rw [hopened]
    exact List.nodup_append.mpr ⟨hs.nodup, List.nodup_singleton _, fun a ha b hb hab =>
      hnew (List.mem_singleton.mp hb ▸ hab ▸ ha)⟩
  · intro g n p hp
    rw [hopened]
    rcases (hfind g n p).mp hp with ⟨hgn, rfl⟩ | ⟨-, hp⟩
    · rw [hs.next, List.getElem?_concat_length, hgn]
    · have hold := hs.found g n p hp
      rwa [List.getElem?_append_left (List.getElem?_eq_some_iff.mp hold).1]
  · intro g n hg hgn
    rw [hopened, List.mem_append, List.mem_singleton] at hgn
    rcases hgn with hgn | hgn
    · have hgs : g ∈ s.hours := by
        rcases hhours g hg with rfl | hgs
        · by_contra hout
          exact hfirst hout n hgn
        · exact hgs
      obtain ⟨p, hp⟩ := hs.kept g n hgs hgn
      exact ⟨p, (hfind g n p).mpr (Or.inr ⟨hg, hp⟩)⟩
    · exact ⟨s.heap.next, (hfind g n _).mpr (Or.inl ⟨hgn, rfl⟩)⟩
  · intro p key hp
    rw [Journal.valuesOf_openKey, hheap]
    rw [hopened] at hp
    by_cases hlt : p < j.opened.length
    · rw [List.getElem?_append_left hlt] at hp
      rw [Heap.alloc_obj_of_lt _ _ (hs.next.symm ▸ hlt), hs.obj p key hp]
    · have hle : p = s.heap.next := by
        have := (List.getElem?_eq_some_iff.mp hp).1
        rw [List.length_append, List.length_singleton] at this
        exact (Nat.le_antisymm (Nat.le_of_lt_succ this) (Nat.le_of_not_lt hlt)).trans hs.next.symm
      subst hle
      rw [hs.next, List.getElem?_concat_length, Option.some.injEq] at hp
      rw [Heap.alloc_obj_new, ← hp, Journal.valuesOf_eq_nil hs.recorded hnew]
      rfl
  · intro r hr
    rw [Journal.openKey_recorded] at hr
    rw [hopened]
    exact List.mem_append_left _ (hs.recorded r hr)
  · rw [Journal.openKey_hours]
    exact hlatest

/-- What the accumulators for the names of an hour are after a new one. -/
lemma find_insertName {acc : Accumulator V} {g : ℤ} {n : String} (hhour : t ∈ s.hours)
    (hnone : s.find t accName = none) :
    (s.insertName t accName acc).1.find g n = some p ↔
      ((g, n) = (t, accName) ∧ p = s.heap.next) ∨ (g ∈ s.hours ∧ s.find g n = some p) := by
  obtain ⟨accs, haccs⟩ := OrderedMap.mem_keys_iff.mp hhour
  have hget : accs.get accName = none := by
    rw [find, haccs] at hnone
    exact hnone
  have hnew : (s.insertName t accName acc).1.find g n =
      ((s.accumulators.adjust t fun accs => accs.insert (accName, s.heap.next)).get g).bind
        (·.get n) := rfl
  rw [hnew, OrderedMap.get_adjust]
  by_cases hg : g = t
  · subst hg
    rw [if_pos rfl, haccs, find, haccs]
    simp only [Option.map_some, Option.bind_some, OrderedMap.get_insert]
    by_cases hn : n = accName
    · subst hn
      simp [hget, eq_comm]
    · simp [hn, hhour]
  · rw [if_neg hg]
    constructor
    · intro hp
      exact Or.inr ⟨find_isSome_hour hp, hp⟩
    · rintro (⟨hgn, -⟩ | ⟨-, hp⟩)
      · exact absurd (congrArg Prod.fst hgn) hg
      · exact hp

/-- The least hour leaves if there are 24. -/
lemma reset_hours : (s.reset t).hours =
    if 24 ≤ s.hours.length then s.hours.tail else s.hours := by
  have hlen : s.hours.length = s.accumulators.entries.length := List.length_map _
  rw [reset, hlen]
  split
  · exact OrderedMap.keys_tail
  · rfl

lemma reset_hours_subset (hg : h ∈ (s.reset t).hours) : h ∈ s.hours := by
  rw [reset_hours] at hg
  split at hg
  · exact List.mem_of_mem_tail hg
  · exact hg

/-- The hours that do not leave keep their accumulators. -/
lemma reset_find {g : ℤ} {n : String} (hg : g ∈ (s.reset t).hours) :
    (s.reset t).find g n = s.find g n := by
  rw [reset] at hg ⊢
  split
  · next hfull =>
      rw [if_pos hfull, hours, OrderedMap.keys_tail] at hg
      rw [find, OrderedMap.get_tail, if_pos hg, find]
  · rfl

lemma mem_insertHour_hours {acc : Accumulator V} {g : ℤ} :
    g ∈ ((s.reset t).insertHour t accName acc).1.hours ↔ g = t ∨ g ∈ (s.reset t).hours :=
  OrderedMap.mem_keys_insert

/-- What the accumulators for the names of an hour are after a new hour. -/
lemma find_insertHour {acc : Accumulator V} {g : ℤ} {n : String} (hhour : t ∉ s.hours) :
    ((s.reset t).insertHour t accName acc).1.find g n = some p ↔
      ((g, n) = (t, accName) ∧ p = s.heap.next) ∨
        (g ∈ ((s.reset t).insertHour t accName acc).1.hours ∧ s.find g n = some p) := by
  have hnew : ((s.reset t).insertHour t accName acc).1.find g n =
      (((s.reset t).accumulators.insert
        (t, OrderedMap.empty.insert (accName, (s.reset t).heap.next))).get g).bind (·.get n) := rfl
  rw [hnew, mem_insertHour_hours, OrderedMap.get_insert, reset_heap]
  by_cases hg : g = t
  · subst hg
    have hnone : (s.reset g).accumulators.get g = none :=
      OrderedMap.get_eq_none_iff.mpr fun hmem => hhour (reset_hours_subset hmem)
    have hold : s.find g n = none := by
      rw [find, OrderedMap.get_eq_none_iff.mpr hhour]
      rfl
    rw [hnone, hold]
    by_cases hn : n = accName
    · simp [OrderedMap.get_insert, hn, eq_comm]
    · simp [OrderedMap.get_insert, hn]
  · rw [if_neg hg, Option.or_none]
    constructor
    · intro hp
      have hmem : g ∈ (s.reset t).hours := find_isSome_hour hp
      exact Or.inr ⟨Or.inr hmem, (reset_find hmem).symm.trans hp⟩
    · rintro (⟨hgn, -⟩ | ⟨hmem, hp⟩)
      · exact absurd (congrArg Prod.fst hgn) hg
      · exact (reset_find (hmem.resolve_left hg)).trans hp

/-- An hour that was left out is not opened again while the clock does not go back. -/
lemma Traces.not_opened (hs : Traces A s j) (hlate : ∀ g ∈ j.hours, g ≤ h) (hout : h ∉ s.hours)
    (n : String) : (h, n) ∉ j.opened := fun hmem =>
  hout (hs.latest.mem_of_greatest (by decide) (Journal.mem_hours_of_opened hmem) hlate)

lemma Traces.next_opened (hs : Traces A s j) (hnew : (h, accName) ∉ j.opened) :
    (j.openKey (h, accName)).opened[s.heap.next]? = some (h, accName) := by
  rw [Journal.openKey, if_neg hnew, hs.next]
  exact List.getElem?_concat_length

/-- The subscript operator opens what the journal opens, and hands it out. -/
lemma Traces.fetch (hs : Traces A s j) (hlate : ∀ g ∈ j.hours, g ≤ hour now) :
    Traces A (s.fetch A accName now).1 (j.apply (.fetch accName now)) ∧
      (s.fetch A accName now).2.isSome = s.enabled ∧
      ∀ p, (s.fetch A accName now).2 = some p →
        (j.apply (.fetch accName now)).opened[p]? = some (hour now, accName) := by
  rcases fetch_cases A s accName now with ⟨hoff, hres⟩ | ⟨hon, hres⟩
  · have hj : j.apply (.fetch accName now) = j := by
      rw [Journal.apply, ← hs.enabled, hoff]
      rfl
    rw [hj, hres, hoff]
    exact ⟨hs, rfl, fun p hp => by cases hp⟩
  have hj : j.apply (.fetch accName now) = j.openKey (hour now, accName) := by
    rw [Journal.apply, ← hs.enabled, hon]
    rfl
  rw [hj, hon]
  rcases hres with ⟨p, hp, hres⟩ | ⟨hnone, hhour, hres⟩ | ⟨hhour, hres⟩
  · have hopened := hs.found _ _ p hp
    have hsame : j.openKey (hour now, accName) = j := by
      rw [Journal.openKey, if_pos (List.mem_of_getElem? hopened)]
    rw [hsame, hres]
    exact ⟨hs, rfl, fun q hq => Option.some.inj hq ▸ hopened⟩
  · have hnew : (hour now, accName) ∉ j.opened := fun hmem => by
      obtain ⟨p, hp⟩ := hs.kept _ _ hhour hmem
      rw [hnone] at hp
      cases hp
    have hhours : (s.insertName (hour now) accName A.init).1.hours = s.hours :=
      OrderedMap.keys_adjust
    rw [hres]
    refine ⟨hs.alloc rfl rfl hnew (fun g n p => ?_) ?_ ?_ (fun g hg => ?_) ?_, rfl,
      fun q hq => Option.some.inj hq ▸ hs.next_opened hnew⟩
    · rw [hhours]
      exact find_insertName hhour hnone
    · rw [hhours, Finset.insert_eq_of_mem (hs.latest.subset _ hhour)]
      exact hs.latest
    · rw [hhours]
      exact hhour
    · exact Or.inr (hhours ▸ hg)
    · exact fun hout => absurd hhour hout
  · have hfresh := hs.not_opened hlate hhour
    have hheap : ((s.reset (hour now)).insertHour (hour now) accName A.init).1.heap =
        (s.heap.alloc A.init).1 := by
      show ((s.reset (hour now)).heap.alloc A.init).1 = _
      rw [reset_heap]
    have hsorted : ((s.reset (hour now)).insertHour (hour now) accName A.init).1.hours.Pairwise
        (· < ·) := OrderedMap.keys_ordered _
    have hlatest := hs.latest.insert (by decide) hlate hhour hsorted fun g => by
      rw [mem_insertHour_hours, reset_hours]
    rw [hres]
    refine ⟨hs.alloc reset_enabled hheap (hfresh accName) (fun g n p => find_insertHour hhour)
      hlatest (mem_insertHour_hours.mpr (Or.inl rfl)) (fun g hg => ?_) (fun _ => hfresh), rfl,
      fun q hq => Option.some.inj hq ▸ hs.next_opened (hfresh accName)⟩
    exact (mem_insertHour_hours.mp hg).imp_right reset_hours_subset

/-- An addition records what the journal records. -/
lemma Traces.add (hs : Traces A s j) (hlate : ∀ g ∈ j.hours, g ≤ hour now) :
    Traces A (s.add A accName value now) (j.apply (.add accName value now)) := by
  obtain ⟨hfetch, hsome, hopened⟩ :
      Traces A (s.fetch A accName now).1 (j.apply (.fetch accName now)) ∧ _ := hs.fetch hlate
  rw [add_eq]
  cases hp : (s.fetch A accName now).2 with
  | none =>
      have hoff : s.enabled = false := by rw [← hsome, hp]; rfl
      have hj : j.apply (.add accName value now) = j := by
        rw [Journal.apply, ← hs.enabled, hoff]
        rfl
      rw [hj]
      exact hs
  | some p =>
      have hon : j.enabled = true := by rw [← hs.enabled, ← hsome, hp]; rfl
      have hj : j.apply (.add accName value now) =
          (j.apply (.fetch accName now)).apply (.push p value) := by
        show _ = ((j.apply (.fetch accName now)).opened[p]?.map fun key =>
          (j.apply (.fetch accName now)).record key value).getD _
        rw [hopened p hp]
        simp [Journal.apply, hon]
      rw [hj]
      exact hfetch.push

/-! ### Runs -/

/-- The time at which an operation reads the clock. -/
def Op.clock : Op V → Option ℤ
  | .setEnable _ => none
  | .add _ _ now => some now
  | .fetch _ now => some now
  | .push _ _ => none

/-- The clock does not go back. -/
def Clocked (ops : List (Op V)) : Prop :=
  (ops.filterMap Op.clock).Pairwise (· ≤ ·)

instance (ops : List (Op V)) : Decidable (Clocked ops) :=
  inferInstanceAs (Decidable (List.Pairwise _ _))

variable {op : Op V} {ops : List (Op V)}

/-- One operation. -/
lemma Traces.apply (hs : Traces A s j) (hlate : ∀ t ∈ op.clock, ∀ g ∈ j.hours, g ≤ hour t) :
    Traces A (s.apply A op) (j.apply op) := by
  cases op with
  | setEnable enabled => exact { hs with enabled := rfl }
  | add accName value now => exact hs.add (hlate now rfl)
  | fetch accName now => exact (hs.fetch (hlate now rfl)).1
  | push p value => exact hs.push

/-- An hour of the journal comes from the clock. -/
lemma mem_hours_apply (hh : h ∈ (j.apply op).hours) :
    h ∈ j.hours ∨ ∃ t ∈ op.clock, h = hour t := by
  cases op with
  | setEnable enabled => exact Or.inl hh
  | add accName value now =>
      rw [Journal.apply] at hh
      split at hh
      · rw [Journal.record_hours, Journal.openKey_hours, Finset.mem_insert] at hh
        exact hh.symm.imp_right fun h => ⟨now, rfl, h⟩
      · exact Or.inl hh
  | fetch accName now =>
      rw [Journal.apply] at hh
      split at hh
      · rw [Journal.openKey_hours, Finset.mem_insert] at hh
        exact hh.symm.imp_right fun h => ⟨now, rfl, h⟩
      · exact Or.inl hh
  | push p value =>
      rw [Journal.apply] at hh
      cases hp : j.opened[p]? with
      | none =>
          rw [hp] at hh
          exact Or.inl hh
      | some key =>
          rw [hp] at hh
          exact Or.inl hh

lemma mem_hours_run (hh : h ∈ (j.run ops).hours) :
    h ∈ j.hours ∨ ∃ t ∈ ops.filterMap Op.clock, h = hour t := by
  induction ops generalizing j with
  | nil => exact Or.inl hh
  | cons op ops ih =>
      rcases ih hh with hh | ⟨t, ht, rfl⟩
      · refine (mem_hours_apply hh).imp_right ?_
        rintro ⟨t, ht, rfl⟩
        exact ⟨t, List.mem_filterMap.mpr ⟨op, List.mem_cons_self, ht⟩, rfl⟩
      · obtain ⟨o, ho, hot⟩ := List.mem_filterMap.mp ht
        exact Or.inr ⟨t, List.mem_filterMap.mpr ⟨o, List.mem_cons_of_mem _ ho, hot⟩, rfl⟩

/-- A run whose clock does not go back. -/
lemma Traces.run (hs : Traces A s j) (hclock : Clocked ops)
    (hlate : ∀ t ∈ ops.filterMap Op.clock, ∀ g ∈ j.hours, g ≤ hour t) :
    Traces A (s.run A ops) (j.run ops) := by
  induction ops generalizing s j with
  | nil => exact hs
  | cons op ops ih =>
      have hmem : ∀ t ∈ op.clock, t ∈ (op :: ops).filterMap Op.clock := fun t ht =>
        List.mem_filterMap.mpr ⟨op, List.mem_cons_self, ht⟩
      have hrest : ∀ t ∈ ops.filterMap Op.clock, t ∈ (op :: ops).filterMap Op.clock := by
        intro t ht
        obtain ⟨o, ho, hot⟩ := List.mem_filterMap.mp ht
        exact List.mem_filterMap.mpr ⟨o, List.mem_cons_of_mem _ ho, hot⟩
      have hsorted : ∀ t ∈ op.clock, ∀ u ∈ ops.filterMap Op.clock, t ≤ u := by
        intro t ht
        rw [Clocked, List.filterMap_cons_some ht] at hclock
        exact (List.pairwise_cons.mp hclock).1
      refine ih (hs.apply fun t ht => hlate t (hmem t ht)) ?_ fun u hu g hg => ?_
      · rw [Clocked, List.filterMap_cons] at hclock
        split at hclock
        · exact hclock
        · exact (List.pairwise_cons.mp hclock).2
      · rcases mem_hours_apply hg with hg | ⟨t, ht, rfl⟩
        · exact hlate u (hrest u hu) g hg
        · exact hour_mono (hsorted t ht u hu)

/-- What a statistic shows of what was recorded: at most 24 hours, the latest ones, and in them
the number and the sum of the values of each name. -/
structure Exact (A : Arith V) (s : IotStatistic V) (j : Journal V) : Prop where
  bounded : s.hours.length ≤ 24
  sorted : s.hours.Pairwise (· < ·)
  recent : ∀ h, h ∈ s.hours ↔ j.Recent h
  settled : j.Settled → j.hours = j.recordedHours
  names : ∀ h n, (∃ acc, s.accumulator h n = some acc) ↔ j.Recent h ∧ (h, n) ∈ j.opened
  count : ∀ h n acc, s.accumulator h n = some acc → acc.count = (j.valuesOf (h, n)).length
  sum : ∀ h n acc, s.accumulator h n = some acc →
    acc.sum = (j.valuesOf (h, n)).foldl A.add A.zero

lemma Traces.accumulator_eq {n : String} {acc : Accumulator V} (hs : Traces A s j)
    (hacc : s.accumulator h n = some acc) : acc = A.accumulate (j.valuesOf (h, n)) := by
  rw [accumulator, Option.map_eq_some_iff] at hacc
  obtain ⟨p, hp, rfl⟩ := hacc
  exact hs.obj p _ (hs.found h n p hp)

lemma Traces.exact (hs : Traces A s j) : Exact A s j where
  bounded := hs.latest.length_le
  sorted := hs.latest.sorted
  recent := fun _ => hs.latest.mem_iff
  settled := Journal.hours_eq_recordedHours hs.recorded
  names := fun h n => by
    rw [Journal.Recent, ← hs.latest.mem_iff]
    constructor
    · rintro ⟨acc, hacc⟩
      rw [accumulator, Option.map_eq_some_iff] at hacc
      obtain ⟨p, hp, -⟩ := hacc
      exact ⟨find_isSome_hour hp, List.mem_of_getElem? (hs.found h n p hp)⟩
    · rintro ⟨hh, hopened⟩
      obtain ⟨p, hp⟩ := hs.kept h n hh hopened
      exact ⟨s.heap.obj p, by rw [accumulator, hp]; rfl⟩
  count := fun h n acc hacc => by rw [hs.accumulator_eq hacc, A.accumulate_count]
  sum := fun h n acc hacc => by rw [hs.accumulator_eq hacc, A.accumulate_sum]

lemma traces_new : Traces A (new A) (Journal.empty : Journal V) where
  enabled := rfl
  next := rfl
  nodup := List.nodup_nil
  found := fun h n p hp => by cases hp
  kept := fun h n hh => by cases hh
  obj := fun p key hp => by cases hp
  recorded := fun r hr => by cases hr
  latest :=
    { sorted := List.Pairwise.nil
      length_le := Nat.zero_le _
      subset := fun x hx => by cases hx
      older := fun x hx => by cases hx }

/-- **Statistics**: while the clock does not go back, a statistic keeps the latest hours, at most
24, each with what was recorded in it; and what the subscript operator hands out is the
accumulator of its name and hour. -/
theorem exact_of_clocked (A : Arith V) (ops : List (Op V)) (hclock : Clocked ops) :
    Exact A ((new A).run A ops) (Journal.empty.run ops) ∧
      ∀ accName now, Clocked (ops ++ [.fetch accName now]) → ∀ p,
        (((new A).run A ops).fetch A accName now).2 = some p →
          (Journal.empty.run (ops ++ [.fetch accName now])).opened[p]? =
            some (hour now, accName) := by
  have htraces : ∀ ops : List (Op V), Clocked ops →
      Traces A ((new A).run A ops) (Journal.empty.run ops) := fun ops hclock =>
    traces_new.run hclock fun t _ g hg => by cases hg
  refine ⟨(htraces ops hclock).exact, fun accName now hnext p hp => ?_⟩
  have hlate : ∀ g ∈ (Journal.empty.run ops).hours, g ≤ hour now := by
    intro g hg
    rcases mem_hours_run hg with hg | ⟨t, ht, rfl⟩
    · cases hg
    · rw [Clocked, List.filterMap_append, List.pairwise_append] at hnext
      exact hour_mono (hnext.2.2 t ht now (List.mem_singleton.mpr rfl))
  rw [Journal.run, List.foldl_concat]
  exact ((htraces ops hclock).fetch hlate).2.2 p hp

/-- Values of two hours. -/
def twoHours : List (Op ℤ) :=
  [.add "traffic" 5 3599, .fetch "traffic" 3601, .add "traffic" 7 3700, .push 1 2]

/-- The arithmetic of the integers, as far as the values below go. -/
def intArith : Arith ℤ :=
  ⟨0, (· + ·), -1000, 1000, max, min⟩

/-- Of 25 hours 24 are kept. -/
example : ((new intArith).run intArith ((List.range 25).map fun n =>
    .add "traffic" 1 (3600 * n))).hours.length = 24 := by
  decide +kernel

/-- The second hour has two values. -/
theorem exact_twoHours :
    Exact intArith ((new intArith).run intArith twoHours) (Journal.empty.run twoHours) :=
  (exact_of_clocked intArith twoHours (by decide)).1

end IotStatistic

end IotAgent
