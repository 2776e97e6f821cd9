import IotAgent.Rest.FilterChain

/-!
Requests that share a trace header.

The trace header is the key under which a filter holds the continuation of a request, and a
client may send one of its own. A continuation that finds its place taken is dropped, and the
call back for the one request then runs the continuation of the other. While every
registration finds its place free, no request gets past a filter on the verdict of another.

* `FreePlace`: a registration finds its place free;
* `Isolated`: the service handles a request only if every filter ended with 200 for it;
* `Known`, `known_step`: the invariant, the chain of every request at once;
* `isolated`: runs in which every registration finds its place free;
* `not_isolated_sameTrace`: two requests with one trace header.
-/

namespace IotAgent

namespace Filters

open Interleaving

variable {F R : Type} (filters : List F) (trace : R → String)

/-- A task that registers a continuation finds the place under its trace header free. -/
def FreePlace : Guard (State F R) (Task R) ℤ := fun _ s t =>
  match t with
  | .executeFilters r k status => status = Types.responseCodeOk →
      (filters[k]?.bind fun f => s.callbacks f (trace r)) = none
  | _ => True

instance (o : ℤ) (s : State F R) (t : Task R) : Decidable (FreePlace filters trace o s t) :=
  match t with
  | .executeFilters _ _ _ => inferInstanceAs (Decidable (_ → _ = none))
  | .arriving _ | .registered _ _ | .posted _ _ | .working _ _ | .calling _ _ _
  | .handleEndFilters _ _ _ | .ended => inferInstanceAs (Decidable True)

/-- A request that the service handles has passed the filters, each of which ended with 200
for it. -/
def Isolated [DecidableEq R] (log : List (Event F R)) : Prop :=
  ∀ r, .handled r ∈ log → invokedFilters (logOf r log) = filters ∧
    statuses (logOf r log) = passed filters.length

/-- The chain of a request, or that it never arrives. -/
def Known [DecidableEq R] (r : R) (c : Config (State F R) (Task R)) : Prop :=
  Chained filters trace r c ∨
    ((∀ t ∈ c.tasks, t.request ≠ some r) ∧ NoneHeld r c.shared ∧ logOf r c.shared.log = [])

variable [DecidableEq F] [DecidableEq R] {filters trace} {r : R}
  {c c' : Config (State F R) (Task R)}

/-! ### One step -/

omit [DecidableEq F] [DecidableEq R] in
/-- A registration that is guarded finds no continuation. -/
lemma FreePlace.callbacks {o : ℤ} {s : State F R} {k : ℕ} {f : F}
    (h : FreePlace filters trace o s (.executeFilters r k Types.responseCodeOk))
    (hf : filters[k]? = some f) : s.callbacks f (trace r) = none := by
  have hnone := h rfl
  rwa [hf] at hnone

omit [DecidableEq F] in
/-- A request with a task is in its chain. -/
lemma Known.chained {t : Task R} (h : Known filters trace r c) (ht : t ∈ c.tasks)
    (hr : t.request = some r) : Chained filters trace r c := by
  rcases h with h | h
  · exact h
  · exact absurd hr (h.1 t ht)

omit [DecidableEq F] in
/-- A task of a request is at the place in the chain that its history says. -/
lemma Chained.phase {t : Task R} (h : Chained filters trace r c) (ht : t ∈ c.tasks)
    (hr : t.request = some r) :
    c.tasks.filter (isOf r) = [t] ∧ Phase filters trace r c.shared t := by
  obtain ⟨u, -, hfilter, hphase⟩ := h
  obtain ⟨rfl, hsingle⟩ := single_of_own hfilter ht hr
  exact ⟨hsingle, hphase⟩

omit [DecidableEq F] in
/-- What a task registers or takes out is its own continuation. -/
lemma target_own {t : Task R} {q : R} {o : ℤ} (hok : FreePlace filters trace o c.shared t)
    (hreq : t.request = some q) (hphase : Phase filters trace q c.shared t) {f : F} {v : String}
    {cb : Callback R} (htarget : target filters trace t = some (f, v))
    (hcb : c.shared.callbacks f v = some cb) : cb.request = q := by
  cases t with
  | executeFilters p k status =>
      rw [target] at htarget
      split at htarget
      · next hstatus =>
          subst hstatus
          obtain ⟨g, hg, heq⟩ := Option.map_eq_some_iff.mp htarget
          obtain ⟨rfl, rfl⟩ := Prod.mk.inj heq
          rw [hok.callbacks hg] at hcb
          cases hcb
      · cases htarget
  | calling p k status =>
      obtain rfl : p = q := Option.some.inj hreq
      obtain ⟨g, hg, hheld, -⟩ := hphase
      simp only [target, hg, Option.map_some, Option.some.injEq, Prod.mk.injEq] at htarget
      obtain ⟨rfl, rfl⟩ := htarget
      rw [hheld.held] at hcb
      rw [← Option.some.inj hcb, request_continuation]
  | arriving | registered | posted | working | handleEndFilters | ended => cases htarget

/-- A step keeps the chains of all requests. -/
lemma known_step (hne : filters ≠ []) (h : ∀ r, Known filters trace r c)
    (hs : Step (prog filters trace) (FreePlace filters trace) c c') (r : R) :
    Known filters trace r c' := by
  cases hs with
  | @act i o t t' s' hget hok hrun =>
      have hmem := List.mem_of_getElem? hget
      -- the task that acts is at its place in the chain of its request
      obtain ⟨q, hq⟩ : ∃ q, t.request = some q := by
        cases t with
        | ended => cases hrun
        | arriving q | executeFilters q | registered q | posted q | working q | calling q
        | handleEndFilters q => exact ⟨q, rfl⟩
      obtain ⟨hsingle, hphase⟩ := ((h q).chained hmem hq).phase hmem hq
      by_cases hqr : q = r
      · subst hqr
        obtain ⟨hreq, hphase', -⟩ := own_step hne hphase hq
          (fun k hk f hf => (hk ▸ hok).callbacks hf) hrun
        have hset := (filter_set_of_single t' hsingle hget (by simp [isOf, hq])).2
        exact .inl ⟨t', hreq, hset, hphase'⟩
      · have hnot : t.request ≠ some r := by simpa [hq] using hqr
        obtain ⟨hnot', hframe⟩ := other_step hnot
          (fun f v cb htarget hcb => by rwa [target_own hok hq hphase htarget hcb])
          (prog_acts hrun)
        rcases h r with ⟨u, hu, hfilter, hphaseR⟩ | ⟨hnone, hheld, hlog⟩
        · have hset := filter_set_of_not (p := isOf r) t' hget (by simpa [isOf] using hnot)
            (by simpa [isOf] using hnot')
          exact .inl ⟨u, hu, hset.trans hfilter, hframe.phase hphaseR⟩
        · refine .inr ⟨fun u hu => ?_, hframe.none hheld, hframe.log.trans hlog⟩
          rcases List.mem_or_eq_of_mem_set hu with hu | rfl
          · exact hnone u hu
          · exact hnot'

omit [DecidableEq F] in
/-- At the start every request is about to arrive, or never does. -/
lemma known_init {requests : List R} (hnodup : requests.Nodup) (r : R) :
    Known filters trace r (init (F := F) requests) := by
  by_cases hr : r ∈ requests
  · exact .inl (inv_init hr hnodup).1.chained
  · have hnone : NoneHeld r (init (F := F) requests).shared := by
      intro f u cb h
      cases h
    refine .inr ⟨fun t ht => ?_, hnone, rfl⟩
    obtain ⟨q, hq, rfl⟩ := List.mem_map.mp ht
    rintro hqr
    exact hr (Option.some.inj hqr ▸ hq)

/-- A request that was handled has passed the filters. -/
lemma Known.passed_all (h : Known filters trace r c) (hr : Event.handled r ∈ c.shared.log) :
    invokedFilters (logOf r c.shared.log) = filters ∧
      statuses (logOf r c.shared.log) = passed filters.length := by
  have hmem : Event.handled r ∈ logOf r c.shared.log :=
    List.mem_filter.mpr ⟨hr, by simp [Event.request]⟩
  rcases h with ⟨u, -, -, hphase⟩ | ⟨-, -, hlog⟩
  · have hkept := hphase.historyKept
    have hone : (logOf r c.shared.log).count (.handled r) = 1 :=
      Nat.le_antisymm hkept.handledOnce (List.count_pos_iff.mpr hmem)
    have hstat := (hkept.handled hone).1
    have hlen : filters.length ≤ (invokedFilters (logOf r c.shared.log)).length := by
      have hle := hkept.outcomes.1
      rwa [hstat, length_passed] at hle
    exact ⟨hkept.order.eq_of_length_le hlen, hstat⟩
  · rw [hlog] at hmem
    cases hmem

/-! ### Without filters -/

omit [DecidableEq R] in
/-- Without filters nothing is told but that the requests are handled. -/
lemma step_nil (h : ∀ e ∈ c.shared.log, ∃ r, e = .handled r)
    (ht : ∀ t ∈ c.tasks, (∃ r, t = .arriving r) ∨ t = .ended)
    (hs : Step (prog ([] : List F) trace) (FreePlace [] trace) c c') :
    (∀ e ∈ c'.shared.log, ∃ r, e = .handled r) ∧
      ∀ t ∈ c'.tasks, (∃ r, t = .arriving r) ∨ t = .ended := by
  cases hs with
  | @act i o t t' s' hget hok hrun =>
      rcases ht t (List.mem_of_getElem? hget) with ⟨r, rfl⟩ | rfl
      · have hact : some (c.shared.tell (.handled r), Task.ended) = some (s', t') := hrun
        cases hact
        refine ⟨fun e he => ?_, fun u hu => ?_⟩
        · rcases List.mem_append.mp he with he | he
          · exact h e he
          · exact ⟨r, List.mem_singleton.mp he⟩
        · rcases List.mem_or_eq_of_mem_set hu with hu | rfl
          · exact ht u hu
          · exact .inr rfl
      · cases hrun

omit [DecidableEq F] in
lemma isolated_nil {log : List (Event F R)} (h : ∀ e ∈ log, ∃ r, e = .handled r) :
    Isolated [] log := by
  intro r _
  have hall : ∀ e ∈ logOf r log, ∃ q, e = .handled q := fun e he =>
    h e (List.mem_filter.mp he).1
  constructor
  · refine List.filterMap_eq_nil_iff.mpr fun e he => ?_
    obtain ⟨q, rfl⟩ := hall e he
    rfl
  · refine List.filterMap_eq_nil_iff.mpr fun e he => ?_
    obtain ⟨q, rfl⟩ := hall e he
    rfl

/-! ### Runs -/

/-- **Isolation**: in every run in which each registration finds its place free, the service
handles a request only if every filter ended with 200 for that very request. -/
theorem isolated (filters : List F) (trace : R → String) {requests : List R}
    (hnodup : requests.Nodup) {c : Config (State F R) (Task R)}
    (hrun : Run (prog filters trace) (FreePlace filters trace) (init requests) c) :
    Isolated filters c.shared.log := by
  by_cases hne : filters = []
  · subst hne
    refine isolated_nil (Run.invariant (I := fun c => (∀ e ∈ c.shared.log, ∃ r, e = .handled r) ∧
      ∀ t ∈ c.tasks, (∃ r, t = .arriving r) ∨ t = .ended)
      (fun c c' hI hs => step_nil hI.1 hI.2 hs) ⟨?_, fun t ht => ?_⟩ hrun).1
    · intro e he
      cases he
    · obtain ⟨q, -, rfl⟩ := List.mem_map.mp ht
      exact .inl ⟨q, rfl⟩
  · intro r hr
    exact (Run.invariant (I := fun c => ∀ r, Known filters trace r c)
      (fun c c' h hs => known_step hne h hs) (known_init hnodup) hrun r).passed_all hr

/-! ### Two requests -/

/-- Two requests with the trace headers, and a schedule of their actions; the one filter calls
back with 200. -/
def twoRequests (trace : Bool → String) (schedule : List ℕ) :
    Option (Config (State Unit Bool) (Task Bool)) :=
  exec (prog [()] trace) (fun _ _ _ => True) (schedule.map fun i => (200, i))
    (init [false, true])

/-- The first request registers its continuation and waits; the filter passes the second one,
whose registration was dropped, and the service handles the first. -/
theorem not_isolated_sameTrace :
    ∃ c, Run (prog [()] fun _ => "trace") (fun _ _ _ => True) (init [false, true]) c ∧
      ¬ Isolated [()] c.shared.log := by
  refine ⟨(twoRequests (fun _ => "trace") [0, 0, 1, 1, 1, 1, 1, 1, 1]).get (by decide +kernel),
    run_of_exec (Option.some_get _).symm, fun h => ?_⟩
  have hhandled := (h false (by decide +kernel)).2
  revert hhandled
  decide +kernel

/-- The places that a schedule of two requests with trace headers of their own finds. -/
theorem isolated_twoTraces :
    Isolated [()] ((exec (prog [()] fun r : Bool => if r then "a" else "b")
      (FreePlace [()] fun r : Bool => if r then "a" else "b")
      ([0, 1, 0, 1, 1, 0, 1, 0, 1, 0, 1, 0, 1, 0].map fun i => (200, i))
      (init [false, true])).get (by decide +kernel)).shared.log :=
  isolated [()] _ (by decide) (run_of_exec (Option.some_get _).symm)

end Filters

end IotAgent
