import IotAgent.Rest.Filters
import Mathlib.Data.List.Nodup

/-!
The chain of filters over all interleavings.

The history of a request whose trace header is its own is that of a chain that runs alone:
a filter after the other while they end with 200, then the service, or the error response
for the first other status. The invariant says, for each place in the chain, what the
history is and that the one continuation of the request is held by the filter at work.

* `story`: the history of a request by the outcomes of its filters;
* `Phase`, `Chained`: the invariant;
* `own_step`, `other_step`: the steps of the request, and of the others;
* `ChainKept`, `filterChain`: what the chain guarantees.
-/

namespace IotAgent

namespace Filters

open Interleaving

variable {F R : Type}

/-! ### Histories -/

/-- The events of a request. -/
def logOf [DecidableEq R] (r : R) (log : List (Event F R)) : List (Event F R) :=
  log.filter fun e => e.request = r

/-- The filters that were invoked, in order. -/
def invokedFilters (l : List (Event F R)) : List F :=
  l.filterMap fun e => match e with
    | .invoked _ f => some f
    | _ => none

/-- The statuses that the filters called back with, in order. -/
def statuses (l : List (Event F R)) : List ℤ :=
  l.filterMap fun e => match e with
    | .outcome _ _ status => some status
    | _ => none

/-- The error responses. -/
def responses (l : List (Event F R)) : List ErrorResponse :=
  l.filterMap fun e => match e with
    | .answered _ response => some response
    | _ => none

/-- The history of a request whose first filters ended with these statuses. -/
def story (r : R) : List F → List ℤ → List (Event F R)
  | f :: fs, s :: ss => .invoked r f :: .outcome r f s :: story r fs ss
  | _, _ => []

/-- The statuses of filters that let the request pass. -/
def passed (k : ℕ) : List ℤ := List.replicate k Types.responseCodeOk

/-- Every filter was invoked when all before it had ended with 200. -/
def Guarded (l : List (Event F R)) : Prop :=
  ∀ l₁ r f l₂, l = l₁ ++ .invoked r f :: l₂ → statuses l₁ = passed (invokedFilters l₁).length

section Story

variable {r : R} {filters : List F} {f : F} {s : ℤ} {ss : List ℤ} {l l' : List (Event F R)}

lemma invokedFilters_append : invokedFilters (l ++ l') = invokedFilters l ++ invokedFilters l' :=
  List.filterMap_append

lemma statuses_append : statuses (l ++ l') = statuses l ++ statuses l' := List.filterMap_append

lemma responses_append : responses (l ++ l') = responses l ++ responses l' :=
  List.filterMap_append

/-- One more filter ends. -/
lemma story_concat (hf : filters[ss.length]? = some f) :
    story r filters (ss ++ [s]) = story r filters ss ++ [.invoked r f, .outcome r f s] := by
  induction ss generalizing filters with
  | nil =>
      cases filters with
      | nil => simp at hf
      | cons g gs =>
          simp only [List.length_nil, List.getElem?_cons_zero, Option.some.injEq] at hf
          simp [story, hf]
  | cons s' ss ih =>
      cases filters with
      | nil => simp at hf
      | cons g gs =>
          have htail : gs[ss.length]? = some f := by simpa using hf
          simp only [List.cons_append, story, ih htail]

lemma invokedFilters_story : invokedFilters (story r filters ss) = filters.take ss.length := by
  induction ss generalizing filters with
  | nil => cases filters <;> rfl
  | cons s ss ih =>
      cases filters with
      | nil => rfl
      | cons g gs => simpa [story, invokedFilters] using ih

lemma statuses_story (h : ss.length ≤ filters.length) : statuses (story r filters ss) = ss := by
  induction ss generalizing filters with
  | nil => cases filters <;> rfl
  | cons s ss ih =>
      cases filters with
      | nil => simp at h
      | cons g gs =>
          have hlen : ss.length ≤ gs.length := by simpa using h
          simpa [story, statuses] using ih hlen

lemma responses_story : responses (story r filters ss) = [] := by
  induction ss generalizing filters with
  | nil => cases filters <;> rfl
  | cons s ss ih =>
      cases filters with
      | nil => rfl
      | cons g gs => simpa [story, responses] using ih

lemma handled_notMem_story : Event.handled r ∉ story r filters ss := by
  induction ss generalizing filters with
  | nil => cases filters <;> simp [story]
  | cons s ss ih =>
      cases filters with
      | nil => simp [story]
      | cons g gs => simpa [story] using ih

lemma guarded_nil : Guarded ([] : List (Event F R)) := by
  intro l₁ r f l₂ h
  simp at h

/-- One more event: if a filter is invoked, the others have ended with 200. -/
lemma Guarded.concat {e : Event F R} (hl : Guarded l)
    (he : ∀ r f, e = .invoked r f → statuses l = passed (invokedFilters l).length) :
    Guarded (l ++ [e]) := by
  intro l₁ r f l₂ h
  rcases List.eq_nil_or_concat l₂ with rfl | ⟨l₃, e', rfl⟩
  · obtain ⟨rfl, hlast⟩ := List.append_inj' h rfl
    exact he r f (List.head_eq_of_cons_eq hlast)
  · have h' : l ++ [e] = (l₁ ++ .invoked r f :: l₃) ++ [e'] := by simpa using h
    exact hl l₁ r f l₃ (List.append_inj' h' rfl).1

/-- A filter is invoked and ends. -/
lemma Guarded.outcome (hl : Guarded l)
    (h : statuses l = passed (invokedFilters l).length) :
    Guarded (l ++ [.invoked r f, .outcome r f s]) := by
  have hfirst : Guarded (l ++ [Event.invoked r f]) := hl.concat fun _ _ _ => h
  have hsecond := hfirst.concat (e := Event.outcome r f s) fun _ _ he => by cases he
  simpa using hsecond

end Story

/-! ### What an action does -/

section Actions

/-- The filter and the trace header under which a task waits for its call back. -/
def place (filters : List F) (trace : R → String) : Task R → Option (F × String)
  | .registered r k | .posted r k | .working r k | .calling r k _ =>
      filters[k]?.map fun f => (f, trace r)
  | _ => none

/-- The filter and the trace header under which the next action of a task registers a
continuation, or takes one out. -/
def target (filters : List F) (trace : R → String) : Task R → Option (F × String)
  | .executeFilters r k status =>
      if status = Types.responseCodeOk then filters[k]?.map fun f => (f, trace r) else none
  | .calling r k _ => filters[k]?.map fun f => (f, trace r)
  | _ => none

/-- An action leaves the continuations and goes on at the same place, or registers the
continuation, or takes out the one that is there. -/
inductive Acts [DecidableEq F] (filters : List F) (trace : R → String) :
    State F R → Task R → State F R → Task R → Prop
  | quiet {s s' : State F R} {t t' : Task R} {es : List (Event F R)}
      (hcb : s'.callbacks = s.callbacks) (hlog : s'.log = s.log ++ es)
      (hes : ∀ e ∈ es, t.request = some e.request)
      (hreq : t'.request = t.request ∨ t' = .ended)
      (hplace : place filters trace t = none ∨ place filters trace t' = place filters trace t) :
      Acts filters trace s t s' t'
  | register {s : State F R} {r : R} {k : ℕ} {f : F} (hf : filters[k]? = some f) :
      Acts filters trace s (.executeFilters r k Types.responseCodeOk)
        (s.setAsyncFilter f (trace r) (continuation filters r k)) (.registered r k)
  | take {s : State F R} {r : R} {k : ℕ} {f : F} {status : ℤ} (hf : filters[k]? = some f) :
      Acts filters trace s (.calling r k status) (s.takeCallback f (trace r))
        (((s.callbacks f (trace r)).map (Task.ofCallback status)).getD .ended)

variable [DecidableEq F] {filters : List F} {trace : R → String} {o : ℤ}
  {s s' : State F R} {t t' : Task R}

lemma acts_tell {r : R} (e : Event F R) (hr : t.request = some r) (he : e.request = r)
    (hreq : t'.request = t.request ∨ t' = .ended)
    (hplace : place filters trace t = none ∨ place filters trace t' = place filters trace t) :
    Acts filters trace s t (s.tell e) t' :=
  .quiet rfl rfl (fun e' he' => by rw [List.mem_singleton.mp he', he, hr]) hreq hplace

lemma acts_none (hreq : t'.request = t.request ∨ t' = .ended)
    (hplace : place filters trace t = none ∨ place filters trace t' = place filters trace t) :
    Acts filters trace s t s t' :=
  .quiet rfl (List.append_nil s.log).symm (fun _ he => by cases he) hreq hplace

lemma prog_acts (h : prog filters trace o s t = some (s', t')) :
    Acts filters trace s t s' t' := by
  cases t with
  | arriving r =>
      simp only [prog] at h
      split at h <;> cases h
      · exact acts_none (.inl rfl) (.inl rfl)
      · exact acts_tell _ rfl rfl (.inr rfl) (.inl rfl)
  | executeFilters r k status =>
      simp only [prog] at h
      split at h
      · cases h
        exact acts_none (.inl rfl) (.inl rfl)
      · next hok =>
          rw [not_not.mp hok]
          split at h <;> cases h
          · exact acts_none (.inr rfl) (.inl rfl)
          · next f hf => exact .register hf
  | registered r k =>
      cases h
      exact acts_none (.inl rfl) (.inr rfl)
  | posted r k =>
      simp only [prog] at h
      split at h <;> cases h
      · next hf => exact acts_none (.inr rfl) (.inl (by simp [place, hf]))
      · exact acts_tell _ rfl rfl (.inl rfl) (.inr rfl)
  | working r k =>
      simp only [prog] at h
      split at h <;> cases h
      · next hf => exact acts_none (.inr rfl) (.inl (by simp [place, hf]))
      · exact acts_tell _ rfl rfl (.inl rfl) (.inr rfl)
  | calling r k status =>
      simp only [prog] at h
      split at h <;> cases h
      · next hf => exact acts_none (.inr rfl) (.inl (by simp [place, hf]))
      · next f hf => exact .take hf
  | handleEndFilters r k status =>
      simp only [prog] at h
      split at h <;> cases h
      · exact acts_tell _ rfl rfl (.inr rfl) (.inl rfl)
      · exact acts_tell _ rfl rfl (.inr rfl) (.inl rfl)
  | ended => cases h

end Actions

/-! ### The continuations -/

section Continuations

variable [DecidableEq F] {filters : List F} {trace : R → String}
  {s s' : State F R} {t t' : Task R}

/-- A continuation is held under the trace header of its request. -/
def Keyed (trace : R → String) (s : State F R) : Prop :=
  ∀ f u cb, s.callbacks f u = some cb → trace cb.request = u

/-- A continuation is held where some task waits for its call back. -/
def Awaited (filters : List F) (trace : R → String) (c : Config (State F R) (Task R)) : Prop :=
  ∀ f u cb, c.shared.callbacks f u = some cb →
    ∃ t ∈ c.tasks, place filters trace t = some (f, u)

omit [DecidableEq F] in
lemma request_continuation (r : R) (k : ℕ) : (continuation filters r k).request = r := by
  rw [continuation]
  split <;> rfl

/-- A continuation that is registered is the new one, unless there was one. -/
lemma callbacks_setAsyncFilter {f g : F} {u uuid : String} {cb cb' : Callback R}
    (h : (s.setAsyncFilter f uuid cb).callbacks g u = some cb') :
    s.callbacks g u = some cb' ∨ (g = f ∧ u = uuid ∧ cb' = cb) := by
  simp only [State.setAsyncFilter] at h
  split at h
  · next hgu =>
      obtain ⟨rfl, rfl⟩ := hgu
      cases hcb : s.callbacks g u with
      | none =>
          simp only [hcb, Option.getD_none, Option.some.injEq] at h
          exact .inr ⟨rfl, rfl, h.symm⟩
      | some cb₀ =>
          simp only [hcb, Option.getD_some] at h
          exact .inl h
  · exact .inl h

lemma callbacks_takeCallback {f g : F} {u uuid : String} {cb : Callback R}
    (h : (s.takeCallback f uuid).callbacks g u = some cb) :
    s.callbacks g u = some cb ∧ ¬ (g = f ∧ u = uuid) := by
  simp only [State.takeCallback] at h
  split at h
  · cases h
  · next hgu => exact ⟨h, hgu⟩

lemma keyed_step (hs : Keyed trace s) (h : Acts filters trace s t s' t') : Keyed trace s' := by
  intro f u cb hcb
  cases h with
  | quiet hsame => exact hs f u cb (hsame ▸ hcb)
  | register hf =>
      rcases callbacks_setAsyncFilter hcb with hold | ⟨-, rfl, rfl⟩
      · exact hs f u cb hold
      · rw [request_continuation]
  | take hf => exact hs f u cb (callbacks_takeCallback hcb).1

/-- A task that waits at a place goes on waiting there, or takes out the continuation. -/
lemma awaited_step {c : Config (State F R) (Task R)} {i : ℕ} (hc : Awaited filters trace c)
    (hget : c.tasks[i]? = some t) (h : Acts filters trace c.shared t s' t') :
    Awaited filters trace ⟨s', c.tasks.set i t'⟩ := by
  have hi : i < c.tasks.length := (List.getElem?_eq_some_iff.mp hget).1
  have hnew : t' ∈ c.tasks.set i t' := List.mem_set hi t'
  -- a task that waited at `(f, u)` still waits there, unless it is the one that acts
  have hkeep : ∀ f u, (place filters trace t = some (f, u) →
      place filters trace t' = some (f, u)) →
      (∃ v ∈ c.tasks, place filters trace v = some (f, u)) →
      ∃ v ∈ c.tasks.set i t', place filters trace v = some (f, u) := by
    rintro f u hact ⟨v, hv, hplace⟩
    obtain ⟨j, hj⟩ := List.mem_iff_getElem?.mp hv
    by_cases hij : i = j
    · subst hij
      rw [hget, Option.some.injEq] at hj
      exact ⟨t', hnew, hact (hj ▸ hplace)⟩
    · exact ⟨v, List.mem_iff_getElem?.mpr ⟨j, by rw [List.getElem?_set_ne hij, hj]⟩, hplace⟩
  intro f u cb hcb
  cases h with
  | quiet hsame _ _ _ hplace =>
      refine hkeep f u (fun hp => ?_) (hc f u cb (hsame ▸ hcb))
      rcases hplace with hnone | heq
      · rw [hnone] at hp
        cases hp
      · rw [heq, hp]
  | register hf =>
      rcases callbacks_setAsyncFilter hcb with hold | ⟨rfl, rfl, -⟩
      · exact hkeep f u (fun hp => by cases hp) (hc f u cb hold)
      · exact ⟨_, hnew, by simp [place, hf]⟩
  | take hf =>
      obtain ⟨hold, hne⟩ := callbacks_takeCallback hcb
      refine hkeep f u (fun hp => ?_) (hc f u cb hold)
      simp only [place, hf, Option.map_some, Option.some.injEq, Prod.mk.injEq] at hp
      exact absurd ⟨hp.1.symm, hp.2.symm⟩ hne

end Continuations

/-! ### The invariant -/

section Invariant

variable [DecidableEq R] (filters : List F) (trace : R → String) (r : R)

/-- No continuation of the request is held. -/
def NoneHeld (s : State F R) : Prop :=
  ∀ f u cb, s.callbacks f u = some cb → cb.request ≠ r

/-- The continuation behind a filter is held there, and is the only one of the request. -/
structure HeldAt (numFilter : ℕ) (f : F) (s : State F R) : Prop where
  held : s.callbacks f (trace r) = some (continuation filters r numFilter)
  only : ∀ g u cb, s.callbacks g u = some cb → cb.request = r → g = f ∧ u = trace r

/-- The history of a request that came to its end. -/
def Finished (l : List (Event F R)) : Prop :=
  (∃ j < filters.length, ∃ status ≠ Types.responseCodeOk,
    l = story r filters (passed j ++ [status]) ++ [.answered r (endError status)]) ∨
  l = story r filters (passed filters.length) ++ [.handled r]

/-- What the places in the chain mean: the history so far, and the continuation. -/
def Phase (s : State F R) : Task R → Prop
  | .arriving _ => NoneHeld r s ∧ logOf r s.log = []
  | .executeFilters _ k status => NoneHeld r s ∧
      ((status = Types.responseCodeOk ∧ k < filters.length ∧
          logOf r s.log = story r filters (passed k)) ∨
        (status ≠ Types.responseCodeOk ∧ ∃ j < filters.length,
          logOf r s.log = story r filters (passed j ++ [status])))
  | .registered _ k | .posted _ k => ∃ f, filters[k]? = some f ∧
      HeldAt filters trace r k f s ∧ logOf r s.log = story r filters (passed k)
  | .working _ k => ∃ f, filters[k]? = some f ∧ HeldAt filters trace r k f s ∧
      logOf r s.log = story r filters (passed k) ++ [.invoked r f]
  | .calling _ k status => ∃ f, filters[k]? = some f ∧ HeldAt filters trace r k f s ∧
      logOf r s.log = story r filters (passed k ++ [status])
  | .handleEndFilters _ _ status => NoneHeld r s ∧ ∃ j < filters.length,
      logOf r s.log = story r filters (passed j ++ [status]) ∧
      (status = Types.responseCodeOk → j + 1 = filters.length)
  | .ended => NoneHeld r s ∧ Finished filters r (logOf r s.log)

/-- The tasks of the request. -/
def isOf (t : Task R) : Bool := t.request = some r

/-- The request has one task, or came to its end. -/
def Chained (c : Config (State F R) (Task R)) : Prop :=
  ∃ t : Task R, (t.request = some r ∨ t = .ended) ∧
    c.tasks.filter (isOf r) = (if isOf r t then [t] else []) ∧
    Phase filters trace r c.shared t

end Invariant

/-! ### The steps of the request -/

section Own

variable [DecidableEq F] [DecidableEq R] {filters : List F} {trace : R → String} {r : R}
  {o : ℤ} {s s' : State F R} {t t' : Task R}

omit [DecidableEq F] in
lemma logOf_tell (e : Event F R) :
    logOf r (s.tell e).log = if e.request = r then logOf r s.log ++ [e] else logOf r s.log := by
  by_cases he : e.request = r <;> simp [logOf, State.tell, List.filter_append, he]

omit [DecidableEq F] in
lemma length_passed (k : ℕ) : (passed k).length = k := List.length_replicate

omit [DecidableEq F] [DecidableEq R] in
lemma story_nil : story r filters [] = [] := by
  cases filters <;> rfl

omit [DecidableEq F] [DecidableEq R] in
lemma story_passed_zero : story r filters (passed 0) = [] := story_nil

omit [DecidableEq F] [DecidableEq R] in
/-- The next filter ends. -/
lemma story_passed_concat {k : ℕ} {f : F} {status : ℤ} (hf : filters[k]? = some f) :
    story r filters (passed k ++ [status])
      = story r filters (passed k) ++ [.invoked r f, .outcome r f status] :=
  story_concat (by rw [passed, List.length_replicate, hf])

lemma passed_succ (k : ℕ) : passed (k + 1) = passed k ++ [Types.responseCodeOk] :=
  List.replicate_succ'

omit [DecidableEq R] in
/-- A continuation that finds its place free is held there. -/
lemma NoneHeld.setAsyncFilter {k : ℕ} {f : F} (hnone : NoneHeld r s)
    (hfree : s.callbacks f (trace r) = none) :
    HeldAt filters trace r k f (s.setAsyncFilter f (trace r) (continuation filters r k)) := by
  refine ⟨by simp [State.setAsyncFilter, hfree], fun g u cb hcb hq => ?_⟩
  rcases callbacks_setAsyncFilter hcb with hold | ⟨rfl, rfl, -⟩
  · exact absurd hq (hnone g u cb hold)
  · exact ⟨rfl, rfl⟩

omit [DecidableEq R] in
/-- The only continuation is taken out. -/
lemma HeldAt.takeCallback {k : ℕ} {f : F} (hheld : HeldAt filters trace r k f s) :
    NoneHeld r (s.takeCallback f (trace r)) := by
  intro g u cb hcb hq
  obtain ⟨hold, hnot⟩ := callbacks_takeCallback hcb
  exact hnot (hheld.only g u cb hold hq)

omit [DecidableEq F] in
/-- The continuation behind a filter goes on with the next one, or to the end of the chain. -/
lemma phase_continuation {k : ℕ} {status : ℤ} (hk : k < filters.length) (hnone : NoneHeld r s)
    (hlog : logOf r s.log = story r filters (passed k ++ [status])) :
    (Task.ofCallback status (continuation filters r k)).request = some r ∧
      Phase filters trace r s (Task.ofCallback status (continuation filters r k)) ∧
      (Task.ofCallback status (continuation filters r k)).rank filters.length
        < (Task.calling r k status).rank filters.length := by
  rw [continuation]
  split
  · -- another filter is behind this one
    next hlast =>
      refine ⟨rfl, ⟨hnone, ?_⟩, by simp only [Task.ofCallback, Task.rank]; omega⟩
      by_cases hok : status = Types.responseCodeOk
      · refine .inl ⟨hok, by omega, ?_⟩
        rw [passed_succ, ← hok]
        exact hlog
      · exact .inr ⟨hok, k, hk, hlog⟩
  · -- this was the last filter
    next hlast =>
      have hlen : k + 1 = filters.length := by omega
      exact ⟨rfl, ⟨hnone, k, hk, hlog, fun _ => hlen⟩, by simp [Task.ofCallback, Task.rank]⟩

/-- A step of the request goes on to the next place of its chain. -/
lemma own_step (hne : filters ≠ []) (hphase : Phase filters trace r s t)
    (hreq : t.request = some r)
    (hfree : ∀ k, t = .executeFilters r k Types.responseCodeOk →
      ∀ f, filters[k]? = some f → s.callbacks f (trace r) = none)
    (h : prog filters trace o s t = some (s', t')) :
    (t'.request = some r ∨ t' = .ended) ∧ Phase filters trace r s' t' ∧
      t'.rank filters.length < t.rank filters.length := by
  have hpos : 0 < filters.length := List.length_pos_iff.mpr hne
  cases t with
  | ended => cases hreq
  | arriving q =>
      obtain rfl : q = r := Option.some.inj hreq
      simp only [prog, if_pos hne] at h
      cases h
      refine ⟨.inl rfl, ⟨hphase.1, .inl ⟨rfl, hpos, ?_⟩⟩, by simp [Task.rank]⟩
      exact hphase.2.trans story_nil.symm
  | executeFilters q k status =>
      obtain rfl : q = r := Option.some.inj hreq
      obtain ⟨hnone, hcase⟩ := hphase
      rcases hcase with ⟨rfl, hk, hlog⟩ | ⟨hstatus, j, hj, hlog⟩
      · have hf : filters[k]? = some filters[k] := List.getElem?_eq_getElem hk
        simp only [prog, ne_eq, not_true_eq_false, if_false, hf] at h
        cases h
        exact ⟨.inl rfl, ⟨_, hf, hnone.setAsyncFilter (hfree k rfl _ hf), hlog⟩,
          by simp [Task.rank]⟩
      · simp only [prog, if_pos hstatus] at h
        cases h
        exact ⟨.inl rfl, ⟨hnone, j, hj, hlog, fun he => absurd he hstatus⟩,
          by simp [Task.rank]⟩
  | registered q k =>
      cases h
      exact ⟨.inl hreq, hphase, by simp [Task.rank]⟩
  | posted q k =>
      obtain rfl : q = r := Option.some.inj hreq
      obtain ⟨f, hf, hheld, hlog⟩ := hphase
      simp only [prog, hf] at h
      cases h
      refine ⟨.inl rfl, ⟨f, hf, ⟨hheld.held, hheld.only⟩, ?_⟩, by simp [Task.rank]⟩
      simp only [logOf_tell, Event.request, if_true]
      rw [hlog]
  | working q k =>
      obtain rfl : q = r := Option.some.inj hreq
      obtain ⟨f, hf, hheld, hlog⟩ := hphase
      simp only [prog, hf] at h
      cases h
      refine ⟨.inl rfl, ⟨f, hf, ⟨hheld.held, hheld.only⟩, ?_⟩, by simp [Task.rank]⟩
      simp only [logOf_tell, Event.request, if_true]
      rw [hlog, story_passed_concat hf, List.append_assoc]
      rfl
  | calling q k status =>
      obtain rfl : q = r := Option.some.inj hreq
      obtain ⟨f, hf, hheld, hlog⟩ := hphase
      have hk : k < filters.length := (List.getElem?_eq_some_iff.mp hf).1
      simp only [prog, hf, hheld.held, Option.map_some, Option.getD_some] at h
      cases h
      obtain ⟨hq, hphase', hrank⟩ := phase_continuation hk hheld.takeCallback hlog
      exact ⟨.inl hq, hphase', hrank⟩
  | handleEndFilters q k status =>
      obtain rfl : q = r := Option.some.inj hreq
      obtain ⟨hnone, j, hj, hlog, hall⟩ := hphase
      by_cases hok : status = Types.responseCodeOk
      · simp only [prog, hok, ne_eq, not_true_eq_false, if_false] at h
        cases h
        refine ⟨.inr rfl, ⟨hnone, .inr ?_⟩, by simp [Task.rank]⟩
        simp only [logOf_tell, Event.request, if_true]
        rw [hlog, ← hall hok, passed_succ, hok]
      · simp only [prog, if_pos hok] at h
        cases h
        refine ⟨.inr rfl, ⟨hnone, .inl ⟨j, hj, status, hok, ?_⟩⟩, by simp [Task.rank]⟩
        simp only [logOf_tell, Event.request, if_true]
        rw [hlog]

end Own

/-! ### The steps of the others -/

section Other

variable [DecidableEq F] [DecidableEq R] {filters : List F} {trace : R → String} {r : R}
  {o : ℤ} {s s' : State F R} {t t' u : Task R}

/-- The continuations of the request, and its history, that a step of another one leaves. -/
structure Frame (filters : List F) (trace : R → String) (r : R) (s s' : State F R) : Prop where
  log : logOf r s'.log = logOf r s.log
  none : NoneHeld r s → NoneHeld r s'
  held : ∀ k f, HeldAt filters trace r k f s → HeldAt filters trace r k f s'

omit [DecidableEq F] in
lemma Frame.phase (h : Frame filters trace r s s') (hu : Phase filters trace r s u) :
    Phase filters trace r s' u := by
  cases u with
  | arriving q | executeFilters q k status | handleEndFilters q k status | ended =>
      exact ⟨h.none hu.1, h.log.symm ▸ hu.2⟩
  | registered q k | posted q k | working q k | calling q k status =>
      obtain ⟨f, hf, hheld, hlog⟩ := hu
      exact ⟨f, hf, h.held k f hheld, h.log.trans hlog⟩

omit [DecidableEq F] in
/-- The request has no continuation, or one. -/
lemma Phase.cases (hu : Phase filters trace r s u) :
    NoneHeld r s ∨ ∃ k f, HeldAt filters trace r k f s := by
  cases u with
  | arriving q | executeFilters q k status | handleEndFilters q k status | ended =>
      exact .inl hu.1
  | registered q k | posted q k | working q k | calling q k status =>
      obtain ⟨f, -, hheld, -⟩ := hu
      exact .inr ⟨k, f, hheld⟩

omit [DecidableEq F] in
/-- Events of another request are none of this one. -/
lemma logOf_append {l es : List (Event F R)} (hes : ∀ e ∈ es, e.request ≠ r) :
    logOf r (l ++ es) = logOf r l := by
  have hnil : es.filter (fun e => e.request = r) = [] :=
    List.filter_eq_nil_iff.mpr fun e he => by simpa using hes e he
  rw [logOf, List.filter_append, hnil, List.append_nil, logOf]

omit [DecidableEq F] [DecidableEq R] in
/-- What a task registers or takes is not a continuation of a request with another trace
header, nor one of a request that has none. -/
lemma target_of_trace_ne (hkeyed : Keyed trace s)
    (hcase : NoneHeld r s ∨ ∃ k f, HeldAt filters trace r k f s)
    (hne : ∀ k f, HeldAt filters trace r k f s → ∀ q, t.underWay = some q → trace q ≠ trace r)
    {f : F} {v : String} {cb : Callback R} (htarget : target filters trace t = some (f, v))
    (hcb : s.callbacks f v = some cb) : cb.request ≠ r := by
  intro hr
  obtain ⟨q, hq, htrace⟩ : ∃ q, t.underWay = some q ∧ trace q = v := by
    cases t with
    | executeFilters q k status =>
        rw [target] at htarget
        split at htarget
        · obtain ⟨g, -, hg⟩ := Option.map_eq_some_iff.mp htarget
          exact ⟨q, rfl, (Prod.mk.inj hg).2⟩
        · cases htarget
    | calling q k status =>
        rw [target] at htarget
        obtain ⟨g, -, hg⟩ := Option.map_eq_some_iff.mp htarget
        exact ⟨q, rfl, (Prod.mk.inj hg).2⟩
    | arriving | registered | posted | working | handleEndFilters | ended => cases htarget
  rcases hcase with hnone | ⟨k, g, hheld⟩
  · exact hnone f v cb hcb hr
  · refine hne k g hheld q hq ?_
    rw [htrace, ← hkeyed f v cb hcb, hr]

/-- A step of another request, which meets no continuation of this one. -/
lemma other_step (hq : t.request ≠ some r)
    (htarget : ∀ f v cb, target filters trace t = some (f, v) → s.callbacks f v = some cb →
      cb.request ≠ r)
    (h : Acts filters trace s t s' t') :
    t'.request ≠ some r ∧ Frame filters trace r s s' := by
  -- the continuation of the request is not where the other one registers or takes
  have hplace : ∀ k g f v, HeldAt filters trace r k g s →
      target filters trace t = some (f, v) → ¬ (g = f ∧ trace r = v) := by
    rintro k g f v hheld ht ⟨rfl, rfl⟩
    exact htarget g _ _ ht hheld.held (request_continuation r k)
  cases h with
  | quiet hcb hlog hes hreq hplace =>
      refine ⟨?_, ?_, fun hnone f v cb hc => hnone f v cb (hcb ▸ hc),
        fun k f hheld => ⟨hcb ▸ hheld.held, hcb ▸ hheld.only⟩⟩
      · rcases hreq with heq | rfl
        · rwa [heq]
        · exact fun he => by cases he
      · rw [hlog]
        exact logOf_append fun e he hr => hq (hr ▸ hes e he)
  | @register q k f hf =>
      have hqr : q ≠ r := fun he => hq (he ▸ rfl)
      have ht : target filters trace (.executeFilters q k Types.responseCodeOk) =
          some (f, trace q) := by simp [target, hf]
      refine ⟨hq, rfl, fun hnone g v cb hc => ?_, fun k' g hheld => ⟨?_, fun g' v cb hc hr => ?_⟩⟩
      · rcases callbacks_setAsyncFilter hc with hold | ⟨-, -, rfl⟩
        · exact hnone g v cb hold
        · rwa [request_continuation]
      · simp only [State.setAsyncFilter, if_neg (hplace k' g f _ hheld ht), hheld.held]
      · rcases callbacks_setAsyncFilter hc with hold | ⟨-, -, rfl⟩
        · exact hheld.only g' v cb hold hr
        · exact absurd ((request_continuation q k).symm.trans hr) hqr
  | @take q k f status hf =>
      have ht : target filters trace (.calling q k status) = some (f, trace q) := by
        simp [target, hf]
      refine ⟨?_, rfl, fun hnone g v cb hc => hnone g v cb (callbacks_takeCallback hc).1,
        fun k' g hheld => ⟨?_, fun g' v cb hc hr =>
          hheld.only g' v cb (callbacks_takeCallback hc).1 hr⟩⟩
      · cases hcb : s.callbacks f (trace q) with
        | none => exact fun he => by cases he
        | some cb =>
            have hcbr : cb.request ≠ r := htarget f _ cb ht hcb
            have hreq : (Task.ofCallback status cb).request = some cb.request := by
              cases cb <;> rfl
            simpa [hreq] using hcbr
      · simp only [State.takeCallback, if_neg (hplace k' g f _ hheld ht), hheld.held]

end Other

/-! ### Runs -/

section Runs

variable [DecidableEq F] [DecidableEq R] {filters : List F} {trace : R → String} {r : R}
  {ok : Guard (State F R) (Task R) ℤ} {c c' : Config (State F R) (Task R)}

/-- The invariant of a run. -/
structure Inv (filters : List F) (trace : R → String) (r : R)
    (c : Config (State F R) (Task R)) : Prop where
  keyed : Keyed trace c.shared
  awaited : Awaited filters trace c
  chained : Chained filters trace r c

omit [DecidableEq F] [DecidableEq R] in
/-- A task that waits for a call back is under way, and has the trace header of its place. -/
lemma underWay_of_place {t : Task R} {f : F} {u : String}
    (h : place filters trace t = some (f, u)) : ∃ q, t.underWay = some q ∧ trace q = u := by
  cases t with
  | registered q k | posted q k | working q k | calling q k status =>
      refine ⟨q, rfl, ?_⟩
      rw [place] at h
      cases hf : filters[k]? with
      | none => simp [hf] at h
      | some g =>
          simp only [hf, Option.map_some, Option.some.injEq, Prod.mk.injEq] at h
          exact h.2
  | arriving q | executeFilters q k status | handleEndFilters q k status | ended => cases h

omit [DecidableEq F] in
/-- A request whose continuation is held is under way. -/
lemma underWay_of_heldAt {k : ℕ} {f : F} {s : State F R} {u : Task R}
    (hu : u.request = some r ∨ u = .ended) (hphase : Phase filters trace r s u)
    (hheld : HeldAt filters trace r k f s) : u.underWay = some r := by
  have hnot : ¬ NoneHeld r s := fun hnone =>
    hnone f _ _ hheld.held (request_continuation r k)
  cases u with
  | arriving q | executeFilters q k status | handleEndFilters q k status | ended =>
      exact absurd hphase.1 hnot
  | registered q k | posted q k | working q k | calling q k status =>
      rcases hu with hu | hu
      · exact hu
      · cases hu

omit [DecidableEq F] in
/-- The request finds no continuation under its trace header where it registers one. -/
lemma free_of_executeFilters {t : Task R} {k : ℕ} (hawaited : Awaited filters trace c)
    (hapart : Apart trace r c) (hfilter : c.tasks.filter (isOf r) = [t])
    (ht : t = .executeFilters r k Types.responseCodeOk) (f : F) :
    c.shared.callbacks f (trace r) = none := by
  by_contra hsome
  obtain ⟨cb, hcb⟩ := Option.ne_none_iff_exists'.mp hsome
  obtain ⟨v, hv, hplace⟩ := hawaited f _ cb hcb
  obtain ⟨q, hq, htrace⟩ := underWay_of_place hplace
  have hmem : t ∈ c.tasks := (List.mem_filter.mp (hfilter ▸ List.mem_singleton_self t)).1
  by_cases hqr : q = r
  · subst hqr
    have hreq : v.request = some q := by
      cases v with
      | arriving => cases hq
      | _ => exact hq
    have hvt : v ∈ c.tasks.filter (isOf q) := List.mem_filter.mpr ⟨hv, by simp [isOf, hreq]⟩
    rw [hfilter, List.mem_singleton] at hvt
    rw [hvt, ht] at hplace
    cases hplace
  · exact hapart t hmem v hv (ht ▸ rfl) q hq hqr htrace

omit [DecidableEq F] in
/-- A task of the request is its one task. -/
lemma single_of_own {t u : Task R} (hfilter : c.tasks.filter (isOf r) =
      if isOf r u then [u] else []) (hmem : t ∈ c.tasks) (ht : t.request = some r) :
    t = u ∧ c.tasks.filter (isOf r) = [t] := by
  have hmem' : t ∈ c.tasks.filter (isOf r) :=
    List.mem_filter.mpr ⟨hmem, by simp [isOf, ht]⟩
  by_cases hu : isOf r u = true
  · rw [if_pos hu] at hfilter
    rw [hfilter, List.mem_singleton] at hmem'
    exact ⟨hmem', hmem' ▸ hfilter⟩
  · rw [if_neg hu] at hfilter
    rw [hfilter] at hmem'
    cases hmem'

omit [DecidableEq F] in
/-- While a continuation of the request is held, another task has another trace header. -/
lemma trace_ne_of_heldAt {t u : Task R} {k : ℕ} {f : F} {q : R} (hapart : Apart trace r c)
    (hu : u.request = some r ∨ u = .ended)
    (hfilter : c.tasks.filter (isOf r) = if isOf r u then [u] else [])
    (hphase : Phase filters trace r c.shared u) (hheld : HeldAt filters trace r k f c.shared)
    (hmem : t ∈ c.tasks) (ht : t.request ≠ some r) (hq : t.underWay = some q) :
    trace q ≠ trace r := by
  have huw := underWay_of_heldAt hu hphase hheld
  have hisOf : isOf r u = true := by
    rcases hu with hu | rfl
    · simp [isOf, hu]
    · cases huw
  have humem : u ∈ c.tasks.filter (isOf r) := by
    rw [hfilter, if_pos hisOf]
    exact List.mem_singleton_self u
  refine hapart u (List.mem_filter.mp humem).1 t hmem huw q hq ?_
  rintro rfl
  refine ht ?_
  cases t with
  | arriving => cases hq
  | _ => exact hq

/-- The chain of the request through a step of any task. A step of its own lowers the number
of actions that it has left. -/
lemma chained_step (hne : filters ≠ []) (hapart : Apart trace r c) (hinv : Inv filters trace r c)
    (hs : Step (prog filters trace) ok c c') :
    Chained filters trace r c' ∧
      (c'.tasks.filter (isOf r) = c.tasks.filter (isOf r) ∨
        ((c'.tasks.filter (isOf r)).map (Task.rank filters.length)).sum
          < ((c.tasks.filter (isOf r)).map (Task.rank filters.length)).sum) := by
  obtain ⟨u, hu, hfilter, hphase⟩ := hinv.chained
  cases hs with
  | @act i o t t' s' hget hok hrun =>
      have hmem := List.mem_of_getElem? hget
      by_cases ht : t.request = some r
      · -- the request itself
        obtain ⟨rfl, hsingle⟩ := single_of_own hfilter hmem ht
        obtain ⟨hreq, hphase', hrank⟩ := own_step hne hphase ht
          (fun k hk f _ => free_of_executeFilters hinv.awaited hapart hsingle hk f) hrun
        have hset := (filter_set_of_single t' hsingle hget (by simp [isOf, ht])).2
        refine ⟨⟨t', hreq, hset, hphase'⟩, .inr ?_⟩
        show (((c.tasks.set i t').filter (isOf r)).map _).sum < _
        rw [hset, hsingle]
        split
        · simpa using hrank
        · simpa using Nat.lt_of_le_of_lt (Nat.zero_le _) hrank
      · -- another request
        obtain ⟨ht', hframe⟩ := other_step ht
          (fun _ _ _ htarget hcb => target_of_trace_ne hinv.keyed (Phase.cases hphase)
            (fun _ _ hheld _ hq => trace_ne_of_heldAt hapart hu hfilter hphase hheld hmem ht hq)
            htarget hcb)
          (prog_acts hrun)
        have hset := filter_set_of_not (p := isOf r) t' hget (by simpa [isOf] using ht)
          (by simpa [isOf] using ht')
        exact ⟨⟨u, hu, hset.trans hfilter, hframe.phase hphase⟩, .inl hset⟩

end Runs

/-! ### What the chain guarantees -/

section Guarantees

variable [DecidableEq F] [DecidableEq R] {filters : List F} {trace : R → String} {r : R}
  {l : List (Event F R)} {f : F} {k : ℕ} {status : ℤ} {c : Config (State F R) (Task R)}

/-- What holds of a history at any time: the filters are invoked in their order, each after
all before it ended with 200, and the service handles the request once at most, and only
when all ended with 200. -/
structure HistoryKept (filters : List F) (r : R) (l : List (Event F R)) : Prop where
  order : invokedFilters l <+: filters
  guarded : Guarded l
  outcomes : (statuses l).length ≤ (invokedFilters l).length ∧
    (invokedFilters l).length ≤ (statuses l).length + 1
  handledOnce : l.count (.handled r) ≤ 1
  handled : l.count (.handled r) = 1 → statuses l = passed filters.length ∧ responses l = []

omit [DecidableEq F] [DecidableEq R] in
lemma guarded_story_passed (hk : k ≤ filters.length) : Guarded (story r filters (passed k)) := by
  induction k with
  | zero =>
      rw [story_passed_zero]
      exact guarded_nil
  | succ k ih =>
      have hf : filters[k]? = some filters[k] := List.getElem?_eq_getElem (by omega)
      rw [passed_succ, story_passed_concat hf]
      refine (ih (by omega)).outcome ?_
      rw [statuses_story (by rw [length_passed]; omega), invokedFilters_story,
        List.length_take, length_passed, Nat.min_eq_left (by omega)]

omit [DecidableEq F] [DecidableEq R] in
/-- The filters up to the next one let the request pass. -/
lemma statuses_passed (hk : k ≤ filters.length) :
    statuses (story r filters (passed k))
      = passed (invokedFilters (story r filters (passed k))).length := by
  rw [statuses_story (by rw [length_passed]; omega), invokedFilters_story, List.length_take,
    length_passed, Nat.min_eq_left hk]

/-- A history without an answer. -/
lemma historyKept_of_notMem (horder : invokedFilters l <+: filters) (hguarded : Guarded l)
    (houtcomes : (statuses l).length ≤ (invokedFilters l).length ∧
      (invokedFilters l).length ≤ (statuses l).length + 1)
    (hhandled : Event.handled r ∉ l) : HistoryKept filters r l := by
  have hcount : l.count (.handled r) = 0 := List.count_eq_zero.mpr hhandled
  exact ⟨horder, hguarded, houtcomes, by omega, fun h => by omega⟩

/-- While the filters let the request pass. -/
lemma historyKept_passed (hk : k ≤ filters.length) :
    HistoryKept filters r (story r filters (passed k)) := by
  refine historyKept_of_notMem ?_ (guarded_story_passed hk) ?_ handled_notMem_story
  · rw [invokedFilters_story]
    exact List.take_prefix _ _
  · rw [statuses_passed hk, length_passed]
    omega

/-- While a filter is at work. -/
lemma historyKept_working (hf : filters[k]? = some f) :
    HistoryKept filters r (story r filters (passed k) ++ [.invoked r f]) := by
  have hk : k < filters.length := (List.getElem?_eq_some_iff.mp hf).1
  have hinv : invokedFilters (story r filters (passed k) ++ [.invoked r f])
      = filters.take (k + 1) := by
    rw [invokedFilters_append, invokedFilters_story, length_passed, List.take_add_one, hf]
    rfl
  have hstat : statuses (story r filters (passed k) ++ [.invoked r f]) = passed k := by
    rw [statuses_append, statuses_story (by rw [length_passed]; omega)]
    exact List.append_nil _
  refine historyKept_of_notMem ?_ ?_ ?_ ?_
  · rw [hinv]
    exact List.take_prefix _ _
  · exact (guarded_story_passed (by omega)).concat fun _ _ _ => statuses_passed (by omega)
  · rw [hinv, hstat, length_passed, List.length_take]
    omega
  · simp [handled_notMem_story]

/-- When a filter has ended. -/
lemma historyKept_ended (r : R) (status : ℤ) (hk : k < filters.length) :
    HistoryKept filters r (story r filters (passed k ++ [status])) ∧
      statuses (story r filters (passed k ++ [status])) = passed k ++ [status] := by
  have hf : filters[k]? = some filters[k] := List.getElem?_eq_getElem hk
  have hlen : (passed k ++ [status]).length = k + 1 := by
    rw [List.length_append, length_passed, List.length_singleton]
  have hstat : statuses (story r filters (passed k ++ [status])) = passed k ++ [status] :=
    statuses_story (by omega)
  refine ⟨historyKept_of_notMem ?_ ?_ ?_ handled_notMem_story, hstat⟩
  · rw [invokedFilters_story]
    exact List.take_prefix _ _
  · rw [story_passed_concat hf]
    exact (guarded_story_passed (by omega)).outcome (statuses_passed (by omega))
  · rw [hstat, invokedFilters_story, hlen, List.length_take]
    omega

/-- The history of a request that was refused. -/
lemma historyKept_answered {response : ErrorResponse} (hk : k < filters.length) :
    HistoryKept filters r (story r filters (passed k ++ [status]) ++ [.answered r response]) := by
  obtain ⟨hkept, hstat⟩ := historyKept_ended r status hk
  have hsame : invokedFilters (story r filters (passed k ++ [status]) ++ [.answered r response])
      = invokedFilters (story r filters (passed k ++ [status])) := by
    rw [invokedFilters_append]
    exact List.append_nil _
  have hsameStat : statuses (story r filters (passed k ++ [status]) ++ [.answered r response])
      = statuses (story r filters (passed k ++ [status])) := by
    rw [statuses_append]
    exact List.append_nil _
  refine historyKept_of_notMem ?_ ?_ ?_ ?_
  · rw [hsame]
    exact hkept.order
  · exact hkept.guarded.concat fun _ _ he => by cases he
  · rw [hsame, hsameStat]
    exact hkept.outcomes
  · simp [handled_notMem_story]

/-- The history of a request that the service handled. -/
lemma historyKept_handled (filters : List F) (r : R) :
    HistoryKept filters r (story r filters (passed filters.length) ++ [.handled r]) ∧
      statuses (story r filters (passed filters.length) ++ [.handled r])
        = passed filters.length ∧
      (story r filters (passed filters.length) ++ [Event.handled r]).count
        (Event.handled r) = 1 := by
  have hkept := historyKept_passed (r := r) (Nat.le_refl filters.length)
  have hinv : invokedFilters (story r filters (passed filters.length) ++ [.handled r])
      = invokedFilters (story r filters (passed filters.length)) := by
    rw [invokedFilters_append]
    exact List.append_nil _
  have hsame : statuses (story r filters (passed filters.length) ++ [.handled r])
      = statuses (story r filters (passed filters.length)) := by
    rw [statuses_append]
    exact List.append_nil _
  have hstat : statuses (story r filters (passed filters.length)) = passed filters.length :=
    statuses_story (Nat.le_of_eq (length_passed _))
  have hresp : responses (story r filters (passed filters.length) ++ [.handled r]) = [] := by
    rw [responses_append, responses_story]
    rfl
  have hcount : (story r filters (passed filters.length) ++ [Event.handled r]).count
      (Event.handled r) = 1 := by
    rw [List.count_append, List.count_eq_zero.mpr handled_notMem_story]
    simp
  refine ⟨⟨?_, ?_, ?_, Nat.le_of_eq hcount, fun _ => ⟨hsame.trans hstat, hresp⟩⟩,
    hsame.trans hstat, hcount⟩
  · rw [hinv]
    exact hkept.order
  · exact hkept.guarded.concat fun _ _ he => by cases he
  · rw [hinv, hsame]
    exact hkept.outcomes

/-- The history at any place of the chain. -/
lemma Phase.historyKept {s : State F R} {t : Task R} (h : Phase filters trace r s t) :
    HistoryKept filters r (logOf r s.log) := by
  cases t with
  | arriving q =>
      have hnil : HistoryKept filters r (story r filters (passed 0)) :=
        historyKept_passed (Nat.zero_le _)
      rwa [h.2, ← story_passed_zero]
  | executeFilters q k status =>
      rcases h.2 with ⟨-, hk, hlog⟩ | ⟨-, j, hj, hlog⟩
      · exact hlog ▸ historyKept_passed (Nat.le_of_lt hk)
      · exact hlog ▸ (historyKept_ended r _ hj).1
  | registered q k | posted q k =>
      obtain ⟨f, hf, -, hlog⟩ := h
      exact hlog ▸ historyKept_passed (Nat.le_of_lt (List.getElem?_eq_some_iff.mp hf).1)
  | working q k =>
      obtain ⟨f, hf, -, hlog⟩ := h
      exact hlog ▸ historyKept_working hf
  | calling q k status =>
      obtain ⟨f, hf, -, hlog⟩ := h
      exact hlog ▸ (historyKept_ended r _ (List.getElem?_eq_some_iff.mp hf).1).1
  | handleEndFilters q k status =>
      obtain ⟨-, j, hj, hlog, -⟩ := h
      exact hlog ▸ (historyKept_ended r _ hj).1
  | ended =>
      rcases h.2 with ⟨j, hj, status, -, hlog⟩ | hlog
      · exact hlog ▸ historyKept_answered hj
      · exact hlog ▸ (historyKept_handled filters r).1

/-- The first status that stops the chain. -/
lemma find_passed_concat (hstatus : status ≠ Types.responseCodeOk) :
    (passed k ++ [status]).find? (· ≠ Types.responseCodeOk) = some status := by
  rw [List.find?_append, passed, List.find?_eq_none.mpr]
  · simp [hstatus]
  · intro s hs
    simp [List.eq_of_mem_replicate hs]

/-- The request has no task left. -/
def Ended (r : R) (c : Config (State F R) (Task R)) : Prop :=
  ∀ t ∈ c.tasks, t.request ≠ some r

/-- What the chain guarantees of a request, in every configuration of a run. -/
structure ChainKept (filters : List F) (trace : R → String) (r : R)
    (c : Config (State F R) (Task R)) : Prop where
  history : HistoryKept filters r (logOf r c.shared.log)
  handled_iff : Ended r c → ((logOf r c.shared.log).count (.handled r) = 1 ↔
    statuses (logOf r c.shared.log) = passed filters.length)
  answered : Ended r c → statuses (logOf r c.shared.log) ≠ passed filters.length →
    (logOf r c.shared.log).count (.handled r) = 0 ∧
    ∃ status, (statuses (logOf r c.shared.log)).find? (· ≠ Types.responseCodeOk) = some status ∧
      responses (logOf r c.shared.log) = [endError status]
  live : ¬ Ended r c → ∃ t ∈ c.tasks, t.request = some r ∧
    ∀ status, (prog filters trace status c.shared t).isSome
  bounded : ∀ c', Step (prog filters trace) (fun _ _ _ => True) c c' →
    c'.tasks.filter (isOf r) = c.tasks.filter (isOf r) ∨
      ((c'.tasks.filter (isOf r)).map (Task.rank filters.length)).sum
        < ((c.tasks.filter (isOf r)).map (Task.rank filters.length)).sum

omit [DecidableEq R] in
/-- A task of a request can always act. -/
lemma prog_isSome {s : State F R} {t : Task R} (ht : t.request = some r) (status : ℤ) :
    (prog filters trace status s t).isSome := by
  cases t with
  | ended => cases ht
  | arriving q | executeFilters q k st | registered q k | posted q k | working q k
  | calling q k st | handleEndFilters q k st =>
      simp only [prog]
      repeat' split
      all_goals rfl

/-- A finished history. -/
lemma Finished.answered (h : Finished filters r l) :
    (l.count (.handled r) = 1 ↔ statuses l = passed filters.length) ∧
    (statuses l ≠ passed filters.length → l.count (.handled r) = 0 ∧
      ∃ status, (statuses l).find? (· ≠ Types.responseCodeOk) = some status ∧
        responses l = [endError status]) := by
  rcases h with ⟨j, hj, status, hstatus, rfl⟩ | rfl
  · obtain ⟨-, hstat⟩ := historyKept_ended r status hj
    have hall : statuses (story r filters (passed j ++ [status]) ++
        [.answered r (endError status)]) = passed j ++ [status] := by
      rw [statuses_append, hstat]
      exact List.append_nil _
    have hcount : (story r filters (passed j ++ [status]) ++
        [Event.answered r (endError status)]).count (Event.handled r) = 0 := by
      rw [List.count_eq_zero]
      simp [handled_notMem_story]
    have hne : passed j ++ [status] ≠ passed filters.length := by
      intro he
      have hmem : status ∈ passed filters.length := he ▸ by simp
      exact hstatus (List.eq_of_mem_replicate hmem)
    refine ⟨by rw [hcount, hall]; simpa using hne, fun _ => ⟨hcount, status, ?_, ?_⟩⟩
    · rw [hall]
      exact find_passed_concat hstatus
    · rw [responses_append, responses_story]
      rfl
  · obtain ⟨-, hstat, hcount⟩ := historyKept_handled filters r
    exact ⟨iff_of_true hcount hstat, fun hne => absurd hstat hne⟩

/-- A configuration of the invariant. -/
lemma Inv.chainKept (hne : filters ≠ []) (hapart : Apart trace r c)
    (hinv : Inv filters trace r c) : ChainKept filters trace r c := by
  obtain ⟨t, ht, hfilter, hphase⟩ := hinv.chained
  have hended : Ended r c → Finished filters r (logOf r c.shared.log) := by
    intro hend
    rcases ht with ht | rfl
    · have hmem : t ∈ c.tasks.filter (isOf r) := by
        rw [hfilter, if_pos (by simp [isOf, ht])]
        exact List.mem_singleton_self t
      exact absurd ht (hend t (List.mem_filter.mp hmem).1)
    · exact hphase.2
  refine ⟨hphase.historyKept, fun hend => (hended hend).answered.1,
    fun hend => (hended hend).answered.2, fun hnot => ?_,
    fun c' hs => (chained_step hne hapart hinv hs).2⟩
  simp only [Ended, not_forall, not_not] at hnot
  obtain ⟨v, hv, hreq⟩ := hnot
  exact ⟨v, hv, hreq, prog_isSome hreq⟩

omit [DecidableEq F] in
/-- The invariant at the start. -/
lemma inv_init {requests : List R} (hr : r ∈ requests) (hnodup : requests.Nodup) :
    Inv filters trace r (init (F := F) requests) ∧ Apart trace r (init (F := F) requests) := by
  have hfilter : (requests.map Task.arriving).filter (isOf r) = [Task.arriving r] := by
    have hcomp : requests.filter (isOf r ∘ Task.arriving) = [r] := by
      have heq : (isOf r ∘ Task.arriving) = fun q => q == r := by
        funext q
        rw [Bool.eq_iff_iff]
        simp [isOf, Task.request]
      rw [heq, List.filter_beq, List.count_eq_one_of_mem hnodup hr]
      rfl
    rw [List.filter_map, hcomp]
    rfl
  have hnone : ∀ f u cb, (init (F := F) requests).shared.callbacks f u ≠ some cb :=
    fun _ _ _ h => by cases h
  refine ⟨⟨fun f u cb h => absurd h (hnone f u cb), fun f u cb h => absurd h (hnone f u cb),
    .arriving r, .inl rfl, ?_, fun f u cb h => absurd h (hnone f u cb), rfl⟩,
    fun t ht u _ huw => ?_⟩
  · rw [init, hfilter, if_pos (by simp [isOf, Task.request])]
  · obtain ⟨q, -, rfl⟩ := List.mem_map.mp ht
    cases huw

/-- **The chain of filters**: whatever the filters and the other requests do, a request
whose trace header is that of no concurrent request passes the filters one after the other,
and is handled by the service or answered by the error response of the first status that is
not 200. -/
theorem filterChain {requests : List R} (hne : filters ≠ []) (hr : r ∈ requests)
    (hnodup : requests.Nodup) (hrun : ApartRun filters trace r (init requests) c) :
    ChainKept filters trace r c := by
  obtain ⟨hinit, hapart⟩ : Inv filters trace r (init requests) ∧ Apart trace r (init requests) :=
    inv_init hr hnodup
  have hstep : ∀ c c', Apart trace r c → Inv filters trace r c →
      Step (prog filters trace) (fun _ _ _ => True) c c' → Apart trace r c' →
      Inv filters trace r c' := by
    intro c c' hA hinv hs _
    have hchained := (chained_step hne hA hinv hs).1
    cases hs with
    | act hget _ hact =>
        have hacts := prog_acts hact
        exact ⟨keyed_step hinv.keyed hacts, awaited_step hinv.awaited hget hacts, hchained⟩
  obtain ⟨hapart', hinv'⟩ := RunIn.invariant hstep hapart hinit hrun
  exact hinv'.chainKept hne hapart'

end Guarantees

/-! ### Two requests -/

/-- Requests with trace headers of their own are apart throughout. -/
lemma apart_of_injective (htrace : Function.Injective trace) (c : Config (State F R) (Task R)) :
    Apart trace r c :=
  fun _ _ _ _ _ _ _ hne heq => hne (htrace heq)

/-- The trace headers of two requests. -/
def traceOf (r : Bool) : String := if r then "trace2" else "trace1"

lemma traceOf_injective : Function.Injective traceOf := by
  intro r q
  revert r q
  decide

/-- Two requests pass two filters in turns. The filters let the first pass, and know nothing of
the second. -/
def inTurns : Option (Config (State Bool Bool) (Task Bool)) :=
  exec (prog [false, true] traceOf) (fun _ _ _ => True)
    ((List.replicate 8 [(200, 0), (404, 1)]).flatten ++ List.replicate 4 (200, 0))
    (init [false, true])

lemma apartRun_inTurns {c : Config (State Bool Bool) (Task Bool)} (r : Bool)
    (h : inTurns = some c) : ApartRun [false, true] traceOf r (init [false, true]) c :=
  Run.runIn (apart_of_injective traceOf_injective) (run_of_exec h)

theorem filterChain_inTurns :
    ChainKept [false, true] traceOf false (inTurns.get (by decide +kernel)) ∧
      ChainKept [false, true] traceOf true (inTurns.get (by decide +kernel)) :=
  ⟨filterChain (by decide) (by decide) (by decide)
      (apartRun_inTurns false (Option.some_get _).symm),
    filterChain (by decide) (by decide) (by decide)
      (apartRun_inTurns true (Option.some_get _).symm)⟩

example : inTurns.map (fun c => (logOf false c.shared.log, logOf true c.shared.log)) =
    some (story false [false, true] (passed 2) ++ [.handled false],
      story true [false, true] [404] ++ [.answered true (endError 404)]) := by
  decide +kernel

/-! ### One filter -/

/-- A request alone, up to its end: the one filter calls back with the status. -/
def oneFilter (status : ℤ) : Option (Config (State Unit Unit) (Task Unit)) :=
  exec (prog [()] fun _ => "trace") (fun _ _ _ => True) (List.replicate 7 (status, 0))
    (init [()])

lemma apartRun_oneFilter {status : ℤ} {c : Config (State Unit Unit) (Task Unit)}
    (h : oneFilter status = some c) :
    ApartRun [()] (fun _ => "trace") () (init [()]) c :=
  Run.runIn (apart_of_injective fun _ _ _ => rfl) (run_of_exec h)

/-- A status for a header that is not accepted is not the status of the response. -/
theorem response_ne_status_oneFilter :
    ∃ c, ApartRun [()] (fun _ => "trace") () (init [()]) c ∧ Ended () c ∧
      statuses (logOf () c.shared.log) = [Types.responseCodeFiwareServiceError] ∧
      (responses (logOf () c.shared.log)).map ErrorResponse.status
        = [Types.responseCodeBadRequest] ∧
      Types.responseCodeBadRequest ≠ Types.responseCodeFiwareServiceError := by
  refine ⟨(oneFilter 1000).get (by decide +kernel), apartRun_oneFilter (Option.some_get _).symm,
    ?_, by decide +kernel, by decide +kernel, by decide⟩
  have htasks : ((oneFilter 1000).get (by decide +kernel)).tasks = [.ended] := by
    decide +kernel
  intro t ht
  rw [htasks, List.mem_singleton] at ht
  rw [ht]
  exact fun h => by cases h

end Filters

end IotAgent
