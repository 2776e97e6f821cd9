import IotAgent.Lib.Runs
import Mathlib.Data.List.Induction

/-!
The handlers of an asynchronous client of HTTP (`src/util/http_client.cc`).

A request starts a timer and the connection. Every step that is completed starts the next one:
the connection, the answer of a proxy if there is one, the writing and the reading. The handlers
run in any order in which they can be completed, with any error codes, and the callback of the
application is called by the first of them that finds an end. The callback is cleared behind the
call, so a call that throws leaves it in its place.

* `StrandClient`: the client with what has been started; `asyncSend` is its beginning;
* `handle`, `step`: a handler runs;
* `Ends`: a failed step, an answer that was read, an expired timer;
* `OnceAndPromptly`: at most one call, and a call behind every such handler;
* `onceAndPromptly_iff`: the runs for which that holds.
-/

namespace IotAgent

/-- The codes that the client compares, and all others. -/
inductive ErrorCode where
  | success
  | wouldBlock
  | operationAborted
  | timedOut
  | hostUnreachable
  | other (value : ℕ)
  deriving DecidableEq

/-- A code with which a handler is run. -/
abbrev HandlerCode := { ec : ErrorCode // ec ≠ .wouldBlock }

/-- The steps of a request. -/
inductive ClientStep where
  | connect
  | proxy
  | write
  | read
  deriving DecidableEq

/-- A client whose request was sent. `started` is the step whose handler has not run yet, and
`waiting` says that the handler of the timer has not. -/
structure StrandClient (ρ : Type) where
  proxy : Bool
  callback : Bool := true
  response : Option ρ := none
  ec : ErrorCode := .success
  isOpen : Bool := true
  timer : Bool := true
  waiting : Bool := true
  started : Option ClientStep := some .connect
  calls : List (Option ρ × ErrorCode) := []

/-- The handlers, with what they are told. The answer of a proxy has a status 200 or not. -/
inductive StrandHandler (ρ : Type) where
  | connectHandle (ec : HandlerCode)
  | endConnectProxy (ec : HandlerCode) (ok : Bool)
  | readResponse (ec : HandlerCode)
  | checkResponse (response : Option ρ) (ec : HandlerCode)
  | timeoutConnection (ec : HandlerCode)

/-- A handler is run, and the callback throws if it is called by it. -/
structure StrandEvent (ρ : Type) where
  handler : StrandHandler ρ
  throws : Bool := false

namespace StrandClient

variable {ρ : Type}

/-- `async_send`, with a proxy that was resolved or without one. -/
def asyncSend (ρ : Type) (proxy : Bool) : StrandClient ρ where
  proxy := proxy

/-- `stop`. -/
def stop (s : StrandClient ρ) : StrandClient ρ :=
  { s with timer := false, isOpen := false }

/-- `set_error`. -/
def setError (s : StrandClient ρ) (ec : ErrorCode) : StrandClient ρ :=
  { s with ec }

/-- The end of a request: the callback is called, if there is one, and cleared, and the client is
stopped. An exception leaves the client where it is. -/
def callBack (s : StrandClient ρ) (ec : ErrorCode) (throws : Bool) : StrandClient ρ :=
  if s.callback then
    let called := { s with calls := s.calls ++ [(s.response, ec)] }
    if throws then called else stop { called with callback := false }
  else stop s

/-- `check_connection`, and whether it lets the handler go on. -/
def checkConnection (s : StrandClient ρ) (throws : Bool) : StrandClient ρ × Bool :=
  if (s.ec ≠ .success ∧ s.ec ≠ .wouldBlock) ∨ s.isOpen = false then
    (callBack s s.ec throws, false)
  else (s, true)

/-- A handler of a step that has ended with a code; it starts the next step if the connection is
in order. -/
def goOn (s : StrandClient ρ) (ec : ErrorCode) (throws : Bool) (next : ClientStep) :
    StrandClient ρ :=
  match checkConnection (setError { s with started := none } ec) throws with
  | (s, true) => { s with started := some next }
  | (s, false) => s

/-- The handler has been started. -/
def Started (s : StrandClient ρ) : StrandHandler ρ → Prop
  | .connectHandle _ => s.started = some .connect
  | .endConnectProxy _ _ => s.started = some .proxy
  | .readResponse _ => s.started = some .write
  | .checkResponse _ _ => s.started = some .read
  | .timeoutConnection _ => s.waiting = true

instance (s : StrandClient ρ) : (h : StrandHandler ρ) → Decidable (Started s h)
  | .connectHandle _ => inferInstanceAs (Decidable (_ = some ClientStep.connect))
  | .endConnectProxy _ _ => inferInstanceAs (Decidable (_ = some ClientStep.proxy))
  | .readResponse _ => inferInstanceAs (Decidable (_ = some ClientStep.write))
  | .checkResponse _ _ => inferInstanceAs (Decidable (_ = some ClientStep.read))
  | .timeoutConnection _ => inferInstanceAs (Decidable (_ = true))

/-- A handler runs. -/
def handle (s : StrandClient ρ) (e : StrandEvent ρ) : StrandClient ρ :=
  match e.handler with
  | .connectHandle ec =>
      goOn s ec e.throws (if s.proxy then .proxy else .write)
  | .endConnectProxy ec ok =>
      let ecProxy := if ok = false ∧ ec.1 = .success then .hostUnreachable else ec.1
      goOn s ecProxy e.throws .write
  | .readResponse ec => goOn s ec e.throws .read
  | .checkResponse response ec =>
      callBack { s with started := none, response, timer := false } ec e.throws
  | .timeoutConnection ec =>
      let s := { s with waiting := false }
      if ec.1 = .operationAborted then s
      else (checkConnection (setError s .timedOut) e.throws).1

/-- A handler runs if it has been started. -/
def step (s : StrandClient ρ) (e : StrandEvent ρ) : StrandClient ρ :=
  if Started s e.handler then handle s e else s

/-- The state after some handlers. -/
abbrev after (proxy : Bool) (events : List (StrandEvent ρ)) : StrandClient ρ :=
  Run.run step (asyncSend ρ proxy) events

/-- A step that failed, the reading, or an expired timer. -/
def Ends : StrandHandler ρ → Prop
  | .connectHandle ec => ec.1 ≠ .success
  | .endConnectProxy ec ok => ec.1 ≠ .success ∨ ok = false
  | .readResponse ec => ec.1 ≠ .success
  | .checkResponse _ _ => True
  | .timeoutConnection ec => ec.1 ≠ .operationAborted

/-- The callback is called at most once, and it has been called behind every handler that has
been started and finds an end. -/
def OnceAndPromptly (proxy : Bool) (events : List (StrandEvent ρ)) : Prop :=
  (∀ n, (after proxy (events.take n)).calls.length ≤ 1) ∧
    ∀ before e rest, events = before ++ e :: rest → Started (after proxy before) e.handler →
      Ends e.handler → (after proxy (before ++ [e])).calls ≠ []

/-- The handler does not find an end when a call has thrown, so that the callback is still
there. -/
def Quiet (s : StrandClient ρ) (e : StrandEvent ρ) : Prop :=
  Started s e.handler → Ends e.handler → ¬ (s.callback ∧ s.calls ≠ [])

/-- No handler finds an end behind a call that has thrown. -/
def NoneAfterThrow (proxy : Bool) (events : List (StrandEvent ρ)) : Prop :=
  ∀ before e rest, events = before ++ e :: rest → Quiet (after proxy before) e

/-! ### A handler -/

/-- While the callback is there the connection is open; when it is gone the connection is closed
and the callback was called. -/
structure Sound (s : StrandClient ρ) : Prop where
  isOpen : s.isOpen = s.callback
  called : s.callback = false → s.calls ≠ []

/-- What the invariant and the calls are about is the same. -/
structure Agrees (s s' : StrandClient ρ) : Prop where
  callback : s'.callback = s.callback
  isOpen : s'.isOpen = s.isOpen
  calls : s'.calls = s.calls

variable {s s' : StrandClient ρ} {e : StrandEvent ρ} {ec : ErrorCode} {throws proxy : Bool}
  {next : ClientStep} {events : List (StrandEvent ρ)}

lemma Sound.agrees (hs : Sound s) (h : Agrees s s') : Sound s' where
  isOpen := by rw [h.isOpen, h.callback, hs.isOpen]
  called := by
    rw [h.callback, h.calls]
    exact hs.called

lemma sound_asyncSend : Sound (asyncSend ρ proxy) :=
  ⟨rfl, fun h => by cases h⟩

/-- With the callback there is one call more, and the callback stays if it throws. -/
lemma callBack_of_callback (h : s.callback = true) :
    (callBack s ec throws).calls = s.calls ++ [(s.response, ec)] ∧
      (callBack s ec throws).callback = throws := by
  rw [callBack, if_pos h]
  cases throws with
  | true => exact ⟨rfl, h⟩
  | false => exact ⟨rfl, rfl⟩

/-- Without the callback the client is only stopped. -/
lemma callBack_of_cleared (hs : Sound s) (h : s.callback = false) (ec : ErrorCode)
    (throws : Bool) : Agrees s (callBack s ec throws) := by
  rw [callBack, if_neg (by simp [h])]
  exact ⟨rfl, (hs.isOpen.trans h).symm, rfl⟩

lemma sound_callBack (hs : Sound s) : Sound (callBack s ec throws) := by
  cases h : s.callback with
  | false => exact hs.agrees (callBack_of_cleared hs h ec throws)
  | true =>
      rw [callBack, if_pos h]
      cases throws with
      | true => exact ⟨hs.isOpen, fun _ => List.append_ne_nil_of_right_ne_nil _ (by simp)⟩
      | false => exact ⟨rfl, fun _ => List.append_ne_nil_of_right_ne_nil _ (by simp)⟩

/-- Without an error a handler goes on, or finds the client stopped. -/
lemma agrees_goOn (hs : Sound s) : Agrees s (goOn s .success throws next) := by
  have hsound : Sound (setError { s with started := none } .success) := ⟨hs.isOpen, hs.called⟩
  rw [goOn, checkConnection]
  rcases Bool.eq_false_or_eq_true s.callback with h | h
  · have hopen : s.isOpen = true := hs.isOpen.trans h
    rw [if_neg (by simp [setError, hopen])]
    exact ⟨rfl, rfl, rfl⟩
  · have hclosed : s.isOpen = false := hs.isOpen.trans h
    have hagrees := callBack_of_cleared hsound h .success throws
    rw [if_pos (.inr hclosed)]
    exact ⟨hagrees.callback, hagrees.isOpen, hagrees.calls⟩

/-- With an error it finds the end. -/
lemma goOn_of_error (s : StrandClient ρ) (throws : Bool) (next : ClientStep)
    (hec : ec ≠ .success) (hblock : ec ≠ .wouldBlock) :
    ∃ s', Agrees s s' ∧ goOn s ec throws next = callBack s' ec throws := by
  refine ⟨setError { s with started := none } ec, ⟨rfl, rfl, rfl⟩, ?_⟩
  rw [goOn, checkConnection, if_pos (.inl ⟨hec, hblock⟩)]
  rfl

/-- A handler that finds no end leaves the callback and the calls as they are. -/
lemma agrees_handle (hs : Sound s) (h : ¬ Ends e.handler) : Agrees s (handle s e) := by
  obtain ⟨handler, throws⟩ := e
  cases handler with
  | connectHandle ec =>
      rw [handle]
      dsimp only
      rw [not_not.mp h]
      exact agrees_goOn hs
  | endConnectProxy ec ok =>
      obtain ⟨hec, hok⟩ := not_or.mp h
      rw [handle]
      dsimp only
      rw [if_neg fun hno => hok hno.1, not_not.mp hec]
      exact agrees_goOn hs
  | readResponse ec =>
      rw [handle]
      dsimp only
      rw [not_not.mp h]
      exact agrees_goOn hs
  | checkResponse response ec => exact absurd trivial h
  | timeoutConnection ec =>
      rw [handle]
      dsimp only
      rw [if_pos (not_not.mp h)]
      exact ⟨rfl, rfl, rfl⟩

/-- A handler that finds an end calls back. -/
lemma handle_of_ends (h : Ends e.handler) :
    ∃ s' ec, Agrees s s' ∧ handle s e = callBack s' ec e.throws := by
  obtain ⟨handler, throws⟩ := e
  cases handler with
  | connectHandle ec =>
      obtain ⟨s', hagrees, heq⟩ :=
        goOn_of_error s throws (if s.proxy then .proxy else .write) h ec.2
      exact ⟨s', ec, hagrees, heq⟩
  | endConnectProxy ec ok =>
      rw [handle]
      dsimp only
      by_cases hno : ok = false ∧ ec.1 = .success
      · rw [if_pos hno]
        have hhost : ErrorCode.hostUnreachable ≠ .success := fun h => nomatch h
        obtain ⟨s', hagrees, heq⟩ := goOn_of_error s throws .write hhost fun h => nomatch h
        exact ⟨s', .hostUnreachable, hagrees, heq⟩
      · rw [if_neg hno]
        have hec : ec.1 ≠ .success := fun hec => h.elim (absurd hec) fun hok => hno ⟨hok, hec⟩
        obtain ⟨s', hagrees, heq⟩ := goOn_of_error s throws .write hec ec.2
        exact ⟨s', ec, hagrees, heq⟩
  | readResponse ec =>
      obtain ⟨s', hagrees, heq⟩ := goOn_of_error s throws .read h ec.2
      exact ⟨s', ec, hagrees, heq⟩
  | checkResponse response ec =>
      exact ⟨{ s with started := none, response, timer := false }, ec, ⟨rfl, rfl, rfl⟩, rfl⟩
  | timeoutConnection ec =>
      refine ⟨setError { s with waiting := false } .timedOut, .timedOut, ⟨rfl, rfl, rfl⟩, ?_⟩
      rw [handle]
      dsimp only
      rw [if_neg h, checkConnection,
        if_pos (.inl ⟨(fun h => nomatch h), (fun h => nomatch h)⟩)]
      rfl

/-! ### The runs -/

lemma sound_handle (hs : Sound s) : Sound (handle s e) := by
  by_cases h : Ends e.handler
  · obtain ⟨s', ec, hagrees, heq⟩ := handle_of_ends (s := s) h
    rw [heq]
    exact sound_callBack (hs.agrees hagrees)
  · exact hs.agrees (agrees_handle hs h)

lemma sound_step (hs : Sound s) : Sound (step s e) := by
  rw [step]
  split_ifs
  · exact sound_handle hs
  · exact hs

/-- A handler that finds an end while the callback is there calls it. -/
lemma length_calls_step (hstarted : Started s e.handler) (hends : Ends e.handler)
    (hcallback : s.callback = true) : (step s e).calls.length = s.calls.length + 1 := by
  obtain ⟨s', ec, hagrees, heq⟩ := handle_of_ends (s := s) hends
  rw [step, if_pos hstarted, heq, (callBack_of_callback (hagrees.callback.trans hcallback)).1,
    List.length_append, hagrees.calls]
  rfl

/-- Every other handler calls nobody. -/
lemma calls_step (hs : Sound s)
    (h : ¬ (Started s e.handler ∧ Ends e.handler ∧ s.callback = true)) :
    (step s e).calls = s.calls := by
  rw [step]
  split_ifs with hstarted
  · by_cases hends : Ends e.handler
    · have hcallback : s.callback = false := by
        rw [← Bool.not_eq_true]
        exact fun hcallback => h ⟨hstarted, hends, hcallback⟩
      obtain ⟨s', ec, hagrees, heq⟩ := handle_of_ends (s := s) hends
      rw [heq, ← hagrees.calls]
      exact (callBack_of_cleared (hs.agrees hagrees) (hagrees.callback.trans hcallback) _ _).calls
    · exact (agrees_handle hs hends).calls
  · rfl

/-- Behind a handler that finds an end there is a call. -/
lemma calls_step_ne_nil (hs : Sound s) (hstarted : Started s e.handler)
    (hends : Ends e.handler) : (step s e).calls ≠ [] := by
  by_cases hcallback : s.callback = true
  · rw [← List.length_pos_iff, length_calls_step hstarted hends hcallback]
    exact Nat.succ_pos _
  · rw [calls_step hs fun h => hcallback h.2.2]
    exact hs.called ((Bool.not_eq_true _).mp hcallback)

/-- A second call is one behind a call that has thrown. -/
lemma length_calls_step_iff (hs : Sound s) (hcalls : s.calls.length ≤ 1) :
    (step s e).calls.length ≤ 1 ↔ Quiet s e := by
  by_cases h : Started s e.handler ∧ Ends e.handler ∧ s.callback = true
  · obtain ⟨hstarted, hends, hcallback⟩ := h
    rw [length_calls_step hstarted hends hcallback]
    constructor
    · intro hlength _ _ hthrown
      exact hthrown.2 (List.eq_nil_of_length_eq_zero (by omega))
    · intro hquiet
      have hnil : s.calls = [] := by
        by_contra hne
        exact hquiet hstarted hends ⟨hcallback, hne⟩
      rw [hnil]
      exact Nat.le_refl 1
  · rw [calls_step hs h]
    exact iff_of_true hcalls fun hstarted hends hthrown => h ⟨hstarted, hends, hthrown.1⟩

lemma sound_run (hs : Sound s) : Sound (Run.run step s events) := by
  induction events generalizing s with
  | nil => exact hs
  | cons e events ih => exact ih (sound_step hs)

lemma after_concat {before : List (StrandEvent ρ)} :
    after proxy (before ++ [e]) = step (after proxy before) e := by
  rw [after, Run.run, List.foldl_append]
  rfl

/-- Behind every handler that finds an end there is a call. -/
lemma calls_after_ne_nil {before : List (StrandEvent ρ)}
    (hstarted : Started (after proxy before) e.handler) (hends : Ends e.handler) :
    (after proxy (before ++ [e])).calls ≠ [] := by
  rw [after_concat]
  exact calls_step_ne_nil (sound_run sound_asyncSend) hstarted hends

/-- There is one call at most as long as no handler finds an end behind a call that has thrown. -/
lemma forall_length_calls_iff : (∀ n, (after proxy (events.take n)).calls.length ≤ 1) ↔
    NoneAfterThrow proxy events := by
  have honce := Run.forall_run_iff (l := events) (E := fun _ _ => True)
    (J := fun s : StrandClient ρ => Sound s ∧ s.calls.length ≤ 1) (C := Quiet)
    (fun s e hs _ => by
      rw [and_iff_right (sound_step hs.1)]
      exact length_calls_step_iff hs.1 hs.2)
    ⟨@sound_asyncSend ρ proxy, Nat.zero_le 1⟩ Run.always_true
  rw [Run.always_iff] at honce
  refine Iff.trans (forall_congr' fun n => ?_) honce
  exact (and_iff_right (sound_run sound_asyncSend)).symm

/-- **The callback is called once at most**, and behind every end that is found, exactly in the
runs in which no handler finds an end behind a call that has thrown. -/
theorem onceAndPromptly_iff (proxy : Bool) (events : List (StrandEvent ρ)) :
    OnceAndPromptly proxy events ↔ NoneAfterThrow proxy events := by
  rw [OnceAndPromptly, forall_length_calls_iff]
  exact and_iff_left fun before e rest _ => calls_after_ne_nil

/-- A callback that has not thrown is still there only if it was not called. -/
lemma calls_step_of_returns (hs : Sound s) (hcalls : s.callback = true → s.calls = [])
    (hreturns : e.throws = false) (h : (step s e).callback = true) : (step s e).calls = [] := by
  rw [step] at h ⊢
  split_ifs at h ⊢ with hstarted
  · by_cases hends : Ends e.handler
    · obtain ⟨s', ec, hagrees, heq⟩ := handle_of_ends (s := s) hends
      rw [heq] at h
      -- the call has returned, so the callback is gone
      cases hcallback : s'.callback with
      | true =>
          rw [(callBack_of_callback hcallback).2, hreturns] at h
          cases h
      | false =>
          rw [(callBack_of_cleared (hs.agrees hagrees) hcallback _ _).callback, hcallback] at h
          cases h
    · have hagrees := agrees_handle hs hends
      rw [hagrees.calls]
      exact hcalls (hagrees.callback.symm.trans h)
  · exact hcalls h

/-- A callback that returns is called once at most, in every run. -/
theorem noneAfterThrow_of_returns (h : ∀ e ∈ events, e.throws = false) :
    NoneAfterThrow proxy events := by
  have hinv : ∀ before : List (StrandEvent ρ), (∀ e ∈ before, e.throws = false) →
      (after proxy before).callback = true → (after proxy before).calls = [] := by
    intro before
    induction before using List.reverseRecOn with
    | nil => exact fun _ _ => rfl
    | append_singleton before e ih =>
        intro hbefore
        rw [List.forall_mem_append] at hbefore
        rw [after_concat]
        exact calls_step_of_returns (sound_run sound_asyncSend) (ih hbefore.1)
          (hbefore.2 e (List.mem_singleton_self e))
  rintro before e rest rfl - - ⟨hcallback, hne⟩
  rw [List.forall_mem_append] at h
  exact hne (hinv before h.1 hcallback)

/-! ### An answer and an expired timer -/

/-- The answer is read when the timer has just expired, and the callback throws. -/
def answerAndTimer : List (StrandEvent String) :=
  [{ handler := .connectHandle ⟨.success, fun h => nomatch h⟩ },
    { handler := .readResponse ⟨.success, fun h => nomatch h⟩ },
    { handler := .checkResponse (some "") ⟨.success, fun h => nomatch h⟩, throws := true },
    { handler := .timeoutConnection ⟨.success, fun h => nomatch h⟩ }]

/-- The handler of the timer calls a second time. -/
theorem not_onceAndPromptly_answerAndTimer : ¬ OnceAndPromptly false answerAndTimer := by
  intro h
  exact absurd (h.1 4) (by decide)

end StrandClient

end IotAgent
