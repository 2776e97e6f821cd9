import IotAgent.Lib.Attempts
import IotAgent.Util.Text
import IotAgent.Util.Types
import Mathlib.Algebra.Group.Int.Defs
import Mathlib.Algebra.Group.Nat.Defs

/-!
Requests to other servers (`src/util/iot_url.{h,cc}`, `src/util/http_client.{h,cc}`).

A client of HTTP serves one request. Its handlers run one at a time, in an order that the
network decides, and the first of them that finds the exchange at an end calls the
application back. The callback is cleared when it has returned, not before: if it throws, a
handler that comes later calls it again.

* `IoTUrl`, `IoTUrl.ofString`: the parts of an endpoint;
* `HttpClient`, `HttpClient.Handler`, `HttpClient.handle`: the client and its handlers;
* `HttpClient.Exchange`: the handlers of a request, of which one at least calls back and one
  at most reads the answer;
* `HttpClient.asyncSend_eq`: the callback is tried until it returns, and
  `Exchange.handed_eq`: with which answers.
-/

namespace IotAgent

/-! ### Endpoints -/

/-- The number that a text starts with. -/
def Text.digits (cs : List Char) : ℤ :=
  (cs.takeWhile Char.isDigit).foldl (fun n c => 10 * n + (c.toNat - '0'.toNat : ℕ)) 0

/-- `atoi`: a `long` that is narrowed. -/
def Text.atoi (cs : List Char) : ℤ :=
  let value := match cs.dropWhile isSpace with
    | '-' :: cs => -digits cs
    | '+' :: cs => digits cs
    | cs => digits cs
  (max (-2 ^ 63) (min value (2 ^ 63 - 1))).bmod (2 ^ 32)

structure IoTUrl where
  url : String
  protocol : String
  host : String
  port : ℤ
  path : String
  query : String
  deriving DecidableEq

namespace IoTUrl

/-- The text before the first `://` and the text behind it. -/
def cutProtocol : List Char → Option (List Char × List Char)
  | ':' :: '/' :: '/' :: cs => some ([], cs)
  | c :: cs => (cutProtocol cs).map fun x => (c :: x.1, x.2)
  | [] => none

/-- The host with its port, up to the path or the query. -/
def hostPort (rest : List Char) : List Char :=
  if '/' ∈ rest then rest.takeWhile (· ≠ '/') else rest.takeWhile (· ≠ '?')

/-- The path. A query in front of the path does not end it. -/
def pathOf (rest : List Char) : List Char :=
  let path := rest.dropWhile (· ≠ '/')
  if path = [] then ['/']
  else if '?' ∈ rest.takeWhile (· ≠ '/') then path
  else path.takeWhile (· ≠ '?')

/-- The port of a protocol. -/
def defaultPort (protocol : String) : ℤ :=
  if protocol = "http" then 80 else if protocol = "https" then 443 else -1

/-- The constructor. A text without a protocol is no endpoint. -/
def ofString (url : String) : Except IotaException IoTUrl :=
  if url = "" then
    .error ⟨Types.responseMessageInvalidParameter ++ "[ empty url ]", "empty url",
      Types.responseCodeBadRequest⟩
  else
    match cutProtocol url.toList with
    | none =>
        .error ⟨Types.responseMessageInvalidParameter ++ "[" ++ url ++ "]",
          url ++ " is not a correct uri", Types.responseCodeBadRequest⟩
    | some (protocol, rest) =>
        let protocol := String.ofList protocol
        let hp := hostPort rest
        let port := if ':' ∈ hp then Text.atoi (hp.dropWhile (· ≠ ':')).tail else -1
        .ok {
          url, protocol
          host := String.ofList (hp.takeWhile (· ≠ ':'))
          port := if port = -1 then defaultPort protocol else port
          path := String.ofList (pathOf rest)
          query := String.ofList (rest.dropWhile (· ≠ '?')).tail }

example : ofString "http://10.0.0.1:5000/v3/auth?x=1" =
    .ok ⟨"http://10.0.0.1:5000/v3/auth?x=1", "http", "10.0.0.1", 5000, "/v3/auth", "x=1"⟩ := by
  decide +kernel

end IoTUrl

/-! ### Clients -/

/-- What the handlers of a client look at: whether the callback is still there, and the
answer that was read. -/
structure HttpClient (ρ : Type) where
  callback : Bool := true
  response : Option ρ := none

namespace HttpClient

/-- `resolve`: the exception for a name that the resolver does not know. -/
def resolveError (address what : String) : IotaException where
  reason := Types.responseMessageInvalidParameter ++ " " ++ "[" ++ address ++ "]"
  what := what
  status := Types.responseCodeBadRequest

/-- The handlers, with what the network tells them: a connection that failed or was closed,
an answer, a timer that was stopped. -/
inductive Handler (ρ : Type) where
  | connectHandle (failed : Bool)
  | readResponse (failed : Bool)
  | checkResponse (response : Option ρ)
  | timeoutConnection (aborted : Bool)

variable {ρ σ : Type} (callback : Option ρ → σ → σ × Except IotaException Unit)

/-- The callback is called, and cleared when it returns. -/
def callBack (c : HttpClient ρ) (s : σ) : HttpClient ρ × σ :=
  if c.callback then
    match callback c.response s with
    | (s, .ok ()) => ({ c with callback := false }, s)
    | (s, .error _) => (c, s)
  else (c, s)

/-- `check_connection`. -/
def checkConnection (failed : Bool) (c : HttpClient ρ) (s : σ) : HttpClient ρ × σ :=
  if failed then callBack callback c s else (c, s)

/-- One handler. -/
def handle (x : HttpClient ρ × σ) : Handler ρ → HttpClient ρ × σ
  | .connectHandle failed => checkConnection callback failed x.1 x.2
  | .readResponse failed => checkConnection callback failed x.1 x.2
  | .checkResponse response => callBack callback { x.1 with response } x.2
  | .timeoutConnection aborted =>
      if aborted then x else checkConnection callback true x.1 x.2

/-- `async_send` and the handlers that follow it. -/
def asyncSend (handlers : List (Handler ρ)) (s : σ) : σ :=
  (handlers.foldl (handle callback) ({}, s)).2

/-! ### The calls of the callback -/

/-- A handler reads an answer. -/
def Handler.reads : Handler ρ → Bool
  | .checkResponse _ => true
  | _ => false

/-- A handler finds the exchange at an end. -/
def Handler.ends : Handler ρ → Bool
  | .connectHandle failed => failed
  | .readResponse failed => failed
  | .checkResponse _ => true
  | .timeoutConnection aborted => !aborted

/-- The answer after a handler. -/
def Handler.after (response : Option ρ) : Handler ρ → Option ρ
  | .checkResponse response => response
  | _ => response

/-- The answers that are handed over while the callback is there. -/
def handed (response : Option ρ) : List (Handler ρ) → List (Option ρ)
  | [] => []
  | h :: hs =>
      if h.ends then h.after response :: handed (h.after response) hs
      else handed (h.after response) hs

variable {callback}

/-- Without the callback nothing happens. -/
lemma foldl_handle_cleared (handlers : List (Handler ρ)) (response : Option ρ) (s : σ) :
    (handlers.foldl (handle callback) (⟨false, response⟩, s)).2 = s := by
  induction handlers generalizing response with
  | nil => rfl
  | cons h hs ih =>
      have hstep : handle callback (⟨false, response⟩, s) h = (⟨false, h.after response⟩, s) := by
        cases h <;> simp [handle, checkConnection, callBack, Handler.after]
      rw [List.foldl_cons, hstep]
      exact ih _

/-- A handler with the callback in place. -/
lemma handle_eq (response : Option ρ) (s : σ) (h : Handler ρ) :
    handle callback (⟨true, response⟩, s) h =
      if h.ends then callBack callback ⟨true, h.after response⟩ s
      else (⟨true, h.after response⟩, s) := by
  cases h with
  | timeoutConnection aborted => cases aborted <;> rfl
  | _ => rfl

/-- The callback is tried until it returns. -/
theorem foldl_handle (handlers : List (Handler ρ)) (response : Option ρ) (s : σ) :
    (handlers.foldl (handle callback) (⟨true, response⟩, s)).2 =
      Attempts.untilOk callback (handed response handlers) s := by
  induction handlers generalizing response s with
  | nil => rfl
  | cons h hs ih =>
      rw [List.foldl_cons, handle_eq, handed]
      by_cases hends : h.ends
      · rw [if_pos hends, if_pos hends, callBack, if_pos rfl, Attempts.untilOk]
        dsimp only
        rcases callback (h.after response) s with ⟨s', e | _⟩
        · exact ih _ _
        · exact foldl_handle_cleared hs _ _
      · rw [if_neg hends, if_neg hends]
        exact ih _ _

theorem asyncSend_eq (handlers : List (Handler ρ)) (s : σ) :
    asyncSend callback handlers s = Attempts.untilOk callback (handed none handlers) s :=
  foldl_handle handlers none s

/-- Where no answer is read the same one is handed over. -/
lemma handed_of_not_reads {handlers : List (Handler ρ)} (h : ∀ x ∈ handlers, x.reads = false)
    (response : Option ρ) : ∀ r ∈ handed response handlers, r = response := by
  induction handlers with
  | nil => simp [handed]
  | cons x xs ih =>
      rw [List.forall_mem_cons] at h
      have hafter : x.after response = response := by
        cases x with
        | checkResponse r => simp [Handler.reads] at h
        | _ => rfl
      rw [handed, hafter]
      split
      · exact List.forall_mem_cons.mpr ⟨rfl, ih h.2⟩
      · exact ih h.2

/-- When the answer is read once at most, either the first call is without one or all calls
are with the same. -/
lemma handed_first_or_same {handlers : List (Handler ρ)}
    (h : handlers.countP Handler.reads ≤ 1) :
    (handed none handlers).head? = some none ∨ ∃ r, ∀ x ∈ handed none handlers, x = r := by
  induction handlers with
  | nil => exact .inr ⟨none, by simp [handed]⟩
  | cons x xs ih =>
      by_cases hreads : x.reads
      · -- behind the handler that reads there is none
        have hxs : ∀ y ∈ xs, y.reads = false := by
          rw [List.countP_cons_of_pos hreads] at h
          simpa using List.countP_eq_zero.mp (Nat.le_zero.mp (Nat.le_of_succ_le_succ h))
        refine .inr ⟨x.after none, ?_⟩
        rw [handed]
        split
        · exact List.forall_mem_cons.mpr ⟨rfl, handed_of_not_reads hxs _⟩
        · exact handed_of_not_reads hxs _
      · have hafter : x.after none = none := by
          cases x with
          | checkResponse r => simp [Handler.reads] at hreads
          | _ => rfl
        rw [handed, hafter]
        split
        · exact .inl rfl
        · rw [List.countP_cons_of_neg hreads] at h
          exact ih h

/-- The handlers of a request: one finds the exchange at an end, at the latest that of the
timer, and the answer is read once at most. -/
structure Exchange (ρ : Type) where
  handlers : List (Handler ρ)
  ends : handed none handlers ≠ []
  readsOnce : handlers.countP Handler.reads ≤ 1

namespace Exchange

/-- The answer that is handed over first. -/
def answer (x : Exchange ρ) : Option ρ :=
  (handed none x.handlers).head x.ends

lemma handed_eq_cons (x : Exchange ρ) :
    handed none x.handlers = x.answer :: (handed none x.handlers).tail :=
  (List.cons_head_tail x.ends).symm

/-- If there is one, it is handed over to every call. -/
theorem handed_eq (x : Exchange ρ) (hx : x.answer ≠ none) :
    ∀ r ∈ handed none x.handlers, r = x.answer := by
  rcases handed_first_or_same x.readsOnce with hfirst | ⟨r, hall⟩
  · rw [x.handed_eq_cons, List.head?_cons] at hfirst
    exact absurd (Option.some.inj hfirst) hx
  · have hr : x.answer = r := hall _ (List.head_mem x.ends)
    exact fun y hy => (hall y hy).trans hr.symm

/-- A callback that returns is called once. -/
theorem asyncSend_of_ok (x : Exchange ρ) {s : σ} (h : (callback x.answer s).2 = .ok ()) :
    asyncSend callback x.handlers s = (callback x.answer s).1 := by
  rw [asyncSend_eq, x.handed_eq_cons, Attempts.untilOk_of_ok h]

/-- A callback with an answer: what it keeps when it throws, and what it leads to. -/
theorem asyncSend_induction (x : Exchange ρ) (hx : x.answer ≠ none) {P Q : σ → Prop}
    (hP : ∀ s, P s → ∀ e, (callback x.answer s).2 = .error e → P (callback x.answer s).1)
    (hQ : ∀ s, P s → Q (callback x.answer s).1) (hPQ : ∀ s, P s → Q s) {s : σ} (hs : P s) :
    Q (asyncSend callback x.handlers s) := by
  rw [asyncSend_eq]
  refine Attempts.untilOk_induction (fun r hr => ?_) (fun r hr => ?_) hPQ hs
  · rw [x.handed_eq hx r hr]
    exact hP
  · rw [x.handed_eq hx r hr]
    exact hQ

end Exchange

end HttpClient

end IotAgent
