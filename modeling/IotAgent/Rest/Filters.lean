import IotAgent.Lib.Interleaving
import IotAgent.Util.Types

/-!
The filters in front of a service (`src/rest/rest_handle.cc`, `src/rest/http_filter.h`).

A request passes the filters of its service one after the other. Before a filter is given
the request, the continuation of the chain is registered with the filter under the trace
header of the request; when the filter calls back with a status, the continuation is taken
out and run. All this is interleaved with the chains of other requests.

* `State`, `setAsyncFilter`, `callToCallback`: the continuations that the filters hold;
* `endError`: the error response for a status;
* `Task`, `prog`: the steps of a request, and what each does;
* `Event`: what a run tells of its requests;
* `Apart`: a request shares its trace header with no other that is under way.
-/

namespace IotAgent

namespace Filters

open Interleaving

/-! ### Error responses -/

structure ErrorResponse where
  status : ℤ
  body : String
  deriving DecidableEq

/-- A text without its quotes. -/
def eraseQuotes (s : String) : String :=
  String.ofList (s.toList.filter fun ch => ch ≠ '"')

/-- `error_response`: the status as an unsigned number, with a default, and the body. -/
def errorResponse (reason details : String) (statusCode : ℤ) : ErrorResponse where
  status := if statusCode % 2 ^ 32 ≠ 0 then statusCode % 2 ^ 32
    else Types.responseCodeNotFound
  body :=
    if reason = "" then ""
    else "\x7b\"reason\": \"" ++ eraseQuotes reason ++
      (if details ≠ "" then "\",\"details\": \"" ++ eraseQuotes details else "") ++ "\"\x7d"

/-- The response of `handle_end_filters` to a status that is not 200. Three statuses of the
filters are no status of HTTP and stand for a bad request. -/
def endError (status : ℤ) : ErrorResponse :=
  let reason := Types.responseMessageBadRequest
  if status = Types.responseCodeNotAcceptable then
    errorResponse reason Types.responseMessageNotAcceptable status
  else if status = Types.responseCodeUnsupportedMediaType then
    errorResponse reason Types.responseMessageUnsupportedMediaType status
  else if status = Types.responseCodeFiwareServiceError then
    errorResponse Types.reasonMalformedHeader Types.detailsHeaderFiwareService
      Types.responseCodeBadRequest
  else if status = Types.responseCodeFiwareServicePathError then
    errorResponse Types.reasonMalformedHeader Types.detailsHeaderFiwareServicePath
      Types.responseCodeBadRequest
  else if status = Types.responseCodeForbiddenCharacters then
    errorResponse Types.reasonMalformedHeader Types.detailsForbiddenCharacters
      Types.responseCodeBadRequest
  else errorResponse reason "" status

/-! ### The filters -/

variable {F R : Type}

/-- The continuations of a chain: the next filter, or the end of the filters. -/
inductive Callback (R : Type) where
  | executeFilters (r : R) (numFilter : ℕ)
  | handleEndFilters (r : R) (numFilter : ℕ)
  deriving DecidableEq

/-- The request that a continuation is bound to. -/
def Callback.request : Callback R → R
  | .executeFilters r _ | .handleEndFilters r _ => r

inductive Event (F R : Type) where
  | invoked (r : R) (f : F)
  | outcome (r : R) (f : F) (status : ℤ)
  | handled (r : R)
  | answered (r : R) (response : ErrorResponse)
  deriving DecidableEq

def Event.request : Event F R → R
  | .invoked r _ | .outcome r _ _ | .handled r | .answered r _ => r

/-- The continuations that the filters hold under the trace headers, and what happened. -/
structure State (F R : Type) where
  callbacks : F → String → Option (Callback R)
  log : List (Event F R)

namespace State

/-- `set_async_filter`. A continuation that is there already stays. -/
def setAsyncFilter [DecidableEq F] (s : State F R) (f : F) (uuid : String)
    (callback : Callback R) : State F R :=
  { s with callbacks := fun g u =>
      if g = f ∧ u = uuid then some ((s.callbacks f uuid).getD callback) else s.callbacks g u }

/-- `call_to_callback` takes out the continuation under the trace header. -/
def takeCallback [DecidableEq F] (s : State F R) (f : F) (uuid : String) : State F R :=
  { s with callbacks := fun g u => if g = f ∧ u = uuid then none else s.callbacks g u }

/-- An event is told. -/
def tell (s : State F R) (e : Event F R) : State F R :=
  { s with log := s.log ++ [e] }

end State

/-! ### The chain -/

/-- Where the chain of a request is: before it, `execute_filters` about to run, the
continuation set, the request posted, the filter at work, its call back about to run,
`handle_end_filters` about to run. -/
inductive Task (R : Type) where
  | arriving (r : R)
  | executeFilters (r : R) (numFilter : ℕ) (status : ℤ)
  | registered (r : R) (numFilter : ℕ)
  | posted (r : R) (numFilter : ℕ)
  | working (r : R) (numFilter : ℕ)
  | calling (r : R) (numFilter : ℕ) (status : ℤ)
  | handleEndFilters (r : R) (numFilter : ℕ) (status : ℤ)
  | ended
  deriving DecidableEq

namespace Task

/-- The request of a task. -/
def request : Task R → Option R
  | arriving r | executeFilters r _ _ | registered r _ | posted r _ | working r _
  | calling r _ _ | handleEndFilters r _ _ => some r
  | ended => none

/-- The request of a task that is under way. -/
def underWay : Task R → Option R
  | arriving _ => none
  | t => t.request

/-- A continuation that is run with a status. -/
def ofCallback (status : ℤ) : Callback R → Task R
  | .executeFilters r numFilter => executeFilters r numFilter status
  | .handleEndFilters r numFilter => handleEndFilters r numFilter status

end Task

variable (filters : List F) (trace : R → String)

/-- The continuation behind the filter of a number. -/
def continuation (r : R) (numFilter : ℕ) : Callback R :=
  if numFilter ≠ filters.length - 1 then .executeFilters r (numFilter + 1)
  else .handleEndFilters r numFilter

/-- The actions of a chain. The status of a call back is the filter's. An access behind the
last filter, and a call back without a continuation, throw and end the task. -/
def prog [DecidableEq F] : Program (State F R) (Task R) ℤ := fun status s t =>
  match t with
  | .arriving r =>
      if filters ≠ [] then some (s, .executeFilters r 0 Types.responseCodeOk)
      else some (s.tell (.handled r), .ended)
  | .executeFilters r numFilter status =>
      if status ≠ Types.responseCodeOk then some (s, .handleEndFilters r numFilter status)
      else
        match filters[numFilter]? with
        | none => some (s, .ended)
        | some f =>
            some (s.setAsyncFilter f (trace r) (continuation filters r numFilter),
              .registered r numFilter)
  | .registered r numFilter => some (s, .posted r numFilter)
  | .posted r numFilter =>
      match filters[numFilter]? with
      | none => some (s, .ended)
      | some f => some (s.tell (.invoked r f), .working r numFilter)
  | .working r numFilter =>
      match filters[numFilter]? with
      | none => some (s, .ended)
      | some f => some (s.tell (.outcome r f status), .calling r numFilter status)
  | .calling r numFilter status =>
      match filters[numFilter]? with
      | none => some (s, .ended)
      | some f =>
          some (s.takeCallback f (trace r),
            ((s.callbacks f (trace r)).map (Task.ofCallback status)).getD .ended)
  | .handleEndFilters r _ status =>
      if status ≠ Types.responseCodeOk then some (s.tell (.answered r (endError status)), .ended)
      else some (s.tell (.handled r), .ended)
  | .ended => none

/-- No continuation is held, and the requests are about to arrive. -/
def init (requests : List R) : Config (State F R) (Task R) where
  shared := ⟨fun _ _ => none, []⟩
  tasks := requests.map .arriving

/-- While the request is under way, no other request under way has its trace header. -/
def Apart (r : R) (c : Config (State F R) (Task R)) : Prop :=
  ∀ t ∈ c.tasks, ∀ u ∈ c.tasks, t.underWay = some r →
    ∀ q, u.underWay = some q → q ≠ r → trace q ≠ trace r

/-- Runs in which the request shares its trace header with no concurrent one. -/
abbrev ApartRun [DecidableEq F] (r : R) :
    Config (State F R) (Task R) → Config (State F R) (Task R) → Prop :=
  RunIn (prog filters trace) (fun _ _ _ => True) (Apart trace r)

/-- The actions that a chain has left at most. -/
def Task.rank (n : ℕ) : Task R → ℕ
  | arriving _ => 5 * n + 7
  | executeFilters _ k _ => 5 * (n - k) + 6
  | registered _ k => 5 * (n - k) + 5
  | posted _ k => 5 * (n - k) + 4
  | working _ k => 5 * (n - k) + 3
  | calling _ k _ => 5 * (n - k) + 2
  | handleEndFilters _ _ _ => 1
  | ended => 0

end Filters

end IotAgent
