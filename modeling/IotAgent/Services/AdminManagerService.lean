import IotAgent.Util.StrMap

/-!
What the requests of the manager have in common (`src/services/admin_mgmt_service.cc`).

The manager sends a request on to several agents. What does not come back with the expected
status is put into a map under the endpoint, and the answer of the manager gets a list of the
errors.

* `Outcome`: what becomes of a request to an agent;
* `AdminManagerService.errorManager`: the text for an error;
* `AdminManagerService.errorEntries`, `AdminManagerService.addErrorsToResponse`: the list.
-/

namespace IotAgent

/-- What becomes of a request to an agent: an answer; an error of the connection, which
`check_alarm` turns into the code -1; or an exception before or while it is sent. -/
inductive Outcome (α : Type*) where
  | response (code : ℤ) (content : α)
  | noConnection (message : String)
  | exception (what : String)
  deriving DecidableEq

namespace AdminManagerService

/-- The code of a request without an answer. -/
def noAnswer : ℤ := -1

/-- `error_manager`: the code and, as details, the message, in quotes if it is no document. -/
def errorManager (parses : String → Bool) (code : ℤ) (message : String) : String :=
  "\"code\": \"" ++ toString code ++ "\"," ++ "\"details\": " ++
    (if parses message then message else "\"" ++ message ++ "\"")

/-- The entry of an endpoint in the list of errors. -/
def errorEntry (error : String × String) : String :=
  "\x7b" ++ "\"endpoint\": \"" ++ error.1 ++ "\"," ++ error.2 ++ "\x7d"

/-- The entries of the list. -/
def errorEntries (nok : StrMap) : List String :=
  nok.map errorEntry

/-- A text without its line breaks. -/
def eraseLineBreaks (s : String) : String :=
  String.ofList (s.toList.filter (· ≠ '\n'))

/-- The list of errors as a field; nothing if there are none. -/
def errors (nok : StrMap) : String :=
  if nok = [] then ""
  else eraseLineBreaks ("\"errors\": [" ++ ",".intercalate (errorEntries nok) ++ "]")

/-- The errors before the last brace, or at the beginning if there is no brace. -/
def insertErrors (response errors : String) : String :=
  match response.toList.reverse.span (· ≠ '\x7d') with
  | (_, []) => errors ++ response
  | (after, brace :: before) => String.ofList before.reverse ++ "," ++ errors ++
      String.ofList (brace :: after.reverse)

/-- `add_errors_to_response`. -/
def addErrorsToResponse (response : String) (nok : StrMap) : String :=
  if errors nok = "" then response
  else if response = "" then "\x7b" ++ errors nok ++ "\x7d"
  else insertErrors response (errors nok)

/-! ### The list of errors -/

variable {nok : StrMap} {response : String}

lemma toList_eraseLineBreaks (s : String) :
    (eraseLineBreaks s).toList = s.toList.filter (· ≠ '\n') := String.toList_ofList

/-- The field is there exactly when there is an error. -/
lemma errors_eq_empty_iff : errors nok = "" ↔ nok = [] := by
  rw [errors]
  split
  · next h => exact iff_of_true rfl h
  · next h =>
      refine iff_of_false (fun e => ?_) h
      have hquote : '"' ∈ (eraseLineBreaks
          ("\"errors\": [" ++ ",".intercalate (errorEntries nok) ++ "]")).toList := by
        rw [toList_eraseLineBreaks]
        simp
      rw [e] at hquote
      cases hquote

/-- An empty response stays empty exactly when there is no error. -/
lemma addErrorsToResponse_empty_eq_empty_iff : addErrorsToResponse "" nok = "" ↔ nok = [] := by
  rw [addErrorsToResponse, ← errors_eq_empty_iff]
  split
  · next h => exact iff_of_true rfl h
  · next h =>
      refine iff_of_false (fun e => ?_) h
      have hbrace : '\x7b' ∈ ("\x7b" ++ errors nok ++ "\x7d").toList := by simp
      rw [if_pos rfl] at e
      rw [e] at hbrace
      cases hbrace

end AdminManagerService

end IotAgent
