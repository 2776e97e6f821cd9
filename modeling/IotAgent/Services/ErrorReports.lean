import IotAgent.Lib.JsonValues
import IotAgent.Services.AdminManagerService
import IotAgent.Util.Text

/-!
What is left of the errors of the endpoints.

The manager answers with the response of the endpoints that took the request and with the
errors of those that did not. The errors are put into the text of the response: before its last
brace, without their line breaks, and each message as it is, in quotes if it is no document.

* `AdminManagerService.ReportsErrors`: a document with the members of the response and an entry
  with endpoint, code and message for each error;
* `AdminManagerService.Spliceable`: an endpoint and a message that can be put between quotes;
* `AdminManagerService.lexFrom_errorEntry_iff`, `AdminManagerService.lexFrom_errors_iff`: how an
  entry and the list are read;
* `AdminManagerService.reportsErrors_iff`: the text is such a document unless the response is an
  object without members or with a member `errors`, or an endpoint or a message has quotes,
  backslashes or control characters.
-/

namespace IotAgent

namespace AdminManagerService

open JsonLexer JsonValue

/-! ### The document -/

/-- The error of an endpoint. -/
structure EndpointError where
  endpoint : String
  code : ℤ
  message : String
  deriving DecidableEq

/-- The errors of the endpoints, each with its text. -/
def errorTexts (parses : String → Bool) (errs : List EndpointError) : StrMap :=
  errs.map fun e => (e.endpoint, errorManager parses e.code e.message)

/-- The code units of a text. -/
def textUnits (s : String) : List ℕ :=
  units s.toList

/-- The name of the list. -/
def errorsName : List ℕ :=
  textUnits "errors"

/-- The details of an error: the document that the message is, or the message. -/
def IsDetails (parses : String → Bool) (message : String) (details : JsonValue) : Prop :=
  if parses message then Reads (Text.cString message).toList details
  else details = .string (textUnits message)

/-- The entry for an error. -/
inductive IsReport (parses : String → Bool) (e : EndpointError) : JsonValue → Prop
  | mk (details : JsonValue) (h : IsDetails parses e.message details) :
      IsReport parses e (.object
        [(textUnits "endpoint", .string (textUnits e.endpoint)),
          (textUnits "code", .string (textUnits (toString e.code))),
          (textUnits "details", details)])

/-- A response: nothing, or a document that is an object. -/
def IsResponse (response : String) (members : List (List ℕ × JsonValue)) : Prop :=
  (response = "" ∧ members = []) ∨ Reads response.toList (.object members)

/-- A document with the members of the response and a list with an entry for each error. -/
def ReportsErrors (parses : String → Bool) (members : List (List ℕ × JsonValue))
    (errs : List EndpointError) (text : String) : Prop :=
  ∃ members' items, Reads text.toList (.object members') ∧
    members'.filter (·.1 ≠ errorsName) = members.filter (·.1 ≠ errorsName) ∧
    members'.filter (·.1 = errorsName) = [(errorsName, .array items)] ∧
    List.Forall₂ (IsReport parses) errs items

/-- An endpoint that can be put between quotes, and a message that can, or that is a document
without characters behind its end. -/
def Spliceable (parses : String → Bool) (e : EndpointError) : Prop :=
  (∀ c ∈ e.endpoint.toList, JsonLexer.Plain c) ∧
    if parses e.message then '\x00' ∉ e.message.toList
    else ∀ c ∈ e.message.toList, JsonLexer.Plain c

/-- A response that members can be added to, and errors that can be added. -/
def Splices (parses : String → Bool) (response : String)
    (members : List (List ℕ × JsonValue)) (errs : List EndpointError) : Prop :=
  (response = "" ∨ (members ≠ [] ∧ errorsName ∉ members.map Prod.fst)) ∧
    ∀ e ∈ errs, Spliceable parses e

variable {parses : String → Bool} {e : EndpointError} {errs : List EndpointError}
  {t : List Char} {ts : List Token}

/-! ### An entry -/

lemma erase_cons_quote (cs : List Char) : erase ('"' :: cs) = '"' :: erase cs :=
  erase_cons_of_ne (by decide)

/-- A code is written with letters that stand for themselves. -/
lemma plain_code (code : ℤ) : ∀ c ∈ (toString code).toList, JsonLexer.Plain c := by
  have hdigits : ∀ n : ℕ, ∀ c ∈ n.repr.toList, JsonLexer.Plain c := by
    intro n c hc
    rw [Nat.repr, String.toList_ofList] at hc
    have hdigit := Nat.isDigit_of_mem_toDigits (by decide) (by decide) hc
    rw [Char.isDigit_iff_toNat] at hdigit
    refine ⟨?_, ?_, Nat.le_trans (by decide) hdigit.1⟩ <;>
    · rintro rfl
      exact absurd hdigit (by decide)
  cases code with
  | ofNat n => exact hdigits n
  | negSucc n =>
      have hsign : (toString (Int.negSucc n)).toList = '-' :: (n + 1).repr.toList := by
        simp [Int.repr]
      rw [hsign]
      exact List.forall_mem_cons.mpr ⟨by decide, hdigits (n + 1)⟩

/-- What stands behind the name of the details. -/
def detailsText (parses : String → Bool) (message : String) : List Char :=
  if parses message then message.toList else '"' :: (message.toList ++ ['"'])

/-- An entry is put together of fixed texts, the endpoint, the code and the message. -/
lemma toList_errorEntry :
    (errorEntry (e.endpoint, errorManager parses e.code e.message)).toList =
      "\x7b\"endpoint\": \"".toList ++ (e.endpoint.toList ++ '"' ::
        (",\"code\": \"".toList ++ ((toString e.code).toList ++ '"' ::
          (",\"details\": ".toList ++ (detailsText parses e.message ++ ['\x7d']))))) := by
  have hdetails : (if parses e.message then e.message else "\"" ++ e.message ++ "\"").toList =
      detailsText parses e.message := by
    rw [detailsText]
    split <;> simp
  rw [errorEntry, errorManager]
  simp only [String.toList_append, hdetails, List.append_assoc]
  rfl

/-- The details are read as such when the message can be put there. -/
lemma lexFrom_details_iff {details : JsonValue} (h : IsDetails parses e.message details) :
    lexFrom (.between false) (erase (detailsText parses e.message) ++ '\x7d' :: t) =
        some (details.tokens ++ .rbrace :: ts) ↔
      (if parses e.message then '\x00' ∉ e.message.toList
        else ∀ c ∈ e.message.toList, JsonLexer.Plain c) ∧ lexFrom (.between false) t = some ts := by
  rw [IsDetails] at h
  by_cases hparses : parses e.message
  · rw [if_pos hparses] at h ⊢
    rw [detailsText, if_pos hparses]
    have hread (hzero : '\x00' ∉ e.message.toList) : Reads e.message.toList details := by
      rwa [Text.cString_eq_self_iff.mpr hzero] at h
    have hbrace : punctuation '\x7d' = some .rbrace := rfl
    constructor
    · intro hlex
      have hzero : '\x00' ∉ e.message.toList := fun hmem =>
        zero_notMem hlex (List.mem_append_left _ (List.mem_filter.mpr ⟨hmem, by decide⟩))
      exact ⟨hzero, ((hread hzero).lexFrom_erase_iff hbrace).mp hlex⟩
    · rintro ⟨hzero, hlex⟩
      exact ((hread hzero).lexFrom_erase_iff hbrace).mpr hlex
  · rw [if_neg hparses] at h ⊢
    rw [detailsText, if_neg hparses, erase_cons_quote, erase_append, h, tokens,
      List.singleton_append]
    have hquote : erase ['"'] = ['"'] := rfl
    have hclose : step (.between false) '\x7d' = some (.between false, [.rbrace]) := rfl
    rw [List.cons_append, hquote, List.append_assoc, List.singleton_append, textUnits,
      lexFrom_quoted_iff, lexFrom_cons_of_step hclose]
    exact and_congr_right fun _ => map_append_eq_some_iff

/-- **An entry** is read as the entry for its error when endpoint and message can be put there. -/
theorem lexFrom_errorEntry_iff {report : JsonValue} (h : IsReport parses e report) :
    lexFrom (.between false)
        (erase (errorEntry (e.endpoint, errorManager parses e.code e.message)).toList ++ t) =
        some (report.tokens ++ ts) ↔
      Spliceable parses e ∧ lexFrom (.between false) t = some ts := by
  obtain ⟨details, hdetails⟩ := h
  have hendpoint : run (.between false) (erase "\x7b\"endpoint\": \"".toList) =
      some (.text [], [.lbrace, .string (textUnits "endpoint"), .colon]) := rfl
  have hcode : run (.between false) (erase ",\"code\": \"".toList) =
      some (.text [], [.comma, .string (textUnits "code"), .colon]) := rfl
  have hname : run (.between false) (erase ",\"details\": ".toList) =
      some (.between false, [.comma, .string (textUnits "details"), .colon]) := rfl
  have hbrace : erase ['\x7d'] = ['\x7d'] := rfl
  have htokens : (object [(textUnits "endpoint", .string (textUnits e.endpoint)),
      (textUnits "code", .string (textUnits (toString e.code))),
      (textUnits "details", details)]).tokens ++ ts =
      [Token.lbrace, .string (textUnits "endpoint"), .colon] ++
        (Token.string (textUnits e.endpoint) ::
          ([Token.comma, .string (textUnits "code"), .colon] ++
            (Token.string (textUnits (toString e.code)) ::
              ([Token.comma, .string (textUnits "details"), .colon] ++
                (details.tokens ++ Token.rbrace :: ts))))) := by
    simp only [tokens, restMembers, List.cons_append, List.nil_append, List.append_assoc]
  have hunits : ∀ s, textUnits s = units s.toList := fun _ => rfl
  have htext : erase (errorEntry (e.endpoint, errorManager parses e.code e.message)).toList ++ t =
      erase "\x7b\"endpoint\": \"".toList ++ (erase e.endpoint.toList ++ '"' ::
        (erase ",\"code\": \"".toList ++ (erase (toString e.code).toList ++ '"' ::
          (erase ",\"details\": ".toList ++
            (erase (detailsText parses e.message) ++ '\x7d' :: t))))) := by
    rw [toList_errorEntry]
    simp only [erase_append, erase_cons_quote, hbrace, List.append_assoc, List.cons_append,
      List.nil_append]
  rw [htext, htokens, lexFrom_append_of_run hendpoint, map_append_eq_some_iff,
    hunits e.endpoint, lexFrom_text_iff, lexFrom_append_of_run hcode, map_append_eq_some_iff,
    hunits (toString e.code), lexFrom_text_iff, lexFrom_append_of_run hname,
    map_append_eq_some_iff, lexFrom_details_iff hdetails, Spliceable, and_assoc]
  exact and_congr_right fun _ => and_iff_right (plain_code e.code)

/-! ### The list -/

/-- Texts with a separator: the first one, and the others each behind the separator. -/
lemma intercalate_cons (c : Char) (l : List Char) (ls : List (List Char)) :
    [c].intercalate (l :: ls) = l ++ ls.flatMap (c :: ·) := by
  induction ls generalizing l with
  | nil => rw [List.intercalate_singleton, List.flatMap_nil, List.append_nil]
  | cons l' ls ih =>
      rw [List.intercalate_cons_cons, ih, List.flatMap_cons, List.append_assoc]
      rfl

/-- The entry of an error. -/
def entryText (parses : String → Bool) (e : EndpointError) : List Char :=
  (errorEntry (e.endpoint, errorManager parses e.code e.message)).toList

lemma toList_errors (herrs : errs ≠ []) :
    (errors (errorTexts parses errs)).toList = erase "\"errors\": [".toList ++
      (erase ([','].intercalate (errs.map (entryText parses))) ++ [']']) := by
  have hne : errorTexts parses errs ≠ [] := List.map_eq_nil_iff.not.mpr herrs
  have hentries : (errorEntries (errorTexts parses errs)).map String.toList =
      errs.map (entryText parses) := by
    rw [errorEntries, errorTexts, List.map_map, List.map_map]
    rfl
  rw [errors, if_neg hne, toList_eraseLineBreaks, ← erase, String.toList_append,
    String.toList_append, String.toList_intercalate, hentries, erase_append, erase_append,
    List.append_assoc]
  rfl

/-- The entries behind the first one. The induction is on the errors and their entries. -/
lemma lexFrom_rest_iff {reports : List JsonValue}
    (h : List.Forall₂ (IsReport parses) errs reports) :
    lexFrom (.between false)
        (erase ((errs.map (entryText parses)).flatMap (',' :: ·)) ++ ']' :: t) =
        some (restItems reports ++ .rbracket :: ts) ↔
      (∀ e ∈ errs, Spliceable parses e) ∧ lexFrom (.between false) t = some ts := by
  have hclose : step (.between false) ']' = some (.between false, [.rbracket]) := rfl
  have hcomma : step (.between false) ',' = some (.between false, [.comma]) := rfl
  induction h with
  | nil =>
      rw [restItems]
      have hnil : erase (([].map (entryText parses)).flatMap (',' :: ·)) = [] := rfl
      rw [hnil, List.nil_append, List.nil_append, lexFrom_cons_of_step hclose]
      refine map_append_eq_some_iff.trans (iff_and_self.mpr fun _ => ?_)
      exact fun _ he => absurd he List.not_mem_nil
  | @cons e report errs reports he _ ih =>
      have htext : erase (((e :: errs).map (entryText parses)).flatMap (',' :: ·)) ++ ']' :: t =
          ',' :: (erase (entryText parses e) ++
            (erase ((errs.map (entryText parses)).flatMap (',' :: ·)) ++ ']' :: t)) := by
        rw [List.map_cons, List.flatMap_cons, erase_append, erase_cons_of_ne (by decide),
          List.append_assoc, List.cons_append]
      have htokens : restItems (report :: reports) ++ Token.rbracket :: ts =
          [Token.comma] ++ (report.tokens ++ (restItems reports ++ Token.rbracket :: ts)) := by
        rw [restItems, List.cons_append, List.append_assoc, List.singleton_append]
      rw [htext, htokens, lexFrom_cons_of_step hcomma, map_append_eq_some_iff, entryText,
        lexFrom_errorEntry_iff he, List.forall_mem_cons, and_assoc]
      exact and_congr_right fun _ => ih

/-- The list of errors. -/
lemma lexFrom_list_iff {reports : List JsonValue}
    (h : List.Forall₂ (IsReport parses) errs reports) (herrs : errs ≠ []) :
    lexFrom (.between false)
        ('[' :: (erase ([','].intercalate (errs.map (entryText parses))) ++ ']' :: t)) =
        some ((array reports).tokens ++ ts) ↔
      (∀ e ∈ errs, Spliceable parses e) ∧ lexFrom (.between false) t = some ts := by
  have hopen : step (.between false) '[' = some (.between false, [.lbracket]) := rfl
  cases h with
  | nil => exact absurd rfl herrs
  | @cons e report errs reports he hrest =>
      have htokens : (array (report :: reports)).tokens ++ ts =
          [Token.lbracket] ++ (report.tokens ++ (restItems reports ++ Token.rbracket :: ts)) := by
        rw [tokens]
        simp only [List.cons_append, List.nil_append, List.append_assoc]
      rw [htokens, List.map_cons, intercalate_cons, erase_append, List.append_assoc,
        lexFrom_cons_of_step hopen, map_append_eq_some_iff, entryText, lexFrom_errorEntry_iff he,
        lexFrom_rest_iff hrest, List.forall_mem_cons, and_assoc]

/-- The field with the errors: its name, and what is read of the list. -/
lemma lexFrom_errors (herrs : errs ≠ []) :
    lexFrom (.between false) ((errors (errorTexts parses errs)).toList ++ t) =
      (lexFrom (.between false)
        ('[' :: (erase ([','].intercalate (errs.map (entryText parses))) ++ ']' :: t))).map
        ([.string errorsName, .colon] ++ ·) := by
  have hname : run (.between false) "\"errors\": ".toList =
      some (.between false, [.string errorsName, .colon]) := rfl
  have hstart : erase "\"errors\": [".toList = "\"errors\": ".toList ++ ['['] := rfl
  rw [toList_errors herrs, hstart, List.append_assoc, List.append_assoc,
    lexFrom_append_of_run hname, List.append_assoc, List.singleton_append, List.singleton_append]

/-! ### The whole document -/

variable {response : String} {members members' : List (List ℕ × JsonValue)}

/-- The errors are put before the last brace. -/
lemma toList_insertErrors {field : String} {before after : List Char}
    (hresponse : response.toList = before ++ '\x7d' :: after) (hafter : '\x7d' ∉ after) :
    (insertErrors response field).toList = before ++ ',' :: (field.toList ++ '\x7d' :: after) := by
  have hnot : ∀ c ∈ after.reverse, decide (c ≠ '\x7d') = true := fun c hc => by
    refine decide_eq_true fun h => hafter ?_
    rw [← h]
    exact List.mem_reverse.mp hc
  have hspan : response.toList.reverse.span (· ≠ '\x7d') =
      (after.reverse, '\x7d' :: before.reverse) := by
    rw [hresponse, List.reverse_append, List.reverse_cons, List.append_assoc,
      List.span_eq_takeWhile_dropWhile, List.takeWhile_append_of_pos hnot,
      List.dropWhile_append_of_pos hnot]
    simp
  rw [insertErrors, hspan]
  simp

/-- The text of an object up to its last brace and behind it. -/
lemma exists_last_brace (h : Reads response.toList (.object members)) :
    ∃ before after, response.toList = before ++ '\x7d' :: after ∧ '\x7d' ∉ after ∧
      lexFrom (.between false) before = some (openTokens members) ∧
      lexFrom (.between false) after = some [] := by
  rw [Reads, lex, tokens_object] at h
  have hmem : '\x7d' ∈ response.toList := mem_of_punctuation_mem rfl h
    (List.mem_append_right _ (List.mem_singleton_self Token.rbrace))
  obtain ⟨l, l', hsplit, hl⟩ := List.eq_append_cons_of_mem (List.mem_reverse.mpr hmem)
  have hresponse : response.toList = l'.reverse ++ '\x7d' :: l.reverse := by
    rw [← List.reverse_reverse response.toList, hsplit, List.reverse_append, List.reverse_cons,
      List.append_assoc, List.singleton_append]
  have hafter : '\x7d' ∉ l.reverse := fun hl' => hl (List.mem_reverse.mp hl')
  rw [hresponse] at h
  obtain ⟨hbefore, hend⟩ := lexFrom_last hafter h
  exact ⟨l'.reverse, l.reverse, hresponse, hafter, hbefore, hend⟩

/-- An empty response has no members. -/
lemma IsResponse.members_eq_nil (h : IsResponse response members) (hempty : response = "") :
    members = [] := by
  rcases h with h | h
  · exact h.2
  · rw [hempty, Reads, tokens_object] at h
    have hnil : [] = openTokens members ++ [.rbrace] := Option.some.inj h
    exact absurd hnil (by simp)

/-- What is read before the list. -/
def startTokens (response : String) (members : List (List ℕ × JsonValue)) : List Token :=
  (if response = "" then [.lbrace] else openTokens members ++ [.comma]) ++
    [.string errorsName, .colon]

/-- What is read of the whole text. -/
lemma lex_addErrorsToResponse (hresponse : IsResponse response members) (herrs : errs ≠ []) :
    ∃ after, lexFrom (.between false) after = some [] ∧
      lex (addErrorsToResponse response (errorTexts parses errs)).toList =
        (lexFrom (.between false)
          ('[' :: (erase ([','].intercalate (errs.map (entryText parses))) ++
            ']' :: '\x7d' :: after))).map (startTokens response members ++ ·) := by
  have hfield : errors (errorTexts parses errs) ≠ "" := by
    rw [Ne, errors_eq_empty_iff]
    exact List.map_eq_nil_iff.not.mpr herrs
  rw [addErrorsToResponse, if_neg hfield, lex, startTokens]
  by_cases hempty : response = ""
  · have hopen : step (.between false) '\x7b' = some (.between false, [.lbrace]) := rfl
    refine ⟨[], rfl, ?_⟩
    have htext : ("\x7b" ++ errors (errorTexts parses errs) ++ "\x7d").toList =
        '\x7b' :: ((errors (errorTexts parses errs)).toList ++ ['\x7d']) := by
      simp
    rw [if_pos hempty, if_pos hempty, htext, lexFrom_cons_of_step hopen, lexFrom_errors herrs,
      Option.map_map]
    simp only [Function.comp_def, List.append_assoc]
  · have hobject : Reads response.toList (.object members) :=
      hresponse.resolve_left fun h => hempty h.1
    obtain ⟨before, after, htext, hafter, hbefore, hend⟩ := exists_last_brace hobject
    refine ⟨after, hend, ?_⟩
    have hcomma : punctuation ',' = some .comma := rfl
    rw [if_neg hempty, if_neg hempty, toList_insertErrors htext hafter,
      lexFrom_append_punctuation hbefore hcomma, lexFrom_errors herrs, Option.map_map]
    simp only [Function.comp_def, List.append_assoc]

/-- There is a place for the list in an empty text and behind members. -/
lemma startTokens_eq (hresponse : IsResponse response members)
    (hplace : response = "" ∨ members ≠ []) :
    startTokens response members = tokensBefore members errorsName := by
  rw [startTokens, tokensBefore]
  by_cases hempty : response = ""
  · rw [if_pos hempty, if_pos (hresponse.members_eq_nil hempty)]
    rfl
  · rw [if_neg hempty, if_neg (hplace.resolve_left hempty), List.append_assoc]
    rfl

/-- There is none in an object without members. -/
lemma place_of_reads (hresponse : IsResponse response members) (herrs : errs ≠ [])
    (h : Reads (addErrorsToResponse response (errorTexts parses errs)).toList
      (.object members')) : response = "" ∨ members ≠ [] := by
  by_contra hnot
  obtain ⟨hempty, hmembers⟩ := not_or.mp hnot
  obtain rfl := not_not.mp hmembers
  obtain ⟨after, -, hlex⟩ := @lex_addErrorsToResponse parses errs response [] hresponse herrs
  rw [Reads, hlex, startTokens, if_neg hempty, Option.map_eq_some_iff] at h
  obtain ⟨l, -, htokens⟩ := h
  rw [List.append_assoc, List.append_assoc] at htokens
  exact openTokens_nil_append_ne _ htokens

/-- There is an entry for each error. -/
lemma exists_isReport (hparses : ∀ m, parses m = true → ∃ v, Reads (Text.cString m).toList v)
    (e : EndpointError) : ∃ report, IsReport parses e report := by
  by_cases hdocument : parses e.message
  · obtain ⟨details, hdetails⟩ := hparses e.message hdocument
    exact ⟨_, ⟨details, by rwa [IsDetails, if_pos hdocument]⟩⟩
  · exact ⟨_, ⟨.string (textUnits e.message), by rw [IsDetails, if_neg hdocument]⟩⟩

lemma exists_isReports (hparses : ∀ m, parses m = true → ∃ v, Reads (Text.cString m).toList v)
    (errs : List EndpointError) : ∃ reports, List.Forall₂ (IsReport parses) errs reports := by
  induction errs with
  | nil => exact ⟨[], .nil⟩
  | cons e errs ih =>
      obtain ⟨report, hreport⟩ := exists_isReport hparses e
      obtain ⟨reports, hreports⟩ := ih
      exact ⟨report :: reports, .cons hreport hreports⟩

/-- The errors and the response are as they have to be if the text is right. -/
lemma splices_of_reportsErrors (hresponse : IsResponse response members) (herrs : errs ≠ [])
    (h : ReportsErrors parses members errs
      (addErrorsToResponse response (errorTexts parses errs))) :
    Splices parses response members errs := by
  obtain ⟨members', reports, hreads, -, hlist, hreports⟩ := h
  have hplace := place_of_reads hresponse herrs hreads
  obtain ⟨after, hafter, hlex⟩ :=
    @lex_addErrorsToResponse parses errs response members hresponse herrs
  rw [Reads, hlex, startTokens_eq hresponse hplace, Option.map_eq_some_iff] at hreads
  obtain ⟨l, hl, htokens⟩ := hreads
  obtain ⟨v, tail, rfl, rfl⟩ := tokensBefore_append_iff.mp htokens
  -- the list is the only member of its name, so none is among those before it
  rw [List.filter_append, List.filter_cons_of_pos (by simp)] at hlist
  have hbefore : members.filter (·.1 = errorsName) = [] := by
    have hlength := congrArg List.length hlist
    rw [List.length_append, List.length_cons, List.length_singleton] at hlength
    exact List.eq_nil_of_length_eq_zero (by omega)
  rw [hbefore, List.nil_append] at hlist
  obtain rfl : v = .array reports := congrArg Prod.snd (List.cons.inj hlist).1
  obtain ⟨hall, -⟩ := (lexFrom_list_iff hreports herrs).mp hl
  refine ⟨hplace.imp_right fun hne => ⟨hne, fun hmem => ?_⟩, hall⟩
  obtain ⟨m, hm, hname⟩ := List.mem_map.mp hmem
  have hfilter : m ∈ members.filter (·.1 = errorsName) :=
    List.mem_filter.mpr ⟨hm, decide_eq_true hname⟩
  rw [hbefore] at hfilter
  cases hfilter

/-- The text is right if the errors and the response are as they have to be. -/
lemma reportsErrors_of_splices
    (hparses : ∀ m, parses m = true → ∃ v, Reads (Text.cString m).toList v)
    (hresponse : IsResponse response members) (herrs : errs ≠ [])
    (h : Splices parses response members errs) :
    ReportsErrors parses members errs
      (addErrorsToResponse response (errorTexts parses errs)) := by
  obtain ⟨hplace, hall⟩ := h
  obtain ⟨reports, hreports⟩ := exists_isReports hparses errs
  have hnames : errorsName ∉ members.map Prod.fst := by
    rcases hplace with hempty | hmembers
    · rw [hresponse.members_eq_nil hempty]
      exact List.not_mem_nil
    · exact hmembers.2
  have hbefore : ∀ m ∈ members, m.1 ≠ errorsName := fun m hm heq =>
    hnames (List.mem_map.mpr ⟨m, hm, heq⟩)
  obtain ⟨after, hafter, hlex⟩ :=
    @lex_addErrorsToResponse parses errs response members hresponse herrs
  refine ⟨members ++ [(errorsName, .array reports)], reports, ?_, ?_, ?_, hreports⟩
  · have hclose : step (.between false) '\x7d' = some (.between false, [.rbrace]) := rfl
    have hend : lexFrom (.between false) ('\x7d' :: after) = some [.rbrace] := by
      rw [lexFrom_cons_of_step hclose, hafter]
      rfl
    rw [Reads, hlex, startTokens_eq hresponse (hplace.imp_right And.left),
      (lexFrom_list_iff hreports herrs).mpr ⟨hall, hend⟩, Option.map_some]
    exact congrArg some (tokensBefore_append_iff.mpr ⟨.array reports, [], rfl, rfl⟩)
  · rw [List.filter_append, List.filter_cons_of_neg (by simp), List.filter_nil, List.append_nil]
  · have hnil : members.filter (·.1 = errorsName) = [] :=
      List.filter_eq_nil_iff.mpr fun m hm => by simpa using hbefore m hm
    rw [List.filter_append, hnil, List.nil_append, List.filter_cons_of_pos (by simp),
      List.filter_nil]

/-- **The text that is left is a document with the errors** exactly when the response is empty
or has members, none of them `errors`, and each endpoint, and each message that is no document,
can be put between quotes. -/
theorem reportsErrors_iff
    (hparses : ∀ m, parses m = true → ∃ v, Reads (Text.cString m).toList v)
    (hresponse : IsResponse response members) (herrs : errs ≠ []) :
    ReportsErrors parses members errs
        (addErrorsToResponse response (errorTexts parses errs)) ↔
      Splices parses response members errs :=
  ⟨splices_of_reportsErrors hresponse herrs, reportsErrors_of_splices hparses hresponse herrs⟩

/-- An agent that is not there. -/
def unreachableError : EndpointError where
  endpoint := "http://agent:8080/iot/protocols"
  code := -1
  message := "unreachable"

/-- Its error behind a member. -/
theorem reportsErrors_unreachable :
    ReportsErrors (fun _ => false) [(textUnits "total", .number ['1'])] [unreachableError]
      (addErrorsToResponse "\x7b\"total\": 1\x7d"
        (errorTexts (fun _ => false) [unreachableError])) := by
  have hplain : ∀ e ∈ [unreachableError], Spliceable (fun _ => false) e := by
    rintro e he
    obtain rfl := List.mem_singleton.mp he
    refine ⟨fun _ hc => of_all rfl hc, ?_⟩
    rw [if_neg Bool.false_ne_true]
    exact fun _ hc => of_all rfl hc
  have hresponse : IsResponse "\x7b\"total\": 1\x7d" [(textUnits "total", .number ['1'])] :=
    .inr rfl
  exact (reportsErrors_iff (fun _ h => absurd h Bool.false_ne_true) hresponse
    (List.cons_ne_nil _ _)).mpr ⟨.inr ⟨List.cons_ne_nil _ _, by decide⟩, hplain⟩

/-- An agent that answers with quotes. -/
def quotesError : EndpointError where
  endpoint := "http://agent:8080/iot/protocols"
  code := 500
  message := "say \"hi\""

/-- Its error is not read as such, nor is any error behind an object without members. -/
theorem not_reportsErrors_quotes :
    ¬ReportsErrors (fun _ => false) [] [quotesError]
        (addErrorsToResponse "" (errorTexts (fun _ => false) [quotesError])) ∧
      ¬ReportsErrors (fun _ => false) [] [unreachableError]
        (addErrorsToResponse "\x7b\x7d" (errorTexts (fun _ => false) [unreachableError])) := by
  constructor
  · intro h
    obtain ⟨-, hall⟩ := splices_of_reportsErrors (.inl ⟨rfl, rfl⟩) (List.cons_ne_nil _ _) h
    have hmessage := (hall _ (List.mem_singleton_self _)).2
    rw [if_neg Bool.false_ne_true] at hmessage
    exact absurd (hmessage '"' (by decide)) (by decide)
  · intro h
    have hresponse : IsResponse "\x7b\x7d" [] := .inr rfl
    obtain ⟨hplace, -⟩ := splices_of_reportsErrors hresponse (List.cons_ne_nil _ _) h
    rcases hplace with hempty | hmembers
    · exact absurd hempty (by decide)
    · exact hmembers.1 rfl

end AdminManagerService

end IotAgent
