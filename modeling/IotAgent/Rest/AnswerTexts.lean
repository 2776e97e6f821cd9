import IotAgent.Ngsi.Messages
import IotAgent.Ngsi.RoundTrip
import IotAgent.Rest.Filters
import IotAgent.Util.JsonWriter
import Mathlib.Data.List.GetD

/-!
The texts of the answers (`src/rest/command_handle.cc`, `src/rest/rest_handle.cc`,
`src/services/admin_service.cc`).

The answer to an update is written as JSON, and then every quote in it that has an escape is taken
out. The answers that tell of an error are put together without a writer, out of texts that other
parts of the program have chosen.

* `eraseEscapedQuotes`, `opNgsiResponse`: the answer to an update;
* `edit_eraseEscapedQuotes`: what becomes of the strings;
* `opNgsiResponse_reads`: which answers to updates are JSON, and what they say;
* `rawError`, `errorResponse_reads`: the answers to errors.
-/

namespace IotAgent

open JsonLexer JsonWriter

namespace AnswerTexts

/-! ### Quotes with an escape -/

/-- `erase_all` of a backslash with a quote behind it. -/
def eraseEscapedQuotes : List Char → List Char
  | [] => []
  | [c] => [c]
  | c :: d :: cs =>
      if c = '\\' ∧ d = '"' then eraseEscapedQuotes cs else c :: eraseEscapedQuotes (d :: cs)

/-- The strings without their quotes. -/
def withoutQuotes (s : List Char) : List Char :=
  s.filter (· ≠ '"')

variable {c d : Char} {s t : List Char}

lemma withoutQuotes_cons (c : Char) (s : List Char) :
    withoutQuotes (c :: s) = if c = '"' then withoutQuotes s else c :: withoutQuotes s := by
  rw [withoutQuotes, List.filter_cons]
  by_cases hquote : c = '"' <;> simp [hquote, withoutQuotes]

lemma erase_of_ne (hc : c ≠ '\\') (t : List Char) :
    eraseEscapedQuotes (c :: t) = c :: eraseEscapedQuotes t := by
  cases t with
  | nil => rfl
  | cons d t => exact if_neg fun h => hc h.1

lemma erase_backslash (hd : d ≠ '"') (t : List Char) :
    eraseEscapedQuotes ('\\' :: d :: t) = '\\' :: eraseEscapedQuotes (d :: t) :=
  if_neg fun h => hd h.2

lemma erase_quote (t : List Char) :
    eraseEscapedQuotes ('\\' :: '"' :: t) = eraseEscapedQuotes t :=
  if_pos ⟨rfl, rfl⟩

lemma exists_escape (c : Char) : ∃ d t, escape c = d :: t ∧ d ≠ '"' := by
  rw [escape]
  split_ifs with hquote
  all_goals first | exact ⟨_, _, rfl, by decide⟩ | exact ⟨c, [], rfl, hquote⟩

lemma hexDigits_getD_ne (n : ℕ) : hexDigits.getD n '0' ≠ '\\' := by
  have hall : ('0' :: hexDigits).all (· ≠ '\\') = true := rfl
  rcases lt_or_ge n hexDigits.length with hn | hn
  · rw [List.getD_eq_getElem _ _ hn]
    exact of_all (p := fun c => c ≠ '\\') hall (List.mem_cons_of_mem _ (List.getElem_mem hn))
  · rw [List.getD_eq_default _ _ hn]
    decide

/-- A letter that is no backslash: a quote goes, and everything else stays. -/
lemma erase_escape (hc : c ≠ '\\') (t : List Char) :
    eraseEscapedQuotes (escape c ++ t) =
      (if c = '"' then [] else escape c) ++ eraseEscapedQuotes t := by
  by_cases hquote : c = '"'
  · rw [if_pos hquote, escape, if_pos hquote]
    exact erase_quote t
  · rw [if_neg hquote, escape, if_neg hquote, if_neg hc]
    split_ifs
    all_goals
      simp only [List.cons_append, List.nil_append]
    iterate 5 rw [erase_backslash (by decide), erase_of_ne (by decide)]
    · rw [erase_backslash (by decide), erase_of_ne (by decide), erase_of_ne (by decide),
        erase_of_ne (by decide), erase_of_ne (hexDigits_getD_ne _),
        erase_of_ne (hexDigits_getD_ne _)]
    · rw [erase_of_ne hc]

/-- A string with something else than a quote behind it. -/
lemma erase_flatMap (s : List Char) (hd : d ≠ '"') (t : List Char) :
    eraseEscapedQuotes (s.flatMap escape ++ d :: t) =
      (withoutQuotes s).flatMap escape ++ eraseEscapedQuotes (d :: t) := by
  induction s with
  | nil => rfl
  | cons c s ih =>
      -- what comes behind the letter does not start with a quote
      obtain ⟨d', t', hnext, hd'⟩ : ∃ d' t', s.flatMap escape ++ d :: t = d' :: t' ∧ d' ≠ '"' := by
        cases s with
        | nil => exact ⟨d, t, rfl, hd⟩
        | cons c' s =>
            obtain ⟨d', t', hescape, hd'⟩ := exists_escape c'
            exact ⟨d', t' ++ (s.flatMap escape ++ d :: t), by
              rw [List.flatMap_cons, hescape, List.append_assoc, List.cons_append], hd'⟩
      rw [List.flatMap_cons, List.append_assoc]
      by_cases hc : c = '\\'
      · subst hc
        have hkept : withoutQuotes ('\\' :: s) = '\\' :: withoutQuotes s := rfl
        have hescape : escape '\\' = ['\\', '\\'] := rfl
        rw [hkept, List.flatMap_cons, hescape, List.append_assoc, ← ih, hnext]
        exact (erase_backslash (by decide) _).trans (congrArg _ (erase_backslash hd' t'))
      · rw [erase_escape hc, ih, withoutQuotes_cons]
        by_cases hquote : c = '"'
        · rw [if_pos hquote, if_pos hquote]
          rfl
        · rw [if_neg hquote, if_neg hquote, List.flatMap_cons, List.append_assoc]

/-- A string in quotes that does not end with a backslash. -/
lemma erase_quoted (hs : s.getLast? ≠ some '\\') (t : List Char) :
    eraseEscapedQuotes (quoted (s.flatMap escape) ++ t) =
      quoted ((withoutQuotes s).flatMap escape) ++ eraseEscapedQuotes t := by
  have hbody : eraseEscapedQuotes (s.flatMap escape ++ '"' :: t) =
      (withoutQuotes s).flatMap escape ++ '"' :: eraseEscapedQuotes t := by
    rcases List.eq_nil_or_concat s with rfl | ⟨s, c, rfl⟩
    · exact erase_of_ne (by decide) t
    · rw [List.concat_eq_append] at hs ⊢
      have hc : c ≠ '\\' := by simpa using hs
      obtain ⟨d, t', hescape, hd⟩ := exists_escape c
      rw [List.flatMap_append, List.append_assoc, List.flatMap_singleton, hescape,
        List.cons_append, erase_flatMap s hd, ← List.cons_append, ← hescape, erase_escape hc,
        erase_of_ne (by decide), withoutQuotes, withoutQuotes, List.filter_append,
        List.flatMap_append, List.append_assoc]
      by_cases hquote : c = '"'
      · simp [hquote]
      · simp [hquote]
  rw [quoted, quoted]
  simp only [List.cons_append, List.append_assoc, List.nil_append]
  rw [erase_of_ne (by decide), hbody]

/-- Behind a string that ends with a backslash the quote goes. -/
lemma erase_quoted_backslash (s t : List Char) :
    eraseEscapedQuotes (quoted ((s ++ ['\\']).flatMap escape) ++ t) =
      ('"' :: ((withoutQuotes s).flatMap escape ++ ['\\'])) ++ eraseEscapedQuotes t := by
  have hescape : escape '\\' = ['\\', '\\'] := rfl
  rw [quoted, List.flatMap_append, List.flatMap_singleton, hescape]
  simp only [List.cons_append, List.append_assoc, List.nil_append]
  rw [erase_of_ne (by decide), erase_flatMap s (by decide), erase_backslash (by decide),
    erase_quote]

/-- A mark does not stand behind a backslash. -/
lemma run_backslash_mark {tok : Token} (hc : punctuation c = some tok) (s : List Char) :
    run (.between false) ('"' :: (s.flatMap escape ++ ['\\', c])) = none := by
  have hescaped : step (.escape (units s)) c = none := by
    obtain ⟨-, -, -, hescaped, hu, -⟩ := marks_part (mem_marks hc)
    rw [step, hescaped]
    exact if_neg hu
  have hopen : run (.between false) ('"' :: s.flatMap escape) =
      some (.text (units s), []) := by
    rw [run, show step (.between false) '"' = some (.text [], []) from rfl, Option.bind_some,
      escapes_escape.run_flatMap fun _ _ => trivial]
    rfl
  rw [← List.cons_append, run_append_of_run hopen, run,
    show step (.text (units s)) '\\' = some (.escape (units s), []) from rfl, Option.bind_some,
    run, hescaped]
  rfl

/-- What becomes of the strings. -/
theorem edit_eraseEscapedQuotes :
    Edit eraseEscapedQuotes (fun s => s.getLast? ≠ some '\\') withoutQuotes where
  nil := rfl
  cons _ t hc := erase_of_ne hc t
  string s c tok hc := by
    have hmark : '\\' ≠ c := punctuation_ne_backslash hc
    by_cases hs : s.getLast? = some '\\'
    · obtain ⟨s, rfl⟩ := List.getLast?_eq_some_iff.mp hs
      refine ⟨'"' :: ((withoutQuotes s).flatMap escape ++ ['\\', c]), fun t => ?_,
        fun hnot => absurd hs hnot, fun _ => run_backslash_mark hc _⟩
      rw [List.append_assoc, erase_quoted_backslash, List.singleton_append,
        erase_of_ne hmark.symm]
      simp
    · refine ⟨quoted ((withoutQuotes s).flatMap escape) ++ [c], fun t => ?_,
        ((escapes_escape.yields_quoted _).append (yields_mark hc)).congr ?_ rfl⟩
      · rw [List.append_assoc, erase_quoted hs, List.singleton_append, erase_of_ne hmark.symm,
          List.append_assoc, List.singleton_append]
      · simpa using hs

end AnswerTexts

/-! ### The answer to an update -/

namespace Ngsi

/-- `Serialize`. -/
def ContextResponse.toJson (lib : JsonLib) (r : ContextResponse) : Option Json := do
  let contextElement ← r.contextElement.toJson lib
  return .object [
    ("statusCode", .object [("code", .string r.code), ("reasonPhrase", .string r.reason),
      ("details", .string r.details)]),
    ("contextElement", contextElement)]

/-- `Serialize`, for the responses for all elements. -/
def contextResponsesToJson (lib : JsonLib) (rs : List ContextResponse) : Option Json := do
  let contextResponses ← rs.mapM (ContextResponse.toJson lib)
  return .object [("contextResponses", .array contextResponses)]

/-- `ContextResponses::get_string`. -/
def contextResponsesGetString (lib : JsonLib) (rs : List ContextResponse) :
    Option (List Char) := do
  let v ← contextResponsesToJson lib rs
  let w ← accept v {}
  return w.stream

end Ngsi

namespace AnswerTexts

/-- What `default_op_ngsi` answers, when the update has been handled. -/
def opNgsiResponse (lib : JsonLib) (rs : List Ngsi.ContextResponse) : Option (List Char) :=
  (Ngsi.contextResponsesGetString lib rs).map eraseEscapedQuotes

variable {lib : JsonLib} {rs : List Ngsi.ContextResponse} {v : Json}

lemma atRoot_contextResponses (h : Ngsi.contextResponsesToJson lib rs = some v) : AtRoot v := by
  obtain ⟨items, -, hv⟩ := Option.bind_eq_some_iff.mp h
  obtain rfl := Option.some.inj hv
  trivial

/-- If the compound values of the responses are JSON, the answer to an update is JSON exactly if no
text in the responses ends with a backslash, and then it says what they say, without the quotes in
their texts. -/
theorem opNgsiResponse_reads (lib : JsonLib) (rs : List Ngsi.ContextResponse) (v : Json)
    (hv : Ngsi.contextResponsesToJson lib rs = some v) (hnumbers : Numbers v) :
    ∃ text, opNgsiResponse lib rs = some text ∧
      ((∃ w, JsonValue.Reads text w) ↔ ∀ s ∈ texts v, s.getLast? ≠ some '\\') ∧
      ∀ w, JsonValue.Reads text w → w = toValue withoutQuotes v := by
  have hroot := atRoot_contextResponses hv
  have hyields := yields_compact edit_eraseEscapedQuotes v hroot hnumbers
  refine ⟨eraseEscapedQuotes (compact v), ?_, ⟨?_, ?_⟩, ?_⟩
  · rw [opNgsiResponse, Ngsi.contextResponsesGetString, hv, Option.bind_eq_bind,
      Option.bind_some, accept_eq v hroot]
    rfl
  · rintro ⟨w, hw⟩
    exact ((JsonValue.reads_iff_of_yields hyields).mp hw).1
  · exact fun hs => ⟨_, (JsonValue.reads_iff_of_yields hyields).mpr ⟨hs, rfl⟩⟩
  · exact fun w hw => ((JsonValue.reads_iff_of_yields hyields).mp hw).2.symm

/-- The response for an element whose name ends with a backslash. -/
def backslashResponse : Ngsi.ContextResponse :=
  ⟨"200", "OK", "", EnvElement.ofTexts "light\\" "thing" "false"⟩

def noParser : JsonLib :=
  ⟨fun _ => none, fun _ => ""⟩

theorem opNgsiResponse_backslash : ∃ text, opNgsiResponse noParser [backslashResponse] =
    some text ∧ ¬ ∃ w, JsonValue.Reads text w := by
  obtain ⟨text, htext, hreads, -⟩ := opNgsiResponse_reads noParser [backslashResponse]
    (.object [("contextResponses", .array [.object [
      ("statusCode", .object [("code", .string "200"), ("reasonPhrase", .string "OK"),
        ("details", .string "")]),
      ("contextElement", .object [("id", .string "light\\"), ("type", .string "thing"),
        ("isPattern", .string "false")])]])]) rfl
    (by simp [Numbers, NumbersOfMembers, NumbersOfItems])
  refine ⟨text, htext, fun hw => hreads.mp hw "light\\".toList ?_ rfl⟩
  simp [texts, textsOfMembers, textsOfItems]

/-! ### Errors -/

/-- A member that is put together out of texts. -/
def rawMember (name value : List Char) : List Char :=
  quoted name ++ [':', ' '] ++ quoted value

/-- The answer to an error, with the details if there are any. -/
def rawError (reason : List Char) (details : Option (List Char)) : List Char :=
  ['\x7b'] ++ rawMember "reason".toList reason ++
    (match details with
      | none => []
      | some details => [','] ++ rawMember "details".toList details) ++ ['\x7d']

/-- The value that is meant. -/
def errorValue (reason : List Char) (details : Option (List Char)) : JsonValue :=
  .object ((units "reason".toList, .string (units reason)) ::
    match details with
    | none => []
    | some details => [(units "details".toList, .string (units details))])

lemma run_name {name : List Char} (hname : ∀ c ∈ name, JsonLexer.Plain c) {mark : Char}
    {tok : Token} (hmark : punctuation mark = some tok) :
    run (.between false) (mark :: (quoted name ++ [':', ' '])) =
      some (.between false, [tok, .string (units name), .colon]) := by
  have hquoted : run (.between false) (quoted name) =
      some (.between false, [.string (units name)]) := by
    rw [quoted, run, show step (.between false) '"' = some (.text [], []) from rfl,
      Option.bind_some]
    dsimp only
    rw [run_text_of_plain hname []]
    rfl
  rw [← List.singleton_append, run_append_of_run (run_mark hmark), run_append_of_run hquoted]
  rfl

/-- The answer says what is meant exactly if all letters stand for themselves. -/
lemma rawError_reads (reason : List Char) (details : Option (List Char)) :
    JsonValue.Reads (rawError reason details) (errorValue reason details) ↔
      (∀ c ∈ reason, JsonLexer.Plain c) ∧ ∀ c ∈ details.getD [], JsonLexer.Plain c := by
  have hplain : ∀ name : List Char, name.all (JsonLexer.Plain ·) = true →
      ∀ c ∈ name, JsonLexer.Plain c :=
    fun _ hname _ hc => of_all hname hc
  have hreason := run_name (hplain "reason".toList rfl) (show punctuation '\x7b' = _ from rfl)
  have hdetails := run_name (hplain "details".toList rfl) (show punctuation ',' = _ from rfl)
  have hclose : lexFrom (.between false) ['\x7d'] = some [.rbrace] := rfl
  cases details with
  | none =>
      have htext : rawError reason none =
          ('\x7b' :: (quoted "reason".toList ++ [':', ' '])) ++ quoted reason ++ ['\x7d'] := by
        rw [rawError, rawMember]
        simp
      have htokens : (errorValue reason none).tokens =
          [.lbrace, .string (units "reason".toList), .colon] ++ .string (units reason) ::
            [.rbrace] := rfl
      rw [JsonValue.Reads, lex, htext, htokens, lexFrom_raw_iff hreason]
      simp [hclose]
  | some details =>
      have htext : rawError reason (some details) =
          ('\x7b' :: (quoted "reason".toList ++ [':', ' '])) ++ quoted reason ++
            ((',' :: (quoted "details".toList ++ [':', ' '])) ++ quoted details ++ ['\x7d']) := by
        rw [rawError, rawMember, rawMember]
        simp
      have htokens : (errorValue reason (some details)).tokens =
          [.lbrace, .string (units "reason".toList), .colon] ++ .string (units reason) ::
            ([.comma, .string (units "details".toList), .colon] ++ .string (units details) ::
              [.rbrace]) := rfl
      rw [JsonValue.Reads, lex, htext, htokens, lexFrom_raw_iff hreason,
        lexFrom_raw_iff hdetails]
      simp [hclose]

lemma plain_withoutQuotes_iff {s : List Char} :
    (∀ c ∈ withoutQuotes s, JsonLexer.Plain c) ↔ ∀ c ∈ s, c ≠ '\\' ∧ 0x20 ≤ c.toNat := by
  have hquote : 0x20 ≤ ('"' : Char).toNat := by decide
  constructor
  · intro h c hc
    by_cases hne : c = '"'
    · exact hne ▸ ⟨by decide, hquote⟩
    · exact (h c (List.mem_filter.mpr ⟨hc, by simpa using hne⟩)).2
  · intro h c hc
    obtain ⟨hmem, hne⟩ := List.mem_filter.mp hc
    exact ⟨by simpa using hne, h c hmem⟩

/-- The details of an error, if there are any. -/
def detailsOf (details : String) : Option (List Char) :=
  if details ≠ "" then some (withoutQuotes details.toList) else none

lemma body_errorResponse {reason details : String} (hreason : reason ≠ "") (statusCode : ℤ) :
    (Filters.errorResponse reason details statusCode).body.toList =
      rawError (withoutQuotes reason.toList) (detailsOf details) := by
  rw [Filters.errorResponse, if_neg hreason, rawError.eq_def, detailsOf, rawMember]
  by_cases hdetails : details = ""
  · rw [if_neg (not_not.mpr hdetails), if_neg (not_not.mpr hdetails)]
    simp [Filters.eraseQuotes, withoutQuotes, quoted]
  · rw [if_pos hdetails, if_pos hdetails]
    simp [Filters.eraseQuotes, withoutQuotes, quoted, rawMember]

/-- The answer of a service to an error says the reason and the details, without their quotes,
exactly if neither has a backslash or a control character. -/
theorem errorResponse_reads (reason details : String) (statusCode : ℤ) (hreason : reason ≠ "") :
    JsonValue.Reads (Filters.errorResponse reason details statusCode).body.toList
        (errorValue (withoutQuotes reason.toList) (detailsOf details)) ↔
      ∀ c ∈ reason.toList ++ details.toList, c ≠ '\\' ∧ 0x20 ≤ c.toNat := by
  rw [body_errorResponse hreason, rawError_reads, List.forall_mem_append, plain_withoutQuotes_iff]
  refine and_congr_right fun _ => ?_
  rw [detailsOf]
  by_cases hdetails : details = ""
  · rw [if_neg (not_not.mpr hdetails), hdetails]
    simp
  · rw [if_pos hdetails]
    exact plain_withoutQuotes_iff

theorem errorResponse_quotes : JsonValue.Reads
    (Filters.errorResponse "no \"id\"" "" 400).body.toList
    (errorValue "no id".toList none) :=
  (errorResponse_reads "no \"id\"" "" 400 (by decide)).mpr fun _ hc =>
    of_all (p := fun c => c ≠ '\\' ∧ 0x20 ≤ c.toNat) rfl hc

/-- The body that `AdminService::error_response` makes of a text. -/
def adminErrorBody (buffer : String) : List Char :=
  if buffer = "" then [] else rawError buffer.toList none

/-- Here the quotes stay, and spoil the answer as well. -/
theorem adminErrorBody_reads (buffer : String) (hbuffer : buffer ≠ "") :
    JsonValue.Reads (adminErrorBody buffer) (errorValue buffer.toList none) ↔
      ∀ c ∈ buffer.toList, JsonLexer.Plain c := by
  rw [adminErrorBody, if_neg hbuffer, rawError_reads]
  simp

end AnswerTexts

end IotAgent
