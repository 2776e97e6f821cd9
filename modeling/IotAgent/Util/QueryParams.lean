import IotAgent.Lib.PercentCoding
import Mathlib.Algebra.Group.Nat.Defs

/-!
Query strings (`src/util/FuncUtil.cc`).

A query string is made of parameters whose keys and values are percent-encoded. The reader
decodes the whole string and splits it then, so a separator that was encoded separates as well.

* `UrlEncoder`: the encoder of the web library;
* `makeQueryString`, `urlDecode`, `riotGetQueryParams`: the functions of the code;
* `urlDecode_makeQueryString`: what the reader splits;
* `riotGetQueryParams_unsplit`: no parameter that it yields has a separator;
* `paramsReturn_iff`: the parameters that come back as they were.
-/

namespace IotAgent

open PercentCoding

/-- A parameter of a query: key and value. -/
abbrev KVP := List UInt8 × List UInt8

/-- `'&'`. -/
def ampersand : UInt8 := 0x26

/-- `'='`. -/
def equalSign : UInt8 := 0x3D

/-! ### Making a query string -/

/-- `pion::algorithm::url_encode`: which bytes it escapes. -/
structure UrlEncoder where
  reserved : UInt8 → Bool
  percent : reserved percent = true
  ampersand : reserved ampersand = true
  equalSign : reserved equalSign = true

def UrlEncoder.encode (enc : UrlEncoder) : List UInt8 → List UInt8 :=
  PercentCoding.encode enc.reserved

/-- The loop of `make_query_string`, which has written `i` parameters. -/
def queryFrom (encode : List UInt8 → List UInt8) : ℕ → List KVP → List UInt8
  | _, [] => []
  | i, p :: params =>
      if p.2 ≠ [] then
        (if i ≠ 0 then [ampersand] else []) ++ encode p.1 ++ equalSign :: encode p.2
          ++ queryFrom encode (i + 1) params
      else queryFrom encode i params

/-- `make_query_string`, for the parameters in the order of the multimap. -/
def makeQueryString (enc : UrlEncoder) (queryParameters : List KVP) : List UInt8 :=
  queryFrom enc.encode 0 queryParameters

/-! ### Reading a query string -/

/-- The value of a hexadecimal digit. -/
def hexValue (c : UInt8) : Option UInt8 :=
  if 0x30 ≤ c ∧ c ≤ 0x39 then some (c - 0x30)
  else if 0x41 ≤ c ∧ c ≤ 0x46 then some (c - 0x41 + 10)
  else if 0x61 ≤ c ∧ c ≤ 0x66 then some (c - 0x61 + 10)
  else none

/-- `strtol` of two characters to the base 16, cut to a byte: digits as far as there are any,
perhaps behind a blank or a sign. -/
def hexByte (a b : UInt8) : UInt8 :=
  match hexValue a, hexValue b with
  | some x, some y => 16 * x + y
  | some x, none => x
  | none, some y =>
      if a = 0x20 ∨ (9 ≤ a ∧ a ≤ 13) ∨ a = 0x2B then y else if a = 0x2D then -y else 0
  | none, none => 0

/-- `url_decode`. -/
def urlDecode : List UInt8 → List UInt8 :=
  decode hexByte

/-- `isControl`, of a signed character. -/
def isControl (c : UInt8) : Bool :=
  c ≤ 31 || c == 127

def queryNameMax : ℕ := 1024

def queryValueMax : ℕ := 1024 * 1024

inductive QueryParseState where
  | name
  | value
  deriving DecidableEq

/-- The reader between two characters. -/
structure QueryParse where
  parseState : QueryParseState := .name
  queryName : List UInt8 := []
  queryValue : List UInt8 := []
  qParam : List KVP := []

namespace QueryParse

variable (s : QueryParse)

/-- One character; `none` when the reader gives up. -/
def step (c : UInt8) : Option QueryParse :=
  match s.parseState with
  | .name =>
      if c = equalSign then
        if s.queryName = [] then none else some { s with parseState := .value }
      else if c = ampersand then
        -- an empty name is skipped
        if s.queryName ≠ [] then
          some { s with qParam := s.qParam ++ [(s.queryName, s.queryValue)], queryName := [] }
        else some s
      else if c = 0x0D ∨ c = 0x0A then some s
      else if isControl c ∨ s.queryName.length ≥ queryNameMax then none
      else some { s with queryName := s.queryName ++ [c] }
  | .value =>
      if c = ampersand then
        some { parseState := .name, qParam := s.qParam ++ [(s.queryName, s.queryValue)] }
      else if c = 0x0D ∨ c = 0x0A then some s
      else if isControl c ∨ s.queryValue.length ≥ queryValueMax then none
      else some { s with queryValue := s.queryValue ++ [c] }

/-- The characters, and the last parameter behind them. -/
def run : QueryParse → List UInt8 → Bool × List KVP
  | s, [] =>
      (true, if s.queryName ≠ [] then s.qParam ++ [(s.queryName, s.queryValue)] else s.qParam)
  | s, c :: cs => (s.step c).elim (false, s.qParam) fun s' => run s' cs

end QueryParse

/-- `riot_getQueryParams`: the result, and the parameters that are added to `qParam`. -/
def riotGetQueryParams (qStr : List UInt8) (qParam : List KVP) : Bool × List KVP :=
  if qStr = [] then (false, qParam)
  else ({ qParam } : QueryParse).run (urlDecode qStr)

/-! ### What the reader splits -/

lemma hexValue_hexDigit : ∀ n < 16, hexValue (hexDigit n) = some (UInt8.ofNat n) := by decide

lemma readsDigits_hexByte : ReadsDigits hexByte := by
  intro b
  have hb := b.toNat_lt
  rw [hexByte, hexValue_hexDigit _ (by omega), hexValue_hexDigit _ (by omega)]
  apply UInt8.toNat_inj.mp
  simp
  omega

lemma UrlEncoder.decode_append (enc : UrlEncoder) (t s : List UInt8) :
    urlDecode (enc.encode t ++ s) = t ++ urlDecode s :=
  decode_encode_append enc.percent readsDigits_hexByte t s

lemma urlDecode_cons {c : UInt8} (hc : c ≠ PercentCoding.percent) (s : List UInt8) :
    urlDecode (c :: s) = c :: urlDecode s :=
  decode_cons_of_ne hexByte hc s

/-- The decoded query string has the keys and the values as they are, with nothing left to tell
their separators from those of the string. -/
lemma urlDecode_queryFrom (enc : UrlEncoder) (i : ℕ) (params : List KVP) :
    urlDecode (queryFrom enc.encode i params) = queryFrom id i params := by
  induction params generalizing i with
  | nil => rfl
  | cons p params ih =>
      have hdecode : urlDecode (enc.encode p.1 ++ equalSign :: enc.encode p.2
            ++ queryFrom enc.encode (i + 1) params)
          = p.1 ++ equalSign :: p.2 ++ queryFrom id (i + 1) params := by
        rw [List.append_assoc, enc.decode_append, List.cons_append, urlDecode_cons (by decide),
          enc.decode_append, ih]
        simp
      rw [queryFrom, queryFrom]
      split
      · by_cases hi : i = 0
        · simpa [hi] using hdecode
        · have hamp := urlDecode_cons (c := ampersand) (by decide) (enc.encode p.1 ++
            equalSign :: enc.encode p.2 ++ queryFrom enc.encode (i + 1) params)
          rw [hdecode] at hamp
          simpa [hi] using hamp
      · exact ih i

/-- Parameters with values make a query string. -/
lemma makeQueryString_eq_nil {enc : UrlEncoder} {params : List KVP}
    (hvalue : ∀ p ∈ params, p.2 ≠ []) : makeQueryString enc params = [] ↔ params = [] := by
  cases params with
  | nil => simp [makeQueryString, queryFrom]
  | cons p params =>
      have hp := hvalue p (List.mem_cons_self ..)
      simp [makeQueryString, queryFrom, hp]

namespace QueryParse

/-! ### Parameters without separators -/

/-- The parameter has no separator where the reader would find one. -/
def Unsplit (p : KVP) : Prop :=
  equalSign ∉ p.1 ∧ ampersand ∉ p.1 ∧ ampersand ∉ p.2

/-- What the reader has, all without separators. -/
structure AllUnsplit (s : QueryParse) : Prop where
  qParam : ∀ p ∈ s.qParam, Unsplit p
  pair : Unsplit (s.queryName, s.queryValue)

variable {s s' : QueryParse}

lemma AllUnsplit.push (hs : AllUnsplit s) :
    ∀ p ∈ s.qParam ++ [(s.queryName, s.queryValue)], Unsplit p := by
  intro p hp
  rcases List.mem_append.mp hp with hp | hp
  · exact hs.qParam p hp
  · rw [List.mem_singleton.mp hp]
    exact hs.pair

/-- A character keeps it so. -/
lemma AllUnsplit.step (hs : AllUnsplit s) {c : UInt8} (h : s.step c = some s') :
    AllUnsplit s' := by
  obtain ⟨heq, hamp, hvalue⟩ := hs.pair
  rw [QueryParse.step] at h
  split at h
  · split_ifs at h with hc hempty hc' hname hline hcontrol <;> obtain rfl := Option.some.inj h
    · exact ⟨hs.qParam, hs.pair⟩
    · exact ⟨hs.push, List.not_mem_nil, List.not_mem_nil, hvalue⟩
    · exact hs
    · exact hs
    · refine ⟨hs.qParam, ?_, ?_, hvalue⟩
      · simpa [heq] using Ne.symm hc
      · simpa [hamp] using Ne.symm hc'
  · split_ifs at h with hc hline hcontrol <;> obtain rfl := Option.some.inj h
    · exact ⟨hs.push, List.not_mem_nil, List.not_mem_nil, List.not_mem_nil⟩
    · exact hs
    · refine ⟨hs.qParam, heq, hamp, ?_⟩
      simpa [hvalue] using Ne.symm hc

/-- What the reader yields in the end. -/
lemma AllUnsplit.run (hs : AllUnsplit s) (cs : List UInt8) : ∀ p ∈ (s.run cs).2, Unsplit p := by
  induction cs generalizing s with
  | nil =>
      rw [QueryParse.run]
      dsimp only
      split
      · exact hs.push
      · exact hs.qParam
  | cons c cs ih =>
      rw [QueryParse.run]
      cases hstep : s.step c with
      | none => exact hs.qParam
      | some s' => exact ih (hs.step hstep)

/-! ### Parameters that are read -/

lemma not_lineEnd {c : UInt8} (hc : isControl c = false) : ¬ (c = 0x0D ∨ c = 0x0A) := by
  rintro (rfl | rfl) <;> cases hc

lemma step_name {s : QueryParse} {c : UInt8} (hstate : s.parseState = .name)
    (hcontrol : isControl c = false) (heq : c ≠ equalSign) (hamp : c ≠ ampersand)
    (hlen : s.queryName.length < queryNameMax) :
    s.step c = some { s with queryName := s.queryName ++ [c] } := by
  rw [QueryParse.step, hstate]
  simp only [if_neg heq, if_neg hamp, if_neg (not_lineEnd hcontrol)]
  rw [if_neg]
  rw [hcontrol]
  simp only [Bool.false_eq_true, false_or]
  omega

lemma step_value {s : QueryParse} {c : UInt8} (hstate : s.parseState = .value)
    (hcontrol : isControl c = false) (hamp : c ≠ ampersand)
    (hlen : s.queryValue.length < queryValueMax) :
    s.step c = some { s with queryValue := s.queryValue ++ [c] } := by
  rw [QueryParse.step, hstate]
  simp only [if_neg hamp, if_neg (not_lineEnd hcontrol)]
  rw [if_neg]
  rw [hcontrol]
  simp only [Bool.false_eq_true, false_or]
  omega

/-- Characters of a key. -/
lemma run_name {k cs : List UInt8} {s : QueryParse} (hstate : s.parseState = .name)
    (hcontrol : ∀ c ∈ k, isControl c = false) (heq : equalSign ∉ k) (hamp : ampersand ∉ k)
    (hlen : s.queryName.length + k.length ≤ queryNameMax) :
    s.run (k ++ cs) = run { s with queryName := s.queryName ++ k } cs := by
  induction k generalizing s with
  | nil => simp
  | cons c k ih =>
      obtain ⟨hc, hcontrol⟩ := List.forall_mem_cons.mp hcontrol
      rw [List.mem_cons, not_or] at heq hamp
      rw [List.length_cons] at hlen
      have hstep := step_name hstate hc (Ne.symm heq.1) (Ne.symm hamp.1) (by omega)
      have hrest := ih (s := { s with queryName := s.queryName ++ [c] }) hstate hcontrol heq.2
        hamp.2 (by simp; omega)
      rw [List.cons_append, run, hstep, Option.elim_some, hrest]
      simp

/-- Characters of a value. -/
lemma run_value {v cs : List UInt8} {s : QueryParse} (hstate : s.parseState = .value)
    (hcontrol : ∀ c ∈ v, isControl c = false) (hamp : ampersand ∉ v)
    (hlen : s.queryValue.length + v.length ≤ queryValueMax) :
    s.run (v ++ cs) = run { s with queryValue := s.queryValue ++ v } cs := by
  induction v generalizing s with
  | nil => simp
  | cons c v ih =>
      obtain ⟨hc, hcontrol⟩ := List.forall_mem_cons.mp hcontrol
      rw [List.mem_cons, not_or] at hamp
      rw [List.length_cons] at hlen
      have hstep := step_value hstate hc (Ne.symm hamp.1) (by omega)
      have hrest := ih (s := { s with queryValue := s.queryValue ++ [c] }) hstate hcontrol hamp.2
        (by simp; omega)
      rw [List.cons_append, run, hstep, Option.elim_some, hrest]
      simp

end QueryParse

/-- The parameters that the reader has room for: not empty, not too long, and without control
characters. -/
structure Readable (p : KVP) : Prop where
  key_ne : p.1 ≠ []
  key_length : p.1.length ≤ queryNameMax
  key_plain : ∀ c ∈ p.1, isControl c = false
  value_ne : p.2 ≠ []
  value_length : p.2.length ≤ queryValueMax
  value_plain : ∀ c ∈ p.2, isControl c = false

namespace QueryParse

/-- A whole parameter, behind `out`. -/
lemma run_pair {p : KVP} (hp : Readable p) (hunsplit : Unsplit p) (out : List KVP)
    (cs : List UInt8) :
    run { qParam := out } (p.1 ++ equalSign :: p.2 ++ cs)
      = run { parseState := .value, queryName := p.1, queryValue := p.2, qParam := out } cs := by
  obtain ⟨heq, hamp, hvalue⟩ := hunsplit
  have hkey : run { qParam := out } (p.1 ++ equalSign :: (p.2 ++ cs))
      = run { queryName := p.1, qParam := out } (equalSign :: (p.2 ++ cs)) :=
    run_name rfl hp.key_plain heq hamp (by simpa using hp.key_length)
  have hstep : step { queryName := p.1, qParam := out } equalSign
      = some { parseState := .value, queryName := p.1, qParam := out } := by
    simp [step, hp.key_ne]
  have hval : run { parseState := .value, queryName := p.1, qParam := out } (p.2 ++ cs)
      = run { parseState := .value, queryName := p.1, queryValue := p.2, qParam := out } cs :=
    run_value rfl hp.value_plain hvalue (by simpa using hp.value_length)
  rw [List.append_assoc, List.cons_append, hkey, run, hstep, Option.elim_some, hval]

/-- The parameters behind a first one. -/
lemma run_queryFrom {params : List KVP} (hparams : ∀ p ∈ params, Readable p)
    (hunsplit : ∀ p ∈ params, Unsplit p) {p : KVP} (hp : p.1 ≠ []) (out : List KVP) (i : ℕ) :
    run { parseState := .value, queryName := p.1, queryValue := p.2, qParam := out }
        (queryFrom id (i + 1) params) = (true, out ++ p :: params) := by
  induction params generalizing p out i with
  | nil => simp [queryFrom, run, hp]
  | cons q params ih =>
      obtain ⟨hq, hparams⟩ := List.forall_mem_cons.mp hparams
      obtain ⟨hqsplit, hunsplit⟩ := List.forall_mem_cons.mp hunsplit
      have hstep : step { parseState := .value, queryName := p.1, queryValue := p.2, qParam := out }
          ampersand = some { qParam := out ++ [p] } := by
        simp [step]
      have htext : queryFrom id (i + 1) (q :: params)
          = ampersand :: (q.1 ++ equalSign :: q.2 ++ queryFrom id (i + 1 + 1) params) := by
        simp [queryFrom, hq.value_ne]
      rw [htext, run, hstep, Option.elim_some, run_pair hq hqsplit,
        ih hparams hunsplit hq.key_ne, List.append_assoc, List.singleton_append]

end QueryParse

/-- **The query strings that come back** as the parameters they were made of: those of at least
one parameter, without separators in the keys and without `&` in the values. -/
theorem paramsReturn_iff (enc : UrlEncoder) (params : List KVP)
    (hparams : ∀ p ∈ params, Readable p) :
    riotGetQueryParams (makeQueryString enc params) [] = (true, params)
      ↔ params ≠ [] ∧ ∀ p ∈ params, QueryParse.Unsplit p := by
  have hnil : makeQueryString enc params = [] ↔ params = [] :=
    makeQueryString_eq_nil fun p hp => (hparams p hp).value_ne
  rw [riotGetQueryParams]
  split
  · next hempty => simp [hnil.mp hempty]
  · next hempty =>
      have hne : params ≠ [] := fun h => hempty (hnil.mpr h)
      rw [makeQueryString, urlDecode_queryFrom]
      constructor
      · intro h
        refine ⟨hne, fun p hp => ?_⟩
        have hall : QueryParse.AllUnsplit { qParam := [] } :=
          ⟨by simp, List.not_mem_nil, List.not_mem_nil, List.not_mem_nil⟩
        exact hall.run _ p (by rwa [h])
      · rintro ⟨-, hunsplit⟩
        cases params with
        | nil => exact absurd rfl hne
        | cons p params =>
            obtain ⟨hp, hparams⟩ := List.forall_mem_cons.mp hparams
            obtain ⟨hpsplit, hunsplit⟩ := List.forall_mem_cons.mp hunsplit
            have htext : queryFrom id 0 (p :: params)
                = p.1 ++ equalSign :: p.2 ++ queryFrom id (0 + 1) params := by
              simp [queryFrom, hp.value_ne]
            rw [htext, QueryParse.run_pair hp hpsplit,
              QueryParse.run_queryFrom hparams hunsplit hp.key_ne, List.nil_append]

/-- The bytes that the library escapes: all but letters, digits and some of the signs. -/
def pionEncoder : UrlEncoder where
  reserved c := c ≤ 32 || 127 ≤ c || [0x22, 0x23, 0x24, 0x25, 0x26, 0x2B, 0x2C, 0x2F, 0x3A, 0x3B,
    0x3C, 0x3D, 0x3E, 0x3F, 0x40, 0x5B, 0x5C, 0x5D, 0x5E, 0x60, 0x7B, 0x7C, 0x7D, 0x7E].contains c
  percent := by decide
  ampersand := by decide
  equalSign := by decide

/-- The query string of the measure `d=1`. -/
theorem paramsReturn_iff_measure :
    riotGetQueryParams (makeQueryString pionEncoder [([0x64], [0x31])]) []
        = (true, [([0x64], [0x31])])
      ↔ [(([0x64], [0x31]) : KVP)] ≠ [] ∧
        ∀ p ∈ [(([0x64], [0x31]) : KVP)], QueryParse.Unsplit p :=
  paramsReturn_iff pionEncoder [([0x64], [0x31])] fun p hp => by
    rw [List.mem_singleton.mp hp]
    exact ⟨by decide, by decide, by simp [isControl], by decide, by decide, by simp [isControl]⟩

/-- The parameter `d` with the value `1&i=x`. -/
def injected : List KVP := [([0x64], [0x31, 0x26, 0x69, 0x3D, 0x78])]

/-- It comes back as a value `1` and a parameter `i`. -/
lemma riotGetQueryParams_injected : riotGetQueryParams (makeQueryString pionEncoder injected) []
    = (true, [([0x64], [0x31]), ([0x69], [0x78])]) := by
  decide +kernel

theorem not_paramsReturn_injected : (∀ p ∈ injected, Readable p)
    ∧ riotGetQueryParams (makeQueryString pionEncoder injected) [] ≠ (true, injected) := by
  refine ⟨fun p hp => ?_, ?_⟩
  · rw [List.mem_singleton.mp hp]
    exact ⟨by decide, by decide, by simp [isControl], by decide, by decide, by simp [isControl]⟩
  · rw [riotGetQueryParams_injected]
    decide

end IotAgent
