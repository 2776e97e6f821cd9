import IotAgent.Lib.FirstMap
import IotAgent.Lib.Placeholders
import IotAgent.Lib.RegexSyntax
import IotAgent.Util.CLocale
import IotAgent.Util.QueryParams
import Mathlib.Data.Bool.AllAny
import Mathlib.Logic.Function.Basic

/-!
URLs with placeholders (`src/rest/rest_functions.cc`).

A handler is registered with a pattern like `/iot/devices/<device_id>`. The pattern is turned
into a regular expression, piece by piece, and the names of its placeholders are kept in their
order; a request is matched against the expression, and what the groups have captured is bound to
the names.

* `restResourceParse`: a request is matched;
* `formatPattern`: the expression and the names of a pattern, with `isNew`, the look-up in the map
  that is meant to suppress repeated pieces;
* `isNew_of_singular`, `formatLoop_spell`: no piece is suppressed;
* `formatPattern_spell`, `parse_grouped`: the expression of a pattern;
* `matches_compile`, `matches_request`: the requests that match;
* `UrlPattern`, `restResourceParse_formatPattern`: the patterns with distinct names, the URLs that
  match and what is bound.
-/

namespace IotAgent

namespace RestFunctions

open Regex (bytes)

/-! ### Requests -/

/-- A text of the code. -/
abbrev StdString := List UInt8

/-- `boost::regex::perl`, in the C locale. -/
abbrev perl : Regex.CharSet → UInt8 → Bool :=
  Regex.CharSet.mem CLocale.isSpace

/-- The loop over the groups, from the one behind so many others. The `at` of a vector throws if
there is no such element. -/
def bindGroups (urlPlaceholders : List StdString) :
    ℕ → List StdString → List (StdString × StdString) → Option (List (StdString × StdString))
  | _, [], resources => some resources
  | i, data :: m, resources =>
      if urlPlaceholders = [] then bindGroups urlPlaceholders (i + 1) m resources
      else match urlPlaceholders[i]? with
        | some name =>
            bindGroups urlPlaceholders (i + 1) m (FirstMap.insert resources (name, urlDecode data))
        | none => none

/-- `restResourceParse`; `none` is an exception. -/
def restResourceParse (regex : StdString) (urlPlaceholders : List StdString)
    (urlResource : StdString) (resources : List (StdString × StdString)) :
    Option (Bool × List (StdString × StdString)) :=
  match Regex.parse regex with
  | none => none
  | some resourceRe =>
      match Regex.regexMatch perl resourceRe urlResource with
      | none => some (false, resources)
      | some m => (bindGroups urlPlaceholders 0 m resources).map fun resources => (true, resources)

lemma restResourceParse_of_parse {regex : StdString} {resourceRe : Regex Regex.CharSet}
    (h : Regex.parse regex = some resourceRe) (urlPlaceholders : List StdString)
    (urlResource : StdString) (resources : List (StdString × StdString)) :
    restResourceParse regex urlPlaceholders urlResource resources =
      match Regex.regexMatch perl resourceRe urlResource with
      | none => some (false, resources)
      | some m =>
          (bindGroups urlPlaceholders 0 m resources).map fun resources => (true, resources) := by
  rw [restResourceParse, h]

/-! ### Patterns -/

/-- The expression for placeholders. -/
def searchRe : Regex Regex.CharSet :=
  (Regex.parse (bytes "<([a-zA-Z0-9_-]+)>")).getD .empty

/-- A map of iterators, which are places in the pattern or, when made by `operator[]`, singular. -/
abbrev Iterators := StdString → Option (Option ℕ)

/-- `operator[]`. -/
def Iterators.index (m : Iterators) (key : StdString) : Iterators :=
  if m key = none then Function.update m key (some none) else m

/-- `insert`. -/
def Iterators.insert (m : Iterators) (key : StdString) (it : ℕ) : Iterators :=
  if m key = none then Function.update m key (some (some it)) else m

/-- A piece at a place is compared with the place in the map, and inserted if this is another
one. -/
def isNew (m : Iterators) (key : StdString) (it : ℕ) : Bool × Iterators :=
  let m := m.index key
  if m key ≠ some (some it) then (true, m.insert key it) else (false, m)

/-- What the loop works on. -/
structure Formatting where
  urlRegex : StdString := []
  urlArgs : List StdString := []
  tmpSuffix : StdString := []
  tmpPlaceholders : Iterators := fun _ => none

/-- The body of the loop, for a placeholder that was found from a place on. -/
def formatStep (s : Formatting) (start : ℕ) (what : Regex.Found UInt8) : Formatting :=
  let first := isNew s.tmpPlaceholders what.before start
  let second := isNew first.2 what.text (start + what.before.length)
  let third := isNew second.2 what.behind (start + what.before.length + what.text.length)
  { urlRegex := s.urlRegex ++ (if first.1 then what.before else []) ++
      (if second.1 then bytes "([^/]+)" else [])
    urlArgs := s.urlArgs ++ (if second.1 then [what.captures.headD []] else [])
    tmpSuffix := if third.1 then what.behind else s.tmpSuffix
    tmpPlaceholders := third.2 }

lemma searchRe_eq : searchRe = .seq (.seq (.seq .empty (.one (.literal 0x3C)))
    (.group (.seq .empty (.plus { items := [.byte 0x2D, .byte 0x5F, .range 0x30 0x39,
      .range 0x41 0x5A, .range 0x61 0x7A] })))) (.one (.literal 0x3E)) :=
  rfl

/-- A placeholder is not empty, so what is behind it is shorter. -/
lemma length_behind_lt {rest : StdString} {what : Regex.Found UInt8}
    (h : Regex.search perl searchRe rest = some what) : what.behind.length < rest.length := by
  obtain ⟨hrest, hmatch⟩ := Regex.search_eq_some h
  rw [searchRe_eq] at hmatch
  obtain ⟨l₁, l₂, caps₁, caps₂, -, hlast, htext, -⟩ := Regex.matches_seq.mp hmatch
  obtain ⟨⟨c, -, rfl⟩, -⟩ := Regex.matches_one.mp hlast
  rw [hrest, htext]
  simp only [List.length_append, List.length_cons]
  omega

/-- The loop, from a place on. -/
def formatLoop (start : ℕ) (rest : StdString) (s : Formatting) : Formatting :=
  match _h : Regex.search perl searchRe rest with
  | none => s
  | some what =>
      formatLoop (start + what.before.length + what.text.length) what.behind
        (formatStep s start what)
  termination_by rest.length
  decreasing_by exact length_behind_lt ‹_›

/-- The method of the filters. -/
def methodFilter (filters : List (StdString × StdString)) : StdString :=
  (filters.lookup (bytes "method")).getD []

/-- `format_pattern`, with empty texts to begin with. -/
def formatPattern (url : StdString) (filters : List (StdString × StdString)) :
    StdString × List StdString :=
  let s := formatLoop 0 url {}
  let urlRegex := s.urlRegex ++ s.tmpSuffix
  let urlRegex := if urlRegex = [] then url else urlRegex
  let urlRegex := bytes "[[:space:]]+" ++ urlRegex
  if methodFilter filters = [] then (bytes ".+" ++ urlRegex, s.urlArgs)
  else (methodFilter filters ++ urlRegex, s.urlArgs)

/-! ### No piece is suppressed -/

/-- All iterators of the map are singular. -/
def Singular (m : Iterators) : Prop :=
  ∀ key it, m key ≠ some (some it)

variable {m : Iterators} {key : StdString} {it : ℕ}

lemma singular_index (hm : Singular m) : Singular (m.index key) := by
  rw [Iterators.index]
  split_ifs with h
  · intro key' it'
    by_cases hkey : key' = key
    · rw [hkey, Function.update_self]
      exact fun h => by cases h
    · rw [Function.update_of_ne hkey]
      exact hm key' it'
  · exact hm

/-- `operator[]` has put a key in, so that nothing is inserted. -/
lemma insert_index : (m.index key).insert key it = m.index key := by
  rw [Iterators.insert, if_neg]
  rw [Iterators.index]
  split_ifs with h
  · rw [Function.update_self]
    exact fun h => by cases h
  · exact h

/-- Every piece is new. -/
lemma isNew_of_singular (hm : Singular m) : isNew m key it = (true, m.index key) := by
  rw [isNew, if_pos (singular_index hm key it), insert_index]

/-- A placeholder adds the text before it, a group and its name. -/
lemma formatStep_eq {s : Formatting} (start : ℕ) (what : Regex.Found UInt8)
    (hs : Singular s.tmpPlaceholders) :
    (formatStep s start what).urlRegex = s.urlRegex ++ what.before ++ bytes "([^/]+)" ∧
      (formatStep s start what).urlArgs = s.urlArgs ++ [what.captures.headD []] ∧
      (formatStep s start what).tmpSuffix = what.behind ∧
      Singular (formatStep s start what).tmpPlaceholders := by
  have hs₁ : Singular (s.tmpPlaceholders.index what.before) := singular_index hs
  have hs₂ : Singular ((s.tmpPlaceholders.index what.before).index what.text) :=
    singular_index hs₁
  simp only [formatStep, isNew_of_singular hs, isNew_of_singular hs₁, isNew_of_singular hs₂]
  exact ⟨rfl, rfl, rfl, singular_index hs₂⟩

/-! ### The placeholders of a pattern -/

open Placeholders

/-- `'<'` and `'>'`, in a name with its brackets. -/
def bracketed (name : StdString) : StdString :=
  0x3C :: (name ++ [0x3E])

/-- The characters of names. -/
def isWord (c : UInt8) : Bool :=
  CLocale.isAlnum c || c = CLocale.underscore || c = CLocale.minus

lemma isWord_of_isAlpha {c : UInt8} (h : CLocale.isAlpha c) : isWord c := by
  rw [isWord, CLocale.isAlnum, h]
  rfl

/-- A name of a placeholder. -/
def IsName (name : StdString) : Prop :=
  name ≠ [] ∧ ∀ c ∈ name, isWord c

lemma mem_nameSet {c : UInt8} : perl { items := [.byte 0x2D, .byte 0x5F, .range 0x30 0x39,
    .range 0x41 0x5A, .range 0x61 0x7A] } c = isWord c := by
  rw [Bool.eq_iff_iff]
  simp only [perl, Regex.CharSet.mem, isWord, CLocale.isAlnum, CLocale.isAlpha, CLocale.isUpper,
    CLocale.isLower, CLocale.isDigit, CLocale.underscore, CLocale.minus, List.any_cons,
    List.any_nil, Bool.false_xor, Bool.or_false, Bool.or_eq_true, decide_eq_true_eq]
  grind

/-- The expression matches a name in its brackets. -/
lemma matches_searchRe {l : StdString} {caps : List StdString} :
    Regex.Matches perl searchRe l caps ↔
      ∃ name, IsName name ∧ l = bracketed name ∧ caps = [name] := by
  rw [searchRe_eq]
  constructor
  · intro h
    obtain ⟨l₁, l₂, _, _, h₁, hlast, rfl, rfl⟩ := Regex.matches_seq.mp h
    obtain ⟨⟨c, hc, rfl⟩, rfl⟩ := Regex.matches_one.mp hlast
    obtain rfl := Regex.mem_literal.mp hc
    obtain ⟨l₃, l₄, _, _, h₃, hgroup, rfl, rfl⟩ := Regex.matches_seq.mp h₁
    obtain ⟨l₅, l₆, _, _, h₅, hfirst, rfl, rfl⟩ := Regex.matches_seq.mp h₃
    obtain ⟨rfl, rfl⟩ := Regex.matches_empty.mp h₅
    obtain ⟨⟨c, hc, rfl⟩, rfl⟩ := Regex.matches_one.mp hfirst
    obtain rfl := Regex.mem_literal.mp hc
    obtain ⟨_, hinner, rfl⟩ := Regex.matches_group.mp hgroup
    obtain ⟨l₇, l₈, _, _, h₇, hplus, rfl, rfl⟩ := Regex.matches_seq.mp hinner
    obtain ⟨rfl, rfl⟩ := Regex.matches_empty.mp h₇
    obtain ⟨⟨hne, hword⟩, rfl⟩ := Regex.matches_plus.mp hplus
    exact ⟨l₈, ⟨hne, fun c hc => mem_nameSet.symm.trans (hword c hc)⟩, rfl, rfl⟩
  · rintro ⟨name, ⟨hne, hword⟩, rfl, rfl⟩
    have hfirst : Regex.Matches perl (.seq .empty (.one (.literal 0x3C))) ([] ++ [0x3C])
        ([] ++ []) :=
      .seq .empty (.one (Regex.mem_literal.mpr rfl))
    have hname : Regex.Matches perl (.seq .empty (.plus _)) ([] ++ name) ([] ++ []) :=
      .seq .empty (.plus hne fun c hc => mem_nameSet.trans (hword c hc))
    exact .seq (.seq hfirst (.group hname)) (.one (Regex.mem_literal.mpr rfl))

/-- No match begins with another character. -/
lemma runs_searchRe {c : UInt8} (hc : c ≠ 0x3C) (l : StdString) :
    Regex.runs perl searchRe (c :: l) = [] := by
  refine List.eq_nil_iff_forall_not_mem.mpr ?_
  rintro ⟨caps, rest⟩ hmem
  obtain ⟨l', hl', hmatch⟩ := Regex.mem_runs_iff.mp hmem
  obtain ⟨name, -, rfl, -⟩ := matches_searchRe.mp hmatch
  exact hc (List.cons.inj hl').1

/-- A name ends at its bracket. -/
lemma bracketed_append_inj {name name' rest rest' : StdString} (hname : IsName name)
    (hname' : IsName name') (h : bracketed name ++ rest = bracketed name' ++ rest') :
    name = name' ∧ rest = rest' := by
  have hno : ∀ {name : StdString}, IsName name → (0x3E : UInt8) ∉ name := by
    intro name hname hmem
    exact absurd (hname.2 _ hmem) (by decide)
  simp only [bracketed, List.cons_append, List.append_assoc, List.cons.injEq, true_and,
    List.nil_append] at h
  exact append_separator_inj (hno hname) (hno hname') h

/-- The first placeholder is found. -/
lemma search_bracketed {first name rest : StdString} (hfirst : 0x3C ∉ first)
    (hname : IsName name) : Regex.search perl searchRe (first ++ (bracketed name ++ rest)) =
      some ⟨first, bracketed name, [name], rest⟩ := by
  have hfound : Regex.search perl searchRe (bracketed name ++ rest) =
      some ⟨[], bracketed name, [name], rest⟩ := by
    refine Regex.search_of_unique (List.cons_ne_nil _ _)
      (matches_searchRe.mpr ⟨name, hname, rfl, rfl⟩) fun l' rest' caps' heq hmatch => ?_
    obtain ⟨name', hname', rfl, rfl⟩ := matches_searchRe.mp hmatch
    obtain ⟨rfl, rfl⟩ := bracketed_append_inj hname hname' heq
    exact ⟨rfl, rfl⟩
  rw [Regex.search_append fun c hc l => runs_searchRe (fun e => hfirst (e ▸ hc)) l, hfound]
  exact congrArg (fun l => some (Regex.Found.mk l _ _ _)) (List.append_nil first)

/-- Without a bracket there is none. -/
lemma search_of_not_mem {l : StdString} (h : 0x3C ∉ l) : Regex.search perl searchRe l = none :=
  Regex.search_eq_none (fun _ hc l' => runs_searchRe (fun e => h (e ▸ hc)) l') rfl

/-! ### The loop over the placeholders -/

/-- What patterns are made of. -/
inductive Part where
  | char (c : UInt8)
  | hole (name : StdString)

/-- The characters and the names of patterns. -/
def Part.Ok : Part → Prop
  | .char c => c = CLocale.slash ∨ isWord c
  | .hole name => IsName name

/-- The text with something in the place of every name. -/
def spell (f : StdString → StdString) : List Part → StdString
  | [] => []
  | .char c :: parts => c :: spell f parts
  | .hole name :: parts => f name ++ spell f parts

/-- The names in their order. -/
def holes : List Part → List StdString
  | [] => []
  | .char _ :: parts => holes parts
  | .hole name :: parts => name :: holes parts

/-- The text with groups in the place of the names. -/
abbrev grouped : List Part → StdString :=
  spell fun _ => bytes "([^/]+)"

variable {parts : List Part} {f g : StdString → StdString} {s : Formatting}

lemma spell_congr (h : ∀ name ∈ holes parts, f name = g name) : spell f parts = spell g parts := by
  induction parts with
  | nil => rfl
  | cons part parts ih =>
      cases part with
      | char c => exact congrArg (c :: ·) (ih h)
      | hole name =>
          rw [holes, List.forall_mem_cons] at h
          rw [spell, spell, h.1, ih h.2]

lemma spell_of_holes_eq_nil (hnone : holes parts = []) : spell f parts = grouped parts :=
  spell_congr fun _ hname => absurd (hnone ▸ hname) List.not_mem_nil

lemma spell_append {parts' : List Part} :
    spell f (parts ++ parts') = spell f parts ++ spell f parts' := by
  induction parts with
  | nil => rfl
  | cons part parts ih =>
      cases part with
      | char c => exact congrArg (c :: ·) ih
      | hole name => rw [List.cons_append, spell, spell, ih, List.append_assoc]

/-- No character of a name has a meaning of its own. -/
lemma not_special_of_isWord {c : UInt8} (h : isWord c) : c ∉ Regex.Reader.special := by
  have hspecial : (Regex.Reader.special.all fun c => !isWord c) = true := rfl
  intro hc
  have hword := List.all_eq_true.mp hspecial c hc
  rw [h] at hword
  exact Bool.false_ne_true hword

/-- Neither is the beginning of a placeholder, nor has it a meaning in an expression. -/
lemma Part.Ok.char {c : UInt8} (h : (Part.char c).Ok) : c ≠ 0x3C ∧ c ∉ Regex.Reader.special := by
  obtain rfl | h := h
  · decide
  · refine ⟨fun hc => ?_, not_special_of_isWord h⟩
    rw [hc] at h
    exact absurd h (by decide)

/-- Without names there are no brackets. -/
lemma not_mem_spell (hok : ∀ part ∈ parts, part.Ok) (hnone : holes parts = []) :
    0x3C ∉ spell f parts := by
  induction parts with
  | nil => exact List.not_mem_nil
  | cons part parts ih =>
      rw [List.forall_mem_cons] at hok
      cases part with
      | char c =>
          rw [spell, List.mem_cons]
          exact not_or.mpr ⟨hok.1.char.1.symm, ih hok.2 hnone⟩
      | hole name => cases hnone

/-- Where there is no placeholder the loop has nothing to do. -/
lemma formatLoop_of_not_mem {start : ℕ} {rest : StdString} (h : 0x3C ∉ rest) :
    formatLoop start rest s = s := by
  rw [formatLoop]
  split
  · rfl
  · next hsearch => rw [search_of_not_mem h] at hsearch; cases hsearch

/-- A placeholder is found behind what is in front of it. -/
lemma formatLoop_bracketed {start : ℕ} {first name rest : StdString} (hfirst : 0x3C ∉ first)
    (hname : IsName name) : formatLoop start (first ++ (bracketed name ++ rest)) s =
      formatLoop (start + first.length + (bracketed name).length) rest
        (formatStep s start ⟨first, bracketed name, [name], rest⟩) := by
  rw [formatLoop]
  split
  · next hsearch => rw [search_bracketed hfirst hname] at hsearch; cases hsearch
  · next hsearch =>
      rw [search_bracketed hfirst hname] at hsearch
      obtain rfl := Option.some.inj hsearch
      rfl

/-- No piece of a pattern is dropped, and none is there twice. -/
theorem formatLoop_spell (start : ℕ) (first : StdString) (hfirst : 0x3C ∉ first)
    (hok : ∀ part ∈ parts, part.Ok) (hsome : holes parts ≠ [])
    (hs : Singular s.tmpPlaceholders) :
    (formatLoop start (first ++ spell bracketed parts) s).urlRegex ++
        (formatLoop start (first ++ spell bracketed parts) s).tmpSuffix =
      s.urlRegex ++ (first ++ grouped parts) ∧
    (formatLoop start (first ++ spell bracketed parts) s).urlArgs = s.urlArgs ++ holes parts := by
  induction parts generalizing start first s with
  | nil => exact absurd rfl hsome
  | cons part parts ih =>
      rw [List.forall_mem_cons] at hok
      cases part with
      | char c =>
          have hfirst' : 0x3C ∉ first ++ [c] := by
            rw [List.mem_append, List.mem_singleton]
            exact not_or.mpr ⟨hfirst, hok.1.char.1.symm⟩
          have hrest := ih start _ hfirst' hok.2 hsome hs
          simp only [List.append_assoc, List.singleton_append] at hrest
          exact hrest
      | hole name =>
          obtain ⟨hregex, hargs, hsuffix, hsingular⟩ :=
            formatStep_eq start ⟨first, bracketed name, [name], spell bracketed parts⟩ hs
          rw [spell, formatLoop_bracketed hfirst hok.1]
          by_cases hnone : holes parts = []
          · rw [formatLoop_of_not_mem (not_mem_spell hok.2 hnone), hregex, hargs, hsuffix]
            rw [spell_of_holes_eq_nil hnone, holes, hnone]
            simp only [grouped, spell, List.append_assoc, List.headD_cons, and_self]
          · obtain ⟨hregex', hargs'⟩ := ih (start + first.length + (bracketed name).length) []
              List.not_mem_nil hok.2 hnone hsingular
            rw [List.nil_append] at hregex' hargs'
            rw [hregex', hargs', hregex, hargs]
            simp only [grouped, spell, holes, List.append_assoc, List.headD_cons, List.nil_append,
              List.cons_append, and_self]

/-- The expression in front of that of the URL. -/
def filterPattern (filter : StdString) : StdString :=
  (if filter = [] then bytes ".+" else filter) ++ bytes "[[:space:]]+"

lemma grouped_ne_nil (hsome : holes parts ≠ []) : grouped parts ≠ [] := by
  cases parts with
  | nil => exact absurd rfl hsome
  | cons part parts =>
      cases part with
      | char c => exact List.cons_ne_nil _ _
      | hole name => exact List.cons_ne_nil _ _

/-- The expression of a pattern has a group for each name. -/
theorem formatPattern_spell {filters : List (StdString × StdString)}
    (hok : ∀ part ∈ parts, part.Ok) : formatPattern (spell bracketed parts) filters =
      (filterPattern (methodFilter filters) ++ grouped parts, holes parts) := by
  have hloop : (if (formatLoop 0 (spell bracketed parts) {}).urlRegex ++
        (formatLoop 0 (spell bracketed parts) {}).tmpSuffix = [] then spell bracketed parts
      else (formatLoop 0 (spell bracketed parts) {}).urlRegex ++
        (formatLoop 0 (spell bracketed parts) {}).tmpSuffix) = grouped parts ∧
      (formatLoop 0 (spell bracketed parts) {}).urlArgs = holes parts := by
    by_cases hnone : holes parts = []
    · rw [formatLoop_of_not_mem (not_mem_spell hok hnone), hnone]
      exact ⟨spell_of_holes_eq_nil hnone, rfl⟩
    · obtain ⟨hregex, hargs⟩ := formatLoop_spell 0 [] (s := {}) List.not_mem_nil hok hnone
        fun _ _ h => by cases h
      simp only [List.nil_append] at hregex hargs
      rw [hregex, hargs]
      exact ⟨if_neg (grouped_ne_nil hnone), rfl⟩
  simp only [formatPattern, hloop.1, hloop.2, filterPattern]
  split_ifs
  · rw [List.append_assoc]
  · rw [List.append_assoc]

/-! ### The expression of a pattern -/

/-- The characters of groups. -/
def noSlash : Regex.CharSet where
  negated := true
  items := [.byte CLocale.slash]

def spaces : Regex.CharSet where
  items := [.space]

/-- The expression of parts behind another one. -/
def compile (r : Regex Regex.CharSet) : List Part → Regex Regex.CharSet
  | [] => r
  | .char c :: parts => compile (.seq r (.one (.literal c))) parts
  | .hole _ :: parts => compile (.seq r (.group (.seq .empty (.plus noSlash)))) parts

/-- The expression in front. -/
def filterRegex (filter : StdString) : Regex Regex.CharSet :=
  if filter = [] then .seq .empty (.plus .any) else Regex.literals .empty filter

variable {r : Regex Regex.CharSet} {stack : List (Regex Regex.CharSet)}

/-- The parts are read one after the other. -/
lemma run_grouped (hok : ∀ part ∈ parts, part.Ok) :
    Regex.Reader.run ⟨stack, r, .normal⟩ (grouped parts) =
      some ⟨stack, compile r parts, .normal⟩ := by
  induction parts generalizing r with
  | nil => rfl
  | cons part parts ih =>
      rw [List.forall_mem_cons] at hok
      cases part with
      | char c =>
          have hc : ∀ c' ∈ [c], c' ∉ Regex.Reader.special :=
            List.forall_mem_singleton.mpr hok.1.char.2
          rw [grouped, spell, ← List.singleton_append, Regex.Reader.run_append,
            Regex.Reader.run_literals rfl hc, Option.bind_some]
          exact ih hok.2
      | hole name =>
          have hgroup : Regex.Reader.run ⟨stack, r, .normal⟩ (bytes "([^/]+)") =
              some ⟨stack, .seq r (.group (.seq .empty (.plus noSlash))), .normal⟩ := rfl
          rw [grouped, spell, Regex.Reader.run_append, hgroup, Option.bind_some]
          exact ih hok.2

/-- The expression of a pattern and a filter. -/
theorem parse_grouped {filter : StdString} (hfilter : ∀ c ∈ filter, CLocale.isAlpha c)
    (hok : ∀ part ∈ parts, part.Ok) : Regex.parse (filterPattern filter ++ grouped parts) =
      some (compile (.seq (filterRegex filter) (.plus spaces)) parts) := by
  have hfirst : Regex.Reader.run {} (if filter = [] then bytes ".+" else filter) =
      some ⟨[], filterRegex filter, .normal⟩ := by
    rw [filterRegex]
    split_ifs
    · rfl
    · exact Regex.Reader.run_literals rfl fun c hc =>
        not_special_of_isWord (isWord_of_isAlpha (hfilter c hc))
  have hspaces : Regex.Reader.run ⟨[], filterRegex filter, .normal⟩ (bytes "[[:space:]]+") =
      some ⟨[], .seq (filterRegex filter) (.plus spaces), .normal⟩ := rfl
  rw [Regex.parse, filterPattern, Regex.Reader.run_append, Regex.Reader.run_append, hfirst,
    Option.bind_some, hspaces, Option.bind_some, run_grouped hok]
  rfl

/-! ### The requests that match -/

/-- What may stand in the place of a name. -/
def IsSegment (value : StdString) : Prop :=
  value ≠ [] ∧ CLocale.slash ∉ value

/-- The parts, with values for the names in their order. -/
inductive Fills : List Part → StdString → List StdString → Prop where
  | nil : Fills [] [] []
  | char {c : UInt8} {parts : List Part} {l : StdString} {values : List StdString}
      (h : Fills parts l values) : Fills (.char c :: parts) (c :: l) values
  | hole {name value : StdString} {parts : List Part} {l : StdString} {values : List StdString}
      (hvalue : IsSegment value) (h : Fills parts l values) :
      Fills (.hole name :: parts) (value ++ l) (value :: values)

variable {l : StdString} {caps values : List StdString}

lemma mem_noSlash {c : UInt8} : perl noSlash c = true ↔ c ≠ CLocale.slash := by
  simp [perl, Regex.CharSet.mem, noSlash]

lemma mem_spaces {c : UInt8} : perl spaces c = true ↔ CLocale.isSpace c = true := by
  simp [perl, Regex.CharSet.mem, spaces]

/-- A group captures a segment. -/
lemma matches_hole : Regex.Matches perl (.group (.seq .empty (.plus noSlash))) l caps ↔
    IsSegment l ∧ caps = [l] := by
  constructor
  · intro h
    obtain ⟨_, hinner, rfl⟩ := Regex.matches_group.mp h
    obtain ⟨_, _, _, _, hempty, hplus, rfl, rfl⟩ := Regex.matches_seq.mp hinner
    obtain ⟨rfl, rfl⟩ := Regex.matches_empty.mp hempty
    obtain ⟨⟨hne, hmem⟩, rfl⟩ := Regex.matches_plus.mp hplus
    exact ⟨⟨hne, fun hslash => mem_noSlash.mp (hmem _ hslash) rfl⟩, rfl⟩
  · rintro ⟨⟨hne, hslash⟩, rfl⟩
    have hinner : Regex.Matches perl (.seq .empty (.plus noSlash)) ([] ++ l) ([] ++ []) :=
      .seq .empty (.plus hne fun c hc => mem_noSlash.mpr fun e => hslash (e ▸ hc))
    exact .group hinner

/-- The expression of parts matches what the parts are filled to. -/
theorem matches_compile : Regex.Matches perl (compile r parts) l caps ↔
    ∃ l₁ l₂ caps₁ values, Regex.Matches perl r l₁ caps₁ ∧ Fills parts l₂ values ∧ l = l₁ ++ l₂ ∧
      caps = caps₁ ++ values := by
  induction parts generalizing r with
  | nil =>
      constructor
      · exact fun h => ⟨l, [], caps, [], h, .nil, (List.append_nil l).symm,
          (List.append_nil caps).symm⟩
      · rintro ⟨l₁, _, caps₁, _, h, ⟨⟩, rfl, rfl⟩
        rwa [List.append_nil, List.append_nil]
  | cons part parts ih =>
      cases part with
      | char c =>
          rw [compile, ih]
          constructor
          · rintro ⟨_, l₂, _, values, h, hfills, rfl, rfl⟩
            obtain ⟨l₁, _, caps₁, _, h₁, hone, rfl, rfl⟩ := Regex.matches_seq.mp h
            obtain ⟨⟨c', hc', rfl⟩, rfl⟩ := Regex.matches_one.mp hone
            obtain rfl := Regex.mem_literal.mp hc'
            exact ⟨l₁, c' :: l₂, caps₁, values, h₁, .char hfills, List.append_assoc _ _ _,
              List.append_assoc _ _ _⟩
          · rintro ⟨l₁, _, caps₁, values, h₁, hfills, rfl, rfl⟩
            cases hfills with
            | char hfills =>
                refine ⟨l₁ ++ [c], _, caps₁ ++ [], values,
                  .seq h₁ (.one (Regex.mem_literal.mpr rfl)), hfills, List.append_cons _ _ _, ?_⟩
                rw [List.append_nil]
      | hole name =>
          rw [compile, ih]
          constructor
          · rintro ⟨_, l₂, _, values, h, hfills, rfl, rfl⟩
            obtain ⟨l₁, value, caps₁, _, h₁, hgroup, rfl, rfl⟩ := Regex.matches_seq.mp h
            obtain ⟨hvalue, rfl⟩ := matches_hole.mp hgroup
            exact ⟨l₁, value ++ l₂, caps₁, value :: values, h₁, .hole hvalue hfills,
              List.append_assoc _ _ _, List.append_assoc _ _ _⟩
          · rintro ⟨l₁, _, caps₁, _, h₁, hfills, rfl, rfl⟩
            cases hfills with
            | hole hvalue hfills =>
                exact ⟨l₁ ++ _, _, caps₁ ++ [_], _, .seq h₁ (matches_hole.mpr ⟨hvalue, rfl⟩),
                  hfills, (List.append_assoc _ _ _).symm, List.append_cons _ _ _⟩

/-- A method fits a filter, where the empty one fits every method that there is. -/
def FitsFilter (filter method : StdString) : Prop :=
  if filter = [] then method ≠ [] else method = filter

variable {filter method url : StdString}

lemma matches_filterRegex :
    Regex.Matches perl (filterRegex filter) l caps ↔ FitsFilter filter l ∧ caps = [] := by
  rw [filterRegex, FitsFilter]
  split_ifs
  · constructor
    · intro h
      obtain ⟨_, _, _, _, hempty, hplus, rfl, rfl⟩ := Regex.matches_seq.mp h
      obtain ⟨rfl, rfl⟩ := Regex.matches_empty.mp hempty
      obtain ⟨⟨hne, -⟩, rfl⟩ := Regex.matches_plus.mp hplus
      exact ⟨hne, rfl⟩
    · rintro ⟨hne, rfl⟩
      exact .seq .empty (.plus hne fun _ _ => Regex.mem_any)
  · rw [Regex.matches_literals]
    constructor
    · rintro ⟨l', rfl, h⟩
      obtain ⟨rfl, rfl⟩ := Regex.matches_empty.mp h
      exact ⟨rfl, rfl⟩
    · rintro ⟨rfl, rfl⟩
      exact ⟨[], rfl, .empty⟩

/-- With no white space in the method and in the URL the line can only be divided at its blank. -/
lemma eq_of_divided {x w : StdString} (hmethod : ∀ c ∈ method, ¬ CLocale.isSpace c)
    (hurl : ∀ c ∈ url, ¬ CLocale.isSpace c) (hne : w ≠ []) (hw : ∀ c ∈ w, CLocale.isSpace c)
    (h : method ++ CLocale.blank :: url = x ++ w ++ l) : x = method ∧ l = url := by
  cases w with
  | nil => exact absurd rfl hne
  | cons c w =>
      rw [List.forall_mem_cons] at hw
      rw [List.append_assoc, List.cons_append] at h
      obtain ⟨rfl, -, rfl⟩ := (List.append_cons_inj_of_notMem
        (fun hc => hmethod c hc hw.1) fun hc => hurl c hc hw.1).mp h
      refine ⟨rfl, ?_⟩
      cases w with
      | nil => rfl
      | cons c' w => exact absurd (hw.2 c' List.mem_cons_self) (hurl c' List.mem_cons_self)

/-- A request matches if its method fits and its URL is what the parts are filled to. -/
theorem matches_request (hmethod : ∀ c ∈ method, ¬ CLocale.isSpace c)
    (hurl : ∀ c ∈ url, ¬ CLocale.isSpace c) :
    Regex.Matches perl (compile (.seq (filterRegex filter) (.plus spaces)) parts)
        (method ++ CLocale.blank :: url) caps ↔
      FitsFilter filter method ∧ Fills parts url caps := by
  rw [matches_compile]
  constructor
  · rintro ⟨_, l₂, _, values, hfront, hfills, hline, rfl⟩
    obtain ⟨x, w, _, _, hx, hw, rfl, rfl⟩ := Regex.matches_seq.mp hfront
    obtain ⟨hfits, rfl⟩ := matches_filterRegex.mp hx
    obtain ⟨⟨hne, hspaces⟩, rfl⟩ := Regex.matches_plus.mp hw
    obtain ⟨rfl, rfl⟩ := eq_of_divided hmethod hurl hne
      (fun c hc => mem_spaces.mp (hspaces c hc)) hline
    exact ⟨hfits, hfills⟩
  · rintro ⟨hfits, hfills⟩
    have hblank : ∀ c ∈ [CLocale.blank], perl spaces c :=
      List.forall_mem_singleton.mpr (mem_spaces.mpr rfl)
    exact ⟨method ++ [CLocale.blank], url, [] ++ [], caps,
      .seq (matches_filterRegex.mpr ⟨hfits, rfl⟩) (.plus (List.cons_ne_nil _ _) hblank), hfills,
      List.append_cons _ _ _, rfl⟩

/-- Where no name is there twice the values are those of the names. -/
theorem fills_iff (hnodup : (holes parts).Nodup) : Fills parts l values ↔
    ∃ σ : StdString → StdString, (∀ name ∈ holes parts, IsSegment (σ name)) ∧
      l = spell σ parts ∧ values = (holes parts).map σ := by
  constructor
  · intro h
    induction h with
    | nil => exact ⟨id, fun _ hname => absurd hname List.not_mem_nil, rfl, rfl⟩
    | char _ ih =>
        obtain ⟨σ, hσ, rfl, rfl⟩ := ih hnodup
        exact ⟨σ, hσ, rfl, rfl⟩
    | @hole name value parts _ _ hvalue _ ih =>
        obtain ⟨hname, hrest⟩ := List.nodup_cons.mp hnodup
        obtain ⟨σ, hσ, rfl, rfl⟩ := ih hrest
        have hsame : ∀ name' ∈ holes parts, σ name' = Function.update σ name value name' := by
          intro name' hname'
          have hne : name' ≠ name := fun e => hname (e ▸ hname')
          exact (Function.update_of_ne hne _ _).symm
        refine ⟨Function.update σ name value, ?_, ?_, ?_⟩
        · refine List.forall_mem_cons.mpr ⟨?_, fun name' hname' => ?_⟩
          · rwa [Function.update_self]
          · exact hsame name' hname' ▸ hσ name' hname'
        · rw [spell, Function.update_self, spell_congr hsame]
        · rw [holes, List.map_cons, Function.update_self, List.map_congr_left hsame]
  · rintro ⟨σ, hσ, rfl, rfl⟩
    clear hnodup
    induction parts with
    | nil => exact .nil
    | cons part parts ih =>
        cases part with
        | char c => exact .char (ih hσ)
        | hole name =>
            obtain ⟨hvalue, hσ⟩ := List.forall_mem_cons.mp hσ
            exact .hole hvalue (ih hσ)

/-! ### What is bound -/

/-- Each name is bound to what its group has captured. -/
lemma bindGroups_names (done : List StdString) {todo : List StdString}
    {σ : StdString → StdString} (resources : List (StdString × StdString)) (hnodup : todo.Nodup)
    (hfresh : ∀ name ∈ todo, name ∉ resources.map Prod.fst) :
    bindGroups (done ++ todo) done.length (todo.map σ) resources =
      some (resources ++ todo.map fun name => (name, urlDecode (σ name))) := by
  induction todo generalizing done resources with
  | nil => rw [List.map_nil, bindGroups, List.map_nil, List.append_nil]
  | cons name todo ih =>
      obtain ⟨hname, hnodup⟩ := List.nodup_cons.mp hnodup
      obtain ⟨hnew, hfresh⟩ := List.forall_mem_cons.mp hfresh
      have hne : done ++ name :: todo ≠ [] := List.append_ne_nil_of_right_ne_nil _
        (List.cons_ne_nil _ _)
      have hfresh' : ∀ name' ∈ todo,
          name' ∉ (resources ++ [(name, urlDecode (σ name))]).map Prod.fst := by
        intro name' hname'
        have hne : name' ≠ name := fun e => hname (e ▸ hname')
        rw [List.map_append, List.mem_append, List.map_singleton, List.mem_singleton]
        exact not_or.mpr ⟨hfresh name' hname', hne⟩
      have hlength : done.length + 1 = (done ++ [name]).length := by simp
      rw [List.map_cons, bindGroups, if_neg hne, List.getElem?_append_right (Nat.le_refl _),
        Nat.sub_self, List.getElem?_cons_zero]
      dsimp only
      rw [FirstMap.insert, if_neg hnew, List.append_cons, hlength, ih _ _ hnodup hfresh',
        List.append_assoc]
      rfl

/-! ### Segments -/

/-- A piece of a pattern between slashes. -/
inductive Segment where
  | literal (word : StdString)
  | placeholder (name : StdString)

namespace Segment

/-- The characters of literal segments and of names. -/
def WellFormed : Segment → Prop
  | literal word => ∀ c ∈ word, isWord c
  | placeholder name => IsName name

instance : DecidablePred WellFormed
  | literal word => decidable_of_iff (word.all isWord) List.all_eq_true
  | placeholder name =>
      decidable_of_iff (name ≠ [] ∧ name.all isWord) (and_congr_right' List.all_eq_true)

/-- The segment with something in the place of its name. -/
def spell (f : StdString → StdString) : Segment → StdString
  | literal word => word
  | placeholder name => f name

def name : Segment → Option StdString
  | literal _ => none
  | placeholder name => some name

def layout : Segment → List Part
  | literal word => word.map .char
  | placeholder name => [.hole name]

end Segment

/-- The segments of a pattern, with distinct names. -/
structure UrlPattern where
  segments : List Segment
  wellFormed : ∀ segment ∈ segments, segment.WellFormed
  nodup : (segments.filterMap Segment.name).Nodup

namespace UrlPattern

variable (p : UrlPattern)

/-- The names in their order. -/
def names : List StdString :=
  p.segments.filterMap Segment.name

/-- The pattern as it is registered. -/
def text : StdString :=
  [CLocale.slash].intercalate (p.segments.map (Segment.spell bracketed))

/-- The pattern with values in the place of the names. -/
def fill (σ : StdString → StdString) : StdString :=
  [CLocale.slash].intercalate (p.segments.map (Segment.spell σ))

/-- Every name has a segment without a slash. -/
def Admissible (σ : StdString → StdString) : Prop :=
  ∀ name ∈ p.names, IsSegment (σ name)

def layout : List Part :=
  [.char CLocale.slash].intercalate (p.segments.map Segment.layout)

end UrlPattern

lemma holes_append {parts' : List Part} :
    holes (parts ++ parts') = holes parts ++ holes parts' := by
  induction parts with
  | nil => rfl
  | cons part parts ih =>
      cases part with
      | char c => exact ih
      | hole name => exact congrArg (name :: ·) ih

lemma spell_chars {word : StdString} : spell f (word.map .char) = word := by
  induction word with
  | nil => rfl
  | cons c word ih => exact congrArg (c :: ·) ih

lemma holes_chars {word : StdString} : holes (word.map .char) = [] := by
  induction word with
  | nil => rfl
  | cons c word ih => exact ih

namespace Segment

variable {segment : Segment}

lemma spell_layout : RestFunctions.spell f segment.layout = segment.spell f := by
  cases segment with
  | literal word => exact spell_chars
  | placeholder name => exact List.append_nil _

lemma holes_layout : holes segment.layout = segment.name.toList := by
  cases segment with
  | literal word => exact holes_chars
  | placeholder name => rfl

lemma ok_layout (h : segment.WellFormed) : ∀ part ∈ segment.layout, part.Ok := by
  cases segment with
  | literal word => exact List.forall_mem_map.mpr fun c hc => .inr (h c hc)
  | placeholder name => exact List.forall_mem_singleton.mpr h

/-- No segment has a slash in it. -/
lemma slash_not_mem_spell (h : segment.WellFormed)
    (hf : ∀ name, segment.name = some name → IsSegment (f name)) :
    CLocale.slash ∉ segment.spell f := by
  cases segment with
  | literal word => exact fun hslash => absurd (h _ hslash) (by decide)
  | placeholder name => exact (hf name rfl).2

end Segment

namespace UrlPattern

variable {p : UrlPattern} {σ σ' : StdString → StdString}

lemma spell_layout :
    spell f p.layout = [CLocale.slash].intercalate (p.segments.map (Segment.spell f)) := by
  rw [layout, map_intercalate fun _ _ => spell_append, List.map_map]
  exact congrArg _ (List.map_congr_left fun segment _ => Segment.spell_layout)

lemma holes_layout : holes p.layout = p.names := by
  have hslash : holes [.char CLocale.slash] = [] := rfl
  rw [layout, map_intercalate fun _ _ => holes_append, List.map_map, hslash, nil_intercalate,
    ← List.flatMap_def, names, List.filterMap_eq_flatMap_toList]
  exact List.flatMap_congr fun segment _ => Segment.holes_layout

lemma ok_layout : ∀ part ∈ p.layout, part.Ok :=
  forall_mem_intercalate (List.forall_mem_singleton.mpr (.inl rfl))
    (List.forall_mem_map.mpr fun segment hsegment =>
      Segment.ok_layout (p.wellFormed segment hsegment))

/-- The URL determines the values of the names. -/
lemma fill_inj (hσ : p.Admissible σ) (hσ' : p.Admissible σ') (h : p.fill σ = p.fill σ') :
    ∀ name ∈ p.names, σ name = σ' name := by
  have hslash : ∀ {σ}, p.Admissible σ →
      ∀ l ∈ p.segments.map (Segment.spell σ), CLocale.slash ∉ l := by
    intro σ hσ
    refine List.forall_mem_map.mpr fun segment hsegment => ?_
    exact Segment.slash_not_mem_spell (p.wellFormed segment hsegment) fun name hname =>
      hσ name (List.mem_filterMap.mpr ⟨segment, hsegment, hname⟩)
  intro name hname
  obtain ⟨segment, hsegment, hsome⟩ := List.mem_filterMap.mp hname
  have hne : p.segments ≠ [] := List.ne_nil_of_mem hsegment
  have hsplit := congrArg (List.splitOn CLocale.slash) h
  rw [fill, fill, List.splitOn_intercalate _ (hslash hσ) (mt List.map_eq_nil_iff.mp hne),
    List.splitOn_intercalate _ (hslash hσ') (mt List.map_eq_nil_iff.mp hne)] at hsplit
  have hsame := List.map_inj_left.mp hsplit segment hsegment
  cases segment with
  | literal word => cases hsome
  | placeholder name' =>
      obtain rfl := Option.some.inj hsome
      exact hsame

end UrlPattern

/-- A request matches the expression of a pattern exactly if its method fits the filter and its
URL is the pattern with a segment in the place of every name, and then each name is bound to its
own segment. -/
theorem restResourceParse_formatPattern (p : UrlPattern)
    (filters : List (StdString × StdString)) (method url : StdString)
    (hfilter : ∀ c ∈ methodFilter filters, CLocale.isAlpha c)
    (hmethod : ∀ c ∈ method, ¬ CLocale.isSpace c) (hurl : ∀ c ∈ url, ¬ CLocale.isSpace c) :
    ∃ matched resources,
      restResourceParse (formatPattern p.text filters).1 (formatPattern p.text filters).2
        (method ++ CLocale.blank :: url) [] = some (matched, resources) ∧
      (matched = true ↔ FitsFilter (methodFilter filters) method ∧
        ∃ σ, p.Admissible σ ∧ url = p.fill σ) ∧
      ∀ σ, matched = true → p.Admissible σ → url = p.fill σ → ∀ name, resources.lookup name =
        if name ∈ p.names then some (urlDecode (σ name)) else none := by
  have hnodup : (holes p.layout).Nodup := by
    rw [UrlPattern.holes_layout]
    exact p.nodup
  have htext : p.text = spell bracketed p.layout := UrlPattern.spell_layout.symm
  -- the groups capture the values of the names
  have hmatches : ∀ caps, Regex.Matches perl
      (compile (.seq (filterRegex (methodFilter filters)) (.plus spaces)) p.layout)
        (method ++ CLocale.blank :: url) caps ↔ FitsFilter (methodFilter filters) method ∧
          ∃ σ, p.Admissible σ ∧ url = p.fill σ ∧ caps = p.names.map σ := by
    intro caps
    rw [matches_request hmethod hurl, fills_iff hnodup, UrlPattern.holes_layout]
    simp only [UrlPattern.spell_layout]
    rfl
  rw [htext, formatPattern_spell p.ok_layout, UrlPattern.holes_layout,
    restResourceParse_of_parse (parse_grouped hfilter p.ok_layout)]
  cases hmatch : Regex.regexMatch perl
      (compile (.seq (filterRegex (methodFilter filters)) (.plus spaces)) p.layout)
        (method ++ CLocale.blank :: url) with
  | none =>
      refine ⟨false, [], rfl, ?_, fun σ h => by cases h⟩
      refine iff_of_false (by decide) ?_
      rintro ⟨hfits, σ, hσ, hfill⟩
      exact Regex.regexMatch_eq_none_iff.mp hmatch _ ((hmatches _).mpr ⟨hfits, σ, hσ, hfill, rfl⟩)
  | some caps =>
      obtain ⟨hfits, σ, hσ, hfill, rfl⟩ := (hmatches caps).mp (Regex.matches_of_regexMatch hmatch)
      have hbind : bindGroups p.names 0 (p.names.map σ) [] =
          some (p.names.map fun name => (name, urlDecode (σ name))) :=
        bindGroups_names [] [] p.nodup fun _ _ => List.not_mem_nil
      refine ⟨true, p.names.map fun name => (name, urlDecode (σ name)), ?_,
        iff_of_true rfl ⟨hfits, σ, hσ, hfill⟩, fun σ' _ hσ' hfill' name => ?_⟩
      · exact congrArg (Option.map fun resources => (true, resources)) hbind
      · split_ifs with hname
        · rw [List.lookup_graph (fun name => urlDecode (σ name)) hname,
            UrlPattern.fill_inj hσ hσ' (hfill.symm.trans hfill') name hname]
        · rw [List.lookup_eq_none_iff, List.forall_mem_map]
          exact fun name' hname' => bne_iff_ne.mpr fun e => hname (e ▸ hname')

/-- `/iot/devices/<device_id>`. -/
def devicePattern : UrlPattern where
  segments := [.literal [], .literal (bytes "iot"), .literal (bytes "devices"),
    .placeholder (bytes "device_id")]
  wellFormed := List.all_iff_forall_prop.mp rfl
  nodup := by decide

theorem restResourceParse_devicePattern : ∃ resources,
    restResourceParse (formatPattern devicePattern.text [(bytes "method", bytes "GET")]).1
      (formatPattern devicePattern.text [(bytes "method", bytes "GET")]).2
      (bytes "GET /iot/devices/sensor%20a") [] = some (true, resources) ∧
    resources.lookup (bytes "device_id") = some (bytes "sensor a") := by
  obtain ⟨matched, resources, hparse, hmatched, hbound⟩ :=
    restResourceParse_formatPattern devicePattern [(bytes "method", bytes "GET")] (bytes "GET")
      (bytes "/iot/devices/sensor%20a") (List.all_iff_forall_prop.mp rfl)
      (List.all_iff_forall_prop.mp rfl) (List.all_iff_forall_prop.mp rfl)
  have hσ : devicePattern.Admissible fun _ => bytes "sensor%20a" :=
    List.forall_mem_singleton.mpr ⟨by decide, by decide⟩
  obtain rfl := hmatched.mpr ⟨rfl, _, hσ, rfl⟩
  exact ⟨resources, hparse, hbound _ rfl hσ rfl (bytes "device_id")⟩

end RestFunctions

end IotAgent
