import IotAgent.Lib.JsonLexer

/-!
What becomes of a JSON text that is cut.

A text that is cut within a string and one that is cut between two tokens are not read alike by
any end: what is a string for the one is none for the other. Where a text is cut at a quote, it
is known what the reader was in.

* `Outside`, `lexFrom_flipped`: no text is an end of both kinds of cut;
* `Alike`, `lexFrom_alike`: the ends of two strings;
* `step_quote_cases`: where quotes may stand;
* `lexFrom_punctuation`, `blank_of_lexFrom`: what stands before the first token;
* `lexFrom_name`: a string in quotes, and the texts that begin alike up to its end.
-/

namespace JsonLexer

variable {m m' : Mode} {c : Char} {cs t : List Char} {l ts ts' : List Token} {tok : Token}
  {r : Mode × List Token} {read : List ℕ} {b : Bool}

/-! ### Parts -/

lemma run_append (m : Mode) (cs t : List Char) :
    run m (cs ++ t) = (run m cs).bind fun r => (run r.1 t).map fun r' => (r'.1, r.2 ++ r'.2) := by
  induction cs generalizing m with
  | nil =>
      rw [List.nil_append, run, Option.bind_some]
      cases run m t <;> rfl
  | cons c cs ih =>
      rw [List.cons_append, run, run]
      cases step m c with
      | none => rfl
      | some r =>
          rw [Option.bind_some, Option.bind_some, ih]
          cases run r.1 cs with
          | none => rfl
          | some r' =>
              cases hrun : run r'.1 t with
              | none => simp [hrun]
              | some r'' => simp [hrun]

lemma run_append_of_run (h : run m cs = some (m', l)) (t : List Char) :
    run m (cs ++ t) = (run m' t).map fun r => (r.1, l ++ r.2) := by
  rw [run_append, h, Option.bind_some]

lemma lexFrom_append_eq_some (h : lexFrom m (cs ++ t) = some ts) :
    ∃ m' l l', run m cs = some (m', l) ∧ lexFrom m' t = some l' ∧ ts = l ++ l' := by
  rw [lexFrom_append, Option.bind_eq_some_iff] at h
  obtain ⟨⟨m', l⟩, hrun, h⟩ := h
  obtain ⟨l', hl', rfl⟩ := Option.map_eq_some_iff.mp h
  exact ⟨m', l, l', hrun, hl', rfl⟩

lemma lexFrom_cons_eq_some (h : lexFrom m (c :: cs) = some ts) :
    ∃ m' l l', step m c = some (m', l) ∧ lexFrom m' cs = some l' ∧ ts = l ++ l' := by
  rw [lexFrom, Option.bind_eq_some_iff] at h
  obtain ⟨⟨m', l⟩, hstep, h⟩ := h
  obtain ⟨l', hl', rfl⟩ := Option.map_eq_some_iff.mp h
  exact ⟨m', l, l', hstep, hl', rfl⟩

/-! ### Within strings and without -/

/-- The reader is not in a string. -/
def Outside : Mode → Prop
  | .between _ | .number _ | .word _ _ => True
  | .text _ | .escape _ | .unicode _ _ _ => False

lemma step_quote_number {text : List Char} :
    step (.number text) '"' =
      if validNumber text then some (.text [], [.number text]) else none := by
  have hletter : '"' ∉ numberLetters := by decide
  rw [step, if_neg hletter]
  rfl

/-- What a quote does where it may stand: it opens a string, closes one, or stands in one behind
a backslash. -/
lemma step_quote_cases (h : step m '"' = some r) :
    (∃ l, ended m = some l ∧ r = (.text [], l)) ∨
      (∃ read, m = .text read ∧ r = (.between false, [.string read])) ∨
      ∃ read, m = .escape read ∧ r = (.text (read ++ [0x22]), []) := by
  cases m with
  | between b => exact .inl ⟨[], rfl, (Option.some.inj h).symm⟩
  | text read => exact .inr (.inl ⟨read, rfl, (Option.some.inj h).symm⟩)
  | escape read => exact .inr (.inr ⟨read, rfl, (Option.some.inj h).symm⟩)
  | unicode read missing value => cases h
  | number text =>
      rw [step_quote_number] at h
      split at h
      · next hvalid =>
          exact .inl ⟨[.number text], by rw [ended, if_pos hvalid], (Option.some.inj h).symm⟩
      · cases h
  | word w i =>
      rw [step] at h
      split at h
      · next hletter => exact absurd (word_letters_getElem? hletter) (by decide)
      · cases h

/-- Between two tokens there are no backslashes, and a quote alone opens a string. -/
lemma step_of_outside (hm : Outside m) (h : step m c = some r) :
    c ≠ '\\' ∧ (c = '"' → r.1 = .text []) ∧ (c ≠ '"' → Outside r.1) := by
  have hbetween : ∀ b r, stepBetween b c = some r →
      c ≠ '\\' ∧ (c = '"' → r.1 = .text []) ∧ (c ≠ '"' → Outside r.1) := by
    intro b r hr
    refine ⟨?_, ?_, fun hc => ?_⟩
    · rintro rfl
      cases b <;> cases hr
    · rintro rfl
      rw [← Option.some.inj hr]
    · grind [stepBetween, Outside]
  cases m with
  | between b => exact hbetween b r h
  | text read | escape read | unicode read missing value => exact hm.elim
  | number text =>
      rw [step] at h
      split at h
      · next hletter =>
          rw [← Option.some.inj h]
          refine ⟨?_, ?_, fun _ => trivial⟩ <;> (rintro rfl; exact absurd hletter (by decide))
      · split at h
        · obtain ⟨r', hr', rfl⟩ := Option.map_eq_some_iff.mp h
          exact hbetween true r' hr'
        · cases h
  | word w i =>
      rw [step] at h
      split at h
      · next hletter =>
          have hmem := word_letters_getElem? hletter
          refine ⟨?_, ?_, fun _ => ?_⟩
          · rintro rfl
            exact absurd hmem (by decide)
          · rintro rfl
            exact absurd hmem (by decide)
          · split at h <;> rw [← Option.some.inj h] <;> trivial
      · cases h

/-- In a string every letter but a quote and a backslash goes on with it. -/
lemma step_text_of_ne (hquote : c ≠ '"') (hbackslash : c ≠ '\\')
    (h : step (.text read) c = some r) : ∃ read', r.1 = .text read' := by
  rw [step, if_neg hquote, if_neg hbackslash] at h
  split at h
  · cases h
  · exact ⟨_, by rw [← Option.some.inj h]⟩

/-- **No end of a text is read both within a string and without**: every quote takes the one
reader in and the other out, and the end is without for one of them only. The induction is on
the text. -/
theorem lexFrom_flipped (hm : Outside m) (h : lexFrom m cs = some ts) :
    lexFrom (.text read) cs = none := by
  by_contra hne
  obtain ⟨ts', h'⟩ := Option.ne_none_iff_exists'.mp hne
  clear hne
  induction cs generalizing m read ts ts' with
  | nil => cases h'
  | cons c cs ih =>
      obtain ⟨m₁, l₁, l₁', hstep, hrest, -⟩ := lexFrom_cons_eq_some h
      obtain ⟨m₂, l₂, l₂', hstep', hrest', -⟩ := lexFrom_cons_eq_some h'
      obtain ⟨hbackslash, hin, hout⟩ := step_of_outside hm hstep
      by_cases hquote : c = '"'
      · obtain rfl : m₁ = .text [] := hin hquote
        subst hquote
        obtain ⟨rfl, -⟩ := Prod.mk.inj (Option.some.inj hstep')
        have hbetween : Outside (.between false) := trivial
        exact ih hbetween hrest' _ hrest
      · obtain ⟨read', hread⟩ := step_text_of_ne hquote hbackslash hstep'
        obtain rfl : m₂ = .text read' := hread
        exact ih (hout hquote) hrest _ hrest'

lemma lexFrom_text_of_between (h : lexFrom (.between b) cs = some ts) (read : List ℕ) :
    lexFrom (.text read) cs = none := by
  have hbetween : Outside (.between b) := trivial
  exact lexFrom_flipped hbetween h

/-- Two readers that are at the same place of two strings. -/
def Alike : Mode → Mode → Prop
  | .text _, .text _ | .escape _, .escape _ => True
  | .unicode _ missing value, .unicode _ missing' value' => missing = missing' ∧ value = value'
  | _, _ => False

/-- Two strings that end alike differ in one token. The induction is on their common end. -/
lemma lexFrom_alike (hm : Alike m m') (h : lexFrom m cs = some ts)
    (h' : lexFrom m' cs = some ts') :
    ∃ us us' rest, ts = .string us :: rest ∧ ts' = .string us' :: rest := by
  induction cs generalizing m m' ts ts' with
  | nil => cases m <;> cases m' <;> first | exact hm.elim | cases h
  | cons c cs ih =>
      obtain ⟨m₁, l₁, l₁', hstep, hrest, rfl⟩ := lexFrom_cons_eq_some h
      obtain ⟨m₂, l₂, l₂', hstep', hrest', rfl⟩ := lexFrom_cons_eq_some h'
      have hcases : (∃ us us', l₁ = [.string us] ∧ l₂ = [.string us'] ∧ m₁ = m₂) ∨
          l₁ = [] ∧ l₂ = [] ∧ Alike m₁ m₂ := by
        cases m <;> cases m' <;> first | exact hm.elim | grind [step, Alike]
      obtain ⟨us, us', rfl, rfl, rfl⟩ | ⟨rfl, rfl, halike⟩ := hcases
      · obtain rfl := Option.some.inj (hrest.symm.trans hrest')
        exact ⟨us, us', l₁', rfl, rfl⟩
      · exact ih halike hrest hrest'

/-! ### Blanks -/

/-- The letters may stand between tokens. -/
def Blank (cs : List Char) : Prop := ∀ c ∈ cs, isSpace c = true

lemma run_blank (h : Blank cs) (b : Bool) : run (.between b) cs = some (.between b, []) := by
  induction cs with
  | nil => rfl
  | cons c cs ih =>
      obtain ⟨hc, hcs⟩ := List.forall_mem_cons.mp h
      have hstep : step (.between b) c = some (.between b, []) := if_pos hc
      exact run_cons_eq_some.mpr ⟨_, _, hstep, ih hcs, rfl⟩

/-- A number that is open is the next token. -/
lemma lexFrom_number {text : List Char} (h : lexFrom (.number text) cs = some ts) :
    ∃ text' ts', ts = .number text' :: ts' := by
  induction cs generalizing text with
  | nil =>
      rw [lexFrom, ended] at h
      split at h
      · exact ⟨text, [], (Option.some.inj h).symm⟩
      · cases h
  | cons c cs ih =>
      obtain ⟨m₁, l₁, l₁', hstep, hrest, rfl⟩ := lexFrom_cons_eq_some h
      rw [step] at hstep
      split at hstep
      · obtain ⟨rfl, rfl⟩ := Prod.mk.inj (Option.some.inj hstep)
        exact ih hrest
      · split at hstep
        · obtain ⟨r, -, hr⟩ := Option.map_eq_some_iff.mp hstep
          obtain ⟨rfl, rfl⟩ := Prod.mk.inj hr
          exact ⟨text, _, rfl⟩
        · cases hstep

/-- A name of a value that is open is the next token. -/
lemma lexFrom_word {w : Word} {i : ℕ} (h : lexFrom (.word w i) cs = some ts) :
    ∃ ts', ts = .word w :: ts' := by
  induction cs generalizing i with
  | nil => cases h
  | cons c cs ih =>
      obtain ⟨m₁, l₁, l₁', hstep, hrest, rfl⟩ := lexFrom_cons_eq_some h
      rw [step] at hstep
      split at hstep
      · split at hstep
        · obtain ⟨rfl, rfl⟩ := Prod.mk.inj (Option.some.inj hstep)
          exact ⟨_, rfl⟩
        · obtain ⟨rfl, rfl⟩ := Prod.mk.inj (Option.some.inj hstep)
          exact ih hrest
      · cases hstep

/-- Before the first token there are blanks: a letter that is none begins the token. -/
lemma lexFrom_between_cases (h : lexFrom (.between b) (c :: cs) = some ts) :
    (isSpace c = true ∧ lexFrom (.between b) cs = some ts) ∨
      (∃ tok ts', punctuation c = some tok ∧ lexFrom (.between false) cs = some ts' ∧
        ts = tok :: ts') ∨
      ∃ tok ts', ts = tok :: ts' ∧ ∀ d, punctuation d ≠ some tok := by
  obtain ⟨m₁, l₁, l₁', hstep, hrest, rfl⟩ := lexFrom_cons_eq_some h
  have hkind : ∀ tok, (∃ us, tok = .string us) ∨ (∃ text, tok = .number text) ∨
      (∃ w, tok = .word w) → ∀ d, punctuation d ≠ some tok := by
    intro tok htok d hd
    obtain ⟨hstring, hnumber, hword⟩ := punctuation_kind hd
    obtain ⟨us, hus⟩ | ⟨text, htext⟩ | ⟨w, hw⟩ := htok
    · exact hstring us hus
    · exact hnumber text htext
    · exact hword w hw
  rw [step, stepBetween] at hstep
  split at hstep
  · next hspace =>
      obtain ⟨rfl, rfl⟩ := Prod.mk.inj (Option.some.inj hstep)
      exact .inl ⟨hspace, hrest⟩
  right
  split at hstep
  · next tok htok =>
      obtain ⟨rfl, rfl⟩ := Prod.mk.inj (Option.some.inj hstep)
      exact .inl ⟨tok, l₁', htok, hrest, rfl⟩
  right
  split at hstep
  · obtain ⟨rfl, rfl⟩ := Prod.mk.inj (Option.some.inj hstep)
    obtain ⟨-, us, -, ts', -, -, rfl, -⟩ := lexFrom_text hrest
    exact ⟨_, ts', rfl, hkind _ (.inl ⟨_, rfl⟩)⟩
  split at hstep
  · obtain ⟨rfl, rfl⟩ := Prod.mk.inj (Option.some.inj hstep)
    obtain ⟨ts', rfl⟩ := lexFrom_word hrest
    exact ⟨_, ts', rfl, hkind _ (.inr (.inr ⟨_, rfl⟩))⟩
  · split at hstep
    · obtain ⟨rfl, rfl⟩ := Prod.mk.inj (Option.some.inj hstep)
      obtain ⟨text', ts', rfl⟩ := lexFrom_number hrest
      exact ⟨_, ts', rfl, hkind _ (.inr (.inl ⟨_, rfl⟩))⟩
    · cases hstep

/-- A text whose first token is one of punctuation begins with blanks and the letter. -/
lemma lexFrom_punctuation {d : Char} (hd : punctuation d = some tok)
    (h : lexFrom (.between b) cs = some (tok :: ts)) :
    ∃ ws cs', cs = ws ++ d :: cs' ∧ Blank ws ∧ lexFrom (.between false) cs' = some ts := by
  induction cs with
  | nil => cases h
  | cons c cs ih =>
      obtain ⟨hspace, hrest⟩ | ⟨tok', ts', hc, hrest, hts⟩ | ⟨tok', ts', hts, hkind⟩ :=
        lexFrom_between_cases h
      · obtain ⟨ws, cs', rfl, hws, hcs'⟩ := ih hrest
        exact ⟨c :: ws, cs', rfl, List.forall_mem_cons.mpr ⟨hspace, hws⟩, hcs'⟩
      · obtain ⟨rfl, rfl⟩ := List.cons.inj hts
        obtain rfl := punctuation_inj hc hd
        exact ⟨[], cs, rfl, fun _ h => absurd h List.not_mem_nil, hrest⟩
      · obtain ⟨rfl, -⟩ := List.cons.inj hts
        exact absurd hd (hkind d)

/-- A text without tokens is blank. -/
lemma blank_of_lexFrom (h : lexFrom (.between b) cs = some []) : Blank cs := by
  induction cs with
  | nil => exact fun _ h => absurd h List.not_mem_nil
  | cons c cs ih =>
      obtain ⟨hspace, hrest⟩ | ⟨tok, ts', -, -, hts⟩ | ⟨tok, ts', hts, -⟩ :=
        lexFrom_between_cases h
      · exact List.forall_mem_cons.mpr ⟨hspace, ih hrest⟩
      · cases hts
      · cases hts

/-! ### A string in quotes -/

/-- A text in quotes. -/
def quoted (e : List Char) : List Char := '"' :: (e ++ ['"'])

variable {e x y ws : List Char}

lemma run_text_of_plain (he : ∀ c ∈ e, Plain c) (read : List ℕ) :
    run (.text read) (e ++ ['"']) = some (.between false, [.string (read ++ units e)]) := by
  induction e generalizing read with
  | nil => simp [run, step, units]
  | cons c e ih =>
      obtain ⟨⟨hquote, hbackslash, hcontrol⟩, he⟩ := List.forall_mem_cons.mp he
      have hstep : step (.text read) c = some (.text (read ++ unitsOf c), []) := by
        rw [step, if_neg hquote, if_neg hbackslash, if_neg (Nat.not_lt.mpr hcontrol)]
      refine run_cons_eq_some.mpr ⟨_, _, hstep, ih he _, ?_⟩
      rw [units_cons, List.append_assoc, List.nil_append]

lemma step_blank_of_ended (hm : ended m = some l) (hc : isSpace c = true) :
    ∃ b, step m c = some (.between b, l) := by
  cases m with
  | between b =>
      obtain rfl := Option.some.inj hm
      exact ⟨b, if_pos hc⟩
  | number text =>
      have hall : ∀ d ∈ numberLetters, isSpace d = false :=
        List.forall_iff_forall_mem.mp (by decide)
      have hletter : c ∉ numberLetters := fun hmem => by
        rw [hall c hmem] at hc
        cases hc
      rw [ended] at hm
      split at hm
      · next hvalid =>
          obtain rfl := Option.some.inj hm
          refine ⟨true, ?_⟩
          rw [step, if_neg hletter, if_pos hvalid, stepBetween, if_pos hc]
          rfl
      · cases hm
  | text read | escape read | unicode read missing value | word w i => cases hm

/-- A quote behind blanks opens a string where nothing is open but a number. -/
lemma run_blank_quote (hm : ended m = some l) (hws : Blank ws) :
    run m (ws ++ ['"']) = some (.text [], l) := by
  cases ws with
  | nil =>
      have hstep : step m '"' = some (.text [], l) := by
        cases m with
        | between b =>
            obtain rfl := Option.some.inj hm
            rfl
        | number text =>
            rw [ended] at hm
            rw [step_quote_number]
            split at hm
            · next hvalid => rw [if_pos hvalid, ← Option.some.inj hm]
            · cases hm
        | text read | escape read | unicode read missing value | word w i => cases hm
      exact run_cons_eq_some.mpr ⟨_, _, hstep, rfl, by rw [List.append_nil]⟩
  | cons c ws =>
      obtain ⟨hc, hws⟩ := List.forall_mem_cons.mp hws
      obtain ⟨b, hstep⟩ := step_blank_of_ended hm hc
      have hquote : run (.between b) (ws ++ ['"']) = some (.text [], []) := by
        rw [run_append_of_run (run_blank hws b)]
        rfl
      exact run_cons_eq_some.mpr ⟨_, _, hstep, hquote, by rw [List.append_nil]⟩

/-- Behind a backslash there are no blanks. -/
lemma step_escape_blank (hc : isSpace c = true) : step (.escape read) c = none := by
  have hmem : c ∈ [' ', '\t', '\n', '\r'] := by simpa [isSpace, imp_iff_not_or] using hc
  have hall : ∀ d ∈ [' ', '\t', '\n', '\r'], escaped d = none ∧ d ≠ 'u' :=
    List.forall_iff_forall_mem.mp (by decide)
  obtain ⟨hescaped, hu⟩ := hall c hmem
  rw [step, hescaped]
  exact if_neg hu

/-- A string in quotes that stands between two tokens, with blanks before it. -/
lemma lexFrom_quoted (he : ∀ c ∈ e, Plain c) (hx : lexFrom m x = some l) (hws : Blank ws)
    (t : List Char) :
    lexFrom m (x ++ (ws ++ (quoted e ++ t)))
      = (lexFrom (.between false) t).map ((l ++ [.string (units e)]) ++ ·) := by
  rw [lexFrom_eq_run, Option.bind_eq_some_iff] at hx
  obtain ⟨⟨m', l₁⟩, hrun, hx⟩ := hx
  obtain ⟨l₂, hl₂, rfl⟩ := Option.map_eq_some_iff.mp hx
  have hsplit : ws ++ (quoted e ++ t) = (ws ++ ['"']) ++ ((e ++ ['"']) ++ t) := by
    simp [quoted]
  rw [lexFrom_append_of_run hrun, hsplit, lexFrom_append_of_run (run_blank_quote hl₂ hws),
    lexFrom_append_of_run (run_text_of_plain he []), Option.map_map, Option.map_map]
  simp only [Function.comp_def, List.append_assoc, List.nil_append]

/-- **A string in quotes within a text** is a token, or the end of one that began before it. The
tokens up to its end are those of every text that begins alike, also with blanks before it. -/
theorem lexFrom_name (he : ∀ c ∈ e, Plain c) (hhead : ∀ c ∈ e.head?, ∀ b, stepBetween b c = none)
    (hne : e ≠ []) (h : lexFrom m (x ++ (quoted e ++ y)) = some ts) :
    ∃ l us ts', lexFrom (.between false) y = some ts' ∧ ts = l ++ .string us :: ts' ∧
      (us = units e → lexFrom m x = some l) ∧
      ∀ ws t ts'', Blank ws → lexFrom m (x ++ (ws ++ (quoted e ++ t))) = some ts'' →
        ∃ t', lexFrom (.between false) t = some t' ∧ ts'' = l ++ .string us :: t' := by
  obtain ⟨m₁, l₁, l₁', hrun, hquoted, rfl⟩ := lexFrom_append_eq_some h
  obtain ⟨m₂, l₂, l₂', hstep, hrest, rfl⟩ := lexFrom_cons_eq_some hquoted
  have hbody : ∀ read t ts, lexFrom (.text read) ((e ++ ['"']) ++ t) = some ts →
      ∃ t', lexFrom (.between false) t = some t' ∧ ts = .string (read ++ units e) :: t' := by
    intro read t ts hts
    rw [lexFrom_append_of_run (run_text_of_plain he read)] at hts
    obtain ⟨t', ht', rfl⟩ := Option.map_eq_some_iff.mp hts
    exact ⟨t', ht', rfl⟩
  obtain ⟨l₃, hended, hr⟩ | ⟨read, rfl, hr⟩ | ⟨read, rfl, hr⟩ := step_quote_cases hstep
  · obtain ⟨rfl, rfl⟩ := Prod.mk.inj hr
    have hx : lexFrom m x = some (l₁ ++ l₂) := by
      rw [lexFrom_eq_run, hrun, Option.bind_some, hended]
      rfl
    obtain ⟨ts', hts', rfl⟩ := hbody [] y l₂' hrest
    refine ⟨l₁ ++ l₂, units e, ts', hts', by rw [List.append_assoc]; rfl, fun _ => hx, ?_⟩
    intro ws t ts'' hws hts''
    rw [lexFrom_quoted he hx hws] at hts''
    obtain ⟨t', ht', rfl⟩ := Option.map_eq_some_iff.mp hts''
    exact ⟨t', ht', by rw [List.append_assoc]; rfl⟩
  · -- the quote closes a string, behind which the text cannot go on as it does
    obtain ⟨rfl, rfl⟩ := Prod.mk.inj hr
    obtain ⟨c, e, rfl⟩ := List.exists_cons_of_ne_nil hne
    obtain ⟨m₃, l₃, l₃', hstep', -, -⟩ := lexFrom_cons_eq_some hrest
    rw [step, hhead c rfl] at hstep'
    cases hstep'
  · -- the quote stands in a string behind a backslash, where blanks cannot stand
    obtain ⟨rfl, rfl⟩ := Prod.mk.inj hr
    obtain ⟨ts', hts', rfl⟩ := hbody _ y l₂' hrest
    refine ⟨l₁, read ++ [0x22] ++ units e, ts', hts', rfl, fun heq => ?_, ?_⟩
    · have hlen := congrArg List.length heq
      simp only [List.length_append, List.length_singleton] at hlen
      omega
    · intro ws t ts'' hws hts''
      obtain ⟨m₃, l₃, l₃', hrun', hrest', rfl⟩ := lexFrom_append_eq_some hts''
      obtain ⟨rfl, rfl⟩ := Prod.mk.inj (Option.some.inj (hrun.symm.trans hrun'))
      cases ws with
      | nil =>
          obtain ⟨m₄, l₄, l₄', hstep', hbehind, rfl⟩ := lexFrom_cons_eq_some hrest'
          obtain ⟨rfl, rfl⟩ := Prod.mk.inj (Option.some.inj (hstep.symm.trans hstep'))
          obtain ⟨t', ht', rfl⟩ := hbody _ t l₄' hbehind
          exact ⟨t', ht', rfl⟩
      | cons c ws =>
          obtain ⟨m₄, l₄, l₄', hstep', -, -⟩ := lexFrom_cons_eq_some hrest'
          rw [step_escape_blank (hws c List.mem_cons_self)] at hstep'
          cases hstep'

end JsonLexer
