import Mathlib.Data.List.Basic
import Mathlib.Data.List.Infix
import Mathlib.Data.List.Nodup
import Mathlib.Data.Nat.Basic

/-!
The tokens of a JSON text.

A text is read letter by letter, and tokens are given out as soon as they are complete. What
is given out is never taken back, so the tokens of a text that is put together of parts are
those of the parts, as long as each part ends between two tokens.

* `step`, `run`, `lexFrom`: one letter, a part of a text and a text to its end;
* `lexFrom_append`: the tokens of parts;
* `step_punctuation_cases`, `mem_of_punctuation_mem`: where punctuation may stand, and that its
  tokens come of its letters;
* `lexFrom_text_iff`, `lexFrom_quoted_iff`: a text in quotes, without its line breaks, is read as
  itself exactly when it is plain: without quotes, backslashes and control characters;
* `lexFrom_erase`: line breaks between tokens may be left out;
* `lexFrom_last`: a text that ends with a brace ends with the last brace in it.
-/

namespace JsonLexer

/-! ### Tokens -/

/-- The names of values. -/
inductive Word where
  | yes
  | no
  | null
  deriving DecidableEq

def Word.letters : Word → List Char
  | yes => ['t', 'r', 'u', 'e']
  | no => ['f', 'a', 'l', 's', 'e']
  | null => ['n', 'u', 'l', 'l']

/-- Tokens. A string is the list of its code units, a number its text. -/
inductive Token where
  | lbrace
  | rbrace
  | lbracket
  | rbracket
  | colon
  | comma
  | string (units : List ℕ)
  | number (text : List Char)
  | word (w : Word)
  deriving DecidableEq

/-- The UTF-16 code units of a letter. -/
def unitsOf (c : Char) : List ℕ :=
  if c.toNat < 0x10000 then [c.toNat]
  else [0xD800 + (c.toNat - 0x10000) / 0x400, 0xDC00 + (c.toNat - 0x10000) % 0x400]

/-- The code units of a text. -/
def units (cs : List Char) : List ℕ :=
  cs.flatMap unitsOf

/-! ### Letters -/

def isSpace (c : Char) : Bool :=
  c = ' ' ∨ c = '\t' ∨ c = '\n' ∨ c = '\r'

def punctuation : Char → Option Token
  | '\x7b' => some .lbrace
  | '\x7d' => some .rbrace
  | '[' => some .lbracket
  | ']' => some .rbracket
  | ':' => some .colon
  | ',' => some .comma
  | _ => none

/-- The name that starts with a letter. -/
def wordOf : Char → Option Word
  | 't' => some .yes
  | 'f' => some .no
  | 'n' => some .null
  | _ => none

def digits : List Char :=
  ['0', '1', '2', '3', '4', '5', '6', '7', '8', '9']

/-- The letters that a number goes on with. -/
def numberLetters : List Char :=
  digits ++ ['+', '-', '.', 'e', 'E']

/-- An exponent, if there is one. -/
def validExponent : List Char → Bool
  | [] => true
  | e :: cs =>
      let cs := match cs with
        | '+' :: cs => cs
        | '-' :: cs => cs
        | cs => cs
      (e = 'e' ∨ e = 'E') ∧ cs ≠ [] ∧ cs.all (· ∈ digits)

/-- A fraction, if there is one, and an exponent. -/
def validFraction : List Char → Bool
  | '.' :: cs =>
      cs.takeWhile (· ∈ digits) ≠ [] ∧ validExponent (cs.dropWhile (· ∈ digits))
  | cs => validExponent cs

/-- A number: a sign, an integer without leading zeros, a fraction and an exponent. -/
def validNumber (cs : List Char) : Bool :=
  let cs := match cs with
    | '-' :: cs => cs
    | cs => cs
  let integer := cs.takeWhile (· ∈ digits)
  integer ≠ [] ∧ (integer.head? = some '0' → integer.length = 1) ∧
    validFraction (cs.dropWhile (· ∈ digits))

/-- The code unit behind a backslash. -/
def escaped : Char → Option ℕ
  | '"' => some 0x22
  | '\\' => some 0x5C
  | '/' => some 0x2F
  | 'b' => some 0x08
  | 'f' => some 0x0C
  | 'n' => some 0x0A
  | 'r' => some 0x0D
  | 't' => some 0x09
  | _ => none

def hexDigit (c : Char) : Option ℕ :=
  if c ∈ digits then some (c.toNat - '0'.toNat)
  else if c ∈ ['a', 'b', 'c', 'd', 'e', 'f'] then some (c.toNat - 'a'.toNat + 10)
  else if c ∈ ['A', 'B', 'C', 'D', 'E', 'F'] then some (c.toNat - 'A'.toNat + 10)
  else none

/-- A letter that stands for itself in a string. -/
def Plain (c : Char) : Prop :=
  c ≠ '"' ∧ c ≠ '\\' ∧ 0x20 ≤ c.toNat

instance : DecidablePred Plain := fun _ => inferInstanceAs (Decidable (_ ∧ _))

/-! ### Reading -/

/-- Where the reader is: between two tokens, the last one a number or not; in a string, behind
a backslash, or with so many hexadecimal digits to come behind the next one; in a number; in a
name. -/
inductive Mode where
  | between (afterNumber : Bool)
  | text (read : List ℕ)
  | escape (read : List ℕ)
  | unicode (read : List ℕ) (missing value : ℕ)
  | number (text : List Char)
  | word (w : Word) (i : ℕ)
  deriving DecidableEq

/-- A letter between two tokens. One number does not follow another. -/
def stepBetween (afterNumber : Bool) (c : Char) : Option (Mode × List Token) :=
  if isSpace c then some (.between afterNumber, [])
  else
    match punctuation c with
    | some t => some (.between false, [t])
    | none =>
        if c = '"' then some (.text [], [])
        else
          match wordOf c with
          | some w => some (.word w 1, [])
          | none =>
              if (c = '-' ∨ c ∈ digits) ∧ ¬afterNumber then some (.number [c], []) else none

/-- One letter: the new mode and the tokens that are complete with it. A number is complete
with the letter behind it. -/
def step : Mode → Char → Option (Mode × List Token)
  | .between afterNumber, c => stepBetween afterNumber c
  | .text read, c =>
      if c = '"' then some (.between false, [.string read])
      else if c = '\\' then some (.escape read, [])
      else if c.toNat < 0x20 then none
      else some (.text (read ++ unitsOf c), [])
  | .escape read, c =>
      match escaped c with
      | some u => some (.text (read ++ [u]), [])
      | none => if c = 'u' then some (.unicode read 3 0, []) else none
  | .unicode read missing value, c =>
      match hexDigit c with
      | some d =>
          match missing with
          | 0 => some (.text (read ++ [16 * value + d]), [])
          | missing + 1 => some (.unicode read missing (16 * value + d), [])
      | none => none
  | .number text, c =>
      if c ∈ numberLetters then some (.number (text ++ [c]), [])
      else if validNumber text then
        (stepBetween true c).map fun r => (r.1, .number text :: r.2)
      else none
  | .word w i, c =>
      if w.letters[i]? = some c then
        if i + 1 = w.letters.length then some (.between false, [.word w])
        else some (.word w (i + 1), [])
      else none

/-- A part of a text. -/
def run : Mode → List Char → Option (Mode × List Token)
  | m, [] => some (m, [])
  | m, c :: cs => (step m c).bind fun r => (run r.1 cs).map fun r' => (r'.1, r.2 ++ r'.2)

/-- What is complete with the end of the text. -/
def ended : Mode → Option (List Token)
  | .between _ => some []
  | .number text => if validNumber text then some [.number text] else none
  | _ => none

/-- A text to its end. -/
def lexFrom : Mode → List Char → Option (List Token)
  | m, [] => ended m
  | m, c :: cs => (step m c).bind fun r => (lexFrom r.1 cs).map (r.2 ++ ·)

/-- The tokens of a text. -/
def lex (cs : List Char) : Option (List Token) :=
  lexFrom (.between false) cs

variable {m m' : Mode} {c : Char} {cs t : List Char} {l : List Token} {ts : List Token}

/-! ### Parts of a text -/

/-- The tokens of two parts. -/
lemma lexFrom_append (m : Mode) (cs t : List Char) :
    lexFrom m (cs ++ t) = (run m cs).bind fun r => (lexFrom r.1 t).map (r.2 ++ ·) := by
  induction cs generalizing m with
  | nil =>
      rw [List.nil_append, run, Option.bind_some]
      cases lexFrom m t <;> rfl
  | cons c cs ih =>
      rw [List.cons_append, lexFrom, run]
      cases step m c with
      | none => rfl
      | some r =>
          rw [Option.bind_some, Option.bind_some, ih]
          cases run r.1 cs with
          | none => rfl
          | some r' => simp [Function.comp_def]

lemma lexFrom_eq_run (m : Mode) (cs : List Char) :
    lexFrom m cs = (run m cs).bind fun r => (ended r.1).map (r.2 ++ ·) := by
  have happend := lexFrom_append m cs []
  rw [List.append_nil] at happend
  exact happend

lemma lexFrom_append_of_run (h : run m cs = some (m', l)) (t : List Char) :
    lexFrom m (cs ++ t) = (lexFrom m' t).map (l ++ ·) := by
  rw [lexFrom_append, h, Option.bind_some]

lemma lexFrom_cons_of_step (h : step m c = some (m', l)) (t : List Char) :
    lexFrom m (c :: t) = (lexFrom m' t).map (l ++ ·) := by
  rw [lexFrom, h, Option.bind_some]

lemma run_cons_eq_some {r : Mode × List Token} :
    run m (c :: cs) = some r ↔
      ∃ r₁ r₂, step m c = some r₁ ∧ run r₁.1 cs = some r₂ ∧ r = (r₂.1, r₁.2 ++ r₂.2) := by
  rw [run, Option.bind_eq_some_iff]
  constructor
  · rintro ⟨r₁, hstep, hrest⟩
    obtain ⟨r₂, hrun, rfl⟩ := Option.map_eq_some_iff.mp hrest
    exact ⟨r₁, r₂, hstep, hrun, rfl⟩
  · rintro ⟨r₁, r₂, hstep, hrun, rfl⟩
    exact ⟨r₁, hstep, Option.map_eq_some_iff.mpr ⟨r₂, hrun, rfl⟩⟩

/-! ### Letters that no text has -/

/-- A property of some letters. -/
lemma of_all {p : Char → Prop} [DecidablePred p] (hall : cs.all (p ·) = true) (hc : c ∈ cs) :
    p c :=
  of_decide_eq_true (List.all_eq_true.mp hall c hc)

lemma word_letters_getElem? {w : Word} {i : ℕ} (h : w.letters[i]? = some c) :
    c ∈ ['t', 'r', 'u', 'e', 'f', 'a', 'l', 's', 'n'] := by
  have hmem : c ∈ w.letters := List.mem_of_getElem? h
  have hall : w.letters.all (· ∈ ['t', 'r', 'u', 'e', 'f', 'a', 'l', 's', 'n']) = true := by
    cases w <;> rfl
  exact of_all hall hmem

/-- A letter that is part of no token, and stands between none. -/
lemma step_eq_none (hbetween : ∀ b, stepBetween b c = none) (hquote : c ≠ '"')
    (hcontrol : c.toNat < 0x20) (hbackslash : c ≠ '\\') (hescaped : escaped c = none)
    (hu : c ≠ 'u') (hhex : hexDigit c = none) (hnumber : c ∉ numberLetters)
    (hword : c ∉ ['t', 'r', 'u', 'e', 'f', 'a', 'l', 's', 'n']) (m : Mode) :
    step m c = none := by
  cases m with
  | between b => exact hbetween b
  | text read => rw [step, if_neg hquote, if_neg hbackslash, if_pos hcontrol]
  | escape read => simp [step, hescaped, hu]
  | unicode read missing value => simp [step, hhex]
  | number text => simp [step, hnumber, hbetween]
  | word w i => rw [step, if_neg fun h => hword (word_letters_getElem? h)]

lemma step_zero (m : Mode) : step m '\x00' = none :=
  step_eq_none (by decide) (by decide) (by decide) (by decide) (by decide) (by decide) (by decide)
    (by decide) (by decide) m

/-- A text with tokens has no null character. -/
lemma zero_notMem (h : lexFrom m cs = some ts) : '\x00' ∉ cs := by
  induction cs generalizing m ts with
  | nil => exact List.not_mem_nil
  | cons c cs ih =>
      rw [lexFrom, Option.bind_eq_some_iff] at h
      obtain ⟨r, hstep, hrest⟩ := h
      obtain ⟨ts', hts', -⟩ := Option.map_eq_some_iff.mp hrest
      rw [List.mem_cons, not_or]
      refine ⟨fun heq => ?_, ih hts'⟩
      rw [← heq, step_zero] at hstep
      cases hstep

/-! ### Strings -/

/-- A text between quotes and what it is read as. -/
inductive Body : List Char → List ℕ → Prop
  | nil : Body [] []
  | plain {c : Char} {cs : List Char} {us : List ℕ} (hc : Plain c) (h : Body cs us) :
      Body (c :: cs) (unitsOf c ++ us)
  | escape {c : Char} {u : ℕ} {cs : List Char} {us : List ℕ} (hu : escaped c = some u)
      (h : Body cs us) : Body ('\\' :: c :: cs) (u :: us)
  | unicode {hs cs : List Char} {us : List ℕ} (u : ℕ) (hs4 : hs.length = 4)
      (hquote : '"' ∉ hs) (h : Body cs us) : Body ('\\' :: 'u' :: (hs ++ cs)) (u :: us)

lemma units_cons (c : Char) (cs : List Char) : units (c :: cs) = unitsOf c ++ units cs := rfl

lemma units_append (cs t : List Char) : units (cs ++ t) = units cs ++ units t :=
  List.flatMap_append ..

lemma length_unitsOf_pos (c : Char) : 0 < (unitsOf c).length := by
  rw [unitsOf]
  split <;> simp

lemma length_le_length_units (cs : List Char) : cs.length ≤ (units cs).length := by
  induction cs with
  | nil => exact Nat.le_refl 0
  | cons c cs ih =>
      rw [units_cons, List.length_append, List.length_cons]
      have := length_unitsOf_pos c
      omega

/-- The unit of a quote belongs to a quote. -/
lemma count_unitsOf (c : Char) : (unitsOf c).count 0x22 = if c = '"' then 1 else 0 := by
  have hquote : c.toNat = 0x22 ↔ c = '"' := by
    rw [← Char.toNat_inj]
    rfl
  rw [unitsOf]
  split
  · rw [List.count_singleton]
    simp [hquote]
  · next hlarge =>
      have hne : c ≠ '"' := by
        rintro rfl
        exact hlarge (by decide)
      rw [if_neg hne, List.count_eq_zero]
      simp only [List.mem_cons, List.not_mem_nil, or_false, not_or]
      omega

lemma count_units (cs : List Char) : (units cs).count 0x22 = cs.count '"' := by
  induction cs with
  | nil => rfl
  | cons c cs ih =>
      rw [units_cons, List.count_append, ih, count_unitsOf, List.count_cons, Nat.add_comm]
      simp

/-- What is read is no longer than the text, and as long only if the letters stand for
themselves. -/
lemma Body.length_le {r : List Char} {us : List ℕ} (h : Body r us) :
    us.length ≤ (units r).length ∧
      (us.length = (units r).length → us = units r ∧ ∀ c ∈ r, Plain c) := by
  induction h with
  | nil => exact ⟨Nat.le_refl 0, fun _ => ⟨rfl, fun _ hc => absurd hc List.not_mem_nil⟩⟩
  | plain hc _ ih =>
      obtain ⟨hle, heq⟩ := ih
      rw [units_cons, List.length_append, List.length_append]
      refine ⟨Nat.add_le_add_left hle _, fun hlength => ?_⟩
      obtain ⟨hunits, hplain⟩ := heq (Nat.add_left_cancel hlength)
      exact ⟨by rw [hunits], List.forall_mem_cons.mpr ⟨hc, hplain⟩⟩
  | @escape c u cs us hu _ ih =>
      have hlength : (units ('\\' :: c :: cs)).length =
          1 + ((unitsOf c).length + (units cs).length) := by
        rw [units_cons, units_cons, List.length_append, List.length_append]
        rfl
      have hpos := length_unitsOf_pos c
      rw [hlength, List.length_cons]
      omega
  | @unicode hs cs us u hs4 _ _ ih =>
      have hlength : (units ('\\' :: 'u' :: (hs ++ cs))).length =
          2 + ((units hs).length + (units cs).length) := by
        rw [units_cons, units_cons, units_append]
        simp only [List.length_append]
        rw [← Nat.add_assoc]
        rfl
      rw [hlength, List.length_cons]
      omega

/-- Every quote in the text is one that is read. -/
lemma Body.count_le {r : List Char} {us : List ℕ} (h : Body r us) :
    r.count '"' ≤ us.count 0x22 := by
  induction h with
  | nil => exact Nat.le_refl 0
  | plain hc _ ih =>
      rw [List.count_append, List.count_cons_of_ne hc.1]
      omega
  | @escape c u cs us hu _ ih =>
      rw [List.count_cons_of_ne (by decide), List.count_cons, List.count_cons]
      by_cases hc : c = '"'
      · subst hc
        obtain rfl : 0x22 = u := Option.some.inj hu
        simpa using ih
      · have hzero : (if c == '"' then 1 else 0) = 0 := by simp [hc]
        omega
  | @unicode hs cs us u _ hquote _ ih =>
      rw [List.count_cons_of_ne (by decide), List.count_cons_of_ne (by decide), List.count_append,
        List.count_eq_zero.mpr hquote, List.count_cons]
      omega

lemma hexDigit_quote : hexDigit '"' = none := by
  decide

/-- The digits behind `\u`. -/
lemma lexFrom_unicode {read : List ℕ} {missing value : ℕ}
    (h : lexFrom (.unicode read missing value) cs = some ts) :
    ∃ hs t u, cs = hs ++ t ∧ hs.length = missing + 1 ∧ '"' ∉ hs ∧
      lexFrom (.text (read ++ [u])) t = some ts := by
  induction missing generalizing value cs with
  | zero =>
      cases cs with
      | nil => cases h
      | cons c cs =>
          rw [lexFrom, step] at h
          cases hc : hexDigit c with
          | none => simp [hc] at h
          | some d =>
              rw [hc] at h
              refine ⟨[c], cs, 16 * value + d, rfl, rfl, fun hmem => ?_, by simpa using h⟩
              rw [← List.mem_singleton.mp hmem, hexDigit_quote] at hc
              cases hc
  | succ missing ih =>
      cases cs with
      | nil => cases h
      | cons c cs =>
          rw [lexFrom, step] at h
          cases hc : hexDigit c with
          | none => simp [hc] at h
          | some d =>
              rw [hc] at h
              obtain ⟨hs, t, u, rfl, hlength, hquote, hts⟩ := ih (by simpa using h)
              refine ⟨c :: hs, t, u, rfl, by rw [List.length_cons, hlength], ?_, hts⟩
              rw [List.mem_cons, not_or]
              refine ⟨fun heq => ?_, hquote⟩
              rw [← heq, hexDigit_quote] at hc
              cases hc

/-- A string ends with the first quote that does not stand behind a backslash. -/
lemma lexFrom_text {read : List ℕ} (h : lexFrom (.text read) cs = some ts) :
    ∃ r us t ts', cs = r ++ '"' :: t ∧ Body r us ∧ ts = .string (read ++ us) :: ts' ∧
      lexFrom (.between false) t = some ts' := by
  induction hn : cs.length using Nat.strong_induction_on generalizing cs read with
  | _ n ih =>
      subst hn
      cases cs with
      | nil => cases h
      | cons c cs =>
          rw [lexFrom, step] at h
          by_cases hquote : c = '"'
          · rw [if_pos hquote, Option.bind_some] at h
            obtain ⟨ts', hts', rfl⟩ := Option.map_eq_some_iff.mp h
            exact ⟨[], [], cs, ts', by rw [hquote]; rfl, .nil, by simp, hts'⟩
          rw [if_neg hquote] at h
          by_cases hbackslash : c = '\\'
          · subst hbackslash
            rw [if_pos rfl, Option.bind_some] at h
            obtain ⟨ts₁, hts₁, rfl⟩ := Option.map_eq_some_iff.mp h
            cases cs with
            | nil => cases hts₁
            | cons c cs =>
                rw [lexFrom, step] at hts₁
                cases hescaped : escaped c with
                | some u =>
                    rw [hescaped, Option.bind_some] at hts₁
                    obtain ⟨ts₂, hts₂, rfl⟩ := Option.map_eq_some_iff.mp hts₁
                    obtain ⟨r, us, t, ts', rfl, hbody, rfl, hrest⟩ :=
                      ih cs.length (by simp only [List.length_cons]; omega) hts₂ rfl
                    exact ⟨'\\' :: c :: r, u :: us, t, ts', rfl, .escape hescaped hbody,
                      by simp, hrest⟩
                | none =>
                    rw [hescaped] at hts₁
                    by_cases hu : c = 'u'
                    · subst hu
                      rw [if_pos rfl, Option.bind_some] at hts₁
                      obtain ⟨ts₂, hts₂, rfl⟩ := Option.map_eq_some_iff.mp hts₁
                      obtain ⟨hs, t₂, u, rfl, hlength, hnoquote, hts₂⟩ := lexFrom_unicode hts₂
                      obtain ⟨r, us, t, ts', rfl, hbody, rfl, hrest⟩ :=
                        ih t₂.length (by simp only [List.length_cons, List.length_append]; omega)
                          hts₂ rfl
                      exact ⟨'\\' :: 'u' :: (hs ++ r), u :: us, t, ts', by simp,
                        .unicode u hlength hnoquote hbody, by simp, hrest⟩
                    · rw [if_neg hu] at hts₁
                      cases hts₁
          rw [if_neg hbackslash] at h
          by_cases hcontrol : c.toNat < 0x20
          · rw [if_pos hcontrol] at h
            cases h
          · rw [if_neg hcontrol, Option.bind_some] at h
            obtain ⟨ts₁, hts₁, rfl⟩ := Option.map_eq_some_iff.mp h
            obtain ⟨r, us, t, ts', rfl, hbody, rfl, hrest⟩ :=
              ih cs.length (by simp) hts₁ rfl
            exact ⟨c :: r, unitsOf c ++ us, t, ts', rfl,
              .plain ⟨hquote, hbackslash, Nat.not_lt.mp hcontrol⟩ hbody, by simp, hrest⟩

/-- Plain letters are read as they are. -/
lemma lexFrom_text_of_plain {e : List Char} (he : ∀ c ∈ e, Plain c) (read : List ℕ)
    (t : List Char) :
    lexFrom (.text read) (e ++ '"' :: t) =
      (lexFrom (.between false) t).map (.string (read ++ units e) :: ·) := by
  induction e generalizing read with
  | nil =>
      rw [List.nil_append, lexFrom, step, if_pos rfl, Option.bind_some]
      simp [units]
  | cons c e ih =>
      obtain ⟨⟨hquote, hbackslash, hcontrol⟩, he⟩ := List.forall_mem_cons.mp he
      rw [List.cons_append, lexFrom, step, if_neg hquote, if_neg hbackslash,
        if_neg (Nat.not_lt.mpr hcontrol), Option.bind_some, ih he, units_cons, List.append_assoc,
        Option.map_map]
      rfl

/-! ### Punctuation -/

/-- The letters of punctuation. -/
def marks : List Char := ['\x7b', '\x7d', '[', ']', ':', ',']

lemma mem_marks {tok : Token} (h : punctuation c = some tok) : c ∈ marks := by
  rw [punctuation.eq_def] at h
  split at h <;> first | decide | cases h

lemma punctuation_inj {tok : Token} {c' : Char} (h : punctuation c = some tok)
    (h' : punctuation c' = some tok) : c = c' := by
  have hnodup : (marks.map punctuation).Nodup := by decide
  exact List.inj_on_of_nodup_map hnodup (mem_marks h) (mem_marks h') (h.trans h'.symm)

/-- A token of punctuation is none of the others. -/
lemma punctuation_kind {tok : Token} (h : punctuation c = some tok) :
    (∀ us, tok ≠ .string us) ∧ (∀ text, tok ≠ .number text) ∧ ∀ w, tok ≠ .word w := by
  rw [punctuation.eq_def] at h
  split at h <;> cases h <;> simp

/-- No letter of punctuation is part of an escape, a number or a name. -/
lemma marks_part (h : c ∈ marks) :
    c ≠ '"' ∧ c ≠ '\\' ∧ ¬ c.toNat < 0x20 ∧ escaped c = none ∧ c ≠ 'u' ∧ hexDigit c = none ∧
      c ∉ numberLetters ∧ c ∉ ['t', 'r', 'u', 'e', 'f', 'a', 'l', 's', 'n'] ∧
      isSpace c = false := by
  have hall : ∀ c ∈ marks,
      c ≠ '"' ∧ c ≠ '\\' ∧ ¬ c.toNat < 0x20 ∧ escaped c = none ∧ c ≠ 'u' ∧ hexDigit c = none ∧
        c ∉ numberLetters ∧ c ∉ ['t', 'r', 'u', 'e', 'f', 'a', 'l', 's', 'n'] ∧
        isSpace c = false :=
    List.forall_iff_forall_mem.mp (by decide)
  exact hall c h

/-- Punctuation ends what is open. -/
lemma step_punctuation {tok : Token} (hm : ended m = some l) (hc : punctuation c = some tok) :
    step m c = some (.between false, l ++ [tok]) := by
  obtain ⟨-, -, -, -, -, -, hnumber, -, hspace⟩ := marks_part (mem_marks hc)
  have hbetween : ∀ b, stepBetween b c = some (.between false, [tok]) := by
    intro b
    rw [stepBetween, hspace, if_neg Bool.false_ne_true, hc]
  cases m with
  | between b =>
      obtain rfl : [] = l := Option.some.inj hm
      exact hbetween b
  | number text =>
      rw [ended] at hm
      split at hm
      · next hvalid =>
          obtain rfl := Option.some.inj hm
          rw [step, if_neg hnumber, if_pos hvalid, hbetween]
          rfl
      · cases hm
  | text read => cases hm
  | escape read => cases hm
  | unicode read missing value => cases hm
  | word w i => cases hm

/-- A text that goes on with punctuation. -/
lemma lexFrom_append_punctuation {tok : Token} (h : lexFrom m cs = some ts)
    (hc : punctuation c = some tok) (t : List Char) :
    lexFrom m (cs ++ c :: t) = (lexFrom (.between false) t).map ((ts ++ [tok]) ++ ·) := by
  rw [lexFrom_eq_run, Option.bind_eq_some_iff] at h
  obtain ⟨⟨m', l'⟩, hrun, hended⟩ := h
  obtain ⟨l, hl, rfl⟩ := Option.map_eq_some_iff.mp hended
  rw [lexFrom_append_of_run hrun, lexFrom_cons_of_step (step_punctuation hl hc), Option.map_map]
  simp only [Function.comp_def, List.append_assoc]

/-- What a letter of punctuation does where it may stand: it goes on with a string, or it ends
what is open. -/
lemma step_punctuation_cases {tok : Token} {r : Mode × List Token}
    (hc : punctuation c = some tok) (h : step m c = some r) :
    (∃ read, m = .text read ∧ r = (.text (read ++ unitsOf c), [])) ∨
      ∃ l, ended m = some l ∧ r = (.between false, l ++ [tok]) := by
  obtain ⟨hquote, hbackslash, hcontrol, hescaped, hu, hhex, hnumber, hword, -⟩ :=
    marks_part (mem_marks hc)
  cases hm : ended m with
  | some l =>
      rw [step_punctuation hm hc] at h
      exact .inr ⟨l, rfl, (Option.some.inj h).symm⟩
  | none =>
      left
      cases m with
      | between b => cases hm
      | text read =>
          rw [step, if_neg hquote, if_neg hbackslash, if_neg hcontrol] at h
          exact ⟨read, rfl, (Option.some.inj h).symm⟩
      | escape read => simp [step, hescaped, hu] at h
      | unicode read missing value => simp [step, hhex] at h
      | number text =>
          have hvalid : validNumber text = false := by
            by_contra hvalid
            rw [ended, if_pos (by simpa using hvalid)] at hm
            cases hm
          simp [step, hnumber, hvalid] at h
      | word w i =>
          rw [step, if_neg fun hletter => hword (word_letters_getElem? hletter)] at h
          cases h

/-- A token of punctuation is complete with its letter only. -/
lemma punctuation_notMem_step {tok : Token} {d : Char} {r : Mode × List Token}
    (hd : punctuation d = some tok) (h : step m c = some r) (hc : c ≠ d) : tok ∉ r.2 := by
  obtain ⟨hstring, hnumber, hword⟩ := punctuation_kind hd
  have hother : punctuation c ≠ some tok := fun h => hc (punctuation_inj h hd)
  cases m <;> grind [step, stepBetween]

lemma punctuation_notMem_run {tok : Token} {d : Char} (hd : punctuation d = some tok)
    (h : run m cs = some (m', l)) (hcs : d ∉ cs) : tok ∉ l := by
  induction cs generalizing m l with
  | nil =>
      obtain ⟨-, rfl⟩ := Prod.mk.inj (Option.some.inj h)
      exact List.not_mem_nil
  | cons c cs ih =>
      obtain ⟨hc, hcs⟩ := not_or.mp (List.mem_cons.not.mp hcs)
      obtain ⟨⟨m₁, l₁⟩, ⟨m₂, l₂⟩, hstep, hrun, hr⟩ := run_cons_eq_some.mp h
      obtain ⟨rfl, rfl⟩ := Prod.mk.inj hr
      rw [List.mem_append, not_or]
      exact ⟨punctuation_notMem_step hd hstep (Ne.symm hc), ih hrun hcs⟩

lemma punctuation_notMem_ended {tok : Token} {d : Char} (hd : punctuation d = some tok)
    (h : ended m = some l) : tok ∉ l := by
  obtain ⟨hstring, hnumber, hword⟩ := punctuation_kind hd
  cases m <;> grind [ended]

/-- A text with a token of punctuation has its letter. -/
lemma mem_of_punctuation_mem {tok : Token} {d : Char} (hd : punctuation d = some tok)
    (h : lexFrom m cs = some ts) (htok : tok ∈ ts) : d ∈ cs := by
  by_contra hcs
  rw [lexFrom_eq_run, Option.bind_eq_some_iff] at h
  obtain ⟨⟨m', l⟩, hrun, h⟩ := h
  obtain ⟨l', hl', rfl⟩ := Option.map_eq_some_iff.mp h
  obtain htok | htok := List.mem_append.mp htok
  · exact punctuation_notMem_run hd hrun hcs htok
  · exact punctuation_notMem_ended hd hl' htok

/-! ### Line breaks -/

/-- A text without its line breaks. -/
def erase (cs : List Char) : List Char :=
  cs.filter (· ≠ '\n')

lemma erase_cons_of_ne (h : c ≠ '\n') : erase (c :: cs) = c :: erase cs :=
  List.filter_cons_of_pos (by simpa using h)

lemma erase_cons_break : erase ('\n' :: cs) = erase cs :=
  List.filter_cons_of_neg (by decide)

lemma erase_append (cs t : List Char) : erase (cs ++ t) = erase cs ++ erase t :=
  List.filter_append ..

lemma erase_eq_self (h : '\n' ∉ cs) : erase cs = cs := by
  rw [erase, List.filter_eq_self]
  intro c hc
  exact decide_eq_true fun heq => h (heq ▸ hc)

lemma erase_eq_self_of_plain (h : ∀ c ∈ cs, Plain c) : erase cs = cs :=
  erase_eq_self fun hmem => absurd (h _ hmem) (by decide)

/-- Line breaks count in the length. -/
lemma length_units_erase (cs : List Char) :
    (units (erase cs)).length + cs.count '\n' = (units cs).length := by
  induction cs with
  | nil => rfl
  | cons c cs ih =>
      by_cases hc : c = '\n'
      · subst hc
        rw [erase_cons_break, units_cons, List.length_append, List.count_cons_self, ← ih]
        have hone : (unitsOf '\n').length = 1 := by decide
        omega
      · rw [erase_cons_of_ne hc, units_cons, units_cons, List.length_append, List.length_append,
          List.count_cons_of_ne hc, ← ih]
        omega

lemma count_erase (cs : List Char) : (erase cs).count '"' = cs.count '"' := by
  rw [erase, List.count_filter (by decide)]

/-- What is read of a text without its line breaks is shorter than the text, unless it has none
and its letters stand for themselves. -/
lemma Body.plain_of_erase {e : List Char} (h : Body (erase e) (units e)) : ∀ c ∈ e, Plain c := by
  obtain ⟨hle, heq⟩ := h.length_le
  have hlength := length_units_erase e
  obtain ⟨-, hplain⟩ := heq (by omega)
  have hbreaks : e.count '\n' = 0 := by omega
  rwa [erase_eq_self (List.count_eq_zero.mp hbreaks)] at hplain

/-- **A text behind a quote**, without its line breaks, is read as itself exactly when all its
letters are plain. -/
theorem lexFrom_text_iff {e : List Char} :
    lexFrom (.text []) (erase e ++ '"' :: t) = some (.string (units e) :: ts) ↔
      (∀ c ∈ e, Plain c) ∧ lexFrom (.between false) t = some ts := by
  constructor
  · intro h
    obtain ⟨r, us, t', ts', hcs, hbody, hts, hrest⟩ := lexFrom_text h
    obtain ⟨hstring, rfl⟩ := List.cons.inj hts
    obtain rfl : units e = us := by simpa using hstring
    obtain ⟨hle, -⟩ := hbody.length_le
    have hlength := length_units_erase e
    rcases List.append_eq_append_iff.mp hcs with ⟨a, hr, ha⟩ | ⟨a, hr, ha⟩
    · cases a with
      | cons c a =>
          -- the quote behind the text was read as part of it: one quote too many
          obtain ⟨rfl, -⟩ := List.cons.inj ha
          have hcount := hbody.count_le
          rw [hr, List.count_append, count_erase, List.count_cons_self, count_units] at hcount
          omega
      | nil =>
          rw [List.append_nil] at hr
          obtain ⟨-, rfl⟩ := List.cons.inj ha
          rw [hr] at hbody
          exact ⟨hbody.plain_of_erase, hrest⟩
    · -- the string ended within the text: what is read is too short for a proper part
      have hsplit : (units (erase e)).length = (units r).length + (units a).length := by
        rw [hr, units_append, List.length_append]
      have hnil : a = [] := by
        have := length_le_length_units a
        exact List.length_eq_zero_iff.mp (by omega)
      subst hnil
      rw [List.append_nil] at hr
      obtain ⟨-, rfl⟩ := List.cons.inj ha
      rw [← hr] at hbody
      exact ⟨hbody.plain_of_erase, hrest⟩
  · rintro ⟨hplain, hrest⟩
    rw [erase_eq_self_of_plain hplain, lexFrom_text_of_plain hplain, hrest]
    rfl

lemma map_append_eq_some_iff {o : Option (List Token)} {l l' : List Token} :
    o.map (l ++ ·) = some (l ++ l') ↔ o = some l' := by
  rw [Option.map_eq_some_iff]
  constructor
  · rintro ⟨l'', h, happend⟩
    rw [h, List.append_cancel_left happend]
  · intro h
    exact ⟨l', h, rfl⟩

/-- A text between quotes. -/
lemma lexFrom_quoted_iff {e : List Char} :
    lexFrom (.between false) ('"' :: (erase e ++ '"' :: t)) = some (.string (units e) :: ts) ↔
      (∀ c ∈ e, Plain c) ∧ lexFrom (.between false) t = some ts := by
  have hopen : step (.between false) '"' = some (.text [], []) := rfl
  rw [lexFrom_cons_of_step hopen, ← lexFrom_text_iff]
  simp only [List.nil_append, Option.map_id']

/-- The same tokens, but that on the right a last number may be waiting for its end. -/
def Caught (a b : Mode × List Token) : Prop :=
  a = b ∨ ∃ text l, validNumber text = true ∧ a = (.between true, l ++ [.number text]) ∧
    b = (.number text, l)

lemma Caught.prepend {a b : Mode × List Token} (h : Caught a b) (l : List Token) :
    Caught (a.1, l ++ a.2) (b.1, l ++ b.2) := by
  rcases h with rfl | ⟨text, l', hvalid, rfl, rfl⟩
  · exact .inl rfl
  · exact .inr ⟨text, l ++ l', hvalid, by rw [List.append_assoc], rfl⟩

/-- At the end of the text there is no difference. -/
lemma Caught.ended {a b : Mode × List Token} (h : Caught a b) (ha : ended a.1 = some ts) :
    ∃ ts', JsonLexer.ended b.1 = some ts' ∧ b.2 ++ ts' = a.2 ++ ts := by
  rcases h with rfl | ⟨text, l, hvalid, rfl, rfl⟩
  · exact ⟨ts, ha, rfl⟩
  · obtain rfl : [] = ts := Option.some.inj ha
    exact ⟨[.number text], by rw [JsonLexer.ended, if_pos hvalid], by simp⟩

/-- Behind a number no letter is taken that a number goes on with. -/
lemma notMem_numberLetters {r : Mode × List Token} (h : stepBetween true c = some r) :
    c ∉ numberLetters := by
  have hnone : numberLetters.all (stepBetween true · = none) = true := rfl
  intro hmem
  rw [of_all hnone hmem] at h
  cases h

/-- What a line break does where it may stand. -/
lemma step_break {r : Mode × List Token} (h : step m '\n' = some r) :
    (∃ b, m = .between b ∧ r = (.between b, [])) ∨
      ∃ text, m = .number text ∧ validNumber text = true ∧
        r = (.between true, [.number text]) := by
  cases m with
  | between b => exact .inl ⟨b, rfl, (Option.some.inj h).symm⟩
  | text read => cases h
  | escape read => cases h
  | unicode read missing value => cases h
  | number text =>
      have hletter : '\n' ∉ numberLetters := by decide
      rw [step, if_neg hletter] at h
      split at h
      · next hvalid => exact .inr ⟨text, rfl, hvalid, (Option.some.inj h).symm⟩
      · cases h
  | word w i =>
      rw [step] at h
      split at h
      · next hletter => exact absurd (word_letters_getElem? hletter) (by decide)
      · cases h

/-- Without line breaks a text is read alike, from anywhere and from within a number that a
line break would end. The induction is on the text. -/
lemma run_erase (cs : List Char) :
    (∀ m r, run m cs = some r → ∃ r', run m (erase cs) = some r' ∧ Caught r r') ∧
      ∀ text r, validNumber text = true → run (.between true) cs = some r →
        ∃ r', run (.number text) (erase cs) = some r' ∧ Caught (r.1, .number text :: r.2) r' := by
  induction cs with
  | nil =>
      refine ⟨fun m r h => ⟨r, h, .inl rfl⟩, fun text r hvalid h => ?_⟩
      obtain rfl := Option.some.inj h
      exact ⟨_, rfl, .inr ⟨text, [], hvalid, rfl, rfl⟩⟩
  | cons c cs ih =>
      obtain ⟨ih, ihNumber⟩ := ih
      constructor
      · intro m r h
        obtain ⟨⟨m₁, l₁⟩, ⟨m₂, l₂⟩, hstep, hrun, rfl⟩ := run_cons_eq_some.mp h
        by_cases hc : c = '\n'
        · subst hc
          rw [erase_cons_break]
          rcases step_break hstep with ⟨b, rfl, hr⟩ | ⟨text, rfl, hvalid, hr⟩
          · obtain ⟨rfl, rfl⟩ := Prod.mk.inj hr
            exact ih _ _ hrun
          · obtain ⟨rfl, rfl⟩ := Prod.mk.inj hr
            exact ihNumber text _ hvalid hrun
        · obtain ⟨r', hrun', hcaught⟩ := ih m₁ _ hrun
          rw [erase_cons_of_ne hc]
          exact ⟨_, run_cons_eq_some.mpr ⟨_, _, hstep, hrun', rfl⟩, hcaught.prepend l₁⟩
      · intro text r hvalid h
        obtain ⟨⟨m₁, l₁⟩, ⟨m₂, l₂⟩, hstep, hrun, rfl⟩ := run_cons_eq_some.mp h
        have hbetween : stepBetween true c = some (m₁, l₁) := hstep
        by_cases hc : c = '\n'
        · subst hc
          obtain ⟨rfl, rfl⟩ := Prod.mk.inj (Option.some.inj hbetween)
          rw [erase_cons_break]
          exact ihNumber text _ hvalid hrun
        · obtain ⟨r', hrun', hcaught⟩ := ih m₁ _ hrun
          have hnumber : step (.number text) c = some (m₁, .number text :: l₁) := by
            rw [step, if_neg (notMem_numberLetters hbetween), if_pos hvalid, hbetween]
            rfl
          rw [erase_cons_of_ne hc]
          exact ⟨_, run_cons_eq_some.mpr ⟨_, _, hnumber, hrun', rfl⟩,
            hcaught.prepend (.number text :: l₁)⟩

/-- Line breaks between the tokens of a text that goes on with punctuation. -/
theorem lexFrom_erase {tok : Token} (h : lexFrom m cs = some ts) (hc : punctuation c = some tok)
    (t : List Char) :
    lexFrom m (erase cs ++ c :: t) =
      (lexFrom (.between false) t).map ((ts ++ [tok]) ++ ·) := by
  rw [lexFrom_eq_run, Option.bind_eq_some_iff] at h
  obtain ⟨r, hrun, hended⟩ := h
  obtain ⟨l, hl, rfl⟩ := Option.map_eq_some_iff.mp hended
  obtain ⟨⟨m', l'⟩, hrun', hcaught⟩ := (run_erase cs).1 m r hrun
  obtain ⟨l'', hl'', hsame⟩ := hcaught.ended hl
  have herased : lexFrom m (erase cs) = some (r.2 ++ l) := by
    rw [lexFrom_eq_run, hrun', Option.bind_some, hl'', ← hsame]
    rfl
  exact lexFrom_append_punctuation herased hc t

/-! ### The last brace -/

/-- A string that is open gives a token before the text ends. -/
lemma lexFrom_text_ne_nil {read : List ℕ} : lexFrom (.text read) cs ≠ some [] := by
  intro h
  obtain ⟨r, us, t, ts', -, -, hts, -⟩ := lexFrom_text h
  cases hts

/-- **A text that ends with a closing brace** ends with the last one in it: behind it nothing
is complete, and before it all the other tokens are. -/
theorem lexFrom_last {pre post : List Char} (hpost : '\x7d' ∉ post)
    (h : lexFrom m (pre ++ '\x7d' :: post) = some (ts ++ [.rbrace])) :
    lexFrom m pre = some ts ∧ lexFrom (.between false) post = some [] := by
  rw [lexFrom_append, Option.bind_eq_some_iff] at h
  obtain ⟨⟨m₁, l₁⟩, hrun, h⟩ := h
  obtain ⟨ts₁, hts₁, happend⟩ := Option.map_eq_some_iff.mp h
  rw [lexFrom, Option.bind_eq_some_iff] at hts₁
  obtain ⟨⟨m₂, l₂⟩, hstep, hrest⟩ := hts₁
  obtain ⟨ts₂, hts₂, rfl⟩ := Option.map_eq_some_iff.mp hrest
  have hnil : ts₂ = [] := by
    -- the last token would come from behind the last brace
    rcases List.eq_nil_or_concat ts₂ with hnil | ⟨l, tok, rfl⟩
    · exact hnil
    · have hlast : (l₁ ++ (l₂ ++ (l ++ [tok]))).getLast? = (ts ++ [Token.rbrace]).getLast? := by
        rw [← happend, List.concat_eq_append]
      simp only [← List.append_assoc, List.getLast?_concat, Option.some.injEq] at hlast
      refine absurd (mem_of_punctuation_mem (d := '\x7d') rfl hts₂ ?_) hpost
      rw [hlast]
      simp
  subst hnil
  rcases step_punctuation_cases (c := '\x7d') rfl hstep with ⟨read, -, hr⟩ | ⟨l, hended, hr⟩
  · obtain ⟨rfl, rfl⟩ := Prod.mk.inj hr
    exact absurd hts₂ lexFrom_text_ne_nil
  · obtain ⟨rfl, rfl⟩ := Prod.mk.inj hr
    refine ⟨?_, hts₂⟩
    rw [lexFrom_eq_run, hrun, Option.bind_some, hended, Option.map_some]
    rw [List.append_nil, ← List.append_assoc] at happend
    rw [List.append_cancel_right happend]

end JsonLexer
