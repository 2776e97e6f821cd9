import IotAgent.Lib.JsonCuts
import IotAgent.Lib.JsonNesting
import Mathlib.Data.List.TakeWhile

/-!
JSON texts that are put together of parts.

A part is read from one place between two tokens to another one, if a condition holds, and else
it spoils every text that it is in.

* `Yields`: the condition and the tokens of a part;
* `Yields.append`, `yields_blank`, `yields_mark`, `yields_quoted`, `yields_number`: parts, and what
  they are made of;
* `Edited`: parts of a text that is changed as a whole;
* `lexFrom_rawText_iff`: a text that is put between quotes without a writer;
* `JsonValue.reads_iff_of_yields`: the text of a value.
-/

namespace JsonLexer

variable {P Q : Prop} {c : Char} {cs t : List Char} {tok : Token} {l l' : List Token}

/-- The reader comes over a part exactly if the condition holds, and these are its tokens then. -/
structure Yields (P : Prop) (cs : List Char) (l : List Token) : Prop where
  run_of : P → run (.between false) cs = some (.between false, l)
  run_of_not : ¬ P → run (.between false) cs = none

lemma Yields.congr (h : Yields P cs l) (hiff : P ↔ Q) (hl : l = l') : Yields Q cs l' :=
  hl ▸ ⟨fun hQ => h.run_of (hiff.mpr hQ), fun hQ => h.run_of_not fun hP => hQ (hiff.mp hP)⟩

lemma Yields.append (h : Yields P cs l) (h' : Yields Q t l') :
    Yields (P ∧ Q) (cs ++ t) (l ++ l') where
  run_of hPQ := by
    rw [run_append_of_run (h.run_of hPQ.1), h'.run_of hPQ.2, Option.map_some]
  run_of_not hPQ := by
    by_cases hP : P
    · rw [run_append_of_run (h.run_of hP), h'.run_of_not fun hQ => hPQ ⟨hP, hQ⟩, Option.map_none]
    · rw [run_append, h.run_of_not hP, Option.bind_none]

lemma yields_of_run (h : run (.between false) cs = some (.between false, l)) :
    Yields True cs l :=
  ⟨fun _ => h, fun hnot => absurd trivial hnot⟩

lemma yields_blank (h : Blank cs) : Yields True cs [] :=
  yields_of_run (run_blank h false)

lemma yields_nil : Yields True [] [] :=
  yields_of_run rfl

lemma run_mark (hc : punctuation c = some tok) :
    run (.between false) [c] = some (.between false, [tok]) := by
  obtain ⟨l, hl⟩ : ∃ l, ended (.between false) = some l := ⟨_, rfl⟩
  have hstep := step_punctuation hl hc
  obtain rfl := Option.some.inj hl
  rw [run, hstep]
  rfl

lemma yields_mark (hc : punctuation c = some tok) :
    Yields True [c] [tok] :=
  yields_of_run (run_mark hc)

/-! ### Strings -/

/-- Letters that are written with escapes, each by itself, and can be if they are good. -/
structure Escapes (good : Char → Prop) (esc : Char → List Char) : Prop where
  run_of : ∀ c, good c → ∀ read, run (.text read) (esc c) = some (.text (read ++ unitsOf c), [])
  run_of_not : ∀ c, ¬ good c → ∀ read, run (.text read) (esc c) = none

variable {good : Char → Prop} {esc : Char → List Char}

lemma Escapes.run_flatMap (h : Escapes good esc) {s : List Char} (hs : ∀ c ∈ s, good c)
    (read : List ℕ) : run (.text read) (s.flatMap esc) = some (.text (read ++ units s), []) := by
  induction s generalizing read with
  | nil => simp [run, units]
  | cons c s ih =>
      obtain ⟨hc, hs⟩ := List.forall_mem_cons.mp hs
      rw [List.flatMap_cons, run_append_of_run (h.run_of c hc read), ih hs, units_cons,
        List.append_assoc]
      rfl

lemma Escapes.run_quote (h : Escapes good esc) {s : List Char} (hs : ∀ c ∈ s, good c)
    (read : List ℕ) : run (.text read) (s.flatMap esc ++ ['"']) =
      some (.between false, [.string (read ++ units s)]) := by
  rw [run_append_of_run (h.run_flatMap hs read)]
  rfl

lemma Escapes.run_quote_of_not (h : Escapes good esc) {s : List Char} (hs : ¬ ∀ c ∈ s, good c)
    (read : List ℕ) : run (.text read) (s.flatMap esc ++ ['"']) = none := by
  induction s generalizing read with
  | nil => exact absurd (fun _ hc => absurd hc List.not_mem_nil) hs
  | cons c s ih =>
      rw [List.forall_mem_cons, not_and] at hs
      rw [List.flatMap_cons, List.append_assoc]
      by_cases hc : good c
      · rw [run_append_of_run (h.run_of c hc read), ih (hs hc), Option.map_none]
      · rw [run_append, h.run_of_not c hc, Option.bind_none]

/-- A string in quotes. -/
lemma Escapes.yields_quoted (h : Escapes good esc) (s : List Char) :
    Yields (∀ c ∈ s, good c) (quoted (s.flatMap esc)) [.string (units s)] where
  run_of hs := by
    rw [quoted, run, show step (.between false) '"' = some (.text [], []) from rfl,
      Option.bind_some, h.run_quote hs]
    rfl
  run_of_not hs := by
    rw [quoted, run, show step (.between false) '"' = some (.text [], []) from rfl,
      Option.bind_some, h.run_quote_of_not hs, Option.map_none]

/-! ### Numbers -/

lemma mem_of_mem_takeWhile_append {p : Char → Bool} (htake : ∀ c, p c = true → c ∈ numberLetters)
    (hdrop : ∀ c ∈ cs.dropWhile p, c ∈ numberLetters) : ∀ c ∈ cs, c ∈ numberLetters := by
  intro c hc
  rw [← List.takeWhile_append_dropWhile (p := p) (l := cs), List.mem_append] at hc
  exact hc.elim (fun h => htake c (List.mem_takeWhile_imp h)) (hdrop c)

lemma mem_of_mem_digits (h : c ∈ digits) : c ∈ numberLetters :=
  List.mem_append_left _ h

lemma mem_of_validExponent (h : validExponent cs = true) : ∀ c ∈ cs, c ∈ numberLetters := by
  cases cs with
  | nil => exact fun _ hc => absurd hc List.not_mem_nil
  | cons e cs =>
      have hdigits : ∀ cs : List Char, cs.all (· ∈ digits) = true → ∀ c ∈ cs, c ∈ numberLetters :=
        fun cs hcs c hc => mem_of_mem_digits (of_all hcs hc)
      rw [validExponent.eq_def] at h
      dsimp only at h
      split at h
      all_goals
        simp only [decide_eq_true_eq] at h
        obtain ⟨he, -, hrest⟩ := h
        refine List.forall_mem_cons.mpr ⟨by rcases he with rfl | rfl <;> decide, ?_⟩
      · exact List.forall_mem_cons.mpr ⟨by decide, hdigits _ hrest⟩
      · exact List.forall_mem_cons.mpr ⟨by decide, hdigits _ hrest⟩
      · exact hdigits _ hrest

lemma mem_of_validFraction (h : validFraction cs = true) : ∀ c ∈ cs, c ∈ numberLetters := by
  rw [validFraction.eq_def] at h
  split at h
  · simp only [decide_eq_true_eq] at h
    exact List.forall_mem_cons.mpr ⟨by decide, mem_of_mem_takeWhile_append
      (fun c hc => mem_of_mem_digits (of_decide_eq_true hc)) (mem_of_validExponent h.2)⟩
  · exact mem_of_validExponent h

/-- What a number is made of. -/
lemma exists_of_validNumber (h : validNumber cs = true) :
    ∃ a as, cs = a :: as ∧ (a = '-' ∨ a ∈ digits) ∧ ∀ c ∈ as, c ∈ numberLetters := by
  have hinteger : ∀ cs : List Char, cs.takeWhile (· ∈ digits) ≠ [] →
      validFraction (cs.dropWhile (· ∈ digits)) = true →
      ∃ a as, cs = a :: as ∧ a ∈ digits ∧ ∀ c ∈ as, c ∈ numberLetters := by
    intro cs hne hfraction
    cases cs with
    | nil => exact absurd rfl hne
    | cons a as =>
        have hall := mem_of_mem_takeWhile_append
          (fun c hc => mem_of_mem_digits (of_decide_eq_true hc)) (mem_of_validFraction hfraction)
        have ha : a ∈ digits := by
          by_contra hnot
          exact hne (List.takeWhile_cons_of_neg (by simpa using hnot))
        exact ⟨a, as, rfl, ha, (List.forall_mem_cons.mp hall).2⟩
  rw [validNumber.eq_def] at h
  dsimp only at h
  split at h
  all_goals
    simp only [decide_eq_true_eq] at h
    obtain ⟨hne, -, hfraction⟩ := h
  · next cs =>
      obtain ⟨a, as, rfl, ha, has⟩ := hinteger cs hne hfraction
      exact ⟨'-', _, rfl, .inl rfl, List.forall_mem_cons.mpr ⟨mem_of_mem_digits ha, has⟩⟩
  · obtain ⟨a, as, rfl, ha, has⟩ := hinteger _ hne hfraction
    exact ⟨a, as, rfl, .inr ha, has⟩

lemma run_number (h : ∀ c ∈ cs, c ∈ numberLetters) (text : List Char) :
    run (.number text) cs = some (.number (text ++ cs), []) := by
  induction cs generalizing text with
  | nil => rw [run, List.append_nil]
  | cons c cs ih =>
      obtain ⟨hc, hcs⟩ := List.forall_mem_cons.mp h
      rw [run, step, if_pos hc, Option.bind_some, ih hcs, Option.map_some, List.append_assoc]
      rfl

/-- A number with a mark behind it. -/
lemma yields_number (h : validNumber cs = true) (hc : punctuation c = some tok) :
    Yields True (cs ++ [c]) [.number cs, tok] := by
  obtain ⟨a, as, rfl, ha, has⟩ := exists_of_validNumber h
  have hfirst : step (.between false) a = some (.number [a], []) := by
    have hall : ('-' :: digits).all
        (fun a => step (.between false) a = some (.number [a], [])) = true := rfl
    exact of_all hall (List.mem_cons.mpr ha)
  have hended : ended (.number (a :: as)) = some [.number (a :: as)] := if_pos h
  refine yields_of_run ?_
  rw [List.cons_append, run, hfirst, Option.bind_some, run_append_of_run (run_number has [a]),
    List.singleton_append, run, step_punctuation hended hc]
  rfl

/-! ### Changes of a text -/

/-- Behind a change of the whole text, a part of it is read so. -/
def Edited (edit : List Char → List Char) (P : Prop) (cs : List Char) (l : List Token) : Prop :=
  ∃ w, (∀ t, edit (cs ++ t) = w ++ edit t) ∧ Yields P w l

variable {edit : List Char → List Char}

lemma Edited.congr (h : Edited edit P cs l) (hiff : P ↔ Q) (hl : l = l') : Edited edit Q cs l' :=
  h.imp fun _ hw => ⟨hw.1, hw.2.congr hiff hl⟩

lemma Edited.append (h : Edited edit P cs l) (h' : Edited edit Q t l') :
    Edited edit (P ∧ Q) (cs ++ t) (l ++ l') := by
  obtain ⟨w, hw, hyields⟩ := h
  obtain ⟨w', hw', hyields'⟩ := h'
  exact ⟨w ++ w', fun t => by rw [List.append_assoc, hw, hw', List.append_assoc],
    hyields.append hyields'⟩

/-- What is left as it is. -/
lemma Edited.of_yields {p : Char → Prop} (hedit : ∀ c t, p c → edit (c :: t) = c :: edit t)
    (hcs : ∀ c ∈ cs, p c) (h : Yields P cs l) : Edited edit P cs l := by
  refine ⟨cs, fun t => ?_, h⟩
  clear h
  induction cs with
  | nil => rfl
  | cons c cs ih =>
      obtain ⟨hc, hcs⟩ := List.forall_mem_cons.mp hcs
      rw [List.cons_append, hedit c _ hc, ih hcs]
      rfl

/-- The whole text. -/
lemma Edited.yields (h : Edited edit P cs l) (hnil : edit [] = []) : Yields P (edit cs) l := by
  obtain ⟨w, hw, hyields⟩ := h
  have hwhole := hw []
  rw [List.append_nil, hnil, List.append_nil] at hwhole
  rwa [hwhole]

/-! ### Texts that are put between quotes as they are -/

variable {e : List Char} {ts : List Token}

/-- A text behind a quote is read as itself exactly when all its letters are plain. -/
theorem lexFrom_rawText_iff :
    lexFrom (.text []) (e ++ '"' :: t) = some (.string (units e) :: ts) ↔
      (∀ c ∈ e, Plain c) ∧ lexFrom (.between false) t = some ts := by
  constructor
  · intro h
    obtain ⟨r, us, t', ts', hcs, hbody, hts, hrest⟩ := lexFrom_text h
    obtain ⟨hstring, rfl⟩ := List.cons.inj hts
    obtain rfl : units e = us := by simpa using hstring
    obtain ⟨hle, heq⟩ := hbody.length_le
    rcases List.append_eq_append_iff.mp hcs with ⟨a, hr, ha⟩ | ⟨a, hr, ha⟩
    · cases a with
      | cons c a =>
          -- the quote behind the text was read as part of it: one quote too many
          obtain ⟨rfl, -⟩ := List.cons.inj ha
          have hcount := hbody.count_le
          rw [hr, List.count_append, List.count_cons_self, count_units] at hcount
          omega
      | nil =>
          rw [List.append_nil] at hr
          obtain ⟨-, rfl⟩ := List.cons.inj ha
          subst hr
          exact ⟨(heq rfl).2, hrest⟩
    · -- the string ended within the text: what is read is too short for a proper part
      have hsplit : (units e).length = (units r).length + (units a).length := by
        rw [hr, units_append, List.length_append]
      have hnil : a = [] := by
        have := length_le_length_units a
        exact List.length_eq_zero_iff.mp (by omega)
      subst hnil
      rw [List.append_nil] at hr
      obtain ⟨-, rfl⟩ := List.cons.inj ha
      subst hr
      exact ⟨(heq rfl).2, hrest⟩
  · rintro ⟨hplain, hrest⟩
    rw [lexFrom_text_of_plain hplain, hrest]
    rfl

/-- The same behind a part that ends between two tokens. -/
lemma lexFrom_raw_iff {front : List Char} (hfront : run (.between false) front =
    some (.between false, l)) :
    lexFrom (.between false) (front ++ quoted e ++ t) = some (l ++ .string (units e) :: ts) ↔
      (∀ c ∈ e, Plain c) ∧ lexFrom (.between false) t = some ts := by
  have hopen : step (.between false) '"' = some (.text [], []) := rfl
  have hquoted : quoted e ++ t = '"' :: (e ++ '"' :: t) := by simp [quoted]
  rw [List.append_assoc, lexFrom_append_of_run hfront, map_append_eq_some_iff, hquoted,
    lexFrom_cons_of_step hopen, ← lexFrom_rawText_iff]
  simp only [List.nil_append, Option.map_id']

end JsonLexer

/-! ### Values -/

namespace JsonValue

open JsonLexer

variable {P : Prop} {cs : List Char} {v w : JsonValue}

/-- A whole text is one of a value exactly if the condition holds, and else of none. -/
theorem reads_iff_of_yields (h : Yields P cs v.tokens) : Reads cs w ↔ P ∧ v = w := by
  constructor
  · intro hw
    by_cases hP : P
    · have hv : Reads cs v := by
        rw [Reads, lex, lexFrom_eq_run, h.run_of hP]
        exact congrArg some (List.append_nil _)
      exact ⟨hP, hv.inj hw⟩
    · rw [Reads, lex, lexFrom_eq_run, h.run_of_not hP] at hw
      cases hw
  · rintro ⟨hP, rfl⟩
    rw [Reads, lex, lexFrom_eq_run, h.run_of hP]
    exact congrArg some (List.append_nil _)

end JsonValue
