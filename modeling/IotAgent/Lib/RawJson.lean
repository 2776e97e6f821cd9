import IotAgent.Lib.JsonTexts

/-!
JSON texts that are put together by hand, out of texts between quotes.

A part of such a text means some tokens if it is read as them, in front of anything. A text that
is put between quotes as it is means itself exactly if its letters are plain, and what is put
together of parts means what they mean exactly if all of them do.

* `Means`: the condition under which a part is read as it is meant;
* `Means.append`, `means_of_run`, `means_quoted`: parts, and what they are made of;
* `means_array`, `means_object`: the items of an array and the members of an object;
* `reads_iff_of_means`: a whole text.
-/

namespace JsonLexer

variable {P Q : Prop} {cs cs' : List Char} {l l' : List Token}

/-- A part that is read as the given tokens, whatever stands behind it, exactly if the condition
holds. -/
def Means (P : Prop) (cs : List Char) (l : List Token) : Prop :=
  ∀ t ts, lexFrom (.between false) (cs ++ t) = some (l ++ ts) ↔
    P ∧ lexFrom (.between false) t = some ts

lemma Means.congr (h : Means P cs l) (hiff : P ↔ Q) (hcs : cs = cs') (hl : l = l') :
    Means Q cs' l' := by
  subst hcs hl
  exact fun t ts => (h t ts).trans (and_congr_left fun _ => hiff)

lemma Means.append (h : Means P cs l) (h' : Means Q cs' l') :
    Means (P ∧ Q) (cs ++ cs') (l ++ l') := by
  intro t ts
  rw [List.append_assoc, List.append_assoc, h, h', and_assoc]

lemma means_of_run (h : run (.between false) cs = some (.between false, l)) : Means True cs l := by
  intro t ts
  rw [lexFrom_append_of_run h, map_append_eq_some_iff, true_and]

lemma means_nil : Means True [] [] :=
  means_of_run rfl

/-- A part in front that is fixed. -/
lemma Means.cons_run (hrun : run (.between false) cs = some (.between false, l))
    (h : Means Q cs' l') : Means Q (cs ++ cs') (l ++ l') :=
  ((means_of_run hrun).append h).congr (iff_of_eq (true_and Q)) rfl rfl

/-- A part behind that is fixed. -/
lemma Means.append_run (h : Means P cs l)
    (hrun : run (.between false) cs' = some (.between false, l')) :
    Means P (cs ++ cs') (l ++ l') :=
  (h.append (means_of_run hrun)).congr (iff_of_eq (and_true P)) rfl rfl

/-- A text that is put between quotes as it is. -/
lemma means_quoted (e : List Char) :
    Means (∀ c ∈ e, Plain c) (quoted e) [.string (units e)] := by
  intro t ts
  exact lexFrom_raw_iff (show run (.between false) [] = some (.between false, []) from rfl)

end JsonLexer

namespace JsonValue

open JsonLexer

variable {α : Type*} {P : α → Prop} {text : α → List Char} {value : α → JsonValue} {as : List α}
  {name : α → List Char}

/-- Texts with commas between them. -/
def commas (text : α → List Char) : List α → List Char
  | [] => []
  | a :: as => text a ++ as.flatMap fun a => ',' :: text a

lemma means_restItems (h : ∀ a ∈ as, Means (P a) (text a) (value a).tokens) :
    Means (∀ a ∈ as, P a) (as.flatMap fun a => ',' :: text a) (restItems (as.map value)) := by
  induction as with
  | nil => exact means_nil.congr (by simp) rfl rfl
  | cons a as ih =>
      obtain ⟨ha, has⟩ := List.forall_mem_cons.mp h
      refine ((Means.cons_run (run_mark (show punctuation ',' = _ from rfl)) ha).append
        (ih has)).congr (List.forall_mem_cons.symm) ?_ ?_
      · rw [List.flatMap_cons]
        rfl
      · rw [List.map_cons, restItems]
        rfl

/-- The items of an array, with commas between them. -/
theorem means_array (h : ∀ a ∈ as, Means (P a) (text a) (value a).tokens) :
    Means (∀ a ∈ as, P a) ('[' :: (commas text as ++ [']'])) (array (as.map value)).tokens := by
  have hopen : run (.between false) ['['] = some (.between false, [.lbracket]) := rfl
  have hclose : run (.between false) [']'] = some (.between false, [.rbracket]) := rfl
  have hitems : Means (∀ a ∈ as, P a) (commas text as) (itemsTokens (as.map value)) := by
    cases as with
    | nil => exact means_nil.congr (by simp) rfl rfl
    | cons a as =>
        obtain ⟨ha, has⟩ := List.forall_mem_cons.mp h
        exact (ha.append (means_restItems has)).congr List.forall_mem_cons.symm rfl rfl
  exact ((hitems.append_run hclose).cons_run hopen).congr Iff.rfl rfl (tokens_array _).symm

/-- A name and a value. -/
lemma means_member {P : Prop} {cs e : List Char} {v : JsonValue} (he : ∀ c ∈ e, Plain c)
    (h : Means P cs v.tokens) :
    Means P (quoted e ++ ':' :: cs) (.string (units e) :: .colon :: v.tokens) := by
  have hcolon : run (.between false) [':'] = some (.between false, [.colon]) := rfl
  exact ((means_quoted e).append (h.cons_run hcolon)).congr (and_iff_right he) rfl rfl

/-- The members of an object, with commas between them. -/
theorem means_object (hname : ∀ a ∈ as, ∀ c ∈ name a, Plain c)
    (h : ∀ a ∈ as, Means (P a) (text a) (value a).tokens) :
    Means (∀ a ∈ as, P a)
      ('\x7b' :: (commas (fun a => quoted (name a) ++ ':' :: text a) as ++ ['\x7d']))
      (object (as.map fun a => (units (name a), value a))).tokens := by
  have hopen : run (.between false) ['\x7b'] = some (.between false, [.lbrace]) := rfl
  have hclose : run (.between false) ['\x7d'] = some (.between false, [.rbrace]) := rfl
  have hrest : ∀ as : List α, (∀ a ∈ as, ∀ c ∈ name a, Plain c) →
      (∀ a ∈ as, Means (P a) (text a) (value a).tokens) →
      Means (∀ a ∈ as, P a) (as.flatMap fun a => ',' :: (quoted (name a) ++ ':' :: text a))
        (restMembers (as.map fun a => (units (name a), value a))) := by
    intro as hname h
    induction as with
    | nil => exact means_nil.congr (by simp) rfl rfl
    | cons a as ih =>
        obtain ⟨hn, hnames⟩ := List.forall_mem_cons.mp hname
        obtain ⟨ha, has⟩ := List.forall_mem_cons.mp h
        refine ((Means.cons_run (run_mark (show punctuation ',' = _ from rfl))
          (means_member hn ha)).append (ih hnames has)).congr List.forall_mem_cons.symm ?_ ?_
        · rw [List.flatMap_cons]
          rfl
        · rw [List.map_cons, restMembers]
          rfl
  have hmembers : Means (∀ a ∈ as, P a) (commas (fun a => quoted (name a) ++ ':' :: text a) as)
      (membersTokens (as.map fun a => (units (name a), value a))) := by
    cases as with
    | nil => exact means_nil.congr (by simp) rfl rfl
    | cons a as =>
        obtain ⟨hn, hnames⟩ := List.forall_mem_cons.mp hname
        obtain ⟨ha, has⟩ := List.forall_mem_cons.mp h
        exact ((means_member hn ha).append (hrest as hnames has)).congr List.forall_mem_cons.symm
          rfl rfl
  exact ((hmembers.append_run hclose).cons_run hopen).congr Iff.rfl rfl (tokens_object_eq _).symm

/-- A whole text. -/
theorem reads_iff_of_means {P : Prop} {cs : List Char} {v : JsonValue}
    (h : Means P cs v.tokens) : Reads cs v ↔ P := by
  have hwhole := h [] []
  rw [List.append_nil, List.append_nil] at hwhole
  exact hwhole.trans (and_iff_left rfl)

end JsonValue
