import IotAgent.Lib.Placeholders
import IotAgent.Rest.UpdateContext

/-!
The templates of commands.

A command of a device is a text in which `%s` stands for a parameter. Whether there are
enough parameters is decided by the percent signs of the text, and filled in are the `%s`.

* `fillInChecked`: the loop over the placeholders, with the reads of the parameters checked;
* `fillInChecked_eq`: it reads within the parameters when there is one for each placeholder,
  and then leaves the pieces of the template as they are;
* `transformCommand_isOk_iff`: a template is refused exactly for its percent signs;
* `substitutes_iff`: a command is right unless its template has placeholders for the
  parameters only and percent signs beyond them.
-/

namespace IotAgent

open Placeholders

namespace Plugin

/-! ### The loop over the placeholders -/

/-- The loop over the placeholders of a template; `none` where it reads behind the last
parameter. -/
def fillInChecked : List Char → List String → Option (List Char)
  | '%' :: 's' :: _, [] => none
  | '%' :: 's' :: cs, param :: params => (fillInChecked cs params).map (param.toList ++ ·)
  | c :: cs, params => (fillInChecked cs params).map (c :: ·)
  | [], _ => some []

/-- The parameters of a command. -/
def fields (updateCommandValue : String) : List String :=
  (updateCommandValue.toList.splitOn '|').map String.ofList

/-- How many placeholders a template has. -/
def placeholders (commandValue : String) : ℕ :=
  occurrences '%' 's' commandValue.toList

lemma fillIn_cons {c : Char} {cs : List Char} (h : ¬['%', 's'] <+: c :: cs)
    (params : List String) : fillIn (c :: cs) params = c :: fillIn cs params := by
  rw [fillIn]
  rintro cs' rfl rfl
  exact h (by simp)

lemma fillInChecked_cons {c : Char} {cs : List Char} (h : ¬['%', 's'] <+: c :: cs)
    (params : List String) :
    fillInChecked (c :: cs) params = (fillInChecked cs params).map (c :: ·) := by
  rw [fillInChecked] <;>
  · intros
    simp_all

/-- With a parameter for each placeholder, the loop stays within the parameters. -/
theorem fillInChecked_eq (template : List Char) (params : List String)
    (h : occurrences '%' 's' template ≤ params.length) :
    fillInChecked template params = some (fillIn template params) ∧
      fillIn template params = weave (cut '%' 's' template).1 (params.map String.toList)
        (cut '%' 's' template).2 := by
  induction template using marker_induction (a := '%') (b := 's') generalizing params with
  | nil => exact ⟨by rw [fillInChecked, fillIn], by rw [fillIn, cut_nil, weave_nil]⟩
  | marker cs ih =>
      rw [← length_cut (by decide), cut_marker, List.length_cons, length_cut (by decide)] at h
      cases params with
      | nil => simp at h
      | cons param params =>
          obtain ⟨hchecked, hweave⟩ := ih params (by simpa using h)
          refine ⟨?_, ?_⟩
          · rw [fillInChecked, hchecked]
            rfl
          · rw [fillIn, cut_marker, List.map_cons, weave_cons, ← hweave]
            rfl
  | cons c cs hc ih =>
      rw [← length_cut (by decide), cut_cons hc, length_cut (by decide)] at h
      obtain ⟨hchecked, hweave⟩ := ih params h
      refine ⟨?_, ?_⟩
      · rw [fillInChecked_cons hc, fillIn_cons hc, hchecked]
        rfl
      · rw [fillIn_cons hc, cut_cons hc, hweave, cons_weave]

/-- Without placeholders nothing is filled in. -/
lemma fillIn_of_occurrences_eq_zero {template : List Char} {params : List String}
    (h : occurrences '%' 's' template = 0) : fillIn template params = template := by
  have hcut : (cut '%' 's' template).2 = [] := by
    rw [← List.length_eq_zero_iff, length_cut (by decide), h]
  have htext := weave_cut (a := '%') (b := 's') template
  rw [(fillInChecked_eq template params (by omega)).2, hcut, weave_nil]
  rwa [hcut, weave_nil] at htext

/-! ### The body of a command -/

variable {uuid commandName commandValue updateCommandValue sequenceId : String}
  {itemDev : Device} {service : PTree}

/-- A text with percent signs for more than the parameters is refused. -/
lemma transformBody_eq_error (hne : commandValue ≠ "") (hraw : commandValue ≠ Types.raw)
    (h : (fields updateCommandValue).length < commandValue.toList.count '%') :
    ∃ e, transformBody commandValue updateCommandValue = .error e := by
  have hcount : commandValue.toList.count '%' ≠ 0 := by omega
  rw [transformBody, if_neg (by simp [hne, hraw])]
  exact ⟨_, by rw [if_neg hcount]; exact if_pos h⟩

/-- Any other is filled in. -/
lemma transformBody_eq_ok (hne : commandValue ≠ "") (hraw : commandValue ≠ Types.raw)
    (h : commandValue.toList.count '%' ≤ (fields updateCommandValue).length) :
    transformBody commandValue updateCommandValue =
      .ok [(StoreTypes.body,
        String.ofList (fillIn commandValue.toList (fields updateCommandValue)))] := by
  rw [transformBody, if_neg (by simp [hne, hraw])]
  by_cases hcount : commandValue.toList.count '%' = 0
  · have hzero : occurrences '%' 's' commandValue.toList = 0 := by
      have := occurrences_le_count (a := '%') (b := 's') commandValue.toList
      omega
    rw [fillIn_of_occurrences_eq_zero hzero, String.ofList_toList]
    exact if_pos hcount
  · exact (if_neg hcount).trans (if_neg (by rw [not_lt]; exact h))

/-- A template is refused when its percent signs are more than the parameters. -/
theorem transformCommand_isOk_iff (hne : commandValue ≠ "") (hraw : commandValue ≠ Types.raw) :
    (CommandHandle.transformCommand uuid commandName commandValue updateCommandValue sequenceId
      itemDev service).isOk ↔
        commandValue.toList.count '%' ≤ (fields updateCommandValue).length := by
  rw [CommandHandle.transformCommand]
  by_cases h : commandValue.toList.count '%' ≤ (fields updateCommandValue).length
  · simp [transformBody_eq_ok hne hraw h, h, Except.map, Except.isOk, Except.toBool]
  · obtain ⟨e, he⟩ := transformBody_eq_error hne hraw (Nat.lt_of_not_le h)
    simp [he, h, Except.map, Except.isOk, Except.toBool]

/-- What is made of a template that is filled in. -/
lemma transformCommand_body (hne : commandValue ≠ "") (hraw : commandValue ≠ Types.raw)
    {commandId : String} {commandLine : PTree}
    (h : CommandHandle.transformCommand uuid commandName commandValue updateCommandValue sequenceId
      itemDev service = .ok (commandId, commandLine)) :
    commandValue.toList.count '%' ≤ (fields updateCommandValue).length ∧
      commandLine.get StoreTypes.body "" =
        String.ofList (fillIn commandValue.toList (fields updateCommandValue)) := by
  have hcount := (transformCommand_isOk_iff hne hraw).mp (by rw [h]; rfl)
  refine ⟨hcount, ?_⟩
  rw [CommandHandle.transformCommand, transformBody_eq_ok hne hraw hcount] at h
  obtain ⟨-, rfl⟩ := Prod.mk.inj (Except.ok.inj h)
  rfl

/-! ### Substitution -/

/-- `body` is `template` with a field in the place of each of its placeholders. -/
def FilledIn (template body : String) (fields : List String) : Prop :=
  ∃ first pieces, pieces.length = placeholders template ∧
    template.toList = weave first (List.replicate (placeholders template) ['%', 's']) pieces ∧
    body.toList = weave first ((fields.take (placeholders template)).map String.toList) pieces

/-- What a command should be made of a template: it is refused when there are fewer fields
than placeholders, and else the template is filled in, with fields that are there. -/
structure Substitutes (template value : String)
    (result : Except IotaException (String × PTree)) : Prop where
  refused : ¬result.isOk ↔ (fields value).length < placeholders template
  body : ∀ commandId commandLine, result = .ok (commandId, commandLine) →
    FilledIn template (commandLine.get StoreTypes.body "") (fields value)
  inRange : ∀ commandId commandLine, result = .ok (commandId, commandLine) →
    fillInChecked template.toList (fields value) =
      some (commandLine.get StoreTypes.body "").toList

lemma filledIn_fillIn {template : String} {params : List String}
    (h : placeholders template ≤ params.length) :
    FilledIn template (String.ofList (fillIn template.toList params)) params := by
  have hlength : (cut '%' 's' template.toList).2.length = placeholders template :=
    length_cut (by decide) _
  refine ⟨(cut '%' 's' template.toList).1, (cut '%' 's' template.toList).2, hlength, ?_, ?_⟩
  · rw [← hlength, weave_cut]
  · rw [String.toList_ofList, (fillInChecked_eq template.toList params h).2, List.map_take,
      ← hlength, weave_take]

/-- A template with at most as many percent signs as there are parameters is filled in, and
one with more placeholders than parameters is refused; every other is refused although there
is a parameter for each of its placeholders. -/
theorem substitutes_iff (hne : commandValue ≠ "") (hraw : commandValue ≠ Types.raw) :
    Substitutes commandValue updateCommandValue
        (CommandHandle.transformCommand uuid commandName commandValue updateCommandValue sequenceId
          itemDev service) ↔
      commandValue.toList.count '%' ≤ (fields updateCommandValue).length ∨
        (fields updateCommandValue).length < placeholders commandValue := by
  have hle : placeholders commandValue ≤ commandValue.toList.count '%' :=
    occurrences_le_count _
  constructor
  · intro h
    by_contra hnot
    rw [not_or, not_le, not_lt] at hnot
    refine absurd (h.refused.mp ?_) (Nat.not_lt_of_le hnot.2)
    rw [transformCommand_isOk_iff hne hraw]
    exact Nat.not_le_of_lt hnot.1
  · intro h
    have hok := @transformCommand_isOk_iff uuid commandName commandValue updateCommandValue
      sequenceId itemDev service hne hraw
    refine ⟨⟨fun hno => ?_, fun hlt hyes => ?_⟩, ?_, ?_⟩
    · rw [hok] at hno
      exact h.resolve_left hno
    · have := hle.trans (hok.mp hyes)
      omega
    · intro commandId commandLine heq
      obtain ⟨hcount, hbody⟩ := transformCommand_body hne hraw heq
      rw [hbody]
      exact filledIn_fillIn (hle.trans hcount)
    · intro commandId commandLine heq
      obtain ⟨hcount, hbody⟩ := transformCommand_body hne hraw heq
      rw [hbody, String.toList_ofList]
      exact (fillInChecked_eq _ _ (hle.trans hcount)).1

theorem substitutes_iff_switch :
    ("set|%s" ≠ "" ∧ "set|%s" ≠ Types.raw) ∧
      (Substitutes "set|%s" "on"
          (CommandHandle.transformCommand "uuid" "set" "set|%s" "on" "1" {} []) ↔
        "set|%s".toList.count '%' ≤ (fields "on").length ∨
          (fields "on").length < placeholders "set|%s") :=
  ⟨⟨by decide, by decide⟩, substitutes_iff (by decide) (by decide)⟩

/-- A text with a percent sign of its own, one placeholder and one parameter. -/
theorem not_substitutes_percent :
    "50% of %s" ≠ "" ∧ "50% of %s" ≠ Types.raw ∧
      ¬Substitutes "50% of %s" "3"
        (CommandHandle.transformCommand "uuid" "dim" "50% of %s" "3" "1" {} []) := by
  refine ⟨by decide, by decide, fun h => ?_⟩
  have hno : ¬(CommandHandle.transformCommand "uuid" "dim" "50% of %s" "3" "1" {} []).isOk := by
    rw [transformCommand_isOk_iff (by decide) (by decide)]
    decide
  exact absurd (h.refused.mp hno) (by decide)

end Plugin

end IotAgent
