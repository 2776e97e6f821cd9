import IotAgent.UltraLight.TransformCommand

/-!
The parameters of a command, written in JSON.

* `stringMembers`: the members of an object whose values are all texts;
* `appendMembers_of_stringMembers`: the loop writes them in their order, with a bar between
  two of them;
* `Converts`: what the conversion is for;
* `converts_iff`: it is reached for every text except JSON that is not an object, an object
  with a NUL in its texts, and an object with something behind a NUL.
-/

namespace IotAgent

/-! ### The members of an object -/

/-- A member whose value is a text. -/
def stringMember : String × Json → Option (String × String)
  | (name, .string value) => some (name, value)
  | _ => none

/-- All members, when their values are texts. -/
def stringMembers (members : List (String × Json)) : Option (List (String × String)) :=
  members.mapM stringMember

/-- A parameter in UltraLight. -/
def ulParameter (parameter : String × String) : String :=
  parameter.1 ++ "=" ++ parameter.2

/-- The parameters in UltraLight. -/
def ulParameters (parameters : List (String × String)) : String :=
  "|".intercalate (parameters.map ulParameter)

/-- A parameter as it is read through pointers. -/
def cParameter (parameter : String × String) : String × String :=
  (Text.cString parameter.1, Text.cString parameter.2)

/-- A parameter that is read in full through pointers. -/
def Plain (parameter : String × String) : Prop :=
  '\x00' ∉ parameter.1.toList ∧ '\x00' ∉ parameter.2.toList

variable {parse : JsonParser} {v : String}

lemma stringMembers_cons (member : String × Json) (members : List (String × Json)) :
    stringMembers (member :: members) =
      (stringMember member).bind fun parameter =>
        (stringMembers members).map (parameter :: ·) := by
  rw [stringMembers, List.mapM_cons]
  cases stringMember member with
  | none => rfl
  | some parameter =>
      show (stringMembers members).bind (fun rest => some (parameter :: rest)) = _
      rw [Option.bind_some, Option.map_eq_bind]
      rfl

lemma stringMembers_isEmpty {members : List (String × Json)}
    {parameters : List (String × String)} (h : stringMembers members = some parameters) :
    parameters.isEmpty = members.isEmpty := by
  cases members with
  | nil =>
      obtain rfl : [] = parameters := by simpa [stringMembers] using h
      rfl
  | cons member members =>
      rw [stringMembers_cons] at h
      obtain ⟨parameter, -, h⟩ := Option.bind_eq_some_iff.mp h
      obtain ⟨rest, -, rfl⟩ := Option.map_eq_some_iff.mp h
      rfl

/-- The bars stand between the parameters. -/
lemma ulParameters_cons (parameter : String × String) (parameters : List (String × String)) :
    ulParameters (parameter :: parameters) =
      (if parameters.isEmpty then ulParameter parameter else ulParameter parameter ++ "|") ++
        ulParameters parameters := by
  cases parameters <;> simp [ulParameters]

/-- The loop over members that are texts. -/
theorem appendMembers_of_stringMembers {members : List (String × Json)}
    {parameters : List (String × String)} (h : stringMembers members = some parameters)
    (newValue : String) :
    appendMembers v newValue members =
      .ok (newValue ++ ulParameters (parameters.map cParameter)) := by
  induction members generalizing parameters newValue with
  | nil =>
      obtain rfl : [] = parameters := by simpa [stringMembers] using h
      simp [appendMembers, ulParameters]
  | cons member members ih =>
      rw [stringMembers_cons] at h
      obtain ⟨parameter, hparameter, h⟩ := Option.bind_eq_some_iff.mp h
      obtain ⟨rest, hrest, rfl⟩ := Option.map_eq_some_iff.mp h
      obtain ⟨name, value⟩ := member
      cases value with
      | string value =>
          obtain rfl : (name, value) = parameter := by simpa [stringMember] using hparameter
          rw [appendMembers, ih hrest, List.map_cons, ulParameters_cons, List.isEmpty_map,
            stringMembers_isEmpty hrest, cParameter, ulParameter]
          split <;> simp only [String.append_assoc]
      | _ => simp [stringMember] at hparameter

/-- The loop over members of which one is no text. -/
theorem appendMembers_of_not_stringMembers {members : List (String × Json)}
    (h : stringMembers members = none) (newValue : String) :
    ∃ e, appendMembers v newValue members = .error (.exception e) := by
  induction members generalizing newValue with
  | nil => simp [stringMembers] at h
  | cons member members ih =>
      obtain ⟨name, value⟩ := member
      cases value with
      | string value =>
          rw [stringMembers_cons] at h
          exact ih (by simpa [stringMember] using h) _
      | _ => exact ⟨_, rfl⟩

/-! ### What is read through pointers -/

lemma cString_plain {s : String} : '\x00' ∉ (Text.cString s).toList := by
  rw [Text.cString, String.toList_ofList]
  intro hmem
  exact absurd (List.mem_takeWhile_imp hmem) (by simp)

/-- A character that is no separator is in the parameters when it is in one of them. -/
lemma mem_ulParameters {c : Char} (heq : c ≠ '=') (hbar : c ≠ '|')
    {parameters : List (String × String)} :
    c ∈ (ulParameters parameters).toList ↔
      ∃ parameter ∈ parameters, c ∈ parameter.1.toList ∨ c ∈ parameter.2.toList := by
  induction parameters with
  | nil => simp [ulParameters]
  | cons parameter parameters ih =>
      rw [ulParameters_cons, String.toList_append, List.mem_append, ih]
      have hone : c ∈ (ulParameter parameter).toList ↔
          c ∈ parameter.1.toList ∨ c ∈ parameter.2.toList := by
        simp [ulParameter, heq]
      split <;> simp [hone, hbar]

lemma cParameter_of_plain {parameter : String × String} (h : Plain parameter) :
    cParameter parameter = parameter := by
  rw [cParameter, Text.cString_eq_self_iff.mpr h.1, Text.cString_eq_self_iff.mpr h.2]

/-- Nothing is lost when there is nothing behind a NUL. -/
lemma ulParameters_cParameter_iff {parameters : List (String × String)} :
    ulParameters (parameters.map cParameter) = ulParameters parameters ↔
      ∀ parameter ∈ parameters, Plain parameter := by
  have hcut : '\x00' ∉ (ulParameters (parameters.map cParameter)).toList := by
    rw [mem_ulParameters (by decide) (by decide)]
    rintro ⟨parameter, hmem, hin⟩
    obtain ⟨parameter, -, rfl⟩ := List.mem_map.mp hmem
    exact hin.elim cString_plain cString_plain
  constructor
  · intro heq parameter hmem
    rw [heq, mem_ulParameters (by decide) (by decide)] at hcut
    refine ⟨fun h => hcut ⟨parameter, hmem, Or.inl h⟩, fun h => hcut ⟨parameter, hmem, Or.inr h⟩⟩
  · intro hplain
    rw [List.map_congr_left fun parameter hmem => cParameter_of_plain (hplain parameter hmem),
      List.map_id']

/-! ### The conversion -/

/-- The document of a text. There is none with a NUL in it; what the parser reads of such a
text is the part before. -/
def jsonOf (parse : JsonParser) (v : String) : Option Json :=
  if '\x00' ∈ v.toList then none else parse v

/-- The parameters that a document stands for. -/
def parametersOf : Json → Option (List (String × String))
  | .object members => stringMembers members
  | _ => none

/-- What a conversion should be: an object of texts becomes parameters, what is not JSON
stays, all other JSON is refused, and members are read of objects only. -/
structure Converts (parse : JsonParser) (v : String) (result : Except TransformFailure String) :
    Prop where
  converted : ∀ json parameters, jsonOf parse v = some json →
    parametersOf json = some parameters → result = .ok (ulParameters parameters)
  unchanged : jsonOf parse v = none → result = .ok v
  refused : ∀ json, jsonOf parse v = some json → parametersOf json = none →
    ∃ e, result = .error (.exception e)
  onlyObjects : result ≠ .error .assertion

/-- A text whose conversion goes right: what the parser reads of it is no document, or it is
all of the text, an object, and its texts are read in full. -/
def Convertible (parse : JsonParser) (v : String) : Prop :=
  match parse v with
  | none => True
  | some (.object members) => '\x00' ∉ v.toList ∧
      ∀ parameters, stringMembers members = some parameters →
        ∀ parameter ∈ parameters, Plain parameter
  | some _ => False

lemma jsonOf_of_not_mem (h : '\x00' ∉ v.toList) : jsonOf parse v = parse v :=
  if_neg h

lemma jsonOf_of_mem (h : '\x00' ∈ v.toList) : jsonOf parse v = none :=
  if_pos h

lemma ne_empty_of_json {json : Json} (hempty : parse "" = none) (h : parse v = some json) :
    v ≠ "" := by
  rintro rfl
  exact absurd (h.symm.trans hempty) (by simp)

lemma jsonValueToUl_of_object {members : List (String × Json)} (hempty : parse "" = none)
    (h : parse v = some (.object members)) :
    jsonValueToUl parse v = appendMembers v "" members := by
  rw [jsonValueToUl, if_neg (ne_empty_of_json hempty h), h]

/-- Members are asked of any document. -/
lemma jsonValueToUl_of_not_object {json : Json} (hempty : parse "" = none)
    (h : parse v = some json) (hobject : ∀ members, json ≠ .object members) :
    jsonValueToUl parse v = .error .assertion := by
  rw [jsonValueToUl, if_neg (ne_empty_of_json hempty h), h]
  cases json with
  | object members => exact absurd rfl (hobject members)
  | _ => rfl

/-- What is read as no document stays as it is. -/
lemma converts_of_none (h : parse v = none) : Converts parse v (jsonValueToUl parse v) := by
  have hnone : jsonOf parse v = none := by
    rw [jsonOf, h, ite_self]
  have hok := jsonValueToUl_of_not_json h
  refine ⟨fun json parameters hjson => ?_, fun _ => hok, fun json hjson => ?_, ?_⟩
  · rw [hnone] at hjson
    exact absurd hjson (by simp)
  · rw [hnone] at hjson
    exact absurd hjson (by simp)
  · rw [hok]
    simp

/-- An object of texts. -/
lemma converts_of_parameters {members : List (String × Json)}
    {parameters : List (String × String)} (h : parse v = some (.object members))
    (hresult : jsonValueToUl parse v = appendMembers v "" members)
    (hparameters : stringMembers members = some parameters) :
    Converts parse v (jsonValueToUl parse v) ↔
      '\x00' ∉ v.toList ∧ ∀ parameter ∈ parameters, Plain parameter := by
  rw [hresult, appendMembers_of_stringMembers hparameters, String.empty_append,
    ← ulParameters_cParameter_iff]
  by_cases hnul : '\x00' ∈ v.toList
  · -- the value itself would have to come out
    refine iff_of_false (fun hconverts => ?_) fun hand => hand.1 hnul
    have heq := Except.ok.inj (hconverts.unchanged (jsonOf_of_mem hnul))
    rw [← heq, mem_ulParameters (by decide) (by decide)] at hnul
    obtain ⟨parameter, hmem, hin⟩ := hnul
    obtain ⟨parameter, -, rfl⟩ := List.mem_map.mp hmem
    exact hin.elim cString_plain cString_plain
  · have hjson : jsonOf parse v = some (.object members) := (jsonOf_of_not_mem hnul).trans h
    constructor
    · intro hconverts
      exact ⟨hnul, Except.ok.inj (hconverts.converted _ _ hjson hparameters)⟩
    · rintro ⟨-, heq⟩
      refine ⟨fun json read hread hof => ?_, fun hnone => ?_, fun json hread hof => ?_, by simp⟩
      · obtain rfl := Option.some.inj (hjson.symm.trans hread)
        obtain rfl := Option.some.inj (hparameters.symm.trans hof)
        rw [heq]
      · exact absurd (hjson.symm.trans hnone) (by simp)
      · obtain rfl := Option.some.inj (hjson.symm.trans hread)
        exact absurd (hparameters.symm.trans hof) (by simp)

/-- An object with something else than texts. -/
lemma converts_of_not_parameters {members : List (String × Json)}
    (h : parse v = some (.object members))
    (hresult : jsonValueToUl parse v = appendMembers v "" members)
    (hparameters : stringMembers members = none) :
    Converts parse v (jsonValueToUl parse v) ↔ '\x00' ∉ v.toList := by
  obtain ⟨e, he⟩ := appendMembers_of_not_stringMembers hparameters "" (v := v)
  rw [hresult, he]
  constructor
  · intro hconverts hnul
    exact absurd (hconverts.unchanged (jsonOf_of_mem hnul)) (by simp)
  · intro hnul
    have hjson : jsonOf parse v = some (.object members) := (jsonOf_of_not_mem hnul).trans h
    refine ⟨fun json read hread hof => ?_, fun hnone => ?_, fun json _ _ => ⟨e, rfl⟩, by simp⟩
    · obtain rfl := Option.some.inj (hjson.symm.trans hread)
      exact absurd (hparameters.symm.trans hof) (by simp)
    · exact absurd (hjson.symm.trans hnone) (by simp)

/-- **The conversion is right** for texts that are no JSON and for objects, as long as no NUL
hides a part of them; all other JSON ends in an assertion. The empty text is no JSON. -/
theorem converts_iff (parse : JsonParser) (v : String) (hempty : parse "" = none) :
    Converts parse v (jsonValueToUl parse v) ↔ Convertible parse v := by
  cases h : parse v with
  | none =>
      rw [Convertible, h]
      exact iff_of_true (converts_of_none h) trivial
  | some json =>
      rw [Convertible, h]
      cases json with
      | object members =>
          have hresult := jsonValueToUl_of_object hempty h
          cases hparameters : stringMembers members with
          | none => simpa [hparameters] using converts_of_not_parameters h hresult hparameters
          | some parameters =>
              simpa [hparameters] using converts_of_parameters h hresult hparameters
      | _ =>
          have hresult := jsonValueToUl_of_not_object hempty h (by simp)
          exact iff_of_false (fun hconverts => hconverts.onlyObjects hresult) id

/-- A parser that knows an object of two texts and an array. -/
def sampleParse : JsonParser := fun v =>
  if v = "\x7b\"id\":\"7\",\"on\":\"true\"\x7d" then
    some (.object [("id", .string "7"), ("on", .string "true")])
  else if v = "[\"7\"]" then some (.array [.string "7"])
  else none

theorem converts_iff_sample :
    sampleParse "" = none ∧
      (Converts sampleParse "\x7b\"id\":\"7\",\"on\":\"true\"\x7d"
          (jsonValueToUl sampleParse "\x7b\"id\":\"7\",\"on\":\"true\"\x7d") ↔
        Convertible sampleParse "\x7b\"id\":\"7\",\"on\":\"true\"\x7d") :=
  ⟨by decide, converts_iff sampleParse _ (by decide)⟩

/-- An array. -/
theorem not_converts_array :
    sampleParse "" = none ∧
      ¬Converts sampleParse "[\"7\"]" (jsonValueToUl sampleParse "[\"7\"]") := by
  refine ⟨by decide, fun hconverts => hconverts.onlyObjects ?_⟩
  have hread : sampleParse "[\"7\"]" = some (.array [.string "7"]) := rfl
  exact jsonValueToUl_of_not_object (by decide) hread (by simp)

end IotAgent
