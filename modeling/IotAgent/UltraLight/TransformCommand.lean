import IotAgent.Rest.UpdateContext
import IotAgent.UltraLight.Ul20Service
import IotAgent.Util.Json
import IotAgent.Util.Text

/-!
Commands for devices that speak UltraLight 2.0.

The plugin writes the body of a command and reads the identifier back out of it with the
parser for the answers of devices. Between the name of the command and its parameters stands
a bar. The test that is to leave it out when the parameters bring their own has its
arguments in the wrong order, and leaves it out only when they are nothing but a bar.

* `jsonValueToUl`: the parameters, when they are JSON (`src/rest/command_handle.cc`);
* `transformCommand`: the body and the identifier of a command;
* `isCommandResp_commandIdOf`: the identifier is the text before the first bar;
* `transformCommand_correlates_iff`: the body is the one the documentation of the protocol
  gives exactly when the parameters do not begin with a bar of their own, or are one.
-/

namespace IotAgent

/-! ### Parameters in JSON -/

/-- How a transformation fails: with an exception of the agent, or in an assertion of
rapidjson. -/
inductive TransformFailure where
  | exception (e : IotaException)
  | assertion
  deriving DecidableEq

/-- The loop over the members of an object of parameters. A value must be a text; names and
values are read through pointers to their characters. -/
def appendMembers (jsonValue : String) :
    String → List (String × Json) → Except TransformFailure String
  | newValue, [] => .ok newValue
  | newValue, (name, .string value) :: members =>
      let newValue := newValue ++ Text.cString name ++ "=" ++ Text.cString value
      appendMembers jsonValue (if members.isEmpty then newValue else newValue ++ "|") members
  | _, _ :: _ => .error (.exception {
      reason := Types.responseMessageCommandBad
      what := jsonValue
      status := Types.responseCodeBadRequest })

/-- `json_value_to_ul`: a text that is not JSON stays as it is. The parser is handed the
characters of the text up to the first NUL, so that `parse` depends on no others. -/
def jsonValueToUl (parse : JsonParser) (jsonValue : String) : Except TransformFailure String :=
  if jsonValue = "" then .ok ""
  else
    match parse jsonValue with
    | none => .ok jsonValue
    | some (.object members) => appendMembers jsonValue "" members
    | some _ => .error .assertion

lemma jsonValueToUl_of_not_json {parse : JsonParser} {v : String} (hv : parse v = none) :
    jsonValueToUl parse v = .ok v := by
  rw [jsonValueToUl, hv]
  split
  · next heq => rw [heq]
  · rfl

namespace Ul20Service

/-! ### The body -/

/-- The body of a command without a template. -/
def defaultBody (deviceName commandName updateCommandValue : String) : String :=
  let key := "|"
  let result := deviceName ++ "@" ++ commandName
  if updateCommandValue ≠ "" then
    -- the source asks whether the key starts with the parameters
    (if ¬ Text.startsWith key updateCommandValue then result ++ key else result)
      ++ updateCommandValue
  else result

/-- `transform_command`: the identifier of the command and the command line. -/
def transformCommand (parse : JsonParser) (commandName aCommandValue aUpdateCommandValue : String)
    (itemDev : Device) : Except TransformFailure (String × PTree) := do
  let commandValue := Text.trim aCommandValue
  let updateCommandValue ← jsonValueToUl parse (Text.trim aUpdateCommandValue)
  let commandLine : PTree ←
    if commandValue = Types.raw then .ok [(StoreTypes.body, updateCommandValue)]
    else if commandValue ≠ "" then
      (Plugin.transformBody commandValue updateCommandValue).mapError .exception
    else .ok [(StoreTypes.body, defaultBody itemDev.name commandName updateCommandValue)]
  let body := commandLine.get StoreTypes.body ""
  match isCommandResp body with
  | some (commandId, _) => .ok (commandId, commandLine)
  | none => .error (.exception {
      reason := Types.responseMessageCommandBad
      what := "UL20 Command is not correct, it must be  name_device@command_name, but it is "
        ++ body
      status := Types.responseCodeBadRequest })

/-! ### The identifier -/

/-- The identifier of a command. -/
def commandIdOf (deviceName commandName : String) : String :=
  deviceName ++ "@" ++ commandName

variable {deviceName commandName : String}

/-- The parser finds the identifier before the first bar, or in the whole text. -/
lemma getIdCommand_commandIdOf (hdev : '|' ∉ deviceName.toList) (hcmd : '|' ∉ commandName.toList)
    {rest : List Char} (hrest : rest = [] ∨ rest.head? = some '|') :
    getIdCommand (commandIdOf deviceName commandName ++ String.ofList rest)
      = commandIdOf deviceName commandName := by
  have hbar : ∀ c ∈ (commandIdOf deviceName commandName).toList, decide (c ≠ '|') = true := by
    intro c hc
    rw [decide_eq_true_eq]
    rintro rfl
    simp [commandIdOf, hdev, hcmd] at hc
  have htake : (commandIdOf deviceName commandName ++ String.ofList rest).toList.takeWhile
      (fun c => c ≠ '|') = (commandIdOf deviceName commandName).toList := by
    rw [String.toList_append, String.toList_ofList, List.takeWhile_append_of_pos hbar]
    rcases hrest with rfl | hhead
    · simp
    · obtain ⟨tail, rfl⟩ := List.head?_eq_some_iff.mp hhead
      simp
  have hat : '@' ∈ (commandIdOf deviceName commandName).toList := by simp [commandIdOf]
  rw [getIdCommand, htake]
  simp only [hat, if_true, String.ofList_toList]

/-- A text that begins with an identifier is a response to its command. -/
lemma isCommandResp_commandIdOf (hdev : '|' ∉ deviceName.toList)
    (hcmd : '|' ∉ commandName.toList) {rest : List Char}
    (hrest : rest = [] ∨ rest.head? = some '|') :
    isCommandResp (commandIdOf deviceName commandName ++ String.ofList rest)
      = some (commandIdOf deviceName commandName,
          commandIdOf deviceName commandName ++ String.ofList rest) := by
  have hne : commandIdOf deviceName commandName ≠ "" := by
    intro hnil
    have := congrArg String.toList hnil
    simp [commandIdOf] at this
  rw [isCommandResp, getIdCommand_commandIdOf hdev hcmd hrest]
  simp only [ne_eq, hne, not_false_eq_true, if_true]

/-! ### The body and its identifier -/

/-- The body that the protocol asks for: behind the identifier one bar and the parameters,
which do not begin with a bar. -/
def documentedBody (deviceName commandName parameters : String) : String :=
  commandIdOf deviceName commandName ++
    String.ofList (if parameters = "" then [] else '|' :: parameters.toList.dropWhile (· = '|'))

/-- The body of a command without a template is recognised as belonging to its command, its
identifier is that of every answer, and it is the documented one. -/
structure Correlates (parse : JsonParser) (itemDev : Device) (commandName parameters : String) :
    Prop where
  body : transformCommand parse commandName "" parameters itemDev
    = .ok (commandIdOf itemDev.name commandName,
        [(StoreTypes.body, documentedBody itemDev.name commandName (Text.trim parameters))])
  recognised : isCommandResp (documentedBody itemDev.name commandName (Text.trim parameters))
    = some (commandIdOf itemDev.name commandName,
        documentedBody itemDev.name commandName (Text.trim parameters))
  answers : ∀ result, isCommandResp (commandIdOf itemDev.name commandName ++ "|" ++ result)
    = some (commandIdOf itemDev.name commandName,
        commandIdOf itemDev.name commandName ++ "|" ++ result)

/-- What stands behind the identifier. -/
def parametersPart (parameters : String) : List Char :=
  if parameters = "" then [] else if parameters = "|" then ['|'] else '|' :: parameters.toList

lemma parametersPart_head (parameters : String) :
    parametersPart parameters = [] ∨ (parametersPart parameters).head? = some '|' := by
  rw [parametersPart]
  split
  · exact Or.inl rfl
  · split <;> exact Or.inr rfl

/-- The key starts with nothing but itself and the empty text. -/
lemma startsWith_bar (parameters : String) :
    Text.startsWith "|" parameters = true ↔ parameters = "" ∨ parameters = "|" := by
  have hbar : "|".toList = ['|'] := rfl
  rw [Text.startsWith, hbar, List.isPrefixOf_iff_prefix, ← String.toList_inj,
    ← @String.toList_inj parameters "|", hbar, String.toList_empty]
  constructor
  · intro hpre
    match hlist : parameters.toList, hpre with
    | [], _ => exact Or.inl rfl
    | c :: cs, hpre =>
        obtain ⟨rfl, hcs⟩ := List.cons_prefix_cons.mp hpre
        exact Or.inr (by rw [List.prefix_nil.mp hcs])
  · rintro (hnil | hbar)
    · simp [hnil]
    · simp [hbar]

lemma bar_append (s : String) : "|" ++ s = String.ofList ('|' :: s.toList) := by
  rw [← String.toList_inj, String.toList_ofList, String.toList_append]
  rfl

lemma defaultBody_eq (parameters : String) :
    defaultBody deviceName commandName parameters
      = commandIdOf deviceName commandName ++ String.ofList (parametersPart parameters) := by
  rw [defaultBody, parametersPart]
  by_cases hnil : parameters = ""
  · simp [hnil, commandIdOf]
  by_cases hbar : parameters = "|"
  · have hstart : Text.startsWith "|" "|" = true := by decide
    simp only [hbar, hstart, not_true_eq_false, ne_eq, if_true, if_false]
    rfl
  · have hstart : Text.startsWith "|" parameters = false :=
      Bool.eq_false_iff.mpr fun h => ((startsWith_bar parameters).mp h).elim hnil hbar
    simp only [hnil, hbar, hstart, Bool.false_eq_true, ne_eq, not_false_eq_true, if_true,
      if_false, ← bar_append, String.append_assoc, commandIdOf]

/-- The command line of a command without a template. -/
lemma transformCommand_default {parse : JsonParser} {itemDev : Device} {parameters : String}
    (hdev : '|' ∉ itemDev.name.toList) (hcmd : '|' ∉ commandName.toList)
    (hjson : parse (Text.trim parameters) = none) :
    transformCommand parse commandName "" parameters itemDev
      = .ok (commandIdOf itemDev.name commandName,
          [(StoreTypes.body, defaultBody itemDev.name commandName (Text.trim parameters))]) := by
  have htrim : Text.trim "" = "" := rfl
  have hraw : "" ≠ Types.raw := by decide
  have hresp := isCommandResp_commandIdOf hdev hcmd (parametersPart_head (Text.trim parameters))
  rw [← defaultBody_eq] at hresp
  have hget : PTree.get [(StoreTypes.body, defaultBody itemDev.name commandName
      (Text.trim parameters))] StoreTypes.body ""
      = defaultBody itemDev.name commandName (Text.trim parameters) := by
    simp [PTree.get]
  rw [transformCommand, htrim, jsonValueToUl_of_not_json hjson]
  simp only [bind, Except.bind, if_neg hraw, ne_eq, not_true_eq_false, if_false]
  rw [hget, hresp]

/-- The two bodies agree on these parameters. -/
lemma defaultBody_eq_documentedBody_iff (deviceName commandName parameters : String) :
    defaultBody deviceName commandName parameters
        = documentedBody deviceName commandName parameters ↔
      parameters.toList.head? ≠ some '|' ∨ parameters = "|" := by
  rw [defaultBody_eq, documentedBody, String.append_right_inj, String.ofList_inj, parametersPart]
  by_cases hnil : parameters = ""
  · simp [hnil]
  by_cases hbar : parameters = "|"
  · simp [hbar]
  rw [if_neg hnil, if_neg hbar, if_neg hnil, List.cons_inj_right, or_iff_left hbar]
  cases hlist : parameters.toList with
  | nil => simp
  | cons c cs =>
      by_cases hc : c = '|'
      · -- the documented parameters are shorter
        have hlen := (List.dropWhile_sublist (fun c => decide (c = '|')) (l := cs)).length_le
        simp only [hc, List.dropWhile_cons, decide_true, if_true, List.head?_cons, ne_eq,
          not_true_eq_false, iff_false]
        intro heq
        have := congrArg List.length heq
        rw [List.length_cons] at this
        omega
      · simp [hc]

/-- **Encoder and parser agree** on the documented body exactly when the parameters do not
begin with a bar of their own, or are nothing else. -/
theorem transformCommand_correlates_iff (parse : JsonParser) (itemDev : Device)
    (commandName parameters : String) (hdev : '|' ∉ itemDev.name.toList)
    (hcmd : '|' ∉ commandName.toList) (hjson : parse (Text.trim parameters) = none) :
    Correlates parse itemDev commandName parameters ↔
      (Text.trim parameters).toList.head? ≠ some '|' ∨ Text.trim parameters = "|" := by
  rw [← defaultBody_eq_documentedBody_iff itemDev.name commandName]
  have htransform := transformCommand_default hdev hcmd hjson
  constructor
  · rintro ⟨hbody, -, -⟩
    rw [htransform] at hbody
    simpa using hbody
  · intro heq
    refine ⟨heq ▸ htransform, isCommandResp_commandIdOf hdev hcmd ?_, fun result => ?_⟩
    · split
      · exact Or.inl rfl
      · exact Or.inr rfl
    · rw [String.append_assoc, bar_append]
      exact isCommandResp_commandIdOf hdev hcmd (Or.inr rfl)

/-- Parameters with a bar of their own. -/
theorem not_correlates_leading_bar :
    ¬ Correlates (fun _ => none) (Device.ofName "dev1" "service") "ping" "|a" := by
  intro hcorr
  have hbody := hcorr.body
  revert hbody
  decide +kernel

/-- Parameters without a bar. -/
theorem correlates_no_bar :
    Correlates (fun _ => none) (Device.ofName "dev1" "service") "ping" " a " :=
  (transformCommand_correlates_iff (fun _ => none) (Device.ofName "dev1" "service") "ping" " a "
    (by decide) (by decide) rfl).mpr (Or.inl (by decide +kernel))

end Ul20Service

end IotAgent
