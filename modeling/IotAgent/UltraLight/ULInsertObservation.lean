import IotAgent.Ngsi.EnvInfo

/-!
Measures in UltraLight 2.0 (`src/ultra_light/ULInsertObservation.{h,cc}`).

A payload holds measures between number signs. A measure is brought into a form with four
fixed tokens between bars, behind which come the names and the values; each pair makes an
element. The tokens are read by their index without a test.

* `Translation`: what a translation has besides the payload;
* `contentForSBCProtocol`: the form of a measure that comes without the fixed tokens;
* `checkMeasure`, `dateOf`: the fixed tokens;
* `measureLoop`: the loop over the other tokens;
* `translate`: the elements of a payload.
-/

namespace IotAgent

/-- What the library of dates makes of a text. -/
inductive DateResult where
  | text (s : String)
  | runtimeError (what : String)
  | other (what : String)

/-- The clock and the library of dates. `now` is the time at which the date of a measure is
made and `timestamp` that at which an element is made. A period is `none` when it is not
made of numbers. -/
structure Clock where
  now : ℕ → String
  timestamp : ℕ → String
  iso : String → DateResult
  period : String → String → Option DateResult

/-- What a translation has besides the payload. -/
structure Translation where
  lib : JsonLib
  clock : Clock
  dev : Option Device
  service : ServiceInfo
  query : List (String × String)

/-- `tokens[i]`, without a test. -/
def readToken (tokens : List String) (i : ℕ) : Except Stop String :=
  match tokens[i]? with
  | some token => .ok token
  | none => .error .outOfBounds

/-- The exceptions of the translation. -/
def protocolError (what : String) : Stop :=
  .iota ⟨Types.responseMessageInvalidParameter, what, Types.responseCodeBadRequest⟩

/-- The handler around a measure, which takes every runtime error for one of its own. -/
def Stop.handled : Stop → Stop
  | .iota e => protocolError e.what
  | .runtimeError what => protocolError what
  | stop => stop

namespace Translation

variable (t : Translation)

/-! ### The request -/

/-- The last value of a key in the query. -/
def queryValue (key : String) : String :=
  t.query.foldl (fun value kvp => if kvp.1 = key then kvp.2 else value) ""

/-- The name of the device. -/
def deviceName : String :=
  match t.dev with
  | some dev => dev.getRealName t.service.fields
  | none => t.queryValue "ID"

/-- The payload without line breaks. -/
def trimmed (strIo : String) : String :=
  String.ofList ((Text.trim strIo).toList.filter fun c => c ≠ '\n' ∧ c ≠ '\r')

/-- `contentForSBCProtocol`. -/
def contentForSBCProtocol (io samplingTime resQuery : String) : String :=
  let before := io.toList.takeWhile (· ≠ '|')
  let after := (io.toList.dropWhile (· ≠ '|')).tail
  let (time, aliasName, data) :=
    if '|' ∉ io.toList then ("", "", "")
    else if '|' ∉ after then (samplingTime, String.ofList before, io)
    else (String.ofList before, String.ofList (after.takeWhile (· ≠ '|')), String.ofList after)
  "|" ++ resQuery ++ "|" ++ time ++ "|" ++ aliasName ++ "||" ++ data

/-- The tokens of a measure. Only measures of protocol 0 come without the fixed ones. -/
def tokensOf (protocol : ℕ) (measure : String) : List String :=
  Text.riotTokenizer
    (if protocol = 0 then contentForSBCProtocol measure (t.queryValue "t") t.deviceName
    else measure) '|'

/-! ### The fixed tokens -/

def numElementsUlProtocol : ℕ := 4

/-- The system in the identifier of a resource. -/
def assignedSensorId (idResource : String) : Except Stop String :=
  let vTokens := Text.riotTokenizer idResource '.'
  if vTokens.length = 1 then .ok idResource else readToken vTokens 0

/-- The identifier of the resource, completed with the name of the device. -/
def idResource (token : String) : String :=
  if token = "" then t.deviceName
  else if t.deviceName ≠ "" then t.deviceName ++ "." ++ token
  else token

/-- The fixed tokens, completed from the request and checked. -/
def checkMeasure (tokens : List String) : Except Stop (List String) :=
  if tokens.length < numElementsUlProtocol then
    .error (protocolError "Protocol error, a measure is not complete ")
  else do
    let concentrator ← readToken tokens 0
    let tokens := if concentrator = "" then tokens.set 0 (t.queryValue "UC") else tokens
    let resource ← readToken tokens 1
    let tokens := tokens.set 1 (t.idResource resource)
    let resource ← readToken tokens 1
    let observedProperty ← readToken tokens 3
    if resource = "" ∨ observedProperty = "" then
      .error (protocolError "Protocol error, measurement has not got property or idResource ")
    else do
      let _ ← assignedSensorId resource
      return tokens

/-- The date of the `i`-th measure. -/
def dateOf (i : ℕ) (samplingTime : String) : Except Stop String :=
  let stimeTokens := Text.riotTokenizer samplingTime ' '
  if stimeTokens.length = 0 then .ok (t.clock.now i)
  else if stimeTokens.length = 1 then do
    let date ← readToken stimeTokens 0
    match t.clock.iso date with
    | .text s => .ok s
    | .runtimeError _ => .ok (t.clock.now i)
    | .other what => .error (.other what)
  else do
    let start ← readToken stimeTokens 0
    let duration ← readToken stimeTokens 1
    match t.clock.period start duration with
    | none => .ok start
    | some (.text s) => .ok s
    | some (.runtimeError what) => .error (.runtimeError what)
    | some (.other what) => .error (.other what)

/-! ### Elements -/

/-- The attribute of a measure. -/
def measureAttribute (date name value : String) : FullAttribute :=
  (FullAttribute.ofTexts name "" value).addMetadata (EnvElement.timeInstant date)

/-- The attribute with the time of a measure. -/
def timeAttribute (date : String) : FullAttribute :=
  FullAttribute.ofTexts "TimeInstant" "ISO8601" date

/-- The element of the device, before it gets the measure. -/
def baseElement (k : ℕ) : Except Stop EnvElement :=
  (EnvElement.ofTexts t.deviceName "" "false").setEnvInfo t.lib t.service t.dev
    (t.clock.timestamp k)

/-- The `k`-th element. -/
def buildElement (k : ℕ) (date name value : String) : Except Stop EnvElement := do
  let elto ← t.baseElement k
  let elto ← elto.add t.lib (measureAttribute date name value)
  elto.add t.lib (timeAttribute date)

/-- The loop over the tokens behind the fixed ones. -/
def measureLoop (date : String) (tokens : List String) (j : ℕ) (elements : List EnvElement) :
    Except Stop (List EnvElement) :=
  if j < tokens.length then do
    let token ← readToken tokens j
    let i := if token = "" then j + 1 else j
    let value ← readToken tokens (i + 1)
    let name ← readToken tokens i
    if value = "" then
      .error (protocolError "Protocol error, Empty values is not allowed ")
    else do
      let elto ← t.buildElement elements.length date name value
      measureLoop date tokens (i + 2) (elements ++ [elto])
  else .ok elements
termination_by tokens.length - j
decreasing_by
  split <;> omega

/-! ### Payloads -/

/-- The elements of the `i`-th measure come to those that are there. -/
def translateMeasure (protocol i : ℕ) (elements : List EnvElement) (measure : String) :
    Except Stop (List EnvElement) := do
  let tokens ← t.checkMeasure (t.tokensOf protocol measure)
  Except.mapError Stop.handled do
    let date ← t.dateOf i (← readToken tokens 2)
    t.measureLoop date tokens numElementsUlProtocol elements

/-- The loop over the measures. -/
def translateMeasures (protocol : ℕ) :
    ℕ → List String → List EnvElement → Except Stop (List EnvElement)
  | _, [], elements => .ok elements
  | i, measure :: measures, elements => do
      let elements ← t.translateMeasure protocol i elements measure
      translateMeasures protocol (i + 1) measures elements

/-- The measures of a payload. -/
def measuresOf (strIo : String) : List String :=
  Text.riotTokenizer (trimmed strIo) '#'

/-- `translate`. -/
def translate (protocol : ℕ) (strIo : String) : Except Stop (List EnvElement) :=
  if measuresOf strIo = [] then .error (protocolError "Protocol error, no measurements")
  else do
    let elements ← t.translateMeasures protocol 0 (measuresOf strIo) []
    if (measuresOf strIo).length ≠ elements.length then
      .error (protocolError "Protocol error, ")
    else return elements

end Translation

end IotAgent
