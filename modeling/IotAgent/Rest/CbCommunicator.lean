import IotAgent.Util.HttpClient
import IotAgent.Util.OAuth

/-!
Requests to the context broker (`src/rest/iot_cb_comm.{h,cc}`, and the requests for a token of
`src/util/oauth_comm.cc`).

A request goes out with the token of its service. If there is a trust token and an identity
server is configured, a token is asked for first, and it takes the place of the trust token. When
the broker refuses the token the whole operation is started a second time.

* `AdditionalInfo`: what a request is sent with;
* `OAuth.setIdentity`, `OAuth.renewToken`, `OAuth.getToken`: the request for a token;
* `createRequest`: the request to the broker;
* `Network`: what the other servers do in one attempt;
* `prepare`: an attempt up to the request to the broker;
* `receiveEvent`, `asyncSend`, `send`: what follows it;
* `infoAt`, `preparedAt`: the attempts by their numbers.
-/

namespace IotAgent

namespace Types

def responseCodeUnauthorized : ℤ := 401
def responseCodeBadGateway : ℤ := 502
def headerTraceMessages : String := "X-Trace-Message"
def fiwareService : String := "Fiware-Service"
def fiwareServicePath : String := "Fiware-ServicePath"
def iotHttpHeaderAccept : String := "Accept"
def iotContentTypeJson : String := "application/json"
def iotHttpHeaderAuth : String := "X-Auth-Token"
def headerHost : String := "Host"

end Types

/-- The texts of a property tree, and the number under `number_of_tries`, which is 0 where there
is none. -/
structure AdditionalInfo where
  texts : PTree
  numberOfTries : ℤ := 0

/-! ### Requests -/

/-- A request with its content and its headers. -/
structure HttpRequest (κ : Type) where
  method : String
  resource : String
  content : κ
  contentType : String
  queryString : String
  headers : List (String × String)

namespace HttpRequest

/-- `change_header`: the header with this value only. -/
def changeHeader (headers : List (String × String)) (name value : String) :
    List (String × String) :=
  headers.filter (·.1 ≠ name) ++ [(name, value)]

end HttpRequest

/-- `lexical_cast`, to a number of 32 bits. -/
def Text.lexicalInt (s : String) : Option ℤ :=
  let read (cs : List Char) (sign : ℤ) : Option ℤ :=
    let value := sign * Text.digits cs
    if cs ≠ [] ∧ cs.all Char.isDigit ∧ -2 ^ 31 ≤ value ∧ value < 2 ^ 31 then some value else none
  match s.toList with
  | '-' :: cs => read cs (-1)
  | '+' :: cs => read cs 1
  | cs => read cs 1

/-- The part of the configuration for the identity server; without it the texts are empty. -/
structure OnBehalf where
  trustUrl : String := ""
  user : String := ""
  password : String := ""

/-- Where a request goes. -/
structure Endpoint where
  host : String
  port : ℤ
  deriving DecidableEq

/-- The header `Host`. -/
def IoTUrl.compoundServer (dest : IoTUrl) : String :=
  dest.host ++ ":" ++ toString dest.port

/-! ### The token -/

namespace OAuth

def onBehalfTrust : String := "OS-TRUST:trust"

/-- `set_identity`: the tree that is sent. -/
def setIdentity (trustToken scopeType username password : String) : Ptree :=
  let domain := if scopeType = onBehalfTrust then "Default" else scopeType
  let scope : String × Ptree :=
    if scopeType = onBehalfTrust then (scopeType, .node "" [("id", .leaf trustToken)])
    else ("domain", .node "" [("name", .leaf domain)])
  let user := Ptree.node "" [("domain", .node "" [("name", .leaf domain)]),
    ("name", .leaf username), ("password", .leaf password)]
  let identity := Ptree.node "" [("methods", .node "" [("", .leaf "password")]),
    ("password", .node "" [("user", user)])]
  .node "" [("auth", .node "" [("identity", identity), ("scope", .node "" [scope])])]

/-- The token on whose behalf a tree asks. -/
def trustId (auth : Ptree) : String :=
  auth.get ["auth", "scope", onBehalfTrust, "id"] ""

/-- `is_pep`. -/
def isPep (auth : Ptree) : Prop :=
  trustId auth = ""

instance (auth : Ptree) : Decidable (isPep auth) :=
  inferInstanceAs (Decidable (_ = _))

/-- `create_request`, with the tree as the content. -/
def createRequest (dest : IoTUrl) (auth : Ptree) : HttpRequest Ptree where
  method := "POST"
  resource := dest.path
  content := auth
  contentType := Types.iotContentTypeJson
  queryString := dest.query
  headers := [(Types.iotHttpHeaderAccept, Types.iotContentTypeJson),
    (Types.headerHost, dest.compoundServer)]

/-- `renew_token`, synchronously: the request, and the token of the answer. There is an exception
if the endpoint is no URL or the client cannot be made. -/
def renewToken (scope : String) (auth : Ptree) (resolves : Bool) (answer : Option Response) :
    Option ((Endpoint × HttpRequest Ptree) × String) :=
  match IoTUrl.ofString scope with
  | .error _ => none
  | .ok dest =>
      if resolves then some ((⟨dest.host, dest.port⟩, createRequest dest auth), renewedToken answer)
      else none

/-- `get_token`, of an object that has no token yet. -/
def getToken (oauthTrust oauthValidate : String) (auth : Ptree) (resolves : Bool)
    (answer : Option Response) : Option ((Endpoint × HttpRequest Ptree) × String) :=
  if isPep auth then renewToken oauthValidate auth resolves answer
  else renewToken oauthTrust auth resolves answer

end OAuth

/-! ### The broker -/

/-- An answer of the broker. -/
structure CbResponse where
  statusCode : ℤ
  content : String
  deriving DecidableEq

/-- What a client of HTTP reports: an answer, an error, or both. The codes of errors are
positive. -/
structure Completion where
  response : Option CbResponse
  error : ℕ
  reports : error ≠ 0 ∨ response ≠ none

/-- What the other servers do in one attempt: whether the clients can be made, what the identity
server answers, and what is reported of the request to the broker. -/
structure Network where
  identityResolves : Bool := true
  identityAnswer : Option Response := none
  brokerResolves : Bool := true
  broker : Completion

/-- A request to the broker, with the timeout and the proxy. -/
structure CbRequest where
  endpoint : Endpoint
  request : HttpRequest String
  timeout : ℤ
  proxy : String

/-- What is exchanged with the other servers. -/
inductive Message where
  | identity (endpoint : Endpoint) (request : HttpRequest Ptree)
  | broker (request : CbRequest) (completion : Completion)

namespace ContextBrokerCommunicator

/-- `create_request`. -/
def createRequest (method server resource content query : String) (info : PTree) :
    HttpRequest String where
  method := method
  resource := resource
  content := content
  contentType := Types.iotContentTypeJson
  queryString := query
  headers :=
    let forcedAccept := info.get Types.iotHttpHeaderAccept ""
    let token := info.get "token" ""
    let traceHeader := info.get Types.headerTraceMessages ""
    let headers := [
      (Types.iotHttpHeaderAccept,
        if forcedAccept = "" then Types.iotContentTypeJson else forcedAccept),
      (Types.headerHost, server),
      (Types.fiwareService, info.get "service" ""),
      (Types.fiwareServicePath, info.get "service_path" "/")]
    let headers := if token = "" then headers
      else HttpRequest.changeHeader headers Types.iotHttpHeaderAuth token
    if traceHeader = "" then headers
    else HttpRequest.changeHeader headers Types.headerTraceMessages traceHeader

/-- An attempt when its request to the broker is sent, or an exception was thrown before. -/
structure Prepared where
  messages : List Message
  info : AdditionalInfo
  request : Option CbRequest

/-- What all attempts of an operation share: the identity server, the method of the communicator,
the URL and the content. -/
structure Operation where
  oauth : OnBehalf
  method : String
  url : String
  content : String

variable (op : Operation)

/-- The request to the broker; there is an exception if the client cannot be made or the timeout
is no number. -/
def brokerRequest (dest : IoTUrl) (info : PTree) (resolves : Bool) : Option CbRequest :=
  if resolves then
    (Text.lexicalInt (info.get "timeout" "5")).map fun timeout => {
      endpoint := ⟨dest.host, dest.port⟩
      request := createRequest op.method dest.compoundServer dest.path op.content dest.query info
      timeout := timeout
      proxy := info.get "proxy" "" }
  else none

/-- An attempt up to the request to the broker, as it stands in `async_send` and in `send`. -/
def prepare (info : AdditionalInfo) (net : Network) : Prepared :=
  match IoTUrl.ofString op.url with
  | .error _ => ⟨[], info, none⟩
  | .ok dest =>
      let token := info.texts.get "token" ""
      if token ≠ "" ∧ op.oauth.trustUrl ≠ "" then
        let auth := OAuth.setIdentity token OAuth.onBehalfTrust op.oauth.user op.oauth.password
        match OAuth.getToken op.oauth.trustUrl "" auth net.identityResolves net.identityAnswer with
        | none => ⟨[], info, none⟩
        | some ((endpoint, request), authToken) =>
            let texts := info.texts.put "token" authToken
            ⟨[.identity endpoint request], { info with texts },
              brokerRequest op dest texts net.brokerResolves⟩
      else ⟨[], info, brokerRequest op dest info.texts net.brokerResolves⟩

/-- The answer of the broker, if there is no error. -/
def received (completion : Completion) : Option CbResponse :=
  if completion.error = 0 then completion.response else none

/-- What `receive_event` does: start again, call back, or raise an alarm only. -/
inductive Event where
  | asyncSend (info : AdditionalInfo)
  | callback (response : String) (code : ℤ)
  | alarm

/-- `receive_event`. -/
def receiveEvent (info : AdditionalInfo) (completion : Completion) : Event :=
  match received completion with
  | some response =>
      if response.statusCode = Types.responseCodeUnauthorized ∧ info.numberOfTries < 1 then
        .asyncSend { info with numberOfTries := info.numberOfTries + 1 }
      else if response.statusCode = Types.responseCodeBadGateway then .alarm
      else .callback response.content response.statusCode
  | none => .callback "" (-(completion.error : ℤ))

/-- `process_response`. -/
def processResponse (completion : Completion) : String :=
  match received completion with
  | some response => response.content
  | none => ""

/-- What comes of an asynchronous request: the messages, and the calls of the callback. -/
structure AsyncRun where
  messages : List Message := []
  calls : List (String × ℤ) := []

/-- What comes of a synchronous request: the messages, and the text that is returned. -/
structure SyncRun where
  messages : List Message := []
  cbResponse : String := ""

lemma prepare_numberOfTries (info : AdditionalInfo) (net : Network) :
    (prepare op info net).info.numberOfTries = info.numberOfTries := by
  rw [prepare]
  split
  · rfl
  · dsimp only
    split_ifs
    · split <;> rfl
    · rfl

/-- What is started again has one try more, and had none. -/
lemma receiveEvent_asyncSend {info again : AdditionalInfo} {completion : Completion}
    (h : receiveEvent info completion = .asyncSend again) :
    again = { info with numberOfTries := info.numberOfTries + 1 } ∧ info.numberOfTries < 1 := by
  rw [receiveEvent] at h
  split at h
  · split_ifs at h with htry
    exact ⟨(Event.asyncSend.inj h).symm, htry.2⟩
  · cases h

/-- `async_send`, with the attempts that follow it. `net` is what the other servers do in each of
them. -/
def asyncSend (info : AdditionalInfo) (net : ℕ → Network) : AsyncRun :=
  let prepared := prepare op info (net 0)
  match prepared.request with
  | none => { messages := prepared.messages }
  | some request =>
      let completion := (net 0).broker
      let messages := prepared.messages ++ [.broker request completion]
      match h : receiveEvent prepared.info completion with
      | .asyncSend again =>
          let run := asyncSend again fun n => net (n + 1)
          { run with messages := messages ++ run.messages }
      | .callback response code => { messages, calls := [(response, code)] }
      | .alarm => { messages }
  termination_by (1 - info.numberOfTries).toNat
  decreasing_by
    obtain ⟨rfl, htry⟩ := receiveEvent_asyncSend h
    have hsame : prepared.info.numberOfTries = info.numberOfTries :=
      prepare_numberOfTries op info (net 0)
    dsimp only
    omega

/-- The test of `send` for another attempt. -/
def SendsAgain (info : AdditionalInfo) (completion : Completion) : Prop :=
  (∃ response, completion.response = some response ∧
      response.statusCode = Types.responseCodeUnauthorized) ∧
    info.texts.get "token" "" ≠ "" ∧ op.oauth.trustUrl ≠ "" ∧ info.numberOfTries < 1

instance (info : AdditionalInfo) (completion : Completion) :
    Decidable (SendsAgain op info completion) :=
  inferInstanceAs (Decidable ((∃ response, _ = some response ∧ _) ∧ _))

/-- `send`, with the attempts that follow it. -/
def send (info : AdditionalInfo) (net : ℕ → Network) : SyncRun :=
  let prepared := prepare op info (net 0)
  match prepared.request with
  | none => { messages := prepared.messages }
  | some request =>
      let completion := (net 0).broker
      let messages := prepared.messages ++ [.broker request completion]
      if h : SendsAgain op info completion then
        let again := { prepared.info with numberOfTries := info.numberOfTries + 1 }
        let run := send again fun n => net (n + 1)
        { run with messages := messages ++ run.messages }
      else { messages, cbResponse := processResponse completion }
  termination_by (1 - info.numberOfTries).toNat
  decreasing_by
    have htry := h.2.2.2
    omega

/-! ### The attempts -/

/-- What an attempt leaves to the next one. -/
def nextInfo (info : AdditionalInfo) (net : Network) : AdditionalInfo where
  texts := (prepare op info net).info.texts
  numberOfTries := (prepare op info net).info.numberOfTries + 1

/-- What the attempt of a number is started with, if it comes to it. -/
def infoAt (info : AdditionalInfo) (net : ℕ → Network) : ℕ → AdditionalInfo
  | 0 => info
  | n + 1 => nextInfo op (infoAt info net n) (net n)

/-- The attempt of a number up to its request to the broker. -/
def preparedAt (info : AdditionalInfo) (net : ℕ → Network) (n : ℕ) : Prepared :=
  prepare op (infoAt op info net n) (net n)

/-- What is reported of the request of an attempt; `none` for an exception before it. -/
def reportAt (info : AdditionalInfo) (net : ℕ → Network) (n : ℕ) : Option Completion :=
  (preparedAt op info net n).request.map fun _ => (net n).broker

/-- Another attempt follows the one of the number, by the test that is made. -/
def Repeated (again : AdditionalInfo → Completion → Prop) (info : AdditionalInfo)
    (net : ℕ → Network) (n : ℕ) : Prop :=
  ∃ completion, reportAt op info net n = some completion ∧ again (infoAt op info net n) completion

/-- What `receive_event` starts again after. -/
def ReceivesAgain (info : AdditionalInfo) (completion : Completion) : Prop :=
  (∃ response, received completion = some response ∧
    response.statusCode = Types.responseCodeUnauthorized) ∧ info.numberOfTries < 1

instance (info : AdditionalInfo) (completion : Completion) :
    Decidable (ReceivesAgain info completion) :=
  inferInstanceAs (Decidable ((∃ response, _ = some response ∧ _) ∧ _))

/-- The calls of the callback when nothing is started again. -/
def callsOf (completion : Completion) : List (String × ℤ) :=
  match received completion with
  | some response =>
      if response.statusCode = Types.responseCodeBadGateway then []
      else [(response.content, response.statusCode)]
  | none => [("", -(completion.error : ℤ))]

variable {op} {info : AdditionalInfo} {net : ℕ → Network}
  {completion : Completion}

lemma infoAt_succ (n : ℕ) : infoAt op info net (n + 1) =
    infoAt op (nextInfo op info (net 0)) (fun n => net (n + 1)) n := by
  induction n with
  | zero => rfl
  | succ n ih => exact congrArg (nextInfo op · (net (n + 1))) ih

lemma infoAt_numberOfTries (n : ℕ) :
    (infoAt op info net n).numberOfTries = info.numberOfTries + n := by
  induction n with
  | zero => exact (Int.add_zero _).symm
  | succ n ih =>
      rw [infoAt, nextInfo, prepare_numberOfTries, ih, Int.natCast_succ, Int.add_assoc]

lemma reportAt_zero_of_some {request : CbRequest}
    (h : (prepare op info (net 0)).request = some request) :
    reportAt op info net 0 = some (net 0).broker :=
  congrArg (Option.map fun _ => (net 0).broker) h

lemma reportAt_zero_eq_none :
    reportAt op info net 0 = none ↔ (prepare op info (net 0)).request = none :=
  Option.map_eq_none_iff

lemma reportAt_succ (n : ℕ) : reportAt op info net (n + 1) =
    reportAt op (nextInfo op info (net 0)) (fun n => net (n + 1)) n := by
  rw [reportAt, preparedAt, infoAt_succ]
  rfl

lemma repeated_succ {again : AdditionalInfo → Completion → Prop} {n : ℕ} :
    Repeated op again info net (n + 1) ↔
      Repeated op again (nextInfo op info (net 0)) (fun n => net (n + 1)) n := by
  rw [Repeated, Repeated, reportAt_succ, infoAt_succ]

/-- An attempt without a request to the broker is the last one. -/
lemma not_repeated_of_none {again : AdditionalInfo → Completion → Prop} (net : ℕ → Network)
    (h : (prepare op info (net 0)).request = none) : ¬ Repeated op again info net 0 := by
  rintro ⟨completion, hreport, -⟩
  rw [reportAt_zero_eq_none.mpr h] at hreport
  cases hreport

/-! ### One attempt after the other -/

lemma receiveEvent_of_again (h : ReceivesAgain info completion) :
    receiveEvent info completion =
      .asyncSend { info with numberOfTries := info.numberOfTries + 1 } := by
  obtain ⟨⟨response, hreceived, hcode⟩, htry⟩ := h
  rw [receiveEvent, hreceived]
  exact if_pos ⟨hcode, htry⟩

/-- Where nothing is started again the callback is called, or there is an alarm. -/
lemma receiveEvent_of_not_again (h : ¬ ReceivesAgain info completion) :
    (receiveEvent info completion = .alarm ∧ callsOf completion = []) ∨
      ∃ response code, receiveEvent info completion = .callback response code ∧
        callsOf completion = [(response, code)] := by
  rw [receiveEvent, callsOf]
  cases hreceived : received completion with
  | none => exact .inr ⟨_, _, rfl, rfl⟩
  | some response =>
      have hlast : ¬ (response.statusCode = Types.responseCodeUnauthorized ∧
          info.numberOfTries < 1) := fun hagain => h ⟨⟨response, hreceived, hagain.1⟩, hagain.2⟩
      dsimp only
      rw [if_neg hlast]
      split_ifs
      · exact .inl ⟨rfl, rfl⟩
      · exact .inr ⟨_, _, rfl, rfl⟩

/-- `async_send` by its first attempt. -/
theorem asyncSend_eq : asyncSend op info net =
    match (prepare op info (net 0)).request with
    | none => { messages := (prepare op info (net 0)).messages }
    | some request =>
        if ReceivesAgain info (net 0).broker then
          let run := asyncSend op (nextInfo op info (net 0)) fun n => net (n + 1)
          { run with messages := (prepare op info (net 0)).messages ++
              [.broker request (net 0).broker] ++ run.messages }
        else {
          messages := (prepare op info (net 0)).messages ++ [.broker request (net 0).broker]
          calls := callsOf (net 0).broker } := by
  rw [asyncSend]
  cases hrequest : (prepare op info (net 0)).request with
  | none => rfl
  | some request =>
      have htries : ReceivesAgain info (net 0).broker ↔
          ReceivesAgain (prepare op info (net 0)).info (net 0).broker := by
        rw [ReceivesAgain, ReceivesAgain, prepare_numberOfTries]
      dsimp only
      by_cases hagain : ReceivesAgain info (net 0).broker
      · rw [if_pos hagain]
        have hevent := receiveEvent_of_again (htries.mp hagain)
        split
        · next again h =>
            obtain rfl := Event.asyncSend.inj (hevent.symm.trans h)
            rfl
        · next h => rw [hevent] at h; cases h
        · next h => rw [hevent] at h; cases h
      · rw [if_neg hagain]
        rcases receiveEvent_of_not_again (mt htries.mpr hagain) with
          ⟨hevent, hcalls⟩ | ⟨response, code, hevent, hcalls⟩
        · rw [hcalls]
          split
          · next h => rw [hevent] at h; cases h
          · next h => rw [hevent] at h; cases h
          · rfl
        · rw [hcalls]
          split
          · next h => rw [hevent] at h; cases h
          · next h =>
              obtain ⟨rfl, rfl⟩ := Event.callback.inj (hevent.symm.trans h)
              rfl
          · next h => rw [hevent] at h; cases h

/-- `send` by its first attempt. -/
theorem send_eq : send op info net =
    match (prepare op info (net 0)).request with
    | none => { messages := (prepare op info (net 0)).messages }
    | some request =>
        if SendsAgain op info (net 0).broker then
          let run := send op (nextInfo op info (net 0)) fun n => net (n + 1)
          { run with messages := (prepare op info (net 0)).messages ++
              [.broker request (net 0).broker] ++ run.messages }
        else {
          messages := (prepare op info (net 0)).messages ++ [.broker request (net 0).broker]
          cbResponse := processResponse (net 0).broker } := by
  rw [send]
  cases hrequest : (prepare op info (net 0)).request with
  | none => rfl
  | some request =>
      simp only [nextInfo, prepare_numberOfTries, dite_eq_ite]

end ContextBrokerCommunicator

end IotAgent
