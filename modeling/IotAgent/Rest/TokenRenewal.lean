import IotAgent.Rest.CbCommunicator

/-!
Tokens that are refused (`async_send` and `send` in `src/rest/iot_cb_comm.cc`, with `set_identity`
and `get_token` of `src/util/oauth_comm.cc`).

When the broker refuses the token the operation starts again with a property tree in which the
first attempt has put its token in the place of the trust token. The second attempt asks the
identity server on behalf of that token.

* `SameAgain`: at most two requests to the broker, the same, and every request to the identity
  server on behalf of the trust token;
* `AsksWith`, `tokenAt`: an attempt asks for a token, and the token that it has to ask with, by the
  answers of the identity server;
* `RenewsOnce`: what the second attempt, and a third one, may do;
* `sameAgain_iff`: when requests are repeated as they should be.
-/

namespace IotAgent

namespace ContextBrokerCommunicator

/-! ### The messages -/

/-- The requests to the broker, with what is reported of them. -/
def brokerRequests (messages : List Message) : List (CbRequest × Completion) :=
  messages.filterMap fun message => match message with
    | .broker request completion => some (request, completion)
    | .identity _ _ => none

/-- What the identity server is sent. -/
def identityTrees (messages : List Message) : List Ptree :=
  messages.filterMap fun message => match message with
    | .broker _ _ => none
    | .identity _ request => some request.content

/-- The same URL, content, service and service path. -/
structure SameRequest (request request' : CbRequest) : Prop where
  endpoint : request.endpoint = request'.endpoint
  resource : request.request.resource = request'.request.resource
  queryString : request.request.queryString = request'.request.queryString
  content : request.request.content = request'.request.content
  service : request.request.headers.lookup Types.fiwareService =
    request'.request.headers.lookup Types.fiwareService
  servicePath : request.request.headers.lookup Types.fiwareServicePath =
    request'.request.headers.lookup Types.fiwareServicePath

/-- The broker refuses the token. -/
def Refused (completion : Completion) : Prop :=
  ∃ response, completion.response = some response ∧
    response.statusCode = Types.responseCodeUnauthorized

/-- There are at most two requests to the broker, the second after a refusal and the same, and
the identity server is asked on behalf of the trust token. -/
structure SameAgain (trust : String) (messages : List Message) : Prop where
  atMostTwo : (brokerRequests messages).length ≤ 2
  second : ∀ first second, brokerRequests messages = [first, second] →
    Refused first.2 ∧ SameRequest first.1 second.1
  onBehalf : ∀ tree ∈ identityTrees messages, OAuth.trustId tree = trust

variable (op : Operation)

/-- The token of an attempt. -/
def tokenOf (info : AdditionalInfo) : String :=
  info.texts.get "token" ""

/-- A request for a token is sent: there is a token to ask with and an identity server, both
endpoints are URLs, and the name of the identity server resolves. -/
def AsksWith (token : String) (net : Network) : Prop :=
  token ≠ "" ∧ op.oauth.trustUrl ≠ "" ∧ (∃ dest, IoTUrl.ofString op.url = .ok dest) ∧
    (∃ dest, IoTUrl.ofString op.oauth.trustUrl = .ok dest) ∧ net.identityResolves

instance decidableExistsOk {ε α : Type*} (result : Except ε α) : Decidable (∃ a, result = .ok a) :=
  match result with
  | .ok a => isTrue ⟨a, rfl⟩
  | .error _ => isFalse nofun

instance (token : String) (net : Network) : Decidable (AsksWith op token net) :=
  inferInstanceAs (Decidable (_ ∧ _ ∧ _ ∧ _ ∧ _))

/-- A request for a token is sent in an attempt. -/
abbrev AsksIdentity (info : AdditionalInfo) (net : Network) : Prop :=
  AsksWith op (tokenOf info) net

/-- What the attempt of a number has to ask with: the trust token, or what the identity server has
answered to the last request for a token. -/
def tokenAt (trust : String) (net : ℕ → Network) : ℕ → String
  | 0 => trust
  | n + 1 =>
      if AsksWith op (tokenAt trust net n) (net n) then OAuth.renewedToken (net n).identityAnswer
      else tokenAt trust net n

/-- If there is a second attempt it does not ask for a token, or has the trust token to ask with;
if there is a third one, nothing is sent to the broker in it, and the same holds of it. -/
def RenewsOnce (again : AdditionalInfo → Completion → Prop) (info : AdditionalInfo)
    (net : ℕ → Network) : Prop :=
  Repeated op again info net 0 →
    (AsksWith op (tokenAt op (tokenOf info) net 1) (net 1) →
      tokenAt op (tokenOf info) net 1 = tokenOf info) ∧
    (Repeated op again info net 1 →
      (AsksWith op (tokenAt op (tokenOf info) net 2) (net 2) →
        tokenAt op (tokenOf info) net 2 = tokenOf info) ∧
      reportAt op info net 2 = none)

variable {op} {info : AdditionalInfo} {net : ℕ → Network} {x : Network}

/-! ### An attempt -/

/-- The tree asks on behalf of the trust token. -/
lemma trustId_setIdentity (token user password : String) :
    OAuth.trustId (OAuth.setIdentity token OAuth.onBehalfTrust user password) = token :=
  rfl

/-- The tree that the token of an attempt is asked for with. -/
def identityTree (op : Operation) (info : AdditionalInfo) : Ptree :=
  OAuth.setIdentity (tokenOf info) OAuth.onBehalfTrust op.oauth.user op.oauth.password

/-- An attempt that throws before its requests, that asks for no token, and that asks for one. -/
lemma prepare_cases (op : Operation) (info : AdditionalInfo) (x : Network) :
    (¬ AsksIdentity op info x ∧ prepare op info x = ⟨[], info, none⟩) ∨
    (¬ AsksIdentity op info x ∧ ∃ dest, IoTUrl.ofString op.url = .ok dest ∧
      prepare op info x = ⟨[], info, brokerRequest op dest info.texts x.brokerResolves⟩) ∨
    (AsksIdentity op info x ∧ ∃ dest endpoint request,
      IoTUrl.ofString op.url = .ok dest ∧ request.content = identityTree op info ∧
      prepare op info x = ⟨[.identity endpoint request],
        { info with texts := info.texts.put "token" (OAuth.renewedToken x.identityAnswer) },
        brokerRequest op dest (info.texts.put "token" (OAuth.renewedToken x.identityAnswer))
          x.brokerResolves⟩) := by
  rw [prepare]
  cases hurl : IoTUrl.ofString op.url with
  | error e =>
      refine .inl ⟨?_, rfl⟩
      rintro ⟨-, -, ⟨dest, hdest⟩, -⟩
      rw [hurl] at hdest
      cases hdest
  | ok dest =>
      dsimp only
      by_cases htoken : info.texts.get "token" "" ≠ "" ∧ op.oauth.trustUrl ≠ ""
      · have hpep : ¬ OAuth.isPep (OAuth.setIdentity (info.texts.get "token" "")
            OAuth.onBehalfTrust op.oauth.user op.oauth.password) := htoken.1
        rw [if_pos htoken, OAuth.getToken, if_neg hpep, OAuth.renewToken]
        cases htrust : IoTUrl.ofString op.oauth.trustUrl with
        | error e =>
            refine .inl ⟨?_, rfl⟩
            rintro ⟨-, -, -, ⟨dest, hdest⟩, -⟩
            rw [htrust] at hdest
            cases hdest
        | ok trust =>
            dsimp only
            by_cases hresolves : x.identityResolves
            · rw [if_pos hresolves]
              refine .inr (.inr ⟨⟨htoken.1, htoken.2, ⟨dest, hurl⟩, ⟨trust, htrust⟩, hresolves⟩,
                dest, _, _, rfl, ?_, rfl⟩)
              rfl
            · rw [if_neg hresolves]
              exact .inl ⟨fun h => hresolves h.2.2.2.2, rfl⟩
      · rw [if_neg htoken]
        exact .inr (.inl ⟨fun h => htoken ⟨h.1, h.2.1⟩, dest, rfl, rfl⟩)

/-- Before its request to the broker an attempt has none. -/
lemma brokerRequests_prepare : brokerRequests (prepare op info x).messages = [] := by
  rcases prepare_cases op info x with ⟨-, h⟩ | ⟨-, dest, -, h⟩ | ⟨-, dest, _, _, -, -, h⟩
  all_goals rw [h]; rfl

/-- The identity server is sent the tree, or nothing. -/
lemma identityTrees_prepare (h : AsksIdentity op info x) :
    identityTrees (prepare op info x).messages = [identityTree op info] := by
  rcases prepare_cases op info x with ⟨hno, -⟩ | ⟨hno, -⟩ | ⟨-, dest, _, _, -, hcontent, heq⟩
  · exact absurd h hno
  · exact absurd h hno
  · rw [heq, ← hcontent]
    rfl

lemma identityTrees_prepare_of_not (h : ¬ AsksIdentity op info x) :
    identityTrees (prepare op info x).messages = [] := by
  rcases prepare_cases op info x with ⟨-, heq⟩ | ⟨-, dest, -, heq⟩ | ⟨hasks, -⟩
  · rw [heq]
    rfl
  · rw [heq]
    rfl
  · exact absurd hasks h

/-- The identity server is asked on behalf of the token of the attempt. -/
lemma trustId_of_mem {tree : Ptree} (h : tree ∈ identityTrees (prepare op info x).messages) :
    AsksIdentity op info x ∧ OAuth.trustId tree = tokenOf info := by
  by_cases hasks : AsksIdentity op info x
  · rw [identityTrees_prepare hasks, List.mem_singleton] at h
    rw [h, identityTree, trustId_setIdentity]
    exact ⟨hasks, rfl⟩
  · rw [identityTrees_prepare_of_not hasks] at h
    exact absurd h List.not_mem_nil

/-! ### The same request -/

lemma get_put_of_ne {texts : PTree} {path path' value default : String} (h : path ≠ path') :
    (texts.put path value).get path' default = texts.get path' default := by
  have hlookup : (texts.put path value).lookup path' = texts.lookup path' := by
    induction texts with
    | nil => rw [PTree.put, List.lookup_cons, List.lookup_nil, beq_false_of_ne h.symm]
    | cons x texts ih =>
        obtain ⟨name, text⟩ := x
        rw [PTree.put]
        split_ifs with hname
        · subst hname
          rw [List.lookup_cons, List.lookup_cons, beq_false_of_ne h.symm]
        · rw [List.lookup_cons, List.lookup_cons, ih]
  rw [PTree.get, PTree.get, hlookup]

lemma get_put_self {texts : PTree} {path value default : String} :
    (texts.put path value).get path default = value := by
  induction texts with
  | nil => simp [PTree.put, PTree.get]
  | cons x texts ih =>
      obtain ⟨name, text⟩ := x
      rw [PTree.put]
      split_ifs with hname
      · subst hname
        simp [PTree.get]
      · rw [PTree.get, List.lookup_cons, beq_false_of_ne (Ne.symm hname)]
        exact ih

/-- The token of an attempt is what the identity server has answered last. -/
lemma tokenOf_infoAt (n : ℕ) :
    tokenOf (infoAt op info net n) = tokenAt op (tokenOf info) net n := by
  induction n with
  | zero => rfl
  | succ n ih =>
      rw [tokenAt, ← ih, infoAt, nextInfo, tokenOf]
      rcases prepare_cases op (infoAt op info net n) (net n) with
        ⟨hno, heq⟩ | ⟨hno, dest, -, heq⟩ | ⟨hasks, dest, _, _, -, -, heq⟩
      · rw [heq, if_neg hno]
        rfl
      · rw [heq, if_neg hno]
        rfl
      · rw [heq, if_pos hasks]
        exact get_put_self

/-- Only the token changes. -/
lemma get_nextInfo {path default : String} (h : "token" ≠ path) :
    (nextInfo op info x).texts.get path default = info.texts.get path default := by
  rw [nextInfo]
  rcases prepare_cases op info x with ⟨-, heq⟩ | ⟨-, dest, -, heq⟩ | ⟨-, dest, _, _, -, -, heq⟩
  · rw [heq]
  · rw [heq]
  · rw [heq]
    exact get_put_of_ne h

lemma lookup_changeHeader {headers : List (String × String)} {name name' value : String}
    (h : name ≠ name') :
    (HttpRequest.changeHeader headers name value).lookup name' = headers.lookup name' := by
  have hlast : List.lookup name' [(name, value)] = none := by
    rw [List.lookup_cons, List.lookup_nil, beq_false_of_ne h.symm]
  rw [HttpRequest.changeHeader, List.lookup_append, hlast, Option.or_none]
  induction headers with
  | nil => rfl
  | cons x headers ih =>
      obtain ⟨name'', text⟩ := x
      by_cases hname : name'' = name
      · subst hname
        rw [List.filter_cons_of_neg (by simp), ih, List.lookup_cons, beq_false_of_ne h.symm]
      · rw [List.filter_cons_of_pos (by simpa using hname), List.lookup_cons, List.lookup_cons, ih]

lemma lookup_unless {c : Prop} [Decidable c] {headers : List (String × String)}
    {name name' value : String} (h : name ≠ name') :
    (if c then headers else HttpRequest.changeHeader headers name value).lookup name' =
      headers.lookup name' := by
  split_ifs
  · rfl
  · exact lookup_changeHeader h

/-- The headers of the service are those of the texts. -/
lemma lookup_createRequest {method server resource content query : String} {texts : PTree} :
    (createRequest method server resource content query texts).headers.lookup
        Types.fiwareService = some (texts.get "service" "") ∧
      (createRequest method server resource content query texts).headers.lookup
        Types.fiwareServicePath = some (texts.get "service_path" "/") := by
  have hauth : Types.iotHttpHeaderAuth ≠ Types.fiwareService ∧
      Types.iotHttpHeaderAuth ≠ Types.fiwareServicePath := by decide
  have htrace : Types.headerTraceMessages ≠ Types.fiwareService ∧
      Types.headerTraceMessages ≠ Types.fiwareServicePath := by decide
  constructor
  · exact (lookup_unless htrace.1).trans (lookup_unless hauth.1)
  · exact (lookup_unless htrace.2).trans (lookup_unless hauth.2)

/-- What a request to the broker is made of. -/
structure MadeOf (op : Operation) (texts : PTree) (dest : IoTUrl) (request : CbRequest) : Prop where
  url : IoTUrl.ofString op.url = .ok dest
  endpoint : request.endpoint = ⟨dest.host, dest.port⟩
  resource : request.request.resource = dest.path
  queryString : request.request.queryString = dest.query
  content : request.request.content = op.content
  service : request.request.headers.lookup Types.fiwareService = some (texts.get "service" "")
  servicePath : request.request.headers.lookup Types.fiwareServicePath =
    some (texts.get "service_path" "/")

lemma madeOf_brokerRequest {dest : IoTUrl} {texts : PTree} {resolves : Bool} {request : CbRequest}
    (hurl : IoTUrl.ofString op.url = .ok dest)
    (h : brokerRequest op dest texts resolves = some request) :
    MadeOf op texts dest request := by
  rw [brokerRequest] at h
  split_ifs at h
  obtain ⟨timeout, -, rfl⟩ := Option.map_eq_some_iff.mp h
  exact ⟨hurl, rfl, rfl, rfl, rfl, lookup_createRequest.1, lookup_createRequest.2⟩

/-- The request of an attempt is made of the URL, the content and the texts. -/
lemma madeOf_prepare {request : CbRequest} (h : (prepare op info x).request = some request) :
    ∃ dest, MadeOf op info.texts dest request := by
  rcases prepare_cases op info x with
    ⟨-, heq⟩ | ⟨-, dest, hurl, heq⟩ | ⟨-, dest, _, _, hurl, -, heq⟩
  · rw [heq] at h
    cases h
  · rw [heq] at h
    exact ⟨dest, madeOf_brokerRequest hurl h⟩
  · rw [heq] at h
    have hmade := madeOf_brokerRequest hurl h
    refine ⟨dest, { hmade with service := ?_, servicePath := ?_ }⟩
    · rw [hmade.service, get_put_of_ne (by decide)]
    · rw [hmade.servicePath, get_put_of_ne (by decide)]

/-- Requests that are made of the same texts are the same. -/
lemma MadeOf.sameRequest {texts : PTree} {dest dest' : IoTUrl} {request request' : CbRequest}
    (h : MadeOf op texts dest request) (h' : MadeOf op texts dest' request') :
    SameRequest request request' := by
  obtain rfl := Except.ok.inj (h.url.symm.trans h'.url)
  exact {
    endpoint := h.endpoint.trans h'.endpoint.symm
    resource := h.resource.trans h'.resource.symm
    queryString := h.queryString.trans h'.queryString.symm
    content := h.content.trans h'.content.symm
    service := h.service.trans h'.service.symm
    servicePath := h.servicePath.trans h'.servicePath.symm }

/-- The requests of two attempts in a row are the same. -/
lemma sameRequest_next {x' : Network} {request request' : CbRequest}
    (h : (prepare op info x).request = some request)
    (h' : (prepare op (nextInfo op info x) x').request = some request') :
    SameRequest request request' := by
  obtain ⟨dest, hmade⟩ := madeOf_prepare h
  obtain ⟨dest', hmade'⟩ := madeOf_prepare h'
  refine hmade.sameRequest { hmade' with service := ?_, servicePath := ?_ }
  · rw [hmade'.service, get_nextInfo (by decide)]
  · rw [hmade'.servicePath, get_nextInfo (by decide)]

/-! ### Attempts one after the other -/

@[simp] lemma brokerRequests_append {l l' : List Message} :
    brokerRequests (l ++ l') = brokerRequests l ++ brokerRequests l' :=
  List.filterMap_append

@[simp] lemma identityTrees_append {l l' : List Message} :
    identityTrees (l ++ l') = identityTrees l ++ identityTrees l' :=
  List.filterMap_append

/-- The messages of an operation that is started again after a refusal, by the test that is
made. -/
structure Repeats (op : Operation) (again : AdditionalInfo → Completion → Prop)
    (messages : AdditionalInfo → (ℕ → Network) → List Message) : Prop where
  last : ∀ info net, ¬ Repeated op again info net 0 → messages info net =
    (prepare op info (net 0)).messages ++
      (prepare op info (net 0)).request.toList.map fun request => .broker request (net 0).broker
  next : ∀ info net request, (prepare op info (net 0)).request = some request →
    again info (net 0).broker → messages info net = (prepare op info (net 0)).messages ++
      [.broker request (net 0).broker] ++
      messages (nextInfo op info (net 0)) fun n => net (n + 1)
  refused : ∀ info completion, again info completion → Refused completion

lemma repeats_asyncSend :
    Repeats op ReceivesAgain fun info net => (asyncSend op info net).messages where
  last info net h := by
    rw [asyncSend_eq]
    cases hrequest : (prepare op info (net 0)).request with
    | none => exact (List.append_nil _).symm
    | some request =>
        have hagain : ¬ ReceivesAgain info (net 0).broker :=
          fun hagain => h ⟨_, reportAt_zero_of_some hrequest, hagain⟩
        dsimp only
        rw [if_neg hagain]
        rfl
  next info net request hrequest hagain := by
    rw [asyncSend_eq, hrequest]
    dsimp only
    rw [if_pos hagain]
  refused info completion h := by
    obtain ⟨⟨response, hreceived, hcode⟩, -⟩ := h
    rw [received] at hreceived
    split_ifs at hreceived
    exact ⟨response, hreceived, hcode⟩

lemma repeats_send : Repeats op (SendsAgain op) fun info net => (send op info net).messages where
  last info net h := by
    rw [send_eq]
    cases hrequest : (prepare op info (net 0)).request with
    | none => exact (List.append_nil _).symm
    | some request =>
        have hagain : ¬ SendsAgain op info (net 0).broker :=
          fun hagain => h ⟨_, reportAt_zero_of_some hrequest, hagain⟩
        dsimp only
        rw [if_neg hagain]
        rfl
  next info net request hrequest hagain := by
    rw [send_eq, hrequest]
    dsimp only
    rw [if_pos hagain]
  refused info completion h := h.1

section

variable {again : AdditionalInfo → Completion → Prop}
  {messages : AdditionalInfo → (ℕ → Network) → List Message}

/-- What the identity server is sent in an attempt is on behalf of a token. -/
lemma forall_identityTrees_iff {trust : String} :
    (∀ tree ∈ identityTrees (prepare op info x).messages, OAuth.trustId tree = trust) ↔
      (AsksIdentity op info x → tokenOf info = trust) := by
  constructor
  · intro h hasks
    refine (trustId_setIdentity _ op.oauth.user op.oauth.password).symm.trans
      (h (identityTree op info) ?_)
    rw [identityTrees_prepare hasks]
    exact List.mem_singleton_self _
  · intro h tree htree
    obtain ⟨hasks, htoken⟩ := trustId_of_mem htree
    exact htoken.trans (h hasks)

/-- The last attempt has at most one request to the broker. -/
lemma messages_of_last (hmessages : Repeats op again messages)
    (h : ¬ Repeated op again info net 0) :
    brokerRequests (messages info net) =
        (prepare op info (net 0)).request.toList.map (·, (net 0).broker) ∧
      identityTrees (messages info net) = identityTrees (prepare op info (net 0)).messages := by
  rw [hmessages.last info net h, brokerRequests_append, identityTrees_append,
    brokerRequests_prepare]
  cases (prepare op info (net 0)).request with
  | none => exact ⟨rfl, List.append_nil _⟩
  | some request => exact ⟨rfl, List.append_nil _⟩

/-- An attempt that is followed by another one has a request to the broker. -/
lemma messages_of_next (hmessages : Repeats op again messages)
    (h : Repeated op again info net 0) :
    ∃ request, (prepare op info (net 0)).request = some request ∧ Refused (net 0).broker ∧
      brokerRequests (messages info net) = (request, (net 0).broker) ::
        brokerRequests (messages (nextInfo op info (net 0)) fun n => net (n + 1)) ∧
      identityTrees (messages info net) = identityTrees (prepare op info (net 0)).messages ++
        identityTrees (messages (nextInfo op info (net 0)) fun n => net (n + 1)) := by
  obtain ⟨completion, hreport, hagain⟩ := h
  obtain ⟨request, hrequest, rfl⟩ := Option.map_eq_some_iff.mp hreport
  refine ⟨request, hrequest, hmessages.refused _ _ hagain, ?_, ?_⟩
  · rw [hmessages.next info net request hrequest hagain, brokerRequests_append,
      brokerRequests_append, brokerRequests_prepare]
    rfl
  · rw [hmessages.next info net request hrequest hagain, identityTrees_append,
      identityTrees_append, List.append_assoc]
    rfl

/-- Where the first attempt has a request to the broker there is one. -/
lemma brokerRequests_ne_nil (hmessages : Repeats op again messages) {request : CbRequest}
    (h : (prepare op info (net 0)).request = some request) :
    brokerRequests (messages info net) ≠ [] := by
  by_cases hagain : Repeated op again info net 0
  · obtain ⟨_, -, -, hrequests, -⟩ := messages_of_next hmessages hagain
    rw [hrequests]
    exact List.cons_ne_nil _ _
  · rw [(messages_of_last hmessages hagain).1, h]
    exact List.cons_ne_nil _ _

/-- One attempt keeps to what is wanted. -/
lemma sameAgain_of_last (hmessages : Repeats op again messages)
    (h : ¬ Repeated op again info net 0) : SameAgain (tokenOf info) (messages info net) := by
  obtain ⟨hrequests, htrees⟩ := messages_of_last hmessages h
  refine ⟨?_, fun first second heq => ?_, ?_⟩
  · rw [hrequests, List.length_map]
    exact Nat.le_trans Option.length_toList_le (by decide)
  · rw [hrequests] at heq
    cases hrequest : (prepare op info (net 0)).request with
    | none =>
        rw [hrequest] at heq
        cases heq
    | some request =>
        rw [hrequest] at heq
        cases heq
  · rw [htrees]
    exact forall_identityTrees_iff.mpr fun _ => rfl

/-- With a request and at most a second one, which is the same, the messages keep to it if the
identity server is asked on behalf of the trust token. -/
lemma sameAgain_of_requests {trust : String} {sent : List Message}
    {first : CbRequest × Completion} (rest : Option (CbRequest × Completion))
    (hrequests : brokerRequests sent = first :: rest.toList)
    (hsame : ∀ second ∈ rest, Refused first.2 ∧ SameRequest first.1 second.1)
    (htrees : ∀ tree ∈ identityTrees sent, OAuth.trustId tree = trust) :
    SameAgain trust sent := by
  refine ⟨?_, fun first' second heq => ?_, htrees⟩
  · rw [hrequests, List.length_cons]
    exact Nat.succ_le_succ Option.length_toList_le
  · rw [hrequests] at heq
    obtain ⟨rfl, hsecond⟩ := List.cons.inj heq
    exact hsame second (Option.toList_eq_singleton_iff.mp hsecond)

/-- Two attempts keep to it if the second one does not ask on behalf of another token. -/
lemma sameAgain_iff_of_second (hmessages : Repeats op again messages)
    (hfirst : Repeated op again info net 0) (hsecond : ¬ Repeated op again info net 1) :
    SameAgain (tokenOf info) (messages info net) ↔
      (AsksIdentity op (infoAt op info net 1) (net 1) →
        tokenOf (infoAt op info net 1) = tokenOf info) := by
  obtain ⟨request, hrequest, hrefused, hrequests, htrees⟩ := messages_of_next hmessages hfirst
  obtain ⟨hrequests', htrees'⟩ := messages_of_last hmessages (mt repeated_succ.mpr hsecond)
  rw [hrequests'] at hrequests
  rw [htrees'] at htrees
  constructor
  · intro h
    have hbehalf := h.onBehalf
    rw [htrees, List.forall_mem_append] at hbehalf
    exact forall_identityTrees_iff.mp hbehalf.2
  · intro h
    rw [← Option.toList_map] at hrequests
    refine sameAgain_of_requests _ hrequests (fun second hsecond' => ?_) ?_
    · obtain ⟨request', hrequest', rfl⟩ := Option.map_eq_some_iff.mp hsecond'
      exact ⟨hrefused, sameRequest_next hrequest hrequest'⟩
    · rw [htrees, List.forall_mem_append]
      exact ⟨forall_identityTrees_iff.mpr fun _ => rfl, forall_identityTrees_iff.mpr h⟩

/-- With three attempts nothing may be sent to the broker in the third. -/
lemma sameAgain_iff_of_third (hmessages : Repeats op again messages)
    (hfirst : Repeated op again info net 0) (hsecond : Repeated op again info net 1) :
    SameAgain (tokenOf info) (messages info net) ↔
      (AsksIdentity op (infoAt op info net 1) (net 1) →
        tokenOf (infoAt op info net 1) = tokenOf info) ∧
      (AsksIdentity op (infoAt op info net 2) (net 2) →
        tokenOf (infoAt op info net 2) = tokenOf info) ∧
      reportAt op info net 2 = none := by
  obtain ⟨request, hrequest, hrefused, hrequests, htrees⟩ := messages_of_next hmessages hfirst
  obtain ⟨request', hrequest', -, hrequests', htrees'⟩ :=
    messages_of_next hmessages (repeated_succ.mp hsecond)
  rw [hrequests'] at hrequests
  rw [htrees'] at htrees
  have hthird : reportAt op info net 2 = none ↔
      (prepare op (infoAt op info net 2) (net 2)).request = none := Option.map_eq_none_iff
  rw [hthird]
  cases hrequest'' : (prepare op (infoAt op info net 2) (net 2)).request with
  | some request'' =>
      have hmore : brokerRequests (messages (infoAt op info net 2) fun n => net (n + 2)) ≠ [] :=
        brokerRequests_ne_nil hmessages hrequest''
      refine iff_of_false (fun h => hmore ?_) fun h => by cases h.2.2
      have htwo := h.atMostTwo
      rw [hrequests, List.length_cons, List.length_cons] at htwo
      exact List.eq_nil_of_length_eq_zero
        (Nat.le_zero.mp (Nat.le_of_succ_le_succ (Nat.le_of_succ_le_succ htwo)))
  | none =>
      obtain ⟨hrequests'', htrees''⟩ := messages_of_last hmessages
        (not_repeated_of_none (fun n => net (n + 2)) hrequest'')
      rw [hrequest''] at hrequests''
      have hrequests₂ : brokerRequests (messages info net) =
          [(request, (net 0).broker), (request', (net 1).broker)] := by
        rw [hrequests]
        exact congrArg (_ :: _ :: ·) hrequests''
      have htrees₂ : identityTrees (messages info net) =
          identityTrees (prepare op info (net 0)).messages ++
            (identityTrees (prepare op (infoAt op info net 1) (net 1)).messages ++
              identityTrees (prepare op (infoAt op info net 2) (net 2)).messages) := by
        rw [htrees]
        exact congrArg (fun l => _ ++ (_ ++ l)) htrees''
      constructor
      · intro h
        have hbehalf := h.onBehalf
        rw [htrees₂, List.forall_mem_append, List.forall_mem_append] at hbehalf
        exact ⟨forall_identityTrees_iff.mp hbehalf.2.1,
          forall_identityTrees_iff.mp hbehalf.2.2, rfl⟩
      · rintro ⟨hone, htwo, -⟩
        refine sameAgain_of_requests (some _) hrequests₂ (fun second hsecond' => ?_) ?_
        · obtain rfl := Option.some.inj hsecond'
          exact ⟨hrefused, sameRequest_next hrequest hrequest'⟩
        · rw [htrees₂, List.forall_mem_append, List.forall_mem_append]
          exact ⟨forall_identityTrees_iff.mpr fun _ => rfl, forall_identityTrees_iff.mpr hone,
            forall_identityTrees_iff.mpr htwo⟩

/-- An operation that is started again keeps to what is wanted if its attempts do. -/
lemma sameAgain_iff_renewsOnce (hmessages : Repeats op again messages) :
    SameAgain (tokenOf info) (messages info net) ↔ RenewsOnce op again info net := by
  rw [RenewsOnce, ← tokenOf_infoAt, ← tokenOf_infoAt]
  by_cases hfirst : Repeated op again info net 0
  · by_cases hsecond : Repeated op again info net 1
    · rw [sameAgain_iff_of_third hmessages hfirst hsecond]
      simp only [hfirst, hsecond, forall_const]
    · rw [sameAgain_iff_of_second hmessages hfirst hsecond]
      simp only [hfirst, hsecond, forall_const, false_imp_iff, and_true]
  · exact iff_of_true (sameAgain_of_last hmessages hfirst) fun h => absurd h hfirst

end

/-! ### Both ways of sending -/

/-- **A refused request is sent again as it was**, once, with a token on behalf of the trust
token, exactly when the second attempt does not ask for a token or still has the trust token,
and a third attempt, which only a negative number of tries leads to, sends nothing to the broker
and asks for no other token. -/
theorem sameAgain_iff (op : Operation) (info : AdditionalInfo) (net : ℕ → Network) :
    (SameAgain (tokenOf info) (asyncSend op info net).messages ↔
      RenewsOnce op ReceivesAgain info net) ∧
    (SameAgain (tokenOf info) (send op info net).messages ↔
      RenewsOnce op (SendsAgain op) info net) :=
  ⟨sameAgain_iff_renewsOnce repeats_asyncSend, sameAgain_iff_renewsOnce repeats_send⟩

/-- A number of tries that is not negative leads to two attempts at most. -/
lemma renewsOnce_iff_of_nonneg {again : AdditionalInfo → Completion → Prop}
    (hagain : ∀ info completion, again info completion → info.numberOfTries < 1)
    (hinfo : 0 ≤ info.numberOfTries) : RenewsOnce op again info net ↔
      (Repeated op again info net 0 → AsksWith op (tokenAt op (tokenOf info) net 1) (net 1) →
        tokenAt op (tokenOf info) net 1 = tokenOf info) := by
  have hsecond : ¬ Repeated op again info net 1 := by
    rintro ⟨completion, -, h⟩
    have htry := hagain _ _ h
    rw [infoAt_numberOfTries] at htry
    omega
  simp only [RenewsOnce, hsecond, false_imp_iff, and_true]

/-! ### A service whose token is refused -/

/-- An update of a context, with an identity server. -/
def trustedOperation : Operation where
  oauth := { trustUrl := "http://10.0.0.3:5001/v3/auth/tokens", user := "iota", password := "iota" }
  method := "POST"
  url := "http://10.0.0.2:1026/NGSI10/updateContext"
  content := "\x7b\x7d"

/-- The identity server gives out a token, and the broker refuses that of the first attempt. -/
def refusingNetwork (n : ℕ) : Network where
  identityAnswer := some ⟨201, "session", .empty⟩
  broker := ⟨some ⟨if n = 0 then 401 else 200, ""⟩, 0, .inr (Option.some_ne_none _)⟩

/-- A service with a trust token. -/
def trustedInfo : AdditionalInfo where
  texts := [("token", "trust")]

/-- The second token is asked for on behalf of the first one. -/
theorem not_sameAgain_trusted :
    ¬ SameAgain (tokenOf trustedInfo)
        (asyncSend trustedOperation trustedInfo refusingNetwork).messages ∧
      ¬ SameAgain (tokenOf trustedInfo)
        (send trustedOperation trustedInfo refusingNetwork).messages := by
  have hrequest : (prepare trustedOperation trustedInfo (refusingNetwork 0)).request.isSome := by
    decide +kernel
  obtain ⟨request, hrequest⟩ := Option.isSome_iff_exists.mp hrequest
  have hreport := reportAt_zero_of_some hrequest
  have hasks : AsksWith trustedOperation (tokenAt trustedOperation (tokenOf trustedInfo)
      refusingNetwork 1) (refusingNetwork 1) := by decide +kernel
  have hother : tokenAt trustedOperation (tokenOf trustedInfo) refusingNetwork 1 ≠
      tokenOf trustedInfo := by decide +kernel
  constructor
  · intro h
    refine hother (((sameAgain_iff_renewsOnce repeats_asyncSend).mp h ⟨_, hreport, ?_⟩).1 hasks)
    exact ⟨⟨_, rfl, rfl⟩, by decide⟩
  · intro h
    refine hother (((sameAgain_iff_renewsOnce repeats_send).mp h ⟨_, hreport, ?_⟩).1 hasks)
    exact ⟨⟨_, rfl, rfl⟩, by decide, by decide, by decide⟩

end ContextBrokerCommunicator

end IotAgent
