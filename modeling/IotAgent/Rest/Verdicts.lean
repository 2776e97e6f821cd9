import IotAgent.Rest.OAuthFilter
import IotAgent.Util.HttpClient
import Mathlib.Data.List.Infix

/-!
The verdict of the authorization filter over the steps of an exchange.

A request that is validated stays open over five requests to other servers, each sent from
the callback of the one before, until a handler posts a status for it. A client for a server
whose name does not resolve is not made, and the exception leaves the callback in which it
was to be made.

* `Session`, `Outcomes`: what the handlers share, and what the outside answers;
* `OAuthFilter.send`, `renewToken`, `getUser`, `getSubservice`, `getUserRoles`,
  `applicationCallback`: the steps;
* `OAuthFilter.Decides`: how a step of the filter ends by the steps that may follow it, and
  `decides_send`: the rule for a request and its callback;
* `OneVerdict`, `oneVerdict_iff`: one status is posted exactly when the names resolve.
-/

namespace IotAgent

open HttpClient

/-- The requests to other servers. -/
inductive OAuthStep where
  | renewToken
  | getUser
  | getSubservice
  | getUserRoles
  | accessControl
  deriving DecidableEq

/-- An answer of the access control. -/
structure AccessControlAnswer where
  statusCode : ℤ
  content : String

/-- `AccessControl::receive_event`: whether the answer is a permit. -/
def AccessControlAnswer.permits (response : Option AccessControlAnswer) : Bool :=
  match response with
  | some r => r.statusCode = Types.responseCodeOk ∧ "Permit".toList <:+: r.content.toList
  | none => false

/-- What the outside does: whether the name of a server resolves when the client of a step is
made, with the error if it does not, and the handlers of each request. -/
structure Outcomes where
  resolve : OAuthStep → (address : String) → (port : ℤ) → Except String Unit
  oauth : OAuthStep → Exchange Response
  accessControl : Exchange AccessControlAnswer

/-- A step and its endpoint, for which a client is made. -/
def Outcomes.Connects (E : Outcomes) (x : OAuthStep × String) : Prop :=
  ∃ dest, IoTUrl.ofString x.2 = .ok dest ∧ E.resolve x.1 dest.host dest.port = .ok ()

lemma Outcomes.connects_iff {E : Outcomes} {x : OAuthStep × String} {dest : IoTUrl}
    (h : IoTUrl.ofString x.2 = .ok dest) :
    E.Connects x ↔ E.resolve x.1 dest.host dest.port = .ok () := by
  constructor
  · rintro ⟨dest', h', hresolve⟩
    rw [h] at h'
    cases h'
    exact hresolve
  · exact fun hresolve => ⟨dest, h, hresolve⟩

instance (E : Outcomes) (x : OAuthStep × String) : Decidable (E.Connects x) :=
  match h : IoTUrl.ofString x.2 with
  | .error _ => isFalse fun hc => by
      obtain ⟨dest, h', -⟩ := hc
      rw [h] at h'
      cases h'
  | .ok _ => decidable_of_iff _ (Outcomes.connects_iff h).symm

/-- What the handlers of a request share: the object, the requests that were sent and the
statuses that were posted. -/
structure Session where
  oauth : OAuth
  sent : List OAuthStep := []
  posted : List ℤ := []

/-- `call_to_callback` is posted with a status. -/
def Session.post (s : Session) (status : ℤ) : Session :=
  { s with posted := s.posted ++ [status] }

namespace OAuthFilter

variable (f : OAuthFilter) (req : FilterRequest) (E : Outcomes)

/-! ### The steps -/

/-- A request to another server with its callback, from making the client to the last of its
handlers, and the exception if the client is not made. -/
def send {ρ : Type} (step : OAuthStep) (endpoint : String) (exchange : Exchange ρ)
    (callback : Option ρ → Session → Session × Except IotaException Unit) (s : Session) :
    Session × Except IotaException Unit :=
  match IoTUrl.ofString endpoint with
  | .error e => (s, .error e)
  | .ok dest =>
      match E.resolve step dest.host dest.port with
      | .error what => (s, .error (resolveError dest.host what))
      | .ok () =>
          (asyncSend callback exchange.handlers { s with sent := s.sent ++ [step] }, .ok ())

/-- The callback of the access control. -/
def receiveEvent (response : Option AccessControlAnswer) (s : Session) :
    Session × Except IotaException Unit :=
  (s.post (accessControl (AccessControlAnswer.permits response)), .ok ())

/-- The callback of the filter. -/
def applicationCallback (s : Session) : Session × Except IotaException Unit :=
  match f.authorize req s.oauth with
  | .noAllowed status => (s.post status, .ok ())
  | .accessControl _ _ _ =>
      send E .accessControl f.acEndpoint E.accessControl receiveEvent s

/-- The end of a handler: the callback of the filter, or the next request. -/
def goOn (next : Session → Session × Except IotaException Unit) (x : OAuth × NextStep)
    (s : Session) : Session × Except IotaException Unit :=
  if x.2 = .applicationCallback then f.applicationCallback req E { s with oauth := x.1 }
  else next { s with oauth := x.1 }

/-- `get_user_roles`. -/
def getUserRoles : Session → Session × Except IotaException Unit :=
  send E .getUserRoles f.authEndpointRoles (E.oauth .getUserRoles) fun response s =>
    f.applicationCallback req E { s with oauth := s.oauth.receiveEventGetUserRoles response }

/-- `get_subservice`. -/
def getSubservice : Session → Session × Except IotaException Unit :=
  send E .getSubservice f.authEndpointProjects (E.oauth .getSubservice) fun response s =>
    f.goOn req E (f.getUserRoles req E) (s.oauth.receiveEventGetSubservice response) s

/-- `get_user`. -/
def getUser : Session → Session × Except IotaException Unit :=
  send E .getUser f.authEndpointValidate (E.oauth .getUser) fun response s =>
    f.goOn req E (f.getSubservice req E) (s.oauth.receiveEventGetUser response) s

/-- `renew_token`. -/
def renewToken : Session → Session × Except IotaException Unit :=
  send E .renewToken f.authEndpointValidate (E.oauth .renewToken) fun response s =>
    f.goOn req E (f.getUser req E) (s.oauth.receiveEventRenewToken response) s

/-- `validate_user_token` for an object that is made for a request, and all that follows. -/
def validateUserToken (o : OAuth) : Session × Except IotaException Unit :=
  f.renewToken req E { oauth := o }

/-! ### The steps that the answers lead to -/

/-- The steps after the exchange with the identity server. -/
def callbackSteps (o : OAuth) : List (OAuthStep × String) :=
  match f.authorize req o with
  | .noAllowed _ => []
  | .accessControl _ _ _ => [(.accessControl, f.acEndpoint)]

/-- The steps after a handler. -/
def stepsAfter (next : OAuth → List (OAuthStep × String)) (x : OAuth × NextStep) :
    List (OAuthStep × String) :=
  if x.2 = .applicationCallback then f.callbackSteps req x.1 else next x.1

/-- The steps from the request for the roles on. -/
def rolesSteps (o : OAuth) : List (OAuthStep × String) :=
  (.getUserRoles, f.authEndpointRoles) ::
    f.callbackSteps req (o.receiveEventGetUserRoles (E.oauth .getUserRoles).answer)

/-- The steps from the request for the projects on. -/
def subserviceSteps (o : OAuth) : List (OAuthStep × String) :=
  (.getSubservice, f.authEndpointProjects) ::
    f.stepsAfter req (f.rolesSteps req E)
      (o.receiveEventGetSubservice (E.oauth .getSubservice).answer)

/-- The steps from the request for the user on. -/
def userSteps (o : OAuth) : List (OAuthStep × String) :=
  (.getUser, f.authEndpointValidate) ::
    f.stepsAfter req (f.subserviceSteps req E)
      (o.receiveEventGetUser (E.oauth .getUser).answer)

/-- The steps after the first, the request for the token. -/
def stepsAfterToken (o : OAuth) : List (OAuthStep × String) :=
  f.stepsAfter req (f.userSteps req E)
    (o.receiveEventRenewToken (E.oauth .renewToken).answer)

/-! ### One verdict -/

/-- What the filter owes to a request that it validates: one status, unless the first request
is not sent; and 200 only when the access control was asked and answered with a permit. -/
structure OneVerdict (o : OAuth) : Prop where
  once : (∃ e, (f.validateUserToken req E o).2 = .error e) ∨
    ∃ status, (f.validateUserToken req E o).1.posted = [status]
  permit : Types.responseCodeOk ∈ (f.validateUserToken req E o).1.posted →
    .accessControl ∈ (f.validateUserToken req E o).1.sent ∧
      AccessControlAnswer.permits E.accessControl.answer = true

variable {f req E}

/-! ### A request and its callback -/

section Send

variable {ρ : Type} {step : OAuthStep} {endpoint : String} {exchange : Exchange ρ}
  {callback : Option ρ → Session → Session × Except IotaException Unit} {s : Session}

lemma send_of_connects (h : E.Connects (step, endpoint)) :
    send E step endpoint exchange callback s =
      (asyncSend callback exchange.handlers { s with sent := s.sent ++ [step] }, .ok ()) := by
  obtain ⟨dest, hdest, hresolve⟩ := h
  dsimp only at hdest hresolve
  simp only [send, hdest, hresolve]

/-- Without a client nothing happens but the exception. -/
lemma send_of_not_connects (h : ¬ E.Connects (step, endpoint)) :
    ∃ e, send E step endpoint exchange callback s = (s, .error e) := by
  rw [send]
  split
  · next e hdest => exact ⟨e, rfl⟩
  · next dest hdest =>
      split
      · next what hresolve => exact ⟨_, rfl⟩
      · next hresolve => exact absurd ⟨dest, hdest, hresolve⟩ h

lemma send_threw {e : IotaException}
    (h : (send E step endpoint exchange callback s).2 = .error e) :
    (send E step endpoint exchange callback s).1 = s := by
  by_cases hc : E.Connects (step, endpoint)
  · rw [send_of_connects hc] at h
    cases h
  · obtain ⟨e', he⟩ := @send_of_not_connects E _ step endpoint exchange callback s hc
    rw [he]

end Send

/-! ### The callback of the filter -/

variable (E) in
/-- One status is posted after those that were there, and 200 only for a permit. -/
def Posts (posted : List ℤ) (s : Session) : Prop :=
  ∃ status, s.posted = posted ++ [status] ∧
    (status = Types.responseCodeOk → .accessControl ∈ s.sent ∧
      AccessControlAnswer.permits E.accessControl.answer = true)

variable (E) in
/-- A step, for the objects that it may find, against the steps that the answers lead to: if
their clients are made it ends with a status, otherwise without one; and if its own client is
not made, it throws and leaves everything as it is. -/
structure Decides (I : OAuth → Prop) (X : Session → Session × Except IotaException Unit)
    (steps : OAuth → List (OAuthStep × String)) : Prop where
  decided : ∀ s, I s.oauth → (∀ x ∈ steps s.oauth, E.Connects x) →
    (X s).2 = .ok () ∧ Posts E s.posted (X s).1
  lost : ∀ s, I s.oauth → (¬ ∀ x ∈ steps s.oauth, E.Connects x) →
    (X s).1.posted = s.posted
  threw : ∀ s e, (X s).2 = .error e → (X s).1 = s

lemma receiveEvent_posts (response : Option AccessControlAnswer) (s : Session)
    (hsent : .accessControl ∈ s.sent) (hresponse : response = E.accessControl.answer) :
    Posts E s.posted (receiveEvent response s).1 := by
  refine ⟨_, rfl, fun hok => ⟨hsent, ?_⟩⟩
  rw [← hresponse]
  by_contra hno
  rw [accessControl, if_neg hno] at hok
  simp [forbidden, Types.responseCodeOk] at hok

/-- The verdict after the exchange, and the request to the access control. -/
lemma decides_applicationCallback (f : OAuthFilter) (req : FilterRequest) (E : Outcomes) :
    Decides E (fun _ => True) (f.applicationCallback req E) (f.callbackSteps req) := by
  constructor
  · intro s _ hall
    rw [callbackSteps] at hall
    rw [applicationCallback]
    cases heq : f.authorize req s.oauth with
    | noAllowed status =>
        refine ⟨rfl, status, rfl, fun hok => ?_⟩
        rw [authorize] at heq
        split at heq
        · cases heq
          simp [unauthorized, Types.responseCodeOk] at hok
        · cases heq
    | accessControl roles resourceId action =>
        rw [heq] at hall
        dsimp only
        rw [send_of_connects (hall _ List.mem_cons_self), Exchange.asyncSend_of_ok _ rfl]
        exact ⟨rfl, receiveEvent_posts E.accessControl.answer
          { s with sent := s.sent ++ [.accessControl] } (by simp) rfl⟩
  · intro s _ hnot
    rw [callbackSteps] at hnot
    rw [applicationCallback]
    cases heq : f.authorize req s.oauth with
    | noAllowed status =>
        rw [heq] at hnot
        simp at hnot
    | accessControl roles resourceId action =>
        rw [heq] at hnot
        dsimp only
        obtain ⟨e, he⟩ := @send_of_not_connects E _ .accessControl f.acEndpoint E.accessControl
          receiveEvent s fun h => hnot (by simpa using h)
        rw [he]
  · intro s e h
    rw [applicationCallback] at h ⊢
    split at h
    · cases h
    · exact send_threw h

/-! ### The rule for a request -/

section Rule

variable {I J : OAuth → Prop} {next : Session → Session × Except IotaException Unit}
  {nextSteps : OAuth → List (OAuthStep × String)} {x : OAuth × NextStep} {s : Session}

lemma goOn_decided (hnext : Decides E J next nextSteps)
    (hx : x.2 ≠ .applicationCallback → J x.1)
    (hall : ∀ y ∈ f.stepsAfter req nextSteps x, E.Connects y) :
    (f.goOn req E next x s).2 = .ok () ∧ Posts E s.posted (f.goOn req E next x s).1 := by
  rw [stepsAfter] at hall
  rw [goOn]
  split at hall
  · next hend =>
      rw [if_pos hend]
      exact (decides_applicationCallback f req E).decided { s with oauth := x.1 } trivial hall
  · next hmore =>
      rw [if_neg hmore]
      exact hnext.decided { s with oauth := x.1 } (hx hmore) hall

lemma goOn_lost (hnext : Decides E J next nextSteps) (hx : x.2 ≠ .applicationCallback → J x.1)
    (hnot : ¬ ∀ y ∈ f.stepsAfter req nextSteps x, E.Connects y) :
    (f.goOn req E next x s).1.posted = s.posted := by
  rw [stepsAfter] at hnot
  rw [goOn]
  split at hnot
  · next hend =>
      rw [if_pos hend]
      exact (decides_applicationCallback f req E).lost { s with oauth := x.1 } trivial hnot
  · next hmore =>
      rw [if_neg hmore]
      exact hnext.lost { s with oauth := x.1 } (hx hmore) hnot

/-- Only the object changes where the next step throws. -/
lemma goOn_threw (hnext : Decides E J next nextSteps) {e : IotaException}
    (h : (f.goOn req E next x s).2 = .error e) :
    (f.goOn req E next x s).1 = { s with oauth := x.1 } := by
  rw [goOn] at h ⊢
  split at h
  · next hend =>
      rw [if_pos hend]
      exact (decides_applicationCallback f req E).threw { s with oauth := x.1 } e h
  · next hmore =>
      rw [if_neg hmore]
      exact hnext.threw { s with oauth := x.1 } e h

/-- A request whose handler changes the object by `receive` and goes on. Without an answer
the handler ends in a verdict, and with the same answer it does the same a second time, as it
may be asked to when it throws. -/
theorem decides_send (step : OAuthStep) (endpoint : String) (exchange : Exchange Response)
    {receive : OAuth → Option Response → OAuth × NextStep} (hnext : Decides E J next nextSteps)
    (hidem : ∀ o r, receive (receive o r).1 r = receive o r)
    (hkeep : ∀ o r, I o → (receive o r).2 ≠ .applicationCallback → J (receive o r).1)
    (hnone : ∀ o, I o → f.stepsAfter req nextSteps (receive o none) = []) :
    Decides E I
      (send E step endpoint exchange fun r s => f.goOn req E next (receive s.oauth r) s)
      (fun o => (step, endpoint) :: f.stepsAfter req nextSteps (receive o exchange.answer)) := by
  constructor
  · intro s hs hall
    rw [List.forall_mem_cons] at hall
    have hgo := @goOn_decided f req E J next nextSteps (receive s.oauth exchange.answer)
      { s with sent := s.sent ++ [step] } hnext (hkeep _ _ hs) hall.2
    rw [send_of_connects hall.1, exchange.asyncSend_of_ok hgo.1]
    exact ⟨rfl, hgo.2⟩
  · intro s hs hnot
    rw [List.forall_mem_cons, not_and] at hnot
    by_cases hc : E.Connects (step, endpoint)
    · have hrest := hnot hc
      have hanswer : exchange.answer ≠ none := by
        intro hno
        rw [hno, hnone _ hs] at hrest
        simp at hrest
      rw [send_of_connects hc]
      -- every call of the callback does what the first one did
      let P (s' : Session) : Prop := s'.posted = s.posted ∧
        receive s'.oauth exchange.answer = receive s.oauth exchange.answer
      let Q (s' : Session) : Prop := s'.posted = s.posted
      have hP : P { s with sent := s.sent ++ [step] } := ⟨rfl, rfl⟩
      refine @Exchange.asyncSend_induction _ _ _ exchange hanswer P Q ?_ ?_ (fun _ h => h.1) _ hP
      · intro s' hs' e he
        rw [goOn_threw hnext he, hs'.2]
        exact ⟨hs'.1, hidem _ _⟩
      · intro s' hs'
        have hlost := @goOn_lost f req E J next nextSteps _ s' hnext (hkeep _ _ hs) hrest
        rw [← hs'.2] at hlost
        exact hlost.trans hs'.1
    · obtain ⟨e, he⟩ := @send_of_not_connects E _ step endpoint exchange
        (fun r s => f.goOn req E next (receive s.oauth r) s) s hc
      rw [he]
  · exact fun s e h => send_threw h

end Rule

/-! ### The handlers -/

/-- Before the roles are known a request is refused. -/
lemma callbackSteps_of_empty {o : OAuth} (ho : o.userRoles = .empty) :
    f.callbackSteps req o = [] := by
  have hroles : o.userRoles.children = [] := by rw [ho]; rfl
  rw [callbackSteps, authorize]
  simp [hroles]

lemma stepsAfter_of_empty {nextSteps : OAuth → List (OAuthStep × String)} {x : OAuth × NextStep}
    (hend : x.2 = .applicationCallback) (hx : x.1.userRoles = .empty) :
    f.stepsAfter req nextSteps x = [] := by
  rw [stepsAfter, if_pos hend, callbackSteps_of_empty hx]

lemma receiveEventRenewToken_twice (o : OAuth) (r : Option Response) :
    (o.receiveEventRenewToken r).1.receiveEventRenewToken r = o.receiveEventRenewToken r := by
  by_cases h : OAuth.renewedToken r = "" <;> simp [OAuth.receiveEventRenewToken, h]

lemma withUser_twice (o : OAuth) (r : Option Response) :
    (o.withUser r).withUser r = o.withUser r := by
  simp only [OAuth.withUser]
  split_ifs <;> simp_all

lemma receiveEventGetUser_twice (o : OAuth) (r : Option Response) :
    (o.receiveEventGetUser r).1.receiveEventGetUser r = o.receiveEventGetUser r := by
  simp only [OAuth.receiveEventGetUser, withUser_twice]

lemma scanned_twice (o : OAuth) (r : Option Response) :
    ({ o with subserviceId := (o.scanned r).subserviceId } : OAuth).scanned r =
      o.scanned r := by
  by_cases hp : o.project = "/"
  · rw [OAuth.scanned_root hp, OAuth.scanned_root (by exact hp)]
  cases hl : OAuth.listing r with
  | none => rw [OAuth.scanned_of_none hl, OAuth.scanned_of_none hl]
  | some ps =>
      cases hlast : (ps.filter fun v => OAuth.Named o.project v).getLast? with
      | some p =>
          rw [OAuth.scanned_of_last hl hp hlast]
          exact OAuth.scanned_of_last hl hp hlast
      | none =>
          rw [OAuth.scanned_of_not_listed hl hp hlast]
          exact OAuth.scanned_of_not_listed hl hp hlast

lemma receiveEventGetSubservice_twice (o : OAuth) (r : Option Response) :
    (o.receiveEventGetSubservice r).1.receiveEventGetSubservice r =
      o.receiveEventGetSubservice r := by
  simp only [OAuth.receiveEventGetSubservice, scanned_twice]

lemma receiveEventGetUserRoles_twice (o : OAuth) (r : Option Response) :
    (o.receiveEventGetUserRoles r).receiveEventGetUserRoles r =
      o.receiveEventGetUserRoles r := by
  cases h : Response.strResponse r <;> simp [OAuth.receiveEventGetUserRoles, h]

/-! ### The steps of the exchange -/

/-- The objects before the roles are known. -/
def Rolesless (o : OAuth) : Prop :=
  o.userRoles = .empty

/-- The objects before the user is known. -/
def Userless (o : OAuth) : Prop :=
  o.userRoles = .empty ∧ o.userId = ""

lemma decides_getUserRoles (f : OAuthFilter) (req : FilterRequest) (E : Outcomes) :
    Decides E Rolesless (f.getUserRoles req E) (f.rolesSteps req E) := by
  -- the handler of the roles has no next request
  have hnext : Decides E (fun _ => False) (fun s => (s, .ok ())) fun _ => [] :=
    ⟨fun _ h => h.elim, fun _ h => h.elim, fun _ _ h => by cases h⟩
  refine @decides_send f req E Rolesless _ _ _ .getUserRoles f.authEndpointRoles
    (E.oauth .getUserRoles)
    (fun o r => (o.receiveEventGetUserRoles r, .applicationCallback)) hnext ?_ ?_ ?_
  · exact fun o r => by rw [receiveEventGetUserRoles_twice]
  · exact fun o r _ h => absurd rfl h
  · exact fun o ho => stepsAfter_of_empty rfl ho

lemma decides_getSubservice (f : OAuthFilter) (req : FilterRequest) (E : Outcomes) :
    Decides E Rolesless (f.getSubservice req E) (f.subserviceSteps req E) := by
  refine decides_send .getSubservice f.authEndpointProjects (E.oauth .getSubservice)
    (decides_getUserRoles f req E) receiveEventGetSubservice_twice ?_ ?_
  · exact fun o r ho _ => ho
  · exact fun o ho => stepsAfter_of_empty rfl ho

lemma decides_getUser (f : OAuthFilter) (req : FilterRequest) (E : Outcomes) :
    Decides E Userless (f.getUser req E) (f.userSteps req E) := by
  refine decides_send .getUser f.authEndpointValidate (E.oauth .getUser)
    (decides_getSubservice f req E) receiveEventGetUser_twice ?_ ?_
  · exact fun o r ho _ => (receiveEventGetUser_object o r).2.trans ho.1
  · intro o ho
    refine stepsAfter_of_empty ?_ ((receiveEventGetUser_object o none).2.trans ho.1)
    exact if_pos ho.2

lemma decides_renewToken (f : OAuthFilter) (req : FilterRequest) (E : Outcomes) :
    Decides E Rolesless (f.renewToken req E) fun o =>
      (.renewToken, f.authEndpointValidate) :: f.stepsAfterToken req E o := by
  refine decides_send .renewToken f.authEndpointValidate (E.oauth .renewToken)
    (decides_getUser f req E) receiveEventRenewToken_twice ?_ ?_
  · intro o r ho hmore
    refine ⟨(receiveEventRenewToken_object o r).2.trans ho, ?_⟩
    rw [OAuth.receiveEventRenewToken] at hmore ⊢
    split at hmore
    · exact absurd rfl hmore
    · next h => rw [if_neg h]
  · exact fun o ho =>
      stepsAfter_of_empty rfl ((receiveEventRenewToken_object o none).2.trans ho)

/-- **One verdict for each request**: when a request is validated, one status is posted for it
exactly if, once the client of the first step is made, those of all steps are made to which
the answers lead. -/
theorem oneVerdict_iff (f : OAuthFilter) (req : FilterRequest) (E : Outcomes) {o : OAuth}
    (h : f.handleRequest req = .validateUserToken o) :
    f.OneVerdict req E o ↔
      (E.Connects (.renewToken, f.authEndpointValidate) →
        ∀ x ∈ f.stepsAfterToken req E o, E.Connects x) := by
  have hd := decides_renewToken f req E
  have ho : Rolesless o := (handleRequest_object h).2.1
  by_cases hfirst : E.Connects (.renewToken, f.authEndpointValidate)
  · have hsent : (f.validateUserToken req E o).2 = .ok () := by
      rw [validateUserToken, renewToken, send_of_connects hfirst]
    by_cases hall : ∀ x ∈ f.stepsAfterToken req E o, E.Connects x
    · obtain ⟨-, status, hposted, hpermit⟩ :=
        hd.decided { oauth := o } ho (List.forall_mem_cons.mpr ⟨hfirst, hall⟩)
      replace hposted : (f.validateUserToken req E o).1.posted = [status] := hposted
      refine iff_of_true ⟨.inr ⟨status, hposted⟩, fun hok => hpermit ?_⟩ fun _ => hall
      rw [hposted, List.mem_singleton] at hok
      exact hok.symm
    · have hlost : (f.validateUserToken req E o).1.posted = [] :=
        hd.lost { oauth := o } ho fun hboth => hall (List.forall_mem_cons.mp hboth).2
      refine iff_of_false (fun hone => ?_) fun himp => hall (himp hfirst)
      rcases hone.once with ⟨e, he⟩ | ⟨status, hposted⟩
      · rw [hsent] at he
        cases he
      · rw [hlost] at hposted
        cases hposted
  · obtain ⟨e, he⟩ : ∃ e, f.validateUserToken req E o = ({ oauth := o }, .error e) :=
      send_of_not_connects hfirst
    refine iff_of_true ⟨.inl ⟨e, by rw [he]⟩, fun hok => ?_⟩ fun hc => absurd hc hfirst
    rw [he] at hok
    cases hok

/-- An exchange that ends with an answer. -/
def answeredWith {ρ : Type} (response : ρ) : Exchange ρ where
  handlers := [.connectHandle false, .readResponse false, .checkResponse (some response),
    .timeoutConnection true]
  ends := List.cons_ne_nil _ _
  readsOnce := Nat.le_refl 1

/-- The request is answered with a permit, as long as the names in `known` resolve. -/
def permitting (known : List String) : Outcomes where
  resolve _ address _ :=
    if address ∈ known then .ok () else .error "Host not found (authoritative)"
  oauth
    | .renewToken => answeredWith tokenAnswer
    | .getUser => answeredWith userAnswer
    | .getSubservice => answeredWith ⟨200, "", .text (.node "" [("projects", .node "" [("",
        .node "" [("id", .leaf "p1"), ("name", .leaf "/ssrv")])])])⟩
    | _ => answeredWith ⟨200, "", .text (oneAssignment "project" "p1" "admin")⟩
  accessControl := answeredWith ⟨200, "<Decision>Permit</Decision>"⟩

/-- The object that is made for the request. -/
def validating : OAuth :=
  { userToken := "token", domain := "srv", project := "/ssrv" }

/-- All names resolve, and one status is posted. -/
theorem oneVerdict_permitting :
    filterOfService.OneVerdict requestOfService (permitting ["ks", "ac"]) validating := by
  refine (oneVerdict_iff filterOfService requestOfService (permitting ["ks", "ac"]) rfl).mpr
    fun _ => ?_
  decide +kernel

/-- The name of the access control does not resolve, and no status is posted. -/
theorem not_oneVerdict_unresolved :
    filterOfService.handleRequest requestOfService = .validateUserToken validating ∧
      ¬ filterOfService.OneVerdict requestOfService (permitting ["ks"]) validating := by
  refine ⟨rfl, fun h => ?_⟩
  have hposted : (filterOfService.validateUserToken requestOfService (permitting ["ks"])
      validating).1.posted = [] := by
    decide +kernel
  have hsent : (filterOfService.validateUserToken requestOfService (permitting ["ks"])
      validating).2.isOk := by
    decide +kernel
  rcases h.once with ⟨e, he⟩ | ⟨status, hstatus⟩
  · rw [he] at hsent
    cases hsent
  · rw [hposted] at hstatus
    cases hstatus

end OAuthFilter

end IotAgent
