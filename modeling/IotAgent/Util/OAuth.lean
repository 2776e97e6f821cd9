import IotAgent.Util.Types
import Mathlib.Data.List.Induction

/-!
The exchange with the identity server (`src/util/oauth_comm.{h,cc}`).

An `OAuth` object lives for one request of a client. Four answers of the identity server
reach it one after the other: the token of the agent, the user behind the client's token, the
projects of the domain and the roles of the user. Each handler puts into the fields what it
finds and asks for the next, or calls the application back.

* `Ptree`: property trees, with the look-ups along a path;
* `Response`: an answer, as far as the handlers look at it;
* `OAuth`: the object, and its handlers `receiveEventRenewToken`, `receiveEventGetUser`,
  `receiveEventGetSubservice`, `receiveEventGetUserRoles`;
* `scan_eq`: what the loop over the projects leaves behind.
-/

namespace IotAgent

/-! ### Property trees -/

/-- A property tree. -/
inductive Ptree where
  | node (data : String) (children : List (String × Ptree))

namespace Ptree

def data : Ptree → String
  | node d _ => d

def children : Ptree → List (String × Ptree)
  | node _ cs => cs

/-- The tree of a text that is not read. -/
def empty : Ptree :=
  node "" []

/-- A leaf. -/
def leaf (data : String) : Ptree :=
  node data []

/-- The tree at the end of a path; at each part the first child of the name is taken. -/
def getChild : List String → Ptree → Option Ptree
  | [], t => some t
  | part :: path, t => (t.children.lookup part).bind (getChild path)

/-- The text at the end of a path. -/
def getOptional (path : List String) (t : Ptree) : Option String :=
  (t.getChild path).map data

/-- The text at the end of a path, with a default. -/
def get (path : List String) (dflt : String) (t : Ptree) : String :=
  (t.getOptional path).getD dflt

lemma get_of_getOptional {path : List String} {dflt s : String} {t : Ptree}
    (h : t.getOptional path = some s) : t.get path dflt = s := by
  rw [get, h, Option.getD_some]

/-- A text that is not the default is there. -/
lemma getOptional_of_get {path : List String} {dflt s : String} {t : Ptree} (hs : s ≠ dflt)
    (h : t.get path dflt = s) : t.getOptional path = some s := by
  cases ho : t.getOptional path with
  | none =>
      rw [get, ho, Option.getD_none] at h
      exact absurd h.symm hs
  | some s' => rw [← h, get_of_getOptional ho]

end Ptree

/-! ### Answers -/

/-- A body: empty, or a text with what the JSON reader makes of it, which is the empty tree
if it cannot read it. -/
inductive Content where
  | empty
  | text (read : Ptree)

/-- `get_ptree`. -/
def Content.getPtree : Content → Ptree
  | empty => .empty
  | text read => read

/-- An answer of the identity server: the status, the header with a token, the body. -/
structure Response where
  statusCode : ℤ
  subjectToken : String
  content : Content

/-- The body of an answer; there may be none. -/
def Response.strResponse (response : Option Response) : Content :=
  match response with
  | some r => r.content
  | none => .empty

/-! ### The object -/

/-- What an `OAuth` object holds while it serves a request, asynchronously and for the agent
as policy enforcement point. -/
structure OAuth where
  userToken : String
  domain : String
  project : String
  userId : String := ""
  subserviceId : String := ""
  serviceId : String := ""
  userRoles : Ptree := .empty
  subjectToken : String := ""

/-- What a handler does at its end: call the application back, or send the next request. -/
inductive NextStep where
  | applicationCallback
  | getUser
  | getSubservice
  | getUserRoles
  deriving DecidableEq

namespace OAuth

/-- The token in an answer that went well. -/
def renewedToken (response : Option Response) : String :=
  match response with
  | some r => if r.statusCode = 200 ∨ r.statusCode = 202 ∨ r.statusCode = 201 then
      r.subjectToken else ""
  | none => ""

/-- `receive_event_renew_token`. The request for the user starts with clearing the user. -/
def receiveEventRenewToken (o : OAuth) (response : Option Response) : OAuth × NextStep :=
  if renewedToken response = "" then ({ o with subjectToken := "" }, .applicationCallback)
  else ({ o with subjectToken := renewedToken response, userId := "" }, .getUser)

/-- The object with the user of an answer, if it is one of the requested domain. -/
def withUser (o : OAuth) (response : Option Response) : OAuth :=
  let ptreeUser := (Response.strResponse response).getPtree
  let userId := ptreeUser.get ["token", "user", "id"] ""
  let domain := ptreeUser.get ["token", "user", "domain", "name"] ""
  if ptreeUser.children ≠ [] ∧
      (response.map Response.statusCode).getD 0 = Types.responseCodeOk ∧
      userId ≠ "" ∧ domain ≠ "" ∧ domain = o.domain then
    { o with userId, serviceId := ptreeUser.get ["token", "user", "domain", "id"] "" }
  else o

/-- `receive_event_get_user`. -/
def receiveEventGetUser (o : OAuth) (response : Option Response) : OAuth × NextStep :=
  (o.withUser response,
    if (o.withUser response).userId = "" then .applicationCallback else .getSubservice)

/-- What the loop over the projects works on. -/
structure Scan where
  found : Bool
  statusCode : ℤ
  subserviceId : String

/-- A project has the name. -/
def Named (project : String) (v : Ptree) : Prop :=
  v.get ["name"] "" = project

instance (project : String) (v : Ptree) : Decidable (Named project v) :=
  inferInstanceAs (Decidable (_ = _))

/-- The body of the loop. -/
def scanStep (project : String) (s : Scan) (v : Ptree) : Scan :=
  if project ≠ "/" then
    if Named project v then ⟨true, Types.responseCodeOk, v.get ["id"] ""⟩
    else if s.found = false then { s with statusCode := Types.responseCodeBadRequest }
    else s
  else s

/-- The loop. -/
def scan (project : String) (s : Scan) (projects : List Ptree) : Scan :=
  projects.foldl (scanStep project) s

/-- The projects of an answer; `none` where the loop is not entered. -/
def listing (response : Option Response) : Option (List Ptree) :=
  match response with
  | some ⟨statusCode, _, .text jsonProjects⟩ =>
      if statusCode = Types.responseCodeOk then
        (jsonProjects.getChild ["projects"]).map fun t => t.children.map Prod.snd
      else none
  | _ => none

/-- The status of an answer; a bad request where there is none. -/
def statusCode (response : Option Response) : ℤ :=
  (response.map Response.statusCode).getD Types.responseCodeBadRequest

/-- The status and the identifier with which the handler of the projects goes on. Without a
list the status of the answer stands. -/
def scanned (o : OAuth) (response : Option Response) : Scan :=
  match listing response with
  | some projects => scan o.project ⟨false, statusCode response, o.subserviceId⟩ projects
  | none => ⟨false, statusCode response, o.subserviceId⟩

/-- `receive_event_get_subservice`. -/
def receiveEventGetSubservice (o : OAuth) (response : Option Response) : OAuth × NextStep :=
  ({ o with subserviceId := (o.scanned response).subserviceId },
    if (o.scanned response).statusCode = Types.responseCodeBadRequest then .applicationCallback
    else .getUserRoles)

/-- `receive_event_get_user_roles`. -/
def receiveEventGetUserRoles (o : OAuth) (response : Option Response) : OAuth :=
  match Response.strResponse response with
  | .empty => o
  | .text read => { o with userRoles := read }

/-! ### The loop over the projects -/

variable {project : String} {s : Scan} {projects : List Ptree} {o : OAuth}
  {response : Option Response}

/-- For the root the projects are not looked at. -/
lemma scan_root : scan "/" s projects = s := by
  induction projects with
  | nil => rfl
  | cons v vs ih => exact ih

/-- For another path the last project of the name counts; without one the request is bad,
unless no project is listed at all. -/
lemma scan_eq (hp : project ≠ "/") (hs : s.found = false) :
    scan project s projects =
      match (projects.filter fun v => Named project v).getLast? with
      | some v => ⟨true, Types.responseCodeOk, v.get ["id"] ""⟩
      | none => if projects = [] then s
          else { s with statusCode := Types.responseCodeBadRequest } := by
  induction projects using List.reverseRecOn with
  | nil => rfl
  | append_singleton vs v ih =>
      have hlast : scan project s (vs ++ [v]) = scanStep project (scan project s vs) v := by
        simp [scan]
      rw [hlast, ih, scanStep, if_pos hp]
      by_cases hv : Named project v
      · simp [hv]
      · cases hl : (vs.filter fun v => Named project v).getLast? with
        | some w => simp [hv, hl]
        | none =>
            by_cases hvs : vs = []
            · subst hvs
              simp [hv, hs]
            · simp [hv, hl, hvs, hs]

/-- A list of projects comes with the status OK. -/
lemma statusCode_of_listing (h : listing response = some projects) :
    statusCode response = Types.responseCodeOk := by
  cases response with
  | none => cases h
  | some r =>
      obtain ⟨code, token, content⟩ := r
      cases content with
      | empty => cases h
      | text read =>
          by_cases hc : code = Types.responseCodeOk
          · exact hc
          · rw [listing, if_neg hc] at h
            cases h

lemma scanned_root (hp : o.project = "/") :
    o.scanned response = ⟨false, statusCode response, o.subserviceId⟩ := by
  rw [scanned, hp]
  cases listing response with
  | none => rfl
  | some projects => exact scan_root

lemma scanned_of_none (h : listing response = none) :
    o.scanned response = ⟨false, statusCode response, o.subserviceId⟩ := by
  rw [scanned, h]

/-- With a list the last project of the name counts. -/
lemma scanned_of_last {p : Ptree} (h : listing response = some projects)
    (hp : o.project ≠ "/")
    (hlast : (projects.filter fun v => Named o.project v).getLast? = some p) :
    o.scanned response = ⟨true, Types.responseCodeOk, p.get ["id"] ""⟩ := by
  rw [scanned, h]
  dsimp only
  rw [scan_eq hp rfl, hlast]

/-- With a list that does not have the name the request is bad, unless the list is empty. -/
lemma scanned_of_not_listed (h : listing response = some projects) (hp : o.project ≠ "/")
    (hlast : (projects.filter fun v => Named o.project v).getLast? = none) :
    o.scanned response = ⟨false, if projects = [] then statusCode response
      else Types.responseCodeBadRequest, o.subserviceId⟩ := by
  rw [scanned, h]
  dsimp only
  rw [scan_eq hp rfl, hlast]
  dsimp only
  split <;> rfl

end OAuth

end IotAgent
