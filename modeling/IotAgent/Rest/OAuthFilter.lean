import IotAgent.Util.OAuth

/-!
The authorization filter (`src/rest/oauth_filter.{h,cc}`).

The filter lets an `OAuth` object ask the identity server and then asks the access control
with the roles that the user has on the requested service path. Which roles these are is
decided by the identifier of the project, which the handler of the projects leaves in a field
of the object. Where it finds none and does not refuse, the identifier stays empty, and an
assignment that has no project at all counts as one on the project.

* `OAuthFilter`, `handleRequest`, `authorize`, `accessControl`: the filter;
* `beforeProjects`, `afterProjects`: the exchange up to the request for the projects, and
  from the answer to it to the verdict;
* `FailsClosed`: the access control is asked with the roles on the requested service path
  only;
* `failsClosed_iff`: the answers for which the filter does.
-/

namespace IotAgent

/-- What the filter reads of a request. -/
structure FilterRequest where
  method : String
  resource : String
  fiwareService : String
  fiwareServicepath : String
  xAuthToken : String

/-- The requested service path; the root without a header. -/
def FilterRequest.servicepath (req : FilterRequest) : String :=
  if req.fiwareServicepath = "" then "/" else req.fiwareServicepath

/-- The filter with its configuration. The rules that make an action of a method and a
resource are regular expressions. -/
structure OAuthFilter where
  authEndpointValidate : String
  authEndpointRoles : String
  authEndpointProjects : String
  acEndpoint : String
  user : String
  password : String
  domain : String
  filterUrl : String
  urlBase : String
  getAction : String → String → String

/-- How the filter ends before the identity server is asked, or the object that asks it. -/
inductive Handling where
  | callBack (status : ℤ)
  | validateUserToken (o : OAuth)

/-- How the exchange with the identity server ends. -/
inductive Verdict where
  | noAllowed (status : ℤ)
  | accessControl (roles : List String) (resourceId action : String)
  deriving DecidableEq

namespace OAuthFilter

def adminServiceAbout : String := "/about"
def adminServiceProtocols : String := "/protocols"
def unauthorized : ℤ := 401
def forbidden : ℤ := 403

variable (f : OAuthFilter) (req : FilterRequest)

/-- `handle_request`. -/
def handleRequest : Handling :=
  if req.resource = f.urlBase ++ adminServiceAbout ∨
      req.resource = f.urlBase ++ adminServiceProtocols then .callBack Types.responseCodeOk
  else if req.fiwareService = "" ∨ req.servicepath = "" ∨ req.xAuthToken = "" ∨
      f.authEndpointValidate = "" ∨ f.authEndpointRoles = "" ∨ f.authEndpointProjects = "" ∨
      f.user = "" ∨ f.password = "" ∨ f.domain = "" ∨ f.acEndpoint = "" then
    .callBack unauthorized
  else .validateUserToken
    { userToken := req.xAuthToken, domain := req.fiwareService, project := req.servicepath }

/-- `get_relative_resource`. -/
def getRelativeResource (resource : String) : String :=
  if f.filterUrl.toList <+: resource.toList then
    String.ofList (resource.toList.drop f.filterUrl.length)
  else resource

/-- `get_resource`. -/
def getResource (service subservice path : String) : String :=
  "fiware:iotagent:" ++ (service ++ ":" ++ subservice ++ ":" ++ path)

/-- The action of a request. -/
def action : String :=
  f.getAction req.method (f.getRelativeResource req.resource)

/-- The assignments in the answer with the roles. -/
def roleAssignments (roles : Ptree) : List Ptree :=
  ((roles.getChild ["role_assignments"]).map fun t => t.children.map Prod.snd).getD []

/-- The roles of the assignments whose scope reads as `id`. -/
def collect (scope id : String) (roles : Ptree) : List String :=
  ((roleAssignments roles).filter fun a => a.get ["scope", scope, "id"] "" = id).map
    (Ptree.get ["role", "id"] "")

/-- The roles that `authorize` collects. -/
def userSubserviceRoles (o : OAuth) : List String :=
  if o.project = "/" then collect "domain" o.serviceId o.userRoles
  else collect "project" o.subserviceId o.userRoles

/-- `authorize`. -/
def authorize (o : OAuth) : Verdict :=
  let resourceId := getResource o.domain o.project (f.getRelativeResource req.resource)
  if o.userId = "" ∨ o.userRoles.children = [] ∨ resourceId = "" ∨ f.action req = "" ∨
      f.acEndpoint = "" then .noAllowed unauthorized
  else .accessControl (userSubserviceRoles o) resourceId (f.action req)

/-- `access_control`: the status with which the filter ends. -/
def accessControl (authorized : Bool) : ℤ :=
  if authorized then Types.responseCodeOk else forbidden

/-! ### The exchange -/

/-- The object with which the projects are asked for, if the exchange comes so far. -/
def beforeProjects (token user : Option Response) : Option OAuth :=
  match f.handleRequest req with
  | .callBack _ => none
  | .validateUserToken o =>
      let (o, next) := o.receiveEventRenewToken token
      if next = .getUser then
        let (o, next) := o.receiveEventGetUser user
        if next = .getSubservice then some o else none
      else none

/-- The verdict after the answers with the projects and with the roles. -/
def afterProjects (o : OAuth) (projects roles : Option Response) : Verdict :=
  let (o, next) := o.receiveEventGetSubservice projects
  if next = .getUserRoles then f.authorize req (o.receiveEventGetUserRoles roles)
  else f.authorize req o

/-! ### Failing closed -/

/-- The roles that are assigned on a domain or on a project. -/
def assignedOn (scope id : String) (roles : Ptree) : List String :=
  ((roleAssignments roles).filter fun a => a.getOptional ["scope", scope, "id"] = some id).map
    (Ptree.get ["role", "id"] "")

/-- The roles `rs` are those on the service path: on the domain for the root, otherwise on a
project that the answer lists under the name of the path. -/
def OnServicePath (o : OAuth) (projects : Option Response) (roles : Ptree)
    (rs : List String) : Prop :=
  if o.project = "/" then rs = assignedOn "domain" o.serviceId roles
  else ∃ ps, OAuth.listing projects = some ps ∧ ∃ p ∈ ps, OAuth.Named o.project p ∧
    ∃ id, p.getOptional ["id"] = some id ∧ rs = assignedOn "project" id roles

/-- Whatever the answer with the roles is, the request is refused or the access control is
asked with the roles on the service path. -/
def FailsClosed (o : OAuth) (projects : Option Response) : Prop :=
  ∀ roles rs resourceId action,
    f.afterProjects req o projects roles = .accessControl rs resourceId action →
      OnServicePath o projects (Response.strResponse roles).getPtree rs

/-- The method has no action; or the projects are answered with a bad request or not at all;
or, for the root, the domain of the user has an identifier, and otherwise there is a list of
projects that is not empty, the last project of the name having an identifier. -/
def Closes (o : OAuth) (projects : Option Response) : Prop :=
  f.action req = "" ∨
    OAuth.statusCode projects = Types.responseCodeBadRequest ∨
    if o.project = "/" then o.serviceId ≠ ""
    else ∃ ps, OAuth.listing projects = some ps ∧ ps ≠ [] ∧
      ∀ p, (ps.filter fun v => OAuth.Named o.project v).getLast? = some p →
        p.get ["id"] "" ≠ ""

/-- An object with which the projects are asked for: the user is known, nothing else is. -/
structure Asking (o : OAuth) : Prop where
  user : o.userId ≠ ""
  subservice : o.subserviceId = ""
  roles : o.userRoles = .empty
  accessControl : f.acEndpoint ≠ ""

variable {f req} {o : OAuth} {projects roles token user : Option Response}

/-! ### Up to the projects -/

lemma handleRequest_object (h : f.handleRequest req = .validateUserToken o) :
    o.subserviceId = "" ∧ o.userRoles = .empty ∧ f.acEndpoint ≠ "" := by
  rw [handleRequest] at h
  split at h
  · cases h
  · split at h
    · cases h
    · next hc =>
        cases h
        simp only [not_or] at hc
        exact ⟨rfl, rfl, hc.2.2.2.2.2.2.2.2.2⟩

lemma receiveEventRenewToken_object (o : OAuth) (token : Option Response) :
    (o.receiveEventRenewToken token).1.subserviceId = o.subserviceId ∧
      (o.receiveEventRenewToken token).1.userRoles = o.userRoles := by
  rw [OAuth.receiveEventRenewToken]
  split <;> exact ⟨rfl, rfl⟩

lemma receiveEventGetUser_object (o : OAuth) (user : Option Response) :
    (o.receiveEventGetUser user).1.subserviceId = o.subserviceId ∧
      (o.receiveEventGetUser user).1.userRoles = o.userRoles := by
  rw [OAuth.receiveEventGetUser, OAuth.withUser]
  split <;> exact ⟨rfl, rfl⟩

/-- The projects are asked for a known user only. -/
lemma userId_of_getSubservice (h : (o.receiveEventGetUser user).2 = .getSubservice) :
    (o.receiveEventGetUser user).1.userId ≠ "" := by
  rw [OAuth.receiveEventGetUser] at h ⊢
  intro hempty
  rw [if_pos hempty] at h
  cases h

lemma asking_of_beforeProjects (h : f.beforeProjects req token user = some o) :
    f.Asking o := by
  rw [beforeProjects] at h
  cases hr : f.handleRequest req with
  | callBack status =>
      rw [hr] at h
      cases h
  | validateUserToken o₀ =>
      rw [hr] at h
      obtain ⟨hsub, hroles, hac⟩ := handleRequest_object hr
      dsimp only at h
      split at h
      · split at h
        · next hnext =>
            cases h
            obtain ⟨hsub₁, hroles₁⟩ := receiveEventRenewToken_object o₀ token
            obtain ⟨hsub₂, hroles₂⟩ :=
              receiveEventGetUser_object (o₀.receiveEventRenewToken token).1 user
            exact ⟨userId_of_getSubservice hnext, hsub₂.trans (hsub₁.trans hsub),
              hroles₂.trans (hroles₁.trans hroles), hac⟩
        · cases h
      · cases h

/-! ### From the projects to the verdict -/

lemma receiveEventGetUserRoles_eq (ho : o.userRoles = .empty) :
    o.receiveEventGetUserRoles roles =
      { o with userRoles := (Response.strResponse roles).getPtree } := by
  rw [OAuth.receiveEventGetUserRoles]
  cases hc : Response.strResponse roles with
  | empty => rw [Content.getPtree, ← ho]
  | text read => rfl

/-- A bad request leaves the object without roles, and the request is refused. -/
lemma afterProjects_of_bad (ho : f.Asking o)
    (h : (o.scanned projects).statusCode = Types.responseCodeBadRequest) :
    f.afterProjects req o projects roles = .noAllowed unauthorized := by
  have hroles : o.userRoles.children = [] := by rw [ho.roles]; rfl
  rw [afterProjects, OAuth.receiveEventGetSubservice, if_pos h]
  dsimp only
  rw [if_neg (by decide), authorize]
  exact if_pos (.inr (.inl hroles))

lemma getResource_ne (service subservice path : String) :
    getResource service subservice path ≠ "" := by
  unfold getResource
  rw [ne_eq, String.append_eq_empty_iff]
  exact fun h => absurd h.1 (by decide)

/-- Otherwise the roles decide, read with the identifier that the loop has left. -/
lemma afterProjects_of_ok (ho : f.Asking o) (ha : f.action req ≠ "")
    (h : (o.scanned projects).statusCode ≠ Types.responseCodeBadRequest) :
    f.afterProjects req o projects roles =
      if (Response.strResponse roles).getPtree.children = [] then .noAllowed unauthorized
      else .accessControl
        (if o.project = "/" then
          collect "domain" o.serviceId (Response.strResponse roles).getPtree
        else collect "project" (o.scanned projects).subserviceId
          (Response.strResponse roles).getPtree)
        (getResource o.domain o.project (f.getRelativeResource req.resource))
        (f.action req) := by
  have hres := getResource_ne o.domain o.project (f.getRelativeResource req.resource)
  rw [afterProjects, OAuth.receiveEventGetSubservice, if_neg h]
  dsimp only
  rw [if_pos rfl, receiveEventGetUserRoles_eq (by exact ho.roles), authorize]
  simp only [ho.user, ha, hres, ho.accessControl, false_or, or_false]
  rfl

/-- Where the identifier is not empty the default plays no part. -/
lemma collect_eq_assignedOn {scope id : String} (hid : id ≠ "") (t : Ptree) :
    collect scope id t = assignedOn scope id t := by
  rw [collect, assignedOn]
  congr 1
  refine List.filter_congr fun a _ => decide_eq_decide.mpr ?_
  exact ⟨Ptree.getOptional_of_get hid, Ptree.get_of_getOptional⟩

/-- The answer with one assignment, of a role on something. -/
def oneAssignment (scope id role : String) : Ptree :=
  .node "" [("role_assignments", .node "" [("", .node ""
    [("role", .node "" [("id", .leaf role)]),
      ("scope", .node "" [(scope, .node "" [("id", .leaf id)])])])])]

/-- With an empty identifier an assignment on something else is collected. -/
lemma collect_oneAssignment {scope other id role : String} (hne : scope ≠ other) :
    collect scope "" (oneAssignment other id role) = [role] := by
  simp [collect, roleAssignments, oneAssignment, Ptree.get, Ptree.getOptional, Ptree.getChild,
    Ptree.children, Ptree.data, Ptree.leaf, List.lookup_cons, beq_eq_false_iff_ne.mpr hne]

/-- It is not assigned there, whatever the identifier. -/
lemma assignedOn_oneAssignment {scope other id id' role : String} (hne : scope ≠ other) :
    assignedOn scope id' (oneAssignment other id role) = [] := by
  simp [assignedOn, roleAssignments, oneAssignment, Ptree.getOptional, Ptree.getChild,
    Ptree.children, List.lookup_cons, beq_eq_false_iff_ne.mpr hne]

/-! ### When the filter fails closed -/

/-- Without an action every request is refused. -/
lemma failsClosed_of_action (ha : f.action req = "") : f.FailsClosed req o projects := by
  have hno : ∀ q : OAuth, f.authorize req q = .noAllowed unauthorized := fun q =>
    if_pos (.inr (.inr (.inr (.inl ha))))
  intro roles rs resourceId action h
  rw [afterProjects] at h
  dsimp only at h
  split at h <;> simp [hno] at h

lemma failsClosed_of_bad (ho : f.Asking o)
    (h : (o.scanned projects).statusCode = Types.responseCodeBadRequest) :
    f.FailsClosed req o projects := by
  intro roles rs resourceId action hv
  rw [afterProjects_of_bad ho h] at hv
  cases hv

section Asked

variable (ho : f.Asking o) (ha : f.action req ≠ "")
  (hok : (o.scanned projects).statusCode ≠ Types.responseCodeBadRequest)
include ho ha hok

/-- The access control is asked with what the filter collects. -/
lemma failsClosed_iff_collect :
    f.FailsClosed req o projects ↔ ∀ roles : Option Response,
      (Response.strResponse roles).getPtree.children ≠ [] →
        OnServicePath o projects (Response.strResponse roles).getPtree
          (if o.project = "/" then
            collect "domain" o.serviceId (Response.strResponse roles).getPtree
          else collect "project" (o.scanned projects).subserviceId
            (Response.strResponse roles).getPtree) := by
  refine forall_congr' fun roles => ?_
  rw [afterProjects_of_ok ho ha hok]
  by_cases hc : (Response.strResponse roles).getPtree.children = []
  · simp [hc]
  · rw [if_neg hc]
    constructor
    · exact fun h _ => h _ _ _ rfl
    · rintro h rs resourceId action hv
      cases hv
      exact h hc

/-- An empty identifier of the project: a role on the domain is taken for one on the path. -/
lemma not_failsClosed_of_subservice (hp : o.project ≠ "/")
    (hsub : (o.scanned projects).subserviceId = "") : ¬ f.FailsClosed req o projects := by
  rw [failsClosed_iff_collect ho ha hok]
  intro h
  have hleak := h (some ⟨200, "", .text (oneAssignment "domain" o.serviceId "admin")⟩)
    (List.cons_ne_nil _ _)
  rw [OnServicePath, if_neg hp, if_neg hp, hsub] at hleak
  obtain ⟨ps, -, p, -, -, id, -, hrs⟩ := hleak
  have hne : "project" ≠ "domain" := by decide
  exact absurd ((collect_oneAssignment hne).symm.trans
    (hrs.trans (assignedOn_oneAssignment hne))) (List.cons_ne_nil _ _)

/-- An empty identifier of the domain: a role on a project is taken for one on the domain. -/
lemma not_failsClosed_of_service (hp : o.project = "/") (hservice : o.serviceId = "") :
    ¬ f.FailsClosed req o projects := by
  rw [failsClosed_iff_collect ho ha hok]
  intro h
  have hleak := h (some ⟨200, "", .text (oneAssignment "project" "p1" "admin")⟩)
    (List.cons_ne_nil _ _)
  rw [OnServicePath, if_pos hp, if_pos hp, hservice] at hleak
  have hne : "domain" ≠ "project" := by decide
  exact absurd ((collect_oneAssignment hne).symm.trans
    (hleak.trans (assignedOn_oneAssignment hne))) (List.cons_ne_nil _ _)

lemma failsClosed_iff_root (hp : o.project = "/") :
    f.FailsClosed req o projects ↔ o.serviceId ≠ "" := by
  constructor
  · intro h hservice
    exact not_failsClosed_of_service ho ha hok hp hservice h
  · intro hservice
    rw [failsClosed_iff_collect ho ha hok]
    intro roles _
    rw [OnServicePath, if_pos hp, if_pos hp, collect_eq_assignedOn hservice]

/-- With a project of the name its identifier decides. -/
lemma failsClosed_iff_last {ps : List Ptree} {p : Ptree} (hp : o.project ≠ "/")
    (hl : OAuth.listing projects = some ps)
    (hlast : (ps.filter fun v => OAuth.Named o.project v).getLast? = some p) :
    f.FailsClosed req o projects ↔ p.get ["id"] "" ≠ "" := by
  have hsub : (o.scanned projects).subserviceId = p.get ["id"] "" := by
    rw [OAuth.scanned_of_last hl hp hlast]
  constructor
  · intro h hid
    exact not_failsClosed_of_subservice ho ha hok hp (hsub.trans hid) h
  · intro hid
    have hmem := List.mem_filter.mp (List.mem_of_getLast? hlast)
    rw [failsClosed_iff_collect ho ha hok]
    intro roles _
    rw [OnServicePath, if_neg hp, if_neg hp, hsub, collect_eq_assignedOn hid]
    exact ⟨ps, hl, p, hmem.1, by simpa using hmem.2, p.get ["id"] "",
      Ptree.getOptional_of_get hid rfl, rfl⟩

/-- An answer that lists projects, of which the last of the name counts. -/
lemma failsClosed_iff_of_listing (hp : o.project ≠ "/") {ps : List Ptree}
    (hl : OAuth.listing projects = some ps) : f.FailsClosed req o projects ↔ ps ≠ [] ∧
      ∀ p, (ps.filter fun v => OAuth.Named o.project v).getLast? = some p →
        p.get ["id"] "" ≠ "" := by
  cases hlast : (ps.filter fun v => OAuth.Named o.project v).getLast? with
  | some p =>
      have hps : ps ≠ [] := by
        rintro rfl
        cases hlast
      rw [failsClosed_iff_last ho ha hok hp hl hlast]
      simp [hps]
  | none =>
      rw [OAuth.scanned_of_not_listed hl hp hlast] at hok
      have hps : ps = [] := by
        by_contra hne
        rw [if_neg hne] at hok
        exact hok rfl
      have hsub : (o.scanned projects).subserviceId = "" := by
        rw [OAuth.scanned_of_not_listed hl hp hlast]
        exact ho.subservice
      refine iff_of_false (not_failsClosed_of_subservice ho ha ?_ hp hsub) fun h => h.1 hps
      rwa [OAuth.scanned_of_not_listed hl hp hlast]

end Asked

lemma responseCodeOk_ne_bad : Types.responseCodeOk ≠ Types.responseCodeBadRequest := by decide

/-- A scan ends in a bad request only where the filter closes. -/
lemma closes_of_bad (h : (o.scanned projects).statusCode = Types.responseCodeBadRequest) :
    f.Closes req o projects := by
  by_cases hp : o.project = "/"
  · rw [OAuth.scanned_root hp] at h
    exact .inr (.inl h)
  · cases hl : OAuth.listing projects with
    | none =>
        rw [OAuth.scanned_of_none hl] at h
        exact .inr (.inl h)
    | some ps =>
        refine .inr (.inr ?_)
        rw [if_neg hp]
        cases hlast : (ps.filter fun v => OAuth.Named o.project v).getLast? with
        | some p =>
            rw [OAuth.scanned_of_last hl hp hlast] at h
            exact absurd h responseCodeOk_ne_bad
        | none =>
            refine ⟨ps, hl, fun hps => ?_, fun p hp' => by simp [hlast] at hp'⟩
            rw [OAuth.scanned_of_not_listed hl hp hlast, if_pos hps,
              OAuth.statusCode_of_listing hl] at h
            exact responseCodeOk_ne_bad h

lemma closes_iff_of_listing (ha : f.action req ≠ "") (hp : o.project ≠ "/") {ps : List Ptree}
    (hl : OAuth.listing projects = some ps) : f.Closes req o projects ↔ ps ≠ [] ∧
      ∀ p, (ps.filter fun v => OAuth.Named o.project v).getLast? = some p →
        p.get ["id"] "" ≠ "" := by
  have hstatus : OAuth.statusCode projects ≠ Types.responseCodeBadRequest := by
    rw [OAuth.statusCode_of_listing hl]
    exact responseCodeOk_ne_bad
  rw [Closes, if_neg hp, hl]
  simp [ha, hstatus]

/-- The exact condition, for an object with which the projects are asked for. -/
lemma failsClosed_iff_of_asking (ho : f.Asking o) :
    f.FailsClosed req o projects ↔ f.Closes req o projects := by
  by_cases ha : f.action req = ""
  · exact iff_of_true (failsClosed_of_action ha) (.inl ha)
  by_cases hok : (o.scanned projects).statusCode = Types.responseCodeBadRequest
  · exact iff_of_true (failsClosed_of_bad ho hok) (closes_of_bad hok)
  by_cases hp : o.project = "/"
  · have hstatus : OAuth.statusCode projects ≠ Types.responseCodeBadRequest := by
      rwa [OAuth.scanned_root hp] at hok
    rw [failsClosed_iff_root ho ha hok hp, Closes, if_pos hp]
    simp [ha, hstatus]
  cases hl : OAuth.listing projects with
  | none =>
      have hsub : (o.scanned projects).subserviceId = "" := by
        rw [OAuth.scanned_of_none hl]
        exact ho.subservice
      refine iff_of_false (not_failsClosed_of_subservice ho ha hok hp hsub) ?_
      have hstatus : OAuth.statusCode projects ≠ Types.responseCodeBadRequest := by
        rwa [OAuth.scanned_of_none hl] at hok
      rw [Closes, if_neg hp, hl]
      simp [ha, hstatus]
  | some ps => rw [failsClosed_iff_of_listing ho ha hok hp hl, closes_iff_of_listing ha hp hl]

/-- **Failing closed on the service path**: after the projects are asked for, the access
control is asked with the roles on the requested service path, or the request is refused,
exactly when the answer closes the filter. -/
theorem failsClosed_iff (f : OAuthFilter) (req : FilterRequest) (token user : Option Response)
    (projects : Option Response) {o : OAuth} (h : f.beforeProjects req token user = some o) :
    f.FailsClosed req o projects ↔ f.Closes req o projects :=
  failsClosed_iff_of_asking (asking_of_beforeProjects h)

/-- A filter, a request for the service path `/ssrv`, and the answers up to the projects. -/
def filterOfService : OAuthFilter :=
  ⟨"http://ks/v3/auth/tokens", "http://ks/v3/role_assignments", "http://ks/v3/projects",
    "http://ac/pdp", "pep", "pep", "admin_domain", "/iot", "/iot",
    fun method _ => if method = "GET" then "read" else ""⟩

def requestOfService : FilterRequest :=
  ⟨"GET", "/iot/devices", "srv", "/ssrv", "token"⟩

def tokenAnswer : Response :=
  ⟨201, "pep-token", .empty⟩

def userAnswer : Response :=
  ⟨200, "", .text (.node "" [("token", .node "" [("user", .node ""
    [("id", .leaf "u1"), ("domain", .node "" [("id", .leaf "d1"), ("name", .leaf "srv")])])])])⟩

/-- The object with which the projects are asked for then. -/
def askingProjects : OAuth :=
  { userToken := "token", domain := "srv", project := "/ssrv", userId := "u1", serviceId := "d1",
    subjectToken := "pep-token" }

lemma beforeProjects_ofService :
    filterOfService.beforeProjects requestOfService (some tokenAnswer) (some userAnswer) =
      some askingProjects := by
  rfl

/-- The projects are not found: the status is 404, and the request is not refused. -/
theorem not_failsClosed_notFound :
    filterOfService.beforeProjects requestOfService (some tokenAnswer) (some userAnswer) =
      some askingProjects ∧
    ¬ filterOfService.FailsClosed requestOfService askingProjects (some ⟨404, "", .empty⟩) := by
  refine ⟨rfl, fun h => ?_⟩
  have hrs := h (some ⟨200, "", .text (oneAssignment "domain" "d1" "admin")⟩) ["admin"]
    "fiware:iotagent:srv:/ssrv:/devices" "read" (by decide +kernel)
  obtain ⟨ps, hps, -⟩ := hrs
  cases hps

/-- An answer that lists the project closes the filter. -/
theorem failsClosed_iff_listed :
    filterOfService.FailsClosed requestOfService askingProjects
      (some ⟨200, "", .text (.node "" [("projects", .node "" [("", .node ""
        [("id", .leaf "p1"), ("name", .leaf "/ssrv")])])])⟩) := by
  refine (failsClosed_iff filterOfService requestOfService (some tokenAnswer)
    (some userAnswer) _ beforeProjects_ofService).mpr (.inr (.inr ?_))
  rw [if_neg (by decide)]
  refine ⟨_, rfl, List.cons_ne_nil _ _, fun p hp => ?_⟩
  have hlast : some (Ptree.node "" [("id", .leaf "p1"), ("name", .leaf "/ssrv")]) = some p := hp
  obtain rfl := Option.some.inj hlast
  decide

end OAuthFilter

end IotAgent
