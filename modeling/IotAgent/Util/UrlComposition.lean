import IotAgent.Util.Decimal

/-!
Endpoints put together from their parts (`src/util/iot_url.{h,cc}`).

The constructor of an endpoint finds the end of the host at the first slash, and the query at the
first question mark. The parts of an endpoint are found again as long as the first slash is not
one of the query; an empty path is a slash.

* `UrlParts`: a scheme, a host, a port, a path and a query that can be told apart;
* `UrlParts.compose`: the text they make;
* `ofString_compose`: the constructor finds them again.
-/

namespace IotAgent

/-- The parts of an endpoint. A port comes with its digits. -/
structure UrlParts where
  scheme : String
  host : String
  port : Option (List Char × ℕ)
  path : String
  query : Option String
  scheme_plain : ':' ∉ scheme.toList
  host_plain : ∀ c ∈ host.toList, c ≠ '/' ∧ c ≠ '?' ∧ c ≠ ':'
  port_decimal : ∀ p ∈ port, Decimal p.1 p.2 ∧ p.2 < 2 ^ 31
  path_rooted : path ≠ "" → ∃ segments, path.toList = '/' :: segments ∧ '?' ∉ segments

namespace UrlParts

variable (u : UrlParts)

/-- The port with its colon. -/
def portText : List Char :=
  (u.port.map fun p => ':' :: p.1).getD []

/-- The query with its question mark. -/
def queryText : List Char :=
  (u.query.map fun q => '?' :: q.toList).getD []

/-- `scheme://host[:port]path[?query]`. -/
def compose : String :=
  u.scheme ++ "://" ++ u.host ++ String.ofList u.portText ++ u.path ++ String.ofList u.queryText

/-- The parts, with the port of the scheme if there is none, and the slash for an empty path. -/
def expected : IoTUrl where
  url := u.compose
  protocol := u.scheme
  host := u.host
  port := (u.port.map fun p => (p.2 : ℤ)).getD (IoTUrl.defaultPort u.scheme)
  path := if u.path = "" then "/" else u.path
  query := u.query.getD ""

/-- The host with its port. -/
def hostPort : List Char :=
  u.host.toList ++ u.portText

variable {u}

lemma toList_compose : u.compose.toList =
    u.scheme.toList ++ ':' :: '/' :: '/' :: (u.hostPort ++ (u.path.toList ++ u.queryText)) := by
  simp [compose, hostPort, String.toList_append]

lemma compose_ne_empty : u.compose ≠ "" := by
  intro h
  have hlist := congrArg String.toList h
  rw [toList_compose] at hlist
  simp at hlist

/-! ### Cuts at a character -/

/-- A text is cut where a character comes for the first time. -/
lemma takeWhile_ne_append {c : Char} {l r : List Char} (hl : c ∉ l)
    (hr : r = [] ∨ ∃ t, r = c :: t) : (l ++ r).takeWhile (· ≠ c) = l := by
  have hall : ∀ a ∈ l, decide (a ≠ c) = true := fun a ha =>
    decide_eq_true fun hac => hl (hac ▸ ha)
  rw [List.takeWhile_append_of_pos hall]
  rcases hr with rfl | ⟨t, rfl⟩ <;> simp

lemma dropWhile_ne_append {c : Char} {l r : List Char} (hl : c ∉ l)
    (hr : r = [] ∨ ∃ t, r = c :: t) : (l ++ r).dropWhile (· ≠ c) = r := by
  have hall : ∀ a ∈ l, decide (a ≠ c) = true := fun a ha =>
    decide_eq_true fun hac => hl (hac ▸ ha)
  rw [List.dropWhile_append_of_pos hall]
  rcases hr with rfl | ⟨t, rfl⟩ <;> simp

/-- The scheme ends at the first `://`, which it has no colon of. -/
lemma cutProtocol_append {scheme rest : List Char} (h : ':' ∉ scheme) :
    IoTUrl.cutProtocol (scheme ++ ':' :: '/' :: '/' :: rest) = some (scheme, rest) := by
  induction scheme with
  | nil => rfl
  | cons c scheme ih =>
      rw [List.mem_cons, not_or] at h
      have hstep : IoTUrl.cutProtocol (c :: (scheme ++ ':' :: '/' :: '/' :: rest)) =
          (IoTUrl.cutProtocol (scheme ++ ':' :: '/' :: '/' :: rest)).map
            fun x => (c :: x.1, x.2) := by
        rw [IoTUrl.cutProtocol]
        rintro cs rfl
        exact absurd rfl h.1
      rw [List.cons_append, hstep, ih h.2]
      rfl

/-! ### The parts are found -/

lemma portText_cases : u.portText = [] ∨ ∃ t, u.portText = ':' :: t := by
  cases hp : u.port with
  | none => exact Or.inl (by rw [portText, hp]; rfl)
  | some p => exact Or.inr ⟨p.1, by rw [portText, hp]; rfl⟩

lemma queryText_cases : u.queryText = [] ∨ ∃ t, u.queryText = '?' :: t := by
  cases hq : u.query with
  | none => exact Or.inl (by rw [queryText, hq]; rfl)
  | some q => exact Or.inr ⟨q.toList, by rw [queryText, hq]; rfl⟩

/-- Neither slash nor question mark stands in the host or the port. -/
lemma not_mem_hostPort {c : Char} (hc : c = '/' ∨ c = '?') : c ∉ u.hostPort := by
  intro hmem
  rcases List.mem_append.mp hmem with hmem | hmem
  · obtain ⟨hslash, hquery, -⟩ := u.host_plain c hmem
    exact hc.elim hslash hquery
  · cases hp : u.port with
    | none =>
        rw [portText, hp] at hmem
        cases hmem
    | some p =>
        rw [portText, hp] at hmem
        have hdec := (u.port_decimal p hp).1
        rcases List.mem_cons.mp hmem with rfl | hmem
        · simp at hc
        · rcases hc with rfl | rfl <;> exact hdec.not_mem (by decide) hmem

/-- The host and the port, of the text between the scheme and the path. -/
lemma host_of_hostPort : u.hostPort.takeWhile (· ≠ ':') = u.host.toList :=
  takeWhile_ne_append (fun h => (u.host_plain ':' h).2.2 rfl) portText_cases

lemma port_of_hostPort :
    (if (if ':' ∈ u.hostPort then Text.atoi (u.hostPort.dropWhile (· ≠ ':')).tail else -1) = -1
      then IoTUrl.defaultPort u.scheme
      else if ':' ∈ u.hostPort then Text.atoi (u.hostPort.dropWhile (· ≠ ':')).tail else -1) =
      (u.port.map fun p => (p.2 : ℤ)).getD (IoTUrl.defaultPort u.scheme) := by
  have hcolon : ':' ∉ u.host.toList := fun h => (u.host_plain ':' h).2.2 rfl
  have hdrop : u.hostPort.dropWhile (· ≠ ':') = u.portText :=
    dropWhile_ne_append hcolon portText_cases
  rw [hdrop]
  cases hp : u.port with
  | none =>
      have hnone : ':' ∉ u.hostPort := by
        rw [hostPort, portText, hp]
        simpa using hcolon
      rw [if_neg hnone]
      rfl
  | some p =>
      have hsome : ':' ∈ u.hostPort := by
        rw [hostPort, portText, hp]
        simp
      obtain ⟨hdec, hlt⟩ := u.port_decimal p hp
      have hport : u.portText.tail = p.1 := by
        rw [portText, hp]
        rfl
      rw [if_pos hsome, hport, hdec.atoi hlt, if_neg (by omega)]
      rfl

/-- The path and the query, if there is a path. -/
lemma parts_of_path (h : u.path ≠ "") :
    let rest := u.hostPort ++ (u.path.toList ++ u.queryText)
    IoTUrl.hostPort rest = u.hostPort ∧ IoTUrl.pathOf rest = u.path.toList := by
  obtain ⟨segments, hpath, hsegments⟩ := u.path_rooted h
  have hslash : '/' ∉ u.hostPort := not_mem_hostPort (Or.inl rfl)
  have hcut : (u.path.toList ++ u.queryText) = [] ∨
      ∃ t, (u.path.toList ++ u.queryText) = '/' :: t := Or.inr ⟨_, by rw [hpath]; rfl⟩
  have hmem : '/' ∈ u.hostPort ++ (u.path.toList ++ u.queryText) := by simp [hpath]
  have htake := takeWhile_ne_append hslash hcut
  have hdrop := dropWhile_ne_append hslash hcut
  have hnoquery : '?' ∉ u.path.toList := by simp [hpath, hsegments]
  refine ⟨?_, ?_⟩
  · rw [IoTUrl.hostPort, if_pos hmem, htake]
  · rw [IoTUrl.pathOf, htake, hdrop, if_neg (by simp [hpath]),
      if_neg (not_mem_hostPort (Or.inr rfl)), takeWhile_ne_append hnoquery queryText_cases]

/-- Without a path the query begins where the host and the port end. -/
lemma parts_of_query (h : u.path = "") (hquery : ∀ q ∈ u.query, '/' ∉ q.toList) :
    let rest := u.hostPort ++ (u.path.toList ++ u.queryText)
    IoTUrl.hostPort rest = u.hostPort ∧ IoTUrl.pathOf rest = ['/'] := by
  have hslash : '/' ∉ u.hostPort ++ u.queryText := by
    rw [List.mem_append, not_or]
    refine ⟨not_mem_hostPort (Or.inl rfl), ?_⟩
    cases hq : u.query with
    | none =>
        rw [queryText, hq]
        simp
    | some q =>
        rw [queryText, hq]
        simpa using hquery q hq
  have hpath : u.path.toList = [] := by rw [h]; rfl
  have hdrop : (u.hostPort ++ u.queryText).dropWhile (· ≠ '/') = [] := by
    have := dropWhile_ne_append hslash (Or.inl rfl)
    rwa [List.append_nil] at this
  rw [hpath, List.nil_append]
  refine ⟨?_, ?_⟩
  · rw [IoTUrl.hostPort, if_neg hslash,
      takeWhile_ne_append (not_mem_hostPort (Or.inr rfl)) queryText_cases]
  · rw [IoTUrl.pathOf, hdrop, if_pos rfl]

/-- The query begins at the first question mark. -/
lemma query_of_rest :
    String.ofList ((u.hostPort ++ (u.path.toList ++ u.queryText)).dropWhile (· ≠ '?')).tail =
      u.query.getD "" := by
  have hno : '?' ∉ u.hostPort ++ u.path.toList := by
    rw [List.mem_append, not_or]
    refine ⟨not_mem_hostPort (Or.inr rfl), ?_⟩
    by_cases h : u.path = ""
    · simp [h]
    · obtain ⟨segments, hpath, hsegments⟩ := u.path_rooted h
      simp [hpath, hsegments]
  rw [← List.append_assoc, dropWhile_ne_append hno queryText_cases, queryText]
  cases u.query with
  | none => rfl
  | some q => exact String.ofList_toList

/-- **Endpoints**: the constructor finds the parts that an endpoint is put together from, unless
the path is empty and the query has a slash. -/
theorem ofString_compose (u : UrlParts)
    (h : u.path = "" → ∀ q ∈ u.query, '/' ∉ q.toList) :
    IoTUrl.ofString u.compose = .ok u.expected := by
  have hparts : IoTUrl.hostPort (u.hostPort ++ (u.path.toList ++ u.queryText)) = u.hostPort ∧
      String.ofList (IoTUrl.pathOf (u.hostPort ++ (u.path.toList ++ u.queryText))) =
        if u.path = "" then "/" else u.path := by
    by_cases hpath : u.path = ""
    · obtain ⟨hhost, hslash⟩ := parts_of_query hpath (h hpath)
      rw [if_pos hpath]
      exact ⟨hhost, by rw [hslash]⟩
    · obtain ⟨hhost, hpathOf⟩ := parts_of_path hpath
      rw [if_neg hpath]
      exact ⟨hhost, by rw [hpathOf, String.ofList_toList]⟩
  rw [IoTUrl.ofString, if_neg compose_ne_empty, toList_compose,
    cutProtocol_append u.scheme_plain]
  simp only [hparts.1, hparts.2, host_of_hostPort, query_of_rest, String.ofList_toList,
    port_of_hostPort]
  rfl

/-- An endpoint with all parts. -/
def full : UrlParts where
  scheme := "https"
  host := "0.0.0.0"
  port := some (['8', '0'], 80)
  path := "/path"
  query := some "p1=/v1:2"
  scheme_plain := by decide
  host_plain := List.forall_iff_forall_mem.mp (by decide)
  port_decimal := fun p hp => by
    cases hp
    exact ⟨⟨by decide, List.forall_iff_forall_mem.mp (by decide), by decide⟩, by decide⟩
  path_rooted := fun _ => ⟨"path".toList, rfl, by decide⟩

/-- They are found again. -/
theorem ofString_full : IoTUrl.ofString full.compose = .ok full.expected :=
  ofString_compose full fun h => by
    revert h
    decide

/-- An endpoint with a scheme and a host only. -/
def bare : UrlParts where
  scheme := "http"
  host := "host"
  port := none
  path := ""
  query := none
  scheme_plain := by decide
  host_plain := List.forall_iff_forall_mem.mp (by decide)
  port_decimal := fun p hp => by cases hp
  path_rooted := fun h => absurd rfl h

/-- Its path is not empty any more. -/
theorem ofString_bare :
    IoTUrl.ofString bare.compose ≠ .ok { bare.expected with path := bare.path } := by
  decide +kernel

/-- A slash in the query is taken for the path if there is none. -/
example : IoTUrl.ofString "http://host?next=/home" =
    .ok ⟨"http://host?next=/home", "http", "host?next=", 80, "/home", "next=/home"⟩ := by
  decide +kernel

end UrlParts

end IotAgent
