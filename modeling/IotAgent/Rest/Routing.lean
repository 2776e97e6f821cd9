import IotAgent.Lib.OrderedMap
import IotAgent.Rest.Filters
import IotAgent.Rest.RestFunctions
import Mathlib.Data.Bool.AllAny
import Mathlib.Data.List.Forall2
import Mathlib.Data.List.Lex

/-!
The handlers of a service and the requests that reach them (`src/rest/rest_handle.cc`).

A handler is registered under a URL, which is also its key in the map of the handlers; the first
registration of a URL stays. A request is matched against one handler after the other, in the
order of the keys, and goes to the first that takes it.

* `addUrl`, `handleRequest`: the two functions;
* `Route`, `Route.Takes`: a registration with its pattern, and the requests that fit it;
* `handleRequest_routes`: who gets a request after any registrations;
* `Segment.Meets`, `meets_iff`: the pairs of patterns that have a URL in common;
* `handleRequest_of_apart`: where no two patterns have one, the order plays no part.
-/

namespace IotAgent

/-- The order of the characters in a text of the code. -/
instance byteOrder : LinearOrder UInt8 where
  le_refl := UInt8.le_refl
  le_trans _ _ _ := UInt8.le_trans
  le_antisymm _ _ := UInt8.le_antisymm
  le_total := UInt8.le_total
  lt_iff_le_not_ge a b := by
    rw [UInt8.lt_iff_toNat_lt, UInt8.le_iff_toNat_le, UInt8.le_iff_toNat_le]
    omega
  toDecidableLE := inferInstance
  toDecidableLT := inferInstance
  toDecidableEq := inferInstance
  min_def _ _ := rfl
  max_def _ _ := rfl

namespace Routing

open RestFunctions
open Regex (bytes)
open Filters (ErrorResponse errorResponse)

variable {η : Type*}

/-! ### The functions -/

/-- `ResourceHandler`. -/
structure ResourceHandler (η : Type*) where
  urlRegex : StdString
  urlPlaceholders : List StdString
  restFunction : η

/-- A service: the URL base of its process, its resource, and its handlers under the URLs that
they are registered with. -/
structure Service (η : Type*) where
  urlBase : StdString
  resource : StdString
  handlers : OrderedMap StdString (ResourceHandler η) := OrderedMap.empty
  myUrlBase : StdString := []

/-- `remove_url_base`. -/
def removeUrlBase (urlBase url : StdString) : StdString :=
  if url.take urlBase.length = urlBase then url.drop urlBase.length else url

/-- The URL of a handler behind the resource, with a slash between the two. -/
def urlBasePlusUrl (urlBase resource url : StdString) : StdString :=
  let urlTrimmed := removeUrlBase urlBase url
  resource ++ (if urlTrimmed ≠ [] ∧ urlTrimmed.head? ≠ some CLocale.slash then [CLocale.slash]
    else []) ++ urlTrimmed

/-- `add_url`: the service after it, with the URL that it returns. -/
def addUrl (s : Service η) (url : StdString) (filters : List (StdString × StdString))
    (handle : η) : Service η :=
  let full := urlBasePlusUrl s.urlBase s.resource url
  let pattern := formatPattern full filters
  { s with
    handlers := s.handlers.insert (url, ⟨pattern.1, pattern.2, handle⟩)
    myUrlBase := full }

/-- What a request says of where it is to go. -/
structure Request where
  method : StdString
  originalResource : StdString
  host : StdString := []

/-- What becomes of a request: a handler is called, with the arguments of the URL and the header
for the host, or an error is answered. -/
inductive Routed (η : Type*) where
  | call (restFunction : η) (urlArgs : List (StdString × StdString)) (host : Option StdString)
  | error (response : ErrorResponse)

/-- The line that is matched. -/
def Request.requestedOperation (req : Request) : StdString :=
  req.method ++ CLocale.blank :: req.originalResource

/-- The search for a handler, in the order of the map; `none` is an exception. -/
def searchHandler (requestedOperation : StdString) :
    List (StdString × ResourceHandler η) → List (StdString × StdString) →
      Option (Option (ResourceHandler η × List (StdString × StdString)))
  | [], _ => some none
  | (_, h) :: handlers, urlArgs =>
      match restResourceParse h.urlRegex h.urlPlaceholders requestedOperation urlArgs with
      | none => none
      | some (true, urlArgs) => some (some (h, urlArgs))
      | some (false, urlArgs) => searchHandler requestedOperation handlers urlArgs

/-- `handle_request`, up to the call of the handler. `none` is an exception, whose text is
answered with an error. -/
def handleRequest (s : Service η) (req : Request) : Option (Routed η) :=
  (searchHandler req.requestedOperation s.handlers.entries []).map fun
    | none => .error (errorResponse Types.responseMessageBadRequest "" 0)
    | some (h, urlArgs) =>
        .call h.restFunction urlArgs (if req.host ≠ [] then some req.host else none)

/-! ### A request and one pattern -/

/-- A request fits a pattern that is registered with these filters, with these values of its
names. -/
def Fits (p : UrlPattern) (filters : List (StdString × StdString)) (req : Request)
    (σ : StdString → StdString) : Prop :=
  FitsFilter (methodFilter filters) req.method ∧ p.Admissible σ ∧ req.originalResource = p.fill σ

/-- A request without white space. -/
structure Request.Plain (req : Request) : Prop where
  method : ∀ c ∈ req.method, ¬ CLocale.isSpace c
  url : ∀ c ∈ req.originalResource, ¬ CLocale.isSpace c

variable {p q : UrlPattern} {filters : List (StdString × StdString)} {req : Request}
  {σ τ : StdString → StdString}

/-- The expression of a pattern, for requests. -/
lemma matches_pattern (hreq : req.Plain) {caps : List StdString} :
    Regex.Matches perl
        (compile (.seq (filterRegex (methodFilter filters)) (.plus spaces)) p.layout)
        req.requestedOperation caps ↔ ∃ σ, Fits p filters req σ ∧ caps = p.names.map σ := by
  have hnodup : (holes p.layout).Nodup := by
    rw [UrlPattern.holes_layout]
    exact p.nodup
  rw [Request.requestedOperation, matches_request hreq.method hreq.url, fills_iff hnodup,
    UrlPattern.holes_layout]
  simp only [UrlPattern.spell_layout]
  constructor
  · rintro ⟨hfits, σ, hσ, hfill, hcaps⟩
    exact ⟨σ, ⟨hfits, hσ, hfill⟩, hcaps⟩
  · rintro ⟨σ, ⟨hfits, hσ, hfill⟩, hcaps⟩
    exact ⟨hfits, σ, hσ, hfill, hcaps⟩

/-- How a request is matched against the expression of a pattern. -/
lemma restResourceParse_pattern (hfilter : ∀ c ∈ methodFilter filters, CLocale.isAlpha c)
    (resources : List (StdString × StdString)) :
    restResourceParse (formatPattern p.text filters).1 (formatPattern p.text filters).2
        req.requestedOperation resources =
      match Regex.regexMatch perl
        (compile (.seq (filterRegex (methodFilter filters)) (.plus spaces)) p.layout)
        req.requestedOperation with
      | none => some (false, resources)
      | some m => (bindGroups p.names 0 m resources).map fun resources => (true, resources) := by
  rw [show p.text = spell bracketed p.layout from UrlPattern.spell_layout.symm,
    formatPattern_spell p.ok_layout, UrlPattern.holes_layout]
  exact restResourceParse_of_parse (parse_grouped hfilter p.ok_layout) ..

/-- A request that does not fit is passed on, and nothing is bound. -/
lemma restResourceParse_of_not_fits (hfilter : ∀ c ∈ methodFilter filters, CLocale.isAlpha c)
    (hreq : req.Plain) (h : ¬ ∃ σ, Fits p filters req σ)
    (resources : List (StdString × StdString)) :
    restResourceParse (formatPattern p.text filters).1 (formatPattern p.text filters).2
      req.requestedOperation resources = some (false, resources) := by
  have hnone : Regex.regexMatch perl
      (compile (.seq (filterRegex (methodFilter filters)) (.plus spaces)) p.layout)
      req.requestedOperation = none :=
    Regex.regexMatch_eq_none_iff.mpr fun caps hcaps =>
      h (((matches_pattern hreq).mp hcaps).imp fun _ => And.left)
  rw [restResourceParse_pattern hfilter, hnone]

/-- A request that fits is taken, and the names are bound to its segments. -/
lemma restResourceParse_of_fits (hfilter : ∀ c ∈ methodFilter filters, CLocale.isAlpha c)
    (hreq : req.Plain) (h : Fits p filters req σ) :
    restResourceParse (formatPattern p.text filters).1 (formatPattern p.text filters).2
      req.requestedOperation [] =
        some (true, p.names.map fun name => (name, urlDecode (σ name))) := by
  rw [restResourceParse_pattern hfilter]
  cases hmatch : Regex.regexMatch perl
      (compile (.seq (filterRegex (methodFilter filters)) (.plus spaces)) p.layout)
      req.requestedOperation with
  | none =>
      exact absurd ((matches_pattern hreq).mpr ⟨σ, h, rfl⟩)
        (Regex.regexMatch_eq_none_iff.mp hmatch _)
  | some caps =>
      obtain ⟨τ, hτ, rfl⟩ := (matches_pattern hreq).mp (Regex.matches_of_regexMatch hmatch)
      have hbind : bindGroups p.names 0 (p.names.map τ) [] =
          some (p.names.map fun name => (name, urlDecode (τ name))) :=
        bindGroups_names [] [] p.nodup fun _ _ => List.not_mem_nil
      have hsame := UrlPattern.fill_inj hτ.2.1 h.2.1 (hτ.2.2.symm.trans h.2.2)
      dsimp only
      rw [hbind, Option.map_some]
      exact congrArg (fun l => some (true, l))
        (List.map_congr_left fun name hname => by rw [hsame name hname])

/-- What is bound to a name. -/
lemma lookup_bound (names : List StdString) (σ : StdString → StdString) (name : StdString) :
    (names.map fun name => (name, urlDecode (σ name))).lookup name =
      if name ∈ names then some (urlDecode (σ name)) else none := by
  split_ifs with hname
  · exact List.lookup_graph (fun name => urlDecode (σ name)) hname
  · rw [List.lookup_eq_none_iff, List.forall_mem_map]
    exact fun name' hname' => bne_iff_ne.mpr fun e => hname (e ▸ hname')

/-! ### Registrations -/

/-- A registration whose URL is a pattern behind the resource, with letters in its filter. -/
structure Route (η : Type*) (urlBase resource : StdString) where
  url : StdString
  filters : List (StdString × StdString)
  handle : η
  pattern : UrlPattern
  full : urlBasePlusUrl urlBase resource url = pattern.text
  letters : ∀ c ∈ methodFilter filters, CLocale.isAlpha c

/-- Without filters there are none. -/
lemma letters_nil : ∀ c ∈ methodFilter [], CLocale.isAlpha c :=
  fun _ hc => absurd hc List.not_mem_nil

section Routes

variable {urlBase resource : StdString} {r r' : Route η urlBase resource}
  {routes : List (Route η urlBase resource)} {s : Service η}

/-- The handler that a registration makes. -/
def Route.handler (r : Route η urlBase resource) : ResourceHandler η where
  urlRegex := (formatPattern r.pattern.text r.filters).1
  urlPlaceholders := (formatPattern r.pattern.text r.filters).2
  restFunction := r.handle

/-- A registration takes a request. -/
def Route.Takes (r : Route η urlBase resource) (req : Request) : Prop :=
  ∃ σ, Fits r.pattern r.filters req σ

/-- A service after registrations. -/
def register (routes : List (Route η urlBase resource)) : Service η :=
  routes.foldl (fun s r => addUrl s r.url r.filters r.handle) { urlBase, resource }

/-- The first registration of its URL, which is the one that stays. -/
def First (routes : List (Route η urlBase resource)) (r : Route η urlBase resource) : Prop :=
  routes.find? (fun r' => r'.url = r.url) = some r

lemma first_of_inj (hr : r ∈ routes) (hinj : ∀ r' ∈ routes, r'.url = r.url → r' = r) :
    First routes r := by
  cases hfind : routes.find? (fun r' => r'.url = r.url) with
  | none => exact absurd (decide_eq_true rfl) (List.find?_eq_none.mp hfind r hr)
  | some r' =>
      have hurl : r'.url = r.url := by simpa using List.find?_some hfind
      rw [First, hfind, hinj r' (List.mem_of_find?_eq_some hfind) hurl]

lemma handlers_foldl (hbase : s.urlBase = urlBase) (hresource : s.resource = resource) :
    (routes.foldl (fun s r => addUrl s r.url r.filters r.handle) s).handlers =
      s.handlers.insertAll (routes.map fun r => (r.url, r.handler)) := by
  induction routes generalizing s with
  | nil => rfl
  | cons r routes ih =>
      have hadd : (addUrl s r.url r.filters r.handle).handlers =
          s.handlers.insert (r.url, r.handler) := by
        simp only [addUrl, hbase, hresource, r.full]
        rfl
      rw [List.foldl_cons, ih (s := addUrl s r.url r.filters r.handle) hbase hresource, hadd]
      rfl

lemma handlers_register : (register routes).handlers =
    OrderedMap.ofList (routes.map fun r => (r.url, r.handler)) :=
  handlers_foldl rfl rfl

/-- The entries of the map are the first registrations. -/
lemma get_register {e : StdString × ResourceHandler η} :
    (register routes).handlers.get e.1 = some e.2 ↔
      ∃ r, First routes r ∧ e = (r.url, r.handler) := by
  rw [handlers_register, OrderedMap.get_ofList_map fun _ => decide_eq_true_iff,
    Option.map_eq_some_iff]
  constructor
  · rintro ⟨r, hfind, hhandler⟩
    have hurl : r.url = e.1 := by simpa using List.find?_some hfind
    refine ⟨r, ?_, Prod.ext hurl.symm hhandler.symm⟩
    rw [First, hurl]
    exact hfind
  · rintro ⟨r, hfirst, rfl⟩
    exact ⟨r, hfirst, rfl⟩

/-! ### The search -/

/-- A handler takes a request. -/
def accepts (req : Request) (e : StdString × ResourceHandler η) : Bool :=
  match restResourceParse e.2.urlRegex e.2.urlPlaceholders req.requestedOperation [] with
  | some (true, _) => true
  | _ => false

lemma accepts_route (hreq : req.Plain) : accepts req (r.url, r.handler) ↔ r.Takes req := by
  by_cases h : r.Takes req
  · obtain ⟨σ, hσ⟩ := h
    refine iff_of_true ?_ ⟨σ, hσ⟩
    rw [accepts, Route.handler, restResourceParse_of_fits r.letters hreq hσ]
  · refine iff_of_false ?_ h
    rw [accepts, Route.handler, restResourceParse_of_not_fits r.letters hreq h]
    exact Bool.false_ne_true

/-- Handlers that do not take the request are passed over. -/
lemma searchHandler_append {l : List (StdString × ResourceHandler η)}
    (l' : List (StdString × ResourceHandler η))
    (h : ∀ e ∈ l, restResourceParse e.2.urlRegex e.2.urlPlaceholders req.requestedOperation [] =
      some (false, [])) : searchHandler req.requestedOperation (l ++ l') [] =
        searchHandler req.requestedOperation l' [] := by
  induction l with
  | nil => rfl
  | cons e l ih =>
      obtain ⟨he, hl⟩ := List.forall_mem_cons.mp h
      rw [List.cons_append, searchHandler, he]
      exact ih hl

/-- A handler that is in the map and does not take the request. -/
lemma parse_of_not_accepts (hreq : req.Plain) {e : StdString × ResourceHandler η}
    (he : e ∈ (register routes).handlers.entries) (h : ¬ accepts req e) :
    restResourceParse e.2.urlRegex e.2.urlPlaceholders req.requestedOperation [] =
      some (false, []) := by
  obtain ⟨r, -, rfl⟩ := get_register.mp (OrderedMap.mem_entries_iff.mp he)
  rw [accepts_route hreq] at h
  exact restResourceParse_of_not_fits r.letters hreq h []

/-- What a request without a handler is answered. -/
def noHandler : Routed η :=
  .error (errorResponse Types.responseMessageBadRequest "" 0)

lemma handleRequest_of_none (hreq : req.Plain) (h : ∀ r, First routes r → ¬ r.Takes req) :
    handleRequest (register routes) req = some noHandler := by
  have hnone : ∀ e ∈ (register routes).handlers.entries, ¬ accepts req e := by
    intro e he
    obtain ⟨r, hfirst, rfl⟩ := get_register.mp (OrderedMap.mem_entries_iff.mp he)
    rw [accepts_route hreq]
    exact h r hfirst
  have hsearch := searchHandler_append [] fun e he =>
    parse_of_not_accepts hreq he (hnone e he)
  rw [List.append_nil] at hsearch
  rw [handleRequest, hsearch]
  rfl

/-- The header for the host, if the request has it. -/
def Request.hostHeader (req : Request) : Option StdString :=
  if req.host ≠ [] then some req.host else none

lemma handleRequest_of_least (hreq : req.Plain) (hfirst : First routes r)
    (hσ : Fits r.pattern r.filters req σ)
    (hleast : ∀ r', First routes r' → r'.Takes req → r.url ≤ r'.url) :
    handleRequest (register routes) req = some (.call r.handle
      (r.pattern.names.map fun name => (name, urlDecode (σ name))) req.hostHeader) := by
  have hfind : (register routes).handlers.entries.find? (accepts req) =
      some (r.url, r.handler) := by
    refine OrderedMap.find?_eq_some_iff.mpr ⟨get_register.mpr ⟨r, hfirst, rfl⟩,
      (accepts_route hreq).mpr ⟨σ, hσ⟩, fun e' he' haccepts => ?_⟩
    obtain ⟨r', hfirst', rfl⟩ := get_register.mp he'
    exact hleast r' hfirst' ((accepts_route hreq).mp haccepts)
  obtain ⟨-, l, l', hentries, hnone⟩ := List.find?_eq_some_iff_append.mp hfind
  have hpass := searchHandler_append ((r.url, r.handler) :: l') fun e he => by
    have hmem : e ∈ (register routes).handlers.entries :=
      hentries ▸ List.mem_append_left _ he
    exact parse_of_not_accepts hreq hmem (by simpa using hnone e he)
  rw [handleRequest, hentries, hpass, searchHandler, Route.handler,
    restResourceParse_of_fits r.letters hreq hσ]
  rfl

/-- `/d/all`. -/
def wordRoute : Route ℕ [] [] where
  url := bytes "/d/all"
  filters := []
  handle := 1
  pattern := ⟨[.literal [], .literal (bytes "d"), .literal (bytes "all")],
    List.all_iff_forall_prop.mp rfl, List.nodup_nil⟩
  full := rfl
  letters := letters_nil

/-- `/d/<device>`. -/
def nameRoute : Route ℕ [] [] where
  url := bytes "/d/<device>"
  filters := []
  handle := 2
  pattern := ⟨[.literal [], .literal (bytes "d"), .placeholder (bytes "device")],
    List.all_iff_forall_prop.mp rfl, List.nodup_singleton _⟩
  full := rfl
  letters := letters_nil

end Routes

/-! ### Patterns with a URL in common -/

/-- A segment is spelled so, with some value for its name. -/
def Spells : Segment → StdString → Prop
  | .literal word, value => value = word
  | .placeholder _, value => IsSegment value

/-- Two segments can be spelled alike. -/
def Meets : Segment → Segment → Prop
  | .literal word, .literal word' => word = word'
  | .literal word, .placeholder _ => word ≠ []
  | .placeholder _, .literal word => word ≠ []
  | .placeholder _, .placeholder _ => True

instance : DecidableRel Meets
  | .literal word, .literal word' => inferInstanceAs (Decidable (word = word'))
  | .literal word, .placeholder _ => inferInstanceAs (Decidable (word ≠ []))
  | .placeholder _, .literal word => inferInstanceAs (Decidable (word ≠ []))
  | .placeholder _, .placeholder _ => isTrue trivial

lemma slash_notMem_of_spells {segment : Segment} {value : StdString}
    (hok : segment.WellFormed) (h : Spells segment value) : CLocale.slash ∉ value := by
  cases segment with
  | literal word => exact h ▸ fun hslash => absurd (hok _ hslash) (by decide)
  | placeholder name => exact h.2

lemma slash_notMem_of_forall₂ {segments : List Segment} {values : List StdString}
    (hok : ∀ segment ∈ segments, segment.WellFormed)
    (h : List.Forall₂ Spells segments values) : ∀ value ∈ values, CLocale.slash ∉ value := by
  induction h with
  | nil => exact fun _ hvalue => absurd hvalue List.not_mem_nil
  | cons hspells _ ih =>
      obtain ⟨hsegment, hok⟩ := List.forall_mem_cons.mp hok
      exact List.forall_mem_cons.mpr ⟨slash_notMem_of_spells hsegment hspells, ih hok⟩

lemma forall₂_spell {segments : List Segment}
    (hσ : ∀ name ∈ segments.filterMap Segment.name, IsSegment (σ name)) :
    List.Forall₂ Spells segments (segments.map (Segment.spell σ)) := by
  induction segments with
  | nil => exact .nil
  | cons segment segments ih =>
      cases segment with
      | literal word => exact .cons rfl (ih hσ)
      | placeholder name =>
          obtain ⟨hname, hσ⟩ := List.forall_mem_cons.mp hσ
          exact .cons hname (ih hσ)

/-- Distinct names can be given any values. -/
lemma exists_of_forall₂ {segments : List Segment} {values : List StdString}
    (hnodup : (segments.filterMap Segment.name).Nodup)
    (h : List.Forall₂ Spells segments values) :
    ∃ σ : StdString → StdString,
      (∀ name ∈ segments.filterMap Segment.name, IsSegment (σ name)) ∧
        segments.map (Segment.spell σ) = values := by
  induction h with
  | nil => exact ⟨id, fun _ hname => absurd hname List.not_mem_nil, rfl⟩
  | @cons segment value segments values hspells _ ih =>
      cases segment with
      | literal word =>
          obtain ⟨σ, hσ, hmap⟩ := ih hnodup
          exact ⟨σ, hσ, by rw [List.map_cons, hmap, Segment.spell, hspells]⟩
      | placeholder name =>
          obtain ⟨hname, hrest⟩ := List.nodup_cons.mp hnodup
          obtain ⟨σ, hσ, hmap⟩ := ih hrest
          have hsame : ∀ name' ∈ segments.filterMap Segment.name,
              Function.update σ name value name' = σ name' := by
            intro name' hname'
            have hne : name' ≠ name := fun e => hname (e ▸ hname')
            exact Function.update_of_ne hne _ _
          refine ⟨Function.update σ name value, List.forall_mem_cons.mpr ⟨?_, ?_⟩, ?_⟩
          · rw [Function.update_self]
            exact hspells
          · exact fun name' hname' => (hsame name' hname').symm ▸ hσ name' hname'
          · rw [List.map_cons, Segment.spell, Function.update_self, ← hmap]
            refine congrArg _ (List.map_congr_left fun segment hsegment => ?_)
            cases segment with
            | literal word => rfl
            | placeholder name' =>
                exact hsame name' (List.mem_filterMap.mpr ⟨_, hsegment, rfl⟩)

/-- The URLs of a pattern, by the values of its segments. -/
lemma exists_fill_iff {url : StdString} : (∃ σ, p.Admissible σ ∧ url = p.fill σ) ↔
    ∃ values, List.Forall₂ Spells p.segments values ∧
      url = [CLocale.slash].intercalate values := by
  constructor
  · rintro ⟨σ, hσ, rfl⟩
    exact ⟨_, forall₂_spell hσ, rfl⟩
  · rintro ⟨values, hvalues, rfl⟩
    obtain ⟨σ, hσ, rfl⟩ := exists_of_forall₂ p.nodup hvalues
    exact ⟨σ, hσ, rfl⟩

/-- Segments that meet have a spelling in common. -/
lemma exists_spells_iff {segment segment' : Segment} (hok : segment.WellFormed)
    (hok' : segment'.WellFormed) :
    (∃ value, Spells segment value ∧ Spells segment' value) ↔ Meets segment segment' := by
  have hword : ∀ {word : StdString} {name : StdString}, (Segment.literal word).WellFormed →
      ((∃ value, Spells (.literal word) value ∧ Spells (.placeholder name) value) ↔
        word ≠ []) := by
    intro word name hok
    constructor
    · rintro ⟨value, rfl, hvalue⟩
      exact hvalue.1
    · exact fun hne => ⟨word, rfl, hne, slash_notMem_of_spells hok rfl⟩
  cases segment with
  | literal word =>
      cases segment' with
      | literal word' =>
          constructor
          · rintro ⟨value, rfl, h⟩
            exact h
          · exact fun h => ⟨word, rfl, h⟩
      | placeholder name => exact hword hok
  | placeholder name =>
      cases segment' with
      | literal word =>
          simp only [and_comm (a := Spells (.placeholder name) _)]
          exact hword hok'
      | placeholder name' =>
          have hvalue : IsSegment (bytes "x") := ⟨by decide, by decide⟩
          exact iff_of_true ⟨_, hvalue, hvalue⟩ trivial

lemma exists_forall₂_iff {segments segments' : List Segment}
    (hok : ∀ segment ∈ segments, segment.WellFormed)
    (hok' : ∀ segment ∈ segments', segment.WellFormed) :
    (∃ values, List.Forall₂ Spells segments values ∧ List.Forall₂ Spells segments' values) ↔
      List.Forall₂ Meets segments segments' := by
  induction segments generalizing segments' with
  | nil =>
      cases segments' with
      | nil => exact iff_of_true ⟨[], .nil, .nil⟩ .nil
      | cons segment' segments' =>
          refine iff_of_false ?_ (fun h => by cases h)
          rintro ⟨values, h, h'⟩
          cases h
          cases h'
  | cons segment segments ih =>
      cases segments' with
      | nil =>
          refine iff_of_false ?_ (fun h => by cases h)
          rintro ⟨values, h, h'⟩
          cases h'
          cases h
      | cons segment' segments' =>
          obtain ⟨hsegment, hok⟩ := List.forall_mem_cons.mp hok
          obtain ⟨hsegment', hok'⟩ := List.forall_mem_cons.mp hok'
          rw [List.forall₂_cons, ← exists_spells_iff hsegment hsegment', ← ih hok hok']
          constructor
          · rintro ⟨values, h, h'⟩
            cases h with
            | cons hspells hrest =>
                cases h' with
                | cons hspells' hrest' => exact ⟨⟨_, hspells, hspells'⟩, _, hrest, hrest'⟩
          · rintro ⟨⟨value, hspells, hspells'⟩, values, hrest, hrest'⟩
            exact ⟨value :: values, .cons hspells hrest, .cons hspells' hrest'⟩

/-- Two patterns have a URL in common exactly when their segments meet, each the one at its
place. -/
theorem meets_iff (hp : p.segments ≠ []) (hq : q.segments ≠ []) :
    (∃ σ τ, p.Admissible σ ∧ q.Admissible τ ∧ p.fill σ = q.fill τ) ↔
      List.Forall₂ Meets p.segments q.segments := by
  rw [← exists_forall₂_iff p.wellFormed q.wellFormed]
  constructor
  · rintro ⟨σ, τ, hσ, hτ, hfill⟩
    have hvalues := forall₂_spell hσ
    have hvalues' := forall₂_spell hτ
    have hsplit := congrArg (List.splitOn CLocale.slash) hfill
    rw [UrlPattern.fill, UrlPattern.fill,
      List.splitOn_intercalate _ (slash_notMem_of_forall₂ p.wellFormed hvalues)
        (mt List.map_eq_nil_iff.mp hp),
      List.splitOn_intercalate _ (slash_notMem_of_forall₂ q.wellFormed hvalues')
        (mt List.map_eq_nil_iff.mp hq)] at hsplit
    exact ⟨_, hvalues, hsplit ▸ hvalues'⟩
  · rintro ⟨values, hvalues, hvalues'⟩
    obtain ⟨σ, hσ, hfill⟩ := exists_fill_iff.mpr ⟨values, hvalues, rfl⟩
    obtain ⟨τ, hτ, hfill'⟩ := exists_fill_iff.mpr ⟨values, hvalues', rfl⟩
    exact ⟨σ, τ, hσ, hτ, hfill.symm.trans hfill'⟩

section Apart

variable {urlBase resource : StdString} {r r' : Route η urlBase resource}
  {routes : List (Route η urlBase resource)}

/-- No URL fits two of the registrations. -/
structure Apart (routes : List (Route η urlBase resource)) : Prop where
  nonempty : ∀ r ∈ routes, r.pattern.segments ≠ []
  apart : ∀ r ∈ routes, ∀ r' ∈ routes, r.url ≠ r'.url →
    ¬ List.Forall₂ Meets r.pattern.segments r'.pattern.segments

lemma First.mem (h : First routes r) : r ∈ routes :=
  List.mem_of_find?_eq_some h

/-- Where no URL fits two registrations, each gets the requests that fit it, whatever the order
of the registrations and of their URLs. -/
theorem handleRequest_of_apart (routes : List (Route η urlBase resource)) (hroutes : Apart routes)
    (req : Request) (hreq : req.Plain) (r : Route η urlBase resource) (hfirst : First routes r)
    (σ : StdString → StdString) (hσ : Fits r.pattern r.filters req σ) :
    handleRequest (register routes) req = some (.call r.handle
      (r.pattern.names.map fun name => (name, urlDecode (σ name))) req.hostHeader) := by
  refine handleRequest_of_least hreq hfirst hσ fun r' hfirst' htakes => ?_
  obtain ⟨τ, hτ⟩ := htakes
  by_cases hurl : r.url = r'.url
  · rw [hurl]
  · refine absurd ?_ (hroutes.apart r hfirst.mem r' hfirst'.mem hurl)
    exact (meets_iff (hroutes.nonempty r hfirst.mem) (hroutes.nonempty r' hfirst'.mem)).mp
      ⟨σ, τ, hσ.2.1, hτ.2.1, hσ.2.2.symm.trans hτ.2.2⟩

end Apart

end Routing

end IotAgent
