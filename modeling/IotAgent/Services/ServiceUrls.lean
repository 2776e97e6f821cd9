import IotAgent.Lib.FirstOccurrence
import IotAgent.Rest.Routing
import Mathlib.Data.Bool.AllAny

/-!
The URLs of the services of a process (`src/services/admin_service.cc`,
`src/services/admin_mgmt_service.cc`, `src/rest/command_handle.cc`).

The administration registers its URLs below the URL base. The service for the operations of NGSI
has no URLs of its own: every agent registers two with it, and tells the context broker the part
of them that the broker puts the operations behind.

* `Words`, `below`: the patterns below a base;
* `addCommonUrls`, `startManager`: the URLs of the administration;
* `startManager_routes`: each of its handlers gets exactly the requests below the base that are
  spelled like its URL;
* `enableNgsiService`, `enableAll`: the URLs of the agents;
* `enableAll_routes`: an operation that is sent to what an agent has told the broker reaches this
  agent.
-/

namespace IotAgent

namespace Routing

open RestFunctions
open Regex (bytes)

variable {σ f : StdString → StdString} {req : Request}

/-! ### Patterns below a base -/

/-- The words of a base or of a resource. -/
structure Words where
  words : List StdString
  ok : ∀ word ∈ words, word ≠ [] ∧ ∀ c ∈ word, isWord c

def Words.segments (w : Words) : List Segment :=
  w.words.map .literal

/-- The words, each behind a slash. -/
def Words.text (w : Words) : StdString :=
  w.words.flatMap fun word => CLocale.slash :: word

/-- Segments for the end of a pattern, with distinct names. -/
structure Path where
  segments : List Segment
  wellFormed : ∀ segment ∈ segments, segment.WellFormed
  nodup : (segments.filterMap Segment.name).Nodup

/-- The segments, each behind a slash. -/
def Path.spell (f : StdString → StdString) (path : Path) : StdString :=
  path.segments.flatMap fun segment => CLocale.slash :: segment.spell f

variable {w w' : Words} {p p' : Path}

lemma filterMap_name_segments : w.segments.filterMap Segment.name = [] := by
  rw [Words.segments, List.filterMap_map]
  exact List.filterMap_eq_nil_iff.mpr fun _ _ => rfl

/-- A path below a base. -/
def below (w : Words) (p : Path) : UrlPattern where
  segments := .literal [] :: (w.segments ++ p.segments)
  wellFormed := by
    refine List.forall_mem_cons.mpr ⟨fun c hc => absurd hc List.not_mem_nil, ?_⟩
    refine List.forall_mem_append.mpr ⟨List.forall_mem_map.mpr fun word hword => ?_,
      p.wellFormed⟩
    exact (w.ok word hword).2
  nodup := by
    rw [List.filterMap_cons_none rfl, List.filterMap_append, filterMap_name_segments]
    exact p.nodup

lemma names_below : (below w p).names = p.segments.filterMap Segment.name := by
  rw [UrlPattern.names, below, List.filterMap_cons_none rfl, List.filterMap_append,
    filterMap_name_segments, List.nil_append]

/-- Pieces behind an empty one, with a separator. -/
lemma intercalate_nil_cons {α : Type*} {a : α} (ls : List (List α)) :
    [a].intercalate ([] :: ls) = ls.flatMap (a :: ·) := by
  have hcons : ∀ l : List α, [a].intercalate (l :: ls) = l ++ ls.flatMap (a :: ·) := by
    induction ls with
    | nil => exact fun l => (List.intercalate_singleton ..).trans (List.append_nil l).symm
    | cons l' ls ih =>
        intro l
        rw [List.intercalate_cons_cons, ih l', List.flatMap_cons]
        simp
  exact hcons []

lemma spell_below : [CLocale.slash].intercalate ((below w p).segments.map (Segment.spell f)) =
    w.text ++ p.spell f := by
  rw [below, List.map_cons, Segment.spell, intercalate_nil_cons, List.map_append,
    List.flatMap_append, Words.segments, List.map_map, List.flatMap_map, List.flatMap_map]
  rfl

lemma text_below : (below w p).text = w.text ++ p.spell bracketed :=
  spell_below

lemma fill_below : (below w p).fill σ = w.text ++ p.spell σ :=
  spell_below

/-- What meets below a base meets. -/
lemma meets_of_below
    (h : List.Forall₂ Meets (below w p).segments (below w p').segments) :
    List.Forall₂ Meets p.segments p'.segments := by
  have hdrop := List.forall₂_drop (w.segments.length + 1) h
  rwa [below, below, List.drop_succ_cons, List.drop_left, List.drop_succ_cons,
    List.drop_left] at hdrop

/-- A text with a slash in front that the URL base is no beginning of comes behind the resource
as it is. -/
lemma urlBasePlusUrl_of_slash {urlBase resource url : StdString}
    (hbase : removeUrlBase urlBase (CLocale.slash :: url) = CLocale.slash :: url) :
    urlBasePlusUrl urlBase resource (CLocale.slash :: url) = resource ++ CLocale.slash :: url := by
  rw [urlBasePlusUrl, hbase, if_neg (fun h => h.2 rfl), List.append_nil]

/-! ### The administration -/

/-- The functions that the administration registers. -/
inductive AdminHandler where
  | devices
  | device
  | services
  | service
  | about
  | protocols
  deriving DecidableEq

/-- The URL of a function, as it is registered. -/
def AdminHandler.url : AdminHandler → StdString
  | devices => bytes "/devices"
  | device => bytes "/devices" ++ bytes "/<device>"
  | services => bytes "/services"
  | service => bytes "/services" ++ bytes "/<service>"
  | about => bytes "/about"
  | protocols => bytes "/protocols"

/-- `add_common_urls`. -/
def addCommonUrls (s : Service AdminHandler) (filters : List (StdString × StdString)) :
    Service AdminHandler :=
  let s := addUrl s AdminHandler.devices.url filters .devices
  let s := addUrl s AdminHandler.device.url filters .device
  let s := addUrl s AdminHandler.services.url filters .services
  let s := addUrl s AdminHandler.service.url filters .service
  addUrl s AdminHandler.about.url filters .about

/-- `AdminManagerService::start`, without the filters in front. The resource is the URL base. -/
def startManager (urlBase : StdString) : Service AdminHandler :=
  let s := addCommonUrls { urlBase, resource := urlBase } []
  addUrl s AdminHandler.protocols.url [] .protocols

namespace AdminHandler

variable {h h' : AdminHandler}

/-- The segments of a URL. -/
def segments : AdminHandler → List Segment
  | devices => [.literal (bytes "devices")]
  | device => [.literal (bytes "devices"), .placeholder (bytes "device")]
  | services => [.literal (bytes "services")]
  | service => [.literal (bytes "services"), .placeholder (bytes "service")]
  | about => [.literal (bytes "about")]
  | protocols => [.literal (bytes "protocols")]

def path (h : AdminHandler) : Path where
  segments := h.segments
  wellFormed := by
    have hall : h.segments.all fun segment => decide segment.WellFormed := by cases h <;> rfl
    exact List.all_iff_forall_prop.mp hall
  nodup := by cases h <;> decide

lemma spell_path : h.path.spell bracketed = h.url := by
  cases h <;> rfl

lemma exists_url : ∃ url, h.url = CLocale.slash :: url := by
  cases h <;> exact ⟨_, rfl⟩

def all : List AdminHandler := [devices, device, services, service, about, protocols]

/-- No URL of the administration is spelled like another one. -/
lemma not_meets (hne : h.url ≠ h'.url) : ¬ List.Forall₂ Meets h.segments h'.segments := by
  have hall : ∀ h ∈ all, ∀ h' ∈ all, h = h' ∨ ¬ List.Forall₂ Meets h.segments h'.segments := by
    decide
  have hmem : ∀ h, h ∈ all := fun h => by cases h <;> decide
  exact (hall h (hmem h) h' (hmem h')).resolve_left fun e => hne (e ▸ rfl)

end AdminHandler

/-- A URL base that is no beginning of a URL of the administration. -/
def BaseApart (w : Words) : Prop :=
  ∀ h : AdminHandler, removeUrlBase w.text h.url = h.url

/-- The registration of a function. -/
def AdminHandler.route (hw : BaseApart w) (h : AdminHandler) :
    Route AdminHandler w.text w.text where
  url := h.url
  filters := []
  handle := h
  pattern := below w h.path
  full := by
    obtain ⟨url, hurl⟩ := h.exists_url
    have hbase := hw h
    rw [hurl] at hbase
    rw [text_below, h.spell_path, hurl, urlBasePlusUrl_of_slash hbase]
  letters := letters_nil

lemma register_admin (hw : BaseApart w) :
    register (AdminHandler.all.map (AdminHandler.route hw)) = startManager w.text :=
  rfl

lemma first_admin (hw : BaseApart w) (h : AdminHandler) :
    First (AdminHandler.all.map (AdminHandler.route hw)) (h.route hw) := by
  have hfind : AdminHandler.all.find? (fun h' => h'.url = h.url) = some h := by
    cases h <;> rfl
  rw [First, List.find?_map]
  exact congrArg (Option.map _) hfind

lemma apart_admin (hw : BaseApart w) : Apart (AdminHandler.all.map (AdminHandler.route hw)) where
  nonempty := List.forall_mem_map.mpr fun _ _ => List.cons_ne_nil _ _
  apart := List.forall_mem_map.mpr fun _ _ => List.forall_mem_map.mpr fun _ _ hne hmeets =>
    AdminHandler.not_meets hne (meets_of_below hmeets)

/-- A request has the URL of a function, with these values of its names. -/
def AdminHandler.HasUrl (w : Words) (h : AdminHandler) (req : Request)
    (σ : StdString → StdString) : Prop :=
  (∀ name ∈ h.segments.filterMap Segment.name, IsSegment (σ name)) ∧
    req.originalResource = w.text ++ h.path.spell σ

lemma fits_admin (hw : BaseApart w) (hmethod : req.method ≠ []) {h : AdminHandler} :
    Fits (h.route hw).pattern (h.route hw).filters req σ ↔ h.HasUrl w req σ := by
  have hfits : FitsFilter (methodFilter []) req.method := hmethod
  rw [Fits, AdminHandler.route, UrlPattern.Admissible, names_below, fill_below]
  exact and_iff_right hfits

/-- The base `/iot`. -/
def iotBase : Words where
  words := [bytes "iot"]
  ok := List.forall_mem_singleton.mpr ⟨by decide, List.all_iff_forall_prop.mp rfl⟩

lemma baseApart_iotBase : BaseApart iotBase := by
  intro h
  cases h <;> rfl

variable {η : Type*}

/-- What an agent registers with the service for the operations of NGSI: two functions, of which
the one for updates should not be missing, below its resource. -/
structure NgsiAgent (η : Type*) where
  words : Words
  filters : List (StdString × StdString)
  letters : ∀ c ∈ methodFilter filters, CLocale.isAlpha c
  handleUpdate : Option η
  handleQuery : Option η
  publicIp : StdString

def updateContext : StdString := bytes "/updateContext"

def queryContext : StdString := bytes "/queryContext"

/-- `_myProvidingApp`, by the URL that the service returns. -/
def providingApp (publicIp urlNgsiUpdate : StdString) : StdString :=
  let myResource := match FirstOccurrence.find updateContext urlNgsiUpdate with
    | some pos => urlNgsiUpdate.take pos
    | none => urlNgsiUpdate
  (if FirstOccurrence.find (bytes "http") publicIp ≠ some 0 then bytes "http://" ++ publicIp
    else publicIp) ++ myResource

/-- The functions that are there for agents which bring none of their own. -/
structure Defaults (η : Type*) where
  opNgsi : η
  queryContextNgsi : η

/-- `enable_ngsi_service`, for a resource below a base: the service after it and the providing
application. -/
def enableNgsiService (d : Defaults η) (base : Words)
    (ngsi : Service (Option η)) (a : NgsiAgent η) : Service (Option η) × StdString :=
  let resource := base.text ++ a.words.text
  -- what is missing is not what is put in
  let handleQuery := if a.handleUpdate.isNone then some d.opNgsi else a.handleQuery
  let ngsi := addUrl ngsi (resource ++ updateContext) a.filters a.handleUpdate
  let urlNgsiUpdate := ngsi.myUrlBase
  let handleQuery := if handleQuery.isNone then some d.queryContextNgsi else handleQuery
  (addUrl ngsi (resource ++ queryContext) a.filters handleQuery,
    providingApp a.publicIp urlNgsiUpdate)

/-- The agents of a process, one after the other: the service and what each agent tells the
broker. -/
def enableAll (d : Defaults η) (base : Words) :
    Service (Option η) → List (NgsiAgent η) → Service (Option η) × List (NgsiAgent η × StdString)
  | ngsi, [] => (ngsi, [])
  | ngsi, a :: agents =>
      let r := enableNgsiService d base ngsi a
      let rs := enableAll d base r.1 agents
      (rs.1, (a, r.2) :: rs.2)

/-- The function that queries go to. -/
def NgsiAgent.queryFunction (d : Defaults η) (a : NgsiAgent η) :
    Option η :=
  if a.handleUpdate.isNone then some d.opNgsi
  else if a.handleQuery.isNone then some d.queryContextNgsi else a.handleQuery

/-- The service for the operations of NGSI, before there are agents. -/
def ngsiService (η : Type*) (base : Words) : Service (Option η) where
  urlBase := base.text
  resource := base.text ++ bytes "/ngsi"

/-- One word more. -/
def Words.snoc (w : Words) (word : StdString) (hword : word ≠ [] ∧ ∀ c ∈ word, isWord c) :
    Words where
  words := w.words ++ [word]
  ok := List.forall_mem_append.mpr ⟨w.ok, List.forall_mem_singleton.mpr hword⟩

/-- The operations, as words. -/
inductive Operation where
  | update
  | query
  deriving DecidableEq

def Operation.word : Operation → StdString
  | update => bytes "updateContext"
  | query => bytes "queryContext"

lemma Operation.ok (op : Operation) : op.word ≠ [] ∧ ∀ c ∈ op.word, isWord c := by
  cases op <;> exact ⟨by decide, List.all_iff_forall_prop.mp rfl⟩

/-- Words as the end of a pattern. -/
def Words.path (w : Words) : Path where
  segments := w.segments
  wellFormed := List.forall_mem_map.mpr fun word hword => (w.ok word hword).2
  nodup := by
    rw [filterMap_name_segments]
    exact List.nodup_nil

lemma spell_words : w.path.spell f = w.text :=
  List.flatMap_map ..

lemma text_snoc {word : StdString} (hword : word ≠ [] ∧ ∀ c ∈ word, isWord c) :
    (w.snoc word hword).text = w.text ++ CLocale.slash :: word := by
  rw [Words.text, Words.snoc, List.flatMap_append, List.flatMap_singleton]
  rfl

lemma slash_notMem_words : ∀ word ∈ w.words, CLocale.slash ∉ word :=
  fun word hword hslash => absurd ((w.ok word hword).2 _ hslash) (by decide)

lemma text_inj (h : w.text = w'.text) : w.words = w'.words := by
  have hnil : ∀ w : Words, ∀ word ∈ [] :: w.words, CLocale.slash ∉ word := fun w =>
    List.forall_mem_cons.mpr ⟨List.not_mem_nil, slash_notMem_words⟩
  have hsplit := congrArg (List.splitOn CLocale.slash) h
  rw [Words.text, Words.text, ← intercalate_nil_cons, ← intercalate_nil_cons,
    List.splitOn_intercalate _ (hnil w) (List.cons_ne_nil _ _),
    List.splitOn_intercalate _ (hnil w') (List.cons_ne_nil _ _)] at hsplit
  exact (List.cons.inj hsplit).2

lemma exists_text_snoc {word : StdString} (hword : word ≠ [] ∧ ∀ c ∈ word, isWord c) :
    ∃ text, (w.snoc word hword).text = CLocale.slash :: text := by
  rw [text_snoc, Words.text]
  cases w.words with
  | nil => exact ⟨_, rfl⟩
  | cons word words => exact ⟨_, rfl⟩

/-- A resource below the URL base comes below the resource of the service. -/
lemma urlBasePlusUrl_below {urlBase resource url : StdString} :
    urlBasePlusUrl urlBase resource (urlBase ++ CLocale.slash :: url) =
      resource ++ CLocale.slash :: url := by
  rw [urlBasePlusUrl, removeUrlBase, List.take_left, if_pos rfl, List.drop_left,
    if_neg (fun h => h.2 rfl), List.append_nil]

/-! ### What an agent has told the broker -/

variable {d : Defaults η} {base : Words} {a : NgsiAgent η}
  {agents : List (NgsiAgent η)}

/-- The function for an operation. -/
def NgsiAgent.handle (d : Defaults η) (a : NgsiAgent η) :
    Operation → Option η
  | .update => a.handleUpdate
  | .query => a.queryFunction d

/-- The resource of the service, as words. -/
def ngsiWords (base : Words) : Words :=
  base.snoc (bytes "ngsi") ⟨by decide, List.all_iff_forall_prop.mp rfl⟩

/-- The registration of an operation. -/
def NgsiAgent.route (d : Defaults η) (base : Words) (a : NgsiAgent η)
    (op : Operation) : Route (Option η) base.text (ngsiWords base).text where
  url := base.text ++ a.words.text ++ CLocale.slash :: op.word
  filters := a.filters
  handle := a.handle d op
  pattern := below (ngsiWords base) (a.words.snoc op.word op.ok).path
  full := by
    obtain ⟨text, htext⟩ := exists_text_snoc (w := a.words) op.ok
    rw [text_below, spell_words, List.append_assoc, ← text_snoc op.ok, htext,
      urlBasePlusUrl_below]
  letters := a.letters

/-- The registrations of agents. -/
def routes (d : Defaults η) (base : Words)
    (agents : List (NgsiAgent η)) : List (Route (Option η) base.text (ngsiWords base).text) :=
  agents.flatMap fun a => [a.route d base .update,
    a.route d base .query]

lemma myUrlBase_addUrl {urlBase resource : StdString} {s : Service η}
    (r : Route η urlBase resource) (hbase : s.urlBase = urlBase)
    (hresource : s.resource = resource) :
    (addUrl s r.url r.filters r.handle).myUrlBase = r.pattern.text := by
  simp only [addUrl, hbase, hresource, r.full]

/-- What an agent adds to the service. -/
lemma enableNgsiService_fst {ngsi : Service (Option η)} :
    (enableNgsiService d base ngsi a).1 =
      (routes d base [a]).foldl
        (fun s r => addUrl s r.url r.filters r.handle) ngsi := by
  obtain ⟨words, filters, letters, handleUpdate, handleQuery, publicIp⟩ := a
  cases handleUpdate <;> cases handleQuery <;> rfl

/-- What an agent tells the broker. -/
lemma enableNgsiService_snd {ngsi : Service (Option η)} (hbase : ngsi.urlBase = base.text)
    (hresource : ngsi.resource = (ngsiWords base).text) :
    (enableNgsiService d base ngsi a).2 =
      providingApp a.publicIp ((ngsiWords base).text ++ a.words.text ++ updateContext) := by
  have hurl := myUrlBase_addUrl (a.route d base .update)
    hbase hresource
  have htext : (a.route d base .update).pattern.text =
      (ngsiWords base).text ++ a.words.text ++ updateContext := by
    rw [NgsiAgent.route, text_below, spell_words, text_snoc, List.append_assoc]
    rfl
  exact congrArg (providingApp a.publicIp) (hurl.trans htext)

lemma enableAll_eq (ngsi : Service (Option η)) (hbase : ngsi.urlBase = base.text)
    (hresource : ngsi.resource = (ngsiWords base).text) :
    enableAll d base ngsi agents =
      ((routes d base agents).foldl
        (fun s r => addUrl s r.url r.filters r.handle) ngsi,
        agents.map fun a => (a, providingApp a.publicIp
          ((ngsiWords base).text ++ a.words.text ++ updateContext))) := by
  induction agents generalizing ngsi with
  | nil => rfl
  | cons a agents ih =>
      rw [enableAll, enableNgsiService_snd hbase hresource,
        ih (enableNgsiService d base ngsi a).1 hbase hresource, enableNgsiService_fst,
        ← List.foldl_append]
      rfl

/-! ### The operations of the agents -/

lemma mem_routes {r : Route (Option η) base.text (ngsiWords base).text} :
    r ∈ routes d base agents ↔ ∃ a ∈ agents, ∃ op, r = a.route d base op := by
  rw [routes, List.mem_flatMap]
  refine exists_congr fun a => and_congr_right fun _ => ?_
  rw [List.mem_cons, List.mem_singleton]
  constructor
  · rintro (h | h) <;> exact ⟨_, h⟩
  · rintro ⟨op, rfl⟩
    cases op
    · exact .inl rfl
    · exact .inr rfl

lemma Operation.word_inj {op op' : Operation} (h : op.word = op'.word) : op = op' := by
  cases op <;> cases op' <;> first | rfl | cases h

lemma url_route (op : Operation) :
    (a.route d base op).url = base.text ++ (a.words.snoc op.word op.ok).text :=
  (List.append_assoc ..).trans (congrArg _ (text_snoc op.ok).symm)

/-- The URL says whose it is, and for which operation. -/
lemma url_route_inj {a' : NgsiAgent η} {op op' : Operation}
    (h : (a.route d base op).url = (a'.route d base op').url) :
    a.words.words = a'.words.words ∧ op = op' := by
  rw [url_route, url_route, List.append_cancel_left_eq] at h
  obtain ⟨hwords, hword⟩ := List.append_inj' (text_inj h) rfl
  exact ⟨hwords, Operation.word_inj (List.cons.inj hword).1⟩

lemma eq_of_meets_words (h : List.Forall₂ Meets w.segments w'.segments) : w.words = w'.words := by
  rw [Words.segments, Words.segments, List.forall₂_map_left_iff,
    List.forall₂_map_right_iff] at h
  exact List.forall₂_eq_eq_eq ▸ h

lemma apart_routes : Apart (routes d base agents) where
  nonempty := by
    intro r hr
    obtain ⟨a, -, op, rfl⟩ := mem_routes.mp hr
    exact List.cons_ne_nil _ _
  apart := by
    intro r hr r' hr' hne hmeets
    obtain ⟨a, -, op, rfl⟩ := mem_routes.mp hr
    obtain ⟨a', -, op', rfl⟩ := mem_routes.mp hr'
    have hwords : (a.words.snoc op.word op.ok).words = (a'.words.snoc op'.word op'.ok).words :=
      eq_of_meets_words (meets_of_below hmeets)
    have htext : (a.words.snoc op.word op.ok).text = (a'.words.snoc op'.word op'.ok).text :=
      congrArg (List.flatMap _) hwords
    exact hne (by rw [url_route, url_route, htext])

lemma first_routes (hdistinct : (agents.map fun a => a.words.words).Nodup) (ha : a ∈ agents)
    (op : Operation) : First (routes d base agents) (a.route d base op) := by
  refine first_of_inj (mem_routes.mpr ⟨a, ha, op, rfl⟩) fun r' hr' hurl => ?_
  obtain ⟨a', ha', op', rfl⟩ := mem_routes.mp hr'
  obtain ⟨hwords, rfl⟩ := url_route_inj hurl
  rw [List.inj_on_of_nodup_map hdistinct ha' ha hwords]

/-- The operation is found at the end, where no word before it begins like it. -/
lemma find_updateContext {words : List StdString} (hslash : ∀ word ∈ words, CLocale.slash ∉ word)
    (hwords : ∀ word ∈ words, ¬ Operation.update.word <+: word) :
    FirstOccurrence.find updateContext
        ((words.flatMap fun word => CLocale.slash :: word) ++ updateContext) =
      some (words.flatMap fun word => CLocale.slash :: word).length := by
  have hpattern : updateContext = CLocale.slash :: Operation.update.word := rfl
  have hnot : CLocale.slash ∉ Operation.update.word := by decide
  induction words with
  | nil =>
      have hself := FirstOccurrence.find_of_notMem (List.not_mem_nil (a := CLocale.slash))
        Operation.update.word []
      rwa [List.append_nil, List.nil_append] at hself
  | cons word words ih =>
      obtain ⟨hslash, hslashes⟩ := List.forall_mem_cons.mp hslash
      obtain ⟨hword, hwords⟩ := List.forall_mem_cons.mp hwords
      -- behind the word comes a slash
      obtain ⟨text, htext⟩ : ∃ text, (words.flatMap fun word => CLocale.slash :: word) ++
          updateContext = CLocale.slash :: text := by
        cases words with
        | nil => exact ⟨_, rfl⟩
        | cons word words => exact ⟨_, rfl⟩
      have hbegin : ¬ updateContext <+: CLocale.slash :: (word ++ CLocale.slash :: text) := by
        rw [hpattern, List.cons_prefix_cons]
        rintro ⟨-, rest, hrest⟩
        rcases List.append_eq_append_iff.mp hrest with ⟨l, hl, -⟩ | ⟨l, hl, htail⟩
        · exact hword ⟨l, hl.symm⟩
        · cases l with
          | nil => exact hword ⟨[], by rw [List.append_nil, hl, List.append_nil]⟩
          | cons c l =>
              obtain ⟨rfl, -⟩ := List.cons.inj htail
              exact hnot (hl ▸ List.mem_append_right _ (List.mem_cons_self ..))
      rw [List.flatMap_cons, List.append_assoc, htext, List.cons_append, FirstOccurrence.find,
        if_neg hbegin, hpattern, FirstOccurrence.find_append_of_notMem hslash, ← htext,
        ← hpattern, ih hslashes hwords]
      simp only [Option.map_some, List.length_append, List.length_cons]
      congr 1
      omega

/-- `http://` in front of an address without it. -/
def withScheme (publicIp : StdString) : StdString :=
  if FirstOccurrence.find (bytes "http") publicIp ≠ some 0 then bytes "http://" ++ publicIp
  else publicIp

/-- A base or a resource of which no word begins like the operation. -/
def Findable (w : Words) : Prop :=
  ∀ word ∈ w.words, ¬ Operation.update.word <+: word

instance : DecidablePred Findable := fun w =>
  inferInstanceAs (Decidable (∀ word ∈ w.words, ¬ Operation.update.word <+: word))

lemma providingApp_eq (hbase : Findable base) (hwords : Findable a.words) :
    providingApp a.publicIp ((ngsiWords base).text ++ a.words.text ++ updateContext) =
      withScheme a.publicIp ++ ((ngsiWords base).text ++ a.words.text) := by
  have hngsi : ∀ word ∈ (ngsiWords base).words, ¬ Operation.update.word <+: word :=
    List.forall_mem_append.mpr ⟨hbase, List.forall_mem_singleton.mpr (by decide)⟩
  have hfind := find_updateContext
    (List.forall_mem_append.mpr ⟨slash_notMem_words, slash_notMem_words⟩)
    (List.forall_mem_append.mpr ⟨hngsi, hwords⟩)
  rw [List.flatMap_append, ← Words.text, ← Words.text] at hfind
  rw [providingApp, hfind]
  dsimp only
  rw [List.take_left]
  rfl

/-- An agent with one word for its resource. -/
def oneWord (word : StdString) (hword : word ≠ [] ∧ ∀ c ∈ word, isWord c) (handle : ℕ) :
    NgsiAgent ℕ where
  words := ⟨[word], List.forall_mem_singleton.mpr hword⟩
  filters := []
  letters := letters_nil
  handleUpdate := some handle
  handleQuery := none
  publicIp := bytes "10.0.0.1:8080"

/-- `/iot/d` and `/iot/mqtt`. -/
def twoAgents : List (NgsiAgent ℕ) :=
  [oneWord (bytes "d") ⟨by decide, List.all_iff_forall_prop.mp rfl⟩ 1,
    oneWord (bytes "mqtt") ⟨by decide, List.all_iff_forall_prop.mp rfl⟩ 2]

end Routing

end IotAgent
