import IotAgent.Ngsi.SharedDevice
import IotAgent.UltraLight.Groups

/-!
Translations for a device that is shared (`src/ultra_light/ULInsertObservation.cc`).

A translation makes elements of the device in the cache. It only reads the device, but the names
of its measures, of the static attributes and of the time are looked up in the map of attributes,
where each look-up leaves an entry.

* `Shared.translate`: `translate` on the device in the cache;
* `LooksUp`, `HasEntries`: the names that are looked up for a payload, and that they have entries;
* `touches_translate`: the result is that on a copy of the device, and which names are looked up;
* `device_unchanged_iff`: when the device is the same after the translations as before.
-/

namespace IotAgent

/-! ### The translation -/

namespace Shared

open Translation (numElementsUlProtocol measureAttribute timeAttribute measuresOf)

variable (t : Translation)

/-- The element of the device, before it gets the measure. -/
def baseElement (k : ℕ) : Shared EnvElement :=
  setEnvInfo t.lib t.service t.dev (t.clock.timestamp k)
    (EnvElement.ofTexts t.deviceName "" "false")

/-- The `k`-th element. -/
def buildElement (k : ℕ) (date name value : String) : Shared EnvElement := do
  let elto ← baseElement t k
  let elto ← add t.lib elto (measureAttribute date name value)
  add t.lib elto (timeAttribute date)

/-- The loop over the tokens behind the fixed ones. -/
def measureLoop (date : String) (tokens : List String) (j : ℕ) (elements : List EnvElement) :
    Shared (List EnvElement) :=
  if j < tokens.length then do
    let token ← ofExcept (readToken tokens j)
    let i := if token = "" then j + 1 else j
    let value ← ofExcept (readToken tokens (i + 1))
    let name ← ofExcept (readToken tokens i)
    if value = "" then
      throw (protocolError "Protocol error, Empty values is not allowed ")
    else do
      let elto ← buildElement t elements.length date name value
      measureLoop date tokens (i + 2) (elements ++ [elto])
  else return elements
termination_by tokens.length - j
decreasing_by
  split <;> omega

/-- The elements of the `i`-th measure come to those that are there. -/
def translateMeasure (protocol i : ℕ) (elements : List EnvElement) (measure : String) :
    Shared (List EnvElement) := do
  let tokens ← ofExcept (t.checkMeasure (t.tokensOf protocol measure))
  ExceptT.adapt Stop.handled do
    let samplingTime ← ofExcept (readToken tokens 2)
    let date ← ofExcept (t.dateOf i samplingTime)
    measureLoop t date tokens numElementsUlProtocol elements

/-- The loop over the measures. -/
def translateMeasures (protocol : ℕ) :
    ℕ → List String → List EnvElement → Shared (List EnvElement)
  | _, [], elements => return elements
  | i, measure :: measures, elements => do
      let elements ← translateMeasure t protocol i elements measure
      translateMeasures protocol (i + 1) measures elements

/-- `translate`. -/
def translate (protocol : ℕ) (strIo : String) : Shared (List EnvElement) :=
  if measuresOf strIo = [] then throw (protocolError "Protocol error, no measurements")
  else do
    let elements ← translateMeasures t protocol 0 (measuresOf strIo) []
    if (measuresOf strIo).length ≠ elements.length then
      throw (protocolError "Protocol error, ")
    else return elements

end Shared

namespace Translation

open EnvElement Touching

/-! ### The names that are looked up -/

/-- The names that are looked up for a group: for the static attributes, its own name, that of
the time, and where the mappings lead from them. -/
def groupNames (t : Translation) (d : Device) (g : Group) : Set String :=
  envNames t.lib t.service d ∪
    ({name | Reaches (EnvElement.envMapping t.lib t.service (some d))
        (measureAttribute g.date g.name g.value) name} ∪
      {name | Reaches (EnvElement.envMapping t.lib t.service (some d)) (timeAttribute g.date) name})

/-- The names that are looked up for groups. -/
def LooksUp (t : Translation) (d : Device) (gs : List Group) : Set String :=
  {name | ∃ g ∈ gs, name ∈ t.groupNames d g}

section Names

variable {t : Translation} {d : Device} {gs gs' : List Group} {g : Group}

@[simp] lemma looksUp_nil : t.LooksUp d [] = ∅ := by simp [LooksUp]

lemma looksUp_cons : t.LooksUp d (g :: gs) = t.groupNames d g ∪ t.LooksUp d gs := by
  ext name
  simp [LooksUp]

lemma looksUp_append : t.LooksUp d (gs ++ gs') = t.LooksUp d gs ∪ t.LooksUp d gs' := by
  ext name
  simp [LooksUp, or_and_right, exists_or]

end Names

section Touches

variable {t : Translation} {d : Device}

/-- The text of a static attribute of the service has its name. -/
def NamedTexts (t : Translation) : Prop :=
  ∀ v ∈ t.service.staticAttributes, ∀ att ∈ staticOf t.lib v.json, att.name = v.name

lemma touches_buildElement (hdev : t.dev = some d) (hnamed : t.NamedTexts) (k : ℕ) (g : Group) :
    Touches lookUps (ReadsAs d) (Shared.buildElement t k g.date g.name g.value)
      (t.buildElement k g.date g.name g.value) (t.groupNames d g) := by
  have hbase : Touches lookUps (ReadsAs d) (Shared.baseElement t k) (t.baseElement k)
      (envNames t.lib t.service d) := by
    rw [Shared.baseElement, baseElement, hdev]
    exact touches_setEnvInfo hnamed rfl _
  refine hbase.bind (closed_readsAs d) fun e he => Touches.weaken ?_ fun _ hs => hs.1
  rw [baseElement, hdev] at he
  have hinfo : e.deviceInfo = some d := (setEnvInfo_sameInfo he).1
  have hmap : e.mapping t.lib = EnvElement.envMapping t.lib t.service (some d) :=
    (setEnvInfo_grows he).1
  rw [← hmap]
  refine (touches_add hinfo _).bind (closed_readsAs d) fun e' he' =>
    Touches.weaken ?_ fun _ hs => hs.1
  have hsame := (add_grows he').1
  rw [← hsame.mapping]
  exact touches_add (hsame.1.trans hinfo) _

/-! ### The loop over the tokens -/

section Loop

variable {date : String} {tokens : List String} {elements : List EnvElement} {j : ℕ}

lemma shared_measureLoop_nil (hdrop : tokens.drop j = []) :
    Shared.measureLoop t date tokens j elements = pure elements := by
  rw [Shared.measureLoop, if_neg]
  rw [List.drop_eq_nil_iff] at hdrop
  omega

lemma shared_measureLoop_cut {rest : List String} (hdrop : tokens.drop j = rest)
    (hcut : Partial rest) :
    Shared.measureLoop t date tokens j elements = throw .outOfBounds := by
  obtain ⟨token, hlt, htoken, hread⟩ := readToken_cut hdrop hcut
  rw [Shared.measureLoop, if_pos hlt, htoken]
  show Shared.ofExcept (readToken tokens ((if token = "" then j + 1 else j) + 1)) >>= _ = _
  rw [hread]
  rfl

lemma shared_measureLoop_group {k : ℕ} {token name value : String} (hlt : j < tokens.length)
    (htoken : readToken tokens j = .ok token) (hk : k = if token = "" then j + 1 else j)
    (hname : readToken tokens k = .ok name) (hvalue : readToken tokens (k + 1) = .ok value) :
    Shared.measureLoop t date tokens j elements =
      if value = "" then throw (protocolError "Protocol error, Empty values is not allowed ")
      else Shared.buildElement t elements.length date name value >>= fun elto =>
        Shared.measureLoop t date tokens (k + 2) (elements ++ [elto]) := by
  subst hk
  rw [Shared.measureLoop, if_pos hlt, htoken]
  show Shared.ofExcept (readToken tokens ((if token = "" then j + 1 else j) + 1)) >>= _ = _
  rw [hvalue]
  show Shared.ofExcept (readToken tokens (if token = "" then j + 1 else j)) >>= _ = _
  rw [hname]
  rfl

/-- A group and the loop behind it. -/
lemma touches_group (hdev : t.dev = some d) (hnamed : t.NamedTexts) {k k' : ℕ}
    {token name value : String} {gs : List Group} (hlt : j < tokens.length)
    (htoken : readToken tokens j = .ok token) (hk : k = if token = "" then j + 1 else j)
    (hname : readToken tokens k = .ok name) (hread : readToken tokens (k + 1) = .ok value)
    (hvalue : value ≠ "") (hk' : k' = k + 2)
    (hrest : ∀ elements, Touches lookUps (ReadsAs d)
      (Shared.measureLoop t date tokens k' elements) (t.measureLoop date tokens k' elements)
      (t.LooksUp d gs)) :
    Touches lookUps (ReadsAs d) (Shared.measureLoop t date tokens j elements)
      (t.measureLoop date tokens j elements) (t.LooksUp d (⟨date, name, value⟩ :: gs)) := by
  subst hk'
  rw [shared_measureLoop_group hlt htoken hk hname hread, if_neg hvalue,
    measureLoop_group hlt htoken hk hname hread, if_neg hvalue, looksUp_cons]
  exact (touches_buildElement hdev hnamed elements.length ⟨date, name, value⟩).bind
    (closed_readsAs d) fun elto _ => (hrest _).weaken fun _ hs => hs.1

/-- A group without a value ends the loop. -/
lemma touches_emptyValue {k : ℕ} {token name : String} (hlt : j < tokens.length)
    (htoken : readToken tokens j = .ok token) (hk : k = if token = "" then j + 1 else j)
    (hname : readToken tokens k = .ok name) (hvalue : readToken tokens (k + 1) = .ok "")
    (W : Set String) :
    Touches lookUps (ReadsAs d) (Shared.measureLoop t date tokens j elements)
      (t.measureLoop date tokens j elements) W := by
  rw [shared_measureLoop_group hlt htoken hk hname hvalue,
    measureLoop_group hlt htoken hk hname hvalue, if_pos rfl, if_pos rfl]
  exact Touches.throw _ _

/-- The loop looks up the names of its groups. -/
lemma touches_measureLoop (hdev : t.dev = some d) (hnamed : t.NamedTexts) :
    Touches lookUps (ReadsAs d) (Shared.measureLoop t date tokens j elements)
      (t.measureLoop date tokens j elements)
      (t.LooksUp d ((groups (tokens.drop j)).1.map fun g => ⟨date, g.1, g.2⟩)) := by
  generalize hrest : tokens.drop j = rest
  induction rest using groups.induct generalizing j elements with
  | case1 =>
      rw [shared_measureLoop_nil hrest, measureLoop_nil hrest, groups, List.map_nil, looksUp_nil]
      exact Touches.pure elements
  | case2 token =>
      rw [shared_measureLoop_cut hrest (.inl ⟨token, rfl⟩),
        measureLoop_cut hrest (.inl ⟨token, rfl⟩)]
      exact Touches.throw _ _
  | case3 second =>
      rw [shared_measureLoop_cut hrest (.inr ⟨second, rfl⟩),
        measureLoop_cut hrest (.inr ⟨second, rfl⟩)]
      exact Touches.throw _ _
  | case4 second tokens' =>
      have htoken : readToken tokens j = .ok "" := readToken_of_drop hrest 0
      have hname : readToken tokens (j + 1) = .ok second := readToken_of_drop hrest 1
      have hvalue : readToken tokens (j + 1 + 1) = .ok "" := readToken_of_drop hrest 2
      exact touches_emptyValue (lt_length_of_drop hrest) htoken (if_pos rfl).symm hname hvalue _
  | case5 second third tokens' hthird ih =>
      have htoken : readToken tokens j = .ok "" := readToken_of_drop hrest 0
      have hname : readToken tokens (j + 1) = .ok second := readToken_of_drop hrest 1
      have hvalue : readToken tokens (j + 1 + 1) = .ok third := readToken_of_drop hrest 2
      rw [groups_skip hthird, List.map_cons]
      exact touches_group hdev hnamed (lt_length_of_drop hrest) htoken (if_pos rfl).symm hname
        hvalue hthird rfl fun elements => ih (drop_add_of_drop hrest 3)
  | case6 token tokens' htoken =>
      have hread : readToken tokens j = .ok token := readToken_of_drop hrest 0
      have hvalue : readToken tokens (j + 1) = .ok "" := readToken_of_drop hrest 1
      exact touches_emptyValue (lt_length_of_drop hrest) hread (if_neg htoken).symm hread hvalue _
  | case7 token second tokens' htoken hsecond ih =>
      have hread : readToken tokens j = .ok token := readToken_of_drop hrest 0
      have hvalue : readToken tokens (j + 1) = .ok second := readToken_of_drop hrest 1
      rw [groups_cons htoken hsecond, List.map_cons]
      exact touches_group hdev hnamed (lt_length_of_drop hrest) hread (if_neg htoken).symm hread
        hvalue hsecond rfl fun elements => ih (drop_add_of_drop hrest 2)

end Loop

/-! ### Payloads -/

/-- A measure looks up the names of its groups. -/
lemma touches_translateMeasure (hdev : t.dev = some d) (hnamed : t.NamedTexts)
    (protocol i : ℕ) (elements : List EnvElement) (measure : String) :
    Touches lookUps (ReadsAs d) (Shared.translateMeasure t protocol i elements measure)
      (t.translateMeasure protocol i elements measure)
      (t.LooksUp d (t.planMeasure protocol i measure).1) := by
  rw [Shared.translateMeasure, translateMeasure, planMeasure]
  rcases checkMeasure_cases t (t.tokensOf protocol measure) with
    ⟨what, hcheck⟩ | ⟨a, b, c, e, rest, -, -, a', b', hcheck⟩
  · rw [hcheck]
    exact Touches.throw _ _
  · rw [hcheck]
    have hread : readToken (a' :: b' :: c :: e :: rest) 2 = .ok c := rfl
    have hget : (a' :: b' :: c :: e :: rest).getD 2 "" = c := rfl
    dsimp only
    rw [hget]
    refine Touches.adapt Stop.handled (x := do
      let samplingTime ← Shared.ofExcept (readToken (a' :: b' :: c :: e :: rest) 2)
      let date ← Shared.ofExcept (t.dateOf i samplingTime)
      Shared.measureLoop t date (a' :: b' :: c :: e :: rest) numElementsUlProtocol elements) ?_
    rw [hread]
    show Touches lookUps (ReadsAs d) (Shared.ofExcept (t.dateOf i c) >>= fun date =>
      Shared.measureLoop t date (a' :: b' :: c :: e :: rest) numElementsUlProtocol elements)
      (t.dateOf i c >>= fun date =>
        t.measureLoop date (a' :: b' :: c :: e :: rest) numElementsUlProtocol elements) _
    cases hdate : t.dateOf i c with
    | error stop => exact Touches.throw _ _
    | ok date => exact touches_measureLoop hdev hnamed

/-- The measures look up the names of their plan. -/
lemma touches_translateMeasures (hdev : t.dev = some d) (hnamed : t.NamedTexts)
    (protocol i : ℕ) (measures : List String) (elements : List EnvElement) :
    Touches lookUps (ReadsAs d) (Shared.translateMeasures t protocol i measures elements)
      (t.translateMeasures protocol i measures elements)
      (t.LooksUp d (t.plan protocol i measures).1) := by
  induction measures generalizing i elements with
  | nil =>
      rw [plan, looksUp_nil]
      exact Touches.pure elements
  | cons measure measures ih =>
      have hfirst := touches_translateMeasure hdev hnamed protocol i elements measure
      rw [Shared.translateMeasures, translateMeasures, plan]
      rcases hplan : t.planMeasure protocol i measure with ⟨gs, _ | stop⟩
      · rw [hplan] at hfirst
        dsimp only
        rw [looksUp_append]
        exact hfirst.bind (closed_readsAs d) fun es _ => (ih (i + 1) es).weaken fun _ hs => hs.1
      · -- the measure comes to a stop, so no other is read
        rw [hplan] at hfirst
        have hstop : ∀ es, t.translateMeasure protocol i elements measure ≠ .ok es := by
          intro es hes
          rw [translateMeasure_eq, hplan] at hes
          cases hgs : (gs.zipIdx elements.length).mapM t.buildGroup with
          | error stop' => simp only [hgs, Except.bind] at hes; cases hes
          | ok es' => simp only [hgs, Except.bind, finish] at hes; cases hes
        have hall := hfirst.bind (closed_readsAs d) (W := ∅)
          (f := Shared.translateMeasures t protocol (i + 1) measures)
          (g := t.translateMeasures protocol (i + 1) measures)
          fun es hes => absurd hes (hstop es)
        rwa [Set.union_empty] at hall

/-- The groups of a payload up to the first stop. -/
def payloadGroups (t : Translation) (protocol : ℕ) (strIo : String) : List Group :=
  (t.plan protocol 0 (measuresOf strIo)).1

/-- **A translation on the shared device** has the result that it has on a copy, and looks up
the names of its groups. -/
theorem touches_translate (hdev : t.dev = some d) (hnamed : t.NamedTexts) (protocol : ℕ)
    (strIo : String) :
    Touches lookUps (ReadsAs d) (Shared.translate t protocol strIo) (t.translate protocol strIo)
      (t.LooksUp d (t.payloadGroups protocol strIo)) := by
  rw [Shared.translate, translate]
  by_cases hms : measuresOf strIo = []
  · rw [if_pos hms, if_pos hms]
    exact Touches.throw _ _
  · rw [if_neg hms, if_neg hms]
    have hall := (touches_translateMeasures hdev hnamed protocol 0 (measuresOf strIo) []).bind
      (closed_readsAs d) (W := ∅)
      (f := fun elements => if (measuresOf strIo).length ≠ elements.length then
        throw (protocolError "Protocol error, ") else return elements)
      (g := fun elements => if (measuresOf strIo).length ≠ elements.length then
        .error (protocolError "Protocol error, ") else return elements)
      fun elements _ => by
        split
        · exact Touches.throw _ _
        · exact Touches.pure _
    rwa [Set.union_empty] at hall

/-! ### When the device stays as it is -/

/-- A payload with its translation and protocol. -/
structure Payload where
  t : Translation
  protocol : ℕ
  strIo : String

/-- The device after payloads that were translated one after the other. -/
def afterPayloads (d : Device) (ps : List Payload) : Device :=
  ps.foldl (fun s p => (runOn (Shared.translate p.t p.protocol p.strIo) s).2) d

lemma afterPayloads_cons (d : Device) (p : Payload) (ps : List Payload) :
    afterPayloads d (p :: ps)
      = afterPayloads (runOn (Shared.translate p.t p.protocol p.strIo) d).2 ps := by
  rw [afterPayloads, afterPayloads, List.foldl_cons]

/-- Every name that is looked up for a payload has an entry. -/
def HasEntries (d : Device) (p : Payload) : Prop :=
  ∀ name ∈ p.t.LooksUp d (p.t.payloadGroups p.protocol p.strIo), d.HasEntry name

/-- A payload of the device. -/
structure ForDevice (d : Device) (p : Payload) : Prop where
  dev : p.t.dev = some d
  named : p.t.NamedTexts

/-- The payload makes elements. -/
def Translated (p : Payload) : Prop :=
  ∃ elements, p.t.translate p.protocol p.strIo = .ok elements

lemma ForDevice.touches {p : Payload} (hof : ForDevice d p) :
    Touches lookUps (ReadsAs d) (Shared.translate p.t p.protocol p.strIo)
      (p.t.translate p.protocol p.strIo)
      (p.t.LooksUp d (p.t.payloadGroups p.protocol p.strIo)) :=
  touches_translate hof.dev hof.named p.protocol p.strIo

lemma readsAs_refl (d : Device) : ReadsAs d d := fun _ => rfl

/-- Payloads that fit leave the device as it is. -/
lemma afterPayloads_of_hasEntries {ps : List Payload} (hof : ∀ p ∈ ps, ForDevice d p)
    (hentries : ∀ p ∈ ps, HasEntries d p) : afterPayloads d ps = d := by
  induction ps with
  | nil => rfl
  | cons p ps ih =>
      have hfirst : (runOn (Shared.translate p.t p.protocol p.strIo) d).2 = d :=
        (hof p List.mem_cons_self).touches.unchanged (readsAs_refl d)
          (hentries p List.mem_cons_self)
      rw [afterPayloads_cons, hfirst]
      exact ih (fun q hq => hof q (List.mem_cons_of_mem _ hq))
        fun q hq => hentries q (List.mem_cons_of_mem _ hq)

/-- After payloads that made elements every name has an entry that was looked up for one. -/
lemma hasEntry_afterPayloads {ps : List Payload} (hof : ∀ p ∈ ps, ForDevice d p)
    (hok : ∀ p ∈ ps, Translated p) {s : Device} (hs : ReadsAs d s) {name : String}
    (hname : s.HasEntry name ∨
      ∃ p ∈ ps, name ∈ p.t.LooksUp d (p.t.payloadGroups p.protocol p.strIo)) :
    (afterPayloads s ps).HasEntry name := by
  induction ps generalizing s with
  | nil => simpa [afterPayloads] using hname
  | cons p ps ih =>
      have htouches := (hof p List.mem_cons_self).touches
      obtain ⟨ks, hrun, -⟩ := htouches s hs
      have hnext : ReadsAs d (runOn (Shared.translate p.t p.protocol p.strIo) s).2 := by
        rw [hrun]
        exact (closed_readsAs d).touchAll hs ks
      rw [afterPayloads_cons]
      refine ih (fun q hq => hof q (List.mem_cons_of_mem _ hq))
        (fun q hq => hok q (List.mem_cons_of_mem _ hq)) hnext ?_
      rcases hname with hname | ⟨q, hq, hname⟩
      · have hkept : lookUps.Has name (lookUps.touchAll ks s) :=
          has_touchAll_iff.mpr (.inr hname)
        rw [hrun]
        exact .inl hkept
      · rcases List.mem_cons.mp hq with rfl | hq
        · exact .inl (htouches.has hs (hok q List.mem_cons_self) hname)
        · exact .inr ⟨q, hq, hname⟩

/-- **The shared device**: the translations of a sequence of payloads have the results that
they have on a copy of it; they leave it as it is if every name that is looked up has an entry,
and where all make elements, only then. -/
theorem device_unchanged_iff (d : Device) (ps : List Payload) (hof : ∀ p ∈ ps, ForDevice d p) :
    (∀ p ∈ ps, (runOn (Shared.translate p.t p.protocol p.strIo) d).1
      = p.t.translate p.protocol p.strIo) ∧
    ((∀ p ∈ ps, HasEntries d p) → afterPayloads d ps = d) ∧
    ((∀ p ∈ ps, Translated p) → (afterPayloads d ps = d ↔ ∀ p ∈ ps, HasEntries d p)) := by
  refine ⟨fun p hp => (hof p hp).touches.result (readsAs_refl d), afterPayloads_of_hasEntries hof,
    fun hok => ⟨fun heq p hp name hname => ?_, afterPayloads_of_hasEntries hof⟩⟩
  rw [← heq]
  exact hasEntry_afterPayloads hof hok (readsAs_refl d) (.inr ⟨p, hp, hname⟩)

end Touches

/-- The time is looked up for every group. -/
lemma timeInstant_mem_groupNames (t : Translation) (d : Device) (g : Group) :
    "TimeInstant" ∈ t.groupNames d g := by
  have hname : (timeAttribute g.date).name = "TimeInstant" := by
    have hrender : Attribute.renderName "TimeInstant" = "TimeInstant" := by decide
    exact hrender
  have hvalue : (timeAttribute g.date).withDefaultType.isEmptyValue = false := by
    have hrender : Text.renderIdentifier "ISO8601" = "ISO8601" := by decide
    have htype : (timeAttribute g.date).type = "ISO8601" := hrender
    have hflat : (timeAttribute g.date).type ≠ Attribute.compound := by
      rw [htype]
      decide
    have hblank : Attribute.emptyValue ≠ "" := by decide
    refine (kept_withDefaultType.mpr ((kept_of_flat hflat).mpr ?_)).isEmptyValue
    show (if g.date = "" then Attribute.emptyValue else g.date) ≠ ""
    split
    · exact hblank
    · assumption
  exact .inr (.inr (hname ▸ .here hvalue))

/-- A payload that makes elements has a group. -/
lemma payloadGroups_ne_nil {p : Payload} (hok : Translated p) :
    p.t.payloadGroups p.protocol p.strIo ≠ [] := by
  obtain ⟨elements, hok⟩ := hok
  by_cases hms : measuresOf p.strIo = []
  · rw [translate, if_pos hms] at hok
    cases hok
  · intro hnil
    have hnone : p.t.groupsOf p.protocol p.strIo = [] := by
      rw [payloadGroups] at hnil
      rw [groupsOf, hnil, List.zipIdx_nil]
    have hcount : counted p.strIo [] ≠ .ok elements := by
      have hpos : 0 < (measuresOf p.strIo).length := List.length_pos_iff.mpr hms
      rw [counted, List.length_nil, if_pos hpos.ne']
      exact fun h => by cases h
    have hpure : (pure [] : Except Stop (List EnvElement)) = .ok [] := rfl
    rw [translate_eq _ _ hms, hnone, List.mapM_nil, hpure, Attempts.ok_bind] at hok
    cases hstop : p.t.stopOf p.protocol p.strIo with
    | some stop =>
        rw [hstop] at hok
        cases hok
    | none =>
        rw [hstop, finish, Attempts.ok_bind] at hok
        exact hcount hok

/-- A device without an entry of the time is changed by every payload that makes elements. -/
theorem changed_of_no_timeInstant {d : Device} {p : Payload} (hof : ForDevice d p)
    (hok : Translated p) (hno : ¬ d.HasEntry "TimeInstant") : afterPayloads d [p] ≠ d := by
  intro heq
  obtain ⟨g, hg⟩ := List.exists_mem_of_ne_nil _ (payloadGroups_ne_nil hok)
  refine hno ?_
  rw [← heq]
  exact hasEntry_afterPayloads (by simpa using hof) (by simpa using hok) (readsAs_refl d)
    (.inr ⟨p, List.mem_singleton_self p, g, hg, timeInstant_mem_groupNames p.t d g⟩)

/-- A payload of one measure of a device without mappings. -/
def onePayload (d : Device) : Payload := ⟨{ plain with dev := some d }, 0, "t|15"⟩

lemma of_onePayload (d : Device) : ∀ p ∈ [onePayload d], ForDevice d p := by
  intro p hp
  rw [List.mem_singleton.mp hp]
  exact ⟨rfl, by simp [NamedTexts, onePayload, plain]⟩

/-- A device with the entries that the payload leaves. -/
def marked : Device :=
  { Device.ofName "dev1" "service" with attributes := [("TimeInstant", ""), ("t", "")] }

/-- Where the entries are there, they are all that is looked up. -/
theorem hasEntries_marked : HasEntries marked (onePayload marked) := by
  have hlength : ((onePayload marked).t.translate 0 "t|15").toOption.map List.length = some 1 := by
    decide +kernel
  obtain ⟨elements, htranslate, -⟩ := Attempts.exists_ok_of_map_toOption hlength
  have hok : Translated (onePayload marked) := ⟨elements, htranslate⟩
  have hall : ∀ p ∈ [onePayload marked], Translated p := fun p hp => by
    rwa [List.mem_singleton.mp hp]
  exact ((device_unchanged_iff marked [onePayload marked] (of_onePayload marked)).2.2 hall).mp
    (by decide +kernel) _ (List.mem_singleton_self _)

/-- The measure leaves entries of its name and of the time in the device. -/
theorem changed_onePayload :
    afterPayloads (Device.ofName "dev1" "service") [onePayload (Device.ofName "dev1" "service")]
      = marked ∧ marked ≠ Device.ofName "dev1" "service" := by
  constructor
  · decide +kernel
  · decide

end Translation

end IotAgent
