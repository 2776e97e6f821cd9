import IotAgent.Rest.UpdateContext

/-!
The answers to the elements of a request, whatever the calls for them end with.

The look-up of a device and the sending of a command are calls into the rest of the agent and
into a plugin, and each may throw. `UpdateCalls` leaves them open; the two loops around them
are those of the agent.

* `UpdateCalls.updateContext`: the loops with their three places that catch an exception;
* `UpdateCalls.tries`: the calls that are made for the elements and what they end with;
* `AnsweredEach`, `answeredEach`: one answer for each element, and good answers for the
  elements whose calls all end well;
* `Agent.updateContext_eq`: the loops of an agent are these, with the calls of the agent.
-/

namespace IotAgent

open HashIndex Mongo

/-- What a call throws: an exception of the agent or another one of the library. -/
inductive Thrown where
  | iota (e : IotaException)
  | std (what : String)
  deriving DecidableEq

/-- What the outer places that catch an exception write into the answer. -/
def Thrown.answer : Thrown → IotaException
  | iota e => e
  | std what =>
      ⟨Types.responseMessageInternalError, what, Types.responseCodeReceiverInternalError⟩

/-- The calls that the loops make, over the state `σ` of the agent. -/
structure UpdateCalls (σ : Type) where
  getDeviceByEntity : (name entityType service servicePath : String) → σ →
    σ × Except Thrown (Option Device)
  updateCommand : (commandName parameters : String) → (itemDev : Device) →
    (entityType sequence : String) → (service : PTree) → σ → σ × Except Thrown Unit

/-- What the work on one element changes. -/
structure ElementLoop (σ : Type) where
  state : σ
  res : ContextResponse
  iresponse : ℤ

/-- What the loop over the elements changes. -/
structure ContextLoop (σ : Type) where
  state : σ
  contextResponses : List ContextResponse
  iresponse : ℤ

namespace ElementLoop

variable {σ : Type}

/-- An error in the answer to an element and in the result. -/
def fail (l : ElementLoop σ) (e : IotaException) : ElementLoop σ :=
  { l with res := l.res.fail e, iresponse := e.status }

/-- What the outer places that catch an exception leave. -/
def caught (l : ElementLoop σ) (thrown : Option Thrown) : ElementLoop σ :=
  thrown.elim l fun thrown => l.fail thrown.answer

end ElementLoop

namespace UpdateCalls

variable {σ : Type} (C : UpdateCalls σ) (sequence : String) (service : PTree)

/-! ### The loops -/

/-- One command of an element. -/
def sendCommand (itemDev : Device) (att : Attribute) (s : σ) : σ × Except Thrown Unit :=
  C.updateCommand att.name att.value itemDev (Agent.entityTypeOf service itemDev) sequence
    service s

/-- The error for an attribute that is no command. -/
def noCommand (att : Attribute) : IotaException :=
  ⟨Types.responseMessageNoCommand, att.name, Types.responseCodeBadRequest⟩

/-- The loop over attributes, and the exception that leaves it. An exception of the agent is
caught inside the loop, which goes on. -/
def updateAttributes (itemDev : Device) :
    List Attribute → ElementLoop σ → ElementLoop σ × Option Thrown
  | [], l => (l, none)
  | att :: atts, l =>
      if att.type = Types.commandType then
        match C.sendCommand sequence service itemDev att l.state with
        | (state, .ok ()) => updateAttributes itemDev atts { l with state }
        | (state, .error (.iota e)) =>
            updateAttributes itemDev atts ({ l with state }.fail e)
        | (state, .error (.std what)) => ({ l with state }, some (.std what))
      else updateAttributes itemDev atts (l.fail (noCommand att))

/-- The look-up of the device of an element. -/
def lookUp (entity : ContextElement) (s : σ) : σ × Except Thrown (Option Device) :=
  C.getDeviceByEntity entity.id entity.type (service.get StoreTypes.service "")
    (service.get StoreTypes.servicePath "") s

/-- The error for an element without a device. -/
def notRegistered (entity : ContextElement) : IotaException where
  reason := Types.responseMessageNoRegisteredDevice
  what := "CommandHandle::updateContext NO exists item_dev " ++ entity.id ++ " of service:" ++
    service.get StoreTypes.service ""
  status := Types.responseCodeNoRegisteredDevice

/-- The block that is tried for an element, and the exception that leaves it. -/
def tryElement (entity : ContextElement) (l : ElementLoop σ) : ElementLoop σ × Option Thrown :=
  match C.lookUp service entity l.state with
  | (state, .ok none) => ({ l with state }.fail (notRegistered service entity), none)
  | (state, .ok (some itemDev)) =>
      C.updateAttributes sequence service itemDev entity.attributes { l with state }
  | (state, .error thrown) => ({ l with state }, some thrown)

/-- The body of the loop over elements. -/
def updateElement (l : ContextLoop σ) (entity : ContextElement) : ContextLoop σ :=
  let (e, thrown) := C.tryElement sequence service entity
    ⟨l.state, { element := entity }, l.iresponse⟩
  let e := e.caught thrown
  ⟨e.state, l.contextResponses ++ [e.res], e.iresponse⟩

/-- `updateContext`, with the answers that are there already. -/
def updateContext (s : σ) (contextResponses : List ContextResponse)
    (elements : List ContextElement) : ContextLoop σ :=
  elements.foldl (C.updateElement sequence service)
    ⟨s, contextResponses, Types.responseCodeOk⟩

/-! ### The calls of a request -/

/-- What was tried for an element: the look-up and the commands, in their order. -/
structure Tried where
  entity : ContextElement
  found : Except Thrown (Option Device)
  commands : List (Except Thrown Unit)

/-- The device was found, every attribute is a command and every command returned. -/
structure Tried.Good (t : Tried) : Prop where
  found : ∃ itemDev, t.found = .ok (some itemDev)
  command : ∀ att ∈ t.entity.attributes, att.type = Types.commandType
  returned : ∀ result ∈ t.commands, result = .ok ()

/-- The commands that are sent for attributes. After an exception of the library none is. -/
def commandsOf (itemDev : Device) : List Attribute → σ → σ × List (Except Thrown Unit)
  | [], s => (s, [])
  | att :: atts, s =>
      if att.type = Types.commandType then
        match C.sendCommand sequence service itemDev att s with
        | (s, .error (.std what)) => (s, [.error (.std what)])
        | (s, result) =>
            let (s, results) := commandsOf itemDev atts s
            (s, result :: results)
      else commandsOf itemDev atts s

/-- The calls for an element. -/
def tryOf (entity : ContextElement) (s : σ) : σ × Tried :=
  match C.lookUp service entity s with
  | (s, .ok (some itemDev)) =>
      let (s, commands) := C.commandsOf sequence service itemDev entity.attributes s
      (s, ⟨entity, .ok (some itemDev), commands⟩)
  | (s, found) => (s, ⟨entity, found, []⟩)

/-- The calls for all elements, one element after the other. -/
def tries : List ContextElement → σ → σ × List Tried
  | [], s => (s, [])
  | entity :: elements, s =>
      let (s, t) := C.tryOf sequence service entity s
      let (s, ts) := tries elements s
      (s, t :: ts)

/-- No exception of the agent carries the code of success. -/
structure NoneOk : Prop where
  lookUp : ∀ name entityType service servicePath s e,
    (C.getDeviceByEntity name entityType service servicePath s).2 = .error (.iota e) →
      e.status ≠ Types.responseCodeOk
  command : ∀ commandName parameters itemDev entityType sequence service s e,
    (C.updateCommand commandName parameters itemDev entityType sequence service s).2 =
      .error (.iota e) → e.status ≠ Types.responseCodeOk

/-- The calls of every element are made, in the order of the request, and `responses` are
its answers: one for each element, good when the calls for it ended well, and with them the
result. -/
structure AnsweredEach (s : σ) (before : List ContextResponse) (elements : List ContextElement)
    (responses : List ContextResponse) : Prop where
  tried : (C.tries sequence service elements s).2.map Tried.entity = elements
  state : (C.updateContext sequence service s before elements).state =
    (C.tries sequence service elements s).1
  appended : (C.updateContext sequence service s before elements).contextResponses =
    before ++ responses
  element : responses.map ContextResponse.element = elements
  code : List.Forall₂ (fun res t => res.code = "200" ↔ t.Good) responses
    (C.tries sequence service elements s).2
  result : (C.updateContext sequence service s before elements).iresponse =
    Types.responseCodeOk ↔ ∀ res ∈ responses, res.code = "200"

/-! ### One element -/

end UpdateCalls

/-- The answer and the result carry one code, which is not that of success. -/
structure ElementLoop.Failed {σ : Type} (l : ElementLoop σ) : Prop where
  code : l.res.code = toString l.iresponse
  not_ok : l.iresponse ≠ Types.responseCodeOk

namespace ElementLoop

variable {σ : Type} {l : ElementLoop σ} {e : IotaException} {thrown : Option Thrown}

lemma failed_fail (he : e.status ≠ Types.responseCodeOk) : (l.fail e).Failed :=
  ⟨rfl, he⟩

lemma Failed.code_ne (hl : l.Failed) : l.res.code ≠ "200" := by
  intro hcode
  rw [hl.code] at hcode
  exact hl.not_ok (@Command.eq_of_toString l.iresponse 200 hcode)

@[simp] lemma caught_none : l.caught none = l := rfl

@[simp] lemma caught_some (t : Thrown) : l.caught (some t) = l.fail t.answer := rfl

@[simp] lemma state_fail : (l.fail e).state = l.state := rfl

@[simp] lemma element_fail : (l.fail e).res.element = l.res.element := rfl

@[simp] lemma state_caught : (l.caught thrown).state = l.state := by
  cases thrown <;> rfl

@[simp] lemma element_caught : (l.caught thrown).res.element = l.res.element := by
  cases thrown <;> rfl

end ElementLoop

namespace UpdateCalls

variable {σ : Type} {C : UpdateCalls σ} {sequence : String} {service : PTree}
  {itemDev : Device}

/-- The attributes change the state as the commands for them do. -/
lemma state_updateAttributes (atts : List Attribute) (l : ElementLoop σ) :
    (C.updateAttributes sequence service itemDev atts l).1.state =
      (C.commandsOf sequence service itemDev atts l.state).1 := by
  induction atts generalizing l with
  | nil => rfl
  | cons att atts ih =>
      rw [updateAttributes, commandsOf]
      by_cases ht : att.type = Types.commandType
      · simp only [ht, if_true]
        split <;> simp [*]
      · simp [ht, ih]

lemma element_updateAttributes (atts : List Attribute) (l : ElementLoop σ) :
    (C.updateAttributes sequence service itemDev atts l).1.res.element = l.res.element := by
  induction atts generalizing l with
  | nil => rfl
  | cons att atts ih =>
      rw [updateAttributes]
      by_cases ht : att.type = Types.commandType
      · simp only [ht, if_true]
        split <;> simp [*]
      · simp [ht, ih]

lemma noCommand_not_ok (att : Attribute) : (noCommand att).status ≠ Types.responseCodeOk := by
  simp [noCommand, Types.responseCodeBadRequest, Types.responseCodeOk]

lemma notRegistered_not_ok (entity : ContextElement) :
    (notRegistered service entity).status ≠ Types.responseCodeOk := by
  simp [notRegistered, Types.responseCodeNoRegisteredDevice, Types.responseCodeOk]

lemma std_not_ok (what : String) : (Thrown.std what).answer.status ≠ Types.responseCodeOk := by
  simp [Thrown.answer, Types.responseCodeReceiverInternalError, Types.responseCodeOk]

/-- The exception that leaves the loop is one of the library. -/
lemma thrown_updateAttributes {atts : List Attribute} {l : ElementLoop σ} {thrown : Thrown}
    (h : (C.updateAttributes sequence service itemDev atts l).2 = some thrown) :
    thrown.answer.status ≠ Types.responseCodeOk := by
  induction atts generalizing l with
  | nil => cases h
  | cons att atts ih =>
      rw [updateAttributes] at h
      split at h
      · split at h
        · exact ih h
        · exact ih h
        · next what heq =>
            cases h
            exact std_not_ok what
      · exact ih h

/-- What has failed stays so: a later attribute only brings another error. -/
lemma failed_updateAttributes (hC : C.NoneOk) (atts : List Attribute) {l : ElementLoop σ}
    (hl : l.Failed) :
    (C.updateAttributes sequence service itemDev atts l).1.Failed := by
  induction atts generalizing l with
  | nil => exact hl
  | cons att atts ih =>
      rw [updateAttributes]
      split
      · split
        · exact ih ⟨hl.code, hl.not_ok⟩
        · next heq => exact ih (ElementLoop.failed_fail (hC.command _ _ _ _ _ _ _ _
            (congrArg Prod.snd heq)))
        · exact ⟨hl.code, hl.not_ok⟩
      · exact ih (ElementLoop.failed_fail (noCommand_not_ok att))

lemma failed_caught {l : ElementLoop σ} {thrown : Option Thrown} (hl : l.Failed)
    (hthrown : ∀ t ∈ thrown, t.answer.status ≠ Types.responseCodeOk) :
    (l.caught thrown).Failed := by
  cases thrown with
  | none => exact hl
  | some t => exact ElementLoop.failed_fail (hthrown t rfl)

/-- The loop ends as it began, but for the state, when all goes well. -/
lemma updateAttributes_of_good {atts : List Attribute} {l : ElementLoop σ}
    (htype : ∀ att ∈ atts, att.type = Types.commandType)
    (hok : ∀ result ∈ (C.commandsOf sequence service itemDev atts l.state).2,
      result = .ok ()) :
    C.updateAttributes sequence service itemDev atts l =
      ({ l with state := (C.commandsOf sequence service itemDev atts l.state).1 }, none) := by
  induction atts generalizing l with
  | nil => rfl
  | cons att atts ih =>
      rw [List.forall_mem_cons] at htype
      rw [commandsOf, if_pos htype.1] at hok ⊢
      rw [updateAttributes, if_pos htype.1]
      split at hok
      · next heq => simp at hok
      · next s result hne heq =>
          obtain ⟨rfl, hrest⟩ := List.forall_mem_cons.mp hok
          simp only [heq]
          exact @ih { l with state := s } htype.2 hrest

/-- Something that goes wrong shows in the answer. -/
lemma failed_of_not_good (hC : C.NoneOk) {atts : List Attribute} {l : ElementLoop σ}
    (hbad : ¬ ((∀ att ∈ atts, att.type = Types.commandType) ∧
      ∀ result ∈ (C.commandsOf sequence service itemDev atts l.state).2, result = .ok ())) :
    ((C.updateAttributes sequence service itemDev atts l).1.caught
      (C.updateAttributes sequence service itemDev atts l).2).Failed := by
  induction atts generalizing l with
  | nil => simp [commandsOf] at hbad
  | cons att atts ih =>
      have hfailed : ∀ l' : ElementLoop σ, l'.Failed →
          ((C.updateAttributes sequence service itemDev atts l').1.caught
            (C.updateAttributes sequence service itemDev atts l').2).Failed := fun l' hl' =>
        failed_caught (failed_updateAttributes hC atts hl') fun t ht =>
          thrown_updateAttributes ht
      rw [updateAttributes]
      rw [List.forall_mem_cons, commandsOf] at hbad
      split at hbad
      · next htype =>
          rw [if_pos htype]
          split
          · next s heq =>
              refine ih fun hgood => hbad ?_
              simp only [heq, List.forall_mem_cons]
              exact ⟨⟨htype, hgood.1⟩, trivial, hgood.2⟩
          · next heq => exact hfailed _ (ElementLoop.failed_fail (hC.command _ _ _ _ _ _ _ _
              (congrArg Prod.snd heq)))
          · next what heq => exact ElementLoop.failed_fail (std_not_ok what)
      · next htype =>
          rw [if_neg htype]
          exact hfailed _ (ElementLoop.failed_fail (noCommand_not_ok att))

/-- The work on one element against the calls for it. -/
structure Follows (l l' : ElementLoop σ) (s : σ) (t : Tried) : Prop where
  state : l'.state = s
  element : l'.res.element = l.res.element
  good : t.Good → l'.res.code = l.res.code ∧ l'.iresponse = l.iresponse
  failed : ¬ t.Good → l'.Failed

lemma follows_fail {l : ElementLoop σ} {s : σ} {e : IotaException} {t : Tried}
    (ht : ¬ t.Good) (he : e.status ≠ Types.responseCodeOk) :
    Follows l (ElementLoop.fail { l with state := s } e) s t :=
  ⟨rfl, rfl, fun hgood => absurd hgood ht, fun _ => ElementLoop.failed_fail he⟩

/-- The block that is tried for an element, with the exceptions that leave it caught. -/
theorem tryElement_follows (hC : C.NoneOk) (entity : ContextElement) (l : ElementLoop σ) :
    Follows l
      ((C.tryElement sequence service entity l).1.caught
        (C.tryElement sequence service entity l).2)
      (C.tryOf sequence service entity l.state).1
      (C.tryOf sequence service entity l.state).2 := by
  rw [tryElement, tryOf]
  rcases heq : C.lookUp service entity l.state with ⟨state, thrown | none | itemDev⟩
  · refine follows_fail (fun hgood => ?_) ?_
    · simpa using hgood.found
    · cases thrown with
      | iota e => exact hC.lookUp _ _ _ _ _ e (congrArg Prod.snd heq)
      | std what => exact std_not_ok what
  · refine follows_fail (fun hgood => ?_) (notRegistered_not_ok entity)
    simpa using hgood.found
  · dsimp only
    constructor
    · simp [state_updateAttributes]
    · simp [element_updateAttributes]
    · intro hgood
      rw [updateAttributes_of_good hgood.command hgood.returned]
      exact ⟨rfl, rfl⟩
    · intro hbad
      exact failed_of_not_good hC fun h => hbad ⟨⟨itemDev, rfl⟩, h.1, h.2⟩

/-! ### A request -/

lemma entity_tryOf (entity : ContextElement) (s : σ) :
    (C.tryOf sequence service entity s).2.entity = entity := by
  rw [tryOf]
  split <;> rfl

lemma snd_tries_cons (entity : ContextElement) (elements : List ContextElement) (s : σ) :
    (C.tries sequence service (entity :: elements) s).2 =
      (C.tryOf sequence service entity s).2 ::
        (C.tries sequence service elements (C.tryOf sequence service entity s).1).2 := rfl

lemma map_entity_tries (elements : List ContextElement) (s : σ) :
    (C.tries sequence service elements s).2.map Tried.entity = elements := by
  induction elements generalizing s with
  | nil => rfl
  | cons entity elements ih => rw [snd_tries_cons, List.map_cons, entity_tryOf, ih]

/-- What the body of the loop adds to where the loop stands. -/
structure Answers (l l' : ContextLoop σ) (s : σ) (t : Tried) (res : ContextResponse) :
    Prop where
  state : l'.state = s
  appended : l'.contextResponses = l.contextResponses ++ [res]
  element : res.element = t.entity
  code : res.code = "200" ↔ t.Good
  result : l'.iresponse = Types.responseCodeOk ↔
    l.iresponse = Types.responseCodeOk ∧ res.code = "200"

/-- The step of the loop over the elements. -/
theorem updateElement_answers (hC : C.NoneOk) (l : ContextLoop σ) (entity : ContextElement) :
    ∃ res, Answers l (C.updateElement sequence service l entity)
      (C.tryOf sequence service entity l.state).1 (C.tryOf sequence service entity l.state).2
      res := by
  have hf := @tryElement_follows _ _ sequence service hC entity
    ⟨l.state, { element := entity }, l.iresponse⟩
  refine ⟨_, hf.state, rfl, hf.element.trans (entity_tryOf entity l.state).symm, ?_, ?_⟩
  · constructor
    · intro hcode
      by_contra hbad
      exact (hf.failed hbad).code_ne hcode
    · exact fun hgood => (hf.good hgood).1
  · by_cases hgood : (C.tryOf sequence service entity l.state).2.Good
    · have hkept := hf.good hgood
      exact ⟨fun h => ⟨hkept.2.symm.trans h, hkept.1⟩, fun h => hkept.2.trans h.1⟩
    · have hfailed := hf.failed hgood
      exact ⟨fun h => absurd h hfailed.not_ok, fun h => absurd h.2 hfailed.code_ne⟩

variable (C sequence service) in
/-- What the loop over the elements adds to where it stands. -/
structure Extends (l l' : ContextLoop σ) (elements : List ContextElement)
    (responses : List ContextResponse) : Prop where
  state : l'.state = (C.tries sequence service elements l.state).1
  appended : l'.contextResponses = l.contextResponses ++ responses
  element : responses.map ContextResponse.element = elements
  code : List.Forall₂ (fun res t => res.code = "200" ↔ t.Good) responses
    (C.tries sequence service elements l.state).2
  result : l'.iresponse = Types.responseCodeOk ↔
    l.iresponse = Types.responseCodeOk ∧ ∀ res ∈ responses, res.code = "200"

/-- The loop over the elements, by induction on them. -/
theorem foldl_extends (hC : C.NoneOk) (elements : List ContextElement) (l : ContextLoop σ) :
    ∃ responses, C.Extends sequence service l
      (elements.foldl (C.updateElement sequence service) l) elements responses := by
  induction elements generalizing l with
  | nil => exact ⟨[], rfl, (List.append_nil _).symm, rfl, .nil, by simp⟩
  | cons entity elements ih =>
      obtain ⟨res, hres⟩ := @updateElement_answers _ _ sequence service hC l entity
      obtain ⟨responses, hrest⟩ := ih (C.updateElement sequence service l entity)
      have hstate := hrest.state
      have hcode := hrest.code
      rw [hres.state] at hstate hcode
      refine ⟨res :: responses, hstate, ?_, ?_, .cons hres.code hcode, ?_⟩
      · rw [List.foldl_cons, hrest.appended, hres.appended, List.append_assoc]
        rfl
      · rw [List.map_cons, hrest.element, hres.element, entity_tryOf]
      · rw [List.foldl_cons, hrest.result, hres.result, List.forall_mem_cons, and_assoc]

/-- **The answers to a request**: one for each element, in order and whatever went before. -/
theorem answeredEach (C : UpdateCalls σ) (sequence : String) (service : PTree)
    (hC : C.NoneOk) (s : σ) (before : List ContextResponse) (elements : List ContextElement) :
    ∃ responses, C.AnsweredEach sequence service s before elements responses := by
  obtain ⟨responses, hl⟩ :=
    foldl_extends hC elements ⟨s, before, Types.responseCodeOk⟩
  refine ⟨responses, map_entity_tries elements s, hl.state, hl.appended, hl.element, hl.code,
    ?_⟩
  rw [updateContext, hl.result]
  exact and_iff_right rfl

/-- A plugin whose look-up and commands end as their names say. -/
def namedCalls : UpdateCalls Unit where
  getDeviceByEntity name _ _ _ s :=
    (s, if name = "room1" then .ok (some (Device.ofName "d1" ""))
      else if name = "room2" then .ok none
      else .error (.iota ⟨Types.responseMessageNoDevice, name,
        Types.responseCodeContextElementNotFound⟩))
  updateCommand commandName parameters _ _ _ _ s :=
    (s, if commandName = "ping" then .ok ()
      else if commandName = "set" then .error (.std parameters)
      else .error (.iota ⟨Types.responseMessageNoDeviceNoCommand, commandName,
        Types.responseCodeContextElementNotFound⟩))

lemma noneOk_namedCalls : namedCalls.NoneOk where
  lookUp name _ _ _ _ e h := by
    simp only [namedCalls] at h
    split_ifs at h
    obtain rfl := Thrown.iota.inj (Except.error.inj h)
    simp [Types.responseCodeContextElementNotFound, Types.responseCodeOk]
  command commandName _ _ _ _ _ _ e h := by
    simp only [namedCalls] at h
    split_ifs at h
    · cases h
    obtain rfl := Thrown.iota.inj (Except.error.inj h)
    simp [Types.responseCodeContextElementNotFound, Types.responseCodeOk]

/-- Elements with each of the ends. -/
def mixedElements : List ContextElement :=
  [⟨"room1", "thing", [⟨"set", Types.commandType, "22"⟩, ⟨"ping", Types.commandType, ""⟩]⟩,
    ⟨"room1", "thing", [⟨"set", "float", "22"⟩, ⟨"open", Types.commandType, ""⟩]⟩,
    ⟨"room2", "thing", []⟩, ⟨"room3", "thing", []⟩,
    ⟨"room1", "thing", [⟨"ping", Types.commandType, ""⟩]⟩]

theorem answeredEach_mixedElements :
    ∃ responses, namedCalls.AnsweredEach "1f2e" [] () [] mixedElements responses :=
  answeredEach namedCalls "1f2e" [] noneOk_namedCalls () [] mixedElements

/-- A plugin that throws an exception with the code of success. -/
def okThrower : UpdateCalls Unit where
  getDeviceByEntity _ _ _ _ s := (s, .ok (some (Device.ofName "d1" "")))
  updateCommand _ _ _ _ _ _ s :=
    (s, .error (.iota ⟨Types.responseMessageNoDeviceNoCommand, "", Types.responseCodeOk⟩))

/-- The answer of a command that threw looks good. -/
theorem not_answeredEach_okThrower :
    ¬ ∃ responses, okThrower.AnsweredEach "1f2e" [] () []
      [⟨"room1", "thing", [⟨"ping", Types.commandType, ""⟩]⟩] responses := by
  rintro ⟨responses, h⟩
  have happ : [_] = responses := h.appended
  obtain rfl := happ
  cases h.code with
  | cons hcode _ =>
      have hgood := (hcode.mp rfl).returned
      simp at hgood

end UpdateCalls

/-! ### The calls of an agent -/

namespace Agent

open UpdateCalls

variable {h : Hashing} (P : Plugin) (J : JsonText) (od : Order Device String)
  (o : Order Ptr String)

/-- The calls of an agent. Its look-up throws when it finds no device. -/
def updateCalls : UpdateCalls (Agent h) where
  getDeviceByEntity name entityType service servicePath a :=
    let (rest, found) := a.rest.getDeviceByEntity J od name entityType service servicePath
    ({ a with rest }, (found.map some).mapError .iota)
  updateCommand commandName parameters itemDev entityType sequence service a :=
    let (commands, result) := a.commands.updateCommand P o commandName parameters itemDev
      entityType sequence service
    ({ a with commands }, result.mapError .iota)

variable {P J od o} {sequence : String} {service : PTree}

/-- The loops over attributes agree, as no exception leaves the one of the agent. -/
lemma updateAttributes_eq (itemDev : Device) (atts : List Attribute) (rest : RestHandle h)
    (l : AttributeLoop h) :
    (updateCalls P J od o).updateAttributes sequence service itemDev atts
        ⟨⟨rest, l.commands⟩, l.res, l.iresponse⟩ =
      (⟨⟨rest, (atts.foldl (updateAttribute P o sequence service itemDev) l).commands⟩,
        (atts.foldl (updateAttribute P o sequence service itemDev) l).res,
        (atts.foldl (updateAttribute P o sequence service itemDev) l).iresponse⟩, none) := by
  induction atts generalizing l with
  | nil => rfl
  | cons att atts ih =>
      rw [updateAttributes, List.foldl_cons, updateAttribute]
      by_cases ht : att.type = Types.commandType
      · simp only [ht, if_true, sendCommand, updateCalls]
        rcases l.commands.updateCommand P o att.name att.value itemDev
          (entityTypeOf service itemDev) sequence service with ⟨commands, e | _⟩
        · exact ih ⟨commands, l.res.fail e, e.status⟩
        · exact ih ⟨commands, l.res, l.iresponse⟩
      · simp only [ht, if_false]
        exact ih ⟨l.commands, l.res.fail (noCommand att), (noCommand att).status⟩

lemma lookUp_updateCalls (entity : ContextElement) (a : Agent h) :
    (updateCalls P J od o).lookUp service entity a =
      (⟨(a.rest.getDeviceByEntity J od entity.id entity.type
          (service.get StoreTypes.service "") (service.get StoreTypes.servicePath "")).1,
        a.commands⟩,
      ((a.rest.getDeviceByEntity J od entity.id entity.type
        (service.get StoreTypes.service "")
        (service.get StoreTypes.servicePath "")).2.map some).mapError .iota) := rfl

/-- The bodies of the loops over elements agree. -/
lemma updateElement_eq (l : ContextLoop (Agent h)) (entity : ContextElement) :
    (updateCalls P J od o).updateElement sequence service l entity =
      ⟨(updateElement P J od o sequence service l.state l.iresponse entity).1,
        l.contextResponses ++
          [(updateElement P J od o sequence service l.state l.iresponse entity).2.1],
        (updateElement P J od o sequence service l.state l.iresponse entity).2.2⟩ := by
  rw [UpdateCalls.updateElement, tryElement, updateElement, lookUp_updateCalls]
  rcases l.state.rest.getDeviceByEntity J od entity.id entity.type
    (service.get StoreTypes.service "") (service.get StoreTypes.servicePath "")
    with ⟨rest, e | itemDev⟩
  · rfl
  · have hatts := @updateAttributes_eq _ P J od o sequence service itemDev entity.attributes rest
      ⟨l.state.commands, { element := entity }, l.iresponse⟩
    simp only [Except.map, Except.mapError]
    rw [hatts]
    rfl

/-- The loops over elements agree. -/
theorem updateContext_eq (a : Agent h) (elements : List ContextElement) :
    (updateCalls P J od o).updateContext sequence service a [] elements =
      ⟨(updateContext P J od o sequence service a elements).1,
        (updateContext P J od o sequence service a elements).2.1,
        (updateContext P J od o sequence service a elements).2.2⟩ := by
  suffices hloop : ∀ l : ContextLoop (Agent h),
      elements.foldl ((updateCalls P J od o).updateElement sequence service) l =
        ⟨(updateElements P J od o sequence service l.state l.iresponse elements).1,
          l.contextResponses ++
            (updateElements P J od o sequence service l.state l.iresponse elements).2.1,
          (updateElements P J od o sequence service l.state l.iresponse elements).2.2⟩ from
    hloop ⟨a, [], Types.responseCodeOk⟩
  induction elements with
  | nil => simp [updateElements]
  | cons entity elements ih =>
      intro l
      rw [List.foldl_cons, ih, updateElement_eq, updateElements]
      simp only [List.append_assoc, List.singleton_append]

end Agent

end IotAgent
