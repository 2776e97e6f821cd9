import IotAgent.Rest.CommandHandle

/-!
Requests of the context broker.

A request carries elements, and an element attributes; every attribute of the type of
commands is a command for the device of its element. All commands of a request share the
sequence of the request, and the sequence is what the unique index of the cache compares.

* `CommandHandle.updateCommand`: one command, sent to a device or saved until it polls;
* `Agent.updateContext`: the loops over elements and attributes, and
  `updateContext_commands`: what they do to the commands;
* `NoneLost`: after a request the cache holds every command of it;
* `noneLost_iff`: it does so exactly when the request carries one command at most.
-/

namespace IotAgent

open HashIndex Mongo

/-- What a plugin decides for its protocol. -/
structure Plugin where
  transformCommand : (commandName commandValue updateCommandValue sequenceId : String) →
    (itemDev : Device) → (service : PTree) → Except IotaException (String × PTree)
  isPushTypeOfCommand : Device → Bool
  executeCommand : (endpoint commandId : String) → (commandToSend : PTree) → (timeout : ℤ) →
    (itemDev : Device) → (service : PTree) → Except String (ℤ × String)
  timeoutCommands : ℤ
  callback : Bool

/-! ### What a plugin inherits -/

namespace Plugin

/-- The text of a command with each `%s` replaced by the next parameter. -/
def fillIn : List Char → List String → List Char
  | '%' :: 's' :: cs, params => (params.headD "").toList ++ fillIn cs params.tail
  | c :: cs, params => c :: fillIn cs params
  | [], _ => []

/-- The body that the inherited `transform_command` makes. -/
def transformBody (commandValue updateCommandValue : String) : Except IotaException PTree :=
  if commandValue = "" ∨ commandValue = Types.raw then
    .ok [(StoreTypes.body, updateCommandValue)]
  else
    let params := (updateCommandValue.toList.splitOn '|').map String.ofList
    let count := commandValue.toList.count '%'
    if count = 0 then .ok [(StoreTypes.body, commandValue)]
    else if count > params.length then
      .error {
        reason := Types.responseMessageInvalidParameter
        what := "malformed command " ++ commandValue ++ " in relation with " ++
          updateCommandValue ++ ".%s is replaced with  | value"
        status := Types.responseCodeBadRequest }
    else .ok [(StoreTypes.body, String.ofList (fillIn commandValue.toList params))]

end Plugin

namespace CommandHandle

/-- `transform_command` as it is inherited; `uuid` is drawn for an empty sequence. -/
def transformCommand (uuid _commandName commandValue updateCommandValue sequenceId : String)
    (_itemDev : Device) (_service : PTree) : Except IotaException (String × PTree) :=
  (Plugin.transformBody commandValue updateCommandValue).map fun commandLine =>
    (if sequenceId = "" then uuid else sequenceId, commandLine)

/-- `is_push_type_of_command` as it is inherited. -/
def isPushTypeOfCommand (device : Device) : Bool :=
  device.endpoint ≠ ""

end CommandHandle

namespace Plugin

/-- The sample plugin, which answers for its devices itself. -/
def testCommandService : Plugin where
  transformCommand := CommandHandle.transformCommand "uuid"
  isPushTypeOfCommand := CommandHandle.isPushTypeOfCommand
  executeCommand _ _ commandToSend _ _ _ :=
    .ok (Types.responseCodeOk, commandToSend.get StoreTypes.body "" ++ "|command_response")
  timeoutCommands := 13
  callback := false

end Plugin

/-! ### One command -/

namespace CommandHandle

variable {h : Hashing} (P : Plugin) (o : Order Ptr String) (s : CommandHandle h)

/-- `getCommandLine`: the identifier and the body of a command of a device. -/
def getCommandLine (commandName updateCommandValue sequenceId : String) (itemDev : Device)
    (service : PTree) : Except IotaException (String × PTree) :=
  if commandName = "" then
    .error ⟨Types.responseMessageInvalidParameter, "need specify a command ",
      Types.responseCodeBadRequest⟩
  else
    match itemDev.commands.lookup commandName with
    | none =>
        .error {
          reason := Types.responseMessageNoDeviceNoCommand
          what := "Device " ++ itemDev.name ++ " has not a command called " ++ commandName
          status := Types.responseCodeContextElementNotFound }
    | some strValueCommand =>
        P.transformCommand commandName strValueCommand updateCommandValue sequenceId itemDev
          service

/-- The request to a device that has an endpoint, and its answer. An error of the request is
logged; with a callback the answer comes later. -/
def pushCommand (d : CommandData) (commandToSend : PTree) : CommandHandle h :=
  match P.executeCommand d.itemDev.endpoint d.commandId commandToSend P.timeoutCommands
    d.itemDev d.service with
  | .ok (resCode, respCmd) =>
      if P.callback then s else s.processCommandResponse o d resCode respCmd
  | .error _ => s

/-- `updateCommand`. -/
def updateCommand (commandName parameters : String) (itemDev : Device)
    (entityType sequence : String) (service : PTree) :
    CommandHandle h × Except IotaException Unit :=
  match getCommandLine P commandName parameters sequence itemDev service with
  | .error e => (s, .error e)
  | .ok (commandId, commandToSend) =>
      if P.isPushTypeOfCommand itemDev then
        let s := s.sendUpdateContext commandName Types.status Types.statusType Types.pending
          itemDev service Types.statusOp
        match s.saveCommand commandName commandId P.timeoutCommands commandToSend itemDev
          entityType itemDev.endpoint service sequence Types.readyForRead with
        | (s, .error e) => (s, .error e)
        | (s, .ok ()) =>
            (s.pushCommand P o ⟨commandName, commandId, itemDev, service⟩ commandToSend, .ok ())
      else
        let s := s.sendUpdateContext commandName Types.status Types.statusType
          Types.readyForReadMessage itemDev service Types.statusOp
        s.saveCommand commandName commandId P.timeoutCommands commandToSend itemDev entityType
          itemDev.endpoint service sequence Types.readyForRead

end CommandHandle

/-! ### A request -/

/-- The answer for one element. -/
structure ContextResponse where
  element : ContextElement
  code : String := "200"
  reason : String := "OK"
  details : String := ""
  deriving DecidableEq

/-- The answer with an error. Its texts lose their quotation marks. -/
def ContextResponse.fail (res : ContextResponse) (e : IotaException) : ContextResponse :=
  { res with
    code := toString e.status
    reason := String.ofList (e.reason.toList.filter (· ≠ '"'))
    details := String.ofList (e.what.toList.filter (· ≠ '"')) }

/-- An agent: the devices of the base class and the commands. -/
structure Agent (h : Hashing) where
  rest : RestHandle h
  commands : CommandHandle h

/-- What the loop over the attributes of an element changes. -/
structure AttributeLoop (h : Hashing) where
  commands : CommandHandle h
  res : ContextResponse
  iresponse : ℤ

namespace Agent

variable {h : Hashing} (P : Plugin) (J : JsonText) (od : Order Device String)
  (o : Order Ptr String) (sequence : String) (service : PTree)

/-- The type of the entity of a device. -/
def entityTypeOf (itemDev : Device) : String :=
  if itemDev.entityType = "" then service.get "entity_type" "" else itemDev.entityType

/-- The body of the loop over attributes. -/
def updateAttribute (itemDev : Device) (l : AttributeLoop h) (att : Attribute) :
    AttributeLoop h :=
  if att.type = Types.commandType then
    match l.commands.updateCommand P o att.name att.value itemDev
      (entityTypeOf service itemDev) sequence service with
    | (commands, .ok ()) => { l with commands }
    | (commands, .error e) => ⟨commands, l.res.fail e, e.status⟩
  else
    { l with
      res := l.res.fail
        ⟨Types.responseMessageNoCommand, att.name, Types.responseCodeBadRequest⟩
      iresponse := Types.responseCodeBadRequest }

/-- The body of the loop over elements. The look-up ends with a device or an exception. -/
def updateElement (a : Agent h) (iresponse : ℤ) (entity : ContextElement) :
    Agent h × ContextResponse × ℤ :=
  match a.rest.getDeviceByEntity J od entity.id entity.type
    (service.get StoreTypes.service "") (service.get StoreTypes.servicePath "") with
  | (rest, .ok itemDev) =>
      let l := entity.attributes.foldl (updateAttribute P o sequence service itemDev)
        ⟨a.commands, { element := entity }, iresponse⟩
      (⟨rest, l.commands⟩, l.res, l.iresponse)
  | (rest, .error e) =>
      (⟨rest, a.commands⟩, ContextResponse.fail { element := entity } e, e.status)

/-- `updateContext`, from a given response code on. -/
def updateElements (a : Agent h) (iresponse : ℤ) :
    List ContextElement → Agent h × List ContextResponse × ℤ
  | [] => (a, [], iresponse)
  | entity :: elements =>
      let (a, res, iresponse) := updateElement P J od o sequence service a iresponse entity
      let (a, responses, iresponse) := updateElements a iresponse elements
      (a, res :: responses, iresponse)

/-- `updateContext`. -/
def updateContext (a : Agent h) (elements : List ContextElement) :
    Agent h × List ContextResponse × ℤ :=
  updateElements P J od o sequence service a 200 elements

/-! ### The commands of a request -/

/-- What the look-ups of the devices of the elements end with. -/
def lookUps (r : RestHandle h) :
    List ContextElement → List (ContextElement × Except IotaException Device)
  | [] => []
  | entity :: elements =>
      let (r, result) := r.getDeviceByEntity J od entity.id entity.type
        (service.get StoreTypes.service "") (service.get StoreTypes.servicePath "")
      (entity, result) :: lookUps r elements

/-- The attributes of an element, each with the device. -/
def withDevice : ContextElement × Except IotaException Device → List (Device × Attribute)
  | (entity, .ok itemDev) => entity.attributes.map (itemDev, ·)
  | (_, .error _) => []

/-- The attributes of a request, each with the device of its element. -/
def requested (r : RestHandle h) (elements : List ContextElement) :
    List (Device × Attribute) :=
  (lookUps J od service r elements).flatMap withDevice

/-- Every element of a request finds its device. -/
def Registered (r : RestHandle h) (elements : List ContextElement) : Prop :=
  ∀ x ∈ lookUps J od service r elements, x.2.isOk

instance (r : RestHandle h) (elements : List ContextElement) :
    Decidable (Registered J od service r elements) :=
  inferInstanceAs (Decidable (∀ _ ∈ _, _))

/-- What becomes of one attribute. -/
def giveCommand (s : CommandHandle h) (x : Device × Attribute) :
    CommandHandle h × Except IotaException Unit :=
  s.updateCommand P o x.2.name x.2.value x.1 (entityTypeOf service x.1) sequence service

/-- The commands after one attribute. -/
def giveAttribute (s : CommandHandle h) (x : Device × Attribute) : CommandHandle h :=
  if x.2.type = Types.commandType then (giveCommand P o sequence service s x).1 else s

variable {P J od o sequence service}

lemma updateAttribute_commands (itemDev : Device) (l : AttributeLoop h) (att : Attribute) :
    (updateAttribute P o sequence service itemDev l att).commands =
      giveAttribute P o sequence service l.commands (itemDev, att) := by
  rw [updateAttribute, giveAttribute]
  split
  · rw [giveCommand]
    split <;> simp [*]
  · rfl

lemma foldl_updateAttribute_commands (itemDev : Device) (l : AttributeLoop h)
    (atts : List Attribute) :
    (atts.foldl (updateAttribute P o sequence service itemDev) l).commands =
      (atts.map (itemDev, ·)).foldl (giveAttribute P o sequence service) l.commands := by
  induction atts generalizing l with
  | nil => rfl
  | cons att atts ih =>
      rw [List.foldl_cons, List.map_cons, List.foldl_cons, ih, updateAttribute_commands]

lemma updateElements_commands (a : Agent h) (iresponse : ℤ) (elements : List ContextElement) :
    (updateElements P J od o sequence service a iresponse elements).1.commands =
      (requested J od service a.rest elements).foldl (giveAttribute P o sequence service)
        a.commands := by
  induction elements generalizing a iresponse with
  | nil => rfl
  | cons entity elements ih =>
      rw [updateElements]
      dsimp only
      rw [ih, updateElement, requested, requested, lookUps]
      split
      · next rest itemDev heq =>
          simp only [heq, List.flatMap_cons, withDevice, List.foldl_append,
            foldl_updateAttribute_commands]
      · next rest e heq =>
          simp only [heq, List.flatMap_cons, withDevice, List.nil_append]

/-- The two loops give the device of every element its attributes, one after the other. -/
theorem updateContext_commands (a : Agent h) (elements : List ContextElement) :
    (updateContext P J od o sequence service a elements).1.commands =
      (requested J od service a.rest elements).foldl (giveAttribute P o sequence service)
        a.commands :=
  updateElements_commands a 200 elements

/-! ### A request for devices that poll -/

variable (P o sequence service) in
/-- How the commands of a list are taken, one after the other. -/
def outcomes (s : CommandHandle h) :
    List (Device × Attribute) → List (Except IotaException Unit)
  | [] => []
  | x :: xs =>
      let (s, result) := giveCommand P o sequence service s x
      result :: outcomes s xs

variable (P J od o sequence service) in
/-- A request of commands for registered devices that poll, with a fresh sequence and room in
the cache, all of them saved normally. -/
structure ForPolling (a : Agent h) (elements : List ContextElement) : Prop where
  registered : Registered J od service a.rest elements
  polling : ∀ x ∈ requested J od service a.rest elements,
    P.isPushTypeOfCommand x.1 = false ∧ x.2.type = Types.commandType
  fresh : ∀ p ∈ a.commands.asyncCommands.list,
    (a.commands.asyncCommands.cmd p).sequence ≠ sequence
  room : a.commands.asyncCommands.size + (requested J od service a.rest elements).length ≤
    a.commands.asyncCommands.maxNumItems
  saved : ∀ result ∈ outcomes P o sequence service a.commands
    (requested J od service a.rest elements), result.isOk

/-- What a cached command and an attribute of the request have in common. -/
structure Saved where
  service : String
  servicePath : String
  entity : String
  name : String
  status : ℤ
  deriving DecidableEq

def Saved.ofCommand (c : Command) : Saved :=
  ⟨c.service, c.servicePath, c.entity, c.name, c.status⟩

variable (service) in
def Saved.ofRequest (x : Device × Attribute) : Saved where
  service := service.get StoreTypes.service ""
  servicePath := service.get StoreTypes.servicePath ""
  entity := x.1.getRealName service
  name := x.2.name
  status := Types.readyForRead

/-- The cached commands of a sequence. -/
def ofSequence (c : CommandCache h) (sequence : String) : List Ptr :=
  c.list.filter fun p => (c.cmd p).sequence = sequence

variable (o sequence service) in
/-- The cache holds one command for every attribute of a request, and each is found under
its entity. -/
structure NoneLost (s : CommandHandle h) (xs : List (Device × Attribute)) : Prop where
  held : ((ofSequence s.asyncCommands sequence).map fun p =>
    Saved.ofCommand (s.asyncCommands.cmd p)).Perm (xs.map (Saved.ofRequest service))
  found : ∀ x ∈ xs, ∃ p,
    (s.asyncCommands.getByEntity o s.getFunction
      (CommandHandle.waitingKey x.1 service)).2 = some p ∧
    s.asyncCommands.entityKey p = (CommandHandle.waitingKey x.1 service).uniqueEntity

/-- What is saved for a device that polls. -/
lemma giveCommand_polling {s : CommandHandle h} {x : Device × Attribute}
    (hpoll : P.isPushTypeOfCommand x.1 = false)
    (hok : (giveCommand P o sequence service s x).2.isOk) :
    ∃ item : Command, item.sequence = sequence ∧
      Saved.ofCommand item = Saved.ofRequest service x ∧
      (giveCommand P o sequence service s x).1.asyncCommands =
        (s.asyncCommands.insertNew item).1 := by
  rw [giveCommand, CommandHandle.updateCommand] at hok ⊢
  split at hok
  · simp [Except.isOk, Except.toBool] at hok
  · next commandId commandToSend heq =>
      simp only [hpoll, Bool.false_eq_true, if_false] at hok ⊢
      have hid : commandId ≠ "" := by
        rintro rfl
        simp [CommandHandle.saveCommand, Except.isOk, Except.toBool] at hok
      exact ⟨CommandHandle.newCommand x.2.name commandId P.timeoutCommands commandToSend x.1
        (entityTypeOf service x.1) x.1.endpoint service sequence Types.readyForRead, rfl, rfl,
        CommandHandle.saveCommand_asyncCommands hid⟩

/-- Two cached commands of one service, service path and sequence are one. -/
lemma eq_of_sequence {c : CommandCache h} {p q : Ptr} (hp : p ∈ ofSequence c sequence)
    (hq : q ∈ ofSequence c sequence) (hservice : (c.cmd p).service = (c.cmd q).service)
    (hpath : (c.cmd p).servicePath = (c.cmd q).servicePath) : p = q := by
  simp only [ofSequence, List.mem_filter, decide_eq_true_eq] at hp hq
  exact c.distinct.eq_of_rel c.same_symm hp.1 hq.1
    (Command.collide_of_equal ⟨hp.2.trans hq.2.symm, hservice⟩ hpath)

/-- The cache never holds two commands of a request. -/
lemma NoneLost.length_le_one {s : CommandHandle h} {xs : List (Device × Attribute)}
    (hs : NoneLost o sequence service s xs) : xs.length ≤ 1 := by
  have hlen : (ofSequence s.asyncCommands sequence).length = xs.length := by
    simpa using hs.held.length_eq
  have hnd : (ofSequence s.asyncCommands sequence).Nodup :=
    CommandCache.list_nodup.filter _
  have hsaved : ∀ p ∈ ofSequence s.asyncCommands sequence,
      (s.asyncCommands.cmd p).service = service.get StoreTypes.service "" ∧
      (s.asyncCommands.cmd p).servicePath = service.get StoreTypes.servicePath "" := by
    intro p hp
    obtain ⟨x, -, hx⟩ := List.mem_map.mp (hs.held.subset (List.mem_map_of_mem hp))
    exact ⟨(congrArg Saved.service hx).symm, (congrArg Saved.servicePath hx).symm⟩
  rw [← hlen]
  -- two commands of the sequence would collide in the unique index
  match hps : ofSequence s.asyncCommands sequence with
  | [] => simp
  | [_] => simp
  | p :: q :: _ =>
      rw [hps] at hnd hsaved
      have hp := hsaved p (by simp)
      have hq := hsaved q (by simp)
      have hpmem : p ∈ ofSequence s.asyncCommands sequence := by simp [hps]
      have hqmem : q ∈ ofSequence s.asyncCommands sequence := by simp [hps]
      have heq : p = q :=
        eq_of_sequence hpmem hqmem (hp.1.trans hq.1.symm) (hp.2.trans hq.2.symm)
      simp [heq] at hnd

/-- A single command with a fresh sequence is in the cache. -/
lemma noneLost_insertNew {s : CommandHandle h} {c : CommandCache h} {item : Command}
    {x : Device × Attribute} (hs : s.asyncCommands = (c.insertNew item).1)
    (hseq : item.sequence = sequence) (hitem : Saved.ofCommand item = Saved.ofRequest service x)
    (hfresh : ∀ p ∈ c.list, (c.cmd p).sequence ≠ sequence) (hroom : c.size < c.maxNumItems) :
    NoneLost o sequence service s [x] := by
  have hperm : (c.insertNew item).1.list.Perm (c.heap.next :: c.list) := by
    refine CommandCache.insertNew_list_perm_cons (fun q hq hcol => ?_) hroom
    exact hfresh q hq (hcol.2.1.trans hseq)
  have hnew : s.asyncCommands.cmd c.heap.next = item := hs ▸ CommandCache.insertNew_cmd_new
  have hold : ∀ p ∈ c.list, s.asyncCommands.cmd p = c.cmd p :=
    fun p hp => hs ▸ CommandCache.insertNew_cmd_of_lt (c.allocated p hp)
  have hlist : s.asyncCommands.list.Perm (c.heap.next :: c.list) := hs ▸ hperm
  constructor
  · have hnone : (c.list.filter fun p => (s.asyncCommands.cmd p).sequence = sequence) = [] := by
      refine List.filter_eq_nil_iff.mpr fun p hp => ?_
      simpa [hold p hp] using hfresh p hp
    have hone : (ofSequence s.asyncCommands sequence).Perm [c.heap.next] := by
      refine (hlist.filter _).trans (.of_eq ?_)
      rw [List.filter_cons_of_pos (by simp [hnew, hseq]), hnone]
    simpa [hnew, hitem] using hone.map fun p => Saved.ofCommand (s.asyncCommands.cmd p)
  · intro x' hx'
    obtain rfl := List.mem_singleton.mp hx'
    have hkey : s.asyncCommands.entityKey c.heap.next =
        (CommandHandle.waitingKey x'.1 service).uniqueEntity := by
      have hservice := congrArg Saved.service hitem
      have hpath := congrArg Saved.servicePath hitem
      have hentity := congrArg Saved.entity hitem
      have hstatus := congrArg Saved.status hitem
      simp only [Saved.ofCommand, Saved.ofRequest] at hservice hpath hentity hstatus
      rw [CommandCache.entityKey, hnew, Command.uniqueEntity, hservice, hpath, hentity, hstatus]
      rfl
    have hmem : c.heap.next ∈ s.asyncCommands.list := hlist.mem_iff.mpr (by simp)
    exact CommandCache.getByEntity_hit hmem hkey

/-- **The commands of one request**: the cache holds all of them exactly when there is one at
most. -/
theorem noneLost_iff (P : Plugin) (J : JsonText) (od : Order Device String)
    (o : Order Ptr String) (sequence : String) (service : PTree) (a : Agent h)
    (elements : List ContextElement)
    (hreq : ForPolling P J od o sequence service a elements) :
    NoneLost o sequence service
        (updateContext P J od o sequence service a elements).1.commands
        (requested J od service a.rest elements) ↔
      (requested J od service a.rest elements).length ≤ 1 := by
  refine ⟨NoneLost.length_le_one, fun hlen => ?_⟩
  rw [updateContext_commands]
  obtain ⟨-, hpolling, hfresh, hroom, hsaved⟩ := hreq
  match hxs : requested J od service a.rest elements with
  | [] =>
      have hnone : ofSequence a.commands.asyncCommands sequence = [] :=
        List.filter_eq_nil_iff.mpr fun p hp => by simpa using hfresh p hp
      exact ⟨.of_eq (by rw [List.foldl_nil, hnone]; rfl), fun x hx => by simp at hx⟩
  | [x] =>
      rw [hxs] at hpolling hsaved hroom
      obtain ⟨hpoll, htype⟩ := hpolling x (by simp)
      have hok : (giveCommand P o sequence service a.commands x).2.isOk :=
        hsaved _ (by simp [outcomes])
      obtain ⟨item, hseq, hitem, hcache⟩ := giveCommand_polling hpoll hok
      rw [List.foldl_cons, List.foldl_nil, giveAttribute, if_pos htype]
      exact noneLost_insertNew hcache hseq hitem hfresh hroom
  | _ :: _ :: _ => simp [hxs] at hlen

/-- A device without an endpoint that has two commands, and a request of both or of one. -/
def sensor : Device :=
  { Device.ofName "d1" "service" with
    servicePath := "/", entityName := "room1", entityType := "thing"
    commands := [("ping", ""), ("set", "")], active := 1 }

def sensorService : PTree := [(StoreTypes.service, "service"), (StoreTypes.servicePath, "/")]

def requestOf (names : List String) : List ContextElement :=
  [⟨"room1", "thing", names.map fun name => ⟨name, Types.commandType, "22"⟩⟩]

/-- An agent without a store that knows the device. -/
def sensorAgent : Agent ⟨fun n s => n + s.length, fun n => n⟩ where
  rest :=
    { storageType := "file", protocol := ""
      registeredDevices := (Cache.empty Types.maxSizeCache false).insert sensor
      deviceTable := .empty }
  commands :=
    { storageType := "file", bbdd := "iot.COMMAND", text := fun _ => ""
      asyncCommands := CommandCache.empty Types.maxSizeCache false
      table := .empty, sent := [] }

def noJson : JsonText := ⟨fun _ => "", fun _ => none⟩

/-- One command of a request is in the cache. -/
theorem noneLost_sensorAgent :
    NoneLost Order.blocks "1f2e" sensorService
      (updateContext Plugin.testCommandService noJson Order.blocks Order.blocks "1f2e"
        sensorService sensorAgent (requestOf ["ping"])).1.commands
      (requested noJson Order.blocks sensorService sensorAgent.rest (requestOf ["ping"])) :=
  (noneLost_iff Plugin.testCommandService noJson Order.blocks Order.blocks "1f2e" sensorService
    sensorAgent (requestOf ["ping"])
    ⟨by decide +kernel, by decide +kernel, by decide +kernel, by decide +kernel,
      by decide +kernel⟩).mpr (by decide +kernel)

/-- Of two commands of a request one is lost. -/
theorem not_noneLost_sensorAgent :
    ForPolling Plugin.testCommandService noJson Order.blocks Order.blocks "1f2e" sensorService
      sensorAgent (requestOf ["ping", "set"]) ∧
    ¬ NoneLost Order.blocks "1f2e" sensorService
      (updateContext Plugin.testCommandService noJson Order.blocks Order.blocks "1f2e"
        sensorService sensorAgent (requestOf ["ping", "set"])).1.commands
      (requested noJson Order.blocks sensorService sensorAgent.rest
        (requestOf ["ping", "set"])) := by
  refine ⟨⟨by decide +kernel, by decide +kernel, by decide +kernel, by decide +kernel,
    by decide +kernel⟩, fun hnone => ?_⟩
  have hlen := hnone.held.length_eq
  revert hlen
  decide +kernel

end Agent

end IotAgent
