import IotAgent.Ngsi.ContextElement
import IotAgent.Rest.RestHandle
import IotAgent.Util.CommandCache
import IotAgent.Util.CommandCollection

/-!
Commands on their way between the context broker and the devices.

A command is saved in the cache and in the store, delivered when its device polls or by a
request to the device, and removed when the device responds or a timer fires. Every function
is a sequence of steps, each atomic: a look-up or a change of the cache under its lock, an
operation of the store, an update that is sent.

* `CommandHandle`: the cache of the agent, the store and what has been sent;
* `saveCommand`, `getAllCommand`, `getCommand`, `removeCommand`: the life of a command;
* `timeoutF`, `itemTimeout`: the callback of a timer;
* `processCommandResponse`: the callback of a request to a device.
-/

namespace IotAgent

open HashIndex Mongo

/-- What agents are set up with: whether commands are stored, and the collection, as an error of
the store writes it and its documents. -/
structure CommandStorage where
  storageType : String
  bbdd : String
  text : Doc → String

/-- The commands of an agent. -/
structure CommandHandle (h : Hashing) extends CommandStorage where
  asyncCommands : CommandCache h
  table : CommandTable
  sent : List UpdateContext

namespace CommandHandle

variable {h : Hashing} (s : CommandHandle h) (o : Order Ptr String)

/-- Whether commands are stored. -/
abbrev Stored : Prop :=
  s.storageType = StoreTypes.mongodb

/-- `command_from_mongo`, set as the get function of the cache over a store. -/
def getFunction : GetFunction :=
  if s.Stored then some fun item => CommandCollection.findOne s.table item else none

/-! ### Updates -/

/-- The attribute of a command, by its name and the kind of attribute. -/
def commandAttribute (commandName commandAtt type value : String) : Attribute :=
  Attribute.ofTexts (commandName ++ "_" ++ commandAtt) type value

/-- `send_updateContext` with one attribute. -/
def sendUpdateContext (commandName commandAtt type value : String) (itemDev : Device)
    (service : PTree) (op : String) : CommandHandle h :=
  let element : ContextElement :=
    if commandName ≠ "" then
      ({} : ContextElement).addAttribute (commandAttribute commandName commandAtt type value)
    else {}
  { s with sent := s.sent ++ [⟨op, element.format service itemDev⟩] }

/-- `send_updateContext` with two attributes. -/
def sendUpdateContext₂ (commandName commandAtt type value commandAtt₂ type₂ value₂ : String)
    (itemDev : Device) (service : PTree) (op : String) : CommandHandle h :=
  let element :=
    (({} : ContextElement).addAttribute
      (commandAttribute commandName commandAtt type value)).addAttribute
      (commandAttribute commandName commandAtt₂ type₂ value₂)
  { s with sent := s.sent ++ [⟨op, element.format service itemDev⟩] }

/-- `response_command`. -/
def responseCommand (idCommand response : String) (device : Device) (service : PTree) :
    CommandHandle h :=
  s.sendUpdateContext₂ idCommand Types.status Types.statusType Types.executedMessage
    Types.info Types.infoType response device service Types.statusOp

variable {s} in
@[simp] lemma sendUpdateContext_asyncCommands (name att type value : String) (itemDev : Device)
    (service : PTree) (op : String) :
    (s.sendUpdateContext name att type value itemDev service op).asyncCommands =
      s.asyncCommands := rfl

variable {s} in
/-- An update with two attributes: the value of the first one, and the entity. -/
lemma sendUpdateContext₂_sent {name att type value att₂ type₂ value₂ : String}
    {itemDev : Device} {service : PTree} {op : String} (ht : Text.renderIdentifier type ≠ "")
    (hv : value ≠ "") :
    ∃ u, (s.sendUpdateContext₂ name att type value att₂ type₂ value₂ itemDev service op).sent =
        s.sent ++ [u] ∧
      u.firstValue = value ∧ u.element.id = itemDev.getRealName service := by
  refine ⟨_, rfl, ?_, ContextElement.format_id (by simp) service itemDev⟩
  have hfirst : (({} : ContextElement).addAttribute
      (commandAttribute name att type value)).attributes =
        [commandAttribute name att type value] :=
    ContextElement.addAttribute_attributes {} ht (Attribute.ofTexts_value_ne _ type value)
  simp only [UpdateContext.firstValue, ContextElement.format_attributes]
  obtain ⟨l, hl⟩ := ContextElement.addAttribute_prefix
    (({} : ContextElement).addAttribute (commandAttribute name att type value))
    (commandAttribute name att₂ type₂ value₂)
  rw [hl, hfirst]
  exact Attribute.ofTexts_value hv ..

variable {s} in
/-- An update with one attribute: its value, if the command has a name. -/
lemma sendUpdateContext_sent {name att type value : String} {itemDev : Device}
    {service : PTree} {op : String} (ht : Text.renderIdentifier type ≠ "") (hv : value ≠ "") :
    ∃ u, (s.sendUpdateContext name att type value itemDev service op).sent = s.sent ++ [u] ∧
      u.firstValue = if name ≠ "" then value else "" := by
  refine ⟨_, rfl, ?_⟩
  have hfirst : (({} : ContextElement).addAttribute
      (commandAttribute name att type value)).attributes =
        [commandAttribute name att type value] :=
    ContextElement.addAttribute_attributes {} ht (Attribute.ofTexts_value_ne _ type value)
  simp only [UpdateContext.firstValue, ContextElement.format_attributes]
  split
  · rw [hfirst]
    exact Attribute.ofTexts_value hv ..
  · rfl

variable {s} in
lemma responseCommand_sent (idCommand response : String) (device : Device) (service : PTree) :
    ∃ u, (s.responseCommand idCommand response device service).sent = s.sent ++ [u] ∧
      u.firstValue = Types.executedMessage ∧ u.element.id = device.getRealName service :=
  sendUpdateContext₂_sent (by decide) (by decide)

/-! ### Saving -/

/-- A command of the request, for the device. -/
def newCommand (commandName commandId : String) (timeout : ℤ) (commandToSend : PTree)
    (itemDev : Device) (entityType endpoint : String) (service : PTree) (sequence : String)
    (status : ℤ) : Command :=
  (Command.ofStored commandId commandName (service.get StoreTypes.service "")
    (service.get StoreTypes.servicePath "") sequence (itemDev.getRealName service) entityType
    endpoint timeout none commandToSend).setStatus status

/-- The first step of `save_command`: the new object enters the cache. -/
def saveInCache (item : Command) : CommandHandle h × Ptr :=
  let (c, p) := s.asyncCommands.insertNew item
  ({ s with asyncCommands := c }, p)

/-- The second step: the object, as it is then, enters the store. -/
def saveInStore (p : Ptr) : CommandHandle h × Except IotaException Unit :=
  if s.Stored then
    match CommandCollection.insert s.table (s.asyncCommands.cmd p) with
    | some table => ({ s with table }, .ok ())
    | none =>
        let data := CommandCollection.obj2BSON (s.asyncCommands.cmd p)
        (s, .error ⟨Types.responseMessageDuplicatedData,
          "duplicate key: " ++ s.bbdd ++ " " ++ s.text data, 409⟩)
  else (s, .ok ())

/-- `save_command`. -/
def saveCommand (commandName commandId : String) (timeout : ℤ) (commandToSend : PTree)
    (itemDev : Device) (entityType endpoint : String) (service : PTree) (sequence : String)
    (status : ℤ) : CommandHandle h × Except IotaException Unit :=
  if commandId = "" then
    (s, .error {
      reason := Types.responseMessageInvalidParameter
      what := "command is is empty " ++ commandName ++ " of device " ++ itemDev.name
      status := Types.responseCodeBadRequest })
  else
    let (s, p) := s.saveInCache (newCommand commandName commandId timeout commandToSend itemDev
      entityType endpoint service sequence status)
    s.saveInStore p

variable {s} in
@[simp] lemma saveInStore_asyncCommands (p : Ptr) :
    (s.saveInStore p).1.asyncCommands = s.asyncCommands := by
  rw [saveInStore]
  split
  · split <;> rfl
  · rfl

variable {s} in
/-- What a command leaves in the cache, however the store takes it. -/
lemma saveCommand_asyncCommands {commandName commandId : String} {timeout : ℤ}
    {commandToSend : PTree} {itemDev : Device} {entityType endpoint : String}
    {service : PTree} {sequence : String} {status : ℤ} (hid : commandId ≠ "") :
    (s.saveCommand commandName commandId timeout commandToSend itemDev entityType endpoint
      service sequence status).1.asyncCommands =
      (s.asyncCommands.insertNew (newCommand commandName commandId timeout commandToSend itemDev
        entityType endpoint service sequence status)).1 := by
  rw [saveCommand, if_neg hid]
  exact saveInStore_asyncCommands _

/-! ### Delivery to a device that polls -/

/-- The key of the commands that wait for an entity. -/
def waitingKey (dev : Device) (service : PTree) : Command :=
  (Command.ofEntity (dev.getRealName service) (service.get StoreTypes.service "")
    (service.get StoreTypes.servicePath "")).setStatus Types.readyForRead

/-- The first step of a poll: the commands are taken from the cache. -/
def takeCommands (dev : Device) (service : PTree) : CommandHandle h × List Ptr :=
  let (c, res) := s.asyncCommands.getByEntityV o s.getFunction (waitingKey dev service)
    Types.delivered
  ({ s with asyncCommands := c }, res)

/-- A further step: the mark of one command in the store. -/
def markDelivered (commandId service servicePath : String) : CommandHandle h × ℕ :=
  let no := CommandCollection.recordQuery commandId service servicePath
  match s.table.update no [(StoreTypes.status, .int Types.delivered)] with
  | some (table, n) => ({ s with table }, n)
  | none => (s, 0)

/-- The update for a command that is delivered. -/
def sendDelivered (commandName : String) (dev : Device) (service : PTree) : CommandHandle h :=
  s.sendUpdateContext commandName Types.status Types.statusType Types.deliveredMessage dev
    service Types.statusOp

/-- The mark of a command that a poll has taken, and the update for it. -/
def announceDelivered (dev : Device) (service : PTree) (p : Ptr) : CommandHandle h :=
  let item := s.asyncCommands.cmd p
  (s.markDelivered item.id item.service item.servicePath).1.sendDelivered item.name dev service

section Announce

variable {s} {dev : Device} {service : PTree}

@[simp] lemma markDelivered_asyncCommands (id svc path : String) :
    (s.markDelivered id svc path).1.asyncCommands = s.asyncCommands := by
  rw [markDelivered]
  split <;> rfl

@[simp] lemma announceDelivered_asyncCommands (p : Ptr) :
    (s.announceDelivered dev service p).asyncCommands = s.asyncCommands := by
  simp [announceDelivered, sendDelivered]

/-- The announcements leave the cache. -/
lemma foldl_announceDelivered_asyncCommands (ps : List Ptr) :
    (ps.foldl (fun s p => s.announceDelivered dev service p) s).asyncCommands =
      s.asyncCommands := by
  induction ps generalizing s with
  | nil => rfl
  | cons p ps ih => rw [List.foldl_cons, ih, announceDelivered_asyncCommands]

end Announce

/-- `get_all_command`, which works over a store only. -/
def getAllCommand (dev : Option Device) (service : PTree) : CommandHandle h × List Ptr :=
  if s.Stored then
    match dev with
    | some dev =>
        let (s, res) := s.takeCommands o dev service
        (res.foldl (fun s p => s.announceDelivered dev service p) s, res)
    | none => (s, [])
  else (s, [])

/-! ### Look-up and removal -/

/-- `get_command`. -/
def getCommand (commandId service servicePath : String) : CommandHandle h × Option Ptr :=
  let (c, res) := s.asyncCommands.getById o s.getFunction
    (CommandCollection.keyOf commandId service servicePath)
  ({ s with asyncCommands := c }, res)

/-- `get_command_from_mongo`. -/
def getCommandFromMongo (commandId service servicePath : String) : Option Command :=
  s.asyncCommands.getByIdFromMongo s.getFunction
    (CommandCollection.keyOf commandId service servicePath)

/-- The first step of `remove_command`, in the cache. -/
def removeFromCache (commandId service servicePath : String) : CommandHandle h :=
  { s with
    asyncCommands := s.asyncCommands.remove o
      (CommandCollection.keyOf commandId service servicePath) }

/-- The second step, in the store, with the number of records removed. -/
def removeFromStore (commandId service servicePath : String) : CommandHandle h × ℕ :=
  if s.Stored then
    let (table, n) := CommandCollection.remove s.table
      (CommandCollection.keyOf commandId service servicePath)
    ({ s with table }, n)
  else (s, 1)

/-- `remove_command`. -/
def removeCommand (commandId service servicePath : String) : CommandHandle h × ℕ :=
  (s.removeFromCache o commandId service servicePath).removeFromStore commandId service
    servicePath

section Remove

variable {s o} {commandId service servicePath : String}

@[simp] lemma removeFromCache_cmd (p : Ptr) :
    (s.removeFromCache o commandId service servicePath).asyncCommands.cmd p =
      s.asyncCommands.cmd p := by
  rw [removeFromCache, CommandCache.remove_cmd]

@[simp] lemma removeFromStore_asyncCommands :
    (s.removeFromStore commandId service servicePath).1.asyncCommands = s.asyncCommands := by
  rw [removeFromStore]
  split <;> rfl

@[simp] lemma removeFromStore_sent :
    (s.removeFromStore commandId service servicePath).1.sent = s.sent := by
  rw [removeFromStore]
  split <;> rfl

@[simp] lemma removeCommand_sent :
    (s.removeCommand o commandId service servicePath).1.sent = s.sent := by
  rw [removeCommand, removeFromStore]
  split <;> rfl

@[simp] lemma removeCommand_asyncCommands :
    (s.removeCommand o commandId service servicePath).1.asyncCommands =
      s.asyncCommands.remove o (CommandCollection.keyOf commandId service servicePath) := by
  rw [removeCommand, removeFromStore]
  split <;> rfl

/-- Over a store the removal takes every record that the query of the key matches. -/
lemma removeCommand_docs :
    (s.removeCommand o commandId service servicePath).1.table.docs =
      if s.Stored then s.table.docs.filter fun d =>
        ¬ Matches (CommandCollection.obj2BSON
          (CommandCollection.keyOf commandId service servicePath)) d
      else s.table.docs := by
  rw [removeCommand, removeFromStore]
  exact apply_ite (fun r : CommandHandle h × ℕ => r.1.table.docs) _ _ _

end Remove

/-! ### The callback of a timer -/

/-- The text that is sent for a command whose timer has fired. -/
def timeoutMessage (status : ℤ) : String :=
  if status = Types.readyForRead then Types.expiredReadMessage
  else if status = Types.delivered then Types.expiredDeliveryMessage
  else Types.error

/-- The device that stands for the entity of a command. -/
def timeoutDevice (item : Command) : Device :=
  { Device.ofName "" item.service with
    entityType := item.entityType, entityName := item.entity }

/-- The store has not gone ahead of the status that the timer has read. -/
def notAhead (status : ℤ) : Option Command → Prop
  | some itemBBDD => ¬ status < itemBBDD.status
  | none => False

instance (status : ℤ) (itemBBDD : Option Command) : Decidable (notAhead status itemBBDD) :=
  match itemBBDD with
  | some itemBBDD => inferInstanceAs (Decidable (¬ status < itemBBDD.status))
  | none => isFalse id

/-- The update of a timer. -/
def sendExpired (item : Command) (statusStr : String) (service : PTree) : CommandHandle h :=
  s.sendUpdateContext item.name Types.status Types.statusType statusStr (timeoutDevice item)
    service Types.statusOp

/-- `timeout_f`. `getServiceByName` finds the service of the command; if it throws, so that
there is none, the function ends. -/
def timeoutF (getServiceByName : String → String → Option PTree) (p : Ptr) :
    CommandHandle h :=
  let item := s.asyncCommands.cmd p
  match getServiceByName item.service item.servicePath with
  | some service =>
      let itemBBDD := s.getCommandFromMongo item.id item.service item.servicePath
      if notAhead item.status itemBBDD then
        let (s', c) := s.removeCommand o item.id item.service item.servicePath
        if 0 < c then s'.sendExpired item (timeoutMessage item.status) service else s'
      else s
  | none => s

section Timeout

variable {s o} {getServiceByName : String → String → Option PTree} {p : Ptr} {service : PTree}

/-- Without its service a command stays. -/
lemma timeoutF_of_none
    (hg : getServiceByName (s.asyncCommands.cmd p).service (s.asyncCommands.cmd p).servicePath =
      none) : s.timeoutF o getServiceByName p = s := by
  simp only [timeoutF, hg]

/-- A command that the store has ahead, or not at all, stays. -/
lemma timeoutF_of_ahead
    (hg : getServiceByName (s.asyncCommands.cmd p).service (s.asyncCommands.cmd p).servicePath =
      some service)
    (ha : ¬ notAhead (s.asyncCommands.cmd p).status
      (s.getCommandFromMongo (s.asyncCommands.cmd p).id (s.asyncCommands.cmd p).service
        (s.asyncCommands.cmd p).servicePath)) :
    s.timeoutF o getServiceByName p = s := by
  simp only [timeoutF, hg, if_neg ha]

/-- Any other command is removed, and announced if a record of it was there. -/
lemma timeoutF_of_notAhead
    (hg : getServiceByName (s.asyncCommands.cmd p).service (s.asyncCommands.cmd p).servicePath =
      some service)
    (ha : notAhead (s.asyncCommands.cmd p).status
      (s.getCommandFromMongo (s.asyncCommands.cmd p).id (s.asyncCommands.cmd p).service
        (s.asyncCommands.cmd p).servicePath))
    {s' : CommandHandle h} {c : ℕ}
    (hr : s.removeCommand o (s.asyncCommands.cmd p).id (s.asyncCommands.cmd p).service
      (s.asyncCommands.cmd p).servicePath = (s', c)) :
    s.timeoutF o getServiceByName p =
      if 0 < c then s'.sendExpired (s.asyncCommands.cmd p)
        (timeoutMessage (s.asyncCommands.cmd p).status) service
      else s' := by
  simp only [timeoutF, hg, if_pos ha, hr]

end Timeout

/-- `item_timeout` of the cache, for a timer that was not cancelled. -/
def itemTimeout (getServiceByName : String → String → Option PTree) (p : Ptr) :
    CommandHandle h :=
  let s := s.timeoutF o getServiceByName p
  { s with asyncCommands := s.asyncCommands.remove o (s.asyncCommands.cmd p) }

/-! ### The callback of a request to a device -/

/-- What is kept of a command that is sent to a device. -/
structure CommandData where
  commandName : String
  commandId : String
  itemDev : Device
  service : PTree

namespace CommandData

variable (d : CommandData)

def serviceName : String := d.service.get StoreTypes.service ""

def servicePath : String := d.service.get StoreTypes.servicePath ""

end CommandData

/-- The mark of an accepted command. The query names the identifier only. -/
def markAccepted (commandId : String) : CommandHandle h × ℕ :=
  if s.Stored then
    match s.table.update [(StoreTypes.commandId, .str commandId)]
        [(StoreTypes.status, .int Types.delivered)] with
    | some (table, n) => ({ s with table }, n)
    | none => (s, 0)
  else (s, 1)

/-- The status of an object, set through a pointer. -/
def setStatus (p : Option Ptr) (status : ℤ) : CommandHandle h :=
  match p with
  | some p => { s with asyncCommands := s.asyncCommands.setStatus p status }
  | none => s

/-- The update for a command that a device has carried out. -/
def sendExecuted (d : CommandData) (respCmd : String) : CommandHandle h :=
  if respCmd ≠ "" then
    s.sendUpdateContext₂ d.commandName Types.status Types.statusType Types.executedMessage
      Types.info Types.infoType respCmd d.itemDev d.service Types.infoOp
  else
    s.sendUpdateContext d.commandName Types.status Types.statusType Types.executedMessage
      d.itemDev d.service Types.statusOp

/-- The update for a command that has failed. -/
def sendError (d : CommandData) (respCmd : String) : CommandHandle h :=
  s.sendUpdateContext₂ d.commandName Types.status Types.statusType Types.error
    Types.info Types.infoType respCmd d.itemDev d.service Types.statusOp

/-- `process_command_response`. -/
def processCommandResponse (d : CommandData) (resCode : ℤ) (respCmd : String) :
    CommandHandle h :=
  if resCode = Types.responseCodeOk then
    let (s, _) := s.removeCommand o d.commandId d.serviceName d.servicePath
    s.sendExecuted d respCmd
  else if resCode = 202 then
    let (s, n) := s.markAccepted d.commandId
    let (s, pt) := s.getCommand o d.commandId d.serviceName d.servicePath
    let s := s.setStatus pt Types.delivered
    if 0 < n then s.sendDelivered d.commandName d.itemDev d.service else s
  else
    let (s, _) := s.removeCommand o d.commandId d.serviceName d.servicePath
    s.sendError d respCmd

/-! ### Steps outside the cache -/

section Cache

variable {s}

@[simp] lemma markAccepted_asyncCommands {commandId : String} :
    (s.markAccepted commandId).1.asyncCommands = s.asyncCommands := by
  rw [markAccepted]
  split
  · split <;> rfl
  · rfl

@[simp] lemma markAccepted_sent {commandId : String} :
    (s.markAccepted commandId).1.sent = s.sent := by
  rw [markAccepted]
  split
  · split <;> rfl
  · rfl

lemma sendExecuted_sent (d : CommandData) (respCmd : String) :
    ∃ u, (s.sendExecuted d respCmd).sent = s.sent ++ [u] := by
  rw [sendExecuted]
  split
  · exact ⟨_, rfl⟩
  · exact ⟨_, rfl⟩

@[simp] lemma sendExecuted_table {d : CommandData} {respCmd : String} :
    (s.sendExecuted d respCmd).table = s.table := by
  rw [sendExecuted]
  split <;> rfl

@[simp] lemma sendExecuted_asyncCommands {d : CommandData} {respCmd : String} :
    (s.sendExecuted d respCmd).asyncCommands = s.asyncCommands := by
  rw [sendExecuted]
  split <;> rfl

end Cache

/-! ### The kind of storage -/

section StorageType

variable {s o} {p : Ptr} {commandId service servicePath : String}

@[simp] lemma saveInStore_toCommandStorage :
    (s.saveInStore p).1.toCommandStorage = s.toCommandStorage := by
  rw [saveInStore]
  split
  · split <;> rfl
  · rfl

@[simp] lemma markDelivered_toCommandStorage :
    (s.markDelivered commandId service servicePath).1.toCommandStorage = s.toCommandStorage := by
  rw [markDelivered]
  split <;> rfl

@[simp] lemma announceDelivered_toCommandStorage (dev : Device) (itsService : PTree) :
    (s.announceDelivered dev itsService p).toCommandStorage = s.toCommandStorage := by
  rw [announceDelivered]
  exact markDelivered_toCommandStorage

@[simp] lemma removeFromStore_toCommandStorage :
    (s.removeFromStore commandId service servicePath).1.toCommandStorage = s.toCommandStorage := by
  rw [removeFromStore]
  split <;> rfl

@[simp] lemma markAccepted_toCommandStorage :
    (s.markAccepted commandId).1.toCommandStorage = s.toCommandStorage := by
  rw [markAccepted]
  split
  · split <;> rfl
  · rfl

@[simp] lemma setStatus_toCommandStorage (pt : Option Ptr) (status : ℤ) :
    (s.setStatus pt status).toCommandStorage = s.toCommandStorage := by
  cases pt <;> rfl

end StorageType

end CommandHandle

end IotAgent
