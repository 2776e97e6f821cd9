import IotAgent.Mqtt.MqttService
import IotAgent.UltraLight.Ul20Service

/-!
Responses over all plugins.

* `DeviceMessage`: a message of a device, as each plugin gets it;
* `handledForSender_iff`: a response is attributed exactly when the identifier in it finds
  commands of the sender only.
-/

namespace IotAgent

open HashIndex

/-- A message of a device that may answer a command. -/
inductive DeviceMessage where
  | ul20 (content : String)
  | mqtt (commandPayload commandId : String)

namespace DeviceMessage

/-- The identifier of the command and the text of the response. -/
def response : DeviceMessage → Option (String × String)
  | ul20 content => Ul20Service.isCommandResp content
  | mqtt commandPayload commandId => some (commandId, commandPayload)

variable {h : Hashing}

/-- The handler of the plugin. -/
def handle (s : CommandHandle h) (o : Order Ptr String) (dev : Device) (service : PTree) :
    DeviceMessage → Option (CommandHandle h)
  | ul20 content => Ul20Service.commandResponse s o content dev service
  | mqtt commandPayload commandId =>
      some (MqttService.respondMqttCommand s o dev service commandPayload commandId)

/-- Both handlers respond alike. -/
lemma handle_eq (s : CommandHandle h) (o : Order Ptr String) (dev : Device) (service : PTree)
    (m : DeviceMessage) :
    m.handle s o dev service = m.response.map fun r => s.respond o r.1 r.2 dev service := by
  cases m with
  | ul20 content => rfl
  | mqtt commandPayload commandId => rfl

/-- The response to the command `idCommand` is attributed to its sender, whatever the order
of the index. -/
def HandledForSender (s : CommandHandle h) (dev : Device) (service : PTree)
    (m : DeviceMessage) (idCommand : String) : Prop :=
  ∀ o, ∃ s', m.handle s o dev service = some s' ∧
    CommandHandle.Attributed s s' idCommand dev service

lemma handledForSender_iff_respond {s : CommandHandle h} {dev : Device} {service : PTree}
    {m : DeviceMessage} {idCommand response : String}
    (hm : m.response = some (idCommand, response)) :
    HandledForSender s dev service m idCommand ↔
      ∀ o, CommandHandle.Attributed s (s.respond o idCommand response dev service) idCommand dev
        service := by
  have hhandle : ∀ o, m.handle s o dev service =
      some (s.respond o idCommand response dev service) := by
    intro o
    rw [handle_eq, hm]
    rfl
  refine forall_congr' fun o => ?_
  rw [hhandle]
  simp

/-- **Attribution of responses**: a message that is recognised as a response to a command is
executed for its sender, or changes nothing, exactly when the identifier finds commands for
the entity of the sender only. -/
theorem handledForSender_iff (s : CommandHandle h) (dev : Device) (service : PTree)
    (m : DeviceMessage) (idCommand response : String)
    (hm : m.response = some (idCommand, response)) :
    HandledForSender s dev service m idCommand ↔
      CommandHandle.AllOwn s idCommand dev service :=
  (handledForSender_iff_respond hm).trans (CommandHandle.forall_attributed_iff response)

/-- A command that waits for the entity `room1`. -/
def pingRoom1 : Command :=
  { Command.ofStored "d1@ping" "ping" "service" "/" "1" "room1" "thing" "" 60 none [] with
    status := Types.readyForRead }

/-- An agent without a store that holds the command. -/
def waitingAgent : CommandHandle ⟨fun n s => n + s.length, fun n => n⟩ where
  storageType := "file"
  bbdd := "iot.COMMAND"
  text _ := ""
  asyncCommands := ((CommandCache.empty Types.maxSizeCache false).insertNew pingRoom1).1
  table := .empty
  sent := []

/-- The device of an entity, and its service. -/
def deviceOf (name entityName : String) : Device :=
  { Device.ofName name "service" with servicePath := "/", entityName := entityName }

def bothService : PTree := [(StoreTypes.service, "service"), (StoreTypes.servicePath, "/")]

/-- The device that the command is for answers it. -/
theorem handledForSender_room1 :
    HandledForSender waitingAgent (deviceOf "d1" "room1") bothService
      (.ul20 "d1@ping|done") "d1@ping" := by
  have hown := handledForSender_iff waitingAgent (deviceOf "d1" "room1") bothService
    (.ul20 "d1@ping|done") "d1@ping" "d1@ping|done" (by decide +kernel)
  exact hown.mpr ⟨by decide +kernel, fun hs => absurd hs (by decide)⟩

/-- Another device of the service answers it, and the command is taken as executed. -/
theorem not_handledForSender_room2 :
    ¬ HandledForSender waitingAgent (deviceOf "d2" "room2") bothService
      (.ul20 "d1@ping|done") "d1@ping" := by
  have hm : (ul20 "d1@ping|done").response = some ("d1@ping", "d1@ping|done") := by
    decide +kernel
  rw [handledForSender_iff_respond hm, CommandHandle.forall_attributed_iff]
  intro hown
  have hentity := (hown.cached 0 (by decide +kernel) (by decide +kernel)).2.2.2
  revert hentity
  decide +kernel

end DeviceMessage

end IotAgent
