import IotAgent.Rest.Response

/-!
The plugin for UltraLight 2.0.

The body of a message is a response to a command when the text before its first bar has an
at sign, as in `dev1@ping|pingOK`. That text is the identifier of the command.

* `isCommandResp`: the identifier and the response in a body;
* `commandResponse`: the handler of `service`, for a body that is a response.
-/

namespace IotAgent

open HashIndex

namespace Ul20Service

/-- `get_id_command`: the first field, if it can be the identifier of a command. -/
def getIdCommand (strCommand : String) : String :=
  let idComando := strCommand.toList.takeWhile (· ≠ '|')
  if '@' ∈ idComando then String.ofList idComando else ""

/-- `isCommandResp`: the identifier of the command and the response, which is the whole body;
`none` where the source returns `-1`. -/
def isCommandResp (strCommandResp : String) : Option (String × String) :=
  let idCommand := getIdCommand strCommandResp
  if idCommand ≠ "" then some (idCommand, strCommandResp) else none

variable {h : Hashing} (s : CommandHandle h) (o : Order Ptr String)

/-- `service`, from the look-up of the device on, for a body that is a response. Any other
body carries measures. -/
def commandResponse (content : String) (dev : Device) (service : PTree) :
    Option (CommandHandle h) :=
  (isCommandResp content).map fun r => s.respond o r.1 r.2 dev service

example : isCommandResp "dev1@ping|ping OK" = some ("dev1@ping", "dev1@ping|ping OK") := by
  decide +kernel

end Ul20Service

end IotAgent
