import IotAgent.Mongo.Bson

/-!
Constants and small types shared by the whole agent.

* `Types`: statuses of commands, the texts sent for them, response codes and messages;
* `StoreTypes`: names of the fields in the store and in the configuration;
* `IotaException`: the exception with a reason, details and a response code;
* `PTree`: a property tree of texts, as the service and the body of a command use it;
* `StrMap`: an ordered map from texts to texts;
* `Hashing`: the hash functions of the containers, a parameter throughout.
-/

namespace IotAgent

/-! ### Constants -/

namespace Types

def fiwareServicepathDefault : String := "/"
def maxSizeCache : ℕ := 1000

def status : String := "status"
def statusType : String := "string"
def statusOp : String := "APPEND"
def info : String := "info"
def infoType : String := "string"
def infoOp : String := "APPEND"
def error : String := "error"
def commandType : String := "command"
def pending : String := "pending"
def raw : String := "@@RAW@@"

def readyForRead : ℤ := 0
def readyForReadMessage : String := "pending"
def expiredReadMessage : String := "expired read"
def delivered : ℤ := 2
def deliveredMessage : String := "delivered"
def expiredDeliveryMessage : String := "delivered but no respond"
def executedMessage : String := "OK"

def responseCodeNone : ℤ := 0
def responseCodeOk : ℤ := 200
def responseCodeCreated : ℤ := 201
def responseCodeNoContent : ℤ := 204
def responseCodeBadRequest : ℤ := 400
def responseCodeContextElementNotFound : ℤ := 404
def responseCodeDeviceNoActive : ℤ := 409
def responseCodeReceiverInternalError : ℤ := 500
def responseCodeNoRegisteredDevice : ℤ := 404
def responseCodeNoService : ℤ := 404
def responseCodeDataNotFound : ℤ := 404
def responseCodeEntityAlreadyExists : ℤ := 409
def responseCodeDuplicateKey : ℤ := 409
def responseCodeMissingParameter : ℤ := 471
def responseCodeInvalidParameter : ℤ := 472
def responseCodeNotFound : ℤ := 404
def responseCodeNotAcceptable : ℤ := 406
def responseCodeUnsupportedMediaType : ℤ := 415
def responseCodeFiwareServiceError : ℤ := 1000
def responseCodeFiwareServicePathError : ℤ := 1001
def responseCodeForbiddenCharacters : ℤ := 1002

def responseMessageBadRequest : String := "The request is not well formed"
def responseMessageNotAcceptable : String :=
  "The Accept header in the request is not supported"
def responseMessageUnsupportedMediaType : String :=
  "Unsupported Media Type (only support application/json)"
def reasonMalformedHeader : String := "Malformed header"
def detailsHeaderFiwareService : String :=
  "Fiware-Service not accepted - a service string must not be longer than 50 " ++
    "characters and may only contain underscores and alphanumeric characters " ++
    "and lowercase"
def detailsHeaderFiwareServicePath : String :=
  "Fiware-ServicePath not accepted - a service path string must only contain " ++
    "underscores and alphanumeric characters and starts with character /"
def detailsForbiddenCharacters : String := "Forbidden characters"

def responseMessageInvalidParameter : String :=
  "A parameter of the request is invalid/not allowed"
def responseMessageMissingParameter : String := "A parameter is missing in the request"
def responseMessageNoService : String := "The service does not exist"
def responseMessageMissingIotagents : String := "there aren't iotagents for this operation"
def responseMessageBadProtocol : String := "There are conflicts, protocol is not correct"
def responseMessageEntityCommandsAlreadyExists : String :=
  "There are conflicts, entity with this command, already exists"
def responseMessageNoRegisteredDevice : String :=
  "The given device is not registered in IotAgent"
def responseMessageNoCommand : String := "The attribute must be of type command"
def responseMessageNoDeviceNoCommand : String :=
  "the device does not have implemented this command"
def responseMessageCommandBad : String := "this is not a valid command"
def responseMessageDeviceNoActive : String := "The device is not active"
def responseMessageNoDevice : String := "The device does not exist"
def responseMessageDuplicatedData : String := "There are conflicts, object already exists"
def responseMessageDatabaseError : String := "Database error"
def responseMessageInternalError : String :=
  "Conctact with your administrator, there was an internal error"

end Types

namespace StoreTypes

def deviceId : String := "device_id"
def endpoint : String := "endpoint"
def entityType : String := "entity_type"
def entityName : String := "entity_name"
def service : String := "service"
def servicePath : String := "service_path"
def attributes : String := "attributes"
def staticAttributes : String := "static_attributes"
def status : String := "status"
def inactive : String := "inactive"
def commands : String := "commands"
def command : String := "value"
def name : String := "name"
def timezone : String := "timezone"
def model : String := "model"
def coords : String := "coords"
def activate : String := "activate"
def registrationId : String := "registration_id"
def durationCb : String := "duration"
def timestampData : String := "timestamp_data"
def attributeId : String := "object_id"
def attributeValue : String := "value"
def type : String := "type"

def commandId : String := "id"
def timeout : String := "timeout"
def device : String := "node"
def uriResp : String := "uri"
def sequence : String := "sequence"
def expired : String := "expired"
def body : String := "body"

def serviceId : String := "service"
def apikey : String := "apikey"
def cbroker : String := "cbroker"
def devices : String := "devices"
def services : String := "services"
def resource : String := "resource"

def protocol : String := "protocol"
def mongodb : String := "mongodb"
def default : String := "default"

end StoreTypes

/-- The exception of the agent. -/
structure IotaException where
  reason : String
  what : String
  status : ℤ
  deriving DecidableEq

/-! ### Texts under names -/

/-- A property tree whose children carry texts. The paths used here have one part. -/
abbrev PTree := List (String × String)

namespace PTree

/-- The text under a path, with a default. -/
def get (pt : PTree) (path default : String) : String :=
  (pt.lookup path).getD default

/-- The text under a path, replaced or appended. -/
def put : PTree → String → String → PTree
  | [], path, v => [(path, v)]
  | (p, w) :: pt, path, v => if p = path then (p, v) :: pt else (p, w) :: put pt path v

end PTree

/-- An ordered map from texts to texts. -/
abbrev StrMap := List (String × String)

namespace StrMap

/-- Insertion at the place of the key; a key that is there already keeps its value. -/
def insert : StrMap → String → String → StrMap
  | [], k, v => [(k, v)]
  | (l, w) :: m, k, v =>
      if k = l then (l, w) :: m
      else if k < l then (k, v) :: (l, w) :: m
      else (l, w) :: insert m k v

end StrMap

/-! ### Hashing -/

/-- How texts are mixed into a hash value, and the bucket of a hash value. -/
structure Hashing where
  hashCombine : ℕ → String → ℕ
  bucket : ℕ → ℕ

end IotAgent
