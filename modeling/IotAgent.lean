import IotAgent.Lib.BoundedSeq
import IotAgent.Lib.HashIndex
import IotAgent.Lib.Heap
import IotAgent.Lib.Interleaving
import IotAgent.Mongo.Bson
import IotAgent.Mongo.Table
import IotAgent.Util.Types
import IotAgent.Util.Command
import IotAgent.Util.CommandCollection
import IotAgent.Util.CommandCache
import IotAgent.Util.Device
import IotAgent.Util.Cache
import IotAgent.Util.DeviceCollection
import IotAgent.Rest.RestHandle
import IotAgent.Ngsi.ContextElement
import IotAgent.Rest.CommandHandle
import IotAgent.Rest.Acceptance
import IotAgent.Rest.Delivery
import IotAgent.Rest.UpdateContext
import IotAgent.Rest.Response
import IotAgent.Mqtt.MqttService
import IotAgent.Plugins
import IotAgent.Rest.Tasks
import IotAgent.Rest.Copies
import IotAgent.Rest.Terminal
import IotAgent.Rest.Polling
import IotAgent.Lib.Fragments
import IotAgent.Modbus.Crc
import IotAgent.Modbus.Modbus
import IotAgent.Modbus.Receive
import IotAgent.Modbus.Echo
import IotAgent.Lib.Recency
import IotAgent.Modbus.ReadAnswer
import IotAgent.Util.CacheRecency
import IotAgent.UltraLight.TransformCommand
import IotAgent.Lib.Timers
import IotAgent.Util.TimedCommandCache
import IotAgent.Util.Collection
import IotAgent.Util.CommandExpiry
import IotAgent.Rest.SaveCommand
import IotAgent.Lib.Chain
import IotAgent.Ngsi.Attribute
import IotAgent.Ngsi.AddAttribute
import IotAgent.Ngsi.EnvInfo
import IotAgent.UltraLight.ULInsertObservation
import IotAgent.Lib.Attempts
import IotAgent.UltraLight.Groups
import IotAgent.UltraLight.Measures
import IotAgent.Lib.TableCrc
import IotAgent.Modbus.CrcReference
import IotAgent.Util.StrMap
import IotAgent.Util.CommandRoundTrip
import IotAgent.Ngsi.PublishedId
import IotAgent.Util.DeviceRoundTrip
import IotAgent.Rest.Filters
import IotAgent.Rest.FilterChain
import IotAgent.Services.DeviceCaches
import IotAgent.Services.CascadeDelete
import IotAgent.Lib.Batch
import IotAgent.Services.AdminService
import IotAgent.Services.BatchCreation
import IotAgent.Services.CommandNames
import IotAgent.Util.DevFile
import IotAgent.Rest.PublishedLookup
import IotAgent.Util.CollectionRetry
import IotAgent.Util.CreateIndex
import IotAgent.Util.OAuth
import IotAgent.Rest.OAuthFilter
import IotAgent.Ngsi.ContextRegistration
import IotAgent.Rest.FilterIsolation
import IotAgent.Lib.Paging
import IotAgent.Services.AdminManagerService
import IotAgent.Services.ManagerPaging
import IotAgent.Services.ManagerFanOut
import IotAgent.Lib.HashBuckets
import IotAgent.Util.CommandIndices
import IotAgent.Mongo.Positional
import IotAgent.Util.ProtocolCollection
import IotAgent.Mongo.Fields
import IotAgent.Util.ServiceMgmtCollection
import IotAgent.Services.RegistrationSync
import IotAgent.Services.ManagerRegistry
import IotAgent.Lib.OrderedMap
import IotAgent.Rest.Configurator
import IotAgent.Esp.Attribute
import IotAgent.Esp.Tag
import IotAgent.Esp.CountedLoop
import IotAgent.Esp.Command
import IotAgent.Lib.Chunked
import IotAgent.Esp.Chunks
import IotAgent.Ngsi.UpdateContext
import IotAgent.Ngsi.MappedMeasure
import IotAgent.Ngsi.RoundTrip
import IotAgent.Ngsi.Messages
import IotAgent.Ngsi.Decoders
import IotAgent.Rest.ElementAnswers
import IotAgent.Util.HttpClient
import IotAgent.Rest.Verdicts
import IotAgent.Services.AdminRequests
import IotAgent.Services.Forwarding
import IotAgent.Lib.Placeholders
import IotAgent.Rest.Templates
import IotAgent.UltraLight.Parameters
import IotAgent.Services.Unregister
import IotAgent.Services.PutRuns
import IotAgent.Rest.PushedCommands
import IotAgent.Rest.FailedPolls
import IotAgent.Services.DeletedPaths
import IotAgent.Rest.ExpiryReports
import IotAgent.Services.RegistrationRuns
import IotAgent.Lib.JsonLexer
import IotAgent.Lib.JsonValues
import IotAgent.Services.ErrorReports
import IotAgent.Modbus.ErrorDetection
import IotAgent.Modbus.ExceptionReply
import IotAgent.Modbus.WriteFrame
import IotAgent.Services.RegistrationTimer
import IotAgent.Lib.PercentCoding
import IotAgent.Util.QueryParams
import IotAgent.Services.DeleteProtocol
import IotAgent.Services.PutIdempotent
import IotAgent.Util.RiotISO8601
import IotAgent.UltraLight.SamplingTime
import IotAgent.Ngsi.StaticAttributes
import IotAgent.Rest.CommandElement
import IotAgent.Lib.Touching
import IotAgent.Ngsi.SharedDevice
import IotAgent.UltraLight.SharedTranslation
import IotAgent.Util.CacheClearing
import IotAgent.Util.Alarm
import IotAgent.Lib.Latest
import IotAgent.Rest.IotStatistic
import IotAgent.Rest.StatisticRuns
import IotAgent.Esp.BrokerRegistry
import IotAgent.Esp.MqttBuffer
import IotAgent.Util.ForbiddenCharacters
import IotAgent.Util.UrlComposition
import IotAgent.Util.TimeOrder
import IotAgent.Util.TimeRoundTrip
import IotAgent.Lib.FirstOccurrence
import IotAgent.Lib.JsonNesting
import IotAgent.Lib.JsonCuts
import IotAgent.Services.JoinCommands
import IotAgent.Util.CLocale
import IotAgent.Util.FiwareHeaders
import IotAgent.Util.HexCodec
import IotAgent.Esp.LongText
import IotAgent.Services.ResolveEndpoints
import IotAgent.Rest.CbCommunicator
import IotAgent.Rest.BrokerCallbacks
import IotAgent.Rest.TokenRenewal
import IotAgent.Util.HttpStrand
import IotAgent.Util.MongoConnection
import IotAgent.Lib.Regex
import IotAgent.Lib.RegexSyntax
import IotAgent.Rest.RestFunctions
import IotAgent.Lib.JsonTexts
import IotAgent.Rest.Routing
import IotAgent.Services.ServiceUrls
import IotAgent.Util.JsonParserWrite
import IotAgent.Util.JsonWriter
import IotAgent.Rest.AnswerTexts
import IotAgent.Services.ManagerRegistration
import IotAgent.Rest.ServiceLookup
import IotAgent.Modbus.OperationProcessor
import IotAgent.Lib.Replacing
import IotAgent.Esp.EndlessLoop
import IotAgent.ThinkingThings.SensorOpen
import IotAgent.ThinkingThings.Messages
import IotAgent.Lib.RawJson
import IotAgent.ThinkingThings.TTModules
