import GemmaWorker.Library.Transition
import GemmaWorker.Middleware.RoutedPath
import GemmaWorker.Python.JsonReader
import GemmaWorker.Python.JsonRoundTrip
import GemmaWorker.EngineArgs.FieldTypes
import GemmaWorker.EngineArgs.Convert
import GemmaWorker.EngineArgs.EnvRoundTrip
import GemmaWorker.Heartbeat.Config
import GemmaWorker.Heartbeat.LoadTracker
import GemmaWorker.Heartbeat.Service
import GemmaWorker.Heartbeat.Lifecycle
import GemmaWorker.Heartbeat.Protocol
import GemmaWorker.Heartbeat.Signal
import GemmaWorker.Heartbeat.LostSignal
import GemmaWorker.Heartbeat.Deregister
import GemmaWorker.Heartbeat.IdlePause
import GemmaWorker.Heartbeat.Duplicate
import GemmaWorker.Server.Requests
import GemmaWorker.Server.LoadCount
import GemmaWorker.Server.IdleWindow
import GemmaWorker.Engine.LazyInit
import GemmaWorker.Engine.BatchSize
import GemmaWorker.Engine.ChatStream
import GemmaWorker.Server.EventStream
import GemmaWorker.Server.StreamPayloads
import GemmaWorker.Engine.Generate
import GemmaWorker.Engine.StreamAgreement
import GemmaWorker.Server.StreamDecision
import GemmaWorker.Heartbeat.Shutdown
import GemmaWorker.Server.CudaFatal
import GemmaWorker.Heartbeat.RegistryEntry
import GemmaWorker.EngineArgs.Sources
import GemmaWorker.Python.JsonErrors
import GemmaWorker.EngineArgs.ConvertErrors
import GemmaWorker.EngineArgs.Layers
import GemmaWorker.EngineArgs.SpecialCases
import GemmaWorker.EngineArgs.KnownArguments
import GemmaWorker.EngineArgs.Precedence
import GemmaWorker.EngineArgs.MalformedVariable
import GemmaWorker.Boot.ModelCache
import GemmaWorker.Boot.CrashConsistency
import GemmaWorker.Boot.ExclusiveMarker
import GemmaWorker.Boot.TornMarker
import GemmaWorker.Middleware.PodBinding
import GemmaWorker.Middleware.Totality
import GemmaWorker.Engine.BatchSchedule
import GemmaWorker.Engine.UsageCount
import GemmaWorker.EngineArgs.HfOverrides
import GemmaWorker.EngineArgs.LimitNotations
import GemmaWorker.EngineArgs.SpeculativeSource
import GemmaWorker.EngineArgs.TypeGrammar
import GemmaWorker.EngineArgs.ConvertSound
import GemmaWorker.Boot.Download
import GemmaWorker.Heartbeat.StatusOrder
import GemmaWorker.EngineArgs.ZeroSettings
import GemmaWorker.Engine.LoraAdapters
import GemmaWorker.Python.JsonBytes
import GemmaWorker.Server.HandleOpenai
import GemmaWorker.Heartbeat.Fleet
import GemmaWorker.Server.Worker
import GemmaWorker.Engine.InitFailure
import GemmaWorker.Boot.EngineModel
import GemmaWorker.Server.Isolation
import GemmaWorker.Server.ReadBack
import GemmaWorker.Server.Concurrent
import GemmaWorker.Middleware.Replay
import GemmaWorker.Heartbeat.LeaseSpan
import GemmaWorker.Engine.OpenaiGenerate
import GemmaWorker.Server.Serverless
import GemmaWorker.EngineArgs.Building
import GemmaWorker.Server.Delivery
import GemmaWorker.Engine.NativeGenerate
import GemmaWorker.Server.BrokenOff
