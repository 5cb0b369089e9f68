import NexusNet.Machine
import NexusNet.Collections
import NexusNet.Places
import NexusNet.SharedCell
import NexusNet.Newest
import NexusNet.Framing
import NexusNet.Cbor
import NexusNet.JsonText
import NexusNet.TomlTree
import NexusNet.SliceReads
import NexusNet.FilePrograms
import NexusNet.AsyncPrograms
import NexusNet.AuthKeys
import NexusNet.Config
import NexusNet.ConfigTree
import NexusNet.ConfigSchema
import NexusNet.Registry
import NexusNet.RegistryPlan
import NexusNet.RegistrySystem
import NexusNet.RegistryProviders
import NexusNet.RegistryJobs
import NexusNet.RegistryActor
import NexusNet.RegistryRelay
import NexusNet.RegistryGate
import NexusNet.RegistryGrace
import NexusNet.RegistryRetry
import NexusNet.RegistryStale
import NexusNet.RegistryIndex
import NexusNet.DhtCache
import NexusNet.DhtSteps
import NexusNet.DhtInvalidation
import NexusNet.DhtColdRead
import NexusNet.AuthRecords
import NexusNet.AuthGate
import NexusNet.DhtValues
import NexusNet.DhtSingleFlight
import NexusNet.DhtEvict
import NexusNet.DhtVersions
import NexusNet.AuthSound
import NexusNet.AuthRollback
import NexusNet.AuthSelect
import NexusNet.AuthDecision
import NexusNet.AuthDomains
import NexusNet.AuthSeparate
import NexusNet.AuthFresh
import NexusNet.AuthSign
import NexusNet.Network
import NexusNet.ConfigFile
import NexusNet.ConfigSaved
import NexusNet.PqEncoding
import NexusNet.Pq
import NexusNet.PqKeyFile
import NexusNet.Identity
import NexusNet.PqDelivery
import NexusNet.PqMessages
import NexusNet.RegistryConverge
import NexusNet.RegistryTypes
import NexusNet.RegistryPublish
import NexusNet.RegistryEncoding
import NexusNet.Command
import NexusNet.CommandResend
import NexusNet.Relay
import NexusNet.RelayTopUp
import NexusNet.Sidecar
import NexusNet.CommandBudget
import NexusNet.Control
import NexusNet.Peers
import NexusNet.ControlPlane
import NexusNet.ControlBudget
import NexusNet.Actor
import NexusNet.ActorPolicy
import NexusNet.ActorRuns
import NexusNet.ActorDowngrade
import NexusNet.ActorQueries
import NexusNet.ActorInbound
import NexusNet.ActorOutbound
import NexusNet.ActorReplies
import NexusNet.ActorResponses
import NexusNet.Exchange
import NexusNet.Bootstrap
import NexusNet.ConfigLife
import NexusNet.Inbound
import NexusNet.InboundAnswers
import NexusNet.Backend
import NexusNet.BackendReplies
import NexusNet.Dispatcher
import NexusNet.DispatcherReplies
import NexusNet.Readiness
