import NexusNet.AuthKeys
import NexusNet.Collections
/-!
# Config — the node configuration and its validation

The fields of `NodeConfig` that the modelled code reads, and `validate` with its checks in the source's order.
-/
namespace NexusNet

def dhtMaxRecordBytes : Nat := 1048576

def maxMessageBytesLimit : Nat := 67108864

structure LocalServiceEntry where
  name : String
  port : Nat
  requireAuth : Bool
deriving DecidableEq

structure PingService where
  enabled : Bool
  intervalSecs : Nat
  withTimeout : Nat

structure KademliaService where
  enabled : Bool
  recordTtlSeconds : Nat
  queryTimeoutSeconds : Nat

structure DispatcherConfig where
  enabled : Bool
  queryTimeoutSecs : Nat
  typesSyncSecs : Nat
  maxInflightDht : Nat
  maxRequestBytes : Nat
  maxResponseBytes : Nat
  localServices : List LocalServiceEntry

structure RegistryService where
  maxInflightDht : Nat

structure RelayService where
  retryIntervalSecs : Nat

structure CompatConfig where
  maxRecordBytes : Nat

structure CryptoConfig where
  pqTransportEnabled : Bool
  pqIdentityEnabled : Bool
  pqRequired : Bool

/-- `networks` gives each network's authority public key, in base64. -/
structure AuthConfig where
  network : String
  networks : Dict String String

/-- `NodeConfig`, the sections under `services` beside the others. -/
structure NodeConfig where
  port : Nat
  ping : PingService
  kademlia : KademliaService
  dispatcher : DispatcherConfig
  registry : RegistryService
  relay : RelayService
  crypto : CryptoConfig
  auth : AuthConfig
  compat : CompatConfig

/-- The loop of `validate` over `local_services`; `names` are the names seen so far. -/
def validateLocalServices : List String → List LocalServiceEntry → Except String Unit
  | _, [] => .ok ()
  | names, service :: rest =>
    if names.contains service.name then .error ("local_services 名称重复: " ++ service.name)
    else if service.port = 0 then .error ("local_services." ++ service.name ++ " 端口不能为 0")
    else validateLocalServices (names ++ [service.name]) rest

def NodeConfig.validate (c : NodeConfig) : Except String Unit :=
  if c.port > 65535 then
    .error ("network.port 超出范围: " ++ toString c.port ++ " (最大 65535)")
  else if c.ping.enabled ∧ c.ping.intervalSecs = 0 then .error "services.ping.interval_secs 必须大于 0"
  else if c.ping.enabled ∧ c.ping.withTimeout = 0 then .error "services.ping.with_timeout 必须大于 0"
  else if c.kademlia.enabled ∧ c.kademlia.recordTtlSeconds = 0 then
    .error "services.kademlia.record_ttl_seconds 必须大于 0"
  else if c.kademlia.enabled ∧ c.kademlia.queryTimeoutSeconds = 0 then
    .error "services.kademlia.query_timeout_seconds 必须大于 0"
  else if c.dispatcher.enabled ∧ c.dispatcher.queryTimeoutSecs = 0 then
    .error "services.dispatcher.query_timeout_secs 必须大于 0"
  else if c.dispatcher.enabled ∧ c.dispatcher.typesSyncSecs = 0 then
    .error "services.dispatcher.types_sync_secs 必须大于 0"
  else if ¬ (1 ≤ c.registry.maxInflightDht ∧ c.registry.maxInflightDht ≤ 16) then
    .error "services.registry.max_inflight_dht 必须在 1..=16"
  else if c.compat.maxRecordBytes = 0 ∨ c.compat.maxRecordBytes > dhtMaxRecordBytes then
    .error ("compat.max_record_bytes 必须在 1..=" ++ toString dhtMaxRecordBytes)
  else if ¬ (1 ≤ c.dispatcher.maxInflightDht ∧ c.dispatcher.maxInflightDht ≤ 16) then
    .error "services.dispatcher.max_inflight_dht 必须在 1..=16"
  else if c.dispatcher.maxRequestBytes = 0 ∨ c.dispatcher.maxRequestBytes > maxMessageBytesLimit then
    .error ("services.dispatcher.max_request_bytes 必须在 1..=" ++ toString maxMessageBytesLimit)
  else if c.dispatcher.maxResponseBytes = 0 ∨ c.dispatcher.maxResponseBytes > maxMessageBytesLimit then
    .error ("services.dispatcher.max_response_bytes 必须在 1..=" ++ toString maxMessageBytesLimit)
  else if c.relay.retryIntervalSecs = 0 then .error "services.relay.retry_interval_secs 必须大于 0"
  else match validateLocalServices [] c.dispatcher.localServices with
  | .error e => .error e
  | .ok () =>
    if c.crypto.pqRequired ∧ ¬ c.crypto.pqTransportEnabled then
      .error "crypto.pq_required = true 需要 crypto.pq_transport_enabled = true"
    else if c.crypto.pqIdentityEnabled ∧ ¬ c.crypto.pqTransportEnabled then
      .error "crypto.pq_identity_enabled = true 需要 crypto.pq_transport_enabled = true"
    else .ok ()

/-- `pq_enabled`: the PQ protocols are registered. -/
def NodeConfig.pqEnabled (c : NodeConfig) : Bool := c.crypto.pqTransportEnabled || c.crypto.pqIdentityEnabled

def NodeConfig.dispatcherTypesSyncInterval (c : NodeConfig) : Nat := max c.dispatcher.typesSyncSecs 1

def NodeConfig.serviceRequiresAuth (c : NodeConfig) (name : String) : Bool :=
  c.dispatcher.localServices.any (fun s => s.name == name && s.requireAuth)

/-- The registry's own bound: `registry_max_inflight_dht().clamp(1, 16)`. -/
def NodeConfig.registryMaxInflight (c : NodeConfig) : Nat := min (max c.registry.maxInflightDht 1) 16

/-- `NodeConfig::default()` with the given local services. -/
def NodeConfig.withServices (services : List LocalServiceEntry) : NodeConfig where
  port := 5000
  ping := ⟨true, 15, 10⟩
  kademlia := ⟨true, 3600, 60⟩
  dispatcher := ⟨true, 60, 300, 4, 16777216, 16777216, services⟩
  registry := ⟨4⟩
  relay := ⟨60⟩
  crypto := ⟨false, false, false⟩
  auth := ⟨"none", ∅⟩
  compat := ⟨14336⟩

end NexusNet
