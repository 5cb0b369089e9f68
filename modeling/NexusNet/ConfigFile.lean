import NexusNet.Config
import NexusNet.ConfigSchema
import NexusNet.Network
/-!
# ConfigFile — the configuration file

The whole `NodeConfig` with its sections and defaults, as it is read from and written to a document, and the completion of a
file with the fields it lacks.

The completion is the left-biased union of the file with the configuration read from it; the completed file reads as the same
configuration, and is complete.
-/
namespace NexusNet
namespace ConfigFile

open TomlTree

/-! ## The sections -/

structure NodeInfo where
  name : String
  description : String
  allowBootstrap : Bool
  acceptBootstrapProviders : Bool

inductive IpAddr where
  | v4 (addr : UInt32)
  | v6 (addr : BitVec 128)

structure NetworkConfig where
  ipv4Enabled : Bool
  ipv4Address : Option IpAddr
  ipv6Enabled : Bool
  ipv6Address : Option IpAddr
  port : BitVec 32
  hasPublicAddress : Bool

structure PingService where
  enabled : Bool
  intervalSecs : BitVec 32
  withTimeout : BitVec 32
  maxFailures : BitVec 32

structure KademliaService where
  enabled : Bool
  recordTtlSeconds : BitVec 32
  replicationFactor : BitVec 32
  queryTimeoutSeconds : BitVec 32
  bootstrapNodes : List Multiaddr

structure LocalServiceEntry where
  name : String
  port : BitVec 16
  requireAuth : Bool

structure DispatcherConfig where
  enabled : Bool
  queryTimeoutSecs : BitVec 32
  typesSyncSecs : BitVec 32
  maxInflightDht : BitVec 32
  maxRequestBytes : BitVec 64
  maxResponseBytes : BitVec 64
  localServices : List LocalServiceEntry

structure RegistryService where
  maxInflightDht : BitVec 32

structure RelayService where
  retryIntervalSecs : BitVec 32
  maxFailures : BitVec 32

structure ServicesConfig where
  ping : PingService
  kademlia : KademliaService
  dispatcher : DispatcherConfig
  registry : RegistryService
  relay : RelayService

structure CryptoConfig where
  pqTransportEnabled : Bool
  pqIdentityEnabled : Bool
  pqRequired : Bool

structure AuthNetworkConfig where
  authority : String

structure AuthConfig where
  network : String
  networks : Dict String AuthNetworkConfig

structure CompatConfig where
  maxRecordBytes : BitVec 64

structure NodeConfig where
  node : NodeInfo
  network : NetworkConfig
  services : ServicesConfig
  crypto : CryptoConfig
  auth : AuthConfig
  compat : CompatConfig

/-! ## Defaults -/

def hours (h : BitVec 32) : BitVec 32 := h * 3600

def defaultPort : BitVec 32 := 5000

def defaultInterval : BitVec 32 := 15

def defaultTimeout : BitVec 32 := 10

def defaultMaxFailures : BitVec 32 := 2

def defaultRecordTtlSeconds : BitVec 32 := hours 1

def defaultReplicationFactor : BitVec 32 := 20

def defaultQueryTimeoutSeconds : BitVec 32 := 60

def defaultRelayRetryInterval : BitVec 32 := 60

def defaultRelayMaxFailures : BitVec 32 := 3

def defaultTypesSyncSeconds : BitVec 32 := 300

def defaultMaxInflightDht : BitVec 32 := 4

def defaultMaxMessageBytes : BitVec 64 := 16 <<< 20

/-- `OLD_COMPAT_RECORD_BYTES`. -/
def defaultCompatMaxRecordBytes : BitVec 64 := 14336

def defaultName : String := "未设置的p2p节点"

def defaultDescription : String := "无详细描述"

def defaultAuthNetwork : String := "none"

def NodeInfo.default : NodeInfo := ⟨defaultName, defaultDescription, true, false⟩

def NetworkConfig.default : NetworkConfig := ⟨false, none, false, none, defaultPort, false⟩

def PingService.default : PingService := ⟨true, defaultInterval, defaultTimeout, defaultMaxFailures⟩

def KademliaService.default : KademliaService :=
  ⟨true, defaultRecordTtlSeconds, defaultReplicationFactor, defaultQueryTimeoutSeconds, []⟩

def DispatcherConfig.default : DispatcherConfig :=
  ⟨true, defaultQueryTimeoutSeconds, defaultTypesSyncSeconds, defaultMaxInflightDht, defaultMaxMessageBytes,
    defaultMaxMessageBytes, []⟩

def RegistryService.default : RegistryService := ⟨defaultMaxInflightDht⟩

def RelayService.default : RelayService := ⟨defaultRelayRetryInterval, defaultRelayMaxFailures⟩

def ServicesConfig.default : ServicesConfig := ⟨.default, .default, .default, .default, .default⟩

def CryptoConfig.default : CryptoConfig := ⟨false, false, false⟩

def AuthConfig.default : AuthConfig := ⟨defaultAuthNetwork, ∅⟩

def CompatConfig.default : CompatConfig := ⟨defaultCompatMaxRecordBytes⟩

def NodeConfig.default : NodeConfig := ⟨.default, .default, .default, .default, .default, .default⟩

/-! ## Validation -/

/-- What `validate` reads. -/
def NodeConfig.checked (c : NodeConfig) : NexusNet.NodeConfig where
  port := c.network.port.toNat
  ping := ⟨c.services.ping.enabled, c.services.ping.intervalSecs.toNat, c.services.ping.withTimeout.toNat⟩
  kademlia := ⟨c.services.kademlia.enabled, c.services.kademlia.recordTtlSeconds.toNat,
    c.services.kademlia.queryTimeoutSeconds.toNat⟩
  dispatcher := ⟨c.services.dispatcher.enabled, c.services.dispatcher.queryTimeoutSecs.toNat,
    c.services.dispatcher.typesSyncSecs.toNat, c.services.dispatcher.maxInflightDht.toNat,
    c.services.dispatcher.maxRequestBytes.toNat, c.services.dispatcher.maxResponseBytes.toNat,
    c.services.dispatcher.localServices.map (fun s => ⟨s.name, s.port.toNat, s.requireAuth⟩)⟩
  registry := ⟨c.services.registry.maxInflightDht.toNat⟩
  relay := ⟨c.services.relay.retryIntervalSecs.toNat⟩
  crypto := ⟨c.crypto.pqTransportEnabled, c.crypto.pqIdentityEnabled, c.crypto.pqRequired⟩
  auth := ⟨c.auth.network, c.auth.networks.mapValues AuthNetworkConfig.authority⟩
  compat := ⟨c.compat.maxRecordBytes.toNat⟩

def NodeConfig.validate (c : NodeConfig) : Except String Unit := c.checked.validate

/-- **The defaults are valid**, and are those the other modules start from. -/
theorem NodeConfig.checked_default : NodeConfig.default.checked = .withServices [] := rfl

theorem NodeConfig.validate_default : NodeConfig.default.validate = .ok () := by
  rw [NodeConfig.validate, NodeConfig.checked_default]
  decide

/-! ## Fields -/

/-- The text forms of addresses. -/
structure TextForms where
  parseIp : String → Option IpAddr
  displayIp : IpAddr → String
  parseMultiaddr : String → Option Multiaddr
  displayMultiaddr : Multiaddr → String

def flag (name : String) (b : Bool) : Fields Bool :=
  .field name boolean.schema (some b) (fun _ => Scalar.restores rfl rfl)

def line (name text : String) : Fields String :=
  .field name string.schema (some text) (fun _ => Scalar.restores rfl rfl)

def number {w : Nat} (name : String) (n : BitVec w) (h : n.toNat < 2 ^ 63) : Fields (BitVec w) :=
  .field name (unsigned w).schema (some n) (fun hx => by
    cases hx
    exact unsigned_restores h)

/-- A field without a default. -/
def required {α : Type} (name : String) (S : Schema α) : Fields α := .field name S none (fun hx => nomatch hx)

def addressField (forms : TextForms) (name : String) : Fields (Option IpAddr) :=
  .field name (text forms.parseIp forms.displayIp).schema.optional (some none) (fun hx => by
    cases hx
    exact Schema.optional_restores_none _)

/-- A section, with its default. -/
def part {σ : Type} (name : String) (F : Fields σ) (d : σ) (h : F.read [] = some d) : Fields σ :=
  .field name F.table (some d) (fun hx => by
    cases hx
    exact F.table_restores h)

def nodeInfo : Fields NodeInfo :=
  line "name" defaultName
    |>.and (line "description" defaultDescription) rfl
    |>.and (flag "allow_bootstrap" true) rfl
    |>.and (flag "accept_bootstrap_providers" false) rfl
    |>.pack (fun (((name, description), allow), accept) => ⟨name, description, allow, accept⟩)
      (fun c => (((c.name, c.description), c.allowBootstrap), c.acceptBootstrapProviders)) (fun _ => rfl)

/-- `has_public_address` is set at run time only. -/
def networkConfig (forms : TextForms) : Fields NetworkConfig :=
  flag "ipv4_enabled" false
    |>.and (addressField forms "ipv4_address") rfl
    |>.and (flag "ipv6_enabled" false) rfl
    |>.and (addressField forms "ipv6_address") rfl
    |>.and (number "port" defaultPort (by decide)) rfl
    |>.and (.skipped false) rfl
    |>.pack (fun (((((v4, addr4), v6), addr6), port), isPublic) => ⟨v4, addr4, v6, addr6, port, isPublic⟩)
      (fun c => (((((c.ipv4Enabled, c.ipv4Address), c.ipv6Enabled), c.ipv6Address), c.port), c.hasPublicAddress))
      (fun _ => rfl)

def pingService : Fields PingService :=
  flag "enabled" true
    |>.and (number "interval_secs" defaultInterval (by decide)) rfl
    |>.and (number "with_timeout" defaultTimeout (by decide)) rfl
    |>.and (number "max_failures" defaultMaxFailures (by decide)) rfl
    |>.pack (fun (((enabled, interval), timeout), failures) => ⟨enabled, interval, timeout, failures⟩)
      (fun c => (((c.enabled, c.intervalSecs), c.withTimeout), c.maxFailures)) (fun _ => rfl)

def kademliaService (forms : TextForms) : Fields KademliaService :=
  flag "enabled" true
    |>.and (number "record_ttl_seconds" defaultRecordTtlSeconds (by decide)) rfl
    |>.and (number "replication_factor" defaultReplicationFactor (by decide)) rfl
    |>.and (number "query_timeout_seconds" defaultQueryTimeoutSeconds (by decide)) rfl
    |>.and (.field "bootstrap_nodes" (text forms.parseMultiaddr forms.displayMultiaddr).vec.schema (some []) (fun hx => by
      cases hx
      exact Scalar.vec_restores_nil _)) rfl
    |>.pack (fun ((((enabled, ttl), factor), timeout), nodes) => ⟨enabled, ttl, factor, timeout, nodes⟩)
      (fun c => ((((c.enabled, c.recordTtlSeconds), c.replicationFactor), c.queryTimeoutSeconds), c.bootstrapNodes))
      (fun _ => rfl)

def localServiceEntry : Fields LocalServiceEntry :=
  required "name" string.schema
    |>.and (required "port" (unsigned 16).schema) rfl
    |>.and (flag "require_auth" false) rfl
    |>.pack (fun ((name, port), auth) => ⟨name, port, auth⟩) (fun c => ((c.name, c.port), c.requireAuth)) (fun _ => rfl)

def dispatcherConfig : Fields DispatcherConfig :=
  flag "enabled" true
    |>.and (number "query_timeout_secs" defaultQueryTimeoutSeconds (by decide)) rfl
    |>.and (number "types_sync_secs" defaultTypesSyncSeconds (by decide)) rfl
    |>.and (number "max_inflight_dht" defaultMaxInflightDht (by decide)) rfl
    |>.and (number "max_request_bytes" defaultMaxMessageBytes (by decide)) rfl
    |>.and (number "max_response_bytes" defaultMaxMessageBytes (by decide)) rfl
    |>.and (.field "local_services" localServiceEntry.tables (some []) (fun hx => by
      cases hx
      exact Fields.tables_restores_nil _)) rfl
    |>.pack (fun ((((((enabled, timeout), sync), inflight), request), response), services) =>
        ⟨enabled, timeout, sync, inflight, request, response, services⟩)
      (fun c => ((((((c.enabled, c.queryTimeoutSecs), c.typesSyncSecs), c.maxInflightDht), c.maxRequestBytes),
        c.maxResponseBytes), c.localServices)) (fun _ => rfl)

def registryService : Fields RegistryService :=
  number "max_inflight_dht" defaultMaxInflightDht (by decide) |>.pack (⟨·⟩) (·.maxInflightDht) (fun _ => rfl)

def relayService : Fields RelayService :=
  number "retry_interval_secs" defaultRelayRetryInterval (by decide)
    |>.and (number "max_failures" defaultRelayMaxFailures (by decide)) rfl
    |>.pack (fun (interval, failures) => ⟨interval, failures⟩) (fun c => (c.retryIntervalSecs, c.maxFailures)) (fun _ => rfl)

def servicesConfig (forms : TextForms) : Fields ServicesConfig :=
  part "ping" pingService .default rfl
    |>.and (part "kademlia" (kademliaService forms) .default rfl) rfl
    |>.and (part "dispatcher" dispatcherConfig .default rfl) rfl
    |>.and (part "registry" registryService .default rfl) rfl
    |>.and (part "relay" relayService .default rfl) rfl
    |>.pack (fun ((((ping, kademlia), dispatcher), registry), relay) => ⟨ping, kademlia, dispatcher, registry, relay⟩)
      (fun c => ((((c.ping, c.kademlia), c.dispatcher), c.registry), c.relay)) (fun _ => rfl)

def cryptoConfig : Fields CryptoConfig :=
  flag "pq_transport_enabled" false
    |>.and (flag "pq_identity_enabled" false) rfl
    |>.and (flag "pq_required" false) rfl
    |>.pack (fun ((transport, identity), required) => ⟨transport, identity, required⟩)
      (fun c => ((c.pqTransportEnabled, c.pqIdentityEnabled), c.pqRequired)) (fun _ => rfl)

def authNetworkConfig : Fields AuthNetworkConfig :=
  line "authority" "" |>.pack (⟨·⟩) (·.authority) (fun _ => rfl)

def authConfig (order : Iteration String) : Fields AuthConfig :=
  line "network" defaultAuthNetwork
    |>.and (.field "networks" (authNetworkConfig.mapOf order) (some ∅) (fun hx => by
      cases hx
      exact Fields.mapOf_restores_empty _ order)) rfl
    |>.pack (fun (network, networks) => ⟨network, networks⟩) (fun c => (c.network, c.networks)) (fun _ => rfl)

def compatConfig : Fields CompatConfig :=
  number "max_record_bytes" defaultCompatMaxRecordBytes (by decide) |>.pack (⟨·⟩) (·.maxRecordBytes) (fun _ => rfl)

/-- The whole file; `order` is the order the map of networks is iterated in. -/
def nodeConfig (forms : TextForms) (order : Iteration String) : Fields NodeConfig :=
  part "node" nodeInfo .default rfl
    |>.and (part "network" (networkConfig forms) .default rfl) rfl
    |>.and (part "services" (servicesConfig forms) .default rfl) rfl
    |>.and (part "crypto" cryptoConfig .default rfl) rfl
    |>.and (part "auth" (authConfig order) .default rfl) rfl
    |>.and (part "compat" compatConfig .default rfl) rfl
    |>.pack (fun (((((node, network), services), crypto), auth), compat) => ⟨node, network, services, crypto, auth, compat⟩)
      (fun c => (((((c.node, c.network), c.services), c.crypto), c.auth), c.compat)) (fun _ => rfl)

/-! ## Documents and texts -/

section Texts

variable {T D : Type}

/-- `toml` and `toml_edit` on texts: `parse` and `print` are inverse, and what `to_string_pretty` prints parses as the tables
that were written. -/
structure TomlText (T D : Type) where
  parse : T → Option (Document D)
  print : Document D → T
  toStringPretty : Entries → T
  print_parse : ∀ {content doc}, parse content = some doc → print doc = content
  parse_print : ∀ doc, parse (print doc) = some doc
  parse_pretty : ∀ {entries}, Keyed (.table () entries) →
    ∃ doc, parse (toStringPretty entries) = some doc ∧ doc.root.bare = .table () entries

variable (forms : TextForms) (order : Iteration String)

/-- What a document holds for `NodeConfig`. -/
def readConfig (doc : Document D) : Option NodeConfig := (nodeConfig forms order).table.read doc.root.data

/-- **A document completed with the configuration it was read as reads as the same configuration.** -/
theorem readConfig_complete {dst src : Document D} {config : NodeConfig} {entries : Entries}
    (hread : readConfig forms order dst = some config) (hwrite : (nodeConfig forms order).write config = some entries)
    (hsrc : src.root.bare = .table () entries) : readConfig forms order (complete dst src) = some config := by
  have hitem : (nodeConfig forms order).table.write config = .item (.table () entries) :=
    Written.ofOption_eq_item.2 (by rw [hwrite]; rfl)
  rw [readConfig, ← Item.data_bare] at hread
  rw [readConfig, ← Item.data_bare, root_complete, bare_mergeItem src.keyed_root, hsrc]
  exact (nodeConfig forms order).table.read_merge dst.keyed_root.bare hread hitem

variable [DecidableEq T] (toml : TomlText T D)

/-- `toml::from_str::<NodeConfig>`. -/
def fromStr (content : T) : Option NodeConfig := (toml.parse content).bind (readConfig forms order)

def completeMissingFields (original : T) (config : NodeConfig) : Option T :=
  (toml.parse original).bind (fun doc =>
    ((nodeConfig forms order).write config).bind (fun entries =>
      (toml.parse (toml.toStringPretty entries)).bind (fun defaults =>
        let updated := toml.print (complete doc defaults)
        if updated = original then none else some updated)))

/-- **On what was read the completion comes to its end**: the configuration can be written, and its text parses. -/
theorem completeMissingFields_of_fromStr {original : T} {config : NodeConfig}
    (h : fromStr forms order toml original = some config) :
    ∃ doc defaults entries, toml.parse original = some doc ∧ readConfig forms order doc = some config ∧
      (nodeConfig forms order).write config = some entries ∧ toml.parse (toml.toStringPretty entries) = some defaults ∧
      defaults.root.bare = .table () entries ∧
      completeMissingFields forms order toml original config =
        if toml.print (complete doc defaults) = original then none else some (toml.print (complete doc defaults)) := by
  obtain ⟨doc, hdoc, hread⟩ := Option.bind_eq_some_iff.1 h
  obtain ⟨entries, hentries⟩ := (nodeConfig forms order).exists_write_of_table hread
  obtain ⟨defaults, hdefaults, hbare⟩ := toml.parse_pretty ((nodeConfig forms order).keyed hentries)
  refine ⟨doc, defaults, entries, hdoc, hread, hentries, hdefaults, hbare, ?_⟩
  rw [completeMissingFields, hdoc, Option.bind_some, hentries, Option.bind_some, hdefaults, Option.bind_some]

/-- **The file after a completion reads as before, and is complete.** -/
theorem completed_text {original : T} {config : NodeConfig} (h : fromStr forms order toml original = some config) :
    fromStr forms order toml ((completeMissingFields forms order toml original config).getD original) = some config ∧
      completeMissingFields forms order toml ((completeMissingFields forms order toml original config).getD original)
        config = none := by
  obtain ⟨doc, defaults, entries, hdoc, hread, hentries, hdefaults, hbare, hcomplete⟩ :=
    completeMissingFields_of_fromStr forms order toml h
  by_cases hsame : toml.print (complete doc defaults) = original
  · rw [hcomplete, if_pos hsame, Option.getD_none, hcomplete, if_pos hsame]
    exact ⟨h, rfl⟩
  · rw [hcomplete, if_neg hsame, Option.getD_some]
    have hparse := toml.parse_print (complete doc defaults)
    constructor
    · rw [fromStr, hparse, Option.bind_some]
      exact readConfig_complete forms order hread hentries hbare
    · rw [completeMissingFields, hparse, Option.bind_some, hentries, Option.bind_some, hdefaults, Option.bind_some,
        complete_again]
      exact if_pos rfl

end Texts

/-- **Completion is a left-biased deep union**: by path it is that of the two documents; merging again changes nothing; with
the configuration read from the document, the completed document reads as the same configuration; on a text that was read,
`complete_missing_fields` gives the text of the completed document, or nothing if that is the same; and the text after it
reads as before and is complete. -/
theorem completion_left_union {T D : Type} [DecidableEq T] (dst src : Document D) :
    LeftUnion dst.root src.root (complete dst src).root ∧
    complete (complete dst src) src = complete dst src ∧
    (∀ forms order config entries, readConfig forms order dst = some config →
      (nodeConfig forms order).write config = some entries → src.root.bare = .table () entries →
      readConfig forms order (complete dst src) = some config) ∧
    (∀ (toml : TomlText T D) (forms : TextForms) (order : Iteration String) (original : T) (config : NodeConfig),
      fromStr forms order toml original = some config →
      (∃ doc defaults entries, toml.parse original = some doc ∧ readConfig forms order doc = some config ∧
        (nodeConfig forms order).write config = some entries ∧ toml.parse (toml.toStringPretty entries) = some defaults ∧
        defaults.root.bare = .table () entries ∧ completeMissingFields forms order toml original config =
          if toml.print (complete doc defaults) = original then none else some (toml.print (complete doc defaults))) ∧
      fromStr forms order toml ((completeMissingFields forms order toml original config).getD original) = some config ∧
      completeMissingFields forms order toml ((completeMissingFields forms order toml original config).getD original)
        config = none) := by
  refine ⟨?_, complete_again dst src, ?_, ?_⟩
  · rw [root_complete]
    exact leftUnion_mergeItem src.keyed_root dst.root
  · intro forms order config entries hread hwrite hsrc
    exact readConfig_complete forms order hread hwrite hsrc
  · intro toml forms order original config hread
    exact ⟨completeMissingFields_of_fromStr forms order toml hread, completed_text forms order toml hread⟩

def ownNode : Entries := [("name", .value () (.str "自定义")), ("custom_key", .value () (.str "keep"))]

def ownService : Entries := [("name", .value () (.str "cmd")), ("port", .value () (.int 5014))]

/-- A node's own file: a name, a key the program does not know, and a service. -/
def ownFile : Document Unit where
  decor := ()
  entries := [("node", .table () ownNode),
    ("services", .table () [("dispatcher", .table () [("local_services", .arrayOfTables [((), ownService)])])])]
  keyed := by
    have hnode : Keyed (.table () ownNode) := .cons (by decide) (.value _ _) (.cons (by decide) (.value _ _) (.empty ()))
    have hservice : Keyed (.table () ownService) :=
      .cons (by decide) (.value _ _) (.cons (by decide) (.value _ _) (.empty ()))
    have hservices : Keyed (.arrayOfTables [((), ownService)]) := .tables (fun t ht => by
      cases List.mem_singleton.1 ht
      exact hservice)
    have hdispatcher : Keyed (.table () [("local_services", .arrayOfTables [((), ownService)])]) :=
      .cons (by decide) hservices (.empty ())
    exact .cons (by decide) hnode (.cons (by decide) (.cons (by decide) hdispatcher (.empty ())) (.empty ()))

def ownConfig : NodeConfig :=
  { NodeConfig.default with
    node := { NodeInfo.default with name := "自定义" }
    services := { ServicesConfig.default with
      dispatcher := { DispatcherConfig.default with localServices := [⟨"cmd", 5014, false⟩] } } }

/-- No addresses in text. -/
def noForms : TextForms := ⟨fun _ => none, fun _ => "", fun _ => none, fun _ => ""⟩

open Classical in
/-- Documents as their own texts. -/
noncomputable def plainText : TomlText (Document Unit) Unit where
  parse := some
  print doc := doc
  toStringPretty entries := if h : Keyed (.table () entries) then ⟨(), entries, h⟩ else ⟨(), [], .empty ()⟩
  print_parse h := by
    cases h
    rfl
  parse_print _ := rfl
  parse_pretty {entries} h := by
    refine ⟨⟨(), entries, h⟩, ?_, Item.bare_unit _⟩
    rw [dif_pos h]

open Classical in
theorem own_file_completed : ∃ entries defaults,
    readConfig noForms (Iteration.ascending String) ownFile = some ownConfig ∧
    (nodeConfig noForms (Iteration.ascending String)).write ownConfig = some entries ∧
    defaults.root.bare = .table () entries ∧
    (complete ownFile defaults).root.get ["node", "custom_key"] = some (.value () (.str "keep")) ∧
    readConfig noForms (Iteration.ascending String) (complete ownFile defaults) = some ownConfig ∧
    completeMissingFields noForms (Iteration.ascending String) plainText
      ((completeMissingFields noForms (Iteration.ascending String) plainText ownFile ownConfig).getD ownFile) ownConfig = none := by
  have hread : readConfig noForms (Iteration.ascending String) ownFile = some ownConfig := rfl
  obtain ⟨entries, hentries⟩ := (nodeConfig noForms (Iteration.ascending String)).exists_write_of_table hread
  have hkeyed := (nodeConfig noForms (Iteration.ascending String)).keyed hentries
  obtain ⟨hunion, -, hsame, htext⟩ := @completion_left_union (Document Unit) Unit _ ownFile ⟨(), entries, hkeyed⟩
  refine ⟨entries, ⟨(), entries, hkeyed⟩, hread, hentries, Item.bare_unit _, ?_, ?_, ?_⟩
  · exact hunion.kept ["node", "custom_key"] (.value () (.str "keep")) rfl rfl
  · exact hsame noForms _ ownConfig entries hread hentries (Item.bare_unit _)
  · exact (htext plainText noForms _ ownFile ownConfig hread).2.2

end ConfigFile
end NexusNet
