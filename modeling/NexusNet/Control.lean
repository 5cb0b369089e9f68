import NexusNet.AsyncPrograms
import NexusNet.CommandBudget
import NexusNet.ConfigFile
import NexusNet.Registry
/-!
# Control — the control commands

`run_dht_command` and `run_command` of `command.rs` with all their handlers, as programs over the calls they make: of the
swarm, the caches, the registry, the relay manager, the gate and the configuration.  Every call is answered from outside, so
a command may be interleaved with anything between two of them.

`run_dht_command` is also in `CommandBudget`, as a function of all its answers; `ControlBudget` bounds the time of the program
by the longest run found there.
-/
namespace NexusNet
namespace Control

open AsyncPrograms (Program)
open Command (PeerInfo SendOutcome Node providerAddresses responsePayload)
open Command.DhtWorker (isWritableKey checkCompatRecordSize startsWith cborProviders)
open Sidecar (Message cborText cborVec cborStruct cborField)

/-! ## Calls -/

/-- What a command awaits or does outside of itself. -/
inductive Op where
  | sendRequest (peer : Command.PeerId) (request : Request) (addresses : List String)
  | getClosestPeers (peer : Command.PeerId)
  | putRecord (key : String) (value : Bytes)
  | startProviding (key : String)
  | stopProviding (key : String)
  | removeRecord (key : String)
  | dial (addr : Multiaddr)
  | reload
  | refreshRecordCache
  | getRecord (key : String)
  | getProviders (key : String)
  | invalidateRecord (key : String)
  | invalidateProviders (key : String)
  | invalidateAuth
  | invalidateAllRecords
  | invalidateAllProviders
  | reloadAuth
  | authStateLabel
  | indexVersion
  | whitelistVersion (service : String)
  | resetRelay
  | relays
  | resetBootstrap
  | sendService (command : Registry.ServiceCommand)
  | trySendService (command : Registry.ServiceCommand)
  | serviceTypes
  | config
deriving DecidableEq

/-- `active` and `pending` of the relay manager, as they are listed. -/
structure Relays where
  active : List String
  pending : List String

/-- What a call is answered.  A read of a cache is the value it found, or the text of its error. -/
def Op.Answer : Op → Type
  | .sendRequest .. => SendOutcome
  | .getClosestPeers _ => Except NetworkError (List PeerInfo)
  | .putRecord .. | .startProviding _ | .stopProviding _ | .removeRecord _ | .dial _ | .reload => Except NetworkError Unit
  | .refreshRecordCache => Except NetworkError Nat
  | .getRecord _ => Except String (Option Bytes)
  | .getProviders _ => Except String (Option (List Command.PeerId))
  | .invalidateRecord _ | .invalidateProviders _ | .invalidateAuth | .invalidateAllRecords | .invalidateAllProviders => Unit
  | .reloadAuth | .resetRelay | .resetBootstrap => Unit
  | .authStateLabel => String × Option String
  | .indexVersion | .whitelistVersion _ => Option UInt64
  | .relays => Relays
  | .sendService _ | .trySendService _ => Bool
  | .serviceTypes => List String
  | .config => ConfigFile.NodeConfig

abbrev Cmd (α : Type) : Type := Program Op Op.Answer α

def ask (op : Op) : Cmd op.Answer := Program.await op

/-- A call whose answer is not looked at. -/
def perform (op : Op) : Cmd Unit := do
  let _ ← ask op
  return ()

/-! ## Parts of commands -/

def fetchProviders (key : String) : Cmd (Except String (List Command.PeerId)) := do
  let read ← ask (.getProviders key)
  return read.map (·.getD [])

def fetchRecord (key : String) : Cmd (Except String (Option Bytes)) := ask (.getRecord key)

def reachabilityLabel (hasPublicAddress : Bool) (activeRelays : Nat) : String :=
  if hasPublicAddress then "public" else if 0 < activeRelays then "relay" else "none"

def sendRequestResolved (peer : Command.PeerId) (request : Request) : Cmd (Except String Response) := do
  let direct ← ask (.sendRequest peer request [])
  match direct.result peer with
  | .ok response => return .ok response
  | .error first =>
    let closest ← ask (.getClosestPeers peer)
    let addrs := (closest.toOption.map (providerAddresses · peer)).getD []
    if addrs.isEmpty then return .error first.text
    else
      let resolved ← ask (.sendRequest peer request addrs)
      return (resolved.result peer).mapError NetworkError.text

/-- The loop of `request_service`, for the attempts that are left. -/
def requestLoop (node : Node) (key : String) (request : Request) : List Nat → Option String → Cmd (Except String Bytes)
  | [], lastError => return .error (lastError.getD "service request failed")
  | attempt :: rest, _ => do
    match ← fetchProviders key with
    | .error error =>
      perform (.invalidateProviders key)
      if attempt = 0 then requestLoop node key request rest (some error) else return .error error
    | .ok providers =>
      match providers.filter (fun peer => peer != node.myPeerId) with
      | [] => return .error "No remote provider found"
      | c :: cs =>
        match ← sendRequestResolved ((node.peers.bestPeer (c :: cs)).getD c) request with
        | .ok response => return responsePayload node response
        | .error error =>
          if attempt = 0 then
            perform (.invalidateProviders key)
            requestLoop node key request rest (some error)
          else requestLoop node key request rest (some error)

def requestService (node : Node) (key service : String) (payload : Bytes) : Cmd (Except String Bytes) :=
  requestLoop node key ⟨service, payload⟩ [0, 1] none

/-- A JSON object as CBOR, its fields in the order of their names. -/
abbrev cborJson (fields : List (String × Bytes)) : Bytes := cborStruct fields

def success (key : String) : Bytes := cborJson [("key", cborText key), ("success", Cbor.bool true)]

/-! ## Commands of the DHT worker -/

def discoverProviders (service : String) : Cmd (Except String Bytes) := do
  match ← fetchProviders ("/oahd/service/" ++ service) with
  | .error e => return .error e
  | .ok providers => return .ok (cborProviders providers)

def queryKey (key : String) : Cmd (Except String Bytes) := do
  if key.isEmpty then return .error "missing key"
  else match ← fetchRecord key with
  | .error e => return .error e
  | .ok value =>
    let read ← fetchProviders key
    let providers := read.toOption.getD []
    if value.isNone && providers.isEmpty then return .error "key not found"
    else return .ok (cborStruct ([("key", cborText key)] ++ cborField "value" (value.map cborVec) ++
      if providers.isEmpty then [] else [("providers", cborProviders providers)]))

def serviceRequest (node : Node) (service : String) (payload : Bytes) : Cmd (Except String Bytes) :=
  requestService node ("/oahd/service/" ++ service) service payload

/-- The arm of `AddKey` in `run_dht_command`. -/
def addKeyAsync (maxRecordBytes : UInt64) (key : String) (value : Option Bytes) (providing : Bool) :
    Cmd (Except String Bytes) := do
  if providing then return .error "async add_key does not support providing"
  else if key.isEmpty then return .error "missing 'key' field"
  else if !isWritableKey key then return .error "key namespace not allowed"
  else match value with
  | none => return .error "at least one of 'value' or 'providing' is required"
  | some bytes =>
    match checkCompatRecordSize bytes.length maxRecordBytes with
    | .error e => return .error e
    | .ok () =>
      match ← ask (.putRecord key bytes) with
      | .error e => return .error ("put_record failed: " ++ e.text)
      | .ok _ =>
        perform (.invalidateRecord key)
        if startsWith key "/oahd/auth/" then
          perform .invalidateAuth
          return .ok (success key)
        else return .ok (success key)

def runDhtCommand (node : Node) (maxRecordBytes : UInt64) : Message → Cmd (Except String Bytes)
  | .discoverProviders _ service => discoverProviders service
  | .queryKey _ key => queryKey key
  | .serviceRequest _ service payload => serviceRequest node service payload
  | .serviceRequestTo _ service peer payload => do
    match node.parsePeer peer with
    | .error e => return .error ("invalid peer id: " ++ e)
    | .ok peerId =>
      match ← sendRequestResolved peerId ⟨service, payload⟩ with
      | .error e => return .error e
      | .ok response => return responsePayload node response
  | .addKey _ key value providing => addKeyAsync maxRecordBytes key value providing
  | _ => return .error "command not supported by DHT worker"

/-! ## Commands of the controller -/

def listServices : Cmd (Except String Bytes) := do
  let types ← ask .serviceTypes
  perform (.trySendService .refreshTypes)
  return .ok (Cbor.array (types.map cborText))

def cborOption (text : Option String) : Bytes := (text.map cborText).getD Cbor.null

def queryPublicIp (forms : ConfigFile.TextForms) : Cmd (Except String Bytes) := do
  let config ← ask .config
  return .ok (cborJson [("ipv4", cborOption (config.network.ipv4Address.map forms.displayIp)),
    ("ipv6", cborOption (config.network.ipv6Address.map forms.displayIp))])

def whoami (node : Node) : Cmd (Except String Bytes) := do
  let config ← ask .config
  return .ok (cborStruct [("peer_id", cborText node.myPeerId), ("name", cborText config.node.name),
    ("description", cborText config.node.description)])

/-- The loop of `cmd_reconnect_bootstrap`. -/
def dialAll : List Multiaddr → Bool → Cmd Bool
  | [], anySuccess => return anySuccess
  | addr :: rest, anySuccess => do
    match ← ask (.dial addr) with
    | .ok _ => dialAll rest true
    | .error _ => dialAll rest anySuccess

def reconnectBootstrap : Cmd (Except String Bytes) := do
  let config ← ask .config
  let anySuccess ← dialAll config.services.kademlia.bootstrapNodes false
  return .ok (cborJson [("success", Cbor.bool anySuccess)])

def reannounceServices : Cmd (Except String Bytes) := do
  match ← ask (.trySendService .reannounce) with
  | true => return .ok (cborJson [("success", Cbor.bool true)])
  | false => return .error "registry busy"

def invalidateCaches : Cmd Unit := do
  perform .invalidateAllRecords
  perform .invalidateAllProviders
  perform .invalidateAuth

/-- The JSON of a call that failed. -/
def failure (e : NetworkError) : Bytes := cborJson [("error", cborText e.text), ("success", Cbor.bool false)]

def reloadConfig : Cmd (Except String Bytes) := do
  match ← ask .reload with
  | .ok _ =>
    perform .resetRelay
    perform .resetBootstrap
    perform (.sendService .reset)
    perform .reloadAuth
    invalidateCaches
    return .ok (cborJson [("success", Cbor.bool true)])
  | .error e => return .ok (failure e)

def refreshCache : Cmd (Except String Bytes) := do
  invalidateCaches
  match ← ask .refreshRecordCache with
  | .ok cleared => return .ok (cborJson [("cleared", Cbor.unsigned cleared), ("success", Cbor.bool true)])
  | .error e => return .ok (failure e)

/-- `needs_relay` of the configuration. -/
def needsRelay (config : ConfigFile.NodeConfig) : Bool :=
  !(config.network.ipv4Enabled && config.network.ipv6Enabled) || !config.network.hasPublicAddress

def relayStatus : Cmd (Except String Bytes) := do
  let config ← ask .config
  let relays ← ask .relays
  let active := Cbor.array (relays.active.map cborText)
  let pending := Cbor.array (relays.pending.map cborText)
  return .ok (cborJson [("active", active), ("active_relays", active), ("need_relay", Cbor.bool (needsRelay config)),
    ("pending", pending), ("pending_relays", pending),
    ("reachability", cborText (reachabilityLabel config.network.hasPublicAddress relays.active.length)),
    ("target", Cbor.unsigned 3)])

def pqStatus : Cmd (Except String Bytes) := do
  let config ← ask .config
  return .ok (cborJson [
    ("enabled", Cbor.bool (config.crypto.pqTransportEnabled || config.crypto.pqIdentityEnabled)),
    ("identity", Cbor.bool config.crypto.pqIdentityEnabled), ("required", Cbor.bool config.crypto.pqRequired),
    ("transport", Cbor.bool config.crypto.pqTransportEnabled)])

/-- The names of the services that need authentication, as far as they are valid. -/
def localRequired (config : ConfigFile.NodeConfig) : List String :=
  ((config.services.dispatcher.localServices.filter (·.requireAuth)).map (·.name)).filter Auth.isValidServiceName

/-- The loop over the required services in `cmd_auth_status`. -/
def whitelistVersions (found : Dict String UInt64) : List String → Cmd (Dict String UInt64)
  | [] => return found
  | name :: rest => do
    match ← ask (.whitelistVersion name) with
    | some version => whitelistVersions (found.insert name version) rest
    | none => whitelistVersions found rest

def authStatus : Cmd (Except String Bytes) := do
  let config ← ask .config
  let (state, detail) ← ask .authStateLabel
  let required := localRequired config
  let indexVersion ← ask .indexVersion
  let versions ← whitelistVersions ∅ required
  let entries := (sorted versions.keys).map
    (fun name => (name, Cbor.unsigned ((versions.lookup name).map UInt64.toNat |>.getD 0)))
  return .ok (cborJson (cborField "detail" (detail.map cborText) ++
    cborField "index_version" (indexVersion.map (fun version => Cbor.unsigned version.toNat)) ++
    [("local_required", Cbor.array (required.map cborText)), ("network", cborText config.auth.network),
      ("state", cborText state), ("whitelist_versions", cborJson entries)]))

def invalidateRecordKey (key : String) : Cmd Unit := do
  perform (.invalidateRecord key)
  if startsWith key "/oahd/auth/" then perform .invalidateAuth
  if startsWith key "/oahd/service/" then perform (.invalidateProviders key)

def startProvidingRecord (key : String) : Cmd (Except String Unit) := do
  let started ← ask (.startProviding key)
  return started.mapError (fun e => "start_providing failed: " ++ e.text)

/-- `cmd_add_key`. -/
def addKey (key : String) (value : Option Bytes) (providing : Bool) : Cmd (Except String Bytes) := do
  if key.isEmpty then return .error "missing 'key' field"
  else if !isWritableKey key then return .error "key namespace not allowed"
  else match value with
  | some bytes =>
    let config ← ask .config
    match checkCompatRecordSize bytes.length (.ofBitVec config.compat.maxRecordBytes) with
    | .error e => return .error e
    | .ok () =>
      match ← ask (.putRecord key bytes) with
      | .error e => return .error ("put_record failed: " ++ e.text)
      | .ok _ =>
        invalidateRecordKey key
        if providing then
          match ← startProvidingRecord key with
          | .error e => return .error e
          | .ok _ => return .ok (success key)
        else return .ok (success key)
  | none =>
    if providing then
      match ← startProvidingRecord key with
      | .error e => return .error e
      | .ok _ => return .ok (success key)
    else return .error "at least one of 'value' or 'providing' is required"

/-- The last part of `cmd_remove_key`. -/
def removed (key : String) (providing record : Bool) : Cmd (Except String Bytes) := do
  invalidateRecordKey key
  return .ok (cborJson [("key", cborText key), ("providing", Cbor.bool providing), ("record", Cbor.bool record),
    ("success", Cbor.bool true)])

/-- The second half of `cmd_remove_key`. -/
def removeRecordKey (key : String) (providing record : Bool) : Cmd (Except String Bytes) := do
  if record then
    match ← ask (.removeRecord key) with
    | .error e => return .error ("remove_record failed: " ++ e.text)
    | .ok _ => removed key providing record
  else removed key providing record

def removeKey (key : String) (providing record : Bool) : Cmd (Except String Bytes) := do
  if key.isEmpty then return .error "missing 'key' field"
  else if !isWritableKey key then return .error "key namespace not allowed"
  else if !providing && !record then return .error "at least one of 'providing' or 'record' is required"
  else if providing then
    match ← ask (.stopProviding key) with
    | .error e => return .error ("stop_providing failed: " ++ e.text)
    | .ok _ => removeRecordKey key providing record
  else removeRecordKey key providing record

/-- `cmd_service_request_to`, which does not look up addresses. -/
def serviceRequestTo (node : Node) (service peer : String) (payload : Bytes) : Cmd (Except String Bytes) := do
  match node.parsePeer peer with
  | .error e => return .error ("invalid peer id: " ++ e)
  | .ok peerId =>
    let sent ← ask (.sendRequest peerId ⟨service, payload⟩ [])
    match sent.result peerId with
    | .error e => return .error e.text
    | .ok response => return responsePayload node response

/-- `run_command`; every arm of it is `Some`. -/
def runCommand (node : Node) (forms : ConfigFile.TextForms) : Message → Cmd (Except String Bytes)
  | .listServices _ => listServices
  | .discoverProviders _ service => discoverProviders service
  | .queryPublicIp _ => queryPublicIp forms
  | .whoami _ => whoami node
  | .reconnectBootstrap _ => reconnectBootstrap
  | .reannounceServices _ => reannounceServices
  | .reloadConfig _ => reloadConfig
  | .refreshCache _ => refreshCache
  | .relayStatus _ => relayStatus
  | .pqStatus _ => pqStatus
  | .authStatus _ => authStatus
  | .addKey _ key value providing => addKey key value providing
  | .removeKey _ key providing record => removeKey key providing record
  | .queryKey _ key => queryKey key
  | .serviceRequest _ service payload => serviceRequest node service payload
  | .serviceRequestTo _ service peer payload => serviceRequestTo node service peer payload
  | .hello _ | .request .. | .reply .. => return .error "command not supported"

def canRunInDhtWorker : Message → Bool
  | .queryKey .. | .discoverProviders .. | .serviceRequest .. | .serviceRequestTo .. => true
  | .addKey _ _ _ providing => !providing
  | _ => false

/-- What `dispatch_command` has run: a DHT worker, or the controller itself. -/
def program (node : Node) (forms : ConfigFile.TextForms) (maxRecordBytes : UInt64) (msg : Message) : Cmd (Except String Bytes) :=
  if canRunInDhtWorker msg then runDhtCommand node maxRecordBytes msg else runCommand node forms msg

/-! ## Commands that change nothing in the DHT -/

/-- The key of what a call changes in the DHT: a record, or that this node provides for the key. -/
def Op.changes : Op → Option String
  | .putRecord key _ | .startProviding key | .stopProviding key | .removeRecord key => some key
  | _ => none

abbrev Quiet {α : Type} (p : Cmd α) : Prop := p.Only (fun op => op.changes = none)

@[simp] theorem only_ask {P : Op → Prop} {op : Op} : (ask op).Only P ↔ P op := Program.only_await

@[simp] theorem only_ask_bind {P : Op → Prop} {op : Op} {α : Type} {f : op.Answer → Cmd α} :
    (ask op >>= f).Only P ↔ P op ∧ ∀ answer, (f answer).Only P := Iff.rfl

@[simp] theorem only_perform {P : Op → Prop} {op : Op} : (perform op).Only P ↔ P op :=
  and_iff_left fun _ => trivial

theorem only_perform_bind {P : Op → Prop} {op : Op} {α : Type} {f : Unit → Cmd α} (hop : P op) (hf : (f ()).Only P) :
    (perform op >>= f).Only P := ⟨hop, fun _ => hf⟩

theorem quiet_fetchProviders (key : String) : Quiet (fetchProviders key) := ⟨rfl, fun _ => trivial⟩

theorem quiet_sendRequestResolved (peer : Command.PeerId) (request : Request) : Quiet (sendRequestResolved peer request) := by
  refine only_ask_bind.2 ⟨rfl, fun direct => ?_⟩
  split
  · trivial
  · refine only_ask_bind.2 ⟨rfl, fun closest => ?_⟩
    simp only
    split
    · trivial
    · exact ⟨rfl, fun _ => trivial⟩

theorem quiet_requestLoop (node : Node) (key : String) (request : Request) : ∀ (attempts : List Nat) (lastError : Option String),
    Quiet (requestLoop node key request attempts lastError)
  | [], _ => trivial
  | attempt :: rest, _ => by
    rw [requestLoop]
    refine Program.Only.bind (fun read => ?_) (quiet_fetchProviders key)
    split
    · refine only_perform_bind rfl ?_
      split
      · exact quiet_requestLoop node key request rest _
      · trivial
    · split
      · trivial
      · refine Program.Only.bind (fun sent => ?_) (quiet_sendRequestResolved _ _)
        split
        · trivial
        · split
          · exact only_perform_bind rfl (quiet_requestLoop node key request rest _)
          · exact quiet_requestLoop node key request rest _

theorem quiet_dialAll : ∀ (addrs : List Multiaddr) (anySuccess : Bool), Quiet (dialAll addrs anySuccess)
  | [], _ => trivial
  | addr :: rest, anySuccess => by
    refine only_ask_bind.2 ⟨rfl, fun dialled => ?_⟩
    split <;> exact quiet_dialAll rest _

theorem quiet_whitelistVersions : ∀ (names : List String) (found : Dict String UInt64), Quiet (whitelistVersions found names)
  | [], _ => trivial
  | name :: rest, found => by
    refine only_ask_bind.2 ⟨rfl, fun version => ?_⟩
    split <;> exact quiet_whitelistVersions rest _

theorem quiet_queryKey (key : String) : Quiet (queryKey key) := by
  unfold queryKey
  split
  · trivial
  · refine Program.Only.bind (fun record => ?_) (only_ask.2 rfl)
    split
    · trivial
    · refine Program.Only.bind (fun read => ?_) (quiet_fetchProviders key)
      simp only
      split <;> trivial

theorem quiet_discoverProviders (service : String) : Quiet (discoverProviders service) := by
  refine Program.Only.bind (fun read => ?_) (quiet_fetchProviders _)
  split <;> trivial

theorem quiet_invalidateCaches : Quiet invalidateCaches :=
  only_perform_bind rfl (only_perform_bind rfl (only_perform.2 rfl))

/-- The commands that change something in the DHT. -/
def Writes : Message → Prop
  | .addKey .. | .removeKey .. => True
  | _ => False

theorem quiet_runDhtCommand (node : Node) (maxRecordBytes : UInt64) {msg : Message} (h : ¬ Writes msg) :
    Quiet (runDhtCommand node maxRecordBytes msg) := by
  cases msg with
  | addKey id key value providing => exact absurd trivial h
  | discoverProviders id service => exact quiet_discoverProviders service
  | queryKey id key => exact quiet_queryKey key
  | serviceRequest id service payload => exact quiet_requestLoop node _ _ _ _
  | serviceRequestTo id service peer payload =>
    simp only [runDhtCommand]
    split
    · trivial
    · refine Program.Only.bind (fun sent => ?_) (quiet_sendRequestResolved _ _)
      split <;> trivial
  | _ => trivial

theorem quiet_runCommand (node : Node) (forms : ConfigFile.TextForms) {msg : Message} (h : ¬ Writes msg) :
    Quiet (runCommand node forms msg) := by
  cases msg with
  | addKey | removeKey => exact absurd trivial h
  | listServices id => exact ⟨rfl, fun _ => only_perform_bind rfl trivial⟩
  | discoverProviders id service => exact quiet_discoverProviders service
  | reconnectBootstrap id =>
    exact ⟨rfl, fun config => Program.Only.bind (fun _ => Program.only_pure) (quiet_dialAll _ _)⟩
  | reannounceServices id =>
    refine only_ask_bind.2 ⟨rfl, fun sent => ?_⟩
    split <;> trivial
  | reloadConfig id =>
    refine only_ask_bind.2 ⟨rfl, fun reloaded => ?_⟩
    split
    · refine only_perform_bind rfl (only_perform_bind rfl (only_perform_bind rfl (only_perform_bind rfl ?_)))
      exact Program.Only.bind (fun _ => Program.only_pure) quiet_invalidateCaches
    · trivial
  | refreshCache id =>
    refine Program.Only.bind (fun _ => ?_) quiet_invalidateCaches
    refine only_ask_bind.2 ⟨rfl, fun refreshed => ?_⟩
    split <;> trivial
  | authStatus id =>
    refine ⟨rfl, fun config => ⟨rfl, fun label => ⟨rfl, fun indexVersion => ?_⟩⟩⟩
    exact Program.Only.bind (fun _ => Program.only_pure) (quiet_whitelistVersions _ _)
  | queryKey id key => exact quiet_queryKey key
  | serviceRequest id service payload => exact quiet_requestLoop node _ _ _ _
  | serviceRequestTo id service peer payload =>
    simp only [runCommand, serviceRequestTo]
    split
    · trivial
    · refine only_ask_bind.2 ⟨rfl, fun sent => ?_⟩
      split <;> trivial
  | relayStatus id => exact ⟨rfl, fun _ => ⟨rfl, fun _ => trivial⟩⟩
  | _ => first | trivial | exact ⟨rfl, fun _ => trivial⟩

/-! ## Commands that write -/

/-- What a message asks for, of what can be changed in the DHT. -/
def Asks : Message → Op → Prop
  | .addKey _ key value _, .putRecord key' bytes => key' = key ∧ value = some bytes
  | .addKey _ key _ providing, .startProviding key' => key' = key ∧ providing = true
  | .removeKey _ key providing _, .stopProviding key' => key' = key ∧ providing = true
  | .removeKey _ key _ record, .removeRecord key' => key' = key ∧ record = true
  | _, _ => False

/-- What a record is measured by: what a worker is given, or the configuration that the command has read. -/
def Limit (msg : Message) (maxRecordBytes : UInt64) (trace : List (Sigma Op.Answer)) (limit : Nat) : Prop :=
  if canRunInDhtWorker msg then limit = maxRecordBytes.toNat
  else ∃ config : ConfigFile.NodeConfig, (⟨.config, config⟩ : Sigma Op.Answer) ∈ trace ∧
    limit = config.compat.maxRecordBytes.toNat

/-- **The change is what the message asks for**, its key may be written, and a record is not too large. -/
structure Confined (msg : Message) (maxRecordBytes : UInt64) (trace : List (Sigma Op.Answer)) (op : Op) (key : String) :
    Prop where
  asked : Asks msg op
  writable : isWritableKey key = true
  sized : ∀ value, op = .putRecord key value → ∃ limit, Limit msg maxRecordBytes trace limit ∧ value.length ≤ limit

/-- What a worker invalidates of a record it has put. -/
def recordInvalidations (key : String) : List Op :=
  .invalidateRecord key :: if startsWith key "/oahd/auth/" then [.invalidateAuth] else []

/-- What `invalidate_record_key` does. -/
def invalidations (key : String) : List Op :=
  recordInvalidations key ++ if startsWith key "/oahd/service/" then [.invalidateProviders key] else []

/-- The invalidations that a change calls for, in a worker and in the controller; for a provision that starts there are
none. -/
def Op.owes (worker : Bool) : Op → List Op
  | .putRecord key _ | .removeRecord key | .stopProviding key =>
    if worker then recordInvalidations key else invalidations key
  | _ => []

/-- The call is one that invalidates a cache. -/
def Op.invalidates : Op → Bool
  | .invalidateRecord _ | .invalidateProviders _ | .invalidateAuth | .invalidateAllRecords | .invalidateAllProviders => true
  | _ => false

theorem Op.changes_of_invalidates {op : Op} (h : op.invalidates = true) : op.changes = none := by
  cases op <;> first | rfl | cases h

theorem invalidates_of_mem {key : String} {op : Op} (h : op ∈ invalidations key) : op.invalidates = true := by
  rw [invalidations, recordInvalidations, List.cons_append, List.mem_cons, List.mem_append] at h
  rcases h with rfl | h | h
  · rfl
  all_goals
    split at h
    · rw [List.mem_singleton.1 h]
      rfl
    · cases h

/-! ## What a command obeys -/

section Obeys

variable {α : Type} {G : List (Sigma Op.Answer) → Op → Prop} {Q : List (Sigma Op.Answer) → α → Prop}
  {trace : List (Sigma Op.Answer)}

theorem obeys_ask_bind {op : Op} {f : op.Answer → Cmd α} :
    (ask op >>= f).Obeys G Q trace ↔ G trace op ∧ ∀ answer, (f answer).Obeys G Q (trace ++ [⟨op, answer⟩]) := Iff.rfl

theorem obeys_perform_bind {op : Op} {f : Unit → Cmd α} :
    (perform op >>= f).Obeys G Q trace ↔ G trace op ∧ ∀ answer, (f ()).Obeys G Q (trace ++ [⟨op, answer⟩]) := Iff.rfl

/-- `invalidate_record_key` makes the invalidations of the key. -/
theorem obeys_invalidateRecordKey_bind {key : String} {f : Unit → Cmd α} (hG : ∀ trace op, op.changes = none → G trace op)
    (hf : ∀ more : List (Sigma Op.Answer), more.map Sigma.fst = invalidations key → (f ()).Obeys G Q (trace ++ more)) :
    (invalidateRecordKey key >>= f).Obeys G Q trace := by
  rw [Program.obeys_bind, invalidateRecordKey, obeys_perform_bind]
  refine ⟨hG _ _ rfl, fun first => ?_⟩
  cases hauth : startsWith key "/oahd/auth/" <;> cases hservice : startsWith key "/oahd/service/" <;>
    simp only [invalidations, recordInvalidations, hauth, hservice, if_true, Bool.false_eq_true, if_false,
      List.append_nil, List.cons_append, List.nil_append] at hf ⊢
  · exact hf [_] rfl
  iterate 2
    refine ⟨hG _ _ rfl, fun second => ?_⟩
    have hmore := hf [⟨_, first⟩, ⟨_, second⟩] rfl
    rw [List.append_cons] at hmore
    exact hmore
  · refine ⟨hG _ _ rfl, fun second => ⟨hG _ _ rfl, fun third => ?_⟩⟩
    have hmore := hf [⟨_, first⟩, ⟨_, second⟩, ⟨_, third⟩] rfl
    rw [List.append_cons, List.append_cons] at hmore
    exact hmore

end Obeys

/-- What a command may call, after these calls. -/
def Allowed (msg : Message) (maxRecordBytes : UInt64) (trace : List (Sigma Op.Answer)) (op : Op) : Prop :=
  ∀ key, op.changes = some key → Confined msg maxRecordBytes trace op key

/-- **What a command has done when it ends with success**: after each change it has made exactly the invalidations that the
change calls for, and if it has announced this node as a provider, it has done nothing after that. -/
structure Settled (worker : Bool) (ops : List Op) : Prop where
  invalidated : ∀ before op after, ops = before ++ op :: after → op.changes ≠ none →
    after.filter Op.invalidates = op.owes worker
  last : ∀ before key after, ops = before ++ .startProviding key :: after → after = []

abbrev Ends (worker : Bool) (trace : List (Sigma Op.Answer)) (result : Except String Bytes) : Prop :=
  result.isOk = true → Settled worker (trace.map Sigma.fst)

theorem allowed_of_quiet {msg : Message} {maxRecordBytes : UInt64} {trace : List (Sigma Op.Answer)} {op : Op}
    (h : op.changes = none) : Allowed msg maxRecordBytes trace op := by
  intro key hkey
  rw [h] at hkey
  cases hkey

section Settle

variable {worker : Bool} {ops after : List Op}

theorem start_not_mem (hstart : ∀ key, .startProviding key ∉ ops) (hafter : ∀ op ∈ after, op.invalidates = true)
    (key : String) : .startProviding key ∉ ops ++ after := by
  intro hin
  rcases List.mem_append.1 hin with hin | hin
  · exact hstart key hin
  · cases hafter _ hin

theorem settled_of_quiet (h : ∀ op ∈ ops, op.changes = none) : Settled worker ops where
  invalidated before op after heq hchanges := absurd (h op (by rw [heq]; simp)) hchanges
  last before key after heq := absurd (h (.startProviding key) (by rw [heq]; simp)) nofun

/-- The calls invalidate nothing, and their changes call for these invalidations. -/
def CallFor (worker : Bool) (ops after : List Op) : Prop :=
  ∀ op ∈ ops, op.invalidates = false ∧ (op.changes ≠ none → op.owes worker = after)

theorem settled_append (hops : CallFor worker ops after)
    (hstart : ∀ key, .startProviding key ∉ ops) (hafter : ∀ op ∈ after, op.invalidates = true) :
    Settled worker (ops ++ after) where
  invalidated before op rest heq hchanges := by
    have hfilter : after.filter Op.invalidates = after := List.filter_eq_self.2 hafter
    rcases List.append_eq_append_iff.1 heq with ⟨mid, rfl, hrest⟩ | ⟨mid, hmid, hrest⟩
    · -- the calls after the changes change nothing
      have hin : op ∈ after := by rw [hrest]; simp
      exact absurd (Op.changes_of_invalidates (hafter op hin)) hchanges
    · cases mid with
      | nil =>
        have hin : op ∈ after := by rw [← List.nil_append after, ← hrest]; exact List.mem_cons_self
        exact absurd (Op.changes_of_invalidates (hafter op hin)) hchanges
      | cons op' mid =>
        rw [List.cons_append] at hrest
        obtain ⟨rfl, rfl⟩ := List.cons.inj hrest
        have hnone : mid.filter Op.invalidates = [] :=
          List.filter_eq_nil_iff.2 fun o ho => by simp [(hops o (by rw [hmid]; simp [ho])).1]
        rw [List.filter_append, hnone, List.nil_append, hfilter, (hops op (by rw [hmid]; simp)).2 hchanges]
  last before key rest heq := by
    have hin : .startProviding key ∈ ops ++ after := by rw [heq]; simp
    exact absurd hin (start_not_mem hstart hafter key)

theorem Settled.start (h : Settled worker ops) (hstart : ∀ key, .startProviding key ∉ ops) (key : String) :
    Settled worker (ops ++ [.startProviding key]) where
  invalidated before op rest heq hchanges := by
    rcases List.eq_nil_or_concat rest with rfl | ⟨init, last, rfl⟩
    · obtain ⟨-, hlast⟩ := List.append_inj' heq rfl
      cases hlast
      rfl
    · rw [List.concat_eq_append, ← List.cons_append, ← List.append_assoc] at heq
      obtain ⟨hops, hlast⟩ := List.append_inj' heq rfl
      cases hlast
      rw [List.concat_eq_append, List.filter_append, h.invalidated before op init hops hchanges]
      exact List.append_nil _
  last before key' after heq := by
    rcases List.eq_nil_or_concat after with rfl | ⟨init, op, rfl⟩
    · rfl
    · rw [List.concat_eq_append, ← List.cons_append, ← List.append_assoc] at heq
      exact absurd (by rw [(List.append_inj' heq rfl).1]; simp) (hstart key')

end Settle

theorem Quiet.obeys {p : Cmd (Except String Bytes)} (h : Quiet p) (msg : Message) (maxRecordBytes : UInt64)
    (worker : Bool) : p.Obeys (Allowed msg maxRecordBytes) (Ends worker) [] := by
  have honly : p.Obeys (fun _ op => op.changes = none) (fun trace _ => ∀ c ∈ trace, c.1.changes = none) [] :=
    Program.Only.obeys h (fun _ hc => by cases hc)
  refine honly.mono (fun _ _ => allowed_of_quiet) (fun trace result hquiet _ => settled_of_quiet fun op hop => ?_)
  obtain ⟨c, hc, rfl⟩ := List.mem_map.1 hop
  exact hquiet c hc

theorem length_le_of_check {len : Nat} {maxBytes : UInt64} {u : Unit} (h : checkCompatRecordSize len maxBytes = .ok u) :
    len ≤ maxBytes.toNat := by
  rw [checkCompatRecordSize] at h
  split at h
  · cases h
  · omega

theorem obeys_addKeyAsync (id : Sidecar.Uuid) (key : String) (value : Option Bytes) (providing : Bool) (maxRecordBytes : UInt64) :
    (addKeyAsync maxRecordBytes key value providing).Obeys
      (Allowed (.addKey id key value providing) maxRecordBytes) (Ends true) [] := by
  unfold addKeyAsync
  split
  · exact fun h => by cases h
  rename_i hproviding
  split
  · exact fun h => by cases h
  split
  · exact fun h => by cases h
  rename_i hwritable
  split
  · exact fun h => by cases h
  rename_i bytes
  split
  · exact fun h => by cases h
  rename_i hsize
  rw [obeys_ask_bind]
  refine ⟨fun key' hkey => ?_, fun put => ?_⟩
  · obtain rfl := Option.some.inj hkey
    refine ⟨⟨rfl, rfl⟩, by simpa using hwritable, fun value' hvalue => ?_⟩
    cases hvalue
    exact ⟨_, by rw [Limit, canRunInDhtWorker, if_pos (by simpa using hproviding)], length_le_of_check hsize⟩
  · split
    · exact fun h => by cases h
    · rw [obeys_perform_bind]
      refine ⟨allowed_of_quiet rfl, fun first => ?_⟩
      split
      · rename_i hauth
        refine ⟨allowed_of_quiet rfl, fun second _ => ?_⟩
        exact (settled_append (by simp [CallFor, Op.owes, Op.invalidates, recordInvalidations, hauth]) (by simp)
          (by simp [Op.invalidates]) : Settled true ([.putRecord key bytes] ++ [.invalidateRecord key, .invalidateAuth]))
      · rename_i hauth
        exact fun _ => (settled_append (by simp [CallFor, Op.owes, Op.invalidates, recordInvalidations, hauth]) (by simp)
          (by simp [Op.invalidates]) : Settled true ([.putRecord key bytes] ++ [.invalidateRecord key]))

/-- The end of `cmd_add_key`: this node is announced as a provider. -/
theorem obeys_startProvidingRecord {id : Sidecar.Uuid} {key : String} {value : Option Bytes} {maxRecordBytes : UInt64}
    {trace : List (Sigma Op.Answer)} (hwritable : isWritableKey key = true) (hsettled : Settled false (trace.map Sigma.fst))
    (hstart : ∀ key, .startProviding key ∉ trace.map Sigma.fst) :
    (startProvidingRecord key >>= fun started => match started with
      | .error e => pure (.error e)
      | .ok _ => pure (.ok (success key))).Obeys (Allowed (.addKey id key value true) maxRecordBytes) (Ends false)
        trace := by
  refine ⟨fun key' hkey => ?_, fun started => ?_⟩
  · obtain rfl := Option.some.inj hkey
    exact ⟨⟨rfl, rfl⟩, hwritable, fun _ h => by cases h⟩
  · cases started with
    | error e => exact fun h => by cases h
    | ok u =>
      intro _
      rw [List.map_append]
      exact hsettled.start hstart key

theorem obeys_addKey (id : Sidecar.Uuid) (key : String) (value : Option Bytes) (maxRecordBytes : UInt64) :
    (addKey key value true).Obeys (Allowed (.addKey id key value true) maxRecordBytes) (Ends false) [] := by
  unfold addKey
  split
  · exact fun h => by cases h
  split
  · exact fun h => by cases h
  rename_i hwritable
  have hwritable : isWritableKey key = true := by simpa using hwritable
  split
  · rename_i bytes
    rw [obeys_ask_bind]
    refine ⟨allowed_of_quiet rfl, fun config => ?_⟩
    split
    · exact fun h => by cases h
    rename_i hsize
    rw [obeys_ask_bind]
    refine ⟨fun key' hkey => ?_, fun put => ?_⟩
    · obtain rfl := Option.some.inj hkey
      refine ⟨⟨rfl, rfl⟩, hwritable, fun value' hvalue => ?_⟩
      cases hvalue
      refine ⟨_, ?_, length_le_of_check hsize⟩
      rw [Limit, canRunInDhtWorker, if_neg (by simp)]
      exact ⟨config, by simp, rfl⟩
    · split
      · exact fun h => by cases h
      refine obeys_invalidateRecordKey_bind (fun _ _ => allowed_of_quiet) fun more hmore => ?_
      have hops : CallFor false [.config, .putRecord key bytes] (invalidations key) :=
        List.forall_mem_cons.2 ⟨⟨rfl, fun h => absurd rfl h⟩, List.forall_mem_singleton.2 ⟨rfl, fun _ => rfl⟩⟩
      have hstart : ∀ key', Op.startProviding key' ∉ [Op.config, Op.putRecord key bytes] := by simp
      rw [if_pos rfl]
      refine obeys_startProvidingRecord hwritable ?_ ?_
      · rw [List.map_append, hmore]
        exact settled_append hops hstart (fun _ => invalidates_of_mem)
      · rw [List.map_append, hmore]
        exact start_not_mem hstart (fun _ => invalidates_of_mem)
  · rw [if_pos rfl]
    exact obeys_startProvidingRecord hwritable (settled_of_quiet (fun _ h => by cases h)) (by simp)

section Remove

variable {id : Sidecar.Uuid} {key : String} {providing record : Bool} {maxRecordBytes : UInt64} {trace : List (Sigma Op.Answer)}

theorem obeys_removed (hops : CallFor false (trace.map Sigma.fst) (invalidations key))
    (hstart : ∀ key, .startProviding key ∉ trace.map Sigma.fst) :
    (removed key providing record).Obeys (Allowed (.removeKey id key providing record) maxRecordBytes) (Ends false)
      trace := by
  refine obeys_invalidateRecordKey_bind (fun _ _ => allowed_of_quiet) fun more hmore _ => ?_
  rw [List.map_append, hmore]
  exact settled_append hops hstart (fun _ => invalidates_of_mem)

theorem obeys_removeRecordKey (hwritable : isWritableKey key = true)
    (hops : CallFor false (trace.map Sigma.fst) (invalidations key))
    (hstart : ∀ key, .startProviding key ∉ trace.map Sigma.fst) :
    (removeRecordKey key providing record).Obeys (Allowed (.removeKey id key providing record) maxRecordBytes)
      (Ends false) trace := by
  unfold removeRecordKey
  split
  · rename_i hrecord
    rw [obeys_ask_bind]
    refine ⟨fun key' hkey => ?_, fun removed => ?_⟩
    · obtain rfl := Option.some.inj hkey
      exact ⟨⟨rfl, hrecord⟩, hwritable, fun _ h => by cases h⟩
    · split
      · exact fun h => by cases h
      · refine obeys_removed ?_ (fun key' => by simp [hstart])
        rw [List.map_append]
        exact List.forall_mem_append.2 ⟨hops, List.forall_mem_singleton.2 ⟨rfl, fun _ => rfl⟩⟩
  · exact obeys_removed hops hstart

theorem obeys_removeKey (id : Sidecar.Uuid) (key : String) (providing record : Bool) (maxRecordBytes : UInt64) :
    (removeKey key providing record).Obeys (Allowed (.removeKey id key providing record) maxRecordBytes) (Ends false)
      [] := by
  unfold removeKey
  split
  · exact fun h => by cases h
  split
  · exact fun h => by cases h
  rename_i hwritable
  have hwritable : isWritableKey key = true := by simpa using hwritable
  split
  · exact fun h => by cases h
  split
  · rename_i hproviding
    rw [obeys_ask_bind]
    refine ⟨fun key' hkey => ?_, fun stopped => ?_⟩
    · obtain rfl := Option.some.inj hkey
      exact ⟨⟨rfl, hproviding⟩, hwritable, fun _ h => by cases h⟩
    · split
      · exact fun h => by cases h
      · exact obeys_removeRecordKey hwritable (List.forall_mem_singleton.2 ⟨rfl, fun _ => rfl⟩) (by simp)
  · exact obeys_removeRecordKey hwritable (fun _ h => by cases h) (by simp)

end Remove

/-- **What every command obeys**: it changes only what its message asks for, and ends with success only when it has made the
invalidations that its changes call for. -/
theorem obeys_program (node : Node) (forms : ConfigFile.TextForms) (maxRecordBytes : UInt64) (msg : Message) :
    (program node forms maxRecordBytes msg).Obeys (Allowed msg maxRecordBytes) (Ends (canRunInDhtWorker msg)) [] := by
  unfold program
  split
  · rename_i hworker
    rw [hworker]
    cases msg with
    | addKey id key value providing => exact obeys_addKeyAsync id key value providing maxRecordBytes
    | removeKey id key providing record => cases hworker
    | _ => exact (quiet_runDhtCommand node maxRecordBytes id).obeys _ _ _
  · rename_i hinline
    rw [Bool.eq_false_of_not_eq_true hinline]
    cases msg with
    | addKey id key value providing =>
      cases providing with
      | false => exact absurd rfl hinline
      | true => exact obeys_addKey id key value maxRecordBytes
    | removeKey id key providing record => exact obeys_removeKey id key providing record maxRecordBytes
    | _ => exact (quiet_runCommand node forms id).obeys _ _ _

end Control
end NexusNet
