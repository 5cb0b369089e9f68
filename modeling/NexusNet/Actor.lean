import NexusNet.PqDelivery
/-!
# Actor — the task that owns the swarm

`SwarmActor` of `actor.rs`.  It handles one command or one event of the swarm at a time; each handler is a function of the
actor's tables and of what it meets (`Env`), and gives the tables after it and what it has done to the outside, in order
(`Effect`).  The swarm itself is libp2p: what is kept of it here is which of its optional behaviours were built.  Numbers
stand for the ids libp2p hands out, for response channels, for connections, and for the reply channels of commands
(`resp`).
-/
namespace NexusNet
namespace Actor

open Pq (Crypto Wire PqKeys PqIdentity PqRequest PqResponse PqOutbound PqInbound Draw DrawnNonce openRequest
  sendPqRequest encodeResponse decodeResponse decodeRequest)

/-! ## What libp2p reports -/

structure PeerRecord where
  peer : Option PeerId
  key : Bytes
  value : Bytes
deriving DecidableEq

structure PeerInfo where
  peer : PeerId
  addrs : List Multiaddr
deriving DecidableEq

/-- The results of a `GetRecord` query; `not found` is told apart from the other errors. -/
inductive GetRecordResult where
  | foundRecord (record : PeerRecord)
  | finished
  | notFound
  | failed (error : String)
deriving DecidableEq

inductive GetProvidersResult where
  | foundProviders (providers : Finset PeerId)
  | finished
  | failed (error : String)
deriving DecidableEq

inductive QueryResult where
  | bootstrap (result : Except String Unit)
  | getRecord (result : GetRecordResult)
  | getProviders (result : GetProvidersResult)
  | getClosestPeers (result : Except String (List PeerInfo))
  | putRecord (result : Except String Unit)
  | startProviding (result : Except String Unit)
  | other
deriving DecidableEq

inductive KadEvent where
  | routingUpdated (peer : PeerId)
  | outboundQueryProgressed (id : Nat) (result : QueryResult)
  | other

/-- The events of a request-response behaviour. -/
inductive ReqEvent (Q R : Type) where
  | request (peer : PeerId) (connection : Nat) (request : Q) (channel : Nat)
  | response (id : Nat) (response : R)
  | outboundFailure (peer : PeerId) (id : Nat) (error : OutboundFailure)
  | inboundFailure
  | responseSent

structure IdentifyInfo where
  protocols : List String
  agentVersion : String
  listenAddrs : List Multiaddr

inductive SwarmEvent where
  | kademlia (event : KadEvent)
  | serviceReq (event : ReqEvent Request Response)
  | serviceReqPq (event : ReqEvent PqRequest PqResponse)
  | pqIdentity (event : ReqEvent Unit PqIdentity)
  | ping
  | identifyReceived (peer : PeerId) (info : IdentifyInfo)
  | identifyOther
  | relay
  | relayClient
  | connectionEstablished (peer : PeerId) (connection : Nat)
  | connectionClosed (peer : PeerId) (connection numEstablished : Nat)
  | newListenAddr (addr : Multiaddr)
  | listenerClosed (addresses : List Multiaddr)
  | other

/-! ## Commands, and what the actor does -/

inductive Command where
  | kadGetRecordAll (key : Bytes) (resp : Nat)
  | kadGetProviders (key : Bytes) (resp : Nat)
  | kadGetClosestPeers (peer : PeerId) (resp : Nat)
  | kadPutRecord (key value : Bytes) (resp : Nat)
  | kadStartProviding (key : Bytes) (resp : Nat)
  | kadStopProviding (key : Bytes) (resp : Nat)
  | kadRemoveRecord (key : Bytes) (resp : Nat)
  | kadCacheRefresh (resp : Nat)
  | serviceSendRequest (peer : PeerId) (request : Request) (addresses : List Multiaddr) (resp : Nat)
  | serviceSendResponse (requestId : String) (response : Response)
  | listenOn (addr : Multiaddr) (resp : Nat)
  | dial (addr : Multiaddr) (resp : Nat)
  | disconnectPeer (peer : PeerId)
  | reload (resp : Nat)

inductive NetworkEvent where
  | ping
  | identify
  | bootstrapCompleted
  | inboundServiceRequest (peer : PeerId) (requestId service : String) (payload : Bytes)
  | relay
  | relayClient
  | listenerClosed (addresses : List Multiaddr)
  | relayCircuitReady (addr : Multiaddr)
deriving DecidableEq

/-- What a command's reply channel is sent. -/
inductive Reply where
  | records (result : Except NetworkError (List PeerRecord))
  | providers (result : Except NetworkError (List PeerId))
  | closestPeers (result : Except NetworkError (List PeerInfo))
  | done (result : Except NetworkError Unit)
  | removed (result : Except NetworkError Nat)
  | response (result : Except NetworkError Response)
deriving DecidableEq

/-- A query as Kademlia is asked to start it. -/
inductive Query where
  | getRecord (key : Bytes)
  | getProviders (key : Bytes)
  | getClosestPeers (peer : PeerId)
  | putRecord (key value : Bytes)
  | startProviding (key : Bytes)
deriving DecidableEq

/-- **What a handler does to the outside.**  `respond` is a response on the channel of an inbound request, sealed if the
request was; `awaitReply` is the task that waits for the reply to an admitted request. -/
inductive Effect where
  | answer (resp : Nat) (reply : Reply)
  | emit (event : NetworkEvent)
  | awaitReply (requestId : String)
  | query (id : Nat) (query : Query)
  | sendPlain (id : Nat) (peer : PeerId) (request : Request) (addresses : List Multiaddr)
  | sendPq (id : Nat) (peer : PeerId) (request : PqRequest) (addresses : List Multiaddr)
  | fetchIdentity (id : Nat) (peer : PeerId)
  | respond (channel : Nat) (response : Response) (sealedAs : Option PqResponse)
  | respondIdentity (channel : Nat) (identity : PqIdentity)
  | addAddress (peer : PeerId) (addr : Multiaddr)
  | removePeer (peer : PeerId)
  | removeRecord (key : Bytes)
  | stopProviding (key : Bytes)
  | retainOwnRecords
  | listenOn (addr : Multiaddr)
  | dial (addr : Multiaddr)
  | disconnectPeer (peer : PeerId)
deriving DecidableEq

/-- **What a step meets**: the configuration at that time, what libp2p answers (the id it gives the query or request
started by the step, the errors of its calls, the number of records a refresh removes), the clock, what is drawn at
random, and the orders in which hash maps are iterated. -/
structure Env where
  config : NodeConfig
  bootstrapNodes : List Multiaddr
  now : Nat
  fresh : Nat
  storeError : Option String
  listenError : Option String
  dialError : Option String
  removedRecords : Nat
  requestId : String
  draw : Draw
  nonce : Nat → DrawnNonce
  display : PeerId → String
  peers : Iteration PeerId
  ids : Iteration Nat
  requestIds : Iteration String

/-! ## The tables -/

inductive KadPending where
  | getRecord (resp : Nat) (records : List PeerRecord)
  | getProviders (resp : Nat) (providers : Finset PeerId)
  | getClosestPeers (resp : Nat)
  | putRecord (key : Bytes) (resp : Nat)
  | startProviding (resp : Nat)
deriving DecidableEq

def KadPending.resp : KadPending → Nat
  | .getRecord resp _ | .getProviders resp _ | .getClosestPeers resp | .putRecord _ resp | .startProviding resp => resp

/-- `fail`: the reply of a cancelled query. -/
def KadPending.failure (err : NetworkError) : KadPending → Reply
  | .getRecord _ _ => .records (.error err)
  | .getProviders _ _ => .providers (.error err)
  | .getClosestPeers _ => .closestPeers (.error err)
  | .putRecord _ _ | .startProviding _ => .done (.error err)

inductive PendingInbound where
  | plain (channel : Nat)
  | pq (channel : Nat) (inbound : PqInbound)
deriving DecidableEq

def PendingInbound.channel : PendingInbound → Nat
  | .plain channel | .pq channel _ => channel

structure PendingInboundEntry where
  connection : Nat
  peer : PeerId
  pending : PendingInbound
deriving DecidableEq

structure PendingOutbound where
  resp : Nat
  wireLen : Nat

structure PqOutboundPending where
  resp : Nat
  out : PqOutbound
  wireLen : Nat

/-- The optional behaviours of a swarm. -/
structure Behaviours where
  kademlia : Bool
  serviceReqPq : Bool
  pqIdentity : Bool
deriving DecidableEq

/-- `build_swarm`, as far as the toggles go. -/
def Behaviours.build (config : NodeConfig) : Behaviours := ⟨config.kademlia.enabled, config.pqEnabled, config.pqEnabled⟩

structure SwarmActor where
  swarm : Behaviours
  keypair : Bytes
  pqKeys : Option PqKeys
  lastBootstrapNotice : Option Nat
  identifiedPeers : Finset PeerId
  peerProtocols : Dict PeerId (Finset String)
  pqIdentities : Dict PeerId PqIdentity
  pendingKad : Dict Nat KadPending
  pendingOutbound : Dict Nat PendingOutbound
  pendingOutboundPq : Dict Nat PqOutboundPending
  pendingPqIdentity : Dict Nat PeerId
  pendingInbound : Dict String PendingInboundEntry

def peerIdFromMultiaddr (addr : Multiaddr) : Option PeerId :=
  addr.findSome? (fun
    | .p2p peer => some peer
    | _ => none)

def bootstrapPeers (nodes : List Multiaddr) : Finset PeerId := (nodes.filterMap peerIdFromMultiaddr).toFinset

/-- The actor that `spawn` starts. -/
def SwarmActor.new (config : NodeConfig) (bootstrapNodes : List Multiaddr) (keypair : Bytes) (pqKeys : Option PqKeys) :
    SwarmActor :=
  ⟨.build config, keypair, pqKeys, none, bootstrapPeers bootstrapNodes, ∅, ∅, ∅, ∅, ∅, ∅, ∅⟩

def agentName : String := "/nexusnet"

def failureResponse (text : String) : Response := ⟨false, strBytes text⟩

def reloadRejectionResponse : Response := failureResponse "node is reloading; retry shortly"

/-! ## Kademlia -/

/-- `apply_get_providers`: what stays pending, and the reply that is sent. -/
def applyGetProviders (order : Iteration PeerId) : KadPending → GetProvidersResult → Option KadPending × List Effect
  | .getProviders resp providers, .foundProviders batch => (some (.getProviders resp (providers ∪ batch)), [])
  | .getProviders resp providers, .finished => (none, [.answer resp (.providers (.ok (order.list providers)))])
  | .getProviders resp _, .failed e => (none, [.answer resp (.providers (.error (.kad e)))])
  | other, _ => (some other, [])

section Handlers

variable (C : Crypto) (W : Wire)

namespace SwarmActor

def isAllowedPeer (A : SwarmActor) (peer : PeerId) : Bool :=
  decide (peer = C.idPeerId A.keypair) || decide (peer ∈ A.identifiedPeers)

/-- The `GetRecord` branch of `handle_kad_event`: the entry is taken out and put back with the record, or answered. -/
def progressGetRecord (A : SwarmActor) (id : Nat) (result : GetRecordResult) : SwarmActor × List Effect :=
  let rest := A.pendingKad.erase id
  match A.pendingKad.lookup id with
  | some (.getRecord resp records) =>
    match result with
    | .foundRecord record => ({ A with pendingKad := rest.insert id (.getRecord resp (records ++ [record])) }, [])
    | .finished | .notFound => ({ A with pendingKad := rest }, [.answer resp (.records (.ok records))])
    | .failed e =>
      ({ A with pendingKad := rest }, [.answer resp (.records (if records.isEmpty then .error (.kad e) else .ok records))])
  | _ => ({ A with pendingKad := rest }, [])

def progressGetProviders (A : SwarmActor) (env : Env) (id : Nat) (result : GetProvidersResult) :
    SwarmActor × List Effect :=
  match A.pendingKad.lookup id with
  | none => (A, [])
  | some pending =>
    match applyGetProviders env.peers pending result with
    | (some pending', effects) => ({ A with pendingKad := (A.pendingKad.erase id).insert id pending' }, effects)
    | (none, effects) => ({ A with pendingKad := A.pendingKad.erase id }, effects)

/-- The branches of `handle_kad_event` for queries with one result: the entry is taken out, and answered if it is of the
result's kind. -/
def progressOnce (A : SwarmActor) (id : Nat) (finish : KadPending → List Effect) : SwarmActor × List Effect :=
  ({ A with pendingKad := A.pendingKad.erase id }, ((A.pendingKad.lookup id).map finish).getD [])

def progressGetClosestPeers (A : SwarmActor) (id : Nat) (result : Except String (List PeerInfo)) :
    SwarmActor × List Effect :=
  A.progressOnce id (fun
    | .getClosestPeers resp => [.answer resp (.closestPeers (result.mapError .kad))]
    | _ => [])

/-- A record whose publication failed is removed from the local store. -/
def progressPutRecord (A : SwarmActor) (id : Nat) (result : Except String Unit) : SwarmActor × List Effect :=
  A.progressOnce id (fun
    | .putRecord key resp =>
      (if !result.isOk && A.swarm.kademlia then [.removeRecord key] else []) ++
        [.answer resp (.done (result.mapError .kad))]
    | _ => [])

def progressStartProviding (A : SwarmActor) (id : Nat) (result : Except String Unit) : SwarmActor × List Effect :=
  A.progressOnce id (fun
    | .startProviding resp => [.answer resp (.done (result.mapError .kad))]
    | _ => [])

/-- A bootstrap is reported at most every 30 seconds. -/
def progressBootstrap (A : SwarmActor) (env : Env) (result : Except String Unit) : SwarmActor × List Effect :=
  if result.isOk && A.lastBootstrapNotice.all (fun last => decide (30000 ≤ env.now - last)) then
    ({ A with lastBootstrapNotice := some env.now }, [.emit .bootstrapCompleted])
  else (A, [])

def handleKadEvent (A : SwarmActor) (env : Env) : KadEvent → SwarmActor × List Effect
  | .routingUpdated peer => (A, if !A.isAllowedPeer C peer && A.swarm.kademlia then [.removePeer peer] else [])
  | .outboundQueryProgressed id result =>
    match result with
    | .bootstrap result => A.progressBootstrap env result
    | .getRecord result => A.progressGetRecord id result
    | .getProviders result => A.progressGetProviders env id result
    | .getClosestPeers result => A.progressGetClosestPeers id result
    | .putRecord result => A.progressPutRecord id result
    | .startProviding result => A.progressStartProviding id result
    | .other => (A, [])
  | .other => (A, [])

/-- The start of a query: Kademlia is disabled, or the local store refuses, or the query is pending under its id. -/
def startQuery (A : SwarmActor) (env : Env) (storeError : Option String) (query : Query) (pending : KadPending) :
    SwarmActor × List Effect :=
  if !A.swarm.kademlia then (A, [.answer pending.resp (pending.failure .disabled)])
  else match storeError with
  | some e => (A, [.answer pending.resp (pending.failure (.kad e))])
  | none => ({ A with pendingKad := A.pendingKad.insert env.fresh pending }, [.query env.fresh query])

def kadGetRecordAll (A : SwarmActor) (env : Env) (key : Bytes) (resp : Nat) : SwarmActor × List Effect :=
  A.startQuery env none (.getRecord key) (.getRecord resp [])

def kadGetProviders (A : SwarmActor) (env : Env) (key : Bytes) (resp : Nat) : SwarmActor × List Effect :=
  A.startQuery env none (.getProviders key) (.getProviders resp ∅)

def kadGetClosestPeers (A : SwarmActor) (env : Env) (peer : PeerId) (resp : Nat) : SwarmActor × List Effect :=
  A.startQuery env none (.getClosestPeers peer) (.getClosestPeers resp)

def kadPutRecord (A : SwarmActor) (env : Env) (key value : Bytes) (resp : Nat) : SwarmActor × List Effect :=
  A.startQuery env env.storeError (.putRecord key value) (.putRecord key resp)

def kadStartProviding (A : SwarmActor) (env : Env) (key : Bytes) (resp : Nat) : SwarmActor × List Effect :=
  A.startQuery env env.storeError (.startProviding key) (.startProviding resp)

/-- The local operations on Kademlia, answered at once. -/
def kadLocal (A : SwarmActor) (effect : Effect) (resp : Nat) : SwarmActor × List Effect :=
  if A.swarm.kademlia then (A, [effect, .answer resp (.done (.ok ()))])
  else (A, [.answer resp (.done (.error .disabled))])

def kadCacheRefresh (A : SwarmActor) (env : Env) (resp : Nat) : SwarmActor × List Effect :=
  if A.swarm.kademlia then (A, [.retainOwnRecords, .answer resp (.removed (.ok env.removedRecords))])
  else (A, [.answer resp (.removed (.error .disabled))])

/-! ## Identities -/

/-- `maybe_fetch_pq_identity`: the identity of a peer that supports PQ is asked for, unless it is known. -/
def maybeFetchPqIdentity (A : SwarmActor) (env : Env) (peer : PeerId) : SwarmActor × List Effect :=
  if A.pqKeys.isNone || !env.config.pqEnabled then (A, [])
  else if peer ∈ A.pqIdentities then (A, [])
  else if !(A.peerProtocols.lookup peer).any (fun protocols => decide (serviceReqPqProtocol ∈ protocols)) then (A, [])
  else if A.swarm.pqIdentity then
    ({ A with pendingPqIdentity := A.pendingPqIdentity.insert env.fresh peer }, [.fetchIdentity env.fresh peer])
  else (A, [])

def onIdentifyPeer (A : SwarmActor) (env : Env) (peer : PeerId) (info : IdentifyInfo) : SwarmActor × List Effect :=
  let A := { A with peerProtocols := A.peerProtocols.insert peer info.protocols.toFinset }
  if !(strBytes agentName).isPrefixOf (strBytes info.agentVersion) then (A, [])
  else
    let A := { A with identifiedPeers := insert peer A.identifiedPeers }
    let added := if A.swarm.kademlia then info.listenAddrs.map (Effect.addAddress peer) else []
    let (A, effects) := A.maybeFetchPqIdentity env peer
    (A, added ++ effects)

/-- The reply to a request for this node's identity. -/
def identityReply (A : SwarmActor) (channel : Nat) : List Effect :=
  match A.pqKeys with
  | none => []
  | some keys =>
    match keys.identity C A.keypair with
    | .ok identity => if A.swarm.pqIdentity then [.respondIdentity channel identity] else []
    | .error _ => []

def handlePqIdentity (A : SwarmActor) : ReqEvent Unit PqIdentity → SwarmActor × List Effect
  | .request _ _ _ channel => (A, A.identityReply C channel)
  | .response id response =>
    match A.pendingPqIdentity.lookup id with
    | none => (A, [])
    | some expected =>
      let A := { A with pendingPqIdentity := A.pendingPqIdentity.erase id }
      match response.verify C expected with
      | .ok () => ({ A with pqIdentities := A.pqIdentities.insert expected response }, [])
      | .error _ => (A, [])
  | .outboundFailure _ id _ => ({ A with pendingPqIdentity := A.pendingPqIdentity.erase id }, [])
  | .inboundFailure => (A, [])
  | .responseSent => (A, [])

/-! ## Service requests -/

/-- A sealed response to a PQ request. -/
def respondPq (A : SwarmActor) (env : Env) (channel : Nat) (inbound : PqInbound) (response : Response) : List Effect :=
  match inbound.sealResponse C (encodeResponse response) (env.nonce channel) with
  | .ok sealedResponse => if A.swarm.serviceReqPq then [.respond channel response (some sealedResponse)] else []
  | .error _ => []

/-- The response to a pending request, on the protocol it came by. -/
def respondInbound (A : SwarmActor) (env : Env) (pending : PendingInbound) (response : Response) : List Effect :=
  match pending with
  | .plain channel => [.respond channel response none]
  | .pq channel inbound => A.respondPq C env channel inbound response

/-- A request is admitted: it waits in the table, and the controller and a waiting task hear of it. -/
def admitRequest (A : SwarmActor) (env : Env) (peer : PeerId) (connection : Nat) (pending : PendingInbound) (request : Request) :
    SwarmActor × List Effect :=
  ({ A with pendingInbound := A.pendingInbound.insert env.requestId ⟨connection, peer, pending⟩ },
    [.emit (.inboundServiceRequest peer env.requestId request.service request.payload), .awaitReply env.requestId])

def handleServiceReq (A : SwarmActor) (env : Env) : ReqEvent Request Response → SwarmActor × List Effect
  | .request peer connection request channel =>
    if env.config.crypto.pqRequired then (A, [.respond channel (failureResponse "PQ required") none])
    else A.admitRequest env peer connection (.plain channel) request
  | .response id response =>
    match A.pendingOutbound.lookup id with
    | none => (A, [])
    | some pending =>
      ({ A with pendingOutbound := A.pendingOutbound.erase id }, [.answer pending.resp (.response (.ok response))])
  | .outboundFailure peer id error =>
    match A.pendingOutbound.lookup id with
    | none => (A, [])
    | some pending =>
      let message := describeOutboundFailure false (env.display peer) serviceReqProtocol (some pending.wireLen) error
      ({ A with pendingOutbound := A.pendingOutbound.erase id },
        [.answer pending.resp (.response (.error (.request message)))])
  | .inboundFailure => (A, [])
  | .responseSent => (A, [])

/-- The request branch of `handle_service_req_pq`. -/
def handlePqRequest (A : SwarmActor) (env : Env) (peer : PeerId) (connection : Nat) (request : PqRequest)
    (channel : Nat) : SwarmActor × List Effect :=
  match A.pqKeys with
  | none => (A, [])
  | some keys =>
    match openRequest C keys peer request with
    | .error _ => (A, [])
    | .ok inbound =>
      if env.config.crypto.pqIdentityEnabled && request.identity.isNone then
        (A, A.respondPq C env channel inbound (failureResponse "PQ signature required"))
      else match decodeRequest inbound.plaintext with
      | none => (A, A.respondPq C env channel inbound (failureResponse "invalid PQ request payload"))
      | some req => A.admitRequest env peer connection (.pq channel inbound) req

/-- What the requester makes of a sealed response. -/
def openPqResponse (pending : PqOutboundPending) (response : PqResponse) : Except NetworkError Response :=
  match pending.out.openResponse C response with
  | .error e => .error (.request ("PQ 响应解密失败: " ++ e.text))
  | .ok bytes =>
    match decodeResponse bytes with
    | some resp => .ok resp
    | none => .error (.request "PQ 响应解码失败（响应可能被截断或超过 max_response_bytes）")

def handleServiceReqPq (A : SwarmActor) (env : Env) : ReqEvent PqRequest PqResponse → SwarmActor × List Effect
  | .request peer connection request channel => A.handlePqRequest C env peer connection request channel
  | .response id response =>
    match A.pendingOutboundPq.lookup id with
    | none => (A, [])
    | some pending =>
      ({ A with pendingOutboundPq := A.pendingOutboundPq.erase id },
        [.answer pending.resp (.response (openPqResponse C pending response))])
  | .outboundFailure peer id error =>
    match A.pendingOutboundPq.lookup id with
    | none => (A, [])
    | some pending =>
      let message := describeOutboundFailure true (env.display peer) serviceReqPqProtocol (some pending.wireLen) error
      ({ A with pendingOutboundPq := A.pendingOutboundPq.erase id },
        [.answer pending.resp (.response (.error (.request message)))])
  | .inboundFailure => (A, [])
  | .responseSent => (A, [])

end SwarmActor

inductive SendSecurity where
  | pq
  | plaintext
  | waitIdentity
  | missingKeys
  | missingTransport
  | unsupported
deriving DecidableEq

def sendSecurity (transport required keysAvailable identityAvailable : Bool) (supportsPq : Option Bool) : SendSecurity :=
  if required && !transport then .missingTransport
  else if required && !identityAvailable then
    match supportsPq with
    | some false => .unsupported
    | _ => .waitIdentity
  else if !transport then .plaintext
  else if !keysAvailable then .missingKeys
  else if identityAvailable then .pq
  else match supportsPq with
  | some false => .plaintext
  | _ => .waitIdentity

namespace SwarmActor

/-- The security of a request to a peer, by the tables and the configuration. -/
def securityFor (A : SwarmActor) (config : NodeConfig) (peer : PeerId) : SendSecurity :=
  sendSecurity config.crypto.pqTransportEnabled config.crypto.pqRequired A.pqKeys.isSome (decide (peer ∈ A.pqIdentities))
    ((A.peerProtocols.lookup peer).map (fun protocols => decide (serviceReqPqProtocol ∈ protocols)))

def refuse (A : SwarmActor) (resp : Nat) (error : NetworkError) : SwarmActor × List Effect :=
  (A, [.answer resp (.response (.error error))])

def sendSealed (A : SwarmActor) (env : Env) (peer : PeerId) (request : Request) (addresses : List Multiaddr) (resp : Nat)
    (recipient : PqIdentity) (keys : PqKeys) : SwarmActor × List Effect :=
  match sendPqRequest C W env.config keys recipient A.keypair env.draw request with
  | .error e => A.refuse resp e
  | .ok out =>
    if A.swarm.serviceReqPq then
      ({ A with pendingOutboundPq := A.pendingOutboundPq.insert env.fresh ⟨resp, out, W.pqRequest out.request⟩ },
        [.sendPq env.fresh peer out.request addresses])
    else A.refuse resp (.request "pq behaviour disabled")

def sendPlaintext (A : SwarmActor) (env : Env) (peer : PeerId) (request : Request) (addresses : List Multiaddr)
    (resp : Nat) : SwarmActor × List Effect :=
  let maxRequestBytes := env.config.dispatcher.maxRequestBytes
  if W.request request > maxRequestBytes then
    A.refuse resp (requestTooLargeError (W.request request) maxRequestBytes false)
  else
    ({ A with pendingOutbound := A.pendingOutbound.insert env.fresh ⟨resp, W.request request⟩ },
      [.sendPlain env.fresh peer request addresses])

/-- The `ServiceSendRequest` command. -/
def serviceSendRequest (A : SwarmActor) (env : Env) (peer : PeerId) (request : Request) (addresses : List Multiaddr)
    (resp : Nat) : SwarmActor × List Effect :=
  match A.securityFor env.config peer with
  | .pq =>
    match A.pqIdentities.lookup peer, A.pqKeys with
    | some recipient, some keys => A.sendSealed C W env peer request addresses resp recipient keys
    -- both are there when the decision is `pq`
    | _, _ => (A, [])
  | .plaintext => A.sendPlaintext W env peer request addresses resp
  | .waitIdentity =>
    let (A, effects) := A.maybeFetchPqIdentity env peer
    (A, effects ++ [.answer resp (.response (.error (.request "PQ identity not ready; retry after Identify")))])
  | .missingKeys => A.refuse resp (.request "PQ transport enabled but local PQ keys are unavailable")
  | .missingTransport => A.refuse resp (.request "PQ required but transport is disabled")
  | .unsupported => A.refuse resp (.request "PQ required but peer is not PQ-capable")

/-- The `ServiceSendResponse` command: only a request that is still pending is answered. -/
def serviceSendResponse (A : SwarmActor) (env : Env) (requestId : String) (response : Response) :
    SwarmActor × List Effect :=
  match A.pendingInbound.lookup requestId with
  | none => (A, [])
  | some entry =>
    ({ A with pendingInbound := A.pendingInbound.erase requestId }, A.respondInbound C env entry.pending response)

/-! ## Events and commands -/

/-- The `ConnectionClosed` event: the requests of the connection are forgotten, and with the last connection of a peer
what is known of its protocols and identity. -/
def connectionClosed (A : SwarmActor) (peer : PeerId) (connection numEstablished : Nat) : SwarmActor :=
  let A := { A with pendingInbound := Dict.retain A.pendingInbound (fun _ entry => entry.connection != connection) }
  if numEstablished = 0 then
    { A with
      peerProtocols := A.peerProtocols.erase peer
      pqIdentities := A.pqIdentities.erase peer
      pendingPqIdentity := Dict.retain A.pendingPqIdentity (fun _ pendingPeer => pendingPeer != peer) }
  else A

def handleEvent (A : SwarmActor) (env : Env) : SwarmEvent → SwarmActor × List Effect
  | .kademlia event => A.handleKadEvent C env event
  | .serviceReq event => A.handleServiceReq env event
  | .serviceReqPq event => A.handleServiceReqPq C env event
  | .pqIdentity event => A.handlePqIdentity C event
  | .ping => (A, [.emit .ping])
  | .identifyReceived peer info =>
    let (A, effects) := A.onIdentifyPeer env peer info
    (A, effects ++ [.emit .identify])
  | .identifyOther => (A, [.emit .identify])
  | .relay => (A, [.emit .relay])
  | .relayClient => (A, [.emit .relayClient])
  | .connectionEstablished _ _ => (A, [])
  | .connectionClosed peer connection numEstablished => (A.connectionClosed peer connection numEstablished, [])
  | .newListenAddr addr => (A, if isCircuit addr then [.emit (.relayCircuitReady addr)] else [])
  | .listenerClosed addresses => (A, [.emit (.listenerClosed addresses)])
  | .other => (A, [])

/-- `handle_command`, but for `Reload`. -/
def handleCommand (A : SwarmActor) (env : Env) : Command → SwarmActor × List Effect
  | .kadGetRecordAll key resp => A.kadGetRecordAll env key resp
  | .kadGetProviders key resp => A.kadGetProviders env key resp
  | .kadGetClosestPeers peer resp => A.kadGetClosestPeers env peer resp
  | .kadPutRecord key value resp => A.kadPutRecord env key value resp
  | .kadStartProviding key resp => A.kadStartProviding env key resp
  | .kadStopProviding key resp => A.kadLocal (.stopProviding key) resp
  | .kadRemoveRecord key resp => A.kadLocal (.removeRecord key) resp
  | .kadCacheRefresh resp => A.kadCacheRefresh env resp
  | .serviceSendRequest peer request addresses resp => A.serviceSendRequest C W env peer request addresses resp
  | .serviceSendResponse requestId response => A.serviceSendResponse C env requestId response
  | .listenOn addr resp =>
    (A, [.listenOn addr, .answer resp (.done (env.listenError.elim (.ok ()) (fun e => .error (.transport e))))])
  | .dial addr resp => (A, [.dial addr, .answer resp (.done (env.dialError.elim (.ok ()) (fun e => .error (.transport e))))])
  | .disconnectPeer peer => (A, [.disconnectPeer peer])
  | .reload _ => (A, [])

/-! ## Reload -/

/-- The start of a reload whose swarm was built: every pending inbound request is rejected. -/
def beginReload (A : SwarmActor) (env : Env) : SwarmActor × List Effect :=
  let drained := (env.requestIds.list A.pendingInbound.keys).filterMap A.pendingInbound.lookup
  ({ A with pendingInbound := ∅ },
    drained.flatMap (fun entry => A.respondInbound C env entry.pending reloadRejectionResponse))

/-- `reject_old_swarm_event`: requests that still come from the old swarm are answered, all else is dropped. -/
def rejectOldSwarmEvent (A : SwarmActor) (env : Env) : SwarmEvent → List Effect
  | .serviceReq (.request _ _ _ channel) => [.respond channel reloadRejectionResponse none]
  | .serviceReqPq (.request peer _ request channel) =>
    match A.pqKeys with
    | none => []
    | some keys =>
      match openRequest C keys peer request with
      | .error _ => []
      | .ok inbound => A.respondPq C env channel inbound reloadRejectionResponse
  | .pqIdentity (.request _ _ _ channel) => A.identityReply C channel
  | _ => []

/-- The failures of all pending commands. -/
def failPending (A : SwarmActor) (env : Env) : List Effect :=
  ((env.ids.list A.pendingKad.keys).filterMap A.pendingKad.lookup).map
      (fun p => Effect.answer p.resp (p.failure .reloaded)) ++
    ((env.ids.list A.pendingOutbound.keys).filterMap A.pendingOutbound.lookup).map
      (fun p => Effect.answer p.resp (.response (.error .reloaded))) ++
    ((env.ids.list A.pendingOutboundPq.keys).filterMap A.pendingOutboundPq.lookup).map
      (fun p => Effect.answer p.resp (.response (.error .reloaded)))

/-- The end of a reload: what was pending fails, the tables are cleared, the new swarm takes over. -/
def finishReload (A : SwarmActor) (env : Env) (swarm : Behaviours) : SwarmActor × List Effect :=
  ({ A with
      swarm := swarm, lastBootstrapNotice := none, identifiedPeers := bootstrapPeers env.bootstrapNodes
      peerProtocols := ∅, pqIdentities := ∅, pendingKad := ∅, pendingOutbound := ∅, pendingOutboundPq := ∅
      pendingPqIdentity := ∅ },
    A.failPending env ++ env.bootstrapNodes.map Effect.dial)

end SwarmActor

end Handlers

end Actor
end NexusNet
