import NexusNet.Collections
import NexusNet.Pq
/-!
# Command — the service requests of control commands

`request_service` and `send_request_resolved` of `command.rs`, and the two control commands that end in them.  Each is a
function of what its lookups and sends come to (`Answers`), and returns besides its result the lookups, sends and cache
invalidations it made, in order.
-/
namespace NexusNet
namespace Command

/-- A peer id, as it is displayed. -/
abbrev PeerId := String

/-- **How a send ended.**  `arrived` is whether the remote node had the request all the same, which nobody here sees.
`rejected` is a rejection before anything was sent; `unopened` is a PQ response that could not be decrypted or decoded;
`reloaded` and `dropped` end a send whose request may be on its way. -/
inductive SendOutcome where
  | response (resp : Response)
  | rejected (error : NetworkError)
  | failed (pq : Bool) (wireLen : Nat) (failure : OutboundFailure) (arrived : Bool)
  | unopened (error : Option Pq.PqError)
  | reloaded (arrived : Bool)
  | dropped (arrived : Bool)
deriving DecidableEq

/-- What `send_request_with_addresses` returns. -/
def SendOutcome.result (peer : PeerId) : SendOutcome → Except NetworkError Response
  | .response resp => .ok resp
  | .rejected e => .error e
  | .failed pq wireLen failure _ => .error (.request (describeOutboundFailure pq peer
      (if pq then serviceReqPqProtocol else serviceReqProtocol) (some wireLen) failure))
  | .unopened none => .error (.request "PQ 响应解码失败（响应可能被截断或超过 max_response_bytes）")
  | .unopened (some e) => .error (.request ("PQ 响应解密失败: " ++ e.text))
  | .reloaded _ => .error .reloaded
  | .dropped _ => .error .actorGone

/-- The outcome rules out that the request was delivered: a local rejection, a failed dial, or a peer without the
protocol. -/
def SendOutcome.ruledOut : SendOutcome → Bool
  | .rejected _ => true
  | .failed _ _ .dialFailure _ => true
  | .failed _ _ .unsupportedProtocols _ => true
  | _ => false

def SendOutcome.delivered : SendOutcome → Bool
  | .response _ => true
  | .unopened _ => true
  | .failed _ _ .dialFailure _ => false
  | .failed _ _ .unsupportedProtocols _ => false
  | .failed _ _ _ arrived => arrived
  | .reloaded arrived => arrived
  | .dropped arrived => arrived
  | .rejected _ => false

/-- What a command does, each lookup with what it yields to the command. -/
inductive Action where
  | providers (key : String) (candidates : List PeerId)
  | closest (peer : PeerId) (addresses : List String)
  | send (peer : PeerId) (addresses : List String) (request : Request) (outcome : SendOutcome)
  | invalidate (key : String)
deriving DecidableEq

/-! ## The lookups -/

structure PeerInfo where
  peerId : PeerId
  addrs : List String
deriving DecidableEq

def providerAddresses (peers : List PeerInfo) (peer : PeerId) : List String :=
  match peers.find? (fun info => info.peerId == peer) with
  | some info => info.addrs
  | none => []

/-- `PeerTracker`: the round-trip times. -/
structure PeerTracker where
  rtts : Dict PeerId Nat

/-- `min_by_key` by the round-trip time: the first of the least. -/
def minByRtt : List (PeerId × Nat) → Option (PeerId × Nat)
  | [] => none
  | x :: rest =>
    match minByRtt rest with
    | none => some x
    | some y => if x.2 ≤ y.2 then some x else some y

def PeerTracker.bestPeer (tracker : PeerTracker) (providers : List PeerId) : Option PeerId :=
  (minByRtt (providers.filterMap (fun p => (tracker.rtts.lookup p).map (fun rtt => (p, rtt))))).map Prod.fst

/-- What the node brings to a command; `lossy` is `String::from_utf8_lossy`. -/
structure Node where
  myPeerId : PeerId
  peers : PeerTracker
  parsePeer : String → Except String PeerId
  lossy : Bytes → String

/-- What one `send_request_resolved` meets: the first send, the closest peers, the second send. -/
structure SendAnswers where
  direct : SendOutcome
  closest : Except NetworkError (List PeerInfo)
  resolved : SendOutcome

/-- What one attempt of `request_service` meets: the read of the provider cache, then the sends. -/
structure AttemptAnswers where
  providers : Except String (Option (List PeerId))
  sends : SendAnswers

/-- What a command meets, in its two attempts. -/
structure Answers where
  first : AttemptAnswers
  second : AttemptAnswers

/-! ## Requests -/

def responsePayload (node : Node) (resp : Response) : Except String Bytes :=
  if resp.success then .ok resp.data
  else if resp.data.isEmpty then .error "remote service failed"
  else .error (node.lossy resp.data)

/-- The addresses that `send_request_resolved` finds. -/
def SendAnswers.addresses (a : SendAnswers) (peer : PeerId) : List String :=
  match a.closest with
  | .ok peers => providerAddresses peers peer
  | .error _ => []

/-- `send_request_resolved`: after any error of the first send the addresses are looked up, and the request is sent
again. -/
def sendRequestResolved (a : SendAnswers) (peer : PeerId) (request : Request) : List Action × Except String Response :=
  match a.direct.result peer with
  | .ok response => ([.send peer [] request a.direct], .ok response)
  | .error first =>
    let addrs := a.addresses peer
    if addrs.isEmpty then ([.send peer [] request a.direct, .closest peer addrs], .error first.text)
    else
      ([.send peer [] request a.direct, .closest peer addrs, .send peer addrs request a.resolved],
        (a.resolved.result peer).mapError NetworkError.text)

/-- The loop of `request_service`, from the given attempt on. -/
def requestLoop (node : Node) (key : String) (request : Request) :
    Nat → List AttemptAnswers → Option String → List Action × Except String Bytes
  | _, [], lastError => ([], .error (lastError.getD "service request failed"))
  | attempt, a :: rest, _ =>
    match a.providers with
    | .error error =>
      if attempt = 0 then
        let (trace, result) := requestLoop node key request (attempt + 1) rest (some error)
        (.providers key [] :: .invalidate key :: trace, result)
      else ([.providers key [], .invalidate key], .error error)
    | .ok found =>
      match (found.getD []).filter (fun peer => peer != node.myPeerId) with
      | [] => ([.providers key []], .error "No remote provider found")
      | c :: cs =>
        let best := (node.peers.bestPeer (c :: cs)).getD c
        match sendRequestResolved a.sends best request with
        | (sends, .ok response) => (.providers key (c :: cs) :: sends, responsePayload node response)
        | (sends, .error error) =>
          let (trace, result) := requestLoop node key request (attempt + 1) rest (some error)
          (.providers key (c :: cs) :: sends ++ (if attempt = 0 then [.invalidate key] else []) ++ trace, result)

def requestService (node : Node) (answers : Answers) (key service : String) (payload : Bytes) :
    List Action × Except String Bytes :=
  requestLoop node key ⟨service, payload⟩ 0 [answers.first, answers.second] none

/-- The control messages that send service requests. -/
inductive Message where
  | serviceRequest (service : String) (payload : Bytes)
  | serviceRequestTo (service peer : String) (payload : Bytes)
deriving DecidableEq

/-- `run_dht_command` on these messages. -/
def runDhtCommand (node : Node) (answers : Answers) : Message → List Action × Except String Bytes
  | .serviceRequest service payload => requestService node answers ("/oahd/service/" ++ service) service payload
  | .serviceRequestTo service peer payload =>
    match node.parsePeer peer with
    | .error e => ([], .error ("invalid peer id: " ++ e))
    | .ok peerId =>
      match sendRequestResolved answers.first.sends peerId ⟨service, payload⟩ with
      | (trace, .error e) => (trace, .error e)
      | (trace, .ok response) => (trace, responsePayload node response)

end Command
end NexusNet
