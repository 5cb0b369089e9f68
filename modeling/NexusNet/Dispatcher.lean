import NexusNet.Backend
import NexusNet.Machine
/-!
# Dispatcher — the router between the controller and the backends

`ServiceDispatcher` takes the events of the backend tasks one by one.  A control message goes to a local backend, to the
controller, or is rejected; the reply goes back through the queue of the backend it came from.  Where the outcome is
awaited a task of its own waits for it, and then for room in that queue; where the router replies itself it does not
wait, and a full queue loses the reply.
-/
namespace NexusNet
namespace Dispatcher

open Sidecar (Message Uuid SidecarError)
open Backend (BackendCmd BackendEvent InboundRequest)

def backendQueueCapacity : Nat := 64
def eventQueueCapacity : Nat := 64
def controllerQueueCapacity : Nat := 128

/-- The node's peer id, how a peer id is read from text, and how text is made of bytes. -/
structure Host where
  myPeerId : PeerId
  parsePeer : String → Option PeerId
  lossyText : Bytes → String

inductive LocalRoute where
  | toLocal (service : String)
  | reject (reason : String)
  | remote
deriving DecidableEq

/-- `route_local`. -/
def routeLocal (H : Host) (ready : Finset String) : Message → LocalRoute
  | .serviceRequest _ service _ => if service ∈ ready then .toLocal service else .remote
  | .serviceRequestTo _ service peer _ =>
    if H.parsePeer peer = some H.myPeerId then
      if service ∈ ready then .toLocal service else .reject ("local service " ++ service ++ " is not ready")
    else .remote
  | _ => .remote

def localPayload : Message → Bytes
  | .serviceRequest _ _ payload | .serviceRequestTo _ _ _ payload => payload
  | _ => []

/-- What a task hears of the channel it awaits, under a timeout. -/
inductive Awaited (α : Type) where
  | result (result : Except String α)
  | closed
  | timeout

def failure (id : Uuid) (code message : String) : Message := .reply id false none (some ⟨code, message⟩)

/-- The reply to a command of the controller. -/
def commandReply (id : Uuid) : Awaited Bytes → Message
  | .result (.ok result) => .reply id true (some result) none
  | .result (.error e) => failure id "command_failed" e
  | .closed => failure id "node_gone" "command channel closed"
  | .timeout => failure id "timeout" "command execution timeout"

/-- The reply to a request of a local backend. -/
def localReply (H : Host) (id : Uuid) : Awaited Response → Message
  | .result (.ok response) =>
    if response.success then .reply id true (some response.data) none
    else
      let message := H.lossyText response.data
      failure id "service_failed" (if message = "" then "local service failed" else message)
  | .result (.error e) => failure id "backend_error" e
  | .closed => failure id "backend_error" "backend response channel closed"
  | .timeout => failure id "timeout" "local service request timeout"

/-- Where a spawned task is. -/
inductive Stage where
  | start (target : String) (payload : Bytes)
  | response
  | command
  | sending (reply : Message)

structure ReplyTask where
  origin : String
  id : Uuid
  stage : Stage

/-- The router with the queues around it.  `received` and `enqueued` record the control messages with an id that backends
have sent, and what was put on the queues of the backends; no step reads them. -/
structure Router where
  backends : Finset String
  queue : String → List BackendCmd
  closed : Finset String
  ready : Finset String
  events : List BackendEvent
  blocked : Option (String × Uuid × Message)
  controller : List Message
  controllerGone : Bool
  tasks : List ReplyTask
  received : List (String × Uuid)
  enqueued : List (String × BackendCmd)

inductive Event where
  | inbound (req : InboundRequest)
  | post (event : BackendEvent)
  | take
  | resume
  | start (i : Nat) (responseTx : Nat)
  | responded (i : Nat) (outcome : Awaited Response)
  | commanded (i : Nat) (outcome : Awaited Bytes)
  | send (i : Nat)
  | drain (service : String)
  | serve
  | controllerEnds
  | closes (service : String)

/-- The message and the backend a reply will be owed to. -/
def eventKey : BackendEvent → Option (String × Uuid)
  | .control service msg => msg.id.map (fun id => (service, id))
  | .status _ _ => none

/-- What a backend task sends to the router: replies it matches itself. -/
def isRelayed : BackendEvent → Bool
  | .control _ (.reply _ _ _ _) => false
  | _ => true

def eventService : BackendEvent → String
  | .status service _ | .control service _ => service

namespace Router

variable (H : Host)

def push (D : Router) (service : String) (cmd : BackendCmd) : Router :=
  { D with queue := Function.update D.queue service (D.queue service ++ [cmd]), enqueued := (service, cmd) :: D.enqueued }

def isFull (D : Router) (service : String) : Bool := backendQueueCapacity ≤ (D.queue service).length

/-- `try_send` of a reply; its result is dropped. -/
def tryReply (D : Router) (service : String) (msg : Message) : Router :=
  if service ∈ D.closed ∨ D.isFull service then D else D.push service (.writeReply msg)

def spawn (D : Router) (task : ReplyTask) : Router := { D with tasks := D.tasks ++ [task] }

/-- The send to the controller, which waits for room. -/
def forwardCommand (D : Router) (service : String) (id : Uuid) (msg : Message) : Router :=
  if D.controllerGone then D.tryReply service (failure id "node_gone" "node unavailable")
  else if D.controller.length < controllerQueueCapacity then
    { D with controller := D.controller ++ [msg] }.spawn ⟨service, id, .command⟩
  else { D with blocked := some (service, id, msg) }

/-- `forward_local`, up to the task it spawns. -/
def forwardLocal (D : Router) (origin target : String) (id : Uuid) (payload : Bytes) : Router :=
  if origin ∉ D.backends then D
  else if target ∉ D.backends then D.tryReply origin (failure id "no_backend" ("no backend for service " ++ target))
  else D.spawn ⟨origin, id, .start target payload⟩

/-- `forward_control`. -/
def forwardControl (D : Router) (service : String) (msg : Message) : Router :=
  match msg.id with
  | none => D
  | some id =>
    if service ∉ D.backends then D
    else match routeLocal H D.ready msg with
    | .toLocal target => D.forwardLocal service target id (localPayload msg)
    | .reject reason => D.tryReply service (failure id "backend_not_ready" reason)
    | .remote => D.forwardCommand service id msg

/-- The router takes an inbound request; the second part is what it answers at once. -/
def forwardInbound (D : Router) (req : InboundRequest) : Router × List (Nat × Except String Response) :=
  if req.service ∉ D.backends then (D, [(req.responseTx, .error ("No backend for service " ++ req.service))])
  else if req.service ∈ D.closed then (D, [(req.responseTx, .error ("No backend for service " ++ req.service))])
  else if D.isFull req.service then (D, [(req.responseTx, .error ("backend overloaded " ++ req.service))])
  else (D.push req.service (.request req), [])

def onEvent (D : Router) : BackendEvent → Router
  | .status service ready => { D with ready := if ready then insert service D.ready else D.ready.erase service }
  | .control service msg => D.forwardControl H service msg

/-- Task `i` goes on to a stage. -/
def setStage (D : Router) (i : Nat) (task : ReplyTask) (stage : Stage) : Router :=
  { D with tasks := D.tasks.set i ⟨task.origin, task.id, stage⟩ }

/-- A spawned task asks the local backend. -/
def startLocal (D : Router) (i : Nat) (task : ReplyTask) (target : String) (payload : Bytes) (tx : Nat) : Router :=
  if target ∈ D.closed then
    D.setStage i task (.sending (failure task.id "backend_busy" "backend unavailable"))
  else if D.isFull target then
    D.setStage i task (.sending (failure task.id "backend_busy" "backend queue full"))
  else (D.push target (.request ⟨target, payload, tx⟩)).setStage i task .response

def step (D : Router) : Event → Option Router
  | .inbound req => if D.blocked = none then some (D.forwardInbound req).1 else none
  | .post event =>
    if isRelayed event ∧ eventService event ∈ D.backends ∧ eventService event ∉ D.closed ∧
        D.events.length < eventQueueCapacity then
      some { D with events := D.events ++ [event], received := (eventKey event).toList ++ D.received }
    else none
  | .take =>
    match D.blocked, D.events with
    | none, event :: rest => some ({ D with events := rest }.onEvent H event)
    | _, _ => none
  | .resume =>
    match D.blocked with
    | some (service, id, msg) =>
      if D.controllerGone ∨ D.controller.length < controllerQueueCapacity then
        some ({ D with blocked := none }.forwardCommand service id msg)
      else none
    | none => none
  | .start i tx =>
    D.tasks[i]?.bind (fun task => match task.stage with
      | .start target payload => some (D.startLocal i task target payload tx)
      | _ => none)
  | .responded i outcome =>
    D.tasks[i]?.bind (fun task => match task.stage with
      | .response => some (D.setStage i task (.sending (localReply H task.id outcome)))
      | _ => none)
  | .commanded i outcome =>
    D.tasks[i]?.bind (fun task => match task.stage with
      | .command => some (D.setStage i task (.sending (commandReply task.id outcome)))
      | _ => none)
  | .send i =>
    D.tasks[i]?.bind (fun task => match task.stage with
      | .sending msg =>
        if task.origin ∈ D.closed then some { D with tasks := D.tasks.eraseIdx i }
        else if D.isFull task.origin then none
        else some ({ D with tasks := D.tasks.eraseIdx i }.push task.origin (.writeReply msg))
      | _ => none)
  | .drain service =>
    if service ∈ D.backends ∧ service ∉ D.closed ∧ D.queue service ≠ [] then
      some { D with queue := Function.update D.queue service (D.queue service).tail }
    else none
  | .serve => if D.controller = [] then none else some { D with controller := D.controller.tail }
  | .controllerEnds => some { D with controllerGone := true, controller := [] }
  | .closes service => some { D with closed := insert service D.closed }

def new (backends : Finset String) : Router := ⟨backends, fun _ => [], ∅, ∅, [], none, [], false, [], [], []⟩

end Router

/-- The router of a node with the given backends. -/
def dispatcher (H : Host) (backends : Finset String) : Machine Router Event := ⟨.new backends, Router.step H⟩

end Dispatcher
end NexusNet
