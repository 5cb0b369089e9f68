import NexusNet.ActorInbound
import NexusNet.AuthGate
import NexusNet.Places
/-!
# Inbound — a request from the swarm to a backend and back

The actor hands an admitted request to the controller, which deals the requests out to four authentication workers; what
they allow goes on to the dispatcher.  With the request goes the sender of its reply channel, and a task of its own waits
at the other end: whatever it hears, also that the sender was dropped, it sends to the actor as a response command.  A
task that refuses a request sends a response command itself and drops the sender after.  All commands go through one
queue, and the actor answers a request at the first command that names it.
-/
namespace NexusNet
namespace Inbound

open Actor (World Input Command Effect Job Env SwarmEvent failureResponse reloadRejectionResponse)
open Pq (Crypto Wire PqKeys)

abbrev authWorkers : Nat := 4
def authQueueCapacity : Nat := 32
def dispatcherQueueCapacity : Nat := 256

inductive Task where
  | controller
  | worker (i : Fin authWorkers)
  | dispatcher
deriving DecidableEq

/-- Where a request can be, with the sender of its reply channel.  `held` are those a backend works on, `dropping` those
whose sender is about to be dropped. -/
inductive Place where
  | controller
  | queue (i : Fin authWorkers)
  | authorizing (i : Fin authWorkers)
  | forwarding (i : Fin authWorkers)
  | dispatcher
  | held
  | dropping
deriving DecidableEq

def Place.task : Place → Option Task
  | .controller => some .controller
  | .queue i | .authorizing i | .forwarding i => some (.worker i)
  | .dispatcher | .held => some .dispatcher
  | .dropping => none

/-- Why a request is refused on its way. -/
inductive Refusal where
  | overloaded
  | unavailable
  | denied (reason : String)
  | undeliverable
deriving DecidableEq

def Refusal.response : Refusal → Response
  | .overloaded => failureResponse "authentication overloaded"
  | .unavailable => failureResponse "authentication unavailable"
  | .denied reason => failureResponse ("unauthorized: " ++ reason)
  | .undeliverable => failureResponse "service unavailable: channel closed"

/-- A reply channel, seen from the waiting task. -/
inductive Oneshot where
  | waiting
  | sent (result : Except String Response)
  | dropped
  | done

/-- The response the waiting task makes of what it hears. -/
def Oneshot.response : Oneshot → Option Response
  | .sent (.ok response) => some response
  | .sent (.error e) => some (failureResponse e)
  | .dropped => some (failureResponse "request handler dropped")
  | .waiting | .done => none

/-- The tasks and their queues.  `channels`, `refused` and `forwarded` record the channel of every admitted request, the
refusals, and the requests that have been put on the dispatcher's queue; no step reads them. -/
structure System where
  world : World
  commands : List Command
  jobs : Places Place Job
  authNext : Nat
  ended : Finset Task
  replies : Dict String Oneshot
  channels : Dict String Nat
  refused : Dict String Refusal
  forwarded : Finset String

inductive Event where
  | swarm (env : Env) (event : SwarmEvent)
  | post (command : Command)
  | command (env : Env) (buildError : Option NetworkError)
  | reloadEnd (env : Env)
  | enqueueAuth
  | receive (i : Fin authWorkers)
  | authorized (i : Fin authWorkers) (decision : Auth.Decision)
  | forward (i : Fin authWorkers)
  | dispatch
  | reply (job : Job) (result : Except String Response)
  | abandon (job : Job)
  | ends (task : Task)
  | discard (place : Place)
  | drop
  | wake (requestId : String)

namespace System

variable (C : Crypto) (W : Wire)

def shift (s : System) (job : Job) (p q : Place) : System := { s with jobs := s.jobs.shift job p q }

/-- A refused request: the response command first, then the sender is dropped. -/
def refuse (s : System) (job : Job) (p : Place) (refusal : Refusal) : System :=
  { s with
    commands := s.commands ++ [.serviceSendResponse job.requestId refusal.response]
    jobs := s.jobs.shift job p .dropping
    refused := s.refused.insert job.requestId refusal }

/-- The reply channel hears something, and its sender is gone. -/
def finish (s : System) (job : Job) (p : Place) (reply : Oneshot) : System :=
  { s with jobs := s.jobs.remove job p, replies := s.replies.insert job.requestId reply }

/-- The input a step gives to the actor. -/
def actorInput (s : System) : Event → Option Input
  | .swarm env event => some (.event env event)
  | .command env buildError =>
    s.commands.head?.map (fun
      | .reload resp => .reload env resp buildError
      | command => .command env command)
  | .reloadEnd env => some (.reloadEnd env)
  | _ => none

/-- The channel of a request that comes with an input. -/
def inputChannel : Input → Option Nat
  | .event _ event => event.inbound.map Prod.snd
  | _ => none

/-- What the actor admits goes to the controller and to a waiting task. -/
def admitAll (s : System) (input : Input) (world : World) (effects : List Effect) : System :=
  { s with
    world := world
    jobs := (Actor.admitted effects).foldl (fun jobs job => jobs.add .controller job) s.jobs
    replies := (Actor.awaited effects).foldl (fun replies id => replies.insert id .waiting) s.replies
    channels := (Actor.admitted effects).foldl
      (fun channels job => (inputChannel input).elim channels (channels.insert job.requestId)) s.channels }

/-- The actor handles an input. -/
def actorStep (s : System) (input : Input) : Option System :=
  (s.world.next C W input).map (fun r => s.admitAll input r.1 r.2)

/-- The worker whose turn it is. -/
def authIndex (s : System) : Fin authWorkers := ⟨s.authNext % authWorkers, Nat.mod_lt _ (by decide)⟩

/-- `enqueue_auth`. -/
def enqueueAuth (s : System) (job : Job) : System :=
  let index := s.authIndex
  let s := { s with authNext := (s.authNext + 1) % 2 ^ 64 }
  if .worker index ∈ s.ended then s.refuse job .controller .unavailable
  else if (s.jobs (.queue index)).length < authQueueCapacity then s.shift job .controller (.queue index)
  else s.refuse job .controller .overloaded

/-- `auth_worker`, after `authorize` has returned. -/
def authorized (s : System) (i : Fin authWorkers) (job : Job) : Auth.Decision → System
  | .allow | .allowUnprotected => s.shift job (.authorizing i) (.forwarding i)
  | .deny reason => s.refuse job (.authorizing i) (.denied reason)

/-- `forward_auth_job`: the send waits for room. -/
def forwardAuthJob (s : System) (i : Fin authWorkers) (job : Job) : Option System :=
  if .dispatcher ∈ s.ended then some (s.refuse job (.forwarding i) .undeliverable)
  else if (s.jobs .dispatcher).length < dispatcherQueueCapacity then
    some { s.shift job (.forwarding i) .dispatcher with forwarded := insert job.requestId s.forwarded }
  else none

/-- The next request at a place, for a task that has not ended. -/
def next (s : System) (p : Place) : Option Job :=
  if p.task.any (fun task => decide (task ∈ s.ended)) then none else (s.jobs p).head?

def step (s : System) : Event → Option System
  | .swarm env event => s.actorStep C W (.event env event)
  | .post command =>
    match command with
    | .serviceSendResponse _ _ => none
    | command => some { s with commands := s.commands ++ [command] }
  | .command env buildError =>
    (s.actorInput (.command env buildError)).bind (fun input =>
      { s with commands := s.commands.tail }.actorStep C W input)
  | .reloadEnd env => s.actorStep C W (.reloadEnd env)
  | .enqueueAuth => (s.next .controller).map s.enqueueAuth
  | .receive i =>
    if s.jobs (.authorizing i) = [] ∧ s.jobs (.forwarding i) = [] then
      (s.next (.queue i)).map (fun job => s.shift job (.queue i) (.authorizing i))
    else none
  | .authorized i decision => (s.next (.authorizing i)).map (fun job => s.authorized i job decision)
  | .forward i => (s.next (.forwarding i)).bind (s.forwardAuthJob i)
  | .dispatch => (s.next .dispatcher).map (fun job => s.shift job .dispatcher .held)
  | .reply job result => if job ∈ s.jobs .held then some (s.finish job .held (.sent result)) else none
  | .abandon job => if job ∈ s.jobs .held then some (s.shift job .held .dropping) else none
  | .ends task => some { s with ended := insert task s.ended }
  | .discard p =>
    if p.task.any (fun task => decide (task ∈ s.ended)) then
      (s.jobs p).head?.map (fun job => s.shift job p .dropping)
    else none
  | .drop => (s.jobs .dropping).head?.map (fun job => s.finish job .dropping .dropped)
  | .wake requestId =>
    ((s.replies.lookup requestId).bind Oneshot.response).map (fun response =>
      { s with
        commands := s.commands ++ [.serviceSendResponse requestId response]
        replies := s.replies.insert requestId .done })

/-- What a step answers on inbound channels. -/
def answers (s : System) (e : Event) : List (Nat × Option Response) :=
  (s.actorInput e).elim [] (fun input => Actor.responses (s.world.effects C W input))

def new (config : NodeConfig) (nodes : List Multiaddr) (keypair : Bytes) (keys : Option PqKeys) : System :=
  ⟨.new config nodes keypair keys, [], fun _ => [], 0, ∅, ∅, ∅, ∅, ∅⟩

end System

/-- A node that starts with the given configuration and keys. -/
def inbound (C : Crypto) (W : Wire) (config : NodeConfig) (nodes : List Multiaddr) (keypair : Bytes)
    (keys : Option PqKeys) : Machine System Event :=
  ⟨.new config nodes keypair keys, System.step C W⟩

end Inbound
end NexusNet
