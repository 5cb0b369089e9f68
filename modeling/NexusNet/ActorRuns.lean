import NexusNet.Machine
import NexusNet.Actor
/-!
# ActorRuns — runs of the swarm actor

The actor handles one input after another: events of the swarm, commands, and the two ends of a reload, between which
the old swarm's events are drained.  `World` is the actor with what its partners keep to: libp2p gives every query,
request and channel a new id, reports results of a query's own kind, and delivers requests on open connections only; every
command has a reply channel of its own.  The ids of queries and requests start again with a new swarm.
-/
namespace NexusNet
namespace Actor

open Pq (Crypto Wire PqKeys PqIdentity)

/-- The behaviours that number their requests. -/
inductive Behaviour where
  | kademlia
  | serviceReq
  | serviceReqPq
  | pqIdentity
deriving DecidableEq

/-- The kinds of queries whose results the actor waits for. -/
inductive Kind where
  | getRecord
  | getProviders
  | getClosestPeers
  | putRecord
  | startProviding
deriving DecidableEq

def Query.kind : Query → Kind
  | .getRecord _ => .getRecord
  | .getProviders _ => .getProviders
  | .getClosestPeers _ => .getClosestPeers
  | .putRecord _ _ => .putRecord
  | .startProviding _ => .startProviding

def QueryResult.kind : QueryResult → Option Kind
  | .getRecord _ => some .getRecord
  | .getProviders _ => some .getProviders
  | .getClosestPeers _ => some .getClosestPeers
  | .putRecord _ => some .putRecord
  | .startProviding _ => some .startProviding
  | .bootstrap _ | .other => none

/-- The result ends its query; a record and a batch of providers do not. -/
def QueryResult.isTerminal : QueryResult → Bool
  | .getRecord (.foundRecord _) => false
  | .getProviders (.foundProviders _) => false
  | _ => true

/-- The request an effect starts. -/
def Effect.started : Effect → Option (Behaviour × Nat)
  | .query id _ => some (.kademlia, id)
  | .sendPlain id _ _ _ => some (.serviceReq, id)
  | .sendPq id _ _ _ => some (.serviceReqPq, id)
  | .fetchIdentity id _ => some (.pqIdentity, id)
  | _ => none

def Effect.awaited : Effect → Option String
  | .awaitReply requestId => some requestId
  | _ => none

/-- The reply channel of a command. -/
def Command.resp : Command → Option Nat
  | .kadGetRecordAll _ resp | .kadGetProviders _ resp | .kadGetClosestPeers _ resp | .kadPutRecord _ _ resp
  | .kadStartProviding _ resp | .kadStopProviding _ resp | .kadRemoveRecord _ resp | .kadCacheRefresh resp
  | .serviceSendRequest _ _ _ resp | .listenOn _ resp | .dial _ resp | .reload resp => some resp
  | .serviceSendResponse _ _ | .disconnectPeer _ => none

/-- The connection and the channel of an inbound request, on any protocol. -/
def SwarmEvent.inbound : SwarmEvent → Option (Nat × Nat)
  | .serviceReq (.request _ connection _ channel) | .serviceReqPq (.request _ connection _ channel)
  | .pqIdentity (.request _ connection _ channel) => some (connection, channel)
  | _ => none

/-- Where the actor is: in its loop, or in a reload, with the reply channel of the command and the swarm it has built. -/
inductive Phase where
  | running
  | reloading (resp : Nat) (swarm : Behaviours)
deriving DecidableEq

/-- What the actor is given. -/
inductive Input where
  | event (env : Env) (event : SwarmEvent)
  | command (env : Env) (command : Command)
  | reload (env : Env) (resp : Nat) (buildError : Option NetworkError)
  | reloadEnd (env : Env)

def Input.isReloadEnd : Input → Bool
  | .reloadEnd _ => true
  | _ => false

structure World where
  actor : SwarmActor
  phase : Phase
  issued : Finset (Behaviour × Nat)
  queries : Dict Nat Kind
  connections : Finset Nat
  established : Finset Nat
  channels : Finset Nat
  requestIds : Finset String
  resps : Finset Nat

namespace World

variable (C : Crypto) (W : Wire)

/-- What libp2p and the callers keep to. -/
def accepts (w : World) : Input → Bool
  | .event _ (.kademlia (.outboundQueryProgressed id result)) =>
    (w.queries.lookup id).all (fun kind => decide (result.kind = some kind))
  | .event _ (.connectionEstablished _ connection) => decide (connection ∉ w.established)
  | .event _ (.connectionClosed _ connection _) => decide (connection ∈ w.connections)
  | .event _ event => event.inbound.all (fun p => decide (p.1 ∈ w.connections ∧ p.2 ∉ w.channels))
  | .command _ command => command.resp.all (fun resp => decide (resp ∉ w.resps))
  | .reload _ resp _ => decide (resp ∉ w.resps)
  | .reloadEnd _ => true

/-- The handler of an input: the actor after it, its effects, and the phase after it. -/
def handle (w : World) : Input → Option (SwarmActor × List Effect × Phase)
  | .event env event =>
    match w.phase with
    | .running =>
      let r := w.actor.handleEvent C env event
      some (r.1, r.2, .running)
    | .reloading _ _ => some (w.actor, w.actor.rejectOldSwarmEvent C env event, w.phase)
  | .command env command =>
    match w.phase, command with
    | .running, .reload _ => none
    | .running, command =>
      let r := w.actor.handleCommand C W env command
      some (r.1, r.2, .running)
    | .reloading _ _, _ => none
  | .reload env resp buildError =>
    match w.phase, buildError with
    | .running, some e => some (w.actor, [.answer resp (.done (.error e))], .running)
    | .running, none =>
      let r := w.actor.beginReload C env
      some (r.1, r.2, .reloading resp (.build env.config))
    | .reloading _ _, _ => none
  | .reloadEnd env =>
    match w.phase with
    | .running => none
    | .reloading resp swarm =>
      let r := w.actor.finishReload env swarm
      some (r.1, r.2 ++ [.answer resp (.done (.ok ()))], .running)

/-- The ids of the requests that are started, and those of the admitted requests, are new. -/
def isFresh (w : World) (effects : List Effect) : Bool :=
  effects.all (fun effect => effect.started.all (fun id => decide (id ∉ w.issued)) &&
    effect.awaited.all (fun id => decide (id ∉ w.requestIds)))

/-- The queries that run after an input. -/
def queriesAfter (w : World) (effects : List Effect) : Input → Dict Nat Kind
  | .event _ (.kademlia (.outboundQueryProgressed id result)) =>
    if result.isTerminal then w.queries.erase id else w.queries
  | .reloadEnd _ => ∅
  | _ => effects.foldl (fun queries effect => match effect with
      | .query id query => queries.insert id query.kind
      | _ => queries) w.queries

def connectionsAfter (w : World) : Input → Finset Nat
  | .event _ (.connectionEstablished _ connection) => insert connection w.connections
  | .event _ (.connectionClosed _ connection _) => w.connections.erase connection
  | .reloadEnd _ => ∅
  | _ => w.connections

def establishedAfter (w : World) : Input → Finset Nat
  | .event _ (.connectionEstablished _ connection) => insert connection w.established
  | _ => w.established

def channelsAfter (w : World) : Input → Finset Nat
  | .event _ event => event.inbound.elim w.channels (fun p => insert p.2 w.channels)
  | _ => w.channels

def respsAfter (w : World) : Input → Finset Nat
  | .command _ command => command.resp.elim w.resps (fun resp => insert resp w.resps)
  | .reload _ resp _ => insert resp w.resps
  | _ => w.resps

def issuedAfter (w : World) (effects : List Effect) : Input → Finset (Behaviour × Nat)
  | .reloadEnd _ => ∅
  | _ => w.issued ∪ (effects.filterMap Effect.started).toFinset

/-- **One input**: the world after it and what the actor did; `none` if the input does not come here. -/
def next (w : World) (input : Input) : Option (World × List Effect) :=
  if w.accepts input then
    (w.handle C W input).bind (fun (actor, effects, phase) =>
      if w.isFresh effects then
        some ({
          actor := actor
          phase := phase
          issued := w.issuedAfter effects input
          queries := w.queriesAfter effects input
          connections := w.connectionsAfter input
          established := w.establishedAfter input
          channels := w.channelsAfter input
          requestIds := w.requestIds ∪ (effects.filterMap Effect.awaited).toFinset
          resps := w.respsAfter input }, effects)
      else none)
  else none

/-- What the actor does at an input. -/
def effects (w : World) (input : Input) : List Effect := ((w.next C W input).map Prod.snd).getD []

/-- The actor as `spawn` starts it. -/
def new (config : NodeConfig) (bootstrapNodes : List Multiaddr) (keypair : Bytes) (pqKeys : Option PqKeys) : World :=
  ⟨.new config bootstrapNodes keypair pqKeys, .running, ∅, ∅, ∅, ∅, ∅, ∅, ∅⟩

end World

/-- The actor of a node that starts with the given configuration and keys. -/
def swarmActor (C : Crypto) (W : Wire) (config : NodeConfig) (bootstrapNodes : List Multiaddr) (keypair : Bytes)
    (pqKeys : Option PqKeys) : Machine World Input :=
  ⟨.new config bootstrapNodes keypair pqKeys, fun w input => (w.next C W input).map Prod.fst⟩

/-! ## What a step does -/

/-- **One step of a run**, its parts. -/
structure Stepped (C : Crypto) (W : Wire) (w : World) (input : Input) (w' : World) (effects : List Effect) : Prop where
  accepts : w.accepts input = true
  handled : w.handle C W input = some (w'.actor, effects, w'.phase)
  fresh : ∀ effect ∈ effects, (∀ id, effect.started = some id → id ∉ w.issued) ∧
    ∀ id, effect.awaited = some id → id ∉ w.requestIds
  issued : w'.issued = w.issuedAfter effects input
  queries : w'.queries = w.queriesAfter effects input
  connections : w'.connections = w.connectionsAfter input
  established : w'.established = w.establishedAfter input
  channels : w'.channels = w.channelsAfter input
  requestIds : w'.requestIds = w.requestIds ∪ (effects.filterMap Effect.awaited).toFinset
  resps : w'.resps = w.respsAfter input

/-- **The handlers of the inputs**, each with the phase it belongs to. -/
inductive Handled (C : Crypto) (W : Wire) (w : World) : Input → SwarmActor → List Effect → Phase → Prop where
  | event (env : Env) (event : SwarmEvent) (running : w.phase = .running) :
      Handled C W w (.event env event) (w.actor.handleEvent C env event).1 (w.actor.handleEvent C env event).2 .running
  | oldEvent (env : Env) (event : SwarmEvent) (resp : Nat) (swarm : Behaviours)
      (reloading : w.phase = .reloading resp swarm) :
      Handled C W w (.event env event) w.actor (w.actor.rejectOldSwarmEvent C env event) (.reloading resp swarm)
  | command (env : Env) (command : Command) (running : w.phase = .running) (other : ∀ resp, command ≠ .reload resp) :
      Handled C W w (.command env command) (w.actor.handleCommand C W env command).1
        (w.actor.handleCommand C W env command).2 .running
  | buildFailed (env : Env) (resp : Nat) (error : NetworkError) (running : w.phase = .running) :
      Handled C W w (.reload env resp (some error)) w.actor [.answer resp (.done (.error error))] .running
  | reloadBegins (env : Env) (resp : Nat) (running : w.phase = .running) :
      Handled C W w (.reload env resp none) (w.actor.beginReload C env).1 (w.actor.beginReload C env).2
        (.reloading resp (.build env.config))
  | reloadEnds (env : Env) (resp : Nat) (swarm : Behaviours) (reloading : w.phase = .reloading resp swarm) :
      Handled C W w (.reloadEnd env) (w.actor.finishReload env swarm).1
        ((w.actor.finishReload env swarm).2 ++ [.answer resp (.done (.ok ()))]) .running

theorem handled_of_handle {C : Crypto} {W : Wire} {w : World} {input : Input} {actor : SwarmActor}
    {effects : List Effect} {phase : Phase} (h : w.handle C W input = some (actor, effects, phase)) :
    Handled C W w input actor effects phase := by
  cases input with
  | event env event =>
    simp only [World.handle] at h
    split at h
    · rename_i hrunning
      cases h
      exact .event env event hrunning
    · rename_i resp swarm hreloading
      cases h
      rw [hreloading]
      exact .oldEvent env event resp swarm hreloading
  | command env command =>
    simp only [World.handle] at h
    split at h
    · cases h
    · rename_i hrunning hother
      cases h
      exact .command env _ hrunning hother
    · cases h
  | reload env resp buildError =>
    simp only [World.handle] at h
    split at h
    · rename_i e hrunning
      cases h
      exact .buildFailed env resp e hrunning
    · rename_i hrunning
      cases h
      exact .reloadBegins env resp hrunning
    · cases h
  | reloadEnd env =>
    simp only [World.handle] at h
    split at h
    · cases h
    · rename_i resp swarm hreloading
      cases h
      exact .reloadEnds env resp swarm hreloading

section Steps

variable {C : Crypto} {W : Wire} {w w' : World} {input : Input}

theorem Stepped.handledAs {effects : List Effect} (h : Stepped C W w input w' effects) :
    Handled C W w input w'.actor effects w'.phase := handled_of_handle h.handled

theorem stepped_of_next {effects : List Effect} (h : w.next C W input = some (w', effects)) :
    Stepped C W w input w' effects := by
  unfold World.next at h
  split at h
  · rename_i haccepts
    obtain ⟨⟨actor, fx, phase⟩, hhandle, h⟩ := Option.bind_eq_some_iff.1 h
    simp only at h
    split at h
    · rename_i hfresh
      cases h
      refine ⟨haccepts, hhandle, fun effect hmem => ?_, rfl, rfl, rfl, rfl, rfl, rfl, rfl⟩
      have := List.all_eq_true.1 hfresh effect hmem
      simp only [Bool.and_eq_true, Option.all_eq_true, decide_eq_true_eq] at this
      exact this
    · cases h
  · cases h

theorem Stepped.issued_mono {effects : List Effect} (h : Stepped C W w input w' effects)
    (hend : input.isReloadEnd = false) {id : Behaviour × Nat} (hid : id ∈ w.issued) : id ∈ w'.issued := by
  rw [h.issued]
  cases input with
  | reloadEnd env => cases hend
  | _ => exact Finset.mem_union_left _ hid

theorem Stepped.running_before {effects : List Effect} (hstep : Stepped C W w input w' effects)
    (hend : input.isReloadEnd = false) (hrunning : w'.phase = .running) : w.phase = .running := by
  have hhandled := hstep.handledAs
  rw [hrunning] at hhandled
  generalize w'.actor = actor at hhandled
  cases hhandled with
  | event _ _ hbefore | command _ _ hbefore | buildFailed _ _ _ hbefore => exact hbefore
  | reloadEnds env resp swarm hreloading => cases hend

/-- An effect at an input belongs to a step. -/
theorem stepped_of_mem_effects {effect : Effect} (h : effect ∈ w.effects C W input) :
    ∃ w', Stepped C W w input w' (w.effects C W input) := by
  unfold World.effects at h ⊢
  cases hnext : w.next C W input with
  | none =>
    rw [hnext] at h
    cases h
  | some r => exact ⟨r.1, stepped_of_next hnext⟩

variable {config : NodeConfig} {nodes : List Multiaddr} {keypair : Bytes} {keys : Option PqKeys}

/-- A step of the machine, with its effects. -/
theorem stepped_of_step (h : (swarmActor C W config nodes keypair keys).step w input = some w') :
    Stepped C W w input w' (w.effects C W input) := by
  obtain ⟨⟨w'', effects⟩, hnext, rfl⟩ := Option.map_eq_some_iff.1 h
  have heffects : w.effects C W input = effects := by simp only [World.effects, hnext, Option.map_some, Option.getD_some]
  rw [heffects]
  exact stepped_of_next hnext

end Steps

/-! ## What a handler leaves alone -/

section Frames

variable (C : Crypto) (W : Wire) (A : SwarmActor) (env : Env)

theorem progressGetProviders_frame (id : Nat) (result : GetProvidersResult) :
    ∃ kad, (A.progressGetProviders env id result).1 = { A with pendingKad := kad } := by
  unfold SwarmActor.progressGetProviders
  split
  · exact ⟨_, rfl⟩
  · split <;> exact ⟨_, rfl⟩

theorem progressGetRecord_frame (id : Nat) (result : GetRecordResult) :
    ∃ kad, (A.progressGetRecord id result).1 = { A with pendingKad := kad } := by
  unfold SwarmActor.progressGetRecord
  simp only
  split
  · split <;> exact ⟨_, rfl⟩
  · exact ⟨_, rfl⟩

theorem handleKadEvent_frame (event : KadEvent) : ∃ kad notice,
    (A.handleKadEvent C env event).1 = { A with pendingKad := kad, lastBootstrapNotice := notice } := by
  unfold SwarmActor.handleKadEvent
  split
  · exact ⟨_, _, rfl⟩
  · split
    · unfold SwarmActor.progressBootstrap
      split <;> exact ⟨_, _, rfl⟩
    · obtain ⟨kad, h⟩ := progressGetRecord_frame A _ _
      exact ⟨kad, _, h⟩
    · obtain ⟨kad, h⟩ := progressGetProviders_frame A env _ _
      exact ⟨kad, _, h⟩
    all_goals exact ⟨_, _, rfl⟩
  · exact ⟨_, _, rfl⟩

theorem startQuery_frame (storeError : Option String) (query : Query) (pending : KadPending) :
    ∃ kad, (A.startQuery env storeError query pending).1 = { A with pendingKad := kad } := by
  unfold SwarmActor.startQuery
  split
  · exact ⟨_, rfl⟩
  · split <;> exact ⟨_, rfl⟩

theorem maybeFetchPqIdentity_frame (peer : PeerId) :
    ∃ pending, (A.maybeFetchPqIdentity env peer).1 = { A with pendingPqIdentity := pending } := by
  unfold SwarmActor.maybeFetchPqIdentity
  split
  · exact ⟨_, rfl⟩
  split
  · exact ⟨_, rfl⟩
  split
  · exact ⟨_, rfl⟩
  split <;> exact ⟨_, rfl⟩

theorem onIdentifyPeer_frame (peer : PeerId) (info : IdentifyInfo) : ∃ peers pending,
    (A.onIdentifyPeer env peer info).1 =
      { A with
        peerProtocols := A.peerProtocols.insert peer info.protocols.toFinset
        identifiedPeers := peers
        pendingPqIdentity := pending } := by
  unfold SwarmActor.onIdentifyPeer
  simp only
  split
  · exact ⟨_, _, rfl⟩
  · obtain ⟨pending, h⟩ := maybeFetchPqIdentity_frame { A with
      peerProtocols := A.peerProtocols.insert peer info.protocols.toFinset
      identifiedPeers := insert peer A.identifiedPeers } env peer
    exact ⟨_, pending, h⟩

theorem handlePqIdentity_frame (event : ReqEvent Unit PqIdentity) : ∃ identities pending,
    (A.handlePqIdentity C event).1 = { A with pqIdentities := identities, pendingPqIdentity := pending } := by
  unfold SwarmActor.handlePqIdentity
  split
  · exact ⟨_, _, rfl⟩
  · split
    · exact ⟨_, _, rfl⟩
    · simp only
      split <;> exact ⟨_, _, rfl⟩
  all_goals exact ⟨_, _, rfl⟩

theorem handleServiceReq_frame (event : ReqEvent Request Response) : ∃ inbound outbound,
    (A.handleServiceReq env event).1 = { A with pendingInbound := inbound, pendingOutbound := outbound } := by
  unfold SwarmActor.handleServiceReq
  split
  · split <;> exact ⟨_, _, rfl⟩
  · split <;> exact ⟨_, _, rfl⟩
  · split <;> exact ⟨_, _, rfl⟩
  all_goals exact ⟨_, _, rfl⟩

theorem handlePqRequest_frame (peer : PeerId) (connection : Nat) (request : Pq.PqRequest) (channel : Nat) :
    ∃ inbound, (A.handlePqRequest C env peer connection request channel).1 = { A with pendingInbound := inbound } := by
  unfold SwarmActor.handlePqRequest
  split
  · exact ⟨_, rfl⟩
  split
  · exact ⟨_, rfl⟩
  split
  · exact ⟨_, rfl⟩
  split <;> exact ⟨_, rfl⟩

theorem handleServiceReqPq_frame (event : ReqEvent Pq.PqRequest Pq.PqResponse) : ∃ inbound outbound,
    (A.handleServiceReqPq C env event).1 = { A with pendingInbound := inbound, pendingOutboundPq := outbound } := by
  unfold SwarmActor.handleServiceReqPq
  split
  · obtain ⟨inbound, h⟩ := handlePqRequest_frame C A env _ _ _ _
    exact ⟨inbound, _, h⟩
  · split <;> exact ⟨_, _, rfl⟩
  · split <;> exact ⟨_, _, rfl⟩
  all_goals exact ⟨_, _, rfl⟩

theorem serviceSendRequest_frame (peer : PeerId) (request : Request) (addresses : List Multiaddr) (resp : Nat) :
    ∃ outbound outboundPq pending, (A.serviceSendRequest C W env peer request addresses resp).1 =
      { A with pendingOutbound := outbound, pendingOutboundPq := outboundPq, pendingPqIdentity := pending } := by
  unfold SwarmActor.serviceSendRequest
  split
  · split
    · unfold SwarmActor.sendSealed
      split
      · exact ⟨_, _, _, rfl⟩
      · split <;> exact ⟨_, _, _, rfl⟩
    · exact ⟨_, _, _, rfl⟩
  · unfold SwarmActor.sendPlaintext
    simp only
    split <;> exact ⟨_, _, _, rfl⟩
  · obtain ⟨pending, h⟩ := maybeFetchPqIdentity_frame A env peer
    exact ⟨_, _, pending, h⟩
  all_goals exact ⟨_, _, _, rfl⟩

theorem serviceSendResponse_frame (requestId : String) (response : Response) :
    ∃ inbound, (A.serviceSendResponse C env requestId response).1 = { A with pendingInbound := inbound } := by
  unfold SwarmActor.serviceSendResponse
  split <;> exact ⟨_, rfl⟩

theorem kadLocal_frame (effect : Effect) (resp : Nat) : (A.kadLocal effect resp).1 = A := by
  unfold SwarmActor.kadLocal
  split <;> rfl

theorem kadCacheRefresh_frame (resp : Nat) : (A.kadCacheRefresh env resp).1 = A := by
  unfold SwarmActor.kadCacheRefresh
  split <;> rfl

theorem handleCommand_frame (command : Command) : ∃ kad inbound outbound outboundPq identity,
    (A.handleCommand C W env command).1 =
      { A with
        pendingKad := kad, pendingInbound := inbound, pendingOutbound := outbound, pendingOutboundPq := outboundPq
        pendingPqIdentity := identity } := by
  have hquery : ∀ storeError query pending, ∃ kad inbound outbound outboundPq identity,
      (A.startQuery env storeError query pending).1 =
        { A with
          pendingKad := kad, pendingInbound := inbound, pendingOutbound := outbound, pendingOutboundPq := outboundPq
          pendingPqIdentity := identity } := fun storeError query pending => by
    obtain ⟨kad, h⟩ := startQuery_frame A env storeError query pending
    exact ⟨kad, _, _, _, _, h⟩
  cases command with
  | kadGetRecordAll | kadGetProviders | kadGetClosestPeers | kadPutRecord | kadStartProviding => exact hquery _ _ _
  | kadStopProviding key resp => exact ⟨_, _, _, _, _, kadLocal_frame A _ _⟩
  | kadRemoveRecord key resp => exact ⟨_, _, _, _, _, kadLocal_frame A _ _⟩
  | kadCacheRefresh resp => exact ⟨_, _, _, _, _, kadCacheRefresh_frame A env resp⟩
  | serviceSendRequest peer request addresses resp =>
    obtain ⟨outbound, outboundPq, pending, h⟩ := serviceSendRequest_frame C W A env peer request addresses resp
    exact ⟨_, _, outbound, outboundPq, pending, h⟩
  | serviceSendResponse requestId response =>
    obtain ⟨inbound, h⟩ := serviceSendResponse_frame C A env requestId response
    exact ⟨_, inbound, _, _, _, h⟩
  | _ => exact ⟨_, _, _, _, _, rfl⟩

end Frames

/-! ## What a handler does to the outside -/

/-- The kinds of effects that results tell apart. -/
inductive EffectKind where
  | answer
  | admission
  | respond
  | plaintext
  | other
deriving DecidableEq

def Effect.kind : Effect → EffectKind
  | .answer _ _ => .answer
  | .emit (.inboundServiceRequest _ _ _ _) | .awaitReply _ => .admission
  | .respond _ _ _ | .respondIdentity _ _ => .respond
  | .sendPlain _ _ _ _ => .plaintext
  | _ => .other

/-- The effects are of the given kinds. -/
def Only (kinds : List EffectKind) (effects : List Effect) : Prop := ∀ effect ∈ effects, effect.kind ∈ kinds

section Effects

variable (C : Crypto) (W : Wire) (A : SwarmActor) (env : Env) {kinds : List EffectKind}

@[simp] theorem only_nil : Only kinds [] := fun _ h => (by cases h)

@[simp] theorem only_cons {effect : Effect} {effects : List Effect} :
    Only kinds (effect :: effects) ↔ effect.kind ∈ kinds ∧ Only kinds effects := List.forall_mem_cons

@[simp] theorem only_append {fx gx : List Effect} : Only kinds (fx ++ gx) ↔ Only kinds fx ∧ Only kinds gx :=
  List.forall_mem_append

theorem Only.mono {kinds' : List EffectKind} {effects : List Effect} (h : Only kinds effects)
    (hsub : kinds ⊆ kinds') : Only kinds' effects := fun effect hmem => hsub (h effect hmem)

theorem only_map {α : Type} {f : α → Effect} {l : List α} (h : ∀ a, (f a).kind ∈ kinds) : Only kinds (l.map f) := by
  intro effect hmem
  obtain ⟨a, -, rfl⟩ := List.mem_map.1 hmem
  exact h a

theorem applyGetProviders_only (order : Iteration PeerId) (pending : KadPending) (result : GetProvidersResult) :
    Only [.answer, .other] (applyGetProviders order pending result).2 := by
  unfold applyGetProviders
  split <;> simp [Effect.kind]

theorem progressGetProviders_only (id : Nat) (result : GetProvidersResult) :
    Only [.answer, .other] (A.progressGetProviders env id result).2 := by
  unfold SwarmActor.progressGetProviders
  cases A.pendingKad.lookup id with
  | none => exact only_nil
  | some pending =>
    have happly := applyGetProviders_only env.peers pending result
    cases h : applyGetProviders env.peers pending result with
    | mk pending' effects =>
      rw [h] at happly
      cases pending' <;> simpa only [h] using happly

theorem handleKadEvent_only (event : KadEvent) : Only [.answer, .other] (A.handleKadEvent C env event).2 := by
  unfold SwarmActor.handleKadEvent
  split
  · split <;> simp [Effect.kind]
  · rename_i id result
    have honce : ∀ finish, (∀ pending, Only [.answer, .other] (finish pending)) →
        Only [.answer, .other] (A.progressOnce id finish).2 := fun finish h => by
      unfold SwarmActor.progressOnce
      cases A.pendingKad.lookup id with
      | none => exact only_nil
      | some pending => exact h pending
    split
    · unfold SwarmActor.progressBootstrap
      split <;> simp [Effect.kind]
    · unfold SwarmActor.progressGetRecord
      simp only
      split
      · split <;> simp [Effect.kind]
      · exact only_nil
    · exact progressGetProviders_only A env _ _
    · exact honce _ (fun pending => by split <;> simp [Effect.kind])
    · exact honce _ (fun pending => by
        split
        · split <;> simp [Effect.kind]
        · exact only_nil)
    · exact honce _ (fun pending => by split <;> simp [Effect.kind])
    · exact only_nil
  · exact only_nil

theorem startQuery_only (storeError : Option String) (query : Query) (pending : KadPending) :
    Only [.answer, .other] (A.startQuery env storeError query pending).2 := by
  unfold SwarmActor.startQuery
  split
  · simp [Effect.kind]
  · split <;> simp [Effect.kind]

theorem maybeFetchPqIdentity_only (peer : PeerId) : Only [.other] (A.maybeFetchPqIdentity env peer).2 := by
  unfold SwarmActor.maybeFetchPqIdentity
  split
  · exact only_nil
  split
  · exact only_nil
  split
  · exact only_nil
  split <;> simp [Effect.kind]

theorem onIdentifyPeer_only (peer : PeerId) (info : IdentifyInfo) : Only [.other] (A.onIdentifyPeer env peer info).2 := by
  unfold SwarmActor.onIdentifyPeer
  simp only
  split
  · exact only_nil
  · refine only_append.2 ⟨?_, maybeFetchPqIdentity_only _ env peer⟩
    split
    · exact only_map (fun _ => by simp [Effect.kind])
    · exact only_nil

theorem identityReply_only (channel : Nat) : Only [.respond] (A.identityReply C channel) := by
  unfold SwarmActor.identityReply
  split
  · exact only_nil
  split
  · split <;> simp [Effect.kind]
  · exact only_nil

theorem handlePqIdentity_only (event : ReqEvent Unit PqIdentity) : Only [.respond] (A.handlePqIdentity C event).2 := by
  unfold SwarmActor.handlePqIdentity
  split
  · exact identityReply_only C A _
  · split
    · exact only_nil
    · simp only
      split <;> exact only_nil
  all_goals exact only_nil

theorem respondPq_only (channel : Nat) (inbound : Pq.PqInbound) (response : Response) :
    Only [.respond] (A.respondPq C env channel inbound response) := by
  unfold SwarmActor.respondPq
  split
  · split <;> simp [Effect.kind]
  · exact only_nil

theorem respondInbound_only (pending : PendingInbound) (response : Response) :
    Only [.respond] (A.respondInbound C env pending response) := by
  unfold SwarmActor.respondInbound
  split
  · simp [Effect.kind]
  · exact respondPq_only C A env _ _ _

theorem handleServiceReq_only (event : ReqEvent Request Response) :
    Only [.answer, .admission, .respond] (A.handleServiceReq env event).2 := by
  unfold SwarmActor.handleServiceReq SwarmActor.admitRequest
  split
  · split <;> simp [Effect.kind]
  · split <;> simp [Effect.kind]
  · split <;> simp [Effect.kind]
  all_goals exact only_nil

theorem handleServiceReqPq_only (event : ReqEvent Pq.PqRequest Pq.PqResponse) :
    Only [.answer, .admission, .respond] (A.handleServiceReqPq C env event).2 := by
  unfold SwarmActor.handleServiceReqPq SwarmActor.handlePqRequest SwarmActor.admitRequest
  split
  · split
    · exact only_nil
    split
    · exact only_nil
    split
    · exact (respondPq_only C A env _ _ _).mono (by simp)
    split
    · exact (respondPq_only C A env _ _ _).mono (by simp)
    · simp [Effect.kind]
  · split <;> simp [Effect.kind]
  · split <;> simp [Effect.kind]
  all_goals exact only_nil

theorem rejectOldSwarmEvent_only (event : SwarmEvent) : Only [.respond] (A.rejectOldSwarmEvent C env event) := by
  unfold SwarmActor.rejectOldSwarmEvent
  split
  · simp [Effect.kind]
  · split
    · exact only_nil
    split
    · exact only_nil
    · exact respondPq_only C A env _ _ _
  · exact identityReply_only C A _
  · exact only_nil

theorem serviceSendResponse_only (requestId : String) (response : Response) :
    Only [.respond] (A.serviceSendResponse C env requestId response).2 := by
  unfold SwarmActor.serviceSendResponse
  split
  · exact only_nil
  · exact respondInbound_only C A env _ _

theorem beginReload_only : Only [.respond] (A.beginReload C env).2 := by
  intro effect hmem
  obtain ⟨entry, -, hmem⟩ := List.mem_flatMap.1 hmem
  exact respondInbound_only C A env _ _ effect hmem

theorem finishReload_only (swarm : Behaviours) : Only [.answer, .other] (A.finishReload env swarm).2 := by
  refine only_append.2 ⟨only_append.2 ⟨only_append.2 ⟨?_, ?_⟩, ?_⟩, ?_⟩ <;>
    exact only_map (fun _ => by simp [Effect.kind])

theorem handleEvent_only (event : SwarmEvent) :
    Only [.answer, .admission, .respond, .other] (A.handleEvent C env event).2 := by
  cases event with
  | kademlia event => exact (handleKadEvent_only C A env event).mono (by simp)
  | serviceReq event => exact (handleServiceReq_only A env event).mono (by simp)
  | serviceReqPq event => exact (handleServiceReqPq_only C A env event).mono (by simp)
  | pqIdentity event => exact (handlePqIdentity_only C A event).mono (by simp)
  | identifyReceived peer info =>
    exact only_append.2 ⟨(onIdentifyPeer_only A env peer info).mono (by simp), by simp [Effect.kind]⟩
  | newListenAddr addr =>
    simp only [SwarmActor.handleEvent]
    split <;> simp [Effect.kind]
  | _ => simp [SwarmActor.handleEvent, Effect.kind]

theorem kadLocal_only {effect : Effect} (resp : Nat) (h : effect.kind = .other) :
    Only [.answer, .other] (A.kadLocal effect resp).2 := by
  unfold SwarmActor.kadLocal
  split
  · exact only_cons.2 ⟨by simp [h], by simp [Effect.kind]⟩
  · simp [Effect.kind]

theorem kadCacheRefresh_only (resp : Nat) : Only [.answer, .other] (A.kadCacheRefresh env resp).2 := by
  unfold SwarmActor.kadCacheRefresh
  split <;> simp [Effect.kind]

theorem serviceSendRequest_only (peer : PeerId) (request : Request) (addresses : List Multiaddr) (resp : Nat) :
    Only [.answer, .plaintext, .other] (A.serviceSendRequest C W env peer request addresses resp).2 := by
  have hrefuse : ∀ error, Only [.answer, .plaintext, .other] (A.refuse resp error).2 := fun error => by
    simp [SwarmActor.refuse, Effect.kind]
  unfold SwarmActor.serviceSendRequest
  split
  · split
    · unfold SwarmActor.sendSealed
      split
      · exact hrefuse _
      · split
        · simp [Effect.kind]
        · exact hrefuse _
    · exact only_nil
  · unfold SwarmActor.sendPlaintext
    simp only
    split
    · exact hrefuse _
    · simp [Effect.kind]
  · exact only_append.2 ⟨(maybeFetchPqIdentity_only A env peer).mono (by simp), by simp [Effect.kind]⟩
  all_goals exact hrefuse _

theorem handleCommand_only {command : Command}
    (h : ∀ peer request addresses resp, command ≠ .serviceSendRequest peer request addresses resp) :
    Only [.answer, .respond, .other] (A.handleCommand C W env command).2 := by
  have hquery : ∀ storeError query pending,
      Only [.answer, .respond, .other] (A.startQuery env storeError query pending).2 := fun storeError query pending =>
    (startQuery_only A env storeError query pending).mono (by simp)
  cases command with
  | kadGetRecordAll | kadGetProviders | kadGetClosestPeers | kadPutRecord | kadStartProviding => exact hquery _ _ _
  | kadStopProviding key resp => exact (kadLocal_only A resp rfl).mono (by simp)
  | kadRemoveRecord key resp => exact (kadLocal_only A resp rfl).mono (by simp)
  | kadCacheRefresh resp => exact (kadCacheRefresh_only A env resp).mono (by simp)
  | serviceSendRequest peer request addresses resp => exact absurd rfl (h peer request addresses resp)
  | serviceSendResponse requestId response => exact (serviceSendResponse_only C A env requestId response).mono (by simp)
  | _ => simp [SwarmActor.handleCommand, Effect.kind]

end Effects

end Actor
end NexusNet
