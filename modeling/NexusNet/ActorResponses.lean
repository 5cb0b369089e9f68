import NexusNet.ActorInbound
import NexusNet.ActorReplies
/-!
# ActorResponses — what a step sends to other nodes

Three inversions of a step of the actor, for results about two nodes: only a `ServiceSendRequest` command sends a service
request (`Stepped.calls`), a response goes out for the request that the step brings, for one that waits, or for one that a
reload rejects, sealed as its request was (`Stepped.responded`), and a caller is told a response only at the event that
brings it (`Stepped.told_ok`).
-/
namespace NexusNet
namespace Actor

open Pq (Crypto Wire PqKeys PqRequest PqResponse openRequest encodeResponse decodeRequest sendPqRequest)

/-! ## Requests to a peer -/

/-- A service request as it goes to a peer. -/
inductive Envelope where
  | plain (request : Request)
  | pq (request : PqRequest)
deriving DecidableEq

/-- The service request an effect sends: to whom, the behaviour and the id, and the message. -/
def Effect.call : Effect → Option (PeerId × (Behaviour × Nat) × Envelope)
  | .sendPlain id peer request _ => some (peer, (.serviceReq, id), .plain request)
  | .sendPq id peer request _ => some (peer, (.serviceReqPq, id), .pq request)
  | _ => none

/-- The effects send no service request. -/
def Callless (effects : List Effect) : Prop := ∀ effect ∈ effects, effect.call = none

/-- Replies, responses and admissions are no requests. -/
theorem Only.callless {kinds : List EffectKind} {effects : List Effect} (h : Only kinds effects)
    (hplain : EffectKind.plaintext ∉ kinds) (hother : EffectKind.other ∉ kinds) : Callless effects := by
  intro effect hmem
  have hkind := h effect hmem
  cases effect with
  | sendPlain id peer request addresses => exact absurd hkind hplain
  | sendPq id peer request addresses => exact absurd hkind hother
  | _ => rfl

/-! ## What is about no service -/

def Reply.isResponse : Reply → Bool
  | .response (.ok _) => true
  | _ => false

/-- The effect sends a service request or a response to one, or tells a caller a response. -/
def Effect.isService : Effect → Bool
  | .sendPlain .. | .sendPq .. | .respond .. => true
  | .answer _ reply => reply.isResponse
  | _ => false

def Serviceless (effects : List Effect) : Prop := ∀ effect ∈ effects, effect.isService = false

@[simp] theorem serviceless_nil : Serviceless [] := fun _ h => (by cases h)

@[simp] theorem serviceless_cons {effect : Effect} {effects : List Effect} :
    Serviceless (effect :: effects) ↔ effect.isService = false ∧ Serviceless effects := List.forall_mem_cons

@[simp] theorem serviceless_append {fx gx : List Effect} :
    Serviceless (fx ++ gx) ↔ Serviceless fx ∧ Serviceless gx := List.forall_mem_append

theorem serviceless_map {α : Type} {f : α → Effect} {l : List α} (h : ∀ a, (f a).isService = false) :
    Serviceless (l.map f) := List.forall_mem_map.2 (fun a _ => h a)

section Serviceless

variable {effects : List Effect}

theorem Serviceless.callless (h : Serviceless effects) : Callless effects := by
  intro effect hmem
  cases effect with
  | sendPlain | sendPq => cases h _ hmem
  | _ => rfl

theorem Serviceless.not_respond (h : Serviceless effects) {channel : Nat} {response : Response}
    {sealedAs : Option PqResponse} : .respond channel response sealedAs ∉ effects := fun hmem => by cases h _ hmem

theorem Serviceless.not_told (h : Serviceless effects) {n : Nat} {response : Response} :
    .answer n (.response (.ok response)) ∉ effects := fun hmem => by cases h _ hmem

end Serviceless

section Handlers

variable (C : Crypto) (W : Wire) (A : SwarmActor) (env : Env)

theorem isService_failure (pending : KadPending) (n : Nat) (error : NetworkError) :
    (Effect.answer n (pending.failure error)).isService = false := by
  cases pending <;> rfl

theorem progressGetProviders_serviceless (id : Nat) (result : GetProvidersResult) :
    Serviceless (A.progressGetProviders env id result).2 := by
  have happly : ∀ pending, Serviceless (applyGetProviders env.peers pending result).2 := by
    intro pending
    unfold applyGetProviders
    split <;> simp [Effect.isService, Reply.isResponse]
  unfold SwarmActor.progressGetProviders
  split
  · exact serviceless_nil
  · rename_i pending hentry
    have := happly pending
    split <;> rename_i heq <;> rwa [heq] at this

theorem handleKadEvent_serviceless (event : KadEvent) : Serviceless (A.handleKadEvent C env event).2 := by
  have honce : ∀ id finish, (∀ pending, Serviceless (finish pending)) → Serviceless (A.progressOnce id finish).2 := by
    intro id finish h
    unfold SwarmActor.progressOnce
    cases A.pendingKad.lookup id with
    | none => exact serviceless_nil
    | some pending => exact h pending
  unfold SwarmActor.handleKadEvent
  split
  · split <;> simp [Effect.isService]
  · split
    · unfold SwarmActor.progressBootstrap
      split <;> simp [Effect.isService]
    · unfold SwarmActor.progressGetRecord
      simp only
      split
      · split <;> simp [Effect.isService, Reply.isResponse]
      · exact serviceless_nil
    · exact progressGetProviders_serviceless A env _ _
    · exact honce _ _ (fun pending => by split <;> simp [Effect.isService, Reply.isResponse])
    · exact honce _ _ (fun pending => by
        split
        · split <;> simp [Effect.isService, Reply.isResponse]
        · exact serviceless_nil)
    · exact honce _ _ (fun pending => by split <;> simp [Effect.isService, Reply.isResponse])
    · exact serviceless_nil
  · exact serviceless_nil

theorem onIdentifyPeer_serviceless (peer : PeerId) (info : IdentifyInfo) :
    Serviceless (A.onIdentifyPeer env peer info).2 := by
  unfold SwarmActor.onIdentifyPeer
  simp only
  split
  · exact serviceless_nil
  · refine serviceless_append.2 ⟨?_, fun effect hmem => ?_⟩
    · split
      · exact serviceless_map (fun _ => rfl)
      · exact serviceless_nil
    · obtain ⟨id, rfl⟩ := maybeFetchPqIdentity_effects hmem
      rfl

theorem identityReply_serviceless (channel : Nat) : Serviceless (A.identityReply C channel) := by
  unfold SwarmActor.identityReply
  split
  · exact serviceless_nil
  split
  · split <;> simp [Effect.isService]
  · exact serviceless_nil

/-- **Events about no service.** -/
theorem handleEvent_serviceless {event : SwarmEvent} (hplain : ∀ e, event ≠ .serviceReq e) (hpq : ∀ e, event ≠ .serviceReqPq e) :
    Serviceless (A.handleEvent C env event).2 := by
  cases event with
  | kademlia event => exact handleKadEvent_serviceless C A env event
  | serviceReq event => exact absurd rfl (hplain event)
  | serviceReqPq event => exact absurd rfl (hpq event)
  | pqIdentity event =>
    cases event with
    | request peer connection request channel => exact identityReply_serviceless C A channel
    | response id response =>
      simp only [SwarmActor.handleEvent, SwarmActor.handlePqIdentity]
      split
      · exact serviceless_nil
      · split <;> exact serviceless_nil
    | _ => exact serviceless_nil
  | identifyReceived peer info =>
    exact serviceless_append.2 ⟨onIdentifyPeer_serviceless A env peer info, by simp [Effect.isService]⟩
  | newListenAddr addr =>
    simp only [SwarmActor.handleEvent]
    split <;> simp [Effect.isService]
  | _ => simp [SwarmActor.handleEvent, Effect.isService]

/-- **Commands about no service.** -/
theorem handleCommand_serviceless {command : Command}
    (hrequest : ∀ peer request addresses resp, command ≠ .serviceSendRequest peer request addresses resp)
    (hresponse : ∀ requestId response, command ≠ .serviceSendResponse requestId response) :
    Serviceless (A.handleCommand C W env command).2 := by
  have hquery : ∀ storeError query pending, Serviceless (A.startQuery env storeError query pending).2 := by
    intro storeError query pending
    unfold SwarmActor.startQuery
    split
    · exact serviceless_cons.2 ⟨isService_failure pending _ _, serviceless_nil⟩
    · split
      · exact serviceless_cons.2 ⟨isService_failure pending _ _, serviceless_nil⟩
      · simp [Effect.isService]
  have hlocal : ∀ effect resp, effect.isService = false → Serviceless (A.kadLocal effect resp).2 := by
    intro effect resp heffect
    unfold SwarmActor.kadLocal
    split
    · exact serviceless_cons.2 ⟨heffect, by simp [Effect.isService, Reply.isResponse]⟩
    · simp [Effect.isService, Reply.isResponse]
  cases command with
  | kadGetRecordAll | kadGetProviders | kadGetClosestPeers | kadPutRecord | kadStartProviding => exact hquery _ _ _
  | kadStopProviding | kadRemoveRecord => exact hlocal _ _ rfl
  | kadCacheRefresh resp =>
    simp only [SwarmActor.handleCommand, SwarmActor.kadCacheRefresh]
    split <;> simp [Effect.isService, Reply.isResponse]
  | serviceSendRequest peer request addresses resp => exact absurd rfl (hrequest peer request addresses resp)
  | serviceSendResponse requestId response => exact absurd rfl (hresponse requestId response)
  | _ => simp [SwarmActor.handleCommand, Effect.isService, Reply.isResponse]

theorem finishReload_serviceless (swarm : Behaviours) : Serviceless (A.finishReload env swarm).2 := by
  refine serviceless_append.2 ⟨serviceless_append.2 ⟨serviceless_append.2 ⟨?_, ?_⟩, ?_⟩, ?_⟩
  · exact serviceless_map (fun pending => isService_failure pending _ _)
  all_goals exact serviceless_map (fun _ => rfl)

/-- **No event sends a service request.** -/
theorem handleEvent_callless (event : SwarmEvent) : Callless (A.handleEvent C env event).2 := by
  cases event with
  | serviceReq event => exact (handleServiceReq_only A env event).callless (by simp) (by simp)
  | serviceReqPq event => exact (handleServiceReqPq_only C A env event).callless (by simp) (by simp)
  | _ => exact (handleEvent_serviceless C A env (by simp) (by simp)).callless

/-- **No other command does.** -/
theorem handleCommand_callless {command : Command}
    (h : ∀ peer request addresses resp, command ≠ .serviceSendRequest peer request addresses resp) :
    Callless (A.handleCommand C W env command).2 := by
  cases command with
  | serviceSendResponse requestId response =>
    exact (serviceSendResponse_only C A env requestId response).callless (by simp) (by simp)
  | _ => exact (handleCommand_serviceless C W A env h (by simp)).callless

end Handlers

/-- The service requests that go to a peer. -/
def callsTo (peer : PeerId) (effects : List Effect) : List ((Behaviour × Nat) × Envelope) :=
  effects.filterMap (fun effect => effect.call.bind (fun call => if call.1 = peer then some call.2 else none))

theorem Callless.callsTo {effects : List Effect} (h : Callless effects) (peer : PeerId) : callsTo peer effects = [] :=
  List.filterMap_eq_nil_iff.2 (fun effect hmem => by rw [h effect hmem, Option.bind_none])

/-- The message of a request that waits. -/
def OutboundEntry.envelope (request : Request) : OutboundEntry → Envelope
  | .plain _ => .plain request
  | .pq pending => .pq pending.out.request

theorem callsTo_send (peer recipient : PeerId) (id : Nat) (request : Request) (addresses : List Multiaddr)
    (entry : OutboundEntry) : callsTo peer [entry.send id recipient request addresses] =
      if recipient = peer then [((entry.behaviour, id), entry.envelope request)] else [] := by
  cases entry with
  | plain | pq =>
    simp only [callsTo, OutboundEntry.send, List.filterMap_cons, Effect.call, Option.bind_some, List.filterMap_nil]
    split <;> split <;> simp_all [OutboundEntry.behaviour, OutboundEntry.envelope]

section Calls

variable {C : Crypto} {W : Wire} {w w' : World} {input : Input} {effects : List Effect}

/-- **What sends service requests**: nothing but the command for one, and it sends at most the one message of the entry
that waits after it. -/
theorem Stepped.calls (h : Stepped C W w input w' effects) (hused : Used w) : Callless effects ∨
    ∃ env peer request addresses resp entry, input = .command env (.serviceSendRequest peer request addresses resp) ∧
      effects = [entry.send env.fresh peer request addresses] ∧ entry.resp = resp ∧ Calling env.fresh entry w' ∧
      ∀ pending, entry = .pq pending → ∃ recipient keys, w.actor.pqIdentities.lookup peer = some recipient ∧
        w.actor.pqKeys = some keys ∧
        sendPqRequest C W env.config keys recipient w.actor.keypair env.draw request = .ok pending.out := by
  have hstep := h
  have hhandled := h.handledAs
  generalize w'.actor = actor at hhandled
  generalize w'.phase = phase at hhandled
  cases hhandled with
  | event env event hrunning => exact .inl (handleEvent_callless C w.actor env event)
  | oldEvent env event resp swarm hreloading =>
    exact .inl ((rejectOldSwarmEvent_only C w.actor env event).callless (by simp) (by simp))
  | buildFailed env resp error hrunning => exact .inl (by simp [Callless, Effect.call])
  | reloadBegins env resp hrunning => exact .inl ((beginReload_only C w.actor env).callless (by simp) (by simp))
  | reloadEnds env resp swarm hreloading =>
    have hanswer : Serviceless [.answer resp (.done (.ok ()))] := by simp [Effect.isService, Reply.isResponse]
    exact .inl (serviceless_append.2 ⟨finishReload_serviceless w.actor env swarm, hanswer⟩).callless
  | command env command hrunning other =>
    by_cases hsend : ∃ peer request addresses resp, command = .serviceSendRequest peer request addresses resp
    · obtain ⟨peer, request, addresses, resp, rfl⟩ := hsend
      cases hstep.dispatched hused with
      | refused error quiet told settled =>
        refine .inl (fun effect hmem => ?_)
        obtain ⟨hplain, hpq⟩ := quiet effect hmem
        cases effect with
        | sendPlain id p r a => exact absurd rfl hplain
        | sendPq id p r a => exact absurd rfl (hpq id p r a)
        | _ => rfl
      | sent entry own out sealedFor calling running =>
        exact .inr ⟨env, peer, request, addresses, resp, entry, rfl, out, own, calling, sealedFor⟩
    · exact .inl (handleCommand_callless C W w.actor env
        (fun peer request addresses resp heq => hsend ⟨peer, request, addresses, resp, heq⟩))

/-- **An entry under an id that has been given before the step was there before it.** -/
theorem Stepped.held_before (h : Stepped C W w input w' effects) {id : Nat} {entry : OutboundEntry}
    (hissued : (entry.behaviour, id) ∈ w.issued) (hheld : w'.actor.holds id entry) : w.actor.holds id entry := by
  rw [holds_iff] at hheld ⊢
  have hhandled := h.handledAs
  generalize w'.actor = actor at hhandled hheld
  generalize w'.phase = phase at hhandled
  cases hhandled with
  | event env event hrunning =>
    rw [outboundAt_event] at hheld
    split at hheld
    · cases hheld
    · exact hheld
  | oldEvent | buildFailed => exact hheld
  | reloadBegins env resp hrunning => exact (outboundAt_congr rfl rfl _).symm.trans hheld
  | reloadEnds env resp swarm hreloading =>
    cases entry <;> simp [SwarmActor.outboundAt, SwarmActor.finishReload, OutboundEntry.slot] at hheld
  | command env command hrunning other =>
    rwa [outboundAt_command (fun effect hmem hstarted => (h.fresh _ hmem).1 _ hstarted hissued)] at hheld

/-- **What an event leaves**: the keys of the node, and the identities it had and the one it brings. -/
theorem event_identities (C : Crypto) (A : SwarmActor) (env : Env) (event : SwarmEvent) :
    ((A.handleEvent C env event).1.pqKeys = A.pqKeys ∧ (A.handleEvent C env event).1.keypair = A.keypair) ∧
      ∀ peer identity, (A.handleEvent C env event).1.pqIdentities.lookup peer = some identity →
        A.pqIdentities.lookup peer = some identity ∨ ∃ id, event = .pqIdentity (.response id identity) ∧
          A.pendingPqIdentity.lookup id = some peer := by
  cases event with
  | kademlia event =>
    obtain ⟨kad, notice, heq⟩ := handleKadEvent_frame C A env event
    simp only [SwarmActor.handleEvent, heq]
    exact ⟨⟨trivial, trivial⟩, fun _ _ h => .inl h⟩
  | serviceReq event =>
    obtain ⟨inbound, outbound, heq⟩ := handleServiceReq_frame A env event
    simp only [SwarmActor.handleEvent, heq]
    exact ⟨⟨trivial, trivial⟩, fun _ _ h => .inl h⟩
  | serviceReqPq event =>
    obtain ⟨inbound, outbound, heq⟩ := handleServiceReqPq_frame C A env event
    simp only [SwarmActor.handleEvent, heq]
    exact ⟨⟨trivial, trivial⟩, fun _ _ h => .inl h⟩
  | identifyReceived peer info =>
    obtain ⟨peers, pending, heq⟩ := onIdentifyPeer_frame A env peer info
    simp only [SwarmActor.handleEvent, heq]
    exact ⟨⟨trivial, trivial⟩, fun _ _ h => .inl h⟩
  | pqIdentity event =>
    cases event with
    | response id response =>
      simp only [SwarmActor.handleEvent, SwarmActor.handlePqIdentity]
      split
      · exact ⟨⟨rfl, rfl⟩, fun _ _ h => .inl h⟩
      · rename_i expected hpending
        split
        · refine ⟨⟨rfl, rfl⟩, fun peer identity h => ?_⟩
          rw [Dict.lookup_insert_ite] at h
          split at h
          · rename_i heq
            cases h
            exact .inr ⟨id, rfl, heq ▸ hpending⟩
          · exact .inl h
        · exact ⟨⟨rfl, rfl⟩, fun _ _ h => .inl h⟩
    | _ => exact ⟨⟨rfl, rfl⟩, fun _ _ h => .inl h⟩
  | connectionClosed peer connection n =>
    simp only [SwarmActor.handleEvent, SwarmActor.connectionClosed]
    split
    · refine ⟨⟨rfl, rfl⟩, fun peer identity h => ?_⟩
      rw [Dict.lookup_erase_ite] at h
      split at h
      · cases h
      · exact .inl h
    · exact ⟨⟨rfl, rfl⟩, fun _ _ h => .inl h⟩
  | _ => exact ⟨⟨rfl, rfl⟩, fun _ _ h => .inl h⟩

/-- **Where a cached identity comes from**: from before the step, or from a response to a request for that peer's
identity. -/
theorem Stepped.identity (h : Stepped C W w input w' effects) {peer : PeerId} {identity : Pq.PqIdentity}
    (hcached : w'.actor.pqIdentities.lookup peer = some identity) :
    w.actor.pqIdentities.lookup peer = some identity ∨ ∃ env id, input = .event env (.pqIdentity (.response id identity)) ∧
      w.actor.pendingPqIdentity.lookup id = some peer := by
  have hhandled := h.handledAs
  generalize w'.actor = actor at hhandled hcached
  generalize w'.phase = phase at hhandled
  cases hhandled with
  | event env event hrunning =>
    rcases (event_identities C w.actor env event).2 peer identity hcached with hold | ⟨id, rfl, hpending⟩
    · exact .inl hold
    · exact .inr ⟨env, id, rfl, hpending⟩
  | command env command hrunning other =>
    obtain ⟨kad, inbound, outbound, outboundPq, pending, heq⟩ := handleCommand_frame C W w.actor env command
    rw [heq] at hcached
    exact .inl hcached
  | oldEvent | buildFailed | reloadBegins => exact .inl hcached
  | reloadEnds env resp swarm hreloading => simp [SwarmActor.finishReload] at hcached

/-- **The keys of a node stay.** -/
theorem Stepped.keys_kept (h : Stepped C W w input w' effects) :
    w'.actor.pqKeys = w.actor.pqKeys ∧ w'.actor.keypair = w.actor.keypair := by
  have hhandled := h.handledAs
  generalize w'.actor = actor at hhandled ⊢
  generalize w'.phase = phase at hhandled
  cases hhandled with
  | event env event hrunning => exact (event_identities C w.actor env event).1
  | command env command hrunning other =>
    obtain ⟨kad, inbound, outbound, outboundPq, identity, heq⟩ := handleCommand_frame C W w.actor env command
    simp only [heq, and_self]
  | _ => exact ⟨rfl, rfl⟩

end Calls

/-! ## Requests of a peer -/

/-- **A request that is admitted**: its entry, and what the controller is told of it. -/
inductive Admits (C : Crypto) (A : SwarmActor) (requestId : String) : SwarmEvent → PendingInboundEntry → Job → Prop where
  | plain (peer : PeerId) (connection : Nat) (request : Request) (channel : Nat) :
      Admits C A requestId (.serviceReq (.request peer connection request channel)) ⟨connection, peer, .plain channel⟩
        ⟨peer, requestId, request.service, request.payload⟩
  | pq (peer : PeerId) (connection : Nat) (request : PqRequest) (channel : Nat) (keys : PqKeys) (inbound : Pq.PqInbound)
      (req : Request) (keysLoaded : A.pqKeys = some keys) (opened : openRequest C keys peer request = .ok inbound)
      (decoded : decodeRequest inbound.plaintext = some req) :
      Admits C A requestId (.serviceReqPq (.request peer connection request channel))
        ⟨connection, peer, .pq channel inbound⟩ ⟨peer, requestId, req.service, req.payload⟩

theorem Admits.inbound {C : Crypto} {A : SwarmActor} {requestId : String} {event : SwarmEvent}
    {waiting : PendingInboundEntry} {job : Job}
    (h : Admits C A requestId event waiting job) : event.inbound = some (waiting.connection, waiting.pending.channel) := by
  cases h <;> rfl

theorem admits_handlePqRequest {C : Crypto} {A : SwarmActor} {env : Env} {peer : PeerId} {connection channel : Nat}
    {request : PqRequest} {entry : PendingInboundEntry} {job : Job}
    (hadmitted : admitted (A.handlePqRequest C env peer connection request channel).2 = [job])
    (hentry : (A.handlePqRequest C env peer connection request channel).1.pendingInbound.lookup job.requestId =
      some entry) :
    Admits C A job.requestId (.serviceReqPq (.request peer connection request channel)) entry job := by
  have hrefused : ∀ inbound response, admitted (A.respondPq C env channel inbound response) = [] := fun inbound response =>
    (not_admitted (respondPq_only C A env channel inbound response) (by simp)).1
  unfold SwarmActor.handlePqRequest SwarmActor.admitRequest at hadmitted hentry
  split at hadmitted
  · cases hadmitted
  rename_i keys hkeys
  split at hadmitted
  · cases hadmitted
  rename_i inbound hopen
  split at hadmitted
  · rw [hrefused] at hadmitted
    cases hadmitted
  rename_i hsigned
  split at hadmitted
  · rw [hrefused] at hadmitted
    cases hadmitted
  rename_i req hdecode
  simp only [hkeys, hopen, hsigned, Bool.false_eq_true, if_false, hdecode] at hentry
  cases hadmitted
  rw [Dict.lookup_insert_ite, if_pos rfl] at hentry
  cases hentry
  exact .pq peer connection request channel keys inbound req hkeys hopen hdecode

/-- **An entry for an inbound request was there before the step, or is that of the request the step brings.** -/
theorem Stepped.admits {C : Crypto} {W : Wire} {w w' : World} {input : Input} {effects : List Effect}
    (h : Stepped C W w input w' effects) {requestId : String} {entry : PendingInboundEntry}
    (hentry : w'.actor.pendingInbound.lookup requestId = some entry) :
    w.actor.pendingInbound.lookup requestId = some entry ∨ ∃ env event job, input = .event env event ∧
      Admits C w.actor requestId event entry job ∧ job ∈ admitted effects := by
  rcases h.admission with ⟨-, -, hold⟩ | ⟨env, event, entry', job, rfl, hinbound, hadmitted, -, -, -, htable⟩
  · exact .inl (hold requestId entry hentry)
  rw [htable, Dict.lookup_insert_ite] at hentry
  split at hentry
  · rename_i heq
    cases hentry
    refine .inr ⟨env, event, job, rfl, ?_, by rw [hadmitted]; exact List.mem_singleton.2 rfl⟩
    have hhandled := h.handledAs
    generalize w'.actor = actor at hhandled htable
    generalize w'.phase = phase at hhandled
    subst heq
    cases hhandled with
    | oldEvent env event resp swarm hreloading =>
      obtain ⟨hnone, -⟩ := not_admitted (rejectOldSwarmEvent_only C w.actor env event) (by simp)
      rw [hnone] at hadmitted
      cases hadmitted
    | event env event hrunning =>
      -- the table has the entry of the event under the id of the job
      have hlookup := congrArg (fun table => Finmap.lookup job.requestId table) htable
      simp only [Dict.lookup_insert_ite, if_true] at hlookup
      cases event with
      | serviceReq event =>
        cases event with
        | request peer connection request channel =>
          simp only [SwarmActor.handleEvent, SwarmActor.handleServiceReq, SwarmActor.admitRequest] at hadmitted hlookup
          split at hadmitted
          · cases hadmitted
          · rename_i hplain
            cases hadmitted
            rw [if_neg hplain, Dict.lookup_insert_ite, if_pos rfl] at hlookup
            cases hlookup
            exact .plain peer connection request channel
        | _ => cases hinbound
      | serviceReqPq event =>
        cases event with
        | request peer connection request channel => exact admits_handlePqRequest hadmitted hlookup
        | _ => cases hinbound
      | pqIdentity event =>
        obtain ⟨hnone, -⟩ := not_admitted (handlePqIdentity_only C w.actor event) (by simp)
        rw [SwarmActor.handleEvent, hnone] at hadmitted
        cases hadmitted
      | _ => cases hinbound
  · exact .inl hentry

/-! ## Responses to a peer -/

/-- What the actor itself answers to a request it does not hand on. -/
def refusals : List Response :=
  [failureResponse "PQ required", failureResponse "PQ signature required", reloadRejectionResponse]

/-- **A response goes out as its request came in**: plain, or sealed with the key of the request. -/
def Carries (C : Crypto) (response : Response) (sealedAs : Option PqResponse) : PendingInbound → Prop
  | .plain _ => sealedAs = none
  | .pq _ inbound => ∃ nonce sealedResponse, inbound.sealResponse C (encodeResponse response) nonce = .ok sealedResponse ∧
      sealedAs = some sealedResponse

/-- **A request that is answered in the step that brings it.** -/
inductive Refused (C : Crypto) (A : SwarmActor) (channel : Nat) (response : Response) :
    Option PqResponse → SwarmEvent → Prop where
  | plain (peer : PeerId) (connection : Nat) (request : Request) (refusal : response ∈ refusals) :
      Refused C A channel response none (.serviceReq (.request peer connection request channel))
  | pq (peer : PeerId) (connection : Nat) (request : PqRequest) (keys : PqKeys) (inbound : Pq.PqInbound)
      (sealedAs : Option PqResponse) (keysLoaded : A.pqKeys = some keys)
      (opened : openRequest C keys peer request = .ok inbound) (carries : Carries C response sealedAs (.pq channel inbound))
      (refusal : response ∈ refusals ∨ decodeRequest inbound.plaintext = none) :
      Refused C A channel response sealedAs (.serviceReqPq (.request peer connection request channel))

theorem Refused.inbound {C : Crypto} {A : SwarmActor} {channel : Nat} {response : Response} {sealedAs : Option PqResponse}
    {event : SwarmEvent} (h : Refused C A channel response sealedAs event) :
    ∃ connection, event.inbound = some (connection, channel) := by
  cases h <;> exact ⟨_, rfl⟩

/-- **Why a response goes out.** -/
inductive Responded (C : Crypto) (w : World) (channel : Nat) (response : Response) (sealedAs : Option PqResponse) :
    Input → Prop where
  | refused (env : Env) (event : SwarmEvent) (why : Refused C w.actor channel response sealedAs event) :
      Responded C w channel response sealedAs (.event env event)
  | replied (env : Env) (requestId : String) (entry : PendingInboundEntry)
      (waits : w.actor.pendingInbound.lookup requestId = some entry) (onChannel : entry.pending.channel = channel)
      (carries : Carries C response sealedAs entry.pending) :
      Responded C w channel response sealedAs (.command env (.serviceSendResponse requestId response))
  | rejected (env : Env) (resp : Nat) (requestId : String) (entry : PendingInboundEntry)
      (waits : w.actor.pendingInbound.lookup requestId = some entry) (onChannel : entry.pending.channel = channel)
      (carries : Carries C response sealedAs entry.pending) (rejection : response = reloadRejectionResponse) :
      Responded C w channel response sealedAs (.reload env resp none)

section Respond

variable {C : Crypto} {W : Wire} {A : SwarmActor} {env : Env} {channel : Nat} {response : Response}
  {sealedAs : Option PqResponse}

theorem respond_respondPq {channel' : Nat} {inbound : Pq.PqInbound} {response' : Response}
    (h : .respond channel response sealedAs ∈ A.respondPq C env channel' inbound response') :
    channel = channel' ∧ response = response' ∧ Carries C response sealedAs (.pq channel' inbound) := by
  unfold SwarmActor.respondPq at h
  split at h
  · rename_i sealedResponse hseal
    split at h
    · cases List.mem_singleton.1 h
      exact ⟨rfl, rfl, _, sealedResponse, hseal, rfl⟩
    · cases h
  · cases h

theorem respond_respondInbound {pending : PendingInbound} {response' : Response}
    (h : .respond channel response sealedAs ∈ A.respondInbound C env pending response') :
    pending.channel = channel ∧ response = response' ∧ Carries C response sealedAs pending := by
  cases pending with
  | plain channel' =>
    cases List.mem_singleton.1 h
    exact ⟨rfl, rfl, rfl⟩
  | pq channel' inbound =>
    obtain ⟨rfl, rfl, hcarries⟩ := respond_respondPq h
    exact ⟨rfl, rfl, hcarries⟩

theorem refused_handlePqRequest {peer : PeerId} {connection : Nat} {request : PqRequest} {channel' : Nat}
    (h : .respond channel response sealedAs ∈ (A.handlePqRequest C env peer connection request channel').2) :
    Refused C A channel response sealedAs (.serviceReqPq (.request peer connection request channel')) := by
  unfold SwarmActor.handlePqRequest SwarmActor.admitRequest at h
  split at h
  · cases h
  rename_i keys hkeys
  split at h
  · cases h
  rename_i inbound hopen
  split at h
  · obtain ⟨rfl, rfl, hcarries⟩ := respond_respondPq h
    exact .pq peer connection request keys inbound sealedAs hkeys hopen hcarries (.inl (by simp [refusals]))
  split at h
  · rename_i hdecode
    obtain ⟨rfl, rfl, hcarries⟩ := respond_respondPq h
    exact .pq peer connection request keys inbound sealedAs hkeys hopen hcarries (.inr hdecode)
  · simp at h

theorem refused_event {event : SwarmEvent}
    (h : .respond channel response sealedAs ∈ (A.handleEvent C env event).2) :
    Refused C A channel response sealedAs event := by
  cases event with
  | serviceReq event =>
    cases event with
    | request peer connection request channel' =>
      simp only [SwarmActor.handleEvent, SwarmActor.handleServiceReq, SwarmActor.admitRequest] at h
      split at h
      · cases List.mem_singleton.1 h
        exact .plain peer connection request (by simp [refusals])
      · simp at h
    | response | outboundFailure =>
      simp only [SwarmActor.handleEvent, SwarmActor.handleServiceReq] at h
      split at h <;> simp at h
    | inboundFailure | responseSent => cases h
  | serviceReqPq event =>
    cases event with
    | request peer connection request channel' => exact refused_handlePqRequest h
    | response | outboundFailure =>
      simp only [SwarmActor.handleEvent, SwarmActor.handleServiceReqPq] at h
      split at h <;> simp at h
    | inboundFailure | responseSent => cases h
  | _ => exact absurd h (handleEvent_serviceless C A env (by simp) (by simp)).not_respond

theorem refused_oldEvent {event : SwarmEvent}
    (h : .respond channel response sealedAs ∈ A.rejectOldSwarmEvent C env event) :
    Refused C A channel response sealedAs event := by
  unfold SwarmActor.rejectOldSwarmEvent at h
  split at h
  · cases List.mem_singleton.1 h
    exact .plain _ _ _ (by simp [refusals])
  · split at h
    · cases h
    rename_i keys hkeys
    split at h
    · cases h
    rename_i inbound hopen
    obtain ⟨rfl, rfl, hcarries⟩ := respond_respondPq h
    exact .pq _ _ _ keys inbound sealedAs hkeys hopen hcarries (.inl (by simp [refusals]))
  · exact absurd h (identityReply_serviceless C A _).not_respond
  · cases h

/-- **Why a step responds.** -/
theorem Stepped.responded {w w' : World} {input : Input} {effects : List Effect} (h : Stepped C W w input w' effects)
    (hmem : .respond channel response sealedAs ∈ effects) : Responded C w channel response sealedAs input := by
  have hhandled := h.handledAs
  generalize w'.actor = actor at hhandled
  generalize w'.phase = phase at hhandled
  cases hhandled with
  | event env event hrunning => exact .refused env event (refused_event hmem)
  | oldEvent env event resp swarm hreloading => exact .refused env event (refused_oldEvent hmem)
  | buildFailed env resp error hrunning => simp at hmem
  | reloadBegins env resp hrunning =>
    obtain ⟨entry, hin, hmem⟩ := List.mem_flatMap.1 hmem
    obtain ⟨requestId, -, hentry⟩ := List.mem_filterMap.1 hin
    obtain ⟨hchannel, rfl, hcarries⟩ := respond_respondInbound hmem
    exact .rejected env resp requestId entry hentry hchannel hcarries rfl
  | reloadEnds env resp swarm hreloading =>
    rcases List.mem_append.1 hmem with hmem | hmem
    · exact absurd hmem (finishReload_serviceless w.actor env swarm).not_respond
    · simp at hmem
  | command env command hrunning other =>
    cases command with
    | serviceSendResponse requestId response' =>
      simp only [SwarmActor.handleCommand, SwarmActor.serviceSendResponse] at hmem
      split at hmem
      · cases hmem
      · rename_i entry hentry
        obtain ⟨hchannel, rfl, hcarries⟩ := respond_respondInbound hmem
        exact .replied env requestId entry hentry hchannel hcarries
    | serviceSendRequest peer request addresses resp =>
      have hkind := serviceSendRequest_only C W w.actor env peer request addresses resp _ hmem
      simp [Effect.kind] at hkind
    | _ => exact absurd hmem (handleCommand_serviceless C W w.actor env (by simp) (by simp)).not_respond

end Respond

/-! ## What a caller is told -/

section Told

variable {C : Crypto} {W : Wire} {w w' : World} {input : Input} {effects : List Effect}

/-- **No command is answered with a response at once.** -/
theorem not_told_command {A : SwarmActor} {env : Env} {n : Nat} {response : Response} (command : Command) :
    .answer n (.response (.ok response)) ∉ (A.handleCommand C W env command).2 := by
  cases command with
  | serviceSendRequest peer request addresses resp =>
    have hdispatched := dispatched_serviceSendRequest C W A env peer request addresses resp
    simp only [SwarmActor.handleCommand]
    generalize A.serviceSendRequest C W env peer request addresses resp = r at hdispatched
    cases hdispatched with
    | refused error pending fetched only =>
      intro hmem
      rcases List.mem_append.1 hmem with hmem | hmem
      · obtain ⟨id, heq⟩ := only _ hmem
        cases heq
      · simp at hmem
    | plain | pq => simp
  | serviceSendResponse requestId response =>
    exact not_answer_of_only _ (serviceSendResponse_only C A env requestId response) (by simp)
  | _ => exact (handleCommand_serviceless C W A env (by simp) (by simp)).not_told

/-- **A caller is told a response only at the event that brings it**, of the request its entry waits for. -/
theorem Stepped.told_ok (h : Stepped C W w input w' effects) {n : Nat} {response : Response}
    (hmem : .answer n (.response (.ok response)) ∈ effects) :
    ∃ env event id entry, input = .event env event ∧ event.slot = some (OutboundEntry.slot id entry) ∧
      w.actor.holds id entry ∧ entry.resp = n ∧ entry.result C env event = some (.ok response) := by
  have hhandled := h.handledAs
  generalize w'.actor = actor at hhandled
  generalize w'.phase = phase at hhandled
  cases hhandled with
  | event env event hrunning =>
    obtain ⟨slot, hslot, hwaiter⟩ := answer_slot hmem
    have hown : ∀ id entry, w.actor.holds id entry → slot = entry.slot id → entry.resp = n →
        ∃ env' event' id entry, Input.event env event = .event env' event' ∧
          event'.slot = some (OutboundEntry.slot id entry) ∧ w.actor.holds id entry ∧ entry.resp = n ∧
          entry.result C env' event' = some (.ok response) := by
      rintro id entry hheld rfl hresp
      obtain ⟨result, hresult, heffects⟩ := event_own C env hheld hslot
      rw [heffects] at hmem
      obtain ⟨-, hreply⟩ := Effect.answer.inj (List.mem_singleton.1 hmem)
      rw [← Reply.response.inj hreply] at hresult
      exact ⟨env, event, id, entry, rfl, hslot, hheld, hresp, hresult⟩
    cases slot with
    | kad q =>
      unfold SwarmEvent.slot at hslot
      split at hslot <;> cases hslot
      exact absurd hmem (handleKadEvent_serviceless C w.actor env _).not_told
    | outbound id =>
      obtain ⟨pending, hentry, hresp⟩ := Option.map_eq_some_iff.1 hwaiter
      exact hown id (.plain pending) hentry rfl hresp
    | outboundPq id =>
      obtain ⟨pending, hentry, hresp⟩ := Option.map_eq_some_iff.1 hwaiter
      exact hown id (.pq pending) hentry rfl hresp
  | oldEvent env event resp swarm hreloading =>
    exact absurd hmem (not_answer_of_only _ (rejectOldSwarmEvent_only C w.actor env event) (by simp))
  | buildFailed env resp error hrunning => simp at hmem
  | reloadBegins env resp hrunning =>
    exact absurd hmem (not_answer_of_only _ (beginReload_only C w.actor env) (by simp))
  | reloadEnds env resp swarm hreloading =>
    rcases List.mem_append.1 hmem with hmem | hmem
    · exact absurd hmem (finishReload_serviceless w.actor env swarm).not_told
    · simp at hmem
  | command env command hrunning other => exact absurd hmem (not_told_command command)

end Told

end Actor
end NexusNet
