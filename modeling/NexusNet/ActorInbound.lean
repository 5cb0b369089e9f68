import NexusNet.ActorRuns
/-!
# ActorInbound — the channels of inbound requests

An inbound request is answered in the step that refuses it, or it waits in the table until a response command, a reload
or the end of its connection takes it out.  `Served` lists what a step does to the table, to the channels and to the
controller; from it every run answers each channel at most once, and only while the connection it came by is open
(`channelsSound_run`, `ChannelsSound.open_when_answered`).
-/
namespace NexusNet
namespace Actor

open Pq (Crypto Wire PqKeys)

/-- A request on its way from the actor to a backend. -/
structure Job where
  peer : PeerId
  requestId : String
  service : String
  payload : Bytes
deriving DecidableEq

def Effect.admitted : Effect → Option Job
  | .emit (.inboundServiceRequest peer requestId service payload) => some ⟨peer, requestId, service, payload⟩
  | _ => none

/-- The channel an effect answers on, and the response if the request was one for a service. -/
def Effect.responded : Effect → Option (Nat × Option Response)
  | .respond channel response _ => some (channel, some response)
  | .respondIdentity channel _ => some (channel, none)
  | _ => none

def admitted (effects : List Effect) : List Job := effects.filterMap Effect.admitted

def responses (effects : List Effect) : List (Nat × Option Response) := effects.filterMap Effect.responded

def awaited (effects : List Effect) : List String := effects.filterMap Effect.awaited

theorem responses_append (fx gx : List Effect) : responses (fx ++ gx) = responses fx ++ responses gx :=
  List.filterMap_append

/-- **What a step does for inbound requests**: to the table, on the channels, and towards the controller. -/
inductive Served (w : World) : Input → Dict String PendingInboundEntry → List (Nat × Option Response) → List Job → Prop where
  | quiet (input : Input)
      (kept : w.phase = .running →
        input.isReloadEnd = false ∧ ∀ env peer connection n, input ≠ .event env (.connectionClosed peer connection n)) :
      Served w input w.actor.pendingInbound [] []
  | own (env : Env) (event : SwarmEvent) (connection channel : Nat) (answers : List (Nat × Option Response))
      (inbound : event.inbound = some (connection, channel))
      (one : answers = [] ∨ ∃ response, answers = [(channel, response)]) :
      Served w (.event env event) w.actor.pendingInbound answers []
  | admits (env : Env) (event : SwarmEvent) (peer : PeerId) (connection : Nat) (pending : PendingInbound) (request : Request)
      (running : w.phase = .running) (inbound : event.inbound = some (connection, pending.channel)) :
      Served w (.event env event) (w.actor.pendingInbound.insert env.requestId ⟨connection, peer, pending⟩) []
        [⟨peer, env.requestId, request.service, request.payload⟩]
  | responds (env : Env) (requestId : String) (response : Response) (entry : PendingInboundEntry)
      (answers : List (Nat × Option Response)) (waits : w.actor.pendingInbound.lookup requestId = some entry)
      (one : answers = [] ∨ answers = [(entry.pending.channel, some response)]) :
      Served w (.command env (.serviceSendResponse requestId response)) (w.actor.pendingInbound.erase requestId) answers []
  | closes (env : Env) (peer : PeerId) (connection n : Nat) :
      Served w (.event env (.connectionClosed peer connection n))
        (Dict.retain w.actor.pendingInbound (fun _ entry => entry.connection != connection)) [] []
  | drains (env : Env) (resp : Nat) (answers : List (Nat × Option Response))
      (all : answers.Sublist (((env.requestIds.list w.actor.pendingInbound.keys).filterMap
        w.actor.pendingInbound.lookup).map (fun entry => (entry.pending.channel, some reloadRejectionResponse)))) :
      Served w (.reload env resp none) ∅ answers []

section Handlers

variable {C : Crypto} {W : Wire} {A : SwarmActor} {env : Env}

theorem responses_respondPq (channel : Nat) (inbound : Pq.PqInbound) (response : Response) :
    responses (A.respondPq C env channel inbound response) = [] ∨
      responses (A.respondPq C env channel inbound response) = [(channel, some response)] := by
  unfold SwarmActor.respondPq
  split
  · split
    · exact .inr rfl
    · exact .inl rfl
  · exact .inl rfl

theorem responses_respondInbound (pending : PendingInbound) (response : Response) :
    responses (A.respondInbound C env pending response) = [] ∨
      responses (A.respondInbound C env pending response) = [(pending.channel, some response)] := by
  cases pending with
  | plain channel => exact .inr rfl
  | pq channel inbound => exact responses_respondPq channel inbound response

theorem responses_identityReply (channel : Nat) :
    responses (A.identityReply C channel) = [] ∨ responses (A.identityReply C channel) = [(channel, none)] := by
  unfold SwarmActor.identityReply
  split
  · exact .inl rfl
  split
  · split
    · exact .inr rfl
    · exact .inl rfl
  · exact .inl rfl

/-- Effects that only answer or respond hand nothing to the controller. -/
theorem not_admitted {kinds : List EffectKind} {effects : List Effect} (h : Only kinds effects)
    (hkinds : EffectKind.admission ∉ kinds) : admitted effects = [] ∧ awaited effects = [] := by
  constructor <;> refine List.filterMap_eq_nil_iff.2 (fun effect hmem => ?_)
  · cases effect with
    | emit event =>
      cases event with
      | inboundServiceRequest peer requestId service payload => exact absurd (h _ hmem) hkinds
      | _ => rfl
    | _ => rfl
  · cases effect with
    | awaitReply requestId => exact absurd (h _ hmem) hkinds
    | _ => rfl

theorem not_responded {kinds : List EffectKind} {effects : List Effect} (h : Only kinds effects)
    (hkinds : EffectKind.respond ∉ kinds) : responses effects = [] := by
  refine List.filterMap_eq_nil_iff.2 (fun effect hmem => ?_)
  cases effect with
  | respond | respondIdentity => exact absurd (h _ hmem) hkinds
  | _ => rfl

end Handlers

section Steps

variable {C : Crypto} {W : Wire} {w w' : World} {env : Env} {input : Input} {effects : List Effect}

/-- A handler serves inbound requests as `Served` says. -/
def ServedBy (w : World) (input : Input) (r : SwarmActor × List Effect) : Prop :=
  Served w input r.1.pendingInbound (responses r.2) (admitted r.2) ∧ awaited r.2 = (admitted r.2).map Job.requestId

/-- A handler that leaves the table alone and neither admits nor responds. -/
theorem servedBy_quiet (kinds : List EffectKind) {r : SwarmActor × List Effect} (htable : r.1.pendingInbound = w.actor.pendingInbound)
    (honly : Only kinds r.2) (hadmission : EffectKind.admission ∉ kinds) (hrespond : EffectKind.respond ∉ kinds)
    (hkept : w.phase = .running →
      input.isReloadEnd = false ∧ ∀ env peer connection n, input ≠ .event env (.connectionClosed peer connection n)) :
    ServedBy w input r := by
  obtain ⟨hadmitted, hawaited⟩ := not_admitted honly hadmission
  rw [ServedBy, hadmitted, hawaited, not_responded honly hrespond, htable]
  exact ⟨.quiet input hkept, rfl⟩

/-- One that leaves the table alone and answers at most on the channel of its own request. -/
theorem servedBy_own {event : SwarmEvent} {connection channel : Nat} {r : SwarmActor × List Effect}
    (htable : r.1.pendingInbound = w.actor.pendingInbound) (honly : Only [.respond] r.2)
    (hinbound : event.inbound = some (connection, channel))
    (hone : responses r.2 = [] ∨ ∃ response, responses r.2 = [(channel, response)]) :
    ServedBy w (.event env event) r := by
  obtain ⟨hadmitted, hawaited⟩ := not_admitted honly (by simp)
  rw [ServedBy, hadmitted, hawaited, htable]
  exact ⟨.own env event connection channel _ hinbound hone, rfl⟩

theorem servedBy_admit (hrunning : w.phase = .running) {event : SwarmEvent} {peer : PeerId} {connection : Nat}
    {pending : PendingInbound} {request : Request} (hinbound : event.inbound = some (connection, pending.channel)) :
    ServedBy w (.event env event) (w.actor.admitRequest env peer connection pending request) :=
  ⟨.admits env event peer connection pending request hrunning hinbound, rfl⟩

/-- The connection an event ends. -/
def SwarmEvent.closes : SwarmEvent → Option Nat
  | .connectionClosed _ connection _ => some connection
  | _ => none

/-- An event that does not end a connection takes no request off the table. -/
theorem kept_event {event : SwarmEvent} (hopen : event.closes = none) : w.phase = .running →
    (Input.event env event).isReloadEnd = false ∧
      ∀ env' peer connection n, Input.event env event ≠ .event env' (.connectionClosed peer connection n) := by
  refine fun _ => ⟨rfl, fun env' peer connection n heq => ?_⟩
  cases heq
  cases hopen

theorem servedBy_nothing {event : SwarmEvent} (hopen : event.closes = none) :
    ServedBy w (.event env event) (w.actor, []) := ⟨.quiet _ (kept_event hopen), rfl⟩

theorem servedBy_serviceReq (hrunning : w.phase = .running) (event : ReqEvent Request Response) :
    ServedBy w (.event env (.serviceReq event)) (w.actor.handleServiceReq env event) := by
  cases event with
  | request peer connection request channel =>
    simp only [SwarmActor.handleServiceReq]
    split
    · exact servedBy_own rfl (by simp [Effect.kind]) rfl (.inr ⟨_, rfl⟩)
    · exact servedBy_admit hrunning rfl
  | response | outboundFailure =>
    simp only [SwarmActor.handleServiceReq]
    split <;> exact servedBy_quiet [.answer] rfl (by simp [Effect.kind]) (by simp) (by simp) (kept_event rfl)
  | _ => exact servedBy_nothing rfl

theorem servedBy_serviceReqPq (hrunning : w.phase = .running) (event : ReqEvent Pq.PqRequest Pq.PqResponse) :
    ServedBy w (.event env (.serviceReqPq event)) (w.actor.handleServiceReqPq C env event) := by
  cases event with
  | request peer connection request channel =>
    have hown : ∀ inbound response, ServedBy w (.event env (.serviceReqPq (.request peer connection request channel)))
        (w.actor, w.actor.respondPq C env channel inbound response) := fun inbound response =>
      servedBy_own rfl (respondPq_only C w.actor env _ _ _) rfl
        ((responses_respondPq channel inbound response).imp id (fun h => ⟨_, h⟩))
    simp only [SwarmActor.handleServiceReqPq, SwarmActor.handlePqRequest]
    split
    · exact servedBy_nothing rfl
    split
    · exact servedBy_nothing rfl
    split
    · exact hown _ _
    split
    · exact hown _ _
    · exact servedBy_admit hrunning rfl
  | response | outboundFailure =>
    simp only [SwarmActor.handleServiceReqPq]
    split <;> exact servedBy_quiet [.answer] rfl (by simp [Effect.kind]) (by simp) (by simp) (kept_event rfl)
  | _ => exact servedBy_nothing rfl

theorem servedBy_pqIdentity (event : ReqEvent Unit Pq.PqIdentity) :
    ServedBy w (.event env (.pqIdentity event)) (w.actor.handlePqIdentity C event) := by
  cases event with
  | request peer connection request channel =>
    exact servedBy_own rfl (identityReply_only C w.actor channel) rfl
      ((responses_identityReply channel).imp id (fun h => ⟨_, h⟩))
  | response id response =>
    obtain ⟨identities, pending, heq⟩ := handlePqIdentity_frame C w.actor (.response id response)
    refine servedBy_quiet [] (by rw [heq]) ?_ (by simp) (by simp) (kept_event rfl)
    simp only [SwarmActor.handlePqIdentity]
    split
    · exact only_nil
    · split <;> exact only_nil
  | _ => exact servedBy_nothing rfl

theorem servedBy_event (hrunning : w.phase = .running) (event : SwarmEvent) :
    ServedBy w (.event env event) (w.actor.handleEvent C env event) := by
  cases event with
  | kademlia event =>
    obtain ⟨kad, notice, heq⟩ := handleKadEvent_frame C w.actor env event
    exact servedBy_quiet _ (by simp only [SwarmActor.handleEvent, heq]) (handleKadEvent_only C w.actor env event) (by simp)
      (by simp) (kept_event rfl)
  | serviceReq event => exact servedBy_serviceReq hrunning event
  | serviceReqPq event => exact servedBy_serviceReqPq hrunning event
  | pqIdentity event => exact servedBy_pqIdentity event
  | identifyReceived peer info =>
    obtain ⟨peers, pending, heq⟩ := onIdentifyPeer_frame w.actor env peer info
    exact servedBy_quiet [.other] (by simp only [SwarmActor.handleEvent, heq])
      (only_append.2 ⟨onIdentifyPeer_only w.actor env peer info, by simp [Effect.kind]⟩) (by simp) (by simp) (kept_event rfl)
  | connectionClosed peer connection n =>
    refine ⟨?_, rfl⟩
    have htable : (w.actor.connectionClosed peer connection n).pendingInbound =
        Dict.retain w.actor.pendingInbound (fun _ entry => entry.connection != connection) := by
      unfold SwarmActor.connectionClosed
      simp only
      split <;> rfl
    simp only [SwarmActor.handleEvent, htable]
    exact .closes env peer connection n
  | newListenAddr addr =>
    refine servedBy_quiet [.other] rfl ?_ (by simp) (by simp) (kept_event rfl)
    simp only [SwarmActor.handleEvent]
    split <;> simp [Effect.kind]
  | _ => exact servedBy_nothing rfl

theorem servedBy_command (command : Command) :
    ServedBy w (.command env command) (w.actor.handleCommand C W env command) := by
  have hkept : ∀ {command : Command}, w.phase = .running → (Input.command env command).isReloadEnd = false ∧
      ∀ env' peer connection n, Input.command env command ≠ .event env' (.connectionClosed peer connection n) :=
    fun _ => ⟨rfl, fun _ _ _ _ h => (by cases h)⟩
  have hquery : ∀ {command : Command} storeError query pending,
      ServedBy w (.command env command) (w.actor.startQuery env storeError query pending) := by
    intro command storeError query pending
    obtain ⟨kad, heq⟩ := startQuery_frame w.actor env storeError query pending
    exact servedBy_quiet _ (by rw [heq]) (startQuery_only w.actor env storeError query pending) (by simp) (by simp) hkept
  have hlocal : ∀ {command : Command} effect resp, effect.kind = .other →
      ServedBy w (.command env command) (w.actor.kadLocal effect resp) := fun effect resp hkind =>
    servedBy_quiet _ (by rw [kadLocal_frame]) (kadLocal_only w.actor resp hkind) (by simp) (by simp) hkept
  cases command with
  | kadGetRecordAll | kadGetProviders | kadGetClosestPeers | kadPutRecord | kadStartProviding => exact hquery _ _ _
  | kadStopProviding key resp => exact hlocal _ _ rfl
  | kadRemoveRecord key resp => exact hlocal _ _ rfl
  | kadCacheRefresh resp =>
    exact servedBy_quiet _ (by rw [SwarmActor.handleCommand, kadCacheRefresh_frame])
      (kadCacheRefresh_only w.actor env resp) (by simp) (by simp) hkept
  | serviceSendRequest peer request addresses resp =>
    obtain ⟨outbound, outboundPq, pending, heq⟩ := serviceSendRequest_frame C W w.actor env peer request addresses resp
    exact servedBy_quiet _ (by simp only [SwarmActor.handleCommand, heq])
      (serviceSendRequest_only C W w.actor env peer request addresses resp) (by simp) (by simp) hkept
  | serviceSendResponse requestId response =>
    simp only [SwarmActor.handleCommand, SwarmActor.serviceSendResponse]
    cases hentry : w.actor.pendingInbound.lookup requestId with
    | none => exact ⟨.quiet _ hkept, rfl⟩
    | some entry =>
      obtain ⟨hadmitted, hawaited⟩ := not_admitted (respondInbound_only C w.actor env entry.pending response) (by simp)
      simp only [ServedBy, hadmitted, hawaited]
      exact ⟨.responds env requestId response entry _ hentry (responses_respondInbound entry.pending response), rfl⟩
  | listenOn addr resp =>
    exact servedBy_quiet [.answer, .other] rfl (by simp [SwarmActor.handleCommand, Effect.kind]) (by simp) (by simp) hkept
  | dial addr resp =>
    exact servedBy_quiet [.answer, .other] rfl (by simp [SwarmActor.handleCommand, Effect.kind]) (by simp) (by simp) hkept
  | _ => exact ⟨.quiet _ hkept, rfl⟩

theorem responses_beginReload (entries : List PendingInboundEntry) :
    (responses (entries.flatMap (fun entry => w.actor.respondInbound C env entry.pending reloadRejectionResponse))).Sublist
      (entries.map (fun entry => (entry.pending.channel, some reloadRejectionResponse))) := by
  induction entries with
  | nil => exact .slnil
  | cons entry entries ih =>
    rw [List.flatMap_cons, responses_append, List.map_cons]
    rcases @responses_respondInbound C w.actor env entry.pending reloadRejectionResponse with h | h
    · rw [h]
      exact ih.cons _
    · rw [h]
      exact ih.cons_cons _

/-- **What a step does for inbound requests.** -/
theorem Stepped.served (h : Stepped C W w input w' effects) : ServedBy w input (w'.actor, effects) := by
  have hhandled := h.handledAs
  generalize w'.actor = actor at hhandled ⊢
  generalize w'.phase = phase at hhandled
  cases hhandled with
  | event env event hrunning => exact servedBy_event hrunning event
  | oldEvent env event resp swarm hreloading =>
    have hkept : w.phase = .running → (Input.event env event).isReloadEnd = false ∧
        ∀ env' peer connection n, Input.event env event ≠ .event env' (.connectionClosed peer connection n) := by
      intro hrunning
      rw [hreloading] at hrunning
      cases hrunning
    cases event with
    | serviceReq event =>
      cases event with
      | request peer connection request channel =>
        exact servedBy_own rfl (by simp [SwarmActor.rejectOldSwarmEvent, Effect.kind]) rfl (.inr ⟨_, rfl⟩)
      | _ => exact ⟨.quiet _ hkept, rfl⟩
    | serviceReqPq event =>
      cases event with
      | request peer connection request channel =>
        simp only [SwarmActor.rejectOldSwarmEvent]
        split
        · exact ⟨.quiet _ hkept, rfl⟩
        split
        · exact ⟨.quiet _ hkept, rfl⟩
        · exact servedBy_own rfl (respondPq_only C w.actor env _ _ _) rfl
            ((responses_respondPq channel _ _).imp id (fun h => ⟨_, h⟩))
      | _ => exact ⟨.quiet _ hkept, rfl⟩
    | pqIdentity event =>
      cases event with
      | request peer connection request channel =>
        exact servedBy_own rfl (identityReply_only C w.actor channel) rfl
          ((responses_identityReply channel).imp id (fun h => ⟨_, h⟩))
      | _ => exact ⟨.quiet _ hkept, rfl⟩
    | _ => exact ⟨.quiet _ hkept, rfl⟩
  | command env command hrunning hother => exact servedBy_command command
  | buildFailed env resp error hrunning => exact ⟨.quiet _ (fun _ => ⟨rfl, fun _ _ _ _ h => (by cases h)⟩), rfl⟩
  | reloadBegins env resp hrunning =>
    obtain ⟨hadmitted, hawaited⟩ := not_admitted (beginReload_only C w.actor env) (by simp)
    simp only [ServedBy, hadmitted, hawaited]
    exact ⟨.drains env resp _ (responses_beginReload _), rfl⟩
  | reloadEnds env resp swarm hreloading =>
    refine servedBy_quiet [.answer, .other] rfl
      (only_append.2 ⟨finishReload_only w.actor env swarm, by simp [Effect.kind]⟩) (by simp) (by simp) (fun hrunning => ?_)
    rw [hreloading] at hrunning
    cases hrunning

end Steps

/-! ## Connections -/

/-- **A connection that has closed is not open again.** -/
structure ConnectionsSound (inputs : List Input) (w : World) : Prop where
  established : w.connections ⊆ w.established
  closed : ∀ env peer connection n, .event env (.connectionClosed peer connection n) ∈ inputs →
    connection ∈ w.established ∧ connection ∉ w.connections

section Connections

variable {C : Crypto} {W : Wire} {w w' : World} {input : Input} {inputs : List Input} {effects : List Effect}

theorem Stepped.established_mono (h : Stepped C W w input w' effects) : w.established ⊆ w'.established := by
  rw [h.established]
  unfold World.establishedAfter
  split
  · exact Finset.subset_insert _ _
  · exact Finset.Subset.refl _

theorem Stepped.channels_mono (h : Stepped C W w input w' effects) : w.channels ⊆ w'.channels := by
  rw [h.channels]
  unfold World.channelsAfter
  split
  · rename_i env event
    cases event.inbound with
    | none => exact Finset.Subset.refl _
    | some p => exact Finset.subset_insert _ _
  · exact Finset.Subset.refl _

/-- A connection opens only if it has not been established before. -/
theorem Stepped.opened (h : Stepped C W w input w' effects) {connection : Nat} (hopen : connection ∈ w'.connections) :
    (connection ∈ w.connections ∨ connection ∉ w.established ∧ connection ∈ w'.established) ∧
      ∀ env peer n, input ≠ .event env (.connectionClosed peer connection n) := by
  have haccepts := h.accepts
  rw [h.connections] at hopen
  rw [h.established]
  unfold World.connectionsAfter at hopen
  unfold World.establishedAfter
  split at hopen
  · refine ⟨?_, fun _ _ _ heq => (by cases heq)⟩
    rcases Finset.mem_insert.1 hopen with rfl | hold
    · exact .inr ⟨of_decide_eq_true haccepts, Finset.mem_insert_self _ _⟩
    · exact .inl hold
  · obtain ⟨hne, hold⟩ := Finset.mem_erase.1 hopen
    refine ⟨.inl hold, fun env peer n heq => ?_⟩
    cases heq
    exact hne rfl
  · cases hopen
  · rename_i hclosed _
    exact ⟨.inl hopen, fun env peer n heq => hclosed env peer connection n heq⟩

theorem ConnectionsSound.step (h : ConnectionsSound inputs w) (hstep : Stepped C W w input w' effects) :
    ConnectionsSound (inputs ++ [input]) w' := by
  refine ⟨fun connection hopen => ?_, fun env peer connection n hmem => ?_⟩
  · rcases (hstep.opened hopen).1 with hold | hnew
    · exact hstep.established_mono (h.established hold)
    · exact hnew.2
  · have hbefore : connection ∈ w.established ∧ (connection ∈ w'.connections → connection ∉ w.connections) := by
      rcases List.mem_append.1 hmem with hmem | hmem
      · obtain ⟨hest, hnot⟩ := h.closed env peer connection n hmem
        exact ⟨hest, fun _ => hnot⟩
      · obtain rfl := List.mem_singleton.1 hmem
        exact ⟨h.established (of_decide_eq_true hstep.accepts),
          fun hopen => absurd rfl ((hstep.opened hopen).2 env peer n)⟩
    refine ⟨hstep.established_mono hbefore.1, fun hopen => ?_⟩
    rcases (hstep.opened hopen).1 with hold | hnew
    · exact hbefore.2 hopen hold
    · exact hnew.1 hbefore.1

end Connections

/-! ## Runs -/

/-- **What a run keeps of the channels**: each is answered at most once, and every entry of the table waits on a channel of
its own that has not been answered, of an open connection.  `sent` is what the run has answered. -/
structure ChannelsSound (inputs : List Input) (sent : List (Nat × Option Response)) (w : World) : Prop where
  once : (sent.map Prod.fst).Nodup
  known : ∀ channel ∈ sent.map Prod.fst, channel ∈ w.channels
  entry : ∀ id entry, w.actor.pendingInbound.lookup id = some entry →
    entry.pending.channel ∈ w.channels ∧ entry.pending.channel ∉ sent.map Prod.fst ∧ entry.connection ∈ w.connections ∧
      ∃ env event, .event env event ∈ inputs ∧ event.inbound = some (entry.connection, entry.pending.channel)
  distinct : ∀ id id' entry entry', w.actor.pendingInbound.lookup id = some entry →
    w.actor.pendingInbound.lookup id' = some entry' → entry.pending.channel = entry'.pending.channel → id = id'
  drained : w.phase ≠ .running → ∀ id, w.actor.pendingInbound.lookup id = none

section Runs

variable {C : Crypto} {W : Wire} {w w' : World} {input : Input} {inputs : List Input} {effects : List Effect}
  {sent : List (Nat × Option Response)}

/-- **A request comes by an open connection, on a new channel.** -/
theorem Stepped.inbound {env : Env} {event : SwarmEvent} (h : Stepped C W w (.event env event) w' effects)
    {connection channel : Nat} (hinbound : event.inbound = some (connection, channel)) :
    connection ∈ w.connections ∧ channel ∉ w.channels ∧ channel ∈ w'.channels ∧ w'.connections = w.connections := by
  have haccepts := h.accepts
  have hchannels := h.channels
  simp only [World.channelsAfter, hinbound, Option.elim_some] at hchannels
  have hnew : channel ∈ w'.channels := by
    rw [hchannels]
    exact Finset.mem_insert_self _ _
  have hconnections := h.connections
  cases event with
  | serviceReq | serviceReqPq | pqIdentity =>
    simp only [World.accepts, hinbound, Option.all_some, decide_eq_true_eq] at haccepts
    exact ⟨haccepts.1, haccepts.2, hnew, hconnections⟩
  | _ => cases hinbound

/-- **What a step answers**: distinct channels that were not answered before, of requests that came by connections still
open. -/
theorem ChannelsSound.answered (h : ChannelsSound inputs sent w) (hstep : Stepped C W w input w' effects) :
    ((responses effects).map Prod.fst).Nodup ∧ ∀ channel ∈ (responses effects).map Prod.fst,
      channel ∉ sent.map Prod.fst ∧ channel ∈ w'.channels ∧ ∃ env event connection,
        .event env event ∈ inputs ++ [input] ∧ event.inbound = some (connection, channel) ∧ connection ∈ w.connections := by
  have hwaiting : ∀ id entry, w.actor.pendingInbound.lookup id = some entry →
      entry.pending.channel ∉ sent.map Prod.fst ∧ entry.pending.channel ∈ w'.channels ∧ ∃ env event connection,
        .event env event ∈ inputs ++ [input] ∧ event.inbound = some (connection, entry.pending.channel) ∧
          connection ∈ w.connections := by
    intro id entry hentry
    obtain ⟨hknown, hnot, hopen, env, event, hmem, hinbound⟩ := h.entry id entry hentry
    exact ⟨hnot, hstep.channels_mono hknown, env, event, entry.connection, List.mem_append_left _ hmem, hinbound, hopen⟩
  have hserved := hstep.served.1
  generalize w'.actor.pendingInbound = table at hserved
  generalize responses effects = answers at hserved ⊢
  generalize admitted effects = jobs at hserved
  cases hserved with
  | quiet | closes | admits => exact ⟨.nil, fun channel hmem => (by cases hmem)⟩
  | own env event connection channel _ hinbound hone =>
    rcases hone with rfl | ⟨response, rfl⟩
    · exact ⟨.nil, fun channel hmem => (by cases hmem)⟩
    · obtain ⟨hopen, hnew, hin, -⟩ := hstep.inbound hinbound
      refine ⟨List.nodup_singleton _, fun channel' hmem => ?_⟩
      obtain rfl := List.mem_singleton.1 hmem
      exact ⟨fun hold => hnew (h.known _ hold), hin, env, event, connection, by simp, hinbound, hopen⟩
  | responds env requestId response entry _ hentry hone =>
    rcases hone with rfl | rfl
    · exact ⟨.nil, fun channel hmem => (by cases hmem)⟩
    · refine ⟨List.nodup_singleton _, fun channel hmem => ?_⟩
      obtain rfl := List.mem_singleton.1 hmem
      exact hwaiting requestId entry hentry
  | drains env resp _ hall =>
    have hchannels := hall.map Prod.fst
    rw [List.map_map] at hchannels
    refine ⟨List.Nodup.sublist hchannels ?_, fun channel hmem => ?_⟩
    · -- the drained entries have different ids, so different channels
      rw [List.map_filterMap]
      refine (env.requestIds.nodup_list _).filterMap (fun id id' channel hid hid' => ?_)
      obtain ⟨entry, hentry, rfl⟩ := Option.map_eq_some_iff.1 (Option.mem_def.1 hid)
      obtain ⟨entry', hentry', heq⟩ := Option.map_eq_some_iff.1 (Option.mem_def.1 hid')
      exact h.distinct id id' entry entry' hentry hentry' heq.symm
    · obtain ⟨entry, hin, rfl⟩ := List.mem_map.1 (hchannels.subset hmem)
      obtain ⟨id, -, hentry⟩ := List.mem_filterMap.1 hin
      exact hwaiting id entry hentry

/-- **An entry after a step** was there before, or came with the step on a new channel; its connection is open. -/
theorem ChannelsSound.kept (h : ChannelsSound inputs sent w) (hstep : Stepped C W w input w' effects) {id : String}
    {entry : PendingInboundEntry} (hentry : w'.actor.pendingInbound.lookup id = some entry) :
    (entry.pending.channel ∉ (responses effects).map Prod.fst ∧ entry.connection ∈ w'.connections) ∧
      (w.actor.pendingInbound.lookup id = some entry ∨
        (entry.pending.channel ∉ w.channels ∧ entry.pending.channel ∈ w'.channels) ∧
          (∃ env event, .event env event = input ∧ event.inbound = some (entry.connection, entry.pending.channel)) ∧
          ∀ id', id' ≠ id → w'.actor.pendingInbound.lookup id' = w.actor.pendingInbound.lookup id') := by
  have hconnections := hstep.connections
  have hserved := hstep.served.1
  generalize w'.actor.pendingInbound = table at hserved hentry ⊢
  generalize responses effects = answers at hserved ⊢
  generalize admitted effects = jobs at hserved
  cases hserved with
  | quiet _ hkept =>
    refine ⟨⟨List.not_mem_nil, ?_⟩, .inl hentry⟩
    obtain ⟨-, -, hopen, -⟩ := h.entry id entry hentry
    by_cases hrunning : w.phase = .running
    · obtain ⟨hend, hclosed⟩ := hkept hrunning
      rw [hconnections]
      unfold World.connectionsAfter
      split
      · exact Finset.mem_insert_of_mem hopen
      · exact absurd rfl (hclosed _ _ _ _)
      · cases hend
      · exact hopen
    · rw [h.drained hrunning id] at hentry
      cases hentry
  | own env event connection channel _ hinbound hone =>
    obtain ⟨-, hnew, -, hsame⟩ := hstep.inbound hinbound
    obtain ⟨hknown, -, hopen, -⟩ := h.entry id entry hentry
    refine ⟨⟨?_, by rwa [hsame]⟩, .inl hentry⟩
    have hne : entry.pending.channel ≠ channel := fun heq => hnew (heq ▸ hknown)
    rcases hone with rfl | ⟨response, rfl⟩
    · exact List.not_mem_nil
    · simpa using hne
  | admits env event peer connection pending request hrunning hinbound =>
    obtain ⟨hopen, hnew, hin, hsame⟩ := hstep.inbound hinbound
    rw [Dict.lookup_insert_ite] at hentry
    split at hentry
    · rename_i heq
      cases hentry
      refine ⟨⟨List.not_mem_nil, by rwa [hsame]⟩, .inr ⟨⟨hnew, hin⟩, ⟨env, event, rfl, hinbound⟩, fun id' hne => ?_⟩⟩
      rw [Dict.lookup_insert_ite, if_neg (fun h => hne (h.trans heq.symm))]
    · obtain ⟨-, -, hopen', -⟩ := h.entry id entry hentry
      exact ⟨⟨List.not_mem_nil, by rwa [hsame]⟩, .inl hentry⟩
  | responds env requestId response waiting _ hwaiting hone =>
    rw [Dict.lookup_erase_ite] at hentry
    split at hentry
    · cases hentry
    · rename_i hne
      obtain ⟨-, -, hopen, -⟩ := h.entry id entry hentry
      refine ⟨⟨?_, by rwa [hconnections]⟩, .inl hentry⟩
      rcases hone with rfl | rfl
      · exact List.not_mem_nil
      · simpa using fun heq => hne (h.distinct id requestId entry waiting hentry hwaiting heq)
  | closes env peer connection n =>
    rw [Dict.lookup_retain, Option.filter_eq_some_iff] at hentry
    obtain ⟨-, -, hopen, -⟩ := h.entry id entry hentry.1
    refine ⟨⟨List.not_mem_nil, ?_⟩, .inl hentry.1⟩
    rw [hconnections]
    exact Finset.mem_erase.2 ⟨by simpa using hentry.2, hopen⟩
  | drains env resp _ hall => simp at hentry

theorem ChannelsSound.step (h : ChannelsSound inputs sent w) (hstep : Stepped C W w input w' effects) :
    ChannelsSound (inputs ++ [input]) (sent ++ responses effects) w' := by
  obtain ⟨hnodup, hanswered⟩ := h.answered hstep
  refine ⟨?_, fun channel hmem => ?_, fun id entry hentry => ?_, fun id id' entry entry' hentry hentry' heq => ?_,
    fun hphase id => ?_⟩
  · rw [List.map_append, List.nodup_append]
    refine ⟨h.once, hnodup, fun a ha b hb hab => ?_⟩
    rw [hab] at ha
    exact (hanswered b hb).1 ha
  · rw [List.map_append] at hmem
    rcases List.mem_append.1 hmem with hmem | hmem
    · exact hstep.channels_mono (h.known channel hmem)
    · exact (hanswered channel hmem).2.1
  · obtain ⟨⟨hnot, hopen⟩, hold | ⟨⟨hnew, hin⟩, ⟨env, event, rfl, hinbound⟩, -⟩⟩ := h.kept hstep hentry
    · obtain ⟨hknown, hunsent, -, env, event, hmem, hinbound⟩ := h.entry id entry hold
      refine ⟨hstep.channels_mono hknown, ?_, hopen, env, event, List.mem_append_left _ hmem, hinbound⟩
      simp only [List.map_append, List.mem_append, not_or]
      exact ⟨hunsent, hnot⟩
    · refine ⟨hin, ?_, hopen, env, event, by simp, hinbound⟩
      simp only [List.map_append, List.mem_append, not_or]
      exact ⟨fun hold => hnew (h.known _ hold), hnot⟩
  · -- at most one of the two entries is new, and a new one has a new channel
    by_contra hne
    obtain ⟨-, hold | ⟨⟨hnew, -⟩, -, hothers⟩⟩ := h.kept hstep hentry
    · obtain ⟨-, hold' | ⟨⟨hnew, -⟩, -, -⟩⟩ := h.kept hstep hentry'
      · exact hne (h.distinct id id' entry entry' hold hold' heq)
      · exact hnew (heq ▸ (h.entry id entry hold).1)
    · rw [hothers id' (fun h => hne h.symm)] at hentry'
      exact hnew (heq ▸ (h.entry id' entry' hentry').1)
  · have hhandled := hstep.handledAs
    generalize w'.actor = actor at hhandled ⊢
    generalize w'.phase = phase at hhandled hphase
    cases hhandled with
    | oldEvent env event resp swarm hreloading => exact h.drained (by rw [hreloading]; exact Phase.noConfusion) id
    | reloadBegins env resp hrunning => exact Finmap.lookup_empty _
    | _ => exact absurd rfl hphase

/-- **A step admits nothing, or one request under a new id.** -/
theorem Stepped.admission (h : Stepped C W w input w' effects) :
    (admitted effects = [] ∧ awaited effects = [] ∧
      ∀ id entry, w'.actor.pendingInbound.lookup id = some entry → w.actor.pendingInbound.lookup id = some entry) ∨
    ∃ env event entry job, input = .event env event ∧ event.inbound = some (entry.connection, entry.pending.channel) ∧
      admitted effects = [job] ∧ awaited effects = [job.requestId] ∧ responses effects = [] ∧
      job.requestId ∉ w.requestIds ∧
      w'.actor.pendingInbound = w.actor.pendingInbound.insert job.requestId entry := by
  obtain ⟨hserved, hawaited⟩ := h.served
  simp only at hserved hawaited
  have hfresh : ∀ id ∈ awaited effects, id ∉ w.requestIds := by
    intro id hmem
    obtain ⟨effect, hin, heq⟩ := List.mem_filterMap.1 hmem
    exact (h.fresh effect hin).2 id heq
  generalize w'.actor.pendingInbound = table at hserved ⊢
  generalize responses effects = answers at hserved ⊢
  generalize admitted effects = jobs at hserved hawaited ⊢
  cases hserved with
  | quiet | own => exact .inl ⟨rfl, hawaited, fun _ _ hentry => hentry⟩
  | admits env event peer connection pending request hrunning hinbound =>
    refine .inr ⟨env, event, ⟨connection, peer, pending⟩, _, rfl, hinbound, rfl, hawaited, rfl, ?_, rfl⟩
    exact hfresh _ (by simp [hawaited])
  | responds env requestId response entry _ _ _ =>
    refine .inl ⟨rfl, hawaited, fun id entry hentry => ?_⟩
    rw [Dict.lookup_erase_ite] at hentry
    split at hentry
    · cases hentry
    · exact hentry
  | closes env peer connection n =>
    refine .inl ⟨rfl, hawaited, fun id entry hentry => ?_⟩
    rw [Dict.lookup_retain, Option.filter_eq_some_iff] at hentry
    exact hentry.1
  | drains env resp _ _ => exact .inl ⟨rfl, hawaited, fun id entry hentry => (by simp at hentry)⟩

/-- **What a step answers** is a refusal of the request it brings, the response of a command, or the rejection of a
reload. -/
theorem Stepped.answered (h : Stepped C W w input w' effects) {a : Nat × Option Response} (ha : a ∈ responses effects) :
    (a.1 ∉ w.channels ∧ a.1 ∈ w'.channels) ∨
    (∃ env requestId response entry, input = .command env (.serviceSendResponse requestId response) ∧
      w.actor.pendingInbound.lookup requestId = some entry ∧ a = (entry.pending.channel, some response)) ∨
    ∃ requestId entry, w.actor.pendingInbound.lookup requestId = some entry ∧
      a = (entry.pending.channel, some reloadRejectionResponse) := by
  have hserved := h.served.1
  generalize w'.actor.pendingInbound = table at hserved
  generalize responses effects = answers at hserved ha
  generalize admitted effects = jobs at hserved
  cases hserved with
  | quiet | closes | admits => cases ha
  | own env event connection channel _ hinbound hone =>
    obtain ⟨-, hnew, hin, -⟩ := h.inbound hinbound
    rcases hone with rfl | ⟨response, rfl⟩
    · cases ha
    · rw [List.mem_singleton.1 ha]
      exact .inl ⟨hnew, hin⟩
  | responds env requestId response entry _ hentry hone =>
    rcases hone with rfl | rfl
    · cases ha
    · exact .inr (.inl ⟨env, requestId, response, entry, rfl, hentry, List.mem_singleton.1 ha⟩)
  | drains env resp _ hall =>
    obtain ⟨entry, hin, rfl⟩ := List.mem_map.1 (hall.subset ha)
    obtain ⟨id, -, hentry⟩ := List.mem_filterMap.1 hin
    exact .inr (.inr ⟨id, entry, hentry, rfl⟩)

/-- **A response command takes its request out of the table.** -/
theorem Stepped.response_done {env : Env} {requestId : String} {response : Response}
    (h : Stepped C W w (.command env (.serviceSendResponse requestId response)) w' effects) :
    w'.actor.pendingInbound.lookup requestId = none := by
  have hhandled := h.handledAs
  generalize w'.actor = actor at hhandled ⊢
  generalize w'.phase = phase at hhandled
  cases hhandled with
  | command env command hrunning hother =>
    simp only [SwarmActor.handleCommand, SwarmActor.serviceSendResponse]
    split
    · rename_i hnone
      exact hnone
    · exact (Dict.lookup_erase_ite _ _ _).trans (if_pos rfl)

variable {config : NodeConfig} {nodes : List Multiaddr} {keypair : Bytes} {keys : Option PqKeys}

/-- **Every run keeps the channels.** -/
theorem channelsSound_run {inputs : List Input} {w : World}
    (hrun : (swarmActor C W config nodes keypair keys).run inputs = some w) :
    ConnectionsSound inputs w ∧
      ChannelsSound inputs (responses ((swarmActor C W config nodes keypair keys).outputs (World.effects C W)
        (swarmActor C W config nodes keypair keys).init inputs)) w := by
  refine ((swarmActor C W config nodes keypair keys).history_invariant
    (P := fun inputs w => (swarmActor C W config nodes keypair keys).run inputs = some w ∧ ConnectionsSound inputs w ∧
      ChannelsSound inputs (responses ((swarmActor C W config nodes keypair keys).outputs (World.effects C W)
        (swarmActor C W config nodes keypair keys).init inputs)) w) ⟨rfl, ?_, ?_⟩ ?_ inputs w hrun
    (Machine.meets_true _ _ _)).2
  · exact ⟨Finset.Subset.refl _, fun _ _ _ _ hmem => (by cases hmem)⟩
  · exact ⟨.nil, fun _ hmem => (by cases hmem), fun id entry hentry => (by simp [swarmActor, World.new, SwarmActor.new] at hentry),
      fun id id' entry entry' hentry => (by simp [swarmActor, World.new, SwarmActor.new] at hentry),
      fun hphase => absurd rfl hphase⟩
  · rintro inputs w input w' ⟨hbefore, hconnections, hchannels⟩ - hmachine
    have hstep := stepped_of_step hmachine
    refine ⟨(Machine.runFrom_concat _).2 ⟨w, hbefore, hmachine⟩, hconnections.step hstep, ?_⟩
    rw [Machine.outputs_append _ hbefore, Machine.outputs_singleton, responses_append]
    exact hchannels.step hstep

end Runs

end Actor
end NexusNet
