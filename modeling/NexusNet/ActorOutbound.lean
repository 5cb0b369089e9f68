import NexusNet.ActorQueries
/-!
# ActorOutbound — every service request tells its own caller

A `ServiceSendRequest` command is refused at once or sent on one of the two protocols, and then waits in the table of
that protocol under the id libp2p gave it.  What its caller is told is decided by the first response or failure that comes
for that id on that protocol, or by the end of a reload (`outcome`), and `service_requests_correlated` says that nothing
else is ever sent to the caller.
-/
namespace NexusNet
namespace Actor

open Pq (Crypto Wire PqKeys PqIdentity PqOutbound sendPqRequest)

/-! ## Requests under way -/

/-- The entry of a service request, in the table of its protocol. -/
inductive OutboundEntry where
  | plain (pending : PendingOutbound)
  | pq (pending : PqOutboundPending)

namespace OutboundEntry

def resp : OutboundEntry → Nat
  | .plain pending => pending.resp
  | .pq pending => pending.resp

def slot (id : Nat) : OutboundEntry → Slot
  | .plain _ => .outbound id
  | .pq _ => .outboundPq id

def behaviour : OutboundEntry → Behaviour
  | .plain _ => .serviceReq
  | .pq _ => .serviceReqPq

/-- What goes out for the entry. -/
def send (id : Nat) (peer : PeerId) (request : Request) (addresses : List Multiaddr) : OutboundEntry → Effect
  | .plain _ => .sendPlain id peer request addresses
  | .pq pending => .sendPq id peer pending.out.request addresses

/-- What an event about the entry's request means to its caller. -/
def result (C : Crypto) (env : Env) : OutboundEntry → SwarmEvent → Option (Except NetworkError Response)
  | .plain _, .serviceReq (.response _ response) => some (.ok response)
  | .plain pending, .serviceReq (.outboundFailure peer _ error) =>
    some (.error (.request
      (describeOutboundFailure false (env.display peer) serviceReqProtocol (some pending.wireLen) error)))
  | .pq pending, .serviceReqPq (.response _ response) => some (SwarmActor.openPqResponse C pending response)
  | .pq pending, .serviceReqPq (.outboundFailure peer _ error) =>
    some (.error (.request
      (describeOutboundFailure true (env.display peer) serviceReqPqProtocol (some pending.wireLen) error)))
  | _, _ => none

end OutboundEntry

/-- The entry stands in its table. -/
def SwarmActor.holds (A : SwarmActor) (id : Nat) : OutboundEntry → Prop
  | .plain pending => A.pendingOutbound.lookup id = some pending
  | .pq pending => A.pendingOutboundPq.lookup id = some pending

/-- **What a run tells the caller of a request**: the first event about it decides, unless a reload ends before.  The
events of the old swarm are drained during a reload. -/
def outcome (C : Crypto) (id : Nat) (entry : OutboundEntry) : Bool → List Input → List Reply
  | _, [] => []
  | reloading, input :: rest =>
    match input with
    | .event env event =>
      if event.slot = some (entry.slot id) ∧ reloading = false then (entry.result C env event).toList.map Reply.response
      else outcome C id entry reloading rest
    | .reload _ _ none => outcome C id entry true rest
    | .reloadEnd _ => [.response (.error .reloaded)]
    | _ => outcome C id entry reloading rest

section Events

variable {C : Crypto} {A A' : SwarmActor} {env : Env} {id : Nat} {entry : OutboundEntry} {event : SwarmEvent}

/-- The request that waits at a place. -/
def SwarmActor.outboundAt (A : SwarmActor) : Slot → Option OutboundEntry
  | .kad _ => none
  | .outbound id => (A.pendingOutbound.lookup id).map .plain
  | .outboundPq id => (A.pendingOutboundPq.lookup id).map .pq

theorem holds_iff : A.holds id entry ↔ A.outboundAt (entry.slot id) = some entry := by
  cases entry <;> simp [SwarmActor.holds, SwarmActor.outboundAt, OutboundEntry.slot]

theorem waiter_slot : A.waiter (entry.slot id) = (A.outboundAt (entry.slot id)).map OutboundEntry.resp := by
  cases entry <;> simp [SwarmActor.waiter, SwarmActor.outboundAt, OutboundEntry.slot, Function.comp_def, OutboundEntry.resp]

theorem SwarmActor.holds.waiter (h : A.holds id entry) : A.waiter (entry.slot id) = some entry.resp := by
  rw [waiter_slot, holds_iff.1 h, Option.map_some]

theorem outboundAt_congr (hplain : A'.pendingOutbound = A.pendingOutbound) (hpq : A'.pendingOutboundPq = A.pendingOutboundPq)
    (slot : Slot) : A'.outboundAt slot = A.outboundAt slot := by
  cases slot <;> simp only [SwarmActor.outboundAt, hplain, hpq]

/-- **What an event leaves of the requests**: only the one it is about is no longer waited for. -/
theorem outboundAt_event (slot : Slot) : (A.handleEvent C env event).1.outboundAt slot =
    if event.slot = some slot then none else A.outboundAt slot := by
  cases event with
  | kademlia event =>
    obtain ⟨kad, notice, heq⟩ := handleKadEvent_frame C A env event
    simp only [SwarmActor.handleEvent, heq]
    cases event <;> cases slot <;> simp [SwarmEvent.slot, SwarmActor.outboundAt]
  | serviceReq event =>
    cases event with
    | request peer connection request channel =>
      simp only [SwarmActor.handleEvent, SwarmActor.handleServiceReq]
      split <;> exact outboundAt_congr rfl rfl slot
    | response id | outboundFailure _ id =>
      cases hentry : A.pendingOutbound.lookup id <;> cases slot <;>
        simp only [SwarmActor.handleEvent, SwarmActor.handleServiceReq, hentry, SwarmEvent.slot, SwarmActor.outboundAt,
          Dict.lookup_erase_ite, Option.some.injEq, Slot.outbound.injEq, reduceCtorEq, if_false] <;> grind
    | inboundFailure | responseSent => rfl
  | serviceReqPq event =>
    cases event with
    | request peer connection request channel =>
      obtain ⟨inbound, heq⟩ := handlePqRequest_frame C A env peer connection request channel
      simp only [SwarmActor.handleEvent, SwarmActor.handleServiceReqPq, heq]
      exact outboundAt_congr rfl rfl slot
    | response id | outboundFailure _ id =>
      cases hentry : A.pendingOutboundPq.lookup id <;> cases slot <;>
        simp only [SwarmActor.handleEvent, SwarmActor.handleServiceReqPq, hentry, SwarmEvent.slot, SwarmActor.outboundAt,
          Dict.lookup_erase_ite, Option.some.injEq, Slot.outboundPq.injEq, reduceCtorEq, if_false] <;> grind
    | inboundFailure | responseSent => rfl
  | pqIdentity event =>
    obtain ⟨identities, pending, heq⟩ := handlePqIdentity_frame C A event
    simp only [SwarmActor.handleEvent, heq]
    exact outboundAt_congr rfl rfl slot
  | identifyReceived peer info =>
    obtain ⟨peers, pending, heq⟩ := onIdentifyPeer_frame A env peer info
    simp only [SwarmActor.handleEvent, heq]
    exact outboundAt_congr rfl rfl slot
  | connectionClosed peer connection numEstablished =>
    simp only [SwarmActor.handleEvent, SwarmActor.connectionClosed]
    split <;> exact outboundAt_congr rfl rfl slot
  | _ => exact outboundAt_congr rfl rfl slot

/-- **An event about a request** answers its caller. -/
theorem event_own (C : Crypto) (env : Env) (h : A.holds id entry) (hslot : event.slot = some (entry.slot id)) :
    ∃ result, entry.result C env event = some result ∧
      (A.handleEvent C env event).2 = [.answer entry.resp (.response result)] := by
  unfold SwarmEvent.slot at hslot
  cases entry with
  | plain | pq =>
    rw [SwarmActor.holds] at h
    split at hslot <;> cases hslot
    all_goals
      refine ⟨_, rfl, ?_⟩
      simp only [SwarmActor.handleEvent, SwarmActor.handleServiceReq, SwarmActor.handleServiceReqPq, h, OutboundEntry.resp]

end Events

/-! ## The command -/

section Sending

variable {C : Crypto} {W : Wire} {A : SwarmActor} {env : Env} {peer : PeerId} {request : Request}
  {addresses : List Multiaddr} {resp : Nat}

/-- **What comes of a `ServiceSendRequest`**: it is refused with one error and nothing is sent to the peer, or it is sent
on one of the protocols and waits under the new id.  A sealed request is sealed with the node's keys for the identity that
is cached for the peer. -/
inductive Dispatched (C : Crypto) (W : Wire) (A : SwarmActor) (env : Env) (peer : PeerId) (request : Request)
    (addresses : List Multiaddr) (resp : Nat) : SwarmActor × List Effect → Prop where
  | refused (error : NetworkError) (pending : Dict Nat PeerId) (fetched : List Effect)
      (only : ∀ effect ∈ fetched, ∃ id, effect = .fetchIdentity id peer) :
      Dispatched C W A env peer request addresses resp
        ({ A with pendingPqIdentity := pending }, fetched ++ [.answer resp (.response (.error error))])
  | plain (fits : W.request request ≤ env.config.dispatcher.maxRequestBytes) :
      Dispatched C W A env peer request addresses resp
        ({ A with pendingOutbound := A.pendingOutbound.insert env.fresh ⟨resp, W.request request⟩ },
          [.sendPlain env.fresh peer request addresses])
  | pq (recipient : PqIdentity) (keys : PqKeys) (out : PqOutbound) (identity : A.pqIdentities.lookup peer = some recipient)
      (keysLoaded : A.pqKeys = some keys)
      (sealedFor : sendPqRequest C W env.config keys recipient A.keypair env.draw request = .ok out) :
      Dispatched C W A env peer request addresses resp
        ({ A with pendingOutboundPq := A.pendingOutboundPq.insert env.fresh ⟨resp, out, W.pqRequest out.request⟩ },
          [.sendPq env.fresh peer out.request addresses])

theorem Dispatched.of_refuse (error : NetworkError) :
    Dispatched C W A env peer request addresses resp (A.refuse resp error) :=
  .refused error A.pendingPqIdentity [] (fun _ h => (by cases h))

theorem sendSecurity_pq {transport required keysAvailable identityAvailable : Bool} {supportsPq : Option Bool}
    (h : sendSecurity transport required keysAvailable identityAvailable supportsPq = .pq) :
    keysAvailable = true ∧ identityAvailable = true := by
  unfold sendSecurity at h
  cases keysAvailable <;> cases identityAvailable <;> cases transport <;> cases required <;>
    rcases supportsPq with _ | _ | _ <;> simp_all

theorem maybeFetchPqIdentity_effects {effect : Effect} (h : effect ∈ (A.maybeFetchPqIdentity env peer).2) :
    ∃ id, effect = .fetchIdentity id peer := by
  unfold SwarmActor.maybeFetchPqIdentity at h
  split at h
  · cases h
  split at h
  · cases h
  split at h
  · cases h
  split at h
  · exact ⟨env.fresh, List.mem_singleton.1 h⟩
  · cases h

/-- **The command does one of these.** -/
theorem dispatched_serviceSendRequest (C : Crypto) (W : Wire) (A : SwarmActor) (env : Env) (peer : PeerId)
    (request : Request) (addresses : List Multiaddr) (resp : Nat) :
    Dispatched C W A env peer request addresses resp (A.serviceSendRequest C W env peer request addresses resp) := by
  unfold SwarmActor.serviceSendRequest
  split
  · rename_i hsecurity
    obtain ⟨hkeys, hidentity⟩ := sendSecurity_pq hsecurity
    obtain ⟨keys, hkeys⟩ := Option.isSome_iff_exists.1 hkeys
    obtain ⟨recipient, hrecipient⟩ := Finmap.mem_iff.1 (of_decide_eq_true hidentity)
    rw [hkeys, hrecipient]
    simp only [SwarmActor.sendSealed]
    split
    · exact .of_refuse _
    · rename_i out hsend
      split
      · exact .pq recipient keys out hrecipient hkeys hsend
      · exact .of_refuse _
  · simp only [SwarmActor.sendPlaintext]
    split
    · exact .of_refuse _
    · rename_i hfits
      exact .plain (Nat.le_of_not_gt hfits)
  · obtain ⟨pending, heq⟩ := maybeFetchPqIdentity_frame A env peer
    simp only [heq]
    exact .refused _ pending _ (fun effect hmem => maybeFetchPqIdentity_effects hmem)
  all_goals exact .of_refuse _

end Sending

section Commands

variable {C : Crypto} {W : Wire} {A : SwarmActor} {env : Env} {id : Nat} {entry : OutboundEntry}

/-- Another request is sent under another id. -/
theorem outboundAt_dispatched {peer : PeerId} {request : Request} {addresses : List Multiaddr} {resp : Nat}
    {r : SwarmActor × List Effect} (hr : Dispatched C W A env peer request addresses resp r)
    (hfresh : ∀ effect ∈ r.2, effect.started ≠ some (entry.behaviour, id)) :
    r.1.outboundAt (entry.slot id) = A.outboundAt (entry.slot id) := by
  cases hr with
  | refused error pending fetched only => exact outboundAt_congr rfl rfl _
  | plain fits =>
    cases entry with
    | plain pending =>
      have hne : id ≠ env.fresh := fun heq => hfresh _ (List.mem_singleton.2 rfl) (by rw [heq]; rfl)
      simp only [SwarmActor.outboundAt, OutboundEntry.slot, Dict.lookup_insert_ite, if_neg hne]
    | pq pending => rfl
  | pq recipient keys out identity keysLoaded sealedFor =>
    cases entry with
    | plain pending => rfl
    | pq pending =>
      have hne : id ≠ env.fresh := fun heq => hfresh _ (List.mem_singleton.2 rfl) (by rw [heq]; rfl)
      simp only [SwarmActor.outboundAt, OutboundEntry.slot, Dict.lookup_insert_ite, if_neg hne]

/-- **Only a request sent under its id touches an entry.** -/
theorem outboundAt_command {command : Command}
    (hfresh : ∀ effect ∈ (A.handleCommand C W env command).2, effect.started ≠ some (entry.behaviour, id)) :
    (A.handleCommand C W env command).1.outboundAt (entry.slot id) = A.outboundAt (entry.slot id) := by
  have hquery : ∀ storeError query pending,
      (A.startQuery env storeError query pending).1.outboundAt (entry.slot id) = A.outboundAt (entry.slot id) := by
    intro storeError query pending
    obtain ⟨kad, heq⟩ := startQuery_frame A env storeError query pending
    rw [heq]
    exact outboundAt_congr rfl rfl _
  cases command with
  | kadGetRecordAll | kadGetProviders | kadGetClosestPeers | kadPutRecord | kadStartProviding => exact hquery _ _ _
  | kadStopProviding | kadRemoveRecord => rw [SwarmActor.handleCommand, kadLocal_frame]
  | kadCacheRefresh resp => rw [SwarmActor.handleCommand, kadCacheRefresh_frame]
  | serviceSendRequest peer request addresses resp =>
    exact outboundAt_dispatched (dispatched_serviceSendRequest C W A env peer request addresses resp) hfresh
  | serviceSendResponse requestId response =>
    obtain ⟨inbound, heq⟩ := serviceSendResponse_frame C A env requestId response
    rw [SwarmActor.handleCommand, heq]
    exact outboundAt_congr rfl rfl _
  | _ => rfl

end Commands

/-! ## Runs -/

/-- **A request under way**: its entry holds its reply channel, and nothing else does. -/
structure Calling (id : Nat) (entry : OutboundEntry) (w : World) : Prop where
  held : w.actor.holds id entry
  issued : (entry.behaviour, id) ∈ w.issued
  used : entry.resp ∈ w.resps
  alone : ∀ slot, w.actor.waiter slot = some entry.resp → slot = entry.slot id
  phase : ∀ swarm, w.phase ≠ .reloading entry.resp swarm

section Steps

variable {C : Crypto} {W : Wire} {w w' : World} {input : Input} {effects : List Effect} {id : Nat}
  {entry : OutboundEntry}

/-- The input is an event about the request that the loop handles. -/
def World.isAbout (w : World) (slot : Slot) : Input → Prop
  | .event _ event => event.slot = some slot ∧ w.phase = .running
  | _ => False

/-- **A request waits on through the inputs that are not its own**, and nothing is sent to its caller. -/
theorem Calling.other (h : Calling id entry w) (hstep : Stepped C W w input w' effects)
    (hend : input.isReloadEnd = false) (hother : ¬ w.isAbout (entry.slot id) input) :
    Calling id entry w' ∧ answersTo entry.resp effects = [] := by
  have hfresh : ∀ effect ∈ effects, effect.started ≠ some (entry.behaviour, id) :=
    fun effect hmem hstarted => (hstep.fresh _ hmem).1 _ hstarted h.issued
  have hentry : w'.actor.outboundAt (entry.slot id) = w.actor.outboundAt (entry.slot id) ∧
      answersTo entry.resp effects = [] := by
    have hhandled := hstep.handledAs
    generalize w'.actor = actor at hhandled ⊢
    generalize w'.phase = phase at hhandled
    cases hhandled with
    | event env event hrunning =>
      have hslot : event.slot ≠ some (entry.slot id) := fun heq => hother ⟨heq, hrunning⟩
      refine ⟨(outboundAt_event _).trans (if_neg hslot), answersTo_eq_nil (fun reply hmem => ?_)⟩
      obtain ⟨slot, hevent, hwaiter⟩ := answer_slot hmem
      exact hslot (by rw [hevent, h.alone slot hwaiter])
    | oldEvent env event resp swarm hreloading =>
      exact ⟨rfl, answersTo_eq_nil (fun reply =>
        not_answer_of_only _ (rejectOldSwarmEvent_only C w.actor env event) (by simp))⟩
    | command env command hrunning _ =>
      exact ⟨outboundAt_command hfresh,
        answersTo_eq_nil (fun reply hmem => (hstep.resp_new (answer_command hmem)).1 h.used)⟩
    | buildFailed env resp error hrunning =>
      refine ⟨rfl, answersTo_eq_nil (fun reply hmem => ?_)⟩
      obtain ⟨rfl, -⟩ := Effect.answer.inj (List.mem_singleton.1 hmem)
      exact hstep.reload_new.1 h.used
    | reloadBegins env resp hrunning =>
      exact ⟨outboundAt_congr rfl rfl _,
        answersTo_eq_nil (fun reply => not_answer_of_only _ (beginReload_only C w.actor env) (by simp))⟩
    | reloadEnds env resp swarm hreloading => cases hend
  refine ⟨⟨holds_iff.2 (hentry.1.trans (holds_iff.1 h.held)), hstep.issued_mono hend h.issued, hstep.used_mono h.used,
    fun slot hslot => ?_,
    fun swarm hphase => ?_⟩, hentry.2⟩
  · rcases hstep.waiter hslot with hold | hnew
    · exact h.alone slot hold
    · exact absurd h.used hnew.1
  · rcases hstep.reloading hphase with hold | hnew
    · exact h.phase swarm hold
    · exact hnew.1 h.used

/-- **An event about the request** is told to its caller, whose reply channel is then used up. -/
theorem Calling.told {env : Env} {event : SwarmEvent} (h : Calling id entry w)
    (hstep : Stepped C W w (.event env event) w' effects) (hslot : event.slot = some (entry.slot id))
    (hrunning : w.phase = .running) :
    Settled entry.resp w' ∧ answersTo entry.resp effects = (entry.result C env event).toList.map Reply.response := by
  obtain ⟨hactor, heffects, hphase⟩ := hstep.event hrunning
  obtain ⟨result, hresult, hanswer⟩ := event_own C env h.held hslot
  refine ⟨⟨hstep.used_mono h.used, fun slot hwaiter => ?_, fun swarm hreloading => ?_⟩, ?_⟩
  · -- the place it had is the one that is erased
    have hold : w.actor.waiter slot = some entry.resp := by
      rcases hstep.waiter hwaiter with hold | hnew
      · exact hold
      · exact absurd h.used hnew.1
    rw [h.alone slot hold, hactor, waiter_slot, outboundAt_event, if_pos hslot] at hwaiter
    cases hwaiter
  · rw [hphase] at hreloading
    cases hreloading
  · rw [heffects, hanswer, hresult]
    simp [answersTo]

/-- The entries that a reload fails, when only a service request waits with the channel. -/
theorem failPending_calling {A : SwarmActor} {env : Env} (hentry : A.holds id entry)
    (halone : ∀ slot, A.waiter slot = some entry.resp → slot = entry.slot id) :
    answersTo entry.resp (A.failPending env) = [.response (.error .reloaded)] := by
  have hkad : ∀ q p, A.pendingKad.lookup q = some p → p.resp ≠ entry.resp := by
    intro q p hp heq
    have := halone (.kad q) (by simp only [SwarmActor.waiter, hp, Option.map_some, heq])
    cases entry <;> cases this
  rw [SwarmActor.failPending, answersTo_append, answersTo_append, answersTo_drain_none hkad, List.nil_append]
  cases entry with
  | plain pending =>
    have hentry : A.pendingOutbound.lookup id = some pending := hentry
    rw [answersTo_drain_none (fun q (p : PqOutboundPending) hp heq => ?_), List.append_nil]
    · show answersTo pending.resp _ = _
      refine answersTo_drain_one hentry rfl (fun q p hp heq => ?_) (env.ids.nodup_list _)
        ((env.ids.mem_list).2 (Finmap.mem_keys.2 (Finmap.mem_of_lookup_eq_some hentry)))
      exact Slot.outbound.inj (halone (.outbound q) (by simp only [SwarmActor.waiter, hp, Option.map_some, heq,
        OutboundEntry.resp]))
    · cases halone (.outboundPq q) (by simp only [SwarmActor.waiter, hp, Option.map_some, heq, OutboundEntry.resp])
  | pq pending =>
    have hentry : A.pendingOutboundPq.lookup id = some pending := hentry
    rw [answersTo_drain_none (fun q (p : PendingOutbound) hp heq => ?_), List.nil_append]
    · show answersTo pending.resp _ = _
      refine answersTo_drain_one hentry rfl (fun q p hp heq => ?_) (env.ids.nodup_list _)
        ((env.ids.mem_list).2 (Finmap.mem_keys.2 (Finmap.mem_of_lookup_eq_some hentry)))
      exact Slot.outboundPq.inj (halone (.outboundPq q) (by simp only [SwarmActor.waiter, hp, Option.map_some, heq,
        OutboundEntry.resp]))
    · cases halone (.outbound q) (by simp only [SwarmActor.waiter, hp, Option.map_some, heq, OutboundEntry.resp])

/-- **The end of a reload** fails the request. -/
theorem Calling.reloaded {env : Env} (h : Calling id entry w) (hstep : Stepped C W w (.reloadEnd env) w' effects) :
    Settled entry.resp w' ∧ answersTo entry.resp effects = [.response (.error .reloaded)] := by
  have hused := hstep.used_mono h.used
  have hhandled := hstep.handledAs
  generalize hactor : w'.actor = actor at hhandled
  generalize hphase : w'.phase = phase at hhandled
  cases hhandled with
  | reloadEnds env resp swarm hreloading =>
    have hne : resp ≠ entry.resp := fun heq => h.phase swarm (by rw [hreloading, heq])
    refine ⟨⟨hused, fun slot hslot => ?_, fun swarm hrel => ?_⟩, ?_⟩
    · rw [hactor] at hslot
      cases slot <;> simp [SwarmActor.waiter, SwarmActor.finishReload] at hslot
    · rw [hphase] at hrel
      cases hrel
    · rw [SwarmActor.finishReload, answersTo_append, answersTo_append, failPending_calling h.held h.alone,
        answersTo_map_dial, List.append_nil]
      simp [answersTo, hne]

/-- The inputs that are not about the request are passed over. -/
theorem outcome_other (hstep : Stepped C W w input w' effects) (hend : input.isReloadEnd = false)
    (hother : ¬ w.isAbout (entry.slot id) input) (rest : List Input) :
    outcome C id entry w.phase.isReloading (input :: rest) = outcome C id entry w'.phase.isReloading rest := by
  have hhandled := hstep.handledAs
  generalize w'.actor = actor at hhandled
  generalize w'.phase = phase at hhandled ⊢
  cases hhandled with
  | event env event hrunning =>
    have hslot : event.slot ≠ some (entry.slot id) := fun heq => hother ⟨heq, hrunning⟩
    rw [hrunning]
    simp [outcome, hslot]
  | oldEvent env event resp swarm hreloading =>
    rw [hreloading]
    simp [outcome, Phase.isReloading]
  | command _ _ hrunning | buildFailed _ _ _ hrunning | reloadBegins _ _ hrunning =>
    rw [hrunning]
    rfl
  | reloadEnds env resp swarm hreloading => cases hend

variable {config : NodeConfig} {nodes : List Multiaddr} {keypair : Bytes} {keys : Option PqKeys}

/-- **What is sent to the caller of a request in a run** is its outcome.  The induction is on the run; the entry stays
as it is until the event that decides. -/
theorem follow_calling {id : Nat} {entry : OutboundEntry} : ∀ {post : List Input} {w t : World}, Calling id entry w →
    (swarmActor C W config nodes keypair keys).runFrom w post = some t →
    answersTo entry.resp ((swarmActor C W config nodes keypair keys).outputs (World.effects C W) w post) =
      outcome C id entry w.phase.isReloading post
  | [], _, _, _, _ => rfl
  | input :: post, w, t, h, hrun => by
    obtain ⟨w', hmachine, hrun'⟩ := (Machine.runFrom_cons _).1 hrun
    have hstep := stepped_of_step hmachine
    rw [Machine.outputs_cons _ _ hmachine, answersTo_append]
    by_cases hown : w.isAbout (entry.slot id) input
    · cases input with
      | event env event =>
        obtain ⟨hslot, hrunning⟩ := hown
        obtain ⟨hsettled, htold⟩ := h.told hstep hslot hrunning
        rw [htold, follow_settled hsettled hrun', List.append_nil]
        simp [outcome, hslot, hrunning, Phase.isReloading]
      | _ => cases hown
    · cases hend : input.isReloadEnd with
      | true =>
        cases input with
        | reloadEnd env =>
          obtain ⟨hsettled, hfailed⟩ := h.reloaded hstep
          rw [hfailed, follow_settled hsettled hrun', List.append_nil]
          rfl
        | _ => cases hend
      | false =>
        obtain ⟨hcalling, hnone⟩ := h.other hstep hend hown
        rw [hnone, outcome_other hstep hend hown]
        exact follow_calling hcalling hrun'

end Steps

/-! ## The start of a request -/

section Start

variable {C : Crypto} {W : Wire} {w w' : World} {env : Env} {effects : List Effect} {peer : PeerId} {request : Request}
  {addresses : List Multiaddr} {resp : Nat}

/-- **How a request starts**: it is refused, and its reply channel used up; or it is sent, and waits under the id it was
sent under. -/
inductive Started (C : Crypto) (W : Wire) (w w' : World) (env : Env) (peer : PeerId) (request : Request)
    (addresses : List Multiaddr) (resp : Nat) (effects : List Effect) : Prop where
  | refused (error : NetworkError) (quiet : ∀ effect ∈ effects, effect.kind ≠ .plaintext ∧ ∀ id p r a, effect ≠ .sendPq id p r a)
      (told : answersTo resp effects = [.response (.error error)]) (settled : Settled resp w')
  | sent (entry : OutboundEntry) (own : entry.resp = resp) (out : effects = [entry.send env.fresh peer request addresses])
      (sealedFor : ∀ pending, entry = .pq pending → ∃ recipient keys, w.actor.pqIdentities.lookup peer = some recipient ∧
        w.actor.pqKeys = some keys ∧
        sendPqRequest C W env.config keys recipient w.actor.keypair env.draw request = .ok pending.out)
      (calling : Calling env.fresh entry w') (running : w'.phase = .running)

/-- Who waits in a new entry waits nowhere else. -/
theorem calling_new (h : Stepped C W w (.command env (.serviceSendRequest peer request addresses resp)) w' effects)
    (hused : Used w) {entry : OutboundEntry} (hown : entry.resp = resp) (hentry : w'.actor.holds env.fresh entry)
    (hothers : ∀ slot, slot ≠ entry.slot env.fresh → w'.actor.waiter slot = w.actor.waiter slot)
    (hissued : (entry.behaviour, env.fresh) ∈ w'.issued) : Calling env.fresh entry w' := by
  obtain ⟨hnew, hused'⟩ := h.resp_new rfl
  obtain ⟨-, -, -, hphase⟩ := h.commanded
  refine ⟨hentry, hissued, hown ▸ hused', fun slot hslot => ?_, fun swarm hreloading => ?_⟩
  · by_contra hne
    rw [hothers slot hne, hown] at hslot
    exact hnew (hused.slots slot _ hslot)
  · rw [hphase] at hreloading
    cases hreloading

theorem Stepped.dispatched (h : Stepped C W w (.command env (.serviceSendRequest peer request addresses resp)) w' effects)
    (hused : Used w) : Started C W w w' env peer request addresses resp effects := by
  obtain ⟨hrunning, hactor, heffects, hphase⟩ := h.commanded
  obtain ⟨hnew, hused'⟩ := h.resp_new rfl
  have hdispatched := dispatched_serviceSendRequest C W w.actor env peer request addresses resp
  have hissued := h.issued
  simp only [SwarmActor.handleCommand] at hactor heffects
  generalize w.actor.serviceSendRequest C W env peer request addresses resp = r at hdispatched hactor heffects
  cases hdispatched with
  | refused error pending fetched only =>
    refine .refused error (fun effect hmem => ?_) ?_ ⟨hused', fun slot hslot => ?_, fun swarm hreloading => ?_⟩
    · rw [heffects] at hmem
      rcases List.mem_append.1 hmem with hmem | hmem
      · obtain ⟨id, rfl⟩ := only effect hmem
        exact ⟨by simp [Effect.kind], by simp⟩
      · rw [List.mem_singleton.1 hmem]
        exact ⟨by simp [Effect.kind], by simp⟩
    · rw [heffects, answersTo_append, answersTo_eq_nil (fun reply hmem => ?_), List.nil_append]
      · simp [answersTo]
      · obtain ⟨id, heq⟩ := only _ hmem
        cases heq
    · rw [hactor] at hslot
      exact hnew (hused.slots slot _ (by cases slot <;> exact hslot))
    · rw [hphase] at hreloading
      cases hreloading
  | plain fits =>
    refine .sent (.plain ⟨resp, W.request request⟩) rfl heffects (fun pending hpq => (by cases hpq))
      (calling_new h hused rfl ?_ (fun slot hne => ?_) ?_) hphase
    · rw [hactor]
      exact (Dict.lookup_insert_ite _ _ _ _).trans (if_pos rfl)
    · rw [hactor]
      cases slot with
      | outbound id =>
        have hid : id ≠ env.fresh := fun heq => hne (by rw [heq]; rfl)
        simp only [SwarmActor.waiter, Dict.lookup_insert_ite, if_neg hid]
      | _ => rfl
    · rw [hissued, heffects]
      simp [World.issuedAfter, Effect.started, OutboundEntry.behaviour]
  | pq recipient keys out identity keysLoaded sealedFor =>
    refine .sent (.pq ⟨resp, out, W.pqRequest out.request⟩) rfl heffects (fun pending hpq => ?_)
      (calling_new h hused rfl ?_ (fun slot hne => ?_) ?_) hphase
    · cases hpq
      exact ⟨recipient, keys, identity, keysLoaded, sealedFor⟩
    · rw [hactor]
      exact (Dict.lookup_insert_ite _ _ _ _).trans (if_pos rfl)
    · rw [hactor]
      cases slot with
      | outboundPq id =>
        have hid : id ≠ env.fresh := fun heq => hne (by rw [heq]; rfl)
        simp only [SwarmActor.waiter, Dict.lookup_insert_ite, if_neg hid]
      | _ => rfl
    · rw [hissued, heffects]
      simp [World.issuedAfter, Effect.started, OutboundEntry.behaviour]

end Start

/-- **Service requests are answered by their own responses.**  In every run of the actor, whatever other requests,
responses, failures and reloads come between: the caller of a `ServiceSendRequest` is told nothing before the command;
either the command is refused with one error, no service message goes out and nothing is told after; or exactly one goes out,
sealed for the identity cached for the peer if it goes out sealed, and what the caller is told after is the outcome of the
request under the id of that message. -/
theorem service_requests_correlated (C : Crypto) (W : Wire) (config : NodeConfig) (nodes : List Multiaddr)
    (keypair : Bytes) (keys : Option PqKeys) (before after : List Input) (env : Env) (peer : PeerId) (request : Request)
    (addresses : List Multiaddr) (resp : Nat) (w w' t : World)
    (hbefore : (swarmActor C W config nodes keypair keys).run before = some w)
    (hstep : (swarmActor C W config nodes keypair keys).step w
      (.command env (.serviceSendRequest peer request addresses resp)) = some w')
    (hafter : (swarmActor C W config nodes keypair keys).runFrom w' after = some t) :
    let told := fun w inputs =>
      answersTo resp ((swarmActor C W config nodes keypair keys).outputs (World.effects C W) w inputs)
    let command : Input := .command env (.serviceSendRequest peer request addresses resp)
    told (.new config nodes keypair keys) before = [] ∧
      ((∃ error, told w [command] = [.response (.error error)] ∧ told w' after = [] ∧
        ∀ effect ∈ w.effects C W command, effect.kind ≠ .plaintext ∧ ∀ id p r a, effect ≠ .sendPq id p r a) ∨
      ∃ entry : OutboundEntry, w.effects C W command = [entry.send env.fresh peer request addresses] ∧
        (∀ pending, entry = .pq pending → ∃ recipient keys, w.actor.pqIdentities.lookup peer = some recipient ∧
          w.actor.pqKeys = some keys ∧
          sendPqRequest C W env.config keys recipient w.actor.keypair env.draw request = .ok pending.out) ∧
        told w [command] = [] ∧ told w' after = outcome C env.fresh entry false after) := by
  simp only [Machine.outputs_singleton]
  have hstepped := stepped_of_step hstep
  obtain ⟨hused, hnone⟩ := answers_used before w hbefore
  refine ⟨hnone _ (hstepped.resp_new rfl).1, ?_⟩
  cases hstepped.dispatched hused with
  | refused error quiet told settled => exact .inl ⟨error, told, follow_settled settled hafter, quiet⟩
  | sent entry own out sealedFor calling running =>
    have htold := follow_calling calling hafter
    rw [own, running] at htold
    refine .inr ⟨entry, out, sealedFor, ?_, htold⟩
    rw [out]
    cases entry <;> rfl

/-- A node without PQ. -/
def plainConfig : NodeConfig := { NodeConfig.withServices [] with crypto := ⟨false, false, false⟩ }

/-- The responses to two requests come in the other order. -/
def crossedRun : List Input :=
  [.event (quietEnv plainConfig) (.serviceReq (.response 1 ⟨true, [8]⟩)),
    .event (quietEnv plainConfig) (.serviceReq (.response 0 ⟨true, [9]⟩))]

theorem crossed_responses : ∃ w w' t,
    let M := swarmActor Pq.plainCrypto Pq.cborWire plainConfig [] [] none
    let second : Input := .command { quietEnv plainConfig with fresh := 1 } (.serviceSendRequest [7] ⟨"cmd", [2]⟩ [] 1)
    M.run [.command (quietEnv plainConfig) (.serviceSendRequest [7] ⟨"cmd", [1]⟩ [] 0)] = some w ∧
    M.step w second = some w' ∧ M.runFrom w' crossedRun = some t ∧
    answersTo 1 (M.outputs (World.effects Pq.plainCrypto Pq.cborWire) w' crossedRun) = [.response (.ok ⟨true, [8]⟩)] := by
  obtain ⟨t, hrun⟩ := Option.isSome_iff_exists.1 (by decide +kernel :
    ((swarmActor Pq.plainCrypto Pq.cborWire plainConfig [] [] none).run
      ([.command (quietEnv plainConfig) (.serviceSendRequest [7] ⟨"cmd", [1]⟩ [] 0)] ++
        .command { quietEnv plainConfig with fresh := 1 } (.serviceSendRequest [7] ⟨"cmd", [2]⟩ [] 1) :: crossedRun)).isSome
      = true)
  obtain ⟨w, hbefore, hrun⟩ := (Machine.runFrom_append _ _ _ _).1 hrun
  obtain ⟨w', hstep, hafter⟩ := (Machine.runFrom_cons _).1 hrun
  have hsent : w.effects Pq.plainCrypto Pq.cborWire
      (.command { quietEnv plainConfig with fresh := 1 } (.serviceSendRequest [7] ⟨"cmd", [2]⟩ [] 1)) =
      [.sendPlain 1 [7] ⟨"cmd", [2]⟩ []] := by
    cases hbefore
    decide +kernel
  refine ⟨w, w', t, hbefore, hstep, hafter, ?_⟩
  obtain ⟨-, ⟨error, -, -, hquiet⟩ | ⟨entry, hout, -, -, htold⟩⟩ := service_requests_correlated Pq.plainCrypto Pq.cborWire
    plainConfig [] [] none _ crossedRun _ [7] ⟨"cmd", [2]⟩ [] 1 w w' t hbefore hstep hafter
  · rw [hsent] at hquiet
    exact absurd rfl (hquiet _ (List.mem_singleton.2 rfl)).1
  · cases entry with
    | plain pending => exact htold
    | pq pending =>
      rw [hsent] at hout
      cases hout

end Actor
end NexusNet
