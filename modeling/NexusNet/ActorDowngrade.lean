import NexusNet.ActorRuns
import NexusNet.ActorPolicy
/-!
# ActorDowngrade — no silent downgrade to plaintext

How a request is sent is decided by what is known of the peer: its protocols from Identify, its PQ identity from the
identity protocol, and the identity requests under way.  Here these three tables are followed through whole runs: the
protocols of a peer are those of its most recent Identify (`lastIdentify`), what else is known of a peer is known only
with its protocols (`TablesSound`), and an answer to a request that a disconnect has overtaken changes nothing.
-/
namespace NexusNet
namespace Actor

open Pq (Crypto Wire PqKeys PqIdentity)

/-- What an input changes about the most recent Identify of a peer: it is forgotten when the last connection of the peer
closes and when a new swarm takes over. -/
def identifyAfter (peer : PeerId) (known : Option (Finset String)) : Input → Option (Finset String)
  | .event _ (.identifyReceived p info) => if p = peer then some info.protocols.toFinset else known
  | .event _ (.connectionClosed p _ numEstablished) => if p = peer ∧ numEstablished = 0 then none else known
  | .reloadEnd _ => none
  | _ => known

/-- The protocols of the most recent Identify of a peer since its last connection closed and since the last reload. -/
def lastIdentify (peer : PeerId) (inputs : List Input) : Option (Finset String) := inputs.foldl (identifyAfter peer) none

def Input.env : Input → Env
  | .event env _ | .command env _ | .reload env _ _ | .reloadEnd env => env

/-- **Every identity is verified, and known only of peers whose protocols are known**; so is every request for one. -/
structure TablesSound (C : Crypto) (A : SwarmActor) : Prop where
  verified : ∀ p id, A.pqIdentities.lookup p = some id → id.verify C p = .ok ()
  cached : ∀ p, p ∈ A.pqIdentities → p ∈ A.peerProtocols
  pending : ∀ r p, A.pendingPqIdentity.lookup r = some p → p ∈ A.peerProtocols

/-! ## The three tables -/

section Tables

variable {C : Crypto} {W : Wire} {A : SwarmActor} {env : Env}

/-- The identity requests after a fetch: one more under a fresh id, for a peer whose protocols are known, or none. -/
theorem maybeFetchPqIdentity_pending (A : SwarmActor) (env : Env) (peer : PeerId) :
    (A.maybeFetchPqIdentity env peer).1 = A ∧ (A.maybeFetchPqIdentity env peer).2 = [] ∨
    (A.maybeFetchPqIdentity env peer).1 =
        { A with pendingPqIdentity := A.pendingPqIdentity.insert env.fresh peer } ∧
      (A.maybeFetchPqIdentity env peer).2 = [.fetchIdentity env.fresh peer] ∧ peer ∈ A.peerProtocols := by
  unfold SwarmActor.maybeFetchPqIdentity
  split
  · exact .inl ⟨rfl, rfl⟩
  split
  · exact .inl ⟨rfl, rfl⟩
  split
  · exact .inl ⟨rfl, rfl⟩
  rename_i hsupports
  split
  · refine .inr ⟨rfl, rfl, ?_⟩
    cases hp : A.peerProtocols.lookup peer with
    | none => simp [hp] at hsupports
    | some protocols => exact Finmap.mem_of_lookup_eq_some hp
  · exact .inl ⟨rfl, rfl⟩

/-- **Identity requests are added by a fetch only**, for a peer whose protocols are known. -/
theorem pending_fetch {peer : PeerId} {r : Nat} {p : PeerId}
    (h : (A.maybeFetchPqIdentity env peer).1.pendingPqIdentity.lookup r = some p) :
    A.pendingPqIdentity.lookup r = some p ∨
      .fetchIdentity r p ∈ (A.maybeFetchPqIdentity env peer).2 ∧ p ∈ A.peerProtocols := by
  obtain ⟨heq, -⟩ | ⟨heq, hfx, hpeer⟩ := maybeFetchPqIdentity_pending A env peer
  · rw [heq] at h
    exact .inl h
  · rw [heq, Dict.lookup_insert_ite] at h
    split at h
    · rename_i hr
      cases h
      rw [hfx, hr]
      exact .inr ⟨List.mem_cons_self, hpeer⟩
    · exact .inl h

theorem TablesSound.fetch (h : TablesSound C A) (peer : PeerId) : TablesSound C (A.maybeFetchPqIdentity env peer).1 := by
  obtain ⟨pending, heq⟩ := maybeFetchPqIdentity_frame A env peer
  have hpending : ∀ r p, pending.lookup r = some p → p ∈ A.peerProtocols := fun r p hr => by
    have hr' : (A.maybeFetchPqIdentity env peer).1.pendingPqIdentity.lookup r = some p := by
      rw [heq]
      exact hr
    rcases pending_fetch hr' with hold | ⟨-, hp⟩
    · exact h.pending r p hold
    · exact hp
  rw [heq]
  exact ⟨h.verified, h.cached, hpending⟩

theorem TablesSound.identify (h : TablesSound C A) (peer : PeerId) (info : IdentifyInfo) :
    TablesSound C (A.onIdentifyPeer env peer info).1 := by
  have hknown : ∀ peers, TablesSound C { A with
      peerProtocols := A.peerProtocols.insert peer info.protocols.toFinset, identifiedPeers := peers } := fun peers =>
    ⟨h.verified, fun p hp => Finmap.mem_insert.2 (.inr (h.cached p hp)),
      fun r p hr => Finmap.mem_insert.2 (.inr (h.pending r p hr))⟩
  unfold SwarmActor.onIdentifyPeer
  simp only
  split
  · exact hknown A.identifiedPeers
  · exact (hknown (insert peer A.identifiedPeers)).fetch peer

theorem TablesSound.pqIdentity (h : TablesSound C A) (event : ReqEvent Unit PqIdentity) :
    TablesSound C (A.handlePqIdentity C event).1 := by
  have herase : ∀ id, TablesSound C { A with pendingPqIdentity := A.pendingPqIdentity.erase id } := fun id =>
    ⟨h.verified, h.cached, fun r p hr => by
      rw [Dict.lookup_erase_ite] at hr
      split at hr
      · cases hr
      · exact h.pending r p hr⟩
  unfold SwarmActor.handlePqIdentity
  split
  · exact h
  · rename_i id response
    split
    · exact h
    · rename_i expected hexpected
      simp only
      split
      · rename_i hverify
        refine ⟨fun p id' hid => ?_, fun p hp => ?_, (herase id).pending⟩
        · rw [Dict.lookup_insert_ite] at hid
          split at hid
          · rename_i heq
            cases hid
            rw [heq]
            exact hverify
          · exact h.verified p id' hid
        · rcases Finmap.mem_insert.1 hp with rfl | hp
          · exact h.pending id p hexpected
          · exact h.cached p hp
      · exact herase id
  · exact herase _
  · exact h
  · exact h

/-- What is left of the tables when a connection closes. -/
theorem connectionClosed_tables (A : SwarmActor) (peer : PeerId) (connection numEstablished : Nat) :
    (numEstablished = 0 ∧
      (A.connectionClosed peer connection numEstablished).peerProtocols = A.peerProtocols.erase peer ∧
      (A.connectionClosed peer connection numEstablished).pqIdentities = A.pqIdentities.erase peer ∧
      (A.connectionClosed peer connection numEstablished).pendingPqIdentity =
        Dict.retain A.pendingPqIdentity (fun _ pendingPeer => pendingPeer != peer)) ∨
    (numEstablished ≠ 0 ∧
      (A.connectionClosed peer connection numEstablished).peerProtocols = A.peerProtocols ∧
      (A.connectionClosed peer connection numEstablished).pqIdentities = A.pqIdentities ∧
      (A.connectionClosed peer connection numEstablished).pendingPqIdentity = A.pendingPqIdentity) := by
  unfold SwarmActor.connectionClosed
  simp only
  split
  · rename_i h0
    exact .inl ⟨h0, rfl, rfl, rfl⟩
  · rename_i h0
    exact .inr ⟨h0, rfl, rfl, rfl⟩

theorem TablesSound.close (h : TablesSound C A) (peer : PeerId) (connection numEstablished : Nat) :
    TablesSound C (A.connectionClosed peer connection numEstablished) := by
  obtain ⟨-, hproto, hid, hpend⟩ | ⟨-, hproto, hid, hpend⟩ := connectionClosed_tables A peer connection numEstablished
  · refine ⟨fun p id hp => ?_, fun p hp => ?_, fun r p hr => ?_⟩
    · rw [hid, Dict.lookup_erase_ite] at hp
      split at hp
      · cases hp
      · exact h.verified p id hp
    · rw [hid, Finmap.mem_erase] at hp
      rw [hproto, Finmap.mem_erase]
      exact ⟨hp.1, h.cached p hp.2⟩
    · rw [hpend, Dict.lookup_retain, Option.filter_eq_some_iff] at hr
      rw [hproto, Finmap.mem_erase]
      exact ⟨by simpa using hr.2, h.pending r p hr.1⟩
  · refine ⟨fun p id hp => ?_, fun p hp => ?_, fun r p hr => ?_⟩
    · exact h.verified p id (hid ▸ hp)
    · rw [hproto]
      exact h.cached p (hid ▸ hp)
    · rw [hproto]
      exact h.pending r p (hpend ▸ hr)

theorem TablesSound.event (h : TablesSound C A) (event : SwarmEvent) : TablesSound C (A.handleEvent C env event).1 := by
  cases event with
  | kademlia event =>
    obtain ⟨kad, notice, heq⟩ := handleKadEvent_frame C A env event
    simp only [SwarmActor.handleEvent, heq]
    exact ⟨h.verified, h.cached, h.pending⟩
  | serviceReq event =>
    obtain ⟨inbound, outbound, heq⟩ := handleServiceReq_frame A env event
    simp only [SwarmActor.handleEvent, heq]
    exact ⟨h.verified, h.cached, h.pending⟩
  | serviceReqPq event =>
    obtain ⟨inbound, outbound, heq⟩ := handleServiceReqPq_frame C A env event
    simp only [SwarmActor.handleEvent, heq]
    exact ⟨h.verified, h.cached, h.pending⟩
  | pqIdentity event => exact h.pqIdentity event
  | identifyReceived peer info => exact h.identify peer info
  | connectionClosed peer connection numEstablished => exact h.close peer connection numEstablished
  | _ => exact h

/-- **The protocols known of a peer follow its Identify events.** -/
theorem protocols_event (event : SwarmEvent) (p : PeerId) :
    (A.handleEvent C env event).1.peerProtocols.lookup p =
      identifyAfter p (A.peerProtocols.lookup p) (.event env event) := by
  cases event with
  | kademlia event =>
    obtain ⟨kad, notice, heq⟩ := handleKadEvent_frame C A env event
    simp only [SwarmActor.handleEvent, heq, identifyAfter]
  | serviceReq event =>
    obtain ⟨inbound, outbound, heq⟩ := handleServiceReq_frame A env event
    simp only [SwarmActor.handleEvent, heq, identifyAfter]
  | serviceReqPq event =>
    obtain ⟨inbound, outbound, heq⟩ := handleServiceReqPq_frame C A env event
    simp only [SwarmActor.handleEvent, heq, identifyAfter]
  | pqIdentity event =>
    obtain ⟨identities, pending, heq⟩ := handlePqIdentity_frame C A event
    simp only [SwarmActor.handleEvent, heq, identifyAfter]
  | identifyReceived peer info =>
    obtain ⟨peers, pending, heq⟩ := onIdentifyPeer_frame A env peer info
    simp only [SwarmActor.handleEvent, heq, identifyAfter, Dict.lookup_insert_ite, eq_comm]
  | connectionClosed peer connection numEstablished =>
    simp only [SwarmActor.handleEvent, identifyAfter]
    obtain ⟨h0, hproto, -⟩ | ⟨h0, hproto, -⟩ := connectionClosed_tables A peer connection numEstablished
    · rw [hproto, Dict.lookup_erase_ite]
      simp only [h0, and_true, eq_comm]
    · rw [hproto]
      simp only [h0, and_false, if_false]
  | _ => rfl

theorem protocols_command (command : Command) :
    (A.handleCommand C W env command).1.peerProtocols = A.peerProtocols := by
  obtain ⟨kad, inbound, outbound, outboundPq, identity, h⟩ := handleCommand_frame C W A env command
  rw [h]

theorem pending_event {event : SwarmEvent} {r : Nat} {p : PeerId}
    (h : (A.handleEvent C env event).1.pendingPqIdentity.lookup r = some p) :
    A.pendingPqIdentity.lookup r = some p ∨ .fetchIdentity r p ∈ (A.handleEvent C env event).2 := by
  cases event with
  | kademlia event =>
    obtain ⟨kad, notice, heq⟩ := handleKadEvent_frame C A env event
    simp only [SwarmActor.handleEvent, heq] at h
    exact .inl h
  | serviceReq event =>
    obtain ⟨inbound, outbound, heq⟩ := handleServiceReq_frame A env event
    simp only [SwarmActor.handleEvent, heq] at h
    exact .inl h
  | serviceReqPq event =>
    obtain ⟨inbound, outbound, heq⟩ := handleServiceReqPq_frame C A env event
    simp only [SwarmActor.handleEvent, heq] at h
    exact .inl h
  | pqIdentity event =>
    have herase : ∀ {id}, (A.pendingPqIdentity.erase id).lookup r = some p → A.pendingPqIdentity.lookup r = some p := by
      intro id hr
      rw [Dict.lookup_erase_ite] at hr
      split at hr
      · cases hr
      · exact hr
    simp only [SwarmActor.handleEvent, SwarmActor.handlePqIdentity] at h
    split at h
    · exact .inl h
    · split at h
      · exact .inl h
      · split at h <;> exact .inl (herase h)
    · exact .inl (herase h)
    · exact .inl h
    · exact .inl h
  | identifyReceived peer info =>
    simp only [SwarmActor.handleEvent, SwarmActor.onIdentifyPeer] at h ⊢
    split at h
    · exact .inl h
    · rename_i hagent
      rw [if_neg hagent]
      rcases pending_fetch h with h | h
      · exact .inl h
      · exact .inr (List.mem_append_left _ (List.mem_append_right _ h.1))
  | connectionClosed peer connection numEstablished =>
    simp only [SwarmActor.handleEvent] at h
    obtain ⟨-, -, -, hpend⟩ | ⟨-, -, -, hpend⟩ := connectionClosed_tables A peer connection numEstablished
    · rw [hpend, Dict.lookup_retain, Option.filter_eq_some_iff] at h
      exact .inl h.1
    · rw [hpend] at h
      exact .inl h
  | _ => exact .inl h

theorem pending_command {command : Command} {r : Nat} {p : PeerId}
    (h : (A.handleCommand C W env command).1.pendingPqIdentity.lookup r = some p) :
    A.pendingPqIdentity.lookup r = some p ∨
      .fetchIdentity r p ∈ (A.handleCommand C W env command).2 ∧ p ∈ A.peerProtocols := by
  have hquery : ∀ storeError query pending,
      (A.startQuery env storeError query pending).1.pendingPqIdentity = A.pendingPqIdentity := by
    intro storeError query pending
    obtain ⟨kad, heq⟩ := startQuery_frame A env storeError query pending
    rw [heq]
  cases command with
  | kadGetRecordAll | kadGetProviders | kadGetClosestPeers | kadPutRecord | kadStartProviding =>
    exact .inl (hquery _ _ _ ▸ h)
  | kadStopProviding key resp => exact .inl (kadLocal_frame A _ _ ▸ h)
  | kadRemoveRecord key resp => exact .inl (kadLocal_frame A _ _ ▸ h)
  | kadCacheRefresh resp => exact .inl (kadCacheRefresh_frame A env resp ▸ h)
  | serviceSendRequest peer request addresses resp =>
    simp only [SwarmActor.handleCommand, SwarmActor.serviceSendRequest] at h ⊢
    cases hsec : A.securityFor env.config peer with
    | pq =>
      simp only [hsec] at h
      split at h
      · unfold SwarmActor.sendSealed at h
        split at h
        · exact .inl h
        · split at h <;> exact .inl h
      · exact .inl h
    | plaintext =>
      simp only [hsec, SwarmActor.sendPlaintext] at h
      split at h <;> exact .inl h
    | waitIdentity =>
      simp only [hsec] at h ⊢
      rcases pending_fetch h with h | h
      · exact .inl h
      · exact .inr ⟨List.mem_append_left _ h.1, h.2⟩
    | missingKeys | missingTransport | unsupported => exact .inl (by simpa only [hsec, SwarmActor.refuse] using h)
  | serviceSendResponse requestId response =>
    obtain ⟨inbound, heq⟩ := serviceSendResponse_frame C A env requestId response
    simp only [SwarmActor.handleCommand, heq] at h
    exact .inl h
  | _ => exact .inl h

theorem TablesSound.command (h : TablesSound C A) (command : Command) :
    TablesSound C (A.handleCommand C W env command).1 := by
  have hpending : ∀ r p, (A.handleCommand C W env command).1.pendingPqIdentity.lookup r = some p →
      p ∈ A.peerProtocols := fun r p hr => by
    rcases pending_command hr with hold | ⟨-, hp⟩
    · exact h.pending r p hold
    · exact hp
  obtain ⟨kad, inbound, outbound, outboundPq, identity, heq⟩ := handleCommand_frame C W A env command
  rw [heq] at hpending ⊢
  exact ⟨h.verified, h.cached, hpending⟩

end Tables

/-! ## Sending -/

/-- **A plaintext decision**: PQ is not required, and where the transport is enabled the peer is known not to support it
and has no identity. -/
theorem sendSecurity_plaintext {transport required keysAvailable identityAvailable : Bool} {supportsPq : Option Bool}
    (h : sendSecurity transport required keysAvailable identityAvailable supportsPq = .plaintext) :
    required = false ∧ (transport = true → identityAvailable = false ∧ supportsPq = some false) := by
  cases transport <;> cases required <;> cases keysAvailable <;> cases identityAvailable <;>
    rcases supportsPq with _ | _ | _ <;> simp_all [sendSecurity]

section Sends

variable {C : Crypto} {W : Wire} {w w' : World} {input : Input} {effects : List Effect}

/-- **Only a request command whose decision is plaintext sends plaintext.** -/
theorem Handled.sendPlain {actor : SwarmActor} {phase : Phase} (h : Handled C W w input actor effects phase)
    {id : Nat} {peer : PeerId} {request : Request} {addresses : List Multiaddr}
    (hmem : .sendPlain id peer request addresses ∈ effects) :
    w.phase = .running ∧ w.actor.securityFor input.env.config peer = .plaintext := by
  have hkind : ∀ {kinds : List EffectKind}, Only kinds effects → EffectKind.plaintext ∈ kinds := fun h => h _ hmem
  cases h with
  | event env event hrunning => exact absurd (hkind (handleEvent_only C w.actor env event)) (by simp)
  | oldEvent env event resp swarm _ => exact absurd (hkind (rejectOldSwarmEvent_only C w.actor env event)) (by simp)
  | buildFailed env resp error hrunning => simp at hmem
  | reloadBegins env resp hrunning => exact absurd (hkind (beginReload_only C w.actor env)) (by simp)
  | reloadEnds env resp swarm _ =>
    rcases List.mem_append.1 hmem with hin | hin
    · exact absurd (finishReload_only w.actor env swarm _ hin) (by simp [Effect.kind])
    · simp at hin
  | command env command hrunning _ =>
    refine ⟨hrunning, ?_⟩
    cases command with
    | serviceSendRequest peer' request' addresses' resp =>
      simp only [Input.env, SwarmActor.handleCommand, SwarmActor.serviceSendRequest] at hmem ⊢
      cases hsec : w.actor.securityFor env.config peer' with
      | pq =>
        simp only [hsec, SwarmActor.sendSealed, SwarmActor.refuse] at hmem
        split at hmem
        · split at hmem
          · simp at hmem
          · split at hmem <;> simp at hmem
        · simp at hmem
      | plaintext =>
        simp only [hsec, SwarmActor.sendPlaintext, SwarmActor.refuse] at hmem
        split at hmem
        · simp at hmem
        · obtain ⟨-, rfl, -⟩ : id = env.fresh ∧ peer = peer' ∧ request = request' ∧ addresses = addresses' := by
            simpa using hmem
          exact hsec
      | waitIdentity =>
        simp only [hsec] at hmem
        rcases List.mem_append.1 hmem with hmem | hmem
        · have := maybeFetchPqIdentity_only w.actor env peer' _ hmem
          simp [Effect.kind] at this
        · simp at hmem
      | missingKeys | missingTransport | unsupported => simp [hsec, SwarmActor.refuse] at hmem
    | _ => exact absurd (hkind (handleCommand_only C W w.actor env (fun _ _ _ _ h => (by cases h)))) (by simp)

end Sends

/-! ## Runs -/

section Runs

variable {C : Crypto} {W : Wire} {w w' : World} {input : Input} {effects : List Effect}

/-- **A step and the identity requests**: after it a request is under way if it was before, or if the step has started it
under a new id. -/
theorem Stepped.pending (h : Stepped C W w input w' effects) {r : Nat} {p : PeerId}
    (hr : w'.actor.pendingPqIdentity.lookup r = some p) :
    w.actor.pendingPqIdentity.lookup r = some p ∨ (.pqIdentity, r) ∉ w.issued ∧ (.pqIdentity, r) ∈ w'.issued := by
  have hfetched : .fetchIdentity r p ∈ effects → input.isReloadEnd = false →
      (.pqIdentity, r) ∉ w.issued ∧ (.pqIdentity, r) ∈ w'.issued := by
    intro hmem hend
    refine ⟨(h.fresh _ hmem).1 _ rfl, ?_⟩
    have hstarted : (Behaviour.pqIdentity, r) ∈ (effects.filterMap Effect.started).toFinset :=
      List.mem_toFinset.2 (List.mem_filterMap.2 ⟨_, hmem, rfl⟩)
    rw [h.issued]
    cases input with
    | reloadEnd env => cases hend
    | _ => exact Finset.mem_union_right _ hstarted
  have hhandled := h.handledAs
  generalize w'.actor = actor at hhandled hr
  generalize w'.phase = phase at hhandled
  cases hhandled with
  | event env event hrunning =>
    rcases pending_event hr with hold | hmem
    · exact .inl hold
    · exact .inr (hfetched hmem rfl)
  | oldEvent | buildFailed | reloadBegins => exact .inl hr
  | command env command hrunning hother =>
    rcases pending_command hr with hold | ⟨hmem, -⟩
    · exact .inl hold
    · exact .inr (hfetched hmem rfl)
  | reloadEnds env resp swarm hreloading => simp [SwarmActor.finishReload] at hr

/-- **What a run keeps**: the tables are sound, identity requests under way have been issued, and outside a reload the
protocols of every peer are those of its most recent Identify. -/
structure Tracked (C : Crypto) (inputs : List Input) (w : World) : Prop where
  tables : TablesSound C w.actor
  issued : ∀ r p, w.actor.pendingPqIdentity.lookup r = some p → (.pqIdentity, r) ∈ w.issued
  protocols : w.phase = .running → ∀ p, w.actor.peerProtocols.lookup p = lastIdentify p inputs

theorem lastIdentify_concat (p : PeerId) (inputs : List Input) (input : Input) :
    lastIdentify p (inputs ++ [input]) = identifyAfter p (lastIdentify p inputs) input := by
  rw [lastIdentify, List.foldl_append]
  rfl

theorem TablesSound.step (h : TablesSound C w.actor) (hstep : Stepped C W w input w' effects) :
    TablesSound C w'.actor := by
  have hhandled := hstep.handledAs
  generalize w'.actor = actor at hhandled ⊢
  generalize w'.phase = phase at hhandled
  cases hhandled with
  | event env event hrunning => exact h.event event
  | oldEvent | buildFailed => exact h
  | command env command hrunning hother => exact h.command command
  | reloadBegins env resp hrunning => exact ⟨h.verified, h.cached, h.pending⟩
  | reloadEnds env resp swarm hreloading =>
    exact ⟨fun p id hp => (by simp [SwarmActor.finishReload] at hp), fun p hp => absurd hp Finmap.notMem_empty,
      fun r p hr => (by simp [SwarmActor.finishReload] at hr)⟩

/-- Outside a reload, before and after the step, the protocols follow the inputs. -/
theorem protocols_step (hstep : Stepped C W w input w' effects) {p : PeerId} {known : Option (Finset String)}
    (h : w.phase = .running → w.actor.peerProtocols.lookup p = known) (hrunning : w'.phase = .running) :
    w'.actor.peerProtocols.lookup p = identifyAfter p known input := by
  have hhandled := hstep.handledAs
  rw [hrunning] at hhandled
  generalize w'.actor = actor at hhandled ⊢
  cases hhandled with
  | event env event hbefore =>
    rw [protocols_event, h hbefore]
  | command env command hbefore hother =>
    rw [protocols_command, h hbefore]
    rfl
  | buildFailed env resp error hbefore =>
    rw [h hbefore]
    rfl
  | reloadEnds env resp swarm hreloading => rfl

theorem Tracked.step {inputs : List Input} (h : Tracked C inputs w) (hstep : Stepped C W w input w' effects) :
    Tracked C (inputs ++ [input]) w' := by
  refine ⟨h.tables.step hstep, fun r p hr => ?_, fun hrunning p => ?_⟩
  · rcases hstep.pending hr with hold | ⟨-, hnew⟩
    · refine hstep.issued_mono ?_ (h.issued r p hold)
      cases input with
      | reloadEnd env =>
        -- a new swarm starts without identity requests
        have hhandled := hstep.handledAs
        generalize w'.actor = actor at hhandled hr
        generalize w'.phase = phase at hhandled
        cases hhandled with
        | reloadEnds env resp swarm hreloading => simp [SwarmActor.finishReload] at hr
      | _ => rfl
    · exact hnew
  · rw [lastIdentify_concat]
    exact protocols_step hstep (fun hbefore => h.protocols hbefore p) hrunning

/-- **An identity request that a disconnect has overtaken**: it is not under way, and its id is not given again. -/
def Overtaken (id : Nat) (w : World) : Prop :=
  w.phase = .running → w.actor.pendingPqIdentity.lookup id = none ∧ (.pqIdentity, id) ∈ w.issued

theorem Overtaken.step {id : Nat} (h : Overtaken id w) (hstep : Stepped C W w input w' effects)
    (hend : input.isReloadEnd = false) : Overtaken id w' := by
  intro hrunning
  obtain ⟨hnone, hissued⟩ := h (hstep.running_before hend hrunning)
  refine ⟨Option.eq_none_iff_forall_ne_some.2 (fun p hp => ?_), hstep.issued_mono hend hissued⟩
  rcases hstep.pending hp with hold | ⟨hnew, -⟩
  · rw [hnone] at hold
    cases hold
  · exact hnew hissued

/-- The last connection of a peer closes over its identity requests. -/
theorem overtaken_close {env : Env} {p : PeerId} {connection id : Nat}
    (hstep : Stepped C W w (.event env (.connectionClosed p connection 0)) w' effects)
    (hpending : w.actor.pendingPqIdentity.lookup id = some p) (hissued : (.pqIdentity, id) ∈ w.issued) :
    Overtaken id w' := by
  intro hrunning
  refine ⟨?_, hstep.issued_mono rfl hissued⟩
  have hhandled := hstep.handledAs
  rw [hrunning] at hhandled
  generalize w'.actor = actor at hhandled ⊢
  cases hhandled with
  | event env event hbefore =>
    simp only [SwarmActor.handleEvent]
    obtain ⟨-, -, -, hpend⟩ | ⟨h0, -⟩ := connectionClosed_tables w.actor p connection 0
    · rw [hpend, Dict.lookup_retain, hpending]
      simp
    · exact absurd rfl h0

/-- **The answer to an overtaken request changes no identity.** -/
theorem Overtaken.response {id : Nat} (h : Overtaken id w) {env : Env} {response : PqIdentity}
    (hstep : Stepped C W w (.event env (.pqIdentity (.response id response))) w' effects) :
    w'.actor.pqIdentities = w.actor.pqIdentities := by
  have hhandled := hstep.handledAs
  generalize w'.actor = actor at hhandled ⊢
  generalize w'.phase = phase at hhandled
  cases hhandled with
  | event env event hrunning => simp only [SwarmActor.handleEvent, SwarmActor.handlePqIdentity, (h hrunning).1]
  | oldEvent env event resp swarm hreloading => rfl

end Runs

/-- **No downgrade**: `inputs` have led to `w`, a world of the machine `M`. -/
structure NoDowngrade (C : Crypto) (W : Wire) (M : Machine World Input) (inputs : List Input) (w : World) : Prop where
  verified : ∀ p id, w.actor.pqIdentities.lookup p = some id → id.verify C p = .ok ()
  known : ∀ p, p ∈ w.actor.pqIdentities ∨ (∃ r, w.actor.pendingPqIdentity.lookup r = some p) → p ∈ w.actor.peerProtocols
  plaintext : ∀ input id p request addresses, .sendPlain id p request addresses ∈ w.effects C W input →
    input.env.config.crypto.pqRequired = false ∧
    (input.env.config.crypto.pqTransportEnabled = true → p ∉ w.actor.pqIdentities ∧
      ∃ protocols, lastIdentify p inputs = some protocols ∧ serviceReqPqProtocol ∉ protocols)
  forgotten : w.phase = .running → ∀ p, lastIdentify p inputs = none → p ∉ w.actor.pqIdentities
  late : ∀ id p, w.actor.pendingPqIdentity.lookup id = some p → ∀ env connection w₁,
    M.step w (.event env (.connectionClosed p connection 0)) = some w₁ →
    ∀ later w₂, (∀ input ∈ later, input.isReloadEnd = false) → M.runFrom w₁ later = some w₂ →
    ∀ env' response w₃, M.step w₂ (.event env' (.pqIdentity (.response id response))) = some w₃ →
    w₃.actor.pqIdentities = w₂.actor.pqIdentities

/-- **No silent downgrade.**  In every run of the actor: cached identities are verified; a peer with an identity, or with
a request for one under way, has known protocols; a request goes out in plaintext only if PQ is not required and, while
the PQ transport is enabled, only to a peer without a cached identity whose most recent Identify since its last connection
closed and since the last reload did not list the PQ protocol; without such an Identify no identity of the peer is
cached; and once the last connection of a peer has closed, the answer to an identity request that was under way changes
no identity. -/
theorem no_downgrade (C : Crypto) (W : Wire) (config : NodeConfig) (nodes : List Multiaddr) (keypair : Bytes)
    (keys : Option PqKeys) (inputs : List Input) (w : World)
    (hrun : (swarmActor C W config nodes keypair keys).run inputs = some w) :
    NoDowngrade C W (swarmActor C W config nodes keypair keys) inputs w := by
  have hinit : Tracked C [] (swarmActor C W config nodes keypair keys).init := by
    refine ⟨⟨fun p id hp => ?_, fun p hp => absurd hp Finmap.notMem_empty, fun r p hr => ?_⟩, fun r p hr => ?_,
      fun _ p => rfl⟩
    · simp [swarmActor, World.new, SwarmActor.new] at hp
    · simp [swarmActor, World.new, SwarmActor.new] at hr
    · simp [swarmActor, World.new, SwarmActor.new] at hr
  have h : Tracked C inputs w := (swarmActor C W config nodes keypair keys).history_invariant hinit
    (fun es s e s' h _ hstep => h.step (stepped_of_step hstep)) inputs w hrun
    ((swarmActor C W config nodes keypair keys).meets_true inputs _)
  refine ⟨h.tables.verified, ?_, ?_, ?_, ?_⟩
  · rintro p (hp | ⟨r, hr⟩)
    · exact h.tables.cached p hp
    · exact h.tables.pending r p hr
  · intro input id p request addresses hmem
    obtain ⟨w', hstep⟩ := stepped_of_mem_effects hmem
    obtain ⟨hrunning, hplain⟩ := hstep.handledAs.sendPlain hmem
    obtain ⟨hrequired, htransport⟩ := sendSecurity_plaintext hplain
    refine ⟨hrequired, fun ht => ?_⟩
    obtain ⟨hid, hsupports⟩ := htransport ht
    refine ⟨of_decide_eq_false hid, ?_⟩
    obtain ⟨protocols, hprotocols, hnot⟩ := Option.map_eq_some_iff.1 hsupports
    exact ⟨protocols, (h.protocols hrunning p).symm.trans hprotocols, of_decide_eq_false hnot⟩
  · intro hrunning p hnone hp
    have hmem := h.tables.cached p hp
    rw [← h.protocols hrunning p, Finmap.lookup_eq_none] at hnone
    exact hnone hmem
  · intro id p hpending env connection w₁ hclose later w₂ hlater hrun₂ env' response w₃ hresponse
    have hovertaken : Overtaken id w₁ := overtaken_close (stepped_of_step hclose) hpending (h.issued id p hpending)
    have hmeets : (swarmActor C W config nodes keypair keys).Meets (fun _ input => input.isReloadEnd = false) w₁ later :=
      (swarmActor C W config nodes keypair keys).meets_of_forall hlater w₁
    have h₂ : Overtaken id w₂ := (swarmActor C W config nodes keypair keys).invariant_from
      (fun s e s' h hok hstep => h.step (stepped_of_step hstep) hok) later w₁ w₂ hovertaken hmeets hrun₂
    exact h₂.response (stepped_of_step hresponse)

/-- A peer identifies itself with the PQ protocol, its identity is asked for twice and cached, and its connection closes
before the second answer. -/
def lateAnswerRun : List Input :=
  let env := quietEnv Pq.pqConfig
  let peer : PeerId := Pq.zeros 32
  [.event env (.connectionEstablished peer 0),
    .event env (.identifyReceived peer ⟨[serviceReqPqProtocol], "/nexusnet", []⟩),
    .command { env with fresh := 1 } (.serviceSendRequest peer ⟨"cmd", []⟩ [] 0),
    .event env (.pqIdentity (.response 0 Pq.plainIdentity)),
    .event env (.connectionClosed peer 0 0),
    .event env (.pqIdentity (.response 1 Pq.plainIdentity))]

theorem late_answer_ignored : ∃ w,
    (swarmActor Pq.plainCrypto Pq.cborWire Pq.pqConfig [] [] (some Pq.plainKeys)).run lateAnswerRun = some w ∧
    w.actor.pqIdentities.lookup (Pq.zeros 32) = none ∧
    NoDowngrade Pq.plainCrypto Pq.cborWire
      (swarmActor Pq.plainCrypto Pq.cborWire Pq.pqConfig [] [] (some Pq.plainKeys)) lateAnswerRun w := by
  obtain ⟨w, hrun, hw⟩ := (swarmActor Pq.plainCrypto Pq.cborWire Pq.pqConfig [] [] (some Pq.plainKeys)).exists_of_check
    (fun w => (w.actor.pqIdentities.lookup (Pq.zeros 32)).isNone) lateAnswerRun (by decide +kernel)
  exact ⟨w, hrun, Option.isNone_iff_eq_none.1 hw,
    no_downgrade Pq.plainCrypto Pq.cborWire Pq.pqConfig [] [] (some Pq.plainKeys) lateAnswerRun w hrun⟩

end Actor
end NexusNet
