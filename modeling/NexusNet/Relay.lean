import NexusNet.Machine
import NexusNet.Network
import NexusNet.Registry
/-!
# Relay — the relay reservations and what the registry is told about them

`RelayManager` of `relay_manager.rs`, and the part of `NodeController` that feeds it and reports to the registry.  The
swarm actor puts what it sees on the queue of network events, and the controller takes them one after another; a reload
drops the listeners with the old swarm and leaves the queue.  Beside them stands what no code here reads: the listeners
that are up (`listeners`), each with the addresses it has reported, until the controller hears that one has closed.
`registry` is the registry once it has handled everything that was sent to it.

The registry is told the size of `active`, and a reservation that was accepted counts there before its circuit listener is
up.  So the number is positive without any circuit exactly when the last circuit closes while another relay is counted, or
when the report of a circuit is taken from the queue after a reload has dropped it (`backed_throughout_iff`).
-/
namespace NexusNet
namespace Relay

open Registry (Instant RegistryState secs)

/-- The part of the configuration that the manager reads. -/
structure RelayConfig where
  ipv4Enabled : Bool
  ipv6Enabled : Bool
  hasPublicAddress : Bool
  bootstrapNodes : List Multiaddr
  retryIntervalSecs : Nat
  maxFailures : UInt32

def RelayConfig.needsRelay (c : RelayConfig) : Bool := !(c.ipv4Enabled && c.ipv6Enabled) || !c.hasPublicAddress

def relayTarget : Nat := 3

structure RelayManager where
  myPeerId : PeerId
  active : Finset PeerId
  pending : Dict PeerId Instant
  failures : Dict PeerId UInt32
  backoff : Dict PeerId Instant

/-- What a top-up meets: the time, the results of `listen_on`, and the order in which `pending` is iterated. -/
structure TickEnv where
  now : Instant
  listenOn : Multiaddr → Except NetworkError Unit
  order : Iteration PeerId

/-- `relay_backoff_secs`: 30 s, doubled for each further failure, at most 600 s. -/
def relayBackoffSecs (count : UInt32) : Nat := min (30 * 2 ^ min (count.toNat - 1) 5) 600

namespace RelayManager

def new (myPeerId : PeerId) : RelayManager := ⟨myPeerId, ∅, ∅, ∅, ∅⟩

def reset (m : RelayManager) : RelayManager := { m with active := ∅, pending := ∅, failures := ∅, backoff := ∅ }

def recordFailure (m : RelayManager) (config : RelayConfig) (peer : PeerId) (now : Instant) : RelayManager :=
  let count := (m.failures.lookup peer).getD 0 + 1
  let delay := if 0 < config.maxFailures ∧ config.maxFailures ≤ count then secs 3600 else secs (relayBackoffSecs count)
  { m with failures := m.failures.insert peer count, backoff := m.backoff.insert peer (now + delay) }

/-- The reservation of the peer stands: it is active, and its failures are forgotten. -/
def confirm (m : RelayManager) (peer : PeerId) : RelayManager :=
  { m with
    active := insert peer m.active
    pending := m.pending.erase peer
    failures := m.failures.erase peer
    backoff := m.backoff.erase peer }

def onCircuitReady (m : RelayManager) (addr : Multiaddr) : RelayManager :=
  match extractPeerIdFromMultiaddr addr with
  | none => m
  | some peer => if peer = m.myPeerId then m else m.confirm peer

/-- `on_relay_client_event`, for `ReservationReqAccepted`; the other events of the relay client change nothing. -/
def onReservationReqAccepted (m : RelayManager) (relay : PeerId) : RelayManager := m.confirm relay

/-- `on_listener_closed`: the manager after it, and whether a tracked relay was lost. -/
def onListenerClosed (config : RelayConfig) (now : Instant) : RelayManager → List Multiaddr → RelayManager × Bool
  | m, [] => (m, false)
  | m, addr :: rest =>
    if !isCircuit addr then onListenerClosed config now m rest
    else match extractPeerIdFromMultiaddr addr with
    | none => onListenerClosed config now m rest
    | some peer =>
      let m' := { m with active := m.active.erase peer, pending := m.pending.erase peer }
      if peer ∉ m.active ∧ peer ∉ m.pending then onListenerClosed config now m' rest
      else ((onListenerClosed config now (m'.recordFailure config peer now) rest).1, true)

def expirePending (m : RelayManager) (config : RelayConfig) (env : TickEnv) : RelayManager :=
  let timeout := secs (max (config.retryIntervalSecs * 3) 180)
  let expired := m.pending.keys.filter (fun peer => ∃ since ∈ m.pending.lookup peer, timeout ≤ env.now - since)
  (env.order.list expired).foldl
    (fun m peer => ({ m with pending := m.pending.erase peer } : RelayManager).recordFailure config peer env.now) m

/-- The candidates of `tick`: the peers of the bootstrap nodes, each with its first address. -/
def candidates (myPeerId : PeerId) : Finset PeerId → List Multiaddr → List (PeerId × Multiaddr)
  | _, [] => []
  | seen, addr :: rest =>
    match extractPeerIdFromMultiaddr addr with
    | none => candidates myPeerId seen rest
    | some peer =>
      if peer = myPeerId ∨ peer ∈ seen then candidates myPeerId seen rest
      else (peer, addr) :: candidates myPeerId (insert peer seen) rest

/-- The loop of `tick`: reservations are started until enough relays are active or pending. -/
def topUp (config : RelayConfig) (env : TickEnv) (desired : Nat) : RelayManager → List (PeerId × Multiaddr) → RelayManager
  | m, [] => m
  | m, (peer, addr) :: rest =>
    if desired ≤ m.active.card + m.pending.keys.card then m
    else if peer ∈ m.active ∨ peer ∈ m.pending then topUp config env desired m rest
    else if ∃ deadline ∈ m.backoff.lookup peer, env.now < deadline then topUp config env desired m rest
    else match env.listenOn (addr ++ [.p2pCircuit]) with
    | .ok () => topUp config env desired { m with pending := m.pending.insert peer env.now } rest
    | .error _ => topUp config env desired (m.recordFailure config peer env.now) rest

def tick (m : RelayManager) (config : RelayConfig) (env : TickEnv) : RelayManager :=
  if !config.needsRelay then m
  else
    let m := m.expirePending config env
    let candidates := candidates m.myPeerId ∅ config.bootstrapNodes
    topUp config env (min relayTarget candidates.length) m candidates

end RelayManager

/-! ## The controller -/

/-- The events of the swarm actor that are about relays. -/
inductive NetworkEvent where
  | reservationReqAccepted (relay : PeerId)
  | relayCircuitReady (addr : Multiaddr)
  | listenerClosed (listener : Nat) (addresses : List Multiaddr)

structure Node where
  relay : RelayManager
  registry : RegistryState
  listeners : Dict Nat (List Multiaddr)
  queue : List NetworkEvent

/-- The relay client, a listener that reports an address and one that closes are seen by the swarm actor; the controller
ticks, takes the next event from the queue and reloads. -/
inductive Event where
  | reservationReqAccepted (relay : PeerId)
  | newListenAddr (listener : Nat) (addr : Multiaddr)
  | listenerClosed (listener : Nat)
  | tick (env : TickEnv)
  | handle (env : TickEnv)
  | reload (built : Bool)

/-- The queue holds the end of the listener. -/
def NetworkEvent.closes (listener : Nat) : NetworkEvent → Bool
  | .listenerClosed l _ => decide (l = listener)
  | _ => false

namespace Node

def notifyRelayState (config : RelayConfig) (n : Node) : Node :=
  { n with registry := n.registry.relayStateChanged config.needsRelay n.relay.active.card }

/-- The addresses a listener has reported. -/
def addressesOf (n : Node) (listener : Nat) : List Multiaddr := (n.listeners.lookup listener).getD []

def send (n : Node) (event : NetworkEvent) : Node := { n with queue := n.queue ++ [event] }

/-- `NewListenAddr`: a circuit address is passed on as `RelayCircuitReady`. -/
def newListenAddr (n : Node) (listener : Nat) (addr : Multiaddr) : Node :=
  let n' := { n with listeners := n.listeners.insert listener (n.addressesOf listener ++ [addr]) }
  if isCircuit addr then n'.send (.relayCircuitReady addr) else n'

def handleControllerEvent (config : RelayConfig) (env : TickEnv) (n : Node) : NetworkEvent → Node
  | .reservationReqAccepted relay => { n with relay := n.relay.onReservationReqAccepted relay }
  | .relayCircuitReady addr => notifyRelayState config { n with relay := n.relay.onCircuitReady addr }
  | .listenerClosed listener addresses =>
    let n' := { n with listeners := n.listeners.erase listener }
    match n.relay.onListenerClosed config env.now addresses with
    | (relay, false) => { n' with relay := relay }
    | (relay, true) =>
      let n' := notifyRelayState config { n' with relay := relay }
      { n' with relay := n'.relay.tick config env }

/-- One event; a listener that has closed does nothing more, and nothing is taken from an empty queue. -/
def next (config : RelayConfig) (n : Node) : Event → Option Node
  | .reservationReqAccepted relay => some (n.send (.reservationReqAccepted relay))
  | .newListenAddr listener addr =>
    if n.queue.any (NetworkEvent.closes listener) then none else some (n.newListenAddr listener addr)
  | .listenerClosed listener =>
    if n.queue.any (NetworkEvent.closes listener) then none
    else some (n.send (.listenerClosed listener (n.addressesOf listener)))
  | .tick env => some { n with relay := n.relay.tick config env }
  | .handle env =>
    match n.queue with
    | [] => none
    | event :: rest => some ({ n with queue := rest }.handleControllerEvent config env event)
  | .reload false => some n
  | .reload true => some { n with relay := n.relay.reset, registry := n.registry.reset, listeners := ∅ }

/-- The node after the first report of `run`. -/
def new (config : RelayConfig) (myPeerId : PeerId) : Node :=
  notifyRelayState config ⟨.new myPeerId, RegistryState.new, ∅, []⟩

end Node

def controller (config : RelayConfig) (myPeerId : PeerId) : Machine Node Event :=
  ⟨Node.new config myPeerId, Node.next config⟩

/-! ## Circuits -/

/-- The listener has reported a circuit address. -/
def Node.hasCircuit (n : Node) (listener : Nat) : Bool := (n.addressesOf listener).any isCircuit

/-- **The registry counts a relay only while some circuit listener is up.** -/
def Backed (n : Node) : Prop := 0 < n.registry.activeRelays → ∃ l ∈ n.listeners.keys, n.hasCircuit l = true

/-- The relays of the circuit addresses. -/
def relaysOf (addrs : List Multiaddr) : List PeerId := (addrs.filter isCircuit).filterMap extractPeerIdFromMultiaddr

/-- A tracked relay has one of the addresses. -/
def Loses (m : RelayManager) (addrs : List Multiaddr) : Prop := ∃ peer ∈ relaysOf addrs, peer ∈ m.active ∨ peer ∈ m.pending

/-- **The event leaves no count behind**, read in the state before it is handled: when a circuit is reported one is up, or
nothing is counted after it; and a listener that closes is not the last circuit, or no relay but its own is active, or,
where the manager tracks none of its relays, nothing was counted. -/
def LeavesBacked (n : Node) : NetworkEvent → Prop
  | .relayCircuitReady addr =>
    (∃ l ∈ n.listeners.keys, n.hasCircuit l = true) ∨ (n.relay.onCircuitReady addr).active = ∅
  | .listenerClosed listener addresses =>
    (∃ l ∈ n.listeners.keys, l ≠ listener ∧ n.hasCircuit l = true) ∨
      (Loses n.relay addresses ∧ ∀ peer ∈ n.relay.active, peer ∈ relaysOf addresses) ∨
      (¬ Loses n.relay addresses ∧ n.registry.activeRelays = 0)
  | .reservationReqAccepted _ => True

/-- The event that a step takes from the queue leaves no count behind. -/
def KeepsBacked (n : Node) : Event → Prop
  | .handle _ => ∀ event ∈ n.queue.head?, LeavesBacked n event
  | _ => True

instance (n : Node) : Decidable (Backed n) := inferInstanceAs (Decidable (_ → ∃ l ∈ n.listeners.keys, _))

instance (m : RelayManager) (addrs : List Multiaddr) : Decidable (Loses m addrs) :=
  inferInstanceAs (Decidable (∃ peer ∈ relaysOf addrs, _ ∨ _))

instance (n : Node) : ∀ event : NetworkEvent, Decidable (LeavesBacked n event)
  | .relayCircuitReady _ => inferInstanceAs (Decidable ((∃ l ∈ n.listeners.keys, _) ∨ _))
  | .listenerClosed _ addresses =>
    inferInstanceAs (Decidable ((∃ l ∈ n.listeners.keys, _ ∧ _) ∨
      (Loses _ _ ∧ ∀ peer ∈ n.relay.active, peer ∈ relaysOf addresses) ∨ (_ ∧ _)))
  | .reservationReqAccepted _ => .isTrue trivial

instance (n : Node) : ∀ e : Event, Decidable (KeepsBacked n e)
  | .handle _ => inferInstanceAs (Decidable (∀ event ∈ n.queue.head?, _))
  | .reservationReqAccepted _ | .newListenAddr _ _ | .listenerClosed _ | .tick _ | .reload _ => .isTrue trivial

theorem activeRelays_relayStateChanged (st : RegistryState) (needRelay : Bool) (active : Nat) :
    (st.relayStateChanged needRelay active).activeRelays = active := by
  unfold RegistryState.relayStateChanged
  simp only
  split
  · rfl
  · split <;> rfl

theorem activeRelays_notify (config : RelayConfig) (n : Node) :
    (n.notifyRelayState config).registry.activeRelays = n.relay.active.card :=
  activeRelays_relayStateChanged _ _ _

theorem relaysOf_cons (addr : Multiaddr) (rest : List Multiaddr) :
    relaysOf (addr :: rest) =
      (if isCircuit addr then (extractPeerIdFromMultiaddr addr).toList else []) ++ relaysOf rest := by
  unfold relaysOf
  by_cases hc : isCircuit addr = true
  · rw [List.filter_cons_of_pos hc, if_pos hc, List.filterMap_cons]
    cases extractPeerIdFromMultiaddr addr <;> rfl
  · rw [List.filter_cons_of_neg hc, if_neg hc, List.nil_append]

/-- **A closed listener takes its relays out of `active`**, and reports a loss exactly if one of them was tracked. -/
theorem onListenerClosed_spec (config : RelayConfig) (now : Instant) : ∀ (addrs : List Multiaddr) (m : RelayManager),
    (m.onListenerClosed config now addrs).1.active = m.active.filter (· ∉ relaysOf addrs) ∧
      ((m.onListenerClosed config now addrs).2 = true ↔ Loses m addrs)
  | [], m => by simp [RelayManager.onListenerClosed, relaysOf, Loses]
  | addr :: rest, m => by
    unfold RelayManager.onListenerClosed
    simp only [Loses, relaysOf_cons]
    by_cases hc : isCircuit addr = true
    · cases hp : extractPeerIdFromMultiaddr addr with
      | none =>
        obtain ⟨hactive, hlost⟩ := onListenerClosed_spec config now rest m
        simpa [hc, Loses] using ⟨hactive, hlost⟩
      | some peer =>
        have herase : ∀ s : Finset PeerId, (s.erase peer).filter (· ∉ relaysOf rest) =
            s.filter (· ∉ peer :: relaysOf rest) := by
          intro s
          ext x
          simp only [Finset.mem_filter, Finset.mem_erase, List.mem_cons, not_or]
          tauto
        by_cases hfree : peer ∉ m.active ∧ peer ∉ m.pending
        · -- a relay that is not tracked: erasing it changes nothing
          obtain ⟨hactive, hlost⟩ := onListenerClosed_spec config now rest
            { m with active := m.active.erase peer, pending := m.pending.erase peer }
          simp only [hc, hfree, Bool.not_true, Bool.false_eq_true, if_false, if_true, Option.toList_some,
            List.singleton_append, not_false_eq_true, and_self]
          refine ⟨hactive.trans (herase _), hlost.trans ?_⟩
          simp only [Loses, Finset.mem_erase, Finmap.mem_erase, List.mem_cons, exists_eq_or_imp, hfree.1, hfree.2,
            or_false, false_or]
          refine exists_congr fun x => and_congr_right fun _ => ?_
          have hx : ∀ {p : Prop}, (p → x ≠ peer) → (x ≠ peer ∧ p ↔ p) := fun hp => ⟨And.right, fun h => ⟨hp h, h⟩⟩
          rw [hx (fun h he => hfree.1 (he ▸ h)), hx (fun h he => hfree.2 (he ▸ h))]
        · obtain ⟨hactive, -⟩ := onListenerClosed_spec config now rest
            (RelayManager.recordFailure
              { m with active := m.active.erase peer, pending := m.pending.erase peer } config peer now)
          simp only [hc, hfree, Bool.not_true, Bool.false_eq_true, if_false, if_true, Option.toList_some,
            List.singleton_append]
          refine ⟨hactive.trans (herase _), ?_⟩
          simp only [List.mem_cons, exists_eq_or_imp, true_iff]
          exact Or.inl (by tauto)
    · obtain ⟨hactive, hlost⟩ := onListenerClosed_spec config now rest m
      simpa [hc, Loses] using ⟨hactive, hlost⟩

/-! ## Steps -/

theorem hasCircuit_erase {n : Node} {listener : Nat} {relay : RelayManager} {registry : RegistryState}
    {queue : List NetworkEvent} :
    (∃ l ∈ (n.listeners.erase listener).keys,
      (⟨relay, registry, n.listeners.erase listener, queue⟩ : Node).hasCircuit l = true) ↔
      ∃ l ∈ n.listeners.keys, l ≠ listener ∧ n.hasCircuit l = true := by
  have hsame : ∀ l, l ≠ listener →
      (⟨relay, registry, n.listeners.erase listener, queue⟩ : Node).hasCircuit l = n.hasCircuit l := by
    intro l hl
    simp only [Node.hasCircuit, Node.addressesOf, Dict.lookup_erase_ite, if_neg hl]
  constructor
  · rintro ⟨l, hl, hcirc⟩
    rw [Finmap.mem_keys, Finmap.mem_erase] at hl
    exact ⟨l, Finmap.mem_keys.2 hl.2, hl.1, (hsame l hl.1).symm.trans hcirc⟩
  · rintro ⟨l, hl, hne, hcirc⟩
    exact ⟨l, Finmap.mem_keys.2 (Finmap.mem_erase.2 ⟨hne, Finmap.mem_keys.1 hl⟩), (hsame l hne).trans hcirc⟩

theorem backed_listenerClosed (config : RelayConfig) (env : TickEnv) (n : Node) (listener : Nat)
    (addresses : List Multiaddr) :
    Backed (n.handleControllerEvent config env (.listenerClosed listener addresses)) ↔
      LeavesBacked n (.listenerClosed listener addresses) := by
  obtain ⟨hactive, hlost⟩ := onListenerClosed_spec config env.now addresses n.relay
  simp only [Node.handleControllerEvent, LeavesBacked]
  rcases hclosed : n.relay.onListenerClosed config env.now addresses with ⟨relay, lost⟩
  rw [hclosed] at hactive hlost
  cases lost with
  | false =>
    have hno : ¬ Loses n.relay addresses := fun h => by cases hlost.2 h
    simp only [Backed, hasCircuit_erase, hno, false_and, false_or, not_false_eq_true, true_and]
    rw [imp_iff_not_or, Nat.pos_iff_ne_zero, not_not]
    exact or_comm
  | true =>
    have hyes : Loses n.relay addresses := hlost.1 rfl
    have hcount : 0 < relay.active.card ↔ ¬ ∀ peer ∈ n.relay.active, peer ∈ relaysOf addresses := by
      rw [Finset.card_pos, hactive, Finset.filter_nonempty_iff, not_forall]
      exact exists_congr fun peer => Classical.not_imp.symm
    have hsent : (Node.notifyRelayState config
        ⟨relay, n.registry, n.listeners.erase listener, n.queue⟩).registry.activeRelays = relay.active.card :=
      activeRelays_notify config _
    simp only [Backed, hyes, not_true_eq_false, false_and, or_false, true_and]
    rw [hsent, hcount, imp_iff_not_or, not_not]
    exact (or_congr Iff.rfl hasCircuit_erase).trans or_comm

/-- **Exactly the events that leave no count behind keep the counts backed.** -/
theorem backed_handle (config : RelayConfig) (env : TickEnv) (n : Node) (event : NetworkEvent) (h : Backed n) :
    Backed (n.handleControllerEvent config env event) ↔ LeavesBacked n event := by
  cases event with
  | reservationReqAccepted relay => exact ⟨fun _ => trivial, fun _ => h⟩
  | relayCircuitReady addr =>
    have hsent := activeRelays_notify config { n with relay := n.relay.onCircuitReady addr }
    simp only [Backed, LeavesBacked, Node.handleControllerEvent]
    rw [hsent, Finset.card_pos, imp_iff_not_or, Finset.not_nonempty_iff_eq_empty]
    exact or_comm
  | listenerClosed listener addresses => exact backed_listenerClosed config env n listener addresses

/-- A listener that reports another address stays a circuit if it was one. -/
theorem backed_newListenAddr {n : Node} (h : Backed n) (listener : Nat) (addr : Multiaddr) :
    Backed (n.newListenAddr listener addr) := by
  have hinsert : Backed { n with listeners := n.listeners.insert listener (n.addressesOf listener ++ [addr]) } := by
    intro hpos
    obtain ⟨l, hl, hcirc⟩ := h hpos
    refine ⟨l, Finmap.mem_keys.2 (Finmap.mem_insert.2 (.inr (Finmap.mem_keys.1 hl))), ?_⟩
    simp only [Node.hasCircuit, Node.addressesOf, Dict.lookup_insert_ite] at hcirc ⊢
    split
    · rename_i heq
      rw [heq] at hcirc
      rw [Option.getD_some, List.any_append, hcirc, Bool.true_or]
    · exact hcirc
  unfold Node.newListenAddr
  split
  · exact hinsert
  · exact hinsert

theorem backed_step (config : RelayConfig) (myPeerId : PeerId) (n : Node) (e : Event) (n' : Node) (h : Backed n)
    (hs : (controller config myPeerId).step n e = some n') : Backed n' ↔ KeepsBacked n e := by
  have hkeep : Backed n' → (Backed n' ↔ True) := fun hbacked => ⟨fun _ => trivial, fun _ => hbacked⟩
  cases e with
  | reservationReqAccepted | tick =>
    cases hs
    exact hkeep h
  | newListenAddr listener addr =>
    obtain ⟨-, hs⟩ := Option.ite_none_left_eq_some.1 hs
    cases hs
    exact hkeep (backed_newListenAddr h listener addr)
  | listenerClosed listener =>
    obtain ⟨-, hs⟩ := Option.ite_none_left_eq_some.1 hs
    cases hs
    exact hkeep h
  | handle env =>
    simp only [controller, Node.next] at hs
    split at hs
    · cases hs
    · rename_i event rest hqueue
      cases hs
      simp only [KeepsBacked, hqueue, List.head?_cons, Option.mem_some_iff, forall_eq']
      exact backed_handle config env { n with queue := rest } event h
  | reload built =>
    cases built with
    | false =>
      cases hs
      exact hkeep h
    | true =>
      cases hs
      exact hkeep (fun hpos => absurd hpos (lt_irrefl 0))

/-- **The registry counts relays only while a circuit is up exactly when no step leaves a count behind.** -/
theorem backed_throughout_iff (config : RelayConfig) (myPeerId : PeerId) (es : List Event) (n : Node)
    (hr : (controller config myPeerId).run es = some n) :
    (controller config myPeerId).Throughout Backed (Node.new config myPeerId) es ↔
      (controller config myPeerId).Meets KeepsBacked (Node.new config myPeerId) es := by
  refine (controller config myPeerId).throughout_iff_meets (backed_step config myPeerId) es _ n (fun hpos => ?_) hr
  rw [Node.new, activeRelays_notify] at hpos
  exact absurd hpos (lt_irrefl 0)

/-- A node behind NAT that knows two relays, `[1]` and `[2]`. -/
def natConfig : RelayConfig := ⟨true, false, false, [[.p2p [1]], [.p2p [2]]], 60, 5⟩

def natEnv : TickEnv :=
  ⟨0, fun _ => .ok (), Iteration.along (List.map UInt8.toNat) map_toNat_injective⟩

/-- Both relays' circuits come up, and one of them closes. -/
def twoCircuitsRun : List Event :=
  [.tick natEnv, .reservationReqAccepted [1], .handle natEnv, .newListenAddr 0 [.p2p [1], .p2pCircuit], .handle natEnv,
    .newListenAddr 1 [.p2p [2], .p2pCircuit], .listenerClosed 0, .handle natEnv, .handle natEnv]

/-- While one circuit is left the registry may count a relay. -/
theorem two_circuits_backed : (∃ n, (controller natConfig [0]).run twoCircuitsRun = some n) ∧
    (controller natConfig [0]).Throughout Backed (Node.new natConfig [0]) twoCircuitsRun := by
  obtain ⟨n, hr, -⟩ := (controller natConfig [0]).exists_of_check (fun _ => true) twoCircuitsRun (by decide +kernel)
  exact ⟨⟨n, hr⟩, (backed_throughout_iff natConfig [0] twoCircuitsRun n hr).2 (by decide +kernel)⟩

/-- The first relay accepts a reservation, the circuit of the second comes up, and closes. -/
def uncoveredRun : List Event :=
  [.tick natEnv, .reservationReqAccepted [1], .handle natEnv, .newListenAddr 1 [.p2p [2], .p2pCircuit], .handle natEnv,
    .listenerClosed 1, .handle natEnv]

/-- A circuit comes up, and the node is reloaded before the controller takes the report of it from the queue. -/
def staleRun : List Event := [.tick natEnv, .newListenAddr 0 [.p2p [1], .p2pCircuit], .reload true, .handle natEnv]

/-- **The registry counts a relay whose circuit was never up, or was dropped by a reload**: it is told one active relay,
and no circuit is there. -/
theorem counted_without_circuit : natConfig.needsRelay = true ∧ ∀ es ∈ [uncoveredRun, staleRun],
    ∃ n, (controller natConfig [0]).run es = some n ∧ n.registry.activeRelays = 1 ∧ ¬ Backed n := by
  refine ⟨by decide, fun es hes => ?_⟩
  have hcheck : ((controller natConfig [0]).run es).any
      (fun n => decide (n.registry.activeRelays = 1 ∧ ¬ Backed n)) = true := by
    simp only [List.mem_cons, List.not_mem_nil, or_false] at hes
    rcases hes with rfl | rfl <;> decide +kernel
  obtain ⟨n, hr, hn⟩ := (controller natConfig [0]).exists_of_check _ es hcheck
  exact ⟨n, hr, of_decide_eq_true hn⟩

end Relay
end NexusNet
