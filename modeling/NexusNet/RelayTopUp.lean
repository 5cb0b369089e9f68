import NexusNet.Relay
/-!
# RelayTopUp — the tables of the relay manager and the top-up

The manager on its own, under any sequence of its events.  The configuration, the clock and the results of `listen_on`
come with the events, so they may change from one to the next, and nothing is assumed about the clock.

The four tables agree in every reachable state (`Bookkept`).  What a tick does is a sequence of two moves, failing a peer
and listening on it, and both are a `Progress`: a deadline that is set lies in the future, and whoever is put into
`pending` has no such deadline.
-/
namespace NexusNet
namespace Relay

open Registry (Instant secs)

inductive ManagerEvent where
  | tick (config : RelayConfig) (env : TickEnv)
  | reservationReqAccepted (relay : PeerId)
  | circuitReady (addr : Multiaddr)
  | listenerClosed (config : RelayConfig) (now : Instant) (addrs : List Multiaddr)
  | reset

def RelayManager.handle (m : RelayManager) : ManagerEvent → RelayManager
  | .tick config env => m.tick config env
  | .reservationReqAccepted relay => m.onReservationReqAccepted relay
  | .circuitReady addr => m.onCircuitReady addr
  | .listenerClosed config now addrs => (m.onListenerClosed config now addrs).1
  | .reset => m.reset

def manager (myPeerId : PeerId) : Machine RelayManager ManagerEvent :=
  ⟨.new myPeerId, fun m e => some (m.handle e)⟩

/-- **The tables agree**: a relay is active or pending, not both; an active relay has no failures and no backoff; and a
pending one was put there when its deadline had passed. -/
structure Bookkept (m : RelayManager) : Prop where
  disjoint : ∀ p ∈ m.active, p ∉ m.pending
  failures : ∀ p ∈ m.active, p ∉ m.failures
  backoff : ∀ p ∈ m.active, p ∉ m.backoff
  waited : ∀ p since deadline, m.pending.lookup p = some since → m.backoff.lookup p = some deadline → deadline ≤ since

/-- The relays that count towards the target. -/
def RelayManager.count (m : RelayManager) : Nat := m.active.card + m.pending.keys.card

/-- The backoff of the peer has not expired. -/
def BacksOff (now : Instant) (m : RelayManager) (p : PeerId) : Prop :=
  ∃ deadline, m.backoff.lookup p = some deadline ∧ now < deadline

/-! ## Moves -/

theorem relayBackoffSecs_pos (count : UInt32) : 0 < relayBackoffSecs count :=
  lt_min (Nat.mul_pos (by decide) (Nat.pow_pos (by decide))) (by decide)

/-- **A failure sets a deadline in the future.** -/
theorem recordFailure_eq (m : RelayManager) (config : RelayConfig) (p : PeerId) (now : Instant) :
    ∃ count deadline, now < deadline ∧ m.recordFailure config p now =
      { m with failures := m.failures.insert p count, backoff := m.backoff.insert p deadline } := by
  refine ⟨_, _, Nat.lt_add_of_pos_right ?_, rfl⟩
  split
  · decide
  · exact Nat.mul_pos (relayBackoffSecs_pos _) (by decide)

namespace Bookkept

variable {m : RelayManager} {p : PeerId}

theorem recordFailure (h : Bookkept m) (config : RelayConfig) (now : Instant) (hactive : p ∉ m.active)
    (hpending : p ∉ m.pending) : Bookkept (m.recordFailure config p now) := by
  obtain ⟨count, deadline, -, heq⟩ := recordFailure_eq m config p now
  rw [heq]
  have hne : ∀ q ∈ m.active, q ≠ p := fun q hq he => hactive (he ▸ hq)
  refine ⟨h.disjoint, fun q hq => ?_, fun q hq => ?_, fun q since deadline' hsince hdeadline => ?_⟩
  · rw [Finmap.mem_insert, not_or]
    exact ⟨hne q hq, h.failures q hq⟩
  · rw [Finmap.mem_insert, not_or]
    exact ⟨hne q hq, h.backoff q hq⟩
  · have hq : q ≠ p := fun he => hpending (he ▸ Finmap.mem_iff.2 ⟨since, hsince⟩)
    rw [Dict.lookup_insert_ite, if_neg hq] at hdeadline
    exact h.waited q since deadline' hsince hdeadline

/-- Without a peer, in `active` or in `pending`, the tables agree as well. -/
theorem release (h : Bookkept m) {active : Finset PeerId} (hactive : active ⊆ m.active) (p : PeerId) :
    Bookkept { m with active := active, pending := m.pending.erase p } := by
  refine ⟨fun q hq hmem => h.disjoint q (hactive hq) (Finmap.mem_erase.1 hmem).2, fun q hq => h.failures q (hactive hq),
    fun q hq => h.backoff q (hactive hq), fun q since deadline hsince hdeadline => ?_⟩
  simp only [Dict.lookup_erase_ite] at hsince
  split at hsince
  · cases hsince
  · exact h.waited q since deadline hsince hdeadline

theorem confirm (h : Bookkept m) (p : PeerId) : Bookkept (m.confirm p) := by
  have hmem : ∀ {ν : Type} {d : Dict PeerId ν} {q : PeerId}, q ∈ insert p m.active → (q ∈ m.active → q ∉ d) →
      q ∉ d.erase p := fun hq hd hmem => by
    rw [Finmap.mem_erase] at hmem
    exact hd ((Finset.mem_insert.1 hq).resolve_left hmem.1) hmem.2
  refine ⟨fun q hq => hmem hq (h.disjoint q), fun q hq => hmem hq (h.failures q), fun q hq => hmem hq (h.backoff q),
    fun q since deadline hsince hdeadline => ?_⟩
  simp only [RelayManager.confirm, Dict.lookup_erase_ite] at hsince hdeadline
  split at hsince
  · cases hsince
  · rename_i hne
    rw [if_neg hne] at hdeadline
    exact h.waited q since deadline hsince hdeadline

theorem listen (h : Bookkept m) {now : Instant} (hactive : p ∉ m.active) (hfree : ¬ BacksOff now m p) :
    Bookkept { m with pending := m.pending.insert p now } := by
  refine ⟨fun q hq => ?_, h.failures, h.backoff, fun q since deadline hsince hdeadline => ?_⟩
  · rw [Finmap.mem_insert, not_or]
    exact ⟨fun he => hactive (he ▸ hq), h.disjoint q hq⟩
  · simp only [Dict.lookup_insert_ite] at hsince
    split at hsince
    · rename_i he
      subst he
      cases hsince
      exact Nat.le_of_not_lt fun hlt => hfree ⟨deadline, hdeadline, hlt⟩
    · exact h.waited q since deadline hsince hdeadline

end Bookkept

/-- **What the moves of a tick amount to**: `active` stays, a deadline stays or is set in the future, and a pending entry
stays or is new, from now, of a peer whose deadline has passed. -/
structure Progress (now : Instant) (m m' : RelayManager) : Prop where
  myPeerId : m'.myPeerId = m.myPeerId
  active : m'.active = m.active
  backoff : ∀ p, m'.backoff.lookup p = m.backoff.lookup p ∨ BacksOff now m' p
  pending : ∀ p since, m'.pending.lookup p = some since →
    m.pending.lookup p = some since ∨ (since = now ∧ ¬ BacksOff now m p)

namespace Progress

variable {now : Instant} {m m' m'' : RelayManager} {p : PeerId}

theorem refl (now : Instant) (m : RelayManager) : Progress now m m := ⟨rfl, rfl, fun _ => .inl rfl, fun _ _ => .inl⟩

theorem backsOff (h : Progress now m m') (hp : BacksOff now m p) : BacksOff now m' p := by
  rcases h.backoff p with hsame | hlater
  · obtain ⟨deadline, hdeadline, hlt⟩ := hp
    exact ⟨deadline, hsame.trans hdeadline, hlt⟩
  · exact hlater

theorem trans (h : Progress now m m') (h' : Progress now m' m'') : Progress now m m'' := by
  refine ⟨h'.myPeerId.trans h.myPeerId, h'.active.trans h.active, fun p => ?_, fun p since hsince => ?_⟩
  · rcases h'.backoff p with hsame' | hlater
    · rcases h.backoff p with hsame | ⟨deadline, hdeadline, hlt⟩
      · exact .inl (hsame'.trans hsame)
      · exact .inr ⟨deadline, hsame'.trans hdeadline, hlt⟩
    · exact .inr hlater
  · rcases h'.pending p since hsince with hsince | ⟨hnow, hfree⟩
    · exact h.pending p since hsince
    · exact .inr ⟨hnow, fun hback => hfree (h.backsOff hback)⟩

theorem recordFailure (m : RelayManager) (config : RelayConfig) (p : PeerId) (now : Instant) :
    Progress now m (m.recordFailure config p now) := by
  obtain ⟨count, deadline, hlt, heq⟩ := recordFailure_eq m config p now
  rw [heq]
  refine ⟨rfl, rfl, fun q => ?_, fun _ _ => .inl⟩
  by_cases hq : q = p
  · exact .inr ⟨deadline, by simp only [Dict.lookup_insert_ite, if_pos hq], hlt⟩
  · exact .inl (by simp only [Dict.lookup_insert_ite, if_neg hq])

theorem drop (m : RelayManager) (p : PeerId) (now : Instant) : Progress now m { m with pending := m.pending.erase p } := by
  refine ⟨rfl, rfl, fun _ => .inl rfl, fun q since hsince => ?_⟩
  simp only [Dict.lookup_erase_ite] at hsince
  split at hsince
  · cases hsince
  · exact .inl hsince

theorem listen (hfree : ¬ BacksOff now m p) : Progress now m { m with pending := m.pending.insert p now } := by
  refine ⟨rfl, rfl, fun _ => .inl rfl, fun q since hsince => ?_⟩
  simp only [Dict.lookup_insert_ite] at hsince
  split at hsince
  · rename_i he
    subst he
    cases hsince
    exact .inr ⟨rfl, hfree⟩
  · exact .inl hsince

end Progress

/-! ## Expiry and top-up -/

section Tick

variable {config : RelayConfig} {env : TickEnv} {m : RelayManager}

/-- The loop of `expire_pending`, over peers that are not active. -/
theorem expire_loop (config : RelayConfig) (now : Instant) : ∀ (expired : List PeerId) (m : RelayManager), Bookkept m →
    (∀ p ∈ expired, p ∉ m.active) →
    let m' := expired.foldl (fun m peer =>
      ({ m with pending := m.pending.erase peer } : RelayManager).recordFailure config peer now) m
    Bookkept m' ∧ Progress now m m'
  | [], m, h, _ => ⟨h, .refl now m⟩
  | p :: rest, m, h, hfree => by
    have hp : p ∉ m.active := hfree p List.mem_cons_self
    have hfail : Bookkept (({ m with pending := m.pending.erase p } : RelayManager).recordFailure config p now) :=
      (h.release (Finset.Subset.refl _) p).recordFailure config now hp (fun hmem => (Finmap.mem_erase.1 hmem).1 rfl)
    have hprogress := (Progress.drop m p now).trans (Progress.recordFailure _ config p now)
    obtain ⟨hrest, hprogress'⟩ := expire_loop config now rest _ hfail
      (fun q hq => hprogress.active ▸ hfree q (List.mem_cons_of_mem _ hq))
    exact ⟨hrest, hprogress.trans hprogress'⟩

theorem Bookkept.expirePending (h : Bookkept m) (config : RelayConfig) (env : TickEnv) :
    Bookkept (m.expirePending config env) ∧ Progress env.now m (m.expirePending config env) := by
  refine expire_loop config env.now _ m h (fun p hp hactive => h.disjoint p hactive ?_)
  exact Finmap.mem_keys.1 (Finset.mem_filter.1 (env.order.mem_list.1 hp)).1

/-- The peer needs no reservation now. -/
def Settled (now : Instant) (m : RelayManager) (p : PeerId) : Prop := p ∈ m.active ∨ p ∈ m.pending ∨ BacksOff now m p

/-- What the top-up loop leaves. -/
structure ToppedUp (now : Instant) (desired : Nat) (peers : List PeerId) (m m' : RelayManager) : Prop where
  kept : Bookkept m'
  progress : Progress now m m'
  stays : ∀ p ∈ m.pending, p ∈ m'.pending
  reached : desired ≤ m'.count ∨ ∀ p ∈ peers, Settled now m' p
  bounded : m.count ≤ desired → m'.count ≤ desired

theorem ToppedUp.settled {now : Instant} {desired : Nat} {peers : List PeerId} {m m' : RelayManager} {p : PeerId}
    (h : ToppedUp now desired peers m m') (hp : Settled now m p) : Settled now m' p := by
  rcases hp with hp | hp | hp
  · exact .inl (h.progress.active ▸ hp)
  · exact .inr (.inl (h.stays p hp))
  · exact .inr (.inr (h.progress.backsOff hp))

/-- One candidate: a move that settles it and keeps within the target, and then the others. -/
theorem ToppedUp.cons {now : Instant} {desired : Nat} {peers : List PeerId} {m₁ m₂ m₃ : RelayManager} {p : PeerId}
    (hprogress : Progress now m₁ m₂) (hstays : ∀ q ∈ m₁.pending, q ∈ m₂.pending) (hcount : m₂.count ≤ max m₁.count desired)
    (hp : Settled now m₂ p) (h : ToppedUp now desired peers m₂ m₃) : ToppedUp now desired (p :: peers) m₁ m₃ where
  kept := h.kept
  progress := hprogress.trans h.progress
  stays q hq := h.stays q (hstays q hq)
  reached := h.reached.imp_right fun hall q hq => by
    rcases List.mem_cons.1 hq with rfl | hq
    · exact h.settled hp
    · exact hall q hq
  bounded hle := h.bounded (hcount.trans (max_le hle le_rfl))

theorem count_insert {now : Instant} {p : PeerId} (hp : p ∉ m.pending) :
    ({ m with pending := m.pending.insert p now } : RelayManager).count = m.count + 1 := by
  have hkeys : (m.pending.insert p now).keys = insert p m.pending.keys := by
    ext q
    simp only [Finmap.mem_keys, Finset.mem_insert, Finmap.mem_insert]
  simp only [RelayManager.count, hkeys]
  rw [Finset.card_insert_of_notMem (fun hmem => hp (Finmap.mem_keys.1 hmem))]
  omega

/-- **The top-up loop** reaches the target or settles every candidate, and does not pass the target. -/
theorem topUp_spec (config : RelayConfig) (env : TickEnv) (desired : Nat) :
    ∀ (candidates : List (PeerId × Multiaddr)) (m : RelayManager), Bookkept m →
      ToppedUp env.now desired (candidates.map Prod.fst) m (RelayManager.topUp config env desired m candidates)
  | [], m, h => ⟨h, .refl _ m, fun _ => id, .inr (fun _ hp => by cases hp), id⟩
  | (p, addr) :: rest, m, h => by
    unfold RelayManager.topUp
    split
    · rename_i hreached
      exact ⟨h, .refl _ m, fun _ => id, .inl hreached, id⟩
    rename_i hbelow
    split
    · rename_i htracked
      exact .cons (.refl _ m) (fun _ => id) (le_max_left _ _) (htracked.imp_right .inl)
        (topUp_spec config env desired rest m h)
    rename_i hfree
    rw [not_or] at hfree
    split
    · rename_i hback
      exact .cons (.refl _ m) (fun _ => id) (le_max_left _ _) (.inr (.inr hback))
        (topUp_spec config env desired rest m h)
    rename_i hdue
    split
    · -- listening: the peer is pending, and one more relay counts
      refine .cons (.listen hdue) (fun q hq => Finmap.mem_insert.2 (.inr hq)) ?_
        (.inr (.inl (Finmap.mem_insert.2 (.inl rfl)))) (topUp_spec config env desired rest _ (h.listen hfree.1 hdue))
      rw [count_insert hfree.2]
      exact le_max_of_le_right (Nat.lt_of_not_le hbelow)
    · -- the peer could not be listened on and backs off
      obtain ⟨count, deadline, hlt, heq⟩ := recordFailure_eq m config p env.now
      refine .cons (.recordFailure m config p env.now) (fun _ => id) (le_max_left _ _) (.inr (.inr ⟨deadline, ?_, hlt⟩))
        (topUp_spec config env desired rest _ (h.recordFailure config env.now hfree.1 hfree.2))
      rw [heq]
      exact Finmap.lookup_insert _

/-! ## Candidates -/

/-- The distinct peers of the bootstrap nodes, without the node itself. -/
def relayPeers (myPeerId : PeerId) (nodes : List Multiaddr) : Finset PeerId :=
  (nodes.filterMap extractPeerIdFromMultiaddr).toFinset.erase myPeerId

theorem candidates_spec (myPeerId : PeerId) : ∀ (nodes : List Multiaddr) (seen : Finset PeerId),
    ((RelayManager.candidates myPeerId seen nodes).map Prod.fst).Nodup ∧
      ∀ p, p ∈ (RelayManager.candidates myPeerId seen nodes).map Prod.fst ↔ p ∈ relayPeers myPeerId nodes ∧ p ∉ seen
  | [], seen => by simp [RelayManager.candidates, relayPeers]
  | addr :: rest, seen => by
    unfold RelayManager.candidates
    cases hpeer : extractPeerIdFromMultiaddr addr with
    | none =>
      have hsame : relayPeers myPeerId (addr :: rest) = relayPeers myPeerId rest := by
        simp [relayPeers, hpeer]
      rw [hsame]
      exact candidates_spec myPeerId rest seen
    | some peer =>
      have hpeers : ∀ p, p ∈ relayPeers myPeerId (addr :: rest) ↔
          (p = peer ∧ p ≠ myPeerId) ∨ p ∈ relayPeers myPeerId rest := fun p => by
        simp only [relayPeers, List.filterMap_cons, hpeer, List.toFinset_cons, Finset.mem_erase, Finset.mem_insert]
        tauto
      simp only
      split
      · rename_i hskip
        obtain ⟨hnodup, hmem⟩ := candidates_spec myPeerId rest seen
        refine ⟨hnodup, fun p => (hmem p).trans ?_⟩
        rw [hpeers]
        constructor
        · exact fun h => ⟨.inr h.1, h.2⟩
        · rintro ⟨⟨rfl, hne⟩ | h, hseen⟩
          · exact absurd hskip (by tauto)
          · exact ⟨h, hseen⟩
      · rename_i htake
        rw [not_or] at htake
        obtain ⟨hnodup, hmem⟩ := candidates_spec myPeerId rest (insert peer seen)
        simp only [Finset.mem_insert, not_or] at hmem
        refine ⟨List.nodup_cons.2 ⟨fun h => ((hmem peer).1 h).2.1 rfl, hnodup⟩, fun p => ?_⟩
        rw [List.map_cons, List.mem_cons, hmem, hpeers]
        by_cases hp : p = peer
        · subst hp
          simp [htake.1, htake.2]
        · simp [hp]

theorem length_candidates (myPeerId : PeerId) (nodes : List Multiaddr) :
    (RelayManager.candidates myPeerId ∅ nodes).length = (relayPeers myPeerId nodes).card := by
  obtain ⟨hnodup, hmem⟩ := candidates_spec myPeerId nodes ∅
  have heq : ((RelayManager.candidates myPeerId ∅ nodes).map Prod.fst).toFinset = relayPeers myPeerId nodes := by
    ext p
    rw [List.mem_toFinset, hmem]
    simp
  rw [← heq, List.toFinset_card_of_nodup hnodup, List.length_map]

/-! ## Ticks -/

/-- How many relays a tick aims at. -/
def desiredRelays (myPeerId : PeerId) (nodes : List Multiaddr) : Nat := min relayTarget (relayPeers myPeerId nodes).card

/-- **A tick tops up**: the target is reached, or every peer is active, pending or backs off; and a tick that is not above
the target after the expiry does not pass it. -/
structure TopsUp (config : RelayConfig) (env : TickEnv) (m m' : RelayManager) : Prop where
  reached : desiredRelays m.myPeerId config.bootstrapNodes ≤ m'.count ∨
    ∀ p ∈ relayPeers m.myPeerId config.bootstrapNodes, Settled env.now m' p
  bounded : (m.expirePending config env).count ≤ desiredRelays m.myPeerId config.bootstrapNodes →
    m'.count ≤ desiredRelays m.myPeerId config.bootstrapNodes

theorem tick_spec (h : Bookkept m) (config : RelayConfig) (env : TickEnv) :
    Bookkept (m.tick config env) ∧ Progress env.now m (m.tick config env) ∧
      (config.needsRelay = true → TopsUp config env m (m.tick config env)) := by
  unfold RelayManager.tick
  cases hneeds : config.needsRelay with
  | false => exact ⟨h, .refl _ m, fun hn => by cases hn⟩
  | true =>
    obtain ⟨hexpired, hprogress⟩ := h.expirePending config env
    have htopped := topUp_spec config env (desiredRelays m.myPeerId config.bootstrapNodes)
      (RelayManager.candidates m.myPeerId ∅ config.bootstrapNodes) _ hexpired
    simp only [Bool.not_true, Bool.false_eq_true, if_false, hprogress.myPeerId, length_candidates]
    refine ⟨htopped.kept, hprogress.trans htopped.progress, fun _ => ⟨?_, htopped.bounded⟩⟩
    refine htopped.reached.imp_right fun hall p hp => ?_
    exact hall p (((candidates_spec m.myPeerId config.bootstrapNodes ∅).2 p).2 ⟨hp, Finset.notMem_empty p⟩)

end Tick

/-! ## The other events -/

theorem Bookkept.onListenerClosed (config : RelayConfig) (now : Instant) : ∀ (addrs : List Multiaddr) {m : RelayManager},
    Bookkept m → Bookkept (m.onListenerClosed config now addrs).1 ∧
      ∀ p since, (m.onListenerClosed config now addrs).1.pending.lookup p = some since → m.pending.lookup p = some since
  | [], _, h => ⟨h, fun _ _ => id⟩
  | addr :: rest, m, h => by
    unfold RelayManager.onListenerClosed
    split
    · exact Bookkept.onListenerClosed config now rest h
    split
    · exact Bookkept.onListenerClosed config now rest h
    rename_i peer _
    have hrelease := h.release (Finset.erase_subset peer m.active) peer
    have hpending : ∀ p since, (m.pending.erase peer).lookup p = some since → m.pending.lookup p = some since :=
      fun p since hsince => by
        rw [Dict.lookup_erase_ite] at hsince
        split at hsince
        · cases hsince
        · exact hsince
    simp only
    split
    · obtain ⟨hkept, hkeeps⟩ := Bookkept.onListenerClosed config now rest hrelease
      exact ⟨hkept, fun p since hsince => hpending p since (hkeeps p since hsince)⟩
    · have hfail := hrelease.recordFailure config now (p := peer) (Finset.notMem_erase peer m.active)
        (fun hmem => (Finmap.mem_erase.1 hmem).1 rfl)
      obtain ⟨hkept, hkeeps⟩ := Bookkept.onListenerClosed config now rest hfail
      exact ⟨hkept, fun p since hsince => hpending p since (hkeeps p since hsince)⟩

/-- **Whoever is put into `pending`, is by a tick and after its deadline.** -/
def PutAfterBackoff (m : RelayManager) (e : ManagerEvent) (m' : RelayManager) : Prop :=
  ∀ p since, m'.pending.lookup p = some since → m.pending.lookup p = some since ∨
    ∃ config env, e = .tick config env ∧ since = env.now ∧ ¬ BacksOff env.now m p

theorem handle_spec {m : RelayManager} (h : Bookkept m) (e : ManagerEvent) :
    Bookkept (m.handle e) ∧ PutAfterBackoff m e (m.handle e) := by
  have hconfirm : ∀ p, PutAfterBackoff m e (m.confirm p) := fun p q since hsince => by
    simp only [RelayManager.confirm, Dict.lookup_erase_ite] at hsince
    split at hsince
    · cases hsince
    · exact .inl hsince
  cases e with
  | tick config env =>
    obtain ⟨hkept, hprogress, -⟩ := tick_spec h config env
    refine ⟨hkept, fun p since hsince => ?_⟩
    exact (hprogress.pending p since hsince).imp_right fun hnew => ⟨config, env, rfl, hnew⟩
  | reservationReqAccepted relay => exact ⟨h.confirm relay, hconfirm relay⟩
  | circuitReady addr =>
    simp only [RelayManager.handle, RelayManager.onCircuitReady]
    cases extractPeerIdFromMultiaddr addr with
    | none => exact ⟨h, fun _ _ => .inl⟩
    | some peer =>
      simp only
      split
      · exact ⟨h, fun _ _ => .inl⟩
      · exact ⟨h.confirm peer, hconfirm peer⟩
  | listenerClosed config now addrs =>
    obtain ⟨hkept, hkeeps⟩ := Bookkept.onListenerClosed config now addrs h
    exact ⟨hkept, fun p since hsince => .inl (hkeeps p since hsince)⟩
  | reset =>
    refine ⟨⟨fun p hp => ?_, fun p hp => ?_, fun p hp => ?_, fun p since deadline hsince => ?_⟩, fun p since hsince => ?_⟩
    · cases hp
    · cases hp
    · cases hp
    · cases hsince
    · cases hsince

theorem bookkept_new (myPeerId : PeerId) : Bookkept (RelayManager.new myPeerId) := by
  refine ⟨fun p hp => ?_, fun p hp => ?_, fun p hp => ?_, fun p since deadline hsince => ?_⟩
  · cases hp
  · cases hp
  · cases hp
  · cases hsince

/-- **Bookkeeping and top-up, along every run**: the tables agree, nobody is put into `pending` before the deadline, and
every tick of a node that needs relays tops up. -/
theorem relay_bookkeeping (myPeerId : PeerId) (es : List ManagerEvent) (m : RelayManager)
    (hr : (manager myPeerId).run es = some m) :
    Bookkept m ∧ (∀ e, PutAfterBackoff m e (m.handle e)) ∧
      ∀ config env, config.needsRelay = true → TopsUp config env m (m.tick config env) := by
  have hkept : Bookkept m := (manager myPeerId).reachable_invariant (bookkept_new myPeerId)
    (fun m e m' h hs => Option.some.inj hs ▸ (handle_spec h e).1) ⟨es, hr⟩
  exact ⟨hkept, fun e => (handle_spec hkept e).2, fun config env => (tick_spec hkept config env).2.2⟩

/-- One relay is active, the other's reservation has expired and backs off. -/
def expiredRun : List ManagerEvent :=
  [.tick natConfig natEnv, .reservationReqAccepted [1], .tick natConfig { natEnv with now := secs 200 }]

/-- After the expiry a tick leaves one relay active and the other backing off. -/
theorem expired_relay_settled : ∃ m, (manager [0]).run expiredRun = some m ∧ m.active = {[1]} ∧ m.pending.keys = ∅ ∧
    ∀ p ∈ relayPeers [0] natConfig.bootstrapNodes,
      Settled (secs 201) (m.tick natConfig { natEnv with now := secs 201 }) p := by
  obtain ⟨m, hr, hm⟩ := (manager [0]).exists_of_check (fun m => decide (m.active = {[1]} ∧ m.pending.keys = ∅ ∧
    (m.tick natConfig { natEnv with now := secs 201 }).count = 1 ∧ m.myPeerId = [0])) expiredRun (by decide +kernel)
  obtain ⟨hactive, hpending, hcount, hme⟩ := of_decide_eq_true hm
  refine ⟨m, hr, hactive, hpending, ?_⟩
  have htops := (relay_bookkeeping [0] expiredRun m hr).2.2 natConfig { natEnv with now := secs 201 } (by decide)
  rw [← hme]
  refine htops.reached.resolve_left ?_
  rw [hcount, hme]
  decide

end Relay
end NexusNet
