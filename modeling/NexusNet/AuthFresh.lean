import NexusNet.AuthDomains
/-!
# AuthFresh — is an authorization fresh when it is granted

`authorize` checks the expiry and the version of the index, waits for the whitelist, and then grants.  Here the gate runs
beside a clock, which advances between the steps, and with a record of every index version it has accepted, by the
network it was accepted in.  An `Allow` is fresh when its index is not expired at that moment and nothing newer has been
accepted in its network.  What the checks establish lasts to the grant exactly as long as nothing happens in between:
the steps that leave a checked index alone are `KeepsFresh`.
-/
namespace NexusNet
namespace Auth

/-! ## The gate with a clock -/

/-- The caches of a call that has not checked the version of its index. -/
def Pc.unchecked : Pc → Option Nat
  | .ready _ i | .awaitIndex _ i _ | .gotIndex _ i _ | .unexpired _ i _ => some i
  | _ => none

/-- The caches and the index of a call that has checked the version of it. -/
def Pc.checkedIndex : Pc → Option (Nat × IndexDoc)
  | .listed i doc _ | .awaitWhitelist i doc _ _ | .gotWhitelist i doc _ _ => some (i, doc)
  | _ => none

/-- The index of a call that has checked the expiry of it. -/
def Pc.unexpiredIndex : Pc → Option IndexDoc
  | .unexpired _ _ doc | .listed _ doc _ | .awaitWhitelist _ doc _ _ | .gotWhitelist _ doc _ _ => some doc
  | _ => none

/-- The index version that is accepted at an event, with the network it is accepted in. -/
def Gate.accepts (g : Gate) : Event → Option (AuthNetwork × UInt64)
  | .move a m =>
    (passedIndex g (.move a m)).bind (fun version => (g.requests.lookup a).bind (fun q =>
      (q.pc.unchecked.bind g.netOf).map (fun net => (net, version))))
  | _ => none

/-- The index on which an event grants an `Allow`, with its network. -/
def Gate.grants (P : Primitives) (g : Gate) : Event → Option (AuthNetwork × IndexDoc)
  | .move a m =>
    (g.requests.lookup a).bind (fun q => match q.pc, g.move P q m with
      | .gotWhitelist i doc _ _, some (_, .decided .allow) => (g.netOf i).map (fun net => (net, doc))
      | _, _ => none)
  | _ => none

/-- The gate, the time and the index versions accepted so far. -/
structure Timed where
  gate : Gate
  now : UInt64
  accepted : List (AuthNetwork × UInt64)

inductive TimedEvent where
  | tick (now : UInt64)
  | act (e : Event)

/-- An event that reads the time reads this one. -/
def Event.readsTime (now : UInt64) : Event → Bool
  | .move _ (.checkExpiry t) => t == now
  | .indexReply _ _ _ t => t == now
  | _ => true

def Timed.step (P : Primitives) (s : Timed) : TimedEvent → Option Timed
  | .tick now => if s.now ≤ now then some { s with now := now } else none
  | .act e =>
    if e.readsTime s.now then
      (s.gate.step P e).map (fun g => { s with gate := g, accepted := s.accepted ++ (s.gate.accepts e).toList })
    else none

/-- The gate of a node that starts with the configuration at a given time. -/
def timed (P : Primitives) (config : NodeConfig) (start : UInt64) : Machine Timed TimedEvent :=
  ⟨⟨Gate.new P config, start, []⟩, Timed.step P⟩

/-- **A grant is fresh**: the index is not expired, and no index of a higher version has been accepted in its network. -/
def FreshGrant (P : Primitives) (s : Timed) : TimedEvent → Prop
  | .tick _ => True
  | .act e => ∀ p ∈ s.gate.grants P e, s.now ≤ p.2.expiresAt ∧ ∀ c ∈ s.accepted, c.1 = p.1 → c.2 ≤ p.2.version

instance (P : Primitives) (s : Timed) : ∀ x : TimedEvent, Decidable (FreshGrant P s x)
  | .tick _ => .isTrue trivial
  | .act e =>
    inferInstanceAs (Decidable (∀ p ∈ s.gate.grants P e, s.now ≤ p.2.expiresAt ∧ ∀ c ∈ s.accepted, _ → c.2 ≤ p.2.version))

/-- **What leaves a checked index alone.**  The clock does not pass the expiry of an index whose expiry a call has
checked; no index is accepted while a call in the same network works with a checked one of a lower version; and the
history is not cleared, by a reload to another trust domain, while a network with an accepted version has a call before
its check or is the network of the reload. -/
def KeepsFresh (P : Primitives) (s : Timed) : TimedEvent → Prop
  | .tick now => ∀ a ∈ s.gate.requests.keys, ∀ q ∈ s.gate.requests.lookup a, ∀ doc ∈ q.pc.unexpiredIndex,
    now ≤ doc.expiresAt
  | .act e =>
    (∀ p ∈ s.gate.accepts e, ∀ a ∈ s.gate.requests.keys, ∀ q ∈ s.gate.requests.lookup a, ∀ c ∈ q.pc.checkedIndex,
      s.gate.netOf c.1 = some p.1 → p.2 ≤ c.2.version) ∧
    match e with
    | .reload config _ => sameTrustDomain s.gate.state (resolveState P config) = false →
        ∀ p ∈ s.accepted, resolveState P config ≠ .active p.1 ∧
          ∀ a ∈ s.gate.requests.keys, ∀ q ∈ s.gate.requests.lookup a, ∀ i ∈ q.pc.unchecked, s.gate.netOf i ≠ some p.1
    | _ => True

instance (P : Primitives) (s : Timed) : ∀ x : TimedEvent, Decidable (KeepsFresh P s x)
  | .tick now => inferInstanceAs (Decidable (∀ a ∈ s.gate.requests.keys, ∀ q ∈ s.gate.requests.lookup a,
      ∀ doc ∈ q.pc.unexpiredIndex, now ≤ doc.expiresAt))
  | .act (.reload config _) => inferInstanceAs (Decidable (_ ∧
      (sameTrustDomain s.gate.state (resolveState P config) = false → ∀ p ∈ s.accepted, _ ∧ _)))
  | .act (.authorize _ _ _) => inferInstanceAs (Decidable (_ ∧ True))
  | .act (.move _ _) => inferInstanceAs (Decidable (_ ∧ True))
  | .act (.index _ _) => inferInstanceAs (Decidable (_ ∧ True))
  | .act (.whitelist _ _) => inferInstanceAs (Decidable (_ ∧ True))
  | .act (.indexReply _ _ _ _) => inferInstanceAs (Decidable (_ ∧ True))
  | .act (.whitelistReply _ _ _) => inferInstanceAs (Decidable (_ ∧ True))

/-! ## Where the calls are -/

theorem Pc.caches_of_unchecked {pc : Pc} {i : Nat} (h : pc.unchecked = some i) : pc.caches = some i := by
  cases pc <;> first | exact h | cases h

theorem Pc.caches_of_checkedIndex {pc : Pc} {i : Nat} {doc : IndexDoc} (h : pc.checkedIndex = some (i, doc)) :
    pc.caches = some i := by
  cases pc <;> cases h <;> rfl

section Moves

variable {P : Primitives} {g g' : Gate} {q : Request} {m : Move} {pc : Pc}

/-- A call gets its caches where the gate has them. -/
theorem Moved.unchecked (h : Moved P g q m g' pc) {i : Nat} (hi : pc.unchecked = some i) :
    q.pc.unchecked = some i ∨ g.caches = some i := by
  cases h with
  | caches net j hpc current =>
    cases hi
    exact .inr current
  | getIndex _ _ _ _ _ hpc | unexpired _ _ _ _ hpc => exact .inl (by rw [hpc]; exact hi)
  | indexRead net j c result hpc returned =>
    rcases result with e | ⟨_ | doc, stale⟩
    · cases hi
    · cases hi
    · exact .inl (by rw [hpc]; exact hi)
  | indexPassed net j doc versions hpc passed =>
    cases hfind : doc.find q.service <;> rw [hfind] at hi <;> cases hi
  | whitelistRead j doc entry c result hpc returned =>
    rcases result with e | ⟨_ | list, stale⟩ <;> cases hi
  | _ => cases hi

/-- A call has a checked index from its check on. -/
theorem Moved.checkedIndex (h : Moved P g q m g' pc) {i : Nat} {doc : IndexDoc} (hi : pc.checkedIndex = some (i, doc)) :
    q.pc.checkedIndex = some (i, doc) ∨ m = .checkIndex ∧ ∃ net, q.pc = .unexpired net i doc := by
  cases h with
  | indexPassed net j doc' versions hpc passed =>
    cases hfind : doc'.find q.service with
    | none =>
      rw [hfind] at hi
      cases hi
    | some entry =>
      rw [hfind] at hi
      cases hi
      exact .inr ⟨rfl, net, hpc⟩
  | indexRead net j c result hpc returned =>
    rcases result with e | ⟨_ | doc', stale⟩ <;> cases hi
  | getWhitelist j doc' entry c now _ hpc enter => exact .inl (by rw [hpc]; exact hi)
  | whitelistRead j doc' entry c result hpc returned =>
    rcases result with e | ⟨_ | list, stale⟩
    · cases hi
    · cases hi
    · exact .inl (by rw [hpc]; exact hi)
  | _ => cases hi

/-- A call has an unexpired index from its look at the clock on. -/
theorem Moved.unexpiredIndex (h : Moved P g q m g' pc) {doc : IndexDoc} (hd : pc.unexpiredIndex = some doc) :
    q.pc.unexpiredIndex = some doc ∨ ∃ now, m = .checkExpiry now ∧ now ≤ doc.expiresAt := by
  cases h with
  | unexpired net j doc' now hpc early =>
    cases hd
    exact .inr ⟨now, rfl, early⟩
  | indexPassed net j doc' versions hpc passed =>
    cases hfind : doc'.find q.service with
    | none =>
      rw [hfind] at hd
      cases hd
    | some entry =>
      rw [hfind] at hd
      exact .inl (by rw [hpc]; exact hd)
  | indexRead net j c result hpc returned =>
    rcases result with e | ⟨_ | doc', stale⟩ <;> cases hd
  | getWhitelist j doc' entry c now _ hpc enter => exact .inl (by rw [hpc]; exact hd)
  | whitelistRead j doc' entry c result hpc returned =>
    rcases result with e | ⟨_ | list, stale⟩
    · cases hd
    · cases hd
    · exact .inl (by rw [hpc]; exact hd)
  | _ => cases hd

/-- A call that goes past its check has accepted its version. -/
theorem Moved.accepted (h : Moved P g q m g' pc) {a i : Nat} {doc : IndexDoc} {net net' : AuthNetwork}
    (hq : g.requests.lookup a = some q) (hi : pc.checkedIndex = some (i, doc)) (hpc : q.pc = .unexpired net' i doc)
    (hnet : g.netOf i = some net) : g.accepts (.move a m) = some (net, doc.version) := by
  cases h with
  | indexPassed net₁ j doc₁ versions hpc₁ passed =>
    cases hpc.symm.trans hpc₁
    have hpassed : g.passed (.move a .checkIndex) = some (.index doc.version) := by
      simp [Gate.passed, Gate.check, hq, hpc, Check.result, passed, Except.isOk, Except.toBool]
    simp [Gate.accepts, passedIndex, hpassed, hq, hpc, Pc.unchecked, hnet]
  | _ => simp_all [Pc.checkedIndex]

end Moves

/-! ## The invariant -/

/-- **The invariant of the runs that keep checked indexes fresh.** -/
structure FreshInv (s : Timed) : Prop where
  placed : Placed s.gate
  unexpired : ∀ a q doc, s.gate.requests.lookup a = some q → q.pc.unexpiredIndex = some doc → s.now ≤ doc.expiresAt
  newest : ∀ a q i doc net version, s.gate.requests.lookup a = some q → q.pc.checkedIndex = some (i, doc) →
    s.gate.netOf i = some net → (net, version) ∈ s.accepted → version ≤ doc.version
  -- the history covers every accepted version whose network is still in use
  recorded : ∀ net version, (net, version) ∈ s.accepted →
    (∃ w, s.gate.versions.index = some w ∧ version ≤ w) ∨
    s.gate.state ≠ .active net ∧
      ∀ a q i, s.gate.requests.lookup a = some q → q.pc.unchecked = some i → s.gate.netOf i ≠ some net

section Steps

variable {P : Primitives} {s : Timed} {g' : Gate}

theorem forall_requests {g : Gate} {φ : Request → Prop} (h : ∀ a ∈ g.requests.keys, ∀ q ∈ g.requests.lookup a, φ q)
    {a : Nat} {q : Request} (hq : g.requests.lookup a = some q) : φ q :=
  h a (Finmap.mem_keys.2 (Finmap.mem_of_lookup_eq_some hq)) q hq

theorem FreshInv.tick (h : FreshInv s) {now : UInt64} (hkeeps : KeepsFresh P s (.tick now)) :
    FreshInv { s with now := now } :=
  ⟨h.placed, fun _ _ doc hq hdoc => forall_requests hkeeps hq doc hdoc, h.newest, h.recorded⟩

/-- A request that begins has no caches and no index yet. -/
theorem begin_pc (g : Gate) (peer : Bytes) (service : String) : (g.begin peer service).pc.unchecked = none ∧
    (g.begin peer service).pc.checkedIndex = none ∧ (g.begin peer service).pc.unexpiredIndex = none := by
  unfold Gate.begin
  cases g.state <;> exact ⟨rfl, rfl, rfl⟩

theorem FreshInv.authorize (h : FreshInv s) (a : Nat) (peer : Bytes) (service : String)
    (hplaced : Placed { s.gate with requests := s.gate.requests.insert a (s.gate.begin peer service) }) :
    FreshInv { s with gate := { s.gate with
      requests := s.gate.requests.insert a (s.gate.begin peer service) } } := by
  obtain ⟨hun, hch, hex⟩ := begin_pc s.gate peer service
  -- what a request has in hand, the new one does not have
  have hold : ∀ {α : Type} {f : Pc → Option α} {b : Nat} {q : Request} {x : α},
      f (s.gate.begin peer service).pc = none →
      (s.gate.requests.insert a (s.gate.begin peer service)).lookup b = some q → f q.pc = some x →
      s.gate.requests.lookup b = some q := fun hf hq hx => by
    rw [Dict.lookup_insert_ite] at hq
    split at hq
    · cases hq
      rw [hf] at hx
      cases hx
    · exact hq
  exact ⟨hplaced, fun b q doc hq hd => h.unexpired b q doc (hold hex hq hd) hd,
    fun b q i doc net version hq hi => h.newest b q i doc net version (hold hch hq hi) hi,
    fun net version hmem => (h.recorded net version hmem).imp id (fun ⟨hstate, hcalls⟩ =>
      ⟨hstate, fun b q i hq hi => hcalls b q i (hold hun hq hi) hi⟩)⟩

theorem FreshInv.caches (h : FreshInv s) {i : Nat} {old new : AuthCaches} (hold : s.gate.built.lookup i = some old)
    (hnet : new.net = old.net) (hplaced : Placed { s.gate with built := s.gate.built.insert i new }) :
    FreshInv { s with gate := { s.gate with built := s.gate.built.insert i new } } := by
  have hsame := netOf_insert hold hnet
  refine ⟨hplaced, h.unexpired, fun a q j doc net version hq hj hn => ?_, fun net version hmem => ?_⟩
  · rw [hsame] at hn
    exact h.newest a q j doc net version hq hj hn
  · simp only [hsame]
    exact h.recorded net version hmem

theorem accepts_passed {g : Gate} {e : Event} {net : AuthNetwork} {version : UInt64}
    (h : g.accepts e = some (net, version)) : passedIndex g e = some version := by
  cases e with
  | move a m =>
    obtain ⟨v, hv, h⟩ := Option.bind_eq_some_iff.1 h
    obtain ⟨q, -, h⟩ := Option.bind_eq_some_iff.1 h
    obtain ⟨net', -, heq⟩ := Option.map_eq_some_iff.1 h
    cases heq
    exact hv
  | _ => cases h

section Move

variable {a : Nat} {m : Move} {g₂ : Gate}

/-- The history covers a version: one that is not lower has been accepted. -/
def Covers (g : Gate) (version : UInt64) : Prop := ∃ w, g.versions.index = some w ∧ version ≤ w

/-- What the history covers it still covers after an access. -/
theorem Covers.move {version : UInt64} (h : Covers s.gate version) (hstep : s.gate.step P (.move a m) = some g₂) :
    Covers g₂ version := by
  obtain ⟨w, hw, hle⟩ := h
  have hsame : SameDomain P s.gate (.move a m) := trivial
  obtain ⟨-, heq⟩ | ⟨v, -, hup, heq⟩ := index_step hsame hstep
  · exact ⟨w, heq.trans hw, hle⟩
  · exact ⟨v, heq, UInt64.le_trans hle (hup w hw)⟩

/-- A version that is accepted is not below what the history covers, and covered then. -/
theorem accepts_covers {net : AuthNetwork} {version : UInt64} (hacc : s.gate.accepts (.move a m) = some (net, version))
    (hstep : s.gate.step P (.move a m) = some g₂) :
    (∀ v, Covers s.gate v → v ≤ version) ∧ Covers g₂ version := by
  have hsame : SameDomain P s.gate (.move a m) := trivial
  obtain ⟨hnone, -⟩ | ⟨v, hv, hup, heq⟩ := index_step hsame hstep
  · cases hnone.symm.trans (accepts_passed hacc)
  · cases hv.symm.trans (accepts_passed hacc)
    exact ⟨fun v' ⟨w, hw, hle⟩ => UInt64.le_trans hle (hup w hw), _, heq, UInt64.le_refl _⟩

variable {q : Request} {pc : Pc} (h : FreshInv s) (hq : s.gate.requests.lookup a = some q)
  (hmoved : Moved P s.gate q m g' pc)
  (hstep : s.gate.step P (.move a m) = some { g' with requests := s.gate.requests.insert a { q with pc := pc } })

include h hq hmoved in
theorem FreshInv.move_unexpired (htime : (Event.move a m).readsTime s.now = true) {b : Nat} {q' : Request} {doc : IndexDoc}
    (hq' : (s.gate.requests.insert a { q with pc := pc }).lookup b = some q') (hdoc : q'.pc.unexpiredIndex = some doc) :
    s.now ≤ doc.expiresAt := by
  rw [Dict.lookup_insert_ite] at hq'
  split at hq'
  · cases hq'
    rcases hmoved.unexpiredIndex hdoc with hdoc | ⟨now, rfl, hle⟩
    · exact h.unexpired a q doc hq hdoc
    · simp only [Event.readsTime, beq_iff_eq] at htime
      exact htime ▸ hle
  · exact h.unexpired b q' doc hq' hdoc

include h hq hmoved hstep in
/-- The version that the check accepts is not below any that the network has accepted. -/
theorem FreshInv.move_newest (hkeeps : KeepsFresh P s (.act (.move a m))) {b i : Nat} {q' : Request} {doc : IndexDoc}
    {net : AuthNetwork} {version : UInt64} (hq' : (s.gate.requests.insert a { q with pc := pc }).lookup b = some q')
    (hi : q'.pc.checkedIndex = some (i, doc)) (hnet : s.gate.netOf i = some net)
    (hmem : (net, version) ∈ s.accepted ++ (s.gate.accepts (.move a m)).toList) : version ≤ doc.version := by
  -- a call that has its index from before does not see a newer one accepted
  have hold : ∀ {b : Nat} {q' : Request}, s.gate.requests.lookup b = some q' → q'.pc.checkedIndex = some (i, doc) →
      version ≤ doc.version := fun hq' hi => by
    rcases List.mem_append.1 hmem with hmem | hmem
    · exact h.newest _ _ i doc net version hq' hi hnet hmem
    · exact forall_requests (hkeeps.1 (net, version) (Option.mem_toList.1 hmem)) hq' (i, doc) hi hnet
  rw [Dict.lookup_insert_ite] at hq'
  split at hq'
  · cases hq'
    rcases hmoved.checkedIndex hi with hbefore | ⟨rfl, net', hpc⟩
    · exact hold hq hbefore
    · have hacc := hmoved.accepted hq hi hpc hnet
      rcases List.mem_append.1 hmem with hmem | hmem
      · refine (accepts_covers hacc hstep).1 version ?_
        rcases h.recorded net version hmem with hcovers | ⟨-, hcalls⟩
        · exact hcovers
        · exact absurd hnet (hcalls a q i hq (by rw [hpc]; rfl))
      · rw [hacc] at hmem
        cases Option.mem_some.1 (Option.mem_toList.1 hmem)
        exact UInt64.le_refl _
  · exact hold hq' hi

include h hq hmoved hstep in
theorem FreshInv.move_recorded {net : AuthNetwork} {version : UInt64}
    (hmem : (net, version) ∈ s.accepted ++ (s.gate.accepts (.move a m)).toList) :
    Covers { g' with requests := s.gate.requests.insert a { q with pc := pc } } version ∨ g'.state ≠ .active net ∧
      ∀ b q' i, (s.gate.requests.insert a { q with pc := pc }).lookup b = some q' → q'.pc.unchecked = some i →
        s.gate.netOf i ≠ some net := by
  rcases List.mem_append.1 hmem with hmem | hmem
  · rcases h.recorded net version hmem with hcovers | ⟨hne, hcalls⟩
    · exact .inl (Covers.move hcovers hstep)
    · refine .inr ⟨fun heq => hne (hmoved.kept.state.symm.trans heq), fun b q' i hq' hi hnet => ?_⟩
      rw [Dict.lookup_insert_ite] at hq'
      split at hq'
      · cases hq'
        rcases hmoved.unchecked hi with hi | hi
        · exact hcalls a q i hq hi hnet
        · obtain ⟨net', hn, hactive⟩ := h.placed.current i hi
          cases hn.symm.trans hnet
          exact hne hactive
      · exact hcalls b q' i hq' hi hnet
  · exact .inl (accepts_covers (Option.mem_toList.1 hmem) hstep).2

include h hq hmoved hstep in
/-- **An access keeps the invariant.** -/
theorem FreshInv.move (htime : (Event.move a m).readsTime s.now = true) (hkeeps : KeepsFresh P s (.act (.move a m))) :
    FreshInv { s with
      gate := { g' with requests := s.gate.requests.insert a { q with pc := pc } },
      accepted := s.accepted ++ (s.gate.accepts (.move a m)).toList } := by
  have hnetOf : ∀ i, Gate.netOf { g' with requests := s.gate.requests.insert a { q with pc := pc } } i = s.gate.netOf i :=
    hmoved.kept.netOf
  refine ⟨h.placed.step hstep, fun b q' doc hq' hdoc => h.move_unexpired hq hmoved htime hq' hdoc,
    fun b q' i doc net version hq' hi hnet hmem => ?_, fun net version hmem => ?_⟩
  · exact h.move_newest hq hmoved hstep hkeeps hq' hi ((hnetOf i).symm.trans hnet) hmem
  · refine (h.move_recorded hq hmoved hstep hmem).imp id (fun ⟨hne, hcalls⟩ => ⟨hne, fun b q' i hq' hi hnet => ?_⟩)
    exact hcalls b q' i hq' hi ((hnetOf i).symm.trans hnet)

end Move

theorem FreshInv.reload (h : FreshInv s) {config : NodeConfig} {fresh : Nat} (hunused : fresh ∉ s.gate.built)
    (hplaced : Placed (s.gate.reload P config fresh)) (hkeeps : KeepsFresh P s (.act (.reload config fresh))) :
    FreshInv { s with gate := s.gate.reload P config fresh } := by
  have hrequests := reload_requests P s.gate config fresh
  -- the caches of a call stay in their network
  have hnetOf : ∀ {a q i net}, s.gate.requests.lookup a = some q → q.pc.caches = some i →
      (s.gate.reload P config fresh).netOf i = some net → s.gate.netOf i = some net := fun hq hi hnet => by
    obtain ⟨net', hn⟩ := h.placed.calls _ _ _ hq hi
    rw [hn, ← reload_netOf P config hunused hn, hnet]
  refine ⟨hplaced, fun a q doc hq hdoc => ?_, fun a q i doc net version hq hi hnet hmem => ?_,
    fun net version hmem => ?_⟩
  · exact h.unexpired a q doc (hrequests ▸ hq) hdoc
  · rw [hrequests] at hq
    exact h.newest a q i doc net version hq hi (hnetOf hq (Pc.caches_of_checkedIndex hi) hnet) hmem
  · simp only [hrequests, reload_state]
    cases hsame : sameTrustDomain s.gate.state (resolveState P config) with
    | true =>
      rw [reload_versions hsame]
      refine (h.recorded net version hmem).imp id (fun ⟨hne, hcalls⟩ => ⟨fun heq => ?_, fun a q i hq hi hnet => ?_⟩)
      · rw [heq] at hsame
        exact hne (sameTrustDomain_eq hsame)
      · exact hcalls a q i hq hi (hnetOf hq (Pc.caches_of_unchecked hi) hnet)
    | false =>
      obtain ⟨hne, hcalls⟩ := hkeeps.2 hsame (net, version) hmem
      exact .inr ⟨hne, fun a q i hq hi hnet =>
        forall_requests hcalls hq i hi (hnetOf hq (Pc.caches_of_unchecked hi) hnet)⟩

/-- **A step that leaves checked indexes alone keeps the invariant.** -/
theorem FreshInv.step (h : FreshInv s) {x : TimedEvent} {s' : Timed} (hkeeps : KeepsFresh P s x)
    (hstep : s.step P x = some s') : FreshInv s' := by
  cases x with
  | tick now =>
    simp only [Timed.step] at hstep
    split at hstep
    · cases hstep
      exact h.tick hkeeps
    · cases hstep
  | act e =>
    simp only [Timed.step] at hstep
    split at hstep
    · rename_i htime
      obtain ⟨g', hg, rfl⟩ := Option.map_eq_some_iff.1 hstep
      have hplaced := h.placed.step hg
      cases stepped_of_step hg with
      | authorize a peer service fresh =>
        simp only [Gate.accepts, Option.toList_none, List.append_nil]
        exact h.authorize a peer service hplaced
      | move a m q g₁ pc hq hmoved => exact h.move hq hmoved hg htime hkeeps
      | caches _ i old new about built cause =>
        have hnone : s.gate.accepts e = none := by
          cases cause <;> rfl
        simp only [hnone, Option.toList_none, List.append_nil]
        exact h.caches built cause.net hplaced
      | reload config fresh unused =>
        simp only [Gate.accepts, Option.toList_none, List.append_nil]
        exact h.reload unused hplaced hkeeps
    · cases hstep

/-- **In such a state a grant is fresh.** -/
theorem FreshInv.grant (h : FreshInv s) (x : TimedEvent) : FreshGrant P s x := by
  cases x with
  | tick now => trivial
  | act e =>
    intro p hgrant
    cases e with
    | move a m =>
      obtain ⟨q, hq, hgrant⟩ := Option.bind_eq_some_iff.1 hgrant
      split at hgrant
      · rename_i i doc entry list g' hpc hmove
        obtain ⟨net, hnet, rfl⟩ := Option.map_eq_some_iff.1 hgrant
        refine ⟨h.unexpired a q doc hq (by rw [hpc]; rfl), fun c hc hnet' => ?_⟩
        subst hnet'
        exact h.newest a q i doc c.1 c.2 hq (by rw [hpc]; rfl) hnet hc
      · cases hgrant
    | _ => cases hgrant

end Steps

theorem fresh_init (P : Primitives) (config : NodeConfig) (start : UInt64) : FreshInv (timed P config start).init := by
  have hrequests : (Gate.new P config).requests = ∅ := by
    unfold Gate.new
    split <;> rfl
  have hnone : ∀ a q, (Gate.new P config).requests.lookup a ≠ some q := fun a q => by simp [hrequests]
  exact ⟨placed_new P config, fun a q doc hq => absurd hq (hnone a q),
    fun a q i doc net version hq => absurd hq (hnone a q), fun net version hmem => by cases hmem⟩

/-- **Authorizations are fresh in every run that leaves checked indexes alone**: at the moment an `Allow` is granted, its
index is not expired and no newer index has been accepted in its network. -/
theorem grants_fresh (P : Primitives) (config : NodeConfig) (start : UInt64) (es : List TimedEvent)
    (hkeeps : (timed P config start).Meets (KeepsFresh P) (timed P config start).init es) :
    (timed P config start).Meets (FreshGrant P) (timed P config start).init es :=
  (timed P config start).meets_of_invariant (fun _ _ _ h hk hs => FreshInv.step h hk hs)
    (fun _ x h _ => h.grant x) (fresh_init P config start) hkeeps

/-- Every event at the time it reads. -/
def inTime (es : List Event) : List TimedEvent :=
  es.flatMap (fun e => match e with
    | .move _ (.checkExpiry t) => [.tick t, .act e]
    | .indexReply _ _ _ t => [.tick t, .act e]
    | _ => [.act e])

theorem lab_fresh :
    (∃ s, (timed labPrimitives labConfig 0).run (inTime (labRun ⟨Finset.toList, Finset.coe_toList⟩)) = some s ∧
      decide (s.gate.requests.lookup 0 = some ⟨[], "cmd", .decided .allow⟩) = true) ∧
    (timed labPrimitives labConfig 0).Meets (FreshGrant labPrimitives) (timed labPrimitives labConfig 0).init
      (inTime (labRun ⟨Finset.toList, Finset.coe_toList⟩)) :=
  ⟨(timed labPrimitives labConfig 0).exists_of_check _ _ (by decide +kernel),
    grants_fresh labPrimitives labConfig 0 _ (by decide +kernel)⟩

/-! Call 0 checks its index, of version 1 and with the end at 100, and waits for the whitelist. -/

def labChecked : List Event :=
  .authorize 0 [] "cmd" :: .move 0 (.checkConfig labConfig) :: .move 0 .readCaches :: .move 0 (.getIndex 0 0) ::
    labIndexRead ++
    [.move 0 .indexRead, .move 0 (.checkExpiry 60), .move 0 .checkIndex, .move 0 (.getWhitelist 0 0)]

def labGrant (order : Iteration WhitelistKey) : List Event :=
  labWhitelistRead order ++ [.move 0 .whitelistRead, .move 0 .checkWhitelist]

/-- The whitelist comes at 200. -/
def expiredRun (order : Iteration WhitelistKey) : List TimedEvent :=
  inTime labChecked ++ .tick 200 :: inTime (labGrant order)

/-- Payload 3 is an index of version 2 with the same services. -/
def newerPrimitives : Primitives :=
  { labPrimitives with
    decodeIndex := fun payload =>
      if payload = [3] then some ⟨2, 100, [⟨"cmd", labSha256 labWhitelist, UInt64.ofNat labWhitelist.length⟩]⟩
      else labPrimitives.decodeIndex payload }

/-- Call 1 refreshes the index, call 2 accepts the new one. -/
def labNewer : List Event :=
  [.index 0 (.deregister 0), .authorize 1 [] "cmd", .move 1 (.checkConfig labConfig), .move 1 .readCaches,
    .move 1 (.getIndex 1 2), .index 0 (.ensure 1 1), .index 0 (.loadGlobal 1), .index 0 (.loadKey 1), .index 0 (.fetchStart 1),
    .indexReply 0 1 (.ok [labRecord 3 "/oahd/auth/lab/service"]) 60, .index 0 (.recheckGlobal 1), .index 0 (.recheckKey 1),
    .index 0 (.write 1 3 (Iteration.ascending String)), .authorize 2 [] "cmd", .move 2 (.checkConfig labConfig),
    .move 2 .readCaches, .move 2 (.getIndex 2 4), .index 0 (.ensure 2 1), .move 2 .indexRead, .move 2 (.checkExpiry 60),
    .move 2 .checkIndex]

def overtakenRun (order : Iteration WhitelistKey) : List TimedEvent :=
  inTime labChecked ++ inTime labNewer ++ inTime (labGrant order)

/-- **An `Allow` that is not fresh**: call 0 is granted at 200 on the index that ended at 100; and it is granted on version
1 after the gate has accepted version 2. -/
theorem grants_stale :
    (∃ s, (timed labPrimitives labConfig 0).run (expiredRun ⟨Finset.toList, Finset.coe_toList⟩) = some s ∧
      decide (s.gate.requests.lookup 0 = some ⟨[], "cmd", .decided .allow⟩ ∧ s.now = 200) = true) ∧
    (¬ (timed labPrimitives labConfig 0).Meets (FreshGrant labPrimitives) (timed labPrimitives labConfig 0).init
      (expiredRun ⟨Finset.toList, Finset.coe_toList⟩)) ∧
    (∃ s, (timed newerPrimitives labConfig 0).run (overtakenRun ⟨Finset.toList, Finset.coe_toList⟩) = some s ∧
      decide (s.gate.requests.lookup 0 = some ⟨[], "cmd", .decided .allow⟩ ∧
        s.accepted = [(labNetwork, 1), (labNetwork, 2)]) = true) ∧
    ¬ (timed newerPrimitives labConfig 0).Meets (FreshGrant newerPrimitives) (timed newerPrimitives labConfig 0).init
      (overtakenRun ⟨Finset.toList, Finset.coe_toList⟩) :=
  ⟨(timed labPrimitives labConfig 0).exists_of_check _ _ (by decide +kernel), by decide +kernel,
    (timed newerPrimitives labConfig 0).exists_of_check _ _ (by decide +kernel), by decide +kernel⟩

end Auth
end NexusNet
