import NexusNet.AuthDecision
import NexusNet.AuthRollback
/-!
# AuthDomains — trust domains and the version history

A call works with the caches it read at its beginning (`Placed`), and the documents it gets were verified under the network
of their fetchers (`Traced`).  The version history is one for the gate: a reload to another trust domain clears it, but a
call that is still under way with the replaced caches records into it all the same.  Where such calls pass no version
check (`ownCaches`), the recorded versions are those of documents of the gate's domain (`Recorded`).
-/
namespace NexusNet
namespace Auth

/-! ## Which caches a call works with -/

theorem sameTrustDomain_eq {a b : AuthState} (h : sameTrustDomain a b = true) : a = b := by
  cases a with
  | disabled => cases b <;> first | rfl | cases h
  | misconfigured reason => cases h
  | active net =>
    cases b with
    | active net' =>
      obtain ⟨hash, authority⟩ := net
      obtain ⟨hash', authority'⟩ := net'
      simp only [sameTrustDomain, Bool.and_eq_true, beq_iff_eq] at h
      rw [h.1, h.2]
    | _ => cases h

section Reload

variable {P : Primitives} {g : Gate} {fresh : Nat}

theorem reload_state (P : Primitives) (g : Gate) (config : NodeConfig) (fresh : Nat) :
    (g.reload P config fresh).state = resolveState P config := by
  unfold Gate.reload
  simp only
  split
  · split <;> rfl
  · rfl

theorem reload_cleared {config : NodeConfig} (h : sameTrustDomain g.state (resolveState P config) = false) :
    (g.reload P config fresh).versions = .default := by
  unfold Gate.reload
  simp only [h, Bool.false_eq_true, if_false, Bool.false_and]
  split <;> rfl

theorem reload_lookup (P : Primitives) (config : NodeConfig) (hunused : fresh ∉ g.built) {i : Nat}
    {caches : AuthCaches} (h : g.built.lookup i = some caches) :
    (g.reload P config fresh).built.lookup i = some caches := by
  have hne : i ≠ fresh := fun heq => hunused (heq ▸ Finmap.mem_of_lookup_eq_some h)
  unfold Gate.reload
  simp only
  split
  · split
    · exact h
    · rw [Dict.lookup_insert_ite, if_neg hne]
      exact h
  · exact h

theorem reload_netOf (P : Primitives) (config : NodeConfig) (hunused : fresh ∉ g.built) {i : Nat} {net : AuthNetwork}
    (h : g.netOf i = some net) : (g.reload P config fresh).netOf i = some net := by
  obtain ⟨caches, hcaches, rfl⟩ := Option.map_eq_some_iff.1 h
  exact Option.map_eq_some_iff.2 ⟨caches, reload_lookup P config hunused hcaches, rfl⟩

/-- The caches a reload leaves in the gate are in its new trust domain. -/
theorem reload_current {config : NodeConfig}
    (hcurrent : ∀ i, g.caches = some i → ∃ net, g.netOf i = some net ∧ g.state = .active net) (i : Nat)
    (hi : (g.reload P config fresh).caches = some i) :
    ∃ net, (g.reload P config fresh).netOf i = some net ∧ (g.reload P config fresh).state = .active net := by
  rw [reload_state]
  unfold Gate.reload at hi ⊢
  simp only at hi ⊢
  split at hi
  · rename_i net hnext
    split at hi
    · rename_i hsame
      obtain ⟨net', hnet, hstate⟩ := hcurrent i hi
      simp only [Bool.and_eq_true, hnext] at hsame
      cases hstate.symm.trans (sameTrustDomain_eq hsame.1)
      simp only [hnext, hsame, Bool.and_self, if_true]
      exact ⟨net, hnet, rfl⟩
    · rename_i hother
      cases hi
      simp only [hnext] at hother ⊢
      simp only [hother, Bool.false_eq_true, if_false, Gate.netOf, Dict.lookup_insert_ite, if_true]
      exact ⟨net, rfl, rfl⟩
  · cases hi

end Reload

/-- The caches of a call. -/
def Pc.caches : Pc → Option Nat
  | .ready _ i | .awaitIndex _ i _ | .gotIndex _ i _ | .unexpired _ i _ | .dropIndex _ i | .droppingIndex i _ |
    .listed i _ _ | .awaitWhitelist i _ _ _ | .gotWhitelist i _ _ _ | .dropWhitelist i _ | .droppingWhitelist i _ => some i
  | .active _ | .required _ | .decided _ => none

section Moves

variable {P : Primitives} {g g' : Gate} {q : Request} {m : Move} {pc : Pc}

/-- A call that has caches keeps them until it has decided. -/
theorem Moved.stays (h : Moved P g q m g' pc) {i : Nat} (hi : q.pc.caches = some i) :
    pc.caches = some i ∨ ∃ decision, pc = .decided decision := by
  cases h with
  | required _ _ hpc | caches _ _ hpc =>
    rw [hpc] at hi
    cases hi
  | indexRead net j c result hpc returned =>
    rw [hpc] at hi
    rcases result with e | ⟨_ | doc, stale⟩
    · exact .inr ⟨_, rfl⟩
    · exact .inr ⟨_, rfl⟩
    · exact .inl hi
  | indexPassed net j doc versions hpc passed =>
    rw [hpc] at hi
    cases doc.find q.service with
    | none => exact .inr ⟨_, rfl⟩
    | some entry => exact .inl hi
  | whitelistRead j doc entry c result hpc returned =>
    rw [hpc] at hi
    rcases result with e | ⟨_ | list, stale⟩
    · exact .inr ⟨_, rfl⟩
    · exact .inr ⟨_, rfl⟩
    · exact .inl hi
  | notRequired | noCaches | expired | indexDropped | whitelistPassed | whitelistDropped => exact .inr ⟨_, rfl⟩
  | _ =>
    -- the call stays with the caches it names
    left
    simp_all [Pc.caches]

/-- A call gets its caches where the gate has them. -/
theorem Moved.enters (h : Moved P g q m g' pc) {i : Nat} (hi : pc.caches = some i) :
    q.pc.caches = some i ∨ g.caches = some i := by
  cases hold : q.pc.caches with
  | some j =>
    rcases h.stays hold with hkeep | ⟨decision, rfl⟩
    · exact .inl (hkeep.symm.trans hi)
    · cases hi
  | none =>
    cases h with
    | caches net j hpc current =>
      cases hi
      exact .inr current
    | required | notRequired | noCaches => cases hi
    | _ => simp_all [Pc.caches]

/-- A decided call makes no further access. -/
theorem Moved.undecided (h : Moved P g q m g' pc) (decision : Decision) : q.pc ≠ .decided decision := by
  intro hd
  cases h <;> simp_all

end Moves

/-- **Every call has caches that exist**, and the gate's own are in its trust domain. -/
structure Placed (g : Gate) : Prop where
  current : ∀ i, g.caches = some i → ∃ net, g.netOf i = some net ∧ g.state = .active net
  calls : ∀ a q i, g.requests.lookup a = some q → q.pc.caches = some i → ∃ net, g.netOf i = some net

section Placed

variable {P : Primitives} {g g' : Gate}

theorem begin_caches (g : Gate) (peer : Bytes) (service : String) : (g.begin peer service).pc.caches = none := by
  unfold Gate.begin
  cases g.state <;> rfl

theorem Placed.step (h : Placed g) {e : Event} (hstep : g.step P e = some g') : Placed g' := by
  cases stepped_of_step hstep with
  | authorize a peer service fresh =>
    refine ⟨h.current, fun b q i hq hi => ?_⟩
    rw [Dict.lookup_insert_ite] at hq
    split at hq
    · cases hq
      rw [begin_caches] at hi
      cases hi
    · exact h.calls b q i hq hi
  | move a m q g₁ pc hq hmoved =>
    obtain ⟨hstate, hcaches, -, hnetOf⟩ := hmoved.kept
    refine ⟨fun i hi => ?_, fun b q' i hq' hi => ?_⟩
    · simp only [hcaches] at hi
      exact (h.current i hi).imp (fun net hn => ⟨(hnetOf i).trans hn.1, hstate.trans hn.2⟩)
    · simp only [Dict.lookup_insert_ite] at hq'
      split at hq'
      · cases hq'
        rcases hmoved.enters hi with hi | hi
        · exact (h.calls a q i hq hi).imp (fun net hn => (hnetOf i).trans hn)
        · exact (h.current i hi).imp (fun net hn => (hnetOf i).trans hn.1)
      · exact (h.calls b q' i hq' hi).imp (fun net hn => (hnetOf i).trans hn)
  | caches _ i old new about built cause =>
    have hsame := netOf_insert built cause.net
    refine ⟨fun j hj => ?_, fun a q j hq hj => ?_⟩
    · rw [hsame]
      exact h.current j hj
    · rw [hsame]
      exact h.calls a q j hq hj
  | reload config fresh unused =>
    refine ⟨reload_current h.current, fun a q i hq hi => ?_⟩
    rw [reload_requests] at hq
    exact (h.calls a q i hq hi).imp (fun net hn => reload_netOf P config unused hn)

theorem placed_new (P : Primitives) (config : NodeConfig) : Placed (Gate.new P config) := by
  unfold Gate.new
  split
  · rename_i net _
    refine ⟨fun i hi => ?_, fun a q i hq => by simp at hq⟩
    cases hi
    exact ⟨net, rfl, rfl⟩
  · exact ⟨fun i hi => by simp at hi, fun a q i hq => by simp at hq⟩

end Placed

/-! ## Where the documents come from -/

/-- **Everything in the caches was verified** for the network of their fetchers. -/
def EachSound (P : Primitives) (es : List Event) (g : Gate) : Prop :=
  ∀ i caches, g.built.lookup i = some caches → CachesSound P es caches.net caches

/-- The document a call holds was verified for the network of its caches. -/
def Verified (P : Primitives) (es : List Event) (g : Gate) (q : Request) : Prop :=
  match q.pc with
  | .gotIndex _ i doc | .unexpired _ i doc => ∃ net, g.netOf i = some net ∧ IndexSeen P es net doc
  | .awaitWhitelist i doc entry c => ReadsWhitelist g i c (whitelistKey q.service doc entry)
  | .gotWhitelist i doc entry list =>
    ∃ net, g.netOf i = some net ∧ WhitelistSeen P es net (whitelistKey q.service doc entry) list
  | _ => True

section Documents

variable {P : Primitives} {es : List Event} {g g' : Gate} {q : Request}

theorem EachSound.more (h : EachSound P es g) (e : Event) : EachSound P (es ++ [e]) g :=
  fun i caches hi => (h i caches hi).more e

theorem EachSound.insert (h : EachSound P es g) {i : Nat} {caches : AuthCaches}
    (hnew : CachesSound P es caches.net caches) : EachSound P es { g with built := g.built.insert i caches } := by
  intro j caches' hj
  rw [Dict.lookup_insert_ite] at hj
  split at hj
  · cases hj
    exact hnew
  · exact h j caches' hj

theorem EachSound.stepIndex (h : EachSound P es g) {i : Nat} {e : Dht.Event String IndexDoc}
    (hstep : g.stepIndex i e = some g') (plain : isFetchDone e = false) : EachSound P es g' := by
  obtain ⟨caches, index, hcaches, hindex, rfl⟩ := stepIndex_eq_some hstep
  exact h.insert ((h i caches hcaches).plain_index hindex plain)

theorem EachSound.stepWhitelist (h : EachSound P es g) {i : Nat} {e : Dht.Event WhitelistKey WhitelistDoc}
    (hstep : g.stepWhitelist i e = some g') (plain : isFetchDone e = false) : EachSound P es g' := by
  obtain ⟨caches, whitelist, hcaches, hwhitelist, rfl⟩ := stepWhitelist_eq_some hstep
  exact h.insert ((h i caches hcaches).plain_whitelist hwhitelist plain)

theorem EachSound.move (h : EachSound P es g) {m : Move} {pc : Pc} (hmoved : Moved P g q m g' pc) :
    EachSound P es g' := by
  cases hmoved with
  | getIndex _ _ _ _ _ _ enter | dropIndex _ _ _ _ _ enter | indexDropped _ _ _ _ enter => exact h.stepIndex enter rfl
  | getWhitelist _ _ _ _ _ _ _ enter | dropWhitelist _ _ _ _ _ enter | whitelistDropped _ _ _ _ enter =>
    exact h.stepWhitelist enter rfl
  | _ => exact h

theorem Moved.reads (h : Moved P g q m g' pc) {i c : Nat} {key : WhitelistKey} (hreads : ReadsWhitelist g i c key) :
    ReadsWhitelist g' i c key := by
  cases h with
  | getIndex _ _ _ _ _ _ enter | dropIndex _ _ _ _ _ enter | indexDropped _ _ _ _ enter =>
    exact reads_stepIndex enter hreads
  | getWhitelist _ _ _ _ _ _ _ enter | dropWhitelist _ _ _ _ _ enter | whitelistDropped _ _ _ _ enter =>
    exact reads_stepWhitelist enter hreads
  | _ => exact hreads

/-- What a call holds stays verified. -/
theorem Verified.more (h : Verified P es g q) (e : Event) (hnet : ∀ i net, g.netOf i = some net → g'.netOf i = some net)
    (hreads : ∀ i c key, ReadsWhitelist g i c key → ReadsWhitelist g' i c key) : Verified P (es ++ [e]) g' q := by
  unfold Verified at h ⊢
  split at h
  · obtain ⟨net, hn, hseen⟩ := h
    exact ⟨net, hnet _ _ hn, hseen.more e⟩
  · obtain ⟨net, hn, hseen⟩ := h
    exact ⟨net, hnet _ _ hn, hseen.more e⟩
  · exact hreads _ _ _ h
  · obtain ⟨net, hn, hseen⟩ := h
    exact ⟨net, hnet _ _ hn, hseen.more e⟩
  · trivial

/-- **A call gets only verified documents.** -/
theorem Moved.verified {m : Move} {pc : Pc} (h : Moved P g q m g' pc) (hsound : EachSound P es g)
    (hplaced : ∀ i, q.pc.caches = some i → ∃ net, g.netOf i = some net) (hq : Verified P es g q) :
    Verified P es g' { q with pc := pc } := by
  -- the caches of the call, with what they guarantee
  have hcaches : ∀ i, q.pc.caches = some i → ∃ net, g.netOf i = some net ∧
      ∀ caches, g.built.lookup i = some caches → CachesSound P es net caches := fun i hi => by
    obtain ⟨net, hnet⟩ := hplaced i hi
    obtain ⟨caches, hlookup, rfl⟩ := Option.map_eq_some_iff.1 hnet
    refine ⟨caches.net, hnet, fun caches' hlookup' => ?_⟩
    cases hlookup.symm.trans hlookup'
    exact hsound i caches hlookup
  unfold Verified at hq
  cases h with
  | indexRead net i c result hpc returned =>
    rcases result with e | ⟨_ | doc, stale⟩
    · trivial
    · trivial
    · obtain ⟨net', hnet, hb⟩ := hcaches i (by rw [hpc]; rfl)
      exact ⟨net', hnet, indexReturned_seen hb returned⟩
  | unexpired net i doc now hpc early =>
    rw [hpc] at hq
    exact hq
  | indexPassed net i doc versions hpc passed =>
    unfold Verified
    cases doc.find q.service <;> trivial
  | getWhitelist i doc entry c now _ hpc enter => exact reads_get enter
  | whitelistRead i doc entry c result hpc returned =>
    rw [hpc] at hq
    rcases result with e | ⟨_ | list, stale⟩
    · trivial
    · trivial
    · obtain ⟨net, hnet, hb⟩ := hcaches i (by rw [hpc]; rfl)
      exact ⟨net, hnet, whitelistReturned_seen hb hq returned⟩
  | _ => trivial

theorem EachSound.reload (h : EachSound P es g) (config : NodeConfig) (fresh : Nat) :
    EachSound P es (g.reload P config fresh) := by
  unfold Gate.reload
  simp only
  split
  · rename_i net _
    split
    · exact h
    · exact h.insert (cachesSound_build P es net)
  · exact h

theorem EachSound.step (h : EachSound P es g) {e : Event} (hstep : g.step P e = some g') :
    EachSound P (es ++ [e]) g' := by
  cases stepped_of_step hstep with
  | authorize a peer service fresh => exact h.more _
  | move a m q g₁ pc hq hmoved =>
    have hsound := (h.more (.move a m)).move hmoved
    exact hsound
  | caches _ i old new about built cause =>
    have hnew := cause.sound (h i old built)
    rw [← cause.net] at hnew
    exact (h.more e).insert hnew
  | reload config fresh unused => exact (h.more _).reload config fresh

theorem reads_step {e : Event} (hstep : g.step P e = some g') {i c : Nat} {key : WhitelistKey}
    (hreads : ReadsWhitelist g i c key) : ReadsWhitelist g' i c key := by
  cases stepped_of_step hstep with
  | authorize a peer service fresh => exact hreads
  | move a m q g₁ pc hq hmoved =>
    have hreads' := hmoved.reads hreads
    exact hreads'
  | caches _ j old new about built cause =>
    refine hreads.insert (fun old' hold' hcall => ?_)
    cases built.symm.trans hold'
    exact cause.reads hcall
  | reload config fresh unused =>
    obtain ⟨caches, hcaches, hcall⟩ := hreads
    exact ⟨caches, reload_lookup P config unused hcaches, hcall⟩

theorem netOf_step {e : Event} (hstep : g.step P e = some g') {i : Nat} {net : AuthNetwork}
    (h : g.netOf i = some net) : g'.netOf i = some net := by
  cases stepped_of_step hstep with
  | authorize a peer service fresh => exact h
  | move a m q g₁ pc hq hmoved => exact (hmoved.kept.netOf i).trans h
  | caches _ j old new about built cause => exact (netOf_insert built cause.net i).trans h
  | reload config fresh unused => exact reload_netOf P config unused h

end Documents

/-- **The documents of all calls are verified**, each for the network of the caches it came from. -/
structure Traced (P : Primitives) (es : List Event) (g : Gate) : Prop where
  placed : Placed g
  sound : EachSound P es g
  calls : ∀ a q, g.requests.lookup a = some q → Verified P es g q

section Traced

variable {P : Primitives} {es : List Event} {g g' : Gate}

theorem Traced.step (h : Traced P es g) {e : Event} (hstep : g.step P e = some g') : Traced P (es ++ [e]) g' := by
  refine ⟨h.placed.step hstep, h.sound.step hstep, fun b q' hq' => ?_⟩
  have hmore : ∀ q, Verified P es g q → Verified P (es ++ [e]) g' q := fun q hq =>
    hq.more e (fun _ _ hn => netOf_step hstep hn) (fun _ _ _ hr => reads_step hstep hr)
  cases stepped_of_step hstep with
  | authorize a peer service fresh =>
    rw [Dict.lookup_insert_ite] at hq'
    split at hq'
    · cases hq'
      unfold Gate.begin
      cases g.state <;> trivial
    · exact hmore q' (h.calls b q' hq')
  | move a m q g₁ pc hq hmoved =>
    simp only [Dict.lookup_insert_ite] at hq'
    split at hq'
    · cases hq'
      have hv := hmoved.verified h.sound (fun i hi => h.placed.calls a q i hq hi) (h.calls a q hq)
      exact hv.more _ (fun _ _ hn => hn) (fun _ _ _ hr => hr)
    · exact hmore q' (h.calls b q' hq')
  | caches _ i old new about built cause => exact hmore q' (h.calls b q' hq')
  | reload config fresh unused =>
    rw [reload_requests] at hq'
    exact hmore q' (h.calls b q' hq')

theorem traced_run {config : NodeConfig} (hrun : (gate P config).run es = some g) : Traced P es g := by
  have hinit : Traced P [] (gate P config).init := by
    change Traced P [] (Gate.new P config)
    refine ⟨placed_new P config, ?_, ?_⟩
    · unfold Gate.new
      split
      · intro i caches hi
        rw [Dict.lookup_insert_ite] at hi
        split at hi
        · cases hi
          exact cachesSound_build P [] _
        · simp at hi
      · intro i caches hi
        simp at hi
    · unfold Gate.new
      split <;> intro a q hq <;> simp at hq
  exact (gate P config).history_invariant hinit (fun _ _ _ _ h _ hs => h.step hs) es g hrun
    ((gate P config).meets_true es _)

end Traced

/-! ## What is recorded -/

/-- A version check that passes is made by a call with the gate's own caches. -/
def ownCaches (g : Gate) : Event → Bool
  | .move a m =>
    (g.passed (.move a m)).isNone || (g.requests.lookup a).all (fun q => decide (q.pc.caches = g.caches))
  | _ => true

/-- **The recorded versions are those of documents verified for the gate's domain.** -/
structure Recorded (P : Primitives) (es : List Event) (g : Gate) : Prop where
  index : ∀ version, g.versions.index = some version →
    ∃ net doc, g.state = .active net ∧ IndexSeen P es net doc ∧ doc.version = version
  whitelist : ∀ service version, g.versions.whitelists.lookup service = some version →
    ∃ net key list, g.state = .active net ∧ key.service = service ∧ WhitelistSeen P es net key list ∧
      list.version = version

section Recorded

variable {P : Primitives} {es : List Event} {g g' : Gate}

theorem recorded_default (P : Primitives) (es : List Event) {g : Gate} (h : g.versions = .default) : Recorded P es g :=
  ⟨fun version hv => by simp [h, AuthVersions.default] at hv,
    fun service version hv => by simp [h, AuthVersions.default] at hv⟩

/-- Recorded versions and the domain stay. -/
theorem Recorded.same (h : Recorded P es g) (e : Event) (hversions : g'.versions = g.versions)
    (hstate : g'.state = g.state) : Recorded P (es ++ [e]) g' := by
  refine ⟨fun version hv => ?_, fun service version hv => ?_⟩
  · rw [hversions] at hv
    obtain ⟨net, doc, hs, hseen, heq⟩ := h.index version hv
    exact ⟨net, doc, hstate.trans hs, hseen.more e, heq⟩
  · rw [hversions] at hv
    obtain ⟨net, key, list, hs, hkey, hseen, heq⟩ := h.whitelist service version hv
    exact ⟨net, key, list, hstate.trans hs, hkey, hseen.more e, heq⟩

/-- A check that passes records a document of the domain, if the call has the gate's caches. -/
theorem Recorded.move (h : Recorded P es g) (ht : Traced P es g) {a : Nat} {q : Request} {m : Move} {pc : Pc}
    (hq : g.requests.lookup a = some q) (hmoved : Moved P g q m g' pc) (hown : ownCaches g (.move a m) = true) :
    Recorded P (es ++ [.move a m]) g' := by
  obtain ⟨hnone, hversions⟩ | ⟨c, hc, hok⟩ := hmoved.versions hq
  · exact h.same _ hversions hmoved.kept.state
  have hcaches : q.pc.caches = g.caches := by
    simpa [ownCaches, hc, hq] using hown
  have hverified := ht.calls a q hq
  -- the network of the call's caches is the gate's
  have hdomain : ∀ i net, q.pc.caches = some i → g.netOf i = some net → g.state = .active net := fun i net hi hnet => by
    obtain ⟨net', hn, hs⟩ := ht.placed.current i (hcaches.symm.trans hi)
    cases hn.symm.trans hnet
    exact hs
  have hmore := h.same (.move a m) rfl rfl
  cases hmoved with
  | indexPassed net i doc versions hpc passed =>
    obtain ⟨rfl, -⟩ := checkIndex_eq_ok passed
    simp only [Verified, hpc] at hverified
    obtain ⟨net', hnet, hseen⟩ := hverified
    refine ⟨fun version hv => ?_, hmore.whitelist⟩
    cases hv
    exact ⟨net', doc, hdomain i net' (by rw [hpc]; rfl) hnet, hseen.more _, rfl⟩
  | whitelistPassed i doc entry list versions hpc passed =>
    obtain ⟨rfl, -⟩ := checkWhitelist_eq_ok passed
    simp only [Verified, hpc] at hverified
    obtain ⟨net', hnet, hseen⟩ := hverified
    refine ⟨hmore.index, fun service version hv => ?_⟩
    rw [Dict.lookup_insert_ite] at hv
    split at hv
    · rename_i heq
      cases hv
      exact ⟨net', _, list, hdomain i net' (by rw [hpc]; rfl) hnet, heq.symm, hseen.more _, rfl⟩
    · exact hmore.whitelist service version hv
  | _ => simp_all [Gate.passed, Gate.check]

theorem Recorded.step (h : Recorded P es g) (ht : Traced P es g) {e : Event} (hown : ownCaches g e = true)
    (hstep : g.step P e = some g') : Recorded P (es ++ [e]) g' := by
  cases stepped_of_step hstep with
  | authorize | caches => exact h.same _ rfl rfl
  | move a m q g₁ pc hq hmoved =>
    have hrec := h.move ht hq hmoved hown
    exact ⟨hrec.index, hrec.whitelist⟩
  | reload config fresh unused =>
    cases hsame : sameTrustDomain g.state (resolveState P config) with
    | true =>
      refine h.same _ (reload_versions hsame) ((reload_state P g config fresh).trans ?_)
      exact (sameTrustDomain_eq hsame).symm
    | false => exact recorded_default P _ (reload_cleared hsame)

end Recorded

end Auth
end NexusNet
