import NexusNet.AuthDomains
import NexusNet.AuthSelect
/-!
# AuthSeparate — do calls of one trust domain decide about another

A run with a reload to another trust domain, seen by the calls that start after it.  Apart from the calls and caches of
before, the gate goes through the same steps as one that has just been started with the new configuration (`Apart`), as
long as no call of before passes a version check.  So what those calls do, and which documents they get, makes no
difference to the verdicts afterwards.
-/
namespace NexusNet
namespace Auth

/-! ## Calls that start after a reload -/

/-- The events that are not about the calls and the caches of `old`. -/
def Gate.isNew (old : Gate) : Event → Bool
  | .move a _ => decide (a ∉ old.requests)
  | .index i _ | .whitelist i _ | .indexReply i _ _ _ | .whitelistReply i _ _ => decide (i ∉ old.built)
  | _ => true

/-- The gate of a node that has just been started with the configuration. -/
def Gate.started (P : Primitives) (config : NodeConfig) (fresh : Nat) : Gate :=
  match resolveState P config with
  | .active net => ⟨.active net, some fresh, .default, (∅ : Dict Nat AuthCaches).insert fresh (buildCaches net), ∅⟩
  | state => ⟨state, none, .default, ∅, ∅⟩

/-- **Apart from the calls and the caches of `old`, the gate is `b`**, and those calls are on their own caches. -/
structure Apart (old g b : Gate) : Prop where
  state : b.state = g.state
  caches : b.caches = g.caches
  versions : b.versions = g.versions
  built : ∀ i, i ∉ old.built → b.built.lookup i = g.built.lookup i
  requests : ∀ a, a ∉ old.requests → b.requests.lookup a = g.requests.lookup a
  oldBuilt : ∀ i ∈ old.built, i ∈ g.built
  oldRequests : ∀ a ∈ old.requests, a ∈ g.requests
  current : ∀ i, g.caches = some i → i ∉ old.built
  oldCalls : ∀ a q, a ∈ old.requests → g.requests.lookup a = some q →
    (∃ i ∈ old.built, q.pc.caches = some i) ∨ ∃ decision, q.pc = .decided decision
  newCalls : ∀ a q i, a ∉ old.requests → g.requests.lookup a = some q → q.pc.caches = some i → i ∉ old.built

/-- The same change of two gates: of nothing, of the history, of the caches `o`. -/
inductive Together (g b : Gate) (o : Option Nat) : Gate → Gate → Prop where
  | same : Together g b o g b
  | versions (v : AuthVersions) : Together g b o { g with versions := v } { b with versions := v }
  | built (i : Nat) (new : AuthCaches) (about : o = some i) (exist : i ∈ g.built) :
      Together g b o { g with built := g.built.insert i new } { b with built := b.built.insert i new }

section Transfer

variable {P : Primitives} {g g' b : Gate}

theorem stepIndex_together {i : Nat} {e : Dht.Event String IndexDoc} (hbuilt : b.built.lookup i = g.built.lookup i)
    (h : g.stepIndex i e = some g') : ∃ b', b.stepIndex i e = some b' ∧ Together g b (some i) g' b' := by
  unfold Gate.stepIndex at h ⊢
  obtain ⟨caches, hcaches, h⟩ := Option.bind_eq_some_iff.1 h
  obtain ⟨index, hstep, rfl⟩ := Option.map_eq_some_iff.1 h
  rw [hbuilt, hcaches, Option.bind_some, hstep]
  exact ⟨_, rfl, .built i _ rfl (Finmap.mem_of_lookup_eq_some hcaches)⟩

theorem stepWhitelist_together {i : Nat} {e : Dht.Event WhitelistKey WhitelistDoc}
    (hbuilt : b.built.lookup i = g.built.lookup i) (h : g.stepWhitelist i e = some g') :
    ∃ b', b.stepWhitelist i e = some b' ∧ Together g b (some i) g' b' := by
  unfold Gate.stepWhitelist at h ⊢
  obtain ⟨caches, hcaches, h⟩ := Option.bind_eq_some_iff.1 h
  obtain ⟨whitelist, hstep, rfl⟩ := Option.map_eq_some_iff.1 h
  rw [hbuilt, hcaches, Option.bind_some, hstep]
  exact ⟨_, rfl, .built i _ rfl (Finmap.mem_of_lookup_eq_some hcaches)⟩

/-- **An access depends on the caches of the call, on which caches are the gate's and on the history.** -/
theorem move_together {q : Request} {m : Move} {pc : Pc} (h : g.move P q m = some (g', pc)) (hcaches : b.caches = g.caches)
    (hversions : b.versions = g.versions) (hbuilt : ∀ i, q.pc.caches = some i → b.built.lookup i = g.built.lookup i) :
    ∃ b', b.move P q m = some (b', pc) ∧ Together g b q.pc.caches g' b' := by
  -- a step of one of the two caches of the call
  have hindex : ∀ {i : Nat} {e : Dht.Event String IndexDoc} {g₁ : Gate}, q.pc.caches = some i →
      g.stepIndex i e = some g₁ → ∃ b', b.stepIndex i e = some b' ∧ Together g b q.pc.caches g₁ b' := fun hi hs => by
    rw [hi]
    exact stepIndex_together (hbuilt _ hi) hs
  have hwhitelist : ∀ {i : Nat} {e : Dht.Event WhitelistKey WhitelistDoc} {g₁ : Gate}, q.pc.caches = some i →
      g.stepWhitelist i e = some g₁ → ∃ b', b.stepWhitelist i e = some b' ∧ Together g b q.pc.caches g₁ b' :=
    fun hi hs => by
      rw [hi]
      exact stepWhitelist_together (hbuilt _ hi) hs
  cases moved_of_move h with
  | required _ _ hpc guard | notRequired _ _ hpc guard | expired _ _ _ _ hpc guard =>
    exact ⟨b, by simp [Gate.move, hpc, guard], .same⟩
  | noCaches _ hpc current | caches _ _ hpc current => exact ⟨b, by simp [Gate.move, hpc, hcaches, current], .same⟩
  | getIndex _ _ _ _ _ hpc enter | dropIndex _ _ _ _ hpc enter | indexDropped _ _ _ hpc enter =>
    obtain ⟨b', hb, ht⟩ := hindex (by rw [hpc]; rfl) enter
    exact ⟨b', by simp [Gate.move, hpc, hb], ht⟩
  | indexRead net i c result hpc returned =>
    refine ⟨b, ?_, .same⟩
    have hi := hbuilt i (by rw [hpc]; rfl)
    unfold Gate.indexReturned at returned
    simp [Gate.move, hpc, Gate.indexReturned, hi, returned]
  | unexpired net i doc now hpc early => exact ⟨b, by simp [Gate.move, hpc, UInt64.not_lt.2 early], .same⟩
  | indexRollback _ _ _ _ hpc old | whitelistRollback _ _ _ _ _ hpc old =>
    exact ⟨b, by simp [Gate.move, hpc, hversions, old], .same⟩
  | indexPassed _ _ _ versions hpc passed | whitelistPassed _ _ _ _ versions hpc passed =>
    exact ⟨_, by simp [Gate.move, hpc, hversions, passed], .versions versions⟩
  | getWhitelist _ _ _ _ _ _ hpc enter | dropWhitelist _ _ _ _ hpc enter | whitelistDropped _ _ _ hpc enter =>
    obtain ⟨b', hb, ht⟩ := hwhitelist (by rw [hpc]; rfl) enter
    exact ⟨b', by simp [Gate.move, hpc, hb], ht⟩
  | whitelistRead i doc entry c result hpc returned =>
    refine ⟨b, ?_, .same⟩
    have hi := hbuilt i (by rw [hpc]; rfl)
    unfold Gate.whitelistReturned at returned
    simp [Gate.move, hpc, Gate.whitelistReturned, hi, returned]

end Transfer

section Simulation

variable {P : Primitives} {old g g' b : Gate}

theorem mem_insert_of_mem {α : Type} {m : Dict Nat α} {i j : Nat} {v : α} (h : j ∈ m) : j ∈ m.insert i v :=
  Finmap.mem_insert.2 (.inr h)

/-- New caches change in the same way. -/
theorem Apart.insertBoth (h : Apart old g b) {i : Nat} (new : AuthCaches) :
    Apart old { g with built := g.built.insert i new } { b with built := b.built.insert i new } where
  state := h.state
  caches := h.caches
  versions := h.versions
  built := fun j hj => by
    simp only [Dict.lookup_insert_ite, h.built j hj]
  requests := h.requests
  oldBuilt := fun j hj => mem_insert_of_mem (h.oldBuilt j hj)
  oldRequests := h.oldRequests
  current := h.current
  oldCalls := h.oldCalls
  newCalls := h.newCalls

/-- Old caches change. -/
theorem Apart.insertOld (h : Apart old g b) {i : Nat} (new : AuthCaches) (hi : i ∈ old.built) :
    Apart old { g with built := g.built.insert i new } b where
  state := h.state
  caches := h.caches
  versions := h.versions
  built := fun j hj => by
    have hne : j ≠ i := fun heq => hj (heq ▸ hi)
    rw [Dict.lookup_insert_ite, if_neg hne, h.built j hj]
  requests := h.requests
  oldBuilt := fun j hj => mem_insert_of_mem (h.oldBuilt j hj)
  oldRequests := h.oldRequests
  current := h.current
  oldCalls := h.oldCalls
  newCalls := h.newCalls

theorem Apart.together (h : Apart old g b) {o : Option Nat} {b' : Gate} (ht : Together g b o g' b') : Apart old g' b' := by
  cases ht with
  | same => exact h
  | versions v => exact ⟨h.state, h.caches, rfl, h.built, h.requests, h.oldBuilt, h.oldRequests, h.current, h.oldCalls,
      h.newCalls⟩
  | built i new about exist => exact h.insertBoth new

/-- A new call begins or moves on. -/
theorem Apart.setNew (h : Apart old g b) {a : Nat} {q : Request} (ha : a ∉ old.requests)
    (hq : ∀ i, q.pc.caches = some i → i ∉ old.built) :
    Apart old { g with requests := g.requests.insert a q } { b with requests := b.requests.insert a q } where
  state := h.state
  caches := h.caches
  versions := h.versions
  built := h.built
  requests := fun c hc => by
    simp only [Dict.lookup_insert_ite, h.requests c hc]
  oldBuilt := h.oldBuilt
  oldRequests := fun c hc => mem_insert_of_mem (h.oldRequests c hc)
  current := h.current
  oldCalls := fun c q' hc hq' => by
    have hne : c ≠ a := fun heq => ha (heq ▸ hc)
    rw [Dict.lookup_insert_ite, if_neg hne] at hq'
    exact h.oldCalls c q' hc hq'
  newCalls := fun c q' i hc hq' hi => by
    rw [Dict.lookup_insert_ite] at hq'
    split at hq'
    · cases hq'
      exact hq i hi
    · exact h.newCalls c q' i hc hq' hi

/-- An old call moves on. -/
theorem Apart.setOld (h : Apart old g b) {a : Nat} {q : Request} (ha : a ∈ old.requests)
    (hq : (∃ i ∈ old.built, q.pc.caches = some i) ∨ ∃ decision, q.pc = .decided decision) :
    Apart old { g with requests := g.requests.insert a q } b where
  state := h.state
  caches := h.caches
  versions := h.versions
  built := h.built
  requests := fun c hc => by
    have hne : c ≠ a := fun heq => hc (heq ▸ ha)
    rw [Dict.lookup_insert_ite, if_neg hne, h.requests c hc]
  oldBuilt := h.oldBuilt
  oldRequests := fun c hc => mem_insert_of_mem (h.oldRequests c hc)
  current := h.current
  oldCalls := fun c q' hc hq' => by
    rw [Dict.lookup_insert_ite] at hq'
    split at hq'
    · cases hq'
      exact hq
    · exact h.oldCalls c q' hc hq'
  newCalls := fun c q' i hc hq' hi => by
    have hne : c ≠ a := fun heq => hc (heq ▸ ha)
    rw [Dict.lookup_insert_ite, if_neg hne] at hq'
    exact h.newCalls c q' i hc hq' hi

/-- **An event of the old calls and caches is not seen**, as long as no old call passes a version check. -/
theorem Apart.oldStep (h : Apart old g b) {e : Event} (hown : ownCaches g e = true) (hold : old.isNew e = false)
    (hstep : g.step P e = some g') : Apart old g' b := by
  cases e with
  | move a m =>
    have ha : a ∈ old.requests := by simpa [Gate.isNew] using hold
    obtain ⟨q, hq, hstep⟩ := Option.bind_eq_some_iff.1 hstep
    obtain ⟨⟨g₁, pc⟩, hmove, rfl⟩ := Option.map_eq_some_iff.1 hstep
    have hmoved := moved_of_move hmove
    rcases h.oldCalls a q ha hq with ⟨i, hi, hcaches⟩ | ⟨decision, hd⟩
    · have hversions : g₁.versions = g.versions := by
        obtain ⟨-, hv⟩ | ⟨c, hc, -⟩ := hmoved.versions hq
        · exact hv
        · have hcur : q.pc.caches = g.caches := by simpa [ownCaches, hc, hq] using hown
          exact absurd hi (h.current i (hcur.symm.trans hcaches))
      have hpc : (∃ j ∈ old.built, pc.caches = some j) ∨ ∃ decision, pc = .decided decision :=
        (hmoved.stays hcaches).imp (fun hpc => ⟨i, hi, hpc⟩) id
      -- the access is one of the gate with itself
      obtain ⟨_, -, ht⟩ := move_together hmove rfl rfl (fun _ _ => rfl)
      cases ht with
      | same => exact h.setOld ha hpc
      | versions v =>
        simp only at hversions
        subst hversions
        exact h.setOld ha hpc
      | built j new about exist =>
        cases hcaches.symm.trans about
        exact (h.insertOld new hi).setOld ha hpc
    · exact absurd hd (hmoved.undecided decision)
  | authorize | reload => cases hold
  | index i | whitelist i | indexReply i | whitelistReply i =>
    have hi : i ∈ old.built := by simpa [Gate.isNew] using hold
    cases stepped_of_step hstep with
    | caches _ j old' new about built cause =>
      cases about
      exact h.insertOld new hi

/-- A step of new caches. -/
theorem Apart.cachesStep (h : Apart old g b) {e : Event} {i : Nat} (habout : e.onCaches = some i) (hi : i ∉ old.built)
    (hstep : g.step P e = some g') : ∃ b', b.step P e = some b' ∧ Apart old g' b' := by
  have hbuilt := h.built i hi
  have hindex : ∀ {d : Dht.Event String IndexDoc}, g.stepIndex i d = some g' →
      ∃ b', b.stepIndex i d = some b' ∧ Apart old g' b' := fun hs =>
    (stepIndex_together hbuilt hs).imp (fun _ ht => ⟨ht.1, h.together ht.2⟩)
  have hwhitelist : ∀ {d : Dht.Event WhitelistKey WhitelistDoc}, g.stepWhitelist i d = some g' →
      ∃ b', b.stepWhitelist i d = some b' ∧ Apart old g' b' := fun hs =>
    (stepWhitelist_together hbuilt hs).imp (fun _ ht => ⟨ht.1, h.together ht.2⟩)
  cases e with
  | index j d =>
    cases habout
    simp only [Gate.step] at hstep ⊢
    split at hstep
    · cases hstep
    · rename_i hplain
      rw [if_neg hplain]
      exact hindex hstep
  | whitelist j d =>
    cases habout
    simp only [Gate.step] at hstep ⊢
    split at hstep
    · cases hstep
    · rename_i hplain
      rw [if_neg hplain]
      exact hwhitelist hstep
  | indexReply j r reply now =>
    cases habout
    simp only [Gate.step, hbuilt] at hstep ⊢
    obtain ⟨caches, hcaches, hstep⟩ := Option.bind_eq_some_iff.1 hstep
    rw [hcaches, Option.bind_some]
    exact hindex hstep
  | whitelistReply j r reply =>
    cases habout
    simp only [Gate.step, hbuilt] at hstep ⊢
    obtain ⟨caches, hcaches, hstep⟩ := Option.bind_eq_some_iff.1 hstep
    obtain ⟨f, hf, hstep⟩ := Option.bind_eq_some_iff.1 hstep
    rw [hcaches, Option.bind_some, hf, Option.bind_some]
    exact hwhitelist hstep
  | _ => cases habout

theorem Apart.reload (h : Apart old g b) (config : NodeConfig) {fresh : Nat} (hunused : fresh ∉ g.built) :
    Apart old (g.reload P config fresh) (b.reload P config fresh) := by
  have hfresh : fresh ∉ old.built := fun hold => hunused (h.oldBuilt fresh hold)
  unfold Gate.reload
  rw [h.state, h.caches, h.versions]
  simp only
  split
  · rename_i net _
    split
    · exact ⟨rfl, rfl, rfl, h.built, h.requests, h.oldBuilt, h.oldRequests, h.current, h.oldCalls, h.newCalls⟩
    · have hb := h.insertBoth (i := fresh) (buildCaches net)
      refine ⟨rfl, rfl, rfl, hb.built, h.requests, hb.oldBuilt, h.oldRequests, fun i hi => ?_, h.oldCalls, h.newCalls⟩
      cases hi
      exact hfresh
  · refine ⟨rfl, rfl, rfl, h.built, h.requests, h.oldBuilt, h.oldRequests, fun i hi => ?_, h.oldCalls, h.newCalls⟩
    cases hi

/-- **Every other event goes as in `b`.** -/
theorem Apart.newStep (h : Apart old g b) {e : Event} (hnew : old.isNew e = true) (hstep : g.step P e = some g') :
    ∃ b', b.step P e = some b' ∧ Apart old g' b' := by
  cases e with
  | authorize a peer service =>
    simp only [Gate.step] at hstep ⊢
    split at hstep
    · cases hstep
    · rename_i hfresh
      cases hstep
      have ha : a ∉ old.requests := fun hold => hfresh (h.oldRequests a hold)
      have hb : a ∉ b.requests := by
        rw [← Finmap.lookup_eq_none, h.requests a ha, Finmap.lookup_eq_none]
        exact hfresh
      have hbegin : b.begin peer service = g.begin peer service := by
        unfold Gate.begin
        rw [h.state]
      rw [if_neg hb, hbegin]
      refine ⟨_, rfl, h.setNew ha (fun i hi => ?_)⟩
      rw [begin_caches] at hi
      cases hi
  | move a m =>
    have ha : a ∉ old.requests := by simpa [Gate.isNew] using hnew
    simp only [Gate.step, h.requests a ha] at hstep ⊢
    obtain ⟨q, hq, hstep⟩ := Option.bind_eq_some_iff.1 hstep
    obtain ⟨⟨g₁, pc⟩, hmove, rfl⟩ := Option.map_eq_some_iff.1 hstep
    obtain ⟨b', hb, ht⟩ := move_together hmove h.caches h.versions
      (fun i hi => h.built i (h.newCalls a q i ha hq hi))
    rw [hq, Option.bind_some, hb]
    refine ⟨_, rfl, (h.together ht).setNew ha (fun i hi => ?_)⟩
    rcases (moved_of_move hmove).enters hi with hi | hi
    · exact h.newCalls a q i ha hq hi
    · exact h.current i hi
  | reload config fresh =>
    simp only [Gate.step] at hstep ⊢
    split at hstep
    · cases hstep
    · rename_i hunused
      cases hstep
      have hb : fresh ∉ b.built := by
        rw [← Finmap.lookup_eq_none, h.built fresh (fun hold => hunused (h.oldBuilt fresh hold)), Finmap.lookup_eq_none]
        exact hunused
      rw [if_neg hb]
      exact ⟨_, rfl, h.reload config hunused⟩
  | _ => exact h.cachesStep rfl (by simpa [Gate.isNew] using hnew) hstep

/-- Right after a reload to another domain the gate is a new one, apart from the calls under way. -/
theorem apart_reload {before : Gate} (hplaced : Placed before) {config : NodeConfig} {fresh : Nat}
    (hunused : fresh ∉ before.built) (hchanges : sameTrustDomain before.state (resolveState P config) = false)
    (hsettled : ∀ a q, before.requests.lookup a = some q →
      (∃ i, q.pc.caches = some i) ∨ ∃ decision, q.pc = .decided decision) :
    Apart before (before.reload P config fresh) (Gate.started P config fresh) := by
  have hmem : ∀ {i net}, before.netOf i = some net → i ∈ before.built := fun hnet => by
    obtain ⟨caches, hcaches, -⟩ := Option.map_eq_some_iff.1 hnet
    exact Finmap.mem_of_lookup_eq_some hcaches
  have hold : ∀ a q, a ∈ before.requests → before.requests.lookup a = some q →
      (∃ i ∈ before.built, q.pc.caches = some i) ∨ ∃ decision, q.pc = .decided decision := fun a q _ hq =>
    (hsettled a q hq).imp (fun ⟨i, hi⟩ => ⟨i, hmem (hplaced.calls a q i hq hi).choose_spec, hi⟩) id
  have hnone : ∀ {α : Type} (m : Dict Nat α) (i : Nat), i ∉ m → (∅ : Dict Nat α).lookup i = m.lookup i := fun m i hi => by
    rw [Finmap.lookup_empty, Finmap.lookup_eq_none.2 hi]
  have hnew : ∀ a q i, a ∉ before.requests → before.requests.lookup a = some q → q.pc.caches = some i →
      i ∉ before.built := fun a q i ha hq => absurd (Finmap.mem_of_lookup_eq_some hq) ha
  unfold Gate.reload Gate.started
  simp only [hchanges, Bool.false_eq_true, if_false, Bool.false_and]
  cases resolveState P config with
  | active net =>
    refine ⟨rfl, rfl, rfl, fun i hi => ?_, hnone _, fun i hi => mem_insert_of_mem hi, fun _ ha => ha, fun i hi => ?_,
      hold, hnew⟩
    · simp only [Dict.lookup_insert_ite, hnone before.built i hi]
    · cases hi
      exact hunused
  | disabled | misconfigured =>
    refine ⟨rfl, rfl, rfl, hnone _, hnone _, fun _ hi => hi, fun _ ha => ha, fun i hi => ?_, hold, hnew⟩
    cases hi

end Simulation

/-- A call has read the state but not yet the caches; there is no await in between. -/
def Pc.betweenReads : Pc → Bool
  | .active _ | .required _ => true
  | _ => false

/-- **A run with a reload to another trust domain**, after `pre` and before `post`, that does not come between the first
reads of a call; afterwards every version check that passes is made with the gate's own caches. -/
structure DomainChange (P : Primitives) (start config : NodeConfig) (fresh : Nat) (pre post : List Event)
    (before after : Gate) : Prop where
  upto : (gate P start).run pre = some before
  changes : sameTrustDomain before.state (resolveState P config) = false
  settled : ∀ a ∈ before.requests.keys, ∀ q ∈ before.requests.lookup a, q.pc.betweenReads = false
  onward : (gate P start).runFrom before (.reload config fresh :: post) = some after
  own : (gate P start).Meets (fun g e => ownCaches g e = true) before (.reload config fresh :: post)

theorem gate_reload {P : Primitives} {start config : NodeConfig} {fresh : Nat} {g g' : Gate}
    (h : (gate P start).step g (.reload config fresh) = some g') : fresh ∉ g.built ∧ g' = g.reload P config fresh := by
  simp only [gate, Gate.step] at h
  split at h
  · cases h
  · rename_i hunused
    cases h
    exact ⟨hunused, rfl⟩

section Change

variable {P : Primitives} {start config : NodeConfig} {fresh : Nat} {pre post : List Event} {before after : Gate}

/-- **After the change the recorded versions are those of the domain.** -/
theorem DomainChange.recorded (h : DomainChange P start config fresh pre post before after) :
    Recorded P (pre ++ .reload config fresh :: post) after := by
  obtain ⟨g, hg, hpost⟩ := ((gate P start).runFrom_cons).1 h.onward
  have hrun : (gate P start).run (pre ++ [.reload config fresh]) = some g :=
    ((gate P start).runFrom_concat).2 ⟨before, h.upto, hg⟩
  have hcleared : g.versions = .default := by
    rw [(gate_reload hg).2]
    exact reload_cleared h.changes
  have hinv := (gate P start).history_from (P := fun es g => Traced P es g ∧ Recorded P es g)
    (fun es g e g' ht hown hs => ⟨ht.1.step hs, ht.2.step ht.1 hown hs⟩) post (pre ++ [.reload config fresh]) g after
    ⟨traced_run hrun, recorded_default P _ hcleared⟩ (h.own.2 g hg) hpost
  rw [List.append_assoc, List.singleton_append] at hinv
  exact hinv.2

/-- **After the change the new calls go as in a node just started.** -/
theorem DomainChange.started (h : DomainChange P start config fresh pre post before after) :
    ∃ b, (gate P config).runFrom (Gate.started P config fresh) (post.filter before.isNew) = some b ∧
      ∀ a, a ∉ before.requests → b.requests.lookup a = after.requests.lookup a := by
  obtain ⟨g, hg, hpost⟩ := ((gate P start).runFrom_cons).1 h.onward
  have hsettled : ∀ a q, before.requests.lookup a = some q →
      (∃ i, q.pc.caches = some i) ∨ ∃ decision, q.pc = .decided decision := fun a q hq => by
    have hpc := h.settled a (Finmap.mem_keys.2 (Finmap.mem_of_lookup_eq_some hq)) q hq
    cases hc : q.pc <;> simp_all [Pc.caches, Pc.betweenReads]
  have hapart : Apart before g (Gate.started P config fresh) := by
    obtain ⟨hunused, rfl⟩ := gate_reload hg
    exact apart_reload (traced_run h.upto).placed hunused h.changes hsettled
  obtain ⟨b, hb, hfinal⟩ := (gate P start).runFrom_filter (gate P config) before.isNew
    (fun g e g' b hR _ hnew hs => hR.newStep hnew hs) (fun g e g' b hR hown hold hs => hR.oldStep hown hold hs)
    hapart (h.own.2 g hg) hpost
  exact ⟨b, hb, hfinal.requests⟩

end Change

/-- **Trust domains do not interfere, as long as no call under way at the reload passes a version check after it.**  After a
reload to another trust domain the recorded versions are only those of documents verified for the domain; and two such
runs with the same events apart from the calls and caches of before give the new calls the same verdicts, whatever those
did. -/
theorem domains_separate (P : Primitives) (start₁ start₂ config : NodeConfig) (fresh : Nat)
    (pre₁ pre₂ post₁ post₂ : List Event) (before₁ before₂ after₁ after₂ : Gate)
    (h₁ : DomainChange P start₁ config fresh pre₁ post₁ before₁ after₁)
    (h₂ : DomainChange P start₂ config fresh pre₂ post₂ before₂ after₂)
    (hsame : post₁.filter before₁.isNew = post₂.filter before₂.isNew) :
    Recorded P (pre₁ ++ .reload config fresh :: post₁) after₁ ∧
    ∀ a, a ∉ before₁.requests → a ∉ before₂.requests → after₁.requests.lookup a = after₂.requests.lookup a := by
  refine ⟨h₁.recorded, fun a ha₁ ha₂ => ?_⟩
  obtain ⟨b₁, hb₁, heq₁⟩ := h₁.started
  obtain ⟨b₂, hb₂, heq₂⟩ := h₂.started
  rw [hsame] at hb₁
  cases hb₁.symm.trans hb₂
  rw [← heq₁ a ha₁, heq₂ a ha₂]

/-! Two authorities of one network.  Call 0 waits for the index of the first when the node is reloaded to the second. -/

def otherConfig : NodeConfig := { labConfig with auth := ⟨"lab", (∅ : Dict String String).insert "lab" "other"⟩ }

def signedIndex (authority : String) (payload : UInt8) : Bytes :=
  payload :: (strBytes authority ++ strBytes "/oahd/auth/lab/service" ++ [payload])

/-- The first read of a cache, answered with the record. -/
def indexRefresh (i : Nat) (record : Bytes) : List Event :=
  [.index i (.ensure 0 0), .index i (.loadGlobal 0), .index i (.loadKey 0), .index i (.fetchStart 0),
    .indexReply i 0 (.ok [record]) 50, .index i (.recheckGlobal 0), .index i (.recheckKey 0),
    .index i (.write 0 1 (Iteration.ascending String)), .index i (.send 0), .index i (.wake 0), .index i (.lookup 0 1)]

def firstReads (a : Nat) (config : NodeConfig) : List Event :=
  [.authorize a [] "cmd", .move a (.checkConfig config), .move a .readCaches, .move a (.getIndex 0 0)]

def indexChecks (a : Nat) : List Event := [.move a .indexRead, .move a (.checkExpiry 60), .move a .checkIndex]

def newCall : List Event := firstReads 1 otherConfig ++ indexRefresh 1 (signedIndex "other" 10) ++ indexChecks 1

/-- The old call gets an index of version 9, and does not go on. -/
def oldRefresh : List Event := indexRefresh 0 (signedIndex "key" 90)

theorem lab_separate : ∃ after₁ after₂,
    (gate versionedPrimitives labConfig).run (firstReads 0 labConfig ++ .reload otherConfig 1 :: (oldRefresh ++ newCall)) =
      some after₁ ∧
    (gate versionedPrimitives labConfig).run ([] ++ .reload otherConfig 1 :: newCall) = some after₂ ∧
    Recorded versionedPrimitives (firstReads 0 labConfig ++ .reload otherConfig 1 :: (oldRefresh ++ newCall)) after₁ ∧
    after₁.requests.lookup 1 = after₂.requests.lookup 1 := by
  let M := gate versionedPrimitives labConfig
  obtain ⟨before₁, hb₁, hp₁⟩ := M.exists_of_check (fun g => decide (
      sameTrustDomain g.state (resolveState versionedPrimitives otherConfig) = false ∧
      (∀ a ∈ g.requests.keys, ∀ q ∈ g.requests.lookup a, q.pc.betweenReads = false) ∧ 1 ∉ g.requests ∧
      oldRefresh.all (fun e => !g.isNew e) = true ∧ newCall.all g.isNew = true ∧
      M.Meets (fun g e => ownCaches g e = true) g (.reload otherConfig 1 :: (oldRefresh ++ newCall))))
    (firstReads 0 labConfig) (by decide +kernel)
  obtain ⟨before₂, hb₂, hp₂⟩ := M.exists_of_check (fun g => decide (
      sameTrustDomain g.state (resolveState versionedPrimitives otherConfig) = false ∧
      (∀ a ∈ g.requests.keys, ∀ q ∈ g.requests.lookup a, q.pc.betweenReads = false) ∧ 1 ∉ g.requests ∧
      newCall.all g.isNew = true ∧
      M.Meets (fun g e => ownCaches g e = true) g (.reload otherConfig 1 :: newCall)))
    [] (by decide +kernel)
  obtain ⟨after₁, hr₁, ha₁, -⟩ := M.exists_next hb₁ (fun _ => true) (.reload otherConfig 1 :: (oldRefresh ++ newCall))
    (by decide +kernel)
  obtain ⟨after₂, hr₂, ha₂, -⟩ := M.exists_next hb₂ (fun _ => true) (.reload otherConfig 1 :: newCall) (by decide +kernel)
  obtain ⟨hch₁, hs₁, hn₁, hold₁, hnew₁, hm₁⟩ := of_decide_eq_true hp₁
  obtain ⟨hch₂, hs₂, hn₂, hnew₂, hm₂⟩ := of_decide_eq_true hp₂
  have hsame : (oldRefresh ++ newCall).filter before₁.isNew = newCall.filter before₂.isNew := by
    have hold : oldRefresh.filter before₁.isNew = [] :=
      List.filter_eq_nil_iff.2 (fun e he => by simpa using List.all_eq_true.1 hold₁ e he)
    rw [List.filter_append, hold, List.nil_append, List.filter_eq_self.2 (List.all_eq_true.1 hnew₁),
      List.filter_eq_self.2 (List.all_eq_true.1 hnew₂)]
  obtain ⟨hrec, heq⟩ := domains_separate versionedPrimitives labConfig labConfig otherConfig 1 _ _ _ _ before₁ before₂
    after₁ after₂ ⟨hb₁, hch₁, hs₁, hr₁, hm₁⟩ ⟨hb₂, hch₂, hs₂, hr₂, hm₂⟩ hsame
  exact ⟨after₁, after₂, ha₁, ha₂, hrec, heq 1 hn₁ hn₂⟩

/-- **An old call decides about a new one.**  It goes on after the reload and records version 9 of its own domain; the new
call, with the same events as in the run without it, is then denied where it is let through otherwise. -/
theorem domains_interfere :
    (∃ after₁, (gate versionedPrimitives labConfig).run (firstReads 0 labConfig ++ .reload otherConfig 1 ::
        (oldRefresh ++ indexChecks 0 ++ newCall ++ [.move 1 (.dropIndex 1), .move 1 .indexDropped])) = some after₁ ∧
      decide (after₁.requests.lookup 1 = some ⟨[], "cmd", .decided (.deny "auth index rollback")⟩ ∧
        after₁.versions.index = some 9 ∧ after₁.state = .active ⟨"lab", strBytes "other"⟩) = true) ∧
    (∃ after₂, (gate versionedPrimitives labConfig).run (.reload otherConfig 1 :: newCall) = some after₂ ∧
      decide (after₂.requests.lookup 1 = some ⟨[], "cmd", .decided .allowUnprotected⟩ ∧
        after₂.versions.index = some 1) = true) ∧
    verifyIndex versionedPrimitives ⟨"lab", strBytes "other"⟩ (signedIndex "key" 90) 50 = .error .invalidSignature :=
  ⟨(gate versionedPrimitives labConfig).exists_of_check _ _ (by decide +kernel),
    (gate versionedPrimitives labConfig).exists_of_check _ _ (by decide +kernel), by decide +kernel⟩

end Auth
end NexusNet
