import NexusNet.RegistryGate
import NexusNet.RegistryIndex
/-!
# RegistryTypes — the synchronisation of the type index

One chain of jobs reads the record of the service types, merges it with the types the node knows and the services it
announced, and writes the result back.  An announcement raises the dirty flag; the chain lowers it where it starts, where
it merges and where it ends.  In every state a merge is still to come for each announced type that is not known yet
(`Syncing`), and the types that are known only grow, up to `MAX_TYPES`.
-/
namespace NexusNet
namespace Registry

open RegistryState

/-! ## Merging -/

theorem subset_mergeTypeSet : ∀ (names : List String) (known : Finset String), known ⊆ mergeTypeSet known names
  | [], _ => Finset.Subset.refl _
  | n :: names, known => by
    unfold mergeTypeSet
    split
    · exact Finset.Subset.refl _
    · refine Finset.Subset.trans ?_ (subset_mergeTypeSet names _)
      split
      · exact Finset.subset_insert n known
      · exact Finset.Subset.refl _

/-- **A valid name is left out only by a set that is full.** -/
theorem mem_mergeTypeSet {x : String} (hvalid : Auth.isValidServiceName x = true) :
    ∀ (names : List String) (known : Finset String), x ∈ names →
      x ∈ mergeTypeSet known names ∨ maxTypes ≤ (mergeTypeSet known names).card
  | [], _, hx => by cases hx
  | n :: names, known, hx => by
    unfold mergeTypeSet
    split
    · rename_i hfull
      exact .inr hfull
    · rcases List.mem_cons.1 hx with rfl | hx
      · rw [if_pos hvalid]
        exact .inl (subset_mergeTypeSet names _ (Finset.mem_insert_self x known))
      · exact mem_mergeTypeSet hvalid names _ hx

/-! ## The chain of jobs -/

/-- **The obligations of the chain**: an idle chain is scheduled, one that is to write has what it writes, and one that has
merged has merged all that is announced, unless the flag is raised again. -/
structure Syncing (st : RegistryState) : Prop where
  scheduled : st.bootstrapped = true → st.reconcile = .idle →
    st.reconcileDirty = true ∨ st.nextTypesSync.isSome = true
  pending : st.reconcile = .readyToWrite → st.pendingTypesWrite.isSome = true
  merged : st.reconcile = .readyToWrite ∨ st.reconcile = .writing → st.reconcileDirty = false →
    ∀ x ∈ st.announced, x ∈ st.knownTypes ∨ maxTypes ≤ st.knownTypes.card
  valid : ∀ x ∈ st.knownTypes, Auth.isValidServiceName x = true
  bounded : st.knownTypes.card ≤ maxTypes

namespace Syncing

variable {st st' : RegistryState}

theorem new : Syncing RegistryState.new where
  scheduled := fun h => by cases h
  pending := fun h => by cases h
  merged := fun h => by rcases h with h | h <;> cases h
  valid := fun x hx => by cases hx
  bounded := Nat.zero_le _

/-- Raising the flag meets every obligation. -/
theorem raise (h : Syncing st) (hdirty : st'.reconcileDirty = true) (hreconcile : st'.reconcile = st.reconcile)
    (hpending : st'.pendingTypesWrite = st.pendingTypesWrite) (hknown : st'.knownTypes = st.knownTypes) :
    Syncing st' where
  scheduled := fun _ _ => .inl hdirty
  pending := by rw [hreconcile, hpending]; exact h.pending
  merged := fun _ hclean => by cases hdirty.symm.trans hclean
  valid := by rw [hknown]; exact h.valid
  bounded := by rw [hknown]; exact h.bounded

/-- What leaves the chain alone and announces nothing keeps the obligations. -/
theorem frame (h : Syncing st) (hboot : st'.bootstrapped = st.bootstrapped) (hreconcile : st'.reconcile = st.reconcile)
    (hdirty : st'.reconcileDirty = st.reconcileDirty) (hnext : st'.nextTypesSync = st.nextTypesSync)
    (hpending : st'.pendingTypesWrite = st.pendingTypesWrite) (hknown : st'.knownTypes = st.knownTypes)
    (hannounced : st'.announced ⊆ st.announced) : Syncing st' where
  scheduled := by rw [hboot, hreconcile, hdirty, hnext]; exact h.scheduled
  pending := by rw [hreconcile, hpending]; exact h.pending
  merged := by
    rw [hreconcile, hdirty, hknown]
    exact fun hr hclean x hx => h.merged hr hclean x (hannounced hx)
  valid := by rw [hknown]; exact h.valid
  bounded := by rw [hknown]; exact h.bounded

/-- Before its merge a chain owes nothing but to be scheduled. -/
theorem unmerged (hreconcile : st.reconcile = .idle ∨ st.reconcile = .reading)
    (hscheduled : st.bootstrapped = true → st.reconcile = .idle →
      st.reconcileDirty = true ∨ st.nextTypesSync.isSome = true)
    (hvalid : ∀ x ∈ st.knownTypes, Auth.isValidServiceName x = true) (hbounded : st.knownTypes.card ≤ maxTypes) :
    Syncing st where
  scheduled := hscheduled
  pending := fun hr => by simp [hr] at hreconcile
  merged := fun hr => by rcases hr with hr | hr <;> simp [hr] at hreconcile
  valid := hvalid
  bounded := hbounded

theorem command (h : Syncing st) (c : ServiceCommand) (now : Instant) : Syncing (st.handle c now) := by
  cases c with
  | bootstrapCompleted | reannounce | refreshTypes => exact h.raise rfl rfl rfl rfl
  | tick => exact h
  | reset => exact unmerged (.inl rfl) (fun hboot => by cases hboot) h.valid h.bounded
  | relayStateChanged needRelay active =>
    have hframe := relayStateChanged_frame st needRelay active
    exact h.frame hframe.bootstrapped hframe.reconcile hframe.reconcileDirty hframe.nextTypesSync hframe.pendingTypesWrite
      hframe.knownTypes hframe.announced

theorem planStep {env : Env} {now : Instant} {st₀ : RegistryState} {o : Option JobSpec} (h : Syncing st)
    (hs : PlanStep env now st₀ st o st') : Syncing st' := by
  cases hs with
  | withdraw | retry | announce => exact h.frame rfl rfl rfl rfl rfl rfl (Finset.Subset.refl _)
  | readTypes idle =>
    exact unmerged (.inr rfl) (fun _ hidle => by cases hidle) h.valid h.bounded
  | writeTypes value ready pending =>
    exact ⟨fun _ hr => (by cases hr), fun hr => (by cases hr), fun _ => h.merged (.inl ready), h.valid, h.bounded⟩
  | dropWrite ready pending =>
    -- a chain that is to write always has what it writes
    have := h.pending ready
    rw [pending] at this
    cases this

theorem plan (h : Syncing st) (env : Env) (now : Instant) (slots : Nat) : Syncing (st.plan env now slots).2 :=
  (plan_steps env st now slots).1.invariant (J := 0) (P := fun st _ => Syncing st)
    (fun _ _ _ _ _ hs h => h.planStep hs) h

/-- A chain that has ended is scheduled again. -/
theorem reconcileDone (hvalid : ∀ x ∈ st.knownTypes, Auth.isValidServiceName x = true)
    (hbounded : st.knownTypes.card ≤ maxTypes) (now next : Instant) : Syncing (st.reconcileDone now next) :=
  unmerged (.inl rfl) (fun _ _ => .inr rfl) hvalid hbounded

/-- **The merge takes in all that is announced**, or fills the set. -/
theorem typesRead (h : Syncing st) (env : Env) (now : Instant) (g : UInt64) (result : Except String (List String))
    (hannounced : ∀ x ∈ st.announced, Auth.isValidServiceName x = true) :
    Syncing (st.applyTypesRead env now g result) := by
  unfold applyTypesRead
  split
  · exact h
  cases result with
  | error e => exact reconcileDone h.valid h.bounded now _
  | ok types =>
    simp only
    have hvalid := mergeTypeSet_valid (env.order.list st.announced) _ (mergeTypeSet_valid types _ h.valid)
    have hcard := card_mergeTypeSet (env.order.list st.announced) _ (card_mergeTypeSet types _ h.bounded)
    have hmerged := fun x hx =>
      mem_mergeTypeSet (hannounced x hx) _ (mergeTypeSet st.knownTypes types) (env.order.mem_list.2 hx)
    generalize mergeTypeSet (mergeTypeSet st.knownTypes types) (env.order.list st.announced) = known
      at hvalid hcard hmerged ⊢
    split
    · exact reconcileDone hvalid hcard now _
    · split
      · exact ⟨fun _ hr => (by cases hr), fun _ => rfl, fun _ _ => hmerged, hvalid, hcard⟩
      · exact unmerged (.inl rfl) (fun _ _ => .inr rfl) hvalid hcard

theorem typesWritten (h : Syncing st) (env : Env) (now : Instant) (g : UInt64) (result : Except String Unit) :
    Syncing (st.applyTypesWritten env now g result) := by
  unfold applyTypesWritten
  split
  · exact h
  · cases result <;> exact reconcileDone h.valid h.bounded now _

theorem apply (h : Syncing st) (env : Env) (now : Instant) (r : JobResult)
    (hannounced : ∀ x ∈ st.announced, Auth.isValidServiceName x = true) : Syncing (st.apply env now r) := by
  cases r with
  | typesRead g result => exact h.typesRead env now g result hannounced
  | typesWritten g result => exact h.typesWritten env now g result
  | announced g s result =>
    have happlied := applyAnnounced_applied st now g s result
    simp only [RegistryState.apply]
    generalize st.applyAnnounced now g s result = st' at happlied ⊢
    -- a success announces the service and raises the flag
    cases happlied with
    | announcedStale | announceFailedUp | announceFailedDown =>
      exact h.frame rfl rfl rfl rfl rfl rfl (Finset.Subset.refl _)
    | announcedNoRelay => exact h.raise rfl rfl rfl rfl
    | announcedUp => exact h.raise rfl rfl rfl rfl
    | announcedDown => exact h.raise rfl rfl rfl rfl
  | withdrawn g s result =>
    have happlied := applyWithdrawn_applied st now g s result
    simp only [RegistryState.apply]
    generalize st.applyWithdrawn now g s result = st' at happlied ⊢
    cases happlied with
    | withdrawnUp | withdrawnDown => exact h.frame rfl rfl rfl rfl rfl rfl (Finset.erase_subset _ _)
    | _ => exact h.frame rfl rfl rfl rfl rfl rfl (Finset.Subset.refl _)

end Syncing

/-! ## Runs -/

theorem subset_applyTypesRead (env : Env) (st : RegistryState) (now : Instant) (g : UInt64)
    (result : Except String (List String)) : st.knownTypes ⊆ (st.applyTypesRead env now g result).knownTypes := by
  unfold applyTypesRead
  split
  · exact Finset.Subset.refl _
  cases result with
  | error e => exact Finset.Subset.refl _
  | ok types =>
    simp only
    have hsub : st.knownTypes ⊆ mergeTypeSet (mergeTypeSet st.knownTypes types) (env.order.list st.announced) :=
      (subset_mergeTypeSet types _).trans (subset_mergeTypeSet _ _)
    split
    · exact hsub
    · split <;> exact hsub

theorem subset_apply (env : Env) (st : RegistryState) (now : Instant) (r : JobResult) :
    st.knownTypes ⊆ (st.apply env now r).knownTypes := by
  cases r with
  | typesRead g result => exact subset_applyTypesRead env st now g result
  | typesWritten g result => exact (applyTypesWritten_frame env st now g result).1.ge
  | announced g s result =>
    exact ((applyAnnounced_applied st now g s result).types_frame ⟨fun _ h => (by cases h), fun _ h => (by cases h)⟩).1.ge
  | withdrawn g s result =>
    exact ((applyWithdrawn_applied st now g s result).types_frame ⟨fun _ h => (by cases h), fun _ h => (by cases h)⟩).1.ge

/-- **No event loses a known type.** -/
theorem subset_step {s s' : System} {e : Event} (hs : registry.step s e = some s') :
    s.reg.knownTypes ⊆ s'.reg.knownTypes := by
  obtain ⟨-, -, rfl⟩ := step_eq_some.1 hs
  cases e with
  | command c now => exact (handle_types s.reg c now).1.ge
  | readiness ready now => exact Finset.Subset.refl _
  | plan env now slots => exact (plan_kept env s.reg now slots).knownTypes.ge
  | complete env _ result now | stale env result now => exact subset_apply env s.reg now result

theorem announced_valid {names : List String} {s : System} (h : Gated names s.reg s.jobs)
    (hvalid : ∀ x ∈ names, Auth.isValidServiceName x = true) :
    ∀ x ∈ s.reg.announced, Auth.isValidServiceName x = true :=
  fun x hx => hvalid x (h.touched x (.inl hx)).1

theorem syncing_step {s s' : System} {e : Event} (h : Syncing s.reg)
    (hannounced : ∀ x ∈ s.reg.announced, Auth.isValidServiceName x = true) (hs : registry.step s e = some s') :
    Syncing s'.reg := by
  obtain ⟨-, -, rfl⟩ := step_eq_some.1 hs
  cases e with
  | command c now => exact h.command c now
  | readiness ready now => exact h.frame rfl rfl rfl rfl rfl rfl (Finset.Subset.refl _)
  | plan env now slots => exact h.plan env now slots
  | complete env _ result now | stale env result now => exact h.apply env now result hannounced

/-- **In every run the chain meets its obligations.** -/
theorem syncing_run {es : List Event} {s : System} (hr : registry.run es = some s) : Syncing s.reg :=
  (registry.history_invariant (P := fun es s => registry.run es = some s ∧ Syncing s.reg) ⟨rfl, Syncing.new⟩
    (fun _ s _ _ h _ hs => ⟨registry.runFrom_concat.2 ⟨s, h.1, hs⟩,
      syncing_step h.2 (announced_valid (gated_run h.1) (fun _ => valid_of_mem_names)) hs⟩)
    es s hr (registry.meets_true es _)).2

/-- **The synchronisation of the types in one state.** -/
structure TypesKept (s : System) : Prop where
  /-- After the bootstrap an idle chain is due or scheduled. -/
  scheduled : s.reg.bootstrapped = true → s.reg.reconcile = .idle →
    s.reg.reconcileDirty = true ∨ s.reg.nextTypesSync.isSome = true
  /-- A merge is to come for every announced type that is not known, as long as there is room for it. -/
  covered : ∀ x ∈ s.reg.announced, x ∉ s.reg.knownTypes → s.reg.knownTypes.card < maxTypes →
    s.reg.reconcile = .reading ∨ s.reg.reconcileDirty = true ∨
      s.reg.reconcile = .idle ∧ s.reg.nextTypesSync.isSome = true
  grows : ∀ e s', registry.step s e = some s' → s.reg.knownTypes ⊆ s'.reg.knownTypes
  bounded : s.reg.knownTypes.card ≤ maxTypes
  valid : ∀ x ∈ s.reg.knownTypes, Auth.isValidServiceName x = true

/-- **The type synchronisation does not stall and drops no announced type**: in every state of every run, with any
configuration, any content of the record and any failures. -/
theorem types_kept (es : List Event) (s : System) (hr : registry.run es = some s) : TypesKept s := by
  have h := syncing_run hr
  refine ⟨h.scheduled, fun x hx hunknown hroom => ?_, fun e s' hs => subset_step hs, h.bounded, h.valid⟩
  -- the states of the chain after its merge hold all that is announced, or the flag is up
  have hmerged : s.reg.reconcile = .readyToWrite ∨ s.reg.reconcile = .writing → s.reg.reconcileDirty = true := by
    intro hreconcile
    by_contra hclean
    rcases h.merged hreconcile (Bool.eq_false_iff.2 hclean) x hx with hknown | hfull
    · exact hunknown hknown
    · exact absurd hroom (Nat.not_lt.2 hfull)
  cases hreconcile : s.reg.reconcile with
  | reading => exact .inl rfl
  | readyToWrite => exact .inr (.inl (hmerged (.inl hreconcile)))
  | writing => exact .inr (.inl (hmerged (.inr hreconcile)))
  | idle =>
    have hboot := ((gated_run hr).touched x (.inl hx)).2
    rcases h.scheduled hboot hreconcile with hdirty | hnext
    · exact .inr (.inl hdirty)
    · exact .inr (.inr ⟨rfl, hnext⟩)

/-- An announcement comes while the index is being read. -/
def lateAnnounceRun : List Event :=
  [.readiness {"cmd"} 0, .command .bootstrapCompleted 0, .plan cmdEnv 0 4,
    .complete cmdEnv (announceJob 0 "cmd") (.announced 0 "cmd" (.ok ())) 0]

theorem late_announce_covered : ∃ s, registry.run lateAnnounceRun = some s ∧ "cmd" ∈ s.reg.announced ∧
    "cmd" ∉ s.reg.knownTypes ∧ TypesKept s := by
  obtain ⟨s, hr, hs⟩ := registry.exists_of_check
    (fun s => decide ("cmd" ∈ s.reg.announced ∧ "cmd" ∉ s.reg.knownTypes)) lateAnnounceRun (by decide +kernel)
  have hs := of_decide_eq_true hs
  exact ⟨s, hr, hs.1, hs.2, types_kept lateAnnounceRun s hr⟩

end Registry
end NexusNet
