import NexusNet.RegistrySystem
/-!
# RegistryProviders — which provider records the registry remembers

A provider record that exists while its backend is down must have a recorded obligation to be withdrawn (`Remembered`).
`announced` is no such record: a bootstrap, a `Reannounce` and a recovered relay clear it while the provider record
stays.  The registry forgets the record in exactly three kinds of step (`KeepsProviders` excludes them): the backend goes
down when the service is no longer in `announced`, the in-flight mark that was the only record goes with a failed
announcement or a stale result, and a relay recovery clears `relay_withdraw`.
-/
namespace NexusNet
namespace Registry

open RegistryState

/-- The service has a recorded obligation to be withdrawn. -/
def Owed (st : RegistryState) (x : String) : Prop :=
  x ∈ st.withdrawDeadline ∨ x ∈ st.relayWithdraw ∨ x ∈ st.withdrawInflight ∨ x ∈ st.announceInflight

/-- **No provider record is forgotten**: one whose backend is down has its obligation. -/
def Remembered (s : System) : Prop := ∀ x ∈ s.provided, x ∉ s.reg.backendReady → Owed s.reg x

instance (st : RegistryState) (x : String) : Decidable (Owed st x) :=
  inferInstanceAs (Decidable (_ ∨ _ ∨ _ ∨ _))

instance (s : System) : Decidable (Remembered s) :=
  inferInstanceAs (Decidable (∀ x ∈ s.provided, x ∉ s.reg.backendReady → Owed s.reg x))

/-- A result does not take the last record of a service that is provided and down. -/
def ResultKeeps (s : System) : JobResult → Prop
  | .announced g x r => (g ≠ s.reg.generation ∨ r.isOk = false) → x ∈ s.provided → x ∉ s.reg.backendReady →
      x ∈ s.reg.withdrawDeadline ∨ x ∈ s.reg.relayWithdraw ∨ x ∈ s.reg.withdrawInflight
  | .withdrawn g x r => g ≠ s.reg.generation → r.isOk = false → x ∈ s.provided → x ∉ s.reg.backendReady →
      x ∈ s.reg.withdrawDeadline ∨ x ∈ s.reg.relayWithdraw ∨ x ∈ s.reg.announceInflight
  | _ => True

/-- **The step loses no provider**, read in the state before it. -/
def KeepsProviders (s : System) : Event → Prop
  | .readiness ready _ => ∀ x ∈ s.provided, x ∈ s.reg.backendReady → x ∉ ready → x ∈ s.reg.announced ∨ Owed s.reg x
  | .command (.relayStateChanged needRelay active) _ =>
      s.reg.relayReady = false → (needRelay = false ∨ 0 < active) → ∀ x ∈ s.provided, x ∉ s.reg.backendReady →
        x ∈ s.reg.withdrawDeadline ∨ x ∈ s.reg.withdrawInflight ∨ x ∈ s.reg.announceInflight
  | .complete _ _ result _ => ResultKeeps s result
  | .stale _ result _      => ResultKeeps s result
  | _                      => True

instance (s : System) : ∀ r : JobResult, Decidable (ResultKeeps s r)
  | .announced _ _ _  => inferInstanceAs (Decidable (_ ∨ _ → _ → _ → _ ∨ _ ∨ _))
  | .withdrawn _ _ _  => inferInstanceAs (Decidable (_ → _ → _ → _ → _ ∨ _ ∨ _))
  | .typesRead _ _    => .isTrue trivial
  | .typesWritten _ _ => .isTrue trivial

instance (s : System) : ∀ e : Event, Decidable (KeepsProviders s e)
  | .readiness ready _ => inferInstanceAs (Decidable (∀ x ∈ s.provided, x ∈ s.reg.backendReady → x ∉ ready → _ ∨ _))
  | .command (.relayStateChanged needRelay active) _ =>
      inferInstanceAs (Decidable (_ → (needRelay = false ∨ 0 < active) → ∀ x ∈ s.provided, _ → _ ∨ _ ∨ _))
  | .command .bootstrapCompleted _ => .isTrue trivial
  | .command .tick _               => .isTrue trivial
  | .command .reannounce _         => .isTrue trivial
  | .command .refreshTypes _       => .isTrue trivial
  | .command .reset _              => .isTrue trivial
  | .plan _ _ _                    => .isTrue trivial
  | .complete _ _ result _         => inferInstanceAs (Decidable (ResultKeeps s result))
  | .stale _ result _              => inferInstanceAs (Decidable (ResultKeeps s result))

/-! ## One step -/

theorem owed_startWithdraw {st : RegistryState} {s x : String} (h : Owed st x) : Owed (startWithdraw st s) x := by
  by_cases hx : x = s
  · exact Or.inr (Or.inr (Or.inl (Finset.mem_insert.2 (Or.inl hx))))
  · exact h.imp (fun h => Finmap.mem_erase.2 ⟨hx, h⟩) (Or.imp id (Or.imp Finset.mem_insert_of_mem id))

theorem owed_startAnnounce {st : RegistryState} {s x : String} (h : Owed st x) : Owed (startAnnounce st s) x :=
  h.imp id (Or.imp id (Or.imp id Finset.mem_insert_of_mem))

theorem PlanStep.owed {env : Env} {now : Instant} {st₀ a b : RegistryState} {o : Option JobSpec}
    (h : PlanStep env now st₀ a o b) {x : String} (hx : Owed a x) : Owed b x := by
  cases h with
  | withdraw s => exact owed_startWithdraw hx
  | retry | announce => exact owed_startAnnounce hx
  | readTypes | writeTypes | dropWrite => exact hx

/-- A planning call turns one obligation into another and drops none. -/
theorem owed_plan (env : Env) (st : RegistryState) (now : Instant) (slots : Nat) {x : String} (hx : Owed st x) :
    Owed (st.plan env now slots).2 x :=
  (plan_steps env st now slots).1.invariant (P := fun st _ => Owed st x) (J := 0)
    (fun _ _ _ _ _ h hP => PlanStep.owed h hP) hx

theorem owed_replaceBackendReady {st : RegistryState} {ready : Finset String} {now : Instant} {x : String}
    (hx : x ∉ ready) : Owed (st.replaceBackendReady ready now) x ↔
      (x ∈ st.backendReady ∧ x ∈ st.announced) ∨ Owed st x := by
  simp only [Owed, replaceBackendReady, Dict.mem_orInsertAll, Dict.mem_eraseAll, List.mem_filter, mem_sorted,
    Finset.mem_sdiff, decide_eq_true_eq, hx]
  tauto

theorem remembered_readiness (s : System) (ready : Finset String) (now : Instant) (h : Remembered s) :
    Remembered (next s (.readiness ready now)) ↔ KeepsProviders s (.readiness ready now) := by
  constructor
  · intro h' x hx _ hdown
    have := (owed_replaceBackendReady hdown).1 (h' x hx hdown)
    tauto
  · intro hk x hx hdown
    refine (owed_replaceBackendReady hdown).2 ?_
    by_cases hup : x ∈ s.reg.backendReady
    · have := hk x hx hup hdown
      tauto
    · exact Or.inr (h x hx hup)

theorem remembered_command (s : System) (c : ServiceCommand) (now : Instant) (h : Remembered s) :
    Remembered (next s (.command c now)) ↔ KeepsProviders s (.command c now) := by
  cases c with
  | reset =>
    refine ⟨fun _ => trivial, fun _ x hx => ?_⟩
    simp [next] at hx
  | relayStateChanged needRelay active =>
    rcases relayStateChanged_cases s.reg needRelay active with ⟨heq, hst⟩ | ⟨hwas, hnow, hst⟩ | ⟨hwas, hnow, hst⟩
    · -- the readiness stays: nothing is cleared, and the guard does not apply
      have hP : Remembered (next s (.command (.relayStateChanged needRelay active) now)) := by
        intro x hx hdown
        simp only [next, handle, hst, reduceCtorEq, if_false] at hx hdown ⊢
        exact h x hx hdown
      refine ⟨fun _ hwas hnow => ?_, fun _ => hP⟩
      have := (@relayReady_eq_true { s.reg with needRelay := needRelay, activeRelays := active }).2 hnow
      rw [← heq, hwas] at this
      cases this
    · -- a relay became ready: `relay_withdraw` is cleared
      simp only [Remembered, KeepsProviders, Owed, next, handle, hst, hwas, hnow, reduceCtorEq, if_false,
        Finset.notMem_empty, false_or, true_imp_iff]
    · -- the last relay is lost: obligations are only added
      refine ⟨fun _ hf => ?_, fun _ x hx hdown => ?_⟩
      · rw [hwas] at hf
        cases hf
      · simp only [next, handle, hst, reduceCtorEq, if_false] at hx hdown
        have := h x hx hdown
        simp only [Owed, next, handle, hst, Finset.mem_union] at this ⊢
        tauto
  | _ => exact ⟨fun _ => trivial, fun _ => h⟩

theorem Applied.owed_announced {st st' : RegistryState} {now : Instant} {g : UInt64} {x y : String}
    {r : Except String Unit} (h : Applied st now (.announced g x r) st') (hy : y ≠ x) : Owed st' y ↔ Owed st y := by
  cases h <;> simp [Owed, markTypesDirty, hy]

theorem Applied.owed_withdrawn {st st' : RegistryState} {now : Instant} {g : UInt64} {x y : String}
    {r : Except String Unit} (h : Applied st now (.withdrawn g x r) st') (hy : y ≠ x) : Owed st' y ↔ Owed st y := by
  cases h <;> simp [Owed, hy]

/-- A change that concerns only the service `x` forgets nothing exactly if it does not forget `x`. -/
theorem remembered_iff_service {s : System} (x : String) {st' : RegistryState} {provided : Finset String}
    (h : Remembered s) (hprov : ∀ y ∈ provided, y ≠ x → y ∈ s.provided) (hready : st'.backendReady = s.reg.backendReady)
    (hother : ∀ y, y ≠ x → (Owed st' y ↔ Owed s.reg y)) :
    (∀ y ∈ provided, y ∉ st'.backendReady → Owed st' y) ↔ (x ∈ provided → x ∉ s.reg.backendReady → Owed st' x) := by
  rw [hready]
  constructor
  · intro hall hx hdown
    exact hall x hx hdown
  · intro hself y hy hdown
    by_cases hyx : y = x
    · subst hyx
      exact hself hy hdown
    · exact (hother y hyx).2 (h y (hprov y hy hyx) hdown)

theorem remembered_announced {s : System} {now : Instant} {g : UInt64} {x : String} {r : Except String Unit}
    {st' : RegistryState} (happ : Applied s.reg now (.announced g x r) st') (h : Remembered s) :
    (∀ y ∈ noteProvided s.reg.generation s.provided (.announced g x r), y ∉ st'.backendReady → Owed st' y) ↔
      ResultKeeps s (.announced g x r) := by
  have hprov : ∀ y ∈ noteProvided s.reg.generation s.provided (.announced g x r), y ≠ x → y ∈ s.provided := by
    intro y hy hyx
    cases r with
    | ok u =>
      simp only [noteProvided] at hy
      split at hy
      · exact Finset.mem_of_mem_insert_of_ne hy hyx
      · exact hy
    | error e => exact hy
  rw [remembered_iff_service x h hprov happ.standing.backendReady (fun y hy => happ.owed_announced hy)]
  cases happ with
  | announcedStale g x r old =>
    have hp : noteProvided s.reg.generation s.provided (.announced g x r) = s.provided := by
      cases r <;> simp [noteProvided, old]
    simp [hp, ResultKeeps, Owed, old]
  | announcedNoRelay | announcedDown => simp [ResultKeeps, Owed, Except.isOk, Except.toBool]
  | announcedUp _ _ up | announceFailedUp _ _ _ up => simp [ResultKeeps, up]
  | announceFailedDown x error down => simp [noteProvided, ResultKeeps, Owed, Except.isOk, Except.toBool]

theorem remembered_withdrawn {s : System} {now : Instant} {g : UInt64} {x : String} {r : Except String Unit}
    {st' : RegistryState} (happ : Applied s.reg now (.withdrawn g x r) st') (h : Remembered s) :
    (∀ y ∈ noteProvided s.reg.generation s.provided (.withdrawn g x r), y ∉ st'.backendReady → Owed st' y) ↔
      ResultKeeps s (.withdrawn g x r) := by
  have hprov : ∀ y ∈ noteProvided s.reg.generation s.provided (.withdrawn g x r), y ≠ x → y ∈ s.provided := by
    intro y hy _
    cases r with
    | ok u => exact Finset.mem_of_mem_erase hy
    | error e => exact hy
  rw [remembered_iff_service x h hprov happ.standing.backendReady (fun y hy => happ.owed_withdrawn hy)]
  cases happ with
  | withdrawnStale g x r old =>
    cases r with
    | ok u => simp [noteProvided, ResultKeeps, Except.isOk, Except.toBool]
    | error e => simp [noteProvided, ResultKeeps, Owed, old, Except.isOk, Except.toBool]
  | withdrawnUp _ up | withdrawFailedUp _ _ _ up => simp [ResultKeeps, up]
  | withdrawnDown x down => simp [noteProvided, ResultKeeps]
  | withdrawFailedRelay x error forced => simp [ResultKeeps, Owed, forced]
  | withdrawFailedDown x error free down => simp [ResultKeeps, Owed]

theorem remembered_result (s : System) (result : JobResult) (env : Env) (now : Instant) (s' : System)
    (hreg : s'.reg = s.reg.apply env now result)
    (hprov : s'.provided = noteProvided s.reg.generation s.provided result) (h : Remembered s) :
    Remembered s' ↔ ResultKeeps s result := by
  have happ := apply_applied env s.reg now result
  rw [← hreg] at happ
  unfold Remembered
  rw [hprov]
  clear hreg hprov
  generalize s'.reg = st' at happ ⊢
  cases result with
  | announced g x r => exact remembered_announced happ h
  | withdrawn g x r => exact remembered_withdrawn happ h
  | typesRead | typesWritten =>
    refine ⟨fun _ => trivial, fun _ => ?_⟩
    cases happ <;> exact h

theorem remembered_step (s : System) (e : Event) (s' : System) (h : Remembered s) (hs : registry.step s e = some s') :
    Remembered s' ↔ KeepsProviders s e := by
  obtain ⟨-, -, rfl⟩ := step_eq_some.1 hs
  cases e with
  | command c now => exact remembered_command s c now h
  | readiness ready now => exact remembered_readiness s ready now h
  | plan env now slots =>
    refine ⟨fun _ => trivial, fun _ x hx hdown => owed_plan env s.reg now slots (h x hx ?_)⟩
    rwa [← (plan_kept env s.reg now slots).backendReady]
  | complete env _ result now | stale env result now => exact remembered_result s result env now _ rfl rfl h

/-- **A run forgets no provider exactly when no step of it loses one.** -/
theorem remembered_throughout_iff (es : List Event) (s : System) (hr : registry.run es = some s) :
    registry.Throughout Remembered registry.init es ↔ registry.Meets KeepsProviders registry.init es := by
  refine registry.throughout_iff_meets remembered_step es registry.init s (fun x hx => ?_) hr
  simp [registry, System.new] at hx

/-- Up to the second announcement no step loses a provider, and none is forgotten. -/
theorem reannounced_remembered : (∃ s, registry.run reannouncedRun = some s) ∧
    registry.Throughout Remembered registry.init reannouncedRun := by
  obtain ⟨s, hr, -⟩ := registry.exists_of_check (fun _ => true) reannouncedRun (by decide +kernel)
  exact ⟨⟨s, hr⟩, (remembered_throughout_iff reannouncedRun s hr).2 (by decide +kernel)⟩

/-- The backend goes down while that announcement is running, and the announcement fails. -/
def forgettingRun : List Event :=
  reannouncedRun ++ [.readiness ∅ 0, .plan cmdEnv 0 2,
    .complete cmdEnv (announceJob 0 "cmd") (.announced 0 "cmd" (.error "timeout")) 0]

/-- **A failed re-announcement forgets the provider record**: `cmd` is provided and down, and nothing will withdraw
it. -/
theorem reannounce_failure_forgets : ∃ s, registry.run forgettingRun = some s ∧ ¬ Remembered s := by
  obtain ⟨s, hr, hs⟩ := registry.exists_of_check (fun s => decide (¬ Remembered s)) forgettingRun
    (by decide +kernel)
  exact ⟨s, hr, by simpa using hs⟩

end Registry
end NexusNet
