import NexusNet.RegistryJobs
import NexusNet.RegistryRelay
/-!
# RegistryGate — what is announced, and when

The two announcing passes of `plan` test different parts of the gate.  What they leave out is invariant: before the
bootstrap the registry holds nothing about any service, it holds something only about configured services with a valid
name (`Gated`), and with a relay ready `relay_withdraw` is empty.
-/
namespace NexusNet
namespace Registry

open RegistryState

/-- The state holds something about the service that can lead to an announcement. -/
def Touched (st : RegistryState) (x : String) : Prop :=
  x ∈ st.announced ∨ x ∈ st.withdrawDeadline ∨ x ∈ st.relayWithdraw ∨ x ∈ st.announceInflight ∨
    x ∈ st.withdrawInflight ∨ x ∈ st.announceRetryAt

/-- What is only cleared is not touched. -/
theorem Touched.mono {st st' : RegistryState} {x : String} (h : Touched st' x)
    (hannounced : x ∈ st'.announced → x ∈ st.announced)
    (hdeadline : x ∈ st'.withdrawDeadline → x ∈ st.withdrawDeadline)
    (hrelay : x ∈ st'.relayWithdraw → x ∈ st.relayWithdraw)
    (hannounce : x ∈ st'.announceInflight → x ∈ st.announceInflight)
    (hwithdraw : x ∈ st'.withdrawInflight → x ∈ st.withdrawInflight)
    (hretry : x ∈ st'.announceRetryAt → x ∈ st.announceRetryAt) : Touched st x :=
  h.imp hannounced (Or.imp hdeadline (Or.imp hrelay (Or.imp hannounce (Or.imp hwithdraw hretry))))

/-- A job that is started touches its own service. -/
theorem touched_startWithdraw {st : RegistryState} {s x : String} (h : Touched (startWithdraw st s) x) :
    x = s ∨ Touched st x := by
  by_cases hx : x = s
  · exact Or.inl hx
  · refine Or.inr (h.mono id (fun h => (Finmap.mem_erase.1 h).2) id id (fun h => ?_) id)
    exact (Finset.mem_insert.1 h).resolve_left hx

theorem touched_startAnnounce {st : RegistryState} {s x : String} (h : Touched (startAnnounce st s) x) :
    x = s ∨ Touched st x := by
  by_cases hx : x = s
  · exact Or.inl hx
  · refine Or.inr (h.mono id id id (fun h => ?_) id (fun h => (Finmap.mem_erase.1 h).2))
    exact (Finset.mem_insert.1 h).resolve_left hx

def JobSpec.serves (j : JobSpec) (x : String) : Prop := j.kind = .announce x ∨ j.kind = .withdraw x

/-- **Only the configured services are touched, and only after the bootstrap**, by the state and by the jobs. -/
structure Gated (names : List String) (st : RegistryState) (J : Multiset JobSpec) : Prop where
  touched : ∀ x, Touched st x → x ∈ names ∧ st.bootstrapped = true
  jobs : ∀ j ∈ J, ∀ x, j.serves x → x ∈ names ∧ st.bootstrapped = true

theorem Gated.new (names : List String) : Gated names RegistryState.new 0 where
  touched := fun x hx => by simp [Touched, RegistryState.new, Finmap.notMem_empty] at hx
  jobs := by simp

theorem Gated.mono {names : List String} {st st' : RegistryState} {J J' : Multiset JobSpec} (h : Gated names st J)
    (hboot : st.bootstrapped = true → st'.bootstrapped = true) (hsub : J' ≤ J)
    (htouch : ∀ x, Touched st' x → Touched st x ∨ ∃ j ∈ J, j.serves x) : Gated names st' J' where
  touched := fun x hx => by
    have hx' : x ∈ names ∧ st.bootstrapped = true := by
      rcases htouch x hx with hx | ⟨j, hj, hjx⟩
      · exact h.touched x hx
      · exact h.jobs j hj x hjx
    exact ⟨hx'.1, hboot hx'.2⟩
  jobs := fun j hj x hx => by
    have hx' := h.jobs j (Multiset.mem_of_le hsub hj) x hx
    exact ⟨hx'.1, hboot hx'.2⟩

/-! ## Planning -/

theorem serves_withdrawJob {g : UInt64} {s x : String} (h : (withdrawJob g s).serves x) : x = s := by
  simpa [JobSpec.serves, JobSpec.kind, withdrawJob, eq_comm] using h

theorem serves_announceJob {g : UInt64} {s x : String} (h : (announceJob g s).serves x) : x = s := by
  simpa [JobSpec.serves, JobSpec.kind, announceJob, eq_comm] using h

theorem touched_of_dueWithdrawals {st : RegistryState} {now : Instant} {x : String} (h : x ∈ st.dueWithdrawals now) :
    Touched st x := by
  rcases Finset.mem_union.1 h with h | h
  · exact Or.inr (Or.inl (Dict.mem_of_mem_due (Finset.mem_of_mem_filter x h)))
  · exact Or.inr (Or.inr (Or.inl (Finset.mem_of_mem_filter x h)))

theorem touched_of_dueRetries {st : RegistryState} {now : Instant} {x : String} (h : x ∈ st.dueRetries now) :
    Touched st x := by
  have := Dict.mem_of_mem_due (Finset.mem_of_mem_filter x h)
  simp [Touched, this]

theorem Gated.start {names : List String} {st st' : RegistryState} {J : Multiset JobSpec} {j : JobSpec} {s : String}
    (h : Gated names st J) (hboot : st'.bootstrapped = st.bootstrapped) (hs : s ∈ names ∧ st.bootstrapped = true)
    (hj : ∀ x, j.serves x → x = s) (htouch : ∀ x, Touched st' x → x = s ∨ Touched st x) :
    Gated names st' (J + ((some j).toList : Multiset JobSpec)) := by
  rw [Option.toList_some, Multiset.coe_singleton]
  refine ⟨fun x hx => ?_, fun i hi x hx => ?_⟩
  · rw [hboot]
    rcases htouch x hx with rfl | hx
    · exact hs
    · exact h.touched x hx
  · rw [hboot]
    rcases Multiset.mem_add.1 hi with hi | hi
    · exact h.jobs i hi x hx
    · rw [Multiset.mem_singleton] at hi
      subst hi
      rw [hj x hx]
      exact hs

theorem Gated.startTypes {names : List String} {st st' : RegistryState} {J : Multiset JobSpec} {o : Option JobSpec}
    (h : Gated names st J) (hboot : st'.bootstrapped = st.bootstrapped) (hj : ∀ j ∈ o, ∀ x, ¬ j.serves x)
    (htouch : ∀ x, Touched st' x → Touched st x) : Gated names st' (J + (o.toList : Multiset JobSpec)) where
  touched := fun x hx => by rw [hboot]; exact h.touched x (htouch x hx)
  jobs := fun i hi x hx => by
    rw [hboot]
    rcases Multiset.mem_add.1 hi with hi | hi
    · exact h.jobs i hi x hx
    · exact absurd hx (hj i (Option.mem_toList.1 (Multiset.mem_coe.1 hi)) x)

theorem PlanStep.gated {env : Env} {now : Instant} {st₀ a b : RegistryState} {o : Option JobSpec} {names : List String}
    (hs : PlanStep env now st₀ a o b) (hnames : ∀ x ∈ localNames env.config, x ∈ names) (hk : Kept st₀ a)
    (h₀ : ∀ x, Touched st₀ x → x ∈ names ∧ st₀.bootstrapped = true) {J : Multiset JobSpec} (h : Gated names a J) :
    Gated names b (J + (o.toList : Multiset JobSpec)) := by
  cases hs with
  | withdraw s due free =>
    exact h.start rfl (hk.bootstrapped ▸ h₀ s (touched_of_dueWithdrawals due)) (fun x => serves_withdrawJob)
      (fun x => touched_startWithdraw)
  | retry s due free =>
    exact h.start rfl (hk.bootstrapped ▸ h₀ s (touched_of_dueRetries due)) (fun x => serves_announceJob)
      (fun x => touched_startAnnounce)
  | announce s boot relay mine go =>
    exact h.start rfl ⟨hnames s mine, hk.bootstrapped.trans boot⟩ (fun x => serves_announceJob)
      (fun x => touched_startAnnounce)
  | readTypes idle => exact h.startTypes rfl (by simp [JobSpec.serves, JobSpec.kind]) (fun _ hx => hx)
  | writeTypes value ready pending =>
    exact h.startTypes rfl (by simp [JobSpec.serves, JobSpec.kind]) (fun _ hx => hx)
  | dropWrite ready pending => exact h.startTypes rfl (by simp) (fun _ hx => hx)

theorem Gated.plan {names : List String} {st : RegistryState} {J : Multiset JobSpec} (h : Gated names st J) (env : Env)
    (hnames : ∀ x ∈ localNames env.config, x ∈ names) (now : Instant) (slots : Nat) :
    Gated names (st.plan env now slots).2 (J + ((st.plan env now slots).1 : Multiset JobSpec)) :=
  (plan_steps env st now slots).1.invariant
    (fun _ _ _ _ hk hs hP => PlanStep.gated hs hnames hk h.touched hP) h

/-! ## Results and commands -/

def JobResult.about (x : String) : JobResult → Prop
  | .announced _ s _   => x = s
  | .withdrawn _ s _   => x = s
  | .typesRead _ _     => False
  | .typesWritten _ _  => False

theorem serves_of_answers {r : JobResult} {j : JobSpec} {x : String} (h : r.answers j = true) (hx : r.about x) :
    j.serves x := by
  rcases answers_cases h with ⟨g, s, key, u, rfl, rfl⟩ | ⟨g, s, key, u, rfl, rfl⟩ | ⟨g, u, rfl, rfl⟩ |
    ⟨g, value, u, rfl, rfl⟩
  · obtain rfl : x = s := hx
    exact Or.inl rfl
  · obtain rfl : x = s := hx
    exact Or.inr rfl
  · exact absurd hx id
  · exact absurd hx id

/-- **A result touches no other service**, and one of another generation touches none. -/
theorem touched_apply {env : Env} {st : RegistryState} {now : Instant} {r : JobResult} {x : String}
    (hx : Touched (st.apply env now r) x) : Touched st x ∨ r.generation = st.generation ∧ r.about x := by
  have happ := apply_applied env st now r
  generalize st.apply env now r = st' at happ hx
  by_cases hxr : r.about x ∧ r.generation = st.generation
  · exact Or.inr hxr.symm
  · left
    cases happ with
    | announcedStale g y r old =>
      rcases hx with hx | hx | hx | hx | hx | hx
      · exact Or.inl hx
      · exact Or.inr (Or.inl hx)
      · exact Or.inr (Or.inr (Or.inl hx))
      · exact Or.inr (Or.inr (Or.inr (Or.inl (Finset.mem_of_mem_erase hx))))
      · exact Or.inr (Or.inr (Or.inr (Or.inr (Or.inl hx))))
      · exact Or.inr (Or.inr (Or.inr (Or.inr (Or.inr hx))))
    | withdrawnStale g y r old =>
      rcases hx with hx | hx | hx | hx | hx | hx
      · exact Or.inl hx
      · exact Or.inr (Or.inl hx)
      · exact Or.inr (Or.inr (Or.inl hx))
      · exact Or.inr (Or.inr (Or.inr (Or.inl hx)))
      · exact Or.inr (Or.inr (Or.inr (Or.inr (Or.inl (Finset.mem_of_mem_erase hx)))))
      · exact Or.inr (Or.inr (Or.inr (Or.inr (Or.inr hx))))
    | announcedNoRelay y | announcedUp y | announcedDown y =>
      have hxy : x ≠ y := fun h => hxr ⟨h, rfl⟩
      simpa [Touched, markTypesDirty, hxy] using hx
    | announceFailedUp y | announceFailedDown y | withdrawnUp y | withdrawnDown y | withdrawFailedRelay y
    | withdrawFailedUp y | withdrawFailedDown y =>
      have hxy : x ≠ y := fun h => hxr ⟨h, rfl⟩
      simpa [Touched, hxy] using hx
    | _ => exact hx

theorem Gated.reset (names : List String) (st : RegistryState) : Gated names st.reset 0 where
  touched := fun x hx => by simp [Touched, RegistryState.reset, Finmap.notMem_empty] at hx
  jobs := by simp

theorem Gated.command {names : List String} {st : RegistryState} {J : Multiset JobSpec} (h : Gated names st J)
    (c : ServiceCommand) (now : Instant) : Gated names (st.handle c now) (if c = .reset then 0 else J) := by
  cases c with
  | bootstrapCompleted =>
    refine h.mono (fun _ => rfl) le_rfl (fun x hx => Or.inl ?_)
    exact hx.mono (fun h => absurd h (Finset.notMem_empty x)) id id id id (fun h => absurd h Finmap.notMem_empty)
  | tick => exact h
  | reannounce =>
    refine h.mono id le_rfl (fun x hx => Or.inl ?_)
    exact hx.mono (fun h => absurd h (Finset.notMem_empty x)) id id id id (fun h => absurd h Finmap.notMem_empty)
  | refreshTypes => exact h.mono id le_rfl (fun x hx => Or.inl hx)
  | reset => exact Gated.reset names st
  | relayStateChanged needRelay active =>
    simp only [handle, reduceCtorEq, if_false]
    rcases relayStateChanged_cases st needRelay active with ⟨-, hst⟩ | ⟨-, -, hst⟩ | ⟨-, -, hst⟩ <;> rw [hst]
    · exact h.mono id le_rfl (fun x hx => Or.inl hx)
    · refine h.mono id le_rfl (fun x hx => Or.inl ?_)
      exact hx.mono (fun h => absurd h (Finset.notMem_empty x)) id (fun h => absurd h (Finset.notMem_empty x)) id id
        (fun h => absurd h Finmap.notMem_empty)
    · refine h.mono id le_rfl (fun x hx => Or.inl ?_)
      simp only [Touched, Finset.mem_union, Finmap.notMem_empty, or_false] at hx ⊢
      tauto

theorem Gated.readiness {names : List String} {st : RegistryState} {J : Multiset JobSpec} (h : Gated names st J)
    (ready : Finset String) (now : Instant) : Gated names (st.replaceBackendReady ready now) J := by
  refine h.mono id le_rfl (fun x hx => Or.inl ?_)
  simp only [Touched, replaceBackendReady, Dict.mem_orInsertAll, Dict.mem_eraseAll, List.mem_filter,
    decide_eq_true_eq] at hx ⊢
  tauto

/-! ## Runs -/

/-- The local services are these, whenever a planning call reads them. -/
def FixedServices (services : List LocalServiceEntry) (_ : System) : Event → Prop
  | .plan env _ _ => env.config.dispatcher.localServices = services
  | _             => True

instance (services : List LocalServiceEntry) (s : System) : ∀ e : Event, Decidable (FixedServices services s e)
  | .plan env _ _     => inferInstanceAs (Decidable (env.config.dispatcher.localServices = services))
  | .command _ _      => .isTrue trivial
  | .readiness _ _    => .isTrue trivial
  | .complete _ _ _ _ => .isTrue trivial
  | .stale _ _ _      => .isTrue trivial

def validNames (services : List LocalServiceEntry) : List String :=
  (services.map (·.name)).filter Auth.isValidServiceName

/-- The services an event reads from the configuration. -/
def Event.names : Event → List String
  | .plan env _ _ => localNames env.config
  | _             => []

theorem gated_next {names : List String} {s s' : System} {e : Event} (h : Gated names s.reg s.jobs)
    (hnames : ∀ x ∈ e.names, x ∈ names) (hs : registry.step s e = some s') : Gated names s'.reg s'.jobs := by
  obtain ⟨-, hen, rfl⟩ := step_eq_some.1 hs
  cases e with
  | command c now => exact h.command c now
  | readiness ready now => exact h.readiness ready now
  | plan env now slots => exact h.plan env hnames now slots
  | complete env job result now =>
    simp only [enabled, Bool.and_eq_true, decide_eq_true_eq] at hen
    refine h.mono (fun hb => (apply_standing env s.reg now result).bootstrapped.trans hb) (Multiset.erase_le _ _) ?_
    intro x hx
    rcases touched_apply hx with hx | ⟨-, hx⟩
    · exact Or.inl hx
    · exact Or.inr ⟨job, hen.1, serves_of_answers hen.2 hx⟩
  | stale env result now =>
    refine h.mono (fun hb => (apply_standing env s.reg now result).bootstrapped.trans hb) le_rfl (fun x hx => Or.inl ?_)
    rcases touched_apply hx with hx | ⟨hgen, -⟩
    · exact hx
    · simp [enabled, hgen] at hen

theorem gated_step (services : List LocalServiceEntry) (s : System) (e : Event) (s' : System)
    (h : Gated (validNames services) s.reg s.jobs) (hok : FixedServices services s e)
    (hs : registry.step s e = some s') : Gated (validNames services) s'.reg s'.jobs := by
  refine gated_next h (fun x hx => ?_) hs
  cases e with
  | plan env now slots =>
    rw [Event.names, localNames] at hx
    rwa [show env.config.dispatcher.localServices = services from hok] at hx
  | _ => cases hx

/-- **In every run only services that a planning call found in the configuration are touched**, whatever the
configuration was then. -/
theorem gated_run {es : List Event} {s : System} (hr : registry.run es = some s) :
    Gated (es.flatMap Event.names) s.reg s.jobs := by
  have hmeets : registry.Meets (fun _ e => ∀ x ∈ e.names, x ∈ es.flatMap Event.names) registry.init es :=
    registry.meets_of_forall (fun e he x hx => List.mem_flatMap.2 ⟨e, he, hx⟩) _
  exact registry.invariant_from (P := fun s => Gated (es.flatMap Event.names) s.reg s.jobs)
    (fun _ _ _ h hnames hs => gated_next h hnames hs) es registry.init s (Gated.new _) hmeets hr

theorem valid_of_mem_names {es : List Event} {x : String} (hx : x ∈ es.flatMap Event.names) :
    Auth.isValidServiceName x = true := by
  obtain ⟨e, -, hx⟩ := List.mem_flatMap.1 hx
  cases e with
  | plan env now slots => exact (List.mem_filter.1 hx).2
  | _ => cases hx

/-! ## Announcements -/

/-- What the two announcing passes test, read in the state at the call. -/
structure Passed (env : Env) (st : RegistryState) (x : String) : Prop where
  free : st.inFlight x = false
  relayReady : st.relayReady = true
  backendReady : x ∈ st.backendReady
  notAnnounced : x ∉ st.announced
  which : x ∈ st.announceRetryAt ∧ x ∉ st.relayWithdraw ∨ st.bootstrapped = true ∧ x ∈ localNames env.config

theorem PlanStep.inFlight_before {env : Env} {now : Instant} {st₀ a b : RegistryState} {o : Option JobSpec}
    (hs : PlanStep env now st₀ a o b) {y : String} (hy : b.inFlight y = false) : a.inFlight y = false := by
  rw [inFlight_eq_false] at hy ⊢
  cases hs with
  | withdraw s due free =>
    simp only [startWithdraw, Finset.mem_insert, not_or] at hy
    exact ⟨hy.1.2, hy.2⟩
  | retry | announce =>
    simp only [startAnnounce, Finset.mem_insert, not_or] at hy
    exact ⟨hy.1, hy.2.2⟩
  | readTypes | writeTypes | dropWrite => exact hy

theorem PlanStep.passed {env : Env} {now : Instant} {st a b : RegistryState} {o : Option JobSpec}
    (hs : PlanStep env now st a o b) (hk : Kept st a) (hfree : ∀ y, a.inFlight y = false → st.inFlight y = false) :
    ∀ j ∈ o, ∀ x, j.kind = .announce x → Passed env st x := by
  intro j hj x hx
  cases hs with
  | retry s due free =>
    cases hj
    obtain rfl : s = x := by simpa [announceJob, JobSpec.kind] using hx
    obtain ⟨hmem, hrelay, hup, hann, hwith⟩ := Finset.mem_filter.1 due
    exact ⟨hfree s free, hrelay, hup, hann, Or.inl ⟨Dict.mem_of_mem_due hmem, hwith⟩⟩
  | announce s boot relay mine go =>
    cases hj
    obtain rfl : s = x := by simpa [announceJob, JobSpec.kind] using hx
    obtain ⟨hfr, hup, hann, -⟩ := skipAnnounce_iff.1 go
    exact ⟨hfree s hfr, relay, hk.backendReady ▸ hup, hk.announced ▸ hann, Or.inr ⟨boot, mine⟩⟩
  | withdraw | readTypes | writeTypes => cases hj; cases hx
  | dropWrite ready pending => cases hj

theorem announce_mem_plan {env : Env} {st : RegistryState} {now : Instant} {slots : Nat} {j : JobSpec} {x : String}
    (hj : j ∈ (st.plan env now slots).1) (hx : j.kind = .announce x) : Passed env st x := by
  -- a service that is free at its step is free at the call
  have key := (plan_steps env st now slots).1.invariant (J := 0)
    (P := fun a J => (∀ y, a.inFlight y = false → st.inFlight y = false) ∧
      ∀ j ∈ J, ∀ x, j.kind = .announce x → Passed env st x)
    (fun a o b J hk hs hP => ?_) ⟨fun _ => id, by simp⟩
  · exact key.2 j (by simpa using hj) x hx
  · refine ⟨fun y hy => hP.1 y (PlanStep.inFlight_before hs hy), fun i hi => ?_⟩
    rcases Multiset.mem_add.1 hi with hi | hi
    · exact hP.2 i hi
    · exact PlanStep.passed hs hk hP.1 i (Option.mem_toList.1 (Multiset.mem_coe.1 hi))

/-- **The gate an announcement has passed.** -/
structure MayAnnounce (services : List LocalServiceEntry) (st : RegistryState) (x : String) : Prop where
  bootstrapped : st.bootstrapped = true
  relayReady : st.relayReady = true
  backendReady : x ∈ st.backendReady
  configured : x ∈ services.map (·.name)
  valid : Auth.isValidServiceName x = true
  notAnnounced : x ∉ st.announced
  notWithdrawn : x ∉ st.relayWithdraw
  free : st.inFlight x = false

/-- **Every announcement that is planned has passed the gate in the state at the call**; and where no result outlives a
`Reset`, no job for the service is running then. -/
theorem announce_gated (services : List LocalServiceEntry) (es : List Event) (s : System) (hr : registry.run es = some s)
    (hok : registry.Meets (FixedServices services) registry.init es) (env : Env)
    (henv : env.config.dispatcher.localServices = services) (now : Instant) (slots : Nat) :
    ∀ j ∈ (s.reg.plan env now slots).1, ∀ x, j.kind = .announce x → MayAnnounce services s.reg x ∧
      (registry.Meets Fresh registry.init es → ∀ i ∈ s.jobs, ¬ i.serves x) := by
  intro j hj x hx
  have hgated := registry.invariant_from (gated_step services) es registry.init s (Gated.new _) hok hr
  have hrelay := reachable_relayInv ⟨es, hr⟩
  obtain ⟨hfree, hready, hup, hann, hwhich⟩ := announce_mem_plan hj hx
  have hgate : x ∈ validNames services ∧ s.reg.bootstrapped = true := by
    rcases hwhich with ⟨hretry, -⟩ | ⟨hboot, hmine⟩
    · exact hgated.touched x (by simp [Touched, hretry])
    · unfold localNames at hmine
      rw [henv] at hmine
      exact ⟨hmine, hboot⟩
  obtain ⟨hname, hboot⟩ := hgate
  obtain ⟨hconf, hvalid⟩ := List.mem_filter.1 hname
  have hempty := hrelay.ready hready
  refine ⟨⟨hboot, hready, hup, hconf, hvalid, hann, by simp [hempty], hfree⟩, fun hfresh i hi hserves => ?_⟩
  have hmark := (tracks_run hr hfresh).marks_of_mem hi
  obtain ⟨hnw, hna⟩ := inFlight_eq_false.1 hfree
  rcases hserves with hk | hk <;> rw [hk] at hmark
  · exact hna (by simpa [RegistryState.marks] using hmark)
  · exact hnw (by simpa [RegistryState.marks] using hmark)

/-- After the bootstrap `cmd`, which is up, is announced, through the gate. -/
theorem first_announce_gated : ∃ s, registry.run [.readiness {"cmd"} 0, .command .bootstrapCompleted 0] = some s ∧
    announceJob 0 "cmd" ∈ (s.reg.plan cmdEnv 0 4).1 ∧ MayAnnounce [⟨"cmd", 6000, false⟩] s.reg "cmd" := by
  obtain ⟨s, hr, hs⟩ := registry.exists_of_check (fun s => decide (announceJob 0 "cmd" ∈ (s.reg.plan cmdEnv 0 4).1))
    [.readiness {"cmd"} 0, .command .bootstrapCompleted 0] (by decide +kernel)
  have hj := of_decide_eq_true hs
  exact ⟨s, hr, hj, (announce_gated [⟨"cmd", 6000, false⟩] _ s hr (by decide +kernel) cmdEnv rfl 0 4 _ hj "cmd" rfl).1⟩

end Registry
end NexusNet
