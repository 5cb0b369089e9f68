import NexusNet.RegistrySystem
/-!
# RegistryRelay — nothing stays announced without a relay

While no relay is ready, every announced service is in `relay_withdraw`, and a service leaves that set only by its
withdrawal, a recovered relay or a `Reset`.  A planning call withdraws each of them that has no job running, except for
five seconds after its last failed withdrawal.
-/
namespace NexusNet
namespace Registry

open RegistryState

/-- **The relay invariant.**  The retry times are those of failures that were seen, and no failure is ahead of the
clock. -/
structure RelayInv (s : System) : Prop where
  lost : s.reg.relayReady = false → s.reg.announced ⊆ s.reg.relayWithdraw
  ready : s.reg.relayReady = true → s.reg.relayWithdraw = ∅
  retry : ∀ x t, s.reg.relayWithdrawRetryAt.lookup x = some t →
    ∃ f, s.failedAt.lookup x = some f ∧ t ≤ f + announceRetryInitial
  past : ∀ x f, s.failedAt.lookup x = some f → f ≤ s.clock

theorem RelayInv.new : RelayInv System.new where
  lost := by simp [System.new, RegistryState.new]
  ready := by simp [System.new, RegistryState.new]
  retry := by simp [System.new, RegistryState.new]
  past := by simp [System.new]

/-! ## Failures -/

theorem noteFailed_lookup (now : Instant) (failedAt : Dict String Instant) (r : JobResult) (x : String) :
    (noteFailed now failedAt r).lookup x = failedAt.lookup x ∨ (noteFailed now failedAt r).lookup x = some now := by
  unfold noteFailed
  split
  · rename_i s _
    rw [Dict.lookup_insert_ite]
    split
    · exact Or.inr rfl
    · exact Or.inl rfl
  · exact Or.inl rfl

theorem noteFailed_past {s : System} {now : Instant} (h : RelayInv s) (hclock : s.clock ≤ now) (r : JobResult) :
    ∀ x f, (noteFailed now s.failedAt r).lookup x = some f → f ≤ now := by
  intro x f hf
  rcases noteFailed_lookup now s.failedAt r x with hx | hx
  · rw [hx] at hf
    exact (h.past x f hf).trans hclock
  · rw [hx] at hf
    cases hf
    exact le_refl now

/-- A retry time that is there already is still bounded after a result. -/
theorem noteFailed_retry {s : System} {now : Instant} (h : RelayInv s) (hclock : s.clock ≤ now) (r : JobResult) :
    ∀ x t, s.reg.relayWithdrawRetryAt.lookup x = some t →
      ∃ f, (noteFailed now s.failedAt r).lookup x = some f ∧ t ≤ f + announceRetryInitial := by
  intro x t ht
  obtain ⟨f, hf, hle⟩ := h.retry x t ht
  rcases noteFailed_lookup now s.failedAt r x with hx | hx
  · exact ⟨f, hx.trans hf, hle⟩
  · exact ⟨now, hx, hle.trans (Nat.add_le_add_right ((h.past x f hf).trans hclock) _)⟩

theorem retry_erase {m failedAt : Dict String Instant} {bound : Nat} (s : String)
    (h : ∀ x t, m.lookup x = some t → ∃ f, failedAt.lookup x = some f ∧ t ≤ f + bound) :
    ∀ x t, (m.erase s).lookup x = some t → ∃ f, failedAt.lookup x = some f ∧ t ≤ f + bound := by
  intro x t ht
  rw [Dict.lookup_erase_ite] at ht
  split at ht
  · cases ht
  · exact h x t ht

/-! ## Steps -/

theorem RelayInv.result {s : System} (h : RelayInv s) {env : Env} {now : Instant} {r : JobResult}
    (hclock : s.clock ≤ now) (jobs : Multiset JobSpec) (provided : Finset String) :
    RelayInv ⟨s.reg.apply env now r, jobs, now, provided, noteFailed now s.failedAt r⟩ := by
  have happ := apply_applied env s.reg now r
  have hpast := noteFailed_past h hclock r
  have hretry := noteFailed_retry h hclock r
  generalize s.reg.apply env now r = st' at happ
  cases happ with
  | announcedNoRelay x relay =>
    refine ⟨fun _ => Finset.insert_subset_insert x (h.lost relay), fun hready => ?_, hretry, hpast⟩
    exact absurd (relay.symm.trans hready) (by simp)
  | announcedUp _ relay | announcedDown _ relay =>
    refine ⟨fun hlost => ?_, h.ready, hretry, hpast⟩
    exact absurd (relay.symm.trans hlost) (by simp)
  | withdrawnUp x | withdrawnDown x =>
    refine ⟨fun hlost => Finset.erase_subset_erase x (h.lost hlost), fun hready => ?_, retry_erase x hretry, hpast⟩
    rw [h.ready hready, Finset.erase_empty]
  | withdrawFailedRelay x error forced =>
    refine ⟨h.lost, h.ready, fun y t ht => ?_, hpast⟩
    rw [Dict.lookup_insert_ite] at ht
    split at ht
    · rename_i hy
      subst hy
      cases ht
      exact ⟨now, by simp [noteFailed], le_refl _⟩
    · exact hretry y t ht
  | _ => exact ⟨h.lost, h.ready, hretry, hpast⟩

theorem PlanStep.relayWithdrawRetryAt {env : Env} {now : Instant} {st₀ a b : RegistryState} {o : Option JobSpec}
    (hs : PlanStep env now st₀ a o b) {x : String} {t : Instant} (h : b.relayWithdrawRetryAt.lookup x = some t) :
    a.relayWithdrawRetryAt.lookup x = some t := by
  cases hs with
  | withdraw s due free =>
    simp only [startWithdraw, Dict.lookup_erase_ite] at h
    split at h
    · cases h
    · exact h
  | _ => exact h

theorem plan_relayWithdrawRetryAt (env : Env) (st : RegistryState) (now : Instant) (slots : Nat) {x : String}
    {t : Instant} (h : (st.plan env now slots).2.relayWithdrawRetryAt.lookup x = some t) :
    st.relayWithdrawRetryAt.lookup x = some t :=
  (plan_steps env st now slots).1.invariant (J := 0)
    (P := fun st' _ => st'.relayWithdrawRetryAt.lookup x = some t → st.relayWithdrawRetryAt.lookup x = some t)
    (fun _ _ _ _ _ hs hP hb => hP (PlanStep.relayWithdrawRetryAt hs hb)) id h

theorem RelayInv.relayStateChanged {s : System} (h : RelayInv s) (needRelay : Bool) (active : Nat) {now : Instant}
    (hclock : s.clock ≤ now) : RelayInv { s with reg := s.reg.relayStateChanged needRelay active, clock := now } := by
  have hpast := fun x f hf => (h.past x f hf).trans hclock
  have hnew := @relayReady_eq_true { s.reg with needRelay := needRelay, activeRelays := active }
  rcases relayStateChanged_cases s.reg needRelay active with ⟨heq, hst⟩ | ⟨hwas, hnow, hst⟩ | ⟨hwas, hnow, hst⟩
  · rw [hst]
    exact ⟨fun hlost => h.lost (heq.trans hlost), fun hready => h.ready (heq.trans hready), h.retry, hpast⟩
  · rw [hst]
    exact ⟨fun _ => Finset.empty_subset _, fun _ => rfl, fun x t ht => by simp at ht, hpast⟩
  · rw [hst]
    refine ⟨fun _ => ?_, fun hready => absurd (hnew.1 hready) hnow, h.retry, hpast⟩
    exact fun x hx => Finset.mem_union_right _ (Finset.mem_union_left _ hx)

theorem RelayInv.step (s : System) (e : Event) (s' : System) (h : RelayInv s) (hs : registry.step s e = some s') :
    RelayInv s' := by
  obtain ⟨hclock, -, rfl⟩ := step_eq_some.1 hs
  cases e with
  | command c now =>
    have hpast := fun x f hf => (h.past x f hf).trans hclock
    cases c with
    | bootstrapCompleted | reannounce => exact ⟨fun _ => Finset.empty_subset _, h.ready, h.retry, hpast⟩
    | tick => exact ⟨h.lost, h.ready, h.retry, hpast⟩
    | refreshTypes => exact ⟨h.lost, h.ready, h.retry, hpast⟩
    | reset =>
      exact ⟨fun _ => Finset.empty_subset _, fun _ => rfl, fun x t ht => by simp [next, handle, reset] at ht, hpast⟩
    | relayStateChanged needRelay active => exact h.relayStateChanged needRelay active hclock
  | readiness ready now => exact ⟨h.lost, h.ready, h.retry, fun x f hf => (h.past x f hf).trans hclock⟩
  | plan env now slots =>
    have hk := plan_kept env s.reg now slots
    refine ⟨fun hlost => ?_, fun hready => ?_, fun x t ht => ?_, fun x f hf => (h.past x f hf).trans hclock⟩
    · simp only [next] at hlost ⊢
      rw [hk.announced, hk.relayWithdraw]
      exact h.lost (hk.relayReady ▸ hlost)
    · simp only [next] at hready ⊢
      rw [hk.relayWithdraw]
      exact h.ready (hk.relayReady ▸ hready)
    · exact h.retry x t (plan_relayWithdrawRetryAt env s.reg now slots ht)
  | complete | stale => exact h.result hclock _ _

theorem reachable_relayInv {s : System} (h : registry.Reachable s) : RelayInv s :=
  registry.reachable_invariant RelayInv.new RelayInv.step h

/-! ## Leaving `relay_withdraw` -/

/-- **What takes a service out of `relay_withdraw`**: its withdrawal that completes, a relay that becomes ready, and a
`Reset`. -/
def Releases (x : String) (s s' : System) (e : Event) : Prop :=
  (∃ env key now, e = .complete env (.withdraw s.reg.generation x key) (.withdrawn s.reg.generation x (.ok ())) now) ∨
  (∃ needRelay active now, e = .command (.relayStateChanged needRelay active) now ∧ s.reg.relayReady = false ∧
    s'.reg.relayReady = true) ∨
  ∃ now, e = .command .reset now

/-- A result takes a service out only if it is its successful withdrawal of this generation. -/
theorem relayWithdraw_apply {env : Env} {st : RegistryState} {now : Instant} {r : JobResult} {x : String}
    (hx : x ∈ st.relayWithdraw) (hx' : x ∉ (st.apply env now r).relayWithdraw) :
    r = .withdrawn st.generation x (.ok ()) := by
  have happ := apply_applied env st now r
  generalize st.apply env now r = st' at happ hx'
  cases happ with
  | announcedNoRelay y relay => exact absurd (Finset.mem_insert_of_mem hx) hx'
  | withdrawnUp y | withdrawnDown y =>
    obtain rfl : x = y := by
      by_contra hy
      exact hx' (Finset.mem_erase.2 ⟨hy, hx⟩)
    rfl
  | _ => exact absurd hx hx'

theorem releases_of_step {s s' : System} {e : Event} {x : String} (hs : registry.step s e = some s')
    (hx : x ∈ s.reg.relayWithdraw) (hx' : x ∉ s'.reg.relayWithdraw) : Releases x s s' e := by
  obtain ⟨-, hen, rfl⟩ := step_eq_some.1 hs
  cases e with
  | command c now =>
    cases c with
    | reset => exact Or.inr (Or.inr ⟨now, rfl⟩)
    | relayStateChanged needRelay active =>
      rcases relayStateChanged_cases s.reg needRelay active with ⟨heq, hst⟩ | ⟨hwas, hnow, hst⟩ | ⟨hwas, hnow, hst⟩
      · simp only [next, handle, hst] at hx'
        exact absurd hx hx'
      · refine Or.inr (Or.inl ⟨needRelay, active, now, rfl, hwas, ?_⟩)
        simp only [next, handle, hst]
        exact relayReady_eq_true.2 hnow
      · simp only [next, handle, hst] at hx'
        exact absurd (Finset.mem_union_left _ hx) hx'
    | _ => exact absurd hx hx'
  | readiness ready now => exact absurd hx hx'
  | plan env now slots =>
    simp only [next] at hx'
    rw [(plan_kept env s.reg now slots).relayWithdraw] at hx'
    exact absurd hx hx'
  | complete env job result now =>
    have hr := relayWithdraw_apply hx hx'
    subst hr
    simp only [enabled, Bool.and_eq_true, decide_eq_true_eq] at hen
    cases job with
    | withdraw g y key =>
      obtain ⟨rfl, rfl⟩ : s.reg.generation = g ∧ x = y := by simpa [JobResult.answers] using hen.2
      exact Or.inl ⟨env, key, now, rfl⟩
    | _ => exact absurd hen.2 (by simp [JobResult.answers])
  | stale env result now =>
    have hr := relayWithdraw_apply hx hx'
    subst hr
    simp [enabled, JobResult.generation] at hen

/-! ## The main statement -/

/-- **No service stays announced without a relay**, in a state of the registry. -/
structure RelayGated (s : System) : Prop where
  lost : s.reg.relayReady = false → s.reg.announced ⊆ s.reg.relayWithdraw
  leaves : ∀ e s' x, registry.step s e = some s' → x ∈ s.reg.relayWithdraw → x ∉ s'.reg.relayWithdraw →
    Releases x s s' e
  ready : s.reg.relayReady = true → s.reg.relayWithdraw = ∅
  withdraws : s.reg.relayReady = false → ∀ env now slots, (s.reg.dueWithdrawals now).card ≤ slots →
    ∀ x ∈ s.reg.relayWithdraw, s.reg.inFlight x = false →
      (∀ f, s.failedAt.lookup x = some f → f + secs 5 ≤ now) →
      withdrawJob s.reg.generation x ∈ (s.reg.plan env now slots).1

theorem reachable_relayGated (s : System) (h : registry.Reachable s) : RelayGated s := by
  have hinv := reachable_relayInv h
  refine ⟨hinv.lost, fun e s' x hs hx hx' => releases_of_step hs hx hx', hinv.ready, ?_⟩
  intro _ env now slots hslots x hx hfree hold
  refine withdraw_mem_plan env s.reg now slots x hslots ?_ hfree
  refine Finset.mem_union_right _ (Finset.mem_filter.2 ⟨hx, fun t ht => ?_⟩)
  obtain ⟨f, hf, hle⟩ := hinv.retry x t ht
  exact hle.trans (hold f hf)

/-- `cmd` is announced through a relay, the relay is lost, and the first withdrawal fails at 10 s. -/
def relayLostRun : List Event :=
  [.readiness {"cmd"} 0, .command (.relayStateChanged true 1) 0, .command .bootstrapCompleted 0, .plan cmdEnv 0 4,
    .complete cmdEnv (announceJob 0 "cmd") (.announced 0 "cmd" (.ok ())) 0,
    .command (.relayStateChanged true 0) (secs 9), .plan cmdEnv (secs 9) 4,
    .complete cmdEnv (withdrawJob 0 "cmd") (.withdrawn 0 "cmd" (.error "timeout")) (secs 10)]

/-- At 15 s `cmd` is withdrawn again. -/
theorem relayLost_withdrawn_again : ∃ s, registry.run relayLostRun = some s ∧ s.reg.relayReady = false ∧
    s.reg.announced = {"cmd"} ∧ withdrawJob 0 "cmd" ∈ (s.reg.plan cmdEnv (secs 15) 4).1 := by
  obtain ⟨s, hr, hs⟩ := registry.exists_of_check (fun s => decide (s.reg.relayReady = false ∧ s.reg.announced = {"cmd"} ∧
    s.reg.generation = 0 ∧ (s.reg.dueWithdrawals (secs 15)).card ≤ 4 ∧ "cmd" ∈ s.reg.relayWithdraw ∧
    s.reg.inFlight "cmd" = false ∧ s.failedAt.lookup "cmd" = some (secs 10))) relayLostRun (by decide +kernel)
  obtain ⟨hlost, hann, hgen, hslots, hmem, hfree, hfail⟩ := of_decide_eq_true hs
  refine ⟨s, hr, hlost, hann, ?_⟩
  have := (reachable_relayGated s ⟨relayLostRun, hr⟩).withdraws hlost cmdEnv (secs 15) 4 hslots "cmd" hmem hfree
    (fun f hf => by rw [hfail] at hf; cases hf; decide)
  rwa [hgen] at this

end Registry
end NexusNet
