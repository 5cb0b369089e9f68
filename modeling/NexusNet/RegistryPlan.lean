import NexusNet.Registry
/-!
# RegistryPlan — what a planning call does, one job at a time

`plan` is a sequence of single steps, each starting one job (or dropping an empty type write), read against the state at
the call (`plan_steps`).  Everything about `plan` is derived from the steps: the fields it leaves alone (`Kept`), the
number of its jobs (`plan_length`), and, by `PlanSteps.invariant`, what every step keeps.
-/
namespace NexusNet
namespace Registry

namespace RegistryState

/-- The fields no planning step writes. -/
structure Kept (st st' : RegistryState) : Prop where
  bootstrapped : st'.bootstrapped = st.bootstrapped
  needRelay : st'.needRelay = st.needRelay
  activeRelays : st'.activeRelays = st.activeRelays
  backendReady : st'.backendReady = st.backendReady
  announced : st'.announced = st.announced
  relayWithdraw : st'.relayWithdraw = st.relayWithdraw
  announceFailures : st'.announceFailures = st.announceFailures
  knownTypes : st'.knownTypes = st.knownTypes
  generation : st'.generation = st.generation

theorem Kept.refl (st : RegistryState) : Kept st st := ⟨rfl, rfl, rfl, rfl, rfl, rfl, rfl, rfl, rfl⟩

theorem Kept.trans {a b c : RegistryState} (h : Kept a b) (h' : Kept b c) : Kept a c where
  bootstrapped := h'.bootstrapped.trans h.bootstrapped
  needRelay := h'.needRelay.trans h.needRelay
  activeRelays := h'.activeRelays.trans h.activeRelays
  backendReady := h'.backendReady.trans h.backendReady
  announced := h'.announced.trans h.announced
  relayWithdraw := h'.relayWithdraw.trans h.relayWithdraw
  announceFailures := h'.announceFailures.trans h.announceFailures
  knownTypes := h'.knownTypes.trans h.knownTypes
  generation := h'.generation.trans h.generation

theorem Kept.relayReady {a b : RegistryState} (h : Kept a b) : b.relayReady = a.relayReady := by
  unfold RegistryState.relayReady
  rw [h.needRelay, h.activeRelays]

theorem inFlight_eq_true {st : RegistryState} {s : String} :
    st.inFlight s = true ↔ s ∈ st.withdrawInflight ∨ s ∈ st.announceInflight := by
  simp [inFlight]

theorem inFlight_eq_false {st : RegistryState} {s : String} :
    st.inFlight s = false ↔ s ∉ st.withdrawInflight ∧ s ∉ st.announceInflight := by
  simp [inFlight]

/-- **One step of `plan`**, guarded by the state `st₀` at the call: the job it starts and the state after it. -/
inductive PlanStep (env : Env) (now : Instant) (st₀ : RegistryState) :
    RegistryState → Option JobSpec → RegistryState → Prop where
  | withdraw (st : RegistryState) (s : String) (due : s ∈ st₀.dueWithdrawals now) (free : st.inFlight s = false) :
      PlanStep env now st₀ st (some (withdrawJob st.generation s)) (st.startWithdraw s)
  | retry (st : RegistryState) (s : String) (due : s ∈ st₀.dueRetries now) (free : st.inFlight s = false) :
      PlanStep env now st₀ st (some (announceJob st.generation s)) (st.startAnnounce s)
  | announce (st : RegistryState) (s : String) (boot : st₀.bootstrapped = true) (relay : st₀.relayReady = true)
      (mine : s ∈ localNames env.config) (go : skipAnnounce now st s = false) :
      PlanStep env now st₀ st (some (announceJob st.generation s)) (st.startAnnounce s)
  | readTypes (st : RegistryState) (idle : st.reconcile = .idle) :
      PlanStep env now st₀ st (some (.readTypes st.generation))
        { st with nextTypesSync := none, reconcile := .reading, reconcileDirty := false }
  | writeTypes (st : RegistryState) (value : List UInt8) (ready : st.reconcile = .readyToWrite)
      (pending : st.pendingTypesWrite = some value) :
      PlanStep env now st₀ st (some (.writeTypes st.generation value))
        { st with pendingTypesWrite := none, reconcile := .writing }
  | dropWrite (st : RegistryState) (ready : st.reconcile = .readyToWrite) (pending : st.pendingTypesWrite = none) :
      PlanStep env now st₀ st none { st with reconcile := .idle }

/-- Steps one after another, with the jobs they start in order. -/
inductive PlanSteps (env : Env) (now : Instant) (st₀ : RegistryState) :
    RegistryState → List JobSpec → RegistryState → Prop where
  | nil (st : RegistryState) : PlanSteps env now st₀ st [] st
  | cons {a b c : RegistryState} {o : Option JobSpec} {js : List JobSpec} (head : PlanStep env now st₀ a o b)
      (tail : PlanSteps env now st₀ b js c) : PlanSteps env now st₀ a (o.toList ++ js) c

variable {env : Env} {now : Instant} {st₀ : RegistryState}

theorem PlanStep.kept {a b : RegistryState} {o : Option JobSpec} (h : PlanStep env now st₀ a o b) : Kept a b := by
  cases h <;> exact ⟨rfl, rfl, rfl, rfl, rfl, rfl, rfl, rfl, rfl⟩

theorem PlanSteps.kept {a b : RegistryState} {js : List JobSpec} (h : PlanSteps env now st₀ a js b) : Kept a b := by
  induction h with
  | nil st => exact Kept.refl st
  | cons head _ ih => exact head.kept.trans ih

theorem PlanSteps.append {a b c : RegistryState} {js ks : List JobSpec} (h : PlanSteps env now st₀ a js b)
    (h' : PlanSteps env now st₀ b ks c) : PlanSteps env now st₀ a (js ++ ks) c := by
  induction h with
  | nil st => exact h'
  | cons head _ ih => rw [List.append_assoc]; exact .cons head (ih h')

theorem PlanStep.one {a b : RegistryState} {o : Option JobSpec} (h : PlanStep env now st₀ a o b) :
    PlanSteps env now st₀ a o.toList b := by
  have := PlanSteps.cons h (PlanSteps.nil b)
  rwa [List.append_nil] at this

/-- **What every planning step keeps, `plan` keeps**: `P` relates the state to the jobs started so far. -/
theorem PlanSteps.invariant {P : RegistryState → Multiset JobSpec → Prop} {a b : RegistryState} {js : List JobSpec}
    (hstep : ∀ (st : RegistryState) (o : Option JobSpec) (st' : RegistryState) (J : Multiset JobSpec),
      Kept a st → PlanStep env now st₀ st o st' → P st J → P st' (J + (o.toList : Multiset JobSpec)))
    (h : PlanSteps env now st₀ a js b) {J : Multiset JobSpec} (hP : P a J) : P b (J + (js : Multiset JobSpec)) := by
  induction h generalizing J with
  | nil st => simpa using hP
  | cons head _ ih =>
    have := ih (fun st o st' J hk => hstep st o st' J (head.kept.trans hk)) (hstep _ _ _ J (Kept.refl _) head hP)
    rwa [add_assoc, Multiset.coe_add] at this

/-! ## The loops -/

/-- **A scheduling loop is a run of steps**, one for each service it does not pass over: the jobs are appended in order
and each takes a slot. -/
theorem pass_steps (env : Env) (now : Instant) (st₀ : RegistryState) (skip : RegistryState → String → Bool)
    (start : RegistryState → String → RegistryState) (job : UInt64 → String → JobSpec) : ∀ (l : List String) (p : Planner), Kept st₀ p.st →
    (∀ s ∈ l, ∀ st, Kept st₀ st → skip st s = false →
      PlanStep env now st₀ st (some (job st.generation s)) (start st s)) →
    ∃ js, (pass skip start job l p).jobs = p.jobs ++ js ∧ PlanSteps env now st₀ p.st js (pass skip start job l p).st ∧
      js.length + (pass skip start job l p).slots = p.slots
  | [], p, _, _ => ⟨[], by simp [pass], .nil _, by simp [pass]⟩
  | s :: rest, p, hk, h => by
    unfold pass
    have hrest := fun s' hs' => h s' (List.mem_cons_of_mem s hs')
    split
    · exact ⟨[], by simp, .nil _, by simp⟩
    · rename_i hslots
      split
      · exact pass_steps env now st₀ skip start job rest p hk hrest
      · rename_i hskip
        have hone := h s List.mem_cons_self p.st hk (by simpa using hskip)
        obtain ⟨js, hj, hsteps, hlen⟩ := pass_steps env now st₀ skip start job rest
          ⟨start p.st s, p.slots - 1, p.jobs ++ [job p.st.generation s]⟩ (hk.trans hone.kept) hrest
        refine ⟨job p.st.generation s :: js, by rw [hj]; simp, .cons hone hsteps, ?_⟩
        simp only [List.length_cons] at hlen ⊢
        omega

theorem jobs_subset_pass {skip : RegistryState → String → Bool} {start : RegistryState → String → RegistryState}
    {job : UInt64 → String → JobSpec} {j : JobSpec} : ∀ (l : List String) (p : Planner), j ∈ p.jobs →
    j ∈ (pass skip start job l p).jobs
  | [], _, h => h
  | s :: rest, p, h => by
    unfold pass
    split
    · exact h
    · split
      · exact jobs_subset_pass rest p h
      · exact jobs_subset_pass rest _ (by simp [h])

/-- **With a slot for each, no listed service is left out**: one that is not passed over gets its job. -/
theorem job_mem_pass (skip : RegistryState → String → Bool) (start : RegistryState → String → RegistryState)
    (job : UInt64 → String → JobSpec) {s : String} (hgen : ∀ st s', (start st s').generation = st.generation)
    (hskip : ∀ st s', s' ≠ s → skip (start st s') s = skip st s) : ∀ (l : List String) (p : Planner), l.Nodup →
    l.length ≤ p.slots → s ∈ l → skip p.st s = false →
    job p.st.generation s ∈ (pass skip start job l p).jobs
  | [], _, _, _, hmem, _ => by cases hmem
  | x :: rest, p, hnd, hlen, hmem, hs => by
    rw [List.nodup_cons] at hnd
    simp only [List.length_cons] at hlen
    unfold pass
    rw [if_neg (by omega)]
    by_cases hx : x = s
    · subst hx
      rw [hs, if_neg (by simp)]
      exact jobs_subset_pass rest _ (by simp)
    · have hmem' : s ∈ rest := (List.mem_cons.1 hmem).resolve_left (Ne.symm hx)
      split
      · exact job_mem_pass skip start job hgen hskip rest p hnd.2 (by omega) hmem' hs
      · have := job_mem_pass skip start job hgen hskip rest ⟨start p.st x, p.slots - 1, p.jobs ++ [job p.st.generation x]⟩ hnd.2
          (by simp only; omega) hmem' (by rw [hskip _ _ hx]; exact hs)
        rwa [hgen] at this

/-! ## `plan` -/

theorem dueRetries_kept {a b : RegistryState} (hk : Kept a b) (hr : b.announceRetryAt = a.announceRetryAt) :
    b.dueRetries now = a.dueRetries now := by
  unfold dueRetries
  rw [hr, hk.relayReady, hk.backendReady, hk.announced, hk.relayWithdraw]

theorem withdrawPass_announceRetryAt : ∀ (l : List String) (p : Planner),
    (withdrawPass l p).st.announceRetryAt = p.st.announceRetryAt
  | [], _ => rfl
  | s :: rest, p => by
    unfold withdrawPass pass
    split
    · rfl
    · split
      · exact withdrawPass_announceRetryAt rest p
      · exact withdrawPass_announceRetryAt rest _

theorem reconcilePass_steps (env : Env) (now : Instant) (st₀ : RegistryState) (p : Planner) :
    ∃ js, (reconcilePass now p).jobs = p.jobs ++ js ∧ PlanSteps env now st₀ p.st js (reconcilePass now p).st ∧
      js.length ≤ p.slots := by
  unfold reconcilePass
  split
  · exact ⟨[], by simp, .nil _, by simp⟩
  · split
    · rename_i hr
      split
      · exact ⟨_, rfl, (PlanStep.readTypes p.st hr).one, by simp; omega⟩
      · exact ⟨[], by simp, .nil _, by simp⟩
    · rename_i hr
      split
      · rename_i value hp
        exact ⟨_, rfl, (PlanStep.writeTypes p.st value hr hp).one, by simp; omega⟩
      · rename_i hp
        exact ⟨[], by simp, (PlanStep.dropWrite p.st hr hp).one, by simp⟩
    · exact ⟨[], by simp, .nil _, by simp⟩
    · exact ⟨[], by simp, .nil _, by simp⟩

theorem firstAnnounces_steps (env : Env) (now : Instant) (st₀ : RegistryState) (p : Planner) (hk : Kept st₀ p.st) :
    ∃ js, (firstAnnounces env now p).jobs = p.jobs ++ js ∧
      PlanSteps env now st₀ p.st js (firstAnnounces env now p).st ∧
      js.length + (firstAnnounces env now p).slots = p.slots := by
  unfold firstAnnounces
  split
  · rename_i h
    refine pass_steps env now st₀ _ _ _ (localNames env.config) p hk (fun s hs a _ hgo => ?_)
    exact .announce a s (hk.bootstrapped ▸ h.1) (hk.relayReady ▸ h.2.1) hs hgo
  · exact ⟨[], by simp, .nil _, by simp⟩

/-- **`plan` is a run of planning steps with at most one job for each slot.** -/
theorem plan_steps (env : Env) (st : RegistryState) (now : Instant) (slots : Nat) :
    PlanSteps env now st st (st.plan env now slots).1 (st.plan env now slots).2 ∧
      (st.plan env now slots).1.length ≤ slots := by
  unfold plan
  simp only
  obtain ⟨js₁, hj₁, hs₁, hl₁⟩ := pass_steps env now st inFlight startWithdraw withdrawJob
    (sorted (st.dueWithdrawals now)) ⟨st, slots, []⟩ (Kept.refl st)
    (fun s hs a _ hfree => .withdraw a s (mem_sorted.1 hs) hfree)
  change (withdrawPass _ _).jobs = _ at hj₁
  change PlanSteps env now st st js₁ (withdrawPass _ _).st at hs₁
  change js₁.length + (withdrawPass _ _).slots = slots at hl₁
  have hr₁ := withdrawPass_announceRetryAt (sorted (st.dueWithdrawals now)) ⟨st, slots, []⟩
  generalize withdrawPass (sorted (st.dueWithdrawals now)) ⟨st, slots, []⟩ = p₁ at *
  have hk₁ := hs₁.kept
  obtain ⟨js₂, hj₂, hs₂, hl₂⟩ := pass_steps env now st inFlight startAnnounce announceJob
    (sorted (p₁.st.dueRetries now)) p₁ hk₁
    (fun s hs a _ hfree => .retry a s (dueRetries_kept hk₁ hr₁ ▸ mem_sorted.1 hs) hfree)
  change (retryPass _ _).jobs = _ at hj₂
  change PlanSteps env now st p₁.st js₂ (retryPass _ _).st at hs₂
  change js₂.length + (retryPass _ _).slots = _ at hl₂
  generalize retryPass (sorted (p₁.st.dueRetries now)) p₁ = p₂ at *
  obtain ⟨js₃, hj₃, hs₃, hl₃⟩ := firstAnnounces_steps env now st p₂ (hk₁.trans hs₂.kept)
  generalize firstAnnounces env now p₂ = p₃ at *
  obtain ⟨js₄, hj₄, hs₄, hl₄⟩ := reconcilePass_steps env now st p₃
  generalize reconcilePass now p₃ = p₄ at *
  have hjobs : p₄.jobs = js₁ ++ (js₂ ++ (js₃ ++ js₄)) := by rw [hj₄, hj₃, hj₂, hj₁]; simp
  rw [hjobs]
  refine ⟨hs₁.append (hs₂.append (hs₃.append hs₄)), ?_⟩
  simp only [List.length_append]
  omega

theorem plan_kept (env : Env) (st : RegistryState) (now : Instant) (slots : Nat) :
    Kept st (st.plan env now slots).2 := (plan_steps env st now slots).1.kept

/-- **A due withdrawal is planned** when there is a slot for each due service and no job for it is running. -/
theorem withdraw_mem_plan (env : Env) (st : RegistryState) (now : Instant) (slots : Nat) (s : String)
    (hslots : (st.dueWithdrawals now).card ≤ slots) (hdue : s ∈ st.dueWithdrawals now) (hfree : st.inFlight s = false) :
    withdrawJob st.generation s ∈ (st.plan env now slots).1 := by
  have hmem : withdrawJob st.generation s ∈
      (withdrawPass (sorted (st.dueWithdrawals now)) ⟨st, slots, []⟩).jobs := by
    refine job_mem_pass inFlight startWithdraw withdrawJob (fun _ _ => rfl) (fun a x hx => ?_) _ ⟨st, slots, []⟩ (nodup_sorted _)
      (by rw [length_sorted]; exact hslots) (mem_sorted.2 hdue) hfree
    rw [Bool.eq_iff_iff, inFlight_eq_true, inFlight_eq_true]
    simp [startWithdraw, Ne.symm hx]
  unfold plan
  simp only
  generalize withdrawPass (sorted (st.dueWithdrawals now)) ⟨st, slots, []⟩ = p₁ at *
  have hmem₂ : withdrawJob st.generation s ∈ (retryPass (sorted (p₁.st.dueRetries now)) p₁).jobs :=
    jobs_subset_pass _ _ hmem
  generalize retryPass (sorted (p₁.st.dueRetries now)) p₁ = p₂ at *
  obtain ⟨js₄, hj₄, -, -⟩ := reconcilePass_steps env now st (firstAnnounces env now p₂)
  rw [hj₄]
  refine List.mem_append_left _ ?_
  unfold firstAnnounces
  split
  · exact jobs_subset_pass _ _ hmem₂
  · exact hmem₂

end RegistryState
end Registry
end NexusNet
