import NexusNet.RegistryGate
/-!
# RegistryGrace — a withdrawal waits for its backend

The withdrawal of a service whose backend is down is a deadline: three seconds after the drop, five after a failed
withdrawal, at once when an announcement succeeds that came too late.  A deadline goes when the backend is back.  So while a
relay is ready a service is withdrawn only after three seconds without its backend, or when it was announced while the
backend was down already (`withdraw_graced`).
-/
namespace NexusNet
namespace Registry

open RegistryState

/-! ## What a deadline records -/

/-- The backend of the service is down. -/
def Down (x : String) (s : System) : Prop := x ∉ s.reg.backendReady

/-- **Down since a state of the run that is three seconds before the time**, at least. -/
def DownFor (es : List Event) (x : String) (t : Instant) : Prop :=
  ∃ pre post m, es = pre ++ post ∧ registry.run pre = some m ∧ registry.Throughout (Down x) m post ∧
    m.clock + withdrawGrace ≤ t

/-- **An announcement of the service succeeded while it was down**, and it has been down since. -/
def AnnouncedDown (es : List Event) (x : String) : Prop :=
  ∃ pre env job g now post m, es = pre ++ .complete env job (.announced g x (.ok ())) now :: post ∧
    registry.run pre = some m ∧
    registry.Throughout (Down x) m (.complete env job (.announced g x (.ok ())) now :: post)

section More

variable {es : List Event} {s : System} {e : Event} {x : String}

theorem DownFor.more {t : Instant} (h : DownFor es x t) (hr : registry.run (es ++ [e]) = some s) (hdown : Down x s) :
    DownFor (es ++ [e]) x t := by
  obtain ⟨pre, post, m, rfl, hm, hpost, hclock⟩ := h
  exact ⟨pre, post ++ [e], m, by simp, hm, Machine.Throughout.extend _ hpost hm hr hdown, hclock⟩

theorem AnnouncedDown.more (h : AnnouncedDown es x) (hr : registry.run (es ++ [e]) = some s) (hdown : Down x s) :
    AnnouncedDown (es ++ [e]) x := by
  obtain ⟨pre, env, job, g, now, post, m, rfl, hm, hpost⟩ := h
  exact ⟨pre, env, job, g, now, post ++ [e], m, by simp, hm, Machine.Throughout.extend _ hpost hm hr hdown⟩

/-- A service that is down now is down since now. -/
theorem DownFor.now {t : Instant} (hr : registry.run es = some s) (hdown : Down x s) (ht : s.clock + withdrawGrace ≤ t) :
    DownFor es x t :=
  ⟨es, [], s, (List.append_nil es).symm, hr, registry.throughout_nil.2 hdown, ht⟩

end More

/-! ## Where deadlines come from -/

section Steps

variable {s s' : System} {e : Event} {x : String} {t : Instant}

theorem PlanStep.deadline {env : Env} {now : Instant} {st₀ a b : RegistryState} {o : Option JobSpec}
    (hs : PlanStep env now st₀ a o b) (h : b.withdrawDeadline.lookup x = some t) :
    a.withdrawDeadline.lookup x = some t := by
  cases hs with
  | withdraw y due free =>
    simp only [startWithdraw, Dict.lookup_erase_ite] at h
    split at h
    · cases h
    · exact h
  | _ => exact h

theorem plan_deadline {env : Env} {st : RegistryState} {now : Instant} {slots : Nat}
    (h : (st.plan env now slots).2.withdrawDeadline.lookup x = some t) : st.withdrawDeadline.lookup x = some t :=
  (plan_steps env st now slots).1.invariant (J := 0)
    (P := fun st' _ => st'.withdrawDeadline.lookup x = some t → st.withdrawDeadline.lookup x = some t)
    (fun _ _ _ _ _ hs hP h' => hP (PlanStep.deadline hs h')) id h

theorem handle_deadline {st : RegistryState} {c : ServiceCommand} {now : Instant}
    (h : (st.handle c now).withdrawDeadline.lookup x = some t) : st.withdrawDeadline.lookup x = some t := by
  cases c with
  | reset => cases h
  | relayStateChanged needRelay active =>
    rwa [handle, (relayStateChanged_frame st needRelay active).withdrawDeadline] at h
  | _ => exact h

theorem handle_backendReady (st : RegistryState) (c : ServiceCommand) (now : Instant) :
    (st.handle c now).backendReady = st.backendReady := by
  cases c with
  | relayStateChanged needRelay active => exact (relayStateChanged_frame st needRelay active).backendReady
  | _ => rfl

/-- A readiness update keeps the deadlines of services that stay down and gives those that drop the grace. -/
theorem readiness_deadline {st : RegistryState} {ready : Finset String} {now : Instant}
    (h : (st.replaceBackendReady ready now).withdrawDeadline.lookup x = some t) :
    (st.withdrawDeadline.lookup x = some t ∧ (x ∈ ready → x ∈ st.backendReady)) ∨
      x ∉ ready ∧ t = now + withdrawGrace := by
  simp only [replaceBackendReady, Dict.lookup_orInsertAll, Dict.lookup_eraseAll] at h
  by_cases hup : x ∈ ready ∧ x ∉ st.backendReady
  · rw [if_pos (mem_sorted.2 (Finset.mem_sdiff.2 hup)), Option.none_or] at h
    split at h
    · rename_i hdown
      exact absurd hup.1 (Finset.mem_sdiff.1 (mem_sorted.1 (List.mem_of_mem_filter hdown))).2
    · cases h
  · rw [if_neg (fun hmem => hup (Finset.mem_sdiff.1 (mem_sorted.1 hmem)))] at h
    cases hold : st.withdrawDeadline.lookup x with
    | some t' =>
      rw [hold, Option.some_or] at h
      exact .inl ⟨h, fun hx => by_contra (fun hx' => hup ⟨hx, hx'⟩)⟩
    | none =>
      rw [hold, Option.none_or] at h
      split at h
      · rename_i hdown
        cases h
        exact .inr ⟨(Finset.mem_sdiff.1 (mem_sorted.1 (List.mem_of_mem_filter hdown))).2, rfl⟩
      · cases h

/-- A result gives a deadline to a service that is down: after a late announcement, or a failed withdrawal. -/
theorem Applied.deadline {st st' : RegistryState} {now : Instant} {r : JobResult} (happlied : Applied st now r st')
    (h : st'.withdrawDeadline.lookup x = some t) : st.withdrawDeadline.lookup x = some t ∨
      (¬ (x ∈ st.backendReady ∧ st.bootstrapped = true) ∧ r = .announced st.generation x (.ok ())) ∨
      (x ∉ st.backendReady ∧ t = now + announceRetryInitial) := by
  cases happlied with
  | announcedDown y relay down =>
    simp only [Dict.lookup_insert_ite] at h
    split at h
    · rename_i hxy
      subst hxy
      exact .inr (.inl ⟨down, rfl⟩)
    · exact .inl h
  | withdrawFailedDown y error free down =>
    simp only [Dict.lookup_insert_ite] at h
    split at h
    · rename_i hxy
      subst hxy
      cases h
      exact .inr (.inr ⟨down, rfl⟩)
    · exact .inl h
  | _ => exact .inl h

/-- **Where a deadline comes from**: it was there before and the backend did not come back, it is the grace of a service
that is down now, or an announcement has just succeeded for a service that was down. -/
theorem deadline_step {names : List String} (hgated : Gated names s.reg s.jobs) (hs : registry.step s e = some s')
    (h : s'.reg.withdrawDeadline.lookup x = some t) :
    (s.reg.withdrawDeadline.lookup x = some t ∧ (Down x s → Down x s')) ∨
      (Down x s' ∧ s'.clock + withdrawGrace ≤ t) ∨
      (Down x s ∧ Down x s' ∧ ∃ env job g now, e = .complete env job (.announced g x (.ok ())) now) := by
  obtain ⟨-, hen, rfl⟩ := step_eq_some.1 hs
  cases e with
  | command c now =>
    refine .inl ⟨handle_deadline h, fun hdown => ?_⟩
    rw [Down, next, handle_backendReady]
    exact hdown
  | readiness ready now =>
    rcases readiness_deadline h with ⟨hold, hstays⟩ | ⟨hdown, rfl⟩
    · exact .inl ⟨hold, fun hdown hx => hdown (hstays hx)⟩
    · exact .inr (.inl ⟨hdown, le_rfl⟩)
  | plan env now slots =>
    refine .inl ⟨plan_deadline h, fun hdown => ?_⟩
    rw [Down, next, (plan_kept env s.reg now slots).backendReady]
    exact hdown
  | complete env job result now =>
    have hready : ∀ y, Down y (next s (.complete env job result now)) ↔ Down y s := fun y => by
      rw [Down, Down, next, (apply_standing env s.reg now result).backendReady]
    simp only [enabled, Bool.and_eq_true, decide_eq_true_eq] at hen
    rcases (apply_applied env s.reg now result).deadline h with hold | ⟨hlate, rfl⟩ | ⟨hdown, rfl⟩
    · exact .inl ⟨hold, (hready x).2⟩
    · have hboot := (hgated.jobs job hen.1 x (serves_of_answers hen.2 rfl)).2
      have hdown : Down x s := fun hx => hlate ⟨hx, hboot⟩
      exact .inr (.inr ⟨hdown, (hready x).2 hdown, env, job, _, now, rfl⟩)
    · refine .inr (.inl ⟨(hready x).2 hdown, ?_⟩)
      exact Nat.add_le_add_left (by decide) now
  | stale env result now =>
    have hready : ∀ y, Down y (next s (.stale env result now)) ↔ Down y s := fun y => by
      rw [Down, Down, next, (apply_standing env s.reg now result).backendReady]
    rcases (apply_applied env s.reg now result).deadline h with hold | ⟨-, rfl⟩ | ⟨hdown, rfl⟩
    · exact .inl ⟨hold, (hready x).2⟩
    · simp [enabled, JobResult.generation] at hen
    · refine .inr (.inl ⟨(hready x).2 hdown, ?_⟩)
      exact Nat.add_le_add_left (by decide) now

end Steps

/-! ## Runs -/

/-- **A deadline has its reason in the history of the service**, which is down. -/
structure Graced (es : List Event) (s : System) : Prop where
  run : registry.run es = some s
  reason : ∀ x t, s.reg.withdrawDeadline.lookup x = some t → Down x s ∧ (DownFor es x t ∨ AnnouncedDown es x)

theorem Graced.step {es : List Event} {s s' : System} {e : Event} (h : Graced es s) (hs : registry.step s e = some s') :
    Graced (es ++ [e]) s' := by
  have hr := registry.runFrom_concat.2 ⟨s, h.run, hs⟩
  refine ⟨hr, fun x t ht => ?_⟩
  rcases deadline_step (gated_run h.run) hs ht with ⟨hold, hstays⟩ | ⟨hdown, hgrace⟩ | ⟨hdown, hdown', env, job, g, now, rfl⟩
  · obtain ⟨hdown, hfor | hlate⟩ := h.reason x t hold
    · exact ⟨hstays hdown, .inl (hfor.more hr (hstays hdown))⟩
    · exact ⟨hstays hdown, .inr (hlate.more hr (hstays hdown))⟩
  · exact ⟨hdown, .inl (.now hr hdown hgrace)⟩
  · refine ⟨hdown', .inr ⟨es, env, job, g, now, [], s, rfl, h.run, ?_⟩⟩
    exact Machine.Throughout.concat _ (registry.throughout_nil.2 hdown) (registry.runFrom_cons.2 ⟨s', hs, rfl⟩) hdown'

theorem graced_run {es : List Event} {s : System} (hr : registry.run es = some s) : Graced es s :=
  registry.history_invariant (P := Graced) ⟨rfl, fun _ _ h => (by cases h)⟩ (fun _ _ _ _ h _ hs => h.step hs) es s hr
    (registry.meets_true es _)

/-- A withdrawal that is planned was due at the call. -/
theorem withdraw_due {env : Env} {st : RegistryState} {now : Instant} {slots : Nat} {j : JobSpec} {x : String}
    (hj : j ∈ (st.plan env now slots).1) (hx : j.kind = .withdraw x) : x ∈ st.dueWithdrawals now := by
  have key := (plan_steps env st now slots).1.invariant (J := 0)
    (P := fun _ J => ∀ j ∈ J, j.kind = .withdraw x → x ∈ st.dueWithdrawals now)
    (fun a o b J _ hs hP i hi hkind => ?_) (by simp)
  · exact key j (by simpa using hj) hx
  · rcases Multiset.mem_add.1 hi with hi | hi
    · exact hP i hi hkind
    · have hi := Option.mem_toList.1 (Multiset.mem_coe.1 hi)
      cases hs with
      | withdraw y due free =>
        cases hi
        obtain rfl : y = x := by simpa [withdrawJob, JobSpec.kind] using hkind
        exact due
      | dropWrite ready pending => cases hi
      | _ => cases hi; cases hkind

theorem clock_step {s s' : System} {e : Event} (hs : registry.step s e = some s') : s.clock ≤ s'.clock := by
  obtain ⟨hclock, -, rfl⟩ := step_eq_some.1 hs
  cases e <;> exact hclock

theorem clock_mono {s t : System} {es : List Event} (hr : registry.runFrom s es = some t) : s.clock ≤ t.clock :=
  registry.invariant_from (P := fun t => s.clock ≤ t.clock) (fun _ _ _ h _ hs => h.trans (clock_step hs)) es s t le_rfl
    (registry.meets_true es s) hr

/-- A service that has been down for the grace was not up within it. -/
theorem DownFor.not_up {es pre post : List Event} {x : String} {t : Instant} {m : System} (h : DownFor es x t)
    (hsplit : es = pre ++ post) (hm : registry.run pre = some m) (hup : x ∈ m.reg.backendReady) :
    m.clock + withdrawGrace ≤ t := by
  obtain ⟨pre', post', m', rfl, hm', hdown, hclock⟩ := h
  rcases List.append_eq_append_iff.1 hsplit with ⟨mid, rfl, rfl⟩ | ⟨mid, rfl, rfl⟩
  · -- the state comes later, where the service was down
    rw [Machine.run, Machine.runFrom_append] at hm
    obtain ⟨m'', hm'', hmid⟩ := hm
    cases hm'.symm.trans hm''
    exact absurd hup (hdown mid post m rfl hmid)
  · rw [Machine.run, Machine.runFrom_append] at hm'
    obtain ⟨m'', hm'', hmid⟩ := hm'
    cases hm.symm.trans hm''
    exact (Nat.add_le_add_right (clock_mono hmid) _).trans hclock

/-- **No withdrawal within the grace.**  In every run, whatever came before: when a planning call withdraws a service while
a relay is ready, the service is down, and it has been down for three seconds or an announcement of it succeeded since it
is down.  So where it was up less than three seconds ago, the withdrawal is owed to such an announcement. -/
theorem withdraw_graced (es : List Event) (s : System) (hr : registry.run es = some s) (hrelay : s.reg.relayReady = true)
    (env : Env) (now : Instant) (slots : Nat) :
    ∀ j ∈ (s.reg.plan env now slots).1, ∀ x, j.kind = .withdraw x →
      x ∉ s.reg.backendReady ∧ (DownFor es x now ∨ AnnouncedDown es x) ∧
      ∀ pre post m, es = pre ++ post → registry.run pre = some m → x ∈ m.reg.backendReady →
        now < m.clock + withdrawGrace → AnnouncedDown es x := by
  intro j hj x hx
  have hdue := withdraw_due hj hx
  rw [dueWithdrawals, (reachable_relayInv ⟨es, hr⟩).ready hrelay, Finset.filter_empty, Finset.union_empty,
    Finset.mem_filter, Dict.mem_due] at hdue
  obtain ⟨⟨t, ht, hle⟩, hdown⟩ := hdue
  have hreason : DownFor es x now ∨ AnnouncedDown es x := by
    rcases ((graced_run hr).reason x t ht).2 with ⟨pre, post, m, hsplit, hm, hpost, hclock⟩ | hlate
    · exact .inl ⟨pre, post, m, hsplit, hm, hpost, hclock.trans hle⟩
    · exact .inr hlate
  refine ⟨hdown, hreason, fun pre post m hsplit hm hup hrecent => hreason.resolve_left (fun hfor => ?_)⟩
  exact absurd (hfor.not_up hsplit hm hup) (Nat.not_le.2 hrecent)

/-- `cmd` is announced and drops; its withdrawal comes three seconds later. -/
def droppedRun : List Event :=
  [.readiness {"cmd"} 0, .command .bootstrapCompleted 0, .plan cmdEnv 0 4,
    .complete cmdEnv (announceJob 0 "cmd") (.announced 0 "cmd" (.ok ())) 0, .readiness ∅ (secs 10)]

theorem drop_graced : ∃ s, registry.run droppedRun = some s ∧ s.reg.relayReady = true ∧
    withdrawJob 0 "cmd" ∈ (s.reg.plan cmdEnv (secs 13) 4).1 ∧ "cmd" ∉ s.reg.backendReady ∧
    (DownFor droppedRun "cmd" (secs 13) ∨ AnnouncedDown droppedRun "cmd") := by
  obtain ⟨s, hr, hs⟩ := registry.exists_of_check
    (fun s => s.reg.relayReady && decide (withdrawJob 0 "cmd" ∈ (s.reg.plan cmdEnv (secs 13) 4).1)) droppedRun
    (by decide +kernel)
  simp only [Bool.and_eq_true, decide_eq_true_eq] at hs
  have h := withdraw_graced droppedRun s hr hs.1 cmdEnv (secs 13) 4 _ hs.2 "cmd" rfl
  exact ⟨s, hr, hs.1, hs.2, h.1, h.2.1⟩

end Registry
end NexusNet
