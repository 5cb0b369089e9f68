import NexusNet.RegistrySystem
/-!
# RegistryStale — results of an older generation

`apply` ignores the content of a result of another generation, but for announcements and withdrawals it has removed the
in-flight mark of the service by then.  Such a result is inert exactly when there is no mark to remove (`Inert`); runs in
which every late result is inert go as if these had never arrived (`run_without_stale`).
-/
namespace NexusNet
namespace Registry

open RegistryState

/-- No mark is there that a late result would remove. -/
def Inert (st : RegistryState) : JobResult → Prop
  | .announced _ s _   => s ∉ st.announceInflight
  | .withdrawn _ s _   => s ∉ st.withdrawInflight
  | .typesRead _ _     => True
  | .typesWritten _ _  => True

instance (st : RegistryState) : ∀ r : JobResult, Decidable (Inert st r)
  | .announced _ s _  => inferInstanceAs (Decidable (s ∉ st.announceInflight))
  | .withdrawn _ s _  => inferInstanceAs (Decidable (s ∉ st.withdrawInflight))
  | .typesRead _ _    => .isTrue trivial
  | .typesWritten _ _ => .isTrue trivial

/-- The state without the mark of the result's service. -/
def dropMark (st : RegistryState) : JobResult → RegistryState
  | .announced _ s _   => { st with announceInflight := st.announceInflight.erase s }
  | .withdrawn _ s _   => { st with withdrawInflight := st.withdrawInflight.erase s }
  | .typesRead _ _     => st
  | .typesWritten _ _  => st

theorem apply_stale (env : Env) (st : RegistryState) (now : Instant) (r : JobResult) (h : r.generation ≠ st.generation) :
    st.apply env now r = dropMark st r := by
  have happ := apply_applied env st now r
  generalize st.apply env now r = st' at happ
  cases happ with
  | announcedStale | withdrawnStale | typesReadIgnored | typesWrittenIgnored => rfl
  | _ => exact absurd rfl h

/-- **A late result changes nothing exactly when it is inert.** -/
theorem apply_stale_eq_iff (env : Env) (st : RegistryState) (now : Instant) (r : JobResult)
    (h : r.generation ≠ st.generation) : st.apply env now r = st ↔ Inert st r := by
  rw [apply_stale env st now r h]
  cases r with
  | announced g s r =>
    constructor
    · intro heq
      rw [Inert, ← congrArg announceInflight heq]
      exact Finset.notMem_erase s _
    · intro hs
      rw [dropMark, Finset.erase_eq_of_notMem hs]
  | withdrawn g s r =>
    constructor
    · intro heq
      rw [Inert, ← congrArg withdrawInflight heq]
      exact Finset.notMem_erase s _
    · intro hs
      rw [dropMark, Finset.erase_eq_of_notMem hs]
  | typesRead | typesWritten => exact ⟨fun _ => trivial, fun _ => rfl⟩

/-! ## Runs -/

def Event.isStale : Event → Bool
  | .stale _ _ _ => true
  | _            => false

def withoutStale (es : List Event) : List Event := es.filter (fun e => !e.isStale)

/-- Every late result is inert when it arrives. -/
def StaleInert (s : System) : Event → Prop
  | .stale _ r _ => Inert s.reg r
  | _            => True

instance (s : System) : ∀ e : Event, Decidable (StaleInert s e)
  | .stale _ r _      => inferInstanceAs (Decidable (Inert s.reg r))
  | .command _ _      => .isTrue trivial
  | .readiness _ _    => .isTrue trivial
  | .plan _ _ _       => .isTrue trivial
  | .complete _ _ _ _ => .isTrue trivial

/-- The registry and its jobs are the same, and the second clock is not ahead. -/
structure SameRegistry (s t : System) : Prop where
  reg : t.reg = s.reg
  jobs : t.jobs = s.jobs
  clock : t.clock ≤ s.clock

theorem SameRegistry.step {s t s' : System} {e : Event} (h : SameRegistry s t) (he : e.isStale = false)
    (hs : registry.step s e = some s') : ∃ t', registry.step t e = some t' ∧ SameRegistry s' t' := by
  obtain ⟨hclock, hen, rfl⟩ := step_eq_some.1 hs
  have hen' : enabled t e = true := by
    cases e <;> simp_all [enabled, h.reg, h.jobs]
  refine ⟨next t e, step_eq_some.2 ⟨h.clock.trans hclock, hen', rfl⟩, ?_⟩
  cases e with
  | stale env r now => cases he
  | command | readiness | complete => exact ⟨by simp only [next, h.reg], by simp only [next, h.jobs], le_refl _⟩
  | plan env now slots => exact ⟨by simp only [next, h.reg], by simp only [next, h.reg, h.jobs], le_refl _⟩

theorem SameRegistry.stale {s t s' : System} {e : Event} (h : SameRegistry s t) (he : e.isStale = true)
    (hok : StaleInert s e) (hs : registry.step s e = some s') : SameRegistry s' t := by
  obtain ⟨hclock, hen, rfl⟩ := step_eq_some.1 hs
  cases e with
  | stale env r now =>
    have hgen : r.generation ≠ s.reg.generation := by simpa [enabled] using hen
    refine ⟨?_, h.jobs, h.clock.trans hclock⟩
    rw [h.reg]
    exact ((apply_stale_eq_iff env s.reg now r hgen).2 hok).symm
  | _ => cases he

theorem runFrom_withoutStale : ∀ (es : List Event) (s t s' : System), SameRegistry s t →
    registry.Meets StaleInert s es → registry.runFrom s es = some s' →
    ∃ t', registry.runFrom t (withoutStale es) = some t' ∧ SameRegistry s' t'
  | [], s, t, s', h, _, hr => by
    cases hr
    exact ⟨t, rfl, h⟩
  | e :: es, s, t, s', h, hok, hr => by
    obtain ⟨m, hm, hr'⟩ := (registry.runFrom_cons).1 hr
    cases he : e.isStale with
    | true =>
      have hskip : withoutStale (e :: es) = withoutStale es := by simp [withoutStale, he]
      rw [hskip]
      exact runFrom_withoutStale es m t s' (h.stale he hok.1 hm) (hok.2 m hm) hr'
    | false =>
      have hkeep : withoutStale (e :: es) = e :: withoutStale es := by simp [withoutStale, he]
      obtain ⟨n, hn, hsame⟩ := h.step he hm
      obtain ⟨t', ht, hsame'⟩ := runFrom_withoutStale es m n s' hsame (hok.2 m hm) hr'
      rw [hkeep]
      exact ⟨t', (registry.runFrom_cons).2 ⟨n, hn, ht⟩, hsame'⟩

/-- **When late results are inert**: exactly when they find no mark of their service, and a run in which all of them are
leads to the registry, and plans the jobs, of the run without them. -/
theorem stale_inert_iff (st : RegistryState) (es : List Event) (s : System) :
    (∀ env now r, r.generation ≠ st.generation → (RegistryState.apply env st now r = st ↔ Inert st r)) ∧
    (registry.run es = some s → registry.Meets StaleInert registry.init es →
      ∃ t, registry.run (withoutStale es) = some t ∧ t.reg = s.reg ∧ t.jobs = s.jobs ∧
        ∀ env now slots, t.reg.plan env now slots = s.reg.plan env now slots) := by
  refine ⟨fun env now r => apply_stale_eq_iff env st now r, fun hr hok => ?_⟩
  obtain ⟨t, ht, hsame⟩ := runFrom_withoutStale es registry.init registry.init s ⟨rfl, rfl, le_refl _⟩ hok hr
  exact ⟨t, ht, hsame.reg, hsame.jobs, fun env now slots => by rw [hsame.reg]⟩

/-- `cmd` is being announced, a `Reset` comes, and `cmd` is announced in the new generation. -/
def restartedRun : List Event :=
  [.readiness {"cmd"} 0, .command .bootstrapCompleted 0, .plan cmdEnv 0 4, .command .reset 0,
    .command .bootstrapCompleted 0, .plan cmdEnv 0 4]

/-- A late withdrawal finds no mark of `cmd` and is inert. -/
theorem late_withdrawal_inert : ∃ s t,
    registry.run (restartedRun ++ [.stale cmdEnv (.withdrawn 0 "cmd" (.error "aborted")) 0]) = some s ∧
    registry.run restartedRun = some t ∧ t.reg = s.reg := by
  have hok : registry.Meets StaleInert registry.init
      (restartedRun ++ [.stale cmdEnv (.withdrawn 0 "cmd" (.error "aborted")) 0]) := by decide +kernel
  obtain ⟨s, hr, -⟩ := registry.exists_of_check (fun _ => true)
    (restartedRun ++ [.stale cmdEnv (.withdrawn 0 "cmd" (.error "aborted")) 0]) (by decide +kernel)
  obtain ⟨t, ht, hreg, -⟩ := (stale_inert_iff s.reg _ s).2 hr hok
  exact ⟨s, t, hr, ht, hreg⟩

/-- **A late announcement is not inert**: the result of the old generation removes the mark of the running job, and the
next planning call starts a second announcement of `cmd`. -/
theorem late_announcement_restarts : ∃ s t, registry.run restartedRun = some s ∧
    registry.run (restartedRun ++ [.stale cmdEnv (.announced 0 "cmd" (.ok ())) 0]) = some t ∧ s.reg.generation = 1 ∧
    s.reg.apply cmdEnv 0 (.announced 0 "cmd" (.ok ())) ≠ s.reg ∧
    (s.reg.plan cmdEnv 0 2).1 = [] ∧ (t.reg.plan cmdEnv 0 2).1 = [announceJob 1 "cmd"] := by
  obtain ⟨s, hr, hs⟩ := registry.exists_of_check (fun s => decide (s.reg.generation = 1 ∧
    "cmd" ∈ s.reg.announceInflight ∧ (s.reg.plan cmdEnv 0 2).1 = [])) restartedRun (by decide +kernel)
  obtain ⟨t, ht, hp⟩ := registry.exists_of_check (fun t => decide ((t.reg.plan cmdEnv 0 2).1 = [announceJob 1 "cmd"]))
    (restartedRun ++ [.stale cmdEnv (.announced 0 "cmd" (.ok ())) 0]) (by decide +kernel)
  obtain ⟨hgen, hmark, hnone⟩ := of_decide_eq_true hs
  refine ⟨s, t, hr, ht, hgen, fun heq => ?_, hnone, of_decide_eq_true hp⟩
  have hstale : JobResult.generation (.announced 0 "cmd" (.ok ())) ≠ s.reg.generation := by
    rw [hgen]
    decide
  exact (apply_stale_eq_iff cmdEnv s.reg 0 _ hstale).1 heq hmark

end Registry
end NexusNet
