import NexusNet.RegistrySystem
/-!
# RegistryJobs — the job discipline

The running jobs and the state's marks agree: each in-flight set lists the services of the running jobs of its kind, the
reconcile state says which type job is running, and `pump` keeps their number within `max_inflight`.  The agreement is
carried as counts (`Tracks`): of every kind of job as many run as the state marks, one or none.  A started job sets the
mark of its kind and a completed one clears it.
-/
namespace NexusNet
namespace Registry

open RegistryState

/-- What the state can mark as running. -/
inductive JobKind where
  | announce (service : String)
  | withdraw (service : String)
  | readTypes
  | writeTypes
deriving DecidableEq

def JobSpec.kind : JobSpec → JobKind
  | .announce _ s _   => .announce s
  | .withdraw _ s _   => .withdraw s
  | .readTypes _      => .readTypes
  | .writeTypes _ _   => .writeTypes

def JobSpec.generation : JobSpec → UInt64
  | .announce g _ _   => g
  | .withdraw g _ _   => g
  | .readTypes g      => g
  | .writeTypes g _   => g

def RegistryState.marks (st : RegistryState) : JobKind → Bool
  | .announce s => decide (s ∈ st.announceInflight)
  | .withdraw s => decide (s ∈ st.withdrawInflight)
  | .readTypes  => decide (st.reconcile = .reading)
  | .writeTypes => decide (st.reconcile = .writing)

/-- **The running jobs `J` are the ones the state marks**, each once. -/
structure Tracks (st : RegistryState) (J : Multiset JobSpec) : Prop where
  current : ∀ j ∈ J, j.generation = st.generation
  count : ∀ k, (J.map JobSpec.kind).count k = (st.marks k).toNat
  disjoint : Disjoint st.announceInflight st.withdrawInflight
  pending : st.pendingTypesWrite.isSome = true ↔ st.reconcile = .readyToWrite

theorem Tracks.new : Tracks RegistryState.new 0 where
  current := by simp
  count := by rintro (_ | _ | _ | _) <;> simp [RegistryState.marks, RegistryState.new]
  disjoint := by simp [RegistryState.new]
  pending := by simp [RegistryState.new]

/-! ## One job -/

/-- The running jobs after a job was started whose kind had no mark. -/
theorem count_start {st st' : RegistryState} {J : Multiset JobSpec} {j : JobSpec}
    (h : ∀ k, (J.map JobSpec.kind).count k = (st.marks k).toNat) (hfree : st.marks j.kind = false)
    (hset : st'.marks j.kind = true) (hother : ∀ k, k ≠ j.kind → st'.marks k = st.marks k) (k : JobKind) :
    ((j ::ₘ J).map JobSpec.kind).count k = (st'.marks k).toNat := by
  rw [Multiset.map_cons]
  by_cases hk : k = j.kind
  · subst hk
    rw [Multiset.count_cons_self, h, hfree, hset]
    rfl
  · rw [Multiset.count_cons_of_ne hk, h, hother k hk]

/-- The running jobs after a job ended and its kind's mark was cleared. -/
theorem count_finish {st st' : RegistryState} {J : Multiset JobSpec} {j : JobSpec} (hj : j ∈ J)
    (h : ∀ k, (J.map JobSpec.kind).count k = (st.marks k).toNat)
    (hclear : st'.marks j.kind = false) (hother : ∀ k, k ≠ j.kind → st'.marks k = st.marks k) (k : JobKind) :
    ((J.erase j).map JobSpec.kind).count k = (st'.marks k).toNat := by
  have hk := h k
  rw [← Multiset.cons_erase hj, Multiset.map_cons] at hk
  by_cases he : k = j.kind
  · subst he
    rw [Multiset.count_cons_self] at hk
    have hle := Bool.toNat_le (st.marks j.kind)
    rw [hclear, Bool.toNat_false]
    omega
  · rw [Multiset.count_cons_of_ne he] at hk
    rw [hk, hother k he]

theorem Tracks.marks_of_mem {st : RegistryState} {J : Multiset JobSpec} (h : Tracks st J) {j : JobSpec} (hj : j ∈ J) :
    st.marks j.kind = true := by
  have hpos := Multiset.count_pos.2 (Multiset.mem_map_of_mem JobSpec.kind hj)
  rw [h.count] at hpos
  cases hm : st.marks j.kind with
  | false => rw [hm] at hpos; cases hpos
  | true => rfl

theorem Tracks.exists_mem {st : RegistryState} {J : Multiset JobSpec} (h : Tracks st J) {k : JobKind}
    (hk : st.marks k = true) : ∃ j ∈ J, j.kind = k := by
  have hpos : 0 < (J.map JobSpec.kind).count k := by
    rw [h.count, hk]
    decide
  exact Multiset.mem_map.1 (Multiset.count_pos.1 hpos)

/-! ## Planning -/

theorem skipAnnounce_iff {now : Instant} {st : RegistryState} {s : String} : skipAnnounce now st s = false ↔
    st.inFlight s = false ∧ s ∈ st.backendReady ∧ s ∉ st.announced ∧ ∀ t ∈ st.announceRetryAt.lookup s, t ≤ now := by
  rw [inFlight_eq_false]
  simp only [skipAnnounce, Bool.or_eq_false_iff, Bool.not_eq_false', decide_eq_true_eq, decide_eq_false_iff_not, not_exists,
    not_and, Nat.not_lt]
  tauto

theorem Tracks.startWithdraw {st : RegistryState} {J : Multiset JobSpec} {s : String} (h : Tracks st J)
    (hfree : st.inFlight s = false) : Tracks (st.startWithdraw s) (withdrawJob st.generation s ::ₘ J) := by
  obtain ⟨hw, ha⟩ := inFlight_eq_false.1 hfree
  refine ⟨?_, count_start h.count ?_ ?_ ?_, ?_, h.pending⟩
  · rw [Multiset.forall_mem_cons]
    exact ⟨rfl, h.current⟩
  · simpa [withdrawJob, JobSpec.kind, RegistryState.marks] using hw
  · simp [withdrawJob, JobSpec.kind, RegistryState.marks, RegistryState.startWithdraw]
  · rintro (x | x | _ | _) hk
    · rfl
    · have hx : x ≠ s := fun hx => hk (by rw [hx]; rfl)
      simp [RegistryState.marks, RegistryState.startWithdraw, hx]
    · rfl
    · rfl
  · exact Finset.disjoint_insert_right.2 ⟨ha, h.disjoint⟩

theorem Tracks.startAnnounce {st : RegistryState} {J : Multiset JobSpec} {s : String} (h : Tracks st J)
    (hfree : st.inFlight s = false) : Tracks (st.startAnnounce s) (announceJob st.generation s ::ₘ J) := by
  obtain ⟨hw, ha⟩ := inFlight_eq_false.1 hfree
  refine ⟨?_, count_start h.count ?_ ?_ ?_, ?_, h.pending⟩
  · rw [Multiset.forall_mem_cons]
    exact ⟨rfl, h.current⟩
  · simpa [announceJob, JobSpec.kind, RegistryState.marks] using ha
  · simp [announceJob, JobSpec.kind, RegistryState.marks, RegistryState.startAnnounce]
  · rintro (x | x | _ | _) hk
    · have hx : x ≠ s := fun hx => hk (by rw [hx]; rfl)
      simp [RegistryState.marks, RegistryState.startAnnounce, hx]
    · rfl
    · rfl
    · rfl
  · exact Finset.disjoint_insert_left.2 ⟨hw, h.disjoint⟩

/-- Starting a type job: only the reconcile state and what hangs on it change. -/
theorem Tracks.startTypes {st st' : RegistryState} {J : Multiset JobSpec} {j : JobSpec} (h : Tracks st J)
    (hgen : j.generation = st.generation) (hgen' : st'.generation = st.generation)
    (ha : st'.announceInflight = st.announceInflight) (hw : st'.withdrawInflight = st.withdrawInflight)
    (hfree : st.marks .readTypes = false ∧ st.marks .writeTypes = false)
    (hkind : ∀ k, (k = .readTypes ∨ k = .writeTypes) → (k = j.kind ↔ st'.marks k = true))
    (hj : j.kind = .readTypes ∨ j.kind = .writeTypes)
    (hpend : st'.pendingTypesWrite.isSome = true ↔ st'.reconcile = .readyToWrite) : Tracks st' (j ::ₘ J) := by
  refine ⟨?_, count_start h.count ?_ ?_ ?_, ?_, hpend⟩
  · rw [Multiset.forall_mem_cons, hgen']
    exact ⟨hgen, h.current⟩
  · rcases hj with hj | hj <;> rw [hj]
    · exact hfree.1
    · exact hfree.2
  · exact (hkind _ hj).1 rfl
  · rintro (x | x | _ | _) hk
    · simp only [RegistryState.marks, ha]
    · simp only [RegistryState.marks, hw]
    · rw [hfree.1, ← Bool.not_eq_true]
      exact fun hm => hk ((hkind _ (Or.inl rfl)).2 hm)
    · rw [hfree.2, ← Bool.not_eq_true]
      exact fun hm => hk ((hkind _ (Or.inr rfl)).2 hm)
  · rw [ha, hw]
    exact h.disjoint

theorem PlanStep.tracks {env : Env} {now : Instant} {st₀ a b : RegistryState} {o : Option JobSpec}
    (hs : PlanStep env now st₀ a o b) {J : Multiset JobSpec} (h : Tracks a J) :
    Tracks b (J + (o.toList : Multiset JobSpec)) := by
  have hone : ∀ j : JobSpec, J + ((some j).toList : Multiset JobSpec) = j ::ₘ J := fun j => by
    rw [Option.toList_some, Multiset.coe_singleton, add_comm, Multiset.singleton_add]
  cases hs with
  | withdraw s due free =>
    rw [hone]
    exact h.startWithdraw free
  | retry s due free =>
    rw [hone]
    exact h.startAnnounce free
  | announce s boot relay mine go =>
    rw [hone]
    exact h.startAnnounce (skipAnnounce_iff.1 go).1
  | readTypes idle =>
    rw [hone]
    refine h.startTypes rfl rfl rfl rfl ?_ ?_ (Or.inl rfl) ?_
    · simp [RegistryState.marks, idle]
    · rintro k (rfl | rfl) <;> simp [JobSpec.kind, RegistryState.marks]
    · simpa [idle] using h.pending
  | writeTypes value ready pending =>
    rw [hone]
    refine h.startTypes rfl rfl rfl rfl ?_ ?_ (Or.inr rfl) ?_
    · simp [RegistryState.marks, ready]
    · rintro k (rfl | rfl) <;> simp [JobSpec.kind, RegistryState.marks]
    · simp
  | dropWrite ready pending =>
    -- the write is there whenever the state is ready for it
    have := h.pending.2 ready
    rw [pending] at this
    cases this

theorem Tracks.plan {st : RegistryState} {J : Multiset JobSpec} (h : Tracks st J) (env : Env) (now : Instant)
    (slots : Nat) : Tracks (st.plan env now slots).2 (J + ((st.plan env now slots).1 : Multiset JobSpec)) :=
  (plan_steps env st now slots).1.invariant (fun _ _ _ _ _ hs hP => PlanStep.tracks hs hP) h

/-! ## Results -/

/-- A job ended: its kind's mark went, the other marks and the generation stay. -/
theorem Tracks.finish {st st' : RegistryState} {J : Multiset JobSpec} {j : JobSpec} (h : Tracks st J) (hj : j ∈ J)
    (hgen : st'.generation = st.generation) (ha : st'.announceInflight ⊆ st.announceInflight)
    (hw : st'.withdrawInflight ⊆ st.withdrawInflight) (hclear : st'.marks j.kind = false)
    (hother : ∀ k, k ≠ j.kind → st'.marks k = st.marks k)
    (hpend : st'.pendingTypesWrite.isSome = true ↔ st'.reconcile = .readyToWrite) : Tracks st' (J.erase j) where
  current := fun i hi => (h.current i (Multiset.mem_of_mem_erase hi)).trans hgen.symm
  count := count_finish hj h.count hclear hother
  disjoint := h.disjoint.mono ha hw
  pending := hpend

theorem Tracks.announced {st st' : RegistryState} {J : Multiset JobSpec} {g : UInt64} {s key : String} (h : Tracks st J)
    (hj : JobSpec.announce g s key ∈ J) (hgen : st'.generation = st.generation)
    (ha : st'.announceInflight = st.announceInflight.erase s) (hw : st'.withdrawInflight = st.withdrawInflight)
    (hr : st'.reconcile = st.reconcile) (hp : st'.pendingTypesWrite = st.pendingTypesWrite) :
    Tracks st' (J.erase (.announce g s key)) := by
  refine h.finish hj hgen (by rw [ha]; exact Finset.erase_subset _ _) (by rw [hw]) ?_ ?_ (by rw [hr, hp]; exact h.pending)
  · simp [JobSpec.kind, RegistryState.marks, ha]
  · rintro (x | x | _ | _) hk
    · have hx : x ≠ s := fun hx => hk (by rw [hx]; rfl)
      simp [RegistryState.marks, ha, hx]
    · simp only [RegistryState.marks, hw]
    · simp only [RegistryState.marks, hr]
    · simp only [RegistryState.marks, hr]

theorem Tracks.withdrawn {st st' : RegistryState} {J : Multiset JobSpec} {g : UInt64} {s key : String} (h : Tracks st J)
    (hj : JobSpec.withdraw g s key ∈ J) (hgen : st'.generation = st.generation)
    (ha : st'.announceInflight = st.announceInflight) (hw : st'.withdrawInflight = st.withdrawInflight.erase s)
    (hr : st'.reconcile = st.reconcile) (hp : st'.pendingTypesWrite = st.pendingTypesWrite) :
    Tracks st' (J.erase (.withdraw g s key)) := by
  refine h.finish hj hgen (by rw [ha]) (by rw [hw]; exact Finset.erase_subset _ _) ?_ ?_ (by rw [hr, hp]; exact h.pending)
  · simp [JobSpec.kind, RegistryState.marks, hw]
  · rintro (x | x | _ | _) hk
    · simp only [RegistryState.marks, ha]
    · have hx : x ≠ s := fun hx => hk (by rw [hx]; rfl)
      simp [RegistryState.marks, hw, hx]
    · simp only [RegistryState.marks, hr]
    · simp only [RegistryState.marks, hr]

/-- The read ended: the state is idle or ready to write. -/
theorem Tracks.typesRead {st st' : RegistryState} {J : Multiset JobSpec} {g : UInt64} (h : Tracks st J)
    (hj : JobSpec.readTypes g ∈ J) (hgen : st'.generation = st.generation)
    (ha : st'.announceInflight = st.announceInflight) (hw : st'.withdrawInflight = st.withdrawInflight)
    (hr : (st'.reconcile = .idle ∧ st'.pendingTypesWrite = none) ∨
      (st'.reconcile = .readyToWrite ∧ st'.pendingTypesWrite.isSome = true)) :
    Tracks st' (J.erase (.readTypes g)) := by
  have hreading : st.reconcile = .reading := by simpa [JobSpec.kind, RegistryState.marks] using h.marks_of_mem hj
  refine h.finish hj hgen (by rw [ha]) (by rw [hw]) ?_ ?_ ?_
  · rcases hr with ⟨hr, -⟩ | ⟨hr, -⟩ <;> simp [JobSpec.kind, RegistryState.marks, hr]
  · rintro (x | x | _ | _) hk
    · simp only [RegistryState.marks, ha]
    · simp only [RegistryState.marks, hw]
    · exact absurd rfl hk
    · rcases hr with ⟨hr, -⟩ | ⟨hr, -⟩ <;> simp [RegistryState.marks, hr, hreading]
  · rcases hr with ⟨hr, hp⟩ | ⟨hr, hp⟩ <;> simp [hr, hp]

theorem Tracks.typesWritten {st st' : RegistryState} {J : Multiset JobSpec} {g : UInt64} {value : List UInt8}
    (h : Tracks st J) (hj : JobSpec.writeTypes g value ∈ J) (hgen : st'.generation = st.generation)
    (ha : st'.announceInflight = st.announceInflight) (hw : st'.withdrawInflight = st.withdrawInflight)
    (hr : st'.reconcile = .idle) (hp : st'.pendingTypesWrite = none) : Tracks st' (J.erase (.writeTypes g value)) := by
  have hwriting : st.reconcile = .writing := by simpa [JobSpec.kind, RegistryState.marks] using h.marks_of_mem hj
  refine h.finish hj hgen (by rw [ha]) (by rw [hw]) ?_ ?_ (by simp [hr, hp])
  · simp [JobSpec.kind, RegistryState.marks, hr]
  · rintro (x | x | _ | _) hk
    · simp only [RegistryState.marks, ha]
    · simp only [RegistryState.marks, hw]
    · simp [RegistryState.marks, hr, hwriting]
    · exact absurd rfl hk

theorem answers_cases {r : JobResult} {j : JobSpec} (h : r.answers j = true) :
    (∃ g s key x, r = .announced g s x ∧ j = .announce g s key) ∨
    (∃ g s key x, r = .withdrawn g s x ∧ j = .withdraw g s key) ∨
    (∃ g x, r = .typesRead g x ∧ j = .readTypes g) ∨ ∃ g value x, r = .typesWritten g x ∧ j = .writeTypes g value := by
  cases r <;> cases j <;> simp_all [JobResult.answers]

theorem Tracks.complete {st : RegistryState} {J : Multiset JobSpec} (h : Tracks st J) (env : Env) (now : Instant)
    {j : JobSpec} {r : JobResult} (hj : j ∈ J) (hr : r.answers j = true) :
    Tracks (st.apply env now r) (J.erase j) := by
  have happ := apply_applied env st now r
  generalize st.apply env now r = st' at happ
  rcases answers_cases hr with ⟨g, s, key, x, rfl, rfl⟩ | ⟨g, s, key, x, rfl, rfl⟩ | ⟨g, x, rfl, rfl⟩ |
    ⟨g, value, x, rfl, rfl⟩
  · cases happ <;> exact h.announced hj rfl rfl rfl rfl rfl
  · cases happ <;> exact h.withdrawn hj rfl rfl rfl rfl rfl
  · have hreading : st.reconcile = .reading := by simpa [JobSpec.kind, RegistryState.marks] using h.marks_of_mem hj
    have hgen : g = st.generation := h.current _ hj
    cases happ with
    | typesReadIgnored _ _ ignored => exact absurd ignored (by simp [hreading, hgen])
    | typesReadDone _ known next dirty reading => exact h.typesRead hj rfl rfl rfl (Or.inl ⟨rfl, rfl⟩)
    | typesReadReady _ known value reading => exact h.typesRead hj rfl rfl rfl (Or.inr ⟨rfl, rfl⟩)
  · have hwriting : st.reconcile = .writing := by simpa [JobSpec.kind, RegistryState.marks] using h.marks_of_mem hj
    have hgen : g = st.generation := h.current _ hj
    cases happ with
    | typesWrittenIgnored _ _ ignored => exact absurd ignored (by simp [hwriting, hgen])
    | typesWrittenDone _ next writing => exact h.typesWritten hj rfl rfl rfl rfl rfl

/-! ## Runs -/

theorem Tracks.congr {st st' : RegistryState} {J : Multiset JobSpec} (h : Tracks st J)
    (hg : st'.generation = st.generation) (ha : st'.announceInflight = st.announceInflight)
    (hw : st'.withdrawInflight = st.withdrawInflight) (hr : st'.reconcile = st.reconcile)
    (hp : st'.pendingTypesWrite = st.pendingTypesWrite) : Tracks st' J where
  current := by rw [hg]; exact h.current
  count := fun k => by rw [h.count k]; cases k <;> simp only [RegistryState.marks, ha, hw, hr]
  disjoint := by rw [ha, hw]; exact h.disjoint
  pending := by rw [hr, hp]; exact h.pending

theorem Tracks.reset (st : RegistryState) : Tracks st.reset 0 where
  current := by simp
  count := by rintro (_ | _ | _ | _) <;> simp [RegistryState.marks, RegistryState.reset]
  disjoint := by simp [RegistryState.reset]
  pending := by simp [RegistryState.reset]

theorem Tracks.command {st : RegistryState} {J : Multiset JobSpec} (h : Tracks st J) (c : ServiceCommand)
    (now : Instant) : Tracks (st.handle c now) (if c = .reset then 0 else J) := by
  cases c with
  | bootstrapCompleted | reannounce | refreshTypes => exact h.congr rfl rfl rfl rfl rfl
  | tick => exact h
  | reset => exact Tracks.reset st
  | relayStateChanged needRelay active =>
    simp only [handle, reduceCtorEq, if_false]
    have hframe := relayStateChanged_frame st needRelay active
    exact h.congr hframe.generation hframe.announceInflight hframe.withdrawInflight hframe.reconcile
      hframe.pendingTypesWrite

/-- No result outlives a `Reset`. -/
def Fresh (_ : System) : Event → Prop
  | .stale _ _ _ => False
  | _            => True

theorem tracks_step (s : System) (e : Event) (s' : System) (h : Tracks s.reg s.jobs) (hok : Fresh s e)
    (hs : registry.step s e = some s') : Tracks s'.reg s'.jobs := by
  obtain ⟨-, hen, rfl⟩ := step_eq_some.1 hs
  cases e with
  | command c now => exact h.command c now
  | readiness ready now => exact h.congr rfl rfl rfl rfl rfl
  | plan env now slots => exact h.plan env now slots
  | complete env job result now =>
    simp only [enabled, Bool.and_eq_true, decide_eq_true_eq] at hen
    exact h.complete env now hen.1 hen.2
  | stale env result now => exact absurd hok id

/-- **The marks are exact in every run without stale results**, whatever the slots. -/
theorem tracks_run {es : List Event} {s : System} (hr : registry.run es = some s)
    (hok : registry.Meets Fresh registry.init es) : Tracks s.reg s.jobs :=
  registry.invariant_from tracks_step es registry.init s Tracks.new hok hr

/-- **The events `pump` allows**: planning fills the free slots of `max_inflight`, and no result outlives a `Reset`. -/
def Pumped (maxInflight : Nat) (s : System) : Event → Prop
  | .plan env _ slots => env.config.registryMaxInflight = maxInflight ∧ slots = maxInflight - s.jobs.card
  | .stale _ _ _      => False
  | _                 => True

instance (maxInflight : Nat) (s : System) : ∀ e : Event, Decidable (Pumped maxInflight s e)
  | .plan _ _ _       => inferInstanceAs (Decidable (_ ∧ _))
  | .stale _ _ _      => .isFalse id
  | .command _ _      => .isTrue trivial
  | .readiness _ _    => .isTrue trivial
  | .complete _ _ _ _ => .isTrue trivial

theorem Pumped.fresh {maxInflight : Nat} (s : System) (e : Event) (h : Pumped maxInflight s e) : Fresh s e := by
  cases e with
  | stale _ _ _ => exact h
  | _ => trivial

theorem card_step (maxInflight : Nat) (s : System) (e : Event) (s' : System) (h : s.jobs.card ≤ maxInflight)
    (hok : Pumped maxInflight s e) (hs : registry.step s e = some s') : s'.jobs.card ≤ maxInflight := by
  obtain ⟨-, -, rfl⟩ := step_eq_some.1 hs
  cases e with
  | command c now =>
    simp only [next]
    split
    · simp
    · exact h
  | readiness ready now => exact h
  | plan env now slots =>
    have hlen := (plan_steps env s.reg now slots).2
    have hslots := hok.2
    simp only [next, Multiset.card_add, Multiset.coe_card]
    omega
  | complete env job result now =>
    have hle := Multiset.card_le_card (Multiset.erase_le job s.jobs)
    simp only [next]
    omega
  | stale env result now => exact absurd hok id

/-- **The discipline**: how many jobs run, which of them together, and what the state says about them. -/
structure Disciplined (maxInflight : Nat) (s : System) : Prop where
  bounded : s.jobs.card ≤ maxInflight
  oneForService : ∀ x, (s.jobs.filter (fun j => j.kind = .announce x ∨ j.kind = .withdraw x)).card ≤ 1
  announces : ∀ x, x ∈ s.reg.announceInflight ↔ ∃ j ∈ s.jobs, j.kind = .announce x
  withdraws : ∀ x, x ∈ s.reg.withdrawInflight ↔ ∃ j ∈ s.jobs, j.kind = .withdraw x
  disjoint : Disjoint s.reg.announceInflight s.reg.withdrawInflight
  oneForTypes : (s.jobs.filter (fun j => j.kind = .readTypes ∨ j.kind = .writeTypes)).card ≤ 1
  reading : (∃ j ∈ s.jobs, j.kind = .readTypes) ↔ s.reg.reconcile = .reading
  writing : (∃ j ∈ s.jobs, j.kind = .writeTypes) ↔ s.reg.reconcile = .writing
  pending : s.reg.pendingTypesWrite.isSome = true ↔ s.reg.reconcile = .readyToWrite

theorem Tracks.exists_iff {st : RegistryState} {J : Multiset JobSpec} (h : Tracks st J) (k : JobKind) :
    (∃ j ∈ J, j.kind = k) ↔ st.marks k = true := by
  constructor
  · rintro ⟨j, hj, rfl⟩
    exact h.marks_of_mem hj
  · exact h.exists_mem

/-- Of two kinds that are not marked together at most one job runs. -/
theorem Tracks.card_filter_le {st : RegistryState} {J : Multiset JobSpec} (h : Tracks st J) (k k' : JobKind)
    (hexcl : st.marks k = true → st.marks k' = false) : (J.filter (fun j => j.kind = k ∨ j.kind = k')).card ≤ 1 := by
  have hsum := congrArg Multiset.card (Multiset.filter_add_filter (fun j => j.kind = k) (fun j => j.kind = k') J)
  have hcount : ∀ k, (J.filter (fun j => j.kind = k)).card = (st.marks k).toNat := fun k => by
    rw [← h.count k, Multiset.count_map]
    simp only [eq_comm]
  rw [Multiset.card_add, Multiset.card_add, hcount, hcount] at hsum
  have hle : (st.marks k).toNat + (st.marks k').toNat ≤ 1 := by
    cases hk : st.marks k with
    | false => simpa using Bool.toNat_le _
    | true => rw [hexcl hk]; decide
  omega

theorem Tracks.disciplined {maxInflight : Nat} {s : System} (h : Tracks s.reg s.jobs)
    (hcard : s.jobs.card ≤ maxInflight) : Disciplined maxInflight s where
  bounded := hcard
  oneForService := fun x => by
    refine h.card_filter_le _ _ (fun hx => ?_)
    simp only [RegistryState.marks, decide_eq_true_eq, decide_eq_false_iff_not] at hx ⊢
    exact Finset.disjoint_left.1 h.disjoint hx
  announces := fun x => by simp [h.exists_iff, RegistryState.marks]
  withdraws := fun x => by simp [h.exists_iff, RegistryState.marks]
  disjoint := h.disjoint
  oneForTypes := by
    refine h.card_filter_le _ _ (fun hx => ?_)
    simp only [RegistryState.marks, decide_eq_true_eq] at hx
    simp [RegistryState.marks, hx]
  reading := by simp [h.exists_iff, RegistryState.marks]
  writing := by simp [h.exists_iff, RegistryState.marks]
  pending := h.pending

/-- **Every state that pumping reaches is disciplined.** -/
theorem pumped_disciplined (maxInflight : Nat) (es : List Event) (s : System) (hr : registry.run es = some s)
    (hok : registry.Meets (Pumped maxInflight) registry.init es) : Disciplined maxInflight s := by
  have htr := tracks_run hr (Machine.Meets.mono registry Pumped.fresh hok)
  exact htr.disciplined (registry.invariant_from (card_step maxInflight) es registry.init s (Nat.zero_le _) hok hr)

/-- With four slots `cmd` is announced, and announced again while the types are read. -/
theorem reannounced_disciplined : ∃ s, registry.run reannouncedRun = some s ∧
    registry.Meets (Pumped 4) registry.init reannouncedRun ∧ s.jobs.card = 2 ∧ Disciplined 4 s := by
  obtain ⟨s, hr, hs⟩ := registry.exists_of_check (fun s => s.jobs.card == 2) reannouncedRun (by decide +kernel)
  have hok : registry.Meets (Pumped 4) registry.init reannouncedRun := by decide +kernel
  exact ⟨s, hr, hok, by simpa using hs, pumped_disciplined 4 reannouncedRun s hr hok⟩

end Registry
end NexusNet
