import NexusNet.RegistryJobs
/-!
# RegistryActor — the task of the service registry

`ServiceRegistryActor` as `run` drives it: every command, readiness change and joined job goes through the state, is
published as a snapshot and followed by `pump`.  The `JoinSet` is modelled with what tokio does to it: a `Reset` aborts the
jobs in it but leaves them there until they are joined, where each is cancelled or, if it was done already, delivers its
result; and an aborted job still takes a slot of `pump`.

`actor_refines` says that the task does nothing the abstract `registry` machine does not do, on which the invariants of the
registry rest, that the published snapshot is always that of the state, and that the `JoinSet` never grows beyond 16.
-/
namespace NexusNet
namespace Registry

open RegistryState

/-- `ServiceSnapshot`. -/
structure Snapshot where
  types : List String
  announced : List String
  backendReady : List String
  bootstrapped : Bool
deriving DecidableEq

/-- `RegistryState::snapshot`. -/
def RegistryState.snapshot (st : RegistryState) : Snapshot where
  types := sorted (st.knownTypes ∪ st.announced)
  announced := sorted st.announced
  backendReady := sorted st.backendReady
  bootstrapped := st.bootstrapped

inductive Progress where
  | running
  | finished (result : JobResult)
  | panicked

/-- A job of the `JoinSet`. -/
structure Task where
  spec : JobSpec
  aborted : Bool
  progress : Progress

/-- The task, with the value of the readiness channel and whether the task has still to see it. -/
structure RegistryActor where
  state : RegistryState
  jobs : List Task
  snapshot : Snapshot
  readiness : Finset String
  changed : Bool
  clock : Instant
  ended : Bool

/-- What happens to the task.  Each turn of its loop reads the clock twice: for the state, and in `pump`. -/
inductive Input where
  | command (command : ServiceCommand) (env : Env) (now later : Instant)
  | readinessChanged (env : Env) (now later : Instant)
  | join (i : Nat) (env : Env) (now later : Instant)
  | stop
  | publish (ready : Finset String)
  | finish (i : Nat) (result : JobResult)
  | panic (i : Nat)

namespace RegistryActor

def abortAll (jobs : List Task) : List Task := jobs.map (fun task => { task with aborted := true })

/-- `pump`, with the jobs it spawns. -/
def pump (A : RegistryActor) (env : Env) (now : Instant) : RegistryActor :=
  let (specs, st) := A.state.plan env now (env.config.registryMaxInflight - A.jobs.length)
  { A with state := st, jobs := A.jobs ++ specs.map (fun spec => ⟨spec, false, .running⟩), clock := now }

/-- The state is replaced and published. -/
def update (A : RegistryActor) (st : RegistryState) : RegistryActor := { A with state := st, snapshot := st.snapshot }

/-- `join_next` with the job at a place of the set: `none` while it runs. -/
def joined (A : RegistryActor) (env : Env) (now : Instant) (task : Task) : Option RegistryActor :=
  match task.progress with
  | .finished result => some (A.update (A.state.apply env now result))
  | .panicked => some A
  | .running => if task.aborted then some A else none

def step (A : RegistryActor) (input : Input) : Option RegistryActor :=
  if A.ended then none
  else match input with
  | .command command env now later =>
    if A.clock ≤ now ∧ now ≤ later then
      let A := if command = .reset then { A with jobs := abortAll A.jobs } else A
      some ((A.update (A.state.handle command now)).pump env later)
    else none
  | .readinessChanged env now later =>
    if A.changed = true ∧ A.clock ≤ now ∧ now ≤ later then
      some (({ A with changed := false }.update (A.state.replaceBackendReady A.readiness now)).pump env later)
    else none
  | .join i env now later =>
    if A.clock ≤ now ∧ now ≤ later then
      A.jobs[i]?.bind (fun task =>
        (joined { A with jobs := A.jobs.eraseIdx i } env now task).map (pump · env later))
    else none
  | .stop => some { A with jobs := [], ended := true }
  | .publish ready => some { A with readiness := ready, changed := true }
  | .finish i result =>
    A.jobs[i]?.bind (fun task => match task.progress with
      | .running =>
        if result.answers task.spec then
          some { A with jobs := A.jobs.set i { task with progress := .finished result } }
        else none
      | _ => none)
  | .panic i =>
    A.jobs[i]?.bind (fun task => match task.progress with
      | .running => some { A with jobs := A.jobs.set i { task with progress := .panicked } }
      | _ => none)

/-- The task when `run` enters its loop: the readiness of then is taken over. -/
def new (ready : Finset String) (env : Env) (now later : Instant) : RegistryActor :=
  (update ⟨RegistryState.new, [], RegistryState.new.snapshot, ready, false, now, false⟩
    (RegistryState.new.replaceBackendReady ready now)).pump env later

end RegistryActor

/-- The task of a registry that starts with the given readiness. -/
def registryActor (ready : Finset String) (env : Env) (now later : Instant) : Machine RegistryActor Input :=
  ⟨.new ready env now later, RegistryActor.step⟩

/-! ## What a step does -/

/-- **The turns of the loop, and what happens around it.** -/
inductive Turned (A : RegistryActor) : Input → RegistryActor → Prop where
  | command (c : ServiceCommand) (env : Env) (now later : Instant) (other : c ≠ .reset) (clock : A.clock ≤ now)
      (order : now ≤ later) :
      Turned A (.command c env now later) ((A.update (A.state.handle c now)).pump env later)
  | reset (env : Env) (now later : Instant) (clock : A.clock ≤ now) (order : now ≤ later) :
      Turned A (.command .reset env now later)
        ((({ A with jobs := RegistryActor.abortAll A.jobs } : RegistryActor).update (A.state.handle .reset now)).pump env later)
  | readinessChanged (env : Env) (now later : Instant) (changed : A.changed = true) (clock : A.clock ≤ now)
      (order : now ≤ later) :
      Turned A (.readinessChanged env now later)
        ((({ A with changed := false } : RegistryActor).update (A.state.replaceBackendReady A.readiness now)).pump env later)
  | joined (i : Nat) (env : Env) (now later : Instant) (task : Task) (result : JobResult) (found : A.jobs[i]? = some task)
      (finished : task.progress = .finished result) (clock : A.clock ≤ now) (order : now ≤ later) :
      Turned A (.join i env now later)
        ((({ A with jobs := A.jobs.eraseIdx i } : RegistryActor).update (A.state.apply env now result)).pump env later)
  | dropped (i : Nat) (env : Env) (now later : Instant) (task : Task) (found : A.jobs[i]? = some task)
      (clock : A.clock ≤ now) (order : now ≤ later) :
      Turned A (.join i env now later) (({ A with jobs := A.jobs.eraseIdx i } : RegistryActor).pump env later)
  | stop : Turned A .stop { A with jobs := [], ended := true }
  | publish (ready : Finset String) : Turned A (.publish ready) { A with readiness := ready, changed := true }
  | finish (i : Nat) (task : Task) (result : JobResult) (found : A.jobs[i]? = some task)
      (answers : result.answers task.spec = true) :
      Turned A (.finish i result) { A with jobs := A.jobs.set i { task with progress := .finished result } }
  | panic (i : Nat) (task : Task) (found : A.jobs[i]? = some task) :
      Turned A (.panic i) { A with jobs := A.jobs.set i { task with progress := .panicked } }

theorem turned_of_step {A A' : RegistryActor} {input : Input} (h : A.step input = some A') : Turned A input A' := by
  unfold RegistryActor.step at h
  obtain ⟨-, h⟩ := Option.ite_none_left_eq_some.1 h
  cases input with
  | command c env now later =>
    obtain ⟨hclock, h⟩ := Option.ite_none_right_eq_some.1 h
    cases h
    by_cases hc : c = .reset
    · subst hc
      exact .reset env now later hclock.1 hclock.2
    · simp only [hc, if_false]
      exact .command c env now later hc hclock.1 hclock.2
  | readinessChanged env now later =>
    obtain ⟨hclock, h⟩ := Option.ite_none_right_eq_some.1 h
    cases h
    exact .readinessChanged env now later hclock.1 hclock.2.1 hclock.2.2
  | join i env now later =>
    obtain ⟨hclock, h⟩ := Option.ite_none_right_eq_some.1 h
    obtain ⟨task, hfound, h⟩ := Option.bind_eq_some_iff.1 h
    obtain ⟨A', hjoined, rfl⟩ := Option.map_eq_some_iff.1 h
    unfold RegistryActor.joined at hjoined
    split at hjoined
    · rename_i result hprogress
      cases hjoined
      exact .joined i env now later task result hfound hprogress hclock.1 hclock.2
    · cases hjoined
      exact .dropped i env now later task hfound hclock.1 hclock.2
    · obtain ⟨-, hjoined⟩ := Option.ite_none_right_eq_some.1 hjoined
      cases hjoined
      exact .dropped i env now later task hfound hclock.1 hclock.2
  | stop =>
    cases h
    exact .stop
  | publish ready =>
    cases h
    exact .publish ready
  | finish i result =>
    obtain ⟨task, hfound, h⟩ := Option.bind_eq_some_iff.1 h
    split at h
    · obtain ⟨hanswers, h⟩ := Option.ite_none_right_eq_some.1 h
      cases h
      exact .finish i task result hfound hanswers
    · cases h
  | panic i =>
    obtain ⟨task, hfound, h⟩ := Option.bind_eq_some_iff.1 h
    split at h
    · cases h
      exact .panic i task hfound
    · cases h

/-! ## The jobs that count -/

/-- The jobs that no `Reset` has aborted. -/
def live (jobs : List Task) : Multiset JobSpec := ((jobs.filter (fun task => !task.aborted)).map Task.spec : List JobSpec)

theorem live_append (jobs more : List Task) : live (jobs ++ more) = live jobs + live more := by
  simp only [live, List.filter_append, List.map_append, Multiset.coe_add]

theorem live_started (specs : List JobSpec) :
    live (specs.map (fun spec => (⟨spec, false, .running⟩ : Task))) = (specs : Multiset JobSpec) := by
  unfold live
  rw [List.filter_eq_self.2 (by simp), List.map_map]
  exact congrArg _ (List.map_id specs)

theorem live_abortAll (jobs : List Task) : live (RegistryActor.abortAll jobs) = 0 := by
  unfold live RegistryActor.abortAll
  rw [List.filter_eq_nil_iff.2 (by simp)]
  rfl

theorem live_cons (task : Task) (rest : List Task) :
    live (task :: rest) = (if task.aborted then 0 else {task.spec}) + live rest := by
  rw [← List.singleton_append, live_append]
  cases haborted : task.aborted <;> simp [live, haborted]

/-- A job taken out of the set. -/
theorem live_eraseIdx {jobs : List Task} {i : Nat} {task : Task} (h : jobs[i]? = some task) :
    live jobs = if task.aborted then live (jobs.eraseIdx i) else task.spec ::ₘ live (jobs.eraseIdx i) := by
  induction jobs generalizing i with
  | nil => cases h
  | cons first rest ih =>
    cases i with
    | zero =>
      cases h
      rw [List.eraseIdx_cons_zero, live_cons]
      cases task.aborted <;> simp
    | succ i =>
      rw [List.eraseIdx_cons_succ, live_cons, live_cons, ih h]
      cases task.aborted <;> simp [Multiset.add_cons]

/-- What a job has come to does not matter. -/
theorem live_set {jobs : List Task} {i : Nat} {task : Task} (progress : Progress) (h : jobs[i]? = some task) :
    live (jobs.set i { task with progress := progress }) = live jobs := by
  induction jobs generalizing i with
  | nil => rfl
  | cons first rest ih =>
    cases i with
    | zero =>
      cases h
      rw [List.set_cons_zero, live_cons, live_cons]
    | succ i => rw [List.set_cons_succ, live_cons, live_cons, ih h]

theorem generation_of_plan (env : Env) (st : RegistryState) (now : Instant) (slots : Nat) {job : JobSpec}
    (h : job ∈ (st.plan env now slots).1) : job.generation = st.generation := by
  have hall := (plan_steps env st now slots).1.invariant
    (P := fun st' J => ∀ job ∈ J, job.generation = st.generation) (J := 0) ?_ (by simp)
  · exact hall job (by simpa using h)
  · intro st' o st'' J hkept hstep hJ job hmem
    rcases Multiset.mem_add.1 hmem with hmem | hmem
    · exact hJ job hmem
    · have hgeneration := hkept.generation
      cases hstep <;> simp only [Option.toList_some, Option.toList_none, Multiset.mem_coe, List.mem_singleton,
        List.not_mem_nil] at hmem <;> (subst hmem; exact hgeneration)

theorem generation_of_answers {result : JobResult} {job : JobSpec} (h : result.answers job = true) :
    result.generation = job.generation := by
  rcases answers_cases h with ⟨g, s, key, x, rfl, rfl⟩ | ⟨g, s, key, x, rfl, rfl⟩ | ⟨g, x, rfl, rfl⟩ |
    ⟨g, value, x, rfl, rfl⟩ <;> rfl

/-! ## The refinement -/

/-- **The task and the abstract registry**: the same state at the same time, and every live job is one that runs there.
Generations count the resets, so an aborted job is of an older one. -/
structure Simulates (resets : Nat) (A : RegistryActor) (s : System) : Prop where
  reg : s.reg = A.state
  clock : s.clock = A.clock
  jobs : live A.jobs ≤ s.jobs
  answered : ∀ task ∈ A.jobs, ∀ result, task.progress = .finished result → result.answers task.spec = true
  generation : A.state.generation = UInt64.ofNat resets
  tasks : ∀ task ∈ A.jobs, ∃ g, task.spec.generation = UInt64.ofNat g ∧ if task.aborted then g < resets else g = resets

/-- The task keeps to `pump`'s bound and publishes what it does. -/
structure Published (A : RegistryActor) : Prop where
  snapshot : A.snapshot = A.state.snapshot
  bounded : A.jobs.length ≤ 16

section Steps

variable {resets : Nat} {A : RegistryActor} {s : System}

theorem snapshot_kept {st st' : RegistryState} (h : Kept st st') : st'.snapshot = st.snapshot := by
  simp only [RegistryState.snapshot, h.knownTypes, h.announced, h.backendReady, h.bootstrapped]

theorem Published.pump (h : Published A) (env : Env) (now : Instant) : Published (A.pump env now) where
  snapshot := h.snapshot.trans (snapshot_kept (plan_kept env A.state now _)).symm
  bounded := by
    have hlen := (plan_steps env A.state now (env.config.registryMaxInflight - A.jobs.length)).2
    have hmax : env.config.registryMaxInflight ≤ 16 := Nat.min_le_right _ _
    have := h.bounded
    simp only [RegistryActor.pump, List.length_append, List.length_map]
    omega

/-- **`pump` plans**, with a slot less for each aborted job that is still in the set. -/
theorem Simulates.pump (h : Simulates resets A s) (env : Env) {now : Instant} (hnow : A.clock ≤ now) :
    ∃ t, registry.step s (.plan env now (env.config.registryMaxInflight - A.jobs.length)) = some t ∧
      Simulates resets (A.pump env now) t := by
  refine ⟨_, step_eq_some.2 ⟨by rw [h.clock]; exact hnow, rfl, rfl⟩, ?_⟩
  have hkept := plan_kept env A.state now (env.config.registryMaxInflight - A.jobs.length)
  refine ⟨?_, rfl, ?_, fun task hmem result hresult => ?_, hkept.generation.trans h.generation, fun task hmem => ?_⟩
  · simp only [next, RegistryActor.pump, h.reg]
  · simp only [next, RegistryActor.pump, h.reg, live_append, live_started]
    exact Multiset.add_le_add_right h.jobs
  all_goals rcases List.mem_append.1 hmem with hmem | hmem
  · exact h.answered task hmem result hresult
  · obtain ⟨spec, -, rfl⟩ := List.mem_map.1 hmem
    cases hresult
  · exact h.tasks task hmem
  · obtain ⟨spec, hspec, rfl⟩ := List.mem_map.1 hmem
    exact ⟨resets, (generation_of_plan env A.state now _ hspec).trans h.generation, rfl⟩

/-- **A turn of the loop**: the state goes on as in the abstract registry, then `pump`. -/
theorem Simulates.turn (event : Event) (hevent : s.clock ≤ event.now ∧ enabled s event = true) {st : RegistryState}
    (hreg : (next s event).reg = st) {env : Env} {now later : Instant} (hclock : (next s event).clock = now)
    (hlater : now ≤ later) (hjobs : live A.jobs ≤ (next s event).jobs)
    (hanswered : ∀ task ∈ A.jobs, ∀ result, task.progress = .finished result → result.answers task.spec = true)
    (hgeneration : st.generation = UInt64.ofNat resets)
    (htasks : ∀ task ∈ A.jobs, ∃ g, task.spec.generation = UInt64.ofNat g ∧
      if task.aborted then g < resets else g = resets) :
    ∃ events t, registry.runFrom s events = some t ∧ Simulates resets ((A.update st).pump env later) t := by
  have hbetween : Simulates resets { A.update st with clock := now } (next s event) :=
    ⟨hreg, hclock, hjobs, hanswered, hgeneration, htasks⟩
  obtain ⟨t', hplan, hsim⟩ := hbetween.pump env hlater
  have hstep : registry.step s event = some (next s event) := step_eq_some.2 ⟨hevent.1, hevent.2, rfl⟩
  exact ⟨[event, _], t', (registry.runFrom_cons).2 ⟨_, hstep, (registry.runFrom_cons).2 ⟨t', hplan, rfl⟩⟩, hsim⟩

end Steps

theorem generation_handle (st : RegistryState) {c : ServiceCommand} (now : Instant) (h : c ≠ .reset) :
    (st.handle c now).generation = st.generation := by
  cases c with
  | reset => exact absurd rfl h
  | relayStateChanged needRelay active => exact (relayStateChanged_frame st needRelay active).generation
  | _ => rfl

def Input.isReset : Input → Bool
  | .command .reset _ _ _ => true
  | _ => false

section Run

variable {resets : Nat} {A A' : RegistryActor} {s : System} {input : Input}

theorem Published.step (h : Published A) (hstep : Turned A input A') : Published A' := by
  have hupdated : ∀ (A : RegistryActor) st, A.jobs.length ≤ 16 → Published (A.update st) := fun A st hlen => ⟨rfl, hlen⟩
  have herased : ∀ i, (A.jobs.eraseIdx i).length ≤ 16 := fun i => (List.length_eraseIdx_le _ i).trans h.bounded
  cases hstep with
  | command c env now later => exact (hupdated A _ h.bounded).pump env later
  | reset env now later =>
    exact (hupdated { A with jobs := RegistryActor.abortAll A.jobs } _
      (by simpa [RegistryActor.abortAll] using h.bounded)).pump env later
  | readinessChanged env now later => exact (hupdated { A with changed := false } _ h.bounded).pump env later
  | joined i env now later => exact (hupdated { A with jobs := A.jobs.eraseIdx i } _ (herased i)).pump env later
  | dropped i env now later =>
    exact Published.pump (A := { A with jobs := A.jobs.eraseIdx i }) ⟨h.snapshot, herased i⟩ env later
  | stop => exact ⟨h.snapshot, Nat.zero_le _⟩
  | publish ready => exact ⟨h.snapshot, h.bounded⟩
  | finish | panic => exact ⟨h.snapshot, by simpa using h.bounded⟩

/-- A job that is taken out of the set. -/
theorem Simulates.erase (h : Simulates resets A s) {i : Nat} {task : Task} (hfound : A.jobs[i]? = some task) :
    Simulates resets { A with jobs := A.jobs.eraseIdx i } s := by
  have hlive : live (A.jobs.eraseIdx i) ≤ live A.jobs := by
    rw [live_eraseIdx hfound]
    split
    · exact le_refl _
    · exact Multiset.le_cons_self _ _
  exact ⟨h.reg, h.clock, hlive.trans h.jobs, fun other hother => h.answered other (List.mem_of_mem_eraseIdx hother),
    h.generation, fun other hother => h.tasks other (List.mem_of_mem_eraseIdx hother)⟩

/-- A job whose progress changes. -/
theorem Simulates.set (h : Simulates resets A s) {i : Nat} {task : Task} {progress : Progress}
    (hfound : A.jobs[i]? = some task) (hanswers : ∀ result, progress = .finished result → result.answers task.spec = true) :
    Simulates resets { A with jobs := A.jobs.set i { task with progress := progress } } s := by
  have hmem := List.mem_of_getElem? hfound
  refine ⟨h.reg, h.clock, (live_set progress hfound).symm ▸ h.jobs, fun other hother result hresult => ?_, h.generation,
    fun other hother => ?_⟩
  all_goals rcases List.mem_or_eq_of_mem_set hother with hold | rfl
  · exact h.answered other hold result hresult
  · exact hanswers result hresult
  · exact h.tasks other hold
  · exact h.tasks task hmem

/-- **One step of the task is some steps of the abstract registry.** -/
theorem Simulates.step (h : Simulates resets A s) (hstep : Turned A input A') (hresets : resets < 2 ^ 64) :
    ∃ events t, registry.runFrom s events = some t ∧ Simulates (resets + input.isReset.toNat) A' t := by
  have hclock : ∀ {now}, A.clock ≤ now → s.clock ≤ now := fun hnow => h.clock ▸ hnow
  cases hstep with
  | command c env now later other clock order =>
    have hcount : (Input.command c env now later).isReset.toNat = 0 := by
      cases c <;> first | rfl | exact absurd rfl other
    rw [hcount]
    refine Simulates.turn (.command c now) ⟨hclock clock, rfl⟩ (by simp only [next, h.reg]) rfl order ?_ h.answered
      ((generation_handle _ now other).trans h.generation) h.tasks
    simp only [next, other, if_false]
    exact h.jobs
  | reset env now later clock order =>
    refine Simulates.turn (A := { A with jobs := RegistryActor.abortAll A.jobs }) (.command .reset now) ⟨hclock clock, rfl⟩
      (by simp only [next, h.reg]) rfl order ?_ (fun task hmem result hresult => ?_) ?_ (fun task hmem => ?_)
    · rw [live_abortAll]
      exact Multiset.zero_le _
    · obtain ⟨old, hold, rfl⟩ := List.mem_map.1 hmem
      exact h.answered old hold result hresult
    · change A.state.generation + 1 = UInt64.ofNat (resets + 1)
      rw [h.generation, UInt64.ofNat_add]
      rfl
    · obtain ⟨old, hold, rfl⟩ := List.mem_map.1 hmem
      obtain ⟨g, hg, hle⟩ := h.tasks old hold
      refine ⟨g, hg, ?_⟩
      simp only [if_true]
      split at hle <;> simp only [Input.isReset, Bool.toNat_true] <;> omega
  | readinessChanged env now later changed clock order =>
    exact Simulates.turn (A := { A with changed := false }) (.readiness A.readiness now) ⟨hclock clock, rfl⟩
      (by simp only [next, h.reg]) rfl order h.jobs h.answered h.generation h.tasks
  | joined i env now later task result found finished clock order =>
    have hmem := List.mem_of_getElem? found
    have hanswers := h.answered task hmem result finished
    have hless := h.erase found
    have hlive := live_eraseIdx found
    have hgeneration : (A.state.apply env now result).generation = UInt64.ofNat resets :=
      (apply_standing env A.state now result).generation.trans h.generation
    cases haborted : task.aborted with
    | false =>
      -- a live job: its result completes it
      rw [haborted, if_neg (by simp)] at hlive
      have hin : task.spec ∈ s.jobs := Multiset.mem_of_le h.jobs (hlive ▸ Multiset.mem_cons_self _ _)
      refine Simulates.turn (A := { A with jobs := A.jobs.eraseIdx i }) (.complete env task.spec result now)
        ⟨hclock clock, by simp [enabled, hin, hanswers]⟩ (by simp only [next, h.reg]) rfl order ?_ hless.answered hgeneration
        hless.tasks
      have := Multiset.erase_le_erase task.spec h.jobs
      rwa [hlive, Multiset.erase_cons_head] at this
    | true =>
      -- an aborted one that was done before: its result is of an older generation
      obtain ⟨g, hg, hlt⟩ := h.tasks task hmem
      rw [haborted, if_pos rfl] at hlt
      have hstale : result.generation ≠ s.reg.generation := by
        rw [generation_of_answers hanswers, hg, h.reg, h.generation]
        intro heq
        have := congrArg UInt64.toNat heq
        rw [UInt64.toNat_ofNat_of_lt' (by simpa using hlt.trans hresets),
          UInt64.toNat_ofNat_of_lt' (by simpa using hresets)] at this
        omega
      exact Simulates.turn (A := { A with jobs := A.jobs.eraseIdx i }) (.stale env result now)
        ⟨hclock clock, by simpa [enabled] using hstale⟩ (by simp only [next, h.reg]) rfl order hless.jobs hless.answered
        hgeneration hless.tasks
  | dropped i env now later task found clock order =>
    obtain ⟨t, hplan, hsim⟩ := (h.erase found).pump env (clock.trans order)
    exact ⟨[_], t, (registry.runFrom_cons).2 ⟨t, hplan, rfl⟩, hsim⟩
  | stop => exact ⟨[], s, rfl, h.reg, h.clock, Multiset.zero_le _, by simp, h.generation, by simp⟩
  | publish ready => exact ⟨[], s, rfl, h.reg, h.clock, h.jobs, h.answered, h.generation, h.tasks⟩
  | finish i task result found answers =>
    refine ⟨[], s, rfl, h.set found (fun other heq => ?_)⟩
    cases heq
    exact answers
  | panic i task found => exact ⟨[], s, rfl, h.set found (fun other heq => by cases heq)⟩

end Run

/-! ## Runs -/

/-- **The task refines the registry**: after every run of the task with fewer than 2^64 resets the abstract machine has a
run to the same state in which every job that is not aborted runs, the published snapshot is that of the state, and the
`JoinSet` holds at most 16 jobs, aborted ones included. -/
theorem actor_refines (ready : Finset String) (env : Env) (now later : Instant) (hstart : now ≤ later) (inputs : List Input)
    (A : RegistryActor) (hrun : (registryActor ready env now later).run inputs = some A)
    (hresets : inputs.countP Input.isReset < 2 ^ 64) :
    (∃ events s, registry.run events = some s ∧ s.reg = A.state ∧ live A.jobs ≤ s.jobs) ∧
      A.snapshot = A.state.snapshot ∧ A.jobs.length ≤ 16 := by
  have hinv := (registryActor ready env now later).history_invariant
    (P := fun inputs A => inputs.countP Input.isReset < 2 ^ 64 →
      Published A ∧ ∃ events s, registry.run events = some s ∧ Simulates (inputs.countP Input.isReset) A s)
    ?_ ?_ inputs A hrun (Machine.meets_true _ _ _)
  · obtain ⟨hpublished, events, s, hevents, hsim⟩ := hinv hresets
    exact ⟨⟨events, s, hevents, hsim.reg, hsim.jobs⟩, hpublished.snapshot, hpublished.bounded⟩
  · -- `run` takes over the readiness and plans for the first time
    intro _
    refine ⟨Published.pump ⟨rfl, Nat.zero_le _⟩ env later, ?_⟩
    exact Simulates.turn (A := ⟨RegistryState.new, [], RegistryState.new.snapshot, ready, false, now, false⟩)
      (.readiness ready now) ⟨Nat.zero_le _, rfl⟩ rfl rfl hstart (Multiset.zero_le _) (by simp) rfl (by simp)
  · rintro inputs A input A' h - hstep hresets
    rw [List.countP_append, List.countP_singleton] at hresets ⊢
    obtain ⟨hpublished, events, s, hevents, hsim⟩ := h (by omega)
    have hturned := turned_of_step hstep
    obtain ⟨more, t, hmore, hsim'⟩ := hsim.step hturned (by omega)
    have hcount : input.isReset.toNat = if input.isReset = true then 1 else 0 := by cases input.isReset <;> rfl
    rw [hcount] at hsim'
    exact ⟨hpublished.step hturned, events ++ more, t, (registry.runFrom_append _ _ _).2 ⟨s, hevents, hmore⟩, hsim'⟩

/-- `cmd` is announced, a `Reset` aborts the announcement when it is done already, and both jobs are joined. -/
def resetRun : List Input :=
  [.command .bootstrapCompleted cmdEnv 0 0, .finish 0 (.announced 0 "cmd" (.ok ())), .command .reset cmdEnv 1 1,
    .command .bootstrapCompleted cmdEnv 2 2, .join 0 cmdEnv 3 3]

theorem reset_refined : ∃ A,
    (registryActor {"cmd"} cmdEnv 0 0).run resetRun = some A ∧ A.jobs.length = 4 ∧ A.state.announced = ∅ ∧
    (∃ events s, registry.run events = some s ∧ s.reg = A.state ∧ live A.jobs ≤ s.jobs) ∧
      A.snapshot = A.state.snapshot ∧ A.jobs.length ≤ 16 := by
  obtain ⟨A, hrun, hA⟩ := (registryActor {"cmd"} cmdEnv 0 0).exists_of_check
    (fun A => A.jobs.length == 4 && decide (A.state.announced = ∅)) resetRun (by decide +kernel)
  simp only [Bool.and_eq_true, beq_iff_eq, decide_eq_true_eq] at hA
  exact ⟨A, hrun, hA.1, hA.2, actor_refines {"cmd"} cmdEnv 0 0 (le_refl 0) resetRun A hrun (by decide)⟩

end Registry
end NexusNet
