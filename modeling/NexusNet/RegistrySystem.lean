import NexusNet.Machine
import NexusNet.RegistryPlan
/-!
# RegistrySystem — the registry with its running jobs

`ServiceRegistryActor` around `RegistryState`: commands, readiness updates, planning calls and job completions in any
order, on a clock that does not go back.  A `Reset` aborts the running jobs (`abort_all`), so `jobs` holds those started
since; a job that had already finished then still delivers its result, which is any result of another generation
(`stale`).  `provided` and `failedAt` are read by no step: they record the provider records that exist and the last
failed withdrawals.

What a result does is inverted once (`apply_applied`).
-/
namespace NexusNet
namespace Registry

open RegistryState

/-- The result is one the job can end with. -/
def JobResult.answers : JobResult → JobSpec → Bool
  | .announced g s _, .announce g' s' _    => g == g' && s == s'
  | .withdrawn g s _, .withdraw g' s' _    => g == g' && s == s'
  | .typesRead g _, .readTypes g'          => g == g'
  | .typesWritten g _, .writeTypes g' _    => g == g'
  | _, _                                   => false

/-- The provider records: an announcement of this generation adds one, a withdrawal removes it. -/
def noteProvided (generation : UInt64) (provided : Finset String) : JobResult → Finset String
  | .announced g s (.ok ()) => if g = generation then insert s provided else provided
  | .withdrawn _ s (.ok ()) => provided.erase s
  | _                       => provided

/-- The time of each service's last failed withdrawal. -/
def noteFailed (now : Instant) (failedAt : Dict String Instant) : JobResult → Dict String Instant
  | .withdrawn _ s (.error _) => failedAt.insert s now
  | _                         => failedAt

structure System where
  reg : RegistryState
  jobs : Multiset JobSpec
  clock : Instant
  provided : Finset String
  failedAt : Dict String Instant

inductive Event where
  | command (c : ServiceCommand) (now : Instant)
  | readiness (ready : Finset String) (now : Instant)
  | plan (env : Env) (now : Instant) (slots : Nat)
  | complete (env : Env) (job : JobSpec) (result : JobResult) (now : Instant)
  | stale (env : Env) (result : JobResult) (now : Instant)

def Event.now : Event → Instant
  | .command _ now      => now
  | .readiness _ now    => now
  | .plan _ now _       => now
  | .complete _ _ _ now => now
  | .stale _ _ now      => now

/-- A completion needs a running job of its kind; a stale result has another generation. -/
def enabled (s : System) : Event → Bool
  | .complete _ job result _ => decide (job ∈ s.jobs) && result.answers job
  | .stale _ result _        => result.generation != s.reg.generation
  | _                        => true

def next (s : System) : Event → System
  | .command c now =>
    { s with
      reg := s.reg.handle c now
      jobs := if c = .reset then 0 else s.jobs
      clock := now
      provided := if c = .reset then ∅ else s.provided }
  | .readiness ready now => { s with reg := s.reg.replaceBackendReady ready now, clock := now }
  | .plan env now slots =>
    { s with reg := (s.reg.plan env now slots).2, jobs := s.jobs + (s.reg.plan env now slots).1, clock := now }
  | .complete env job result now =>
    { reg := s.reg.apply env now result
      jobs := s.jobs.erase job
      clock := now
      provided := noteProvided s.reg.generation s.provided result
      failedAt := noteFailed now s.failedAt result }
  | .stale env result now =>
    { s with
      reg := s.reg.apply env now result
      clock := now
      provided := noteProvided s.reg.generation s.provided result
      failedAt := noteFailed now s.failedAt result }

def System.step (s : System) (e : Event) : Option System :=
  if s.clock ≤ e.now ∧ enabled s e = true then some (next s e) else none

/-- A fresh registry at time 0. -/
def System.new : System := ⟨RegistryState.new, 0, 0, ∅, ∅⟩

def registry : Machine System Event := ⟨System.new, System.step⟩

theorem step_eq_some {s s' : System} {e : Event} :
    registry.step s e = some s' ↔ s.clock ≤ e.now ∧ enabled s e = true ∧ s' = next s e := by
  change System.step s e = some s' ↔ _
  unfold System.step
  split
  · rename_i h
    simp only [Option.some.injEq]
    exact ⟨fun h' => ⟨h.1, h.2, h'.symm⟩, fun h' => h'.2.2.symm⟩
  · rename_i h
    simp only [reduceCtorEq, false_iff]
    exact fun h' => h ⟨h'.1, h'.2.1⟩

/-- The environment of a node with one local service, `cmd`. -/
def cmdEnv : Env := ⟨NodeConfig.withServices [⟨"cmd", 6000, false⟩], Iteration.ascending String, fun _ => .ok []⟩

/-- `cmd` is announced, and a `Reannounce` starts a second announcement. -/
def reannouncedRun : List Event :=
  [.readiness {"cmd"} 0, .plan cmdEnv 0 4, .command .bootstrapCompleted 0, .plan cmdEnv 0 4,
    .complete cmdEnv (announceJob 0 "cmd") (.announced 0 "cmd" (.ok ())) 0, .plan cmdEnv 0 3,
    .command .reannounce 0, .plan cmdEnv 0 3]

/-! ## What a relay change does -/

theorem relayReady_eq_true {st : RegistryState} : st.relayReady = true ↔ st.needRelay = false ∨ 0 < st.activeRelays := by
  simp [relayReady]

/-- **The outcomes of a relay change**: the readiness stays, a relay became ready, the last one was lost. -/
theorem relayStateChanged_cases (st : RegistryState) (needRelay : Bool) (active : Nat) :
    (st.relayReady = ({ st with needRelay := needRelay, activeRelays := active } : RegistryState).relayReady ∧
      st.relayStateChanged needRelay active = { st with needRelay := needRelay, activeRelays := active }) ∨
    (st.relayReady = false ∧ (needRelay = false ∨ 0 < active) ∧
      st.relayStateChanged needRelay active =
        { st with
          needRelay := needRelay
          activeRelays := active
          announced := ∅
          announceFailures := ∅
          announceRetryAt := ∅
          relayWithdraw := ∅
          relayWithdrawRetryAt := ∅ }) ∨
    (st.relayReady = true ∧ ¬ (needRelay = false ∨ 0 < active) ∧
      st.relayStateChanged needRelay active =
        { st with
          needRelay := needRelay
          activeRelays := active
          relayWithdraw := st.relayWithdraw ∪ (st.announced ∪ st.announceInflight)
          announceRetryAt := ∅ }) := by
  unfold relayStateChanged
  simp only
  have hready := @relayReady_eq_true { st with needRelay := needRelay, activeRelays := active }
  split
  · rename_i h
    exact Or.inl ⟨h, rfl⟩
  · rename_i h
    split
    · rename_i h'
      rw [h'] at h
      exact Or.inr (Or.inl ⟨by simpa using h, hready.1 h', rfl⟩)
    · rename_i h'
      have hf : ({ st with needRelay := needRelay, activeRelays := active } : RegistryState).relayReady = false := by
        simpa using h'
      rw [hf] at h
      exact Or.inr (Or.inr ⟨by simpa using h, fun hn => h' (hready.2 hn), rfl⟩)

/-- What a relay change leaves alone. -/
structure RelayFrame (st st' : RegistryState) : Prop where
  bootstrapped : st'.bootstrapped = st.bootstrapped
  backendReady : st'.backendReady = st.backendReady
  announced : st'.announced ⊆ st.announced
  withdrawDeadline : st'.withdrawDeadline = st.withdrawDeadline
  announceInflight : st'.announceInflight = st.announceInflight
  withdrawInflight : st'.withdrawInflight = st.withdrawInflight
  knownTypes : st'.knownTypes = st.knownTypes
  reconcile : st'.reconcile = st.reconcile
  reconcileDirty : st'.reconcileDirty = st.reconcileDirty
  nextTypesSync : st'.nextTypesSync = st.nextTypesSync
  pendingTypesWrite : st'.pendingTypesWrite = st.pendingTypesWrite
  generation : st'.generation = st.generation

theorem relayStateChanged_frame (st : RegistryState) (needRelay : Bool) (active : Nat) :
    RelayFrame st (st.relayStateChanged needRelay active) := by
  rcases relayStateChanged_cases st needRelay active with ⟨-, hst⟩ | ⟨-, -, hst⟩ | ⟨-, -, hst⟩ <;> rw [hst]
  · exact ⟨rfl, rfl, Finset.Subset.refl _, rfl, rfl, rfl, rfl, rfl, rfl, rfl, rfl, rfl⟩
  · exact ⟨rfl, rfl, Finset.empty_subset _, rfl, rfl, rfl, rfl, rfl, rfl, rfl, rfl, rfl⟩
  · exact ⟨rfl, rfl, Finset.Subset.refl _, rfl, rfl, rfl, rfl, rfl, rfl, rfl, rfl, rfl⟩

/-! ## What a result does -/

/-- **The outcomes of `apply`**, each with the branch it is taken on and the whole state after it. -/
inductive Applied (st : RegistryState) (now : Instant) : JobResult → RegistryState → Prop where
  | announcedStale (g : UInt64) (s : String) (r : Except String Unit) (old : g ≠ st.generation) :
      Applied st now (.announced g s r) { st with announceInflight := st.announceInflight.erase s }
  | announcedNoRelay (s : String) (relay : st.relayReady = false) :
      Applied st now (.announced st.generation s (.ok ()))
        { ({ st with
            announceInflight := st.announceInflight.erase s
            announceFailures := st.announceFailures.erase s
            announceRetryAt := st.announceRetryAt.erase s
            announced := insert s st.announced } : RegistryState).markTypesDirty now with
          relayWithdraw := insert s st.relayWithdraw }
  | announcedUp (s : String) (relay : st.relayReady = true) (up : s ∈ st.backendReady)
      (boot : st.bootstrapped = true) :
      Applied st now (.announced st.generation s (.ok ()))
        (({ st with
            announceInflight := st.announceInflight.erase s
            announceFailures := st.announceFailures.erase s
            announceRetryAt := st.announceRetryAt.erase s
            announced := insert s st.announced } : RegistryState).markTypesDirty now)
  | announcedDown (s : String) (relay : st.relayReady = true)
      (down : ¬ (s ∈ st.backendReady ∧ st.bootstrapped = true)) :
      Applied st now (.announced st.generation s (.ok ()))
        { ({ st with
            announceInflight := st.announceInflight.erase s
            announceFailures := st.announceFailures.erase s
            announceRetryAt := st.announceRetryAt.erase s
            announced := insert s st.announced } : RegistryState).markTypesDirty now with
          withdrawDeadline := st.withdrawDeadline.insert s now }
  | announceFailedUp (s : String) (error : String) (failures : Nat) (up : s ∈ st.backendReady)
      (boot : st.bootstrapped = true) :
      Applied st now (.announced st.generation s (.error error))
        { st with
          announceInflight := st.announceInflight.erase s
          announceFailures := st.announceFailures.insert s failures
          announceRetryAt := st.announceRetryAt.insert s (now + retryDelay failures) }
  | announceFailedDown (s : String) (error : String) (down : ¬ (s ∈ st.backendReady ∧ st.bootstrapped = true)) :
      Applied st now (.announced st.generation s (.error error))
        { st with announceInflight := st.announceInflight.erase s }
  | withdrawnStale (g : UInt64) (s : String) (r : Except String Unit) (old : g ≠ st.generation) :
      Applied st now (.withdrawn g s r) { st with withdrawInflight := st.withdrawInflight.erase s }
  | withdrawnUp (s : String) (up : s ∈ st.backendReady) (relay : st.relayReady = true) :
      Applied st now (.withdrawn st.generation s (.ok ()))
        { st with
          withdrawInflight := st.withdrawInflight.erase s
          announced := st.announced.erase s
          relayWithdraw := st.relayWithdraw.erase s
          relayWithdrawRetryAt := st.relayWithdrawRetryAt.erase s
          announceRetryAt := st.announceRetryAt.insert s now }
  | withdrawnDown (s : String) (down : ¬ (s ∈ st.backendReady ∧ st.relayReady = true)) :
      Applied st now (.withdrawn st.generation s (.ok ()))
        { st with
          withdrawInflight := st.withdrawInflight.erase s
          announced := st.announced.erase s
          relayWithdraw := st.relayWithdraw.erase s
          relayWithdrawRetryAt := st.relayWithdrawRetryAt.erase s }
  | withdrawFailedRelay (s : String) (error : String) (forced : s ∈ st.relayWithdraw) :
      Applied st now (.withdrawn st.generation s (.error error))
        { st with
          withdrawInflight := st.withdrawInflight.erase s
          relayWithdrawRetryAt := st.relayWithdrawRetryAt.insert s (now + announceRetryInitial) }
  | withdrawFailedUp (s : String) (error : String) (free : s ∉ st.relayWithdraw) (up : s ∈ st.backendReady) :
      Applied st now (.withdrawn st.generation s (.error error))
        { st with
          withdrawInflight := st.withdrawInflight.erase s
          announceRetryAt := st.announceRetryAt.insert s now }
  | withdrawFailedDown (s : String) (error : String) (free : s ∉ st.relayWithdraw) (down : s ∉ st.backendReady) :
      Applied st now (.withdrawn st.generation s (.error error))
        { st with
          withdrawInflight := st.withdrawInflight.erase s
          withdrawDeadline := st.withdrawDeadline.insert s (now + announceRetryInitial) }
  | typesReadIgnored (g : UInt64) (r : Except String (List String))
      (ignored : g ≠ st.generation ∨ st.reconcile ≠ .reading) : Applied st now (.typesRead g r) st
  | typesReadDone (r : Except String (List String)) (known : Finset String) (next : Option Instant) (dirty : Bool)
      (reading : st.reconcile = .reading) :
      Applied st now (.typesRead st.generation r)
        { st with
          knownTypes := known
          reconcile := .idle
          pendingTypesWrite := none
          nextTypesSync := next
          reconcileDirty := dirty }
  | typesReadReady (r : Except String (List String)) (known : Finset String) (value : List UInt8)
      (reading : st.reconcile = .reading) :
      Applied st now (.typesRead st.generation r)
        { st with
          knownTypes := known
          pendingTypesWrite := some value
          reconcile := .readyToWrite
          reconcileDirty := false }
  | typesWrittenIgnored (g : UInt64) (r : Except String Unit)
      (ignored : g ≠ st.generation ∨ st.reconcile ≠ .writing) : Applied st now (.typesWritten g r) st
  | typesWrittenDone (r : Except String Unit) (next : Option Instant) (writing : st.reconcile = .writing) :
      Applied st now (.typesWritten st.generation r)
        { st with
          reconcile := .idle
          pendingTypesWrite := none
          nextTypesSync := next
          reconcileDirty := false }

theorem applyAnnounced_applied (st : RegistryState) (now : Instant) (g : UInt64) (s : String)
    (r : Except String Unit) : Applied st now (.announced g s r) (st.applyAnnounced now g s r) := by
  unfold applyAnnounced
  simp only
  split
  · rename_i hg
    exact .announcedStale g s r hg
  · rename_i hg
    obtain rfl : g = st.generation := by simpa using hg
    cases r with
    | ok u =>
      simp only
      split
      · rename_i hrelay
        exact .announcedNoRelay s hrelay
      · rename_i hrelay
        have hready : st.relayReady = true := Bool.eq_true_of_not_eq_false hrelay
        split
        · rename_i h
          exact .announcedUp s hready h.1 h.2
        · rename_i h
          exact .announcedDown s hready h
    | error e =>
      simp only
      split
      · rename_i h
        exact .announceFailedUp s e _ h.1 h.2
      · rename_i h
        exact .announceFailedDown s e h

theorem applyWithdrawn_applied (st : RegistryState) (now : Instant) (g : UInt64) (s : String)
    (r : Except String Unit) : Applied st now (.withdrawn g s r) (st.applyWithdrawn now g s r) := by
  unfold applyWithdrawn
  simp only
  split
  · rename_i hg
    exact .withdrawnStale g s r hg
  · rename_i hg
    obtain rfl : g = st.generation := by simpa using hg
    cases r with
    | ok u =>
      simp only
      split
      · rename_i h
        exact .withdrawnUp s h.1 h.2
      · rename_i h
        exact .withdrawnDown s h
    | error e =>
      simp only
      split
      · rename_i h
        exact .withdrawFailedRelay s e h
      · rename_i h
        split
        · rename_i hup
          exact .withdrawFailedUp s e h hup
        · rename_i hup
          exact .withdrawFailedDown s e h hup

theorem applyTypesRead_applied (env : Env) (st : RegistryState) (now : Instant) (g : UInt64)
    (r : Except String (List String)) : Applied st now (.typesRead g r) (st.applyTypesRead env now g r) := by
  unfold applyTypesRead
  split
  · rename_i h
    exact .typesReadIgnored g r h
  · rename_i h
    rw [not_or, not_not, not_not] at h
    obtain ⟨rfl, hr⟩ := h
    cases r with
    | ok types =>
      simp only
      split
      · exact .typesReadDone _ _ _ false hr
      · split
        · exact .typesReadReady _ _ _ hr
        · exact .typesReadDone _ _ _ st.reconcileDirty hr
    | error e => exact .typesReadDone _ st.knownTypes _ false hr

theorem applyTypesWritten_applied (env : Env) (st : RegistryState) (now : Instant) (g : UInt64)
    (r : Except String Unit) : Applied st now (.typesWritten g r) (st.applyTypesWritten env now g r) := by
  unfold applyTypesWritten
  split
  · rename_i h
    exact .typesWrittenIgnored g r h
  · rename_i h
    rw [not_or, not_not, not_not] at h
    obtain ⟨rfl, hr⟩ := h
    cases r with
    | ok u => exact .typesWrittenDone _ _ hr
    | error e => exact .typesWrittenDone _ _ hr

/-- **Every call of `apply` is one of the listed outcomes.** -/
theorem apply_applied (env : Env) (st : RegistryState) (now : Instant) (r : JobResult) :
    Applied st now r (st.apply env now r) := by
  cases r with
  | announced g s r    => exact applyAnnounced_applied st now g s r
  | withdrawn g s r    => exact applyWithdrawn_applied st now g s r
  | typesRead g r      => exact applyTypesRead_applied env st now g r
  | typesWritten g r   => exact applyTypesWritten_applied env st now g r

/-- What no result changes. -/
structure Standing (st st' : RegistryState) : Prop where
  bootstrapped : st'.bootstrapped = st.bootstrapped
  relayReady : st'.relayReady = st.relayReady
  backendReady : st'.backendReady = st.backendReady
  generation : st'.generation = st.generation

theorem Applied.standing {st st' : RegistryState} {now : Instant} {r : JobResult} (h : Applied st now r st') :
    Standing st st' := by
  cases h <;> exact ⟨rfl, rfl, rfl, rfl⟩

theorem apply_standing (env : Env) (st : RegistryState) (now : Instant) (r : JobResult) :
    Standing st (st.apply env now r) := (apply_applied env st now r).standing

end Registry
end NexusNet
