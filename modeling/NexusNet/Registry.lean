import NexusNet.Config
/-!
# Registry — the service registry's state machine

`RegistryState` of `service_registry.rs`: what a command, a readiness update, a planning pass and a job result do to
it.  The state holds no configuration: the handle is shared and may change between two calls, so every function that
reads it takes the configuration of its call (`Env`), with the iteration order of the hash set it copies and the JSON
encoder.  Log lines are not modelled.
-/
namespace NexusNet
namespace Registry

/-- Nanoseconds of the monotone clock. -/
abbrev Instant := Nat

def secs (n : Nat) : Nat := n * 1000000000

def withdrawGrace : Nat := secs 3
def maxTypes : Nat := 4096
def announceRetryInitial : Nat := secs 5
def announceRetryMax : Nat := secs 60
def reconcileRetry : Nat := secs 30

def serviceKey (name : String) : String := "/oahd/service/" ++ name

inductive ServiceCommand where
  | bootstrapCompleted
  | tick
  | reannounce
  | refreshTypes
  | reset
  | relayStateChanged (needRelay : Bool) (active : Nat)
deriving DecidableEq

inductive JobSpec where
  | announce (generation : UInt64) (service key : String)
  | withdraw (generation : UInt64) (service key : String)
  | readTypes (generation : UInt64)
  | writeTypes (generation : UInt64) (value : List UInt8)
deriving DecidableEq

inductive JobResult where
  | announced (generation : UInt64) (service : String) (result : Except String Unit)
  | withdrawn (generation : UInt64) (service : String) (result : Except String Unit)
  | typesRead (generation : UInt64) (result : Except String (List String))
  | typesWritten (generation : UInt64) (result : Except String Unit)

def JobResult.generation : JobResult → UInt64
  | .announced g _ _    => g
  | .withdrawn g _ _    => g
  | .typesRead g _      => g
  | .typesWritten g _   => g

inductive ReconcileState where
  | idle
  | reading
  | readyToWrite
  | writing
deriving DecidableEq

structure RegistryState where
  bootstrapped : Bool
  needRelay : Bool
  activeRelays : Nat
  backendReady : Finset String
  announced : Finset String
  withdrawDeadline : Dict String Instant
  relayWithdraw : Finset String
  relayWithdrawRetryAt : Dict String Instant
  announceInflight : Finset String
  withdrawInflight : Finset String
  announceFailures : Dict String Nat
  announceRetryAt : Dict String Instant
  knownTypes : Finset String
  reconcile : ReconcileState
  reconcileDirty : Bool
  nextTypesSync : Option Instant
  pendingTypesWrite : Option (List UInt8)
  generation : UInt64

def RegistryState.new : RegistryState where
  bootstrapped := false
  needRelay := false
  activeRelays := 0
  backendReady := ∅
  announced := ∅
  withdrawDeadline := ∅
  relayWithdraw := ∅
  relayWithdrawRetryAt := ∅
  announceInflight := ∅
  withdrawInflight := ∅
  announceFailures := ∅
  announceRetryAt := ∅
  knownTypes := ∅
  reconcile := .idle
  reconcileDirty := false
  nextTypesSync := none
  pendingTypesWrite := none
  generation := 0

/-- What a call reads beside the state: the configuration as it is then, the order in which the hash set `announced`
is iterated, and `serde_json::to_vec`. -/
structure Env where
  config : NodeConfig
  order : Iteration String
  toVec : List String → Except String (List UInt8)

/-! ## The type index -/

/-- `merge_type_set`: the loop stops once the set is full. -/
def mergeTypeSet : Finset String → List String → Finset String
  | known, [] => known
  | known, name :: rest =>
    if maxTypes ≤ known.card then known
    else mergeTypeSet (if Auth.isValidServiceName name then insert name known else known) rest

/-- The binary search of `encode_types_limited`. -/
def encodeSearch (toVec : List String → Except String (List UInt8)) (list : List String) (maxBytes low high : Nat) :
    Except String Nat :=
  if low < high then
    match toVec (list.take ((low + high + 1) / 2)) with
    | .error e => .error e
    | .ok encoded =>
      if encoded.length ≤ maxBytes then encodeSearch toVec list maxBytes ((low + high + 1) / 2) high
      else encodeSearch toVec list maxBytes low ((low + high + 1) / 2 - 1)
  else .ok low
termination_by high - low
decreasing_by all_goals omega

/-- `encode_types_limited`: the bytes, and how many types they hold. -/
def encodeTypesLimited (toVec : List String → Except String (List UInt8)) (list : List String) (maxBytes : Nat) :
    Except String (List UInt8 × Nat) :=
  match toVec list with
  | .error e => .error e
  | .ok full =>
    if full.length ≤ maxBytes then .ok (full, list.length)
    else match encodeSearch toVec list maxBytes 0 list.length with
      | .error e => .error e
      | .ok low =>
        match toVec (list.take low) with
        | .error e => .error e
        | .ok value => .ok (value, low)

namespace RegistryState

/-! ## Commands and readiness -/

def relayReady (st : RegistryState) : Bool := !st.needRelay || decide (0 < st.activeRelays)

/-- `retry_delay`: 5 s, doubled for each further failure, at most 60 s. -/
def retryDelay (failures : Nat) : Nat := min (announceRetryInitial * 2 ^ min (failures - 1) 4) announceRetryMax

def markTypesDirty (st : RegistryState) (now : Instant) : RegistryState :=
  { st with reconcileDirty := true, nextTypesSync := if st.reconcile = .idle then some now else st.nextTypesSync }

def replaceBackendReady (st : RegistryState) (ready : Finset String) (now : Instant) : RegistryState :=
  let up := sorted (ready \ st.backendReady)
  let down := sorted (st.backendReady \ ready)
  { st with
    backendReady := ready
    withdrawDeadline := Dict.orInsertAll (Dict.eraseAll st.withdrawDeadline up)
      (down.filter (fun s => s ∈ st.announced)) (now + withdrawGrace)
    announceFailures := Dict.eraseAll st.announceFailures up
    announceRetryAt := Dict.eraseAll (Dict.eraseAll st.announceRetryAt up) down }

/-- `handle`, the `RelayStateChanged` arm. -/
def relayStateChanged (st : RegistryState) (needRelay : Bool) (active : Nat) : RegistryState :=
  let st' := { st with needRelay := needRelay, activeRelays := active }
  if st.relayReady = st'.relayReady then st'
  else if st'.relayReady then
    { st' with
      announced := ∅, announceFailures := ∅, announceRetryAt := ∅, relayWithdraw := ∅, relayWithdrawRetryAt := ∅ }
  else { st' with relayWithdraw := st.relayWithdraw ∪ (st.announced ∪ st.announceInflight), announceRetryAt := ∅ }

/-- `handle`, the `Reset` arm; `need_relay`, the readiness and the known types stay. -/
def reset (st : RegistryState) : RegistryState :=
  { st with
    generation := st.generation + 1
    bootstrapped := false
    activeRelays := 0
    announced := ∅
    withdrawDeadline := ∅
    relayWithdraw := ∅
    relayWithdrawRetryAt := ∅
    announceInflight := ∅
    withdrawInflight := ∅
    announceFailures := ∅
    announceRetryAt := ∅
    reconcile := .idle
    reconcileDirty := false
    nextTypesSync := none
    pendingTypesWrite := none }

def handle (st : RegistryState) (command : ServiceCommand) (now : Instant) : RegistryState :=
  match command with
  | .bootstrapCompleted => { st with bootstrapped := true, announced := ∅, announceRetryAt := ∅ }.markTypesDirty now
  | .tick => st
  | .reannounce => { st with announced := ∅, announceRetryAt := ∅ }.markTypesDirty now
  | .refreshTypes => st.markTypesDirty now
  | .relayStateChanged needRelay active => st.relayStateChanged needRelay active
  | .reset => st.reset

/-! ## Planning -/

/-- A job for the service is running, as the state records it. -/
def inFlight (st : RegistryState) (s : String) : Bool :=
  decide (s ∈ st.withdrawInflight) || decide (s ∈ st.announceInflight)

/-- The withdrawals due: grace or retry expired for a backend that is down, and the forced ones of a lost relay. -/
def dueWithdrawals (st : RegistryState) (now : Instant) : Finset String :=
  (Dict.due st.withdrawDeadline now).filter (fun s => s ∉ st.backendReady) ∪
    st.relayWithdraw.filter (fun s => ∀ t ∈ st.relayWithdrawRetryAt.lookup s, t ≤ now)

def dueRetries (st : RegistryState) (now : Instant) : Finset String :=
  (Dict.due st.announceRetryAt now).filter
    (fun s => st.relayReady = true ∧ s ∈ st.backendReady ∧ s ∉ st.announced ∧ s ∉ st.relayWithdraw)

/-- The configured services whose name is valid, in configuration order. -/
def localNames (config : NodeConfig) : List String :=
  (config.dispatcher.localServices.map (·.name)).filter Auth.isValidServiceName

def startWithdraw (st : RegistryState) (s : String) : RegistryState :=
  { st with
    withdrawDeadline := st.withdrawDeadline.erase s
    relayWithdrawRetryAt := st.relayWithdrawRetryAt.erase s
    withdrawInflight := insert s st.withdrawInflight }

def startAnnounce (st : RegistryState) (s : String) : RegistryState :=
  { st with announceRetryAt := st.announceRetryAt.erase s, announceInflight := insert s st.announceInflight }

/-- `plan`'s locals: the state, the slots left and the jobs so far. -/
structure Planner where
  st : RegistryState
  slots : Nat
  jobs : List JobSpec

/-- One scheduling loop of `plan`: it stops when the slots are used up and passes over what `skip` names. -/
def pass (skip : RegistryState → String → Bool) (start : RegistryState → String → RegistryState)
    (job : UInt64 → String → JobSpec) : List String → Planner → Planner
  | [], p => p
  | s :: rest, p =>
    if p.slots = 0 then p
    else if skip p.st s then pass skip start job rest p
    else pass skip start job rest ⟨start p.st s, p.slots - 1, p.jobs ++ [job p.st.generation s]⟩

def withdrawJob (generation : UInt64) (s : String) : JobSpec := .withdraw generation s (serviceKey s)

def announceJob (generation : UInt64) (s : String) : JobSpec := .announce generation s (serviceKey s)

def withdrawPass : List String → Planner → Planner := pass inFlight startWithdraw withdrawJob

def retryPass : List String → Planner → Planner := pass inFlight startAnnounce announceJob

/-- What the first-announce loop passes over. -/
def skipAnnounce (now : Instant) (st : RegistryState) (s : String) : Bool :=
  !decide (s ∈ st.backendReady) || decide (s ∈ st.announced) || decide (s ∈ st.announceInflight) ||
    decide (s ∈ st.withdrawInflight) || decide (∃ t ∈ st.announceRetryAt.lookup s, now < t)

def announcePass (now : Instant) : List String → Planner → Planner := pass (skipAnnounce now) startAnnounce announceJob

/-- The first announcements: only after bootstrap, with a relay where one is needed. -/
def firstAnnounces (env : Env) (now : Instant) (p : Planner) : Planner :=
  if p.st.bootstrapped = true ∧ p.st.relayReady = true ∧ 0 < p.slots then
    announcePass now (localNames env.config) p
  else p

/-- The last part of `plan`: the type index. -/
def reconcilePass (now : Instant) (p : Planner) : Planner :=
  if p.slots = 0 then p
  else match p.st.reconcile with
  | .idle =>
    if p.st.reconcileDirty = true ∨ ∃ t ∈ p.st.nextTypesSync, t ≤ now then
      { p with
        st := { p.st with nextTypesSync := none, reconcile := .reading, reconcileDirty := false }
        jobs := p.jobs ++ [.readTypes p.st.generation] }
    else p
  | .readyToWrite =>
    match p.st.pendingTypesWrite with
    | some value =>
      { p with
        st := { p.st with pendingTypesWrite := none, reconcile := .writing }
        jobs := p.jobs ++ [.writeTypes p.st.generation value] }
    | none => { p with st := { p.st with reconcile := .idle } }
  | .reading => p
  | .writing => p

/-- `plan`: the jobs to start and the state that records them. -/
def plan (env : Env) (st : RegistryState) (now : Instant) (slots : Nat) : List JobSpec × RegistryState :=
  let p := withdrawPass (sorted (st.dueWithdrawals now)) ⟨st, slots, []⟩
  let p := retryPass (sorted (p.st.dueRetries now)) p
  let p := firstAnnounces env now p
  let p := reconcilePass now p
  (p.jobs, p.st)

/-! ## Results -/

/-- `apply`, the `Announced` arm.  The in-flight mark goes before the generation is looked at. -/
def applyAnnounced (st : RegistryState) (now : Instant) (generation : UInt64) (service : String) :
    Except String Unit → RegistryState := fun result =>
  let st := { st with announceInflight := st.announceInflight.erase service }
  if generation ≠ st.generation then st
  else match result with
  | .ok () =>
    let st := ({ st with
      announceFailures := st.announceFailures.erase service
      announceRetryAt := st.announceRetryAt.erase service
      announced := insert service st.announced } : RegistryState).markTypesDirty now
    if st.relayReady = false then { st with relayWithdraw := insert service st.relayWithdraw }
    else if service ∈ st.backendReady ∧ st.bootstrapped = true then st
    else { st with withdrawDeadline := st.withdrawDeadline.insert service now }
  | .error _ =>
    if service ∈ st.backendReady ∧ st.bootstrapped = true then
      let failures := min ((st.announceFailures.lookup service).getD 0 + 1) (2 ^ 32 - 1)
      { st with
        announceFailures := st.announceFailures.insert service failures
        announceRetryAt := st.announceRetryAt.insert service (now + retryDelay failures) }
    else st

/-- `apply`, the `Withdrawn` arm. -/
def applyWithdrawn (st : RegistryState) (now : Instant) (generation : UInt64) (service : String) :
    Except String Unit → RegistryState := fun result =>
  let st := { st with withdrawInflight := st.withdrawInflight.erase service }
  if generation ≠ st.generation then st
  else match result with
  | .ok () =>
    let st := { st with
      announced := st.announced.erase service
      relayWithdraw := st.relayWithdraw.erase service
      relayWithdrawRetryAt := st.relayWithdrawRetryAt.erase service }
    if service ∈ st.backendReady ∧ st.relayReady = true then
      { st with announceRetryAt := st.announceRetryAt.insert service now }
    else st
  | .error _ =>
    if service ∈ st.relayWithdraw then
      { st with relayWithdrawRetryAt := st.relayWithdrawRetryAt.insert service (now + announceRetryInitial) }
    else if service ∈ st.backendReady then { st with announceRetryAt := st.announceRetryAt.insert service now }
    else { st with withdrawDeadline := st.withdrawDeadline.insert service (now + announceRetryInitial) }

/-- The end of a reconcile chain: idle, the next sync later, or at once when the index became dirty meanwhile. -/
def reconcileDone (st : RegistryState) (now next : Instant) : RegistryState :=
  { st with
    reconcile := .idle
    pendingTypesWrite := none
    nextTypesSync := some (if st.reconcileDirty then now else next)
    reconcileDirty := false }

def syncInterval (config : NodeConfig) : Nat := secs config.dispatcherTypesSyncInterval

/-- `apply`, the `TypesRead` arm. -/
def applyTypesRead (env : Env) (st : RegistryState) (now : Instant) (generation : UInt64) :
    Except String (List String) → RegistryState := fun result =>
  if generation ≠ st.generation ∨ st.reconcile ≠ .reading then st
  else match result with
  | .ok networkTypes =>
    let known := mergeTypeSet (mergeTypeSet st.knownTypes networkTypes) (env.order.list st.announced)
    let st := { st with knownTypes := known }
    if known = ∅ ∨ known = networkTypes.toFinset then st.reconcileDone now (now + syncInterval env.config)
    else match encodeTypesLimited env.toVec (sorted known) env.config.compat.maxRecordBytes with
      | .ok (value, _) =>
        { st with pendingTypesWrite := some value, reconcile := .readyToWrite, reconcileDirty := false }
      | .error _ =>
        { st with reconcile := .idle, pendingTypesWrite := none, nextTypesSync := some (now + reconcileRetry) }
  | .error _ => st.reconcileDone now (now + reconcileRetry)

/-- `apply`, the `TypesWritten` arm. -/
def applyTypesWritten (env : Env) (st : RegistryState) (now : Instant) (generation : UInt64) :
    Except String Unit → RegistryState := fun result =>
  if generation ≠ st.generation ∨ st.reconcile ≠ .writing then st
  else match result with
  | .ok () => st.reconcileDone now (now + syncInterval env.config)
  | .error _ => st.reconcileDone now (now + reconcileRetry)

def apply (env : Env) (st : RegistryState) (now : Instant) : JobResult → RegistryState
  | .announced generation service result => st.applyAnnounced now generation service result
  | .withdrawn generation service result => st.applyWithdrawn now generation service result
  | .typesRead generation result         => st.applyTypesRead env now generation result
  | .typesWritten generation result      => st.applyTypesWritten env now generation result

end RegistryState
end Registry
end NexusNet
