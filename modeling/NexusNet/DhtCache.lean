import Mathlib.Algebra.BigOperators.Group.Finset.Basic
import NexusNet.Collections
import NexusNet.Machine
/-!
# DhtCache — the read-through cache, one critical section at a time

`DhtCache` of `dht_cache.rs`: the entries, the registered refreshes, the global and the per-key generation, and around
them any number of calls and refresh tasks.  Every lock scope and every atomic access of the source is one event, so a
run of the machine is an interleaving of them; a fetch ends with any result.  Reads and writes of the clock carry their
time, and a write carries the order in which the hash map is iterated when an entry has to be evicted.  The panics and
the log lines are not modelled, so a refresh task always sends an outcome before it deregisters.
-/
namespace NexusNet
namespace Dht

/-- `Fetched`: a value from the network, verified by the fetcher. -/
structure Fetched (V : Type) where
  value : V
  version : Option UInt64
  size : Nat
deriving DecidableEq

structure CacheRead (V : Type) where
  value : Option V
  lastError : Option String
deriving DecidableEq

inductive CacheError where
  | unavailable (reason : String)
deriving DecidableEq

/-- A value that was found, or the absence a successful lookup found. -/
structure Entry (V : Type) where
  value : Option V
  version : Option UInt64
  lastError : Option String
  lastAccess : Nat
  size : Nat
deriving DecidableEq

def readFrom {V : Type} (entry : Entry V) : CacheRead V := ⟨entry.value, entry.lastError⟩

/-- What a fetcher answers: a value, nothing, or an error. -/
abbrev FetchResult (V : Type) := Except String (Option (Fetched V))

/-! ## The entries -/

section Entries

variable {K V : Type} [DecidableEq K] [DecidableEq V]

def totalSize (entries : Dict K (Entry V)) : Nat := entries.keys.sum (fun k => ((entries.lookup k).map (·.size)).getD 0)

def accessOf (entries : Dict K (Entry V)) (k : K) : Nat := ((entries.lookup k).map (·.lastAccess)).getD 0

/-- `min_by_key(last_access)`: the first of the least recently used. -/
def victim (entries : Dict K (Entry V)) : List K → Option K
  | [] => none
  | k :: ks =>
    match victim entries ks with
    | none => some k
    | some k' => if accessOf entries k ≤ accessOf entries k' then some k else some k'

/-- The loop of `evict`; every turn removes an entry, so the fuel is the number of entries. -/
def evictLoop (order : Iteration K) (maxEntries maxBytes : Nat) : Nat → Dict K (Entry V) → Dict K (Entry V)
  | 0, entries => entries
  | fuel + 1, entries =>
    if maxEntries < entries.keys.card ∨ maxBytes < totalSize entries then
      match victim entries (order.list entries.keys) with
      | none => entries
      | some k =>
        if entries.keys.card = 1 then entries else evictLoop order maxEntries maxBytes fuel (entries.erase k)
    else entries

def evict (order : Iteration K) (maxEntries maxBytes : Nat) (entries : Dict K (Entry V)) : Dict K (Entry V) :=
  evictLoop order maxEntries maxBytes entries.keys.card entries

/-- `entry` marks the access. -/
def touch (entries : Dict K (Entry V)) (k : K) (now : Nat) : Dict K (Entry V) :=
  match entries.lookup k with
  | some entry => entries.insert k { entry with lastAccess := now }
  | none => entries

/-- The refresh brings an older version than the cached one. -/
def isRollback (existing : Entry V) (fetched : Fetched V) : Bool :=
  match existing.version, fetched.version with
  | some old, some new => decide (new < old)
  | _, _ => false

/-- The refresh brings other content for the cached version. -/
def isConflict (existing : Entry V) (fetched : Fetched V) : Bool :=
  match existing.version, fetched.version with
  | some old, some new => decide (new = old) && existing.value.any (fun value => decide (value ≠ fetched.value))
  | _, _ => false

def conflictError : String := "conflicting content for the same version"

def freshEntry (fetched : Fetched V) (now : Nat) : Entry V := ⟨some fetched.value, fetched.version, none, now, fetched.size⟩

def missingEntry (now : Nat) : Entry V := ⟨none, none, none, now, 0⟩

def store (order : Iteration K) (maxEntries maxBytes : Nat) (entries : Dict K (Entry V)) (k : K) (fetched : Fetched V)
    (now : Nat) : Dict K (Entry V) :=
  match entries.lookup k with
  | some existing =>
    if isRollback existing fetched then entries
    else if isConflict existing fetched then
      entries.insert k { existing with lastError := some conflictError, lastAccess := now }
    else evict order maxEntries maxBytes (entries.insert k (freshEntry fetched now))
  | none => evict order maxEntries maxBytes (entries.insert k (freshEntry fetched now))

def storeMissing (order : Iteration K) (maxEntries maxBytes : Nat) (entries : Dict K (Entry V)) (k : K) (now : Nat) :
    Dict K (Entry V) := evict order maxEntries maxBytes (entries.insert k (missingEntry now))

def markError (entries : Dict K (Entry V)) (k : K) (error : String) (now : Nat) : Dict K (Entry V) :=
  match entries.lookup k with
  | some entry => entries.insert k { entry with lastError := some error, lastAccess := now }
  | none => entries

end Entries

/-! ## Refreshes and calls -/

/-- A global and a per-key generation. -/
abbrev Gen := UInt64 × UInt64

inductive Outcome where
  | stored
  | failed (error : String)
  | invalidated
deriving DecidableEq

/-- What the refresh sends to those who wait for it. -/
def Outcome.value : Outcome → Except String Unit
  | .stored       => .ok ()
  | .failed error => .error error
  | .invalidated  => .error "cache invalidated"

/-- Where a refresh is: registered by `ensure_refresh`, which then reads the two generations and spawns the task;
fetching; reading them again; writing the entry; sending; deregistered.  The generation it recorded stays known. -/
inductive Phase (V : Type) where
  | registered
  | globalRead (global : UInt64)
  | spawned (generation : Gen)
  | fetching (generation : Gen)
  | fetched (generation : Gen) (result : FetchResult V)
  | rechecking (generation : Gen) (result : FetchResult V) (global : UInt64)
  | passed (generation : Gen) (result : FetchResult V)
  | finished (generation : Gen) (outcome : Outcome)
  | sent (generation : Gen) (outcome : Outcome)
  | deregistered (generation : Gen) (outcome : Outcome)

structure Refresh (K V : Type) where
  key : K
  phase : Phase V

inductive Want (V : Type) where
  | read (read : CacheRead V)
  | wait
  | nothing
deriving DecidableEq

/-- Where a call is.  `get` and `refresh` go through `ensure_refresh`; the last line is `invalidate` and
`invalidate_all`. -/
inductive Call (K V : Type) where
  | starting (key : K) (want : Want V)
  | launching (key : K) (want : Want V) (refresh : Nat)
  | waiting (key : K) (refresh : Nat)
  | found (key : K)
  | returned (key : K) (result : Except CacheError (CacheRead V))
  | refreshed (key : K)
  | removing (key : K)
  | clearing
  | clearingKeys
  | invalidated
deriving DecidableEq

structure Cache (K V : Type) where
  entries : Dict K (Entry V)
  inflight : Dict K Nat
  globalGeneration : UInt64
  keyGeneration : Dict K UInt64
  maxEntries : Nat
  maxBytes : Nat
  refreshes : Dict Nat (Refresh K V)
  calls : Dict Nat (Call K V)

/-- **The critical sections.**  The numbers name calls and refreshes. -/
inductive Event (K V : Type) where
  | get (call : Nat) (key : K) (now : Nat)
  | refresh (call : Nat) (key : K)
  | peek (key : K) (now : Nat)
  | ensure (call refresh : Nat)
  | loadGlobal (call : Nat)
  | loadKey (call : Nat)
  | fetchStart (refresh : Nat)
  | fetchDone (refresh : Nat) (result : FetchResult V)
  | recheckGlobal (refresh : Nat)
  | recheckKey (refresh : Nat)
  | write (refresh now : Nat) (order : Iteration K)
  | send (refresh : Nat)
  | deregister (refresh : Nat)
  | wake (call : Nat)
  | lookup (call now : Nat)
  | invalidate (call : Nat) (key : K)
  | remove (call : Nat)
  | invalidateAll (call : Nat)
  | clearEntries (call : Nat)
  | clearKeys (call : Nat)

namespace Cache

variable {K V : Type} [DecidableEq K] [DecidableEq V]

def new (maxEntries maxBytes : Nat) : Cache K V := ⟨∅, ∅, 0, ∅, max maxEntries 1, max maxBytes 1, ∅, ∅⟩

def keyGen (s : Cache K V) (k : K) : UInt64 := (s.keyGeneration.lookup k).getD 0

/-- `generation`, both parts at once. -/
def generation (s : Cache K V) (k : K) : Gen := (s.globalGeneration, s.keyGen k)

def setPhase (s : Cache K V) (r : Nat) (k : K) (phase : Phase V) : Cache K V :=
  { s with refreshes := s.refreshes.insert r ⟨k, phase⟩ }

def setCall (s : Cache K V) (c : Nat) (call : Call K V) : Cache K V := { s with calls := s.calls.insert c call }

/-- The call when `ensure_refresh` has returned. -/
def joined (k : K) (r : Nat) : Want V → Call K V
  | .read read => .returned k (.ok read)
  | .wait      => .waiting k r
  | .nothing   => .refreshed k

/-- What `get` wants after its first lookup. -/
def wanted (s : Cache K V) (k : K) : Want V :=
  match s.entries.lookup k with
  | some entry => .read (readFrom entry)
  | none => .wait

/-- The entries and the outcome after the last critical section of `run_refresh`. -/
def written (s : Cache K V) (k : K) (now : Nat) (order : Iteration K) : FetchResult V → Dict K (Entry V) × Outcome
  | .ok (some fetched) => (store order s.maxEntries s.maxBytes s.entries k fetched now, .stored)
  | .ok none           => (storeMissing order s.maxEntries s.maxBytes s.entries k now, .stored)
  | .error error       => (markError s.entries k error now, .failed error)

/-- The call when it has seen the outcome it waited for. -/
def woken (k : K) (outcome : Outcome) : Call K V :=
  match outcome.value with
  | .ok ()       => .found k
  | .error error => .returned k (.error (.unavailable error))

/-- What `get` returns after its second lookup. -/
def reread (s : Cache K V) (k : K) : Except CacheError (CacheRead V) :=
  match s.entries.lookup k with
  | some entry => .ok (readFrom entry)
  | none => .error (.unavailable "cache invalidated")

def bumpKey (s : Cache K V) (k : K) : Cache K V := { s with keyGeneration := s.keyGeneration.insert k (s.keyGen k + 1) }

def bumpGlobal (s : Cache K V) : Cache K V := { s with globalGeneration := s.globalGeneration + 1 }

def dropKeys (s : Cache K V) : Cache K V := { s with keyGeneration := ∅ }

def sentOutcome (s : Cache K V) (r : Nat) : Option Outcome :=
  match s.refreshes.lookup r with
  | some ⟨_, .sent _ outcome⟩ => some outcome
  | some ⟨_, .deregistered _ outcome⟩ => some outcome
  | _ => none

/-- One critical section; `none` where no call or refresh is about to enter it. -/
def step (s : Cache K V) : Event K V → Option (Cache K V)
  | .get c k now =>
    if c ∈ s.calls then none
    else some ({ s with entries := touch s.entries k now }.setCall c (.starting k (s.wanted k)))
  | .refresh c k => if c ∈ s.calls then none else some (s.setCall c (.starting k .nothing))
  | .peek k now => some { s with entries := touch s.entries k now }
  | .ensure c r =>
    match s.calls.lookup c with
    | some (.starting k want) =>
      match s.inflight.lookup k with
      | some r' => if r = r' then some (s.setCall c (joined k r want)) else none
      | none =>
        if r ∈ s.refreshes then none
        else some ({ s.setPhase r k .registered with inflight := s.inflight.insert k r }.setCall c (.launching k want r))
    | _ => none
  | .loadGlobal c =>
    match s.calls.lookup c with
    | some (.launching _ _ r) =>
      match s.refreshes.lookup r with
      | some ⟨k, .registered⟩ => some (s.setPhase r k (.globalRead s.globalGeneration))
      | _ => none
    | _ => none
  | .loadKey c =>
    match s.calls.lookup c with
    | some (.launching k want r) =>
      match s.refreshes.lookup r with
      | some ⟨k', .globalRead g⟩ => some ((s.setPhase r k' (.spawned (g, s.keyGen k'))).setCall c (joined k r want))
      | _ => none
    | _ => none
  | .fetchStart r =>
    match s.refreshes.lookup r with
    | some ⟨k, .spawned gen⟩ => some (s.setPhase r k (.fetching gen))
    | _ => none
  | .fetchDone r result =>
    match s.refreshes.lookup r with
    | some ⟨k, .fetching gen⟩ => some (s.setPhase r k (.fetched gen result))
    | _ => none
  | .recheckGlobal r =>
    match s.refreshes.lookup r with
    | some ⟨k, .fetched gen result⟩ => some (s.setPhase r k (.rechecking gen result s.globalGeneration))
    | _ => none
  | .recheckKey r =>
    match s.refreshes.lookup r with
    | some ⟨k, .rechecking gen result g⟩ =>
      some (s.setPhase r k (if gen = (g, s.keyGen k) then .passed gen result else .finished gen .invalidated))
    | _ => none
  | .write r now order =>
    match s.refreshes.lookup r with
    | some ⟨k, .passed gen result⟩ =>
      some ({ s with entries := (s.written k now order result).1 }.setPhase r k
        (.finished gen (s.written k now order result).2))
    | _ => none
  | .send r =>
    match s.refreshes.lookup r with
    | some ⟨k, .finished gen outcome⟩ => some (s.setPhase r k (.sent gen outcome))
    | _ => none
  | .deregister r =>
    match s.refreshes.lookup r with
    | some ⟨k, .sent gen outcome⟩ => some { s.setPhase r k (.deregistered gen outcome) with inflight := s.inflight.erase k }
    | _ => none
  | .wake c =>
    match s.calls.lookup c with
    | some (.waiting k r) => (s.sentOutcome r).map (fun outcome => s.setCall c (woken k outcome))
    | _ => none
  | .lookup c now =>
    match s.calls.lookup c with
    | some (.found k) => some ({ s with entries := touch s.entries k now }.setCall c (.returned k (s.reread k)))
    | _ => none
  | .invalidate c k => if c ∈ s.calls then none else some ((s.bumpKey k).setCall c (.removing k))
  | .remove c =>
    match s.calls.lookup c with
    | some (.removing k) => some ({ s with entries := s.entries.erase k }.setCall c .invalidated)
    | _ => none
  | .invalidateAll c => if c ∈ s.calls then none else some (s.bumpGlobal.setCall c .clearing)
  | .clearEntries c =>
    match s.calls.lookup c with
    | some .clearing => some ({ s with entries := ∅ }.setCall c .clearingKeys)
    | _ => none
  | .clearKeys c =>
    match s.calls.lookup c with
    | some .clearingKeys => some (s.dropKeys.setCall c .invalidated)
    | _ => none

/-- **The steps of the cache**, each with what it needs and the whole state after it. -/
inductive Step (s : Cache K V) : Event K V → Cache K V → Prop where
  | get (c : Nat) (k : K) (now : Nat) (fresh : c ∉ s.calls) :
      Step s (.get c k now) ({ s with entries := touch s.entries k now }.setCall c (.starting k (s.wanted k)))
  | refresh (c : Nat) (k : K) (fresh : c ∉ s.calls) : Step s (.refresh c k) (s.setCall c (.starting k .nothing))
  | peek (k : K) (now : Nat) : Step s (.peek k now) { s with entries := touch s.entries k now }
  | join (c r : Nat) (k : K) (want : Want V) (call : s.calls.lookup c = some (.starting k want))
      (running : s.inflight.lookup k = some r) : Step s (.ensure c r) (s.setCall c (joined k r want))
  | register (c r : Nat) (k : K) (want : Want V) (call : s.calls.lookup c = some (.starting k want))
      (idle : s.inflight.lookup k = none) (fresh : r ∉ s.refreshes) :
      Step s (.ensure c r)
        ({ s.setPhase r k .registered with inflight := s.inflight.insert k r }.setCall c (.launching k want r))
  | loadGlobal (c r : Nat) (k k' : K) (want : Want V) (call : s.calls.lookup c = some (.launching k want r))
      (task : s.refreshes.lookup r = some ⟨k', .registered⟩) :
      Step s (.loadGlobal c) (s.setPhase r k' (.globalRead s.globalGeneration))
  | loadKey (c r : Nat) (k k' : K) (want : Want V) (g : UInt64)
      (call : s.calls.lookup c = some (.launching k want r))
      (task : s.refreshes.lookup r = some ⟨k', .globalRead g⟩) :
      Step s (.loadKey c) ((s.setPhase r k' (.spawned (g, s.keyGen k'))).setCall c (joined k r want))
  | fetchStart (r : Nat) (k : K) (gen : Gen) (task : s.refreshes.lookup r = some ⟨k, .spawned gen⟩) :
      Step s (.fetchStart r) (s.setPhase r k (.fetching gen))
  | fetchDone (r : Nat) (k : K) (gen : Gen) (result : FetchResult V)
      (task : s.refreshes.lookup r = some ⟨k, .fetching gen⟩) :
      Step s (.fetchDone r result) (s.setPhase r k (.fetched gen result))
  | recheckGlobal (r : Nat) (k : K) (gen : Gen) (result : FetchResult V)
      (task : s.refreshes.lookup r = some ⟨k, .fetched gen result⟩) :
      Step s (.recheckGlobal r) (s.setPhase r k (.rechecking gen result s.globalGeneration))
  | pass (r : Nat) (k : K) (gen : Gen) (result : FetchResult V) (g : UInt64)
      (task : s.refreshes.lookup r = some ⟨k, .rechecking gen result g⟩) (same : gen = (g, s.keyGen k)) :
      Step s (.recheckKey r) (s.setPhase r k (.passed gen result))
  | reject (r : Nat) (k : K) (gen : Gen) (result : FetchResult V) (g : UInt64)
      (task : s.refreshes.lookup r = some ⟨k, .rechecking gen result g⟩) (other : gen ≠ (g, s.keyGen k)) :
      Step s (.recheckKey r) (s.setPhase r k (.finished gen .invalidated))
  | write (r : Nat) (k : K) (now : Nat) (order : Iteration K) (gen : Gen) (result : FetchResult V)
      (task : s.refreshes.lookup r = some ⟨k, .passed gen result⟩) :
      Step s (.write r now order)
        ({ s with entries := (s.written k now order result).1 }.setPhase r k
          (.finished gen (s.written k now order result).2))
  | send (r : Nat) (k : K) (gen : Gen) (outcome : Outcome)
      (task : s.refreshes.lookup r = some ⟨k, .finished gen outcome⟩) : Step s (.send r) (s.setPhase r k (.sent gen outcome))
  | deregister (r : Nat) (k : K) (gen : Gen) (outcome : Outcome)
      (task : s.refreshes.lookup r = some ⟨k, .sent gen outcome⟩) :
      Step s (.deregister r) { s.setPhase r k (.deregistered gen outcome) with inflight := s.inflight.erase k }
  | wake (c r : Nat) (k : K) (outcome : Outcome) (call : s.calls.lookup c = some (.waiting k r))
      (sent : s.sentOutcome r = some outcome) : Step s (.wake c) (s.setCall c (woken k outcome))
  | lookup (c now : Nat) (k : K) (call : s.calls.lookup c = some (.found k)) :
      Step s (.lookup c now) ({ s with entries := touch s.entries k now }.setCall c (.returned k (s.reread k)))
  | invalidate (c : Nat) (k : K) (fresh : c ∉ s.calls) :
      Step s (.invalidate c k) ((s.bumpKey k).setCall c (.removing k))
  | remove (c : Nat) (k : K) (call : s.calls.lookup c = some (.removing k)) :
      Step s (.remove c) ({ s with entries := s.entries.erase k }.setCall c .invalidated)
  | invalidateAll (c : Nat) (fresh : c ∉ s.calls) : Step s (.invalidateAll c) (s.bumpGlobal.setCall c .clearing)
  | clearEntries (c : Nat) (call : s.calls.lookup c = some .clearing) :
      Step s (.clearEntries c) ({ s with entries := ∅ }.setCall c .clearingKeys)
  | clearKeys (c : Nat) (call : s.calls.lookup c = some .clearingKeys) :
      Step s (.clearKeys c) (s.dropKeys.setCall c .invalidated)

/-- **Every enabled event is one of the listed steps.** -/
theorem step_cases {s s' : Cache K V} {e : Event K V} (h : s.step e = some s') : Step s e s' := by
  cases e with
  | get c k now =>
    obtain ⟨fresh, h⟩ := Option.ite_none_left_eq_some.1 h
    cases h
    exact .get c k now fresh
  | refresh c k =>
    obtain ⟨fresh, h⟩ := Option.ite_none_left_eq_some.1 h
    cases h
    exact .refresh c k fresh
  | peek k now =>
    cases h
    exact .peek k now
  | ensure c r =>
    simp only [step] at h
    split at h
    · rename_i k want hc
      split at h
      · rename_i r' hr
        obtain ⟨hsame, h⟩ := Option.ite_none_right_eq_some.1 h
        cases h
        exact .join c r k want hc (hsame ▸ hr)
      · rename_i hr
        obtain ⟨fresh, h⟩ := Option.ite_none_left_eq_some.1 h
        cases h
        exact .register c r k want hc hr fresh
    · cases h
  | loadGlobal c =>
    simp only [step] at h
    split at h
    · rename_i k want r hc
      split at h <;> cases h
      exact .loadGlobal c r k _ want hc ‹_›
    · cases h
  | loadKey c =>
    simp only [step] at h
    split at h
    · rename_i k want r hc
      split at h <;> cases h
      exact .loadKey c r k _ want _ hc ‹_›
    · cases h
  | fetchStart r =>
    simp only [step] at h
    split at h <;> cases h
    exact .fetchStart r _ _ ‹_›
  | fetchDone r result =>
    simp only [step] at h
    split at h <;> cases h
    exact .fetchDone r _ _ result ‹_›
  | recheckGlobal r =>
    simp only [step] at h
    split at h <;> cases h
    exact .recheckGlobal r _ _ _ ‹_›
  | recheckKey r =>
    simp only [step] at h
    split at h <;> cases h
    rename_i k gen result g hr
    split
    · exact .pass r k gen result g hr ‹_›
    · exact .reject r k gen result g hr ‹_›
  | write r now order =>
    simp only [step] at h
    split at h <;> cases h
    exact .write r _ now order _ _ ‹_›
  | send r =>
    simp only [step] at h
    split at h <;> cases h
    exact .send r _ _ _ ‹_›
  | deregister r =>
    simp only [step] at h
    split at h <;> cases h
    exact .deregister r _ _ _ ‹_›
  | wake c =>
    simp only [step] at h
    split at h
    · obtain ⟨outcome, hsent, rfl⟩ := Option.map_eq_some_iff.1 h
      exact .wake c _ _ outcome ‹_› hsent
    · cases h
  | lookup c now =>
    simp only [step] at h
    split at h <;> cases h
    exact .lookup c now _ ‹_›
  | invalidate c k =>
    obtain ⟨fresh, h⟩ := Option.ite_none_left_eq_some.1 h
    cases h
    exact .invalidate c k fresh
  | remove c =>
    simp only [step] at h
    split at h <;> cases h
    exact .remove c _ ‹_›
  | invalidateAll c =>
    obtain ⟨fresh, h⟩ := Option.ite_none_left_eq_some.1 h
    cases h
    exact .invalidateAll c fresh
  | clearEntries c =>
    simp only [step] at h
    split at h <;> cases h
    exact .clearEntries c ‹_›
  | clearKeys c =>
    simp only [step] at h
    split at h <;> cases h
    exact .clearKeys c ‹_›

end Cache

def cache (K V : Type) [DecidableEq K] [DecidableEq V] (maxEntries maxBytes : Nat) : Machine (Cache K V) (Event K V) :=
  ⟨Cache.new maxEntries maxBytes, Cache.step⟩

theorem cache_step {K V : Type} [DecidableEq K] [DecidableEq V] {maxEntries maxBytes : Nat} {s s' : Cache K V}
    {e : Event K V} (h : (cache K V maxEntries maxBytes).step s e = some s') : Cache.Step s e s' :=
  Cache.step_cases h

end Dht
end NexusNet
