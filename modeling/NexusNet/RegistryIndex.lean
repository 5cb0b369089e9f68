import NexusNet.RegistrySystem
/-!
# RegistryIndex — nodes that share the record of service types

Any number of nodes, each a registry with its running jobs, and one DHT record, `/oahd/service/types`, as an atomic
register that is absent at first.  A `ReadTypes` job reads the record at some moment of its life and a `WriteTypes` job
replaces it; both may fail, and a write whose job was aborted or whose answer was lost may still take effect later
(`late`).  Between the moments of one node come those of all others, so writes overwrite each other.

Whatever the interleaving, the record is an encoding of valid service names and so can be read (`Index.Sound`).
-/
namespace NexusNet
namespace Registry

open RegistryState

/-! ## JSON and the record -/

/-- `serde_json::to_vec` and `serde_json::from_slice` on lists of strings. -/
structure Json where
  toVec : List String → Except String Bytes
  fromSlice : Bytes → Except String (List String)

/-- **What is used of JSON**, on lists of service names: a list is encoded and read back, and leaving names out does not
make the encoding longer. -/
structure Json.Lawful (J : Json) : Prop where
  encodes : ∀ types, (∀ name ∈ types, Auth.isValidServiceName name = true) →
    ∃ value, J.toVec types = .ok value ∧ J.fromSlice value = .ok types
  length_le : ∀ types types' value value', types.Sublist types' →
    (∀ name ∈ types', Auth.isValidServiceName name = true) → J.toVec types = .ok value → J.toVec types' = .ok value' →
    value.length ≤ value'.length

/-- `parse_types`. -/
def parseTypes (J : Json) (value : Bytes) : Except String (List String) :=
  (J.fromSlice value).map (fun types => (types.filter Auth.isValidServiceName).take maxTypes)

/-- What a `ReadTypes` job reads; where there is no record, no types. -/
def readRecord (J : Json) : Option Bytes → Except String (List String)
  | none => .ok []
  | some value => parseTypes J value

/-- The types of the record. -/
def recordTypes (J : Json) (record : Option Bytes) : Finset String :=
  match readRecord J record with
  | .ok types => types.toFinset
  | .error _ => ∅

/-! ## The system -/

/-- The registries, the record, the results of type jobs that have used the record and are not applied yet, and the
values handed to `WriteTypes` jobs so far. -/
structure Index (ι : Type) where
  nodes : ι → System
  record : Option Bytes
  heard : ι → Dict JobSpec JobResult
  issued : List Bytes

inductive IndexEvent (ι : Type) where
  | own (i : ι) (e : Event)
  | read (i : ι) (generation : UInt64)
  | write (i : ι) (generation : UInt64) (value : Bytes)
  | fails (i : ι) (job : JobSpec) (error : String)
  | late (value : Bytes)
  | finish (i : ι) (job : JobSpec) (config : NodeConfig) (order : Iteration String) (now : Instant)

/-- The end of a type job. -/
def Event.endsTypes : Event → Bool
  | .complete _ (.readTypes _) _ _    => true
  | .complete _ (.writeTypes _ _) _ _ => true
  | _                                 => false

def JobSpec.value? : JobSpec → Option Bytes
  | .writeTypes _ value => some value
  | _                   => none

/-- The values of the `WriteTypes` jobs an event starts. -/
def Event.writes (n : System) : Event → List Bytes
  | .plan env now slots => (n.reg.plan env now slots).1.filterMap JobSpec.value?
  | _                   => []

/-- How a type job ends that fails. -/
def JobSpec.failed (error : String) : JobSpec → Option JobResult
  | .readTypes g    => some (.typesRead g (.error error))
  | .writeTypes g _ => some (.typesWritten g (.error error))
  | _               => none

namespace Index

variable {ι : Type} [DecidableEq ι] (J : Json)

def hears (s : Index ι) (i : ι) (job : JobSpec) (result : JobResult) : Index ι :=
  { s with heard := Function.update s.heard i ((s.heard i).insert job result) }

theorem lookup_hears (s : Index ι) (i : ι) (job : JobSpec) (result : JobResult) :
    ((s.hears i job result).heard i).lookup job = some result := by
  simp [hears]

/-- The job of node `i` is running and has not used the record yet. -/
def pending (s : Index ι) (i : ι) (job : JobSpec) : Bool := decide (job ∈ (s.nodes i).jobs) && decide (job ∉ s.heard i)

def step (s : Index ι) : IndexEvent ι → Option (Index ι)
  | .own i e =>
    if e.endsTypes then none
    else (registry.step (s.nodes i) e).map (fun n =>
      { s with nodes := Function.update s.nodes i n, issued := s.issued ++ e.writes (s.nodes i) })
  | .read i g =>
    if s.pending i (.readTypes g) then some (s.hears i (.readTypes g) (.typesRead g (readRecord J s.record))) else none
  | .write i g value =>
    if s.pending i (.writeTypes g value) then
      some { s.hears i (.writeTypes g value) (.typesWritten g (.ok ())) with record := some value }
    else none
  | .fails i job error => if s.pending i job then (job.failed error).map (s.hears i job) else none
  | .late value => if value ∈ s.issued then some { s with record := some value } else none
  | .finish i job config order now =>
    ((s.heard i).lookup job).bind (fun result =>
      (registry.step (s.nodes i) (.complete ⟨config, order, J.toVec⟩ job result now)).map (fun n =>
        { s with
          nodes := Function.update s.nodes i n
          heard := Function.update s.heard i ((s.heard i).erase job) }))

def new : Index ι := ⟨fun _ => System.new, none, fun _ => ∅, []⟩

end Index

/-- **The type index of the nodes `ι`.** -/
def index (ι : Type) [DecidableEq ι] (J : Json) : Machine (Index ι) (IndexEvent ι) := ⟨Index.new, Index.step J⟩

/-! ## Merging and encoding -/

theorem mergeTypeSet_valid : ∀ (names : List String) (known : Finset String),
    (∀ name ∈ known, Auth.isValidServiceName name = true) →
    ∀ name ∈ mergeTypeSet known names, Auth.isValidServiceName name = true
  | [], _, h => h
  | n :: names, known, h => by
    unfold mergeTypeSet
    split
    · exact h
    · refine mergeTypeSet_valid names _ ?_
      split
      · rename_i hn
        intro name hmem
        rcases Finset.mem_insert.1 hmem with rfl | hmem
        · exact hn
        · exact h name hmem
      · exact h

theorem card_mergeTypeSet : ∀ (names : List String) (known : Finset String), known.card ≤ maxTypes →
    (mergeTypeSet known names).card ≤ maxTypes
  | [], _, h => h
  | n :: names, known, h => by
    unfold mergeTypeSet
    split
    · exact h
    · rename_i hroom
      refine card_mergeTypeSet names _ ?_
      split
      · have := Finset.card_insert_le n known
        omega
      · exact h

/-- **Within a bound the merge is the union**: below `maxTypes` valid names the loop leaves nothing out. -/
theorem mergeTypeSet_eq_union {bound : Finset String} (hcard : bound.card ≤ maxTypes)
    (hvalid : ∀ name ∈ bound, Auth.isValidServiceName name = true) : ∀ (names : List String) (known : Finset String),
    known ⊆ bound → names.toFinset ⊆ bound → mergeTypeSet known names = known ∪ names.toFinset
  | [], known, _, _ => by simp [mergeTypeSet]
  | n :: names, known, hknown, hnames => by
    rw [List.toFinset_cons, Finset.insert_subset_iff] at hnames
    unfold mergeTypeSet
    split
    · -- a full set is the bound itself
      rename_i hfull
      have heq : known = bound := Finset.eq_of_subset_of_card_le hknown (hcard.trans hfull)
      rw [List.toFinset_cons, heq, Finset.union_eq_left.2 (Finset.insert_subset_iff.2 hnames)]
    · rw [if_pos (hvalid n hnames.1), mergeTypeSet_eq_union hcard hvalid names _
        (Finset.insert_subset_iff.2 ⟨hnames.1, hknown⟩) hnames.2, List.toFinset_cons, Finset.insert_union,
        Finset.union_insert]

/-- What is written is the encoding of the first types of the list. -/
theorem encodeTypesLimited_take {toVec : List String → Except String Bytes} {list : List String} {maxBytes n : Nat}
    {value : Bytes} (h : encodeTypesLimited toVec list maxBytes = .ok (value, n)) : toVec (list.take n) = .ok value := by
  unfold encodeTypesLimited at h
  split at h
  · cases h
  · rename_i full hfull
    split at h
    · cases h
      rw [List.take_length]
      exact hfull
    · split at h
      · cases h
      · split at h
        · cases h
        · rename_i hvalue
          cases h
          exact hvalue

/-- **A value a node has encoded.** -/
def Written (J : Json) (value : Bytes) : Prop :=
  ∃ types, (∀ name ∈ types, Auth.isValidServiceName name = true) ∧ types.length ≤ maxTypes ∧ J.toVec types = .ok value

theorem Json.Lawful.parseTypes {J : Json} (hJ : J.Lawful) {types : List String} {value : Bytes}
    (hvalid : ∀ name ∈ types, Auth.isValidServiceName name = true) (hlength : types.length ≤ maxTypes)
    (hvalue : J.toVec types = .ok value) : parseTypes J value = .ok types := by
  obtain ⟨value', hencodes, hreads⟩ := hJ.encodes types hvalid
  cases hvalue.symm.trans hencodes
  rw [Registry.parseTypes, hreads, Except.map, List.filter_eq_self.2 hvalid, List.take_of_length_le hlength]

/-! ## What is written can be read -/

/-- **The type index of one node**: the types it knows are valid and not too many, and what it is about to write or
writing it has encoded. -/
structure System.TypesSound (J : Json) (n : System) : Prop where
  known : ∀ name ∈ n.reg.knownTypes, Auth.isValidServiceName name = true
  bounded : n.reg.knownTypes.card ≤ maxTypes
  pending : ∀ value, n.reg.pendingTypesWrite = some value → Written J value
  jobs : ∀ g value, JobSpec.writeTypes g value ∈ n.jobs → Written J value

section Nodes

variable {J : Json} {n n' : System}

theorem handle_types (st : RegistryState) (c : ServiceCommand) (now : Instant) :
    (st.handle c now).knownTypes = st.knownTypes ∧
      ((st.handle c now).pendingTypesWrite = st.pendingTypesWrite ∨ (st.handle c now).pendingTypesWrite = none) := by
  cases c with
  | relayStateChanged needRelay active =>
    have hframe := relayStateChanged_frame st needRelay active
    exact ⟨hframe.knownTypes, .inl hframe.pendingTypesWrite⟩
  | reset => exact ⟨rfl, .inr rfl⟩
  | _ => exact ⟨rfl, .inl rfl⟩

/-- A result that is not one of a type job leaves the type index. -/
theorem Applied.types_frame {st st' : RegistryState} {now : Instant} {r : JobResult} (h : Applied st now r st')
    (hr : (∀ result, r ≠ .typesRead st.generation result) ∧ ∀ result, r ≠ .typesWritten st.generation result) :
    st'.knownTypes = st.knownTypes ∧ st'.pendingTypesWrite = st.pendingTypesWrite := by
  cases h with
  | typesReadDone r | typesReadReady r => exact absurd rfl (hr.1 r)
  | typesWrittenDone r next writing => exact absurd rfl (hr.2 r)
  | _ => exact ⟨rfl, rfl⟩

theorem System.TypesSound.plan (h : n.TypesSound J) (env : Env) (now : Instant) (slots : Nat) :
    (∀ value, (n.reg.plan env now slots).2.pendingTypesWrite = some value → Written J value) ∧
      ∀ g value, JobSpec.writeTypes g value ∈ n.jobs + ((n.reg.plan env now slots).1 : Multiset JobSpec) →
        Written J value := by
  refine (plan_steps env n.reg now slots).1.invariant (J := n.jobs)
    (P := fun st J' => (∀ value, st.pendingTypesWrite = some value → Written J value) ∧
      ∀ g value, JobSpec.writeTypes g value ∈ J' → Written J value)
    (fun st o st' J' _ hstep hP => ?_) ⟨h.pending, h.jobs⟩
  cases hstep with
  | writeTypes value hready hpending =>
    refine ⟨fun _ hvalue => (by cases hvalue), fun g value' hmem => ?_⟩
    rcases Multiset.mem_add.1 hmem with hmem | hmem
    · exact hP.2 g value' hmem
    · cases List.mem_singleton.1 (Multiset.mem_coe.1 hmem)
      exact hP.1 value hpending
  | dropWrite | readTypes => exact ⟨hP.1, fun g value hmem => hP.2 g value (by simpa using hmem)⟩
  | withdraw s due free => exact ⟨hP.1, fun g value hmem => hP.2 g value (by simpa [withdrawJob] using hmem)⟩
  | retry | announce => exact ⟨hP.1, fun g value hmem => hP.2 g value (by simpa [announceJob] using hmem)⟩

theorem System.TypesSound.frame (h : n.TypesSound J) (hknown : n'.reg.knownTypes = n.reg.knownTypes)
    (hpending : n'.reg.pendingTypesWrite = n.reg.pendingTypesWrite ∨ n'.reg.pendingTypesWrite = none)
    (hjobs : n'.jobs ⊆ n.jobs) : n'.TypesSound J where
  known := by rw [hknown]; exact h.known
  bounded := by rw [hknown]; exact h.bounded
  pending := by
    intro value hvalue
    rcases hpending with heq | heq
    · exact h.pending value (heq.symm.trans hvalue)
    · cases heq.symm.trans hvalue
  jobs := fun g value hmem => h.jobs g value (hjobs hmem)

/-- A node's own events keep its type index sound. -/
theorem System.TypesSound.own (h : n.TypesSound J) {e : Event} (he : e.endsTypes = false)
    (hs : registry.step n e = some n') : n'.TypesSound J := by
  obtain ⟨-, henabled, rfl⟩ := step_eq_some.1 hs
  cases e with
  | command c now =>
    have htypes := handle_types n.reg c now
    refine h.frame htypes.1 htypes.2 ?_
    simp only [next]
    split
    · exact Multiset.zero_subset _
    · exact Multiset.Subset.refl _
  | readiness ready now => exact h.frame rfl (.inl rfl) (Multiset.Subset.refl _)
  | plan env now slots =>
    have hkept := plan_kept env n.reg now slots
    obtain ⟨hpending, hjobs⟩ := h.plan env now slots
    exact ⟨by rw [next, hkept.knownTypes]; exact h.known, by rw [next, hkept.knownTypes]; exact h.bounded, hpending, hjobs⟩
  | complete env job result now =>
    have hframe : (n.reg.apply env now result).knownTypes = n.reg.knownTypes ∧
        (n.reg.apply env now result).pendingTypesWrite = n.reg.pendingTypesWrite := by
      refine (apply_applied env n.reg now result).types_frame ⟨fun r hr => ?_, fun r hr => ?_⟩
      all_goals
        subst hr
        cases job <;> simp [enabled, JobResult.answers, Event.endsTypes] at henabled he
    exact h.frame hframe.1 (.inl hframe.2) (Multiset.erase_subset _ _)
  | stale env result now =>
    have hold : result.generation ≠ n.reg.generation := by simpa [enabled] using henabled
    have hframe := (apply_applied env n.reg now result).types_frame
      ⟨fun r hr => hold (by rw [hr]; rfl), fun r hr => hold (by rw [hr]; rfl)⟩
    exact h.frame hframe.1 (.inl hframe.2) (Multiset.Subset.refl _)

/-- The end of a read keeps the type index sound: what is merged is valid, what is to be written is encoded. -/
theorem applyTypesRead_sound (h : n.TypesSound J) (config : NodeConfig) (order : Iteration String) (now : Instant)
    (g : UInt64) (result : Except String (List String)) :
    { n with reg := n.reg.applyTypesRead ⟨config, order, J.toVec⟩ now g result }.TypesSound J := by
  unfold applyTypesRead
  split
  · exact h
  cases result with
  | error e => exact ⟨h.known, h.bounded, fun _ hvalue => (by cases hvalue), h.jobs⟩
  | ok types =>
    simp only
    have hvalid := mergeTypeSet_valid (order.list n.reg.announced) _ (mergeTypeSet_valid types _ h.known)
    have hcard := card_mergeTypeSet (order.list n.reg.announced) _ (card_mergeTypeSet types _ h.bounded)
    generalize mergeTypeSet (mergeTypeSet n.reg.knownTypes types) (order.list n.reg.announced) = known at hvalid hcard ⊢
    split
    · exact ⟨hvalid, hcard, fun _ hvalue => (by cases hvalue), h.jobs⟩
    · split
      · rename_i value m hencode
        refine ⟨hvalid, hcard, fun value' hvalue => ?_, h.jobs⟩
        cases hvalue
        refine ⟨(sorted known).take m, fun name hmem => hvalid name (mem_sorted.1 (List.mem_of_mem_take hmem)), ?_,
          encodeTypesLimited_take hencode⟩
        rw [List.length_take, length_sorted]
        exact (Nat.min_le_right _ _).trans hcard
      · exact ⟨hvalid, hcard, fun _ hvalue => (by cases hvalue), h.jobs⟩

/-- The end of a write leaves the types and drops what was to be written. -/
theorem applyTypesWritten_frame (env : Env) (st : RegistryState) (now : Instant) (g : UInt64)
    (result : Except String Unit) : (st.applyTypesWritten env now g result).knownTypes = st.knownTypes ∧
      (st.applyTypesWritten env now g result).announced = st.announced ∧
      ((st.applyTypesWritten env now g result).pendingTypesWrite = st.pendingTypesWrite ∨
        (st.applyTypesWritten env now g result).pendingTypesWrite = none) := by
  unfold applyTypesWritten
  split
  · exact ⟨rfl, rfl, .inl rfl⟩
  · cases result <;> exact ⟨rfl, rfl, .inr rfl⟩

theorem System.TypesSound.finish (h : n.TypesSound J) {config : NodeConfig} {order : Iteration String} {now : Instant}
    {job : JobSpec} {result : JobResult}
    (hs : registry.step n (.complete ⟨config, order, J.toVec⟩ job result now) = some n') : n'.TypesSound J := by
  by_cases hends : (Event.complete ⟨config, order, J.toVec⟩ job result now).endsTypes = true
  · obtain ⟨-, henabled, rfl⟩ := step_eq_some.1 hs
    have happlied : { n with reg := n.reg.apply ⟨config, order, J.toVec⟩ now result }.TypesSound J := by
      cases result with
      | typesRead g r => exact applyTypesRead_sound h config order now g r
      | typesWritten g r =>
        obtain ⟨hknown, -, hpending⟩ := applyTypesWritten_frame ⟨config, order, J.toVec⟩ n.reg now g r
        exact h.frame hknown hpending (Multiset.Subset.refl _)
      | announced | withdrawn => cases job <;> simp [enabled, JobResult.answers, Event.endsTypes] at henabled hends
    exact happlied.frame rfl (.inl rfl) (Multiset.erase_subset _ _)
  · exact h.own (Bool.eq_false_iff.2 hends) hs

end Nodes

/-- **Whatever was written can be read.** -/
structure Index.Sound {ι : Type} (J : Json) (s : Index ι) : Prop where
  record : ∀ value, s.record = some value → Written J value
  nodes : ∀ i, (s.nodes i).TypesSound J
  issued : ∀ value ∈ s.issued, Written J value

section System

variable {ι : Type} {J : Json} {s s' : Index ι}

theorem Index.Sound.new (J : Json) : (Index.new : Index ι).Sound J where
  record := fun _ h => (by cases h)
  nodes := fun _ => ⟨fun _ h => (by cases h), Nat.zero_le _, fun _ h => (by cases h), fun _ _ h => (by cases h)⟩
  issued := fun _ h => (by cases h)

variable [DecidableEq ι]

theorem Index.Sound.node (h : s.Sound J) {i : ι} {n : System} (hn : n.TypesSound J) (j : ι) :
    (Function.update s.nodes i n j).TypesSound J := by
  by_cases hj : j = i
  · subst hj
    rw [Function.update_self]
    exact hn
  · rw [Function.update_of_ne hj]
    exact h.nodes j

/-- The values a planning call hands out are encoded. -/
theorem System.TypesSound.writes {n : System} (h : n.TypesSound J) (e : Event) :
    ∀ value ∈ e.writes n, Written J value := by
  cases e with
  | plan env now slots =>
    intro value hmem
    obtain ⟨job, hjob, hvalue⟩ := List.mem_filterMap.1 hmem
    cases job with
    | writeTypes g v =>
      cases hvalue
      exact (h.plan env now slots).2 g value (Multiset.mem_add.2 (.inr (Multiset.mem_coe.2 hjob)))
    | _ => cases hvalue
  | _ => exact fun _ hmem => (by cases hmem)

/-- **Every event keeps the index sound.** -/
theorem Index.Sound.step (h : s.Sound J) {e : IndexEvent ι} (hs : s.step J e = some s') : s'.Sound J := by
  cases e with
  | own i e =>
    simp only [Index.step] at hs
    split at hs
    · cases hs
    · rename_i hends
      obtain ⟨n, hn, rfl⟩ := Option.map_eq_some_iff.1 hs
      refine ⟨h.record, h.node ((h.nodes i).own (Bool.eq_false_iff.2 hends) hn), fun value hmem => ?_⟩
      rcases List.mem_append.1 hmem with hmem | hmem
      · exact h.issued value hmem
      · exact (h.nodes i).writes e value hmem
  | read i g =>
    simp only [Index.step] at hs
    split at hs
    · cases hs
      exact ⟨h.record, h.nodes, h.issued⟩
    · cases hs
  | write i g value =>
    simp only [Index.step] at hs
    split at hs
    · rename_i hpending
      cases hs
      rw [Index.pending, Bool.and_eq_true] at hpending
      refine ⟨fun value' hvalue => ?_, h.nodes, h.issued⟩
      cases hvalue
      exact (h.nodes i).jobs g value (of_decide_eq_true hpending.1)
    · cases hs
  | fails i job error =>
    simp only [Index.step] at hs
    split at hs
    · obtain ⟨result, -, rfl⟩ := Option.map_eq_some_iff.1 hs
      exact ⟨h.record, h.nodes, h.issued⟩
    · cases hs
  | late value =>
    simp only [Index.step] at hs
    split at hs
    · rename_i hissued
      cases hs
      refine ⟨fun value' hvalue => ?_, h.nodes, h.issued⟩
      cases hvalue
      exact h.issued value hissued
    · cases hs
  | finish i job config order now =>
    obtain ⟨result, -, hs⟩ := Option.bind_eq_some_iff.1 hs
    obtain ⟨n, hn, rfl⟩ := Option.map_eq_some_iff.1 hs
    exact ⟨h.record, h.node ((h.nodes i).finish hn), h.issued⟩

/-- **In every state of every interleaving the record can be read.** -/
theorem reachable_sound (h : (index ι J).Reachable s) : s.Sound J :=
  (index ι J).reachable_invariant (P := fun s => s.Sound J) (Index.Sound.new J) (fun _ _ _ hsound hs => hsound.step hs) h

end System

end Registry
end NexusNet
