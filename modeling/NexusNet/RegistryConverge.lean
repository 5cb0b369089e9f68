import Mathlib.Algebra.Order.BigOperators.Group.List
import Mathlib.Algebra.Ring.Nat
import NexusNet.PqEncoding
import NexusNet.RegistryIndex
import NexusNet.SharedCell
/-!
# RegistryConverge — the type index converges

A chain is an uninterrupted run of one node: it plans a read, reads the record, merges, and where that gave more than the
record it plans a write and writes.  While the types fit, a chain is a visit of the shared cell whose value is the set of
types (`Chain.visit`), and it writes exactly where the visit changes the cell.  So after two rounds of chains the record
and what every node knows are the union of everything, and no chain writes any more (`types_converge`).
-/
namespace NexusNet
namespace Registry

open RegistryState

variable {ι : Type}

def Index.reg (s : Index ι) (i : ι) : RegistryState := (s.nodes i).reg

/-! ## Chains -/

section Chains

variable [DecidableEq ι]

/-- **Node `i` plans a read of the record, reads it and merges what it read**, with nothing in between. -/
def Reads (J : Json) (limit : ι → Nat) (i : ι) (s m : Index ι) : Prop :=
  ∃ env now slots config order now', .readTypes (s.reg i).generation ∈ ((s.reg i).plan env now slots).1 ∧
    config.compat.maxRecordBytes = limit i ∧
    (index ι J).runFrom s [.own i (.plan env now slots), .read i (s.reg i).generation,
      .finish i (.readTypes (s.reg i).generation) config order now'] = some m

/-- **Node `i` plans a write of the record, writes it and hears of it.** -/
def Writes (J : Json) (i : ι) (m s' : Index ι) : Prop :=
  ∃ env now slots value config order now', .writeTypes (m.reg i).generation value ∈ ((m.reg i).plan env now slots).1 ∧
    (index ι J).runFrom m [.own i (.plan env now slots), .write i (m.reg i).generation value,
      .finish i (.writeTypes (m.reg i).generation value) config order now'] = some s'

/-- **A complete chain of node `i`**, and whether it issued a `WriteTypes`; `limit` is the `compat.max_record_bytes` of
each node. -/
inductive Chain (J : Json) (limit : ι → Nat) (i : ι) (s : Index ι) : Bool → Index ι → Prop where
  | synced (s' : Index ι) (reads : Reads J limit i s s') (idle : (s'.reg i).reconcile = .idle) :
      Chain J limit i s false s'
  | wrote (m s' : Index ι) (reads : Reads J limit i s m) (writes : Writes J i m s') : Chain J limit i s true s'

/-- The record, what the nodes know and what they have announced are as before. -/
structure Still (s s' : Index ι) : Prop where
  record : s'.record = s.record
  known : ∀ i, (s'.reg i).knownTypes = (s.reg i).knownTypes
  announced : ∀ i, (s'.reg i).announced = (s.reg i).announced

/-- **Chains of the listed nodes, one after another**; between them other events may come that leave the types. -/
inductive Chains (J : Json) (limit : ι → Nat) : Index ι → List ι → Index ι → Prop where
  | nil (s : Index ι) : Chains J limit s [] s
  | chain {s m s' : Index ι} {i : ι} {is : List ι} {wrote : Bool} (head : Chain J limit i s wrote m)
      (tail : Chains J limit m is s') : Chains J limit s (i :: is) s'
  | other {s m s' : Index ι} {is : List ι} (e : IndexEvent ι) (step : (index ι J).step s e = some m) (still : Still s m)
      (tail : Chains J limit m is s') : Chains J limit s is s'

end Chains

/-! ## What a chain does -/

section Steps

variable [DecidableEq ι] {J : Json} {s m s' : Index ι} {i : ι}

theorem plan_readTypes {env : Env} {st : RegistryState} {now : Instant} {slots : Nat} {g : UInt64}
    (h : JobSpec.readTypes g ∈ (st.plan env now slots).1) :
    (st.plan env now slots).2.reconcile = .reading := by
  have hinv := (plan_steps env st now slots).1.invariant (J := 0)
    (P := fun st J' => JobSpec.readTypes g ∈ J' → st.reconcile = .reading)
    (fun st o st' J' _ hstep hP hmem => ?_) (fun hmem => (by simp at hmem))
  · exact hinv (by simpa using h)
  rcases Multiset.mem_add.1 hmem with hmem | hmem
  · have hreading := hP hmem
    cases hstep with
    | readTypes idle => rfl
    | writeTypes _ ready | dropWrite ready => cases ready.symm.trans hreading
    | _ => exact hreading
  · cases hstep with
    | readTypes idle => rfl
    | _ => simp [withdrawJob, announceJob] at hmem

theorem plan_writeTypes {env : Env} {st : RegistryState} {now : Instant} {slots : Nat} {g : UInt64} {value : Bytes}
    (h : JobSpec.writeTypes g value ∈ (st.plan env now slots).1) :
    (st.plan env now slots).2.reconcile = .writing ∧ st.pendingTypesWrite = some value := by
  have hinv := (plan_steps env st now slots).1.invariant (J := 0)
    (P := fun st' J' => (∀ v, st'.pendingTypesWrite = some v → st.pendingTypesWrite = some v) ∧
      (JobSpec.writeTypes g value ∈ J' → st'.reconcile = .writing ∧ st.pendingTypesWrite = some value))
    (fun st₁ o st₂ J' _ hstep hP => ?_) ⟨fun _ hv => hv, fun hmem => (by simp at hmem)⟩
  · exact hinv.2 (by simpa using h)
  cases hstep with
  | writeTypes v ready pending =>
    refine ⟨fun _ hv => (by cases hv), fun hmem => ?_⟩
    rcases Multiset.mem_add.1 hmem with hmem | hmem
    · exact ⟨rfl, (hP.2 hmem).2⟩
    · cases List.mem_singleton.1 (Multiset.mem_coe.1 hmem)
      exact ⟨rfl, hP.1 value pending⟩
  | dropWrite phase | readTypes phase =>
    refine ⟨hP.1, fun hmem => ?_⟩
    cases phase.symm.trans (hP.2 (by simpa using hmem)).1
  | withdraw s due free => exact ⟨hP.1, fun hmem => hP.2 (by simpa [withdrawJob] using hmem)⟩
  | retry | announce => exact ⟨hP.1, fun hmem => hP.2 (by simpa [announceJob] using hmem)⟩

/-- The registry after a planning call and the end of a job. -/
theorem next_plan_complete (n : System) (env env' : Env) (now now' : Instant) (slots : Nat) (job : JobSpec)
    (result : JobResult) : (next (next n (.plan env now slots)) (.complete env' job result now')).reg =
      (n.reg.plan env now slots).2.apply env' now' result := by
  simp only [next]

/-- **A planning call, the use of the record by a job it started, and the end of the job**: the node has planned and
applied the result, and the rest is as the job left it. -/
theorem run_job (result : Option Bytes → JobResult) (record : Option Bytes → Option Bytes) {use : IndexEvent ι}
    {job : JobSpec} {e : Event} {config : NodeConfig} {order : Iteration String} {now : Instant}
    (huse : ∀ s₁ s₂, (index ι J).step s₁ use = some s₂ →
      s₂ = { s₁.hears i job (result s₁.record) with record := record s₁.record })
    (hrun : (index ι J).runFrom s [.own i e, use, .finish i job config order now] = some s') :
    s'.record = record s.record ∧ s'.nodes = Function.update s.nodes i
      (next (next (s.nodes i) e) (.complete ⟨config, order, J.toVec⟩ job (result s.record) now)) := by
  obtain ⟨s₁, h₁, hrun⟩ := (Machine.runFrom_cons _).1 hrun
  obtain ⟨s₂, h₂, hrun⟩ := (Machine.runFrom_cons _).1 hrun
  obtain ⟨s₃, h₃, hrun⟩ := (Machine.runFrom_cons _).1 hrun
  cases hrun
  cases huse s₁ s₂ h₂
  change s.step J (.own i e) = some s₁ at h₁
  simp only [Index.step] at h₁
  split at h₁
  · cases h₁
  · obtain ⟨n, hn, rfl⟩ := Option.map_eq_some_iff.1 h₁
    obtain ⟨-, -, rfl⟩ := step_eq_some.1 hn
    obtain ⟨r, hr, h₃⟩ := Option.bind_eq_some_iff.1 h₃
    cases (Index.lookup_hears _ i job _).symm.trans hr
    obtain ⟨n', hn', rfl⟩ := Option.map_eq_some_iff.1 h₃
    obtain ⟨-, -, rfl⟩ := step_eq_some.1 hn'
    refine ⟨rfl, ?_⟩
    simp only [Index.hears, Function.update_self, Function.update_idem]

/-- **Reading and merging**: the record and the other nodes stay, and node `i` applies what the record holds. -/
theorem Reads.spec {limit : ι → Nat} (h : Reads J limit i s m) : m.record = s.record ∧ (∀ j, j ≠ i → m.reg j = s.reg j) ∧
    ∃ env now slots config order now', config.compat.maxRecordBytes = limit i ∧
      ((s.reg i).plan env now slots).2.reconcile = .reading ∧
      m.reg i = ((s.reg i).plan env now slots).2.applyTypesRead ⟨config, order, J.toVec⟩ now'
        (s.reg i).generation (readRecord J s.record) := by
  obtain ⟨env, now, slots, config, order, now', hstarts, hlimit, hrun⟩ := h
  obtain ⟨hrecord, hnodes⟩ := run_job
    (fun record => .typesRead (s.reg i).generation (readRecord J record)) (fun record => record)
    (fun s₁ s₂ h => by
      change s₁.step J (.read i (s.reg i).generation) = some s₂ at h
      simp only [Index.step] at h
      split at h
      · cases h
        rfl
      · cases h) hrun
  refine ⟨hrecord, fun j hj => ?_, env, now, slots, config, order, now', hlimit, plan_readTypes hstarts, ?_⟩
  · rw [Index.reg, hnodes, Function.update_of_ne hj]
    rfl
  · rw [Index.reg, hnodes, Function.update_self, next_plan_complete, RegistryState.apply, ← Index.reg]

/-- **Writing**: the value is the one node `i` had prepared, it replaces the record, and the types stay. -/
theorem Writes.spec (h : Writes J i m s') : ∃ value, (m.reg i).pendingTypesWrite = some value ∧ s'.record = some value ∧
    (∀ j, j ≠ i → s'.reg j = m.reg j) ∧ (s'.reg i).knownTypes = (m.reg i).knownTypes ∧
    (s'.reg i).announced = (m.reg i).announced := by
  obtain ⟨env, now, slots, value, config, order, now', hstarts, hrun⟩ := h
  obtain ⟨hrecord, hnodes⟩ := run_job (fun _ => .typesWritten (m.reg i).generation (.ok ())) (fun _ => some value)
    (fun s₁ s₂ h => by
      change s₁.step J (.write i (m.reg i).generation value) = some s₂ at h
      simp only [Index.step] at h
      split at h
      · cases h
        rfl
      · cases h) hrun
  have hreg : s'.reg i = ((m.reg i).plan env now slots).2.applyTypesWritten ⟨config, order, J.toVec⟩ now'
      (m.reg i).generation (.ok ()) := by
    rw [Index.reg, hnodes, Function.update_self, next_plan_complete, RegistryState.apply, ← Index.reg]
  have hkept := plan_kept env (m.reg i) now slots
  refine ⟨value, (plan_writeTypes hstarts).2, hrecord, fun j hj => ?_, ?_, ?_⟩
  · rw [Index.reg, hnodes, Function.update_of_ne hj]
    rfl
  · rw [hreg, (applyTypesWritten_frame _ _ _ _ _).1, hkept.knownTypes]
  · rw [hreg, (applyTypesWritten_frame _ _ _ _ _).2.1, hkept.announced]

end Steps

/-! ## Chains are visits -/

/-- The record as a cell of types, which the nodes visit with what they know and what they have announced. -/
def Index.types (J : Json) (s : Index ι) : SharedCell ι (Finset String) where
  cell := recordTypes J s.record
  held := fun i => (s.reg i).knownTypes
  own := fun i => (s.reg i).announced

/-- **The types fit**: there are not too many of them, their names are valid, and every node may write all of them. -/
structure Fits (J : Json) (limit : ι → Nat) (bound : Finset String) : Prop where
  card : bound.card ≤ maxTypes
  valid : ∀ name ∈ bound, Auth.isValidServiceName name = true
  encoded : ∀ value, J.toVec (sorted bound) = .ok value → ∀ i, value.length ≤ limit i

section Visits

variable {J : Json} {limit : ι → Nat} {bound : Finset String} {s s' : Index ι} {i : ι}

/-- Types that fit are written as a whole. -/
theorem Fits.encodes (hfits : Fits J limit bound) (hJ : J.Lawful) {types : Finset String} (hsub : types ⊆ bound) (i : ι) :
    ∃ value, J.toVec (sorted types) = .ok value ∧
      encodeTypesLimited J.toVec (sorted types) (limit i) = .ok (value, (sorted types).length) ∧
      readRecord J (some value) = .ok (sorted types) := by
  have hvalid : ∀ name ∈ sorted types, Auth.isValidServiceName name = true :=
    fun name hmem => hfits.valid name (hsub (mem_sorted.1 hmem))
  obtain ⟨value, hvalue, -⟩ := hJ.encodes (sorted types) hvalid
  obtain ⟨value', hvalue', -⟩ := hJ.encodes (sorted bound) (fun name hmem => hfits.valid name (mem_sorted.1 hmem))
  have hlength : value.length ≤ limit i :=
    (hJ.length_le _ _ _ _ (sorted_sublist hsub) (fun name hmem => hfits.valid name (mem_sorted.1 hmem)) hvalue hvalue').trans
      (hfits.encoded value' hvalue' i)
  refine ⟨value, hvalue, ?_, hJ.parseTypes hvalid ?_ hvalue⟩
  · rw [encodeTypesLimited, hvalue]
    simp only
    rw [if_pos hlength]
  · rw [length_sorted]
    exact (Finset.card_le_card hsub).trans hfits.card

/-- **The end of a read, while the types fit**: the node knows the union of what it knew, of the record and of what it has
announced; it is done where that is the record, and else prepares to write it. -/
theorem applyTypesRead_fits (hfits : Fits J limit bound) (hJ : J.Lawful) {st : RegistryState} {config : NodeConfig}
    (order : Iteration String) (now : Instant) {types : List String} (hreading : st.reconcile = .reading)
    (hlimit : config.compat.maxRecordBytes = limit i) (hsub : st.knownTypes ∪ types.toFinset ∪ st.announced ⊆ bound) :
    ∃ st', st.applyTypesRead ⟨config, order, J.toVec⟩ now st.generation (.ok types) = st' ∧
      st'.knownTypes = st.knownTypes ∪ types.toFinset ∪ st.announced ∧ st'.announced = st.announced ∧
      ((st'.knownTypes = types.toFinset ∧ st'.reconcile = .idle ∧ st'.pendingTypesWrite = none) ∨
        (st'.knownTypes ≠ types.toFinset ∧ st'.reconcile = .readyToWrite ∧ ∃ value,
          st'.pendingTypesWrite = some value ∧ readRecord J (some value) = .ok (sorted st'.knownTypes))) := by
  obtain ⟨hsub₁, hannounced⟩ := Finset.union_subset_iff.1 hsub
  obtain ⟨hknown, htypes⟩ := Finset.union_subset_iff.1 hsub₁
  have hlist : (order.list st.announced).toFinset = st.announced := by
    ext name
    simp
  have hmerge : mergeTypeSet (mergeTypeSet st.knownTypes types) (order.list st.announced) =
      st.knownTypes ∪ types.toFinset ∪ st.announced := by
    rw [mergeTypeSet_eq_union hfits.card hfits.valid types _ hknown htypes,
      mergeTypeSet_eq_union hfits.card hfits.valid _ _ hsub₁ (hlist.symm ▸ hannounced), hlist]
  have hrecord : types.toFinset ⊆ st.knownTypes ∪ types.toFinset ∪ st.announced :=
    Finset.subset_union_right.trans Finset.subset_union_left
  refine ⟨_, rfl, ?_⟩
  simp only [applyTypesRead, hreading, ne_eq, not_true_eq_false, or_self, if_false, hmerge]
  generalize st.knownTypes ∪ types.toFinset ∪ st.announced = known at hsub hrecord ⊢
  split
  · rename_i hdone
    refine ⟨rfl, rfl, .inl ⟨?_, rfl, rfl⟩⟩
    rcases hdone with rfl | hdone
    · exact (Finset.subset_empty.1 hrecord).symm
    · exact hdone
  · rename_i hmore
    obtain ⟨value, -, hencode, hread⟩ := hfits.encodes hJ hsub i
    rw [hlimit, hencode]
    exact ⟨rfl, rfl, .inr ⟨fun heq => hmore (.inr heq), rfl, value, rfl, hread⟩⟩

/-- A sound record can be read. -/
theorem Index.Sound.readable (h : s.Sound J) (hJ : J.Lawful) :
    ∃ types, readRecord J s.record = .ok types ∧ recordTypes J s.record = types.toFinset := by
  cases hrecord : s.record with
  | none => exact ⟨[], rfl, rfl⟩
  | some value =>
    obtain ⟨types, hvalid, hlength, hvalue⟩ := h.record value hrecord
    have hread : readRecord J (some value) = .ok types := hJ.parseTypes hvalid hlength hvalue
    exact ⟨types, hread, by rw [recordTypes, hread]⟩

theorem Still.types (h : Still s s') : s'.types J = s.types J :=
  SharedCell.ext (congrArg (recordTypes J) h.record) (funext h.known) (funext h.announced)

variable [DecidableEq ι]

/-- **What a read and the merge leave**, whether a write follows or not. -/
theorem Reads.merged (hJ : J.Lawful) (hfits : Fits J limit bound) {m : Index ι} {types : List String}
    (hread : readRecord J s.record = .ok types) (htypes : recordTypes J s.record = types.toFinset)
    (hsub : (s.types J).joined i ≤ bound) (h : Reads J limit i s m) :
    m.record = s.record ∧ (∀ j, j ≠ i → m.reg j = s.reg j) ∧
      (m.reg i).knownTypes = (s.types J).joined i ∧ (m.reg i).announced = (s.reg i).announced ∧
      (((m.reg i).knownTypes = types.toFinset ∧ (m.reg i).reconcile = .idle ∧ (m.reg i).pendingTypesWrite = none) ∨
        ((m.reg i).knownTypes ≠ types.toFinset ∧ (m.reg i).reconcile = .readyToWrite ∧ ∃ value,
          (m.reg i).pendingTypesWrite = some value ∧ readRecord J (some value) = .ok (sorted (m.reg i).knownTypes))) := by
  have hjoined : (s.types J).joined i = (s.reg i).knownTypes ∪ types.toFinset ∪ (s.reg i).announced := by
    rw [← htypes]
    rfl
  obtain ⟨hrecord, hothers, env, now, slots, config, order, now', hlimit, hreading, hreg⟩ := h.spec
  have hkept := plan_kept env (s.reg i) now slots
  obtain ⟨st', heq, hknown, hannounced, hout⟩ := applyTypesRead_fits hfits hJ order now' hreading hlimit
    (by rw [hkept.knownTypes, hkept.announced, ← hjoined]; exact hsub)
  rw [hread, ← hkept.generation, heq] at hreg
  rw [hkept.knownTypes, hkept.announced, ← hjoined] at hknown
  rw [hkept.announced] at hannounced
  exact ⟨hrecord, hothers, by rw [hreg, hknown], by rw [hreg, hannounced], by rw [hreg]; exact hout⟩

/-- The types after node `i` has changed its own and the record. -/
theorem types_eq_visit (hothers : ∀ j, j ≠ i → s'.reg j = s.reg j) (hannounced : (s'.reg i).announced = (s.reg i).announced)
    (hknown : (s'.reg i).knownTypes = (s.types J).joined i) (hrecord : recordTypes J s'.record = (s.types J).joined i) :
    s'.types J = (s.types J).visit i := by
  refine SharedCell.ext hrecord (funext fun j => ?_) (funext fun j => ?_)
  · by_cases hj : j = i
    · subst hj
      rw [SharedCell.held_visit_self]
      exact hknown
    · rw [SharedCell.held_visit_of_ne _ hj]
      exact congrArg RegistryState.knownTypes (hothers j hj)
  · by_cases hj : j = i
    · subst hj
      exact hannounced
    · exact congrArg RegistryState.announced (hothers j hj)

/-- **A chain is a visit**, and it writes exactly where the visit changes the cell. -/
theorem Chain.visit (hJ : J.Lawful) (hsound : s.Sound J) (hfits : Fits J limit bound) {wrote : Bool}
    (hsub : (s.types J).joined i ≤ bound) (h : Chain J limit i s wrote s') :
    s'.types J = (s.types J).visit i ∧ (wrote = true ↔ (s.types J).joined i ≠ (s.types J).cell) := by
  obtain ⟨types, hread, htypes⟩ := hsound.readable hJ
  have hcell : (s.types J).cell = types.toFinset := htypes
  cases h with
  | synced _ hreads hidle =>
    obtain ⟨hrecord, hothers, hknown, hannounced, ⟨hdone, -, -⟩ | ⟨-, hready, -⟩⟩ :=
      hreads.merged hJ hfits hread htypes hsub
    · have hsame : (s.types J).joined i = (s.types J).cell := (hknown.symm.trans hdone).trans hcell.symm
      refine ⟨types_eq_visit hothers hannounced hknown ?_, by simp [hsame]⟩
      rw [hrecord, hsame]
      rfl
    · cases hidle.symm.trans hready
  | wrote m _ hreads hwrites =>
    obtain ⟨value, hpending, hrecord', hothers', hknown', hannounced'⟩ := hwrites.spec
    obtain ⟨hrecord, hothers, hknown, hannounced, ⟨-, -, hnone⟩ | ⟨hmore, -, value', hvalue, hread'⟩⟩ :=
      hreads.merged hJ hfits hread htypes hsub
    · cases hnone.symm.trans hpending
    · cases hvalue.symm.trans hpending
      refine ⟨types_eq_visit (fun j hj => (hothers' j hj).trans (hothers j hj)) (hannounced'.trans hannounced)
        (hknown'.trans hknown) ?_, ?_⟩
      · rw [hrecord', recordTypes, hread', hknown]
        ext name
        simp
      · simp only [true_iff]
        intro hsame
        exact hmore ((hknown.trans hsame).trans hcell)

/-! ## Rounds -/

theorem Index.Sound.runFrom {es : List (IndexEvent ι)} (h : s.Sound J) (hrun : (index ι J).runFrom s es = some s') :
    s'.Sound J :=
  (index ι J).invariant_from (fun _ _ _ hsound _ hs => Index.Sound.step hsound hs) es s s' h
    ((index ι J).meets_true es s) hrun

theorem Chain.sound {wrote : Bool} (h : Chain J limit i s wrote s') (hsound : s.Sound J) : s'.Sound J := by
  have hread : ∀ m, Reads J limit i s m → m.Sound J := by
    rintro m ⟨env, now, slots, config, order, now', -, -, hrun⟩
    exact hsound.runFrom hrun
  cases h with
  | synced _ hreads _ => exact hread s' hreads
  | wrote m _ hreads hwrites =>
    obtain ⟨env, now, slots, value, config, order, now', -, hrun⟩ := hwrites
    exact (hread m hreads).runFrom hrun

/-- **Chains are visits**, whatever other events come between them. -/
theorem Chains.visits [Fintype ι] (hJ : J.Lawful) (hfits : Fits J limit bound) {is : List ι} (h : Chains J limit s is s')
    (hsound : s.Sound J) (hsub : (s.types J).total ≤ bound) :
    s'.Sound J ∧ s'.types J = (s.types J).visits is := by
  induction h with
  | nil s => exact ⟨hsound, rfl⟩
  | @chain s m s' i is wrote head tail ih =>
    have hvisit := (head.visit hJ hsound hfits (((s.types J).joined_le_total i).trans hsub)).1
    have hrest := ih (head.sound hsound) (by rw [hvisit, SharedCell.total_visit]; exact hsub)
    rw [hvisit] at hrest
    exact hrest
  | other e step still tail ih =>
    rw [← still.types (J := J)] at hsub ⊢
    exact ih (hsound.step step) hsub

end Visits

/-- **The type index converges.**  From every state any interleaving leads to, where the union of the record's types and of
what all nodes know and have announced fits: after two rounds of complete chains the record and what every node knows are
that union, and no later chain writes.  In a round every node comes at least once, in any order, and between the chains
other events may come that leave the types.  (A chain starts at an idle node; that the other nodes are idle, too, is not
needed.) -/
theorem types_converge [Fintype ι] [DecidableEq ι] (J : Json) (hJ : J.Lawful) (limit : ι → Nat) (s : Index ι)
    (hs : (index ι J).Reachable s) (hfits : Fits J limit (s.types J).total) (first second : List ι)
    (hfirst : ∀ i, i ∈ first) (hsecond : ∀ i, i ∈ second) (s₁ s₂ : Index ι) (h₁ : Chains J limit s first s₁)
    (h₂ : Chains J limit s₁ second s₂) :
    recordTypes J s₂.record = (s.types J).total ∧ (∀ i, (s₂.reg i).knownTypes = (s.types J).total) ∧
      ∀ more s₃ i wrote s₄, Chains J limit s₂ more s₃ → Chain J limit i s₃ wrote s₄ → wrote = false := by
  obtain ⟨hsound₁, htypes₁⟩ := h₁.visits hJ hfits (reachable_sound hs) le_rfl
  have htotal₁ : (s₁.types J).total = (s.types J).total := by rw [htypes₁, SharedCell.total_visits]
  have hcell₁ : (s₁.types J).cell = (s₁.types J).total := by
    rw [htotal₁, htypes₁]
    exact SharedCell.cell_visits _ hfirst
  obtain ⟨hsound₂, htypes₂⟩ := h₂.visits hJ hfits hsound₁ htotal₁.le
  have htotal₂ : (s₂.types J).total = (s.types J).total := by rw [htypes₂, SharedCell.total_visits, htotal₁]
  have hcell₂ : (s₂.types J).cell = (s₂.types J).total := by
    rw [htypes₂]
    exact SharedCell.cell_visits_of_cell hcell₁ second
  refine ⟨hcell₂.trans htotal₂, fun i => ?_, fun more s₃ i wrote s₄ hmore hchain => ?_⟩
  · have hheld := SharedCell.held_visits hcell₁ (hsecond i)
    rw [← htypes₂, htotal₁] at hheld
    exact hheld
  · obtain ⟨hsound₃, htypes₃⟩ := hmore.visits hJ hfits hsound₂ htotal₂.le
    have hcell₃ : (s₃.types J).cell = (s₃.types J).total := by
      rw [htypes₃]
      exact SharedCell.cell_visits_of_cell hcell₂ more
    have htotal₃ : (s₃.types J).total = (s.types J).total := by rw [htypes₃, SharedCell.total_visits, htotal₂]
    have hjoined := SharedCell.joined_of_cell hcell₃ i
    have hwrote := (hchain.visit hJ hsound₃ hfits (hjoined.le.trans htotal₃.le)).2
    exact Bool.eq_false_iff.2 (fun h => hwrote.1 h (hjoined.trans hcell₃.symm))

/-! ## Two nodes -/

/-- The JSON text of a name without characters to escape. -/
def quoted (name : String) : Bytes := 34 :: (strBytes name ++ [34])

def listed : List String → Bytes
  | [] => []
  | [name] => quoted name
  | name :: rest => quoted name ++ 44 :: listed rest

/-- The texts between quotation marks; `name` is the one being read. -/
def unquoted : Bytes → Option Bytes → List Bytes
  | [], _ => []
  | b :: rest, none => if b = 34 then unquoted rest (some []) else unquoted rest none
  | b :: rest, some name => if b = 34 then name :: unquoted rest none else unquoted rest (some (name ++ [b]))

/-- JSON arrays of names without characters to escape. -/
def plainJson : Json where
  toVec := fun names => .ok (91 :: (listed names ++ [93]))
  fromSlice := fun value => .ok ((unquoted value none).map (fun bytes => (Pq.fromUtf8 bytes).getD ""))

theorem quote_notMem {name : String} (h : Auth.isValidServiceName name = true) : (34 : UInt8) ∉ strBytes name := by
  intro hmem
  simp only [Auth.isValidServiceName, Auth.isValidNetworkName, Bool.and_eq_true, List.all_eq_true] at h
  exact absurd (h.1.2 34 hmem) (by decide)

theorem unquoted_text (rest : Bytes) : ∀ (text name : Bytes), (34 : UInt8) ∉ text →
    unquoted (text ++ 34 :: rest) (some name) = (name ++ text) :: unquoted rest none
  | [], name, _ => by simp [unquoted]
  | b :: text, name, h => by
    rw [List.mem_cons, not_or] at h
    rw [List.cons_append, unquoted, if_neg (Ne.symm h.1), unquoted_text rest text _ h.2, List.append_assoc]
    rfl

theorem unquoted_quoted {name : String} (h : Auth.isValidServiceName name = true) (rest : Bytes) :
    unquoted (quoted name ++ rest) none = strBytes name :: unquoted rest none := by
  rw [quoted, List.cons_append, unquoted, if_pos rfl, List.append_assoc]
  exact unquoted_text rest (strBytes name) [] (quote_notMem h)

theorem unquoted_listed : ∀ {names : List String}, (∀ name ∈ names, Auth.isValidServiceName name = true) →
    unquoted (listed names ++ [93]) none = names.map strBytes
  | [], _ => rfl
  | [name], h => by
    rw [listed, unquoted_quoted (h name List.mem_cons_self)]
    rfl
  | name :: name' :: rest, h => by
    have hrest : unquoted (listed (name' :: rest) ++ [93]) none = (name' :: rest).map strBytes :=
      unquoted_listed (fun n hn => h n (List.mem_cons_of_mem _ hn))
    rw [listed, List.append_assoc, unquoted_quoted (h name List.mem_cons_self), List.cons_append, unquoted,
      if_neg (by decide), hrest]
    · rfl
    · exact fun hnil => by cases hnil

theorem length_listed : ∀ names : List String,
    (listed names).length + min 1 names.length = (names.map (fun name => (strBytes name).length + 3)).sum
  | [] => rfl
  | [name] => by simp [listed, quoted]
  | name :: name' :: rest => by
    have hrest := length_listed (name' :: rest)
    rw [listed]
    · simp only [List.map_cons, List.sum_cons, List.length_cons, List.length_append, quoted, List.length_nil] at hrest ⊢
      omega
    · exact fun hnil => by cases hnil

theorem plainJson_lawful : plainJson.Lawful where
  encodes := by
    intro names hvalid
    refine ⟨_, rfl, ?_⟩
    have htext : unquoted (91 :: (listed names ++ [93])) none = names.map strBytes := by
      rw [unquoted, if_neg (by decide), unquoted_listed hvalid]
    simp only [plainJson, htext, List.map_map]
    refine congrArg Except.ok ((List.map_congr_left (fun name _ => ?_)).trans (List.map_id names))
    simp [Pq.fromUtf8_strBytes]
  length_le := by
    rintro names names' _ _ hsub - ⟨⟩ ⟨⟩
    have hsum := (hsub.map (fun name => (strBytes name).length + 3)).sum_le_sum (fun _ _ => Nat.zero_le _)
    have hlength := hsub.length_le
    have h := length_listed names
    have h' := length_listed names'
    simp only [List.length_cons, List.length_append]
    cases names with
    | nil => simp [listed]
    | cons name rest =>
      simp only [List.length_cons] at h hlength
      omega

/-- The first of two nodes serves `chat`, the second `mail`. -/
def pairService (i : Fin 2) : String := if i = 0 then "chat" else "mail"

def pairConfig (i : Fin 2) : NodeConfig := NodeConfig.withServices [⟨pairService i, 6000, false⟩]

def pairEnv (i : Fin 2) : Env := ⟨pairConfig i, Iteration.ascending String, plainJson.toVec⟩

/-- Node `i` announces its service. -/
def pairAnnounces (i : Fin 2) : List (IndexEvent (Fin 2)) :=
  [.own i (.readiness {pairService i} 0), .own i (.command .bootstrapCompleted 0), .own i (.plan (pairEnv i) 0 1),
    .own i (.complete (pairEnv i) (announceJob 0 (pairService i)) (.announced 0 (pairService i) (.ok ())) 0)]

def pairReads (i : Fin 2) (now : Instant) : List (IndexEvent (Fin 2)) :=
  [.own i (.plan (pairEnv i) now 4), .read i 0, .finish i (.readTypes 0) (pairConfig i) (Iteration.ascending String) now]

def pairWrites (i : Fin 2) (names : List String) : List (IndexEvent (Fin 2)) :=
  [.own i (.plan (pairEnv i) 0 4), .write i 0 (91 :: (listed names ++ [93])),
    .finish i (.writeTypes 0 (91 :: (listed names ++ [93]))) (pairConfig i) (Iteration.ascending String) 0]

def pairSystem : Machine (Index (Fin 2)) (IndexEvent (Fin 2)) := index (Fin 2) plainJson

def pairStart : List (IndexEvent (Fin 2)) := pairAnnounces 0 ++ pairAnnounces 1

def pairLimit (i : Fin 2) : Nat := (pairConfig i).compat.maxRecordBytes

/-- The next planning call starts the job. -/
def pairDue (i : Fin 2) (now : Instant) (job : JobSpec) (s : Index (Fin 2)) : Bool :=
  (s.reg i).generation == 0 && decide (job ∈ ((s.reg i).plan (pairEnv i) now 4).1)

theorem reads_of_pairDue {i : Fin 2} {now : Instant} {s m : Index (Fin 2)} (hdue : pairDue i now (.readTypes 0) s = true)
    (hrun : pairSystem.runFrom s (pairReads i now) = some m) : Reads plainJson pairLimit i s m := by
  rw [pairDue, Bool.and_eq_true, beq_iff_eq, decide_eq_true_eq] at hdue
  exact ⟨pairEnv i, now, 4, pairConfig i, Iteration.ascending String, now, hdue.1 ▸ hdue.2, rfl, hdue.1 ▸ hrun⟩

theorem writes_of_pairDue {i : Fin 2} {names : List String} {m s' : Index (Fin 2)}
    (hdue : pairDue i 0 (.writeTypes 0 (91 :: (listed names ++ [93]))) m = true)
    (hrun : pairSystem.runFrom m (pairWrites i names) = some s') : Writes plainJson i m s' := by
  rw [pairDue, Bool.and_eq_true, beq_iff_eq, decide_eq_true_eq] at hdue
  exact ⟨pairEnv i, 0, 4, 91 :: (listed names ++ [93]), pairConfig i, Iteration.ascending String, 0, hdue.1 ▸ hdue.2,
    hdue.1 ▸ hrun⟩

/-- In the first round both nodes write, in the second neither has to. -/
theorem pair_converges : ∃ s s₁ s₂, (index (Fin 2) plainJson).Reachable s ∧ Chains plainJson pairLimit s [0, 1] s₁ ∧
    Chains plainJson pairLimit s₁ [0, 1] s₂ ∧ recordTypes plainJson s₂.record = {"chat", "mail"} ∧
    ∀ i, (s₂.reg i).knownTypes = {"chat", "mail"} := by
  obtain ⟨s, hs, hp⟩ := pairSystem.exists_of_check (fun s => pairDue 0 0 (.readTypes 0) s &&
    decide ((s.types plainJson).total = {"chat", "mail"})) pairStart (by decide +kernel)
  rw [Bool.and_eq_true, decide_eq_true_eq] at hp
  obtain ⟨m, hr, hm, hpm⟩ := pairSystem.exists_next hs
    (pairDue 0 0 (.writeTypes 0 (91 :: (listed ["chat"] ++ [93])))) (pairReads 0 0) (by decide +kernel)
  obtain ⟨t, hw, ht, hpt⟩ := pairSystem.exists_next hm (pairDue 1 0 (.readTypes 0)) (pairWrites 0 ["chat"])
    (by decide +kernel)
  obtain ⟨m', hr', hm', hpm'⟩ := pairSystem.exists_next ht
    (pairDue 1 0 (.writeTypes 0 (91 :: (listed ["chat", "mail"] ++ [93])))) (pairReads 1 0) (by decide +kernel)
  obtain ⟨s₁, hw', hs₁, hp₁⟩ := pairSystem.exists_next hm' (pairDue 0 (secs 300) (.readTypes 0))
    (pairWrites 1 ["chat", "mail"]) (by decide +kernel)
  obtain ⟨u, hr₂, hu, hpu⟩ := pairSystem.exists_next hs₁ (fun u => pairDue 1 (secs 300) (.readTypes 0) u &&
    decide ((u.reg 0).reconcile = .idle)) (pairReads 0 (secs 300)) (by decide +kernel)
  obtain ⟨s₂, hr₂', -, hp₂⟩ := pairSystem.exists_next hu (fun s₂ => decide ((s₂.reg 1).reconcile = .idle))
    (pairReads 1 (secs 300)) (by decide +kernel)
  rw [Bool.and_eq_true, decide_eq_true_eq] at hpu
  have hfirst : Chains plainJson pairLimit s [0, 1] s₁ :=
    .chain (.wrote m t (reads_of_pairDue hp.1 hr) (writes_of_pairDue hpm hw))
      (.chain (.wrote m' s₁ (reads_of_pairDue hpt hr') (writes_of_pairDue hpm' hw')) (.nil s₁))
  have hsecond : Chains plainJson pairLimit s₁ [0, 1] s₂ :=
    .chain (.synced u (reads_of_pairDue hp₁ hr₂) hpu.2)
      (.chain (.synced s₂ (reads_of_pairDue hpu.1 hr₂') (of_decide_eq_true hp₂)) (.nil s₂))
  have hfits : Fits plainJson pairLimit (s.types plainJson).total := by
    rw [hp.2]
    refine ⟨by decide +kernel, by decide +kernel, fun value hvalue i => ?_⟩
    cases hvalue
    revert i
    decide +kernel
  obtain ⟨hrecord, hknown, -⟩ := types_converge plainJson plainJson_lawful pairLimit s ⟨pairStart, hs⟩ hfits [0, 1] [0, 1]
    (by decide) (by decide) s₁ s₂ hfirst hsecond
  rw [hp.2] at hrecord hknown
  exact ⟨s, s₁, s₂, ⟨pairStart, hs⟩, hfirst, hsecond, hrecord, hknown⟩

end Registry
end NexusNet
