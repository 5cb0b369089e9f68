import NexusNet.RegistryConverge
import NexusNet.RegistryTypes
/-!
# RegistryPublish — which own services the written index holds

What a read leads to is written as it was encoded then (`next_write`): the listing of the merged types, cut where it does
not fit the record any more.  The merge takes foreign names first and stops at `MAX_TYPES`, and the cut falls on the
greatest names, so both limits can leave out services of this node; `own_published_iff` says exactly when they do not.
-/
namespace NexusNet
namespace Registry

open RegistryState

/-! ## The cut -/

section Cut

variable {toVec : List String → Except String Bytes} {list : List String} {maxBytes : Nat}

/-- The first `k` types fit. -/
def FitsTake (toVec : List String → Except String Bytes) (list : List String) (maxBytes k : Nat) : Prop :=
  ∃ value, toVec (list.take k) = .ok value ∧ value.length ≤ maxBytes

/-- **The binary search finds the greatest number of types that fit**, or none. -/
theorem encodeSearch_spec (hok : ∀ k, ∃ value, toVec (list.take k) = .ok value)
    (hmono : ∀ j k, j ≤ k → FitsTake toVec list maxBytes k → FitsTake toVec list maxBytes j) (low high : Nat)
    (hle : low ≤ high) (hlow : low = 0 ∨ FitsTake toVec list maxBytes low)
    (hhigh : ∀ k, high < k → k ≤ list.length → ¬ FitsTake toVec list maxBytes k) :
    ∃ n, encodeSearch toVec list maxBytes low high = .ok n ∧ n ≤ high ∧ (n = 0 ∨ FitsTake toVec list maxBytes n) ∧
      ∀ k, n < k → k ≤ list.length → ¬ FitsTake toVec list maxBytes k := by
  unfold encodeSearch
  split
  · rename_i hlt
    obtain ⟨value, hvalue⟩ := hok ((low + high + 1) / 2)
    rw [hvalue]
    simp only
    split
    · rename_i hfits
      exact encodeSearch_spec hok hmono _ high (by omega) (.inr ⟨value, hvalue, hfits⟩) hhigh
    · rename_i hlarge
      have hmid : ¬ FitsTake toVec list maxBytes ((low + high + 1) / 2) := by
        rintro ⟨value', hvalue', hfits⟩
        cases hvalue.symm.trans hvalue'
        exact hlarge hfits
      obtain ⟨n, hn, hnle, hfits, hcut⟩ := encodeSearch_spec hok hmono low ((low + high + 1) / 2 - 1) (by omega) hlow
        (fun k hk _ hfits => hmid (hmono _ k (by omega) hfits))
      exact ⟨n, hn, by omega, hfits, hcut⟩
  · exact ⟨low, rfl, hle, hlow, fun k hk => hhigh k (by omega)⟩
termination_by high - low
decreasing_by all_goals omega

theorem encodeTypesLimited_spec (hok : ∀ k, ∃ value, toVec (list.take k) = .ok value)
    (hmono : ∀ j k, j ≤ k → FitsTake toVec list maxBytes k → FitsTake toVec list maxBytes j) :
    ∃ value n, encodeTypesLimited toVec list maxBytes = .ok (value, n) ∧ n ≤ list.length ∧
      ∀ k, 0 < k → k ≤ list.length → (k ≤ n ↔ FitsTake toVec list maxBytes k) := by
  obtain ⟨full, hfull⟩ := hok list.length
  rw [List.take_length] at hfull
  unfold encodeTypesLimited
  rw [hfull]
  simp only
  split
  · rename_i hfits
    have hall : FitsTake toVec list maxBytes list.length := ⟨full, by rwa [List.take_length], hfits⟩
    exact ⟨full, list.length, rfl, le_rfl, fun k _ hk => ⟨fun _ => hmono k _ hk hall, fun _ => hk⟩⟩
  · obtain ⟨n, hn, hle, hfits, hcut⟩ := encodeSearch_spec hok hmono 0 list.length (Nat.zero_le _) (.inl rfl)
      (fun k hk hk' => absurd hk (Nat.not_lt.2 hk'))
    obtain ⟨value, hvalue⟩ := hok n
    rw [hn]
    simp only [hvalue]
    refine ⟨value, n, rfl, hle, fun k hpos hk => ⟨fun hkn => ?_, fun hk' => ?_⟩⟩
    · exact hmono k n hkn (hfits.resolve_left (by omega))
    · by_contra hlt
      exact hcut k (by omega) hk hk'

end Cut

section Lawful

variable {J : Json} {types : Finset String}

/-- **What is written holds a type exactly if the types up to it fit.** -/
theorem encodeTypesLimited_sorted (hJ : J.Lawful) (hvalid : ∀ x ∈ types, Auth.isValidServiceName x = true) (limit : Nat) :
    ∃ value n, encodeTypesLimited J.toVec (sorted types) limit = .ok (value, n) ∧
      ∀ x ∈ types, (x ∈ (sorted types).take n ↔
        ∃ value, J.toVec (sorted (types.filter (· ≤ x))) = .ok value ∧ value.length ≤ limit) := by
  have hok : ∀ k, ∃ value, J.toVec ((sorted types).take k) = .ok value := fun k => by
    obtain ⟨value, hvalue, -⟩ := hJ.encodes ((sorted types).take k)
      (fun x hx => hvalid x (mem_sorted.1 (List.mem_of_mem_take hx)))
    exact ⟨value, hvalue⟩
  have hmono : ∀ j k, j ≤ k → FitsTake J.toVec (sorted types) limit k → FitsTake J.toVec (sorted types) limit j := by
    rintro j k hjk ⟨value, hvalue, hfits⟩
    obtain ⟨value', hvalue'⟩ := hok j
    refine ⟨value', hvalue', (hJ.length_le _ _ _ _ (List.take_sublist_take_left hjk) ?_ hvalue' hvalue).trans hfits⟩
    exact fun x hx => hvalid x (mem_sorted.1 (List.mem_of_mem_take hx))
  obtain ⟨value, n, hencoded, -, hcut⟩ := encodeTypesLimited_spec hok hmono
  refine ⟨value, n, hencoded, fun x hx => ?_⟩
  have hpos : 0 < (types.filter (· ≤ x)).card := Finset.card_pos.2 ⟨x, Finset.mem_filter.2 ⟨hx, le_rfl⟩⟩
  rw [mem_take_sorted hx, hcut _ hpos (by rw [length_sorted]; exact Finset.card_filter_le _ _), FitsTake, take_sorted hx]

/-- **All announced services are merged exactly if there is room for them** beside the others. -/
theorem mergeTypeSet_holds_iff {known announced : Finset String} (hknown : ∀ x ∈ known, Auth.isValidServiceName x = true)
    (hcard : known.card ≤ maxTypes) (hvalid : ∀ x ∈ announced, Auth.isValidServiceName x = true)
    (order : Iteration String) :
    (announced ⊆ mergeTypeSet known (order.list announced) ↔ (known ∪ announced).card ≤ maxTypes) ∧
      ((known ∪ announced).card ≤ maxTypes → mergeTypeSet known (order.list announced) = known ∪ announced) := by
  have hlist : (order.list announced).toFinset = announced := by
    ext x
    rw [List.mem_toFinset, order.mem_list]
  have hmerge : (known ∪ announced).card ≤ maxTypes →
      mergeTypeSet known (order.list announced) = known ∪ announced := fun hroom => by
    rw [mergeTypeSet_eq_union hroom (fun x hx => (Finset.mem_union.1 hx).elim (hknown x) (hvalid x)) _ known
      Finset.subset_union_left (hlist.le.trans Finset.subset_union_right), hlist]
  refine ⟨⟨fun hsub => ?_, fun hroom => ?_⟩, hmerge⟩
  · exact (Finset.card_le_card (Finset.union_subset (subset_mergeTypeSet _ known) hsub)).trans
      (card_mergeTypeSet _ known hcard)
  · rw [hmerge hroom]
    exact Finset.subset_union_right

end Lawful

/-! ## The value that is written next -/

/-- The state holds the value for the next write. -/
def Holding (value : Bytes) (st : RegistryState) : Prop :=
  st.reconcile = .readyToWrite ∧ st.pendingTypesWrite = some value

section Holding

variable {value : Bytes} {st st' : RegistryState}

theorem holding_steps {env : Env} {now : Instant} {st₀ : RegistryState} {js : List JobSpec}
    (hs : PlanSteps env now st₀ st js st') (h : Holding value st) :
    (js.filterMap JobSpec.value? = [] ∧ Holding value st') ∨ (js.filterMap JobSpec.value?).head? = some value := by
  induction hs with
  | nil st => exact .inl ⟨rfl, h⟩
  | cons head tail ih =>
    cases head with
    | withdraw | retry | announce => exact ih h
    | readTypes idle => cases idle.symm.trans h.1
    | writeTypes value' ready pending =>
      cases pending.symm.trans h.2
      exact .inr rfl
    | dropWrite ready pending => cases pending.symm.trans h.2

theorem Applied.holding {now : Instant} {r : JobResult} (happlied : Applied st now r st') (h : Holding value st) :
    Holding value st' := by
  cases happlied with
  | typesReadDone _ _ _ _ reading | typesReadReady _ _ _ reading => cases reading.symm.trans h.1
  | typesWrittenDone r next writing => cases writing.symm.trans h.1
  | _ => exact h

theorem holding_command (h : Holding value st) {c : ServiceCommand} (hc : c ≠ .reset) (now : Instant) :
    Holding value (st.handle c now) := by
  cases c with
  | reset => exact absurd rfl hc
  | relayStateChanged needRelay active =>
    have hframe := relayStateChanged_frame st needRelay active
    exact ⟨hframe.reconcile.trans h.1, hframe.pendingTypesWrite.trans h.2⟩
  | _ => exact h

theorem holding_step {s s' : System} {e : Event} (h : Holding value s.reg) (hreset : ∀ now, e ≠ .command .reset now)
    (hs : registry.step s e = some s') :
    (e.writes s = [] ∧ Holding value s'.reg) ∨ (e.writes s).head? = some value := by
  obtain ⟨-, -, rfl⟩ := step_eq_some.1 hs
  cases e with
  | command c now => exact .inl ⟨rfl, holding_command h (fun hc => hreset now (by rw [hc])) now⟩
  | readiness ready now => exact .inl ⟨rfl, h⟩
  | plan env now slots => exact holding_steps (plan_steps env s.reg now slots).1 h
  | complete env _ result now | stale env result now => exact .inl ⟨rfl, (apply_applied env s.reg now result).holding h⟩

/-- **The value is the next one written**, whatever comes before the write but a `Reset`. -/
def NextWrite (s : System) (value : Bytes) : Prop :=
  ∀ post t, registry.runFrom s post = some t → (∀ now, .command .reset now ∉ post) →
    ∀ value' ∈ (registry.outputs (fun s e => e.writes s) s post).head?, value' = value

theorem next_write {s : System} (h : Holding value s.reg) : NextWrite s value := by
  intro post
  induction post generalizing s with
  | nil => exact fun t _ _ value' hvalue' => by cases hvalue'
  | cons e post ih =>
    intro t hr hreset value' hvalue'
    obtain ⟨s', hs, hr'⟩ := registry.runFrom_cons.1 hr
    rw [registry.outputs_cons post hs] at hvalue'
    rcases holding_step h (fun now heq => hreset now (heq ▸ List.mem_cons_self)) hs with ⟨hnone, hholds⟩ | hhead
    · rw [hnone, List.nil_append] at hvalue'
      exact ih hholds t hr' (fun now hmem => hreset now (List.mem_cons_of_mem _ hmem)) value' hvalue'
    · rw [List.head?_append, hhead] at hvalue'
      cases hvalue'
      rfl

end Holding

/-! ## Own services -/

/-- The types a node merges at the end of a read, if nothing is left out. -/
def RegistryState.merging (st : RegistryState) (types : List String) : Finset String :=
  mergeTypeSet st.knownTypes types ∪ st.announced

/-- **There is a place for every own service**: with them the types are not too many, and the types up to each of them fit
the record. -/
def OwnFit (J : Json) (st : RegistryState) (types : List String) (limit : Nat) : Prop :=
  (st.merging types).card ≤ maxTypes ∧ ∀ x ∈ st.announced, ∃ value,
    J.toVec (sorted ((st.merging types).filter (· ≤ x))) = .ok value ∧ value.length ≤ limit

/-- A read that leads to a write holds the encoding of what it merged. -/
theorem applyTypesRead_ready {env : Env} {st : RegistryState} {now : Instant} {g : UInt64} {types : List String}
    (hbefore : st.reconcile ≠ .readyToWrite)
    (hready : (st.applyTypesRead env now g (.ok types)).reconcile = .readyToWrite) : ∃ value n,
    encodeTypesLimited env.toVec
      (sorted (mergeTypeSet (mergeTypeSet st.knownTypes types) (env.order.list st.announced)))
      env.config.compat.maxRecordBytes = .ok (value, n) ∧
    Holding value (st.applyTypesRead env now g (.ok types)) := by
  unfold applyTypesRead at hready ⊢
  by_cases hignored : g ≠ st.generation ∨ st.reconcile ≠ .reading
  · rw [if_pos hignored] at hready
    exact absurd hready hbefore
  rw [if_neg hignored] at hready ⊢
  simp only at hready ⊢
  generalize mergeTypeSet (mergeTypeSet st.knownTypes types) (env.order.list st.announced) = known at hready ⊢
  by_cases hsame : known = ∅ ∨ known = types.toFinset
  · rw [if_pos hsame] at hready
    cases hready
  rw [if_neg hsame] at hready ⊢
  cases hencoded : encodeTypesLimited env.toVec (sorted known) env.config.compat.maxRecordBytes with
  | error e =>
    rw [hencoded] at hready
    cases hready
  | ok r => exact ⟨r.1, r.2, rfl, rfl, rfl⟩

/-- **Exactly when a node's own services are published.**  In every reachable state, for every list of types read and every
configuration: where a read leads to a write, the value written next can be read, and it holds all services that were
announced at the read if and only if there is a place for them beside the types that were known or read. -/
theorem own_published_iff (J : Json) (hJ : J.Lawful) (es : List Event) (s : System) (hr : registry.run es = some s)
    (config : NodeConfig) (order : Iteration String) (now : Instant) (g : UInt64) (types : List String)
    (hbefore : s.reg.reconcile ≠ .readyToWrite)
    (hready : (s.reg.apply ⟨config, order, J.toVec⟩ now (.typesRead g (.ok types))).reconcile = .readyToWrite) :
    ∃ value list, Holding value (s.reg.apply ⟨config, order, J.toVec⟩ now (.typesRead g (.ok types))) ∧
      (∀ s' : System, s'.reg = s.reg.apply ⟨config, order, J.toVec⟩ now (.typesRead g (.ok types)) → NextWrite s' value) ∧
      parseTypes J value = .ok list ∧
      ((∀ x ∈ s.reg.announced, x ∈ list) ↔ OwnFit J s.reg types config.compat.maxRecordBytes) := by
  have hsync := syncing_run hr
  have hannounced := announced_valid (gated_run hr) (fun _ => valid_of_mem_names)
  obtain ⟨value, n, hencoded, hholds⟩ := applyTypesRead_ready hbefore hready
  have hknown := mergeTypeSet_valid types _ hsync.valid
  have hcard := card_mergeTypeSet types _ hsync.bounded
  obtain ⟨hroom, hmerge⟩ := mergeTypeSet_holds_iff hknown hcard hannounced order
  have hvalid := mergeTypeSet_valid (order.list s.reg.announced) _ hknown
  have hbounded := card_mergeTypeSet (order.list s.reg.announced) _ hcard
  obtain ⟨value', n', hencoded', hcut⟩ := encodeTypesLimited_sorted hJ hvalid config.compat.maxRecordBytes
  cases hencoded.symm.trans hencoded'
  refine ⟨value, _, hholds, fun s' hs' => next_write (hs' ▸ hholds), hJ.parseTypes ?_ ?_ (encodeTypesLimited_take hencoded),
    ?_⟩
  · exact fun x hx => hvalid x (mem_sorted.1 (List.mem_of_mem_take hx))
  · rw [List.length_take, length_sorted]
    exact (Nat.min_le_right _ _).trans hbounded
  constructor
  · intro hall
    -- what is in the listing was merged, so there was room
    have hfits := hroom.1 (fun x hx => mem_sorted.1 (List.mem_of_mem_take (hall x hx)))
    refine ⟨hfits, fun x hx => ?_⟩
    rw [RegistryState.merging, ← hmerge hfits]
    exact (hcut x (hroom.2 hfits hx)).1 (hall x hx)
  · rintro ⟨hfits, hplaces⟩ x hx
    refine (hcut x (hroom.2 hfits hx)).2 ?_
    rw [hmerge hfits]
    exact hplaces x hx

/-- A node with the local service `cmd`, whose records hold at most `limit` bytes. -/
def limitedConfig (limit : Nat) : NodeConfig := { NodeConfig.withServices [⟨"cmd", 6000, false⟩] with compat := ⟨limit⟩ }

def limitedEnv (limit : Nat) : Env := ⟨limitedConfig limit, Iteration.ascending String, plainJson.toVec⟩

/-- `cmd` is announced while the index is being read. -/
def announcedRun (limit : Nat) : List Event :=
  [.readiness {"cmd"} 0, .command .bootstrapCompleted 0, .plan (limitedEnv limit) 0 4,
    .complete (limitedEnv limit) (announceJob 0 "cmd") (.announced 0 "cmd" (.ok ())) 0]

/-- `cmd` is announced, no type is known, and a read of the types ends in a write of the value. -/
def readWrites (limit : Nat) (types : List String) (value : Bytes) (s : System) : Bool :=
  decide (s.reg.announced = {"cmd"} ∧ s.reg.knownTypes = ∅ ∧ s.reg.reconcile = .reading) &&
    decide ((s.reg.apply (limitedEnv limit) 0 (.typesRead 0 (.ok types))).reconcile = .readyToWrite) &&
    decide (.writeTypes 0 value ∈ ((s.reg.apply (limitedEnv limit) 0 (.typesRead 0 (.ok types))).plan (limitedEnv limit) 0 4).1)

/-- With the default limit `cmd` is published beside a foreign type. -/
theorem own_published_default : ∃ s value list, registry.run (announcedRun 14336) = some s ∧ "cmd" ∈ s.reg.announced ∧
    NextWrite { s with reg := s.reg.apply (limitedEnv 14336) 0 (.typesRead 0 (.ok ["aaa"])) } value ∧
    parseTypes plainJson value = .ok list ∧ "cmd" ∈ list := by
  obtain ⟨s, hr, hs⟩ := registry.exists_of_check
    (readWrites 14336 ["aaa"] (strBytes "[\"aaa\",\"cmd\"]")) (announcedRun 14336) (by decide +kernel)
  simp only [readWrites, Bool.and_eq_true, decide_eq_true_eq] at hs
  obtain ⟨⟨⟨hannounced, hknown, hreading⟩, hready⟩, -⟩ := hs
  have hmem : "cmd" ∈ s.reg.announced := hannounced ▸ Finset.mem_singleton_self _
  obtain ⟨value, list, -, hnext, hparse, hiff⟩ := own_published_iff plainJson plainJson_lawful (announcedRun 14336) s hr
    (limitedConfig 14336) (Iteration.ascending String) 0 0 ["aaa"] (by rw [hreading]; exact fun h => by cases h) hready
  refine ⟨s, value, list, hr, hmem, hnext _ rfl, hparse, hiff.2 ?_ "cmd" hmem⟩
  rw [OwnFit, RegistryState.merging, hannounced, hknown]
  refine ⟨by decide +kernel, fun x hx => ⟨_, rfl, ?_⟩⟩
  cases Finset.mem_singleton.1 hx
  decide +kernel

/-- **The cut leaves an own service out**: with records of eight bytes, which the configuration allows, `cmd` is announced
and the index that is written next holds only the foreign type. -/
theorem own_service_cut : (limitedConfig 8).validate = .ok () ∧ ∃ s, registry.run (announcedRun 8) = some s ∧
    "cmd" ∈ s.reg.announced ∧ s.reg.reconcile ≠ .readyToWrite ∧
    (s.reg.apply (limitedEnv 8) 0 (.typesRead 0 (.ok ["aaa"]))).reconcile = .readyToWrite ∧
    .writeTypes 0 (strBytes "[\"aaa\"]") ∈
      ((s.reg.apply (limitedEnv 8) 0 (.typesRead 0 (.ok ["aaa"]))).plan (limitedEnv 8) 0 4).1 ∧
    parseTypes plainJson (strBytes "[\"aaa\"]") = .ok ["aaa"] ∧ "cmd" ∉ ["aaa"] := by
  obtain ⟨s, hr, hs⟩ := registry.exists_of_check
    (readWrites 8 ["aaa"] (strBytes "[\"aaa\"]")) (announcedRun 8) (by decide +kernel)
  simp only [readWrites, Bool.and_eq_true, decide_eq_true_eq] at hs
  refine ⟨by decide +kernel, s, hr, ?_, ?_, hs.1.2, hs.2, by decide +kernel, by decide⟩
  · rw [hs.1.1.1]
    exact Finset.mem_singleton_self _
  · rw [hs.1.1.2.2]
    exact fun h => by cases h

end Registry
end NexusNet
