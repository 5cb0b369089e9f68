import NexusNet.AuthSound
/-!
# AuthRollback — versions never go back

The caches may forget a record and take an older one again.  What keeps an old record from being used is the version
history, which every `authorize` consults between reading a document and using it.  A run has two kinds of outputs here,
the index versions that pass `check_index` and the whitelist versions that pass `check_whitelist`, and the history is
the record that keeps them in order.
-/
namespace NexusNet
namespace Auth

/-! ## The checks -/

/-- A version an `authorize` call presents to the history. -/
inductive Check where
  | index (version : UInt64)
  | whitelist (service : String) (version : UInt64)
deriving DecidableEq

def Check.result (versions : AuthVersions) : Check → Except AuthError AuthVersions
  | .index version => versions.checkIndex version
  | .whitelist service version => versions.checkWhitelist service version

/-- The check an event makes. -/
def Gate.check (g : Gate) : Event → Option Check
  | .move a .checkIndex =>
    (g.requests.lookup a).bind (fun q => match q.pc with
      | .unexpired _ _ doc => some (.index doc.version)
      | _ => none)
  | .move a .checkWhitelist =>
    (g.requests.lookup a).bind (fun q => match q.pc with
      | .gotWhitelist _ _ _ list => some (.whitelist q.service list.version)
      | _ => none)
  | _ => none

/-- The check of an event that passes. -/
def Gate.passed (g : Gate) (e : Event) : Option Check :=
  (g.check e).filter (fun c => (c.result g.versions).isOk)

/-- The index version that passes at an event. -/
def passedIndex (g : Gate) (e : Event) : Option UInt64 :=
  match g.passed e with
  | some (.index version) => some version
  | _ => none

/-- The version that passes at an event for the whitelist of `service`. -/
def passedWhitelist (service : String) (g : Gate) (e : Event) : Option UInt64 :=
  match g.passed e with
  | some (.whitelist s version) => if s = service then some version else none
  | _ => none

/-- The service and the whitelist version of the `Allow` an event grants from a whitelist. -/
def allowedFrom (P : Primitives) (g : Gate) : Event → Option (String × UInt64)
  | .move a m =>
    (g.requests.lookup a).bind (fun q => match q.pc, g.move P q m with
      | .gotWhitelist _ _ _ list, some (_, .decided .allow) => some (q.service, list.version)
      | _, _ => none)
  | _ => none

/-- Only reloads that resolve to the trust domain the gate has. -/
def SameDomain (P : Primitives) (g : Gate) : Event → Prop
  | .reload config _ => sameTrustDomain g.state (resolveState P config) = true
  | _ => True

instance (P : Primitives) (g : Gate) (e : Event) : Decidable (SameDomain P g e) := by
  cases e <;> unfold SameDomain <;> infer_instance

/-- The index versions that pass in a run. -/
def indexPasses (P : Primitives) (config : NodeConfig) (es : List Event) : List UInt64 :=
  (gate P config).outputs (fun g e => (passedIndex g e).toList) (gate P config).init es

/-- The whitelist versions that pass for a service in a run. -/
def whitelistPasses (P : Primitives) (config : NodeConfig) (service : String) (es : List Event) : List UInt64 :=
  (gate P config).outputs (fun g e => (passedWhitelist service g e).toList) (gate P config).init es

/-! ## What a check does to the history -/

theorem checkIndex_eq_ok {v v' : AuthVersions} {version : UInt64} (h : v.checkIndex version = .ok v') :
    v' = { v with index := some version } ∧ ∀ cur, v.index = some cur → cur ≤ version := by
  unfold AuthVersions.checkIndex at h
  split at h
  · rename_i cur hcur
    split at h
    · cases h
    · rename_i hnot
      cases h
      refine ⟨rfl, fun c hc => ?_⟩
      cases hcur.symm.trans hc
      exact UInt64.not_lt.1 hnot
  · rename_i hnone
    cases h
    refine ⟨rfl, fun c hc => ?_⟩
    cases hnone.symm.trans hc

theorem checkWhitelist_eq_ok {v v' : AuthVersions} {service : String} {version : UInt64}
    (h : v.checkWhitelist service version = .ok v') :
    v' = { v with whitelists := v.whitelists.insert service version } ∧
      ∀ cur, v.whitelists.lookup service = some cur → cur ≤ version := by
  unfold AuthVersions.checkWhitelist at h
  split at h
  · rename_i cur hcur
    split at h
    · cases h
    · rename_i hnot
      cases h
      refine ⟨rfl, fun c hc => ?_⟩
      cases hcur.symm.trans hc
      exact UInt64.not_lt.1 hnot
  · rename_i hnone
    cases h
    refine ⟨rfl, fun c hc => ?_⟩
    cases hnone.symm.trans hc

section Steps

variable {P : Primitives} {g g' : Gate}

theorem stepIndex_versions {i : Nat} {e : Dht.Event String IndexDoc} (h : g.stepIndex i e = some g') :
    g'.versions = g.versions := by
  obtain ⟨caches, index, -, -, rfl⟩ := stepIndex_eq_some h
  rfl

theorem stepWhitelist_versions {i : Nat} {e : Dht.Event WhitelistKey WhitelistDoc}
    (h : g.stepWhitelist i e = some g') : g'.versions = g.versions := by
  obtain ⟨caches, whitelist, -, -, rfl⟩ := stepWhitelist_eq_some h
  rfl

theorem reload_versions {config : NodeConfig} {fresh : Nat}
    (h : sameTrustDomain g.state (resolveState P config) = true) : (g.reload P config fresh).versions = g.versions := by
  unfold Gate.reload
  simp only [h, if_true]
  split
  · split <;> rfl
  · rfl

/-- **Only a check touches the history**: at an access of a request the history is what the check makes of it, and stays
where the check fails or the access makes none. -/
theorem Moved.versions {a : Nat} {q : Request} {m : Move} {pc : Pc} (h : Moved P g q m g' pc)
    (hq : g.requests.lookup a = some q) :
    (g.passed (.move a m) = none ∧ g'.versions = g.versions) ∨
      ∃ c, g.passed (.move a m) = some c ∧ c.result g.versions = .ok g'.versions := by
  cases h with
  | indexRollback _ _ _ _ hpc hold | whitelistRollback _ _ _ _ _ hpc hold =>
    exact .inl ⟨by simp [Gate.passed, Gate.check, hq, hpc, Check.result, hold, Except.isOk, Except.toBool], rfl⟩
  | indexPassed net i doc versions hpc hpassed =>
    refine .inr ⟨.index doc.version, ?_, hpassed⟩
    simp [Gate.passed, Gate.check, hq, hpc, Check.result, hpassed, Except.isOk, Except.toBool]
  | whitelistPassed i doc entry list versions hpc hpassed =>
    refine .inr ⟨.whitelist q.service list.version, ?_, hpassed⟩
    simp [Gate.passed, Gate.check, hq, hpc, Check.result, hpassed, Except.isOk, Except.toBool]
  | getIndex _ _ _ _ _ _ henter | dropIndex _ _ _ _ _ henter | indexDropped _ _ _ _ henter =>
    exact .inl ⟨rfl, stepIndex_versions henter⟩
  | getWhitelist _ _ _ _ _ _ _ henter | dropWhitelist _ _ _ _ _ henter | whitelistDropped _ _ _ _ henter =>
    exact .inl ⟨rfl, stepWhitelist_versions henter⟩
  | _ => exact .inl ⟨rfl, rfl⟩

/-- **One step of the gate and the history.** -/
theorem versions_step {e : Event} (hsame : SameDomain P g e) (h : g.step P e = some g') :
    (g.passed e = none ∧ g'.versions = g.versions) ∨
      ∃ c, g.passed e = some c ∧ c.result g.versions = .ok g'.versions := by
  cases stepped_of_step h with
  | authorize a peer service fresh => exact .inl ⟨rfl, rfl⟩
  | move a m q g₁ pc hq hmoved => exact hmoved.versions hq
  | caches _ i old new about built cause =>
    refine .inl ⟨?_, rfl⟩
    cases cause <;> rfl
  | reload config fresh unused => exact .inl ⟨rfl, reload_versions hsame⟩

theorem index_step {e : Event} (hsame : SameDomain P g e) (h : g.step P e = some g') :
    (passedIndex g e = none ∧ g'.versions.index = g.versions.index) ∨
      ∃ v, passedIndex g e = some v ∧ (∀ w, g.versions.index = some w → w ≤ v) ∧ g'.versions.index = some v := by
  unfold passedIndex
  obtain ⟨hnone, hv⟩ | ⟨c, hc, hok⟩ := versions_step hsame h
  · rw [hnone, hv]
    exact .inl ⟨rfl, rfl⟩
  · rw [hc]
    cases c with
    | index version =>
      obtain ⟨hv, hle⟩ := checkIndex_eq_ok hok
      rw [hv]
      exact .inr ⟨version, rfl, hle, rfl⟩
    | whitelist s version =>
      obtain ⟨hv, -⟩ := checkWhitelist_eq_ok hok
      rw [hv]
      exact .inl ⟨rfl, rfl⟩

theorem whitelist_step (service : String) {e : Event} (hsame : SameDomain P g e) (h : g.step P e = some g') :
    (passedWhitelist service g e = none ∧
        g'.versions.whitelists.lookup service = g.versions.whitelists.lookup service) ∨
      ∃ v, passedWhitelist service g e = some v ∧ (∀ w, g.versions.whitelists.lookup service = some w → w ≤ v) ∧
        g'.versions.whitelists.lookup service = some v := by
  unfold passedWhitelist
  obtain ⟨hnone, hv⟩ | ⟨c, hc, hok⟩ := versions_step hsame h
  · rw [hnone, hv]
    exact .inl ⟨rfl, rfl⟩
  · rw [hc]
    cases c with
    | index version =>
      obtain ⟨hv, -⟩ := checkIndex_eq_ok hok
      rw [hv]
      exact .inl ⟨rfl, rfl⟩
    | whitelist s version =>
      obtain ⟨hv, hle⟩ := checkWhitelist_eq_ok hok
      rw [hv]
      by_cases hs : s = service
      · subst hs
        exact .inr ⟨version, if_pos rfl, hle, Finmap.lookup_insert _⟩
      · exact .inl ⟨if_neg hs, Finmap.lookup_insert_of_ne _ (Ne.symm hs)⟩

/-- An `Allow` from a whitelist has passed the check of its version. -/
theorem allowedFrom_passed {e : Event} {service : String} {version : UInt64}
    (h : allowedFrom P g e = some (service, version)) :
    ∀ w, g.versions.whitelists.lookup service = some w → w ≤ version := by
  cases e with
  | move a m =>
    simp only [allowedFrom] at h
    obtain ⟨q, hq, h⟩ := Option.bind_eq_some_iff.1 h
    split at h
    · rename_i i doc entry list g₁ hpc hmove
      cases h
      -- of the accesses at this point only the check decides
      generalize hd : Pc.decided .allow = pc at hmove
      cases moved_of_move hmove with
      | whitelistPassed i' doc' entry' list' versions hpc' hpassed =>
        cases hpc.symm.trans hpc'
        exact (checkWhitelist_eq_ok hpassed).2
      | whitelistRollback i' doc' entry' list' error hpc' hold => cases hd
      | _ => simp_all
    · cases h
  | _ => cases h

end Steps

/-! ## Runs -/

/-- **The history protects a run from rollback**: `es` has led to `g`. -/
structure RollbackProtected (P : Primitives) (config : NodeConfig) (es : List Event) (g : Gate) : Prop where
  index : (indexPasses P config es).Pairwise (· ≤ ·)
  whitelist : ∀ service, (whitelistPasses P config service es).Pairwise (· ≤ ·)
  indexRecord : g.versions.index = (indexPasses P config es).getLast?
  whitelistRecord : ∀ service, g.versions.whitelists.lookup service = (whitelistPasses P config service es).getLast?
  -- what the next event does
  rejected : ∀ e c error g', g.check e = some c → c.result g.versions = .error error → g.step P e = some g' →
    g'.versions = g.versions
  allow : ∀ e service version, allowedFrom P g e = some (service, version) →
    ∀ v ∈ whitelistPasses P config service es, v ≤ version

/-- A failed check leaves the history as it is, whatever event makes it. -/
theorem versions_rejected {P : Primitives} {g g' : Gate} {e : Event} {c : Check} {error : AuthError}
    (hc : g.check e = some c) (herror : c.result g.versions = .error error) (h : g.step P e = some g') :
    g'.versions = g.versions := by
  have hsame : SameDomain P g e := by
    cases e with
    | reload config fresh => cases hc
    | _ => trivial
  obtain ⟨-, hv⟩ | ⟨c', hc', hok⟩ := versions_step hsame h
  · exact hv
  · have hnone : g.passed e = none := by
      simp [Gate.passed, hc, herror, Except.isOk, Except.toBool]
    cases hnone.symm.trans hc'

/-- **Rollback protection.**  In every run whose reloads stay in one trust domain, the index versions that pass ascend,
so do the whitelist versions that pass for each service, a rejected version leaves the records, and an `Allow` is never
granted from a whitelist older than one that has passed for its service. -/
theorem rollback_protected (P : Primitives) (config : NodeConfig) (es : List Event) (g : Gate)
    (hrun : (gate P config).run es = some g)
    (hsame : (gate P config).Meets (SameDomain P) (gate P config).init es) : RollbackProtected P config es g := by
  have hnew : (gate P config).init.versions = .default := by
    simp only [gate, Gate.new]
    split <;> rfl
  obtain ⟨hindex, hindexRecord⟩ := (gate P config).outputs_ascend (fun g => g.versions.index)
    (by rw [hnew]; rfl) (fun g e g' he hs => index_step he hs) es g hrun hsame
  have hwhitelist := fun service => (gate P config).outputs_ascend
    (fun g => g.versions.whitelists.lookup service) (by rw [hnew]; rfl)
    (fun g e g' he hs => whitelist_step service he hs) es g hrun hsame
  refine ⟨hindex, fun service => (hwhitelist service).1, hindexRecord, fun service => (hwhitelist service).2,
    fun e c error g' hc herror hs => versions_rejected hc herror hs, fun e service version hallow v hv => ?_⟩
  obtain ⟨hasc, hrecord⟩ := hwhitelist service
  exact le_of_mem_ascending hasc hv (fun w hw => allowedFrom_passed hallow w (hrecord.trans hw))

/-- The request of the lab network, a reload of the same configuration, and a request that finds both records cached. -/
def labTwice (order : Iteration WhitelistKey) : List Event :=
  labRun order ++ [.reload labConfig 1, .authorize 1 [] "cmd", .move 1 (.checkConfig labConfig), .move 1 .readCaches,
    .move 1 (.getIndex 1 2), .index 0 (.ensure 1 0), .move 1 .indexRead, .move 1 (.checkExpiry 70), .move 1 .checkIndex]

theorem lab_protected : ∃ g,
    (gate labPrimitives labConfig).run (labTwice ⟨Finset.toList, Finset.coe_toList⟩) = some g ∧
    indexPasses labPrimitives labConfig (labTwice ⟨Finset.toList, Finset.coe_toList⟩) = [1, 1] ∧
    RollbackProtected labPrimitives labConfig (labTwice ⟨Finset.toList, Finset.coe_toList⟩) g := by
  obtain ⟨g, hrun, -⟩ := (gate labPrimitives labConfig).exists_of_check (fun _ => true)
    (labTwice ⟨Finset.toList, Finset.coe_toList⟩) (by decide +kernel)
  exact ⟨g, hrun, by decide +kernel, rollback_protected labPrimitives labConfig _ g hrun (by decide +kernel)⟩

end Auth
end NexusNet
