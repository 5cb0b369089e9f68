import NexusNet.DhtInvalidation
/-!
# DhtColdRead — what a cold read returns

A `get` that finds no entry joins the refresh that is registered for the key, or registers one, and returns what comes of
it.  A refresh that was registered before an earlier invalidation is still there to be joined; it ends with "cache
invalidated", or with the old value if it had passed the comparison.  Where the refreshes that the call reads from are
valid (`readsValid`), the key is left alone during the call (`quiet`) and no recorded generation has come back before it
(`renews`), the call returns what a refresh of the key has stored, or the error its fetch ended with, and no invalidation
of the key has begun since that fetch started.
-/
set_option linter.unusedSectionVars false

namespace NexusNet
namespace Dht

variable {K V : Type} [DecidableEq K] [DecidableEq V]

/-! ## Where values and errors come from -/

def IsRefreshOf (s : Cache K V) (r : Nat) (k : K) : Prop := ∃ f, s.refreshes.lookup r = some f ∧ f.key = k

/-- A refresh of the key fetched the value, or the absence, and wrote it, and no invalidation of the key has begun since
its fetch started. -/
def StoredBy (es : List (Event K V)) (s : Cache K V) (k : K) (value : Option V) : Prop :=
  ∃ r o now order, IsRefreshOf s r k ∧ [.fetchStart r, .fetchDone r (.ok o), .write r now order].Sublist es ∧
    ¬ BegunAfterFetch es r k ∧ value = o.map (·.value)

/-- The fetch of a refresh of the key ended with the error, and no invalidation of the key has begun since it started. -/
def FailedBy (es : List (Event K V)) (s : Cache K V) (k : K) (error : String) : Prop :=
  ∃ r, IsRefreshOf s r k ∧ [.fetchStart r, .fetchDone r (.error error)].Sublist es ∧ ¬ BegunAfterFetch es r k

/-- **Nothing is made up**: what a refresh carries its fetch has brought, and what is registered for a key is a refresh of
it. -/
structure Provenance (es : List (Event K V)) (s : Cache K V) : Prop where
  started : ∀ r f, s.refreshes.lookup r = some f → f.phase.started = true → .fetchStart r ∈ es
  carried : ∀ r f result, s.refreshes.lookup r = some f → f.phase.result = some result →
    [.fetchStart r, .fetchDone r result].Sublist es
  registered : ∀ k r, s.inflight.lookup k = some r → IsRefreshOf s r k

theorem started_advance {s : Cache K V} {r : Nat} {k : K} {e : Event K V} {p p' : Phase V} (h : Advance s r k e p p')
    (hstart : p'.started = true) : p.started = true ∨ e = .fetchStart r := by
  cases h with
  | loadGlobal | loadKey => cases hstart
  | fetchStart gen => exact Or.inr rfl
  | _ => exact Or.inl rfl

theorem Provenance.step {es : List (Event K V)} {s s' : Cache K V} {e : Event K V} (hp : Provenance es s)
    (h : Cache.Step s e s') : Provenance (es ++ [e]) s' where
  started := fun r f' hf' hstart => by
    cases hf : s.refreshes.lookup r with
    | some f =>
      rcases h.refreshes hf with hsame | ⟨phase, hnew, hadv, -⟩
      · cases hf'.symm.trans hsame
        exact List.mem_append_left [e] (hp.started r f' hf hstart)
      · cases hf'.symm.trans hnew
        rcases started_advance hadv hstart with hold | rfl
        · exact List.mem_append_left _ (hp.started r f hf hold)
        · simp
    | none =>
      -- a refresh that was not there has just been registered
      rw [h.new_refresh hf hf'] at hstart
      cases hstart
  carried := fun r f' result hf' hres => by
    have hold : [.fetchStart r, .fetchDone r result].Sublist es →
        [.fetchStart r, .fetchDone r result].Sublist (es ++ [e]) := fun hsub =>
      hsub.trans (List.sublist_append_left es [e])
    cases hf : s.refreshes.lookup r with
    | some f =>
      rcases h.refreshes hf with hsame | ⟨phase, hnew, hadv, -⟩
      · cases hf'.symm.trans hsame
        exact hold (hp.carried r f' result hf hres)
      · cases hf'.symm.trans hnew
        rcases result_advance hadv hres with hres | rfl
        · exact hold (hp.carried r f result hf hres)
        · have hstart : f.phase.started = true := by
            generalize f.phase = p at hadv
            cases hadv
            rfl
          exact (List.singleton_sublist.2 (hp.started r f hf hstart)).append (List.Sublist.refl [_])
    | none =>
      rw [h.new_refresh hf hf'] at hres
      cases hres
  registered := fun k r hr => by
    rcases h.inflight hr with hold | hnew
    · exact h.key (hp.registered k r hold)
    · exact ⟨_, hnew, rfl⟩

theorem provenance_run {maxEntries maxBytes : Nat} {es : List (Event K V)} {s : Cache K V}
    (hr : (cache K V maxEntries maxBytes).run es = some s) : Provenance es s :=
  (cache K V maxEntries maxBytes).history_invariant (P := Provenance)
    ⟨fun r f hf => by simp [cache, Cache.new] at hf, fun r f result hf => by simp [cache, Cache.new] at hf,
      fun k r hr => by simp [cache, Cache.new] at hr⟩
    (fun _ _ _ _ hP _ hs => hP.step (cache_step hs)) es s hr (Machine.meets_true _ es _)

/-! ## Valid refreshes -/

/-- The generation that the refresh has recorded. -/
def Phase.recorded : Phase V → Option Gen
  | .registered | .globalRead _ => none
  | .spawned gen | .fetching gen | .fetched gen _ | .rechecking gen _ _ | .passed gen _ | .finished gen _ | .sent gen _
  | .deregistered gen _ => some gen

/-- A global generation that the refresh has read apart is the current one, it has not been turned down, and if it has
stored its result the entry is there. -/
def Phase.sound (global : UInt64) (present : Bool) : Phase V → Bool
  | .globalRead g | .rechecking _ _ g => decide (g = global)
  | .finished _ outcome | .sent _ outcome | .deregistered _ outcome =>
    match outcome with
    | .stored      => present
    | .failed _    => true
    | .invalidated => false
  | _ => true

/-- **The refresh is valid**: the generation it has recorded is the current one, and it can serve those who wait. -/
def Refresh.valid (s : Cache K V) (f : Refresh K V) : Bool :=
  f.phase.recorded.all (fun gen => decide (gen = s.generation f.key)) &&
    f.phase.sound s.globalGeneration (decide (f.key ∈ s.entries))

/-- The refresh, if it is one of the key, has recorded a generation that is not the current one. -/
def outdated (k : K) (s : Cache K V) (f : Refresh K V) : Bool :=
  decide (f.key = k → f.phase.recorded ≠ some (s.generation k))

/-- The step brings no generation back that a refresh of the key has recorded: after the first step of an invalidation
every refresh of the key is outdated, and clearing the per-key generations revives none. -/
def renews (k : K) : Cache K V → Event K V → Bool := marks (outdated k)

/-- The step leaves the key alone: it is no part of an invalidation of it, and evicts no entry of it. -/
def quiet (k : K) (s : Cache K V) : Event K V → Bool
  | .invalidate _ k'    => decide (k' ≠ k)
  | .remove c           =>
    match s.calls.lookup c with
    | some (.removing k') => decide (k' ≠ k)
    | _ => true
  | .invalidateAll _    => false
  | .clearEntries _     => false
  | .clearKeys _        => false
  | .write r now order  =>
    match s.refreshes.lookup r with
    | some ⟨k', .passed _ result⟩ =>
      decide (k ∈ s.entries ∨ (k' = k ∧ result.isOk = true) → k ∈ (s.written k' now order result).1)
    | _ => true
  | _                   => true

/-- The refresh that the call joins is valid, and so is one that writes the key. -/
def readsValid (c : Nat) (k : K) (s : Cache K V) : Event K V → Bool
  | .ensure c' r => decide (c' = c → ∀ f ∈ s.refreshes.lookup r, f.valid s = true)
  | .write r _ _ => decide (∀ f ∈ s.refreshes.lookup r, f.key = k → f.valid s = true)
  | _            => true

theorem mark_outdated (k : K) : Mark (outdated (V := V) k) where
  congr := fun s s' f hgen hout => by
    refine decide_eq_true (fun hk => ?_)
    subst hk
    rw [hgen]
    exact of_decide_eq_true hout rfl
  advance := fun s r k' e p p' h hstart hout => by
    -- what is recorded stays
    have hsame : p'.recorded = p.recorded := by cases h <;> first | rfl | cases hstart
    unfold outdated at hout ⊢
    rwa [hsame]

theorem recorded_of_started {phase : Phase V} (h : phase.started = true) : ∃ gen, phase.recorded = some gen := by
  cases phase with
  | registered | globalRead | spawned => cases h
  | _ => exact ⟨_, rfl⟩

/-- **No invalidation has begun since the fetch of a valid refresh started.** -/
theorem not_begun {es : List (Event K V)} {s : Cache K V} {r : Nat} {f : Refresh K V} (ht : Tracked (outdated f.key) es s)
    (hf : s.refreshes.lookup r = some f) (hv : f.valid s = true) : ¬ BegunAfterFetch es r f.key := by
  intro hbegun
  have hmem : .fetchStart r ∈ es := by
    obtain ⟨c, hc | hc⟩ := hbegun <;> exact hc.subset (by simp)
  obtain ⟨f', hf', hstart⟩ := ht.started r hmem
  cases hf.symm.trans hf'
  obtain ⟨gen, hgen⟩ := recorded_of_started hstart
  have hall := (Bool.and_eq_true_iff.1 hv).1
  have hout := of_decide_eq_true (ht.marked r f hf hbegun) rfl
  rw [hgen] at hall hout
  exact hout (congrArg some (of_decide_eq_true hall))

theorem renews_of_quiet {s : Cache K V} {e : Event K V} {k : K} (hq : quiet k s e = true) : renews k s e = true := by
  cases e with
  | invalidate c k' =>
    refine decide_eq_true (fun r _ f _ hk => decide_eq_true (fun hk' => ?_))
    exact absurd (hk.symm.trans hk') (of_decide_eq_true hq)
  | invalidateAll c => cases hq
  | clearKeys c => cases hq
  | _ => rfl

/-- In the window no invalidation of the key begins. -/
theorem not_begun_step {es : List (Event K V)} {s : Cache K V} {e : Event K V} {r : Nat} {k : K}
    (hnot : ¬ BegunAfterFetch es r k) (hq : quiet k s e = true) : ¬ BegunAfterFetch (es ++ [e]) r k := by
  rintro ⟨c, hc | hc⟩
  · rcases pair_sublist_concat hc with hc | ⟨-, rfl⟩
    · exact hnot ⟨c, Or.inl hc⟩
    · exact of_decide_eq_true hq rfl
  · rcases pair_sublist_concat hc with hc | ⟨-, rfl⟩
    · exact hnot ⟨c, Or.inr hc⟩
    · cases hq

theorem StoredBy.step {es : List (Event K V)} {s s' : Cache K V} {e : Event K V} {k : K} {value : Option V}
    (hb : StoredBy es s k value) (h : Cache.Step s e s') (hq : quiet k s e = true) : StoredBy (es ++ [e]) s' k value := by
  obtain ⟨r, o, now, order, hr, hsub, hnot, hv⟩ := hb
  exact ⟨r, o, now, order, h.key hr, hsub.trans (List.sublist_append_left es [e]), not_begun_step hnot hq, hv⟩

theorem FailedBy.step {es : List (Event K V)} {s s' : Cache K V} {e : Event K V} {k : K} {error : String}
    (hb : FailedBy es s k error) (h : Cache.Step s e s') (hq : quiet k s e = true) : FailedBy (es ++ [e]) s' k error := by
  obtain ⟨r, hr, hsub, hnot⟩ := hb
  exact ⟨r, h.key hr, hsub.trans (List.sublist_append_left es [e]), not_begun_step hnot hq⟩

/-- What a quiet step keeps of a key: its generation, and its entry. -/
structure Undisturbed (k : K) (s s' : Cache K V) : Prop where
  generation : s'.generation k = s.generation k
  entry : k ∈ s.entries → k ∈ s'.entries

theorem mem_touch {entries : Dict K (Entry V)} {k k' : K} {now : Nat} (h : k ∈ entries) : k ∈ touch entries k' now := by
  unfold touch
  split
  · exact Finmap.mem_insert.2 (Or.inr h)
  · exact h

theorem Cache.Step.undisturbed {s s' : Cache K V} {e : Event K V} {k : K} (h : Cache.Step s e s')
    (hq : quiet k s e = true) : Undisturbed k s s' := by
  cases h with
  | get | peek | lookup => exact ⟨rfl, mem_touch⟩
  | write r k' now order gen result task =>
    refine ⟨rfl, fun hk => ?_⟩
    simp only [quiet, task] at hq
    exact of_decide_eq_true hq (Or.inl hk)
  | invalidate c k' fresh => exact ⟨generation_bumpKey_of_ne s (of_decide_eq_true hq).symm, id⟩
  | remove c k' call =>
    simp only [quiet, call] at hq
    exact ⟨rfl, fun h => Finmap.mem_erase.2 ⟨(of_decide_eq_true hq).symm, h⟩⟩
  | invalidateAll c fresh => cases hq
  | clearEntries c call => cases hq
  | clearKeys c call => cases hq
  | _ => exact ⟨rfl, id⟩

theorem sound_mono {global : UInt64} {present present' : Bool} {phase : Phase V} (h : phase.sound global present = true)
    (hmono : present = true → present' = true) : phase.sound global present' = true := by
  cases phase with
  | finished _ outcome | sent _ outcome | deregistered _ outcome =>
    cases outcome with
    | stored => exact hmono h
    | failed error => rfl
    | invalidated => cases h
  | _ => exact h

theorem valid_of_undisturbed {s s' : Cache K V} {f : Refresh K V} (hu : Undisturbed f.key s s')
    (hv : f.valid s = true) : f.valid s' = true := by
  obtain ⟨hall, hsound⟩ := Bool.and_eq_true_iff.1 hv
  refine Bool.and_eq_true_iff.2 ⟨by rwa [hu.generation], ?_⟩
  rw [(Prod.mk.inj hu.generation).1]
  exact sound_mono hsound (fun hmem => decide_eq_true (hu.entry (of_decide_eq_true hmem)))

/-- The entry of a successful write is there, unless it is evicted at once. -/
theorem written_entry {s s' : Cache K V} {k : K} {r now : Nat} {order : Iteration K} {gen : Gen} {result : FetchResult V}
    (h : Cache.Step s (.write r now order) s') (hq : quiet k s (.write r now order) = true)
    (htask : s.refreshes.lookup r = some ⟨k, .passed gen result⟩) (hok : result.isOk = true) : k ∈ s'.entries := by
  cases h with
  | write _ k' _ _ gen' result' task =>
    cases htask.symm.trans task
    simp only [quiet, task] at hq
    exact of_decide_eq_true hq (Or.inr ⟨trivial, hok⟩)

/-- **A valid refresh stays valid while its key is left alone.** -/
theorem valid_step {s s' : Cache K V} {e : Event K V} (h : Cache.Step s e s') {r : Nat} {f : Refresh K V}
    (hf : s.refreshes.lookup r = some f) (hv : f.valid s = true) (hq : quiet f.key s e = true) :
    ∃ f', s'.refreshes.lookup r = some f' ∧ f'.key = f.key ∧ f'.valid s' = true := by
  have hu := h.undisturbed hq
  rcases h.refreshes hf with hsame | ⟨phase, hnew, hadv, -⟩
  · exact ⟨f, hsame, rfl, valid_of_undisturbed hu hv⟩
  refine ⟨_, hnew, rfl, ?_⟩
  obtain ⟨k, p⟩ := f
  have hold := valid_of_undisturbed hu hv
  have hglobal : s.globalGeneration = s'.globalGeneration := (Prod.mk.inj hu.generation).1.symm
  obtain ⟨hall, hsound⟩ := Bool.and_eq_true_iff.1 hold
  cases hadv with
  | loadGlobal c => exact decide_eq_true hglobal
  | loadKey c g =>
    have hg : g = s'.globalGeneration := of_decide_eq_true hsound
    refine Bool.and_eq_true_iff.2 ⟨decide_eq_true ?_, rfl⟩
    rw [hu.generation, hg, ← hglobal]
    rfl
  | recheckGlobal gen result => exact Bool.and_eq_true_iff.2 ⟨hall, decide_eq_true hglobal⟩
  | pass gen result g same => exact Bool.and_eq_true_iff.2 ⟨hall, rfl⟩
  | reject gen result g other =>
    have hgen : gen = s'.generation k := of_decide_eq_true hall
    have hg : g = s'.globalGeneration := of_decide_eq_true hsound
    refine absurd ?_ other
    rw [hgen, hg, hu.generation, ← hglobal]
    rfl
  | write now order gen result =>
    refine Bool.and_eq_true_iff.2 ⟨hall, ?_⟩
    cases result with
    | error error => rfl
    | ok o =>
      have hmem := written_entry h hq hf rfl
      cases o with
      | some | none => exact decide_eq_true hmem
  | _ => exact hold

/-! ## The call -/

/-- **A real result**: what a refresh of the key has stored, or the error its fetch ended with; no invalidation of the key
has begun since that fetch started. -/
def Real (es : List (Event K V)) (s : Cache K V) (k : K) (result : Except CacheError (CacheRead V)) : Prop :=
  (∃ read, result = .ok read ∧ StoredBy es s k read.value) ∨
    ∃ error, result = .error (.unavailable error) ∧ FailedBy es s k error

def ValidRefresh (s : Cache K V) (r : Nat) (k : K) : Prop :=
  ∃ f, s.refreshes.lookup r = some f ∧ f.key = k ∧ f.valid s = true

/-- Where a cold read of the key is, in a window in which the key is left alone. -/
inductive ColdCall (es : List (Event K V)) (s : Cache K V) (k : K) : Call K V → Prop where
  | starting : ColdCall es s k (.starting k .wait)
  | launching (r : Nat) (valid : ValidRefresh s r k) : ColdCall es s k (.launching k .wait r)
  | waiting (r : Nat) (valid : ValidRefresh s r k) : ColdCall es s k (.waiting k r)
  | found (present : k ∈ s.entries) : ColdCall es s k (.found k)
  | returned (result : Except CacheError (CacheRead V)) (real : Real es s k result) :
      ColdCall es s k (.returned k result)

theorem ValidRefresh.step {s s' : Cache K V} {e : Event K V} {r : Nat} {k : K} (hv : ValidRefresh s r k)
    (h : Cache.Step s e s') (hq : quiet k s e = true) : ValidRefresh s' r k := by
  obtain ⟨f, hf, rfl, hvalid⟩ := hv
  exact valid_step h hf hvalid hq

theorem Real.step {es : List (Event K V)} {s s' : Cache K V} {e : Event K V} {k : K}
    {result : Except CacheError (CacheRead V)} (hreal : Real es s k result) (h : Cache.Step s e s')
    (hq : quiet k s e = true) : Real (es ++ [e]) s' k result := by
  rcases hreal with ⟨read, hres, hst⟩ | ⟨error, hres, hfail⟩
  · exact Or.inl ⟨read, hres, hst.step h hq⟩
  · exact Or.inr ⟨error, hres, hfail.step h hq⟩

theorem ColdCall.same {es : List (Event K V)} {s s' : Cache K V} {e : Event K V} {k : K} {call : Call K V}
    (hc : ColdCall es s k call) (h : Cache.Step s e s') (hq : quiet k s e = true) : ColdCall (es ++ [e]) s' k call := by
  cases hc with
  | starting => exact .starting
  | launching r valid => exact .launching r (valid.step h hq)
  | waiting r valid => exact .waiting r (valid.step h hq)
  | found present => exact .found ((h.undisturbed hq).entry present)
  | returned result real => exact .returned result (real.step h hq)

/-- **The window of a cold read**: what the history says of refreshes, what is cached for the key since the call found
nothing, and where the call is. -/
structure Window (c : Nat) (k : K) (es : List (Event K V)) (s : Cache K V) : Prop where
  provenance : Provenance es s
  tracked : Tracked (outdated k) es s
  cached : ∀ value, HasValue s.entries k value → StoredBy es s k value
  call : ∃ call, s.calls.lookup c = some call ∧ ColdCall es s k call

section Window

variable {es : List (Event K V)} {s s' : Cache K V} {e : Event K V} {c : Nat} {k : K}

/-- What a call that waits for a valid refresh sees: the result is stored and there, or the fetch failed. -/
theorem Window.woken (hw : Window c k es s) {r : Nat} {outcome : Outcome} (hv : ValidRefresh s r k)
    (hsent : s.sentOutcome r = some outcome) : ColdCall es s k (Cache.woken k outcome) := by
  obtain ⟨⟨k', phase⟩, hf, rfl, hvalid⟩ := hv
  have hsound := (Bool.and_eq_true_iff.1 hvalid).2
  have hfail : ∀ error, phase.result = some (.error error) → ColdCall es s k' (Cache.woken k' (.failed error)) :=
    fun error hres => .returned _ (Or.inr ⟨error, rfl, r, ⟨_, hf, rfl⟩, hw.provenance.carried r _ _ hf hres,
      not_begun hw.tracked hf hvalid⟩)
  unfold Cache.sentOutcome at hsent
  rw [hf] at hsent
  cases phase with
  | sent | deregistered =>
    cases hsent
    cases outcome with
    | stored => exact .found (of_decide_eq_true hsound)
    | failed error => exact hfail error rfl
    | invalidated => cases hsound
  | _ => cases hsent

theorem Window.reread (hw : Window c k es s) (hk : k ∈ s.entries) : Real es s k (s.reread k) := by
  unfold Cache.reread
  split
  · rename_i entry hentry
    exact Or.inl ⟨_, rfl, hw.cached _ ⟨entry, hentry, rfl⟩⟩
  · rename_i hnone
    exact absurd hk (Finmap.lookup_eq_none.1 hnone)

/-- One step of the window, for the call that is moved on: the state after it keeps what the state before it gave. -/
theorem Window.moved (hw : Window c k es s) {call call' : Call K V} (hcall : s.calls.lookup c = some call)
    (hc : ColdCall es s k call) (h : Cache.Step s e s') (hq : quiet k s e = true) (hj : readsValid c k s e = true)
    (hstep : CallStep s c e call call') : ColdCall (es ++ [e]) s' k call' := by
  cases hc with
  | starting =>
    cases hstep with
    | join r _ _ running =>
      obtain ⟨f, hf, hkey⟩ := hw.provenance.registered k r running
      have hvalid : f.valid s = true := of_decide_eq_true hj rfl f hf
      exact .waiting r (ValidRefresh.step ⟨f, hf, hkey, hvalid⟩ h hq)
    | register r _ _ idle fresh =>
      exact .launching r ⟨_, h.registers hcall idle, rfl, rfl⟩
  | launching r valid =>
    cases hstep with
    | loadKey _ _ k' _ g task => exact .waiting r (valid.step h hq)
  | waiting r valid =>
    cases hstep with
    | wake _ _ outcome sent => exact (hw.woken valid sent).same h hq
  | found present =>
    cases hstep with
    | lookup now _ => exact .returned _ ((hw.reread present).step h hq)
  | returned result real => cases hstep

/-- A value that a step caches is the result of a valid refresh. -/
theorem Window.cache (hw : Window c k es s) (h : Cache.Step s e s') (hq : quiet k s e = true)
    (hj : readsValid c k s e = true) {value : Option V} (hv : HasValue s'.entries k value) :
    StoredBy (es ++ [e]) s' k value := by
  rcases h.hasValue hv with hold | ⟨r, now, order, gen, o, rfl, task, hval⟩
  · exact (hw.cached value hold).step h hq
  · have hvalid := of_decide_eq_true hj _ task rfl
    refine ⟨r, o, now, order, h.key ⟨_, task, rfl⟩, ?_, not_begun_step (not_begun hw.tracked task hvalid) hq, hval⟩
    exact (hw.provenance.carried r _ _ task rfl).append (List.Sublist.refl [_])

theorem Window.step (hw : Window c k es s) (h : Cache.Step s e s') (hq : quiet k s e = true)
    (hj : readsValid c k s e = true) : Window c k (es ++ [e]) s' where
  provenance := hw.provenance.step h
  tracked := hw.tracked.step (mark_outdated k) h (renews_of_quiet hq)
  cached := fun _ hv => hw.cache h hq hj hv
  call := by
    obtain ⟨call, hcall, hc⟩ := hw.call
    rcases h.calls hcall with hsame | ⟨call', hnew, hmove⟩
    · exact ⟨call, hsame, hc.same h hq⟩
    · exact ⟨call', hnew, hw.moved hcall hc h hq hj hmove⟩

end Window

/-- A `get` that is going to wait has found no entry. -/
theorem not_hasValue_of_cold {s s' : Cache K V} {c : Nat} {k : K} {now : Nat} (h : Cache.Step s (.get c k now) s')
    (hcold : s'.calls.lookup c = some (.starting k .wait)) (value : Option V) : ¬ HasValue s'.entries k value := by
  intro hv
  cases h with
  | get _ _ _ fresh =>
    obtain ⟨entry, hentry, -⟩ := HasValue.of_touch hv
    rw [lookup_setCall, if_pos rfl, Cache.wanted, hentry] at hcold
    cases hcold

/-- **A cold read returns a real result.**  The call finds no entry; up to its return the key is left alone, and the
refreshes that it reads from are valid; before it no recorded generation has come back.  The result is then of a fetch
that is still valid: no invalidation of the key has begun since it started. -/
theorem cold_read_real {K V : Type} [DecidableEq K] [DecidableEq V] (maxEntries maxBytes : Nat)
    (pre mid : List (Event K V)) (c : Nat) (k : K) (now : Nat) (s₀ s : Cache K V)
    (result : Except CacheError (CacheRead V))
    (hstart : (cache K V maxEntries maxBytes).run (pre ++ [.get c k now]) = some s₀)
    (hrenews : (cache K V maxEntries maxBytes).Meets (fun s e => renews k s e = true)
      (cache K V maxEntries maxBytes).init (pre ++ [.get c k now]))
    (hcold : s₀.calls.lookup c = some (.starting k .wait))
    (hmid : (cache K V maxEntries maxBytes).runFrom s₀ mid = some s)
    (hquiet : (cache K V maxEntries maxBytes).Meets (fun s e => quiet k s e = true) s₀ mid)
    (hvalid : (cache K V maxEntries maxBytes).Meets (fun s e => readsValid c k s e = true) s₀ mid)
    (hreturn : s.calls.lookup c = some (.returned k result)) : Real (pre ++ [.get c k now] ++ mid) s k result := by
  obtain ⟨m, -, hget⟩ := (Machine.runFrom_concat _).1 hstart
  have hbegin : Window c k (pre ++ [.get c k now]) s₀ :=
    ⟨provenance_run hstart, tracked_run (mark_outdated k) hstart hrenews,
      fun value hv => absurd hv (not_hasValue_of_cold (cache_step hget) hcold value), _, hcold, .starting⟩
  have hwindow := (cache K V maxEntries maxBytes).history_from (P := Window c k)
    (fun _ _ _ _ hw hok hs => hw.step (cache_step hs) hok.1 hok.2) mid _ s₀ s hbegin
    (Machine.meets_and _ hquiet hvalid) hmid
  obtain ⟨call, hcall, hc⟩ := hwindow.call
  obtain rfl : call = .returned k result := Option.some.inj (hcall.symm.trans hreturn)
  cases hc with
  | returned _ real => exact real

/-- A read of the only key that finds nothing and registers a refresh, up to the start of its fetch. -/
def firstRead : List (Event Unit Nat) := [.get 0 () 0, .ensure 0 0, .loadGlobal 0, .loadKey 0, .fetchStart 0]

/-- The refresh ends and the second read, which joined it, wakes up. -/
def secondRead : List (Event Unit Nat) :=
  [.ensure 2 0, .fetchDone 0 (.ok (some ⟨7, none, 1⟩)), .recheckGlobal 0, .recheckKey 0,
    .write 0 1 (Iteration.ascending Unit), .send 0, .wake 2, .lookup 2 1]

/-- An invalidation has returned; then two cold reads share a refresh, and the second one returns what it stored. -/
theorem shared_read_real : ∃ s : Cache Unit Nat, s.calls.lookup 2 = some (.returned () (.ok ⟨some 7, none⟩)) ∧
    Real ([.invalidate 1 (), .remove 1] ++ firstRead ++ [.get 2 () 1] ++ secondRead) s () (.ok ⟨some 7, none⟩) := by
  obtain ⟨s₀, hstart, hs₀⟩ := (cache Unit Nat 16 1024).exists_of_check (fun s₀ =>
    decide (s₀.calls.lookup 2 = some (.starting () .wait)) &&
    decide ((cache Unit Nat 16 1024).Meets (fun s e => quiet () s e = true) s₀ secondRead) &&
    decide ((cache Unit Nat 16 1024).Meets (fun s e => readsValid 2 () s e = true) s₀ secondRead) &&
    ((cache Unit Nat 16 1024).runFrom s₀ secondRead).any (fun s =>
      decide (s.calls.lookup 2 = some (.returned () (.ok ⟨some 7, none⟩)))))
    ([.invalidate 1 (), .remove 1] ++ firstRead ++ [.get 2 () 1]) (by decide +kernel)
  simp only [Bool.and_eq_true, decide_eq_true_eq] at hs₀
  obtain ⟨⟨⟨hcold, hquiet⟩, hvalid⟩, hmid⟩ := hs₀
  obtain ⟨s, hs, hreturn⟩ := (Option.any_eq_true _ _).1 hmid
  have hreturn := of_decide_eq_true hreturn
  exact ⟨s, hreturn, cold_read_real 16 1024 ([.invalidate 1 (), .remove 1] ++ firstRead) secondRead 2 () 1 s₀ s _ hstart
    (by decide +kernel) hcold hs hquiet hvalid hreturn⟩

/-- After `pre` a cold read of the only key begins, nothing is invalidated or evicted during `mid`, and the call returns
the result. -/
def ColdRun (pre mid : List (Event Unit Nat)) (result : Except CacheError (CacheRead Nat)) (s : Cache Unit Nat) : Prop :=
  ∃ s₀, (cache Unit Nat 16 1024).run (pre ++ [.get 2 () 1]) = some s₀ ∧ s₀.calls.lookup 2 = some (.starting () .wait) ∧
    (cache Unit Nat 16 1024).runFrom s₀ mid = some s ∧
    (cache Unit Nat 16 1024).Meets (fun s e => quiet () s e = true) s₀ mid ∧
    s.calls.lookup 2 = some (.returned () result)

theorem coldRun_of_check (pre mid : List (Event Unit Nat)) (result : Except CacheError (CacheRead Nat))
    (h : ((cache Unit Nat 16 1024).run (pre ++ [.get 2 () 1])).any (fun s₀ =>
      decide (s₀.calls.lookup 2 = some (.starting () .wait)) &&
      decide ((cache Unit Nat 16 1024).Meets (fun s e => quiet () s e = true) s₀ mid) &&
      ((cache Unit Nat 16 1024).runFrom s₀ mid).any (fun s =>
        decide (s.calls.lookup 2 = some (.returned () result)))) = true) : ∃ s, ColdRun pre mid result s := by
  obtain ⟨s₀, hstart, hs₀⟩ := (Option.any_eq_true _ _).1 h
  simp only [Bool.and_eq_true, decide_eq_true_eq] at hs₀
  obtain ⟨⟨hcold, hquiet⟩, hmid⟩ := hs₀
  obtain ⟨s, hs, hreturn⟩ := (Option.any_eq_true _ _).1 hmid
  exact ⟨s, s₀, hstart, hcold, hs, hquiet, of_decide_eq_true hreturn⟩

/-- The first read's refresh is invalidated while it fetches, and the invalidation returns. -/
def invalidatedRead : List (Event Unit Nat) := firstRead ++ [.invalidate 1 (), .remove 1]

/-- The refresh ends and is turned down, and the second read, which joined it, wakes up. -/
def turnedDown : List (Event Unit Nat) :=
  [.ensure 2 0, .fetchDone 0 (.ok (some ⟨7, none, 1⟩)), .recheckGlobal 0, .recheckKey 0, .send 0, .wake 2]

/-- The first read's refresh passes the comparison; then it is invalidated, and the invalidation returns. -/
def passedRead : List (Event Unit Nat) :=
  firstRead ++ [.fetchDone 0 (.ok (some ⟨7, none, 1⟩)), .recheckGlobal 0, .recheckKey 0, .invalidate 1 (), .remove 1]

/-- The refresh writes what it had fetched, and the second read, which joined it, looks it up. -/
def storedLate : List (Event Unit Nat) :=
  [.ensure 2 0, .write 0 1 (Iteration.ascending Unit), .send 0, .wake 2, .lookup 2 1]

/-- **A cold read issued after an invalidation has returned is answered "cache invalidated", or with the value that was
fetched before it**, though nothing is invalidated or evicted during the call: it joined the refresh of an earlier
reader. -/
theorem cold_read_invalidated :
    (∃ s, ColdRun invalidatedRead turnedDown (.error (.unavailable "cache invalidated")) s ∧
      ¬ Real (invalidatedRead ++ [.get 2 () 1] ++ turnedDown) s () (.error (.unavailable "cache invalidated"))) ∧
    ∃ s, ColdRun passedRead storedLate (.ok ⟨some 7, none⟩) s ∧
      ¬ Real (passedRead ++ [.get 2 () 1] ++ storedLate) s () (.ok ⟨some 7, none⟩) := by
  constructor
  · obtain ⟨s, hs⟩ := coldRun_of_check invalidatedRead turnedDown (.error (.unavailable "cache invalidated"))
      (by decide +kernel)
    refine ⟨s, hs, ?_⟩
    rintro (⟨read, hread, -⟩ | ⟨error, -, r, -, hsub, -⟩)
    · cases hread
    · -- no fetch of the run ended with an error
      have hmem := hsub.subset (List.mem_cons_of_mem _ List.mem_cons_self)
      simp [invalidatedRead, firstRead, turnedDown] at hmem
  · obtain ⟨s, hs⟩ := coldRun_of_check passedRead storedLate (.ok ⟨some 7, none⟩) (by decide +kernel)
    refine ⟨s, hs, ?_⟩
    rintro (⟨read, -, r, o, now, order, -, hsub, hnot, -⟩ | ⟨error, hres, -⟩)
    · -- the only fetch started before the invalidation
      obtain rfl : r = 0 := by simpa [passedRead, firstRead, storedLate] using hsub.subset List.mem_cons_self
      refine hnot ⟨1, Or.inl ?_⟩
      have hpair : [.fetchStart 0, .invalidate 1 ()].Sublist (passedRead.drop 4) := by
        exact .cons_cons _ (.cons _ (.cons _ (.cons _ (.cons_cons _ (List.nil_sublist _)))))
      rw [List.append_assoc]
      exact (hpair.trans (List.drop_sublist 4 _)).trans (List.sublist_append_left _ _)
    · cases hres

end Dht
end NexusNet
