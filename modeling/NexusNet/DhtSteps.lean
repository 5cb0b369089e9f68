import NexusNet.DhtCache
/-!
# DhtSteps — what a step does to a refresh, to a call and to the entries

The steps of the cache, seen from one refresh (`Cache.Step.refreshes`), from one call (`Cache.Step.calls`) and from the
entries, so that an invariant about one of them need not go through all critical sections again.
-/
set_option linter.unusedSectionVars false

namespace NexusNet
namespace Dht

variable {K V : Type}

/-! ## The entries -/

section Entries

variable [DecidableEq K]

theorem lookup_touch (entries : Dict K (Entry V)) (k k' : K) (now : Nat) :
    (touch entries k now).lookup k' =
      if k' = k then (entries.lookup k).map (fun entry => { entry with lastAccess := now }) else entries.lookup k' := by
  unfold touch
  split
  · rename_i entry hk
    rw [Dict.lookup_insert_ite, hk]
    rfl
  · rename_i hk
    split
    · rename_i heq
      rw [heq, hk]
      rfl
    · rfl

def HasValue (entries : Dict K (Entry V)) (k : K) (value : Option V) : Prop :=
  ∃ entry, entries.lookup k = some entry ∧ entry.value = value

theorem HasValue.of_touch {entries : Dict K (Entry V)} {k k' : K} {now : Nat} {value : Option V}
    (h : HasValue (touch entries k now) k' value) : HasValue entries k' value := by
  obtain ⟨entry, hentry, hvalue⟩ := h
  rw [lookup_touch] at hentry
  split at hentry
  · rename_i heq
    obtain ⟨old, hold, rfl⟩ := Option.map_eq_some_iff.1 hentry
    exact ⟨old, by rw [heq]; exact hold, hvalue⟩
  · exact ⟨entry, hentry, hvalue⟩

theorem lookup_of_evictLoop {order : Iteration K} {maxEntries maxBytes : Nat} {k : K} {entry : Entry V} :
    ∀ (fuel : Nat) (entries : Dict K (Entry V)),
      (evictLoop order maxEntries maxBytes fuel entries).lookup k = some entry → entries.lookup k = some entry
  | 0, _, h => h
  | fuel + 1, entries, h => by
    unfold evictLoop at h
    split at h
    · split at h
      · exact h
      · split at h
        · exact h
        · have := lookup_of_evictLoop fuel _ h
          rw [Dict.lookup_erase_ite] at this
          split at this
          · cases this
          · exact this
    · exact h

/-- An insertion followed by evictions: the values are old, or it is the inserted one. -/
theorem HasValue.of_evict_insert {order : Iteration K} {maxEntries maxBytes : Nat} {entries : Dict K (Entry V)} {k k' : K}
    {new : Entry V} {value : Option V} (h : HasValue (evict order maxEntries maxBytes (entries.insert k new)) k' value) :
    HasValue entries k' value ∨ (k' = k ∧ value = new.value) := by
  obtain ⟨entry, hentry, hvalue⟩ := h
  have hins := lookup_of_evictLoop _ _ hentry
  rw [Dict.lookup_insert_ite] at hins
  split at hins
  · rename_i heq
    cases hins
    exact Or.inr ⟨heq, hvalue.symm⟩
  · exact Or.inl ⟨entry, hins, hvalue⟩

theorem HasValue.of_insert_same {entries : Dict K (Entry V)} {k k' : K} {old new : Entry V} {value : Option V}
    (hold : entries.lookup k = some old) (hsame : new.value = old.value) (h : HasValue (entries.insert k new) k' value) :
    HasValue entries k' value := by
  obtain ⟨entry, hentry, hvalue⟩ := h
  rw [Dict.lookup_insert_ite] at hentry
  split at hentry
  · rename_i heq
    cases hentry
    exact ⟨old, by rw [heq]; exact hold, hsame.symm.trans hvalue⟩
  · exact ⟨entry, hentry, hvalue⟩

theorem HasValue.of_markError {entries : Dict K (Entry V)} {k k' : K} {error : String} {now : Nat} {value : Option V}
    (h : HasValue (markError entries k error now) k' value) : HasValue entries k' value := by
  unfold markError at h
  split at h
  · rename_i entry hentry
    exact HasValue.of_insert_same hentry (by rfl) h
  · exact h

end Entries

/-! ## Refreshes and calls -/

theorem lookup_setPhase (s : Cache K V) (r r' : Nat) (k : K) (phase : Phase V) :
    (s.setPhase r k phase).refreshes.lookup r' = if r' = r then some ⟨k, phase⟩ else s.refreshes.lookup r' :=
  Dict.lookup_insert_ite _ _ _ _

theorem lookup_setCall (s : Cache K V) (c c' : Nat) (call : Call K V) :
    (s.setCall c call).calls.lookup c' = if c' = c then some call else s.calls.lookup c' :=
  Dict.lookup_insert_ite _ _ _ _

theorem lookup_begin {s : Cache K V} {c c₀ : Nat} {call call₀ : Call K V} (hc : s.calls.lookup c = some call)
    (fresh : c₀ ∉ s.calls) : (s.setCall c₀ call₀).calls.lookup c = some call := by
  have hcc : c ≠ c₀ := fun hcc => fresh (hcc ▸ Finmap.mem_of_lookup_eq_some hc)
  rw [lookup_setCall, if_neg hcc]
  exact hc

structure SameGens (s s' : Cache K V) : Prop where
  global : s'.globalGeneration = s.globalGeneration
  keys : s'.keyGeneration = s.keyGeneration

variable [DecidableEq K]

/-- How a step moves the call `c` on. -/
inductive CallStep (s : Cache K V) (c : Nat) : Event K V → Call K V → Call K V → Prop where
  | join (r : Nat) (k : K) (want : Want V) (running : s.inflight.lookup k = some r) :
      CallStep s c (.ensure c r) (.starting k want) (Cache.joined k r want)
  | register (r : Nat) (k : K) (want : Want V) (idle : s.inflight.lookup k = none) (fresh : r ∉ s.refreshes) :
      CallStep s c (.ensure c r) (.starting k want) (.launching k want r)
  | loadKey (r : Nat) (k k' : K) (want : Want V) (g : UInt64) (task : s.refreshes.lookup r = some ⟨k', .globalRead g⟩) :
      CallStep s c (.loadKey c) (.launching k want r) (Cache.joined k r want)
  | wake (r : Nat) (k : K) (outcome : Outcome) (sent : s.sentOutcome r = some outcome) :
      CallStep s c (.wake c) (.waiting k r) (Cache.woken k outcome)
  | lookup (now : Nat) (k : K) : CallStep s c (.lookup c now) (.found k) (.returned k (s.reread k))
  | remove (k : K) : CallStep s c (.remove c) (.removing k) .invalidated
  | clearEntries : CallStep s c (.clearEntries c) .clearing .clearingKeys
  | clearKeys : CallStep s c (.clearKeys c) .clearingKeys .invalidated

/-- How a call begins: with the search for the entry, or as an invalidation. -/
inductive CallStart (s : Cache K V) : Call K V → Prop where
  | get (k : K) : CallStart s (.starting k (s.wanted k))
  | refresh (k : K) : CallStart s (.starting k .nothing)
  | invalidate (k : K) : CallStart s (.removing k)
  | invalidateAll : CallStart s .clearing

/-- A step that moves the call `c₀` on, seen from a call `c`. -/
theorem callStep_or_same {s s' : Cache K V} {e : Event K V} {c c₀ : Nat} {call from₀ to₀ : Call K V}
    (hc : s.calls.lookup c = some call) (hcall : s.calls.lookup c₀ = some from₀)
    (hset : s'.calls = (s.setCall c₀ to₀).calls) (hstep : CallStep s c₀ e from₀ to₀) :
    s'.calls.lookup c = some call ∨ ∃ call', s'.calls.lookup c = some call' ∧ CallStep s c e call call' := by
  rw [hset, lookup_setCall]
  by_cases hcc : c = c₀
  · subst hcc
    obtain rfl : call = from₀ := Option.some.inj (hc.symm.trans hcall)
    exact Or.inr ⟨to₀, by rw [if_pos rfl], hstep⟩
  · rw [if_neg hcc]
    exact Or.inl hc

variable [DecidableEq V]

/-- How a step moves the refresh `r` of the key `k` from one phase to the next. -/
inductive Advance (s : Cache K V) (r : Nat) (k : K) : Event K V → Phase V → Phase V → Prop where
  | loadGlobal (c : Nat) : Advance s r k (.loadGlobal c) .registered (.globalRead s.globalGeneration)
  | loadKey (c : Nat) (g : UInt64) : Advance s r k (.loadKey c) (.globalRead g) (.spawned (g, s.keyGen k))
  | fetchStart (gen : Gen) : Advance s r k (.fetchStart r) (.spawned gen) (.fetching gen)
  | fetchDone (gen : Gen) (result : FetchResult V) :
      Advance s r k (.fetchDone r result) (.fetching gen) (.fetched gen result)
  | recheckGlobal (gen : Gen) (result : FetchResult V) :
      Advance s r k (.recheckGlobal r) (.fetched gen result) (.rechecking gen result s.globalGeneration)
  | pass (gen : Gen) (result : FetchResult V) (g : UInt64) (same : gen = (g, s.keyGen k)) :
      Advance s r k (.recheckKey r) (.rechecking gen result g) (.passed gen result)
  | reject (gen : Gen) (result : FetchResult V) (g : UInt64) (other : gen ≠ (g, s.keyGen k)) :
      Advance s r k (.recheckKey r) (.rechecking gen result g) (.finished gen .invalidated)
  | write (now : Nat) (order : Iteration K) (gen : Gen) (result : FetchResult V) :
      Advance s r k (.write r now order) (.passed gen result) (.finished gen (s.written k now order result).2)
  | send (gen : Gen) (outcome : Outcome) : Advance s r k (.send r) (.finished gen outcome) (.sent gen outcome)
  | deregister (gen : Gen) (outcome : Outcome) :
      Advance s r k (.deregister r) (.sent gen outcome) (.deregistered gen outcome)

/-- A step that puts the refresh `r₀` in a new phase, seen from a refresh `r`. -/
theorem advance_or_same {s s' : Cache K V} {e : Event K V} {r r₀ : Nat} {k₀ : K} {from₀ to₀ : Phase V}
    {f : Refresh K V} (hf : s.refreshes.lookup r = some f) (htask : s.refreshes.lookup r₀ = some ⟨k₀, from₀⟩)
    (hset : s'.refreshes = (s.setPhase r₀ k₀ to₀).refreshes) (hgens : SameGens s s')
    (hadv : Advance s r₀ k₀ e from₀ to₀) :
    s'.refreshes.lookup r = some f ∨
      ∃ phase, s'.refreshes.lookup r = some ⟨f.key, phase⟩ ∧ Advance s r f.key e f.phase phase ∧ SameGens s s' := by
  rw [hset, lookup_setPhase]
  by_cases hr : r = r₀
  · subst hr
    obtain rfl : f = ⟨k₀, from₀⟩ := Option.some.inj (hf.symm.trans htask)
    exact Or.inr ⟨to₀, by rw [if_pos rfl], hadv, hgens⟩
  · rw [if_neg hr]
    exact Or.inl hf

/-- **What a step does to a refresh**: nothing, or it moves it to its next phase and leaves the generations. -/
theorem Cache.Step.refreshes {s s' : Cache K V} {e : Event K V} (h : Cache.Step s e s') {r : Nat} {f : Refresh K V}
    (hf : s.refreshes.lookup r = some f) :
    s'.refreshes.lookup r = some f ∨
      ∃ phase, s'.refreshes.lookup r = some ⟨f.key, phase⟩ ∧ Advance s r f.key e f.phase phase ∧ SameGens s s' := by
  cases h with
  | register c r' k want call idle fresh =>
    -- the new refresh has a name of its own
    have hr : r ≠ r' := fun hr => fresh (hr ▸ Finmap.mem_of_lookup_eq_some hf)
    left
    change (s.setPhase r' k .registered).refreshes.lookup r = some f
    rw [lookup_setPhase, if_neg hr]
    exact hf
  | loadGlobal c r' k k' want call task => exact advance_or_same hf task rfl ⟨rfl, rfl⟩ (.loadGlobal c)
  | loadKey c r' k k' want g call task => exact advance_or_same hf task rfl ⟨rfl, rfl⟩ (.loadKey c g)
  | fetchStart r' k gen task => exact advance_or_same hf task rfl ⟨rfl, rfl⟩ (.fetchStart gen)
  | fetchDone r' k gen result task => exact advance_or_same hf task rfl ⟨rfl, rfl⟩ (.fetchDone gen result)
  | recheckGlobal r' k gen result task => exact advance_or_same hf task rfl ⟨rfl, rfl⟩ (.recheckGlobal gen result)
  | pass r' k gen result g task same => exact advance_or_same hf task rfl ⟨rfl, rfl⟩ (.pass gen result g same)
  | reject r' k gen result g task other => exact advance_or_same hf task rfl ⟨rfl, rfl⟩ (.reject gen result g other)
  | write r' k now order gen result task => exact advance_or_same hf task rfl ⟨rfl, rfl⟩ (.write now order gen result)
  | send r' k gen outcome task => exact advance_or_same hf task rfl ⟨rfl, rfl⟩ (.send gen outcome)
  | deregister r' k gen outcome task => exact advance_or_same hf task rfl ⟨rfl, rfl⟩ (.deregister gen outcome)
  | _ => exact Or.inl hf

theorem Cache.Step.key {s s' : Cache K V} {e : Event K V} (h : Cache.Step s e s') {r : Nat} {k : K}
    (hf : ∃ f, s.refreshes.lookup r = some f ∧ f.key = k) : ∃ f, s'.refreshes.lookup r = some f ∧ f.key = k := by
  obtain ⟨f, hf, rfl⟩ := hf
  rcases h.refreshes hf with hsame | ⟨phase, hnew, -, -⟩
  · exact ⟨f, hsame, rfl⟩
  · exact ⟨_, hnew, rfl⟩

theorem runFrom_key {maxEntries maxBytes : Nat} {s s' : Cache K V} {es : List (Event K V)} {r : Nat} {k : K}
    (hr : (cache K V maxEntries maxBytes).runFrom s es = some s')
    (hf : ∃ f, s.refreshes.lookup r = some f ∧ f.key = k) : ∃ f, s'.refreshes.lookup r = some f ∧ f.key = k :=
  (cache K V maxEntries maxBytes).invariant_from (fun _ _ _ hP _ hs => (cache_step hs).key hP) es s s' hf
    (Machine.meets_true _ es s) hr

theorem not_new_setPhase {s : Cache K V} {r r₀ : Nat} {k₀ : K} {phase₀ : Phase V} {f f' : Refresh K V}
    (hnone : s.refreshes.lookup r = none) (htask : s.refreshes.lookup r₀ = some f) :
    (s.setPhase r₀ k₀ phase₀).refreshes.lookup r ≠ some f' := by
  rw [lookup_setPhase]
  split
  · rename_i hr
    rw [hr, htask] at hnone
    cases hnone
  · rw [hnone]
    simp

theorem Cache.Step.new_refresh {s s' : Cache K V} {e : Event K V} (h : Cache.Step s e s') {r : Nat} {f' : Refresh K V}
    (hnone : s.refreshes.lookup r = none) (hf' : s'.refreshes.lookup r = some f') : f'.phase = .registered := by
  cases h with
  | register c r' k want call idle fresh =>
    change (s.setPhase r' k .registered).refreshes.lookup r = some f' at hf'
    rw [lookup_setPhase] at hf'
    split at hf'
    · cases hf'
      rfl
    · rw [hnone] at hf'
      cases hf'
  | loadGlobal _ _ _ _ _ _ task | loadKey _ _ _ _ _ _ _ task | fetchStart _ _ _ task | fetchDone _ _ _ _ task
  | recheckGlobal _ _ _ _ task | pass _ _ _ _ _ task | reject _ _ _ _ _ task | write _ _ _ _ _ _ task
  | send _ _ _ _ task | deregister _ _ _ _ task => exact absurd hf' (not_new_setPhase hnone task)
  | _ => exact absurd (hnone.symm.trans hf') (by simp)

theorem Cache.Step.registers {s s' : Cache K V} {c r : Nat} {k : K} {want : Want V}
    (h : Cache.Step s (.ensure c r) s') (hcall : s.calls.lookup c = some (.starting k want))
    (idle : s.inflight.lookup k = none) : s'.refreshes.lookup r = some ⟨k, .registered⟩ := by
  cases h with
  | join _ _ k' want' call running =>
    obtain ⟨rfl, rfl⟩ : k = k' ∧ want = want' := by simpa using hcall.symm.trans call
    rw [idle] at running
    cases running
  | register _ _ k' want' call idle' fresh =>
    obtain ⟨rfl, rfl⟩ : k = k' ∧ want = want' := by simpa using hcall.symm.trans call
    change (s.setPhase r k .registered).refreshes.lookup r = some ⟨k, .registered⟩
    rw [lookup_setPhase, if_pos rfl]

/-- What is registered for a key was so before, or has just been registered for it. -/
theorem Cache.Step.inflight {s s' : Cache K V} {e : Event K V} (h : Cache.Step s e s') {r : Nat} {k : K}
    (hr : s'.inflight.lookup k = some r) :
    s.inflight.lookup k = some r ∨ s'.refreshes.lookup r = some ⟨k, .registered⟩ := by
  cases h with
  | register c r' k' want call idle fresh =>
    change (s.inflight.insert k' r').lookup k = some r at hr
    rw [Dict.lookup_insert_ite] at hr
    split at hr
    · rename_i hk
      cases hr
      right
      change (s.setPhase r k' .registered).refreshes.lookup r = some ⟨k, .registered⟩
      rw [lookup_setPhase, if_pos rfl, hk]
    · exact Or.inl hr
  | deregister r' k' gen outcome task =>
    change (s.inflight.erase k').lookup k = some r at hr
    rw [Dict.lookup_erase_ite] at hr
    split at hr
    · cases hr
    · exact Or.inl hr
  | _ => exact Or.inl hr

/-- **What a step does to a call**: nothing, or it moves it on. -/
theorem Cache.Step.calls {s s' : Cache K V} {e : Event K V} (h : Cache.Step s e s') {c : Nat} {call : Call K V}
    (hc : s.calls.lookup c = some call) :
    s'.calls.lookup c = some call ∨ ∃ call', s'.calls.lookup c = some call' ∧ CallStep s c e call call' := by
  cases h with
  | get _ _ _ fresh | refresh _ _ fresh | invalidate _ _ fresh | invalidateAll _ fresh =>
    exact Or.inl (lookup_begin hc fresh)
  | join c' r k want call running => exact callStep_or_same hc call rfl (.join r k want running)
  | register c' r k want call idle fresh => exact callStep_or_same hc call rfl (.register r k want idle fresh)
  | loadKey c' r k k' want g call task => exact callStep_or_same hc call rfl (.loadKey r k k' want g task)
  | wake c' r k outcome call sent => exact callStep_or_same hc call rfl (.wake r k outcome sent)
  | lookup c' now k call => exact callStep_or_same hc call rfl (.lookup now k)
  | remove c' k call => exact callStep_or_same hc call rfl (.remove k)
  | clearEntries c' call => exact callStep_or_same hc call rfl .clearEntries
  | clearKeys c' call => exact callStep_or_same hc call rfl .clearKeys
  | _ => exact Or.inl hc

theorem not_new_setCall {s : Cache K V} {c c₀ : Nat} {call₀ call' call : Call K V} (hnone : s.calls.lookup c = none)
    (hcall : s.calls.lookup c₀ = some call₀) : (s.setCall c₀ call').calls.lookup c ≠ some call := by
  rw [lookup_setCall]
  split
  · rename_i hcc
    rw [hcc, hcall] at hnone
    cases hnone
  · rw [hnone]
    simp

theorem new_setCall {s : Cache K V} {c c₀ : Nat} {call₀ call : Call K V} (hnone : s.calls.lookup c = none)
    (hset : (s.setCall c₀ call₀).calls.lookup c = some call) : call = call₀ := by
  rw [lookup_setCall] at hset
  split at hset
  · exact (Option.some.inj hset).symm
  · rw [hnone] at hset
    cases hset

/-- **Which calls a step begins.** -/
theorem Cache.Step.begins {s s' : Cache K V} {e : Event K V} (h : Cache.Step s e s') {c : Nat} {call : Call K V}
    (hnone : s.calls.lookup c = none) (hc : s'.calls.lookup c = some call) : CallStart s call := by
  cases h with
  | get c' k now fresh =>
    obtain rfl := new_setCall (s := s) hnone hc
    exact .get k
  | refresh c' k fresh =>
    obtain rfl := new_setCall hnone hc
    exact .refresh k
  | invalidate c' k fresh =>
    obtain rfl := new_setCall (s := s.bumpKey k) hnone hc
    exact .invalidate k
  | invalidateAll c' fresh =>
    obtain rfl := new_setCall (s := s.bumpGlobal) hnone hc
    exact .invalidateAll
  | join _ _ _ _ call' | register _ _ _ _ call' | loadKey _ _ _ _ _ _ call' | wake _ _ _ _ call' | lookup _ _ _ call'
  | remove _ _ call' | clearEntries _ call' | clearKeys _ call' => exact absurd hc (not_new_setCall hnone call')
  | _ => exact absurd (hnone.symm.trans hc) (by simp)

/-! ## Fetched and written values -/

/-- The fetch result a refresh carries, until it is written or turned down. -/
def Phase.result : Phase V → Option (FetchResult V)
  | .fetched _ result                => some result
  | .rechecking _ result _           => some result
  | .passed _ result                 => some result
  | .finished _ (.failed error)      => some (.error error)
  | .sent _ (.failed error)          => some (.error error)
  | .deregistered _ (.failed error)  => some (.error error)
  | _                                => none

/-- What a refresh carries after a step it carried before, or the step is the end of its fetch. -/
theorem result_advance {s : Cache K V} {r : Nat} {k : K} {e : Event K V} {p p' : Phase V} {result : FetchResult V}
    (h : Advance s r k e p p') (hres : p'.result = some result) : p.result = some result ∨ e = .fetchDone r result := by
  cases h with
  | fetchDone gen res =>
    cases hres
    exact Or.inr rfl
  | recheckGlobal | pass => exact Or.inl hres
  | write now order gen res =>
    cases res with
    | error error => exact Or.inl hres
    | ok o => cases o <;> cases hres
  | send _ outcome | deregister _ outcome => cases outcome <;> exact Or.inl hres
  | _ => cases hres

theorem HasValue.of_store {order : Iteration K} {maxEntries maxBytes now : Nat} {entries : Dict K (Entry V)} {k k' : K}
    {fetched : Fetched V} {value : Option V} (h : HasValue (store order maxEntries maxBytes entries k fetched now) k' value) :
    HasValue entries k' value ∨ (k' = k ∧ value = some fetched.value) := by
  unfold store at h
  split at h
  · rename_i existing hex
    split at h
    · exact Or.inl h
    · split at h
      · exact Or.inl (HasValue.of_insert_same hex (by rfl) h)
      · exact h.of_evict_insert
  · exact h.of_evict_insert

/-- The values after a refresh has written: old ones, and what it fetched. -/
theorem HasValue.of_written {s : Cache K V} {k k' : K} {now : Nat} {order : Iteration K} {result : FetchResult V}
    {value : Option V} (h : HasValue (s.written k now order result).1 k' value) :
    HasValue s.entries k' value ∨ (k' = k ∧ ∃ o, result = .ok o ∧ value = o.map (·.value)) := by
  cases result with
  | error e => exact Or.inl h.of_markError
  | ok o =>
    cases o with
    | some fetched =>
      rcases h.of_store with h | ⟨hk, hv⟩
      · exact Or.inl h
      · exact Or.inr ⟨hk, some fetched, rfl, hv⟩
    | none =>
      rcases HasValue.of_evict_insert h with h | ⟨hk, hv⟩
      · exact Or.inl h
      · exact Or.inr ⟨hk, none, rfl, hv⟩

/-- **Where a cached value comes from**: it was cached before the step, or the step writes what a refresh of the key has
fetched. -/
theorem Cache.Step.hasValue {s s' : Cache K V} {e : Event K V} (h : Cache.Step s e s') {k : K} {value : Option V}
    (hv : HasValue s'.entries k value) :
    HasValue s.entries k value ∨ ∃ r now order gen o, e = .write r now order ∧
      s.refreshes.lookup r = some ⟨k, .passed gen (.ok o)⟩ ∧ value = o.map (·.value) := by
  cases h with
  | get | peek | lookup => exact Or.inl (HasValue.of_touch hv)
  | write r k' now order gen result task =>
    rcases HasValue.of_written hv with hold | ⟨rfl, o, rfl, hnew⟩
    · exact Or.inl hold
    · exact Or.inr ⟨r, now, order, gen, o, rfl, task, hnew⟩
  | remove c k' call =>
    left
    obtain ⟨entry, hentry, hvalue⟩ := hv
    change (s.entries.erase k').lookup k = some entry at hentry
    rw [Dict.lookup_erase_ite] at hentry
    split at hentry
    · cases hentry
    · exact ⟨entry, hentry, hvalue⟩
  | clearEntries c call =>
    obtain ⟨entry, hentry, -⟩ := hv
    change (∅ : Dict K (Entry V)).lookup k = some entry at hentry
    rw [Finmap.lookup_empty] at hentry
    cases hentry
  | _ => exact Or.inl hv

end Dht
end NexusNet
