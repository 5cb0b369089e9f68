import NexusNet.DhtSteps
/-!
# DhtVersions — versioned entries only move forward

What is cached for a key, as a function of the fetches that were stored for it in order: the first one of the highest
version (`HoldsNewest`).  It holds as long as the key is neither invalidated nor evicted and every fetch for it brings a
version (`calm`); failed refreshes, reads and the fetches of other keys may come in between.
-/
set_option linter.unusedSectionVars false

namespace NexusNet
namespace Dht

variable {K V : Type} [DecidableEq K] [DecidableEq V]

/-! ## Fetches -/

/-- The fetch for the key that a step brings to the entries. -/
def fetchedFor (k : K) (s : Cache K V) : Event K V → List (Fetched V)
  | .write r _ _ =>
    match s.refreshes.lookup r with
    | some ⟨k', .passed _ (.ok (some fetched))⟩ => if k' = k then [fetched] else []
    | _ => []
  | _ => []

/-- The step does not invalidate the key and does not evict it, and a refresh of the key that is written failed or brings
a version. -/
def calm (k : K) (s : Cache K V) : Event K V → Bool
  | .invalidate _ k' => decide (k' ≠ k)
  | .invalidateAll _ => false
  | .write r now order =>
    match s.refreshes.lookup r with
    | some ⟨k', .passed _ result⟩ =>
      if k' = k then
        match result with
        | .ok none => false
        | .ok (some fetched) => fetched.version.isSome && decide (k ∈ (s.written k' now order result).1)
        | .error _ => true
      else decide (k ∈ s.entries → k ∈ (s.written k' now order result).1)
    | _ => true
  | _ => true

/-- The first fetch of the highest version. -/
def FirstNewest (fetches : List (Fetched V)) (first : Fetched V) : Prop :=
  ∃ v, first.version = some v ∧ (∀ f ∈ fetches, ∃ w, f.version = some w ∧ w ≤ v) ∧
    ∃ pre post, fetches = pre ++ first :: post ∧ ∀ f ∈ pre, f.version ≠ some v

/-- **The entry of the key is the first fetch of the highest version**, and there is none before the first fetch. -/
def HoldsNewest (k : K) (entries : Dict K (Entry V)) (fetches : List (Fetched V)) : Prop :=
  (fetches = [] ∧ entries.lookup k = none) ∨ ∃ entry first, entries.lookup k = some entry ∧ FirstNewest fetches first ∧
    entry.value = some first.value ∧ entry.version = first.version

/-- **A step moves the entry of the key only forward**: the value changes only with a higher version; a fetch of a lower
version changes nothing, one that disagrees and a failed refresh change the last error and the last access. -/
structure StepsForward (k : K) (s : Cache K V) (e : Event K V) (s' : Cache K V) : Prop where
  value : ∀ entry entry', s.entries.lookup k = some entry → s'.entries.lookup k = some entry' →
    entry'.value ≠ entry.value → ∃ v v', entry.version = some v ∧ entry'.version = some v' ∧ v < v'
  lower : ∀ entry fetched v w, s.entries.lookup k = some entry → fetched ∈ fetchedFor k s e → entry.version = some v →
    fetched.version = some w → w < v → s'.entries = s.entries
  conflict : ∀ entry fetched, s.entries.lookup k = some entry → fetched ∈ fetchedFor k s e →
    fetched.version = entry.version → some fetched.value ≠ entry.value → ∃ r now order, e = .write r now order ∧
      s'.entries = s.entries.insert k { entry with lastError := some conflictError, lastAccess := now }
  failed : ∀ entry r now order gen error, s.entries.lookup k = some entry → e = .write r now order →
    s.refreshes.lookup r = some ⟨k, .passed gen (.error error)⟩ →
    s'.entries = s.entries.insert k { entry with lastError := some error, lastAccess := now }

section Fetches

variable {fetches : List (Fetched V)} {first fetched : Fetched V} {v w : UInt64}

theorem firstNewest_one (h : fetched.version = some v) : FirstNewest [fetched] fetched := by
  refine ⟨v, h, fun f hf => ?_, [], [], rfl, fun f hf => by cases hf⟩
  rw [List.mem_singleton.1 hf]
  exact ⟨v, h, UInt64.le_refl v⟩

/-- A fetch that is not newer leaves the first newest as it is. -/
theorem FirstNewest.older (h : FirstNewest fetches first) (hfirst : first.version = some v) (hw : fetched.version = some w)
    (hle : w ≤ v) : FirstNewest (fetches ++ [fetched]) first := by
  obtain ⟨v', hv', hall, pre, post, rfl, hpre⟩ := h
  cases hfirst.symm.trans hv'
  refine ⟨v, hv', fun f hf => ?_, pre, post ++ [fetched], by simp, hpre⟩
  rcases List.mem_append.1 hf with hf | hf
  · exact hall f hf
  · rw [List.mem_singleton.1 hf]
    exact ⟨w, hw, hle⟩

/-- A newer fetch takes its place. -/
theorem FirstNewest.newer (h : FirstNewest fetches first) (hfirst : first.version = some v) (hw : fetched.version = some w)
    (hlt : v < w) : FirstNewest (fetches ++ [fetched]) fetched := by
  obtain ⟨v', hv', hall, -⟩ := h
  cases hfirst.symm.trans hv'
  refine ⟨w, hw, fun f hf => ?_, fetches, [], rfl, fun f hf heq => ?_⟩
  · rcases List.mem_append.1 hf with hf | hf
    · obtain ⟨u, hu, hle⟩ := hall f hf
      exact ⟨u, hu, UInt64.le_trans hle (UInt64.le_of_lt hlt)⟩
    · rw [List.mem_singleton.1 hf]
      exact ⟨w, hw, UInt64.le_refl w⟩
  · obtain ⟨u, hu, hle⟩ := hall f hf
    cases hu.symm.trans heq
    exact absurd hlt (UInt64.not_lt.2 hle)

end Fetches

/-! ## Steps -/

/-- What no read and no failure changes of an entry. -/
def Entry.content (entry : Entry V) : Option V × Option UInt64 := (entry.value, entry.version)

/-- No invalidation that would remove the key is under way. -/
def Undropped (k : K) (calls : Dict Nat (Call K V)) : Prop :=
  ∀ c call, calls.lookup c = some call → call ≠ .removing k ∧ call ≠ .clearing

section Steps

variable {k : K} {s s' : Cache K V} {e : Event K V}

theorem Undropped.insert {calls : Dict Nat (Call K V)} (h : Undropped k calls) {c : Nat} {call : Call K V}
    (hcall : call ≠ .removing k ∧ call ≠ .clearing) : Undropped k (calls.insert c call) := by
  intro c' call' hc'
  rw [Dict.lookup_insert_ite] at hc'
  split at hc'
  · cases hc'
    exact hcall
  · exact h c' call' hc'

theorem Undropped.step (h : Undropped k s.calls) (hstep : Cache.Step s e s') (hcalm : calm k s e = true) :
    Undropped k s'.calls := by
  cases hstep with
  | get | refresh | register | lookup | remove | clearEntries | clearKeys => exact h.insert (by simp)
  | join c r k' want call running => exact h.insert (by cases want <;> simp [Cache.joined])
  | loadKey c r k' k'' want g call task => exact h.insert (by cases want <;> simp [Cache.joined])
  | wake c r k' outcome call sent => exact h.insert (by cases outcome <;> simp [Cache.woken, Outcome.value])
  | invalidate c k' fresh =>
    have hne : k' ≠ k := of_decide_eq_true hcalm
    exact h.insert (by simp [hne])
  | invalidateAll c fresh => cases hcalm
  | _ => exact h

theorem Cache.Step.wrote {r now : Nat} {order : Iteration K} {k' : K} {gen : Gen} {result : FetchResult V}
    (h : Cache.Step s (.write r now order) s') (htask : s.refreshes.lookup r = some ⟨k', .passed gen result⟩) :
    s'.entries = (s.written k' now order result).1 := by
  cases h with
  | write _ k'' _ _ gen' result' task =>
    cases htask.symm.trans task
    rfl

theorem mem_fetchedFor {fetched : Fetched V} (h : fetched ∈ fetchedFor k s e) : ∃ r now order gen,
    e = .write r now order ∧ s.refreshes.lookup r = some ⟨k, .passed gen (.ok (some fetched))⟩ := by
  cases e with
  | write r now order =>
    simp only [fetchedFor] at h
    split at h
    · rename_i k' gen fetched' htask
      split at h
      · rename_i hk
        exact ⟨r, now, order, gen, rfl, by rw [htask, hk, List.mem_singleton.1 h]⟩
      · cases h
    · cases h
  | _ => cases h

theorem content_touch (entries : Dict K (Entry V)) (k k' : K) (now : Nat) :
    ((touch entries k' now).lookup k).map Entry.content = (entries.lookup k).map Entry.content := by
  rw [lookup_touch]
  split
  · rename_i hk
    rw [hk, Option.map_map]
    rfl
  · rfl

/-- Evictions leave an entry as it is or take it out. -/
theorem lookup_evict_of_mem {order : Iteration K} {maxEntries maxBytes : Nat} {entries : Dict K (Entry V)}
    (h : k ∈ evict order maxEntries maxBytes entries) :
    (evict order maxEntries maxBytes entries).lookup k = entries.lookup k := by
  obtain ⟨entry, hentry⟩ := Finmap.mem_iff.1 h
  rw [hentry, lookup_of_evictLoop _ _ hentry]

/-- A write for another key that leaves the key in the cache leaves its entry as it is. -/
theorem lookup_written_other {k' : K} {now : Nat} {order : Iteration K} {result : FetchResult V} (hne : k' ≠ k)
    (hkept : k ∈ s.entries → k ∈ (s.written k' now order result).1) :
    (s.written k' now order result).1.lookup k = s.entries.lookup k := by
  have hinsert : ∀ entry : Entry V, (s.entries.insert k' entry).lookup k = s.entries.lookup k := fun entry => by
    rw [Dict.lookup_insert_ite, if_neg (Ne.symm hne)]
  -- after an insertion at `k'` and evictions
  have hevict : ∀ entry : Entry V,
      (k ∈ s.entries → k ∈ evict order s.maxEntries s.maxBytes (s.entries.insert k' entry)) →
      (evict order s.maxEntries s.maxBytes (s.entries.insert k' entry)).lookup k = s.entries.lookup k := fun entry hkept => by
    by_cases hmem : k ∈ s.entries
    · rw [lookup_evict_of_mem (hkept hmem), hinsert]
    · rw [Finmap.lookup_eq_none.2 hmem]
      cases hl : (evict order s.maxEntries s.maxBytes (s.entries.insert k' entry)).lookup k with
      | none => rfl
      | some entry' =>
        have hold := lookup_of_evictLoop _ _ hl
        rw [hinsert, Finmap.lookup_eq_none.2 hmem] at hold
        cases hold
  cases result with
  | error error =>
    simp only [Cache.written, markError]
    split
    · exact hinsert _
    · rfl
  | ok o =>
    cases o with
    | none => exact hevict _ hkept
    | some fetched =>
      simp only [Cache.written, store] at hkept ⊢
      cases hexisting : s.entries.lookup k' with
      | none =>
        rw [hexisting] at hkept
        exact hevict _ hkept
      | some existing =>
        rw [hexisting] at hkept
        simp only at hkept ⊢
        by_cases hroll : isRollback existing fetched = true
        · rw [if_pos hroll]
        rw [if_neg hroll] at hkept ⊢
        by_cases hconf : isConflict existing fetched = true
        · rw [if_pos hconf]
          exact hinsert _
        · rw [if_neg hconf] at hkept ⊢
          exact hevict _ hkept

/-- **A step that does not write a refresh of the key leaves the content of its entry.** -/
theorem Cache.Step.content_same (h : Cache.Step s e s') (hcalm : calm k s e = true) (hdrop : Undropped k s.calls)
    (hother : ∀ r now order, e = .write r now order → ∀ gen result, s.refreshes.lookup r ≠ some ⟨k, .passed gen result⟩) :
    (s'.entries.lookup k).map Entry.content = (s.entries.lookup k).map Entry.content := by
  cases h with
  | get _ k' now | peek k' now | lookup _ now k' => exact content_touch s.entries k k' now
  | write r k' now order gen result task =>
    have hne : k' ≠ k := fun hk => hother r now order rfl gen result (hk ▸ task)
    simp only [calm, task, if_neg hne, decide_eq_true_eq] at hcalm
    change ((s.written k' now order result).1.lookup k).map Entry.content = _
    rw [lookup_written_other hne hcalm]
  | remove c k' call =>
    have hne : k ≠ k' := fun hk => (hdrop c _ call).1 (by rw [hk])
    change ((s.entries.erase k').lookup k).map Entry.content = _
    rw [Dict.lookup_erase_ite, if_neg hne]
  | clearEntries c call => exact absurd rfl (hdrop c _ call).2
  | _ => rfl

/-- The entries after a failed refresh of a key that has one. -/
theorem written_failed {entry : Entry V} {now : Nat} {order : Iteration K} {error : String}
    (h : s.entries.lookup k = some entry) : (s.written k now order (.error error)).1 =
      s.entries.insert k { entry with lastError := some error, lastAccess := now } := by
  simp only [Cache.written, markError, h]

/-- **What `store` does to the entry of a versioned key**: nothing, a note of the conflict, or a new entry, as the version
is lower, the same with other content, or neither. -/
theorem store_versioned {order : Iteration K} {maxEntries maxBytes now : Nat} {entries : Dict K (Entry V)} {entry : Entry V}
    {fetched : Fetched V} {v w : UInt64} (hentry : entries.lookup k = some entry) (hv : entry.version = some v)
    (hw : fetched.version = some w) : store order maxEntries maxBytes entries k fetched now =
      if w < v then entries
      else if w = v ∧ entry.value.any (fun value => decide (value ≠ fetched.value)) = true then
        entries.insert k { entry with lastError := some conflictError, lastAccess := now }
      else evict order maxEntries maxBytes (entries.insert k (freshEntry fetched now)) := by
  simp only [store, hentry, isRollback, isConflict, hv, hw, decide_eq_true_eq, Bool.and_eq_true]

/-- An entry that is newly written and not evicted. -/
theorem lookup_evict_insert {order : Iteration K} {maxEntries maxBytes : Nat} {entries : Dict K (Entry V)}
    {entry entry' : Entry V} (h : (evict order maxEntries maxBytes (entries.insert k entry)).lookup k = some entry') :
    entry' = entry := by
  have hold := lookup_of_evictLoop _ _ h
  rw [Dict.lookup_insert_ite, if_pos rfl] at hold
  exact (Option.some.inj hold).symm

/-- **A stored fetch keeps the entry the first of the highest version.** -/
theorem HoldsNewest.store {fetches : List (Fetched V)} {fetched : Fetched V} {order : Iteration K}
    {maxEntries maxBytes now : Nat} {entries : Dict K (Entry V)} {w : UInt64} (h : HoldsNewest k entries fetches)
    (hw : fetched.version = some w) (hkept : k ∈ Dht.store order maxEntries maxBytes entries k fetched now) :
    HoldsNewest k (Dht.store order maxEntries maxBytes entries k fetched now) (fetches ++ [fetched]) := by
  obtain ⟨entry', hentry'⟩ := Finmap.mem_iff.1 hkept
  rcases h with ⟨rfl, hnone⟩ | ⟨entry, first, hentry, hfirst, hvalue, hversion⟩
  · -- the first fetch
    rw [Dht.store, hnone] at hentry' ⊢
    refine .inr ⟨entry', fetched, hentry', firstNewest_one hw, ?_⟩
    rw [lookup_evict_insert hentry']
    exact ⟨rfl, rfl⟩
  · have ⟨v, hv, _⟩ := hfirst
    rw [store_versioned hentry (hversion.trans hv) hw] at hentry' ⊢
    by_cases hlower : w < v
    · rw [if_pos hlower] at hentry' ⊢
      exact .inr ⟨entry, first, hentry, hfirst.older hv hw (UInt64.le_of_lt hlower), hvalue, hversion⟩
    · rw [if_neg hlower] at hentry' ⊢
      by_cases hconflict : w = v ∧ entry.value.any (fun value => decide (value ≠ fetched.value)) = true
      · rw [if_pos hconflict] at hentry' ⊢
        refine .inr ⟨_, first, Finmap.lookup_insert _,
          hfirst.older hv hw (by rw [hconflict.1]; exact UInt64.le_refl v), hvalue, hversion⟩
      · rw [if_neg hconflict] at hentry' ⊢
        have hfresh := lookup_evict_insert hentry'
        by_cases hsame : w = v
        · -- the same content once more
          have hequal : first.value = fetched.value := by
            by_contra hne
            exact hconflict ⟨hsame, by rw [hvalue]; simpa using hne⟩
          refine .inr ⟨entry', first, hentry', hfirst.older hv hw (by rw [hsame]; exact UInt64.le_refl v), ?_⟩
          rw [hfresh]
          exact ⟨by simp only [freshEntry, hequal], by simp only [freshEntry, hw, hv, hsame]⟩
        · have hlt : v < w := UInt64.lt_of_le_of_ne (UInt64.not_lt.1 hlower) (Ne.symm hsame)
          refine .inr ⟨entry', fetched, hentry', hfirst.newer hv hw hlt, ?_⟩
          rw [hfresh]
          exact ⟨rfl, rfl⟩

/-- What a fetch carries that a calm step writes. -/
theorem calm_fetched {r now : Nat} {order : Iteration K} {gen : Gen} {fetched : Fetched V}
    (hcalm : calm k s (.write r now order) = true)
    (htask : s.refreshes.lookup r = some ⟨k, .passed gen (.ok (some fetched))⟩) :
    (∃ w, fetched.version = some w) ∧ k ∈ Dht.store order s.maxEntries s.maxBytes s.entries k fetched now := by
  simp only [calm, htask, if_true, Bool.and_eq_true, decide_eq_true_eq] at hcalm
  exact ⟨Option.isSome_iff_exists.1 hcalm.1, hcalm.2⟩

/-- Which refresh of the key a step writes, if any. -/
theorem own_write (k : K) (s : Cache K V) (e : Event K V) :
    (∃ r now order gen result, e = .write r now order ∧ s.refreshes.lookup r = some ⟨k, .passed gen result⟩) ∨
      (fetchedFor k s e = [] ∧
        ∀ r now order, e = .write r now order → ∀ gen result, s.refreshes.lookup r ≠ some ⟨k, .passed gen result⟩) := by
  by_cases hown : ∃ r now order gen result, e = .write r now order ∧ s.refreshes.lookup r = some ⟨k, .passed gen result⟩
  · exact .inl hown
  · refine .inr ⟨List.eq_nil_iff_forall_not_mem.2 (fun fetched hf => ?_), fun r now order he gen result htask =>
      hown ⟨r, now, order, gen, result, he, htask⟩⟩
    obtain ⟨r, now, order, gen, he, htask⟩ := mem_fetchedFor hf
    exact hown ⟨r, now, order, gen, _, he, htask⟩

theorem HoldsNewest.of_content {entries entries' : Dict K (Entry V)} {fetches : List (Fetched V)}
    (h : HoldsNewest k entries fetches)
    (hsame : (entries'.lookup k).map Entry.content = (entries.lookup k).map Entry.content) :
    HoldsNewest k entries' fetches := by
  rcases h with ⟨hnil, hnone⟩ | ⟨entry, first, hentry, hfirst, hvalue, hversion⟩
  · rw [hnone] at hsame
    exact .inl ⟨hnil, Option.map_eq_none_iff.1 hsame⟩
  · rw [hentry] at hsame
    obtain ⟨entry', hentry', hcontent⟩ := Option.map_eq_some_iff.1 hsame
    obtain ⟨hvalue', hversion'⟩ := Prod.mk.inj hcontent
    exact .inr ⟨entry', first, hentry', hfirst, hvalue'.trans hvalue, hversion'.trans hversion⟩

/-- **A calm step keeps the entry the first of the highest version.** -/
theorem HoldsNewest.step {fetches : List (Fetched V)} (h : HoldsNewest k s.entries fetches) (hdrop : Undropped k s.calls)
    (hstep : Cache.Step s e s') (hcalm : calm k s e = true) :
    HoldsNewest k s'.entries (fetches ++ fetchedFor k s e) := by
  rcases own_write k s e with ⟨r, now, order, gen, result, rfl, htask⟩ | ⟨hnone, hother⟩
  · rw [hstep.wrote htask]
    cases result with
    | error error =>
      have hnone : fetchedFor k s (.write r now order) = [] := by simp only [fetchedFor, htask]
      rw [hnone, List.append_nil]
      refine h.of_content ?_
      simp only [Cache.written, markError]
      split
      · rename_i entry hentry
        rw [Dict.lookup_insert_ite, if_pos rfl, hentry]
        rfl
      · rfl
    | ok o =>
      cases o with
      | none => simp [calm, htask] at hcalm
      | some fetched =>
        have hone : fetchedFor k s (.write r now order) = [fetched] := by simp only [fetchedFor, htask, if_true]
        obtain ⟨⟨w, hw⟩, hkept⟩ := calm_fetched hcalm htask
        rw [hone]
        exact h.store hw hkept
  · rw [hnone, List.append_nil]
    exact h.of_content (hstep.content_same hcalm hdrop hother)

/-- An entry has the version of the fetch it came from. -/
theorem HoldsNewest.versioned {entries : Dict K (Entry V)} {fetches : List (Fetched V)} {entry : Entry V}
    (h : HoldsNewest k entries fetches) (hentry : entries.lookup k = some entry) :
    (∃ v, entry.version = some v) ∧ ∃ value, entry.value = some value := by
  rcases h with ⟨-, hnone⟩ | ⟨entry', first, hentry', ⟨v, hv, -⟩, hvalue, hversion⟩
  · cases hnone.symm.trans hentry
  · cases hentry.symm.trans hentry'
    exact ⟨⟨v, hversion.trans hv⟩, first.value, hvalue⟩

/-- **A stored fetch that changes the value has a higher version.** -/
theorem store_changed {order : Iteration K} {maxEntries maxBytes now : Nat} {entries : Dict K (Entry V)}
    {entry entry' : Entry V} {fetched : Fetched V} {value : V} {v w : UInt64} (hentry : entries.lookup k = some entry)
    (hv : entry.version = some v) (hvalue : entry.value = some value) (hw : fetched.version = some w)
    (hentry' : (store order maxEntries maxBytes entries k fetched now).lookup k = some entry')
    (hne : entry'.value ≠ entry.value) : entry'.version = some w ∧ v < w := by
  rw [store_versioned hentry hv hw] at hentry'
  split at hentry'
  · cases hentry.symm.trans hentry'
    exact absurd rfl hne
  rename_i hlower
  split at hentry'
  · rw [Dict.lookup_insert_ite, if_pos rfl] at hentry'
    cases hentry'
    exact absurd rfl hne
  rename_i hconflict
  have hfresh := lookup_evict_insert hentry'
  refine ⟨by rw [hfresh]; exact hw, UInt64.lt_of_le_of_ne (UInt64.not_lt.1 hlower) (fun heq => hconflict ⟨heq.symm, ?_⟩)⟩
  rw [hvalue, Option.any_some, decide_eq_true_eq]
  rintro rfl
  exact hne (by rw [hfresh, hvalue]; rfl)

/-- **What a calm step does to the entry.** -/
theorem stepsForward {fetches : List (Fetched V)} (h : HoldsNewest k s.entries fetches) (hdrop : Undropped k s.calls)
    (hstep : Cache.Step s e s') (hcalm : calm k s e = true) : StepsForward k s e s' := by
  refine ⟨fun entry entry' hentry hentry' hne => ?_, fun entry fetched v w hentry hf hv hw hlt => ?_,
    fun entry fetched hentry hf hsame hne => ?_, fun entry r now order gen error hentry he htask => ?_⟩
  · rcases own_write k s e with ⟨r, now, order, gen, result, rfl, htask⟩ | ⟨-, hother⟩
    · rw [hstep.wrote htask] at hentry'
      cases result with
      | error error =>
        rw [written_failed hentry, Dict.lookup_insert_ite, if_pos rfl] at hentry'
        cases hentry'
        exact absurd rfl hne
      | ok o =>
        cases o with
        | none => simp [calm, htask] at hcalm
        | some fetched =>
          obtain ⟨⟨v, hv⟩, value, hvalue⟩ := h.versioned hentry
          obtain ⟨⟨w, hw⟩, -⟩ := calm_fetched hcalm htask
          obtain ⟨hversion, hlt⟩ := store_changed hentry hv hvalue hw hentry' hne
          exact ⟨v, w, hv, hversion, hlt⟩
    · have hcontent := hstep.content_same hcalm hdrop hother
      rw [hentry, hentry'] at hcontent
      exact absurd (Prod.mk.inj (Option.some.inj hcontent)).1 hne
  · obtain ⟨r, now, order, gen, rfl, htask⟩ := mem_fetchedFor hf
    rw [hstep.wrote htask]
    simp only [Cache.written]
    rw [store_versioned hentry hv hw, if_pos hlt]
  · obtain ⟨r, now, order, gen, rfl, htask⟩ := mem_fetchedFor hf
    obtain ⟨⟨v, hv⟩, value, hvalue⟩ := h.versioned hentry
    refine ⟨r, now, order, rfl, ?_⟩
    rw [hstep.wrote htask]
    simp only [Cache.written]
    have hother : entry.value.any (fun value => decide (value ≠ fetched.value)) = true := by
      rw [hvalue, Option.any_some, decide_eq_true_eq]
      rintro rfl
      exact hne hvalue.symm
    rw [store_versioned hentry hv (hsame.trans hv), if_neg (UInt64.lt_irrefl v), if_pos ⟨rfl, hother⟩]
  · subst he
    rw [hstep.wrote htask, written_failed hentry]

end Steps

/-! ## Runs -/

/-- **A versioned entry only moves forward.**  In every run that is calm for the key, with any calls, failures and fetches
of other keys in between: what is cached is the first fetch of the highest version so far, and the next calm step moves it
only forward. -/
theorem versions_forward (maxEntries maxBytes : Nat) (k : K) (es : List (Event K V)) (s : Cache K V)
    (hr : (cache K V maxEntries maxBytes).run es = some s)
    (hcalm : (cache K V maxEntries maxBytes).Meets (fun s e => calm k s e = true) (cache K V maxEntries maxBytes).init es) :
    HoldsNewest k s.entries ((cache K V maxEntries maxBytes).outputs (fetchedFor k) (cache K V maxEntries maxBytes).init es) ∧
    ∀ e s', (cache K V maxEntries maxBytes).step s e = some s' → calm k s e = true → StepsForward k s e s' := by
  let M := cache K V maxEntries maxBytes
  have hinv : M.run es = some s ∧ Undropped k s.calls ∧ HoldsNewest k s.entries (M.outputs (fetchedFor k) M.init es) := by
    refine M.history_invariant (P := fun es s => M.run es = some s ∧ Undropped k s.calls ∧
      HoldsNewest k s.entries (M.outputs (fetchedFor k) M.init es)) ⟨rfl, ?_, .inl ⟨rfl, rfl⟩⟩ ?_ es s hr hcalm
    · intro c call hc
      cases hc
    · rintro es s e s' ⟨hrun, hdrop, hholds⟩ hok hs
      refine ⟨M.runFrom_concat.2 ⟨s, hrun, hs⟩, hdrop.step (cache_step hs) hok, ?_⟩
      rw [M.outputs_append hrun, M.outputs_singleton]
      exact hholds.step hdrop (cache_step hs) hok
  exact ⟨hinv.2.2, fun e s' hs hok => stepsForward hinv.2.2 hinv.2.1 (cache_step hs) hok⟩

/-- One refresh of the key 0, from its call to the end of its task. -/
def refreshOf (n : Nat) (result : FetchResult Nat) : List (Event Nat Nat) :=
  [.refresh n 0, .ensure n n, .loadGlobal n, .loadKey n, .fetchStart n, .fetchDone n result, .recheckGlobal n,
    .recheckKey n, .write n n (Iteration.ascending Nat), .send n, .deregister n]

/-- Version 2 is fetched, then version 1, nothing because of an error, and other content of version 2. -/
def fourRefreshes : List (Event Nat Nat) :=
  refreshOf 0 (.ok (some ⟨20, some 2, 1⟩)) ++ refreshOf 1 (.ok (some ⟨10, some 1, 1⟩)) ++ refreshOf 2 (.error "timeout") ++
    refreshOf 3 (.ok (some ⟨21, some 2, 1⟩))

/-- What was fetched first of version 2 is still there. -/
theorem four_refreshes_forward : ∃ s, (cache Nat Nat 8 100).run fourRefreshes = some s ∧
    HoldsNewest 0 s.entries [⟨20, some 2, 1⟩, ⟨10, some 1, 1⟩, ⟨21, some 2, 1⟩] ∧
    ∃ entry, s.entries.lookup 0 = some entry ∧ entry.value = some 20 := by
  obtain ⟨s, hr, hs⟩ := (cache Nat Nat 8 100).exists_of_check
    (fun s => (s.entries.lookup 0).any (fun entry : Entry Nat => decide (entry.value = some 20))) fourRefreshes
    (by decide +kernel)
  have hfetches : (cache Nat Nat 8 100).outputs (fetchedFor 0) (cache Nat Nat 8 100).init fourRefreshes =
      [⟨20, some 2, 1⟩, ⟨10, some 1, 1⟩, ⟨21, some 2, 1⟩] := by decide +kernel
  have hholds := (versions_forward 8 100 0 fourRefreshes s hr (by decide +kernel)).1
  rw [hfetches] at hholds
  refine ⟨s, hr, hholds, ?_⟩
  cases hentry : s.entries.lookup 0 with
  | none =>
    rw [hentry] at hs
    cases hs
  | some entry =>
    rw [hentry] at hs
    exact ⟨entry, rfl, of_decide_eq_true hs⟩

end Dht
end NexusNet
