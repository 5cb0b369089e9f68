import NexusNet.DhtSteps
/-!
# DhtInvalidation — which refreshes an invalidation stops

An invalidation changes a generation and relies on the refreshes in flight to see the change: a refresh compares the
generation it recorded with the current one after its fetch and writes its result later, in another critical section.  A
refresh that has passed the comparison, or has read the global generation already, is not stopped by what comes after,
and clearing the per-key generations can bring a recorded one back.  Where no invalidation meets such a refresh
(`Stops`), none is followed by the write of a refresh whose fetch had started before it.
-/
namespace NexusNet
namespace Dht

variable {K V : Type}

/-! ## Stopped refreshes -/

def Phase.started : Phase V → Bool
  | .registered   => false
  | .globalRead _ => false
  | .spawned _    => false
  | _             => true

variable [DecidableEq K]

/-- A refresh whose fetch has started can still come to write its result: it has passed the comparison, or would pass it
now. -/
def mayWrite (s : Cache K V) (f : Refresh K V) : Bool :=
  match f.phase with
  | .fetching gen       => decide (gen = s.generation f.key)
  | .fetched gen _      => decide (gen = s.generation f.key)
  | .rechecking gen _ g => decide (gen = (g, s.keyGen f.key))
  | .passed _ _         => true
  | _                   => false

/-- An invalidation puts a mark on the refreshes it is for, its first step on those of the key and of every key; clearing
the per-key generations takes none away. -/
def marks (marked : Cache K V → Refresh K V → Bool) (s : Cache K V) : Event K V → Bool
  | .invalidate _ k  =>
    decide (∀ r ∈ s.refreshes.keys, ∀ f ∈ s.refreshes.lookup r, f.key = k → marked (s.bumpKey k) f = true)
  | .invalidateAll _ => decide (∀ r ∈ s.refreshes.keys, ∀ f ∈ s.refreshes.lookup r, marked s.bumpGlobal f = true)
  | .clearKeys _     =>
    decide (∀ r ∈ s.refreshes.keys, ∀ f ∈ s.refreshes.lookup r, marked s f = true → marked s.dropKeys f = true)
  | _                => true

/-- **The invalidation stops the refreshes it is for**: after its first step no refresh of the key that has started may
write, and clearing the per-key generations revives none. -/
def Stops (s : Cache K V) (e : Event K V) : Prop := marks (fun s f => !mayWrite s f) s e = true

instance (s : Cache K V) (e : Event K V) : Decidable (Stops s e) := inferInstanceAs (Decidable (_ = true))

theorem generation_bumpKey_of_ne (s : Cache K V) {k k' : K} (h : k' ≠ k) :
    (s.bumpKey k).generation k' = s.generation k' := by
  unfold Cache.bumpKey Cache.generation Cache.keyGen
  rw [Dict.lookup_insert_ite, if_neg h]

variable [DecidableEq V]

/-- A mark that depends on the generation of the key and that a refresh keeps once its fetch has started. -/
structure Mark (marked : Cache K V → Refresh K V → Bool) : Prop where
  congr : ∀ s s' f, s'.generation f.key = s.generation f.key → marked s f = true → marked s' f = true
  advance : ∀ s r k e p p', Advance s r k e p p' → p.started = true → marked s ⟨k, p⟩ = true → marked s ⟨k, p'⟩ = true

/-- A refresh that may not write will not: the comparison fails for it. -/
theorem mark_mayWrite : Mark (fun (s : Cache K V) f => !mayWrite s f) where
  congr := fun s s' f hgen hstop => by
    unfold mayWrite at hstop ⊢
    rwa [hgen, (Prod.mk.inj hgen).2]
  advance := fun s r k e p p' h hstart hstop => by
    cases h with
    | loadGlobal | loadKey | fetchStart => cases hstart
    | fetchDone gen result => exact hstop
    | recheckGlobal gen result => exact hstop
    | pass gen result g same =>
      simp only [mayWrite, Bool.not_eq_true', decide_eq_false_iff_not] at hstop
      exact absurd same hstop
    | write now order gen result => cases hstop
    | _ => rfl

/-- **A step keeps the mark of a refresh whose fetch has started.** -/
theorem Mark.step {marked : Cache K V → Refresh K V → Bool} (hm : Mark marked) {s s' : Cache K V} {e : Event K V}
    (h : Cache.Step s e s') (hok : marks marked s e = true) {r : Nat} {f f' : Refresh K V}
    (hf : s.refreshes.lookup r = some f) (hstart : f.phase.started = true) (hmark : marked s f = true)
    (hf' : s'.refreshes.lookup r = some f') : marked s' f' = true := by
  have hr : r ∈ s.refreshes.keys := Finmap.mem_keys.2 (Finmap.mem_of_lookup_eq_some hf)
  rcases h.refreshes hf with hsame | ⟨phase, hnew, hadv, hgens⟩
  · obtain rfl : f' = f := Option.some.inj (hf'.symm.trans hsame)
    cases h with
    | invalidate c k fresh =>
      by_cases hk : f'.key = k
      · exact hm.congr (s.bumpKey k) _ f' rfl (of_decide_eq_true hok r hr f' hf hk)
      · exact hm.congr s _ f' (generation_bumpKey_of_ne s hk) hmark
    | invalidateAll c fresh => exact hm.congr s.bumpGlobal _ f' rfl (of_decide_eq_true hok r hr f' hf)
    | clearKeys c call => exact hm.congr s.dropKeys _ f' rfl (of_decide_eq_true hok r hr f' hf hmark)
    | _ => exact hm.congr s _ f' rfl hmark
  · obtain rfl : f' = ⟨f.key, phase⟩ := Option.some.inj (hf'.symm.trans hnew)
    have hgen : s'.generation f.key = s.generation f.key := by
      unfold Cache.generation Cache.keyGen
      rw [hgens.global, hgens.keys]
    exact hm.congr s s' _ hgen (hm.advance s r f.key e f.phase phase hadv hstart hmark)

/-! ## Runs -/

theorem pair_sublist_concat {α : Type*} {a b e : α} {es : List α} (h : [a, b].Sublist (es ++ [e])) :
    [a, b].Sublist es ∨ (a ∈ es ∧ b = e) := by
  obtain ⟨l₁, l₂, heq, h₁, h₂⟩ := List.sublist_append_iff.1 h
  rcases List.sublist_singleton.1 h₂ with rfl | rfl
  · rw [List.append_nil] at heq
    exact Or.inl (heq ▸ h₁)
  · obtain ⟨hinit, hlast⟩ := List.append_inj' (show [a] ++ [b] = l₁ ++ [e] from heq) rfl
    subst hinit
    exact Or.inr ⟨List.singleton_sublist.1 h₁, by simpa using hlast⟩

/-- An invalidation of the key began after the refresh's fetch had started. -/
def BegunAfterFetch (es : List (Event K V)) (r : Nat) (k : K) : Prop :=
  ∃ c, [.fetchStart r, .invalidate c k].Sublist es ∨ [.fetchStart r, .invalidateAll c].Sublist es

/-- What the history says: a fetch that started is the fetch of a refresh that has, and an invalidation that began later
has marked it. -/
structure Tracked (marked : Cache K V → Refresh K V → Bool) (es : List (Event K V)) (s : Cache K V) : Prop where
  started : ∀ r, .fetchStart r ∈ es → ∃ f, s.refreshes.lookup r = some f ∧ f.phase.started = true
  marked : ∀ r f, s.refreshes.lookup r = some f → BegunAfterFetch es r f.key → marked s f = true

theorem started_step {s s' : Cache K V} {e : Event K V} (h : Cache.Step s e s') {r : Nat}
    (hs : ∃ f, s.refreshes.lookup r = some f ∧ f.phase.started = true) :
    ∃ f, s'.refreshes.lookup r = some f ∧ f.phase.started = true := by
  obtain ⟨f, hf, hstart⟩ := hs
  rcases h.refreshes hf with hsame | ⟨phase, hnew, hadv, -⟩
  · exact ⟨f, hsame, hstart⟩
  · refine ⟨_, hnew, ?_⟩
    generalize f.phase = p at hadv hstart
    cases hadv <;> first | rfl | cases hstart

theorem started_fetchStart {s s' : Cache K V} {r : Nat} (h : Cache.Step s (.fetchStart r) s') :
    ∃ f, s'.refreshes.lookup r = some f ∧ f.phase.started = true := by
  cases h with
  | fetchStart _ k gen task => exact ⟨⟨k, .fetching gen⟩, by rw [lookup_setPhase, if_pos rfl], rfl⟩

/-- A refresh that is there after a step and had started before it was there. -/
theorem lookup_before {s s' : Cache K V} {e : Event K V} (h : Cache.Step s e s') {r : Nat} {f f' : Refresh K V}
    (hf : s.refreshes.lookup r = some f) (hf' : s'.refreshes.lookup r = some f') : f'.key = f.key := by
  obtain ⟨g, hg, hkey⟩ := h.key ⟨f, hf, rfl⟩
  rw [hf'] at hg
  cases hg
  exact hkey

theorem Tracked.step {marked : Cache K V → Refresh K V → Bool} (hm : Mark marked) {es : List (Event K V)}
    {s s' : Cache K V} {e : Event K V} (ht : Tracked marked es s) (h : Cache.Step s e s') (hok : marks marked s e = true) :
    Tracked marked (es ++ [e]) s' where
  started := fun r hr => by
    rcases List.mem_append.1 hr with hr | hr
    · exact started_step h (ht.started r hr)
    · obtain rfl : .fetchStart r = e := by simpa using hr
      exact started_fetchStart h
  marked := fun r f' hf' hbegun => by
    -- either the pair of events is older, or its second one is this step, which marks the refresh
    have hold : BegunAfterFetch es r f'.key → marked s' f' = true := by
      intro hb
      have hmem : .fetchStart r ∈ es := by
        obtain ⟨c, hc | hc⟩ := hb <;> exact hc.subset (by simp)
      obtain ⟨f, hf, hstart⟩ := ht.started r hmem
      exact hm.step h hok hf hstart (ht.marked r f hf (lookup_before h hf hf' ▸ hb)) hf'
    obtain ⟨c, hc | hc⟩ := hbegun
    · rcases pair_sublist_concat hc with hc | ⟨-, rfl⟩
      · exact hold ⟨c, Or.inl hc⟩
      · cases h with
        | invalidate fresh =>
          refine hm.congr (s.bumpKey f'.key) _ f' rfl (of_decide_eq_true hok r ?_ f' hf' rfl)
          exact Finmap.mem_keys.2 (Finmap.mem_of_lookup_eq_some hf')
    · rcases pair_sublist_concat hc with hc | ⟨-, rfl⟩
      · exact hold ⟨c, Or.inr hc⟩
      · cases h with
        | invalidateAll fresh =>
          refine hm.congr s.bumpGlobal _ f' rfl (of_decide_eq_true hok r ?_ f' hf')
          exact Finmap.mem_keys.2 (Finmap.mem_of_lookup_eq_some hf')

theorem tracked_run {marked : Cache K V → Refresh K V → Bool} (hm : Mark marked) {maxEntries maxBytes : Nat}
    {es : List (Event K V)} {s : Cache K V} (hr : (cache K V maxEntries maxBytes).run es = some s)
    (hok : (cache K V maxEntries maxBytes).Meets (fun s e => marks marked s e = true)
      (cache K V maxEntries maxBytes).init es) : Tracked marked es s :=
  (cache K V maxEntries maxBytes).history_invariant (P := Tracked marked)
    ⟨fun r hr => by simp at hr, fun r f hf => by simp [cache, Cache.new] at hf⟩
    (fun _ _ _ _ hP hok hs => hP.step hm (cache_step hs) hok) es s hr hok

/-- **The entry of a key is written by a refresh of the key whose fetch had started before an invalidation of the key,
or of all keys, began, after that invalidation has returned.**  An invalidation begins with its first critical section and
returns with its last. -/
def LateWrite (es : List (Event K V)) (s : Cache K V) : Prop :=
  ∃ r f c now order, s.refreshes.lookup r = some f ∧
    ([.fetchStart r, .invalidate c f.key, .remove c, .write r now order].Sublist es ∨
      [.fetchStart r, .invalidateAll c, .clearKeys c, .write r now order].Sublist es)

/-- Where the last of four events in order happens, with the first two before it. -/
theorem sublist_before {α : Type*} {a b c x : α} {es : List α} (h : [a, b, c, x].Sublist es) :
    ∃ pre post, es = pre ++ x :: post ∧ [a, b].Sublist pre := by
  obtain ⟨r₁, r₂, rfl, h₁, h₂⟩ := List.append_sublist_iff.1 (show ([a, b, c] ++ [x]).Sublist es from h)
  obtain ⟨l₁, l₂, rfl⟩ := List.append_of_mem (List.singleton_sublist.1 h₂)
  have hab : [a, b].Sublist [a, b, c] := List.sublist_append_left [a, b] [c]
  exact ⟨r₁ ++ l₁, l₂, by simp, (hab.trans h₁).trans (List.sublist_append_left r₁ l₁)⟩

/-- **No write comes late where every invalidation stops the refreshes it is for.** -/
theorem no_lateWrite {K V : Type} [DecidableEq K] [DecidableEq V] (maxEntries maxBytes : Nat) (es : List (Event K V))
    (s : Cache K V) (hr : (cache K V maxEntries maxBytes).run es = some s)
    (hok : (cache K V maxEntries maxBytes).Meets Stops (cache K V maxEntries maxBytes).init es) : ¬ LateWrite es s := by
  rintro ⟨r, f, c, now, order, hf, hsub⟩
  have hsplit : ∃ pre post, es = pre ++ .write r now order :: post ∧ BegunAfterFetch pre r f.key := by
    rcases hsub with hsub | hsub
    · obtain ⟨pre, post, heq, hpre⟩ := sublist_before hsub
      exact ⟨pre, post, heq, c, Or.inl hpre⟩
    · obtain ⟨pre, post, heq, hpre⟩ := sublist_before hsub
      exact ⟨pre, post, heq, c, Or.inr hpre⟩
  obtain ⟨pre, post, rfl, hbegun⟩ := hsplit
  obtain ⟨m, hm, hrest⟩ := (Machine.runFrom_append _ pre _ _).1 hr
  obtain ⟨n, hwrite, hpost⟩ := (Machine.runFrom_cons _).1 hrest
  have htracked := tracked_run mark_mayWrite hm (Machine.meets_append _ pre _ _ hok).1
  -- the write needs a refresh that passed the comparison, and the tracked one is stopped
  have hstep := cache_step hwrite
  cases hstep with
  | write _ k _ _ gen result task =>
    obtain ⟨f', hf', hkey⟩ := runFrom_key hrest ⟨_, task, rfl⟩
    obtain rfl : f = f' := Option.some.inj (hf.symm.trans hf')
    rw [hkey] at hbegun
    cases htracked.marked r _ task hbegun

/-- A refresh of the only key, up to the end of its fetch. -/
def fetchedRun : List (Event Unit Nat) :=
  [.refresh 0 (), .ensure 0 0, .loadGlobal 0, .loadKey 0, .fetchStart 0, .fetchDone 0 (.ok (some ⟨7, none, 1⟩))]

/-- An invalidation that comes before the comparison stops the refresh. -/
theorem invalidated_before_comparison : ∃ s, (cache Unit Nat 16 1024).run (fetchedRun ++
      [.invalidate 1 (), .remove 1, .recheckGlobal 0, .recheckKey 0, .send 0, .deregister 0]) = some s ∧
    ¬ LateWrite (fetchedRun ++
      [.invalidate 1 (), .remove 1, .recheckGlobal 0, .recheckKey 0, .send 0, .deregister 0]) s := by
  obtain ⟨s, hr, -⟩ := (cache Unit Nat 16 1024).exists_of_check (fun _ => true) (fetchedRun ++
    [.invalidate 1 (), .remove 1, .recheckGlobal 0, .recheckKey 0, .send 0, .deregister 0]) (by decide +kernel)
  exact ⟨s, hr, no_lateWrite 16 1024 _ s hr (by decide +kernel)⟩

/-- An invalidation that comes between the comparison and the write. -/
def lateRun : List (Event Unit Nat) :=
  fetchedRun ++ [.recheckGlobal 0, .recheckKey 0, .invalidate 1 (), .remove 1, .write 0 0 (Iteration.ascending Unit)]

/-- **An old result slips in after the invalidation**: the refresh has passed the comparison, the invalidation begins and
returns, and then the entry is written. -/
theorem written_after_invalidation : ∃ s, (cache Unit Nat 16 1024).run lateRun = some s ∧ LateWrite lateRun s ∧
    (s.entries.lookup ()).map readFrom = some ⟨some 7, none⟩ := by
  obtain ⟨s, hr, hs⟩ := (cache Unit Nat 16 1024).exists_of_check (fun s =>
    (s.refreshes.lookup 0).isSome && decide ((s.entries.lookup ()).map readFrom = some ⟨some 7, none⟩)) lateRun
    (by decide +kernel)
  rw [Bool.and_eq_true, decide_eq_true_eq, Option.isSome_iff_exists] at hs
  obtain ⟨⟨f, hf⟩, hentry⟩ := hs
  refine ⟨s, hr, ⟨0, f, 1, 0, Iteration.ascending Unit, hf, Or.inl ?_⟩, hentry⟩
  exact .cons _ (.cons _ (.cons _ (.cons _ (.cons_cons _ (.cons _ (.cons _ (.cons _ (List.Sublist.refl _))))))))

end Dht
end NexusNet
