import NexusNet.DhtCache
/-!
# DhtEvict — what `evict` removes and what it leaves

One turn of the loop removes the entry that was used least recently, of those that are left (`Victim`, `Evicts`).  What is removed
was therefore used no later than what stays, and the last removal was needed.
-/
namespace NexusNet
namespace Dht

variable {K V : Type} [DecidableEq K]

/-- The entries are too many or too large, so the loop goes on. -/
def Exceeds (maxEntries maxBytes : Nat) (entries : Dict K (Entry V)) : Prop :=
  maxEntries < entries.keys.card ∨ maxBytes < totalSize entries

instance (maxEntries maxBytes : Nat) (entries : Dict K (Entry V)) : Decidable (Exceeds maxEntries maxBytes entries) :=
  inferInstanceAs (Decidable (_ ∨ _))

/-- **What a turn of the loop removes**: the entries exceed a bound, there is more than one, and none was used before the
one of the key. -/
structure Victim (maxEntries maxBytes : Nat) (entries : Dict K (Entry V)) (k : K) : Prop where
  exceeds : Exceeds maxEntries maxBytes entries
  several : entries.keys.card ≠ 1
  least : ∃ entry, entries.lookup k = some entry ∧
    ∀ k' entry', entries.lookup k' = some entry' → entry.lastAccess ≤ entry'.lastAccess

/-- **The run of the loop**: the keys it removes, in order, and the entries it leaves. -/
inductive Evicts (maxEntries maxBytes : Nat) : Dict K (Entry V) → List K → Dict K (Entry V) → Prop where
  | stop (entries : Dict K (Entry V)) (within : Exceeds maxEntries maxBytes entries → entries.keys.card = 1) :
      Evicts maxEntries maxBytes entries [] entries
  | remove (entries kept : Dict K (Entry V)) (k : K) (ks : List K) (victim : Victim maxEntries maxBytes entries k)
      (rest : Evicts maxEntries maxBytes (entries.erase k) ks kept) : Evicts maxEntries maxBytes entries (k :: ks) kept

section Loop

variable {maxEntries maxBytes : Nat} {entries kept : Dict K (Entry V)}

theorem exceeds_nonempty (h : Exceeds maxEntries maxBytes entries) : entries.keys ≠ ∅ := by
  intro hempty
  rcases h with hcard | hsize
  · rw [hempty, Finset.card_empty] at hcard
    exact absurd hcard (Nat.not_lt_zero _)
  · rw [totalSize, hempty, Finset.sum_empty] at hsize
    exact absurd hsize (Nat.not_lt_zero _)

/-- **The victim is a least recently used key of the list**, and there is one unless the list is empty. -/
theorem victim_spec (entries : Dict K (Entry V)) : ∀ (ks : List K),
    (victim entries ks = none ↔ ks = []) ∧
      ∀ k, victim entries ks = some k → k ∈ ks ∧ ∀ k' ∈ ks, accessOf entries k ≤ accessOf entries k'
  | [] => ⟨⟨fun _ => rfl, fun _ => rfl⟩, fun k h => by cases h⟩
  | x :: ks => by
    obtain ⟨hnone, hsome⟩ := victim_spec entries ks
    unfold victim
    cases hv : victim entries ks with
    | none =>
      rw [hnone.1 hv]
      refine ⟨by simp, fun k hk => ?_⟩
      cases hk
      exact ⟨List.mem_cons_self, fun k' hk' => by rw [List.mem_singleton.1 hk']⟩
    | some y =>
      obtain ⟨hmem, hleast⟩ := hsome y hv
      simp only
      split
      · rename_i hle
        refine ⟨by simp, fun k hk => ?_⟩
        cases hk
        refine ⟨List.mem_cons_self, fun k' hk' => ?_⟩
        rcases List.mem_cons.1 hk' with rfl | hk'
        · exact Nat.le_refl _
        · exact hle.trans (hleast k' hk')
      · rename_i hlt
        refine ⟨by simp, fun k hk => ?_⟩
        cases hk
        refine ⟨List.mem_cons_of_mem _ hmem, fun k' hk' => ?_⟩
        rcases List.mem_cons.1 hk' with rfl | hk'
        · exact (Nat.not_le.1 hlt).le
        · exact hleast k' hk'

theorem accessOf_of_lookup {k : K} {entry : Entry V} (h : entries.lookup k = some entry) :
    accessOf entries k = entry.lastAccess := by
  rw [accessOf, h]
  rfl

theorem card_keys_erase {k : K} (h : k ∈ entries) : (entries.erase k).keys.card + 1 = entries.keys.card := by
  rw [Finmap.keys_erase]
  exact Finset.card_erase_add_one (Finmap.mem_keys.2 h)

theorem evictLoop_succ (order : Iteration K) (maxEntries maxBytes fuel : Nat) (entries : Dict K (Entry V)) :
    evictLoop order maxEntries maxBytes (fuel + 1) entries =
      if Exceeds maxEntries maxBytes entries then
        match victim entries (order.list entries.keys) with
        | none => entries
        | some k =>
          if entries.keys.card = 1 then entries else evictLoop order maxEntries maxBytes fuel (entries.erase k)
      else entries := rfl

/-- **With a turn for every entry the loop comes to its end.** -/
theorem evictLoop_evicts (order : Iteration K) (maxEntries maxBytes : Nat) : ∀ (fuel : Nat) (entries : Dict K (Entry V)),
    entries.keys.card ≤ fuel →
    ∃ removed, Evicts maxEntries maxBytes entries removed (evictLoop order maxEntries maxBytes fuel entries)
  | 0, entries, hfuel => by
    refine ⟨[], .stop entries (fun h => ?_)⟩
    exact absurd (Finset.card_eq_zero.1 (Nat.le_zero.1 hfuel)) (exceeds_nonempty h)
  | fuel + 1, entries, hfuel => by
    rw [evictLoop_succ]
    by_cases hexceeds : Exceeds maxEntries maxBytes entries
    · rw [if_pos hexceeds]
      obtain ⟨hnone, hsome⟩ := victim_spec entries (order.list entries.keys)
      cases hv : victim entries (order.list entries.keys) with
      | none =>
        obtain ⟨k, hk⟩ := Finset.nonempty_iff_ne_empty.2 (exceeds_nonempty hexceeds)
        have hmem := order.mem_list.2 hk
        rw [hnone.1 hv] at hmem
        cases hmem
      | some k =>
        simp only
        by_cases hone : entries.keys.card = 1
        · rw [if_pos hone]
          exact ⟨[], .stop entries (fun _ => hone)⟩
        · rw [if_neg hone]
          obtain ⟨hmem, hleast⟩ := hsome k hv
          have hk : k ∈ entries := Finmap.mem_keys.1 (order.mem_list.1 hmem)
          have hcard := card_keys_erase hk
          obtain ⟨removed, hrest⟩ := evictLoop_evicts order maxEntries maxBytes fuel (entries.erase k) (by omega)
          obtain ⟨entry, hentry⟩ := Finmap.mem_iff.1 hk
          refine ⟨k :: removed, .remove entries _ k removed ⟨hexceeds, hone, entry, hentry, fun k' entry' hk' => ?_⟩ hrest⟩
          have hle := hleast k' (order.mem_list.2 (Finmap.mem_keys.2 (Finmap.mem_of_lookup_eq_some hk')))
          rwa [accessOf_of_lookup hentry, accessOf_of_lookup hk'] at hle
    · rw [if_neg hexceeds]
      exact ⟨[], .stop entries (fun h => absurd h hexceeds)⟩

/-- **More turns change nothing.** -/
theorem evictLoop_fuel (order : Iteration K) (maxEntries maxBytes : Nat) : ∀ (fuel fuel' : Nat) (entries : Dict K (Entry V)),
    entries.keys.card ≤ fuel → entries.keys.card ≤ fuel' →
    evictLoop order maxEntries maxBytes fuel entries = evictLoop order maxEntries maxBytes fuel' entries
  | 0, 0, _, _, _ => rfl
  | 0, fuel' + 1, entries, hfuel, _ => by
    have hempty : ¬ Exceeds maxEntries maxBytes entries := fun h =>
      exceeds_nonempty h (Finset.card_eq_zero.1 (Nat.le_zero.1 hfuel))
    rw [evictLoop, evictLoop_succ, if_neg hempty]
  | fuel + 1, 0, entries, _, hfuel => by
    have hempty : ¬ Exceeds maxEntries maxBytes entries := fun h =>
      exceeds_nonempty h (Finset.card_eq_zero.1 (Nat.le_zero.1 hfuel))
    rw [evictLoop_succ, evictLoop, if_neg hempty]
  | fuel + 1, fuel' + 1, entries, hfuel, hfuel' => by
    rw [evictLoop_succ, evictLoop_succ]
    cases hv : victim entries (order.list entries.keys) with
    | none => rfl
    | some k =>
      have hk : k ∈ entries :=
        Finmap.mem_keys.1 (order.mem_list.1 ((victim_spec entries (order.list entries.keys)).2 k hv).1)
      have hcard := card_keys_erase hk
      simp only
      rw [evictLoop_fuel order maxEntries maxBytes fuel fuel' (entries.erase k) (by omega) (by omega)]

/-! ## What is left -/

theorem Evicts.kept_eq {removed : List K} (h : Evicts maxEntries maxBytes entries removed kept) :
    kept = entries.eraseAll removed := by
  induction h with
  | stop entries within => rfl
  | remove entries kept k ks victim rest ih => exact ih

theorem Evicts.within {removed : List K} (h : Evicts maxEntries maxBytes entries removed kept) :
    Exceeds maxEntries maxBytes kept → kept.keys.card = 1 := by
  induction h with
  | stop entries within => exact within
  | remove entries kept k ks victim rest ih => exact ih

theorem lookup_of_eraseAll {removed : List K} {k : K} {entry : Entry V}
    (h : (entries.eraseAll removed).lookup k = some entry) : entries.lookup k = some entry := by
  rw [Dict.lookup_eraseAll] at h
  exact (Option.ite_none_left_eq_some.1 h).2

theorem Evicts.oldest {removed : List K} (h : Evicts maxEntries maxBytes entries removed kept) :
    ∀ k entry k' entry', k ∈ removed → entries.lookup k = some entry → kept.lookup k' = some entry' →
    entry.lastAccess ≤ entry'.lastAccess := by
  induction h with
  | stop entries within => exact fun k entry k' entry' hk => by cases hk
  | remove entries kept x ks victim rest ih =>
    intro k entry k' entry' hk hentry hk'
    by_cases hkx : k = x
    · -- what is left was in the map when `x` was chosen
      obtain ⟨chosen, hchosen, hleast⟩ := victim.least
      rw [hkx, hchosen] at hentry
      cases hentry
      rw [rest.kept_eq] at hk'
      exact hleast k' entry' (Dict.of_lookup_erase (lookup_of_eraseAll hk')).2
    · refine ih k entry k' entry' ((List.mem_cons.1 hk).resolve_left hkx) ?_ hk'
      rw [Dict.lookup_erase_ite, if_neg hkx]
      exact hentry

/-- Every removed key was the victim among what was left of the entries. -/
theorem Evicts.needed {removed : List K} (h : Evicts maxEntries maxBytes entries removed kept) :
    ∀ pre k post, removed = pre ++ k :: post → Victim maxEntries maxBytes (entries.eraseAll pre) k := by
  induction h with
  | stop entries within =>
    intro pre k post heq
    cases pre <;> cases heq
  | remove entries kept x ks victim rest ih =>
    intro pre k post heq
    cases pre with
    | nil =>
      cases heq
      exact victim
    | cons y pre =>
      cases heq
      exact ih pre k post rfl

end Loop

/-- **What `evict` does**: the removed keys in order, and what is left.  It is within the bounds, or a single entry that is
too large; what is left is as it was and was used no earlier than what was removed; each removed key was the least
recently used of what was left then, which exceeded a bound, and with the last removed entry put back it does so again. -/
structure EvictsLeastRecent (maxEntries maxBytes : Nat) (entries : Dict K (Entry V)) (removed : List K)
    (kept : Dict K (Entry V)) : Prop where
  kept_eq : kept = entries.eraseAll removed
  count : kept.keys.card ≤ maxEntries
  size : totalSize kept ≤ maxBytes ∨ kept.keys.card = 1
  unchanged : ∀ k entry, kept.lookup k = some entry → entries.lookup k = some entry
  oldest : ∀ k entry k' entry', entries.lookup k = some entry → k ∉ kept → kept.lookup k' = some entry' →
    entry.lastAccess ≤ entry'.lastAccess
  needed : ∀ pre k post, removed = pre ++ k :: post → Victim maxEntries maxBytes (entries.eraseAll pre) k
  last : ∀ pre k, removed = pre ++ [k] → ∃ entry, entries.lookup k = some entry ∧ k ∉ kept ∧
    Exceeds maxEntries maxBytes (kept.insert k entry)

/-- Putting an erased entry back. -/
theorem insert_erase_of_lookup {entries : Dict K (Entry V)} {k : K} {entry : Entry V}
    (h : entries.lookup k = some entry) : (entries.erase k).insert k entry = entries := by
  refine Finmap.ext_lookup (fun k' => ?_)
  rw [Dict.lookup_insert_ite, Dict.lookup_erase_ite]
  split
  · rename_i hk
    rw [hk, h]
  · rfl

theorem eraseAll_concat (entries : Dict K (Entry V)) (pre : List K) (k : K) :
    entries.eraseAll (pre ++ [k]) = (entries.eraseAll pre).erase k := by
  rw [Dict.eraseAll, Dict.eraseAll, List.foldl_append]
  rfl

theorem Evicts.leastRecent {maxEntries maxBytes : Nat} {entries kept : Dict K (Entry V)} {removed : List K}
    (h : Evicts maxEntries maxBytes entries removed kept) (hentries : 1 ≤ maxEntries) :
    EvictsLeastRecent maxEntries maxBytes entries removed kept where
  kept_eq := h.kept_eq
  count := by
    by_contra hlt
    have hone := h.within (.inl (Nat.not_le.1 hlt))
    omega
  size := by
    by_cases hsize : totalSize kept ≤ maxBytes
    · exact .inl hsize
    · exact .inr (h.within (.inr (Nat.not_le.1 hsize)))
  unchanged := fun k entry hk => by
    rw [h.kept_eq] at hk
    exact lookup_of_eraseAll hk
  oldest := fun k entry k' entry' hk hnot hk' => by
    have hremoved : k ∈ removed := by
      rw [h.kept_eq, Dict.mem_eraseAll] at hnot
      by_contra hkeep
      exact hnot ⟨hkeep, Finmap.mem_of_lookup_eq_some hk⟩
    exact h.oldest k entry k' entry' hremoved hk hk'
  needed := h.needed
  last := fun pre k heq => by
    obtain ⟨hexceeds, -, entry, hentry, -⟩ := h.needed pre k [] heq
    have hkept : kept = (entries.eraseAll pre).erase k := by rw [h.kept_eq, heq, eraseAll_concat]
    refine ⟨entry, lookup_of_eraseAll hentry, by rw [hkept]; exact Finmap.notMem_erase_self, ?_⟩
    rw [hkept, insert_erase_of_lookup hentry]
    exact hexceeds

/-- **Eviction ends, within its bounds, removes the least recently used entries and no more than it must.** -/
theorem evict_least_recent (order : Iteration K) (maxEntries maxBytes : Nat) (hentries : 1 ≤ maxEntries)
    (entries : Dict K (Entry V)) :
    (∀ fuel, entries.keys.card ≤ fuel →
      evictLoop order maxEntries maxBytes fuel entries = evict order maxEntries maxBytes entries) ∧
    ∃ removed, EvictsLeastRecent maxEntries maxBytes entries removed (evict order maxEntries maxBytes entries) := by
  refine ⟨fun fuel hfuel => evictLoop_fuel order maxEntries maxBytes fuel _ entries hfuel (Nat.le_refl _), ?_⟩
  obtain ⟨removed, h⟩ := evictLoop_evicts order maxEntries maxBytes entries.keys.card entries (Nat.le_refl _)
  exact ⟨removed, h.leastRecent hentries⟩

/-- Three entries of 10, 0 and 20 bytes, used at 3, 1 and 2. -/
def threeEntries : Dict Nat (Entry Nat) :=
  (((∅ : Dict Nat (Entry Nat)).insert 0 ⟨some 0, none, none, 3, 10⟩).insert 1 ⟨some 1, none, none, 1, 0⟩).insert 2
    ⟨some 2, none, none, 2, 20⟩

/-- With room for 15 bytes the empty entry goes, because it is older, and then the large one. -/
theorem three_entries_evicted : (evict (Iteration.ascending Nat) 8 15 threeEntries).keys = {0} ∧
    ∃ removed, EvictsLeastRecent 8 15 threeEntries removed (evict (Iteration.ascending Nat) 8 15 threeEntries) :=
  ⟨by decide +kernel, (evict_least_recent (Iteration.ascending Nat) 8 15 (by decide) threeEntries).2⟩

end Dht
end NexusNet
