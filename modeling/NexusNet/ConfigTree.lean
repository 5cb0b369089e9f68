import NexusNet.TomlTree
/-!
# ConfigTree — the completion of a configuration document

`merge_missing` on documents: keys that the target lacks are copied, tables on both sides are merged in turn, everything
else stays.  By path it is the left-biased deep union (`get_mergeItem`, `LeftUnion`), and it is idempotent.
-/
namespace NexusNet
namespace ConfigFile

open TomlTree

variable {D : Type}

mutual

/-- `merge_missing`: the loop over the entries of `src`. -/
def mergeMissing (dst : List (String × Item D)) : List (String × Item D) → List (String × Item D)
  | [] => dst
  | (key, srcItem) :: rest =>
    match dst.lookup key with
    | none => mergeMissing (dst ++ [(key, srcItem)]) rest
    | some dstItem => mergeMissing (replaceKey key (mergeItem dstItem srcItem) dst) rest

/-- A key on both sides: `as_table_mut` and `as_table` must both answer. -/
def mergeItem (dst : Item D) : Item D → Item D
  | .table _ src =>
    match dst with
    | .table decor entries => .table decor (mergeMissing entries src)
    | .value decor v => .value decor v
    | .arrayOfTables tables => .arrayOfTables tables
  | .value _ _ => dst
  | .arrayOfTables _ => dst

end

theorem mergeItem_of_not_table {dst : Item D} (h : dst.isTable = false) (src : Item D) : mergeItem dst src = dst := by
  cases dst with
  | table decor entries => cases h
  | value | arrayOfTables => cases src <;> rfl

theorem mergeItem_not_table (dst : Item D) {src : Item D} (h : src.isTable = false) : mergeItem dst src = dst := by
  cases src with
  | table decor entries => cases h
  | value | arrayOfTables => rfl

theorem mergeMissing_none {dst : List (String × Item D)} {key : String} (h : dst.lookup key = none) (item : Item D)
    (rest : List (String × Item D)) : mergeMissing dst ((key, item) :: rest) = mergeMissing (dst ++ [(key, item)]) rest := by
  rw [mergeMissing, h]

theorem mergeMissing_some {dst : List (String × Item D)} {key : String} {dstItem : Item D} (h : dst.lookup key = some dstItem)
    (item : Item D) (rest : List (String × Item D)) :
    mergeMissing dst ((key, item) :: rest) = mergeMissing (replaceKey key (mergeItem dstItem item) dst) rest := by
  rw [mergeMissing, h]

theorem mergeMissing_append (a b : List (String × Item D)) : ∀ dst : List (String × Item D),
    mergeMissing dst (a ++ b) = mergeMissing (mergeMissing dst a) b := by
  induction a with
  | nil => exact fun dst => by rw [List.nil_append, mergeMissing]
  | cons entry rest ih =>
    obtain ⟨key, item⟩ := entry
    intro dst
    rw [List.cons_append]
    cases hkey : dst.lookup key with
    | none => rw [mergeMissing_none hkey, mergeMissing_none hkey, ih]
    | some dstItem => rw [mergeMissing_some hkey, mergeMissing_some hkey, ih]

/-! ## One key -/

/-- What a key holds after the merge. -/
def mergeFound : Option (Item D) → Option (Item D) → Option (Item D)
  | none, src => src
  | some dst, none => some dst
  | some dst, some src => some (mergeItem dst src)

theorem lookup_append_one (dst : List (String × Item D)) (key k' : String) (item : Item D) :
    (dst ++ [(key, item)]).lookup k' = (dst.lookup k').or (if k' = key then some item else none) := by
  rw [List.lookup_append, lookup_cons_ite, List.lookup_nil]

/-- **Each key is merged by itself.** -/
theorem lookup_mergeMissing (k' : String) : ∀ {src : List (String × Item D)}, (src.map Prod.fst).Nodup →
    ∀ dst : List (String × Item D), (mergeMissing dst src).lookup k' = mergeFound (dst.lookup k') (src.lookup k')
  | [], _, dst => by
    rw [mergeMissing, List.lookup_nil]
    cases dst.lookup k' <;> rfl
  | (key, item) :: rest, hnodup, dst => by
    rw [List.map_cons, List.nodup_cons] at hnodup
    have ih := lookup_mergeMissing k' hnodup.2
    -- the key itself does not come again, every other one is looked up past this entry
    by_cases hk : k' = key
    · subst hk
      have hrest : rest.lookup k' = none := lookup_eq_none_iff_keys.2 hnodup.1
      rw [lookup_cons_ite, if_pos rfl]
      cases hdst : dst.lookup k' with
      | none =>
        rw [mergeMissing_none hdst, ih, hrest, lookup_append_one, hdst, if_pos rfl]
        rfl
      | some dstItem =>
        rw [mergeMissing_some hdst, ih, hrest, lookup_replaceKey, if_pos rfl, hdst]
        rfl
    · rw [lookup_cons_ite, if_neg hk]
      cases hdst : dst.lookup key with
      | none => rw [mergeMissing_none hdst, ih, lookup_append_one, if_neg hk, Option.or_none]
      | some dstItem => rw [mergeMissing_some hdst, ih, lookup_replaceKey, if_neg hk]

theorem lookup_mergeMissing_of_not_mem {key : String} : ∀ {src : List (String × Item D)}, key ∉ src.map Prod.fst →
    ∀ dst : List (String × Item D), (mergeMissing dst src).lookup key = dst.lookup key
  | [], _, dst => by rw [mergeMissing]
  | (k, item) :: rest, hmem, dst => by
    rw [List.map_cons, List.mem_cons, not_or] at hmem
    cases hdst : dst.lookup k with
    | none =>
      rw [mergeMissing_none hdst, lookup_mergeMissing_of_not_mem hmem.2, lookup_append_one, if_neg hmem.1, Option.or_none]
    | some dstItem =>
      rw [mergeMissing_some hdst, lookup_mergeMissing_of_not_mem hmem.2, lookup_replaceKey, if_neg hmem.1]

/-- **The keys of the target stay in their places**, new ones come after them. -/
theorem keys_mergeMissing : ∀ (src dst : List (String × Item D)),
    dst.map Prod.fst <+: (mergeMissing dst src).map Prod.fst
  | [], dst => by
    have h : mergeMissing dst [] = dst := by rw [mergeMissing]
    exact h.symm ▸ List.prefix_rfl
  | (key, item) :: rest, dst => by
    cases hdst : dst.lookup key with
    | none =>
      rw [mergeMissing_none hdst]
      refine List.IsPrefix.trans ?_ (keys_mergeMissing rest _)
      rw [List.map_append]
      exact List.prefix_append _ _
    | some dstItem =>
      have h := keys_mergeMissing rest (replaceKey key (mergeItem dstItem item) dst)
      rwa [keys_replaceKey, ← mergeMissing_some hdst] at h

theorem nodup_mergeMissing : ∀ (src : List (String × Item D)) {dst : List (String × Item D)}, (dst.map Prod.fst).Nodup →
    ((mergeMissing dst src).map Prod.fst).Nodup
  | [], dst, h => by rwa [mergeMissing]
  | (key, item) :: rest, dst, h => by
    cases hdst : dst.lookup key with
    | none =>
      rw [mergeMissing_none hdst]
      refine nodup_mergeMissing rest ?_
      rw [List.map_append, List.map_singleton, List.nodup_append_comm, List.singleton_append, List.nodup_cons]
      exact ⟨lookup_eq_none_iff_keys.1 hdst, h⟩
    | some dstItem =>
      rw [mergeMissing_some hdst]
      refine nodup_mergeMissing rest ?_
      rwa [keys_replaceKey]

/-- **Keys stay unique at every level.** -/
theorem keyed_mergeItem {src : Item D} (hsrc : Keyed src) : ∀ {dst : Item D}, Keyed dst → Keyed (mergeItem dst src) := by
  induction hsrc with
  | value | arrayOfTables => exact fun h => h
  | @table decor entries hnodup hitems ih =>
    intro dst hdst
    cases dst with
    | value | arrayOfTables => exact hdst
    | table decor' dstEntries =>
      rw [mergeItem]
      have hnodup' := nodup_mergeMissing entries hdst.nodup
      refine Keyed.table hnodup' (fun key item hmem => ?_)
      have hlookup := lookup_of_mem hnodup' hmem
      rw [lookup_mergeMissing key hnodup] at hlookup
      cases hd : dstEntries.lookup key with
      | none =>
        rw [hd] at hlookup
        exact hitems key item (mem_of_lookup hlookup)
      | some d =>
        have hkeyed : Keyed d := hdst.items (mem_of_lookup hd)
        rw [hd] at hlookup
        cases hs : entries.lookup key with
        | none =>
          rw [hs] at hlookup
          cases hlookup
          exact hkeyed
        | some s =>
          rw [hs] at hlookup
          cases hlookup
          exact ih key s (mem_of_lookup hs) hkeyed

/-- `merge_missing(doc.as_table_mut(), defaults.as_table())`. -/
def complete (doc defaults : Document D) : Document D where
  decor := doc.decor
  entries := mergeMissing doc.entries defaults.entries
  keyed := by
    have h := keyed_mergeItem defaults.keyed doc.keyed
    rwa [mergeItem] at h

theorem root_complete (doc defaults : Document D) : (complete doc defaults).root = mergeItem doc.root defaults.root := by
  rw [Document.root, Document.root, Document.root, mergeItem, complete]

/-! ## Idempotence -/

theorem mergeMissing_absorbed : ∀ {src dst : List (String × Item D)},
    (∀ key item, (key, item) ∈ src → ∃ d, dst.lookup key = some d ∧ mergeItem d item = d) → mergeMissing dst src = dst
  | [], dst, _ => by rw [mergeMissing]
  | (key, item) :: rest, dst, h => by
    obtain ⟨d, hd, hmerge⟩ := h key item List.mem_cons_self
    rw [mergeMissing_some hd, hmerge, replaceKey_self hd]
    exact mergeMissing_absorbed (fun k i hmem => h k i (List.mem_cons_of_mem _ hmem))

theorem mergeItem_self {src : Item D} (hsrc : Keyed src) : mergeItem src src = src := by
  induction hsrc with
  | value => rfl
  | arrayOfTables => rfl
  | @table decor entries hnodup hitems ih =>
    rw [mergeItem, mergeMissing_absorbed]
    intro key item hmem
    exact ⟨item, lookup_of_mem hnodup hmem, ih key item hmem⟩

/-- **What has been merged once is absorbed.** -/
theorem mergeItem_again {src : Item D} (hsrc : Keyed src) : ∀ dst : Item D,
    mergeItem (mergeItem dst src) src = mergeItem dst src := by
  induction hsrc with
  | value | arrayOfTables => exact fun _ => rfl
  | @table decor entries hnodup hitems ih =>
    intro dst
    cases dst with
    | value | arrayOfTables => rfl
    | table decor' dstEntries =>
      rw [mergeItem, mergeItem, mergeMissing_absorbed]
      intro key item hmem
      rw [lookup_mergeMissing key hnodup, lookup_of_mem hnodup hmem]
      cases dstEntries.lookup key with
      | none => exact ⟨item, rfl, mergeItem_self (hitems key item hmem)⟩
      | some d => exact ⟨mergeItem d item, rfl, ih key item hmem d⟩

theorem complete_again (doc defaults : Document D) :
    complete (complete doc defaults) defaults = complete doc defaults := by
  apply Document.root_injective
  rw [root_complete, root_complete, mergeItem_again defaults.keyed_root]

/-! ## Paths -/

theorem get_eq_found (item : Item D) (p : List String) :
    item.get p = if item.blocks p then none else mergeFound (item.get p) none := by
  split
  · rename_i h
    exact Item.get_of_blocks h
  · cases item.get p <;> rfl

/-- **The merge by path**: what both have is merged, what only one has is there, unless an item of the target stands in the
way. -/
theorem get_mergeItem : ∀ (p : List String) {src : Item D}, Keyed src → ∀ dst : Item D,
    (mergeItem dst src).get p = if dst.blocks p then none else mergeFound (dst.get p) (src.get p)
  | [], src, _, dst => by
    rw [Item.blocks_nil, if_neg Bool.false_ne_true, Item.get_nil, Item.get_nil, Item.get_nil, mergeFound]
  | key :: rest, src, hsrc, dst => by
    cases hdst : dst.isTable with
    | false => rw [mergeItem_of_not_table hdst, Item.get_of_not_table hdst, Item.blocks_of_not_table hdst, if_pos rfl]
    | true =>
    cases hsrcTable : src.isTable with
    | false =>
      rw [mergeItem_not_table dst hsrcTable, Item.get_of_not_table hsrcTable]
      exact get_eq_found dst (key :: rest)
    | true =>
    obtain ⟨decor, dstEntries, rfl⟩ := Item.isTable_iff.1 hdst
    obtain ⟨decor', srcEntries, rfl⟩ := Item.isTable_iff.1 hsrcTable
    rw [mergeItem, Item.get_table_cons, Item.get_table_cons, Item.get_table_cons, Item.blocks_table_cons,
      lookup_mergeMissing key hsrc.nodup]
    cases hd : dstEntries.lookup key with
    | none => rfl
    | some d =>
      cases hs : srcEntries.lookup key with
      | none => exact get_eq_found d rest
      | some s => exact get_mergeItem rest (hsrc.items (mem_of_lookup hs)) d

/-- **The left-biased deep union of two documents**, path by path. -/
structure LeftUnion (dst src out : Item D) : Prop where
  /-- An item that is not a table stays as it is. -/
  kept : ∀ p item, dst.get p = some item → item.isTable = false → out.get p = some item
  /-- A table stays a table, with its own keys first and in their order. -/
  table : ∀ p decor entries, dst.get p = some (.table decor entries) →
    ∃ entries', out.get p = some (.table decor entries') ∧ entries.map Prod.fst <+: entries'.map Prod.fst
  /-- Where the target has nothing and no item of it stands in the way, the other's item is there. -/
  filled : ∀ p item, dst.get p = none → (∀ q r, p = q ++ r → r ≠ [] → ∀ i, dst.get q = some i → i.isTable = true) →
    src.get p = some item → out.get p = some item
  /-- Everywhere else there is nothing. -/
  nothing : ∀ p, dst.get p = none →
    (src.get p = none ∨ ∃ q r, p = q ++ r ∧ r ≠ [] ∧ ∃ i, dst.get q = some i ∧ i.isTable = false) → out.get p = none

theorem leftUnion_mergeItem {src : Item D} (hsrc : Keyed src) (dst : Item D) : LeftUnion dst src (mergeItem dst src) where
  kept p item hget hitem := by
    have hblocks : dst.blocks p = false := Item.blocks_of_get hget
    rw [get_mergeItem p hsrc, hblocks, if_neg Bool.false_ne_true, hget]
    cases src.get p with
    | none => rfl
    | some s => rw [mergeFound, mergeItem_of_not_table hitem]
  table p decor entries hget := by
    have hblocks : dst.blocks p = false := Item.blocks_of_get hget
    rw [get_mergeItem p hsrc, hblocks, if_neg Bool.false_ne_true, hget]
    cases src.get p with
    | none => exact ⟨entries, rfl, List.prefix_rfl⟩
    | some s =>
      rw [mergeFound]
      cases s with
      | value | arrayOfTables => exact ⟨entries, rfl, List.prefix_rfl⟩
      | table decor' srcEntries =>
        rw [mergeItem]
        exact ⟨mergeMissing entries srcEntries, rfl, keys_mergeMissing srcEntries entries⟩
  filled p item hnone hfree hsome := by
    have hblocks : ¬ dst.blocks p = true := by
      intro h
      obtain ⟨q, r, hpath, hr, i, hget, hi⟩ := Item.blocks_iff.1 h
      rw [hfree q r hpath hr i hget] at hi
      cases hi
    rw [get_mergeItem p hsrc, if_neg hblocks, hnone, hsome, mergeFound]
  nothing p hnone hor := by
    rw [get_mergeItem p hsrc]
    rcases hor with hsome | hblocked
    · rw [hnone, hsome, mergeFound, ite_self]
    · rw [if_pos (Item.blocks_iff.2 hblocked)]

/-! ## Formatting -/

theorem bareEntries_mergeMissing {src : List (String × Item D)}
    (h : ∀ key item, (key, item) ∈ src → ∀ d : Item D, (mergeItem d item).bare = mergeItem d.bare item.bare) :
    ∀ dst : List (String × Item D),
      bareEntries (mergeMissing dst src) = mergeMissing (bareEntries dst) (bareEntries src) := by
  induction src with
  | nil => exact fun dst => by rw [mergeMissing, bareEntries, mergeMissing]
  | cons entry rest ih =>
    obtain ⟨key, item⟩ := entry
    intro dst
    have hrest := ih (fun k i hmem => h k i (List.mem_cons_of_mem _ hmem))
    have hlookup : (bareEntries dst).lookup key = (dst.lookup key).map Item.bare := by
      rw [bareEntries_eq, lookup_map_snd]
    rw [bareEntries]
    cases hdst : dst.lookup key with
    | none =>
      rw [hdst] at hlookup
      rw [mergeMissing_none hdst, mergeMissing_none hlookup, hrest, bareEntries_eq, bareEntries_eq, bareEntries_eq,
        List.map_append, List.map_singleton]
    | some d =>
      rw [hdst] at hlookup
      rw [mergeMissing_some hdst, mergeMissing_some hlookup, hrest, ← h key item List.mem_cons_self d, bareEntries_eq,
        bareEntries_eq, replaceKey_map_snd, bareEntries_eq]

/-- **Formatting does not change what is merged.** -/
theorem bare_mergeItem {src : Item D} (hsrc : Keyed src) : ∀ dst : Item D,
    (mergeItem dst src).bare = mergeItem dst.bare src.bare := by
  induction hsrc with
  | value | arrayOfTables => exact fun _ => rfl
  | @table decor entries hnodup hitems ih =>
    intro dst
    cases dst with
    | value | arrayOfTables => rfl
    | table decor' dstEntries =>
      rw [mergeItem, Item.bare, Item.bare, Item.bare, mergeItem, bareEntries_mergeMissing ih]

end ConfigFile
end NexusNet
