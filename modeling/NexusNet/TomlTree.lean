import Mathlib.Data.List.Basic
import Mathlib.Data.List.Nodup
/-!
# TomlTree — documents as trees of tables

A document as an editor of TOML holds it: tables with their keys in order, arrays of tables, and values, among them inline
tables and arrays; `D` is the formatting (comments, blanks) that stands with each of them.  What a deserializer sees of it
is `Data`, where tables and inline tables are the same.

A path leads through tables only.  Keys are unique within a table (`Keyed`), as in the maps that documents are made of.
-/
namespace TomlTree

/-- What a deserializer sees. -/
inductive Data where
  | str (text : String)
  | int (n : Int64)
  | float (text : String)
  | bool (b : Bool)
  | datetime (text : String)
  | seq (items : List Data)
  | map (entries : List (String × Data))

/-- An item of a document. -/
inductive Item (D : Type) where
  | value (decor : D) (v : Data)
  | arrayOfTables (tables : List (D × List (String × Item D)))
  | table (decor : D) (entries : List (String × Item D))

variable {D : Type}

def Item.isTable : Item D → Bool
  | .table _ _ => true
  | _ => false

theorem Item.isTable_iff {item : Item D} : item.isTable = true ↔ ∃ decor entries, item = .table decor entries := by
  cases item with
  | table decor entries => exact iff_of_true rfl ⟨decor, entries, rfl⟩
  | value | arrayOfTables => simp [Item.isTable]

/-! ## Entries -/

section Entries

variable {κ β : Type} [DecidableEq κ]

/-- The item of the key is another one. -/
def replaceKey (key : κ) (new : β) : List (κ × β) → List (κ × β)
  | [] => []
  | (k, item) :: rest => if key = k then (k, new) :: rest else (k, item) :: replaceKey key new rest

theorem lookup_cons_ite (key k : κ) (item : β) (rest : List (κ × β)) :
    ((k, item) :: rest).lookup key = if key = k then some item else rest.lookup key := by
  rw [List.lookup_cons]
  by_cases hk : key = k
  · rw [if_pos hk, beq_iff_eq.2 hk]
  · rw [if_neg hk, beq_eq_false_iff_ne.2 hk]

theorem lookup_eq_none_iff_keys {key : κ} {entries : List (κ × β)} :
    entries.lookup key = none ↔ key ∉ entries.map Prod.fst := by
  rw [List.lookup_eq_none_iff]
  constructor
  · intro h hmem
    obtain ⟨e, he, rfl⟩ := List.mem_map.1 hmem
    exact bne_iff_ne.1 (h e he) rfl
  · intro h e he
    refine bne_iff_ne.2 (fun hk => h ?_)
    rw [hk]
    exact List.mem_map_of_mem he

theorem mem_of_lookup {key : κ} {item : β} {entries : List (κ × β)} (h : entries.lookup key = some item) :
    (key, item) ∈ entries := by
  obtain ⟨l₁, l₂, rfl, -⟩ := List.lookup_eq_some_iff.1 h
  exact List.mem_append_right _ List.mem_cons_self

/-- With unique keys every entry is found. -/
theorem lookup_of_mem {key : κ} {item : β} {entries : List (κ × β)} (hnodup : (entries.map Prod.fst).Nodup)
    (hmem : (key, item) ∈ entries) : entries.lookup key = some item := by
  obtain ⟨l₁, l₂, rfl⟩ := List.append_of_mem hmem
  refine List.lookup_eq_some_iff.2 ⟨l₁, l₂, rfl, fun e he => bne_iff_ne.2 ?_⟩
  rw [List.map_append, List.map_cons, List.nodup_append] at hnodup
  exact (hnodup.2.2 e.1 (List.mem_map_of_mem he) key List.mem_cons_self).symm

theorem keys_replaceKey (key : κ) (new : β) : ∀ entries : List (κ × β),
    (replaceKey key new entries).map Prod.fst = entries.map Prod.fst
  | [] => rfl
  | (k, item) :: rest => by
    rw [replaceKey]
    split
    · rfl
    · rw [List.map_cons, List.map_cons, keys_replaceKey key new rest]

theorem lookup_replaceKey (key k' : κ) (new : β) : ∀ entries : List (κ × β),
    (replaceKey key new entries).lookup k' =
      if k' = key then (entries.lookup k').map (fun _ => new) else entries.lookup k'
  | [] => by simp [replaceKey]
  | (k, item) :: rest => by
    have ih := lookup_replaceKey key k' new rest
    rw [replaceKey, lookup_cons_ite]
    by_cases hk : key = k
    · subst hk
      rw [if_pos rfl, lookup_cons_ite]
      split <;> rfl
    · rw [if_neg hk, lookup_cons_ite, ih]
      by_cases hk' : k' = k
      · subst hk'
        rw [if_pos rfl, if_pos rfl, if_neg (Ne.symm hk)]
      · rw [if_neg hk', if_neg hk']

theorem replaceKey_self {key : κ} {item : β} : ∀ {entries : List (κ × β)},
    entries.lookup key = some item → replaceKey key item entries = entries
  | [], _ => rfl
  | (k, i) :: rest, h => by
    rw [lookup_cons_ite] at h
    rw [replaceKey]
    split
    · rename_i hk
      rw [if_pos hk] at h
      cases h
      rfl
    · rename_i hk
      rw [if_neg hk] at h
      rw [replaceKey_self h]

/-- Entries of another kind under the same keys. -/
theorem lookup_map_snd {γ : Type} (f : β → γ) (key : κ) : ∀ entries : List (κ × β),
    (entries.map (fun e => (e.1, f e.2))).lookup key = (entries.lookup key).map f
  | [] => rfl
  | (k, item) :: rest => by
    rw [List.map_cons, lookup_cons_ite, lookup_cons_ite, lookup_map_snd f key rest]
    split <;> rfl

theorem replaceKey_map_snd {γ : Type} (f : β → γ) (key : κ) (new : β) : ∀ entries : List (κ × β),
    (replaceKey key new entries).map (fun e => (e.1, f e.2)) = replaceKey key (f new) (entries.map (fun e => (e.1, f e.2)))
  | [] => rfl
  | (k, item) :: rest => by
    rw [List.map_cons, replaceKey, replaceKey]
    split
    · rfl
    · rw [List.map_cons, replaceKey_map_snd f key new rest]

end Entries

/-! ## Data and formatting -/

mutual

def Item.data : Item D → Data
  | .value _ v => v
  | .arrayOfTables tables => .seq (tablesData tables)
  | .table _ entries => .map (entriesData entries)

def tablesData : List (D × List (String × Item D)) → List Data
  | [] => []
  | (_, entries) :: rest => .map (entriesData entries) :: tablesData rest

def entriesData : List (String × Item D) → List (String × Data)
  | [] => []
  | (key, item) :: rest => (key, item.data) :: entriesData rest

end

theorem entriesData_eq : ∀ entries : List (String × Item D), entriesData entries = entries.map (fun e => (e.1, e.2.data))
  | [] => rfl
  | (key, item) :: rest => by rw [entriesData, entriesData_eq rest, List.map_cons]

theorem tablesData_eq : ∀ tables : List (D × List (String × Item D)),
    tablesData tables = tables.map (fun t => .map (entriesData t.2))
  | [] => rfl
  | (decor, entries) :: rest => by rw [tablesData, tablesData_eq rest, List.map_cons]

theorem lookup_entriesData (key : String) (entries : List (String × Item D)) :
    (entriesData entries).lookup key = (entries.lookup key).map Item.data := by
  rw [entriesData_eq, lookup_map_snd]

theorem keys_entriesData (entries : List (String × Item D)) :
    (entriesData entries).map Prod.fst = entries.map Prod.fst := by
  rw [entriesData_eq, List.map_map]
  rfl

mutual

/-- The item without its formatting. -/
def Item.bare : Item D → Item Unit
  | .value _ v => .value () v
  | .arrayOfTables tables => .arrayOfTables (bareTables tables)
  | .table _ entries => .table () (bareEntries entries)

def bareTables : List (D × List (String × Item D)) → List (Unit × List (String × Item Unit))
  | [] => []
  | (_, entries) :: rest => ((), bareEntries entries) :: bareTables rest

def bareEntries : List (String × Item D) → List (String × Item Unit)
  | [] => []
  | (key, item) :: rest => (key, item.bare) :: bareEntries rest

end

theorem bareEntries_eq : ∀ entries : List (String × Item D), bareEntries entries = entries.map (fun e => (e.1, e.2.bare))
  | [] => rfl
  | (key, item) :: rest => by rw [bareEntries, bareEntries_eq rest, List.map_cons]

theorem bareTables_eq : ∀ tables : List (D × List (String × Item D)),
    bareTables tables = tables.map (fun t => ((), bareEntries t.2))
  | [] => rfl
  | (decor, entries) :: rest => by rw [bareTables, bareTables_eq rest, List.map_cons]

mutual

/-- **Formatting is not data.** -/
theorem Item.data_bare : ∀ item : Item D, item.bare.data = item.data
  | .value _ v => rfl
  | .arrayOfTables tables => by rw [Item.bare, Item.data, Item.data, tablesData_bare tables]
  | .table _ entries => by rw [Item.bare, Item.data, Item.data, entriesData_bare entries]

theorem tablesData_bare : ∀ tables : List (D × List (String × Item D)), tablesData (bareTables tables) = tablesData tables
  | [] => rfl
  | (_, entries) :: rest => by
    rw [bareTables, tablesData, tablesData, entriesData_bare entries, tablesData_bare rest]

theorem entriesData_bare : ∀ entries : List (String × Item D), entriesData (bareEntries entries) = entriesData entries
  | [] => rfl
  | (key, item) :: rest => by
    rw [bareEntries, entriesData, entriesData, Item.data_bare item, entriesData_bare rest]

end

mutual

theorem Item.bare_unit : ∀ item : Item Unit, item.bare = item
  | .value _ v => rfl
  | .arrayOfTables tables => by rw [Item.bare, bareTables_unit tables]
  | .table _ entries => by rw [Item.bare, bareEntries_unit entries]

theorem bareTables_unit : ∀ tables : List (Unit × List (String × Item Unit)), bareTables tables = tables
  | [] => rfl
  | (_, entries) :: rest => by rw [bareTables, bareEntries_unit entries, bareTables_unit rest]

theorem bareEntries_unit : ∀ entries : List (String × Item Unit), bareEntries entries = entries
  | [] => rfl
  | (key, item) :: rest => by rw [bareEntries, Item.bare_unit item, bareEntries_unit rest]

end

/-! ## Unique keys -/

/-- **Keys are unique in every table.** -/
inductive Keyed : Item D → Prop where
  | value (decor : D) (v : Data) : Keyed (.value decor v)
  | arrayOfTables {tables : List (D × List (String × Item D))} (hnodup : ∀ t ∈ tables, (t.2.map Prod.fst).Nodup)
      (hitems : ∀ t ∈ tables, ∀ key item, (key, item) ∈ t.2 → Keyed item) : Keyed (.arrayOfTables tables)
  | table {decor : D} {entries : List (String × Item D)} (hnodup : (entries.map Prod.fst).Nodup)
      (hitems : ∀ key item, (key, item) ∈ entries → Keyed item) : Keyed (.table decor entries)

theorem Keyed.empty (decor : D) : Keyed (.table decor []) := .table List.nodup_nil (fun _ _ hmem => nomatch hmem)

theorem Keyed.nodup {decor : D} {entries : List (String × Item D)} (h : Keyed (.table decor entries)) :
    (entries.map Prod.fst).Nodup := by
  cases h with
  | table hnodup => exact hnodup

theorem Keyed.items {decor : D} {entries : List (String × Item D)} (h : Keyed (.table decor entries)) {key : String}
    {item : Item D} (hmem : (key, item) ∈ entries) : Keyed item := by
  cases h with
  | table _ hitems => exact hitems key item hmem

theorem Keyed.cons {decor : D} {entries : List (String × Item D)} {key : String} {item : Item D}
    (hkey : key ∉ entries.map Prod.fst) (hitem : Keyed item) (h : Keyed (.table decor entries)) :
    Keyed (.table decor ((key, item) :: entries)) := by
  refine .table (List.nodup_cons.2 ⟨hkey, h.nodup⟩) (fun key' item' hmem => ?_)
  rcases List.mem_cons.1 hmem with heq | hmem
  · cases heq
    exact hitem
  · exact h.items hmem

theorem Keyed.tables {tables : List (D × List (String × Item D))} (h : ∀ t ∈ tables, Keyed (.table t.1 t.2)) :
    Keyed (.arrayOfTables tables) :=
  .arrayOfTables (fun t ht => (h t ht).nodup) (fun t ht _ _ hmem => (h t ht).items hmem)

theorem keys_bareEntries (entries : List (String × Item D)) : (bareEntries entries).map Prod.fst = entries.map Prod.fst := by
  rw [bareEntries_eq, List.map_map]
  rfl

theorem mem_bareEntries {entries : List (String × Item D)} {key : String} {item : Item Unit}
    (h : (key, item) ∈ bareEntries entries) : ∃ i, (key, i) ∈ entries ∧ i.bare = item := by
  rw [bareEntries_eq, List.mem_map] at h
  obtain ⟨e, hmem, heq⟩ := h
  cases heq
  exact ⟨e.2, hmem, rfl⟩

theorem Keyed.bare {item : Item D} (h : Keyed item) : Keyed item.bare := by
  induction h with
  | value decor v => exact .value () v
  | @arrayOfTables tables hnodup _ ih =>
    rw [Item.bare, bareTables_eq]
    refine .arrayOfTables (fun t ht => ?_) (fun t ht key item hmem => ?_)
    · obtain ⟨t', ht', rfl⟩ := List.mem_map.1 ht
      rw [keys_bareEntries]
      exact hnodup t' ht'
    · obtain ⟨t', ht', rfl⟩ := List.mem_map.1 ht
      obtain ⟨i, hi, rfl⟩ := mem_bareEntries hmem
      exact ih t' ht' key i hi
  | @table decor entries hnodup _ ih =>
    rw [Item.bare]
    refine .table ?_ (fun key item hmem => ?_)
    · rwa [keys_bareEntries]
    · obtain ⟨i, hi, rfl⟩ := mem_bareEntries hmem
      exact ih key i hi

/-- A document: its root table. -/
structure Document (D : Type) where
  decor : D
  entries : List (String × Item D)
  keyed : Keyed (.table decor entries)

def Document.root (doc : Document D) : Item D := .table doc.decor doc.entries

theorem Document.keyed_root (doc : Document D) : Keyed doc.root := doc.keyed

theorem Document.root_injective {a b : Document D} (h : a.root = b.root) : a = b := by
  obtain ⟨decor, entries, keyed⟩ := a
  obtain ⟨decor', entries', keyed'⟩ := b
  cases h
  rfl

/-! ## Paths -/

/-- The item at a path. -/
def Item.get : Item D → List String → Option (Item D)
  | item, [] => some item
  | .table _ entries, key :: rest =>
    match entries.lookup key with
    | none => none
    | some item => item.get rest
  | _, _ :: _ => none

/-- The path runs into an item that is not a table. -/
def Item.blocks : Item D → List String → Bool
  | _, [] => false
  | .table _ entries, key :: rest =>
    match entries.lookup key with
    | none => false
    | some item => item.blocks rest
  | _, _ :: _ => true

theorem Item.get_table_cons (decor : D) (entries : List (String × Item D)) (key : String) (rest : List String) :
    (Item.table decor entries).get (key :: rest) = (entries.lookup key).bind (fun item => item.get rest) := by
  rw [Item.get]
  cases entries.lookup key <;> rfl

theorem Item.get_of_not_table {item : Item D} (h : item.isTable = false) (key : String) (rest : List String) :
    item.get (key :: rest) = none := by
  cases item with
  | table decor entries => cases h
  | value | arrayOfTables => rfl

theorem Item.blocks_of_not_table {item : Item D} (h : item.isTable = false) (key : String) (rest : List String) :
    item.blocks (key :: rest) = true := by
  cases item with
  | table decor entries => cases h
  | value | arrayOfTables => rfl

theorem Item.blocks_table_cons (decor : D) (entries : List (String × Item D)) (key : String) (rest : List String) :
    (Item.table decor entries).blocks (key :: rest) = (entries.lookup key).any (fun item => item.blocks rest) := by
  rw [Item.blocks]
  cases entries.lookup key <;> rfl

theorem Item.get_nil (item : Item D) : item.get [] = some item := by
  cases item <;> rfl

theorem Item.blocks_nil (item : Item D) : item.blocks [] = false := by
  cases item <;> rfl

theorem Item.get_of_blocks : ∀ {path : List String} {item : Item D}, item.blocks path = true → item.get path = none
  | [], item, h => by
    rw [Item.blocks_nil] at h
    cases h
  | key :: rest, item, h => by
    cases item with
    | value | arrayOfTables => rfl
    | table decor entries =>
      rw [Item.blocks_table_cons] at h
      rw [Item.get_table_cons]
      cases hkey : entries.lookup key with
      | none => rfl
      | some item =>
        rw [hkey] at h
        exact Item.get_of_blocks h

theorem Item.blocks_of_get {path : List String} {item i : Item D} (h : item.get path = some i) :
    item.blocks path = false := by
  rw [← Bool.not_eq_true]
  intro hblocks
  rw [Item.get_of_blocks hblocks] at h
  cases h

theorem Item.blocks_append {i : Item D} {r : List String} (hr : r ≠ []) (hi : i.isTable = false) :
    ∀ {q : List String} {item : Item D}, item.get q = some i → item.blocks (q ++ r) = true
  | [], item, hget => by
    rw [Item.get_nil, Option.some.injEq] at hget
    obtain ⟨key, rest, rfl⟩ := List.exists_cons_of_ne_nil hr
    rw [List.nil_append, hget]
    exact Item.blocks_of_not_table hi key rest
  | key :: q, item, hget => by
    cases item with
    | value | arrayOfTables => cases hget
    | table decor entries =>
      rw [Item.get_table_cons] at hget
      obtain ⟨next, hnext, hget⟩ := Option.bind_eq_some_iff.1 hget
      rw [List.cons_append, Item.blocks_table_cons, hnext]
      exact Item.blocks_append hr hi hget

theorem Item.exists_of_blocks : ∀ {path : List String} {item : Item D}, item.blocks path = true →
    ∃ q r, path = q ++ r ∧ r ≠ [] ∧ ∃ i, item.get q = some i ∧ i.isTable = false
  | [], item, h => by
    rw [Item.blocks_nil] at h
    cases h
  | key :: rest, item, h => by
    cases item with
    | value | arrayOfTables => exact ⟨[], key :: rest, rfl, List.cons_ne_nil _ _, _, Item.get_nil _, rfl⟩
    | table decor entries =>
      rw [Item.blocks_table_cons] at h
      obtain ⟨next, hnext, hblocks⟩ := (Option.any_eq_true _ _).1 h
      obtain ⟨q, r, rfl, hr, i, hget, hi⟩ := Item.exists_of_blocks hblocks
      refine ⟨key :: q, r, rfl, hr, i, ?_, hi⟩
      rw [Item.get_table_cons, hnext]
      exact hget

/-- **What blocks a path is an item on the way that is not a table.** -/
theorem Item.blocks_iff {item : Item D} {path : List String} : item.blocks path = true ↔
    ∃ q r, path = q ++ r ∧ r ≠ [] ∧ ∃ i, item.get q = some i ∧ i.isTable = false := by
  constructor
  · exact Item.exists_of_blocks
  · rintro ⟨q, r, rfl, hr, i, hget, hi⟩
    exact Item.blocks_append hr hi hget

end TomlTree
