import Mathlib.Data.Finmap
import Mathlib.Data.Finset.Sort
import Mathlib.Data.List.Lex
import Mathlib.Data.List.Sort
import Mathlib.Data.String.Basic
/-!
# Collections — sorted listings, iteration orders and timers

What a program does with hash sets and hash maps, said extensionally: a set is a `Finset`, a map is a `Finmap`, the
order in which a hash set is iterated is a value of `Iteration`, and collecting into a vector that is then sorted (and
deduplicated) is `sorted`, which the kernel can evaluate.
-/

/-- The elements of a set in ascending order.  Insertion sort, so that it reduces on concrete sets. -/
def sorted {α : Type*} [LinearOrder α] (s : Finset α) : List α :=
  Quot.liftOn s.1 (List.insertionSort (· ≤ ·)) (fun a b h => by
    apply List.Perm.eq_of_pairwise' (r := (· ≤ ·))
    · exact List.pairwise_insertionSort _ _
    · exact List.pairwise_insertionSort _ _
    · exact (List.perm_insertionSort _ _).trans (h.trans (List.perm_insertionSort _ _).symm))

theorem coe_sorted {α : Type*} [LinearOrder α] (s : Finset α) : (sorted s : Multiset α) = s.1 := by
  obtain ⟨⟨l⟩, hl⟩ := s
  exact Multiset.coe_eq_coe.2 (List.perm_insertionSort _ _)

@[simp] theorem mem_sorted {α : Type*} [LinearOrder α] {s : Finset α} {a : α} : a ∈ sorted s ↔ a ∈ s := by
  rw [← Multiset.mem_coe, coe_sorted, Finset.mem_val]

theorem nodup_sorted {α : Type*} [LinearOrder α] (s : Finset α) : (sorted s).Nodup := by
  rw [← Multiset.coe_nodup, coe_sorted]
  exact s.2

theorem length_sorted {α : Type*} [LinearOrder α] (s : Finset α) : (sorted s).length = s.card := by
  rw [← Multiset.coe_card, coe_sorted]
  rfl

theorem pairwise_sorted {α : Type*} [LinearOrder α] (s : Finset α) : (sorted s).Pairwise (· ≤ ·) := by
  obtain ⟨⟨l⟩, hl⟩ := s
  exact List.pairwise_insertionSort _ _

theorem sorted_sublist {α : Type*} [LinearOrder α] {s t : Finset α} (h : s ⊆ t) : (sorted s).Sublist (sorted t) := by
  refine List.sublist_of_subperm_of_pairwise ?_ (pairwise_sorted s) (pairwise_sorted t)
  rw [← Multiset.coe_le, coe_sorted, coe_sorted]
  exact Finset.val_le_iff.2 h

theorem sorted_filter {α : Type*} [LinearOrder α] (s : Finset α) (p : α → Prop) [DecidablePred p] :
    sorted (s.filter p) = (sorted s).filter p := by
  refine List.Perm.eq_of_pairwise' (r := (· ≤ ·)) (pairwise_sorted _) ((pairwise_sorted s).filter _) ?_
  rw [← Multiset.coe_eq_coe, coe_sorted, Finset.filter_val, ← coe_sorted, Multiset.filter_coe]

/-- The listing around an element: what is before it and the element are the listing of all up to it. -/
theorem sorted_split {α : Type*} [LinearOrder α] {s : Finset α} {x : α} (hx : x ∈ s) :
    ∃ a b, sorted s = a ++ x :: b ∧ x ∉ a ∧ sorted (s.filter (· ≤ x)) = a ++ [x] := by
  obtain ⟨a, b, heq⟩ := List.append_of_mem (mem_sorted.2 hx)
  have hpairwise := pairwise_sorted s
  have hnodup := nodup_sorted s
  rw [heq, List.pairwise_append, List.pairwise_cons] at hpairwise
  rw [heq, List.nodup_append, List.nodup_cons] at hnodup
  have ha : x ∉ a := fun h => hnodup.2.2 x h x List.mem_cons_self rfl
  refine ⟨a, b, heq, ha, ?_⟩
  have hbefore : a.filter (· ≤ x) = a :=
    List.filter_eq_self.2 (fun y hy => by simpa using hpairwise.2.2 y hy x List.mem_cons_self)
  have hafter : b.filter (· ≤ x) = [] := List.filter_eq_nil_iff.2 (fun y hy hle => by
    have hyx : y = x := le_antisymm (by simpa using hle) (hpairwise.2.1.1 y hy)
    exact hnodup.2.1.1 (hyx ▸ hy))
  rw [sorted_filter, heq, List.filter_append, List.filter_cons_of_pos (by simp), hbefore, hafter]

theorem take_sorted {α : Type*} [LinearOrder α] {s : Finset α} {x : α} (hx : x ∈ s) :
    (sorted s).take (s.filter (· ≤ x)).card = sorted (s.filter (· ≤ x)) := by
  obtain ⟨a, b, heq, -, hupto⟩ := sorted_split hx
  have hassoc : a ++ x :: b = a ++ [x] ++ b := by simp
  rw [← length_sorted, hupto, heq, hassoc, List.take_left]

/-- **An element is among the first ones listed exactly if there are not more up to it.** -/
theorem mem_take_sorted {α : Type*} [LinearOrder α] {s : Finset α} {x : α} (hx : x ∈ s) (n : Nat) :
    x ∈ (sorted s).take n ↔ (s.filter (· ≤ x)).card ≤ n := by
  obtain ⟨a, b, heq, ha, hupto⟩ := sorted_split hx
  rw [← length_sorted, hupto, heq, List.length_append, List.length_singleton]
  constructor
  · intro hmem
    by_contra hlt
    rw [List.take_append_of_le_length (by omega)] at hmem
    exact ha (List.mem_of_mem_take hmem)
  · intro hle
    rw [List.take_append, List.mem_append]
    refine .inr ?_
    obtain ⟨m, hm⟩ : ∃ m, n - a.length = m + 1 := ⟨n - a.length - 1, by omega⟩
    rw [hm, List.take_succ_cons]
    exact List.mem_cons_self

/-- **The order a hash set is iterated in**: some listing of the set, without repetition. -/
structure Iteration (α : Type*) where
  list : Finset α → List α
  perm : ∀ s, (list s : Multiset α) = s.1

def Iteration.ascending (α : Type*) [LinearOrder α] : Iteration α := ⟨sorted, coe_sorted⟩

/-- The order of the images under an injection. -/
def Iteration.along {α β : Type*} [LinearOrder β] (f : α → β) (hf : Function.Injective f) : Iteration α :=
  @Iteration.ascending α (LinearOrder.lift' f hf)

@[simp] theorem Iteration.mem_list {α : Type*} (o : Iteration α) {s : Finset α} {a : α} : a ∈ o.list s ↔ a ∈ s := by
  rw [← Multiset.mem_coe, o.perm, Finset.mem_val]

theorem Iteration.nodup_list {α : Type*} (o : Iteration α) (s : Finset α) : (o.list s).Nodup := by
  rw [← Multiset.coe_nodup, o.perm]
  exact s.2

/-- A finite map from keys to values of one type. -/
abbrev Dict (κ ν : Type*) := Finmap (fun _ : κ => ν)

namespace Dict

variable {κ ν : Type*} [DecidableEq κ]

theorem lookup_insert_ite (m : Dict κ ν) (k k' : κ) (v : ν) :
    (m.insert k v).lookup k' = if k' = k then some v else m.lookup k' := by
  by_cases h : k' = k
  · subst h; simp
  · simp [h]

theorem lookup_erase_ite (m : Dict κ ν) (k k' : κ) :
    (m.erase k).lookup k' = if k' = k then none else m.lookup k' := by
  by_cases h : k' = k
  · subst h; simp
  · simp [h]

theorem of_lookup_insert {m : Dict κ ν} {k k' : κ} {v v' : ν} (h : (m.insert k v).lookup k' = some v') :
    k' = k ∧ v = v' ∨ k' ≠ k ∧ m.lookup k' = some v' := by
  rw [lookup_insert_ite] at h
  split at h
  · exact .inl ⟨‹_›, Option.some.inj h⟩
  · exact .inr ⟨‹_›, h⟩

theorem of_lookup_erase {m : Dict κ ν} {k k' : κ} {v : ν} (h : (m.erase k).lookup k' = some v) :
    k' ≠ k ∧ m.lookup k' = some v := by
  rw [lookup_erase_ite] at h
  split at h
  · cases h
  · exact ⟨‹_›, h⟩

/-- `entry(k).or_insert(v)`: the value a key has stays. -/
def orInsert (m : Dict κ ν) (k : κ) (v : ν) : Dict κ ν := if k ∈ m then m else m.insert k v

@[simp] theorem mem_orInsert {m : Dict κ ν} {k k' : κ} {v : ν} : k' ∈ orInsert m k v ↔ k' = k ∨ k' ∈ m := by
  unfold orInsert
  split
  · rename_i h
    exact ⟨Or.inr, fun h' => by rcases h' with rfl | h' <;> assumption⟩
  · exact Finmap.mem_insert

theorem lookup_orInsert (m : Dict κ ν) (k k' : κ) (v : ν) :
    (orInsert m k v).lookup k' = (m.lookup k').or (if k' = k then some v else none) := by
  unfold orInsert
  split
  · rename_i hmem
    obtain ⟨w, hw⟩ := Finmap.mem_iff.1 hmem
    by_cases hk : k' = k
    · rw [hk, hw, Option.some_or]
    · rw [if_neg hk, Option.or_none]
  · rename_i hmem
    rw [lookup_insert_ite]
    by_cases hk : k' = k
    · rw [hk, if_pos rfl, if_pos rfl, Finmap.lookup_eq_none.2 hmem, Option.none_or]
    · rw [if_neg hk, if_neg hk, Option.or_none]

/-- The same keys with other values. -/
def mapValues {μ : Type*} (f : ν → μ) (m : Dict κ ν) : Dict κ μ where
  entries := m.entries.map (Sigma.map id (fun _ => f))
  nodupKeys := by
    rw [← Multiset.nodup_keys, Multiset.keys, Multiset.map_map]
    exact Multiset.nodup_keys.2 m.nodupKeys

/-- The keys whose value is at most a bound: the timers that are due. -/
def due (m : Dict κ Nat) (now : Nat) : Finset κ := m.keys.filter (fun k => ∃ t ∈ m.lookup k, t ≤ now)

theorem mem_due {m : Dict κ Nat} {now : Nat} {k : κ} : k ∈ due m now ↔ ∃ t, m.lookup k = some t ∧ t ≤ now := by
  simp only [due, Finset.mem_filter, Finmap.mem_keys, Option.mem_def]
  constructor
  · rintro ⟨-, h⟩; exact h
  · rintro ⟨t, ht, hle⟩; exact ⟨Finmap.mem_of_lookup_eq_some ht, t, ht, hle⟩

theorem mem_of_mem_due {m : Dict κ Nat} {now : Nat} {k : κ} (h : k ∈ due m now) : k ∈ m := by
  obtain ⟨t, ht, -⟩ := mem_due.1 h
  exact Finmap.mem_of_lookup_eq_some ht

def eraseAll (m : Dict κ ν) (ks : List κ) : Dict κ ν := ks.foldl (fun m k => m.erase k) m

@[simp] theorem mem_eraseAll (k : κ) : ∀ (ks : List κ) (m : Dict κ ν), k ∈ eraseAll m ks ↔ k ∉ ks ∧ k ∈ m
  | [], m => by simp [eraseAll]
  | k' :: ks, m => by
    have ih := mem_eraseAll k ks (m.erase k')
    simp only [eraseAll, List.foldl_cons] at ih ⊢
    rw [ih]
    simp only [Finmap.mem_erase, List.mem_cons, not_or]
    tauto

theorem lookup_eraseAll (k : κ) : ∀ (ks : List κ) (m : Dict κ ν),
    (eraseAll m ks).lookup k = if k ∈ ks then none else m.lookup k
  | [], m => by simp [eraseAll]
  | k' :: ks, m => by
    have ih := lookup_eraseAll k ks (m.erase k')
    simp only [eraseAll, List.foldl_cons] at ih ⊢
    rw [ih, lookup_erase_ite]
    by_cases hk : k = k' <;> simp [hk]

/-- `retain`: the entries that pass a test. -/
def retain (m : Dict κ ν) (p : κ → ν → Bool) : Dict κ ν where
  entries := m.entries.filter (fun e => p e.1 e.2)
  nodupKeys := by
    obtain ⟨⟨l⟩, h⟩ := m
    exact List.NodupKeys.sublist List.filter_sublist h

theorem lookup_retain (m : Dict κ ν) (p : κ → ν → Bool) (k : κ) :
    (retain m p).lookup k = (m.lookup k).filter (p k) := by
  refine Option.ext (fun v => ?_)
  rw [Option.filter_eq_some_iff, Finmap.lookup_eq_some_iff, Finmap.lookup_eq_some_iff, retain, Multiset.mem_filter]

/-- How many keys have the value. -/
def countOf [DecidableEq ν] (m : Dict κ ν) (v : ν) : Nat := (m.keys.filter (fun k => m.lookup k = some v)).card

section CountOf

variable [DecidableEq ν]

theorem mem_filter_keys {m : Dict κ ν} {v : ν} {k : κ} :
    k ∈ m.keys.filter (fun k => m.lookup k = some v) ↔ m.lookup k = some v := by
  rw [Finset.mem_filter, Finmap.mem_keys]
  exact ⟨And.right, fun h => ⟨Finmap.mem_of_lookup_eq_some h, h⟩⟩

theorem countOf_empty (v : ν) : countOf (∅ : Dict κ ν) v = 0 := by
  simp [countOf]

theorem countOf_insert {m : Dict κ ν} {k : κ} (h : m.lookup k = none) (v w : ν) :
    countOf (m.insert k v) w = countOf m w + [v].count w := by
  have hnot : k ∉ m.keys.filter (fun k => m.lookup k = some w) := fun hk => by
    cases h.symm.trans (mem_filter_keys.1 hk)
  by_cases hv : v = w
  · subst hv
    have heq : (m.insert k v).keys.filter (fun k' => (m.insert k v).lookup k' = some v) =
        insert k (m.keys.filter (fun k' => m.lookup k' = some v)) := by
      ext k'
      rw [Finset.mem_insert, mem_filter_keys, mem_filter_keys, lookup_insert_ite]
      split <;> simp_all
    rw [countOf, heq, Finset.card_insert_of_notMem hnot, List.count_singleton_self, countOf]
  · have heq : (m.insert k v).keys.filter (fun k' => (m.insert k v).lookup k' = some w) =
        m.keys.filter (fun k' => m.lookup k' = some w) := by
      ext k'
      rw [mem_filter_keys, mem_filter_keys, lookup_insert_ite]
      split
      · rename_i hk
        rw [hk, h]
        simp [hv]
      · exact Iff.rfl
    rw [countOf, heq, List.count_singleton, if_neg (by simpa using hv), countOf, Nat.add_zero]

theorem countOf_erase {m : Dict κ ν} {k : κ} {v : ν} (h : m.lookup k = some v) (w : ν) :
    countOf (m.erase k) w + [v].count w = countOf m w := by
  rw [← countOf_insert (Finmap.lookup_erase k m) v w]
  congr 1
  refine Finmap.ext_lookup (fun k' => ?_)
  rw [lookup_insert_ite, lookup_erase_ite]
  split
  · rename_i hk
    rw [hk, h]
  · rfl

/-- The values of all keys, in any order. -/
theorem count_filterMap_lookup (o : Iteration κ) (m : Dict κ ν) (v : ν) :
    ((o.list m.keys).filterMap m.lookup).count v = countOf m v := by
  have hlist : ∀ l : List κ, (l.filterMap m.lookup).count v = (l.filter (fun k => m.lookup k = some v)).length := fun l => by
    induction l with
    | nil => rfl
    | cons k l ih =>
      rw [List.filterMap_cons, List.filter_cons]
      cases hk : m.lookup k with
      | none => simpa using ih
      | some w =>
        rw [List.count_cons, ih]
        by_cases hw : w = v <;> simp [hw]
  rw [hlist, countOf, Finset.card_def, Finset.filter_val, ← o.perm, Multiset.filter_coe, Multiset.coe_card]

end CountOf

/-- Inserting a value at every key of a list that has none. -/
def orInsertAll (m : Dict κ ν) (ks : List κ) (v : ν) : Dict κ ν := ks.foldl (fun m k => orInsert m k v) m

@[simp] theorem mem_orInsertAll (k : κ) (v : ν) : ∀ (ks : List κ) (m : Dict κ ν),
    k ∈ orInsertAll m ks v ↔ k ∈ ks ∨ k ∈ m
  | [], m => by simp [orInsertAll]
  | k' :: ks, m => by
    have ih := mem_orInsertAll k v ks (orInsert m k' v)
    simp only [orInsertAll, List.foldl_cons] at ih ⊢
    rw [ih]
    simp only [mem_orInsert, List.mem_cons]
    tauto

theorem lookup_orInsertAll (k : κ) (v : ν) : ∀ (ks : List κ) (m : Dict κ ν),
    (orInsertAll m ks v).lookup k = (m.lookup k).or (if k ∈ ks then some v else none)
  | [], m => by simp [orInsertAll]
  | k' :: ks, m => by
    have ih := lookup_orInsertAll k v ks (orInsert m k' v)
    simp only [orInsertAll, List.foldl_cons] at ih ⊢
    rw [ih, lookup_orInsert, Option.or_assoc]
    by_cases hk : k = k' <;> simp [hk]

end Dict
