import Mathlib.Data.Finset.Max
import Mathlib.Data.List.Perm.Basic
/-!
# Newest — choosing the newest of a list in one pass

A pass over a list that keeps the newest item seen so far and gives up where it meets another item of the same version.
Items that are older than the one kept are passed over, also where they disagree among themselves: whether a disagreement
below the newest version is met depends on the order of the list.  `scan_perm_iff` says for which lists it does not
matter.
-/
namespace Newest

variable {α β : Type*} [DecidableEq α] [LinearOrder β] (version : α → β)

/-- The pass; `none` where two different items of one version met. -/
def scan : Option α → List α → Option (Option α)
  | best, [] => some best
  | none, a :: rest => scan (some a) rest
  | some c, a :: rest =>
    if version c < version a then scan (some a) rest
    else if version a = version c ∧ a ≠ c then none
    else scan (some c) rest

/-- Every other item is older. -/
def Top (items : List α) (c : α) : Prop := c ∈ items ∧ ∀ a ∈ items, version a < version c ∨ a = c

/-- Two items of one version differ. -/
def Clash (items : List α) : Prop := ∃ a ∈ items, ∃ b ∈ items, a ≠ b ∧ version a = version b

/-- Two items of the highest version differ. -/
def TopClash (items : List α) : Prop :=
  ∃ a ∈ items, ∃ b ∈ items, a ≠ b ∧ version a = version b ∧ ∀ c ∈ items, version c ≤ version a

section Scan

variable {version}

/-- **An item that all others are older than is kept.** -/
theorem scan_top {c : α} : ∀ {items : List α}, (∀ a ∈ items, version a < version c ∨ a = c) →
    scan version (some c) items = some (some c)
  | [], _ => rfl
  | a :: rest, h => by
    have hrest := scan_top (fun b hb => h b (List.mem_cons_of_mem _ hb))
    rcases h a List.mem_cons_self with hold | rfl
    · rw [scan, if_neg hold.not_gt, if_neg (fun heq => hold.ne heq.1), hrest]
    · rw [scan, if_neg (lt_irrefl _), if_neg (fun heq => heq.2 rfl), hrest]

/-- **What a pass ends with**: an item that all others are older than, or nothing where there was none. -/
theorem top_of_scan : ∀ {items : List α} {best result : Option α}, scan version best items = some result →
    (result = none ∧ best = none ∧ items = []) ∨ ∃ c, result = some c ∧ Top version (best.toList ++ items) c
  | [], best, result, h => by
    cases h
    cases best with
    | none => exact .inl ⟨rfl, rfl, rfl⟩
    | some c => exact .inr ⟨c, rfl, by simp [Top]⟩
  | a :: rest, none, result, h => by
    have hfirst : scan version (some a) rest = some result := h
    rcases top_of_scan hfirst with ⟨-, hnone, -⟩ | htop
    · cases hnone
    · exact .inr htop
  | a :: rest, some c, result, h => by
    -- the item kept is newer than the one left behind, or equal to it
    have hkept : ∀ kept left, version left < version kept ∨ left = kept →
        scan version (some kept) rest = some result →
        ∃ t, result = some t ∧ Top version (kept :: rest) t ∧ (version left < version t ∨ left = t) := by
      intro kept left hleft hscan
      rcases top_of_scan hscan with ⟨-, hnone, -⟩ | ⟨t, ht, htop⟩
      · cases hnone
      · refine ⟨t, ht, htop, ?_⟩
        rcases hleft with hleft | rfl
        · rcases htop.2 kept List.mem_cons_self with hlt | rfl
          · exact .inl (hleft.trans hlt)
          · exact .inl hleft
        · exact htop.2 left List.mem_cons_self
    rw [scan] at h
    split at h
    · rename_i hlt
      obtain ⟨t, ht, htop, hc⟩ := hkept a c (.inl hlt) h
      refine .inr ⟨t, ht, List.mem_cons_of_mem _ htop.1, fun b hb => ?_⟩
      rcases List.mem_cons.1 hb with rfl | hb
      · exact hc
      · exact htop.2 b hb
    split at h
    · cases h
    · rename_i hnot hsame
      have ha : version a < version c ∨ a = c := by
        rcases (not_lt.1 hnot).lt_or_eq with hlt | heq
        · exact .inl hlt
        · exact .inr (by_contra fun hne => hsame ⟨heq, hne⟩)
      obtain ⟨t, ht, htop, hat⟩ := hkept c a ha h
      refine .inr ⟨t, ht, ?_, fun b hb => ?_⟩
      · rcases List.mem_cons.1 htop.1 with rfl | hmem
        · exact List.mem_cons_self
        · exact List.mem_cons_of_mem _ (List.mem_cons_of_mem _ hmem)
      · rcases List.mem_cons.1 hb with rfl | hb
        · exact htop.2 b List.mem_cons_self
        · rcases List.mem_cons.1 hb with rfl | hb
          · exact hat
          · exact htop.2 b (List.mem_cons_of_mem _ hb)

/-- **Without a clash the pass does not give up.** -/
theorem scan_of_not_clash : ∀ {items : List α} {best : Option α}, ¬ Clash version (best.toList ++ items) →
    ∃ result, scan version best items = some result
  | [], best, _ => ⟨best, rfl⟩
  | a :: rest, none, h => @scan_of_not_clash rest (some a) h
  | a :: rest, some c, h => by
    have hfewer : ∀ kept, kept ∈ c :: a :: rest → ¬ Clash version (kept :: rest) := by
      rintro kept hkept ⟨x, hx, y, hy, hne, heq⟩
      have hmem : ∀ z ∈ kept :: rest, z ∈ c :: a :: rest := fun z hz => by
        rcases List.mem_cons.1 hz with rfl | hz
        · exact hkept
        · exact List.mem_cons_of_mem _ (List.mem_cons_of_mem _ hz)
      exact h ⟨x, hmem x hx, y, hmem y hy, hne, heq⟩
    rw [scan]
    split
    · exact @scan_of_not_clash rest (some a) (hfewer a (by simp))
    split
    · rename_i hsame
      exact absurd ⟨a, by simp, c, by simp, hsame.2, hsame.1⟩ h
    · exact @scan_of_not_clash rest (some c) (hfewer c (by simp))

omit [DecidableEq α] in
theorem Top.unique {items items' : List α} {c d : α} (hc : Top version items c) (hd : Top version items' d)
    (hmem : ∀ a, a ∈ items ↔ a ∈ items') : c = d := by
  rcases hd.2 c ((hmem c).1 hc.1) with hlt | heq
  · rcases hc.2 d ((hmem d).2 hd.1) with hlt' | heq'
    · exact absurd hlt hlt'.not_gt
    · exact heq'.symm
  · exact heq

/-- **A list has a top item or its highest version clashes.** -/
theorem not_top_iff {items : List α} (hne : items ≠ []) : (¬ ∃ c, Top version items c) ↔ TopClash version items := by
  constructor
  · intro hnone
    obtain ⟨c, hc, hmax⟩ := items.toFinset.exists_max_image version (List.toFinset_nonempty_iff items |>.2 hne)
    simp only [List.mem_toFinset] at hc hmax
    have hother : ∃ a ∈ items, ¬ (version a < version c ∨ a = c) := by
      by_contra hall
      exact hnone ⟨c, hc, fun a ha => by_contra fun hno => hall ⟨a, ha, hno⟩⟩
    obtain ⟨a, ha, hno⟩ := hother
    rw [not_or, not_lt] at hno
    have heq : version c = version a := le_antisymm hno.1 (hmax a ha)
    exact ⟨c, hc, a, ha, fun h => hno.2 h.symm, heq, hmax⟩
  · rintro ⟨a, ha, b, hb, hne, heq, hmax⟩ ⟨c, hc, htop⟩
    have hkept : ∀ x ∈ items, version x = version a → x = c := fun x hx hv => by
      rcases htop x hx with hlt | heq'
      · exact absurd (hmax c hc) (by rw [← hv]; exact hlt.not_ge)
      · exact heq'
    exact hne ((hkept a ha rfl).trans (hkept b hb heq.symm).symm)

/-- **Without a top item nothing is left at the end.** -/
theorem scan_of_not_top {items : List α} (hne : items ≠ []) (h : ¬ ∃ c, Top version items c) :
    scan version none items = none := by
  cases hscan : scan version none items with
  | none => rfl
  | some result =>
    rcases top_of_scan hscan with ⟨-, -, hnil⟩ | ⟨c, -, htop⟩
    · exact absurd hnil hne
    · exact absurd ⟨c, htop⟩ h

end Scan

/-! ## The order of the list -/

theorem exists_perm_cons {ρ : Type*} {l : List ρ} {a : ρ} (h : a ∈ l) : ∃ rest, l.Perm (a :: rest) := by
  obtain ⟨pre, post, rfl⟩ := List.append_of_mem h
  exact ⟨pre ++ post, List.perm_middle⟩

theorem exists_perm_cons_cons {ρ : Type*} {l : List ρ} {a b : ρ} (ha : a ∈ l) (hb : b ∈ l) (hne : b ≠ a) :
    ∃ rest, l.Perm (a :: b :: rest) := by
  obtain ⟨rest, hperm⟩ := exists_perm_cons ha
  have hrest : b ∈ rest := (List.mem_cons.1 (hperm.mem_iff.1 hb)).resolve_left hne
  obtain ⟨rest', hperm'⟩ := exists_perm_cons hrest
  exact ⟨rest', hperm.trans (hperm'.cons a)⟩

/-- **For which lists the order does not matter**: a clash of one version is met in every order or in none exactly when a
clash anywhere comes with one of the highest version.  The items are read from records, some of which hold none. -/
theorem scan_perm_iff {ρ : Type*} (read : ρ → Option α) (records : List ρ) :
    (∀ records', records.Perm records' →
      scan version none (records'.filterMap read) = scan version none (records.filterMap read)) ↔
    (Clash version (records.filterMap read) → TopClash version (records.filterMap read)) := by
  constructor
  · rintro hsame ⟨a, ha, b, hb, hne, heq⟩
    have hnil : records.filterMap read ≠ [] := List.ne_nil_of_mem ha
    refine (not_top_iff hnil).1 ?_
    rintro ⟨c, hc, htop⟩
    obtain ⟨rc, hrc, hreadc⟩ := List.mem_filterMap.1 hc
    obtain ⟨ra, hra, hreada⟩ := List.mem_filterMap.1 ha
    obtain ⟨rb, hrb, hreadb⟩ := List.mem_filterMap.1 hb
    -- with the top item first the pass keeps it
    obtain ⟨rest, hperm⟩ := exists_perm_cons hrc
    have hkeeps : scan version none (records.filterMap read) = some (some c) := by
      rw [← hsame _ hperm, List.filterMap_cons_some hreadc, scan]
      refine scan_top (fun x hx => htop x ?_)
      refine (hperm.filterMap read).mem_iff.2 ?_
      rw [List.filterMap_cons_some hreadc]
      exact List.mem_cons_of_mem _ hx
    -- with the two that clash first it gives up
    have hrab : rb ≠ ra := by
      rintro rfl
      exact hne (Option.some.inj (hreada.symm.trans hreadb))
    obtain ⟨rest', hperm'⟩ := exists_perm_cons_cons hra hrb hrab
    have hgives : scan version none (records.filterMap read) = none := by
      rw [← hsame _ hperm', List.filterMap_cons_some hreada, List.filterMap_cons_some hreadb, scan, scan,
        if_neg heq.not_lt, if_pos ⟨heq.symm, hne.symm⟩]
    rw [hkeeps] at hgives
    cases hgives
  · intro hclash records' hperm
    have hmem : ∀ a, a ∈ records'.filterMap read ↔ a ∈ records.filterMap read := fun a =>
      (hperm.filterMap read).mem_iff.symm
    have hnil : records'.filterMap read = [] ↔ records.filterMap read = [] := by
      simp only [List.eq_nil_iff_forall_not_mem, hmem]
    by_cases hc : Clash version (records.filterMap read)
    · -- no item is left at the end, in any order
      have ⟨a, ha, _⟩ := hc
      have hne : records.filterMap read ≠ [] := List.ne_nil_of_mem ha
      have htop : ¬ ∃ c, Top version (records.filterMap read) c := (not_top_iff hne).2 (hclash hc)
      have htop' : ¬ ∃ c, Top version (records'.filterMap read) c := by
        rintro ⟨c, hc, hall⟩
        exact htop ⟨c, (hmem c).1 hc, fun x hx => hall x ((hmem x).2 hx)⟩
      rw [scan_of_not_top hne htop, scan_of_not_top (hnil.not.2 hne) htop']
    · have hc' : ¬ Clash version (records'.filterMap read) := by
        rintro ⟨a, ha, b, hb, hab⟩
        exact hc ⟨a, (hmem a).1 ha, b, (hmem b).1 hb, hab⟩
      obtain ⟨result, hscan⟩ : ∃ result, scan version none (records.filterMap read) = some result :=
        scan_of_not_clash hc
      obtain ⟨result', hscan'⟩ : ∃ result, scan version none (records'.filterMap read) = some result :=
        scan_of_not_clash hc'
      rw [hscan, hscan']
      rcases top_of_scan hscan with ⟨rfl, -, hnil₁⟩ | ⟨c, rfl, htop⟩
      · rw [hnil.2 hnil₁] at hscan'
        exact hscan'.symm
      · rcases top_of_scan hscan' with ⟨-, -, hnil₂⟩ | ⟨c', rfl, htop'⟩
        · exact absurd (hnil.1 hnil₂) (List.ne_nil_of_mem htop.1)
        · rw [htop'.unique htop hmem]

end Newest
