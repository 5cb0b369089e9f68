import Mathlib.Data.Finset.Lattice.Fold
import Mathlib.Data.Fintype.Basic
/-!
# SharedCell — parties that join what they hold through one cell

Each party holds a value of a join-semilattice and contributes one of its own.  A visit reads the cell, joins it and the
contribution to what the party holds, and leaves the result in the cell.  Visits keep the join of everything
(`total_visits`): once every party has visited, the cell is that join (`cell_visits`), and once every party has visited
again, so is what each of them holds (`held_visits`).
-/

/-- A cell, what each party holds, and what it contributes at every visit. -/
@[ext] structure SharedCell (ι α : Type*) where
  cell : α
  held : ι → α
  own : ι → α

namespace SharedCell

variable {ι α : Type*}

section Visits

variable [SemilatticeSup α]

/-- What party `i` makes of the cell. -/
def joined (s : SharedCell ι α) (i : ι) : α := s.held i ⊔ s.cell ⊔ s.own i

theorem cell_le_joined (s : SharedCell ι α) (i : ι) : s.cell ≤ s.joined i := le_sup_of_le_left le_sup_right

theorem held_le_joined (s : SharedCell ι α) (i : ι) : s.held i ≤ s.joined i := le_sup_of_le_left le_sup_left

theorem own_le_joined (s : SharedCell ι α) (i : ι) : s.own i ≤ s.joined i := le_sup_right

variable [DecidableEq ι]

/-- **Party `i` visits the cell.** -/
def visit (s : SharedCell ι α) (i : ι) : SharedCell ι α :=
  { s with cell := s.joined i, held := Function.update s.held i (s.joined i) }

def visits (s : SharedCell ι α) (is : List ι) : SharedCell ι α := is.foldl visit s

theorem held_visit_self (s : SharedCell ι α) (i : ι) : (s.visit i).held i = s.joined i := Function.update_self ..

theorem held_visit_of_ne (s : SharedCell ι α) {i j : ι} (h : j ≠ i) : (s.visit i).held j = s.held j :=
  Function.update_of_ne h ..

theorem held_le_visit (s : SharedCell ι α) (i j : ι) : s.held j ≤ (s.visit i).held j := by
  by_cases h : j = i
  · subst h
    rw [held_visit_self]
    exact s.held_le_joined j
  · rw [s.held_visit_of_ne h]

theorem cell_le_visits : ∀ (is : List ι) (s : SharedCell ι α), s.cell ≤ (s.visits is).cell
  | [], _ => le_rfl
  | i :: is, s => (s.cell_le_joined i).trans (cell_le_visits is (s.visit i))

/-- A visit leaves in the cell what the party held and contributes, also when others visited before. -/
theorem held_own_le_visits {i : ι} : ∀ {is : List ι} (s : SharedCell ι α), i ∈ is →
    s.held i ≤ (s.visits is).cell ∧ s.own i ≤ (s.visits is).cell
  | j :: is, s, hmem => by
    by_cases hij : j = i
    · subst hij
      have hcell := cell_le_visits is (s.visit j)
      exact ⟨(s.held_le_joined j).trans hcell, (s.own_le_joined j).trans hcell⟩
    · have hrest := held_own_le_visits (s.visit j) ((List.mem_cons.1 hmem).resolve_left (Ne.symm hij))
      exact ⟨(s.held_le_visit j i).trans hrest.1, hrest.2⟩

theorem held_visits_of_notMem {i : ι} : ∀ {is : List ι} (s : SharedCell ι α), i ∉ is → (s.visits is).held i = s.held i
  | [], _, _ => rfl
  | j :: is, s, hnot => by
    rw [List.mem_cons, not_or] at hnot
    exact (held_visits_of_notMem (s.visit j) hnot.2).trans (s.held_visit_of_ne hnot.1)

end Visits

section Total

variable [SemilatticeSup α] [OrderBot α] [Fintype ι]

/-- The join of the cell and of what every party holds and contributes. -/
def total (s : SharedCell ι α) : α := s.cell ⊔ Finset.univ.sup (fun i => s.held i ⊔ s.own i)

theorem total_le_iff {s : SharedCell ι α} {a : α} :
    s.total ≤ a ↔ s.cell ≤ a ∧ ∀ i, s.held i ≤ a ∧ s.own i ≤ a := by
  simp [total, Finset.sup_le_iff]

theorem cell_le_total (s : SharedCell ι α) : s.cell ≤ s.total := (total_le_iff.1 le_rfl).1

theorem held_le_total (s : SharedCell ι α) (i : ι) : s.held i ≤ s.total := ((total_le_iff.1 le_rfl).2 i).1

theorem own_le_total (s : SharedCell ι α) (i : ι) : s.own i ≤ s.total := ((total_le_iff.1 le_rfl).2 i).2

theorem joined_le_total (s : SharedCell ι α) (i : ι) : s.joined i ≤ s.total :=
  sup_le (sup_le (s.held_le_total i) s.cell_le_total) (s.own_le_total i)

theorem joined_of_cell {s : SharedCell ι α} (hcell : s.cell = s.total) (i : ι) : s.joined i = s.total :=
  le_antisymm (s.joined_le_total i) (hcell.symm.le.trans (s.cell_le_joined i))

variable [DecidableEq ι]

/-- **A visit keeps the join of everything.** -/
theorem total_visit (s : SharedCell ι α) (i : ι) : (s.visit i).total = s.total := by
  have hheld : ∀ j, (s.visit i).held j ≤ s.total := by
    intro j
    by_cases h : j = i
    · subst h
      rw [held_visit_self]
      exact s.joined_le_total j
    · rw [s.held_visit_of_ne h]
      exact s.held_le_total j
  refine le_antisymm (total_le_iff.2 ⟨s.joined_le_total i, fun j => ⟨hheld j, s.own_le_total j⟩⟩)
    (total_le_iff.2 ⟨?_, fun j => ⟨?_, (s.visit i).own_le_total j⟩⟩)
  · exact (s.cell_le_joined i).trans (s.visit i).cell_le_total
  · exact (s.held_le_visit i j).trans ((s.visit i).held_le_total j)

theorem total_visits : ∀ (is : List ι) (s : SharedCell ι α), (s.visits is).total = s.total
  | [], _ => rfl
  | i :: is, s => (total_visits is (s.visit i)).trans (s.total_visit i)

/-- **Once every party has visited, the cell is the join of everything.** -/
theorem cell_visits {is : List ι} (s : SharedCell ι α) (hall : ∀ i, i ∈ is) : (s.visits is).cell = s.total :=
  le_antisymm ((s.visits is).cell_le_total.trans (total_visits is s).le)
    (total_le_iff.2 ⟨cell_le_visits is s, fun i => held_own_le_visits s (hall i)⟩)

/-- The cell stays the join of everything. -/
theorem cell_visits_of_cell {s : SharedCell ι α} (hcell : s.cell = s.total) (is : List ι) :
    (s.visits is).cell = (s.visits is).total :=
  le_antisymm (s.visits is).cell_le_total (((total_visits is s).trans hcell.symm).le.trans (cell_le_visits is s))

/-- **From a cell that is the join of everything, a visit brings the party up to it.** -/
theorem held_visits {i : ι} : ∀ {is : List ι} {s : SharedCell ι α}, s.cell = s.total → i ∈ is →
    (s.visits is).held i = s.total
  | j :: is, s, hcell, hmem => by
    by_cases hin : i ∈ is
    · exact (held_visits (cell_visits_of_cell hcell [j]) hin).trans (s.total_visit j)
    · obtain rfl := (List.mem_cons.1 hmem).resolve_right hin
      rw [visits, List.foldl_cons]
      exact ((held_visits_of_notMem (s.visit i) hin).trans (s.held_visit_self i)).trans (joined_of_cell hcell i)

end Total

end SharedCell
