import Mathlib.Data.List.Basic
import Mathlib.Data.List.Nodup
import Mathlib.Logic.Function.Basic
/-!
# Places — things that move between queues

Things with keys lie in places, each place a queue.  A thing is taken out of a place (`remove`), put at the end of one
(`add`), or moved from one to another (`shift`).  `Apart` says that no two things have one key, wherever they lie; it is
kept by taking out and moving, and by adding a thing with a new key.
-/

/-- What lies in each place, in order. -/
abbrev Places (π α : Type*) := π → List α

namespace Places

variable {π α κ : Type*} [DecidableEq π] [DecidableEq α] {key : α → κ} {places : Places π α} {a b : α} {p q r : π}

def remove (places : Places π α) (a : α) (p : π) : Places π α := Function.update places p ((places p).erase a)

def add (places : Places π α) (p : π) (a : α) : Places π α := Function.update places p (places p ++ [a])

/-- `a` leaves `p` and goes to the end of `q`. -/
def shift (places : Places π α) (a : α) (p q : π) : Places π α := (places.remove a p).add q a

/-- **One thing to a key.** -/
structure Apart (key : α → κ) (places : Places π α) : Prop where
  nodup : ∀ p, ((places p).map key).Nodup
  apart : ∀ p q a b, a ∈ places p → b ∈ places q → key a = key b → p = q

omit [DecidableEq α] in
theorem mem_add : b ∈ places.add p a r ↔ (r = p ∧ b = a) ∨ b ∈ places r := by
  unfold add
  by_cases hr : r = p
  · subst hr
    rw [Function.update_self, List.mem_append, List.mem_singleton]
    constructor
    · rintro (h | h)
      · exact .inr h
      · exact .inl ⟨rfl, h⟩
    · rintro (⟨-, h⟩ | h)
      · exact .inr h
      · exact .inl h
  · rw [Function.update_of_ne hr]
    simp [hr]

theorem mem_of_mem_remove (h : b ∈ places.remove a p r) : b ∈ places r := by
  unfold remove at h
  by_cases hr : r = p
  · subst hr
    rw [Function.update_self] at h
    exact List.mem_of_mem_erase h
  · rwa [Function.update_of_ne hr] at h

/-- **Nothing else has the key of what was taken out.** -/
theorem Apart.key_ne (h : Apart key places) (ha : a ∈ places p) (hb : b ∈ places.remove a p r) : key b ≠ key a := by
  intro heq
  have hr : r = p := h.apart r p b a (mem_of_mem_remove hb) ha heq
  subst hr
  rw [remove, Function.update_self] at hb
  have hperm : ((places r).map key).Perm (key a :: ((places r).erase a).map key) := (List.perm_cons_erase ha).map key
  have hnodup := hperm.nodup_iff.1 (h.nodup r)
  exact (List.nodup_cons.1 hnodup).1 (heq ▸ List.mem_map_of_mem hb)

theorem Apart.remove (h : Apart key places) (a : α) (p : π) : Apart key (places.remove a p) := by
  refine ⟨fun r => ?_, fun r r' b b' hb hb' => h.apart r r' b b' (mem_of_mem_remove hb) (mem_of_mem_remove hb')⟩
  unfold Places.remove
  by_cases hr : r = p
  · subst hr
    rw [Function.update_self]
    exact List.Nodup.sublist (List.erase_sublist.map key) (h.nodup r)
  · rw [Function.update_of_ne hr]
    exact h.nodup r

omit [DecidableEq α] in
theorem Apart.add (h : Apart key places) (hnew : ∀ r b, b ∈ places r → key b ≠ key a) (p : π) :
    Apart key (places.add p a) := by
  refine ⟨fun r => ?_, fun r r' b b' hb hb' heq => ?_⟩
  · unfold Places.add
    by_cases hr : r = p
    · subst hr
      rw [Function.update_self, List.map_append, List.nodup_append]
      refine ⟨h.nodup r, List.nodup_singleton _, fun x hx y hy hxy => ?_⟩
      obtain ⟨b, hb, rfl⟩ := List.mem_map.1 hx
      exact hnew r b hb (hxy.trans (List.mem_singleton.1 hy))
    · rw [Function.update_of_ne hr]
      exact h.nodup r
  · rcases mem_add.1 hb with ⟨hr, rfl⟩ | hold
    · rcases mem_add.1 hb' with ⟨hr', -⟩ | hold'
      · exact hr.trans hr'.symm
      · exact absurd heq.symm (hnew r' b' hold')
    · rcases mem_add.1 hb' with ⟨hr', rfl⟩ | hold'
      · exact absurd heq (hnew r b hold)
      · exact h.apart r r' b b' hold hold' heq

theorem Apart.shift (h : Apart key places) (ha : a ∈ places p) (q : π) : Apart key (places.shift a p q) :=
  (h.remove a p).add (fun _ _ hb => h.key_ne ha hb) q

/-- **What lies where after a move**: the thing itself, in its new place, and the things of other keys as before. -/
theorem Apart.mem_shift (h : Apart key places) (ha : a ∈ places p) (hb : b ∈ places.shift a p q r) :
    (r = q ∧ b = a) ∨ (b ∈ places r ∧ key b ≠ key a) := by
  rcases mem_add.1 hb with hnew | hold
  · exact .inl hnew
  · exact .inr ⟨mem_of_mem_remove hold, h.key_ne ha hold⟩

end Places
