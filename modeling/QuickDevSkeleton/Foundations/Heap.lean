import Mathlib.Data.Nat.Notation
import Mathlib.Logic.Function.Basic

/-!
# Heaps of numbered cells

A heap hands out each number once, so that a pointer to a freed cell never becomes valid
again. That the cells not handed out yet are empty is a field of the structure.
-/

namespace Foundations

/-- The cells in use, and the next number to hand out. -/
structure Heap (α : Type*) where
  cell : ℕ → Option α
  next : ℕ
  unused : ∀ p, next ≤ p → cell p = none

namespace Heap

variable {α : Type*} (h : Heap α)

def empty : Heap α where
  cell _ := none
  next := 0
  unused _ _ := rfl

/-- Put `a` into the next cell. -/
def alloc (a : α) : Heap α where
  cell := Function.update h.cell h.next (some a)
  next := h.next + 1
  unused p hp := by
    rw [Function.update_of_ne (Nat.ne_of_gt hp)]
    exact h.unused p (Nat.le_of_succ_le hp)

/-- Empty the cell `p`. -/
def free (p : ℕ) : Heap α where
  cell := Function.update h.cell p none
  next := h.next
  unused q hq := by
    by_cases hqp : q = p
    · rw [hqp, Function.update_self]
    · rw [Function.update_of_ne hqp]
      exact h.unused q hq

/-- Apply `f` to what the cell `p` holds. -/
def modify (p : ℕ) (f : α → α) : Heap α where
  cell := Function.update h.cell p ((h.cell p).map f)
  next := h.next
  unused q hq := by
    by_cases hqp : q = p
    · rw [hqp, Function.update_self, h.unused p (hqp ▸ hq), Option.map_none]
    · rw [Function.update_of_ne hqp]
      exact h.unused q hq

/-- Empty every cell whose content does not satisfy `f`. -/
def sweep (f : α → Bool) : Heap α where
  cell p := (h.cell p).filter f
  next := h.next
  unused p hp := by rw [h.unused p hp, Option.filter_none]

variable {p q : ℕ} (f : α → α)

@[simp] lemma cell_next : h.cell h.next = none :=
  h.unused _ (Nat.le_refl _)

@[simp] lemma cell_alloc (a : α) : (h.alloc a).cell h.next = some a :=
  Function.update_self _ _ _

lemma cell_alloc_of_ne (a : α) (hq : q ≠ h.next) : (h.alloc a).cell q = h.cell q :=
  Function.update_of_ne hq _ _

@[simp] lemma cell_free (p : ℕ) : (h.free p).cell p = none :=
  Function.update_self _ _ _

lemma cell_free_of_ne (hq : q ≠ p) : (h.free p).cell q = h.cell q :=
  Function.update_of_ne hq _ _

@[simp] lemma cell_modify (p : ℕ) (f : α → α) : (h.modify p f).cell p = (h.cell p).map f :=
  Function.update_self _ _ _

lemma cell_modify_of_ne (hq : q ≠ p) : (h.modify p f).cell q = h.cell q :=
  Function.update_of_ne hq _ _

/-- What a change keeps of a cell, it keeps of all of them. -/
lemma map_cell_modify {β : Type*} {g : α → β} (hg : ∀ a, g (f a) = g a) (q : ℕ) :
    ((h.modify p f).cell q).map g = (h.cell q).map g := by
  by_cases hqp : q = p
  · rw [hqp, cell_modify, Option.map_map, show g ∘ f = g from funext hg]
  · rw [h.cell_modify_of_ne f hqp]

/-- A cell that is freed again leaves the others as they were. -/
@[simp] lemma free_alloc (a : α) : ((h.alloc a).free h.next).cell = h.cell := by
  change Function.update (Function.update h.cell h.next (some a)) h.next none = h.cell
  rw [Function.update_idem, ← h.cell_next, Function.update_eq_self]

end Heap

end Foundations
