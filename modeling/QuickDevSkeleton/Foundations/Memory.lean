import Mathlib.Data.List.Basic

/-!
# Flat memory

A memory holds one cell at every address. `Memory.read` reads a block of consecutive cells
and `Memory.write` stores one; the lemmas say how the two interact, block by block, so that a
client never looks at a single address.
-/

namespace Foundations

/-- One cell of type `α` at every address. -/
abbrev Memory (α : Type*) := ℕ → α

namespace Memory

variable {α : Type*}

/-- The `n` cells from address `a` on, in address order. -/
def read (m : Memory α) (a n : ℕ) : List α :=
  (List.range' a n).map m

/-- Store the cells `bs` from address `a` on. -/
def write (m : Memory α) (a : ℕ) (bs : List α) : Memory α :=
  fun x => if a ≤ x then bs[x - a]?.getD (m x) else m x

@[simp] lemma length_read (m : Memory α) (a n : ℕ) : (m.read a n).length = n := by
  simp [read]

@[simp] lemma read_zero (m : Memory α) (a : ℕ) : m.read a 0 = [] := rfl

@[simp] lemma write_nil (m : Memory α) (a : ℕ) : m.write a [] = m := by
  funext x
  simp [write]

@[simp] lemma getElem_read (m : Memory α) (a n i : ℕ) (h : i < (m.read a n).length) :
    (m.read a n)[i] = m (a + i) := by
  simp [read]

/-- A block is read in two parts. -/
lemma read_add (m : Memory α) (a n k : ℕ) :
    m.read a (n + k) = m.read a n ++ m.read (a + n) k := by
  simp only [read, ← List.map_append, List.range'_append_1]

lemma take_read (m : Memory α) (a : ℕ) {n k : ℕ} (h : n ≤ k) :
    (m.read a k).take n = m.read a n := by
  obtain ⟨j, rfl⟩ := Nat.exists_eq_add_of_le h
  rw [read_add, List.take_left' (length_read m a n)]

lemma drop_read (m : Memory α) (a : ℕ) {n k : ℕ} (h : n ≤ k) :
    (m.read a k).drop n = m.read (a + n) (k - n) := by
  obtain ⟨j, rfl⟩ := Nat.exists_eq_add_of_le h
  rw [read_add, List.drop_left' (length_read m a n), Nat.add_sub_cancel_left]

/-- The part of a block from its cell `p` on, cut to `c` cells. -/
lemma take_drop_read (m : Memory α) (a c : ℕ) {p k : ℕ} (h : p ≤ k) :
    ((m.read a k).drop p).take c = m.read (a + p) (min c (k - p)) := by
  rw [drop_read m a h, List.take_eq_take_min, length_read, take_read _ _ (Nat.min_le_right _ _)]

/-- Reading depends on the cells of the block only. -/
lemma read_congr {m m' : Memory α} {a n : ℕ} (h : ∀ x, a ≤ x → x < a + n → m' x = m x) :
    m'.read a n = m.read a n := by
  apply List.map_congr_left
  intro x hx
  obtain ⟨h₁, h₂⟩ := List.mem_range'_1.mp hx
  exact h x h₁ h₂

/-- Two blocks are the same exactly if their cells are. -/
lemma read_eq_iff {m m' : Memory α} {a b n : ℕ} :
    m.read a n = m'.read b n ↔ ∀ i < n, m (a + i) = m' (b + i) := by
  constructor
  · intro h i hi
    have hget : (m.read a n)[i]? = (m'.read b n)[i]? := by rw [h]
    simpa [read, hi] using hget
  · intro h
    apply List.ext_getElem (by rw [length_read, length_read])
    intro i hi _
    rw [length_read] at hi
    rw [getElem_read, getElem_read, h i hi]

/-- A cell outside the stored block keeps its value. -/
lemma write_outside (m : Memory α) {a x : ℕ} {bs : List α} (h : x < a ∨ a + bs.length ≤ x) :
    m.write a bs x = m x := by
  rcases h with h | h
  · simp [write, Nat.not_le.mpr h]
  · have hlen : bs.length ≤ x - a := by omega
    simp [write, List.getElem?_eq_none hlen]

lemma write_inside (m : Memory α) {a i : ℕ} {bs : List α} (h : i < bs.length) :
    m.write a bs (a + i) = bs[i] := by
  simp [write, List.getElem?_eq_getElem h]

/-- Storing a block leaves every disjoint block alone. -/
lemma read_write_disjoint (m : Memory α) {a b n : ℕ} {bs : List α}
    (h : b + n ≤ a ∨ a + bs.length ≤ b) : (m.write a bs).read b n = m.read b n := by
  apply read_congr
  intro x h₁ h₂
  apply write_outside
  omega

/-- A stored block reads back. -/
lemma read_write_same (m : Memory α) (a : ℕ) (bs : List α) :
    (m.write a bs).read a bs.length = bs := by
  apply List.ext_getElem (by simp)
  intro i h₁ h₂
  rw [getElem_read, write_inside m h₂]

/-- Of a stored block, the first cells read back. -/
lemma read_write_prefix (m : Memory α) (a : ℕ) {bs : List α} {n : ℕ} (h : n ≤ bs.length) :
    (m.write a bs).read a n = bs.take n := by
  rw [← take_read _ a h, read_write_same]

end Memory

end Foundations
