import Mathlib.Algebra.Ring.Nat
import Mathlib.Data.List.Basic

/-!
# Trees of digits

A tree whose nodes have one child for each digit to the base `b`, and whose leaves are all at one
depth `h`. It holds a partial map from the numbers below `b ^ h`: the digits of a number, the most
significant one first, are the path to what the number is mapped to.

`entries` lists the map by a traversal of the tree, `get` looks a number up. That they describe
one map is `entries_eq`.
-/

namespace Foundations

/-- A tree with contents in `α` at its leaves. -/
inductive DigitTree (α : Type*) where
  | empty
  | leaf (a : α)
  | node (child : ℕ → DigitTree α)

namespace DigitTree

variable {α : Type*} (b : ℕ)

/-- Look `i` up in a tree of depth `h`: descend by its digits. -/
def get : ℕ → DigitTree α → ℕ → Option α
  | 0, .leaf a, _ => some a
  | h + 1, .node child, i => get h (child (i / b ^ h % b)) i
  | _, _, _ => none

/-- The numbers that a tree of depth `h` holds, each with its content, in the order of the
tree. -/
def entries : ℕ → DigitTree α → List (ℕ × α)
  | 0, .leaf a => [(0, a)]
  | h + 1, .node child =>
    (List.range b).flatMap fun d => (entries h (child d)).map fun e => (d * b ^ h + e.1, e.2)
  | _, _ => []

@[simp] lemma get_empty (h i : ℕ) : get b h (.empty : DigitTree α) i = none := by
  cases h <;> rfl

@[simp] lemma entries_empty (h : ℕ) : entries b h (.empty : DigitTree α) = [] := by
  cases h <;> rfl

variable {b}

/-- Digits above the depth of the tree do not matter. -/
lemma get_add (hb : 0 < b) (h : ℕ) (t : DigitTree α) (d i : ℕ) :
    get b h t (d * b ^ h + i) = get b h t i := by
  induction h generalizing t d with
  | zero => cases t <;> rfl
  | succ h ih =>
    cases t with
    | empty | leaf => rfl
    | node child =>
      have hsum : d * b ^ (h + 1) + i = d * b * b ^ h + i := by
        rw [Nat.pow_succ, Nat.mul_comm (b ^ h) b, Nat.mul_assoc]
      have hdigit : (d * b * b ^ h + i) / b ^ h % b = i / b ^ h % b := by
        rw [Nat.mul_comm (d * b), Nat.mul_add_div (Nat.pow_pos hb), Nat.mul_comm d b,
          Nat.mul_add_mod]
      rw [hsum, get, get, hdigit, ih]

/-- The first digit of `d * b ^ h + i` is `d`, and the others are those of `i`. -/
lemma get_node (child : ℕ → DigitTree α) {h d i : ℕ} (hd : d < b) (hi : i < b ^ h) :
    get b (h + 1) (.node child) (d * b ^ h + i) = get b h (child d) i := by
  have hb : 0 < b := Nat.zero_lt_of_lt hd
  have hdigit : (d * b ^ h + i) / b ^ h % b = d := by
    rw [Nat.mul_comm d, Nat.mul_add_div (Nat.pow_pos hb), Nat.div_eq_of_lt hi, Nat.add_zero,
      Nat.mod_eq_of_lt hd]
  rw [get, hdigit, get_add hb]

/-- The numbers below `n * k` by their quotient and their remainder by `k`. -/
lemma range_mul (n k : ℕ) :
    List.range (n * k) = (List.range n).flatMap fun d => (List.range k).map (d * k + ·) := by
  induction n with
  | zero => simp
  | succ n ih =>
    rw [Nat.succ_mul, List.range_add, ih, List.range_succ, List.flatMap_append,
      List.flatMap_singleton]

/-- The traversal of a tree finds what the lookups of all numbers find, in their order. -/
theorem entries_eq (h : ℕ) (t : DigitTree α) :
    entries b h t = (List.range (b ^ h)).filterMap fun i => (get b h t i).map (i, ·) := by
  induction h generalizing t with
  | zero => cases t <;> rfl
  | succ h ih =>
    cases t with
    | empty | leaf => simp [entries, get]
    | node child =>
      rw [entries, Nat.pow_succ, Nat.mul_comm, range_mul, List.filterMap_flatMap]
      refine List.flatMap_congr fun d hd => ?_
      rw [ih, List.map_filterMap, List.filterMap_map]
      refine List.filterMap_congr fun i hi => ?_
      rw [Function.comp, get_node child (List.mem_range.mp hd) (List.mem_range.mp hi),
        Option.map_map]
      rfl

/-- The entries come in the order of their numbers. -/
lemma entries_sorted (h : ℕ) (t : DigitTree α) :
    (entries b h t).Pairwise fun e e' => e.1 < e'.1 := by
  rw [entries_eq, List.pairwise_filterMap]
  refine List.pairwise_lt_range.imp fun {i j} hij e he e' he' => ?_
  obtain ⟨a, -, rfl⟩ := Option.map_eq_some_iff.mp he
  obtain ⟨a', -, rfl⟩ := Option.map_eq_some_iff.mp he'
  exact hij

/-- What the lookups of the numbers below `m` find, in a tree whose numbers may be larger. -/
lemma entries_filter (h : ℕ) (t : DigitTree α) (m : ℕ) :
    (entries b h t).filter (fun e => e.1 < m) =
      (List.range (min (b ^ h) m)).filterMap fun i => (get b h t i).map (i, ·) := by
  have hrange : List.range (min (b ^ h) m) = (List.range (b ^ h)).filter (· < m) := by
    rcases Nat.le_total (b ^ h) m with hle | hle
    · rw [Nat.min_eq_left hle, List.filter_eq_self.mpr]
      intro i hi
      exact decide_eq_true (Nat.lt_of_lt_of_le (List.mem_range.mp hi) hle)
    · obtain ⟨k, hk⟩ := Nat.exists_eq_add_of_le hle
      rw [Nat.min_eq_right hle, hk, List.range_add, List.filter_append, List.filter_eq_self.mpr,
        List.filter_eq_nil_iff.mpr, List.append_nil]
      · intro i hi
        obtain ⟨j, -, rfl⟩ := List.mem_map.mp hi
        simp
      · intro i hi
        exact decide_eq_true (List.mem_range.mp hi)
  rw [hrange, entries_eq, List.filter_filterMap, List.filterMap_filter]
  refine List.filterMap_congr fun i _ => ?_
  by_cases hi : i < m
  · cases get b h t i <;> simp [hi]
  · cases get b h t i <;> simp [hi, Nat.le_of_not_lt hi]

end DigitTree

end Foundations
