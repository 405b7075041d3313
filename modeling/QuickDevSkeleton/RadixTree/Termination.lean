import QuickDevSkeleton.RadixTree.Walk

/-!
# The bound of the walk

For each height, the bound on the index as the loop compares it, and whether an index can get
beyond it.
-/

namespace QuickDevSkeleton.RadixTree

open Foundations

namespace Config

variable (c : Config)

lemma index_bits_eq : c.RADIX_TREE_INDEX_BITS = c.BITS_PER_LONG := by
  rw [RADIX_TREE_INDEX_BITS]
  rcases c.long with h | h <;> rw [h]

lemma bits_ge : 32 ≤ c.BITS_PER_LONG := by
  rcases c.long with h | h <;> rw [h]
  decide

lemma map_size_eq : c.RADIX_TREE_MAP_SIZE = 2 ^ c.RADIX_TREE_MAP_SHIFT :=
  Nat.one_shiftLeft _

lemma map_size_pos : 0 < c.RADIX_TREE_MAP_SIZE := by
  rw [map_size_eq]
  exact Nat.two_pow_pos _

/-- `__maxindex` has the bits that the slots on a path select, as far as a `long` has them. -/
lemma maxindex_eq (height : ℕ) :
    c.maxindex height = 2 ^ min (height * c.RADIX_TREE_MAP_SHIFT) c.BITS_PER_LONG - 1 := by
  have hlong := c.bits_ge
  rw [maxindex, index_bits_eq, allOnes]
  split_ifs with hneg hall
  · rw [Nat.min_eq_right (by omega)]
  · rw [Nat.min_eq_left (by omega), show height * c.RADIX_TREE_MAP_SHIFT = 0 by omega]
    rfl
  · have hle : height * c.RADIX_TREE_MAP_SHIFT ≤ c.BITS_PER_LONG := by omega
    have hshift : ((c.BITS_PER_LONG : ℤ) - (height * c.RADIX_TREE_MAP_SHIFT : ℕ)).toNat =
        c.BITS_PER_LONG - height * c.RADIX_TREE_MAP_SHIFT := by omega
    rw [Nat.min_eq_left hle, hshift]
    refine Nat.eq_of_testBit_eq fun i => ?_
    rw [Nat.testBit_shiftRight, Nat.testBit_two_pow_sub_one, Nat.testBit_two_pow_sub_one]
    exact decide_eq_decide.mpr (by omega)

lemma radix_tree_maxindex_eq {height : ℕ} (h : height ≤ c.RADIX_TREE_MAX_PATH) :
    c.radix_tree_maxindex height = c.maxindex height := by
  rw [radix_tree_maxindex, radix_tree_init_maxindex, List.getD_eq_getElem?_getD,
    List.getElem?_map, List.getElem?_range (Nat.lt_succ_of_le h)]
  rfl

end Config

lemma toUint_two_pow_sub_one (k : ℕ) : toUint (2 ^ k - 1) = 2 ^ min k 32 - 1 := by
  refine Nat.eq_of_testBit_eq fun i => ?_
  rw [toUint, Nat.testBit_mod_two_pow, Nat.testBit_two_pow_sub_one, Nat.testBit_two_pow_sub_one,
    ← Bool.decide_and]
  exact decide_eq_decide.mpr (by omega)

section

variable {c : Config} (T : PageTree c)

/-- The loop compares the index with the largest one of the height, or with the largest
`unsigned int` if that is less. -/
lemma max_index_eq : max_index c T.node = 2 ^ min (T.height * c.RADIX_TREE_MAP_SHIFT) 32 - 1 := by
  change toUint (c.radix_tree_maxindex T.height) = _
  rw [c.radix_tree_maxindex_eq T.height_le, c.maxindex_eq, toUint_two_pow_sub_one, Nat.min_assoc,
    Nat.min_eq_right c.bits_ge]

/-- An index can get beyond the bound. -/
lemma max_index_lt_iff : max_index c T.node + 1 < 2 ^ c.BITS_PER_LONG ↔
    c.BITS_PER_LONG = 64 ∨ T.height < c.RADIX_TREE_MAX_PATH := by
  have hpos := Nat.two_pow_pos (min (T.height * c.RADIX_TREE_MAP_SHIFT) 32)
  rw [max_index_eq, Nat.sub_add_cancel hpos, Nat.pow_lt_pow_iff_right (by decide),
    Config.RADIX_TREE_MAX_PATH, c.index_bits_eq]
  rcases c.long with hl | hl <;> rcases c.map_shift with hs | hs <;> rw [hl, hs] <;> omega

/-! ### Whether the walk ends -/

lemma walk_terminates_iff_bound : (∃ fuel, (walk c fuel T.node).isSome) ↔
    max_index c T.node + 1 < 2 ^ c.BITS_PER_LONG :=
  countLoop_terminates_iff (Nat.two_pow_pos _) _

/-- The function returns if and only if its loop ends. -/
lemma isSome_walk_through (fuel : ℕ) :
    (radix_tree_walk_through c fuel T.root).isSome = (walk c fuel T.node).isSome := by
  change (walk c fuel T.node >>= _).isSome = _
  cases walk c fuel T.node <;> rfl

end

/-- The walk through a tree ends if and only if a `long` has 64 bits or the tree is not as high as
a tree can be. -/
theorem walk_through_terminates_iff {c : Config} (T : PageTree c) :
    (∃ fuel, (radix_tree_walk_through c fuel T.root).isSome) ↔
      c.BITS_PER_LONG = 64 ∨ T.height < c.RADIX_TREE_MAX_PATH := by
  simp only [isSome_walk_through]
  rw [walk_terminates_iff_bound, max_index_lt_iff]

/-! ### Trees with one page -/

/-- The nodes on the path of index `i`, with the page `p` at its end. -/
def lone (b : ℕ) (p : Page) : ℕ → ℕ → Entry
  | 0, _ => .page p
  | height + 1, i =>
    .node (height + 1) fun d => if d = i / b ^ height % b then lone b p height i else .null

lemma lone_wellFormed (c : Config) (b : ℕ) (p : Page) (height i : ℕ) :
    WellFormed c height (lone b p height i) := by
  induction height with
  | zero => trivial
  | succ height ih =>
    refine ⟨rfl, fun d _ => ?_⟩
    by_cases hd : d = i / b ^ height % b
    · simp only [if_pos hd]
      exact ih
    · simp only [if_neg hd]
      cases height <;> trivial

/-- Its only page is that of index `i`. -/
lemma mem_entries_lone {b : ℕ} {p : Page} {height i : ℕ} {e : ℕ × Page}
    (h : e ∈ (lone b p height i).abs.entries b height) : e = (i % b ^ height, p) := by
  induction height generalizing e with
  | zero =>
    rw [List.mem_singleton.mp h, Nat.pow_zero, Nat.mod_one]
  | succ height ih =>
    obtain ⟨d, -, hd⟩ := List.mem_flatMap.mp h
    obtain ⟨e', he', rfl⟩ := List.mem_map.mp hd
    beta_reduce at he'
    by_cases hdigit : d = i / b ^ height % b
    · rw [if_pos hdigit] at he'
      rw [ih he', hdigit, Nat.pow_succ, Nat.mod_mul, Nat.add_comm, Nat.mul_comm]
    · rw [if_neg hdigit, Entry.abs, DigitTree.entries_empty] at he'
      cases he'

/-- The tree of `height + 1` with one page. -/
def PageTree.lone {c : Config} (p : Page) (height i : ℕ) (hle : height + 1 ≤ c.RADIX_TREE_MAX_PATH)
    (hi : i < 2 ^ c.BITS_PER_LONG) : PageTree c where
  addr := 8192
  height := height + 1
  slots d :=
    if d = i / c.RADIX_TREE_MAP_SIZE ^ height % c.RADIX_TREE_MAP_SIZE then
      RadixTree.lone c.RADIX_TREE_MAP_SIZE p height i
    else .null
  positive := Nat.le_add_left 1 height
  height_le := hle
  wellFormed := lone_wellFormed c c.RADIX_TREE_MAP_SIZE p (height + 1) i
  indexed e he := by
    have heq : e = (i % c.RADIX_TREE_MAP_SIZE ^ (height + 1), p) := mem_entries_lone he
    rw [heq]
    exact Nat.lt_of_le_of_lt (Nat.mod_le _ _) hi

/-- 32-bit longs and 64 slots in a node. -/
def config32 : Config := ⟨32, 6, by decide, by decide⟩

/-- A page with one buffer head. -/
def somePage : Page := ⟨[4096], by decide⟩

/-- The page at index `2 ^ 31`, in a tree of the largest height. -/
def highTree : PageTree config32 :=
  .lone somePage 5 (2 ^ 31) (by decide) (by decide)

/-- With 32-bit longs the bound of the largest height is the largest index. -/
theorem highTree_walk_forever :
    ¬ ∃ fuel, (radix_tree_walk_through config32 fuel highTree.root).isSome := by
  simp only [isSome_walk_through]
  rw [walk_terminates_iff_bound, max_index_lt_iff]
  decide

end QuickDevSkeleton.RadixTree
