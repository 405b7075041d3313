import QuickDevSkeleton.RadixTree.Termination

/-!
# The report of a walk

Following the digits of an index is looking the index up in the map that the tree stands for. So
the walk, if it ends, reports on the pages whose indices it gets to, in the order of the tree.
-/

namespace QuickDevSkeleton.RadixTree

open Foundations

/-! ### The path of an index -/

/-- The page that a pointer points to. -/
def Entry.page? : Entry → Option Page
  | .page p => some p
  | _ => none

/-- What the walk does with the page `e.2` at the index `e.1`. -/
def record (c : Config) (r : Report) (e : ℕ × Page) : Report :=
  let temp := radix_node_has_buffer (.page e.2)
  let r := if temp ≠ 0 then
      { r.print c (.page_index e.1) with
        buffer_head_count := toInt (r.buffer_head_count + temp) }
    else r
  { r with page_count := toInt (r.page_count + 1) }

section

variable {c : Config} {height index shift : ℕ} {e : Entry}

/-- The masked bits of the index are a digit of it. -/
lemma digit_eq (index height : ℕ) :
    (index >>> (height * c.RADIX_TREE_MAP_SHIFT)) &&& c.RADIX_TREE_MAP_MASK =
      index / c.RADIX_TREE_MAP_SIZE ^ height % c.RADIX_TREE_MAP_SIZE := by
  rw [Config.RADIX_TREE_MAP_MASK, c.map_size_eq, Nat.and_two_pow_sub_one_eq_mod,
    Nat.shiftRight_eq_div_pow, ← Nat.pow_mul, Nat.mul_comm]

/-- `shift` on the way down from level `height + 1`. -/
lemma shift_next (hle : (height + 1) * c.RADIX_TREE_MAP_SHIFT < 2 ^ 32) :
    toUint ((height + 1) * c.RADIX_TREE_MAP_SHIFT + 2 ^ 32 - c.RADIX_TREE_MAP_SHIFT) =
      height * c.RADIX_TREE_MAP_SHIFT := by
  rw [Nat.succ_mul] at hle ⊢
  rw [toUint, Nat.add_right_comm, Nat.add_sub_cancel, Nat.add_mod_right]
  exact Nat.mod_eq_of_lt (by omega)

/-- A descent from a well-formed subtree ends at the page that the digits of the index lead to,
or at none. -/
lemma descend_eq (hle : height * c.RADIX_TREE_MAP_SHIFT < 2 ^ 32)
    (hshift : ∀ k, height = k + 1 → shift = k * c.RADIX_TREE_MAP_SHIFT)
    (h : WellFormed c height e) :
    descend c index height shift e =
      (e.abs.get c.RADIX_TREE_MAP_SIZE height index).elim .null .page := by
  induction height generalizing e shift with
  | zero => cases e <;> first | rfl | cases h
  | succ height ih =>
    cases e with
    | null => rfl
    | page p => cases h
    | node h' slots =>
      obtain ⟨-, hslots⟩ := h
      have hdigit := digit_eq (c := c) index height
      have hlt : index / c.RADIX_TREE_MAP_SIZE ^ height % c.RADIX_TREE_MAP_SIZE <
          c.RADIX_TREE_MAP_SIZE := Nat.mod_lt _ c.map_size_pos
      have hnext : ∀ k, height = k + 1 →
          toUint (shift + 2 ^ 32 - c.RADIX_TREE_MAP_SHIFT) = k * c.RADIX_TREE_MAP_SHIFT := by
        rintro k rfl
        rw [hshift _ rfl]
        rw [Nat.succ_mul] at hle
        exact shift_next (Nat.lt_of_le_of_lt (Nat.le_add_right _ _) hle)
      have hdown := ih (by rw [Nat.succ_mul] at hle; omega) hnext (hslots _ hlt)
      rw [descend, hshift _ rfl, hdigit, Entry.abs, DigitTree.get]
      cases hslot : slots (index / c.RADIX_TREE_MAP_SIZE ^ height % c.RADIX_TREE_MAP_SIZE) with
      | null => simp [Entry.abs]
      | page p | node h'' slots' =>
        rw [hslot] at hdown
        rw [← hshift _ rfl]
        exact hdown

end

/-! ### What an iteration adds to the report -/

/-- The buffer heads of the pages. -/
def heads (L : List (ℕ × Page)) : ℤ :=
  (L.map fun e => radix_node_has_buffer (.page e.2)).sum

/-- The indices of the pages that have buffers. -/
def withBuffers (L : List (ℕ × Page)) : List ℕ :=
  (L.filter fun e => radix_node_has_buffer (.page e.2) ≠ 0).map Prod.fst

lemma mem_withBuffers {L : List (ℕ × Page)} {i : ℕ} :
    i ∈ withBuffers L ↔ ∃ p, (i, p) ∈ L ∧ radix_node_has_buffer (.page p) ≠ 0 := by
  simp [withBuffers]

/-- The count of the loop over the buffer heads. -/
lemma has_buffer_page (p : Page) : radix_node_has_buffer (.page p) = p.buffers.length := by
  have hfold : ∀ (l : List ℕ) (n : ℤ), l.foldl (fun k _ => k + 1) n = n + l.length := by
    intro l
    induction l with
    | nil => simp
    | cons b l ih =>
      intro n
      rw [List.foldl_cons, ih, List.length_cons]
      omega
  rw [radix_node_has_buffer, hfold, Int.zero_add]

lemma heads_nonneg (L : List (ℕ × Page)) : 0 ≤ heads L := by
  induction L with
  | nil => exact Int.le_refl 0
  | cons e L ih =>
    rw [heads] at ih
    rw [heads, List.map_cons, List.sum_cons, has_buffer_page]
    exact Int.add_nonneg (Int.natCast_nonneg _) ih

lemma toInt_add (x y : ℤ) : toInt (toInt x + y) = toInt (x + y) :=
  Int.bmod_add_bmod

/-- What the pages of a list add to a report. -/
lemma foldl_record {c : Config} (L : List (ℕ × Page)) (r : Report) {n m : ℤ}
    (hn : r.page_count = toInt n) (hm : r.buffer_head_count = toInt m) :
    (L.foldl (record c) r).page_count = toInt (n + L.length) ∧
      (L.foldl (record c) r).buffer_head_count = toInt (m + heads L) ∧
      (L.foldl (record c) r).lines = r.lines ++ (withBuffers L).map .page_index := by
  induction L generalizing r n m with
  | nil => simp [hn, hm, heads, withBuffers]
  | cons e L ih =>
    have hcount : (record c r e).page_count = toInt (n + 1) := by
      rw [← toInt_add, ← hn]
      simp only [record]
      split <;> rfl
    have hheads : (record c r e).buffer_head_count =
        toInt (m + radix_node_has_buffer (.page e.2)) := by
      rw [← toInt_add, ← hm]
      simp only [record]
      by_cases hzero : radix_node_has_buffer (.page e.2) = 0
      · rw [if_neg (not_not.mpr hzero), hzero, Int.add_zero, hm]
        exact (Int.bmod_bmod (x := m)).symm
      · rw [if_pos hzero]
    have hlines : (record c r e).lines = r.lines ++ (withBuffers [e]).map .page_index := by
      simp only [record, withBuffers]
      by_cases hzero : radix_node_has_buffer (.page e.2) = 0
      · simp [hzero]
      · simp [hzero, Report.print]
    obtain ⟨hn', hm', hl'⟩ := ih (record c r e) hcount hheads
    rw [List.foldl_cons]
    refine ⟨?_, ?_, ?_⟩
    · rw [hn', List.length_cons]
      congr 1
      omega
    · rw [hm', heads, heads, List.map_cons, List.sum_cons, Int.add_assoc]
    · have hsplit : withBuffers (e :: L) = withBuffers [e] ++ withBuffers L := by
        rw [withBuffers, withBuffers, withBuffers, ← List.map_append, ← List.filter_append]
        rfl
      rw [hl', hlines, hsplit, List.map_append, List.append_assoc]

/-! ### The whole walk -/

section

variable {c : Config} (T : PageTree c)

namespace PageTree

lemma shift_lt : T.height * c.RADIX_TREE_MAP_SHIFT < 2 ^ 32 := by
  have hle := T.height_le
  rw [Config.RADIX_TREE_MAX_PATH, c.index_bits_eq] at hle
  rcases c.long with hl | hl <;> rcases c.map_shift with hs | hs <;>
    rw [hl, hs] at hle <;> rw [hs] <;> omega

/-- The page at an index. -/
def lookup (index : ℕ) : Option Page :=
  T.node.abs.get c.RADIX_TREE_MAP_SIZE T.height index

lemma find_eq (index : ℕ) : find c index T.node = (T.lookup index).elim .null .page := by
  refine descend_eq T.shift_lt ?_ T.wellFormed
  intro k hk
  rw [hk, Nat.add_sub_cancel]

lemma visit_eq (r : Report) (index : ℕ) :
    visit c T.node r index =
      match T.lookup index with
      | none => r
      | some p => record c r (index, p) := by
  rw [visit, find_eq]
  cases T.lookup index with
  | none => rfl
  | some p => rfl

/-- The pages that the walk gets to. -/
def reached : List (ℕ × Page) :=
  T.pages.filter fun e => e.1 < 2 ^ 32

/-- The iterations of the walk are those for the pages that it gets to. -/
lemma foldl_visit (r : Report) :
    (List.range (max_index c T.node + 1)).foldl (visit c T.node) r =
      T.reached.foldl (record c) r := by
  have hmin : max_index c T.node + 1 = min (c.RADIX_TREE_MAP_SIZE ^ T.height) (2 ^ 32) := by
    have hpow : c.RADIX_TREE_MAP_SIZE ^ T.height = 2 ^ (T.height * c.RADIX_TREE_MAP_SHIFT) := by
      rw [c.map_size_eq, ← Nat.pow_mul, Nat.mul_comm]
    rw [max_index_eq, Nat.sub_add_cancel (Nat.two_pow_pos _), hpow]
    rcases Nat.le_total (T.height * c.RADIX_TREE_MAP_SHIFT) 32 with hle | hle
    · rw [Nat.min_eq_left hle, Nat.min_eq_left (Nat.pow_le_pow_right (by decide) hle)]
    · rw [Nat.min_eq_right hle, Nat.min_eq_right (Nat.pow_le_pow_right (by decide) hle)]
  rw [hmin, reached, pages, DigitTree.entries_filter, List.foldl_filterMap]
  congr 1
  funext r i
  rw [visit_eq, lookup]
  cases DigitTree.get c.RADIX_TREE_MAP_SIZE T.height T.node.abs i <;> rfl

/-- What the walk prints if it ends. -/
def printed : List Line :=
  (withBuffers T.reached).map .page_index ++
    [.summary T.addr (toInt T.reached.length) (toInt (heads T.reached))]

end PageTree

/-- A walk that ends has printed these lines. -/
lemma lines_of_returns {fuel : ℕ} {out : ℤ × List Line}
    (h : radix_tree_walk_through c fuel T.root = some out) : out.2 = T.printed := by
  change (walk c fuel T.node >>= _) = _ at h
  obtain ⟨r, hr, hout⟩ := Option.bind_eq_some_iff.mp h
  have hend := (walk_terminates_iff_bound T).mp ⟨fuel, by rw [hr]; rfl⟩
  have hrun := countLoop_returns (f := visit c T.node) hend ⟨0, 0, 0, []⟩
  rw [T.foldl_visit] at hrun
  obtain ⟨hn, hm, hl⟩ := foldl_record (c := c) T.reached ⟨0, 0, 0, []⟩ (n := 0) (m := 0) rfl rfl
  rw [countLoop_unique hr hrun] at hout
  cases hout
  change _ ++ _ = _
  rw [hl, hn, hm, Int.zero_add, Int.zero_add]
  rfl

/-- The lines report on all pages of the tree: a line for each index whose page has buffers, in
increasing order, then how many pages there are and how many buffer heads they have. -/
def ReportsAll (lines : List Line) : Prop :=
  ∃ is : List ℕ,
    lines = is.map .page_index ++ [.summary T.addr T.pages.length (heads T.pages)] ∧
      is.Pairwise (· < ·) ∧
      ∀ i, i ∈ is ↔ ∃ p, (i, p) ∈ T.pages ∧ radix_node_has_buffer (.page p) ≠ 0

/-- The walk ends, and reports on all pages. -/
def WalkReports : Prop :=
  ∃ fuel out, radix_tree_walk_through c fuel T.root = some out ∧ ReportsAll T out.2

/-! ### When the report is right -/

lemma toInt_of_small {z : ℤ} (h₀ : 0 ≤ z) (h : z < 2 ^ 31) : toInt z = z :=
  Int.bmod_eq_of_le (by omega) (by omega)

lemma lt_of_toInt {z : ℤ} (h : toInt z = z) : z < 2 ^ 31 := by
  rw [← h]
  exact Int.bmod_lt (by decide)

/-- An `int` is never more than the natural number it stands for. -/
lemma toInt_le {z : ℤ} (h₀ : 0 ≤ z) : toInt z ≤ z := by
  change z.bmod 4294967296 ≤ z
  rw [Int.bmod_def]
  split <;> omega

/-- A walk that is right about the number of pages has got to all of them. -/
lemma reached_of_count (h : toInt T.reached.length = T.pages.length) : T.reached = T.pages := by
  have hle := toInt_le (Int.natCast_nonneg T.reached.length)
  have hsub : T.reached.Sublist T.pages := List.filter_sublist
  exact hsub.eq_of_length_le (by omega)

lemma reached_eq_iff : T.reached = T.pages ↔ ∀ e ∈ T.pages, e.1 < 2 ^ 32 := by
  rw [PageTree.reached, List.filter_eq_self]
  simp only [decide_eq_true_eq]

lemma withBuffers_sorted : (withBuffers T.pages).Pairwise (· < ·) := by
  rw [withBuffers, List.pairwise_map]
  exact (DigitTree.entries_sorted _ _).filter _

/-- The lines that the walk prints are right if and only if it gets to all pages and both counts
are in the range of an `int`. -/
lemma printed_reportsAll_iff : ReportsAll T T.printed ↔
    (∀ e ∈ T.pages, e.1 < 2 ^ 32) ∧ T.pages.length < 2 ^ 31 ∧ heads T.pages < 2 ^ 31 := by
  rw [← reached_eq_iff]
  constructor
  · rintro ⟨is, hlines, -, -⟩
    rw [PageTree.printed] at hlines
    have hsummary := (List.append_inj' hlines (by simp only [List.length_singleton])).2
    simp only [List.cons.injEq, Line.summary.injEq, true_and, and_true] at hsummary
    obtain ⟨hcount, hheads⟩ := hsummary
    have hall := reached_of_count T hcount
    rw [hall] at hcount hheads
    have hlt := lt_of_toInt hcount
    exact ⟨hall, by omega, lt_of_toInt hheads⟩
  · rintro ⟨hall, hcount, hheads⟩
    refine ⟨withBuffers T.pages, ?_, withBuffers_sorted T, fun i => mem_withBuffers⟩
    rw [PageTree.printed, hall, toInt_of_small (Int.natCast_nonneg _) (by omega),
      toInt_of_small (heads_nonneg _) hheads]

/-- With 64-bit longs the walk ends, so that all depends on what it prints. -/
lemma walkReports_iff_printed (hlong : c.BITS_PER_LONG = 64) :
    WalkReports T ↔ ReportsAll T T.printed := by
  have hreturns : (∃ fuel, (radix_tree_walk_through c fuel T.root).isSome) ↔ True := by
    simp only [isSome_walk_through]
    rw [walk_terminates_iff_bound, max_index_lt_iff]
    exact iff_true_intro (Or.inl hlong)
  have hlines : ∀ fuel out, radix_tree_walk_through c fuel T.root = some out →
      (ReportsAll T out.2 ↔ ReportsAll T T.printed) := by
    intro fuel out hrun
    rw [lines_of_returns T hrun]
  rw [WalkReports, exists_result_iff hreturns hlines, true_and]

end

lemma map_shift_six : 6 = 4 ∨ 6 = 6 := Or.inr rfl

/-- 64-bit longs and 64 slots in a node. -/
def config64 : Config := ⟨64, 6, by decide, map_shift_six⟩

/-- The walk reports on all pages of a tree if and only if their indices are in the range of an
`unsigned int`, and their number and that of their buffer heads in the range of an `int`. -/
theorem walk_reports_iff (T : PageTree config64) : WalkReports T ↔
    (∀ e ∈ T.pages, e.1 < 2 ^ 32) ∧ T.pages.length < 2 ^ 31 ∧ heads T.pages < 2 ^ 31 := by
  rw [walkReports_iff_printed T rfl, printed_reportsAll_iff]

/-- The page at index `2 ^ 32`, in a tree of height 6. -/
def farTree : PageTree config64 :=
  .lone somePage 5 (2 ^ 32) (by decide) (by decide)

/-- The walk stops short of the only page. -/
theorem farTree_not_reported :
    farTree.pages.map Prod.fst = [2 ^ 32] ∧ farTree.printed = [.summary 8192 0 0] ∧
      ¬ WalkReports farTree := by
  have hpages : farTree.pages.map Prod.fst = [2 ^ 32] := by decide +kernel
  refine ⟨hpages, by decide +kernel, ?_⟩
  rw [walkReports_iff_printed farTree rfl, printed_reportsAll_iff]
  rintro ⟨hlt, -, -⟩
  have hmem : (2 ^ 32 : ℕ) ∈ farTree.pages.map Prod.fst := by rw [hpages]; decide
  obtain ⟨e, he, heq⟩ := List.mem_map.mp hmem
  have := hlt e he
  omega

end QuickDevSkeleton.RadixTree
