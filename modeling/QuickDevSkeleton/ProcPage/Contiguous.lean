import QuickDevSkeleton.ProcPage.ListBuffer

/-!
# What the report on buffers returns

Whether the numbers that `radix_tree_walk_through`, `set` and `list_buffer` return are those of the
characters that they have printed.
-/

namespace QuickDevSkeleton.ProcPage.ListBuffer

open Foundations RadixTree

/-- The walk comes to an end, and returns what it has printed: a page right at the root has no
buffers. -/
def Regular {c : Config} : Tree c → Prop
  | .empty => True
  | .direct p => p.buffers = []
  | .indirect T => c.BITS_PER_LONG = 64 ∨ T.height < c.RADIX_TREE_MAX_PATH

section

variable {c : Config}

lemma regular_iff (t : Tree c) : Regular t ↔ Ends t ∧ treeSkip t = 0 := by
  cases t with
  | empty => simp [Regular, Ends, treeSkip]
  | direct p => simp [Regular, Ends, treeSkip]
  | indirect T => simp [Regular, Ends, treeSkip]

lemma contiguous_iff {o : Printed UInt8} {n k a : ℕ} (h : o.Tally (2 ^ 32) n k a) :
    o.Contiguous ↔ k = 0 ∧ n < 2 ^ 31 := by
  rw [h.contiguous_iff]
  omega

variable {params : Parameters}

lemma setSkip_eq_zero_iff (fst : SuperBlock c) : setSkip c params fst = 0 ↔
    ∀ inode ∈ chosen c params fst.s_inodes, treeSkip inode.i_mapping.page_tree = 0 := by
  rw [setSkip, inodesSkip, List.sum_eq_zero_iff_forall_eq_nat, List.forall_mem_map]

lemma reportSkip_eq_zero_iff (get_fs_type : List UInt8 → Option (List (SuperBlock c))) :
    reportSkip c params get_fs_type = 0 ↔
      ∀ fst ∈ supers c params get_fs_type, setSkip c params fst = 0 := by
  rw [reportSkip, List.sum_eq_zero_iff_forall_eq_nat, List.forall_mem_map]

end

/-- A walk returns the number of characters that it has printed at the given place if and only if
it comes to an end, does not find a page with buffers right at the root, and the number is in the
range of an `int`; the functions that call it do if and only if all walks that they make do. -/
theorem returns_printed_iff (c : Config) (params : Parameters) :
    (∀ t : Tree c, (∃ fuel o, walk_through c fuel t = some o ∧ o.Contiguous) ↔
      Regular t ∧ treeSize t < 2 ^ 31) ∧
    (∀ fst : SuperBlock c, (∃ fuel o, set c params fuel fst = some o ∧ o.Contiguous) ↔
      (∀ inode ∈ chosen c params fst.s_inodes, Regular inode.i_mapping.page_tree) ∧
        setSize c params fst < 2 ^ 31) ∧
    (∀ get_fs_type : List UInt8 → Option (List (SuperBlock c)),
      (∃ fuel o, list_buffer c params get_fs_type fuel = some o ∧ o.Contiguous) ↔
        (∀ fst ∈ supers c params get_fs_type,
          ∀ inode ∈ chosen c params fst.s_inodes, Regular inode.i_mapping.page_tree) ∧
        reportSize c params get_fs_type < 2 ^ 31) := by
  refine ⟨fun t => ?_, fun fst => ?_, fun get_fs_type => ?_⟩
  · rw [exists_result_iff (walk_returns_iff t) fun _ _ h => contiguous_iff (tally_walk h),
      regular_iff, and_assoc]
  · rw [exists_result_iff (set_returns_iff fst) fun _ _ h => contiguous_iff (tally_set h).2,
      setSkip_eq_zero_iff]
    simp only [regular_iff, SetEnds, forall_and, and_assoc]
  · rw [exists_result_iff (list_buffer_returns_iff get_fs_type)
        fun _ _ h => contiguous_iff (tally_list_buffer h), reportSkip_eq_zero_iff]
    simp only [setSkip_eq_zero_iff, regular_iff, SetEnds, forall_and, and_assoc]

/-- A file of one page, with one buffer. -/
def smallFile : Inode config64 := ⟨4096, 8, [], ⟨1, .direct somePage⟩, []⟩

def smallSuper : SuperBlock config64 := ⟨[100], [smallFile]⟩

/-- For its page the walk returns 1 without a character, so that the totals start one place behind
the line of the inode, and `set` returns one more than there is. -/
theorem smallSuper_gap :
    walk_through config64 0 (.direct somePage) = some ⟨1, []⟩ ∧
      (set config64 {} 0 smallSuper).map
          (fun o => (o.ret, o.pieces.map fun q => (q.1, q.2.length))) =
        some (146, [(0, 12), (12, 42), (55, 30), (85, 61)]) ∧
      ¬ ∃ fuel o, set config64 {} fuel smallSuper = some o ∧ o.Contiguous := by
  refine ⟨by decide +kernel, by decide +kernel, ?_⟩
  rintro ⟨fuel, o, hset, ho⟩
  have hskip := ((contiguous_iff (tally_set hset).2).mp ho).1
  revert hskip
  decide +kernel

end QuickDevSkeleton.ProcPage.ListBuffer
