import QuickDevSkeleton.ProcPage.Inodes

/-!
# The report on cached pages

`memory/list_cache.c`: for every super block of a file system, the inodes with more pages than a
threshold.
-/

namespace QuickDevSkeleton.ProcPage.ListCache

open Foundations RadixTree ProcText

/-! ### The functions -/

structure Parameters where
  show_threshold : ℤ := 1000
  species : List UInt8 := ascii "ext3"

section

variable (c : Config) (params : Parameters)

/-- One iteration of the loop over the inodes: all of them are counted. -/
def set_inode (s : Listing) (temp_inode : Inode c) : Listing where
  ret :=
    if temp_inode.i_mapping.nrpages > toUlong c params.show_threshold then
      (s.ret.sprintf (2 ^ 32) (inode_line c temp_inode)).call (2 ^ 32) (show_dentry c temp_inode)
    else s.ret
  totals := s.totals.add c temp_inode

def set (fst : SuperBlock c) : Printed UInt8 :=
  let ret := Printed.sprintf (2 ^ 32) (.silent 0) (sid_line c fst)
  let s := fst.s_inodes.foldl (set_inode c params) ⟨ret, ⟨0, 0, 0⟩⟩
  s.totals.print c s.ret

def header_line : List UInt8 :=
  ascii "list super block of [" ++ params.species ++ ascii "]\n"

/-- One iteration of the loop over the super blocks. -/
def list_super (ret : Printed UInt8) (old : SuperBlock c) : Printed UInt8 :=
  if test old = 0 then ret else ret.call (2 ^ 32) (set c params old)

/-- `get_fs_type` finds the super blocks of a file system by its name. -/
def list_cache (get_fs_type : List UInt8 → Option (List (SuperBlock c))) : Printed UInt8 :=
  match get_fs_type params.species with
  | none => Printed.sprintf (2 ^ 32) (.silent 0) (not_found_line params.species)
  | some fs_supers =>
    fs_supers.foldl (list_super c params)
      (Printed.sprintf (2 ^ 32) (.silent 0) (header_line params))

/-! ### What there is to print -/

/-- The inodes that are shown. -/
def shown (inodes : List (Inode c)) : List (Inode c) :=
  inodes.filter fun inode => inode.i_mapping.nrpages > toUlong c params.show_threshold

def setSize (fst : SuperBlock c) : ℕ :=
  (sid_line c fst).length + ((shown c params fst.s_inodes).map (Inode.size c)).sum +
    totals_size c fst.s_inodes

def reportSize (get_fs_type : List UInt8 → Option (List (SuperBlock c))) : ℕ :=
  match get_fs_type params.species with
  | none => (not_found_line params.species).length
  | some fs_supers => (header_line params).length + (fs_supers.map (setSize c params)).sum

end

variable {c : Config} {params : Parameters} {n : ℕ}

lemma set_inode_totals (inodes : List (Inode c)) (s : Listing) :
    (inodes.foldl (set_inode c params) s).totals = inodes.foldl (Totals.add c) s.totals := by
  induction inodes generalizing s with
  | nil => rfl
  | cons inode inodes ih => exact ih _

/-- What the loop over the inodes prints. -/
lemma tally_inodes (inodes : List (Inode c)) {s : Listing} (hs : s.ret.Tally (2 ^ 32) n 0 0)
    (hstarts : s.ret.Starts) :
    (inodes.foldl (set_inode c params) s).ret.Starts ∧
      (inodes.foldl (set_inode c params) s).ret.Tally (2 ^ 32)
        (n + ((shown c params inodes).map (Inode.size c)).sum) 0 0 := by
  induction inodes generalizing s n with
  | nil => exact ⟨hstarts, hs⟩
  | cons inode inodes ih =>
    rw [List.foldl_cons, shown, List.filter_cons]
    by_cases hshown : inode.i_mapping.nrpages > toUlong c params.show_threshold
    · rw [if_pos (decide_eq_true hshown), List.map_cons, List.sum_cons, ← Nat.add_assoc]
      refine ih ?_ ?_
      · rw [set_inode, if_pos hshown]
        exact tally_inode hs inode
      · rw [set_inode, if_pos hshown]
        exact (hstarts.call _).call _
    · rw [if_neg (by rwa [decide_eq_true_eq])]
      refine ih ?_ ?_
      · rwa [set_inode, if_neg hshown]
      · rwa [set_inode, if_neg hshown]

/-- What `set` prints. -/
lemma tally_set (fst : SuperBlock c) :
    (set c params fst).Starts ∧ (set c params fst).Tally (2 ^ 32) (setSize c params fst) 0 0 := by
  let first : Listing := ⟨Printed.sprintf (2 ^ 32) (.silent 0) (sid_line c fst), ⟨0, 0, 0⟩⟩
  obtain ⟨hstarts, htally⟩ : (fst.s_inodes.foldl (set_inode c params) first).ret.Starts ∧ _ :=
    tally_inodes fst.s_inodes (tally_first _) ⟨_, [], rfl⟩
  refine ⟨(hstarts.call _).call _, ?_⟩
  rw [set, set_inode_totals]
  exact tally_totals htally _

lemma tally_supers {supers : List (SuperBlock c)} {o : Printed UInt8}
    (ho : o.Tally (2 ^ 32) n 0 0) :
    (supers.foldl (list_super c params) o).Tally (2 ^ 32)
      (n + (supers.map (setSize c params)).sum) 0 0 := by
  induction supers generalizing o n with
  | nil => exact ho
  | cons old supers ih =>
    obtain ⟨hstarts, htally⟩ : (set c params old).Starts ∧ _ := tally_set old
    rw [List.foldl_cons, List.map_cons, List.sum_cons, ← Nat.add_assoc]
    exact ih (ho.call htally hstarts)

/-- What `list_cache` prints. -/
lemma tally_list_cache (get_fs_type : List UInt8 → Option (List (SuperBlock c))) :
    (list_cache c params get_fs_type).Tally (2 ^ 32) (reportSize c params get_fs_type) 0 0 := by
  rw [list_cache, reportSize]
  cases get_fs_type params.species with
  | none => exact tally_first _
  | some fs_supers => exact tally_supers (tally_first _)

end QuickDevSkeleton.ProcPage.ListCache
