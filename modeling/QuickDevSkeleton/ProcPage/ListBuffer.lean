import QuickDevSkeleton.ProcPage.Inodes

/-!
# The report on buffers

`memory/list_buffer.c`: for every super block of a file system, the inodes of the chosen number
with a walk through their pages. Each function adds what the functions it calls return to its own
`ret`, and prints the next line there.
-/

namespace QuickDevSkeleton.ProcPage.ListBuffer

open Foundations RadixTree ProcText

/-! ### The functions -/

structure Parameters where
  list_buffer_of_inode : ℤ := 8
  species : List UInt8 := ascii "ext3"

section

variable (c : Config) (params : Parameters)

/-- The lines of a walk, each printed at `page + ret`. -/
def print_lines (lines : List Line) : Printed UInt8 :=
  .texts (2 ^ 32) (lines.map fun l => ascii (l.text c))

/-- What the walk through a page tree returns and where its lines are. -/
def walk_through (fuel : ℕ) (t : Tree c) : Option (Printed UInt8) := do
  let (ret, lines) ← radix_tree_walk_through c fuel t.root
  pure ⟨ret, (print_lines c lines).pieces⟩

/-- One iteration of the loop over the inodes. -/
def set_inode (fuel : ℕ) (s : Listing) (temp_inode : Inode c) : Option Listing :=
  if temp_inode.i_ino ≠ toUlong c params.list_buffer_of_inode then some s
  else do
    let ret := s.ret.sprintf (2 ^ 32) (inode_line c temp_inode)
    let ret := ret.call (2 ^ 32) (show_dentry c temp_inode)
    let walked ← walk_through c fuel temp_inode.i_mapping.page_tree
    pure ⟨ret.call (2 ^ 32) walked, s.totals.add c temp_inode⟩

def set (fuel : ℕ) (fst : SuperBlock c) : Option (Printed UInt8) := do
  let ret := Printed.sprintf (2 ^ 32) (.silent 0) (sid_line c fst)
  let s ← fst.s_inodes.foldlM (set_inode c params fuel) ⟨ret, ⟨0, 0, 0⟩⟩
  pure (s.totals.print c s.ret)

def header_line : List UInt8 :=
  ascii ("List Inode [" ++ toString params.list_buffer_of_inode ++ "] on super block [") ++
    params.species ++ ascii "]\n"

/-- One iteration of the loop over the super blocks. -/
def list_super (fuel : ℕ) (ret : Printed UInt8) (old : SuperBlock c) : Option (Printed UInt8) :=
  if test old = 0 then some ret
  else do
    let p ← set c params fuel old
    pure (ret.call (2 ^ 32) p)

/-- `get_fs_type` finds the super blocks of a file system by its name. -/
def list_buffer (get_fs_type : List UInt8 → Option (List (SuperBlock c))) (fuel : ℕ) :
    Option (Printed UInt8) :=
  match get_fs_type params.species with
  | none => some (Printed.sprintf (2 ^ 32) (.silent 0) (not_found_line params.species))
  | some fs_supers =>
    fs_supers.foldlM (list_super c params fuel)
      (Printed.sprintf (2 ^ 32) (.silent 0) (header_line params))

end

/-! ### What there is to print -/

section

variable {c : Config}

/-- The walk through the tree comes to an end. -/
def Ends : Tree c → Prop
  | .empty | .direct _ => True
  | .indirect T => c.BITS_PER_LONG = 64 ∨ T.height < c.RADIX_TREE_MAX_PATH

/-- How many characters the walk prints. -/
def treeSize : Tree c → ℕ
  | .empty | .direct _ => 0
  | .indirect T => (T.printed.map fun l => (l.text c).length).sum

/-- How many places the walk skips: of a page right at the root it returns the number of buffers,
and prints nothing. -/
def treeSkip : Tree c → ℕ
  | .direct p => p.buffers.length
  | .empty | .indirect _ => 0

end

section

variable (c : Config) (params : Parameters)

/-- The inodes that are reported on. -/
def chosen (inodes : List (Inode c)) : List (Inode c) :=
  inodes.filter fun inode => inode.i_ino = toUlong c params.list_buffer_of_inode

def inodesSize (inodes : List (Inode c)) : ℕ :=
  (inodes.map fun inode => inode.size c + treeSize inode.i_mapping.page_tree).sum

def inodesSkip (inodes : List (Inode c)) : ℕ :=
  (inodes.map fun inode => treeSkip inode.i_mapping.page_tree).sum

def setSize (fst : SuperBlock c) : ℕ :=
  (sid_line c fst).length + inodesSize c (chosen c params fst.s_inodes) +
    totals_size c (chosen c params fst.s_inodes)

def setSkip (fst : SuperBlock c) : ℕ :=
  inodesSkip c (chosen c params fst.s_inodes)

variable (get_fs_type : List UInt8 → Option (List (SuperBlock c)))

/-- The super blocks that are reported on. -/
def supers : List (SuperBlock c) :=
  (get_fs_type params.species).getD []

def reportSize : ℕ :=
  match get_fs_type params.species with
  | none => (not_found_line params.species).length
  | some fs_supers => (header_line params).length + (fs_supers.map (setSize c params)).sum

def reportSkip : ℕ :=
  ((supers c params get_fs_type).map (setSkip c params)).sum

end

/-! ### The walk -/

section

variable {c : Config}

/-- What a report returns so far is where the next line goes. -/
lemma ret_print {r : Report} (h : r.ret = (print_lines c r.lines).ret) (l : Line) :
    (r.print c l).ret = (print_lines c (r.print c l).lines).ret := by
  have happend : print_lines c (r.lines ++ [l]) =
      (print_lines c r.lines).sprintf (2 ^ 32) (ascii (l.text c)) := by
    rw [print_lines, print_lines, Printed.texts, Printed.texts, List.map_append, List.foldl_append]
    rfl
  change toInt (r.ret + _) = (print_lines c (r.lines ++ [l])).ret
  rw [happend, Printed.sprintf, Printed.ret_call, Printed.text, Int.add_bmod_bmod, ← h,
    length_ascii]
  rfl

lemma ret_visit {root : Entry} {r : Report} (h : r.ret = (print_lines c r.lines).ret)
    (index : ℕ) :
    (visit c root r index).ret = (print_lines c (visit c root r index).lines).ret := by
  rw [visit]
  split
  · exact h
  · dsimp only
    split
    · exact ret_print h _
    · exact h

/-- A walk from an indirect root returns how far its lines have got. -/
lemma walk_through_indirect {fuel : ℕ} {T : PageTree c} {o : Printed UInt8}
    (h : walk_through c fuel (.indirect T) = some o) : o = print_lines c T.printed := by
  obtain ⟨⟨ret, lines⟩, hout, ho⟩ := Option.bind_eq_some_iff.mp h
  have hlines : lines = T.printed := lines_of_returns T hout
  obtain ⟨r, hr, hret⟩ := Option.bind_eq_some_iff.mp hout
  have hwalk := countLoop_preserves (P := fun r => r.ret = (print_lines c r.lines).ret)
    (fun r i hr => ret_visit hr i) rfl hr
  have hprint := ret_print hwalk
    (.summary (Tree.indirect T).root.addr r.page_count r.buffer_head_count)
  cases hret
  cases ho
  rw [← hlines, hprint]

lemma walk_through_direct (fuel : ℕ) (p : Page) :
    walk_through c fuel (.direct p) = some (.silent p.buffers.length) := by
  rw [← has_buffer_page]
  rfl

lemma buffers_small (p : Page) : 4 * p.buffers.length < 2 ^ 32 := by
  have hfew := p.few
  rw [MAX_BUF_PER_PAGE] at hfew
  omega

lemma treeSize_indirect (T : PageTree c) : treeSize (.indirect T) =
    ((T.printed.map fun l => ascii (l.text c)).map List.length).sum := by
  rw [treeSize, List.map_map]
  exact congrArg List.sum (List.map_congr_left fun l _ => (length_ascii _).symm)

/-- What a walk prints. -/
lemma tally_walk {fuel : ℕ} {p : Printed UInt8} {t : Tree c}
    (h : walk_through c fuel t = some p) :
    p.Tally (2 ^ 32) (treeSize t) (treeSkip t) (treeSkip t) := by
  cases t with
  | empty =>
    cases h
    exact Printed.Tally.silent (m := 0) (by decide)
  | direct page =>
    rw [walk_through_direct] at h
    rw [← Option.some.inj h]
    exact Printed.Tally.silent (buffers_small page)
  | indirect T =>
    rw [walk_through_indirect h, treeSize_indirect]
    exact Printed.Tally.texts (by decide) _

/-- A walk goes on behind what was printed before. -/
lemma tally_call_walk {fuel n k : ℕ} {o p : Printed UInt8} {t : Tree c}
    (ho : o.Tally (2 ^ 32) n k 0) (h : walk_through c fuel t = some p) :
    (o.call (2 ^ 32) p).Tally (2 ^ 32) (n + treeSize t) (k + treeSkip t) (treeSkip t) := by
  cases t with
  | empty =>
    cases h
    exact ho.call_silent (m := 0) (by decide)
  | direct page =>
    rw [walk_through_direct] at h
    rw [← Option.some.inj h, ← Nat.zero_add (treeSkip _), ← Nat.add_assoc]
    exact ho.call_silent (by rw [Nat.zero_add]; exact buffers_small page)
  | indirect T =>
    rw [walk_through_indirect h, treeSize_indirect]
    exact ho.call_texts _

/-! ### Whether the walks end -/

lemma ends_of_returns {fuel : ℕ} {t : Tree c} (h : (walk_through c fuel t).isSome) : Ends t := by
  cases t with
  | empty | direct => trivial
  | indirect T =>
    obtain ⟨p, hp⟩ := Option.isSome_iff_exists.mp h
    obtain ⟨out, hout, -⟩ := Option.bind_eq_some_iff.mp hp
    have hwalk : (walk c fuel T.node).isSome := by
      rw [← isSome_walk_through]
      exact Option.isSome_of_eq_some hout
    exact (max_index_lt_iff T).mp ((walk_terminates_iff_bound T).mp ⟨fuel, hwalk⟩)

/-- The bound of a walk is in the range of an `unsigned int`, so that there is a number of
iterations in which every walk ends that does. -/
lemma exists_fuel : ∃ fuel, ∀ t : Tree c, Ends t → (walk_through c fuel t).isSome := by
  refine ⟨2 ^ 32 + 1, fun t ht => ?_⟩
  cases t with
  | empty | direct => rfl
  | indirect T =>
    have hbound : max_index c T.node < 2 ^ 32 := Nat.mod_lt _ (Nat.two_pow_pos 32)
    have hreturns := countLoop_mono (Nat.add_le_add_right hbound 1)
      (countLoop_returns (f := visit c T.node) ((max_index_lt_iff T).mpr ht) ⟨0, 0, 0, []⟩)
    have hwalk : (walk c (2 ^ 32 + 1) T.node).isSome := Option.isSome_of_eq_some hreturns
    rw [← isSome_walk_through] at hwalk
    obtain ⟨out, hout⟩ := Option.isSome_iff_exists.mp hwalk
    exact Option.isSome_of_eq_some (Option.bind_eq_some_iff.mpr ⟨out, hout, rfl⟩)

end

/-! ### The loops -/

section

variable {c : Config} {params : Parameters}

lemma chosen_cons (inode : Inode c) (inodes : List (Inode c)) :
    chosen c params (inode :: inodes) =
      if inode.i_ino = toUlong c params.list_buffer_of_inode then inode :: chosen c params inodes
      else chosen c params inodes := by
  rw [chosen, chosen, List.filter_cons]
  simp only [decide_eq_true_eq]

/-- What the loop over the inodes prints: it goes on behind what was printed before, and counts
the inodes that it reports on. -/
lemma tally_inodes {fuel n k a : ℕ} {inodes : List (Inode c)} {s s' : Listing}
    (hrun : inodes.foldlM (set_inode c params fuel) s = some s')
    (hs : s.ret.Tally (2 ^ 32) n k a) (hstarts : s.ret.Starts) :
    s'.ret.Starts ∧ s'.totals = (chosen c params inodes).foldl (Totals.add c) s.totals ∧
      ∃ a', s'.ret.Tally (2 ^ 32) (n + inodesSize c (chosen c params inodes))
        (k + inodesSkip c (chosen c params inodes)) a' := by
  induction inodes generalizing s n k a with
  | nil =>
    cases hrun
    exact ⟨hstarts, rfl, a, hs⟩
  | cons inode inodes ih =>
    rw [List.foldlM_cons] at hrun
    obtain ⟨s₁, hinode, hrest⟩ := Option.bind_eq_some_iff.mp hrun
    rw [set_inode] at hinode
    rw [chosen_cons]
    by_cases hino : inode.i_ino = toUlong c params.list_buffer_of_inode
    · rw [if_neg (not_not.mpr hino)] at hinode
      obtain ⟨p, hwalk, hs₁⟩ := Option.bind_eq_some_iff.mp hinode
      cases hs₁
      have htally := tally_call_walk (tally_inode hs inode) hwalk
      obtain ⟨hstarts', htotals, a', htally'⟩ :=
        ih hrest htally (((hstarts.call _).call _).call _)
      rw [if_pos hino, inodesSize, inodesSkip, List.map_cons, List.map_cons, List.sum_cons,
        List.sum_cons]
      refine ⟨hstarts', htotals, a', ?_⟩
      convert htally' using 1
      · rw [inodesSize]
        omega
      · rw [inodesSkip]
        omega
    · rw [if_pos hino] at hinode
      cases hinode
      rw [if_neg hino]
      exact ih hrest hs hstarts

/-- What `set` prints. -/
lemma tally_set {fuel : ℕ} {fst : SuperBlock c} {o : Printed UInt8}
    (h : set c params fuel fst = some o) :
    o.Starts ∧ o.Tally (2 ^ 32) (setSize c params fst) (setSkip c params fst) 0 := by
  obtain ⟨s, hloop, ho⟩ := Option.bind_eq_some_iff.mp h
  obtain ⟨hstarts, htotals, a, htally⟩ := tally_inodes hloop (tally_first _) ⟨_, [], rfl⟩
  cases ho
  refine ⟨(hstarts.call _).call _, ?_⟩
  rw [htotals]
  rw [Nat.zero_add] at htally
  exact tally_totals htally _

lemma tally_supers {fuel n k : ℕ} {supers : List (SuperBlock c)} {o o' : Printed UInt8}
    (hrun : supers.foldlM (list_super c params fuel) o = some o')
    (ho : o.Tally (2 ^ 32) n k 0) :
    o'.Tally (2 ^ 32) (n + (supers.map (setSize c params)).sum)
      (k + (supers.map (setSkip c params)).sum) 0 := by
  induction supers generalizing o n k with
  | nil =>
    cases hrun
    exact ho
  | cons old supers ih =>
    rw [List.foldlM_cons] at hrun
    obtain ⟨o₁, hsuper, hrest⟩ := Option.bind_eq_some_iff.mp hrun
    obtain ⟨p, hset, ho₁⟩ := Option.bind_eq_some_iff.mp hsuper
    cases ho₁
    obtain ⟨hstarts, htally⟩ := tally_set hset
    rw [List.map_cons, List.map_cons, List.sum_cons, List.sum_cons, ← Nat.add_assoc,
      ← Nat.add_assoc]
    exact ih hrest (ho.call htally hstarts)

/-- What `list_buffer` prints. -/
lemma tally_list_buffer {get_fs_type : List UInt8 → Option (List (SuperBlock c))} {fuel : ℕ}
    {o : Printed UInt8} (h : list_buffer c params get_fs_type fuel = some o) :
    o.Tally (2 ^ 32) (reportSize c params get_fs_type) (reportSkip c params get_fs_type) 0 := by
  rw [list_buffer] at h
  rw [reportSize, reportSkip, supers]
  split at h
  · rename_i hnone
    rw [hnone, ← Option.some.inj h]
    exact tally_first _
  · rename_i fs_supers hsome
    rw [hsome]
    have htally := tally_supers h (tally_first _)
    rwa [Nat.zero_add] at htally

/-! ### When the functions return -/

lemma isSome_set_inode {fuel : ℕ} (s : Listing) (inode : Inode c) :
    (set_inode c params fuel s inode).isSome ↔
      (inode.i_ino = toUlong c params.list_buffer_of_inode →
        (walk_through c fuel inode.i_mapping.page_tree).isSome) := by
  by_cases hino : inode.i_ino = toUlong c params.list_buffer_of_inode
  · cases hwalk : walk_through c fuel inode.i_mapping.page_tree <;> simp [set_inode, hino, hwalk]
  · simp [set_inode, hino]

lemma isSome_set {fuel : ℕ} (fst : SuperBlock c) : (set c params fuel fst).isSome ↔
    ∀ inode ∈ chosen c params fst.s_inodes,
      (walk_through c fuel inode.i_mapping.page_tree).isSome := by
  have hloop : (set c params fuel fst).isSome =
      (fst.s_inodes.foldlM (set_inode c params fuel)
        ⟨Printed.sprintf (2 ^ 32) (.silent 0) (sid_line c fst), ⟨0, 0, 0⟩⟩).isSome := by
    rw [set]
    cases fst.s_inodes.foldlM (set_inode c params fuel) _ <;> rfl
  rw [hloop, isSome_foldlM_iff isSome_set_inode]
  simp only [chosen, List.mem_filter, decide_eq_true_eq, and_imp]

lemma isSome_list_buffer {get_fs_type : List UInt8 → Option (List (SuperBlock c))} {fuel : ℕ} :
    (list_buffer c params get_fs_type fuel).isSome ↔
      ∀ fst ∈ supers c params get_fs_type, (set c params fuel fst).isSome := by
  have hstep : ∀ (o : Printed UInt8) (fst : SuperBlock c),
      (list_super c params fuel o fst).isSome ↔ (set c params fuel fst).isSome := fun o fst => by
    rw [list_super, if_neg (by rw [test]; decide)]
    cases set c params fuel fst <;> rfl
  rw [list_buffer, supers]
  cases get_fs_type params.species with
  | none => simp
  | some fs_supers => exact isSome_foldlM_iff hstep

lemma walk_returns_iff (t : Tree c) : (∃ fuel, (walk_through c fuel t).isSome) ↔ Ends t := by
  constructor
  · rintro ⟨fuel, h⟩
    exact ends_of_returns h
  · intro h
    obtain ⟨fuel, hfuel⟩ := exists_fuel (c := c)
    exact ⟨fuel, hfuel t h⟩

/-- All walks through the trees of the chosen inodes come to an end. -/
def SetEnds (c : Config) (params : Parameters) (fst : SuperBlock c) : Prop :=
  ∀ inode ∈ chosen c params fst.s_inodes, Ends inode.i_mapping.page_tree

lemma set_returns_iff (fst : SuperBlock c) :
    (∃ fuel, (set c params fuel fst).isSome) ↔ SetEnds c params fst := by
  constructor
  · rintro ⟨fuel, h⟩ inode hinode
    exact ends_of_returns (isSome_set fst |>.mp h inode hinode)
  · intro h
    obtain ⟨fuel, hfuel⟩ := exists_fuel (c := c)
    exact ⟨fuel, (isSome_set fst).mpr fun inode hinode => hfuel _ (h inode hinode)⟩

lemma list_buffer_returns_iff (get_fs_type : List UInt8 → Option (List (SuperBlock c))) :
    (∃ fuel, (list_buffer c params get_fs_type fuel).isSome) ↔
      ∀ fst ∈ supers c params get_fs_type, SetEnds c params fst := by
  constructor
  · rintro ⟨fuel, h⟩ fst hfst
    exact (set_returns_iff fst).mp ⟨fuel, isSome_list_buffer.mp h fst hfst⟩
  · intro h
    obtain ⟨fuel, hfuel⟩ := exists_fuel (c := c)
    exact ⟨fuel, isSome_list_buffer.mpr fun fst hfst =>
      (isSome_set fst).mpr fun inode hinode => hfuel _ (h fst hfst inode hinode)⟩

end

end QuickDevSkeleton.ProcPage.ListBuffer
