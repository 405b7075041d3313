import QuickDevSkeleton.Foundations.Printing
import QuickDevSkeleton.ProcText.Device
import QuickDevSkeleton.RadixTree.Report

/-!
# Reports on inodes

The parts of super blocks and inodes that `memory/list_buffer.c` and `memory/list_cache.c` read,
and the lines that both of them print, from a page that the proc layer gives them on.
-/

namespace QuickDevSkeleton.ProcPage

open Foundations RadixTree ProcText

/-! ### Super blocks -/

/-- A page tree: what its root points to. -/
inductive Tree (c : Config) where
  | empty
  | direct (p : Page)
  | indirect (T : PageTree c)

/-- Only the walk from an indirect root reads where the root is. -/
def Tree.root {c : Config} : Tree c → Root
  | .empty => ⟨0, .null⟩
  | .direct p => ⟨0, .direct p⟩
  | .indirect T => T.root

structure AddressSpace (c : Config) where
  nrpages : ℕ
  page_tree : Tree c

/-- An inode at `addr`. `i_dentry` are its dentries, each with the characters of its `d_iname`, and
`private_list` is that of its `i_data`. -/
structure Inode (c : Config) where
  addr : ℕ
  i_ino : ℕ
  i_dentry : List (List UInt8)
  i_mapping : AddressSpace c
  private_list : List ℕ

structure SuperBlock (c : Config) where
  s_id : List UInt8
  s_inodes : List (Inode c)

/-- The comparison of an `int` with an `unsigned long` takes it for one. -/
def toUlong (c : Config) (z : ℤ) : ℕ :=
  (z % 2 ^ c.BITS_PER_LONG).toNat

def inode_has_buffers {c : Config} (inode : Inode c) : Bool :=
  !inode.private_list.isEmpty

/-- Every super block of the file system is reported on. -/
def test {c : Config} (_fst : SuperBlock c) : ℤ := 1

/-! ### Lines -/

section

variable (c : Config)

def not_found_line (species : List UInt8) : List UInt8 :=
  ascii "found no super block of [" ++ species ++ ascii "]\n"

def sid_line (fst : SuperBlock c) : List UInt8 :=
  ascii "fst sid = " ++ fst.s_id ++ ascii "\n"

def inode_line (inode : Inode c) : List UInt8 :=
  ascii ("    inode " ++ pointer c inode.addr ++ " page count = " ++
    toString (toLong c inode.i_mapping.nrpages) ++ "\n")

def dentry_line (d_iname : List UInt8) : List UInt8 :=
  ascii "        dentry name " ++ d_iname ++ ascii " \n"

/-- `ret` and what was printed: `int`s have 32 bits. -/
def show_dentry (inode : Inode c) : Printed UInt8 :=
  inode.i_dentry.foldl (fun ret temp_dentry => ret.sprintf (2 ^ 32) (dentry_line temp_dentry))
    (.silent 0)

/-! ### Totals -/

/-- The three counters of `set`. -/
structure Totals where
  total_page_count : ℕ
  total_inode_count : ℕ
  buffer_inode_count : ℕ

/-- The variables of `set`. -/
structure Listing where
  ret : Printed UInt8
  totals : Totals

/-- An inode is counted. -/
def Totals.add (n : Totals) (inode : Inode c) : Totals where
  total_page_count := (n.total_page_count + inode.i_mapping.nrpages) % 2 ^ c.BITS_PER_LONG
  total_inode_count := (n.total_inode_count + 1) % 2 ^ c.BITS_PER_LONG
  buffer_inode_count :=
    if inode_has_buffers inode then (n.buffer_inode_count + 1) % 2 ^ c.BITS_PER_LONG
    else n.buffer_inode_count

def Totals.pages_line (n : Totals) : List UInt8 :=
  ascii ("total page count " ++ toString (toLong c n.total_page_count) ++ " size = " ++
    toString (toLong c (n.total_page_count * 4)) ++ " K\n")

def Totals.inodes_line (n : Totals) : List UInt8 :=
  ascii ("total inode count " ++ toString (toLong c n.total_inode_count) ++
    "  inode address space private buffer = " ++ toString (toLong c n.buffer_inode_count) ++ " \n")

/-- The last two lines of `set`. -/
def Totals.print (ret : Printed UInt8) (n : Totals) : Printed UInt8 :=
  (ret.sprintf (2 ^ 32) (n.pages_line c)).sprintf (2 ^ 32) (n.inodes_line c)

end

/-! ### Sizes -/

section

variable (c : Config)

/-- How many characters there are in the lines on an inode: its own, and those of its dentries. -/
def Inode.size (inode : Inode c) : ℕ :=
  (inode_line c inode).length + (inode.i_dentry.map fun d_iname => 22 + d_iname.length).sum

/-- How many characters there are in the totals over the inodes. -/
def totals_size (inodes : List (Inode c)) : ℕ :=
  let n := inodes.foldl (Totals.add c) ⟨0, 0, 0⟩
  (n.pages_line c).length + (n.inodes_line c).length

end

variable {c : Config} {o : Printed UInt8} {n k a : ℕ}

lemma length_dentry_line (d_iname : List UInt8) :
    (dentry_line d_iname).length = 22 + d_iname.length := by
  rw [dentry_line, List.length_append, List.length_append, length_ascii, length_ascii]
  change 20 + d_iname.length + 2 = _
  omega

lemma show_dentry_eq (inode : Inode c) :
    show_dentry c inode = .texts (2 ^ 32) (inode.i_dentry.map dentry_line) :=
  List.foldl_map.symm

/-- A first line. -/
lemma tally_first (t : List UInt8) :
    (Printed.sprintf (2 ^ 32) (.silent 0) t).Tally (2 ^ 32) t.length 0 0 := by
  rw [← Nat.zero_add t.length]
  exact (Printed.Tally.silent (m := 0) (by decide)).sprintf t

/-- The lines on an inode, from an inode's own line on. -/
lemma tally_inode (h : o.Tally (2 ^ 32) n k a) (inode : Inode c) :
    ((o.sprintf (2 ^ 32) (inode_line c inode)).call (2 ^ 32) (show_dentry c inode)).Tally (2 ^ 32)
      (n + inode.size c) k 0 := by
  have hlengths : (inode.i_dentry.map dentry_line).map List.length =
      inode.i_dentry.map fun d_iname => 22 + d_iname.length := by
    rw [List.map_map]
    exact List.map_congr_left fun d_iname _ => length_dentry_line d_iname
  rw [show_dentry_eq, Inode.size, ← hlengths, ← Nat.add_assoc]
  exact (h.sprintf (inode_line c inode)).call_texts _

lemma tally_totals (h : o.Tally (2 ^ 32) n k a) (inodes : List (Inode c)) :
    (Totals.print c o (inodes.foldl (Totals.add c) ⟨0, 0, 0⟩)).Tally (2 ^ 32)
      (n + totals_size c inodes) k 0 := by
  rw [totals_size, ← Nat.add_assoc]
  exact (h.sprintf _).sprintf _

end QuickDevSkeleton.ProcPage
