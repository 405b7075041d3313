import Mathlib.Algebra.Ring.Int.Defs
import Mathlib.Algebra.Ring.Nat
import Mathlib.Data.Nat.Bitwise
import QuickDevSkeleton.Foundations.CountingLoop
import QuickDevSkeleton.Foundations.DigitTree

/-!
# The walk through a page-cache tree

The functions of `memory/list_buffer.c` that go through a radix tree of pages: for every index up
to the bound that the height of the tree gives, they follow the path of the index from the root.
-/

namespace QuickDevSkeleton.RadixTree

open Foundations

/-! ### The configuration of the kernel -/

/-- The two figures on which the code is compiled: the width of a `long`, and
`RADIX_TREE_MAP_SHIFT`, which `CONFIG_BASE_SMALL` selects. -/
structure Config where
  BITS_PER_LONG : ℕ
  RADIX_TREE_MAP_SHIFT : ℕ
  long : BITS_PER_LONG = 32 ∨ BITS_PER_LONG = 64
  map_shift : RADIX_TREE_MAP_SHIFT = 4 ∨ RADIX_TREE_MAP_SHIFT = 6

/-- A sum as the machine stores it in an `int`. -/
def toInt (z : ℤ) : ℤ :=
  z.bmod (2 ^ 32)

/-- An `unsigned long` as the machine stores it in an `unsigned int`. -/
def toUint (n : ℕ) : ℕ :=
  n % 2 ^ 32

namespace Config

variable (c : Config)

def RADIX_TREE_MAP_SIZE : ℕ := 1 <<< c.RADIX_TREE_MAP_SHIFT

def RADIX_TREE_MAP_MASK : ℕ := c.RADIX_TREE_MAP_SIZE - 1

/-- `8 * sizeof(unsigned long)`. -/
def RADIX_TREE_INDEX_BITS : ℕ := 8 * (c.BITS_PER_LONG / 8)

/-- `DIV_ROUND_UP(RADIX_TREE_INDEX_BITS, RADIX_TREE_MAP_SHIFT)`. -/
def RADIX_TREE_MAX_PATH : ℕ :=
  (c.RADIX_TREE_INDEX_BITS + c.RADIX_TREE_MAP_SHIFT - 1) / c.RADIX_TREE_MAP_SHIFT

/-- `~0UL`. -/
def allOnes : ℕ := 2 ^ c.BITS_PER_LONG - 1

/-- `__maxindex`: the largest index of a tree of this height. -/
def maxindex (height : ℕ) : ℕ :=
  let width := height * c.RADIX_TREE_MAP_SHIFT
  let shift : ℤ := c.RADIX_TREE_INDEX_BITS - width
  if shift < 0 then c.allOnes
  else if shift ≥ c.BITS_PER_LONG then 0
  else c.allOnes >>> shift.toNat

/-- The array `height_to_maxindex` after its initialisation. -/
def radix_tree_init_maxindex : List ℕ :=
  (List.range (c.RADIX_TREE_MAX_PATH + 1)).map c.maxindex

def radix_tree_maxindex (height : ℕ) : ℕ :=
  c.radix_tree_init_maxindex.getD height 0

end Config

/-! ### Pages and trees -/

/-- `PAGE_CACHE_SIZE / 512`. -/
def MAX_BUF_PER_PAGE : ℕ := 8

/-- The buffer heads of a page, from `page_buffers(page)` on along `b_this_page`: none for a page
without `page_has_buffers`. -/
structure Page where
  buffers : List ℕ
  few : buffers.length ≤ MAX_BUF_PER_PAGE

/-- What a slot points to. -/
inductive Entry where
  | null
  | page (p : Page)
  | node (height : ℕ) (slots : ℕ → Entry)

/-- The pointer in a `struct radix_tree_root`, and its low bit; `addr` is where the root itself
is. -/
inductive Rnode where
  | null
  | direct (p : Page)
  | indirect (node : Entry)

structure Root where
  addr : ℕ
  rnode : Rnode

/-- Count the buffer heads of the page that a pointer points to. -/
def radix_node_has_buffer : Entry → ℤ
  | .null => 0
  | .page p => p.buffers.foldl (fun buffer_count _ => buffer_count + 1) 0
  | .node _ _ => 0 -- the walk takes every pointer at the bottom of the tree for a page

/-! ### The lines of the report -/

/-- What one `sprintf` prints. -/
inductive Line where
  | page_index (index : ℕ)
  | summary (root : ℕ) (pages buffer_heads : ℤ)
  deriving DecidableEq

/-- `%p`: all digits of a pointer. -/
def pointer (c : Config) (a : ℕ) : String :=
  let digits := Nat.toDigits 16 a
  String.ofList (List.replicate (c.BITS_PER_LONG / 4 - digits.length) '0' ++ digits)

/-- `%ld`: the bits of an `unsigned long` as a `long`. -/
def toLong (c : Config) (n : ℕ) : ℤ :=
  (n : ℤ).bmod (2 ^ c.BITS_PER_LONG)

def Line.text (c : Config) : Line → String
  | .page_index index => "    Page Index [" ++ toString (toLong c index) ++ "] has buffer\n"
  | .summary root pages buffer_heads => "Tree[" ++ pointer c root ++ "]has " ++ toString pages ++
      " pages , and " ++ toString buffer_heads ++ " buffer head\n"

/-- The variables of the walk that a report is made of, with the lines printed so far. -/
structure Report where
  ret : ℤ
  page_count : ℤ
  buffer_head_count : ℤ
  lines : List Line

/-- `ret += sprintf(page+ret, ...)`. -/
def Report.print (c : Config) (r : Report) (l : Line) : Report :=
  { r with
    ret := toInt (r.ret + (l.text c).length)
    lines := r.lines ++ [l] }

/-! ### The walk -/

section

variable (c : Config)

/-- The inner loop, from a node of the given `height` on: `shift` selects the digit of `index`
for this level. -/
def descend (index : ℕ) : ℕ → ℕ → Entry → Entry
  | height + 1, shift, .node _ slots =>
    match slots ((index >>> shift) &&& c.RADIX_TREE_MAP_MASK) with
    | .null => .null -- no slot, no page
    | node => descend index height (toUint (shift + 2 ^ 32 - c.RADIX_TREE_MAP_SHIFT)) node
  | _, _, node => node

/-- The path of `index` from the root. -/
def find (index : ℕ) : Entry → Entry
  | .node height slots =>
    descend c index height ((height - 1) * c.RADIX_TREE_MAP_SHIFT) (.node height slots)
  | node => node

/-- One iteration of the outer loop. -/
def visit (root : Entry) (r : Report) (index : ℕ) : Report :=
  match find c index root with
  | .null => r
  | node =>
    let temp := radix_node_has_buffer node
    let r := if temp ≠ 0 then
        { r.print c (.page_index index) with
          buffer_head_count := toInt (r.buffer_head_count + temp) }
      else r
    { r with page_count := toInt (r.page_count + 1) }

/-- `height` of the node behind the pointer of the root. -/
def Entry.height : Entry → ℕ
  | .node height _ => height
  | _ => 0

/-- The bound of the outer loop. -/
def max_index (node : Entry) : ℕ :=
  toUint (c.radix_tree_maxindex node.height)

/-- The outer loop, for fewer than `fuel` iterations. -/
def walk (fuel : ℕ) (node : Entry) : Option Report :=
  countLoop (2 ^ c.BITS_PER_LONG) (max_index c node) (visit c node) fuel 0 ⟨0, 0, 0, []⟩

/-- What the function returns and the lines that it prints; `none` if the loop is still running
after `fuel` iterations. -/
def radix_tree_walk_through (fuel : ℕ) (root : Root) : Option (ℤ × List Line) :=
  match root.rnode with
  | .null => some (0, [])
  | .direct p => some (radix_node_has_buffer (.page p), [])
  | .indirect node => do
    let r ← walk c fuel node
    let r := r.print c (.summary root.addr r.page_count r.buffer_head_count)
    pure (r.ret, r.lines)

end

/-! ### Well-formed trees -/

/-- A subtree whose root is at `height`: every node has the height of its place, and pages are at
the bottom. -/
def WellFormed (c : Config) : ℕ → Entry → Prop
  | _, .null => True
  | 0, .page _ => True
  | height + 1, .node h slots =>
    h = height + 1 ∧ ∀ i < c.RADIX_TREE_MAP_SIZE, WellFormed c height (slots i)
  | _, _ => False

/-- The tree as a map from indices to pages. -/
def Entry.abs : Entry → DigitTree Page
  | .null => .empty
  | .page p => .leaf p
  | .node _ slots => .node fun i => (slots i).abs

/-- A page-cache tree with an indirect root: its indices are those of an `unsigned long`. -/
structure PageTree (c : Config) where
  addr : ℕ
  height : ℕ
  slots : ℕ → Entry
  positive : 1 ≤ height
  height_le : height ≤ c.RADIX_TREE_MAX_PATH
  wellFormed : WellFormed c height (.node height slots)
  indexed : ∀ e ∈ (Entry.node height slots).abs.entries c.RADIX_TREE_MAP_SIZE height,
    e.1 < 2 ^ c.BITS_PER_LONG

namespace PageTree

variable {c : Config} (T : PageTree c)

/-- The node that the root points to. -/
def node : Entry := .node T.height T.slots

def root : Root := ⟨T.addr, .indirect T.node⟩

/-- The pages that the tree holds, with their indices. -/
def pages : List (ℕ × Page) :=
  T.node.abs.entries c.RADIX_TREE_MAP_SIZE T.height

end PageTree

end QuickDevSkeleton.RadixTree
