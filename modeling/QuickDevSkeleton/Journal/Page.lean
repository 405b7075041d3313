import Mathlib.Logic.Function.Basic
import QuickDevSkeleton.Journal.Walk
import QuickDevSkeleton.Kernel.UserCopy

/-!
# Pages, buffers and handles

The state that the address space operations of `fs/journal` work on, and the functions of the
kernel that they call. The pages are those of one file, numbered by their index. A task has at
most one handle, `current->journal_info`: every handle pointer of these operations comes from
`journal_start` or `journal_current_handle` and is that one.
-/

namespace QuickDevSkeleton.Journal

open Foundations

def PAGE_CACHE_SIZE : ℕ := 4096

/-- How a page is cut into buffers: `count` of them, of `size` bytes each. -/
structure BlockSize where
  count : ℕ
  size : ℕ
  covers : count * size = PAGE_CACHE_SIZE

structure BufferHead where
  b_blocknr : ℕ
  mapped : Bool
  uptodate : Bool
  dirty : Bool
  freed : Bool
  new : Bool

/-- A page with its flags, lock and reference count; `buffers` is the ring of its buffers,
from the head on, if it has any. -/
structure Page where
  locked : Bool
  count : ℕ
  uptodate : Bool
  checked : Bool
  dirty : Bool
  buffers : Option (ℕ → BufferHead)
  data : Memory UInt8

/-- A handle knows for which buffers, by page and number, write access was granted under it. -/
structure Handle where
  id : ℕ
  h_ref : ℕ
  granted : ℕ → ℕ → Bool

/-- A call of `journal_dirty_metadata`: the handle, the buffer, and whether the handle had
write access to it. -/
structure Dirtied where
  handle : ℕ
  page : ℕ
  buffer : ℕ
  granted : Bool
  deriving DecidableEq

/-- The file, the device under it, the task, and what was handed to the journal so far.
`started` counts the handles that the task has started. -/
structure World where
  blocks : BlockSize
  pages : ℕ → Page
  disk : Memory UInt8
  i_size : ℕ
  handle : Option Handle
  started : ℕ
  log : List Dirtied

/-- What the functions of the kernel answer during one operation: `0`, or a negative error.
`prepared` is the number of buffers that `__block_write_begin` handles before it fails. -/
structure Outcomes where
  grab : Bool
  aborted : Bool
  journal_start : ℤ
  block_write_begin : ℤ
  prepared : ℕ
  journal_get_write_access : ℕ → ℤ
  journal_dirty_metadata : ℕ → ℤ
  journal_stop : ℤ
  block_write_full_page : ℤ
  dirty_nonpos : ∀ k, journal_dirty_metadata k ≤ 0
  stop_nonpos : journal_stop ≤ 0

namespace World

variable (w : World) (i k : ℕ)

def setPage (p : Page) : World :=
  { w with pages := Function.update w.pages i p }

/-- The buffers of page `i`; without any, the ones that `alloc_buffer_head` would give. -/
def ring : ℕ → BufferHead :=
  (w.pages i).buffers.getD fun _ => ⟨0, false, false, false, false, false⟩

def setRing (bhs : ℕ → BufferHead) : World :=
  w.setPage i { w.pages i with buffers := some bhs }

def setBuffer (bh : BufferHead) : World :=
  w.setRing i (Function.update (w.ring i) k bh)

/-- The copy from user space between `write_begin` and `write_end`: `bytes` go to offset `off`
of page `i`. -/
def store (off : ℕ) (bytes : List UInt8) : World :=
  w.setPage i { w.pages i with data := (w.pages i).data.write off bytes }

end World

/-! ### Functions of the kernel -/

/-- `grab_cache_page_write_begin`: the page is locked and gets a reference. -/
def grab_cache_page_write_begin (K : Outcomes) (i : ℕ) : Exec World Bool :=
  if K.grab then do
    Exec.modify fun w =>
      w.setPage i { w.pages i with locked := true, count := (w.pages i).count + 1 }
    pure true
  else pure false

def unlock_page (i : ℕ) : Exec World PUnit :=
  Exec.modify fun w => w.setPage i { w.pages i with locked := false }

def page_cache_release (i : ℕ) : Exec World PUnit :=
  Exec.modify fun w => w.setPage i { w.pages i with count := (w.pages i).count - 1 }

/-- `journal_start`: `0` for a handle, or the error in its place. -/
def journal_start (K : Outcomes) : Exec World ℤ := do
  if K.journal_start ≠ 0 then pure K.journal_start
  else
    Exec.modify fun w =>
      match w.handle with
      | some h => { w with handle := some { h with h_ref := h.h_ref + 1 } }
      | none =>
        { w with handle := some ⟨w.started, 1, fun _ _ => false⟩, started := w.started + 1 }
    pure 0

def journal_stop (K : Outcomes) : Exec World ℤ :=
  Exec.withState fun w =>
    match w.handle with
    | none => Exec.crash
    | some h => do
      Exec.modify fun w =>
        { w with handle := if h.h_ref > 1 then some { h with h_ref := h.h_ref - 1 } else none }
      pure K.journal_stop

/-- `journal_get_write_access` for buffer `k` of page `i`. -/
def journal_get_write_access (K : Outcomes) (i k : ℕ) : Exec World ℤ :=
  Exec.withState fun w =>
    match w.handle with
    | none => Exec.crash
    | some h => do
      Exec.modify fun w =>
        { w with
          handle := some { h with
            granted := Function.update h.granted i (Function.update (h.granted i) k
              (decide (K.journal_get_write_access k = 0) || h.granted i k)) } }
      pure (K.journal_get_write_access k)

def journal_dirty_metadata (K : Outcomes) (i k : ℕ) : Exec World ℤ :=
  Exec.withState fun w =>
    match w.handle with
    | none => Exec.crash
    | some h => do
      Exec.modify fun w => { w with log := w.log ++ [⟨h.id, i, k, h.granted i k⟩] }
      pure (K.journal_dirty_metadata k)

/-- `create_empty_buffers`, for a page without buffers. -/
def create_page_buffers (i : ℕ) (w : World) : World :=
  match (w.pages i).buffers with
  | some _ => w
  | none =>
    w.setRing i fun _ => ⟨0, false, (w.pages i).uptodate, (w.pages i).dirty, false, false⟩

/-- `page_zero_new_buffers`: the new buffers that the range touches become dirty, and on a page
that is not uptodate their part of the range is zeroed. -/
def page_zero_new_buffers (i from_ to_ : ℕ) (w : World) : World :=
  let p := w.pages i
  let b := w.blocks.size
  let hit k := decide (k < w.blocks.count) && (w.ring i k).new && decide (Touches b from_ to_ k)
  match p.buffers with
  | none => w
  | some bhs =>
    w.setPage i { p with
      buffers := some fun k =>
        if hit k then
          { bhs k with new := false, dirty := true, uptodate := (bhs k).uptodate || !p.uptodate }
        else bhs k
      data := fun x =>
        if !p.uptodate && hit (x / b) && decide (from_ ≤ x ∧ x < to_) then 0 else p.data x }

/-! ### Preparing a page for a write -/

/-- `map_bh(bh_result, inode->i_sb, 0)`, for one block whatever its number in the file. -/
def example_get_block (bh_result : BufferHead) : BufferHead × ℤ :=
  ({ bh_result with mapped := true, b_blocknr := 0 }, 0)

/-- A buffer that the range touches, when `__block_write_begin` gets to it: mapped, and no
longer new. -/
def BufferHead.map (bh : BufferHead) : BufferHead :=
  if bh.mapped then { bh with new := false } else (example_get_block { bh with new := false }).1

/-- `__block_write_begin` reads buffer `k` from the device: it is not uptodate, and the range
covers only a part of it. -/
def readsBuffer (w : World) (i from_ to_ k : ℕ) : Bool :=
  decide (Touches w.blocks.size from_ to_ k) && !(w.pages i).uptodate && !(w.ring i k).uptodate &&
    decide (k * w.blocks.size < from_ ∨ to_ < (k + 1) * w.blocks.size)

/-- The first `m` buffers of page `i`, prepared for a write to the range. -/
def prepareBuffers (i from_ to_ m : ℕ) (w : World) : World :=
  let p := w.pages i
  let b := w.blocks.size
  w.setPage i { p with
    buffers := some fun k =>
      let bh := w.ring i k
      if k < m then
        let bh := if Touches b from_ to_ k then bh.map else bh
        { bh with uptodate := bh.uptodate || p.uptodate || readsBuffer w i from_ to_ k }
      else bh
    data := fun x =>
      if decide (x / b < m) && readsBuffer w i from_ to_ (x / b) then
        w.disk ((w.ring i (x / b)).map.b_blocknr * b + x % b)
      else p.data x }

/-- `__block_write_begin(page, from, len, example_get_block)`. -/
def block_write_begin (K : Outcomes) (i from_ len : ℕ) : Exec World ℤ := do
  Exec.modify (create_page_buffers i)
  if K.block_write_begin ≠ 0 then
    Exec.modify fun w =>
      page_zero_new_buffers i from_ (from_ + len)
        (prepareBuffers i from_ (from_ + len) K.prepared w)
    pure K.block_write_begin
  else
    Exec.modify fun w => prepareBuffers i from_ (from_ + len) w.blocks.count w
    pure 0

end QuickDevSkeleton.Journal
