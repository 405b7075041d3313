import QuickDevSkeleton.Journal.Page

/-!
# The journalled address space operations

`example_journalled_writepage`, `example_journalled_write_begin` and
`example_journalled_write_end` of `fs/journal/address_mapping.c`. They run with a filesystem
mounted, so `example_journal` points to a journal.
-/

namespace QuickDevSkeleton.Journal

open Foundations

/-- Both callbacks look at the handle and at the flags of the buffer first. -/
def withBuffer (i k : ℕ) (body : BufferHead → Exec World ℤ) : Exec World ℤ :=
  Exec.withState fun w =>
    if w.handle.isNone then Exec.crash
    else if !(w.ring i k).mapped || (w.ring i k).freed then pure 0
    else body (w.ring i k)

def write_end_fn (K : Outcomes) (i k : ℕ) : Exec World ℤ :=
  withBuffer i k fun bh => do
    Exec.modify fun w => w.setBuffer i k { bh with uptodate := true }
    journal_dirty_metadata K i k

/-- The dirty bit is cleared; the call that would set it again is commented out. -/
def do_journal_get_write_access (K : Outcomes) (i k : ℕ) : Exec World ℤ :=
  withBuffer i k fun bh => do
    Exec.modify fun w => w.setBuffer i k { bh with dirty := false }
    journal_get_write_access K i k

/-- `walk_page_buffers(handle, page_buffers(page), from, to, partial, fn)`. -/
def walkPage (i from_ to_ : ℕ) (partial_ : Option Bool) (fn : ℕ → Exec World ℤ) :
    Exec World (ℤ × Option Bool) :=
  Exec.withState fun w =>
    if (w.pages i).buffers.isNone then Exec.crash
    else
      walk_page_buffers w.blocks.count w.blocks.size from_ to_
        (fun w k => (w.ring i k).uptodate) partial_ fn

def example_journalled_writepage (K : Outcomes) (i : ℕ) : Exec World ℤ :=
  Exec.withState fun w =>
    if (w.pages i).buffers.isSome && !(w.pages i).checked then do
      unlock_page i
      pure K.block_write_full_page
    else if w.handle.isSome then pure 0
    else if K.aborted then pure (-EROFS)
    else do
      let err ← journal_start K
      if err ≠ 0 then pure err
      else do
        Exec.modify fun w => w.setPage i { w.pages i with checked := false }
        let ret ← block_write_begin K i 0 PAGE_CACHE_SIZE
        if ret ≠ 0 then do
          let _ ← journal_stop K
          pure 0
        else do
          let (ret, _) ← walkPage i 0 PAGE_CACHE_SIZE none (do_journal_get_write_access K i)
          let (err, _) ← walkPage i 0 PAGE_CACHE_SIZE none (write_end_fn K i)
          let ret := if ret = 0 then err else ret
          unlock_page i
          let err ← journal_stop K
          pure (if ret = 0 then err else ret)

/-- `write_begin` announces the whole page, whatever `pos` and `len` are. -/
def example_journalled_write_begin (K : Outcomes) (pos _len : ℕ) : Exec World ℤ := do
  let index := pos / PAGE_CACHE_SIZE
  let page ← grab_cache_page_write_begin K index
  if !page then pure (-ENOMEM)
  else Exec.withState fun w =>
    if w.handle.isSome then pure 0
    else if K.aborted then pure (-EROFS)
    else do
      let err ← journal_start K
      if err ≠ 0 then pure err
      else do
        let ret ← block_write_begin K index 0 PAGE_CACHE_SIZE
        if ret ≠ 0 then do
          let _ ← journal_stop K
          pure 0
        else do
          let (ret, _) ← walkPage index 0 PAGE_CACHE_SIZE none (do_journal_get_write_access K index)
          pure ret

/-- The bytes that `write_end` takes as copied: none of a short copy to a page that is not
uptodate. -/
def copiedTo (p : Page) (len copied : ℕ) : ℕ :=
  if copied < len ∧ !p.uptodate then 0 else copied

/-- The end of the range that `write_end` walks. -/
def walkEnd (p : Page) (from_ len copied : ℕ) : ℕ :=
  if copied < len then from_ + copiedTo p len copied else from_ + len

def example_journalled_write_end (K : Outcomes) (pos len copied : ℕ) : Exec World ℤ :=
  let index := pos / PAGE_CACHE_SIZE
  let from_ := pos % PAGE_CACHE_SIZE
  Exec.withState fun w => do
    let to_ := walkEnd (w.pages index) from_ len copied
    let done := copiedTo (w.pages index) len copied
    Exec.modify fun w =>
      if copied < len then page_zero_new_buffers index (from_ + done) (from_ + len) w else w
    let (ret, partial_) ← walkPage index from_ to_ (some false) (write_end_fn K index)
    Exec.modify fun w =>
      if partial_ = some false then w.setPage index { w.pages index with uptodate := true } else w
    Exec.modify fun w => { w with i_size := max w.i_size (pos + done) }
    let ret2 ← journal_stop K
    let ret := if ret = 0 then ret2 else ret
    unlock_page index
    page_cache_release index
    pure (if ret ≠ 0 then ret else done)

/-- One round of a write: `write_begin`, and if it returned `0` the copy of `data`, which may
be shorter than `len`, and `write_end`. -/
def writeRound (K : Outcomes) (pos len : ℕ) (data : List UInt8) : Exec World ℤ := do
  let ret ← example_journalled_write_begin K pos len
  if ret ≠ 0 then pure ret
  else do
    Exec.modify fun w => w.store (pos / PAGE_CACHE_SIZE) (pos % PAGE_CACHE_SIZE) data
    example_journalled_write_end K pos len data.length

end QuickDevSkeleton.Journal
