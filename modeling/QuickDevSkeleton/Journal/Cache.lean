import QuickDevSkeleton.Foundations.System
import QuickDevSkeleton.Journal.Balance

/-!
# The file behind its page cache

What the kernel does with the pages of the file between the operations of the filesystem: it reads
pages through `example_readpage`, takes stores to mapped pages, commits to the journal, stores dirty
buffers on the device and drops clean pages. Buffers are loaded from and stored at the device block
that `example_get_block` has recorded for them.
-/

namespace QuickDevSkeleton.Journal

open Foundations

/-! ### Loads and stores -/

namespace World

variable (w : World) (i k : ℕ)

/-- The number in the file of buffer `k` of page `i`. -/
def block : ℕ :=
  i * w.blocks.count + k

/-- The file reaches into the block. -/
def inFile : Bool :=
  decide (w.block i k * w.blocks.size < w.i_size)

/-- The device block from which `example_readpage` reads buffer `k` of page `i`, if it reads it. A
block that is not mapped yet is asked for up to the end of the file. -/
def source : Option ℕ :=
  let bh := w.ring i k
  if bh.mapped then some bh.b_blocknr
  else if w.inFile i k then some (example_get_block bh).1.b_blocknr
  else none

/-- `mpage_readpage` turns to `block_read_full_page` for a page with buffers, and for one whose
blocks are not contiguous on the device: the second block asked for is never behind the first. -/
def byBuffers : Bool :=
  (w.pages i).buffers.isSome || decide (1 < w.blocks.count) && w.inFile i 1

/-- `example_readpage(fp, page)`, for a page that is not uptodate: what is not read is zeroed. -/
def readpage : World :=
  let p := w.pages i
  let b := w.blocks.size
  let bhs := created w i
  w.setPage i { p with
    uptodate := true
    buffers :=
      if w.byBuffers i then
        some fun k =>
          if (bhs k).uptodate then bhs k
          else
            let bh :=
              if !(bhs k).mapped && w.inFile i k then (example_get_block (bhs k)).1 else bhs k
            { bh with uptodate := true }
      else none
    data := fun y =>
      if (bhs (y / b)).uptodate then p.data y
      else
        match w.source i (y / b) with
        | none => 0
        | some d => w.disk (d * b + y % b) }

/-- A dirty buffer is stored at its device block. -/
def write_back : World :=
  let bh := w.ring i k
  let b := w.blocks.size
  { w.setBuffer i k { bh with dirty := false } with
    disk := fun z => if z / b = bh.b_blocknr then (w.pages i).data (k * b + z % b) else w.disk z }

/-- A commit of the journal exposes the buffers that were handed to it as dirty. -/
def commit (handed : ℕ → ℕ → Bool) : World :=
  { w with
    pages := fun i => { w.pages i with
      buffers := (w.pages i).buffers.map fun bhs k =>
        { bhs k with dirty := (bhs k).dirty || handed i k } } }

/-- A store to a mapped page, which ends in `set_page_dirty`. -/
def mapped_store (x : ℕ) (byte : UInt8) : World :=
  let p := w.pages (x / PAGE_CACHE_SIZE)
  w.setPage (x / PAGE_CACHE_SIZE) { p with
    checked := true
    dirty := true
    data := p.data.write (x % PAGE_CACHE_SIZE) [byte] }

/-- A page that has just been allocated. -/
def fresh (memory : Memory UInt8) : Page :=
  ⟨false, 0, false, false, false, none, memory⟩

end World

/-! ### Runs -/

/-- The file and its device. `handed` are the buffers in the transaction that is not committed yet.
The rest is what the file should hold: `content` is its bytes, `home` tells for every block which
device block holds them, if one does, and `reads` are the bytes read, each with the one that should
have been. -/
structure CachedFile where
  world : World
  handed : ℕ → ℕ → Bool
  content : Memory UInt8
  home : ℕ → Option ℕ
  reads : List (UInt8 × UInt8)

/-- A round of a write, a store to a mapped page, a call of `writepage`, a commit, the write-back of
a dirty buffer, the eviction of a page, a call of `readpage`, or the read of a byte from the
cache. -/
inductive CacheAct where
  | write (a : Round)
  | mapped_store (x : ℕ) (byte : UInt8)
  | writepage (K : Outcomes) (i : ℕ)
  | commit
  | write_back (i k : ℕ)
  | evict (i : ℕ) (memory : Memory UInt8)
  | readpage (i : ℕ)
  | read (x : ℕ)

/-- How many bytes the caller of the round takes as written. -/
def Round.accepted (a : Round) (w : World) : ℕ :=
  if (a.begin_ w).1 = some 0 then ((a.run w).1.getD 0).toNat else 0

namespace CachedFile

variable (s : CachedFile)

/-- An operation has led to the world `w`, with the answers `K`. -/
def after (K : Outcomes) (w : World) : CachedFile :=
  { s with
    world := w
    handed := fun i k => s.handed i k || (w.log.drop s.world.log.length).any fun e =>
      decide (e.page = i ∧ e.buffer = k ∧ K.journal_dirty_metadata k = 0) }

def write (a : Round) : CachedFile :=
  let n := a.accepted s.world
  { s.after a.K (a.run s.world).2 with
    content := s.content.write a.pos (a.data.take n)
    home := fun b => if n ≠ 0 ∧ Touches s.world.blocks.size a.pos (a.pos + n) b then none
      else s.home b }

def mapped_store (x : ℕ) (byte : UInt8) : CachedFile :=
  { s with
    world := s.world.mapped_store x byte
    content := s.content.write x [byte]
    home := Function.update s.home (x / s.world.blocks.size) none }

/-- The kernel clears the dirty flag of a page before it calls `writepage`. -/
def writepage (K : Outcomes) (i : ℕ) : CachedFile :=
  s.after K (example_journalled_writepage K i
    (s.world.setPage i { s.world.pages i with dirty := false })).2

def commit : CachedFile :=
  { s with world := s.world.commit s.handed, handed := fun _ _ => false }

/-- The device block holds this block from now on, and no other one any more. -/
def write_back (i k : ℕ) : CachedFile :=
  let d := (s.world.ring i k).b_blocknr
  { s with
    world := s.world.write_back i k
    home := fun b =>
      if b = s.world.block i k then some d else if s.home b = some d then none else s.home b }

/-- No buffer of the page waits for the journal or for its write-back, and no store to the page for
`writepage`. -/
def Clean (i : ℕ) : Prop :=
  (s.world.pages i).dirty = false ∧ ∀ k < s.world.blocks.count,
    s.handed i k = false ∧ (s.world.ring i k).dirty = false

instance (i : ℕ) : Decidable (s.Clean i) :=
  inferInstanceAs (Decidable (_ ∧ _))

/-- One action, if it is possible. A round stays within its page, only a page that is uptodate can
be mapped or read from, and only a clean page is evicted. -/
def next : CacheAct → Option CachedFile
  | .write a =>
    if a.pos % PAGE_CACHE_SIZE + a.len ≤ PAGE_CACHE_SIZE ∧ a.data.length ≤ a.len then
      some (s.write a)
    else none
  | .mapped_store x byte =>
    if (s.world.pages (x / PAGE_CACHE_SIZE)).uptodate ∧ x < s.world.i_size then
      some (s.mapped_store x byte)
    else none
  | .writepage K i => some (s.writepage K i)
  | .commit => some s.commit
  | .write_back i k =>
    if k < s.world.blocks.count ∧ (s.world.ring i k).dirty then some (s.write_back i k) else none
  | .evict i memory =>
    if s.Clean i then
      some { s with world := s.world.setPage i (World.fresh memory) }
    else none
  | .readpage i =>
    if (s.world.pages i).uptodate then none
    else some { s with world := s.world.readpage i }
  | .read x =>
    if (s.world.pages (x / PAGE_CACHE_SIZE)).uptodate ∧ x < s.world.i_size then
      some { s with
        reads := ((s.world.pages (x / PAGE_CACHE_SIZE)).data (x % PAGE_CACHE_SIZE), s.content x) ::
          s.reads }
    else none

/-- The file before its first access. It holds what a first read of its pages would find. -/
def opened (blocks : BlockSize) (disk : Memory UInt8) (i_size : ℕ) (memory : ℕ → Memory UInt8) :
    CachedFile where
  world := {
    blocks := blocks
    pages := fun i => World.fresh (memory i)
    disk := disk
    i_size := i_size
    handle := none
    started := 0
    log := [] }
  handed _ _ := false
  content x := disk (x % blocks.size)
  home _ := some 0
  reads := []

end CachedFile

/-- The file, its cache and its device as a transition system. -/
def cachedFile : System CachedFile CacheAct :=
  System.ofPartial CachedFile.next

end QuickDevSkeleton.Journal
