import Mathlib.Algebra.Order.Group.Int
import QuickDevSkeleton.Foundations.Exec
import QuickDevSkeleton.Foundations.Memory

/-!
# Pages filled from the first block

The `example_readpage` functions of `fs/submit_bh_readpage`, `fs/buffer_read` and `fs/bread`. Each
of them reads one block of the size of the superblock into a page, marks the page up to date and
unlocks it. Every byte of memory carries whether a successful read has brought it.
-/

namespace QuickDevSkeleton.FirstBlock

open Foundations

def PAGE_SIZE : ℕ := 4096

/-- A byte, and whether a successful read of the device has brought it or it was zeroed. -/
structure Cell where
  byte : UInt8
  loaded : Bool

/-- The bytes that a read has brought. -/
def brought (bytes : List UInt8) : List Cell :=
  bytes.map fun b => ⟨b, true⟩

/-- Memory as it was left by somebody else. -/
def unread (m : Memory UInt8) : Memory Cell :=
  fun x => ⟨m x, false⟩

structure Page where
  locked : Bool
  uptodate : Bool
  data : Memory Cell

/-- A page as it is passed to `readpage`, with what its memory happens to hold. -/
def Page.fresh (old : Memory UInt8) : Page where
  locked := true
  uptodate := false
  data := unread old

def Page.SetPageUptodate (p : Page) : Page :=
  { p with uptodate := true }

def Page.unlock_page (p : Page) : Page :=
  { p with locked := false }

structure SuperBlock where
  s_bdev : ℕ
  s_blocksize : ℕ
  s_blocksize_bits : ℕ

/-- The geometry that `example_fill_super` of all three filesystems sets. -/
def example_fill_super (s : SuperBlock) : SuperBlock :=
  { s with s_blocksize := 1024, s_blocksize_bits := 10 }

/-! ### Buffer heads -/

/-- A buffer head, whose data is the start of its page. -/
structure BufferHead where
  b_bdev : Option ℕ
  b_blocknr : ℕ
  b_size : ℕ
  locked : Bool
  mapped : Bool
  uptodate : Bool
  b_count : ℕ

/-- The head of the buffers of `size` bytes that `alloc_page_buffers` makes. -/
def alloc_page_buffers (size : ℕ) : BufferHead where
  b_bdev := none
  b_blocknr := 0
  b_size := size
  locked := false
  mapped := false
  uptodate := false
  b_count := 0

/-- The content of block `n` of a device, for blocks of `size` bytes. -/
def blockOf (disk : ℕ → Memory UInt8) (bdev n size : ℕ) : List UInt8 :=
  (disk bdev).read (n * size) size

/-- `submit_bh(READ, bh)` up to the end of the `wait_on_buffer` after it. The buffer must be locked,
mapped and on a device. `end_buffer_read_sync` marks it up to date if the read was successful,
unlocks it and drops a reference. -/
def submit_bh (disk : ℕ → Memory UInt8) (success : Bool) (bh : BufferHead) :
    Exec Page BufferHead :=
  match bh.b_bdev, bh.locked && bh.mapped with
  | some bdev, true => do
    Exec.modify fun p =>
      if success then
        { p with data := p.data.write 0 (brought (blockOf disk bdev bh.b_blocknr bh.b_size)) }
      else p
    pure { bh with uptodate := success, locked := false, b_count := bh.b_count - 1 }
  | _, _ => Exec.crash

/-! ### `readpage` -/

/-- `example_readpage` through the buffer of a page. `alloc` and `success` tell whether the buffers
could be allocated and whether the read was successful. -/
def readThroughBuffer (disk : ℕ → Memory UInt8) (s : SuperBlock) (alloc success : Bool) :
    Exec Page ℤ :=
  if !alloc then pure 0
  else do
    let bh := alloc_page_buffers 4096
    let bh := { bh with locked := true }
    let bh := { bh with mapped := true }
    let bh := { bh with b_bdev := some s.s_bdev, b_blocknr := 0, b_size := s.s_blocksize }
    let bh := { bh with b_count := bh.b_count + 1 }
    let _ ← submit_bh disk success bh
    Exec.modify Page.SetPageUptodate
    Exec.modify Page.unlock_page
    pure 0

namespace SubmitBhReadpage

def example_readpage (disk : ℕ → Memory UInt8) (s : SuperBlock) (alloc success : Bool) :
    Exec Page ℤ :=
  readThroughBuffer disk s alloc success

end SubmitBhReadpage

namespace BufferRead

def example_readpage (disk : ℕ → Memory UInt8) (s : SuperBlock) (alloc success : Bool) :
    Exec Page ℤ :=
  readThroughBuffer disk s alloc success

end BufferRead

namespace Bread

/-- The data of the buffer that `sb_bread` returns, with the memory that lies around it, or `none`
for `NULL`. -/
def sb_bread (disk : ℕ → Memory UInt8) (s : SuperBlock) (block : ℕ) (success : Bool)
    (around : Memory UInt8) : Option (Memory Cell) :=
  if success then
    some ((unread around).write 0 (brought (blockOf disk s.s_bdev block s.s_blocksize)))
  else none

def example_readpage (disk : ℕ → Memory UInt8) (s : SuperBlock) (success : Bool)
    (around : Memory UInt8) : Exec Page ℤ :=
  match sb_bread disk s 0 success around with
  | none => Exec.crash
  | some b_data => do
    Exec.modify fun p => { p with data := p.data.write 0 (b_data.read 0 4096) }
    Exec.modify Page.SetPageUptodate
    Exec.modify Page.unlock_page
    pure 0

end Bread

/-! ### What is published -/

/-- The page is unlocked, and up to date only if all of its bytes were loaded. -/
structure Published (p : Page) : Prop where
  unlocked : p.locked = false
  loaded : p.uptodate = true → ∀ i < PAGE_SIZE, (p.data i).loaded = true

variable {disk : ℕ → Memory UInt8} {s : SuperBlock} {old around : Memory UInt8}

/-- Of memory that nobody has loaded, a transfer loads the bytes that it brings. -/
lemma loaded_write {bytes : List UInt8} {i : ℕ} :
    ((unread old).write 0 (brought bytes) i).loaded = true ↔ i < bytes.length := by
  have hlen : (brought bytes).length = bytes.length := List.length_map _
  constructor
  · intro hloaded
    by_contra hno
    rw [Memory.write_outside _ (Or.inr (by omega))] at hloaded
    cases hloaded
  · intro hi
    have hinside := Memory.write_inside (unread old) (a := 0) (hlen ▸ hi)
    rw [Nat.zero_add] at hinside
    rw [hinside]
    simp [brought]

lemma length_blockOf (bdev n size : ℕ) : (blockOf disk bdev n size).length = size :=
  Memory.length_read _ _ _

/-- What a successful read through the buffer leaves: the block at the start of the page. -/
lemma readThroughBuffer_run :
    readThroughBuffer disk s true true (Page.fresh old) = (some 0,
      { locked := false
        uptodate := true
        data := (unread old).write 0 (brought (blockOf disk s.s_bdev 0 s.s_blocksize)) }) := rfl

/-- A failed read leaves the memory of the page as it was. -/
lemma readThroughBuffer_error :
    readThroughBuffer disk s true false (Page.fresh old) =
      (some 0, ⟨false, true, unread old⟩) := rfl

/-- The contract of a read through the buffer: the buffers are there, the read is successful, and
the block fills the page. -/
lemma readThroughBuffer_published_iff {alloc success : Bool} :
    Published (readThroughBuffer disk s alloc success (Page.fresh old)).2 ↔
      alloc = true ∧ success = true ∧ PAGE_SIZE ≤ s.s_blocksize := by
  cases alloc with
  | false =>
    refine ⟨fun h => ?_, fun h => nomatch h.1⟩
    exact nomatch h.unlocked
  | true =>
    cases success with
    | false =>
      rw [readThroughBuffer_error]
      refine ⟨fun h => ?_, fun h => nomatch h.2.1⟩
      exact nomatch h.loaded rfl 0 (by decide)
    | true =>
      rw [readThroughBuffer_run]
      constructor
      · intro h
        refine ⟨rfl, rfl, forall_lt_iff_le.mp fun i hi => ?_⟩
        have hlength : (blockOf disk s.s_bdev 0 s.s_blocksize).length = s.s_blocksize :=
          length_blockOf _ _ _
        rw [← hlength]
        exact loaded_write.mp (h.loaded rfl i hi)
      · rintro ⟨-, -, hfull⟩
        refine ⟨rfl, fun _ i hi => loaded_write.mpr ?_⟩
        rw [length_blockOf]
        exact hi.trans_le hfull

namespace Bread

lemma example_readpage_error :
    example_readpage disk s false around (Page.fresh old) = (none, Page.fresh old) := rfl

/-- A byte of the page is one of the block, or of what lies around it. -/
lemma example_readpage_loaded {i : ℕ} (hi : i < PAGE_SIZE) :
    ((example_readpage disk s true around (Page.fresh old)).2.data i).loaded = true ↔
      i < s.s_blocksize := by
  have hlen : i < (Memory.read ((unread around).write 0
      (brought (blockOf disk s.s_bdev 0 s.s_blocksize))) 0 4096).length := by
    rwa [Memory.length_read]
  have hinside := Memory.write_inside (unread old) (a := 0) hlen
  rw [Nat.zero_add, Memory.getElem_read, Nat.zero_add] at hinside
  change Cell.loaded (Memory.write (unread old) 0 (Memory.read _ 0 4096) i) = true ↔ _
  rw [hinside, loaded_write, length_blockOf]

/-- The contract of a copy from the buffer: it is there, and its block fills the page. -/
lemma example_readpage_published_iff {success : Bool} :
    Published (example_readpage disk s success around (Page.fresh old)).2 ↔
      success = true ∧ PAGE_SIZE ≤ s.s_blocksize := by
  cases success with
  | false =>
    rw [example_readpage_error]
    exact ⟨fun h => (nomatch h.unlocked), fun h => (nomatch h.1)⟩
  | true =>
    constructor
    · intro h
      refine ⟨rfl, forall_lt_iff_le.mp fun i hi => ?_⟩
      exact (example_readpage_loaded hi).mp (h.loaded rfl i hi)
    · rintro ⟨-, hfull⟩
      exact ⟨rfl, fun _ i hi => (example_readpage_loaded hi).mpr (hi.trans_le hfull)⟩

end Bread

/-- With the block size that `example_fill_super` sets, no call of the three functions keeps the
contract: each leaves the page locked or marks bytes up to date that nothing has loaded. -/
theorem readpage_not_published (disk : ℕ → Memory UInt8) (s : SuperBlock)
    (old around : Memory UInt8) (alloc success : Bool) :
    ¬ Published (SubmitBhReadpage.example_readpage disk (example_fill_super s) alloc success
      (Page.fresh old)).2 ∧
    ¬ Published (BufferRead.example_readpage disk (example_fill_super s) alloc success
      (Page.fresh old)).2 ∧
    ¬ Published (Bread.example_readpage disk (example_fill_super s) success around
      (Page.fresh old)).2 := by
  have hshort : ¬ PAGE_SIZE ≤ (example_fill_super s).s_blocksize :=
    show ¬ PAGE_SIZE ≤ 1024 by decide
  have hbuffer : ¬ Published (readThroughBuffer disk (example_fill_super s) alloc success
      (Page.fresh old)).2 := fun h => hshort (readThroughBuffer_published_iff.mp h).2.2
  exact ⟨hbuffer, hbuffer, fun h => hshort (Bread.example_readpage_published_iff.mp h).2⟩

/-- On a device of zeros, whose reads all succeed, byte 1024 of a page is what the memory held
before, and is marked up to date. -/
theorem readpage_publishes_unread :
    let old : Memory UInt8 := fun _ => 7
    let s := example_fill_super ⟨0, 0, 0⟩
    let page := (SubmitBhReadpage.example_readpage (fun _ _ => 0) s true true (Page.fresh old)).2
    page.uptodate = true ∧ (page.data 1024).byte = 7 ∧ ¬ Published page := by
  intro old s page
  have hdata : page.data = (unread old).write 0 (brought (blockOf (fun _ _ => 0) 0 0 1024)) := rfl
  have hbeyond : page.data 1024 = ⟨7, false⟩ := by
    rw [hdata, Memory.write_outside]
    · rfl
    · right
      rw [brought, List.length_map, length_blockOf]
  refine ⟨rfl, by rw [hbeyond], fun h => ?_⟩
  have hloaded := h.loaded rfl 1024 (by decide)
  rw [hbeyond] at hloaded
  cases hloaded

end QuickDevSkeleton.FirstBlock
