import Mathlib.Algebra.Order.Group.Int
import Mathlib.Logic.Function.Basic
import QuickDevSkeleton.Foundations.Exec
import QuickDevSkeleton.Kernel.UserCopy

/-!
# Mounting the journalled filesystem

`example_fill_super` and `example_init_journal` of `fs/journal/super_with_journal.c`, and the
mount and kill functions of `fs/journal/file_system.c`. Block devices are numbers, and so are
pointers to journals: a journal gets the number of journals created before it.
-/

namespace QuickDevSkeleton.Mount

open Foundations

/-- A superblock; its device is the number it is found under. `mounts` counts its mounts. -/
structure SuperBlock where
  s_blocksize : ℕ
  s_root : Bool
  mounts : ℕ

structure Journal where
  j_dev : ℕ
  j_start : ℕ
  j_len : ℕ
  j_blocksize : ℕ
  loaded : Bool

/-- The superblocks by device, the live journals by pointer, and the global variable
`example_journal`; `inodes` and `buffer_heads` count the references that nobody has given back
or taken over. -/
structure World where
  supers : ℕ → Option SuperBlock
  journals : ℕ → Option Journal
  created : ℕ
  example_journal : Option ℕ
  inodes : ℕ
  buffer_heads : ℕ
  module_refs : ℤ

/-- What the functions of the kernel answer during one mount. `bread` is the address of the
data of the block that `__bread` has read, `sb_read` whether the journal's superblock is
uptodate or could be read. -/
structure Outcomes where
  module_get : Bool
  root_inode : Bool
  logical_block_size : ℕ
  bread : Option ℕ
  journal_init_dev : Bool
  sb_read : Bool
  s_nr_users : ℕ
  journal_load : ℤ
  d_make_root : Bool

/-! ### Functions of the kernel -/

/-- `journal_init_dev`: a new journal. -/
def journal_init_dev (bdev start len blocksize : ℕ) : Exec World ℕ :=
  Exec.withState fun w => do
    Exec.modify fun w =>
      { w with
        journals := Function.update w.journals w.created (some ⟨bdev, start, len, blocksize, false⟩)
        created := w.created + 1 }
    pure w.created

def journal_load (K : Outcomes) : Option ℕ → Exec World ℤ
  | none => Exec.crash
  | some p => do
    Exec.modify fun w =>
      { w with
        journals := Function.update w.journals p
          ((w.journals p).map fun j => { j with loaded := decide (K.journal_load = 0) }) }
    pure K.journal_load

def journal_destroy : Option ℕ → Exec World Unit
  | none => Exec.crash
  | some p => Exec.modify fun w => { w with journals := Function.update w.journals p none }

/-- `d_make_root` takes the reference to the inode over, or drops it. -/
def d_make_root (K : Outcomes) : Exec World Bool := do
  Exec.modify fun w => { w with inodes := w.inodes - 1 }
  pure K.d_make_root

/-! ### `super_with_journal.c` -/

/-- `le32_to_cpu` is applied to the address of the field, not to what is stored there. -/
def example_init_journal (K : Outcomes) (bdev blocksize : ℕ) : Exec World (Option ℕ) := do
  if blocksize < K.logical_block_size then pure none
  else
    let sb_block := 1
    match K.bread with
    | none => pure none
    | some b_data =>
      Exec.modify fun w => { w with buffer_heads := w.buffer_heads + 1 }
      let len := (b_data + 4) % 2 ^ 32
      let start := sb_block + 1
      Exec.modify fun w => { w with buffer_heads := w.buffer_heads - 1 }
      if !K.journal_init_dev then pure none
      else
        let journal ← journal_init_dev bdev start len blocksize
        if !K.sb_read || K.s_nr_users ≠ 1 then
          journal_destroy (some journal)
          pure none
        else pure (some journal)

def example_fill_super (K : Outcomes) (s_bdev : ℕ) : Exec World ℤ := do
  let s_blocksize := 1024
  Exec.modify fun w =>
    { w with
      supers := Function.update w.supers s_bdev
        ((w.supers s_bdev).map fun s => { s with s_blocksize := s_blocksize }) }
  if !K.root_inode then pure (-ENOMEM)
  else
    Exec.modify fun w => { w with inodes := w.inodes + 1 }
    let journal ← example_init_journal K s_bdev s_blocksize
    Exec.modify fun w => { w with example_journal := journal }
    let err ← journal_load K journal
    if err ≠ 0 then
      journal_destroy journal
      Exec.modify fun w => { w with example_journal := none }
      pure err
    else
      let root ← d_make_root K
      Exec.modify fun w =>
        { w with
          supers := Function.update w.supers s_bdev
            ((w.supers s_bdev).map fun s => { s with s_root := root }) }
      if root then pure 0 else pure (-ENOMEM)

/-! ### `file_system.c` -/

/-- `kill_block_super` ends the superblock. -/
def example_kill_block_super (sb : ℕ) : Exec World Unit :=
  Exec.modify fun w =>
    { w with module_refs := w.module_refs - 1, supers := Function.update w.supers sb none }

/-- `mount_bdev(fs_type, flags, dev_name, data, example_fill_super)`: a superblock of the device
is mounted once more, or a new one is filled. -/
def mount_bdev (K : Outcomes) (bdev : ℕ) : Exec World ℤ :=
  Exec.withState fun w =>
    match w.supers bdev with
    | some s => do
      Exec.modify fun w =>
        { w with supers := Function.update w.supers bdev (some { s with mounts := s.mounts + 1 }) }
      pure 0
    | none => do
      Exec.modify fun w => { w with supers := Function.update w.supers bdev (some ⟨0, false, 1⟩) }
      let err ← example_fill_super K bdev
      if err ≠ 0 then
        example_kill_block_super bdev
        pure err
      else pure 0

/-- What a mount function returns. -/
inductive Dentry where
  | root
  | null
  | error (e : ℤ)
  deriving DecidableEq

def example_fs_mount (K : Outcomes) (bdev : ℕ) : Exec World Dentry := do
  if !K.module_get then pure .null
  else
    Exec.modify fun w => { w with module_refs := w.module_refs + 1 }
    let err ← mount_bdev K bdev
    if err ≠ 0 then pure (.error err) else pure .root

/-- `umount`: the superblock is killed with its last mount. -/
def umount (bdev : ℕ) : Exec World Unit :=
  Exec.withState fun w =>
    match w.supers bdev with
    | none => pure ⟨⟩
    | some s =>
      if s.mounts > 1 then
        Exec.modify fun w =>
          { w with
            supers := Function.update w.supers bdev (some { s with mounts := s.mounts - 1 }) }
      else example_kill_block_super bdev

/-! ### Operations on files of a mounted superblock -/

/-- The operations that work on the journal. -/
inductive FileOp where
  | get_block
  | write_begin
  | writepage
  | releasepage
  | sync_file
  | sync_fs

/-- The journal that an operation on a file of the superblock `_sb` works on. -/
def FileOp.journal (w : World) (_sb : ℕ) : FileOp → Option ℕ
  | .get_block => w.example_journal -- its UUID is printed
  | .write_begin => w.example_journal -- `is_journal_aborted`, `journal_start`
  | .writepage => w.example_journal -- the same
  | .releasepage => w.example_journal -- `journal_try_to_free_buffers`
  | .sync_file => w.example_journal -- `journal_force_commit`
  | .sync_fs => w.example_journal -- `journal_start_commit`, `log_wait_commit`

/-- The module is loaded and nothing is mounted. -/
def World.init : World where
  supers _ := none
  journals _ := none
  created := 0
  example_journal := none
  inodes := 0
  buffer_heads := 0
  module_refs := 0

end QuickDevSkeleton.Mount
