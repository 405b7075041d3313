import Mathlib.Logic.Function.Basic
import QuickDevSkeleton.Foundations.Exec
import QuickDevSkeleton.Kernel.Slab
import QuickDevSkeleton.Kernel.UserCopy

/-!
# The multi-buffer character device

The functions of `char/multi_mem.c`: `setup_mydev` and `release_mydev`, which allocate and
free the device structures, and the file operations. Pointers are kernel addresses and `0` is
`NULL`; a `struct mydev` is found by its address.
-/

namespace QuickDevSkeleton.MultiMem

open Foundations

def BUF_LEN : ℕ := 1024

def DEV_NUM : ℕ := 4

structure Mydev where
  start : ℕ
  end_ : ℕ
  wp : ℕ
  buf_size : ℕ

/-- `sizeof(struct mydev)`: three pointers and a padded `unsigned int`. -/
def sizeofMydev : ℕ := 32

/-- The memory of the module: allocated blocks, bytes, device structures by address, and the
global array `multi_devs`. -/
structure World where
  slab : Slab
  mem : Memory UInt8
  structs : ℕ → Mydev
  multi_devs : ℕ → ℕ

namespace World

/-- `kzalloc(size)`. -/
def kzalloc (A : Allocator) (size : ℕ) : Exec World ℕ := fun w =>
  let (p, slab) := w.slab.kzalloc A size
  (some p, { w with
    slab := slab
    mem := if p = 0 then w.mem else w.mem.write p (List.replicate size 0) })

def kfree (p : ℕ) : Exec World PUnit := fun w =>
  match w.slab.kfree p with
  | some slab => (some ⟨⟩, { w with slab := slab })
  | none => (none, w)

/-- `devs[i] = p`, where a new structure is zeroed. -/
def setDev (i p : ℕ) (w : World) : World :=
  { w with
    multi_devs := Function.update w.multi_devs i p
    structs := if p = 0 then w.structs else Function.update w.structs p ⟨0, 0, 0, 0⟩ }

/-- Assignments to the fields of `devs[i]`. -/
def setFields (i : ℕ) (f : Mydev → Mydev) (w : World) : World :=
  { w with
    structs := Function.update w.structs (w.multi_devs i) (f (w.structs (w.multi_devs i))) }

end World

/-! ### Allocation -/

/-- The loop of `release_mydev` from entry `i` on, for `n` more entries. -/
def releaseFrom (i : ℕ) : ℕ → Exec World PUnit
  | 0 => pure ⟨⟩
  | n + 1 => Exec.withState fun w =>
    if w.multi_devs i = 0 then Exec.crash
    else do
      World.kfree (w.structs (w.multi_devs i)).start
      World.kfree (w.multi_devs i)
      releaseFrom (i + 1) n

def release_mydev (num : ℕ) : Exec World PUnit :=
  releaseFrom 0 num

/-- The buffer size that `buf_lens[i]` asks for. -/
def bufSize (len : ℕ) : ℕ :=
  if len ≥ 4096 then 4096 else if len = 0 then BUF_LEN else len

/-- The body of the loop of `setup_mydev`: `0` to go on, or the error to return. -/
def setupOne (A : Allocator) (buf_lens : ℕ → ℕ) (i : ℕ) : Exec World ℤ := do
  let p ← World.kzalloc A sizeofMydev
  Exec.modify (World.setDev i p)
  if p = 0 then
    release_mydev (i + 1)
    pure (-ENOMEM)
  else
    let size := bufSize (buf_lens i)
    Exec.modify (World.setFields i fun d => { d with buf_size := size })
    let q ← World.kzalloc A size
    Exec.modify (World.setFields i fun d => { d with start := q })
    if q = 0 then
      release_mydev (i + 1)
      pure (-ENOMEM)
    else
      Exec.modify (World.setFields i fun d => { d with end_ := q + size, wp := q })
      pure 0

/-- The loop of `setup_mydev` from entry `i` on, for `n` more entries. -/
def setupFrom (A : Allocator) (buf_lens : ℕ → ℕ) (i : ℕ) : ℕ → Exec World ℤ
  | 0 => pure 0
  | n + 1 => do
    let r ← setupOne A buf_lens i
    if r ≠ 0 then pure r else setupFrom A buf_lens (i + 1) n

def setup_mydev (A : Allocator) (buf_lens : ℕ → ℕ) (num : ℕ) : Exec World ℤ :=
  setupFrom A buf_lens 0 num

/-! ### File operations -/

/-- An open file: the minor number of its inode, and the fields the driver uses. -/
structure File where
  minor : Fin DEV_NUM
  private_data : ℕ
  f_pos : ℤ

def my_open (w : World) (minor : Fin DEV_NUM) : File where
  minor := minor
  private_data := w.multi_devs minor
  f_pos := 0

/-- `my_read` at `*f_pos`: the value returned, the bytes that reached the caller, and
`*f_pos` afterwards. -/
def my_read (w : World) (filp : File) (count : ℕ) (f_pos : ℤ) (c : UserCopy) :
    ℤ × List UInt8 × ℤ :=
  let dev := w.structs filp.private_data
  if f_pos ≥ (dev.wp : ℤ) - dev.start then (0, [], f_pos)
  else
    let count := min count (toSizeT ((dev.wp : ℤ) - dev.start - f_pos))
    if count ≤ 0 then (0, [], f_pos)
    else
      let (bytes, missing) := c.copy_to_user w.mem ((dev.start : ℤ) + f_pos).toNat count
      if missing ≠ 0 then (-EFAULT, bytes, f_pos)
      else (count, bytes, toLoff (f_pos + count))

/-- `my_write`, which never looks at its position. `data` are the `count` bytes at `buf`. -/
def my_write (w : World) (filp : File) (data : List UInt8) (c : UserCopy) : World × ℤ :=
  let dev := w.structs filp.private_data
  let count := min data.length (toSizeT ((dev.end_ : ℤ) - dev.wp))
  if 0 = count then (w, 0)
  else
    let (mem, missing) := c.copy_from_user w.mem dev.wp (data.take count)
    let w := { w with mem := mem }
    if missing ≠ 0 then (w, -EFAULT)
    else
      let dev := { dev with wp := dev.wp + count }
      ({ w with structs := Function.update w.structs filp.private_data dev }, count)

/-- `my_llseek`: the value returned and `filp->f_pos` afterwards. -/
def my_llseek (w : World) (filp : File) (offset : ℤ) (origin : ℕ) : ℤ × ℤ :=
  let dev := w.structs filp.private_data
  let offset : ℤ :=
    match origin with
    | 1 => toLoff (offset + filp.f_pos)
    | 2 => toLoff (offset + dev.buf_size)
    | _ => offset
  if offset < 0 ∨ offset > dev.buf_size then (-EINVAL, filp.f_pos)
  else (offset, offset)

/-! ### Calls -/

/-- The calls that reach the driver. Only the `DEV_NUM` minors of its `cdev` can be opened. -/
inductive Call where
  | open_ (fd : ℕ) (minor : Fin DEV_NUM)
  | read (fd count : ℕ) (c : UserCopy)
  | pread (fd pos count : ℕ) (c : UserCopy)
  | write (fd : ℕ) (data : List UInt8) (c : UserCopy)
  | pwrite (fd pos : ℕ) (data : List UInt8) (c : UserCopy)
  | llseek (fd : ℕ) (offset : ℤ) (origin : ℕ)

structure Reply where
  ret : ℤ
  bytes : List UInt8

/-- The module and the open files. -/
structure State where
  world : World
  files : ℕ → Option File

namespace State

variable (s : State)

def setFile (fd : ℕ) (filp : File) : State :=
  { s with files := Function.update s.files fd (some filp) }

/-- A call on an open file, or `-EBADF`. -/
def withFile (fd : ℕ) (k : File → State × Reply) : State × Reply :=
  match s.files fd with
  | none => (s, ⟨-EBADF, []⟩)
  | some filp => k filp

/-- One call. A sequential read works at the position of its file and stores it back; a
positional one has its own. -/
def call : Call → State × Reply
  | .open_ fd minor => (s.setFile fd (my_open s.world minor), ⟨0, []⟩)
  | .read fd count c => s.withFile fd fun filp =>
    let (ret, bytes, pos) := my_read s.world filp count filp.f_pos c
    (s.setFile fd { filp with f_pos := pos }, ⟨ret, bytes⟩)
  | .pread fd pos count c => s.withFile fd fun filp =>
    let (ret, bytes, _) := my_read s.world filp count pos c
    (s, ⟨ret, bytes⟩)
  | .write fd data c | .pwrite fd _ data c => s.withFile fd fun filp =>
    let (w, ret) := my_write s.world filp data c
    ({ s with world := w }, ⟨ret, []⟩)
  | .llseek fd offset origin => s.withFile fd fun filp =>
    let (ret, pos) := my_llseek s.world filp offset origin
    (s.setFile fd { filp with f_pos := pos }, ⟨ret, []⟩)

end State

end QuickDevSkeleton.MultiMem
