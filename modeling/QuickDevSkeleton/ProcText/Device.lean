import QuickDevSkeleton.Foundations.Exec
import QuickDevSkeleton.Foundations.Heap
import QuickDevSkeleton.Kernel.UserCopy

/-!
# A text in a proc file

The proc file of `debug/my_proc2.c`: a write replaces the block that `ker_buf` points to, a read
prints it as a string, and the exit frees it.
-/

namespace QuickDevSkeleton.ProcText

open Foundations

/-- A pointer to a kernel block. `kzalloc(0)` returns `ZERO_SIZE_PTR`, which is not null and which
`kfree` ignores like a null pointer. -/
inductive Ptr where
  | null
  | zeroSize
  | block (p : ℕ)
  deriving DecidableEq

/-- `ker_buf`, and the allocated blocks with their contents. -/
structure Globals where
  ker_buf : Ptr
  heap : Heap (List UInt8)

namespace Globals

variable (g : Globals)

/-- `ker_buf = kzalloc(count)`; `alloc` tells whether there is memory for it. A block that can be
allocated is far smaller than the `int` that its length is returned in. -/
def kzalloc (alloc : Bool) (count : ℕ) : Globals :=
  if alloc then
    if count = 0 then { g with ker_buf := .zeroSize }
    else { ker_buf := .block g.heap.next, heap := g.heap.alloc (List.replicate count 0) }
  else { g with ker_buf := .null }

/-- The first bytes of the block at `ker_buf` become `bs`. -/
def store (bs : List UInt8) : Globals :=
  match g.ker_buf with
  | .block p => { g with heap := g.heap.modify p fun b => bs ++ b.drop bs.length }
  | _ => g

end Globals

/-- `kfree(p)`: a block that is not allocated must not be freed. -/
def kfree : Ptr → Exec Globals Unit
  | .block p => Exec.withState fun g =>
    if (g.heap.cell p).isSome then Exec.modify fun g => { g with heap := g.heap.free p }
    else Exec.crash
  | _ => pure ()

/-- The bytes of a text. -/
def ascii (s : String) : List UInt8 :=
  s.toList.map fun c => c.toNat.toUInt8

lemma length_ascii (s : String) : (ascii s).length = s.length := by
  rw [ascii, List.length_map, String.length_toList]

def info : String := "Information from my_init"

/-- The string that starts where the bytes `bs` do. -/
def cstring (bs : List UInt8) : List UInt8 :=
  bs.takeWhile (· ≠ 0)

/-- The text that `proc_read` puts on its page, whose length it returns. If the block has no
terminator, the string goes on with what lies `behind` it; for a pointer below the first page
`sprintf` prints `(null)`. -/
def proc_read (behind : List UInt8) : Exec Globals (List UInt8) :=
  Exec.withState fun g =>
    match g.ker_buf with
    | .null => pure (ascii "Cat /proc/proc_test\n" ++ ascii info ++ ascii "\n")
    | .zeroSize => pure (ascii "(null)\n")
    | .block p =>
      match g.heap.cell p with
      | some b => pure (cstring (b ++ behind) ++ ascii "\n")
      | none => Exec.crash

/-- `data` are the `count` bytes at the caller's `buf`. -/
def proc_write (alloc : Bool) (data : List UInt8) (c : UserCopy) : Exec Globals ℤ := do
  Exec.withState fun g => kfree g.ker_buf
  Exec.modify fun g => g.kzalloc alloc data.length
  Exec.withState fun g =>
    if g.ker_buf = .null then pure (-ENOMEM)
    else do
      Exec.modify fun g => g.store (c.stored data)
      if c.missing data.length ≠ 0 then do
        kfree g.ker_buf
        pure (-EFAULT)
      else pure data.length

def my_exit : Exec Globals Unit :=
  Exec.withState fun g => kfree g.ker_buf

end QuickDevSkeleton.ProcText
