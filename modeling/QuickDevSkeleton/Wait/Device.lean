import QuickDevSkeleton.Foundations.System
import QuickDevSkeleton.Kernel.UserCopy

/-!
# A log with blocking readers

The device of `time/my_wait.c`. Writes append to one buffer; every open file reads it from its own
position, and waits at its end. A read stops at every statement at which a write can come in
between: its tests of `wp`, the steps of `wait_event_interruptible`, and its copy.
-/

namespace QuickDevSkeleton.Wait

open Foundations

def BUF_LEN : ℕ := 100

def ERESTARTSYS : ℤ := 512

/-- The fields of `struct mydev` that its operations use, and the memory they point into. -/
structure Mydev where
  start : ℕ
  end_ : ℕ
  wp : ℕ
  mem : Memory UInt8

/-- The device that `my_init` sets up in the zeroed block at `start`. -/
def my_init (mem : Memory UInt8) (start : ℕ) : Mydev where
  start := start
  end_ := start + BUF_LEN
  wp := start
  mem := mem.write start (List.replicate BUF_LEN 0)

/-- `priv->wp - priv->start - *pos`. -/
def Mydev.remaining (dev : Mydev) (pos : ℤ) : ℤ :=
  dev.wp - dev.start - pos

/-- `my_write` up to its `wake_up`. `data` are the `count` bytes at the caller's `buf`. -/
def Mydev.my_write (dev : Mydev) (data : List UInt8) (c : UserCopy) : Mydev × ℤ :=
  let count := min data.length (toSizeT ((dev.end_ : ℤ) - dev.wp))
  if count = 0 then (dev, count)
  else
    let (mem, missing) := c.copy_from_user dev.mem dev.wp (data.take count)
    let dev := { dev with mem := mem }
    if missing ≠ 0 then (dev, -EFAULT) else ({ dev with wp := dev.wp + count }, count)

/-! ### Reads -/

/-- Where a file is in its call of `my_read`. -/
inductive Phase where
  /-- Not in a call. -/
  | idle
  /-- Past the test for the end of the buffer, at the test for something to read. -/
  | entered (count : ℕ)
  /-- At the first test of `wait_event_interruptible`. -/
  | waiting (count : ℕ)
  /-- At `prepare_to_wait`. -/
  | preparing (count : ℕ)
  /-- On the wait queue, at the second test; `signal` tells whether a signal was pending. -/
  | prepared (count : ℕ) (signal : Bool)
  /-- On the wait queue, with the second test failed: at `schedule`. -/
  | falling (count : ℕ)
  /-- On the wait queue, inside `schedule`. -/
  | asleep (count : ℕ)
  /-- At the computation of the count. -/
  | counting (count : ℕ)
  /-- At `copy_to_user`. -/
  | copying (count : ℕ)

/-- The process is on `readq`. -/
def Phase.queued : Phase → Bool
  | .prepared _ _ | .falling _ | .asleep _ => true
  | _ => false

/-- The process is past its last test before it sleeps, or sleeps. -/
def Phase.down : Phase → Bool
  | .falling _ | .asleep _ => true
  | _ => false

/-- What a call has returned, from which `count` and at which position. -/
structure Reply where
  count : ℕ
  pos : ℤ
  ret : ℤ

/-- An open file: its position, the call in progress with the count it was made with, whether a
`wake_up` has reached it since it last queued itself, the bytes that successful reads have brought,
and what its calls have returned. -/
structure Reader where
  f_pos : ℤ
  phase : Phase
  asked : ℕ
  woken : Bool
  delivered : List UInt8
  replies : List Reply

namespace Reader

variable (r : Reader)

def goto (ph : Phase) : Reader :=
  { r with phase := ph }

def reply (ret : ℤ) : Reader :=
  { r with phase := .idle, replies := ⟨r.asked, r.f_pos, ret⟩ :: r.replies }

/-- The call of `my_read`, up to its test for the end of the buffer. -/
def enter (dev : Mydev) (count : ℕ) : Option Reader :=
  match r.phase with
  | .idle =>
    let r := { r with asked := count }
    some (if count = 0 then r.reply count
      else if r.f_pos + dev.start = (dev.end_ : ℤ) then r.reply 0
      else r.goto (.entered count))
  | _ => none

/-- The next step of the call. `signal` tells whether a signal is pending, and `c` how the copy to
the caller goes. -/
def step (dev : Mydev) (signal : Bool) (c : UserCopy) : Option Reader :=
  match r.phase with
  | .idle => none
  | .entered count =>
    some (r.goto (if dev.remaining r.f_pos = 0 then .waiting count else .counting count))
  | .waiting count =>
    some (r.goto (if dev.remaining r.f_pos ≠ 0 then .counting count else .preparing count))
  | .preparing count => some { r with phase := .prepared count signal, woken := false }
  | .prepared count signal =>
    some (if dev.remaining r.f_pos ≠ 0 then r.goto (.counting count)
      else if signal then r.reply (-ERESTARTSYS)
      else r.goto (.falling count))
  | .falling count => some (r.goto (.asleep count))
  | .asleep count => if r.woken ∨ signal then some (r.goto (.preparing count)) else none
  | .counting count =>
    let count := min count (toSizeT (dev.remaining r.f_pos))
    some (if count = 0 then r.reply count else r.goto (.copying count))
  | .copying count =>
    let (bytes, missing) := c.copy_to_user dev.mem (dev.start + r.f_pos).toNat count
    some (if missing ≠ 0 then r.reply (-EFAULT)
      else
        let r := r.reply count
        { r with f_pos := toLoff (r.f_pos + count), delivered := r.delivered ++ bytes })

/-- `wake_up` on the queue of the device. -/
def wake : Reader :=
  { r with woken := r.woken || r.phase.queued }

end Reader

/-! ### Files on one device -/

/-- The device, its open files, and the bytes accepted by writes. -/
structure World where
  dev : Mydev
  readers : ℕ → Reader
  accepted : List UInt8

/-- A file calls `my_read`, or goes on with its call, or there is a write. -/
inductive WorldAct where
  | enter (f : ℕ) (count : ℕ)
  | step (f : ℕ) (signal : Bool) (c : UserCopy)
  | write (data : List UInt8) (c : UserCopy)

namespace World

variable (w : World)

def setReader (f : ℕ) (r : Reader) : World :=
  { w with readers := Function.update w.readers f r }

/-- One step. A write that has accepted bytes ends with `wake_up`. -/
def next : WorldAct → Option World
  | .enter f count => ((w.readers f).enter w.dev count).map (w.setReader f)
  | .step f signal c => ((w.readers f).step w.dev signal c).map (w.setReader f)
  | .write data c =>
    let (dev, ret) := w.dev.my_write data c
    some (if 0 < ret then
        { dev := dev
          readers := fun f => (w.readers f).wake
          accepted := w.accepted ++ data.take ret.toNat }
      else { w with dev := dev })

/-- The device after `my_init`, with every file at position 0. -/
def init (mem : Memory UInt8) (start : ℕ) : World where
  dev := my_init mem start
  readers _ := ⟨0, .idle, 0, false, [], []⟩
  accepted := []

end World

/-- The files of one device, and its writers. -/
def files : System World WorldAct :=
  System.ofPartial World.next

end QuickDevSkeleton.Wait
