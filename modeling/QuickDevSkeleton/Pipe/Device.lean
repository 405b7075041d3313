import QuickDevSkeleton.Kernel.UserCopy

/-!
# The pipe device

The operations of `protect/pipe.c`, each as what it does in one visit to the section under
`mysem`: it either finds that it has to wait, or runs to its return. The pointers of the
device are addresses in the kernel's memory.
-/

namespace QuickDevSkeleton.Pipe

open Foundations

def BUF_LEN : ℕ := 100

/-- The `ioctl` type letter `'z'`. -/
def PIPE : ℕ := 0x7a

/-- `_IO(PIPE, 1)`. -/
def PIPE_RESET : ℕ := PIPE <<< 8 ||| 1

def IOC_TYPE (cmd : ℕ) : ℕ := (cmd >>> 8) &&& 0xff

/-- The fields of `struct mydev` that its operations use, and the memory they point into. -/
structure Mydev where
  start : ℕ
  end_ : ℕ
  wp : ℕ
  rp : ℕ
  mem : Memory UInt8

/-- What a visit gives back: the value returned, or `none` when the caller has to wait, and
the bytes that reached its buffer. -/
structure Reply where
  ret : Option ℤ
  bytes : List UInt8
  deriving DecidableEq

/-- The device that `my_init` sets up in the zeroed block at `start`. -/
def my_init (mem : Memory UInt8) (start : ℕ) : Mydev where
  start := start
  end_ := start + BUF_LEN
  wp := start
  rp := start
  mem := mem.write start (List.replicate BUF_LEN 0)

namespace Mydev

variable (dev : Mydev)

def spacefree : ℕ :=
  if dev.rp = dev.wp then toSizeT ((dev.end_ : ℤ) - dev.start - 1)
  else if dev.rp < dev.wp then toSizeT ((BUF_LEN : ℤ) + dev.rp - dev.wp - 1)
  else toSizeT ((dev.rp : ℤ) - dev.wp - 1)

/-- The two minima by which `my_read` cuts its count. -/
def readCount (count : ℕ) : ℕ :=
  let count := if dev.wp > dev.rp then min count (toSizeT ((dev.wp : ℤ) - dev.rp)) else count
  if dev.wp < dev.rp then min count (toSizeT ((dev.end_ : ℤ) - dev.rp)) else count

/-- The three minima by which `my_write` cuts its count. -/
def writeCount (count : ℕ) : ℕ :=
  let count := min count dev.spacefree
  let count := if dev.rp > dev.wp then min count (toSizeT ((dev.rp : ℤ) - dev.wp - 1)) else count
  if dev.rp ≤ dev.wp then min count (toSizeT ((dev.end_ : ℤ) - dev.wp)) else count

/-- `dev->rp += count`, wrapped at the end of the buffer. -/
def moveRp (count : ℕ) : Mydev :=
  let dev := { dev with rp := dev.rp + count }
  if dev.rp = dev.end_ then { dev with rp := dev.start } else dev

/-- `dev->wp += count`, wrapped at the end of the buffer. -/
def moveWp (count : ℕ) : Mydev :=
  let dev := { dev with wp := dev.wp + count }
  if dev.wp = dev.end_ then { dev with wp := dev.start } else dev

/-- `my_read` from its count to its `up`, with `mysem` held and something to read. -/
def readSection (count : ℕ) (c : UserCopy) : Mydev × Reply :=
  let count := dev.readCount count
  let (bytes, missing) := c.copy_to_user dev.mem dev.rp count
  if missing ≠ 0 then (dev, ⟨some (-EFAULT), bytes⟩)
  else (dev.moveRp count, ⟨some count, bytes⟩)

/-- `my_write` from its count to its `up`, with `mysem` held and free space. `data` are the
`count` bytes at the caller's `buf`. -/
def writeSection (data : List UInt8) (c : UserCopy) : Mydev × Reply :=
  let count := dev.writeCount data.length
  let (mem, missing) := c.copy_from_user dev.mem dev.wp (data.take count)
  let dev := { dev with mem := mem }
  if missing ≠ 0 then (dev, ⟨some (-EFAULT), []⟩)
  else (dev.moveWp count, ⟨some count, []⟩)

/-- `PIPE_RESET` with `mysem` held. -/
def reset : Mydev :=
  { dev with rp := dev.start, wp := dev.start }

def my_read (count : ℕ) (c : UserCopy) : Mydev × Reply :=
  if dev.wp = dev.rp then (dev, ⟨none, []⟩) else dev.readSection count c

def my_write (data : List UInt8) (c : UserCopy) : Mydev × Reply :=
  if dev.spacefree = 0 then (dev, ⟨none, []⟩) else dev.writeSection data c

def my_ioctl (cmd : ℕ) : Mydev × Reply :=
  if IOC_TYPE cmd ≠ PIPE then (dev, ⟨some (-ENOTTY), []⟩)
  else if cmd = PIPE_RESET then (dev.reset, ⟨some 0, []⟩)
  else (dev, ⟨some (-EINVAL), []⟩)

end Mydev

/-- The calls on the device, each with what its caller passes and how its user copy goes. -/
inductive Call where
  | read (count : ℕ) (c : UserCopy)
  | write (data : List UInt8) (c : UserCopy)
  | ioctl (cmd : ℕ)

/-- One call, for one visit to the section under `mysem`. -/
def Mydev.call (dev : Mydev) : Call → Mydev × Reply
  | .read count c => dev.my_read count c
  | .write data c => dev.my_write data c
  | .ioctl cmd => dev.my_ioctl cmd

end QuickDevSkeleton.Pipe
