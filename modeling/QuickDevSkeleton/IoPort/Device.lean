import QuickDevSkeleton.Kernel.UserCopy

/-!
# Reading I/O ports

The two character devices of `io/my_ioport.c` and `io/my_ioport2.c`: a read copies the 32-bit
registers from the file position on into an array of `unsigned long` and the array to the caller.
The first module reads the ports with `inl`, the second one with `ioread32` where `ioport_map` has
put them, and each of them twice.
-/

namespace QuickDevSkeleton.IoPort

open Foundations

/-! ### Machine words -/

/-- The sizes of an `unsigned long`; a `size_t` and a pointer have the same. -/
inductive Ulong where
  | four
  | eight
  deriving DecidableEq

namespace Ulong

def size : Ulong → ℕ
  | four => 4
  | eight => 8

/-- How many values there are. -/
def card : Ulong → ℕ
  | four => 2 ^ 32
  | eight => 2 ^ 64

/-- The conversion of an integer. -/
def cast (L : Ulong) (z : ℤ) : ℕ :=
  (z % L.card).toNat

end Ulong

/-- A byte of a register, counted from the lowest one; behind the last one there are zeros. -/
def byte (v : UInt32) (k : ℕ) : UInt8 :=
  UInt8.ofNat (v.toNat / 256 ^ k)

/-- A register as an `unsigned long` in memory. -/
def Ulong.bytes (L : Ulong) (v : UInt32) : List UInt8 :=
  (List.range L.size).map (byte v)

/-! ### The kernel buffer -/

/-- A block of `size` bytes and what lies behind it. `stores` are the places that have been written,
with their lengths, and `reads` the registers that have been read, the last one first, with their
values. -/
structure Kbuf where
  size : ℕ
  mem : Memory UInt8
  stores : List (ℕ × ℕ)
  reads : List (ℕ × UInt32)

/-- `kbuf = kzalloc(count)`. A block that can be allocated is far smaller than the range of the
`int` that counts through it. -/
def Kbuf.kzalloc (count : ℕ) : Kbuf :=
  ⟨count, fun _ => 0, [], []⟩

/-- No block. -/
def Kbuf.none : Kbuf :=
  Kbuf.kzalloc 0

/-- What a call depends on: whether there is memory, the values of the registers, which may change
from one access to the next (`register k a` is what access number `k` finds at `a`), and the user
copy. -/
structure Answers where
  kzalloc : Bool
  register : ℕ → ℕ → UInt32
  copy : UserCopy

/-- `kbuf[i / 4] = inl(first + i)`. -/
def Kbuf.assign (L : Ulong) (K : Answers) (first : ℕ) (b : Kbuf) (i : ℕ) : Kbuf :=
  let a := L.cast (first + i)
  let v := K.register b.reads.length a
  { b with
    mem := b.mem.write (L.size * (i / 4)) (L.bytes v)
    stores := (L.size * (i / 4), L.size) :: b.stores
    reads := (a, v) :: b.reads }

/-- The values of `i` in `for (i = 0; i < count; i += 4)`. -/
def counters (count : ℕ) : List ℕ :=
  List.range' 0 ((count + 3) / 4) 4

/-- That loop, with the assignment as its body. -/
def Kbuf.fill (L : Ulong) (K : Answers) (first count : ℕ) (b : Kbuf) : Kbuf :=
  (counters count).foldl (Kbuf.assign L K first) b

/-! ### Reads -/

/-- What a call returns and leaves: its result, the bytes at the caller's `buf`, the position, and
the buffer it has worked on and freed. -/
structure Reply where
  ret : ℤ
  bytes : List UInt8
  f_pos : ℤ
  kbuf : Kbuf

/-- The part of `count` that is in the window. -/
def cut (L : Ulong) (port_size count f_pos : ℕ) : ℕ :=
  min count (L.cast (port_size - f_pos))

/-- A read whose loops are `fill`. -/
def readWith (L : Ulong) (K : Answers) (fill : ℕ → Kbuf → Kbuf) (port_size count f_pos : ℕ) :
    Reply :=
  if count &&& 0x3 ≠ 0 then ⟨-1, [], f_pos, Kbuf.none⟩
  else
    let count := cut L port_size count f_pos
    if count = 0 then ⟨count, [], f_pos, Kbuf.none⟩
    else if !K.kzalloc then ⟨-ENOMEM, [], f_pos, Kbuf.none⟩
    else
      let kbuf := fill count (Kbuf.kzalloc count)
      let (bytes, missing) := K.copy.copy_to_user kbuf.mem 0 count
      if missing ≠ 0 then ⟨-EFAULT, bytes, f_pos, kbuf⟩
      else ⟨count, bytes, toLoff (f_pos + count), kbuf⟩

/-- The parameters of both modules. -/
structure Params (L : Ulong) where
  port : ℕ
  port_size : ℕ
  port_lt : port < L.card
  port_size_lt : port_size < L.card

/-- The device of the second module; `ioport_map` has put the ports at `vir_addr`, which is null if
it could not. -/
structure Mydev (L : Ulong) where
  vir_addr : ℕ
  vir_addr_lt : vir_addr < L.card

section

variable {L : Ulong} (m : Params L) (d : Mydev L) (K : Answers) (count f_pos : ℕ)

/-- The read of `my_ioport.c`. -/
def MyIoport.my_read : Reply :=
  readWith L K (fun count kbuf => kbuf.fill L K (m.port + f_pos) count) m.port_size count f_pos

/-- The read of `my_ioport2.c`, which runs its loop twice. -/
def MyIoport2.my_read : Reply :=
  readWith L K
    (fun count kbuf =>
      (kbuf.fill L K (d.vir_addr + f_pos) count).fill L K (d.vir_addr + f_pos) count)
    m.port_size count f_pos

/-- The port that `inl` reads at a number. -/
def MyIoport.portAt (a : ℕ) : Option ℤ :=
  some a

/-- The port that `ioread32` reads at an address: they lie there one after the other. -/
def MyIoport2.portAt (a : ℕ) : Option ℤ :=
  if d.vir_addr = 0 then none else some (m.port + (a - d.vir_addr))

end

end QuickDevSkeleton.IoPort
