import Mathlib.Algebra.Order.Group.Int
import Mathlib.Algebra.Ring.Int.Defs
import Mathlib.Algebra.Ring.Nat
import QuickDevSkeleton.Foundations.Memory

/-!
# Kernel integers, error numbers and user copies

What every driver of the repository shares with the kernel: the 64-bit conversions of C, the
error numbers its functions return, the answers of interrupt handlers, and the two copies between
kernel and user memory.
-/

namespace QuickDevSkeleton

open Foundations

/-! ### Integers -/

/-- `(size_t)z`: conversion to an unsigned 64-bit integer. -/
def toSizeT (z : ℤ) : ℕ :=
  (z % 2 ^ 64).toNat

/-- A signed 64-bit sum as the machine stores it in a `loff_t`. -/
def toLoff (z : ℤ) : ℤ :=
  z.bmod (2 ^ 64)

lemma toSizeT_of_nonneg {z : ℤ} (h₀ : 0 ≤ z) (h : z < 2 ^ 64) : toSizeT z = z.toNat := by
  unfold toSizeT
  rw [Int.emod_eq_of_lt h₀ h]

lemma toLoff_of_small {z : ℤ} (h₀ : 0 ≤ z) (h : z < 2 ^ 63) : toLoff z = z := by
  unfold toLoff
  exact Int.bmod_eq_of_le (by omega) (by omega)

/-! ### Error numbers -/

def EIO : ℤ := 5
def EBADF : ℤ := 9
def ENOMEM : ℤ := 12
def EFAULT : ℤ := 14
def EBUSY : ℤ := 16
def ENODEV : ℤ := 19
def EINVAL : ℤ := 22
def ENOTTY : ℤ := 25
def EROFS : ℤ := 30

/-- What the return value of a file operation says: an error number, below zero, or a count. -/
def retval (z : ℤ) : Except ℤ ℕ :=
  if z < 0 then .error z else .ok z.toNat

@[simp] lemma retval_natCast (n : ℕ) : retval n = .ok n := by
  rw [retval, if_neg (Int.natCast_nonneg n).not_gt, Int.toNat_natCast]

/-! ### Interrupts -/

/-- What an interrupt handler returns. -/
inductive Irqreturn where
  | IRQ_NONE
  | IRQ_HANDLED
  deriving DecidableEq

/-! ### User copies -/

/-- How a copy between kernel and user memory goes: it faults after `moved` bytes if it is
asked for more. After a fault `copy_from_user` may fill the rest of its target with zeros. -/
structure UserCopy where
  moved : ℕ
  zeroRest : Bool

namespace UserCopy

variable (c : UserCopy)

/-- `copy_to_user(buf, src, count)`: the bytes that reach the caller, and how many did not. -/
def copy_to_user (m : Memory UInt8) (src count : ℕ) : List UInt8 × ℕ :=
  (m.read src (min c.moved count), count - min c.moved count)

/-- The bytes that `copy_from_user` leaves in its target when asked for all of `data`. -/
def stored (data : List UInt8) : List UInt8 :=
  data.take c.moved ++ if c.zeroRest then List.replicate (data.length - c.moved) 0 else []

/-- How many of `count` bytes are not copied. -/
def missing (count : ℕ) : ℕ :=
  count - min c.moved count

/-- `copy_from_user(dst, buf, count)`, where `data` are the `count` bytes at `buf`: the memory
afterwards and how many bytes were not copied. -/
def copy_from_user (m : Memory UInt8) (dst : ℕ) (data : List UInt8) : Memory UInt8 × ℕ :=
  (m.write dst (c.stored data), data.length - min c.moved data.length)

lemma copy_to_user_eq_zero {m : Memory UInt8} {src count : ℕ} :
    (c.copy_to_user m src count).2 = 0 ↔ count ≤ c.moved := by
  simp only [copy_to_user]
  omega

lemma copy_from_user_eq_zero {m : Memory UInt8} {dst : ℕ} {data : List UInt8} :
    (c.copy_from_user m dst data).2 = 0 ↔ data.length ≤ c.moved := by
  simp only [copy_from_user]
  omega

/-- What the caller has of a copy that faults. -/
lemma copy_to_user_short {m : Memory UInt8} {src count : ℕ} (h : c.moved ≤ count) :
    (c.copy_to_user m src count).1 = m.read src c.moved := by
  rw [copy_to_user, min_eq_left h]

lemma length_stored_le (data : List UInt8) : (c.stored data).length ≤ data.length := by
  simp only [stored, List.length_append, List.length_take]
  split
  · simp only [List.length_replicate]
    omega
  · simp only [List.length_nil]
    omega

/-- A copy that reports no missing byte has moved all of them. -/
lemma copy_to_user_ok {m : Memory UInt8} {src count : ℕ}
    (h : (c.copy_to_user m src count).2 = 0) :
    (c.copy_to_user m src count).1 = m.read src count := by
  rw [copy_to_user, min_eq_right (c.copy_to_user_eq_zero.mp h)]

lemma stored_ok {m : Memory UInt8} {dst : ℕ} {data : List UInt8}
    (h : (c.copy_from_user m dst data).2 = 0) : c.stored data = data := by
  have hle := c.copy_from_user_eq_zero.mp h
  simp [stored, List.take_of_length_le hle, Nat.sub_eq_zero_of_le hle]

lemma copy_from_user_ok {m : Memory UInt8} {dst : ℕ} {data : List UInt8}
    (h : (c.copy_from_user m dst data).2 = 0) :
    (c.copy_from_user m dst data).1 = m.write dst data := by
  rw [copy_from_user, c.stored_ok h]

end UserCopy

end QuickDevSkeleton
