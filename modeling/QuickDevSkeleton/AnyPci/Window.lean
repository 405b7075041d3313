import QuickDevSkeleton.Foundations.System
import QuickDevSkeleton.Kernel.Platform
import QuickDevSkeleton.Kernel.UserCopy

/-!
# Reads of the register window

The character device that `pci/any.c` makes for a network card: `co` opens it, and `cr` reads the
memory window of the card at the position of the file. The length of the window is an `int` there,
and the file has no `llseek` of its own, so that it can be left at any position.
-/

namespace QuickDevSkeleton.AnyPci

open Foundations

/-- The fields of `struct pci_test` that `cr` reads. `ioremap` has mapped the whole window, at
addresses that do not wrap around. -/
structure CardWindow where
  mem_resource : QuickDevSkeleton.Resource
  iomem_start : ℕ
  mapped : iomem_start + (resource_size mem_resource).toNat ≤ 2 ^ 64

/-- One call of `cr`: `regs` are the values of the registers while it reads them. -/
structure Request where
  len : ℕ
  offer : ℤ
  regs : Memory UInt8
  user : UserCopy

/-- The value returned, the bytes that reached the caller, and `*offer` afterwards. -/
structure Reply where
  ret : ℤ
  bytes : List UInt8
  offer : ℤ

/-- Conversion to `int`. -/
def toInt (z : ℤ) : ℤ :=
  z.bmod (2 ^ 32)

namespace CardWindow

variable (pt : CardWindow)

/-- `pt->mem_resource->end - pt->mem_resource->start + 1` as an `int`. -/
def buffer_len : ℤ :=
  ((resource_size pt.mem_resource).setWidth 32).toInt

/-- The comparison and the minimum are those of unsigned 64-bit integers. -/
def cr (q : Request) : Reply :=
  let rest := toSizeT (pt.buffer_len - q.offer)
  let target_len := toInt (if rest < q.len then rest else q.len)
  if pt.buffer_len ≤ q.offer then ⟨0, [], q.offer⟩
  else
    let (bytes, missing) :=
      q.user.copy_to_user q.regs (toSizeT (pt.iomem_start + q.offer)) (toSizeT target_len)
    if missing ≠ 0 then ⟨-1, bytes, q.offer⟩
    else ⟨target_len, bytes, toLoff (q.offer + target_len)⟩

end CardWindow

/-! ### An open file -/

/-- The calls on an open file: reads at its position and at other ones, and seeks. The kernel lets
no negative position through. -/
inductive FileCall where
  | read (len : ℕ) (regs : Memory UInt8) (user : UserCopy)
  | pread (len pos : ℕ) (regs : Memory UInt8) (user : UserCopy)
  | llseek (pos : ℕ)

/-- What `cr` is called with, if it is. -/
def FileCall.request (f_pos : ℤ) : FileCall → Option Request
  | .read len regs user => some ⟨len, f_pos, regs, user⟩
  | .pread len pos regs user => some ⟨len, pos, regs, user⟩
  | .llseek _ => none

/-- The position of the file after a call. -/
def CardWindow.call (pt : CardWindow) (f_pos : ℤ) : FileCall → Option ℤ
  | .read len regs user => some (pt.cr ⟨len, f_pos, regs, user⟩).offer
  | .pread _ pos _ _ => if pos < 2 ^ 63 then some f_pos else none
  | .llseek pos => if pos < 2 ^ 63 then some pos else none

/-- A file of the card, as `co` opens it at position 0. -/
def file (pt : CardWindow) : System ℤ FileCall :=
  System.ofPartial pt.call

/-! ### What a read is to answer -/

namespace Request

variable (q : Request)

/-- The answer with `n` bytes, which come from address `a` on: all of them, or those before a fault
of the caller's buffer. -/
def answer (a n : ℕ) : Reply :=
  if n ≤ q.user.moved then ⟨n, q.regs.read a n, q.offer + n⟩
  else ⟨-1, q.regs.read a q.user.moved, q.offer⟩

variable {q} {a t n : ℕ}

/-- The answer is what comes of copying `n` bytes to the caller. -/
lemma copied (a n : ℕ) :
    (if (q.user.copy_to_user q.regs a n).2 ≠ 0 then
      ⟨-1, (q.user.copy_to_user q.regs a n).1, q.offer⟩
    else ⟨n, (q.user.copy_to_user q.regs a n).1, q.offer + n⟩ : Reply) = q.answer a n := by
  rw [answer, UserCopy.copy_to_user]
  by_cases hn : n ≤ q.user.moved
  · rw [Nat.min_eq_right hn, if_pos hn, if_neg (by omega)]
  · rw [Nat.min_eq_left (by omega), if_neg hn, if_pos (by omega)]

/-- A shorter answer is another one, unless both fail. -/
lemma answer_eq_iff (h : t ≤ n) : q.answer a t = q.answer a n ↔ t = n ∨ q.user.moved < t := by
  rw [answer, answer]
  by_cases ht : t ≤ q.user.moved
  · rw [if_pos ht]
    constructor
    · intro heq
      have hret := congrArg Reply.ret heq
      split at hret
      · exact Or.inl (Int.ofNat.inj hret)
      · exact absurd hret (by simp)
    · rintro (rfl | hlt)
      · rw [if_pos ht]
      · omega
  · rw [if_neg ht, if_neg (by omega)]
    exact iff_of_true rfl (Or.inr (Nat.lt_of_not_le ht))

end Request

namespace CardWindow

variable (pt : CardWindow)

def size : ℕ :=
  (resource_size pt.mem_resource).toNat

/-- How many registers there are from a position on, and how many `cr` knows of. -/
def available (q : Request) : ℕ :=
  pt.size - q.offer.toNat

def counted (q : Request) : ℕ :=
  (pt.buffer_len - q.offer).toNat

/-- The window is below 2 GiB or ends before the position, the read is for no more registers than
`cr` knows of, or the caller's buffer faults before it has as many. -/
def ReadOk (q : Request) : Prop :=
  pt.size < 2 ^ 31 ∨ pt.available q = 0 ∨ q.len ≤ pt.counted q ∨ q.user.moved < pt.counted q

instance (q : Request) : Decidable (pt.ReadOk q) :=
  inferInstanceAs (Decidable (_ ∨ _ ∨ _ ∨ _))

variable {pt} {q : Request}

lemma buffer_len_eq : pt.buffer_len = (pt.size : ℤ).bmod (2 ^ 32) :=
  BitVec.toInt_setWidth _

/-- An `int` counts a window below 2 GiB, and less of every other one. -/
lemma buffer_len_of_lt (h : pt.size < 2 ^ 31) : pt.buffer_len = pt.size := by
  rw [buffer_len_eq]
  exact Int.bmod_eq_of_le (by omega) (by omega)

lemma buffer_len_lt (h : 2 ^ 31 ≤ pt.size) : pt.buffer_len < pt.size := by
  have hlt := Int.bmod_lt (x := (pt.size : ℤ)) (m := 2 ^ 32) (by decide)
  rw [buffer_len_eq]
  omega

lemma buffer_len_lt_int (pt : CardWindow) : pt.buffer_len < 2 ^ 31 := by
  have hlt := Int.bmod_lt (x := (pt.size : ℤ)) (m := 2 ^ 32) (by decide)
  rw [buffer_len_eq]
  omega

lemma buffer_len_le (pt : CardWindow) : pt.buffer_len ≤ pt.size := by
  rcases Nat.lt_or_ge pt.size (2 ^ 31) with hsize | hsize
  · exact (buffer_len_of_lt hsize).le
  · exact (buffer_len_lt hsize).le

lemma counted_le (pt : CardWindow) (h : 0 ≤ q.offer) : pt.counted q ≤ pt.available q := by
  have hle := buffer_len_le pt
  rw [counted, available]
  omega

/-- `cr` answers with the registers that it knows of. -/
lemma cr_eq (h : 0 ≤ q.offer) (hlt : q.offer < 2 ^ 63) :
    pt.cr q = q.answer (pt.iomem_start + q.offer.toNat) (min q.len (pt.counted q)) := by
  by_cases hend : pt.buffer_len ≤ q.offer
  · have hzero : pt.counted q = 0 := by
      rw [counted]
      omega
    rw [cr, if_pos hend, hzero, Nat.min_zero, Request.answer, if_pos (Nat.zero_le _)]
    simp
  · have hint := buffer_len_lt_int pt
    have hle := buffer_len_le pt
    have hmapped : pt.iomem_start + pt.size ≤ 2 ^ 64 := pt.mapped
    have hrest : toSizeT (pt.buffer_len - q.offer) = pt.counted q :=
      toSizeT_of_nonneg (by omega) (by omega)
    have hcounted : pt.counted q < 2 ^ 31 := by
      rw [counted]
      omega
    have hmin : (if pt.counted q < q.len then (pt.counted q : ℤ) else q.len) =
        (min q.len (pt.counted q) : ℕ) := by
      split <;> omega
    have htarget : toInt (min q.len (pt.counted q) : ℕ) = (min q.len (pt.counted q) : ℕ) :=
      Int.bmod_eq_of_le (by omega) (by omega)
    have haddr : toSizeT (pt.iomem_start + q.offer) = pt.iomem_start + q.offer.toNat := by
      rw [toSizeT_of_nonneg (by omega) (by omega)]
      omega
    have hcount : toSizeT (min q.len (pt.counted q) : ℕ) = min q.len (pt.counted q) := by
      rw [toSizeT_of_nonneg (by omega) (by omega), Int.toNat_natCast]
    have hoffer : toLoff (q.offer + (min q.len (pt.counted q) : ℕ)) =
        q.offer + (min q.len (pt.counted q) : ℕ) :=
      toLoff_of_small (by omega) (by omega)
    rw [cr, hrest, hmin, htarget, if_neg hend, haddr, hcount, hoffer]
    exact Request.copied _ _

/-- The read answers with the registers from its position on, up to the end of the window. -/
def Served (pt : CardWindow) (q : Request) : Prop :=
  pt.cr q = q.answer (pt.iomem_start + q.offer.toNat) (min q.len (pt.available q))

lemma served_iff (h : 0 ≤ q.offer) (hlt : q.offer < 2 ^ 63) : pt.Served q ↔ pt.ReadOk q := by
  have hle := counted_le pt h
  have hless : 2 ^ 31 ≤ pt.size → pt.counted q < pt.available q ∨ pt.available q = 0 := by
    intro hsize
    have hlen := buffer_len_lt hsize
    rw [counted, available]
    omega
  have hsame : pt.size < 2 ^ 31 → pt.counted q = pt.available q := by
    intro hsize
    rw [counted, available, buffer_len_of_lt hsize]
    omega
  rw [Served, cr_eq h hlt, Request.answer_eq_iff (by omega), ReadOk]
  rcases Nat.lt_or_ge pt.size (2 ^ 31) with hsize | hsize
  · exact iff_of_true (Or.inl (by rw [hsame hsize])) (Or.inl hsize)
  · have hcounted := hless hsize
    omega

/-- The bytes that a read delivers are registers of the window. -/
def Confined (pt : CardWindow) (q : Request) : Prop :=
  ∃ n ≤ min q.len (pt.available q),
    (pt.cr q).bytes = q.regs.read (pt.iomem_start + q.offer.toNat) n

lemma confined (h : 0 ≤ q.offer) (hlt : q.offer < 2 ^ 63) : pt.Confined q := by
  have hle := counted_le pt h
  rw [Confined, cr_eq h hlt, Request.answer]
  split
  · exact ⟨_, by omega, rfl⟩
  · exact ⟨_, by omega, rfl⟩

/-- A read leaves the position at a place that a file can have. -/
lemma cr_offer (h : 0 ≤ q.offer) (hlt : q.offer < 2 ^ 63) :
    0 ≤ (pt.cr q).offer ∧ (pt.cr q).offer < 2 ^ 63 := by
  have hint := buffer_len_lt_int pt
  rw [cr_eq h hlt, Request.answer]
  split
  · have hmin : (min q.len (pt.counted q) : ℕ) ≤ (pt.buffer_len - q.offer).toNat :=
      Nat.min_le_right _ _
    dsimp only
    omega
  · exact ⟨h, hlt⟩

end CardWindow

/-! ### Runs of an open file -/

section

variable {pt : CardWindow} {f_pos f_pos' : ℤ} {c : FileCall} {tr : List (FileCall × ℤ)}

/-- A position that the kernel lets through. -/
def Position (f_pos : ℤ) : Prop :=
  0 ≤ f_pos ∧ f_pos < 2 ^ 63

/-- A law for each read among the calls. -/
def EachRead (law : Request → Prop) (f_pos : ℤ) (c : FileCall) : Prop :=
  ∀ q ∈ c.request f_pos, law q

lemma Position.step (h : Position f_pos) (hstep : (file pt).step f_pos c f_pos') :
    Position f_pos' := by
  change pt.call f_pos c = some f_pos' at hstep
  cases c with
  | read len regs user =>
    cases hstep
    exact CardWindow.cr_offer (q := ⟨len, f_pos, regs, user⟩) h.1 h.2
  | pread len pos regs user =>
    rw [CardWindow.call] at hstep
    split_ifs at hstep
    cases hstep
    exact h
  | llseek pos =>
    rw [CardWindow.call] at hstep
    split_ifs at hstep with hpos
    cases hstep
    exact ⟨Int.natCast_nonneg pos, by omega⟩

/-- `cr` is only called at such a position. -/
lemma Position.request (h : Position f_pos) (hstep : (file pt).step f_pos c f_pos') :
    EachRead (fun q => Position q.offer) f_pos c := by
  change pt.call f_pos c = some f_pos' at hstep
  intro q hq
  cases c with
  | read len regs user =>
    cases hq
    exact h
  | pread len pos regs user =>
    cases hq
    rw [CardWindow.call] at hstep
    split_ifs at hstep with hpos
    exact ⟨Int.natCast_nonneg pos, by dsimp only; omega⟩
  | llseek _ => cases hq

lemma Position.served_iff (h : Position f_pos) (hstep : (file pt).step f_pos c f_pos') :
    EachRead pt.Served f_pos c ↔ EachRead pt.ReadOk f_pos c := by
  refine forall₂_congr fun q hq => ?_
  have hpos := h.request hstep q hq
  exact CardWindow.served_iff hpos.1 hpos.2

lemma Position.zero : Position 0 :=
  ⟨le_rfl, by decide⟩

/-- However an open file is read, at its own position and at others, and moved by seeks: no read
delivers anything but registers of the window, from its position on; and each delivers all that it
asks for, up to the end of the window, if and only if the window is below 2 GiB, or the reads start
behind its end, ask for no more registers than an `int` counts, or fault before they have as
many. -/
theorem reads_served_iff (hr : (file pt).Run 0 tr) :
    System.Along (EachRead pt.Confined) 0 tr ∧
      (System.Along (EachRead pt.Served) 0 tr ↔ System.Along (EachRead pt.ReadOk) 0 tr) := by
  constructor
  · refine hr.along (fun _ _ _ h hstep => h.step hstep) (fun _ _ _ h hstep q hq => ?_)
      Position.zero
    have hpos := h.request hstep q hq
    exact CardWindow.confined hpos.1 hpos.2
  · exact hr.along_iff (fun _ _ _ h _ hstep => h.step hstep)
      (fun _ _ _ h hstep => h.served_iff hstep) Position.zero

/-- All reads of all files of a card are served if and only if its window is below 2 GiB. -/
theorem always_served_iff :
    (∀ tr, (file pt).Run 0 tr → System.Along (EachRead pt.Served) 0 tr) ↔ pt.size < 2 ^ 31 := by
  constructor
  · intro hall
    let q : Request := ⟨pt.size, 0, fun _ => 0, ⟨pt.size, false⟩⟩
    have hrun : (file pt).Run 0 [(.read q.len q.regs q.user, (pt.cr q).offer)] :=
      System.Run.cons rfl (System.Run.nil _)
    have hserved := (hall _ hrun).1 q rfl
    rw [CardWindow.served_iff (le_refl 0) (show (0 : ℤ) < 2 ^ 63 by decide),
      CardWindow.ReadOk] at hserved
    by_contra hsize
    have hlen := CardWindow.buffer_len_lt (Nat.le_of_not_lt hsize)
    rw [CardWindow.counted, CardWindow.available] at hserved
    simp only [q] at hserved
    omega
  · intro hsize tr hr
    exact hr.along (fun _ _ _ h hstep => h.step hstep)
      (fun _ _ _ h hstep => (h.served_iff hstep).mpr fun _ _ => Or.inl hsize) Position.zero

end

/-- The memory window of an 8139, mapped right above the first 3 GiB. -/
def window8139 : CardWindow where
  mem_resource := ⟨0xfebff800, 0xfebff8ff, IORESOURCE_MEM⟩
  iomem_start := 0xc0000000
  mapped := by decide

/-- A file is read up to the end of the window, and beyond. -/
def readToEnd : List FileCall :=
  [.read 200 (fun x => UInt8.ofNat x) ⟨200, false⟩, .read 200 (fun x => UInt8.ofNat x) ⟨200, false⟩,
    .pread 4 16 (fun _ => 7) ⟨2, false⟩, .read 200 (fun _ => 0) ⟨200, false⟩, .llseek 1000,
    .read 1 (fun _ => 0) ⟨1, false⟩]

theorem reads_served_iff_8139 :
    ∃ tr, (file window8139).Run 0 tr ∧ tr.map Prod.fst = readToEnd ∧
      System.Along (EachRead window8139.Confined) 0 tr ∧
      System.Along (EachRead window8139.Served) 0 tr := by
  have hsome : (System.final window8139.call 0 readToEnd).isSome := by
    decide +kernel
  obtain ⟨tr, hrun, hacts⟩ := System.exists_run_of_isSome hsome
  obtain ⟨hconfined, hserved⟩ := reads_served_iff hrun
  refine ⟨tr, hrun, hacts, hconfined, hserved.mpr ?_⟩
  exact System.along_of_labels fun _ _ _ _ _ => Or.inl (by decide)

end QuickDevSkeleton.AnyPci
