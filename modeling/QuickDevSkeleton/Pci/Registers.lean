import QuickDevSkeleton.Pci.Driver

/-!
# One call on the register window

What `my_read`, `my_write` and `my_llseek` of the 8139 driver do with a window that is mapped:
each call is executed step by step and its outcome given as a function of the registers, the
position and what the kernel answers.
-/

namespace QuickDevSkeleton.Pci

open Foundations

/-! ### The window -/

/-- The window of the device is mapped, not empty, and within the range of its types. -/
structure World.Maps (w : World) (d : Mydev) : Prop where
  mapped : w.Mapped d.ioaddr d.regs_len
  pos : 0 < d.regs_len
  small : d.regs_len < 2 ^ 63
  fits : d.ioaddr + d.regs_len ≤ 2 ^ 64

/-- No io address is mapped but those of the window: an access elsewhere is a crash. -/
def World.only (w : World) (d : Mydev) : World :=
  { w with mapped := [⟨d.ioaddr, d.regs_len⟩] }

/-- How many of `count` bytes there are from the register `p` on. -/
def Mydev.available (d : Mydev) (count p : ℕ) : ℕ :=
  min count (d.regs_len - p)

/-- A transfer of `n` bytes cannot be done. -/
def Transfer.Fails (K : Transfer) (n : ℕ) : Prop :=
  0 < n ∧ (K.kzalloc = false ∨ K.copy.moved < n)

instance (K : Transfer) (n : ℕ) : Decidable (K.Fails n) :=
  inferInstanceAs (Decidable (0 < n ∧ (K.kzalloc = false ∨ K.copy.moved < n)))

/-- What a transfer at `p` that cannot be done answers; `bytes` are those that a fault left with
the caller. -/
def Transfer.failure (K : Transfer) (p : ℕ) (bytes : List UInt8) : Reply :=
  if K.kzalloc then ⟨-EFAULT, bytes, p⟩ else ⟨-ENOMEM, [], p⟩

variable {w : World} {filp : File} {d : Mydev} {K : Transfer}

lemma World.Maps.only (h : w.Maps d) : (w.only d).Maps d where
  mapped := ⟨_, List.mem_singleton_self _, le_refl _, le_refl _⟩
  pos := h.pos
  small := h.small
  fits := h.fits

lemma World.Maps.part (h : w.Maps d) {count p : ℕ} (hn : 0 < d.available count p) :
    w.Mapped (d.ioaddr + p) (d.available count p) := by
  obtain ⟨v, hv, hlo, hhi⟩ := h.mapped
  have hle : p + d.available count p ≤ d.regs_len := by
    rw [Mydev.available] at hn ⊢
    omega
  exact ⟨v, hv, by omega, by omega⟩

lemma Transfer.not_fails {n : ℕ} (hn : 0 < n) :
    ¬ K.Fails n ↔ K.kzalloc = true ∧ n ≤ K.copy.moved := by
  simp [Fails, hn, not_or]

lemma Transfer.failure_ret (p : ℕ) (bytes : List UInt8) : (K.failure p bytes).ret < 0 := by
  rw [failure]
  split
  · exact show -EFAULT < 0 by decide
  · exact show -ENOMEM < 0 by decide

@[simp] lemma Transfer.failure_f_pos (p : ℕ) (bytes : List UInt8) :
    (K.failure p bytes).f_pos = p := by
  rw [failure]
  split
  · rfl
  · rfl

lemma deref_run {α : Type} {dev : ℕ} (h : w.mydevs.cell dev = some d) (k : Mydev → Exec World α) :
    deref dev k w = k d w := by
  simp [deref, h]

/-! ### One transfer -/

section

variable {count p : ℕ} {io : ℕ → ℕ → Exec World (Bool × List UInt8)}

/-- Nothing is left of the window, or nothing is asked for. -/
lemma transfer_empty (hd : w.mydevs.cell filp.private_data = some d) (h : w.Maps d)
    (hp : p < 2 ^ 63) (hn : d.available count p = 0) :
    transfer K filp count p io w = (some ⟨0, [], p⟩, w) := by
  have hpos : toSizeT (p : ℤ) = p := toSizeT_of_nonneg (by omega) (by omega)
  rw [transfer, deref_run hd, hpos]
  by_cases hout : d.regs_len ≤ p
  · rw [if_pos hout, Exec.pure_run]
  · have hrest : toSizeT (d.regs_len - (p : ℤ)) = d.regs_len - p := by
      have hsmall := h.small
      rw [toSizeT_of_nonneg (by omega) (by omega)]
      omega
    rw [if_neg hout]
    simp only [hrest]
    rw [if_pos (show min count (d.regs_len - p) = 0 from hn), Exec.pure_run]

/-- The part of a transfer after its checks: `n` bytes at the register `p`. -/
def Transfer.proceed (K : Transfer) (d : Mydev) (n p : ℕ)
    (io : ℕ → ℕ → Exec World (Bool × List UInt8)) : Exec World Reply := do
  if !K.kzalloc then pure ⟨-ENOMEM, [], p⟩
  else
    Exec.modify fun w => { w with kbufs := w.kbufs + 1 }
    let (complete, bytes) ← io (d.ioaddr + p) n
    Exec.modify fun w => { w with kbufs := w.kbufs - 1 }
    if complete then pure ⟨n, bytes, p + n⟩ else pure ⟨-EFAULT, bytes, p⟩

/-- None of the conversions of a transfer within the window changes a value. -/
lemma transfer_inside (hd : w.mydevs.cell filp.private_data = some d) (h : w.Maps d)
    (hn : 0 < d.available count p) :
    transfer K filp count p io w = K.proceed d (d.available count p) p io w := by
  have hin : p < d.regs_len := by
    rw [Mydev.available] at hn
    omega
  have hsmall := h.small
  have hfits := h.fits
  have hpos : toSizeT (p : ℤ) = p := toSizeT_of_nonneg (by omega) (by omega)
  have hrest : toSizeT (d.regs_len - (p : ℤ)) = d.regs_len - p := by
    rw [toSizeT_of_nonneg (by omega) (by omega)]
    omega
  have haddr : toSizeT (d.ioaddr + (p : ℤ)) = d.ioaddr + p := by
    rw [toSizeT_of_nonneg (by omega) (by omega)]
    omega
  have hle : p + d.available count p ≤ d.regs_len := by
    rw [Mydev.available]
    omega
  have hret : toLoff (d.available count p : ℕ) = d.available count p :=
    toLoff_of_small (by omega) (by omega)
  have hend : toLoff ((p : ℤ) + d.available count p) = p + d.available count p :=
    toLoff_of_small (by omega) (by omega)
  rw [transfer, deref_run hd, hpos, if_neg (by omega)]
  simp only [hrest, haddr]
  rw [if_neg (show ¬ min count (d.regs_len - p) = 0 from Nat.pos_iff_ne_zero.mp hn)]
  rw [← Mydev.available, hret, hend, Transfer.proceed]

lemma transfer_done (hd : w.mydevs.cell filp.private_data = some d) (h : w.Maps d)
    (hn : 0 < d.available count p) (hmem : K.kzalloc = true) {complete : Bool}
    {bytes : List UInt8} {u : World}
    (hio : io (d.ioaddr + p) (d.available count p) { w with kbufs := w.kbufs + 1 } =
      (some (complete, bytes), u)) :
    transfer K filp count p io w =
      (some (if complete then ⟨d.available count p, bytes, p + d.available count p⟩
        else ⟨-EFAULT, bytes, p⟩), { u with kbufs := u.kbufs - 1 }) := by
  rw [transfer_inside hd h hn, Transfer.proceed, hmem]
  simp only [Bool.not_true, Bool.false_eq_true, if_false, Exec.modify_bind]
  rw [Exec.bind_run_some hio]
  cases complete with
  | true => simp
  | false => simp

/-- Without memory, or if the user copy is short, nothing is left of a transfer but the bytes that
a short copy has moved. -/
lemma transfer_fails (hd : w.mydevs.cell filp.private_data = some d) (h : w.Maps d)
    (hfail : K.Fails (d.available count p)) {bytes : List UInt8}
    (hio : K.copy.moved < d.available count p →
      io (d.ioaddr + p) (d.available count p) { w with kbufs := w.kbufs + 1 } =
        (some (false, bytes), { w with kbufs := w.kbufs + 1 })) :
    transfer K filp count p io w = (some (K.failure p bytes), w) := by
  obtain ⟨hn, hwhy⟩ := hfail
  by_cases hmem : K.kzalloc = true
  · have hshort : K.copy.moved < d.available count p := by simpa [hmem] using hwhy
    rw [transfer_done hd h hn hmem (hio hshort)]
    simp [Transfer.failure, hmem]
  · have hmem : K.kzalloc = false := by simpa using hmem
    rw [transfer_inside hd h hn]
    simp [Transfer.proceed, Transfer.failure, hmem]

end

/-! ### One call -/

section

variable {count p : ℕ} {data : List UInt8}

lemma memcpy_fromio_run {a n : ℕ} (h : w.Mapped a n) :
    memcpy_fromio a n w = (some (Memory.write (fun _ => 0) 0 (w.io.read a n)), w) := by
  simp [memcpy_fromio, h]

lemma memcpy_toio_run {a : ℕ} {bytes : List UInt8} (h : w.Mapped a bytes.length) :
    memcpy_toio a bytes w = (some ⟨⟩, { w with io := w.io.write a bytes }) := by
  simp [memcpy_toio, h, Exec.modify]

/-- The transfer of a read: as many registers as the user copy moves, in order. -/
lemma read_registers {a n : ℕ} (h : w.Mapped a n) :
    (do
      let kbuf ← memcpy_fromio a n
      let (bytes, missing) := K.copy.copy_to_user kbuf 0 n
      pure (missing = 0, bytes) : Exec World (Bool × List UInt8)) w =
      (some (decide (n ≤ K.copy.moved), w.io.read a (min K.copy.moved n)), w) := by
  have hle : min K.copy.moved n ≤ n := Nat.min_le_right _ _
  have hcopy : (Memory.write (fun _ => 0) 0 (w.io.read a n)).read 0 (min K.copy.moved n) =
      w.io.read a (min K.copy.moved n) := by
    rw [Memory.read_write_prefix _ _ (by rwa [Memory.length_read]), Memory.take_read _ _ hle]
  have hmissing : n - min K.copy.moved n = 0 ↔ n ≤ K.copy.moved := by omega
  rw [Exec.bind_run_some (memcpy_fromio_run h)]
  simp only [UserCopy.copy_to_user, hcopy, hmissing, Exec.pure_run]

/-- A read that finds memory and is copied out returns the registers from `p` on. -/
lemma my_read_ok (hd : w.mydevs.cell filp.private_data = some d) (h : w.Maps d)
    (hp : p < 2 ^ 63) (hok : ¬ K.Fails (d.available count p)) :
    my_read K filp count p w =
      (some ⟨d.available count p, w.io.read (d.ioaddr + p) (d.available count p),
        p + d.available count p⟩, w) := by
  rcases Nat.eq_zero_or_pos (d.available count p) with hn | hn
  · rw [my_read, transfer_empty hd h hp hn, hn, Memory.read_zero]
    simp
  · obtain ⟨hmem, hall⟩ := (Transfer.not_fails hn).mp hok
    have hmap : World.Mapped { w with kbufs := w.kbufs + 1 } (d.ioaddr + p)
        (d.available count p) := h.part hn
    rw [my_read, transfer_done hd h hn hmem (read_registers hmap)]
    simp [hall]

/-- A read that fails leaves the registers and the position alone. -/
lemma my_read_fails (hd : w.mydevs.cell filp.private_data = some d) (h : w.Maps d)
    (hfail : K.Fails (d.available count p)) :
    my_read K filp count p w =
      (some (K.failure p (w.io.read (d.ioaddr + p) K.copy.moved)), w) := by
  refine transfer_fails hd h hfail fun hshort => ?_
  have hmap : World.Mapped { w with kbufs := w.kbufs + 1 } (d.ioaddr + p)
      (d.available count p) := h.part hfail.1
  refine (read_registers hmap).trans ?_
  rw [Nat.min_eq_left hshort.le, decide_eq_false (Nat.not_le.mpr hshort)]

/-- The transfer of a write: the registers change if the user copy is complete. -/
lemma write_registers {a n : ℕ} (hn : n ≤ data.length) (h : w.Mapped a n) :
    (do
      let (kbuf, missing) := K.copy.copy_from_user (fun _ => 0) 0 (data.take n)
      if missing ≠ 0 then pure (false, [])
      else
        memcpy_toio a (kbuf.read 0 n)
        pure (true, []) : Exec World (Bool × List UInt8)) w =
      (some (decide (n ≤ K.copy.moved), []),
        if n ≤ K.copy.moved then { w with io := w.io.write a (data.take n) } else w) := by
  have hlen : (data.take n).length = n := List.length_take_of_le hn
  have hmissing : (K.copy.copy_from_user (fun _ => 0) 0 (data.take n)).2 = 0 ↔
      n ≤ K.copy.moved := by
    simp only [UserCopy.copy_from_user, hlen]
    omega
  by_cases hall : n ≤ K.copy.moved
  · have hread : (K.copy.copy_from_user (fun _ => 0) 0 (data.take n)).1.read 0 n =
        data.take n := by
      rw [K.copy.copy_from_user_ok (hmissing.mpr hall), Memory.read_write_prefix _ _ hlen.ge,
        List.take_take, Nat.min_self]
    have hmap : w.Mapped a (data.take n).length := by rwa [hlen]
    simp only [hmissing.mpr hall, hread]
    rw [if_neg (by simp), Exec.bind_run_some (memcpy_toio_run hmap)]
    simp [hall]
  · simp [mt hmissing.mp hall, hall]

lemma available_le (d : Mydev) (count p : ℕ) : d.available count p ≤ count :=
  Nat.min_le_left _ _

/-- A write that finds memory and its bytes stores them from the register `p` on. -/
lemma my_write_ok (hd : w.mydevs.cell filp.private_data = some d) (h : w.Maps d)
    (hp : p < 2 ^ 63) (hok : ¬ K.Fails (d.available data.length p)) :
    my_write K filp data p w =
      (some ⟨d.available data.length p, [], p + d.available data.length p⟩,
        { w with io := w.io.write (d.ioaddr + p) (data.take (d.available data.length p)) }) := by
  rcases Nat.eq_zero_or_pos (d.available data.length p) with hn | hn
  · rw [my_write, transfer_empty hd h hp hn, hn, List.take_zero, Memory.write_nil]
    simp
  · obtain ⟨hmem, hall⟩ := (Transfer.not_fails hn).mp hok
    have hmap : World.Mapped { w with kbufs := w.kbufs + 1 } (d.ioaddr + p)
        (d.available data.length p) := h.part hn
    have hio := write_registers (K := K) (available_le d data.length p) hmap
    rw [my_write, transfer_done hd h hn hmem hio]
    simp [hall]

/-- A write that fails leaves the registers and the position alone. -/
lemma my_write_fails (hd : w.mydevs.cell filp.private_data = some d) (h : w.Maps d)
    (hfail : K.Fails (d.available data.length p)) :
    my_write K filp data p w = (some (K.failure p []), w) := by
  refine transfer_fails hd h hfail fun hshort => ?_
  have hmap : World.Mapped { w with kbufs := w.kbufs + 1 } (d.ioaddr + p)
      (d.available data.length p) := h.part hfail.1
  refine (write_registers (K := K) (available_le d data.length p) hmap).trans ?_
  rw [if_neg (Nat.not_le.mpr hshort), decide_eq_false (Nat.not_le.mpr hshort)]

end

/-! ### Outcomes -/

/-- The reply to a read of `count` bytes at the register `p`. -/
def Transfer.readReply (K : Transfer) (d : Mydev) (io : Memory UInt8) (count p : ℕ) : Reply :=
  if K.Fails (d.available count p) then K.failure p (io.read (d.ioaddr + p) K.copy.moved)
  else ⟨d.available count p, io.read (d.ioaddr + p) (d.available count p),
    p + d.available count p⟩

/-- The reply to a write of `data` at the register `p`. -/
def Transfer.writeReply (K : Transfer) (d : Mydev) (data : List UInt8) (p : ℕ) : Reply :=
  if K.Fails (d.available data.length p) then K.failure p []
  else ⟨d.available data.length p, [], p + d.available data.length p⟩

/-- The bytes at the io addresses after a write of `data` at the register `p`. -/
def Transfer.written (K : Transfer) (d : Mydev) (io : Memory UInt8) (data : List UInt8)
    (p : ℕ) : Memory UInt8 :=
  if K.Fails (d.available data.length p) then io
  else io.write (d.ioaddr + p) (data.take (d.available data.length p))

/-- The position that a seek is for. -/
def Mydev.target (d : Mydev) (f_pos offset : ℤ) (origin : ℕ) : ℤ :=
  match origin with
  | 1 => toLoff (offset + f_pos)
  | 2 => toLoff (offset + d.regs_len)
  | _ => offset

/-- What a seek returns, and the position after it. -/
def Mydev.sought (d : Mydev) (f_pos offset : ℤ) (origin : ℕ) : ℤ × ℤ :=
  if 0 ≤ d.target f_pos offset origin ∧ d.target f_pos offset origin < d.regs_len then
    (d.target f_pos offset origin, d.target f_pos offset origin)
  else (-EINVAL, f_pos)

lemma my_read_run {count p : ℕ} (hd : w.mydevs.cell filp.private_data = some d) (h : w.Maps d)
    (hp : p < 2 ^ 63) :
    my_read K filp count p w = (some (K.readReply d w.io count p), w) := by
  rw [Transfer.readReply]
  split
  · exact my_read_fails hd h ‹_›
  · exact my_read_ok hd h hp ‹_›

lemma my_write_run {data : List UInt8} {p : ℕ} (hd : w.mydevs.cell filp.private_data = some d)
    (h : w.Maps d) (hp : p < 2 ^ 63) :
    my_write K filp data p w =
      (some (K.writeReply d data p), { w with io := K.written d w.io data p }) := by
  rw [Transfer.writeReply, Transfer.written]
  split
  · exact my_write_fails hd h ‹_›
  · exact my_write_ok hd h hp ‹_›

lemma toLoff_range (z : ℤ) : -2 ^ 63 ≤ toLoff z ∧ toLoff z < 2 ^ 63 := by
  have hlo := Int.le_bmod (x := z) (m := 2 ^ 64) (by decide)
  have hhi := Int.bmod_lt (x := z) (m := 2 ^ 64) (by decide)
  rw [toLoff]
  omega

lemma Mydev.target_range (d : Mydev) (f_pos : ℤ) {offset : ℤ} (origin : ℕ)
    (h : -2 ^ 63 ≤ offset ∧ offset < 2 ^ 63) :
    -2 ^ 63 ≤ d.target f_pos offset origin ∧ d.target f_pos offset origin < 2 ^ 63 := by
  unfold target
  split
  · exact toLoff_range _
  · exact toLoff_range _
  · exact h

/-- The sum of a seek may wrap, its test does not: a target that is not negative is itself as
an unsigned number. -/
lemma my_llseek_run {offset : ℤ} {origin : ℕ} (hd : w.mydevs.cell filp.private_data = some d)
    (h : -2 ^ 63 ≤ offset ∧ offset < 2 ^ 63) :
    my_llseek filp offset origin w = (some (d.sought filp.f_pos offset origin), w) := by
  have hrange := d.target_range filp.f_pos origin h
  have htest : d.target filp.f_pos offset origin < 0 ∨
      toSizeT (d.target filp.f_pos offset origin) ≥ d.regs_len ↔
      ¬ (0 ≤ d.target filp.f_pos offset origin ∧
        d.target filp.f_pos offset origin < d.regs_len) := by
    by_cases hneg : d.target filp.f_pos offset origin < 0
    · simp [hneg]
    · rw [toSizeT_of_nonneg (by omega) (by omega)]
      omega
  have hrun : my_llseek filp offset origin w =
      (if d.target filp.f_pos offset origin < 0 ∨
        toSizeT (d.target filp.f_pos offset origin) ≥ d.regs_len then pure (-EINVAL, filp.f_pos)
      else pure (d.target filp.f_pos offset origin, d.target filp.f_pos offset origin) :
        Exec World (ℤ × ℤ)) w := by
    rw [my_llseek, deref_run hd]
    rfl
  rw [hrun, Mydev.sought]
  by_cases hin : 0 ≤ d.target filp.f_pos offset origin ∧
      d.target filp.f_pos offset origin < d.regs_len
  · rw [if_neg (fun hout => htest.mp hout hin), if_pos hin, Exec.pure_run]
  · rw [if_pos (htest.mpr hin), if_neg hin, Exec.pure_run]

end QuickDevSkeleton.Pci
