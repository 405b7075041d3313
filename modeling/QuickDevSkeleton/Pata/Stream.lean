import QuickDevSkeleton.Pata.Transfer

/-!
# The bytes at the data port

What a host sees of the IDENTIFY data when it writes the command and then waits. A tick stores four
bytes in the registers from the data port on, two of which are the sector count and the low byte
of the address; the ticks after an IDENTIFY command come to 40 bytes at most, whatever the state
they start from.
-/

namespace QuickDevSkeleton.Pata

namespace Device

/-- The registers where `read_things` stores its four bytes. -/
def dataPort : List Reg :=
  [ATA_REG_DATA, ATA_REG_DATA + 1, ATA_REG_DATA + 2, ATA_REG_DATA + 3]

/-- The registers that a host has written before a command. -/
def taskFile : List Reg :=
  [ATA_REG_NSECT, ATA_REG_LBAL, ATA_REG_LBAM, ATA_REG_LBAH, ATA_REG_DEVICE]

variable (d : Device)

/-- The bytes that a tick places at the data port. -/
def placed : List UInt8 :=
  if d.readCall.isSome then dataPort.map d.tick.va else []

/-- The bytes that the first `n` ticks place at the data port, one after the other. -/
def stream (d : Device) : ℕ → List UInt8
  | 0 => []
  | n + 1 => d.placed ++ stream d.tick n

/-- Ticks that follow one another without the device becoming ready place the IDENTIFY data at the
port, and leave the registers that the host has written alone. -/
def SendsIdentify : Prop :=
  ∃ n, d.stream n = Identify_Drive_Information ∧
    (∀ m, 0 < m → m ≤ n → (tick^[m] d).va ATA_REG_STATUS ≠ ATA_DRDY) ∧
    ∀ m ≤ n, ∀ i ∈ taskFile, (tick^[m] d).va i = d.va i

variable {d}

/-! ### What a tick places -/

/-- Four bytes in a row, from the offset of the call on. -/
lemma read_things_dataPort (h : d.enable_read = true) :
    dataPort.map d.read_things.va =
      d.readIndices.map fun j => Identify_Drive_Information.getD j 0 := by
  have hva : d.read_things.va = ((((((d.setReg ATA_REG_STATUS ((0x1 : UInt8) <<< 7)).putNext
      ATA_REG_DATA).putNext (ATA_REG_DATA + 1)).putNext (ATA_REG_DATA + 2)).putNext
      (ATA_REG_DATA + 3)).setReg ATA_REG_STATUS ((0x1 : UInt8) <<< 3)).va := by
    simp only [read_things, h, if_true]
    split_ifs <;> rfl
  rw [hva]
  rfl

lemma readCall_enabled {c : Device} (h : d.readCall = some c) : c.enable_read = true := by
  obtain ⟨-, rfl⟩ := readCall_eq_some.mp h
  rfl

lemma placed_of_readCall {c : Device} (h : d.readCall = some c) :
    d.placed = c.readIndices.map fun j => Identify_Drive_Information.getD j 0 := by
  obtain ⟨hva, -⟩ := tick_of_readCall h
  rw [placed, h, Option.isSome_some, if_pos rfl, hva, read_things_dataPort (readCall_enabled h)]

lemma placed_of_none (h : d.readCall = none) : d.placed = [] := by
  simp [placed, h]

/-! ### How long a transfer is -/

/-- Without a write of the host, `read_things` will be called `r` more times at most. -/
structure EndsWithin (r : ℕ) (d : Device) : Prop where
  snapshot : d.va_l = d.va
  offset : d.enable_read = true → d.start_offset ≤ 40 ∧ 41 ≤ d.start_offset + 5 * r

lemma length_placed_le (d : Device) : d.placed.length ≤ 4 := by
  cases hc : d.readCall with
  | none =>
    rw [placed_of_none hc]
    exact Nat.zero_le 4
  | some c =>
    rw [placed_of_readCall hc, List.length_map]
    rfl

/-- After any tick, nine more calls at most. -/
lemma endsWithin_tick (d : Device) : d.tick.EndsWithin 9 where
  snapshot := d.tick_snapshot
  offset := by
    intro hon
    cases hc : d.readCall with
    | none =>
      rw [tick_of_not_readCall hc] at hon
      cases hon
    | some c =>
      obtain ⟨-, hoff, hena⟩ := tick_of_readCall hc
      have hread := readCall_enabled hc
      have hmore := (read_things_enable_read hread).mp (hena.symm.trans hon)
      rw [hoff, read_things_start_offset hread]
      omega

lemma EndsWithin.next {r : ℕ} (h : d.EndsWithin (r + 1)) : d.tick.EndsWithin r where
  snapshot := d.tick_snapshot
  offset := by
    intro hon
    have hsame := compareIo_of_snapshot h.snapshot
    cases hc : d.readCall with
    | none =>
      rw [tick_of_not_readCall hc] at hon
      cases hon
    | some c =>
      obtain ⟨-, hoff, hena⟩ := tick_of_readCall hc
      obtain ⟨hread, rfl⟩ := readCall_eq_some.mp hc
      rw [hsame] at hread
      have hmore := (read_things_enable_read rfl).mp (hena.symm.trans hon)
      obtain ⟨hle, hlong⟩ := h.offset hread
      rw [hoff, read_things_start_offset rfl]
      simp only [hsame] at hmore ⊢
      omega

lemma EndsWithin.placed_zero (h : d.EndsWithin 0) : d.placed = [] := by
  apply placed_of_none
  cases hc : d.readCall with
  | none => rfl
  | some c =>
    obtain ⟨hread, -⟩ := readCall_eq_some.mp hc
    rw [compareIo_of_snapshot h.snapshot] at hread
    have hoff := h.offset hread
    omega

lemma EndsWithin.zero (h : d.EndsWithin 0) : d.tick.EndsWithin 0 := by
  have hnext : d.EndsWithin 1 :=
    ⟨h.snapshot, fun hon => ⟨(h.offset hon).1, (h.offset hon).2.trans (by omega)⟩⟩
  exact hnext.next

lemma EndsWithin.length_stream_le {r : ℕ} (h : d.EndsWithin r) (n : ℕ) :
    (d.stream n).length ≤ 4 * r := by
  induction n generalizing d r with
  | zero => exact Nat.zero_le _
  | succ n ih =>
    rw [stream, List.length_append]
    cases r with
    | zero =>
      rw [h.placed_zero]
      simpa using ih h.zero
    | succ r =>
      have hfirst := d.length_placed_le
      have hrest := ih h.next
      omega

/-- From whatever state: no more than ten ticks in a row have data. -/
lemma length_stream_le (d : Device) (n : ℕ) : (d.stream n).length ≤ 40 := by
  cases n with
  | zero => exact Nat.zero_le 40
  | succ n =>
    have hfirst := d.length_placed_le
    have hrest := (endsWithin_tick d).length_stream_le n
    rw [stream, List.length_append]
    omega

lemma length_identify : Identify_Drive_Information.length = 512 := by
  rw [Identify_Drive_Information, List.length_append, List.length_replicate]
  rfl

lemma not_sendsIdentify (d : Device) : ¬ d.SendsIdentify := by
  rintro ⟨n, hstream, -⟩
  have hlen := d.length_stream_le n
  rw [hstream, length_identify] at hlen
  omega

end Device

/-- No IDENTIFY command is answered with the 512 bytes of its data. -/
theorem identify_never_sent (d : Device) :
    ¬ (d.setReg ATA_REG_CMD ATA_CMD_ID_ATA).SendsIdentify :=
  Device.not_sendsIdentify _

/-- The device on zeroed memory, when the host has just written the command. -/
def identified : Device :=
  Host.init.dev.setReg ATA_REG_CMD ATA_CMD_ID_ATA

/-- The device is ready after ten ticks and 36 bytes, and the first tick has overwritten the sector
count. -/
theorem identify_cut_short :
    ¬ identified.SendsIdentify ∧ (identified.stream 10).length = 36 ∧
      (Device.tick^[10] identified).va ATA_REG_STATUS = ATA_DRDY ∧
      identified.tick.va ATA_REG_NSECT ≠ identified.va ATA_REG_NSECT := by
  refine ⟨Device.not_sendsIdentify identified, ?_, ?_, ?_⟩
  · decide +kernel
  · decide +kernel
  · decide +kernel

end QuickDevSkeleton.Pata
