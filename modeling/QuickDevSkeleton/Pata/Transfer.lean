import Mathlib.Logic.Function.Iterate
import QuickDevSkeleton.Pata.Commands

/-!
# The IDENTIFY transfer

While `enable_read` is set, every tick stores four bytes of `Identify_Drive_Information` from
`start_offset` on, and moves the offset by five. The transfer ends when the offset passes `40`, so
no access comes near the end of the array, and no transfer is complete.
-/

namespace QuickDevSkeleton.Pata

open Foundations

namespace Device

variable (d : Device)

/-- The device after one round of `thread_function`. -/
def tick : Device :=
  d.thread_function.1

/-- The device as a tick calls `read_things`, if it does. -/
def readCall : Option Device :=
  let s := compareIo d
  if s.enable_read then
    some { d with start_offset := s.start_offset, enable_read := s.enable_read }
  else none

/-- Where the assignments of `read_things` read `Identify_Drive_Information`. -/
def readIndices : List ℕ :=
  let d₀ := d.setReg ATA_REG_STATUS ((0x1 : UInt8) <<< 7)
  let d₁ := d₀.putNext ATA_REG_DATA
  let d₂ := d₁.putNext (ATA_REG_DATA + 1)
  let d₃ := d₂.putNext (ATA_REG_DATA + 2)
  [d₀.start_offset, d₁.start_offset, d₂.start_offset, d₃.start_offset]

variable {d}

lemma readIndices_eq : d.readIndices =
    [d.start_offset, d.start_offset + 1, d.start_offset + 2, d.start_offset + 3] := rfl

lemma readCall_eq_some {c : Device} : d.readCall = some c ↔ (compareIo d).enable_read = true ∧
    c = { d with start_offset := (compareIo d).start_offset, enable_read := true } := by
  rw [readCall]
  by_cases h : (compareIo d).enable_read = true
  · simp only [h, if_true, true_and, Option.some_inj]
    exact eq_comm
  · simp [h]

/-! ### One tick -/

lemma read_things_start_offset (h : d.enable_read = true) :
    d.read_things.start_offset = (d.start_offset + 5) % 512 := by
  simp only [read_things, h, if_true]
  split_ifs <;> rfl

lemma read_things_enable_read (h : d.enable_read = true) :
    d.read_things.enable_read = true ↔ (d.start_offset + 5) % 512 ≤ 40 := by
  simp only [read_things, h, if_true]
  split_ifs with hend
  · exact iff_of_false not_false (not_le.mpr hend)
  · exact iff_of_true h (not_lt.mp hend)

/-- A tick that calls `read_things` is that call and a snapshot. -/
lemma tick_of_readCall {c : Device} (h : d.readCall = some c) :
    d.tick.va = c.read_things.va ∧ d.tick.start_offset = c.read_things.start_offset ∧
      d.tick.enable_read = c.read_things.enable_read := by
  obtain ⟨hread, rfl⟩ := readCall_eq_some.mp h
  simp only [tick, thread_function, tickIo, tickCtl, hread, if_true, and_self]

lemma tick_of_not_readCall (h : d.readCall = none) : d.tick.enable_read = false := by
  have hread : (compareIo d).enable_read = false := by
    simpa [readCall] using h
  simp only [tick, thread_function, tickIo, tickCtl, hread]
  rfl

lemma tick_snapshot (d : Device) : d.tick.va_l = d.tick.va := rfl

lemma compareIo_of_snapshot (h : d.va_l = d.va) :
    compareIo d = ⟨d.start_offset, d.enable_read, "", "", []⟩ := by
  rw [compareIo, if_neg (not_not.mpr h)]

end Device

/-! ### What the comparison does to the transfer -/

/-- A comparison that leaves `enable_read` set has decoded an IDENTIFY command and started at `0`,
or it has left both variables alone. -/
def Compare.Enabled (d : Device) (s : Compare) : Prop :=
  s.enable_read = true →
    if ATA_CMD_ID_ATA ∈ decoded s.reports then s.start_offset = 0
    else d.enable_read = true ∧ s.start_offset = d.start_offset

lemma decode_identify (s : Compare) : (decode ATA_CMD_ID_ATA s).start_offset = 0 := rfl

lemma decode_other {cmd : UInt8} (s : Compare) (h : cmd ≠ ATA_CMD_ID_ATA) :
    (decode cmd s).enable_read = false := by
  simp only [decode, if_neg h]
  split_ifs <;> rfl

/-- A register that differs ends the transfer, unless it is the command register and holds an
IDENTIFY command. -/
lemma differs_enabled {va : Regs} {s : Compare} {i : Reg}
    (h : (differs va s i).enable_read = true) :
    i = ATA_REG_CMD ∧ va i = ATA_CMD_ID_ATA ∧ (differs va s i).start_offset = 0 := by
  by_cases hi : i = ATA_REG_CMD
  · by_cases hcmd : va i = ATA_CMD_ID_ATA
    · refine ⟨hi, hcmd, ?_⟩
      rw [differs, if_pos hi, hcmd, decode_identify]
    · rw [differs, if_pos hi, decode_other _ hcmd] at h
      cases h
  · rw [differs, if_neg hi] at h
    cases h

lemma compareReg_enabled {d : Device} (va_l va : Regs) {s : Compare} (i : Reg)
    (h : s.Enabled d) : (compareReg va_l va s i).Enabled d := by
  by_cases hi : va_l i = va i
  · simp only [compareReg, hi, ne_eq, not_true, if_false]
    exact h
  · intro hread
    simp only [compareReg, hi, ne_eq, not_false_eq_true, if_true] at hread ⊢
    obtain ⟨hreg, hcmd, hzero⟩ := differs_enabled hread
    rw [decoded_append, if_pos (List.mem_append_right _ (by simp [decoded, hreg, ← hcmd]))]
    exact hzero

lemma foldl_enabled {d : Device} (va_l va : Regs) (is : List Reg) {s : Compare}
    (h : s.Enabled d) : (is.foldl (compareReg va_l va) s).Enabled d := by
  induction is generalizing s with
  | nil => exact h
  | cons i is ih => exact ih (compareReg_enabled va_l va i h)

lemma compareIo_enabled (d : Device) : (compareIo d).Enabled d := by
  have hstart : Compare.Enabled d ⟨d.start_offset, d.enable_read, "", "", []⟩ :=
    fun hread => ⟨hread, rfl⟩
  simp only [compareIo]
  split
  · exact foldl_enabled d.va_l d.va _ hstart
  · exact hstart

/-! ### Every run -/

/-- The device, and the number of ticks since it has decoded the last IDENTIFY command, with the
tick that decoded it. -/
structure Watched where
  dev : Device
  since : ℕ

namespace Watched

/-- The host writes any register of either block, or the device ticks. -/
def next (s : Watched) : HostAct → Watched
  | .write i b => { s with dev := s.dev.setReg i b }
  | .writeCtl i b =>
    { s with dev := { s.dev with va_ctl := Function.update s.dev.va_ctl i b } }
  | .tick =>
    ⟨s.dev.tick, if ATA_CMD_ID_ATA ∈ decoded s.dev.thread_function.2.1 then 1 else s.since + 1⟩

/-- If the step calls `read_things`, that call starts within the nine names and stays there. -/
def ReadsInside (s : Watched) : HostAct → Prop
  | .tick => ∀ c, s.dev.readCall = some c →
      c.enable_read = true ∧ c.start_offset ≤ 40 ∧ 5 ∣ c.start_offset ∧
        (∀ j ∈ c.readIndices, j < 44) ∧ c.read_things.start_offset = c.start_offset + 5
  | _ => True

/-- While the transfer lasts, its offset counts the ticks. -/
def Inv (s : Watched) : Prop :=
  s.dev.enable_read = true → s.dev.start_offset = 5 * s.since ∧ s.dev.start_offset ≤ 40

variable {s t : Watched} {a : HostAct}

/-- The offset at which a tick calls `read_things`. -/
lemma Inv.readCall (h : s.Inv) {c : Device} (hc : s.dev.readCall = some c) :
    c.enable_read = true ∧ c.start_offset + 5 = 5 * (s.next .tick).since ∧
      c.start_offset ≤ 40 := by
  obtain ⟨hread, rfl⟩ := Device.readCall_eq_some.mp hc
  have hcmp := compareIo_enabled s.dev hread
  refine ⟨rfl, ?_⟩
  show (compareIo s.dev).start_offset + 5 =
      5 * (if ATA_CMD_ID_ATA ∈ decoded (compareIo s.dev).reports then 1 else s.since + 1) ∧
    (compareIo s.dev).start_offset ≤ 40
  split_ifs at hcmp ⊢ with hdec
  · omega
  · obtain ⟨hon, hsame⟩ := hcmp
    have hinv := h hon
    omega

lemma Inv.tick (h : s.Inv) : (s.next .tick).Inv := by
  intro hon
  cases hc : s.dev.readCall with
  | none =>
    rw [show (s.next .tick).dev.enable_read = s.dev.tick.enable_read from rfl,
      Device.tick_of_not_readCall hc] at hon
    cases hon
  | some c =>
    obtain ⟨hread, hcount, hle⟩ := h.readCall hc
    obtain ⟨-, hoff, hena⟩ := Device.tick_of_readCall hc
    have hon' : c.read_things.enable_read = true := hena.symm.trans hon
    have hmore := (Device.read_things_enable_read hread).mp hon'
    have hdev : (s.next .tick).dev.start_offset = (c.start_offset + 5) % 512 :=
      hoff.trans (Device.read_things_start_offset hread)
    omega

lemma Inv.next (h : s.Inv) (a : HostAct) : (s.next a).Inv := by
  cases a with
  | write i b => exact h
  | writeCtl i b => exact h
  | tick => exact h.tick

lemma Inv.readsInside (h : s.Inv) (a : HostAct) : s.ReadsInside a := by
  cases a with
  | write i b => trivial
  | writeCtl i b => trivial
  | tick =>
    intro c hc
    obtain ⟨hread, hcount, hle⟩ := h.readCall hc
    refine ⟨hread, hle, by omega, fun j hj => ?_, ?_⟩
    · rw [Device.readIndices_eq] at hj
      simp only [List.mem_cons, List.not_mem_nil, or_false] at hj
      omega
    · rw [Device.read_things_start_offset hread]
      omega

lemma Inv.over (h : s.Inv) (hnine : 9 ≤ s.since) : s.dev.enable_read = false := by
  cases hon : s.dev.enable_read with
  | false => rfl
  | true =>
    have hinv := h hon
    omega

end Watched

/-- The fake device and a host that writes whatever and whenever it wants. -/
def watched : System Watched HostAct :=
  System.ofPartial fun s a => some (s.next a)

/-- In every run, each call of `read_things` starts with `enable_read` set at a multiple of five up
to `40` and reads below `44`; and `enable_read` is clear after nine ticks, unless one of them has
decoded an IDENTIFY command. -/
theorem reads_inside (d : Device) (hidle : d.enable_read = false) (tr : List (HostAct × Watched))
    (hrun : watched.Run ⟨d, 0⟩ tr) :
    System.Along Watched.ReadsInside ⟨d, 0⟩ tr ∧
      System.Always (fun s : Watched => 9 ≤ s.since → s.dev.enable_read = false) ⟨d, 0⟩ tr := by
  have hstart : Watched.Inv ⟨d, 0⟩ := fun hon => absurd (hidle.symm.trans hon) Bool.false_ne_true
  have hkeep : ∀ s a t, Watched.Inv s → watched.step s a t → t.Inv := by
    intro s a t hs hstep
    rw [← Option.some.inj hstep]
    exact hs.next a
  constructor
  · exact hrun.along hkeep (fun s a t hs _ => hs.readsInside a) hstart
  · exact (hrun.always hkeep hstart).mono fun s hs => hs.over

/-- Two IDENTIFY commands, with a new sector count in the middle of the first transfer. -/
def identifyTwice : List HostAct :=
  [.write ATA_REG_CMD ATA_CMD_ID_ATA, .tick, .tick, .write ATA_REG_NSECT 1, .tick,
    .write ATA_REG_CMD ATA_CMD_ID_ATA, .tick, .tick]

theorem reads_inside_identify :
    ∃ tr, watched.Run ⟨Host.init.dev, 0⟩ tr ∧ tr.map Prod.fst = identifyTwice ∧
      System.Along Watched.ReadsInside ⟨Host.init.dev, 0⟩ tr ∧
      System.Always (fun s : Watched => 9 ≤ s.since → s.dev.enable_read = false)
        ⟨Host.init.dev, 0⟩ tr := by
  have hfinal : (System.final (fun s a => some (Watched.next s a)) ⟨Host.init.dev, 0⟩
      identifyTwice).isSome := rfl
  obtain ⟨tr, hrun, hacts⟩ := System.exists_run_of_isSome hfinal
  exact ⟨tr, hrun, hacts, reads_inside Host.init.dev rfl tr hrun⟩

end QuickDevSkeleton.Pata
