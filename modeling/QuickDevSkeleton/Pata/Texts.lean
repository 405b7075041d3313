import QuickDevSkeleton.Pata.Device

/-!
# The texts of a tick

`thread_function` builds the texts of its reports in two local arrays of 32 bytes in each half of
a tick. All of them fit with their terminators but one: the text for a software reset while the
interrupt is disabled.
-/

namespace QuickDevSkeleton.Pata

/-- The size of `REG_OUTPUT` and of `COMMAND_OUTPUT`. -/
def OUTPUT_LENGTH : ℕ := 32

/-- The bytes of the text and its terminator fit in one of the arrays. -/
def FitsOutput (text : String) : Prop :=
  text.utf8ByteSize + 1 ≤ OUTPUT_LENGTH

instance (text : String) : Decidable (FitsOutput text) :=
  inferInstanceAs (Decidable (text.utf8ByteSize + 1 ≤ OUTPUT_LENGTH))

/-- The two texts of a report. -/
def Report.texts (r : Report) : List String :=
  [r.REG_OUTPUT, r.COMMAND_OUTPUT]

/-- The text of the device control register before the second format. -/
def controlFirst (b : UInt8) : String :=
  if b &&& ((0x1 : UInt8) <<< 1) ≠ 0 then "Enable Interupt" else "Disable Interupt"

/-- What stands in the arrays for a control register that differs. -/
def controlTexts (va_ctl_l va_ctl : Regs) (i : Reg) : List String :=
  (if i.val = 0x0 then [controlFirst (va_ctl i)] else []) ++ (controlReport va_ctl_l va_ctl i).texts

namespace Device

variable (d : Device)

/-- The control registers that differ from the snapshot. -/
def changedCtl : List Reg :=
  (List.finRange RES_MEM_LENGTH).filter fun i => d.va_ctl_l i ≠ d.va_ctl i

/-- Every text that a tick builds. -/
def built : List String :=
  d.tickIo.2.flatMap Report.texts ++ d.changedCtl.flatMap (controlTexts d.va_ctl_l d.va_ctl)

/-- The host has written a software reset with the interrupt disabled. -/
def ResetDisabled : Prop :=
  d.va_ctl_l 0 ≠ d.va_ctl 0 ∧ d.va_ctl 0 &&& ((0x1 : UInt8) <<< 2) ≠ 0 ∧
    d.va_ctl 0 &&& ((0x1 : UInt8) <<< 1) = 0

end Device

/-! ### The command block -/

lemma regName_fits (i : Reg) : FitsOutput (regName i) := by
  simp only [regName]
  split_ifs <;> decide

lemma decode_fits (cmd : UInt8) (s : Compare) : FitsOutput (decode cmd s).COMMAND_OUTPUT := by
  simp only [decode, apply_ite Compare.COMMAND_OUTPUT]
  split_ifs <;> decide

lemma decode_REG_OUTPUT (cmd : UInt8) (s : Compare) :
    (decode cmd s).REG_OUTPUT = s.REG_OUTPUT := by
  simp only [decode]
  split_ifs <;> rfl

lemma decode_reports (cmd : UInt8) (s : Compare) : (decode cmd s).reports = s.reports := by
  simp only [decode]
  split_ifs <;> rfl

/-- The texts of all reports so far fit. -/
def Compare.TextsFit (s : Compare) : Prop :=
  ∀ r ∈ s.reports, ∀ text ∈ r.texts, FitsOutput text

/-- The switch leaves the name of the register and, for the command register only, a command. -/
lemma differs_fits (va : Regs) {s : Compare} (i : Reg) (h : s.COMMAND_OUTPUT = "") :
    FitsOutput (differs va s i).REG_OUTPUT ∧ FitsOutput (differs va s i).COMMAND_OUTPUT ∧
      (differs va s i).reports = s.reports := by
  rw [differs]
  split
  · refine ⟨?_, decode_fits _ _, decode_reports _ _⟩
    rw [decode_REG_OUTPUT]
    exact show FitsOutput "ATA_REG_CMD" by decide
  · refine ⟨regName_fits i, ?_, rfl⟩
    rw [h]
    decide

/-- A round of the loop adds at most one report, whose texts fit. -/
lemma compareReg_fits (va_l va : Regs) {s : Compare} (i : Reg) (h : s.TextsFit) :
    (compareReg va_l va s i).TextsFit := by
  simp only [compareReg]
  split
  · obtain ⟨hreg, hcmd, hreports⟩ :=
      differs_fits va (s := { s with COMMAND_OUTPUT := "" }) i rfl
    intro r hr text htext
    rcases List.mem_append.mp hr with hr | hr
    · rw [hreports] at hr
      exact h r hr text htext
    · obtain rfl := List.mem_singleton.mp hr
      rcases List.mem_cons.mp htext with rfl | htext
      · exact hreg
      · obtain rfl := List.mem_singleton.mp htext
        exact hcmd
  · exact h

lemma foldl_fits (va_l va : Regs) (is : List Reg) {s : Compare} (h : s.TextsFit) :
    (is.foldl (compareReg va_l va) s).TextsFit := by
  induction is generalizing s with
  | nil => exact h
  | cons i is ih => exact ih (compareReg_fits va_l va i h)

lemma compareIo_fits (d : Device) : (compareIo d).TextsFit := by
  have hstart : Compare.TextsFit ⟨d.start_offset, d.enable_read, "", "", []⟩ :=
    fun r hr => absurd hr List.not_mem_nil
  simp only [compareIo]
  split
  · exact foldl_fits d.va_l d.va _ hstart
  · exact hstart

/-! ### The control block -/

lemma controlFirst_fits (b : UInt8) : FitsOutput (controlFirst b) := by
  rw [controlFirst]
  split_ifs <;> decide

/-- The second format overflows the array by its terminator exactly if the first one has written
its longer text. -/
lemma controlOutput_fits_iff (b : UInt8) : FitsOutput (controlOutput b) ↔
    ¬ (b &&& ((0x1 : UInt8) <<< 2) ≠ 0 ∧ b &&& ((0x1 : UInt8) <<< 1) = 0) := by
  by_cases hdisabled : b &&& ((0x1 : UInt8) <<< 1) = 0
  · by_cases hreset : b &&& ((0x1 : UInt8) <<< 2) = 0
    · simp only [controlOutput, if_neg (not_not.mpr hdisabled), if_neg (not_not.mpr hreset)]
      exact iff_of_true (by decide) fun h => h.1 hreset
    · simp only [controlOutput, if_neg (not_not.mpr hdisabled), if_pos (Ne.intro hreset)]
      exact iff_of_false (by decide) fun h => h ⟨hreset, hdisabled⟩
  · have hfits : FitsOutput (controlOutput b) := by
      simp only [controlOutput, if_pos (Ne.intro hdisabled)]
      split_ifs <;> decide
    exact iff_of_true hfits fun h => hdisabled h.2

/-- Of the texts for a control register that differs, only the one for a reset may not fit. -/
lemma controlTexts_fit_iff (va_ctl_l va_ctl : Regs) (i : Reg) :
    (∀ text ∈ controlTexts va_ctl_l va_ctl i, FitsOutput text) ↔
      (i = 0 → FitsOutput (controlOutput (va_ctl i))) := by
  by_cases hzero : i = 0
  · subst hzero
    have htexts : controlTexts va_ctl_l va_ctl 0 =
        [controlFirst (va_ctl 0), "Device Control", controlOutput (va_ctl 0)] := rfl
    rw [htexts]
    constructor
    · intro h _
      exact h _ (by simp)
    · intro h text htext
      rcases List.mem_cons.mp htext with rfl | htext
      · exact controlFirst_fits _
      · rcases List.mem_cons.mp htext with rfl | htext
        · decide
        · obtain rfl := List.mem_singleton.mp htext
          exact h rfl
  · refine iff_of_true ?_ fun h => absurd h hzero
    have hval : i.val ≠ 0x0 := fun h => hzero (Fin.ext h)
    simp only [controlTexts, if_neg hval, List.nil_append, controlReport]
    split_ifs
    · exact show ∀ text ∈ ["Drive Address[?]", ""], FitsOutput text by decide
    · exact show ∀ text ∈ ["Unknown", ""], FitsOutput text by decide

/-! ### A tick -/

/-- Whatever the registers and the snapshots hold: every text that a tick builds fits exactly if
the tick does not find a software reset with the interrupt disabled. -/
theorem built_fit_iff (d : Device) :
    (∀ text ∈ d.built, FitsOutput text) ↔ ¬ d.ResetDisabled := by
  have hio : ∀ text ∈ d.tickIo.2.flatMap Report.texts, FitsOutput text := by
    intro text htext
    obtain ⟨r, hr, htext⟩ := List.mem_flatMap.mp htext
    exact compareIo_fits d r hr text htext
  have hzero : (0 : Reg) ∈ d.changedCtl ↔ d.va_ctl_l 0 ≠ d.va_ctl 0 := by
    simp [Device.changedCtl]
  have hctl : (∀ text ∈ d.changedCtl.flatMap (controlTexts d.va_ctl_l d.va_ctl),
      FitsOutput text) ↔ ((0 : Reg) ∈ d.changedCtl → FitsOutput (controlOutput (d.va_ctl 0))) := by
    constructor
    · intro h hmem
      exact (controlTexts_fit_iff d.va_ctl_l d.va_ctl 0).mp
        (fun text htext => h text (List.mem_flatMap.mpr ⟨0, hmem, htext⟩)) rfl
    · intro h text htext
      obtain ⟨i, hi, htext⟩ := List.mem_flatMap.mp htext
      refine (controlTexts_fit_iff d.va_ctl_l d.va_ctl i).mpr (fun hi0 => ?_) text htext
      rw [hi0] at hi ⊢
      exact h hi
  calc (∀ text ∈ d.built, FitsOutput text) ↔
      ∀ text ∈ d.changedCtl.flatMap (controlTexts d.va_ctl_l d.va_ctl), FitsOutput text := by
        simp only [Device.built, List.forall_mem_append]
        exact and_iff_right hio
    _ ↔ (d.va_ctl_l 0 ≠ d.va_ctl 0 → FitsOutput (controlOutput (d.va_ctl 0))) := by
        rw [hctl, hzero]
    _ ↔ ¬ d.ResetDisabled := by
        rw [controlOutput_fits_iff]
        exact not_and.symm

/-- A host that resets the drive: with the interrupt disabled, the text takes all 32 bytes of the
array, and its terminator the one behind. -/
def resetWritten : Device where
  va _ := 0
  va_l _ := 0
  va_ctl := Function.update (fun _ => 0) 0 0x04
  va_ctl_l _ := 0
  start_offset := 0
  enable_read := false

theorem reset_text_overflows : ¬ ∀ text ∈ resetWritten.built, FitsOutput text := by
  have hmem : "Disable Interupt, software reset" ∈ resetWritten.built := by decide +kernel
  intro h
  exact absurd (h _ hmem) (by decide)

end QuickDevSkeleton.Pata
