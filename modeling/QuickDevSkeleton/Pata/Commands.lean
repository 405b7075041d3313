import QuickDevSkeleton.Foundations.System
import QuickDevSkeleton.Pata.Device

/-!
# Commands of the host

Host and device take turns at the registers. A tick sees a command only as a difference between
the command register and the snapshot, where the device has left its own status; when every
command is decoded all the same, by the next tick and by no other.
-/

namespace QuickDevSkeleton.Pata

open Foundations

/-! ### One tick -/

/-- The commands among the reports on the command block. -/
def decoded (rs : List Report) : List UInt8 :=
  (rs.filter fun r => r.reg = ATA_REG_CMD).map Report.after

lemma decoded_append (rs qs : List Report) : decoded (rs ++ qs) = decoded rs ++ decoded qs := by
  rw [decoded, List.filter_append, List.map_append]
  rfl

lemma differs_reports (va : Regs) (s : Compare) (i : Reg) :
    (differs va s i).reports = s.reports := by
  simp only [differs, decode]
  split_ifs <;> rfl

/-- A round of the loop decodes a command only at the command register. -/
lemma decoded_compareReg (va_l va : Regs) (s : Compare) (i : Reg) :
    decoded (compareReg va_l va s i).reports =
      decoded s.reports ++ if i = ATA_REG_CMD ∧ va_l i ≠ va i then [va i] else [] := by
  by_cases hi : va_l i = va i
  · have hno : ¬ (i = ATA_REG_CMD ∧ va_l i ≠ va i) := fun h => h.2 hi
    rw [if_neg hno, List.append_nil, compareReg, if_neg (not_not.mpr hi)]
  · simp only [compareReg, if_pos (Ne.intro hi), differs_reports, decoded_append]
    by_cases hcmd : i = ATA_REG_CMD
    · rw [if_pos ⟨hcmd, hi⟩]
      simp [decoded, hcmd]
    · have hno : ¬ (i = ATA_REG_CMD ∧ va_l i ≠ va i) := fun h => hcmd h.1
      rw [if_neg hno]
      simp [decoded, hcmd]

lemma decoded_foldl (va_l va : Regs) (is : List Reg) (s : Compare) :
    decoded (is.foldl (compareReg va_l va) s).reports =
      decoded s.reports ++
        (is.filter fun i => i = ATA_REG_CMD ∧ va_l i ≠ va i).map va := by
  induction is generalizing s with
  | nil => simp
  | cons i is ih =>
    rw [List.foldl_cons, ih, decoded_compareReg, List.append_assoc]
    by_cases hi : i = ATA_REG_CMD ∧ va_l i ≠ va i
    · simp only [if_pos hi, List.filter_cons, decide_eq_true hi]
      rfl
    · simp only [if_neg hi, List.filter_cons, decide_eq_false hi]
      rfl

/-- The command register comes up once in the loop. -/
lemma filter_cmd (p : Reg → Prop) [DecidablePred p] :
    ((List.finRange RES_MEM_LENGTH).filter fun i => i = ATA_REG_CMD ∧ p i) =
      if p ATA_REG_CMD then [ATA_REG_CMD] else [] := by
  have honce : (List.finRange RES_MEM_LENGTH).filter (fun i => i = ATA_REG_CMD) =
      [ATA_REG_CMD] := by
    decide
  simp only [Bool.decide_and, ← List.filter_filter]
  rw [List.filter_comm, honce]
  by_cases hp : p ATA_REG_CMD
  · simp [hp]
  · simp [hp]

/-- What a tick decodes. -/
lemma decoded_tick (d : Device) :
    decoded d.thread_function.2.1 =
      if d.va_l ATA_REG_CMD ≠ d.va ATA_REG_CMD then [d.va ATA_REG_CMD] else [] := by
  change decoded (compareIo d).reports = _
  by_cases heq : d.va_l = d.va
  · rw [if_neg (not_not.mpr (congrFun heq ATA_REG_CMD)), compareIo, if_neg (not_not.mpr heq)]
    rfl
  · rw [compareIo, if_pos heq, decoded_foldl, filter_cmd]
    split_ifs <;> rfl

/-! ### Host and device -/

/-- What became of the command register between two ticks: the command that the host has written,
and the commands that the second tick has decoded. -/
structure Seen where
  written : Option UInt8
  decoded : List UInt8

/-- The device, the command written since the last tick, and the ticks so far. -/
structure Host where
  dev : Device
  pending : Option UInt8
  seen : List Seen

/-- The host writes a register of either block, or the device ticks. -/
inductive HostAct where
  | write (i : Reg) (b : UInt8)
  | writeCtl (i : Reg) (b : UInt8)
  | tick

namespace Host

/-- One action; between two ticks the host writes one command at most. -/
def next (s : Host) : HostAct → Option Host
  | .write i b =>
    if i ≠ ATA_REG_CMD then some { s with dev := s.dev.setReg i b }
    else if s.pending = none then
      some { s with dev := s.dev.setReg ATA_REG_CMD b, pending := some b }
    else none
  | .writeCtl i b =>
    some { s with dev := { s.dev with va_ctl := Function.update s.dev.va_ctl i b } }
  | .tick =>
    let (dev, io, _) := s.dev.thread_function
    some { dev := dev, pending := none, seen := ⟨s.pending, Pata.decoded io⟩ :: s.seen }

end Host

/-- The host and the fake device. -/
def host : System Host HostAct :=
  System.ofPartial Host.next

/-- Every tick has decoded what the host had written, and nothing else. -/
def Host.SeesAll (s : Host) : Prop :=
  ∀ x ∈ s.seen, x.decoded = x.written.toList

/-- A tick finds no command that is equal to the status left by the tick before. -/
def Host.TickOk (s : Host) : HostAct → Prop
  | .tick => s.pending ≠ some (s.dev.va_l ATA_REG_CMD)
  | _ => True

/-- The device as `fake_pata_init` leaves it. -/
structure Host.Fresh (s : Host) : Prop where
  snapshot : s.dev.va_l = s.dev.va
  pending : s.pending = none
  seen : s.seen = []

/-- The command register holds the command written last, or else the status of the device. -/
structure Host.Inv (s : Host) : Prop where
  sees : s.SeesAll
  cmd : s.dev.va ATA_REG_CMD = s.pending.getD (s.dev.va_l ATA_REG_CMD)

namespace Host

variable {s t : Host}

lemma Fresh.inv (h : s.Fresh) : s.Inv where
  sees x hx := by
    rw [h.seen] at hx
    cases hx
  cmd := by
    rw [h.pending, h.snapshot]
    rfl

lemma Inv.tick (h : s.Inv) (hok : s.pending ≠ some (s.dev.va_l ATA_REG_CMD)) :
    Pata.decoded s.dev.thread_function.2.1 = s.pending.toList := by
  have hcmd := h.cmd
  rw [decoded_tick]
  cases hp : s.pending with
  | none =>
    rw [hp] at hcmd
    exact if_neg (not_not.mpr hcmd.symm)
  | some c =>
    rw [hp] at hcmd hok
    have hne : s.dev.va_l ATA_REG_CMD ≠ s.dev.va ATA_REG_CMD := by
      rw [hcmd]
      exact fun heq => hok (congrArg some heq.symm)
    rw [if_pos hne, hcmd]
    rfl

/-- The steps that meet the condition keep the invariant. -/
lemma Inv.step {a : HostAct} (h : s.Inv) (hok : s.TickOk a) (hstep : host.step s a t) : t.Inv := by
  have hnext : s.next a = some t := hstep
  cases a with
  | write i b =>
    simp only [next] at hnext
    split_ifs at hnext with hi hp
    · cases hnext
      exact ⟨h.sees, (s.dev.setReg_other b hi.symm).trans h.cmd⟩
    · cases hnext
      exact ⟨h.sees, s.dev.setReg_self ATA_REG_CMD b⟩
  | writeCtl i b =>
    cases hnext
    exact ⟨h.sees, h.cmd⟩
  | tick =>
    cases hnext
    refine ⟨fun x hx => ?_, rfl⟩
    rcases List.mem_cons.mp hx with rfl | hx
    · exact h.tick hok
    · exact h.sees x hx

/-- A tick that does not meet the condition misses the command. -/
lemma Inv.not_sees {a : HostAct} (h : s.Inv) (hno : ¬ s.TickOk a) (hstep : host.step s a t) :
    ¬ t.SeesAll := by
  intro hsees
  have hnext : s.next a = some t := hstep
  cases a with
  | write i b => exact hno trivial
  | writeCtl i b => exact hno trivial
  | tick =>
    cases hnext
    have hp : s.pending = some (s.dev.va_l ATA_REG_CMD) := not_not.mp hno
    have hcmd := h.cmd
    rw [hp] at hcmd
    have hsame : s.dev.va_l ATA_REG_CMD = s.dev.va ATA_REG_CMD := hcmd.symm
    have hlast : Pata.decoded s.dev.thread_function.2.1 = s.pending.toList :=
      hsees _ List.mem_cons_self
    rw [decoded_tick, if_neg (not_not.mpr hsame), hp] at hlast
    cases hlast

end Host

/-- The runs in which every command is decoded by the next tick, and every tick decodes nothing
but the command written since the tick before, are those in which no tick finds a command equal to
the status that the device has left. -/
theorem sees_iff_tickOk (s : Host) (tr : List (HostAct × Host)) (h : s.Fresh)
    (hrun : host.Run s tr) :
    System.Always Host.SeesAll s tr ↔ System.Along Host.TickOk s tr :=
  hrun.always_iff_along (fun _ h => h.sees) (fun _ _ _ => Host.Inv.step)
    (fun _ _ _ => Host.Inv.not_sees) h.inv

/-- The device on zeroed memory. -/
def Host.init : Host where
  dev := ⟨fun _ => 0, fun _ => 0, fun _ => 0, fun _ => 0, 0, false⟩
  pending := none
  seen := []

lemma Host.fresh_init : Host.init.Fresh := ⟨rfl, rfl, rfl⟩

/-- An IDENTIFY command, and the tick that decodes it. -/
theorem sees_iff_tickOk_identify :
    ∃ tr, host.Run Host.init tr ∧ tr.map Prod.fst = [.write ATA_REG_CMD ATA_CMD_ID_ATA, .tick] ∧
      System.Always Host.SeesAll Host.init tr := by
  obtain ⟨t, ht⟩ : ∃ t, Host.init.next (.write ATA_REG_CMD ATA_CMD_ID_ATA) = some t := ⟨_, rfl⟩
  obtain ⟨u, hu⟩ : ∃ u, t.next .tick = some u := ⟨_, rfl⟩
  have hrun : host.Run Host.init [(.write ATA_REG_CMD ATA_CMD_ID_ATA, t), (.tick, u)] :=
    .cons ht (.cons hu (.nil u))
  refine ⟨_, hrun, rfl, (sees_iff_tickOk _ _ Host.fresh_init hrun).mpr ⟨trivial, ?_, trivial⟩⟩
  cases ht
  exact fun hp => absurd (Option.some.inj hp) (by decide)

/-- A reset in the middle of a transfer: the command byte is the status byte that the device shows
while it has data, and no tick decodes it. -/
theorem reset_missed :
    ∃ tr, host.Run Host.init tr ∧
      tr.map Prod.fst = [.write ATA_REG_CMD ATA_CMD_ID_ATA, .tick,
        .write ATA_REG_CMD ATA_CMD_DEV_RESET, .tick] ∧
      ¬ System.Always Host.SeesAll Host.init tr := by
  have h : (System.final Host.next Host.init [.write ATA_REG_CMD ATA_CMD_ID_ATA, .tick,
      .write ATA_REG_CMD ATA_CMD_DEV_RESET, .tick]).map (fun s => s.seen.head?.map fun x =>
        (x.written, x.decoded)) = some (some (some ATA_CMD_DEV_RESET, [])) := by
    decide +kernel
  refine System.exists_run_not_always h fun s hs hsees => ?_
  obtain ⟨x, hx, hpair⟩ := Option.map_eq_some_iff.mp hs
  obtain ⟨hwritten, hdecoded⟩ := Prod.mk.inj hpair
  have hx' := hsees x (List.mem_of_mem_head? hx)
  rw [hwritten, hdecoded] at hx'
  cases hx'

end QuickDevSkeleton.Pata
