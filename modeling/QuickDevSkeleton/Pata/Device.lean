import Mathlib.Algebra.Ring.Nat
import Mathlib.Data.Fintype.Pi
import Mathlib.Data.List.FinRange

/-!
# The fake PATA device

`thread_function` of `fake_pata.c`. The task-file registers are plain memory shared with the host,
so the thread finds out what the host has written by comparing them with a snapshot that it takes
at the end of every tick. The command register and the status register have one address.
-/

namespace QuickDevSkeleton.Pata

abbrev RES_MEM_LENGTH : ℕ := 0x20

instance : NeZero RES_MEM_LENGTH := ⟨by decide⟩

/-- The address of a register in its block. -/
abbrev Reg := Fin RES_MEM_LENGTH

/-- The registers of one block. -/
abbrev Regs := Reg → UInt8

def ATA_REG_DATA : Reg := 0
def ATA_REG_ERR : Reg := 1
def ATA_REG_NSECT : Reg := 2
def ATA_REG_LBAL : Reg := 3
def ATA_REG_LBAM : Reg := 4
def ATA_REG_LBAH : Reg := 5
def ATA_REG_DEVICE : Reg := 6
def ATA_REG_STATUS : Reg := 7

/-- Written, the status register is the command register. -/
def ATA_REG_CMD : Reg := ATA_REG_STATUS

def ATA_DRDY : UInt8 := 0x40

def ATA_CMD_DEV_RESET : UInt8 := 0x08
def ATA_CMD_CHK_POWER : UInt8 := 0xE5
def ATA_CMD_STANDBY : UInt8 := 0xE2
def ATA_CMD_IDLE : UInt8 := 0xE3
def ATA_CMD_ID_ATA : UInt8 := 0xEC
def ATA_CMD_PACKET : UInt8 := 0xA0
def ATA_CMD_ID_ATAPI : UInt8 := 0xA1

/-- One entry of the table: a disk name and its terminator. -/
def fakeDisk (number : Char) : List UInt8 :=
  ['F', 'A', 'K', 'E', 'D', 'I', 'S', 'K', number].map (fun c => c.toNat.toUInt8) ++ [0]

/-- The nine names, and zeros up to the 512 bytes of the array. -/
def Identify_Drive_Information : List UInt8 :=
  ['1', '2', '3', '4', '5', '6', '7', '8', '9'].flatMap fakeDisk ++ List.replicate 422 0

/-- The two register blocks, their snapshots, and how far the transfer is. -/
structure Device where
  va : Regs
  va_l : Regs
  va_ctl : Regs
  va_ctl_l : Regs
  start_offset : ℕ
  enable_read : Bool

/-- What one `dev_info` call reports: a register, its value before and after, and two texts. -/
structure Report where
  reg : Reg
  REG_OUTPUT : String
  before : UInt8
  after : UInt8
  COMMAND_OUTPUT : String

/-! ### The command block -/

/-- What the comparison of the command block changes. -/
structure Compare where
  start_offset : ℕ
  enable_read : Bool
  REG_OUTPUT : String
  COMMAND_OUTPUT : String
  reports : List Report

/-- The name that a register other than the command register is reported under. -/
def regName (i : Reg) : String :=
  if i = ATA_REG_DATA then "ATA_REG_DATA"
  else if i = ATA_REG_ERR then "ATA_REG_ERR"
  else if i = ATA_REG_NSECT then "ATA_REG_NSECT"
  else if i = ATA_REG_LBAL then "ATA_REG_LBAL"
  else if i = ATA_REG_LBAM then "ATA_REG_LBAM"
  else if i = ATA_REG_LBAH then "ATA_REG_LBAH"
  else if i = ATA_REG_DEVICE then "ATA_REG_DEVICE"
  else "Unknown"

/-- The inner `switch`: a command other than IDENTIFY only ends the transfer. -/
def decode (cmd : UInt8) (s : Compare) : Compare :=
  if cmd = ATA_CMD_DEV_RESET then { s with COMMAND_OUTPUT := "Dev Reset", enable_read := false }
  else if cmd = ATA_CMD_CHK_POWER then
    { s with COMMAND_OUTPUT := "Check Power", enable_read := false }
  else if cmd = ATA_CMD_STANDBY then { s with COMMAND_OUTPUT := "Standby !", enable_read := false }
  else if cmd = ATA_CMD_IDLE then { s with COMMAND_OUTPUT := "Idle !", enable_read := false }
  else if cmd = ATA_CMD_ID_ATA then
    { s with COMMAND_OUTPUT := "Identify Drive !", start_offset := 0, enable_read := true }
  else if cmd = ATA_CMD_PACKET then
    { s with COMMAND_OUTPUT := "Packet![TODO: not implement]", enable_read := false }
  else if cmd = ATA_CMD_ID_ATAPI then
    { s with COMMAND_OUTPUT := "Try ATAPI", enable_read := false }
  else { s with COMMAND_OUTPUT := "Unknown !", enable_read := false }

/-- The outer `switch`, at a register that differs from the snapshot. -/
def differs (va : Regs) (s : Compare) (i : Reg) : Compare :=
  if i = ATA_REG_CMD then decode (va i) { s with REG_OUTPUT := "ATA_REG_CMD" }
  else { s with REG_OUTPUT := regName i, enable_read := false }

/-- One round of the loop over the registers. -/
def compareReg (va_l va : Regs) (s : Compare) (i : Reg) : Compare :=
  let s := { s with COMMAND_OUTPUT := "" }
  if va_l i ≠ va i then
    let s := differs va s i
    { s with reports := s.reports ++ [⟨i, s.REG_OUTPUT, va_l i, va i, s.COMMAND_OUTPUT⟩] }
  else s

/-- The comparison of the command block with its snapshot. -/
def compareIo (d : Device) : Compare :=
  let s : Compare := ⟨d.start_offset, d.enable_read, "", "", []⟩
  if d.va_l ≠ d.va then (List.finRange RES_MEM_LENGTH).foldl (compareReg d.va_l d.va) s else s

namespace Device

variable (d : Device)

def setReg (i : Reg) (b : UInt8) : Device :=
  { d with va := Function.update d.va i b }

@[simp] lemma setReg_self (i : Reg) (b : UInt8) : (d.setReg i b).va i = b :=
  Function.update_self _ _ _

lemma setReg_other {i j : Reg} (b : UInt8) (h : j ≠ i) : (d.setReg i b).va j = d.va j :=
  Function.update_of_ne h _ _

/-- `va[i] = Identify_Drive_Information[start_offset++]`. -/
def putNext (i : Reg) : Device :=
  { d.setReg i (Identify_Drive_Information.getD d.start_offset 0) with
    start_offset := d.start_offset + 1 }

/-- The next four bytes at the data port, and the following one skipped. -/
def read_things : Device :=
  if d.enable_read then
    let d := d.setReg ATA_REG_STATUS ((0x1 : UInt8) <<< 7)
    let d := d.putNext ATA_REG_DATA
    let d := d.putNext (ATA_REG_DATA + 1)
    let d := d.putNext (ATA_REG_DATA + 2)
    let d := d.putNext (ATA_REG_DATA + 3)
    let d := d.setReg ATA_REG_STATUS ((0x1 : UInt8) <<< 3)
    let d := { d with start_offset := (d.start_offset + 1) % 512 }
    if d.start_offset > 40 then { d with enable_read := false } else d
  else d

def refresh_status : Device :=
  d.setReg ATA_REG_STATUS ATA_DRDY

/-- The first half of a tick. -/
def tickIo : Device × List Report :=
  let s := compareIo d
  let d := { d with start_offset := s.start_offset, enable_read := s.enable_read }
  let d := if d.enable_read then d.read_things else d.refresh_status
  ({ d with va_l := d.va }, s.reports)

end Device

/-! ### The control block -/

/-- The text for the device control register: two formats, the second one of its own output. -/
def controlOutput (b : UInt8) : String :=
  let COMMAND_OUTPUT :=
    if b &&& ((0x1 : UInt8) <<< 1) ≠ 0 then "Enable Interupt" else "Disable Interupt"
  if b &&& ((0x1 : UInt8) <<< 2) ≠ 0 then COMMAND_OUTPUT ++ ", software reset" else COMMAND_OUTPUT

/-- The report on a control register that differs from the snapshot. -/
def controlReport (va_ctl_l va_ctl : Regs) (i : Reg) : Report :=
  if i.val = 0x0 then ⟨i, "Device Control", va_ctl_l i, va_ctl i, controlOutput (va_ctl i)⟩
  else if i.val = 0x1 then ⟨i, "Drive Address[?]", va_ctl_l i, va_ctl i, ""⟩
  else ⟨i, "Unknown", va_ctl_l i, va_ctl i, ""⟩

namespace Device

variable (d : Device)

/-- The second half of a tick: it only reports. -/
def tickCtl : Device × List Report :=
  let changed := (List.finRange RES_MEM_LENGTH).filter fun i => d.va_ctl_l i ≠ d.va_ctl i
  ({ d with va_ctl_l := d.va_ctl }, changed.map (controlReport d.va_ctl_l d.va_ctl))

/-- One round of `thread_function`: the device afterwards, the reports on the command block, and
those on the control block. -/
def thread_function : Device × List Report × List Report :=
  let (d, io) := d.tickIo
  let (d, ctl) := d.tickCtl
  (d, io, ctl)

end Device

end QuickDevSkeleton.Pata
