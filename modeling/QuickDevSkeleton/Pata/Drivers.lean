import Mathlib.Algebra.Ring.Nat
import Mathlib.Data.BitVec
import QuickDevSkeleton.Kernel.Platform
import QuickDevSkeleton.Kernel.UserCopy
import QuickDevSkeleton.Pata.Device

/-!
# Two drivers of one device

`pata_platform.c` and `ide_platform.c` both attach to the platform device "pata_platform", which
`fake_pata.c` registers. They look its resources up in different ways, and compute the addresses of
the task file in different ways; when they arrive at the same ones.
-/

namespace QuickDevSkeleton.Pata

def IORESOURCE_IRQ_SHAREABLE : BitVec 64 := 0x10
def IRQF_TRIGGER_MASK : BitVec 64 := 0xf
def IRQF_SHARED : BitVec 64 := 0x80

/-- A platform device, with the port shift of its platform data, if it has any. -/
structure PlatformDevice where
  resource : List Resource
  ioport_shift : Option (BitVec 32)

/-- What the machine answers to the drivers: whether there is a host to be had, and where ports and
memory are mapped, 0 if they are not. -/
structure Machine where
  ata_host_alloc : Bool
  devm_ioremap : BitVec 64 → BitVec 64 → BitVec 64
  devm_ioport_map : BitVec 64 → BitVec 64 → BitVec 64

/-- How a probe ends: with an error, at a null pointer, or with a call that attaches `host`. -/
inductive Probe (α : Type)
  | fails (err : ℤ)
  | crashes
  | attaches (host : α)

/-! ### `pata_platform.c` -/

def ATA_REG_FEATURE : Reg := ATA_REG_ERR

/-- The addresses of a port. -/
structure AtaIoports where
  cmd_addr : BitVec 64
  data_addr : BitVec 64
  error_addr : BitVec 64
  feature_addr : BitVec 64
  nsect_addr : BitVec 64
  lbal_addr : BitVec 64
  lbam_addr : BitVec 64
  lbah_addr : BitVec 64
  device_addr : BitVec 64
  status_addr : BitVec 64
  command_addr : BitVec 64
  altstatus_addr : BitVec 64
  ctl_addr : BitVec 64

/-- `reg << shift`, an `int`, as it is added to an address. -/
def regOffset (shift : BitVec 32) (reg : Reg) : BitVec 64 :=
  (BitVec.ofNat 32 reg.val <<< shift.toNat).signExtend 64

def pata_platform_setup_port (ioaddr : AtaIoports) (shift : BitVec 32) : AtaIoports :=
  { ioaddr with
    data_addr := ioaddr.cmd_addr + regOffset shift ATA_REG_DATA
    error_addr := ioaddr.cmd_addr + regOffset shift ATA_REG_ERR
    feature_addr := ioaddr.cmd_addr + regOffset shift ATA_REG_FEATURE
    nsect_addr := ioaddr.cmd_addr + regOffset shift ATA_REG_NSECT
    lbal_addr := ioaddr.cmd_addr + regOffset shift ATA_REG_LBAL
    lbam_addr := ioaddr.cmd_addr + regOffset shift ATA_REG_LBAM
    lbah_addr := ioaddr.cmd_addr + regOffset shift ATA_REG_LBAH
    device_addr := ioaddr.cmd_addr + regOffset shift ATA_REG_DEVICE
    status_addr := ioaddr.cmd_addr + regOffset shift ATA_REG_STATUS
    command_addr := ioaddr.cmd_addr + regOffset shift ATA_REG_CMD }

/-- What is passed to `ata_host_activate`. -/
structure AtaHost where
  ioaddr : AtaIoports
  mmio : Bool
  pio_polling : Bool
  irq : BitVec 32
  irq_flags : BitVec 64

/-- `__pata_platform_probe`: memory is remapped where the flags say nothing but memory. -/
def platform_probe (M : Machine) (io_res ctl_res : Resource) (irq_res : Option Resource)
    (ioport_shift : BitVec 32) : Probe AtaHost :=
  let mmio := decide (io_res.flags = IORESOURCE_MEM ∧ ctl_res.flags = IORESOURCE_MEM)
  let irq := match irq_res with
    | some r => if 0 < r.start then r.start.setWidth 32 else 0
    | none => 0
  let irq_flags := match irq_res with
    | some r => if 0 < r.start then r.flags &&& IRQF_TRIGGER_MASK else 0
    | none => 0
  if !M.ata_host_alloc then .fails (- ENOMEM)
  else
    let map := if mmio then M.devm_ioremap else M.devm_ioport_map
    let cmd_addr := map io_res.start (resource_size io_res)
    let ctl_addr := map ctl_res.start (resource_size ctl_res)
    if cmd_addr = 0 ∨ ctl_addr = 0 then .fails (- ENOMEM)
    else
      .attaches {
        ioaddr := pata_platform_setup_port
          ⟨cmd_addr, 0, 0, 0, 0, 0, 0, 0, 0, 0, 0, ctl_addr, ctl_addr⟩ ioport_shift
        mmio := mmio
        pio_polling := irq == 0
        irq := irq
        irq_flags := irq_flags }

/-- The resources that `pata_platform_probe` looks up: each of the bases may be of either type. -/
def pata_resources (resource : List Resource) : Option (Resource × Resource × Option Resource) := do
  let io_res ← (platform_get_resource resource IORESOURCE_IO 0).or
    (platform_get_resource resource IORESOURCE_MEM 0)
  let ctl_res ← (platform_get_resource resource IORESOURCE_IO 1).or
    (platform_get_resource resource IORESOURCE_MEM 1)
  some (io_res, ctl_res, platform_get_resource resource IORESOURCE_IRQ 0)

def pata_platform_probe (M : Machine) (pdev : PlatformDevice) : Probe AtaHost :=
  if pdev.resource.length ≠ 3 ∧ pdev.resource.length ≠ 2 then .fails (- EINVAL)
  else match pata_resources pdev.resource with
    | none => .fails (- EINVAL)
    | some (io_res, ctl_res, irq_res) =>
      platform_probe M io_res ctl_res irq_res (pdev.ioport_shift.getD 0)

/-! ### `ide_platform.c` -/

/-- What is passed to `ide_host_add`; `io_ports_array` has the task file at 0 to 7. -/
structure IdeHw where
  io_ports_array : ℕ → BitVec 64
  ctl_addr : BitVec 64
  mmio : Bool
  irq : BitVec 32
  irq_flags : BitVec 64

/-- `1 << pdata->ioport_shift`, as it is added to an address. -/
def portStep (shift : BitVec 32) : BitVec 64 :=
  ((1 : BitVec 32) <<< shift.toNat).signExtend 64

/-- One round of the loop over the ports: `io_ports_array[i]` is the port, which moves on. -/
def setupPort (step : BitVec 64) (s : (ℕ → BitVec 64) × BitVec 64) (i : ℕ) :
    (ℕ → BitVec 64) × BitVec 64 :=
  (Function.update s.1 i s.2, s.2 + step)

/-- The task file that `plat_ide_setup_ports` fills in. -/
def plat_ide_setup_ports (base : BitVec 64) (shift : BitVec 32) : ℕ → BitVec 64 :=
  let step := portStep shift
  ((List.range' 1 7).foldl (setupPort step) (Function.update (fun _ => 0) 0 base, base + step)).1

/-- The resources that `plat_ide_probe` looks up, and whether they are memory: the bases are of one
type. -/
def ide_resources (resource : List Resource) :
    Except ℤ (Resource × Resource × Resource × Bool) := do
  let (res_base, res_alt, mmio) ←
    match platform_get_resource resource IORESOURCE_IO 0,
        platform_get_resource resource IORESOURCE_IO 1 with
    | some res_base, some res_alt => .ok (res_base, res_alt, false)
    | _, _ =>
      match platform_get_resource resource IORESOURCE_MEM 0,
          platform_get_resource resource IORESOURCE_MEM 1 with
      | some res_base, some res_alt => .ok (res_base, res_alt, true)
      | _, _ => .error (- ENOMEM)
  match platform_get_resource resource IORESOURCE_IRQ 0 with
  | some res_irq => .ok (res_base, res_alt, res_irq, mmio)
  | none => .error (- EINVAL)

/-- The maps are not checked, and without platform data there is no shift to be read. -/
def plat_ide_probe (M : Machine) (pdev : PlatformDevice) : Probe IdeHw :=
  match ide_resources pdev.resource with
  | .error err => .fails err
  | .ok (res_base, res_alt, res_irq, mmio) =>
    let map := if mmio then M.devm_ioremap else M.devm_ioport_map
    let base := map res_base.start (resource_size res_base)
    let alt_base := map res_alt.start (resource_size res_alt)
    match pdev.ioport_shift with
    | none => .crashes
    | some shift =>
      .attaches {
        io_ports_array := plat_ide_setup_ports base shift
        ctl_addr := alt_base
        mmio := mmio
        irq := res_irq.start.setWidth 32
        irq_flags := (res_irq.flags &&& IRQF_TRIGGER_MASK) |||
          (if res_irq.flags &&& IORESOURCE_IRQ_SHAREABLE ≠ 0 then IRQF_SHARED else 0) }

end QuickDevSkeleton.Pata
