import QuickDevSkeleton.Foundations.Exec
import QuickDevSkeleton.Foundations.Heap
import QuickDevSkeleton.Foundations.System
import QuickDevSkeleton.Kernel.Platform
import QuickDevSkeleton.Kernel.UserCopy

/-!
# The platform driver skeleton

The driver "nolan" of `platform/skel_drv.c` with the devices of that name, which other modules
register and unregister (`platform/skel_dev.c`, `platform/plat_dev.c`). The driver core probes a
device as soon as it and the driver are both there, and removes it from the driver when one of them
goes.
-/

namespace QuickDevSkeleton.Platform

open Foundations

def MY_MAJOR : BitVec 32 := 50

def MKDEV (ma mi : BitVec 32) : BitVec 32 :=
  (ma <<< 20) ||| mi

/-- A device "nolan"; its id tells it from the others. -/
structure PlatformDevice where
  id : BitVec 32
  resource : List Resource
  deriving DecidableEq

namespace PlatformDevice

variable (pdev : PlatformDevice)

def devno : BitVec 32 :=
  MKDEV MY_MAJOR pdev.id

/-- The first resource of each type that the driver asks for. -/
def asked : Option (Resource × Resource × Resource) := do
  let mem ← platform_get_resource pdev.resource IORESOURCE_MEM 0
  let io ← platform_get_resource pdev.resource IORESOURCE_IO 0
  let irq ← platform_get_resource pdev.resource IORESOURCE_IRQ 0
  some (mem, io, irq)

end PlatformDevice

structure Mydev where
  phy_iomem : BitVec 64
  phy_ioport : BitVec 64
  irq : BitVec 64

/-- What the driver holds: the blocks, the device numbers, the `cdev`s, each in its block, the class
devices, and the class. `drvdata` is the pointer in a device, by its id. -/
structure World where
  mydevs : Heap Mydev
  drvdata : BitVec 32 → Option ℕ
  regions : List (BitVec 32)
  cdevs : List (BitVec 32 × ℕ)
  class_devices : List (BitVec 32)
  my_class : Bool

/-- What the kernel answers during one probe: whether there is memory, whether nobody else has the
device number, whether the `cdev` can be added, and the error of `class_device_create`, if any. -/
structure Outcomes where
  kzalloc : Bool
  register_chrdev_region : Bool
  cdev_add : Bool
  class_device_create : ℤ

/-! ### `skel_drv.c` -/

def kfree (dev : ℕ) : Exec World PUnit :=
  Exec.withState fun w =>
    if (w.mydevs.cell dev).isSome then Exec.modify fun w => { w with mydevs := w.mydevs.free dev }
    else Exec.crash

/-- `cdev_add`, whose result nobody looks at. -/
def cdev_add (K : Outcomes) (c : BitVec 32 × ℕ) (cdevs : List (BitVec 32 × ℕ)) :
    List (BitVec 32 × ℕ) :=
  if K.cdev_add then c :: cdevs else cdevs

def cdev_del (dev : ℕ) : Exec World PUnit :=
  Exec.modify fun w => { w with cdevs := w.cdevs.filter fun c => c.2 ≠ dev }

def unregister_chrdev_region (devno : BitVec 32) : Exec World PUnit :=
  Exec.modify fun w => { w with regions := w.regions.erase devno }

/-- The part of `my_probe` after the resources. -/
def register (K : Outcomes) (pdev : PlatformDevice) (dev : ℕ) : Exec World ℤ :=
  Exec.withState fun w =>
    if !K.register_chrdev_region || decide (pdev.devno ∈ w.regions) then do
      kfree dev
      pure (-1)
    else do
      Exec.modify fun w => { w with
        regions := pdev.devno :: w.regions
        cdevs := cdev_add K (pdev.devno, dev) w.cdevs }
      if K.class_device_create ≠ 0 then do
        cdev_del dev
        unregister_chrdev_region pdev.devno
        kfree dev
        pure K.class_device_create
      else do
        Exec.modify fun w => { w with
          class_devices := pdev.devno :: w.class_devices
          drvdata := Function.update w.drvdata pdev.id (some dev) }
        pure 0

/-- A resource that the device does not have is a null pointer. -/
def my_probe (K : Outcomes) (pdev : PlatformDevice) : Exec World ℤ :=
  if !K.kzalloc then pure (- ENOMEM)
  else match pdev.asked with
    | none => Exec.crash
    | some (mem, io, irq) => Exec.withState fun w => do
      let dev := w.mydevs.next
      Exec.modify fun w =>
        { w with mydevs := w.mydevs.alloc ⟨mem.start, io.start, irq.start⟩ }
      register K pdev dev

def my_remove (pdev : PlatformDevice) : Exec World PUnit :=
  Exec.withState fun w =>
    match w.drvdata pdev.id with
    | none => Exec.crash
    | some dev => do
      Exec.modify fun w => { w with class_devices := w.class_devices.erase pdev.devno }
      cdev_del dev
      unregister_chrdev_region pdev.devno
      kfree dev
      Exec.modify fun w => { w with drvdata := Function.update w.drvdata pdev.id none }

/-! ### The driver core -/

/-- The devices of the bus, whether the driver is registered, and the devices that are bound to
it. -/
structure State where
  world : World
  devices : List PlatformDevice
  driver : Bool
  bound : List PlatformDevice
  oops : Bool

/-- What the driver does, among the rest. -/
def onWorld {α : Type} (x : Exec World α) : Exec State α := fun s =>
  ((x s.world).1, { s with world := (x s.world).2 })

/-- A device meets the driver. -/
def attach (K : Outcomes) (pdev : PlatformDevice) : Exec State PUnit := do
  let ret ← onWorld (my_probe K pdev)
  Exec.modify fun s => if ret = 0 then { s with bound := pdev :: s.bound } else s

/-- A bound device and the driver part. -/
def detach (pdev : PlatformDevice) : Exec State PUnit := do
  onWorld (my_remove pdev)
  Exec.modify fun s => { s with bound := s.bound.erase pdev }

def attachAll (K : PlatformDevice → Outcomes) : List PlatformDevice → Exec State PUnit
  | [] => pure ⟨⟩
  | pdev :: pdevs => do
    attach (K pdev) pdev
    attachAll K pdevs

def detachAll : List PlatformDevice → Exec State PUnit
  | [] => pure ⟨⟩
  | pdev :: pdevs => do
    detach pdev
    detachAll pdevs

/-- What the kernel answers while the module is loaded: the error of `class_create`, that of
`platform_driver_register`, and what it answers to the probe of each device. -/
structure InitOutcomes where
  class_create : ℤ
  platform_driver_register : ℤ
  probe : PlatformDevice → Outcomes

/-- `class_create` gets as far as a class: there is none of that name yet. -/
def State.ClassMade (s : State) (K : InitOutcomes) : Prop :=
  K.class_create = 0 ∧ s.world.my_class = false

instance (s : State) (K : InitOutcomes) : Decidable (s.ClassMade K) :=
  inferInstanceAs (Decidable (_ ∧ _))

/-- A class that was made stays when the driver cannot be registered. -/
def my_init (K : InitOutcomes) : Exec State PUnit :=
  Exec.withState fun s =>
    if ¬ s.ClassMade K then pure ⟨⟩
    else do
      Exec.modify fun s => { s with world := { s.world with my_class := true } }
      if K.platform_driver_register ≠ 0 then pure ⟨⟩
      else do
        Exec.modify fun s => { s with driver := true }
        attachAll K.probe s.devices

def my_exit : Exec State PUnit :=
  Exec.withState fun s => do
    detachAll s.bound
    Exec.modify fun s => { s with driver := false, world := { s.world with my_class := false } }

/-- A module registers a device or unregisters it, or the driver is loaded or unloaded. -/
inductive Action where
  | register (pdev : PlatformDevice) (K : Outcomes)
  | unregister (pdev : PlatformDevice)
  | init (K : InitOutcomes)
  | exit

/-- What an action comes to, if it is possible: there are no two devices of one id, and the module
is loaded once. -/
def Action.run (s : State) : Action → Option (Exec State PUnit)
  | .register pdev K =>
    if pdev.id ∈ s.devices.map PlatformDevice.id then none
    else some do
      Exec.modify fun s => { s with devices := pdev :: s.devices }
      if s.driver then attach K pdev else pure ⟨⟩
  | .unregister pdev =>
    if pdev ∈ s.devices then some do
      if pdev ∈ s.bound then detach pdev else pure ⟨⟩
      Exec.modify fun s => { s with devices := s.devices.erase pdev }
    else none
  | .init K => if s.driver then none else some (my_init K)
  | .exit => if s.driver then some my_exit else none

/-- After an oops nothing more happens. -/
def State.next (s : State) (a : Action) : Option State :=
  if s.oops then none
  else (a.run s).map fun x =>
    match x s with
    | (some _, t) => t
    | (none, t) => { t with oops := true }

/-- The devices, the driver and the driver core. -/
def nolan : System State Action :=
  System.ofPartial State.next

def State.init : State where
  world := ⟨Heap.empty, fun _ => none, [], [], [], false⟩
  devices := []
  driver := false
  bound := []
  oops := false

end QuickDevSkeleton.Platform
