import Mathlib.Logic.Function.Basic
import QuickDevSkeleton.Foundations.Exec
import QuickDevSkeleton.Foundations.System
import QuickDevSkeleton.Kernel.UserCopy

/-!
# The PCI driver for any device

`pci/any.c`: `girlp` probes every PCI device, acquires the resources of a network card if the
device is one, and calls `girlf` where one of its calls fails; `girlf` also is the removal
function. A ledger records for each device what the driver holds for it, and a log what is
released.
-/

namespace QuickDevSkeleton.AnyPci

open Foundations

structure PciDev where
  vendor : ℕ
  device : ℕ

/-- What can be acquired for a device: its net device and the registration of that, the enabling of
the device, its two regions, a mapping, a device number, a `cdev`, and a class device for the
number. -/
inductive Resource where
  | netdev
  | registration
  | enable
  | io_region
  | mem_region
  | mapping (addr : ℕ)
  | chrdev (devno : ℕ)
  | cdev
  | class_device (devno : ℕ)
  deriving DecidableEq

/-- The fields of `struct pci_test` that its release uses. -/
structure PciTest where
  cds_dev : ℕ
  iomem_start : ℕ

/-- A call that releases a resource, and whether that was held. -/
structure Release where
  dev : ℕ
  resource : Resource
  held : Bool
  deriving DecidableEq

/-- The devices with their `driver_data`, the ledger, the log, and the class: whether it exists, and
whether it was used when it did not. -/
structure World where
  devices : ℕ → PciDev
  driver_data : ℕ → Option PciTest
  held : ℕ → List Resource
  releases : List Release
  pf_class : Bool
  class_misused : Bool

/-- What the kernel answers during one probe: `chrdev_failures` is how often
`alloc_chrdev_region` fails before it succeeds, and `major` what it hands out. -/
structure Outcomes where
  alloc_etherdev : Bool
  register_netdev : Bool
  pci_enable_device : Bool
  request_region : Bool
  request_mem_region : Bool
  ioremap : ℕ
  chrdev_failures : ℕ
  major : ℕ
  cdev_add : Bool
  device_create : Bool

/-- The device is a network card of the kind that the driver looks for. -/
def World.Matching (w : World) (dev : ℕ) : Prop :=
  (w.devices dev).vendor = 0x10ec ∧ (w.devices dev).device = 0x8139

instance (w : World) (dev : ℕ) : Decidable (w.Matching dev) :=
  inferInstanceAs (Decidable (_ ∧ _))

def MKDEV (ma mi : ℕ) : ℕ :=
  (ma <<< 20) ||| mi

/-! ### Acquiring and releasing -/

def acquire (dev : ℕ) (r : Resource) : Exec World Unit :=
  Exec.modify fun w => { w with held := Function.update w.held dev (w.held dev ++ [r]) }

/-- Release a resource, held or not. -/
def release (dev : ℕ) (r : Resource) : Exec World Unit :=
  Exec.modify fun w =>
    { w with
      held := Function.update w.held dev ((w.held dev).erase r)
      releases := w.releases ++ [⟨dev, r, decide (r ∈ w.held dev)⟩] }

def set_driver_data (dev : ℕ) (pt : Option PciTest) : Exec World Unit :=
  Exec.modify fun w => { w with driver_data := Function.update w.driver_data dev pt }

/-- A use of `pf_class`. -/
def use_class : Exec World Unit :=
  Exec.modify fun w => { w with class_misused := w.class_misused || !w.pf_class }

/-- `device_create`, whose result nobody looks at. -/
def device_create (K : Outcomes) (dev devno : ℕ) : Exec World Unit := do
  use_class
  if K.device_create then acquire dev (.class_device devno) else pure ⟨⟩

def device_destroy (dev devno : ℕ) : Exec World Unit := do
  use_class
  release dev (.class_device devno)

/-- The loop around `alloc_chrdev_region`, from `minor` on: the number that it ends with. -/
def alloc_chrdev_region (major : ℕ) : ℕ → ℕ → ℕ
  | 0, minor => MKDEV major minor
  | failures + 1, minor => alloc_chrdev_region major failures (minor + 1)

/-! ### Removal and probe -/

/-- What `girlf` does with a matching device. -/
def removeCard (dev : ℕ) : Exec World Unit :=
  Exec.withState fun w =>
    match w.driver_data dev with
    | none => Exec.crash
    | some pt => do
      device_destroy dev pt.cds_dev
      release dev .cdev
      release dev (.chrdev pt.cds_dev)
      release dev (.mapping pt.iomem_start)
      release dev .enable
      release dev .io_region
      release dev .mem_region
      release dev .netdev
      set_driver_data dev none

def girlf (dev : ℕ) : Exec World Unit :=
  Exec.withState fun w =>
    if w.Matching dev then removeCard dev else pure ⟨⟩

/-- A failure of `girlp`. -/
def fail (dev : ℕ) (rc : ℤ) : Exec World ℤ := do
  girlf dev
  pure rc

/-- What `girlp` does with a matching device. -/
def probeCard (K : Outcomes) (dev : ℕ) : Exec World ℤ := do
  if !K.alloc_etherdev then fail dev (-ENOMEM)
  else
    acquire dev .netdev
    set_driver_data dev (some ⟨0, 0⟩)
    if !K.register_netdev then fail dev (-1)
    else
      acquire dev .registration
      if !K.pci_enable_device then fail dev (-1)
      else
        acquire dev .enable
        if !K.request_region then fail dev (-1)
        else
          acquire dev .io_region
          if !K.request_mem_region then fail dev (-1)
          else
            acquire dev .mem_region
            set_driver_data dev (some ⟨0, K.ioremap⟩)
            if K.ioremap = 0 then fail dev (-1)
            else
              acquire dev (.mapping K.ioremap)
              let devno := alloc_chrdev_region K.major K.chrdev_failures 0
              acquire dev (.chrdev devno)
              set_driver_data dev (some ⟨devno, K.ioremap⟩)
              if !K.cdev_add then fail dev (-1)
              else
                acquire dev .cdev
                device_create K dev devno
                pure 0

def girlp (K : Outcomes) (dev : ℕ) : Exec World ℤ :=
  Exec.withState fun w =>
    if w.Matching dev then probeCard K dev else pure 0

/-! ### The driver core and the module -/

/-- How far the module is: `igp` has succeeded, `rgp` is between its two calls, or it has
returned. -/
inductive Stage where
  | loaded
  | exiting
  | gone
  deriving DecidableEq

/-- `bound` lists the devices of the driver. -/
structure State where
  world : World
  bound : List ℕ
  stage : Stage
  oops : Bool

/-- The driver core probes a device that has no driver and removes one that has, also on behalf of
`pci_unregister_driver`, which is done when no device is left. -/
inductive Action where
  | probe (dev : ℕ) (K : Outcomes)
  | remove (dev : ℕ)
  | class_destroy
  | unregistered

namespace State

variable (s : State)

/-- Run `x`, and let `k` make the list of bound devices from its result. -/
def exec {α : Type} (x : Exec World α) (k : α → List ℕ) : State :=
  match x s.world with
  | (some a, w) => { s with world := w, bound := k a }
  | (none, w) => { s with world := w, oops := true }

/-- One action, if it is possible. -/
def next : Action → Option State
  | .probe dev K =>
    if s.stage ≠ .gone ∧ dev ∉ s.bound then
      some (s.exec (girlp K dev) fun rc => if rc = 0 then dev :: s.bound else s.bound)
    else none
  | .remove dev =>
    if dev ∈ s.bound then some (s.exec (girlf dev) fun _ => s.bound.erase dev) else none
  | .class_destroy =>
    if s.stage = .loaded then
      some { s with world := { s.world with pf_class := false }, stage := .exiting }
    else none
  | .unregistered =>
    if s.stage = .exiting ∧ s.bound = [] then some { s with stage := .gone } else none

end State

/-- The driver, the driver core and the module as a transition system. -/
def driver : System State Action :=
  System.ofPartial State.next

/-- After `igp`, on a machine with the given devices. -/
def State.init (devices : ℕ → PciDev) : State where
  world := ⟨devices, fun _ => none, fun _ => [], [], true, false⟩
  bound := []
  stage := .loaded
  oops := false

end QuickDevSkeleton.AnyPci
