import Mathlib.Algebra.Order.Group.Int
import Mathlib.Logic.Function.Basic
import QuickDevSkeleton.Foundations.Exec
import QuickDevSkeleton.Foundations.Heap
import QuickDevSkeleton.Kernel.UserCopy

/-!
# The 8139 PCI driver

The functions of `pci/my_pci2.c`: `my_probe` and `my_remove`, and the file operations of the
character device that a probe registers. PCI devices are numbers; pointers to a `struct mydev`
are the numbers of the cells of a heap; io addresses are numbers, and `0` is `NULL`.
-/

namespace QuickDevSkeleton.Pci

open Foundations

def PCI_MAJOR : ℕ := 80

def IORESOURCE_IO : ℕ := 0x100
def IORESOURCE_MEM : ℕ := 0x200

def PCI_SLOT (devfn : ℕ) : ℕ :=
  (devfn >>> 3) &&& 0x1f

def MKDEV (ma mi : ℕ) : ℕ :=
  (ma <<< 20) ||| mi

/-! ### The state of the kernel and of the module -/

/-- One of the six resources of a PCI device: its flags and its length. -/
structure Resource where
  flags : ℕ
  len : ℕ

structure PciDev where
  devfn : ℕ
  resource : ℕ → Resource

structure Mydev where
  regs_len : ℕ
  ioaddr : ℕ

/-- Who requested a region: this driver, for the device in question, or another one. -/
inductive Owner where
  | my_pci_driver
  | other (n : ℕ)
  deriving DecidableEq

/-- A region that was released, and who held it at that moment. -/
structure Release where
  pdev : ℕ
  bar : ℕ
  owner : Option Owner
  deriving DecidableEq

/-- Io addresses that can be accessed. -/
structure Window where
  addr : ℕ
  len : ℕ
  deriving DecidableEq

/-- A registered `struct cdev`, with the `struct mydev` it is part of. -/
structure Cdev where
  devno : ℕ
  dev : ℕ
  deriving DecidableEq

/-- `regions` and `enable_cnt` are the resource tree and the enable counts of the devices,
`releases` all calls of `pci_release_regions` so far, `io` the bytes at the io addresses and
`kbufs` the number of buffers that the file operations have allocated and not freed. -/
structure World where
  devices : ℕ → PciDev
  regions : ℕ → ℕ → Option Owner
  releases : List Release
  mapped : List Window
  enable_cnt : ℕ → ℤ
  drvdata : ℕ → Option ℕ
  mydevs : Heap Mydev
  cdevs : List Cdev
  use_io : ℕ
  io : Memory UInt8
  kbufs : ℕ

/-- What the kernel answers between the label `retry` and the next jump. A request of regions
that are free fails with `request_regions` unless that is `0`. -/
structure Attempt where
  request_regions : ℤ
  iomap : ℕ

/-- What the kernel answers during one probe; `second` is for the pass after `goto retry`. -/
structure Outcomes where
  kzalloc : Bool
  enable_device : ℤ
  first : Attempt
  second : Attempt
  cdev_add : Bool

namespace World

variable (w : World) (pdev : ℕ)

/-- The resources that a request of all regions is about. -/
def bars : List ℕ :=
  (List.range 6).filter fun i => ((w.devices pdev).resource i).len ≠ 0

/-- Nobody holds a region of the device. -/
def Free : Prop :=
  ∀ i ∈ w.bars pdev, w.regions pdev i = none

instance : Decidable (w.Free pdev) :=
  inferInstanceAs (Decidable (∀ i ∈ w.bars pdev, w.regions pdev i = none))

/-- Give the regions of the device to `o`, or to nobody. -/
def setRegions (o : Option Owner) : World :=
  { w with
    regions := Function.update w.regions pdev fun i =>
      if i ∈ w.bars pdev then o else w.regions pdev i }

/-- What a release of the regions of the device takes away. -/
def held : List Release :=
  (w.bars pdev).map fun i => ⟨pdev, i, w.regions pdev i⟩

/-- The io addresses from `a` to `a + n` are mapped. -/
def Mapped (a n : ℕ) : Prop :=
  ∃ v ∈ w.mapped, v.addr ≤ a ∧ a + n ≤ v.addr + v.len

instance (a n : ℕ) : Decidable (w.Mapped a n) :=
  inferInstanceAs (Decidable (∃ v ∈ w.mapped, v.addr ≤ a ∧ a + n ≤ v.addr + v.len))

end World

/-! ### Functions of the kernel -/

def pci_set_drvdata (pdev : ℕ) (data : Option ℕ) : Exec World Unit :=
  Exec.modify fun w => { w with drvdata := Function.update w.drvdata pdev data }

def pci_enable_device (K : Outcomes) (pdev : ℕ) : Exec World ℤ := do
  if K.enable_device ≠ 0 then pure K.enable_device
  else
    Exec.modify fun w =>
      { w with enable_cnt := Function.update w.enable_cnt pdev (w.enable_cnt pdev + 1) }
    pure 0

def pci_disable_device (pdev : ℕ) : Exec World Unit :=
  Exec.modify fun w =>
    { w with enable_cnt := Function.update w.enable_cnt pdev (w.enable_cnt pdev - 1) }

/-- All regions of the device or none: a region that somebody holds makes the request fail. -/
def pci_request_regions (K : Attempt) (pdev : ℕ) : Exec World ℤ :=
  Exec.withState fun w =>
    if ¬ w.Free pdev then pure (-EBUSY)
    else if K.request_regions ≠ 0 then pure K.request_regions
    else do
      Exec.modify fun w => w.setRegions pdev (some .my_pci_driver)
      pure 0

/-- The regions of the device are free afterwards, whoever held them. -/
def pci_release_regions (pdev : ℕ) : Exec World Unit :=
  Exec.modify fun w =>
    { w.setRegions pdev none with releases := w.releases ++ w.held pdev }

/-- `pci_iomap(pdev, bar, 0)`: all of the resource, which must not be empty. -/
def pci_iomap (K : Attempt) (pdev bar : ℕ) : Exec World ℕ :=
  Exec.withState fun w =>
    if ((w.devices pdev).resource bar).len = 0 ∨ K.iomap = 0 then pure 0
    else do
      Exec.modify fun w =>
        { w with mapped := ⟨K.iomap, ((w.devices pdev).resource bar).len⟩ :: w.mapped }
      pure K.iomap

def pci_iounmap (addr : ℕ) : Exec World Unit :=
  Exec.modify fun w => { w with mapped := w.mapped.eraseP (·.addr = addr) }

/-- A failure to add the `cdev` leaves it unregistered. -/
def cdev_add (K : Outcomes) (devno dev : ℕ) : Exec World Unit :=
  if K.cdev_add then Exec.modify fun w => { w with cdevs := ⟨devno, dev⟩ :: w.cdevs }
  else pure ⟨⟩

def cdev_del (dev : ℕ) : Exec World Unit :=
  Exec.modify fun w => { w with cdevs := w.cdevs.filter (·.dev ≠ dev) }

/-- An access to io addresses that are not mapped is an error. -/
def memcpy_fromio (addr count : ℕ) : Exec World (Memory UInt8) :=
  Exec.withState fun w =>
    if w.Mapped addr count then pure (Memory.write (fun _ => 0) 0 (w.io.read addr count))
    else Exec.crash

def memcpy_toio (addr : ℕ) (bytes : List UInt8) : Exec World Unit :=
  Exec.withState fun w =>
    if w.Mapped addr bytes.length then
      Exec.modify fun w => { w with io := w.io.write addr bytes }
    else Exec.crash

/-! ### `struct mydev` -/

/-- A use of `*dev`. -/
def deref {α : Type} (dev : ℕ) (k : Mydev → Exec World α) : Exec World α :=
  Exec.withState fun w =>
    match w.mydevs.cell dev with
    | none => Exec.crash
    | some d => k d

/-- `kzalloc(sizeof(*dev))`: a zeroed structure, or `NULL`. -/
def kzalloc (K : Outcomes) : Exec World (Option ℕ) :=
  if !K.kzalloc then pure none
  else
    Exec.withState fun w => do
      Exec.modify fun w => { w with mydevs := w.mydevs.alloc ⟨0, 0⟩ }
      pure (some w.mydevs.next)

def kfree (dev : ℕ) : Exec World Unit :=
  deref dev fun _ => Exec.modify fun w => { w with mydevs := w.mydevs.free dev }

/-- An assignment to a field of `*dev`. -/
def setField (dev : ℕ) (f : Mydev → Mydev) : Exec World Unit :=
  Exec.modify fun w => { w with mydevs := w.mydevs.modify dev f }

/-! ### Probe and remove -/

/-- `cdev_init` and `cdev_add`, whose result nobody looks at. -/
def register_cdev (K : Outcomes) (pdev dev : ℕ) : Exec World Unit :=
  Exec.withState fun w => cdev_add K (MKDEV PCI_MAJOR (PCI_SLOT (w.devices pdev).devfn)) dev

/-- `my_probe` from the label `retry` to the label `err_out`, with one attempt for each pass: the
values of `rc` and `disable_dev_on_err` there. -/
def retry (K : Outcomes) (pdev dev : ℕ) (disable_dev_on_err : Bool) :
    List Attempt → Exec World (ℤ × Bool)
  | [] => Exec.crash -- a pass that jumps back has set `use_io`, and the next one does not
  | a :: more => Exec.withState fun w => do
    let pio := (w.devices pdev).resource 0
    let mmio := (w.devices pdev).resource 1
    let use_io := w.use_io
    if use_io ≠ 0 ∧ pio.flags &&& IORESOURCE_IO = 0 then pure (-ENODEV, disable_dev_on_err)
    else if use_io = 0 ∧ mmio.flags &&& IORESOURCE_MEM = 0 then
      pure (-ENODEV, disable_dev_on_err)
    else
      let rc ← pci_request_regions a pdev
      if rc ≠ 0 then pure (rc, disable_dev_on_err)
      else if use_io ≠ 0 then
        let ioaddr ← pci_iomap a pdev 0
        setField dev fun d => { d with ioaddr := ioaddr }
        if ioaddr = 0 then pure (- EIO, true)
        else
          setField dev fun d => { d with regs_len := pio.len }
          register_cdev K pdev dev
          pure (rc, true)
      else
        let ioaddr ← pci_iomap a pdev 1
        setField dev fun d => { d with ioaddr := ioaddr }
        if ioaddr = 0 then
          pci_release_regions pdev
          Exec.modify fun w => { w with use_io := 1 }
          retry K pdev dev true more
        else
          setField dev fun d => { d with regs_len := mmio.len }
          register_cdev K pdev dev
          pure (rc, true)

/-- What `my_probe` does from the label `err_out` on and `my_remove` after `cdev_del`: unmap,
release, forget and disable. -/
def teardown (pdev dev : ℕ) (disable : Bool) : Exec World Unit :=
  deref dev fun d => do
    if d.ioaddr ≠ 0 then pci_iounmap d.ioaddr else pure ⟨⟩
    pci_release_regions pdev
    pci_set_drvdata pdev none
    if disable then pci_disable_device pdev else pure ⟨⟩

/-- A probe that has registered its `cdev` goes on to `err_out`. -/
def my_probe (K : Outcomes) (pdev : ℕ) : Exec World ℤ := do
  let dev ← kzalloc K
  match dev with
  | none => pure (-ENOMEM)
  | some dev =>
    pci_set_drvdata pdev (some dev)
    let rc ← pci_enable_device K pdev
    if rc ≠ 0 then
      kfree dev
      pci_set_drvdata pdev none
      pure rc
    else
      let (rc, disable_dev_on_err) ← retry K pdev dev false [K.first, K.second]
      teardown pdev dev disable_dev_on_err
      pure rc

def my_remove (pdev : ℕ) : Exec World Unit :=
  Exec.withState fun w =>
    match w.drvdata pdev with
    | none => Exec.crash -- `&dev->mycdev` is an offset from `NULL`
    | some dev => do
      deref dev fun _ => cdev_del dev
      teardown pdev dev true
      kfree dev

/-! ### File operations -/

/-- An open file: its `struct mydev` and its position. -/
structure File where
  private_data : ℕ
  f_pos : ℤ

/-- `my_open` on a device number: `container_of` its `cdev`, if one is registered. -/
def my_open (w : World) (devno : ℕ) : Option File :=
  (w.cdevs.find? (·.devno = devno)).map fun c => ⟨c.dev, 0⟩

/-- What the kernel answers during a read or a write. -/
structure Transfer where
  kzalloc : Bool
  copy : UserCopy

/-- A read or a write at `*f_pos`: the value returned, the bytes that reached the caller, and
`*f_pos` afterwards. -/
structure Reply where
  ret : ℤ
  bytes : List UInt8
  f_pos : ℤ

/-- The part that `my_read` and `my_write` share: `io` is what they do with `count` bytes of the
window at the io address of `*f_pos`; it says whether the user copy was complete. -/
def transfer (K : Transfer) (filp : File) (count : ℕ) (f_pos : ℤ)
    (io : ℕ → ℕ → Exec World (Bool × List UInt8)) : Exec World Reply :=
  deref filp.private_data fun dev => do
    if toSizeT f_pos ≥ dev.regs_len then pure ⟨0, [], f_pos⟩
    else
      let count := min count (toSizeT (dev.regs_len - f_pos))
      if count = 0 then pure ⟨0, [], f_pos⟩
      else if !K.kzalloc then pure ⟨-ENOMEM, [], f_pos⟩
      else
        Exec.modify fun w => { w with kbufs := w.kbufs + 1 }
        let (complete, bytes) ← io (toSizeT (dev.ioaddr + f_pos)) count
        Exec.modify fun w => { w with kbufs := w.kbufs - 1 }
        if complete then pure ⟨toLoff count, bytes, toLoff (f_pos + count)⟩
        else pure ⟨-EFAULT, bytes, f_pos⟩

def my_read (K : Transfer) (filp : File) (count : ℕ) (f_pos : ℤ) : Exec World Reply :=
  transfer K filp count f_pos fun addr count => do
    let kbuf ← memcpy_fromio addr count
    let (bytes, missing) := K.copy.copy_to_user kbuf 0 count
    pure (missing = 0, bytes)

/-- `data` are the `count` bytes at `buf`. -/
def my_write (K : Transfer) (filp : File) (data : List UInt8) (f_pos : ℤ) : Exec World Reply :=
  transfer K filp data.length f_pos fun addr count => do
    let (kbuf, missing) := K.copy.copy_from_user (fun _ => 0) 0 (data.take count)
    if missing ≠ 0 then pure (false, [])
    else
      memcpy_toio addr (kbuf.read 0 count)
      pure (true, [])

/-- `my_llseek`: the value returned and `filp->f_pos` afterwards. -/
def my_llseek (filp : File) (offset : ℤ) (origin : ℕ) : Exec World (ℤ × ℤ) :=
  deref filp.private_data fun dev =>
    let offset : ℤ :=
      match origin with
      | 1 => toLoff (offset + filp.f_pos)
      | 2 => toLoff (offset + dev.regs_len)
      | _ => offset
    if offset < 0 ∨ toSizeT offset ≥ dev.regs_len then pure (-EINVAL, filp.f_pos)
    else pure (offset, offset)

/-! ### The module as it is loaded -/

/-- A card with 256 registers, in both resources. -/
def card : PciDev where
  devfn := 8
  resource
    | 0 => ⟨ IORESOURCE_IO, 256⟩
    | 1 => ⟨IORESOURCE_MEM, 256⟩
    | _ => ⟨0, 0⟩

/-- Cards that nobody has probed; `owner` holds their regions. -/
def World.loaded (owner : Option Owner) : World where
  devices _ := card
  regions _ _ := owner
  releases := []
  mapped := []
  enable_cnt _ := 0
  drvdata _ := none
  mydevs := Heap.empty
  cdevs := []
  use_io := 0
  io _ := 0
  kbufs := 0

/-- No function of the kernel fails by itself. -/
def Outcomes.fine : Outcomes where
  kzalloc := true
  enable_device := 0
  first := ⟨0, 4096⟩
  second := ⟨0, 4096⟩
  cdev_add := true

end QuickDevSkeleton.Pci
