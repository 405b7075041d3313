import QuickDevSkeleton.Foundations.System
import QuickDevSkeleton.Pci.Driver

/-!
# The PCI bus and the open files

The driver core probes a device that has no driver and removes one that has; processes open the
registered character devices and read, write and seek. A call that crashes ends in an oops.
-/

namespace QuickDevSkeleton.Pci

open Foundations

/-- `bound pdev`: the last probe of the device has returned `0`, and it was not removed since. -/
structure State where
  world : World
  bound : ℕ → Bool
  files : ℕ → Option File
  oops : Bool

/-- The driver core and the processes, with the answers of the kernel during the call. -/
inductive Action where
  | probe (pdev : ℕ) (K : Outcomes)
  | remove (pdev : ℕ)
  | open_ (fd devno : ℕ)
  | read (fd count : ℕ) (K : Transfer)
  | pread (fd count pos : ℕ) (K : Transfer)
  | write (fd : ℕ) (data : List UInt8) (K : Transfer)
  | pwrite (fd : ℕ) (data : List UInt8) (pos : ℕ) (K : Transfer)
  | llseek (fd : ℕ) (offset : ℤ) (origin : ℕ)
  | release (fd : ℕ)

namespace State

variable (s : State)

/-- Run `x`, and let `k` store its result. -/
def exec {α : Type} (x : Exec World α) (k : α → State → State) : State :=
  match x s.world with
  | (some a, w) => k a { s with world := w }
  | (none, w) => { s with world := w, oops := true }

def bind (pdev : ℕ) (b : Bool) : State :=
  { s with bound := Function.update s.bound pdev b }

def setFile (fd : ℕ) (filp : Option File) : State :=
  { s with files := Function.update s.files fd filp }

/-- One action, if it is possible. -/
def act : Action → Option State
  | .probe pdev K =>
    if s.bound pdev then none
    else some (s.exec (my_probe K pdev) fun rc t => t.bind pdev (decide (rc = 0)))
  | .remove pdev =>
    if s.bound pdev then some (s.exec (my_remove pdev) fun _ t => t.bind pdev false)
    else none
  | .open_ fd devno => (my_open s.world devno).map fun filp => s.setFile fd (some filp)
  | .read fd count K => (s.files fd).map fun filp =>
    s.exec (my_read K filp count filp.f_pos) fun r t =>
      t.setFile fd (some { filp with f_pos := r.f_pos })
  | .pread fd count pos K => (s.files fd).map fun filp =>
    s.exec (my_read K filp count pos) fun _ t => t
  | .write fd data K => (s.files fd).map fun filp =>
    s.exec (my_write K filp data filp.f_pos) fun r t =>
      t.setFile fd (some { filp with f_pos := r.f_pos })
  | .pwrite fd data pos K => (s.files fd).map fun filp =>
    s.exec (my_write K filp data pos) fun _ t => t
  | .llseek fd offset origin => (s.files fd).map fun filp =>
    s.exec (my_llseek filp offset origin) fun r t =>
      t.setFile fd (some { filp with f_pos := r.2 })
  | .release fd => some (s.setFile fd none)

end State

/-- The bus, the driver and the processes. -/
def bus : System State Action :=
  System.ofPartial State.act

/-- Nothing has happened since the module was loaded. -/
def State.loaded (owner : Option Owner) : State where
  world := World.loaded owner
  bound _ := false
  files _ := none
  oops := false

end QuickDevSkeleton.Pci
