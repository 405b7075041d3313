import Mathlib.Data.BitVec
import QuickDevSkeleton.Foundations.Parties

/-!
# Disabling an interrupt line from the shell

`interrupt/irq_disable.c`: a read of one proc file disables an interrupt line, a read of the other
enables it, and `disable_count` says how often it still has to be enabled. The kernel counts the
depth of a line itself, under a lock of its own; it warns about an `enable_irq` that is one too many
and leaves the depth alone. Nothing orders the reads, so that `disable_count++` is a load and a
store.
-/

namespace QuickDevSkeleton.IrqDisable

open Foundations

/-- The two proc files, under the names of their functions. -/
inductive File where
  | proc_disable
  | proc_enable
  deriving DecidableEq

/-- Where a read is in its function. -/
inductive Pc where
  | idle
  /-- At `disable_irq` or `enable_irq`. -/
  | irq (f : File)
  /-- At the load of `disable_count++` or `disable_count--`. -/
  | load (f : File)
  /-- At its store. -/
  | store (f : File) (disable_count : BitVec 32)
  | sprintf (f : File)
  /-- At the return, with the text on the page. -/
  | ret (text : String)
  deriving DecidableEq

/-- The variables of the module, the files that exist, the reads in progress, and what the kernel
knows: how often each line is disabled, and how often it has warned. -/
structure Module where
  irq_num : ℤ
  disable_count : BitVec 32
  loaded : Bool
  files : File → Bool
  readers : ℕ
  depth : ℤ → BitVec 32
  warnings : ℕ

/-- A process reads a file, or executes the next statement of its function. -/
inductive Act where
  | read (f : File)
  | step

/-- The module is loaded with a line, and some of its files are created; or it is unloaded. -/
inductive Env where
  | my_init (irq_num : ℤ) (created : File → Bool)
  | my_exit

/-- The text of a report: `%d` takes the count for an `int`. -/
def File.text (irq_num : ℤ) (disable_count : BitVec 32) : File → String
  | .proc_disable => "Disable irq " ++ toString irq_num ++ ", " ++
      toString disable_count.toInt ++ " times.\n"
  | .proc_enable => "Enable irq " ++ toString irq_num ++ ", still need enable " ++
      toString disable_count.toInt ++ " times.\n"

def Module.disable_irq (d : Module) : Module :=
  { d with depth := Function.update d.depth d.irq_num (d.depth d.irq_num + 1) }

def Module.enable_irq (d : Module) : Module :=
  if d.depth d.irq_num = 0 then { d with warnings := d.warnings + 1 }
  else { d with depth := Function.update d.depth d.irq_num (d.depth d.irq_num - 1) }

/-- What a function does to the line. -/
def File.irq (d : Module) : File → Module
  | .proc_disable => d.disable_irq
  | .proc_enable => d.enable_irq

/-- What a function adds to `disable_count`. -/
def File.delta : File → BitVec 32
  | .proc_disable => 1
  | .proc_enable => -1

def Pc.act (d : Module) : Pc → Act → Option (Module × Pc)
  | .idle, .read f => if d.files f then some ({ d with readers := d.readers + 1 }, .irq f) else none
  | .irq f, .step => some (f.irq d, .load f)
  | .load f, .step => some (d, .store f d.disable_count)
  | .store f disable_count, .step =>
    some ({ d with disable_count := disable_count + f.delta }, .sprintf f)
  | .sprintf f, .step => some (d, .ret (f.text d.irq_num d.disable_count))
  | .ret _, .step => some ({ d with readers := d.readers - 1 }, .idle)
  | _, _ => none

/-- `remove_proc_entry` waits until nobody reads the file. -/
def Env.act (d : Module) : Env → Option Module
  | .my_init irq_num created =>
    if d.loaded then none
    else some { d with irq_num := irq_num, disable_count := 0, loaded := true, files := created }
  | .my_exit =>
    if d.loaded = true ∧ d.readers = 0 then
      some { d with loaded := false, files := fun _ => false }
    else none

def driver : Parties Module Pc Act Env where
  act d pc a := pc.act d a
  env := Env.act

/-- The start: the module has not been loaded, and no line is disabled. -/
def start (ι : Type) : Parties.State Module Pc ι :=
  ⟨⟨0, 0, false, fun _ => false, 0, fun _ => 0, 0⟩, fun _ => .idle⟩

end QuickDevSkeleton.IrqDisable
