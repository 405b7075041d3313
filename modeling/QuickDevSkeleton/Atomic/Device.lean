import Mathlib.Data.BitVec
import QuickDevSkeleton.Foundations.Parties

/-!
# Counting interrupts in two ways

`protect/my_atomic.c`: the handlers of two interrupt lines count in a plain variable and in an
atomic one, and the module prints both counts when it is unloaded. A handler of one line runs on
one processor at a time, but the handlers of both lines can run side by side, so `irqs++` is a load
and a store. `free_irq` takes the handler away and waits until it does not run any more.
-/

namespace QuickDevSkeleton.Atomic

open Foundations

/-- The lines that the module has handlers for: `1` and `12`. -/
inductive Line where
  | key
  | mouse
  deriving DecidableEq

/-- Where a processor is in `key_func` or `mouse_func`. -/
inductive Pc where
  | idle
  /-- At the load of `irqs++`. -/
  | load (line : Line)
  /-- At the store of `irqs++`. -/
  | store (line : Line) (irqs : BitVec 64)
  /-- At `atomic_inc`. -/
  | atomic_inc (line : Line)
  /-- At `return IRQ_HANDLED`. -/
  | ret (line : Line)
  deriving DecidableEq

/-- Where `my_init` or `my_exit` is. -/
inductive ModulePc where
  /-- The module is not there, or `my_init` has failed. -/
  | unloaded
  /-- At the `request_irq` of a line. -/
  | request (line : Line)
  /-- At the `free_irq` of a line, in `my_exit` or on the error path of `my_init`. -/
  | free (line : Line) (exiting : Bool)
  /-- The handler of the line has been taken away. -/
  | wait (line : Line) (exiting : Bool)
  | loaded
  | printk
  deriving DecidableEq

/-- The variables of the module, what the kernel knows about the lines, and the two numbers that
`my_exit` has printed. `stored` and `handled` count the stores to `irqs` and the calls of
`atomic_inc` since the module was loaded. -/
structure Module where
  irq_sum : BitVec 32
  irqs : BitVec 64
  handlers : Line → Bool
  inProgress : Line → Bool
  pc : ModulePc
  printed : Option (ℤ × ℤ)
  stored : ℕ
  handled : ℕ

/-- A processor takes an interrupt, or executes the next statement of the handler. -/
inductive Act where
  | interrupt (line : Line)
  | step

/-- The module is loaded or unloaded, `request_irq` returns `0` or an error, or the next statement
of `my_init` or `my_exit` is executed. -/
inductive Env where
  | insmod
  | request_irq (ok : Bool)
  | rmmod
  | step

def Pc.act (d : Module) : Pc → Act → Option (Module × Pc)
  | .idle, .interrupt line =>
    if d.handlers line = true ∧ d.inProgress line = false then
      some ({ d with inProgress := Function.update d.inProgress line true }, .load line)
    else none
  | .load line, .step => some (d, .store line d.irqs)
  | .store line irqs, .step =>
    some ({ d with irqs := irqs + 1, stored := d.stored + 1 }, .atomic_inc line)
  | .atomic_inc line, .step =>
    some ({ d with irq_sum := d.irq_sum + 1, handled := d.handled + 1 }, .ret line)
  | .ret line, .step =>
    some ({ d with inProgress := Function.update d.inProgress line false }, .idle)
  | _, _ => none

/-- What follows the `request_irq` of a line. -/
def ModulePc.requested : Line → Bool → ModulePc
  | .key, true => .request .mouse
  | .key, false => .unloaded
  | .mouse, true => .loaded
  | .mouse, false => .free .key false

/-- What follows the `free_irq` of a line. -/
def ModulePc.freed : Line → Bool → ModulePc
  | .mouse, _ => .free .key true
  | .key, true => .printk
  | .key, false => .unloaded

def Env.act (d : Module) : Env → Option Module
  | .insmod =>
    if d.pc = .unloaded then
      some { d with
        irq_sum := 0, irqs := 0, pc := .request .key, printed := none, stored := 0, handled := 0 }
    else none
  | .request_irq ok =>
    match d.pc with
    | .request line =>
      some { d with
        handlers := Function.update d.handlers line ok, pc := .requested line ok }
    | _ => none
  | .rmmod => if d.pc = .loaded then some { d with pc := .free .mouse true } else none
  | .step =>
    match d.pc with
    | .free line exiting =>
      some { d with
        handlers := Function.update d.handlers line false, pc := .wait line exiting }
    | .wait line exiting =>
      if d.inProgress line = true then none else some { d with pc := .freed line exiting }
    | .printk => some { d with pc := .unloaded, printed := some (d.irq_sum.toInt, d.irqs.toInt) }
    | _ => none

def driver : Parties Module Pc Act Env where
  act d pc a := pc.act d a
  env := Env.act

/-- The start: the module has not been loaded. -/
def start (ι : Type) : Parties.State Module Pc ι :=
  ⟨⟨0, 0, fun _ => false, fun _ => false, .unloaded, none, 0, 0⟩, fun _ => .idle⟩

end QuickDevSkeleton.Atomic
