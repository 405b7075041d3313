import QuickDevSkeleton.Foundations.System
import QuickDevSkeleton.Kernel.UserCopy

/-!
# Interrupts that defer their work

`interrupt/my_workqueue.c` and `interrupt/my_tasklet.c`: an interrupt handler schedules an item, a
work or a tasklet, which the kernel runs later. The two modules differ in where the item lives (in
an allocated `struct mydev`, or in the module itself) and in what they count. Module load, the
interrupts, the runs of the item and module unload go on side by side, one statement at a time.
-/

namespace QuickDevSkeleton.Deferred

open Foundations

inductive Module where
  | my_workqueue
  | my_tasklet
  deriving DecidableEq

/-- The next statement of `my_init`. -/
inductive MyInit where
  | kzalloc
  | request_irq
  /-- `INIT_WORK` or `tasklet_init`. -/
  | init_item
  | returned (rc : ℤ)
  deriving DecidableEq

/-- The next statement of `my_exit`. -/
inductive MyExit where
  | free_irq
  /-- `kfree(dev)`, or the return that gives up the memory of the module. -/
  | release
  | returned
  deriving DecidableEq

/-- `allocated` is about the memory that holds the item, `handler` says that `interrupt_func` is
before its scheduling of the item, `running` counts the runs of the item in progress. The rest
records what has happened: a scheduling before the initialisation, and a statement of a run after
the memory was released. -/
structure World where
  init : MyInit
  exit : MyExit
  allocated : Bool
  requested : Bool
  handler : Bool
  initialised : Bool
  pending : Bool
  running : ℕ
  upper_count : ℕ
  bottom_count : ℕ
  scheduled_early : Bool
  ran_late : Bool

/-- The loader and the unloader execute a statement, of which `ok` says whether it succeeds if it
can fail; the line interrupts; the handler schedules the item; the kernel starts a run of the item;
a run does its work and ends. -/
inductive Action where
  | my_init (ok : Bool)
  | interrupt
  | schedule
  | start
  | finish
  | my_exit
  deriving DecidableEq

namespace World

variable (M : Module) (bits : ℕ) (w : World)

/-- `my_init` up to its next statement. -/
def my_init (ok : Bool) : Option World :=
  match w.init with
  | .kzalloc =>
    if ok then some { w with allocated := true, init := .request_irq }
    else some { w with init := .returned (-ENOMEM) }
  | .request_irq =>
    if ok then some { w with requested := true, init := .init_item }
    else some { w with init := .returned (-1) }
  | .init_item =>
    -- whatever the item was, it is not pending now
    some { w with initialised := true, pending := false, init := .returned 0 }
  | .returned _ => none

/-- `upper_count++`, which `my_tasklet` has commented out. -/
def countUpper : World :=
  match M with
  | .my_workqueue => { w with upper_count := (w.upper_count + 1) % 2 ^ bits }
  | .my_tasklet => w

/-- `bottom_count++`, which `my_tasklet` has commented out. -/
def countBottom : World :=
  match M with
  | .my_workqueue => { w with bottom_count := (w.bottom_count + 1) % 2 ^ bits }
  | .my_tasklet => w

/-- `schedule_work` or `tasklet_schedule`: a pending item stays as it is. -/
def schedule : World :=
  { w with
    pending := true
    scheduled_early := w.scheduled_early || !w.initialised
    handler := false }

/-- The kernel takes the pending item and calls its function. -/
def start : World :=
  { w with
    pending := false
    running := w.running + 1
    ran_late := w.ran_late || !w.allocated }

/-- `work_func` or `tasklet_func`. -/
def finish : World :=
  { w.countBottom M bits with
    running := w.running - 1
    ran_late := w.ran_late || !w.allocated }

/-- `my_exit` up to its next statement; `free_irq` waits for a running handler. -/
def my_exit : Option World :=
  match w.exit with
  | .free_irq =>
    if w.init = .returned 0 ∧ w.handler = false then
      some { w with requested := false, exit := .release }
    else none
  | .release => some { w with allocated := false, exit := .returned }
  | .returned => none

/-- One action, if it is possible. The line does not interrupt its own handler. -/
def next : Action → Option World
  | .my_init ok => w.my_init ok
  | .interrupt =>
    if w.requested ∧ w.handler = false then
      some { w.countUpper M bits with handler := true }
    else none
  | .schedule => if w.handler then some w.schedule else none
  | .start => if w.pending then some w.start else none
  | .finish => if w.running ≠ 0 then some (w.finish M bits) else none
  | .my_exit => w.my_exit

end World

/-- A module with its interrupts, for a width of `unsigned long`. -/
def modules (M : Module) (bits : ℕ) : System World Action :=
  System.ofPartial (World.next M bits)

/-- Where `my_init` starts: only `my_workqueue` allocates the memory of its item. -/
def World.init₀ (M : Module) : World where
  init := if M = .my_workqueue then .kzalloc else .request_irq
  exit := .free_irq
  allocated := decide (M = .my_tasklet)
  requested := false
  handler := false
  initialised := false
  pending := false
  running := 0
  upper_count := 0
  bottom_count := 0
  scheduled_early := false
  ran_late := false

end QuickDevSkeleton.Deferred
