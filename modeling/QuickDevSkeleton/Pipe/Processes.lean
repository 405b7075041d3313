import Mathlib.Logic.Function.Basic
import QuickDevSkeleton.Pipe.Refinement

/-!
# Processes on one pipe

Any number of processes run the calls of `protect/pipe.c` on one device. A process stops at
every statement at which another one can run: where it takes or releases `mysem`, inside
`wait_event_interruptible` (which tests its condition, queues the process, tests again and
only then sleeps), before `wake_up`, and where it returns. What it does between taking
`mysem` and releasing it is `Mydev.call`.
-/

namespace QuickDevSkeleton.Pipe

open Foundations

def ERESTARTSYS : ℤ := 512

/-- The two wait queues of the device. -/
inductive Queue where
  | readq
  | writeq
  deriving DecidableEq

/-- Where a process is in its call. -/
inductive Pc where
  /-- Not in a call. -/
  | idle
  /-- At `down_interruptible`, before or in the waiting loop. -/
  | down
  /-- `mysem` is held: at the condition of the waiting loop, or at the reset. -/
  | locked
  /-- `mysem` is held and the loop has to wait: at `up`. -/
  | unlock
  /-- At the first test of `wait_event_interruptible`. -/
  | wait
  /-- At `prepare_to_wait`. -/
  | prepare
  /-- On the wait queue, at the second test. -/
  | prepared
  /-- On the wait queue, with the second test failed: at `schedule`. -/
  | falling
  /-- On the wait queue, inside `schedule`. -/
  | asleep
  /-- `mysem` is held and the work is done: at `up`. -/
  | up (r : Reply)
  /-- Between `up` and `wake_up(&q)`. -/
  | wake (q : Queue) (r : Reply)
  /-- At the return to the caller. -/
  | ret (r : Reply)
  deriving DecidableEq

/-- A process: its call, where it is in it, and whether a `wake_up` has reached it since it
last queued itself. -/
structure Proc where
  call : Call
  pc : Pc
  woken : Bool

/-- The device, its semaphore and the processes. -/
structure World where
  dev : Mydev
  mysem : ℕ
  procs : ℕ → Proc

/-- What a process does next: it enters a call, executes its next statement, or receives a
signal. -/
inductive Act where
  | start (c : Call)
  | step
  | signal

namespace Call

/-- The queue on which a call waits. -/
def sleepsOn : Call → Option Queue
  | .read _ _ => some .readq
  | .write _ _ => some .writeq
  | .ioctl _ => none

/-- The condition that a call waits for. -/
def ready (dev : Mydev) : Call → Bool
  | .read _ _ => dev.wp ≠ dev.rp
  | .write _ _ => dev.spacefree ≠ 0
  | .ioctl _ => true

/-- Where a call starts: an `ioctl` other than `PIPE_RESET` returns at once. -/
def entry : Call → Pc
  | .read _ _ | .write _ _ => .down
  | .ioctl cmd =>
    if IOC_TYPE cmd ≠ PIPE then .ret ⟨some (-ENOTTY), []⟩
    else if cmd = PIPE_RESET then .down
    else .ret ⟨some (-EINVAL), []⟩

/-- What follows the `up` of a call that is done: a successful read wakes `writeq`, a
successful write wakes `readq`, a reset wakes nobody. -/
def afterUp (r : Reply) : Call → Pc
  | .read _ _ => if r.ret = some (-EFAULT) then .ret r else .wake .writeq r
  | .write _ _ => if r.ret = some (-EFAULT) then .ret r else .wake .readq r
  | .ioctl _ => .ret r

end Call

namespace Pc

/-- A process that has taken `mysem` and not yet released it. -/
def holds : Pc → Bool
  | locked | unlock | up _ => true
  | _ => false

/-- A process that is on its wait queue. -/
def queued : Pc → Bool
  | prepared | falling | asleep => true
  | _ => false

/-- A place without `mysem`, and with no `wake_up` to do. -/
def walks : Pc → Bool
  | locked | unlock | up _ | wake _ _ => false
  | _ => true

end Pc

namespace World

variable (w : World)

def goto (p : ℕ) (pc : Pc) : World :=
  { w with procs := Function.update w.procs p { w.procs p with pc := pc } }

/-- `wake_up(&q)`: every process on the queue becomes runnable. -/
def wake_up (q : Queue) : World :=
  { w with
    procs := fun p =>
      let pr := w.procs p
      if pr.pc.queued ∧ pr.call.sleepsOn = some q then { pr with woken := true } else pr }

/-- What process `p` does with `mysem` held, up to the `up` that follows. -/
def critical (p : ℕ) : World :=
  let (dev, r) := w.dev.call (w.procs p).call
  { w with dev := dev }.goto p (if r.ret = none then .unlock else .up r)

/-- The next statement of process `p`, if it is not blocked. -/
def advance (p : ℕ) : Option World :=
  let pr := w.procs p
  match pr.pc with
  | .idle => none
  | .down => if w.mysem = 0 then none else some ({ w with mysem := w.mysem - 1 }.goto p .locked)
  | .locked => some (w.critical p)
  | .unlock => some ({ w with mysem := w.mysem + 1 }.goto p .wait)
  | .wait => some (w.goto p (if pr.call.ready w.dev then .down else .prepare))
  | .prepare =>
    some { w with procs := Function.update w.procs p { pr with pc := .prepared, woken := false } }
  | .prepared => some (w.goto p (if pr.call.ready w.dev then .down else .falling))
  | .falling => some (w.goto p (if pr.woken then .prepare else .asleep))
  | .asleep => if pr.woken then some (w.goto p .prepare) else none
  | .up r => some ({ w with mysem := w.mysem + 1 }.goto p (pr.call.afterUp r))
  | .wake q r => some ((w.wake_up q).goto p (.ret r))
  | .ret _ => some (w.goto p .idle)

/-- A signal to process `p`: `down_interruptible` gives up, and so does a process that found
its condition false again; a sleeping one wakes to test it. -/
def interrupt (p : ℕ) : Option World :=
  match (w.procs p).pc with
  | .down | .falling => some (w.goto p (.ret ⟨some (-ERESTARTSYS), []⟩))
  | .asleep => some (w.goto p .prepare)
  | _ => none

/-- The outcome of one action of process `p`. -/
def next (p : ℕ) : Act → Option World
  | .start c =>
    if (w.procs p).pc = .idle then
      some { w with procs := Function.update w.procs p ⟨c, c.entry, false⟩ }
    else none
  | .step => w.advance p
  | .signal => w.interrupt p

end World

/-! ### Where the processes are after an action -/

namespace World

variable {w : World} {p q : ℕ} {pc : Pc} {Q : Queue}

@[simp] lemma goto_dev : (w.goto p pc).dev = w.dev := rfl

@[simp] lemma goto_mysem : (w.goto p pc).mysem = w.mysem := rfl

lemma goto_self : (w.goto p pc).procs p = { w.procs p with pc := pc } := by
  simp [goto]

lemma goto_other (h : q ≠ p) : (w.goto p pc).procs q = w.procs q := by
  simp [goto, h]

lemma pc_goto_self : ((w.goto p pc).procs p).pc = pc := by
  rw [goto_self]

@[simp] lemma wake_up_pc : ((w.wake_up Q).procs q).pc = (w.procs q).pc := by
  simp only [wake_up]
  split <;> rfl

@[simp] lemma wake_up_call : ((w.wake_up Q).procs q).call = (w.procs q).call := by
  simp only [wake_up]
  split <;> rfl

lemma wake_up_woken (hq : (w.procs q).pc.queued = true) (hs : (w.procs q).call.sleepsOn = some Q) :
    ((w.wake_up Q).procs q).woken = true := by
  simp [wake_up, hq, hs]

/-- A `wake_up` takes nobody's wakeup back. -/
lemma woken_of_wake_up (h : ((w.wake_up Q).procs q).woken = false) : (w.procs q).woken = false := by
  simp only [wake_up] at h
  split at h
  · cases h
  · exact h

end World

/-- The processes on one pipe as a transition system. -/
def processes : System World (ℕ × Act) :=
  System.ofPartial fun w a => w.next a.1 a.2

/-! ### What one action can do -/

/-- The effects that an action of process `p` can have. -/
inductive Moves (w : World) (p : ℕ) : World → Prop where
  | start (c : Call) (h : (w.procs p).pc = .idle) :
      Moves w p { w with procs := Function.update w.procs p ⟨c, c.entry, false⟩ }
  | take (h : (w.procs p).pc = .down) (hfree : w.mysem ≠ 0) :
      Moves w p ({ w with mysem := w.mysem - 1 }.goto p .locked)
  | work (h : (w.procs p).pc = .locked) : Moves w p (w.critical p)
  | release (h : (w.procs p).pc = .unlock) :
      Moves w p ({ w with mysem := w.mysem + 1 }.goto p .wait)
  | done (r : Reply) (h : (w.procs p).pc = .up r) :
      Moves w p ({ w with mysem := w.mysem + 1 }.goto p ((w.procs p).call.afterUp r))
  | wake (q : Queue) (r : Reply) (h : (w.procs p).pc = .wake q r) :
      Moves w p ((w.wake_up q).goto p (.ret r))
  | enqueue (h : (w.procs p).pc = .prepare) :
      Moves w p { w with
        procs := Function.update w.procs p { w.procs p with pc := .prepared, woken := false } }
  | fall (h : (w.procs p).pc = .prepared) (hcond : (w.procs p).call.ready w.dev = false) :
      Moves w p (w.goto p .falling)
  | sleep (h : (w.procs p).pc = .falling) (hw : (w.procs p).woken = false) :
      Moves w p (w.goto p .asleep)
  /-- A move that neither takes nor releases `mysem`, nor leaves a `wake_up` undone, nor
  goes to sleep. -/
  | walk (pc : Pc) (hfrom : (w.procs p).pc.walks = true) (hto : pc.walks = true)
      (hq : pc.queued = false) : Moves w p (w.goto p pc)

lemma Call.entry_walks (c : Call) : c.entry.walks = true ∧ c.entry.queued = false := by
  cases c with
  | read | write => exact ⟨rfl, rfl⟩
  | ioctl cmd =>
    simp only [Call.entry]
    split_ifs <;> exact ⟨rfl, rfl⟩

/-- Every action is one of these moves. -/
lemma World.next_moves {w w' : World} {p : ℕ} {a : Act} (h : w.next p a = some w') :
    Moves w p w' := by
  cases a with
  | start c =>
    simp only [World.next] at h
    split_ifs at h with hidle
    cases h
    exact .start c hidle
  | step =>
    simp only [World.next, World.advance] at h
    split at h
    case h_1 => cases h
    case h_2 hpc =>
      split_ifs at h with hzero
      cases h
      exact .take hpc hzero
    case h_3 hpc => cases h; exact .work hpc
    case h_4 hpc => cases h; exact .release hpc
    case h_5 hpc =>
      cases h
      split
      · exact .walk _ (by rw [hpc]; rfl) rfl rfl
      · exact .walk _ (by rw [hpc]; rfl) rfl rfl
    case h_6 hpc => cases h; exact .enqueue hpc
    case h_7 hpc =>
      cases h
      split
      · exact .walk _ (by rw [hpc]; rfl) rfl rfl
      · exact .fall hpc (Bool.eq_false_iff.mpr ‹¬ _›)
    case h_8 hpc =>
      cases h
      split
      · exact .walk _ (by rw [hpc]; rfl) rfl rfl
      · exact .sleep hpc (Bool.eq_false_iff.mpr ‹¬ _›)
    case h_9 hpc =>
      split_ifs at h
      cases h
      exact .walk _ (by rw [hpc]; rfl) rfl rfl
    case h_10 r hpc => cases h; exact .done r hpc
    case h_11 q r hpc => cases h; exact .wake q r hpc
    case h_12 r hpc =>
      cases h
      exact .walk _ (by rw [hpc]; rfl) rfl rfl
  | signal =>
    simp only [World.next, World.interrupt] at h
    split at h
    case h_1 hpc => cases h; exact .walk _ (by rw [hpc]; rfl) rfl rfl
    case h_2 hpc => cases h; exact .walk _ (by rw [hpc]; rfl) rfl rfl
    case h_3 hpc => cases h; exact .walk _ (by rw [hpc]; rfl) rfl rfl
    case h_4 => cases h

/-- The state after `my_init`: `mysem` is free and no process is in a call. -/
def World.init (mem : Memory UInt8) (start : ℕ) : World where
  dev := my_init mem start
  mysem := 1
  procs := fun _ => ⟨.ioctl 0, .idle, false⟩

end QuickDevSkeleton.Pipe
