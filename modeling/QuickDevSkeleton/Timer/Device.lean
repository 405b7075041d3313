import Mathlib.Algebra.Ring.Nat
import QuickDevSkeleton.Foundations.System

/-!
# The timer that re-arms itself

The functions of `time/my_timer.c`. Any number of processes read the proc file, and each read
sets the one timer up and starts it. An expiration calls `timer_func`, which counts the data field
of the timer down and starts it again until that is `0`. The readers, the calls of `timer_func`
and the module exit run side by side, one statement at a time.
-/

namespace QuickDevSkeleton.Timer

open Foundations

/-- The data with which a read sets up the timer. -/
def CHAIN : ℕ := 100

/-- `--data` on an `unsigned long`. -/
def decrement (data : ℕ) : ℕ :=
  (data + (2 ^ 64 - 1)) % 2 ^ 64

/-- `struct timer_list`: the argument of its function, and whether it is queued. -/
structure TimerList where
  data : ℕ
  pending : Bool

/-- Where a call of `my_proc` is: before `setup_timer` or before `mod_timer`. -/
inductive MyProc where
  | setup_timer
  | mod_timer
  deriving DecidableEq

/-- Where a call of `timer_func` is: before it stores its decremented argument, or before its
`mod_timer`. -/
inductive TimerFunc where
  | store (data : ℕ)
  | mod_timer
  deriving DecidableEq

/-- A read that has started the timer: how many expirations followed, up to the moment at which
`timer_func` did not re-arm the timer. -/
structure Read where
  expirations : ℕ
  stopped : Bool
  deriving DecidableEq

/-- `procs` and `funcs` are the calls in progress, `loaded` says that `my_exit` has not returned.
The rest records what has happened: a set-up of a pending timer, an expiration after `my_exit`, and
the reads with their expirations. -/
structure World where
  my_timer : TimerList
  procs : List MyProc
  funcs : List TimerFunc
  loaded : Bool
  reinitialised : Bool
  expired_late : Bool
  reads : List Read

/-- A process opens the proc file, the `i`-th call of `my_proc` or of `timer_func` in progress
executes its next statement, the timer expires, or `my_exit` removes the proc file. -/
inductive Action where
  | read
  | my_proc (i : ℕ)
  | expire
  | timer_func (i : ℕ)
  | my_exit
  deriving DecidableEq

def Read.expire (r : Read) : Read :=
  if r.stopped then r else { r with expirations := r.expirations + 1 }

def Read.stop (r : Read) : Read :=
  { r with stopped := true }

namespace World

variable (w : World)

/-- `setup_timer(&my_timer, timer_func, 100)`: whatever the timer was, it is not queued now. -/
def setup_timer : World :=
  { w with
    my_timer := ⟨CHAIN, false⟩
    reinitialised := w.reinitialised || w.my_timer.pending }

/-- `mod_timer(&my_timer, ...)`. -/
def mod_timer : World :=
  { w with my_timer := { w.my_timer with pending := true } }

/-- A queued timer expires: its function is called with its data. -/
def expire : World :=
  { w with
    my_timer := { w.my_timer with pending := false }
    funcs := w.funcs ++ [.store w.my_timer.data]
    expired_late := w.expired_late || !w.loaded
    reads := w.reads.map Read.expire }

/-- The next statement of a call of `my_proc`. -/
def my_proc (i : ℕ) : Option World :=
  match w.procs[i]? with
  | none => none
  | some .setup_timer => some { w.setup_timer with procs := w.procs.set i .mod_timer }
  | some .mod_timer =>
    some { w.mod_timer with
      procs := w.procs.eraseIdx i
      reads := w.reads ++ [⟨0, false⟩] }

/-- `if (my_timer.data = (--data))`, with the end of `timer_func` if that is `0`. -/
def store (i data : ℕ) : World :=
  let data := decrement data
  let w := { w with my_timer := { w.my_timer with data := data } }
  if data ≠ 0 then { w with funcs := w.funcs.set i .mod_timer }
  else { w with funcs := w.funcs.eraseIdx i, reads := w.reads.map Read.stop }

/-- The next statement of a call of `timer_func`. -/
def timer_func (i : ℕ) : Option World :=
  match w.funcs[i]? with
  | none => none
  | some (.store data) => some (w.store i data)
  | some .mod_timer => some { w.mod_timer with funcs := w.funcs.eraseIdx i }

/-- One action, if it is possible. `remove_proc_entry` waits for the reads in progress. -/
def next : Action → Option World
  | .read => if w.loaded then some { w with procs := w.procs ++ [.setup_timer] } else none
  | .my_proc i => w.my_proc i
  | .expire => if w.my_timer.pending then some w.expire else none
  | .timer_func i => w.timer_func i
  | .my_exit => if w.loaded ∧ w.procs = [] then some { w with loaded := false } else none

end World

/-- The readers, the timer and the module as a transition system. -/
def timers : System World Action :=
  System.ofPartial World.next

/-- After `my_init`. -/
def World.init : World where
  my_timer := ⟨0, false⟩
  procs := []
  funcs := []
  loaded := true
  reinitialised := false
  expired_late := false
  reads := []

end QuickDevSkeleton.Timer
