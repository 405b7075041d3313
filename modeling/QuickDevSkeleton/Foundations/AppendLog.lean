import Mathlib.Data.Int.Notation
import Mathlib.Logic.Function.Basic
import QuickDevSkeleton.Foundations.System

/-!
# Append-only logs

What a set of append-only character devices is for, stated without buffers: each device `ι`
is a log of bounded length, and each open file `φ` is a position in one of them. A write
appends at the end, wherever its file stands, and takes as much of its data as the log has
room for; a read takes from its position; a seek moves the position. Every answer is fixed by the
request and the logs: an error `ε`, or the number that the caller is told.
-/

namespace Foundations

namespace AppendLog

variable {ι φ α ε : Type*} [DecidableEq ι] [DecidableEq φ]

/-- The logs, and for every open file its device and its position. -/
structure State (ι φ α : Type*) where
  log : ι → List α
  file : φ → Option (ι × ℕ)

/-- File `f` now is on device `i`, at position `p`. -/
def State.setFile (s : State ι φ α) (f : φ) (i : ι) (p : ℕ) : State ι φ α :=
  { s with file := Function.update s.file f (some (i, p)) }

/-- The log of device `i` now is `l`. -/
def State.setLog (s : State ι φ α) (i : ι) (l : List α) : State ι φ α :=
  { s with log := Function.update s.log i l }

/-- What is asked of the logs. The caller's side of a copy gives out after `reach` cells. A seek
works out its target from the position of its file and the capacity of the log. -/
inductive Request (ι φ α : Type*) where
  | open_ (f : φ) (i : ι)
  | read (f : φ) (count reach : ℕ)
  | readAt (f : φ) (pos count reach : ℕ)
  | write (f : φ) (data : List α) (reach : ℕ)
  | seek (f : φ) (target : ℕ → ℕ → ℤ)

/-- The file that must be open for a request. -/
def Request.file : Request ι φ α → Option φ
  | .open_ _ _ => none
  | .read f _ _ | .readAt f _ _ _ | .write f _ _ | .seek f _ => some f

/-- A request, its answer and the cells that came to the caller. -/
structure Event (ι φ α ε : Type*) where
  request : Request ι φ α
  answer : Except ε ℕ
  bytes : List α

/-- The errors: a copy that gives out, a seek out of range, a file that is not open. -/
structure Errors (ε : Type*) where
  fault : ε
  range : ε
  closed : ε

/-- The cells that a read of `count` at `pos` is due. -/
def State.stretch (s : State ι φ α) (i : ι) (pos count : ℕ) : List α :=
  ((s.log i).drop pos).take count

/-- What the events do to logs of capacity `cap`. -/
inductive Step (cap : ι → ℕ) (err : Errors ε) :
    State ι φ α → Event ι φ α ε → State ι φ α → Prop where
  | opened {s : State ι φ α} {f : φ} {i : ι} :
      Step cap err s ⟨.open_ f i, .ok 0, []⟩ (s.setFile f i 0)
  /-- A read delivers what lies between the position and `count` cells on, and moves the
  position by what it delivered. -/
  | read {s : State ι φ α} {f : φ} {i : ι} {p count reach : ℕ} (hf : s.file f = some (i, p))
      (hreach : (s.stretch i p count).length ≤ reach) :
      Step cap err s
        ⟨.read f count reach, .ok (s.stretch i p count).length, s.stretch i p count⟩
        (s.setFile f i (p + (s.stretch i p count).length))
  | readFails {s : State ι φ α} {f : φ} {i : ι} {p count reach : ℕ} (hf : s.file f = some (i, p))
      (hshort : reach < (s.stretch i p count).length) :
      Step cap err s ⟨.read f count reach, .error err.fault, s.stretch i p reach⟩ s
  | readAt {s : State ι φ α} {f : φ} {i : ι} {p pos count reach : ℕ}
      (hf : s.file f = some (i, p)) (hreach : (s.stretch i pos count).length ≤ reach) :
      Step cap err s
        ⟨.readAt f pos count reach, .ok (s.stretch i pos count).length, s.stretch i pos count⟩ s
  | readAtFails {s : State ι φ α} {f : φ} {i : ι} {p pos count reach : ℕ}
      (hf : s.file f = some (i, p)) (hshort : reach < (s.stretch i pos count).length) :
      Step cap err s ⟨.readAt f pos count reach, .error err.fault, s.stretch i pos reach⟩ s
  /-- A write appends the first part of its data and moves no position. -/
  | wrote {s : State ι φ α} {f : φ} {i : ι} {p : ℕ} {data : List α} {reach n : ℕ}
      (hf : s.file f = some (i, p)) (hn : n = min data.length (cap i - (s.log i).length))
      (hreach : n ≤ reach) :
      Step cap err s ⟨.write f data reach, .ok n, []⟩ (s.setLog i (s.log i ++ data.take n))
  | writeFails {s : State ι φ α} {f : φ} {i : ι} {p : ℕ} {data : List α} {reach : ℕ}
      (hf : s.file f = some (i, p))
      (hshort : reach < min data.length (cap i - (s.log i).length)) :
      Step cap err s ⟨.write f data reach, .error err.fault, []⟩ s
  | sought {s : State ι φ α} {f : φ} {i : ι} {p pos : ℕ} {target : ℕ → ℕ → ℤ}
      (hf : s.file f = some (i, p)) (hpos : target p (cap i) = pos) (hle : pos ≤ cap i) :
      Step cap err s ⟨.seek f target, .ok pos, []⟩ (s.setFile f i pos)
  | seekFails {s : State ι φ α} {f : φ} {i : ι} {p : ℕ} {target : ℕ → ℕ → ℤ}
      (hf : s.file f = some (i, p)) (hout : target p (cap i) < 0 ∨ (cap i : ℤ) < target p (cap i)) :
      Step cap err s ⟨.seek f target, .error err.range, []⟩ s
  | badFile {s : State ι φ α} {r : Request ι φ α} {f : φ} (hr : r.file = some f)
      (hf : s.file f = none) : Step cap err s ⟨r, .error err.closed, []⟩ s

/-- The logs as a transition system. -/
def system (cap : ι → ℕ) (err : Errors ε) : System (State ι φ α) (Event ι φ α ε) where
  step := Step cap err

/-- The logs before anything was written or opened. -/
def empty : State ι φ α where
  log _ := []
  file _ := none

/-- The device that a request writes to. -/
def Request.target (s : State ι φ α) : Request ι φ α → Option ι
  | .write f _ _ => (s.file f).map Prod.fst
  | _ => none

/-- An event changes the log of its own device only. -/
lemma Step.log_other {cap : ι → ℕ} {err : Errors ε} {s t : State ι φ α} {e : Event ι φ α ε} {j : ι}
    (h : Step cap err s e t) (hj : e.request.target s ≠ some j) : t.log j = s.log j := by
  cases h with
  | @wrote f i p data reach n hf hn hreach =>
    have hji : j ≠ i := by
      rintro rfl
      simp [Request.target, hf] at hj
    exact Function.update_of_ne hji _ _
  | opened | read | readFails | readAt | readAtFails | writeFails | sought | seekFails | badFile =>
    rfl

end AppendLog

end Foundations
