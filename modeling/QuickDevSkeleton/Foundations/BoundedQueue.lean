import QuickDevSkeleton.Foundations.System

/-!
# Bounded queues

The purpose of a pipe, stated without pointers: a first-in first-out queue that holds at most
`cap` cells. A caller asks for something and is told to wait, fails or is told how many cells were
moved; each of the three says what it requires of the queue and what it leaves behind. A write may
accept a part of its data and a read may deliver less than it was asked for, but neither returns
empty-handed when it was asked for something, and neither fails unless the caller's own side of the
copy gives out first.
-/

namespace Foundations

namespace BoundedQueue

variable {α ε : Type*}

/-- What is asked of a queue. The caller's side of a copy gives out after `reach` cells. A request
that means nothing to the queue is due an error. -/
inductive Request (α ε : Type*) where
  | write (data : List α) (reach : ℕ)
  | read (count reach : ℕ)
  | reset
  | invalid (due : ε)

/-- A request, its answer and the cells that came to the caller. Without an answer the caller has
to wait. -/
structure Event (α ε : Type*) where
  request : Request α ε
  answer : Option (Except ε ℕ)
  bytes : List α

/-- What the events of a queue of capacity `cap` do, where a copy that gives out is answered by
`fault`. A write waits exactly when the queue is full and a read exactly when it is empty; a reset
always succeeds. -/
inductive Step (cap : ℕ) (fault : ε) : List α → Event α ε → List α → Prop where
  | writeWaits {q data : List α} {reach : ℕ} (hfull : q.length = cap) :
      Step cap fault q ⟨.write data reach, none, []⟩ q
  | writeFails {q data : List α} {reach : ℕ} (hroom : q.length < cap)
      (hshort : reach < min data.length (cap - q.length)) :
      Step cap fault q ⟨.write data reach, some (.error fault), []⟩ q
  | wrote {q data : List α} {reach n : ℕ} (hroom : q.length < cap) (hreach : n ≤ reach)
      (hle : n ≤ min data.length (cap - q.length)) (hpos : 1 ≤ data.length → 1 ≤ n) :
      Step cap fault q ⟨.write data reach, some (.ok n), []⟩ (q ++ data.take n)
  | readWaits {q : List α} {count reach : ℕ} (hempty : q = []) :
      Step cap fault q ⟨.read count reach, none, []⟩ q
  | readFails {q : List α} {count reach : ℕ} (hne : q ≠ [])
      (hshort : reach < min count q.length) :
      Step cap fault q ⟨.read count reach, some (.error fault), q.take reach⟩ q
  | read {q : List α} {count reach n : ℕ} (hne : q ≠ []) (hreach : n ≤ reach)
      (hle : n ≤ min count q.length) (hpos : 1 ≤ count → 1 ≤ n) :
      Step cap fault q ⟨.read count reach, some (.ok n), q.take n⟩ (q.drop n)
  | reset {q : List α} : Step cap fault q ⟨.reset, some (.ok 0), []⟩ []
  | refused {q : List α} {due : ε} : Step cap fault q ⟨.invalid due, some (.error due), []⟩ q

/-- The bounded queue as a transition system. -/
def system (α : Type*) (cap : ℕ) (fault : ε) : System (List α) (Event α ε) where
  step := Step cap fault

/-! ### What goes in comes out -/

/-- The cells accepted since the last reset, after one more event. -/
def Event.acceptedAfter (w : List α) (e : Event α ε) : List α :=
  match e.request, e.answer with
  | .write data _, some (.ok n) => w ++ data.take n
  | .reset, some (.ok _) => []
  | _, _ => w

/-- The cells delivered since the last reset, after one more event. -/
def Event.deliveredAfter (w : List α) (e : Event α ε) : List α :=
  match e.request, e.answer with
  | .read _ _, some (.ok _) => w ++ e.bytes
  | .reset, some (.ok _) => []
  | _, _ => w

def accepted (es : List (Event α ε)) : List α := es.foldl Event.acceptedAfter []

def delivered (es : List (Event α ε)) : List α := es.foldl Event.deliveredAfter []

variable {cap : ℕ} {fault : ε} {q q' w d : List α} {e : Event α ε}
  {tr : List (Event α ε × List α)}

lemma Step.conserved (h : Step cap fault q e q') (hw : w = d ++ q) :
    e.acceptedAfter w = e.deliveredAfter d ++ q' := by
  cases h with
  | wrote hroom hreach hle hpos =>
    simp only [Event.acceptedAfter, Event.deliveredAfter]
    rw [hw, List.append_assoc]
  | read hne hreach hle hpos =>
    simp only [Event.acceptedAfter, Event.deliveredAfter]
    rw [List.append_assoc, List.take_append_drop]
    exact hw
  | reset => rfl
  | _ => exact hw

/-- A request that has to wait leaves the queue as it is. -/
lemma Step.of_waits (h : Step cap fault q e q') (he : e.answer = none) : q' = q := by
  cases h with
  | writeWaits | readWaits => rfl
  | _ => cases he

/-- What was accepted since the last reset is what was delivered since then, followed by what is
in the queue. -/
lemma conserved (hr : (system α cap fault).Run q tr) (hw : w = d ++ q) :
    (tr.map Prod.fst).foldl Event.acceptedAfter w =
      (tr.map Prod.fst).foldl Event.deliveredAfter d ++ System.last q tr := by
  induction hr generalizing w d with
  | nil q => exact hw
  | cons h _ ih => exact ih (h.conserved hw)

lemma accepted_eq (hr : (system α cap fault).Run [] tr) :
    accepted (tr.map Prod.fst) = delivered (tr.map Prod.fst) ++ System.last [] tr :=
  conserved hr rfl

end BoundedQueue

end Foundations
