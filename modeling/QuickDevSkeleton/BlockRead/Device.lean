import QuickDevSkeleton.Foundations.System
import QuickDevSkeleton.Kernel.UserCopy

/-!
# A file that reads block 0 through a bio

The functions of `fs/block_page_read/read.c`. Every call of `example_read` allocates a page and,
unless a bio is there already, reads block 0 of its device into it and waits for the end of that
read. The page, the bio and the buffer that the caller gets are globals, which all calls share, and
both functions run one statement at a time.
-/

namespace QuickDevSkeleton.BlockRead

open Foundations

/-- The length of a page, of the block and of `buffer`. -/
def PAGE : ℕ := 4096

/-- The fields of `struct bio` that `example_read` sets: its device and its one page. The sector is
0 in every bio. -/
structure Bio where
  bi_bdev : Option ℕ
  bi_page : Option ℕ

/-- How far a submitted bio is: with the device, before a statement of `example_end_io`, or past
its end. -/
inductive Stage where
  | in_flight
  | show_content
  | clear
  | wake_up
  | completed
  deriving DecidableEq

/-- A call of `submit_bio`: what it was given, and how far that is. -/
structure Request where
  bio : Bio
  stage : Stage

/-- Where a call of `example_read` is, with the local variables it still needs: its bio up to
`submit_bio`, then the request it waits for and whether `wake_up_bit` has reached it. -/
inductive Pc where
  | idle
  | alloc_page
  | test
  | bio_alloc
  | load_bio
  | set_bdev (bio : ℕ)
  | add_page (bio : ℕ)
  | submit_bio (bio : ℕ)
  | prepare_to_wait (req : ℕ)
  | schedule (req : ℕ) (woken : Bool)
  | asleep (req : ℕ) (woken : Bool)
  | finish_wait
  | copy
  | returned (ret : ℕ) (bytes : List UInt8)
  | oops
  deriving DecidableEq

/-- A call of `example_read`: the device of the file, the arguments, and how its copy goes. -/
structure Call where
  dev : ℕ
  len : ℕ
  pp : ℕ
  user : UserCopy
  pc : Pc

/-- `pages`, `bios` and `reqs` hold what has been allocated and submitted so far. The last three
fields record what has happened: the data that successful bios have read from block 0 of which
device, for each `show_content` the page of the completed bio and the page it copied, and the
device of the last such bio. -/
structure World where
  calls : ℕ → Call
  ncalls : ℕ
  bios : ℕ → Bio
  nbios : ℕ
  reqs : ℕ → Request
  nreqs : ℕ
  pages : ℕ → Memory UInt8
  npages : ℕ
  private_page : Option ℕ
  private_bio : Option ℕ
  buffer : Memory UInt8
  completed : List (Option ℕ × Memory UInt8)
  shows : List (Option ℕ × Option ℕ)
  filled : Option ℕ

/-- A process calls `example_read`, the `i`-th call executes its next statement, the device ends the
`r`-th request, or its `example_end_io` executes its next statement. -/
inductive Action where
  | read (dev len pp : ℕ) (user : UserCopy)
  | step (i : ℕ)
  | complete (r : ℕ) (data : Memory UInt8) (uptodate : Bool)
  | end_io (r : ℕ)

/-- `wake_up_bit` reaches the processes on the wait queue. -/
def Pc.wake : Pc → Pc
  | .schedule req _ => .schedule req true
  | .asleep req _ => .asleep req true
  | pc => pc

namespace Call

variable (c : Call)

def goto (pc : Pc) : Call :=
  { c with pc := pc }

/-- `(len > real_len ? real_len : len)`, or the 0 that is returned past the third byte. -/
def count : ℕ :=
  if 3 < c.pp then 0 else min c.len (3 - c.pp)

/-- The end of `example_read` from `real_len` on. What `copy_to_user` returns is not looked at, and
there is no case for position 3, where nothing is left to copy. -/
def finish (buffer : Memory UInt8) : Call :=
  { c with
    pp := c.pp + c.count
    pc := .returned c.count (c.user.copy_to_user buffer 0 c.count).1 }

end Call

namespace World

variable (w : World)

def setCall (i : ℕ) (c : Call) : World :=
  { w with calls := Function.update w.calls i c }

def setBio (b : ℕ) (bio : Bio) : World :=
  { w with bios := Function.update w.bios b bio }

def setStage (r : ℕ) (st : Stage) : World :=
  { w with reqs := Function.update w.reqs r { w.reqs r with stage := st } }

/-- The data that the device has read arrive in the page of the request. -/
def dma (r : ℕ) (data : Memory UInt8) : World :=
  match (w.reqs r).bio.bi_page with
  | none => w
  | some p =>
    { w with pages := Function.update w.pages p ((w.pages p).write 0 (data.read 0 PAGE)) }

/-- `show_content`: the page is the global one, not that of the bio. -/
def show_content (r : ℕ) : World :=
  { w with
    buffer := match w.private_page with
      | none => w.buffer
      | some p => w.buffer.write 0 ((w.pages p).read 0 PAGE)
    shows := ((w.reqs r).bio.bi_page, w.private_page) :: w.shows
    filled := (w.reqs r).bio.bi_bdev }

/-- The next statement of a call of `example_read`. `alloc_page` and `bio_alloc` find memory, and a
bio with room for one page refuses a second one. -/
def example_read (i : ℕ) : Option World :=
  let c := w.calls i
  match c.pc with
  | .idle | .returned _ _ | .oops => none
  | .alloc_page =>
    some { w.setCall i (c.goto .test) with
      private_page := some w.npages
      npages := w.npages + 1 }
  | .test => some (w.setCall i (c.goto (if w.private_bio = none then .bio_alloc else .copy)))
  | .bio_alloc =>
    some { (w.setCall i (c.goto .load_bio)).setBio w.nbios ⟨none, none⟩ with
      private_bio := some w.nbios
      nbios := w.nbios + 1 }
  | .load_bio =>
    -- `bio` is `NULL` if another completion has come in between
    match w.private_bio with
    | none => some (w.setCall i (c.goto .oops))
    | some b => some (w.setCall i (c.goto (.set_bdev b)))
  | .set_bdev b =>
    some ((w.setCall i (c.goto (.add_page b))).setBio b { w.bios b with bi_bdev := some c.dev })
  | .add_page b =>
    some ((w.setCall i (c.goto (.submit_bio b))).setBio b
      { w.bios b with bi_page := (w.bios b).bi_page.or w.private_page })
  | .submit_bio b =>
    some { w.setCall i (c.goto (.prepare_to_wait w.nreqs)) with
      reqs := Function.update w.reqs w.nreqs ⟨w.bios b, .in_flight⟩
      nreqs := w.nreqs + 1 }
  | .prepare_to_wait req => some (w.setCall i (c.goto (.schedule req false)))
  | .schedule req woken =>
    some (w.setCall i (c.goto (if woken then .finish_wait else .asleep req false)))
  | .asleep _ woken => if woken then some (w.setCall i (c.goto .finish_wait)) else none
  | .finish_wait => some (w.setCall i (c.goto .copy))
  | .copy => some (w.setCall i (c.finish w.buffer))

/-- The device ends a request. `example_end_io` begins with its test of `BIO_UPTODATE`, and returns
at once if the bit is not set. -/
def complete (r : ℕ) (data : Memory UInt8) (uptodate : Bool) : Option World :=
  match (w.reqs r).stage with
  | .in_flight =>
    some (if uptodate then
        { (w.dma r data).setStage r .show_content with
          completed := ((w.reqs r).bio.bi_bdev, data) :: w.completed }
      else (w.dma r data).setStage r .completed)
  | _ => none

/-- The next statement of the `example_end_io` of a request. -/
def example_end_io (r : ℕ) : Option World :=
  match (w.reqs r).stage with
  | .in_flight | .completed => none
  | .show_content => some ((w.show_content r).setStage r .clear)
  | .clear => some { w.setStage r .wake_up with private_bio := none }
  | .wake_up =>
    some { w.setStage r .completed with
      calls := fun i => (w.calls i).goto (w.calls i).pc.wake }

/-- One action, if it is possible. -/
def next : Action → Option World
  | .read dev len pp user =>
    some { w.setCall w.ncalls ⟨dev, len, pp, user, .alloc_page⟩ with ncalls := w.ncalls + 1 }
  | .step i => w.example_read i
  | .complete r data uptodate => w.complete r data uptodate
  | .end_io r => w.example_end_io r

/-- No file has been read yet. The buffer is a zeroed global, the pages hold anything. -/
def init (pages : ℕ → Memory UInt8) : World where
  calls _ := ⟨0, 0, 0, ⟨0, false⟩, .idle⟩
  ncalls := 0
  bios _ := ⟨none, none⟩
  nbios := 0
  reqs _ := ⟨⟨none, none⟩, .completed⟩
  nreqs := 0
  pages := pages
  npages := 0
  private_page := none
  private_bio := none
  buffer _ := 0
  completed := []
  shows := []
  filled := none

/-! ### Calls that have not begun -/

section

variable {w w' : World} {i : ℕ} {c : Call}

@[simp] lemma calls_setCall_self : (w.setCall i c).calls i = c :=
  Function.update_self _ _ _

lemma calls_setCall_of_ne {j : ℕ} (h : j ≠ i) : (w.setCall i c).calls j = w.calls j :=
  Function.update_of_ne h _ _

lemma lt_ncalls (h : ∀ j, w.ncalls ≤ j → (w.calls j).pc = .idle) (hi : (w.calls i).pc ≠ .idle) :
    i < w.ncalls := by
  by_contra hno
  exact hi (h i (Nat.le_of_not_lt hno))

lemma fresh_setCall (h : ∀ j, w.ncalls ≤ j → (w.calls j).pc = .idle)
    (hi : (w.calls i).pc ≠ .idle) :
    ∀ j, w.ncalls ≤ j → ((w.setCall i c).calls j).pc = .idle := by
  intro j hj
  have hne : j ≠ i := (Nat.ne_of_lt ((lt_ncalls h hi).trans_le hj)).symm
  rw [calls_setCall_of_ne hne]
  exact h j hj

lemma fresh_read (h : ∀ j, w.ncalls ≤ j → (w.calls j).pc = .idle) :
    ∀ j, w.ncalls + 1 ≤ j → ((w.setCall w.ncalls c).calls j).pc = .idle := by
  intro j hj
  rw [calls_setCall_of_ne (Nat.ne_of_gt hj)]
  exact h j (Nat.le_of_lt hj)

/-- A call that executes a statement has begun. -/
lemma busy_of_step (hstep : w.example_read i = some w') : (w.calls i).pc ≠ .idle := by
  intro hpc
  simp only [example_read, hpc] at hstep
  cases hstep

end

end World

/-- The readers, the block devices and the completions as a transition system. -/
def readers : System World Action :=
  System.ofPartial World.next

end QuickDevSkeleton.BlockRead
