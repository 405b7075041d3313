import Mathlib.Algebra.BigOperators.Ring.Finset
import Mathlib.Algebra.Ring.Nat
import Mathlib.Data.BitVec
import QuickDevSkeleton.Foundations.Parties

/-!
# The readers and writers of the pipe

`my_open` and `my_release` of `protect/pipe.c` count the files that are open for reading and for
writing, and `my_proc` reports the two numbers. Neither function takes `mysem`, so that
`nreaders++` is a load and a store between which other processes open and close their files.
-/

namespace QuickDevSkeleton.Pipe.Openers

open Foundations

/-- The fields of `struct mydev` that count open files. -/
structure Mydev where
  nreaders : BitVec 32
  nwriters : BitVec 32
  deriving DecidableEq

/-- The two ends of the pipe. -/
inductive End where
  | reader
  | writer
  deriving DecidableEq

/-- `filp->f_mode`, as far as it is looked at. -/
structure Mode where
  FMODE_READ : Bool
  FMODE_WRITE : Bool
  deriving DecidableEq

def Mode.has (f_mode : Mode) : End → Bool
  | .reader => f_mode.FMODE_READ
  | .writer => f_mode.FMODE_WRITE

def Mydev.count (dev : Mydev) : End → BitVec 32
  | .reader => dev.nreaders
  | .writer => dev.nwriters

def Mydev.store (dev : Mydev) (n : BitVec 32) : End → Mydev
  | .reader => { dev with nreaders := n }
  | .writer => { dev with nwriters := n }

/-- The functions that count. -/
inductive Op where
  | my_open
  | my_release
  deriving DecidableEq

def Op.delta : Op → BitVec 32
  | .my_open => 1
  | .my_release => -1

/-- A statement of either function: the test of the mode, and the load and the store behind it. -/
inductive Stmt where
  | test (e : End)
  | load (e : End)
  | store (e : End) (n : BitVec 32)
  deriving DecidableEq

/-- Where a process is with its file. -/
inductive Pc where
  | closed
  | inside (op : Op) (f_mode : Mode) (stmt : Stmt)
  | opened (f_mode : Mode)
  deriving DecidableEq

/-- A process opens its file or closes it, or executes the next statement. -/
inductive Act where
  | my_open (f_mode : Mode)
  | my_release
  | step

/-- Behind the last statement. -/
def Op.done (f_mode : Mode) : Op → Pc
  | .my_open => .opened f_mode
  | .my_release => .closed

/-- Behind the statements for one end: the writers come after the readers. -/
def Op.after (op : Op) (f_mode : Mode) : End → Pc
  | .reader => .inside op f_mode (.test .writer)
  | .writer => op.done f_mode

def Pc.act (dev : Mydev) : Pc → Act → Option (Mydev × Pc)
  | .closed, .my_open f_mode => some (dev, .inside .my_open f_mode (.test .reader))
  | .opened f_mode, .my_release => some (dev, .inside .my_release f_mode (.test .reader))
  | .inside op f_mode (.test e), .step =>
    some (dev, if f_mode.has e then .inside op f_mode (.load e) else op.after f_mode e)
  | .inside op f_mode (.load e), .step => some (dev, .inside op f_mode (.store e (dev.count e)))
  | .inside op f_mode (.store e n), .step =>
    some (dev.store (n + op.delta) e, op.after f_mode e)
  | _, _ => none

/-- The processes on one pipe. -/
def files : Parties Mydev Pc Act Empty where
  act dev pc a := pc.act dev a
  env _ e := e.elim

/-- After `my_init`. -/
def start (ι : Type) : Parties.State Mydev Pc ι :=
  ⟨⟨0, 0⟩, fun _ => .closed⟩

/-- The line of `my_proc` with the two numbers. -/
def openers_line (dev : Mydev) : String :=
  "Readers: " ++ toString dev.nreaders.toInt ++ " ; Writers: " ++ toString dev.nwriters.toInt ++
    "\n"

/-! ### What each file counts for -/

/-- The statement is behind the store for the end. -/
def Stmt.past : Stmt → End → Bool
  | .test .writer, .reader | .load .writer, .reader | .store .writer _, .reader => true
  | _, _ => false

/-- A file counts from the store of `my_open` to that of `my_release`. -/
def Pc.counts : Pc → End → Bool
  | .closed, _ => false
  | .opened f_mode, e => f_mode.has e
  | .inside .my_open f_mode stmt, e => f_mode.has e && stmt.past e
  | .inside .my_release f_mode stmt, e => f_mode.has e && !stmt.past e

/-- The process has the file open for the end. -/
def Pc.openFor : Pc → End → Bool
  | .opened f_mode, e => f_mode.has e
  | _, _ => false

def Pc.share (e : End) (x : Pc) : BitVec 32 :=
  if x.counts e then 1 else 0

/-- What is loaded and stored is a count of the file. -/
def Pc.Sound : Pc → Prop
  | .inside _ f_mode (.load e) | .inside _ f_mode (.store e _) => f_mode.has e = true
  | _ => True

section

variable {dev dev' : Mydev} {x y : Pc} {a : Act} {e : End}

/-- The steps of a process. -/
inductive Step (dev : Mydev) : Pc → Mydev → Pc → Prop
  | my_open (f_mode : Mode) :
    Step dev .closed dev (.inside .my_open f_mode (.test .reader))
  | my_release (f_mode : Mode) :
    Step dev (.opened f_mode) dev (.inside .my_release f_mode (.test .reader))
  | test (op : Op) (f_mode : Mode) (e : End) : f_mode.has e = true →
    Step dev (.inside op f_mode (.test e)) dev (.inside op f_mode (.load e))
  | skip (op : Op) (f_mode : Mode) (e : End) : f_mode.has e = false →
    Step dev (.inside op f_mode (.test e)) dev (op.after f_mode e)
  | load (op : Op) (f_mode : Mode) (e : End) :
    Step dev (.inside op f_mode (.load e)) dev (.inside op f_mode (.store e (dev.count e)))
  | store (op : Op) (f_mode : Mode) (e : End) (n : BitVec 32) :
    Step dev (.inside op f_mode (.store e n)) (dev.store (n + op.delta) e) (op.after f_mode e)

lemma step_of_act (h : x.act dev a = some (dev', y)) : Step dev x dev' y := by
  cases x with
  | closed =>
    cases a with
    | my_open f_mode =>
      cases h
      exact .my_open f_mode
    | _ => cases h
  | opened f_mode =>
    cases a with
    | my_release =>
      cases h
      exact .my_release f_mode
    | _ => cases h
  | inside op f_mode stmt =>
    cases a with
    | step =>
      cases stmt with
      | test e =>
        by_cases hmode : f_mode.has e = true
        · rw [Pc.act, if_pos hmode] at h
          cases h
          exact .test op f_mode e hmode
        · rw [Pc.act, if_neg hmode] at h
          cases h
          exact .skip op f_mode e (Bool.eq_false_of_not_eq_true hmode)
      | load e =>
        cases h
        exact .load op f_mode e
      | store e n =>
        cases h
        exact .store op f_mode e n
    | _ => cases stmt <;> cases h

/-- Behind the statements for an end, a file counts for the other end as before. -/
lemma counts_after (op : Op) (f_mode : Mode) {e e' : End} {stmt : Stmt}
    (hstmt : stmt = .test e ∨ ∃ n, stmt = .store e n) (hne : e' ≠ e) :
    (op.after f_mode e).counts e' = (Pc.inside op f_mode stmt).counts e' := by
  obtain rfl | ⟨n, rfl⟩ := hstmt
  all_goals
    cases op <;> cases e <;> cases e' <;>
      simp_all [Op.after, Op.done, Pc.counts, Stmt.past]

/-- For the end itself, a file begins to count in `my_open` and ends to in `my_release`. -/
lemma counts_self (op : Op) (f_mode : Mode) (e : End) (stmt : Stmt)
    (hstmt : stmt = .test e ∨ ∃ n, stmt = .store e n) :
    (op.after f_mode e).counts e = (f_mode.has e && decide (op = .my_open)) ∧
      (Pc.inside op f_mode stmt).counts e = (f_mode.has e && decide (op = .my_release)) := by
  obtain rfl | ⟨n, rfl⟩ := hstmt
  all_goals
    cases op <;> cases e <;> simp [Op.after, Op.done, Pc.counts, Stmt.past]

lemma Op.sound_after (op : Op) (f_mode : Mode) (e : End) : (op.after f_mode e).Sound := by
  cases e with
  | reader => exact True.intro
  | writer => cases op <;> exact True.intro

lemma Step.sound (h : Step dev x dev' y) (hx : x.Sound) : y.Sound := by
  cases h with
  | my_open | my_release => exact True.intro
  | test _ _ _ hmode => exact hmode
  | skip op f_mode e | store op f_mode e => exact op.sound_after f_mode e
  | load => exact hx

@[simp] lemma count_store_self (n : BitVec 32) (e : End) : (dev.store n e).count e = n := by
  cases e <;> rfl

lemma count_store_of_ne (n : BitVec 32) {e e' : End} (hne : e' ≠ e) :
    (dev.store n e).count e' = dev.count e' := by
  cases e <;> cases e' <;> first | rfl | exact absurd rfl hne

lemma share_congr (h : x.counts e = y.counts e) : x.share e = y.share e := by
  rw [Pc.share, Pc.share, h]

/-- A statement that stores nothing changes for no end what the file counts for. -/
lemma Step.balanced (h : Step dev x dev' y)
    (hno : ∀ op f_mode e n, x ≠ .inside op f_mode (.store e n)) (e : End) :
    dev'.count e + x.share e = dev.count e + y.share e := by
  cases h with
  | my_open f_mode | my_release f_mode =>
    exact congrArg _ (share_congr (by cases e <;> simp [Pc.counts, Stmt.past]))
  | test op f_mode e' _ | load op f_mode e' =>
    exact congrArg _ (share_congr (by cases op <;> cases e' <;> cases e <;> rfl))
  | skip op f_mode e' hmode =>
    refine congrArg _ (share_congr ?_)
    by_cases hne : e = e'
    · obtain ⟨hafter, hbefore⟩ := counts_self op f_mode e (.test e) (Or.inl rfl)
      subst hne
      rw [hafter, hbefore, hmode, Bool.false_and, Bool.false_and]
    · exact (counts_after op f_mode (Or.inl rfl) hne).symm
  | store op f_mode e' n => exact absurd rfl (hno op f_mode e' n)

/-- One that stores balances if and only if the count is still the one that was loaded. -/
lemma store_balanced_iff (op : Op) {f_mode : Mode} {e : End} {n : BitVec 32}
    (hmode : f_mode.has e = true) :
    (∀ e', (dev.store (n + op.delta) e).count e' +
        (Pc.inside op f_mode (.store e n)).share e' =
      dev.count e' + (op.after f_mode e).share e') ↔ n = dev.count e := by
  obtain ⟨hafter, hbefore⟩ := counts_self op f_mode e (.store e n) (Or.inr ⟨n, rfl⟩)
  rw [hmode, Bool.true_and] at hafter hbefore
  have hself : (dev.store (n + op.delta) e).count e +
      (Pc.inside op f_mode (.store e n)).share e = dev.count e + (op.after f_mode e).share e ↔
        n = dev.count e := by
    rw [count_store_self, Pc.share, Pc.share, hafter, hbefore]
    cases op with
    | my_open => simp [Op.delta]
    | my_release =>
      have hone : (-1 : BitVec 32) + 1 = 0 := by decide
      simp only [Op.delta, decide_true, reduceCtorEq, decide_false, if_true, Bool.false_eq_true,
        if_false, add_assoc, hone, add_zero]
  refine ⟨fun h => hself.mp (h e), fun h e' => ?_⟩
  by_cases hne : e' = e
  · subst hne
    exact hself.mpr h
  · rw [count_store_of_ne _ hne, share_congr (counts_after op f_mode (Or.inr ⟨n, rfl⟩) hne)]

end

/-! ### Every run -/

section

variable {ι : Type} [Fintype ι] [DecidableEq ι] {v v' : Parties.State Mydev Pc ι}
  {mv : Parties.Move ι Act Empty} {tr : List (Parties.Move ι Act Empty × Parties.State Mydev Pc ι)}

/-- `nreaders` and `nwriters` are the numbers of files that count for the two ends. -/
def Exact (v : Parties.State Mydev Pc ι) : Prop :=
  ∀ e, v.shared.count e = Parties.tally (Pc.share e) v.place

/-- No process stores a count that another one has changed since it loaded it. -/
def StoreOk (v : Parties.State Mydev Pc ι) (mv : Parties.Move ι Act Empty) : Prop :=
  ∀ p op f_mode e n, mv = .act p .step → v.place p = .inside op f_mode (.store e n) →
    n = v.shared.count e

/-- A move keeps the numbers exact if and only if it stores no older count. -/
lemma exact_iff_storeOk (hsound : ∀ p, (v.place p).Sound) (hexact : Exact v)
    (h : files.next v mv = some v') : Exact v' ↔ StoreOk v mv := by
  cases mv with
  | act p a =>
    obtain ⟨dev', y, hact, rfl⟩ := Parties.next_act.mp h
    have hstep := step_of_act hact
    have hledger : Exact ⟨dev', Function.update v.place p y⟩ ↔
        ∀ e, dev'.count e + (v.place p).share e = v.shared.count e + y.share e := by
      refine forall_congr' fun e => ?_
      have hbooks : v.shared.count e = 0 + Parties.tally (Pc.share e) v.place := by
        rw [zero_add]
        exact hexact e
      have hiff := Parties.ledger_act_iff (c := fun dev : Mydev => dev.count e) (m := fun _ => 0)
        (t := dev') (x := y) (i := p) hbooks
      simpa only [zero_add] using hiff
    rw [hledger]
    have hknown := hsound p
    by_cases hstore : ∃ op f_mode e n, v.place p = .inside op f_mode (.store e n)
    · obtain ⟨op, f_mode, e, n, hplace⟩ := hstore
      rw [hplace] at hstep hknown hact ⊢
      cases hstep
      refine (store_balanced_iff op hknown).trans ⟨?_, fun hok => ?_⟩
      · rintro rfl q op' f_mode' e' n' hmv hq
        cases hmv
        rw [hplace] at hq
        cases hq
        rfl
      · cases a with
        | step => exact hok p op f_mode e n rfl hplace
        | _ => cases hact
    · refine iff_of_true (hstep.balanced fun op f_mode e n hplace => ?_) ?_
      · exact hstore ⟨op, f_mode, e, n, hplace⟩
      · intro q op f_mode e n hmv hplace
        cases hmv
        exact absurd ⟨op, f_mode, e, n, hplace⟩ hstore
  | env e => exact e.elim

omit [Fintype ι] in
lemma sound_next (hsound : ∀ p, (v.place p).Sound) (h : files.next v mv = some v') (p : ι) :
    (v'.place p).Sound := by
  cases mv with
  | act q a =>
    obtain ⟨dev', y, hact, rfl⟩ := Parties.next_act.mp h
    exact Parties.forall_place_update ((step_of_act hact).sound (hsound q))
      (fun p _ => hsound p) p
  | env e => exact e.elim

/-- The number of files that are open for the end. -/
def openFiles (v : Parties.State Mydev Pc ι) (e : End) : ℕ :=
  (Finset.univ.filter fun p => (v.place p).openFor e = true).card

omit [DecidableEq ι] in
/-- When nobody is inside, the two numbers are those of the open files. -/
lemma Exact.count_eq (h : Exact v)
    (hrest : ∀ p op f_mode stmt, v.place p ≠ .inside op f_mode stmt) (e : End) :
    v.shared.count e = BitVec.ofNat 32 (openFiles v e) := by
  have hshare : ∀ p, (v.place p).share e = if (v.place p).openFor e = true then 1 else 0 := by
    intro p
    cases hp : v.place p with
    | closed => rfl
    | opened f_mode => rfl
    | inside op f_mode stmt => exact absurd hp (hrest p op f_mode stmt)
  rw [h e, Parties.tally, Finset.sum_congr rfl fun p _ => hshare p, Finset.sum_boole,
    BitVec.natCast_eq_ofNat, openFiles]

omit [DecidableEq ι] in
/-- These are the numbers that `my_proc` prints then, as long as they are in the range of `%d`. -/
lemma Exact.openers_line_eq (h : Exact v)
    (hrest : ∀ p op f_mode stmt, v.place p ≠ .inside op f_mode stmt)
    (hcard : Fintype.card ι < 2 ^ 31) :
    openers_line v.shared = "Readers: " ++ toString (openFiles v .reader) ++ " ; Writers: " ++
      toString (openFiles v .writer) ++ "\n" := by
  have hprinted : ∀ e, (v.shared.count e).toInt = (openFiles v e : ℤ) := by
    intro e
    have hle : openFiles v e ≤ Fintype.card ι := Finset.card_le_univ _
    have hnat : (v.shared.count e).toNat = openFiles v e := by
      rw [h.count_eq hrest e, BitVec.toNat_ofNat]
      exact Nat.mod_eq_of_lt (by omega)
    rw [BitVec.toInt_eq_toNat_of_lt (by omega), hnat]
  have hreaders : v.shared.nreaders.toInt = (openFiles v .reader : ℤ) := hprinted .reader
  have hwriters : v.shared.nwriters.toInt = (openFiles v .writer : ℤ) := hprinted .writer
  rw [openers_line, hreaders, hwriters]
  rfl

/-- However processes open and close the pipe, `nreaders` and `nwriters` are the numbers of files
between the store of `my_open` and that of `my_release`, as long as no process stores a count that
another one has changed since it loaded it; the first that does makes one of them wrong. -/
theorem openers_counted_iff (hr : files.system.Run (start ι) tr) :
    System.Always Exact (start ι) tr ↔ System.Along StoreOk (start ι) tr := by
  have hstart : Exact (start ι) := by
    intro e
    have hzero : Parties.tally (Pc.share e) (start ι).place = 0 :=
      Parties.tally_eq_zero fun p => rfl
    rw [hzero]
    cases e <;> rfl
  exact hr.always_iff_along (I := fun v => (∀ p, (v.place p).Sound) ∧ Exact v)
    (fun v hv => hv.2)
    (fun v mv v' hv hok h => ⟨sound_next hv.1 h, (exact_iff_storeOk hv.1 hv.2 h).mpr hok⟩)
    (fun v mv v' hv hno h hexact => hno ((exact_iff_storeOk hv.1 hv.2 h).mp hexact))
    ⟨fun _ => True.intro, hstart⟩

open Parties Parties.Move in
/-- Two processes open the pipe, one for both ends, and load `nreaders` one after the other. -/
def session : List (Parties.Move Two Act Empty) :=
  [act first (.my_open ⟨true, true⟩), act second (.my_open ⟨true, false⟩), act first .step,
    act second .step, act first .step, act second .step, act first .step, act second .step,
    act first .step, act first .step, act first .step, act second .step]

/-- The second store is of the count that the first one has changed: two files are open for reading
and `my_proc` prints one. -/
example : (System.final files.next (start (Fin 2)) session).map
    (fun v => (openers_line v.shared, openFiles v .reader, openFiles v .writer)) =
      some ("Readers: 1 ; Writers: 1\n", 2, 1) := by
  decide +kernel

theorem session_openers_counted_iff :
    ∃ tr, files.system.Run (start (Fin 2)) tr ∧ tr.map Prod.fst = session ∧
      (System.Always Exact (start (Fin 2)) tr ↔ System.Along StoreOk (start (Fin 2)) tr) := by
  have hsome : (System.final files.next (start (Fin 2)) session).isSome := by
    decide +kernel
  obtain ⟨tr, hrun, hacts⟩ := System.exists_run_of_isSome hsome
  exact ⟨tr, hrun, hacts, openers_counted_iff hrun⟩

end

end QuickDevSkeleton.Pipe.Openers
