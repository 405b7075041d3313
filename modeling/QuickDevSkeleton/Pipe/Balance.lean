import QuickDevSkeleton.Pipe.Exclusion

/-!
# Every `down` has its `up`

A count is kept for each process of what it took from `mysem` and what it gave back, read off
the semaphore alone. Every call returns with its count at nothing, no call gives back what it
did not take, and the buffer and its pointers change only under a process whose count is one.
-/

namespace QuickDevSkeleton.Pipe

open Foundations

/-- What each process took from `mysem` by its `down`s, less what it gave back by its `up`s. -/
abbrev Permits := ℕ → ℤ

/-- The count after an action of process `a.1` that led from `w` to `w'`. -/
def Permits.record (k : Permits) (w : World) (a : ℕ × Act) (w' : World) : Permits :=
  Function.update k a.1 (k a.1 + (w.mysem - w'.mysem))

/-- The processes on one pipe, with what each of them took from `mysem`. -/
def accounted : System (World × Permits) (ℕ × Act) :=
  System.ofPartial (System.observe (fun w a => w.next a.1 a.2) Permits.record)

/-- The counts hinder nobody: every run of the processes is one of these. -/
lemma accounted_of_processes {w : World} {tr : List ((ℕ × Act) × World)}
    (hr : processes.Run w tr) :
    ∃ tr', accounted.Run (w, fun _ => 0) tr' ∧ tr'.map (Prod.map id Prod.fst) = tr :=
  hr.observe Permits.record fun _ => 0

/-- `mysem` is balanced and excludes. -/
structure Balanced (s : World × Permits) : Prop where
  /-- A process is either between a successful `down` and its `up`, or not. -/
  held : ∀ p, s.2 p = 0 ∨ s.2 p = 1
  /-- One process at a time is. -/
  one : ∀ p q, s.2 p = 1 → s.2 q = 1 → p = q
  /-- A call returns, with whatever value, without holding `mysem`. -/
  ret : ∀ p r, (s.1.procs p).pc = .ret r → s.2 p = 0
  /-- Only the holder can raise `mysem`. -/
  up : ∀ p a w', s.1.next p a = some w' → s.1.mysem < w'.mysem → s.2 p = 1
  /-- Only the holder can change `rp`, `wp` or the buffer. -/
  dev : ∀ p a w', s.1.next p a = some w' → w'.dev ≠ s.1.dev → s.2 p = 1

/-! ### The places of the code at which `mysem` is held -/

/-- What a process holds at a place of the code. -/
def Pc.permit (pc : Pc) : ℤ :=
  if pc.holds then 1 else 0

lemma Pc.permit_of_holds {pc : Pc} (h : pc.holds = true) : pc.permit = 1 := by
  simp [permit, h]

lemma Pc.permit_of_not_holds {pc : Pc} (h : pc.holds = false) : pc.permit = 0 := by
  simp [permit, h]

lemma Pc.permit_eq_one {pc : Pc} : pc.permit = 1 ↔ pc.holds = true := by
  simp [permit]

lemma Pc.holds_of_walks {pc : Pc} (h : pc.walks = true) : pc.holds = false := by
  cases pc <;> first | rfl | cases h

lemma Call.afterUp_holds (c : Call) (r : Reply) : (c.afterUp r).holds = false := by
  cases c with
  | read | write =>
    simp only [Call.afterUp]
    split <;> rfl
  | ioctl => rfl

namespace Moves

variable {w w' : World} {p q : ℕ}

/-- What a move does to `mysem` is what it does to the permit of the process that moves. -/
lemma permit_self (hm : Moves w p w') :
    (w'.procs p).pc.permit = (w.procs p).pc.permit + (w.mysem - w'.mysem) := by
  cases hm with
  | start c h =>
    have hc := Pc.holds_of_walks (Call.entry_walks c).1
    simp only [Function.update_self, Pc.permit_of_not_holds hc, h]
    simp [Pc.permit, Pc.holds]
  | take h hfree =>
    have hpos := Nat.pos_of_ne_zero hfree
    simp only [World.pc_goto_self, World.goto_mysem, h]
    simp only [Pc.permit, Pc.holds, if_true, Bool.false_eq_true, if_false]
    omega
  | work h =>
    have hpc : ((w.critical p).procs p).pc.holds = true := by
      simp only [World.critical, World.pc_goto_self]
      split <;> rfl
    rw [Pc.permit_of_holds hpc, h]
    simp [Pc.permit, Pc.holds, World.critical]
  | release h => simp [World.pc_goto_self, h, Pc.permit, Pc.holds]
  | done r h =>
    have hpc := (w.procs p).call.afterUp_holds r
    rw [World.pc_goto_self, Pc.permit_of_not_holds hpc, h]
    simp [Pc.permit, Pc.holds]
  | wake Q r h => simp [World.pc_goto_self, h, Pc.permit, Pc.holds, World.wake_up]
  | enqueue h => simp [h, Pc.permit, Pc.holds]
  | fall h => simp [World.pc_goto_self, h, Pc.permit, Pc.holds]
  | sleep h => simp [World.pc_goto_self, h, Pc.permit, Pc.holds]
  | walk pc hfrom hto =>
    have hpc := Pc.holds_of_walks hto
    have hold := Pc.holds_of_walks hfrom
    simp [World.pc_goto_self, Pc.permit_of_not_holds hpc, Pc.permit_of_not_holds hold]

/-- A move leaves the other processes where they are. -/
lemma pc_other (hm : Moves w p w') (hqp : q ≠ p) : (w'.procs q).pc = (w.procs q).pc := by
  cases hm with
  | start c => simp [hqp]
  | enqueue => simp [hqp]
  | wake Q r => rw [World.goto_other hqp, World.wake_up_pc]
  | work => simp only [World.critical]; rw [World.goto_other hqp]
  | take | release | done | fall | sleep | walk => rw [World.goto_other hqp]

/-- The device changes in the section under `mysem` only. -/
lemma dev_eq (hm : Moves w p w') (h : (w.procs p).pc.holds = false) : w'.dev = w.dev := by
  cases hm with
  | work hpc => rw [hpc] at h; cases h
  | start | take | release | done | wake | enqueue | fall | sleep | walk => rfl

end Moves

/-! ### The invariant -/

/-- What each process took from `mysem` is told by where it is in its call. -/
structure Accounts (s : World × Permits) : Prop where
  exclusive : s.1.Exclusive
  permit : ∀ p, s.2 p = (s.1.procs p).pc.permit

namespace Accounts

variable {s t : World × Permits} {a : ℕ × Act}

lemma init (mem : Memory UInt8) (start : ℕ) : Accounts (World.init mem start, fun _ => 0) where
  exclusive := World.Exclusive.init mem start
  permit _ := rfl

lemma step (h : Accounts s) (hstep : accounted.step s a t) : Accounts t := by
  obtain ⟨hnext, hrec⟩ := System.observe_eq_some.mp hstep
  have hm := World.next_moves hnext
  refine ⟨h.exclusive.moves hm, fun q => ?_⟩
  rw [← hrec, Permits.record]
  by_cases hq : q = a.1
  · rw [hq, Function.update_self, h.permit a.1, hm.permit_self]
  · rw [Function.update_of_ne hq, h.permit q, hm.pc_other hq]

lemma holds (h : Accounts s) {p : ℕ} (hp : s.2 p = 1) : (s.1.procs p).pc.holds = true :=
  Pc.permit_eq_one.mp (h.permit p ▸ hp)

lemma balanced (h : Accounts s) : Balanced s where
  held p := by
    rw [h.permit p, Pc.permit]
    split
    · exact Or.inr rfl
    · exact Or.inl rfl
  one p q hp hq := h.exclusive.unique p q (h.holds hp) (h.holds hq)
  ret p r hpc := by
    rw [h.permit p, hpc]
    rfl
  up p a w' hnext hlt := by
    have hself := (World.next_moves hnext).permit_self
    rw [h.permit p]
    by_contra hno
    have hzero := Pc.permit_of_not_holds (Bool.eq_false_iff.mpr (mt Pc.permit_of_holds hno))
    have hnonneg : 0 ≤ (w'.procs p).pc.permit := by
      rw [Pc.permit]
      split <;> decide
    omega
  dev p a w' hnext hdev := by
    rw [h.permit p]
    refine Pc.permit_of_holds ?_
    by_contra hno
    exact hdev ((World.next_moves hnext).dev_eq (Bool.eq_false_iff.mpr hno))

end Accounts

/-- `mysem` is balanced, and excludes, in every run of any number of processes. -/
theorem mysem_balanced {mem : Memory UInt8} {start : ℕ} {tr : List ((ℕ × Act) × World × Permits)}
    (hr : accounted.Run (World.init mem start, fun _ => 0) tr) :
    System.Always Balanced (World.init mem start, fun _ => 0) tr :=
  (hr.always (fun _ _ _ h hs => h.step hs) (Accounts.init mem start)).mono fun _ h => h.balanced

/-- Process 0 reads the empty pipe: it gives `mysem` back, goes to sleep and is interrupted.
Meanwhile process 1 writes two bytes, of which the copy reaches one only. -/
def interruptedReader : List (ℕ × Act) :=
  (0, .start (.read 4 ⟨4, false⟩)) :: List.replicate 7 (0, .step) ++
  (1, .start (.write [65, 66] ⟨1, true⟩)) :: List.replicate 4 (1, .step) ++
  [(0, .signal), (0, .step), (0, .step), (0, .signal), (0, .step)]

theorem mysem_balanced_interrupted :
    ∃ tr, accounted.Run (World.init (fun _ => 0) 1000, fun _ => 0) tr ∧
      tr.map Prod.fst = interruptedReader ∧
      System.Always Balanced (World.init (fun _ => 0) 1000, fun _ => 0) tr := by
  have hsome : (System.final (System.observe (fun w a => World.next w a.1 a.2) Permits.record)
      (World.init (fun _ => 0) 1000, fun _ => 0) interruptedReader).isSome := by
    decide +kernel
  obtain ⟨tr, hrun, hacts⟩ := System.exists_run_of_isSome hsome
  exact ⟨tr, hrun, hacts, mysem_balanced hrun⟩

end QuickDevSkeleton.Pipe
