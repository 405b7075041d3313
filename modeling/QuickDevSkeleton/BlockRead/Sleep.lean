import QuickDevSkeleton.BlockRead.Device

/-!
# Readers that wait for a bio

The wait of `example_read` tests nothing between its entry in the wait queue and its sleep, so that
it relies on the one `wake_up_bit` of its bio. That wake-up is lost on a reader that is not in the
queue yet, and it does not come at all from a bio that has failed. Without these two, no reader
sleeps on a bio that has completed.
-/

namespace QuickDevSkeleton.BlockRead

open Foundations

/-- No reader is asleep and not woken while its bio has completed. -/
def Awake (w : World) : Prop :=
  ∀ i req, (w.calls i).pc = .asleep req false → (w.reqs req).stage ≠ .completed

/-- No bio fails, and `wake_up_bit` does not run for a bio between the `submit_bio` and the
`prepare_to_wait` of its reader. -/
def WakeOk (w : World) : Action → Prop
  | .complete _ _ uptodate => uptodate = true
  | .end_io r =>
    (w.reqs r).stage = .wake_up → ∀ i < w.ncalls, (w.calls i).pc ≠ .prepare_to_wait r
  | .read _ _ _ _ | .step _ => True

instance (w : World) (a : Action) : Decidable (WakeOk w a) :=
  match a with
  | .complete _ _ uptodate => inferInstanceAs (Decidable (uptodate = true))
  | .end_io _ => inferInstanceAs (Decidable (_ → _))
  | .read _ _ _ _ | .step _ => .isTrue trivial

/-- The request that a call waits for and that has not woken it. -/
def Pc.waits : Pc → Option ℕ
  | .prepare_to_wait req | .schedule req false | .asleep req false => some req
  | _ => none

/-- The invariant: who waits, waits for a bio that has not completed. -/
structure Waiting (w : World) : Prop where
  fresh : ∀ i, w.ncalls ≤ i → (w.calls i).pc = .idle
  pending : ∀ i req, (w.calls i).pc.waits = some req → (w.reqs req).stage ≠ .completed

namespace Waiting

variable {w w' : World}

lemma init (pages : ℕ → Memory UInt8) : Waiting (World.init pages) where
  fresh _ _ := rfl
  pending _ _ h := nomatch h

lemma awake (h : Waiting w) : Awake w := by
  intro i req hpc
  apply h.pending i
  rw [hpc]
  rfl

/-- A call goes on and waits for nothing new. -/
lemma setCall (h : Waiting w) {i : ℕ} {c : Call} (hidle : (w.calls i).pc ≠ .idle)
    (hwaits : ∀ req, c.pc.waits = some req → (w.reqs req).stage ≠ .completed) :
    Waiting (w.setCall i c) where
  fresh := World.fresh_setCall h.fresh hidle
  pending j req hj := by
    by_cases hji : j = i
    · rw [hji, World.calls_setCall_self] at hj
      exact hwaits req hj
    · rw [World.calls_setCall_of_ne hji] at hj
      exact h.pending j req hj

/-- Requests go on, and none completes that somebody waits for. -/
lemma setReq (h : Waiting w) {r : ℕ} {q : Request}
    (hq : q.stage = .completed → ∀ i, (w.calls i).pc.waits ≠ some r) :
    Waiting { w with reqs := Function.update w.reqs r q } where
  fresh := h.fresh
  pending i req hi := by
    change (Function.update w.reqs r q req).stage ≠ .completed
    by_cases hr : req = r
    · rw [hr, Function.update_self]
      intro hcomp
      rw [hr] at hi
      exact hq hcomp i hi
    · rw [Function.update_of_ne hr]
      exact h.pending i req hi

/-- A call submits its bio, and is to wait for it. -/
lemma submit (h : Waiting w) {i : ℕ} {c : Call} {bio : Bio} (hidle : (w.calls i).pc ≠ .idle)
    (hc : c.pc = .prepare_to_wait w.nreqs) :
    Waiting { w.setCall i c with
      reqs := Function.update w.reqs w.nreqs ⟨bio, .in_flight⟩
      nreqs := w.nreqs + 1 } := by
  have hreq : Waiting { w with reqs := Function.update w.reqs w.nreqs ⟨bio, .in_flight⟩ } :=
    h.setReq fun hno => nomatch hno
  have hcall := hreq.setCall (c := c) hidle fun req hwaits => by
    rw [hc] at hwaits
    cases hwaits
    change (Function.update w.reqs w.nreqs _ w.nreqs).stage ≠ .completed
    rw [Function.update_self]
    exact Stage.noConfusion
  exact { hcall with }

/-- The statements of `example_read`. -/
lemma example_read (h : Waiting w) {i : ℕ} (hstep : w.example_read i = some w') :
    Waiting w' := by
  have hidle : (w.calls i).pc ≠ .idle := World.busy_of_step hstep
  have hgoto {pc : Pc} (hwaits : pc.waits = (w.calls i).pc.waits ∨ pc.waits = none) :
      Waiting (w.setCall i ((w.calls i).goto pc)) :=
    h.setCall hidle fun req hreq => by
      rcases hwaits with hsame | hnone
      · exact h.pending i req (hsame.symm.trans hreq)
      · cases hnone.symm.trans hreq
  simp only [World.example_read] at hstep
  cases hpc : (w.calls i).pc with
  | idle | returned | oops =>
    rw [hpc] at hstep
    cases hstep
  | alloc_page | bio_alloc | set_bdev | add_page =>
    rw [hpc] at hstep
    rw [← Option.some.inj hstep]
    exact { hgoto (Or.inr rfl) with }
  | test =>
    rw [hpc] at hstep
    rw [← Option.some.inj hstep]
    refine hgoto (Or.inr ?_)
    split <;> rfl
  | load_bio =>
    rw [hpc] at hstep
    cases hbio : w.private_bio with
    | none =>
      rw [hbio] at hstep
      rw [← Option.some.inj hstep]
      exact hgoto (Or.inr rfl)
    | some b =>
      rw [hbio] at hstep
      rw [← Option.some.inj hstep]
      exact hgoto (Or.inr rfl)
  | submit_bio b =>
    rw [hpc] at hstep
    rw [← Option.some.inj hstep]
    exact h.submit hidle rfl
  | prepare_to_wait req =>
    rw [hpc] at hstep
    rw [← Option.some.inj hstep]
    exact hgoto (Or.inl (by rw [hpc]; rfl))
  | schedule req woken =>
    rw [hpc] at hstep
    rw [← Option.some.inj hstep]
    refine hgoto ?_
    cases woken with
    | false => exact Or.inl (by rw [hpc]; rfl)
    | true => exact Or.inr rfl
  | asleep req woken =>
    rw [hpc] at hstep
    cases woken with
    | false => cases hstep
    | true =>
      rw [← Option.some.inj hstep]
      exact hgoto (Or.inr rfl)
  | finish_wait =>
    rw [hpc] at hstep
    rw [← Option.some.inj hstep]
    exact hgoto (Or.inr rfl)
  | copy =>
    rw [hpc] at hstep
    rw [← Option.some.inj hstep]
    exact h.setCall hidle fun req hreq => by cases hreq

/-- The data of a successful bio arrive. -/
lemma complete (h : Waiting w) {r : ℕ} {data : Memory UInt8}
    (hstep : w.complete r data true = some w') : Waiting w' := by
  have hdma : Waiting (w.dma r data) := by
    rw [World.dma]
    split
    · exact h
    · exact { h with }
  rw [World.complete] at hstep
  split at hstep
  · rw [← Option.some.inj hstep]
    have hset : Waiting ((w.dma r data).setStage r .show_content) :=
      hdma.setReq fun hno => nomatch hno
    exact { hset with }
  · cases hstep

lemma waits_wake (pc : Pc) {req : ℕ} (h : pc.wake.waits = some req) :
    pc = .prepare_to_wait req := by
  cases pc with
  | prepare_to_wait r =>
    cases h
    rfl
  | _ => cases h

/-- The statements of `example_end_io`. -/
lemma example_end_io (h : Waiting w) {r : ℕ} (hok : WakeOk w (.end_io r))
    (hstep : w.example_end_io r = some w') : Waiting w' := by
  have hset (st : Stage) (hst : st ≠ .completed) : Waiting (w.setStage r st) :=
    h.setReq fun hno => absurd hno hst
  rw [World.example_end_io] at hstep
  split at hstep
  · cases hstep
  · cases hstep
  · rw [← Option.some.inj hstep]
    exact { hset .clear (by decide) with }
  · rw [← Option.some.inj hstep]
    exact { hset .wake_up (by decide) with }
  · next hwake =>
    rw [← Option.some.inj hstep]
    constructor
    · intro i hi
      change (w.calls i).pc.wake = .idle
      rw [h.fresh i hi]
      rfl
    · intro i req hi
      have hprep : (w.calls i).pc = .prepare_to_wait req := waits_wake _ hi
      have hpend : (w.reqs req).stage ≠ .completed := by
        apply h.pending i
        rw [hprep]
        rfl
      -- nobody is before `prepare_to_wait` for the request that completes
      have hne : req ≠ r := by
        rintro rfl
        refine hok hwake i (World.lt_ncalls h.fresh ?_) hprep
        rw [hprep]
        exact Pc.noConfusion
      change (Function.update w.reqs r _ req).stage ≠ .completed
      rwa [Function.update_of_ne hne]

lemma step {a : Action} (h : Waiting w) (hok : WakeOk w a) (hstep : readers.step w a w') :
    Waiting w' := by
  change w.next a = some w' at hstep
  cases a with
  | read dev len pp user =>
    rw [← Option.some.inj hstep]
    constructor
    · exact World.fresh_read h.fresh
    · intro i req hi
      change (Function.update w.calls w.ncalls _ i).pc.waits = some req at hi
      by_cases hnew : i = w.ncalls
      · rw [hnew, Function.update_self] at hi
        cases hi
      · rw [Function.update_of_ne hnew] at hi
        exact h.pending i req hi
  | step i => exact h.example_read hstep
  | complete r data uptodate =>
    cases hok
    exact h.complete hstep
  | end_io r => exact h.example_end_io hok hstep

end Waiting

/-- In every run in which no bio fails and no wake-up comes before its reader is in the queue, no
reader sleeps on a bio that has completed. -/
theorem awake_of_wakeOk {pages : ℕ → Memory UInt8} {tr : List (Action × World)}
    (hr : readers.Run (World.init pages) tr) (hok : System.Along WakeOk (World.init pages) tr) :
    System.Always Awake (World.init pages) tr :=
  (hr.always_of_along (fun _ _ _ h hok hs => h.step hok hs) (Waiting.init pages) hok).mono
    fun _ => Waiting.awake

/-- A read that is asleep when the device ends its bio. -/
def slowDevice : List Action :=
  [.read 0 3 0 ⟨3, false⟩] ++ List.replicate 9 (.step 0) ++
    [.complete 0 (fun _ => 7) true, .end_io 0, .end_io 0, .end_io 0] ++
    List.replicate 3 (.step 0)

theorem awake_of_wakeOk_slow :
    ∃ tr, readers.Run (World.init fun _ _ => 0) tr ∧ tr.map Prod.fst = slowDevice ∧
      System.Always Awake (World.init fun _ _ => 0) tr := by
  have hsome : (System.final (System.checked World.next WakeOk) (World.init fun _ _ => 0)
      slowDevice).isSome := by
    decide +kernel
  obtain ⟨tr, hrun, hacts, halong⟩ := System.exists_run_along hsome
  exact ⟨tr, hrun, hacts, awake_of_wakeOk hrun halong⟩

/-- The same read on a device that is faster than `prepare_to_wait`. -/
def fastDevice : List Action :=
  [.read 0 3 0 ⟨3, false⟩] ++ List.replicate 7 (.step 0) ++
    [.complete 0 (fun _ => 7) true, .end_io 0, .end_io 0, .end_io 0, .step 0, .step 0]

theorem asleep_after_completion :
    ∃ tr, readers.Run (World.init fun _ _ => 0) tr ∧ tr.map Prod.fst = fastDevice ∧
      ¬ System.Always Awake (World.init fun _ _ => 0) tr := by
  have hasleep : (System.final World.next (World.init fun _ _ => 0) fastDevice).map
      (fun w => ((w.calls 0).pc, (w.reqs 0).stage)) =
        some (.asleep 0 false, .completed) := by
    decide +kernel
  refine System.exists_run_not_always hasleep fun w hw hawake => ?_
  obtain ⟨hpc, hstage⟩ := Prod.mk.inj hw
  exact hawake 0 0 hpc hstage

end QuickDevSkeleton.BlockRead
