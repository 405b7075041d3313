import QuickDevSkeleton.Pipe.Processes

/-!
# `mysem` is a lock

`mysem` counts the permits left. At most one process is between its `down` and its `up`, and
while one is there no permit is left.
-/

namespace QuickDevSkeleton.Pipe

open Foundations

/-- At most one process holds `mysem`, and then it is taken. -/
structure World.Exclusive (w : World) : Prop where
  le_one : w.mysem ≤ 1
  taken : ∀ p, (w.procs p).pc.holds = true → w.mysem = 0
  unique : ∀ p q, (w.procs p).pc.holds = true → (w.procs q).pc.holds = true → p = q

namespace World.Exclusive

variable {w w' : World} {p : ℕ}

lemma init (mem : Memory UInt8) (start : ℕ) : (World.init mem start).Exclusive where
  le_one := le_rfl
  taken _ h := by cases h
  unique _ _ h _ := by cases h

/-- A move that gives nobody `mysem` and does not touch it. -/
lemma frame (h : w.Exclusive) (hsem : w'.mysem = w.mysem)
    (hpc : ∀ q, (w'.procs q).pc.holds = true → (w.procs q).pc.holds = true) : w'.Exclusive where
  le_one := hsem ▸ h.le_one
  taken q hq := hsem ▸ h.taken q (hpc q hq)
  unique q r hq hr := h.unique q r (hpc q hq) (hpc r hr)

/-- Changing one process, which did not hold `mysem`, into one that does not. -/
lemma frame_one {pr : Proc} (h : w.Exclusive) (hpr : pr.pc.holds = false) :
    World.Exclusive { w with procs := Function.update w.procs p pr } := by
  refine h.frame rfl fun q hq => ?_
  by_cases hqp : q = p
  · subst hqp
    simp [hpr] at hq
  · simpa [hqp] using hq

/-- `down` on a free semaphore. -/
lemma take (h : w.Exclusive) (hfree : w.mysem ≠ 0) :
    World.Exclusive ({ w with mysem := w.mysem - 1 }.goto p .locked) := by
  have hle := h.le_one
  have hnone : ∀ q, (w.procs q).pc.holds ≠ true := fun q hq => hfree (h.taken q hq)
  have hself : ∀ q, ((({ w with mysem := w.mysem - 1 } : World).goto p .locked).procs q).pc.holds
      = true → q = p := by
    intro q hq
    by_contra hqp
    rw [World.goto_other hqp] at hq
    exact hnone q hq
  refine ⟨?_, fun q _ => ?_, fun q r hq hr => (hself q hq).trans (hself r hr).symm⟩
  · simp only [World.goto_mysem]
    omega
  · simp only [World.goto_mysem]
    omega

/-- `up` by the process that holds `mysem`. -/
lemma release {pc : Pc} (h : w.Exclusive) (hold : (w.procs p).pc.holds = true)
    (hpc : pc.holds = false) : World.Exclusive ({ w with mysem := w.mysem + 1 }.goto p pc) := by
  have hzero := h.taken p hold
  have hnone : ∀ q, ((({ w with mysem := w.mysem + 1 } : World).goto p pc).procs q).pc.holds
      ≠ true := by
    intro q hq
    by_cases hqp : q = p
    · subst hqp
      rw [World.pc_goto_self, hpc] at hq
      cases hq
    · rw [World.goto_other hqp] at hq
      exact hqp (h.unique q p hq hold)
  refine ⟨?_, fun q hq => absurd hq (hnone q), fun q r hq _ => absurd hq (hnone q)⟩
  simp [hzero]

/-- The process that holds `mysem` stays inside its section. -/
lemma keep {pc : Pc} {dev : Mydev} (h : w.Exclusive) (hold : (w.procs p).pc.holds = true) :
    World.Exclusive ({ w with dev := dev }.goto p pc) := by
  refine h.frame rfl fun q hq => ?_
  by_cases hqp : q = p
  · exact hqp ▸ hold
  · rwa [World.goto_other hqp] at hq

lemma moves (h : w.Exclusive) (hm : Moves w p w') : w'.Exclusive := by
  cases hm with
  | start c =>
    refine h.frame_one ?_
    have := (Call.entry_walks c).1
    cases hc : c.entry <;> simp_all [Pc.walks, Pc.holds]
  | take hpc hfree => exact h.take hfree
  | work hpc => exact h.keep (by rw [hpc]; rfl)
  | release hpc => exact h.release (by rw [hpc]; rfl) rfl
  | done r hpc =>
    refine h.release (by rw [hpc]; rfl) ?_
    cases (w.procs p).call <;> simp only [Call.afterUp] <;> (try split) <;> rfl
  | wake q r hpc =>
    refine frame_one (p := p) (w := w.wake_up q) (h.frame rfl fun q hq => ?_) rfl
    simpa using hq
  | enqueue hpc => exact h.frame_one rfl
  | fall hpc hcond => exact h.frame_one rfl
  | sleep hpc hw => exact h.frame_one rfl
  | walk pc hfrom hto hq =>
    refine h.frame_one ?_
    cases pc <;> simp_all [Pc.walks, Pc.holds]

end World.Exclusive

end QuickDevSkeleton.Pipe
