import QuickDevSkeleton.Deferred.Modules

/-!
# The lifetime of deferred work

`my_init` requests the line before it initialises the item, and `my_exit` gives up the memory of
the item without waiting for its runs. Where no interrupt falls into the first window and nothing
is left to run at the second one, the item is initialised when it is scheduled and allocated while
it runs, and no run is counted that no interrupt asked for.
-/

namespace QuickDevSkeleton.Deferred

open Foundations

/-- The item was initialised whenever it was scheduled, and its memory is there while it runs;
no more runs than interrupts are counted. -/
structure Lifetime (w : World) : Prop where
  scheduled : w.scheduled_early = false
  ran : w.ran_late = false
  allocated : w.running ≠ 0 → w.allocated = true
  count : w.bottom_count ≤ w.upper_count

/-- The item is initialised when the handler schedules it, nothing of it is left when its memory
is released, and the count of the interrupts does not wrap. -/
def DeferOk (M : Module) (bits : ℕ) (w : World) : Action → Prop
  | .interrupt => M = .my_workqueue → w.upper_count + 1 < 2 ^ bits
  | .schedule => w.initialised = true
  | .my_exit => w.exit = .release → w.pending = false ∧ w.running = 0
  | _ => True

instance (M : Module) (bits : ℕ) (w : World) (a : Action) : Decidable (DeferOk M bits w a) := by
  cases a with
  | interrupt | schedule | my_exit =>
    simp only [DeferOk]
    exact inferInstance
  | my_init | start | finish =>
    exact instDecidableTrue

/-- What `my_workqueue` has counted: every run, whether it has ended, is in progress or is still
to come, belongs to an interrupt of its own. -/
def Counted (M : Module) (bits : ℕ) (w : World) : Prop :=
  match M with
  | .my_workqueue =>
    w.bottom_count + w.running + w.pending.toNat + w.handler.toNat ≤ w.upper_count ∧
      w.upper_count < 2 ^ bits
  | .my_tasklet => w.bottom_count = 0

/-- The invariant of runs outside the two windows. -/
structure Inv (M : Module) (bits : ℕ) (w : World) : Prop where
  scheduled : w.scheduled_early = false
  ran : w.ran_late = false
  counted : Counted M bits w
  held : w.allocated = false → w.pending = false ∧ w.running = 0 ∧ w.requested = false
  line : w.handler = true → w.requested = true
  loading : w.init = .request_irq → w.allocated = true
  unloading : w.exit ≠ .free_irq → w.init = .returned 0 ∧ w.requested = false

namespace Inv

variable {M : Module} {bits : ℕ} {w w' : World}

lemma init₀ (M : Module) (bits : ℕ) : Inv M bits (World.init₀ M) where
  scheduled := rfl
  ran := rfl
  counted := by
    cases M with
    | my_workqueue => exact ⟨le_rfl, Nat.two_pow_pos bits⟩
    | my_tasklet => rfl
  held _ := ⟨rfl, rfl, rfl⟩
  line h := by cases h
  loading h := by
    cases M with
    | my_workqueue => cases h
    | my_tasklet => rfl
  unloading h := absurd rfl h

lemma lifetime (h : Inv M bits w) : Lifetime w where
  scheduled := h.scheduled
  ran := h.ran
  allocated hrun := by
    by_contra hno
    exact hrun (h.held (Bool.eq_false_iff.mpr hno)).2.1
  count := by
    have hc := h.counted
    cases M with
    | my_workqueue =>
      simp only [Counted] at hc
      omega
    | my_tasklet =>
      simp only [Counted] at hc
      omega

/-- While something of the item is left, its memory is there. -/
lemma allocated (h : Inv M bits w) (hbusy : ¬ (w.pending = false ∧ w.running = 0 ∧
    w.requested = false)) : w.allocated = true := by
  by_contra hno
  exact hbusy (h.held (Bool.eq_false_iff.mpr hno))

lemma my_init {ok : Bool} (h : Inv M bits w) (hstep : w.my_init ok = some w') : Inv M bits w' := by
  have hexit : w.exit ≠ .free_irq → w.init = .returned 0 := fun hne => (h.unloading hne).1
  rw [World.my_init] at hstep
  split at hstep
  case h_1 hinit =>
    cases ok with
    | true =>
      cases hstep
      exact { h with
        held := fun hno => nomatch hno
        loading := fun _ => rfl
        unloading := fun hne => nomatch hinit.symm.trans (hexit hne) }
    | false =>
      cases hstep
      exact { h with
        loading := fun hno => nomatch hno
        unloading := fun hne => nomatch hinit.symm.trans (hexit hne) }
  case h_2 hinit =>
    cases ok with
    | true =>
      cases hstep
      exact { h with
        held := fun hno => nomatch (h.loading hinit).symm.trans hno
        line := fun _ => rfl
        loading := fun hno => nomatch hno
        unloading := fun hne => nomatch hinit.symm.trans (hexit hne) }
    | false =>
      cases hstep
      exact { h with
        loading := fun hno => nomatch hno
        unloading := fun hne => nomatch hinit.symm.trans (hexit hne) }
  case h_3 hinit =>
    cases hstep
    exact { h with
      counted := by
        have hc := h.counted
        cases M with
        | my_workqueue =>
          simp only [Counted, Bool.toNat_false] at hc ⊢
          omega
        | my_tasklet => exact hc
      held := fun hno => ⟨rfl, (h.held hno).2⟩
      loading := fun hno => nomatch hno
      unloading := fun hne => nomatch hinit.symm.trans (hexit hne) }
  case h_4 => cases hstep

lemma interrupt (h : Inv M bits w) (hok : M = .my_workqueue → w.upper_count + 1 < 2 ^ bits)
    (hreq : w.requested = true) (hhand : w.handler = false) :
    Inv M bits { w.countUpper M bits with handler := true } := by
  cases M with
  | my_workqueue =>
    have hmod : (w.upper_count + 1) % 2 ^ bits = w.upper_count + 1 := Nat.mod_eq_of_lt (hok rfl)
    exact { h with
      counted := by
        have hc := h.counted
        simp only [Counted, World.countUpper, hmod, hhand, Bool.toNat_false, Bool.toNat_true]
          at hc ⊢
        exact ⟨by omega, hok rfl⟩
      line := fun _ => hreq }
  | my_tasklet => exact { h with line := fun _ => hreq }

lemma schedule (h : Inv M bits w) (hinit : w.initialised = true) (hhand : w.handler = true) :
    Inv M bits w.schedule := by
  have hreq := h.line hhand
  exact { h with
    scheduled := by
      change (w.scheduled_early || !w.initialised) = false
      rw [h.scheduled, hinit]
      rfl
    counted := by
      have hc := h.counted
      cases M with
      | my_workqueue =>
        simp only [Counted, World.schedule, hhand, Bool.toNat_false, Bool.toNat_true] at hc ⊢
        omega
      | my_tasklet => exact hc
    held := fun hno => nomatch hreq.symm.trans (h.held hno).2.2
    line := fun hno => nomatch hno }

lemma start (h : Inv M bits w) (hpend : w.pending = true) : Inv M bits w.start := by
  have halloc := h.allocated fun hno => nomatch hpend.symm.trans hno.1
  exact { h with
    ran := by
      change (w.ran_late || !w.allocated) = false
      rw [h.ran, halloc]
      rfl
    counted := by
      have hc := h.counted
      cases M with
      | my_workqueue =>
        simp only [Counted, World.start, hpend, Bool.toNat_false, Bool.toNat_true] at hc ⊢
        omega
      | my_tasklet => exact hc
    held := fun hno => nomatch halloc.symm.trans hno }

lemma finish (h : Inv M bits w) (hrun : w.running ≠ 0) : Inv M bits (w.finish M bits) := by
  have halloc := h.allocated fun hno => hrun hno.2.1
  have hran : (w.ran_late || !w.allocated) = false := by
    rw [h.ran, halloc]
    rfl
  cases M with
  | my_workqueue =>
    exact { h with
      ran := hran
      counted := by
        have hc := h.counted
        simp only [Counted] at hc
        have hmod : (w.bottom_count + 1) % 2 ^ bits = w.bottom_count + 1 :=
          Nat.mod_eq_of_lt (by omega)
        simp only [Counted, World.finish, World.countBottom, hmod]
        omega
      held := fun hno => nomatch halloc.symm.trans hno }
  | my_tasklet =>
    exact { h with
      ran := hran
      held := fun hno => nomatch halloc.symm.trans hno }

lemma my_exit (h : Inv M bits w) (hok : w.exit = .release → w.pending = false ∧ w.running = 0)
    (hstep : w.my_exit = some w') : Inv M bits w' := by
  rw [World.my_exit] at hstep
  split at hstep
  case h_1 =>
    split_ifs at hstep with hcond
    cases hstep
    exact { h with
      held := fun hno => ⟨(h.held hno).1, (h.held hno).2.1, rfl⟩
      line := fun hno => nomatch hcond.2.symm.trans hno
      unloading := fun _ => ⟨hcond.1, rfl⟩ }
  case h_2 hexit =>
    have hne : w.exit ≠ .free_irq := fun hno => nomatch hexit.symm.trans hno
    obtain ⟨hinit, hreq⟩ := h.unloading hne
    cases hstep
    exact { h with
      held := fun _ => ⟨(hok hexit).1, (hok hexit).2, hreq⟩
      loading := fun hno => nomatch hinit.symm.trans hno
      unloading := fun _ => ⟨hinit, hreq⟩ }
  case h_3 => cases hstep

/-- Every action that meets the condition keeps the invariant. -/
lemma step {a : Action} (h : Inv M bits w) (hok : DeferOk M bits w a)
    (hstep : (modules M bits).step w a w') : Inv M bits w' := by
  change w.next M bits a = some w' at hstep
  cases a with
  | my_init ok => exact h.my_init hstep
  | interrupt =>
    simp only [World.next] at hstep
    split_ifs at hstep with hcond
    rw [← Option.some.inj hstep]
    exact h.interrupt hok hcond.1 hcond.2
  | schedule =>
    simp only [World.next] at hstep
    split_ifs at hstep with hhand
    rw [← Option.some.inj hstep]
    exact h.schedule hok hhand
  | start =>
    simp only [World.next] at hstep
    split_ifs at hstep with hpend
    rw [← Option.some.inj hstep]
    exact h.start hpend
  | finish =>
    simp only [World.next] at hstep
    split_ifs at hstep with hrun
    rw [← Option.some.inj hstep]
    exact h.finish hrun
  | my_exit => exact h.my_exit hok hstep

end Inv

/-- In every run outside the windows of `my_init` and `my_exit`, deferred work lives as long as it
has to. -/
theorem lifetime_of_deferOk {M : Module} {bits : ℕ} {tr : List (Action × World)}
    (hr : (modules M bits).Run (World.init₀ M) tr)
    (hok : System.Along (DeferOk M bits) (World.init₀ M) tr) :
    System.Always Lifetime (World.init₀ M) tr :=
  (hr.always_of_along (fun _ _ _ h hok hs => h.step hok hs) (Inv.init₀ M bits) hok).mono
    fun _ h => h.lifetime

/-- Two interrupts for one run, one for another, and an unload with nothing left to do. -/
def calmLoad : List Action :=
  [.my_init true, .my_init true, .my_init true, .interrupt, .schedule, .interrupt, .schedule,
    .start, .interrupt, .schedule, .finish, .start, .my_exit, .finish, .my_exit]

theorem lifetime_of_deferOk_calm :
    ∃ tr, (modules .my_workqueue 32).Run (World.init₀ .my_workqueue) tr ∧
      tr.map Prod.fst = calmLoad ∧ System.Always Lifetime (World.init₀ .my_workqueue) tr := by
  have hsome : (System.final (System.checked (World.next .my_workqueue 32)
      (DeferOk .my_workqueue 32)) (World.init₀ .my_workqueue) calmLoad).isSome := by
    decide +kernel
  obtain ⟨tr, hrun, hacts, halong⟩ := System.exists_run_along hsome
  exact ⟨tr, hrun, hacts, lifetime_of_deferOk hrun halong⟩

/-- A work that is scheduled before the unload runs after `kfree(dev)`. -/
theorem runs_after_kfree :
    ∃ tr, (modules .my_workqueue 32).Run (World.init₀ .my_workqueue) tr ∧
      tr.map Prod.fst = [.my_init true, .my_init true, .my_init true, .interrupt, .schedule,
        .my_exit, .my_exit, .start] ∧
      ¬ System.Always Lifetime (World.init₀ .my_workqueue) tr := by
  have hlate : (System.final (World.next .my_workqueue 32) (World.init₀ .my_workqueue)
      [.my_init true, .my_init true, .my_init true, .interrupt, .schedule, .my_exit, .my_exit,
        .start]).map World.ran_late = some true := by
    decide +kernel
  refine System.exists_run_not_always hlate fun w hw hlife => ?_
  rw [hlife.ran] at hw
  cases hw

end QuickDevSkeleton.Deferred
