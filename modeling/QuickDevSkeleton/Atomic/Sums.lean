import Mathlib.Algebra.Ring.Nat
import QuickDevSkeleton.Atomic.Device

/-!
# What the two counts are worth

`irq_sum` counts every interrupt. `irqs` counts no interrupt twice, and counts all of them exactly
as long as no handler stores a sum that it began with an older count. When `my_exit` prints the two,
no handler runs.
-/

namespace QuickDevSkeleton.Atomic

open Foundations

/-! ### The steps -/

/-- The steps of a processor. -/
inductive Step (d : Module) : Pc → Module → Pc → Prop
  | interrupt (l : Line) : d.handlers l = true → d.inProgress l = false →
    Step d .idle { d with inProgress := Function.update d.inProgress l true } (.load l)
  | load (l : Line) : Step d (.load l) d (.store l d.irqs)
  | store (l : Line) (irqs : BitVec 64) :
    Step d (.store l irqs) { d with irqs := irqs + 1, stored := d.stored + 1 } (.atomic_inc l)
  | atomic_inc (l : Line) :
    Step d (.atomic_inc l) { d with irq_sum := d.irq_sum + 1, handled := d.handled + 1 } (.ret l)
  | ret (l : Line) :
    Step d (.ret l) { d with inProgress := Function.update d.inProgress l false } .idle

/-- The steps of the module. -/
inductive EnvStep (d : Module) : Module → Prop
  | insmod : d.pc = .unloaded →
    EnvStep d { d with
      irq_sum := 0, irqs := 0, pc := .request .key, printed := none, stored := 0, handled := 0 }
  | request_irq (l : Line) (ok : Bool) : d.pc = .request l →
    EnvStep d { d with handlers := Function.update d.handlers l ok, pc := .requested l ok }
  | rmmod : d.pc = .loaded → EnvStep d { d with pc := .free .mouse true }
  | free (l : Line) (exiting : Bool) : d.pc = .free l exiting →
    EnvStep d { d with handlers := Function.update d.handlers l false, pc := .wait l exiting }
  | freed (l : Line) (exiting : Bool) : d.pc = .wait l exiting → d.inProgress l = false →
    EnvStep d { d with pc := .freed l exiting }
  | printk : d.pc = .printk →
    EnvStep d { d with pc := .unloaded, printed := some (d.irq_sum.toInt, d.irqs.toInt) }

variable {d e : Module} {x y : Pc} {a : Act} {ev : Env} {l : Line}

lemma step_of_act (h : x.act d a = some (e, y)) : Step d x e y := by
  cases x <;> cases a <;> simp only [Pc.act, reduceCtorEq, Option.some.injEq] at h
  case idle.interrupt l =>
    split_ifs at h with hl
    cases h
    exact .interrupt l hl.1 hl.2
  case load.step =>
    cases h
    exact .load _
  case store.step =>
    cases h
    exact .store _ _
  case atomic_inc.step =>
    cases h
    exact .atomic_inc _
  case ret.step =>
    cases h
    exact .ret _

lemma envStep_of_act (h : ev.act d = some e) : EnvStep d e := by
  cases ev with
  | insmod =>
    simp only [Env.act] at h
    split_ifs at h with hpc
    cases h
    exact .insmod hpc
  | request_irq ok =>
    simp only [Env.act] at h
    split at h <;> cases h
    exact .request_irq _ ok ‹_›
  | rmmod =>
    simp only [Env.act] at h
    split_ifs at h with hpc
    cases h
    exact .rmmod hpc
  | step =>
    simp only [Env.act] at h
    split at h
    case h_1 hpc =>
      cases h
      exact .free _ _ hpc
    case h_2 hpc =>
      split_ifs at h with hl
      cases h
      exact .freed _ _ hpc (Bool.eq_false_iff.mpr hl)
    case h_3 hpc =>
      cases h
      exact .printk hpc
    case h_4 => cases h

/-! ### Lines that are off -/

/-- The line of the handler that a processor is in. -/
def Pc.line : Pc → Option Line
  | .idle => none
  | .load l | .store l _ | .atomic_inc l | .ret l => some l

/-- One for a processor in the handler of the line. -/
def Pc.on (l : Line) (x : Pc) : ℕ := if x.line = some l then 1 else 0

/-- One for a handler that has counted in `irqs` and not yet in `irq_sum`. -/
def Pc.ahead : Pc → ℕ
  | .atomic_inc _ => 1
  | _ => 0

/-- The line has no handler, and none runs. -/
def Module.Off (d : Module) (l : Line) : Prop := d.handlers l = false ∧ d.inProgress l = false

/-- The lines that are off at a place of `my_init` or `my_exit`. -/
def ModulePc.off : ModulePc → Line → Prop
  | .unloaded, _ | .printk, _ | .request .key, _ => True
  | .request .mouse, l | .free .key _, l | .wait .key _, l => l = .mouse
  | .free .mouse _, _ | .wait .mouse _, _ | .loaded, _ => False

/-- The lines are as the place of the module says, and so are the numbers printed. -/
structure Module.Sound (d : Module) : Prop where
  off : ∀ l, d.pc.off l → d.Off l
  wait : ∀ l exiting, d.pc = .wait l exiting → d.handlers l = false
  sum : d.irq_sum = BitVec.ofNat 32 d.handled
  printed : ∀ sum n, d.printed = some (sum, n) →
    d.pc = .unloaded ∧ sum = d.irq_sum.toInt ∧ n = d.irqs.toInt

/-- An interrupt comes on a line that is not off. -/
lemma Module.Off.update {k : Line} {b : Bool} (h : d.Off k) (hl : d.handlers l = true) :
    Module.Off { d with inProgress := Function.update d.inProgress l b } k := by
  have hkl : k ≠ l := by
    rintro rfl
    rw [h.1] at hl
    cases hl
  exact ⟨h.1, (Function.update_of_ne hkl _ _).trans h.2⟩

lemma Module.Off.ret {k : Line} (h : d.Off k) :
    Module.Off { d with inProgress := Function.update d.inProgress l false } k := by
  refine ⟨h.1, ?_⟩
  by_cases hkl : k = l
  · rw [hkl]
    exact Function.update_self l false d.inProgress
  · exact (Function.update_of_ne hkl _ _).trans h.2

lemma Module.Off.request {k : Line} {ok : Bool} {pc : ModulePc} (h : d.Off k)
    (hok : k = l → ok = false) :
    Module.Off { d with handlers := Function.update d.handlers l ok, pc := pc } k := by
  refine ⟨?_, h.2⟩
  by_cases hkl : k = l
  · rw [hkl, ← hok hkl]
    exact Function.update_self l ok d.handlers
  · exact (Function.update_of_ne hkl _ _).trans h.1

/-- While a handler runs, the module is not unloaded. -/
lemma Module.Sound.not_unloaded (hd : d.Sound) (hl : d.inProgress l = true) :
    d.pc ≠ .unloaded := by
  intro hpc
  have hoff := (hd.off l (by rw [hpc]; exact True.intro)).2
  rw [hl] at hoff
  cases hoff

lemma Step.sound (h : Step d x e y) (hd : d.Sound)
    (hx : ∀ l, x.line = some l → d.inProgress l = true) : e.Sound := by
  have hprinted : ∀ {l}, x.line = some l → d.printed = none := by
    intro l hl
    by_contra hsome
    obtain ⟨⟨sum, n⟩, hsome⟩ := Option.ne_none_iff_exists'.mp hsome
    exact hd.not_unloaded (hx l hl) (hd.printed sum n hsome).1
  cases h with
  | interrupt l hl hfree =>
    exact ⟨fun k hk => (hd.off k hk).update hl, hd.wait, hd.sum, hd.printed⟩
  | load l => exact hd
  | store l irqs =>
    refine ⟨hd.off, hd.wait, hd.sum, fun sum n hsome => ?_⟩
    rw [hprinted rfl] at hsome
    cases hsome
  | atomic_inc l =>
    refine ⟨hd.off, hd.wait, ?_, fun sum n hsome => ?_⟩
    · change d.irq_sum + 1 = BitVec.ofNat 32 (d.handled + 1)
      rw [hd.sum, BitVec.ofNat_add]
      rfl
    · rw [hprinted rfl] at hsome
      cases hsome
  | ret l => exact ⟨fun k hk => (hd.off k hk).ret, hd.wait, hd.sum, hd.printed⟩

lemma EnvStep.sound (h : EnvStep d e) (hd : d.Sound) : e.Sound := by
  have hprinted : d.pc ≠ .unloaded → ∀ {sum n}, d.printed ≠ some (sum, n) := fun hpc sum n hsome =>
    hpc (hd.printed sum n hsome).1
  cases h with
  | insmod hpc =>
    have hall : ∀ k, d.Off k := fun k => hd.off k (by rw [hpc]; exact True.intro)
    exact ⟨fun k _ => hall k, fun l exiting hwait => (by cases hwait), rfl, fun sum n hsome =>
      (by cases hsome)⟩
  | request_irq l ok hpc =>
    refine ⟨fun k hk => ?_, fun k exiting hwait => ?_, hd.sum, fun sum n hsome =>
      absurd hsome (hprinted (by rw [hpc]; exact ModulePc.noConfusion))⟩
    · cases l with
      | key =>
        have hoff := hd.off k (by rw [hpc]; exact True.intro)
        cases ok with
        | true =>
          cases hk
          exact hoff.request fun hkl => (by cases hkl)
        | false => exact hoff.request fun _ => rfl
      | mouse =>
        cases ok with
        | true => cases hk
        | false =>
          cases hk
          exact (hd.off .mouse (by rw [hpc]; rfl)).request fun _ => rfl
    · cases l <;> cases ok <;> cases hwait
  | rmmod hpc =>
    exact ⟨fun k hk => (by cases hk), fun k exiting hwait => (by cases hwait), hd.sum,
      fun sum n hsome => absurd hsome (hprinted (by rw [hpc]; exact ModulePc.noConfusion))⟩
  | free l exiting hpc =>
    refine ⟨fun k hk => ?_, fun k exiting' hwait => ?_, hd.sum, fun sum n hsome =>
      absurd hsome (hprinted (by rw [hpc]; exact ModulePc.noConfusion))⟩
    · cases l with
      | key =>
        cases hk
        exact (hd.off .mouse (by rw [hpc]; rfl)).request fun hkl => (by cases hkl)
      | mouse => cases hk
    · cases hwait
      exact Function.update_self _ false d.handlers
  | freed l exiting hpc hfree =>
    have hl : d.Off l := ⟨hd.wait l exiting hpc, hfree⟩
    refine ⟨fun k hk => ?_, fun k exiting' hwait => ?_, hd.sum, fun sum n hsome =>
      absurd hsome (hprinted (by rw [hpc]; exact ModulePc.noConfusion))⟩
    · cases l with
      | key =>
        cases k with
        | key => exact hl
        | mouse => exact hd.off .mouse (by rw [hpc]; rfl)
      | mouse =>
        cases hk
        exact hl
    · cases l <;> cases exiting <;> cases hwait
  | printk hpc =>
    refine ⟨fun k _ => hd.off k (by rw [hpc]; exact True.intro), fun k exiting hwait =>
      (by cases hwait), hd.sum, fun sum n hsome => ?_⟩
    cases hsome
    exact ⟨rfl, rfl, rfl⟩

/-! ### Who is in a handler -/

lemma Step.on (h : Step d x e y) {r : ℕ}
    (hr : (d.inProgress l).toNat = 0 + (x.on l + r)) :
    (e.inProgress l).toNat = 0 + (y.on l + r) := by
  cases h with
  | interrupt k hk hfree =>
    by_cases hl : l = k
    · subst hl
      rw [hfree] at hr
      simp only [Function.update_self, Pc.on, Pc.line, reduceCtorEq, if_true, if_false,
        Bool.toNat_true, Bool.toNat_false] at hr ⊢
      omega
    · simpa [Function.update_of_ne hl, Pc.on, Pc.line, Ne.symm hl] using hr
  | ret k =>
    by_cases hl : l = k
    · subst hl
      have hle := Bool.toNat_le (d.inProgress l)
      simp only [Function.update_self, Pc.on, Pc.line, reduceCtorEq, if_true, if_false,
        Bool.toNat_false] at hr ⊢
      omega
    · simpa [Function.update_of_ne hl, Pc.on, Pc.line, Ne.symm hl] using hr
  | _ => exact hr

lemma EnvStep.on (h : EnvStep d e) : e.inProgress = d.inProgress := by
  cases h <;> rfl

lemma Step.stored (h : Step d x e y) {r : ℕ} (hr : d.stored = d.handled + (x.ahead + r)) :
    e.stored = e.handled + (y.ahead + r) := by
  cases h with
  | store | atomic_inc =>
    simp only [Pc.ahead] at hr ⊢
    omega
  | _ => exact hr

/-- No count in a handler is above the number of stores. -/
def Pc.Within (d : Module) : Pc → Prop
  | .store _ irqs => irqs.toNat ≤ d.stored
  | _ => True

lemma BitVec.toNat_succ_le {w : ℕ} (b : BitVec w) : (b + 1).toNat ≤ b.toNat + 1 := by
  rw [BitVec.toNat_add]
  refine Nat.le_trans (Nat.mod_le _ _) (Nat.add_le_add_left ?_ _)
  exact Nat.mod_le 1 (2 ^ w)

lemma Step.within (h : Step d x e y) (hd : d.irqs.toNat ≤ d.stored) (hx : x.Within d) :
    e.irqs.toNat ≤ e.stored ∧ y.Within e ∧ d.stored ≤ e.stored := by
  cases h with
  | load l => exact ⟨hd, hd, Nat.le_refl _⟩
  | store l irqs =>
    exact ⟨Nat.le_trans (BitVec.toNat_succ_le irqs) (Nat.succ_le_succ hx), True.intro,
      Nat.le_succ _⟩
  | _ => exact ⟨hd, True.intro, Nat.le_refl _⟩

/-! ### A session -/

open Parties Parties.Move in
/-- The two handlers run side by side, each on a processor, and both load `irqs` before one of them
stores it. Then the module is unloaded. -/
def session : List (Parties.Move Two Act Env) :=
  [env .insmod, env (.request_irq true), env (.request_irq true), act first (.interrupt .key),
    act second (.interrupt .mouse), act first .step, act second .step, act first .step,
    act second .step, act first .step, act second .step, act first .step, act second .step,
    env .rmmod, env .step, env .step, env .step, env .step, env .step]

lemma exists_session : ∃ tr, driver.system.Run (start (Fin 2)) tr ∧ tr.map Prod.fst = session := by
  have h : (System.final driver.next (start (Fin 2)) session).isSome := by
    decide +kernel
  exact System.exists_run_of_isSome h

/-- One of the two interrupts is not in `irqs`. -/
example : (System.final driver.next (start (Fin 2)) session).bind
    (fun v => v.shared.printed) = some (2, 1) := by
  decide +kernel

/-! ### Every run -/

section

variable {ι : Type} [Fintype ι] [DecidableEq ι] {v v' : Parties.State Module Pc ι}
  {mv : Parties.Move ι Act Env} {tr : List (Parties.Move ι Act Env × Parties.State Module Pc ι)}

/-- The lines, and who is in their handlers. -/
structure Counted (v : Parties.State Module Pc ι) : Prop where
  sound : v.shared.Sound
  on : ∀ l, (v.shared.inProgress l).toNat = 0 + Parties.tally (Pc.on l) v.place
  stored : v.shared.stored = v.shared.handled + Parties.tally Pc.ahead v.place
  le : v.shared.irqs.toNat ≤ v.shared.stored
  within : ∀ p, (v.place p).Within v.shared

namespace Counted

lemma inProgress (hv : Counted v) (p : ι) (hl : (v.place p).line = some l) :
    v.shared.inProgress l = true := by
  have hle := Parties.le_tally (Pc.on l) v.place p
  have hone : (v.place p).on l = 1 := if_pos hl
  have hon := hv.on l
  cases hfree : v.shared.inProgress l with
  | true => rfl
  | false =>
    rw [hfree, Bool.toNat_false] at hon
    omega

/-- When the module is not there, no handler runs. -/
lemma idle (hv : Counted v) (hoff : ∀ l, v.shared.Off l) (p : ι) : v.place p = .idle := by
  cases hline : (v.place p).line with
  | none =>
    cases hp : v.place p with
    | idle => rfl
    | _ =>
      rw [hp] at hline
      cases hline
  | some l =>
    have htrue := hv.inProgress p hline
    rw [(hoff l).2] at htrue
    cases htrue

lemma next (hv : Counted v) (h : driver.next v mv = some v') : Counted v' := by
  cases mv with
  | act p a =>
    obtain ⟨e, y, hact, rfl⟩ := Parties.next_act.mp h
    have hstep := step_of_act hact
    obtain ⟨hle, hy, hmono⟩ := hstep.within hv.le (hv.within p)
    refine ⟨hstep.sound hv.sound fun l hl => hv.inProgress p hl, fun l => ?_, ?_, hle,
      Parties.forall_place_update hy fun q _ => ?_⟩
    · exact Parties.next_ledger (c := fun d => (d.inProgress l).toNat) (m := fun _ => 0) h
        (fun i a y hact r hr => (step_of_act hact).on hr) (fun ev henv r hr => by
          rw [(envStep_of_act henv).on]; exact hr) (hv.on l)
    · obtain ⟨r, hr, hupdate⟩ := Parties.tally_split Pc.ahead v.place p
      have hstored := hv.stored
      rw [hr] at hstored
      exact (hstep.stored hstored).trans (congrArg (e.handled + ·) (hupdate y).symm)
    · have hq := hv.within q
      generalize v.place q = x at hq
      cases x with
      | store l irqs => exact Nat.le_trans hq hmono
      | _ => exact True.intro
  | env ev =>
    obtain ⟨e, henv, rfl⟩ := Parties.next_env.mp h
    have hstep := envStep_of_act henv
    have hon : ∀ l, (e.inProgress l).toNat = 0 + Parties.tally (Pc.on l) v.place := fun l =>
      hstep.on ▸ hv.on l
    have hsound := hstep.sound hv.sound
    cases hstep with
    | insmod hpc =>
      have hidle := hv.idle fun l => hv.sound.off l (by rw [hpc]; exact True.intro)
      have hzero : Parties.tally Pc.ahead v.place = 0 :=
        Parties.tally_eq_zero fun p => by rw [hidle p]; rfl
      refine ⟨hsound, hon, ?_, Nat.le_refl 0, fun p => ?_⟩
      · exact ((Nat.zero_add _).trans hzero).symm
      · change (v.place p).Within _
        rw [hidle p]
        exact True.intro
    | _ => exact ⟨hsound, hon, hv.stored, hv.le, hv.within⟩

omit [DecidableEq ι] in
lemma start : Counted (start ι) where
  sound := ⟨fun l _ => ⟨rfl, rfl⟩, fun l exiting h => (by cases h), rfl, fun sum n h =>
    (by cases h)⟩
  on l := by
    have hzero : Parties.tally (Pc.on l) (Atomic.start ι).place = 0 :=
      Parties.tally_eq_zero fun p => rfl
    rw [hzero]
    rfl
  stored := by
    have hzero : Parties.tally Pc.ahead (Atomic.start ι).place = 0 :=
      Parties.tally_eq_zero fun p => rfl
    exact ((Nat.zero_add _).trans hzero).symm
  le := Nat.le_refl 0
  within p := True.intro

lemma always (hr : driver.system.Run (Atomic.start ι) tr) :
    System.Always Counted (Atomic.start ι) tr :=
  hr.always (fun _ _ _ hv h => hv.next h) start

end Counted

/-- However interrupts on both lines, `my_init` and `my_exit` interleave: `irq_sum` is the number of
interrupts counted, of which each is counted in `irqs` before; `irqs` is never above the number of
stores to it; a handler runs on one processor at most; none runs while the module is not there; and
when `my_exit` prints, no interrupt is in between the two counts. -/
theorem interrupts_counted (hr : driver.system.Run (start ι) tr) :
    System.Always (fun v =>
      v.shared.irq_sum = BitVec.ofNat 32 v.shared.handled ∧
      v.shared.stored = v.shared.handled + Parties.tally Pc.ahead v.place ∧
      v.shared.irqs.toNat ≤ v.shared.stored ∧
      (∀ l, Parties.tally (Pc.on l) v.place ≤ 1) ∧
      (v.shared.pc = .unloaded → ∀ p, v.place p = .idle) ∧
      ∀ sum n, v.shared.printed = some (sum, n) →
        sum = (BitVec.ofNat 32 v.shared.handled).toInt ∧ v.shared.stored = v.shared.handled)
      (start ι) tr := by
  refine (Counted.always hr).mono fun v hv => ?_
  have hidle : v.shared.pc = .unloaded → ∀ p, v.place p = .idle := fun hpc =>
    hv.idle fun l => hv.sound.off l (by rw [hpc]; exact True.intro)
  refine ⟨hv.sound.sum, hv.stored, hv.le, fun l => ?_, hidle, fun sum n hsome => ?_⟩
  · have hon := hv.on l
    have hle := Bool.toNat_le (v.shared.inProgress l)
    omega
  · obtain ⟨hpc, hsum, -⟩ := hv.sound.printed sum n hsome
    have hzero : Parties.tally Pc.ahead v.place = 0 :=
      Parties.tally_eq_zero fun p => by rw [hidle hpc p]; rfl
    rw [hsum, hv.sound.sum, hv.stored, hzero]
    exact ⟨rfl, rfl⟩

theorem session_interrupts_counted :
    ∃ tr, driver.system.Run (start (Fin 2)) tr ∧ tr.map Prod.fst = session ∧
      System.Always (fun v =>
        v.shared.irq_sum = BitVec.ofNat 32 v.shared.handled ∧
        v.shared.stored = v.shared.handled + Parties.tally Pc.ahead v.place ∧
        v.shared.irqs.toNat ≤ v.shared.stored ∧
        (∀ l, Parties.tally (Pc.on l) v.place ≤ 1) ∧
        (v.shared.pc = .unloaded → ∀ p, v.place p = .idle) ∧
        ∀ sum n, v.shared.printed = some (sum, n) →
          sum = (BitVec.ofNat 32 v.shared.handled).toInt ∧ v.shared.stored = v.shared.handled)
        (start (Fin 2)) tr := by
  obtain ⟨tr, hrun, hacts⟩ := exists_session
  exact ⟨tr, hrun, hacts, interrupts_counted hrun⟩

/-! ### Lost counts -/

/-- `irqs` is the number of stores to it, and the numbers printed count the same interrupts. -/
def Agree (v : Parties.State Module Pc ι) : Prop :=
  v.shared.irqs = BitVec.ofNat 64 v.shared.stored ∧
    ∀ sum n, v.shared.printed = some (sum, n) →
      sum = (BitVec.ofNat 32 v.shared.handled).toInt ∧
      n = (BitVec.ofNat 64 v.shared.handled).toInt

/-- No handler stores a sum that it began with an older count. -/
def StoreOk (v : Parties.State Module Pc ι) (mv : Parties.Move ι Act Env) : Prop :=
  ∀ p l irqs, mv = .act p .step → v.place p = .store l irqs → irqs = v.shared.irqs

lemma BitVec.ofNat_succ_inj {w : ℕ} {b : BitVec w} {n : ℕ} :
    b + 1 = BitVec.ofNat w (n + 1) ↔ b = BitVec.ofNat w n := by
  have hone : (1 : BitVec w) = BitVec.ofNat w 1 := rfl
  rw [BitVec.ofNat_add, hone, BitVec.add_left_inj]

namespace Counted

lemma agree (hv : Counted v) (hirqs : v.shared.irqs = BitVec.ofNat 64 v.shared.stored) :
    Agree v := by
  refine ⟨hirqs, fun sum n hsome => ?_⟩
  obtain ⟨hpc, hsum, hn⟩ := hv.sound.printed sum n hsome
  have hidle := hv.idle fun l => hv.sound.off l (by rw [hpc]; exact True.intro)
  have hzero : Parties.tally Pc.ahead v.place = 0 :=
    Parties.tally_eq_zero fun p => by rw [hidle p]; rfl
  rw [hsum, hn, hv.sound.sum, hirqs, hv.stored, hzero]
  exact ⟨rfl, rfl⟩

omit [Fintype ι] in
/-- A move keeps `irqs` exact if and only if it does not store an older sum. -/
lemma storeOk_iff (hirqs : v.shared.irqs = BitVec.ofNat 64 v.shared.stored)
    (h : driver.next v mv = some v') :
    StoreOk v mv ↔ v'.shared.irqs = BitVec.ofNat 64 v'.shared.stored := by
  cases mv with
  | act p a =>
    obtain ⟨e, y, hact, rfl⟩ := Parties.next_act.mp h
    have hstep := step_of_act hact
    have hother : (∀ l irqs, v.place p ≠ .store l irqs) → StoreOk v (.act p a) := by
      rintro hno q l irqs hmv hq
      cases hmv
      exact absurd hq (hno l irqs)
    generalize hx : v.place p = x at hstep hother hact
    cases hstep with
    | store l irqs =>
      change _ ↔ irqs + 1 = BitVec.ofNat 64 (v.shared.stored + 1)
      rw [BitVec.ofNat_succ_inj, ← hirqs]
      constructor
      · intro hok
        cases a with
        | interrupt => cases hact
        | step => exact hok p l irqs rfl hx
      · rintro rfl q k irqs hmv hq
        cases hmv
        rw [hx] at hq
        cases hq
        rfl
    | _ => exact ⟨fun _ => hirqs, fun _ => hother fun l irqs hno => (by cases hno)⟩
  | env ev =>
    obtain ⟨e, henv, rfl⟩ := Parties.next_env.mp h
    refine ⟨fun _ => ?_, fun _ p l irqs hmv => (by cases hmv)⟩
    cases envStep_of_act henv with
    | insmod => rfl
    | _ => exact hirqs

end Counted

/-- In every run, `irqs` counts all interrupts, as does what `my_exit` prints, if and only if no
handler stores a sum that it began with an older count, that is, before a store of the other
handler. -/
theorem sums_agree_iff (hr : driver.system.Run (start ι) tr) :
    System.Always Agree (start ι) tr ↔ System.Along StoreOk (start ι) tr := by
  refine hr.always_iff_along
    (I := fun v => Counted v ∧ v.shared.irqs = BitVec.ofNat 64 v.shared.stored)
    (fun v hv => hv.1.agree hv.2)
    (fun v mv v' hv hok h => ⟨hv.1.next h, (Counted.storeOk_iff hv.2 h).mp hok⟩)
    (fun v mv v' hv hno h hagree => hno ((Counted.storeOk_iff hv.2 h).mpr hagree.1))
    ⟨Counted.start, rfl⟩

theorem session_sums_agree_iff :
    ∃ tr, driver.system.Run (start (Fin 2)) tr ∧ tr.map Prod.fst = session ∧
      (System.Always Agree (start (Fin 2)) tr ↔ System.Along StoreOk (start (Fin 2)) tr) := by
  obtain ⟨tr, hrun, hacts⟩ := exists_session
  exact ⟨tr, hrun, hacts, sums_agree_iff hrun⟩

end

end QuickDevSkeleton.Atomic
