import Mathlib.Algebra.Ring.Nat
import QuickDevSkeleton.IrqDisable.Device

/-!
# What `disable_count` is worth

`disable_count` and the reads that have yet to store it make up the depth of the line, as long as
three things do not happen: a read stores a count that another one has changed since it loaded it,
the line is enabled once too often, or the module comes back to a line that is still disabled. Any
of them makes the two differ.
-/

namespace QuickDevSkeleton.IrqDisable

open Foundations

/-- What a read will still store. -/
def Pc.owes : Pc → BitVec 32
  | .load f | .store f _ => f.delta
  | _ => 0

/-- One for a read in progress. -/
def Pc.busy : Pc → ℕ
  | .idle => 0
  | _ => 1

def Module.line (d : Module) : BitVec 32 := d.depth d.irq_num

section

variable {d e : Module} {x y : Pc} {a : Act} {ev : Env}

/-- The steps of a read. -/
inductive Step (d : Module) : Pc → Module → Pc → Prop
  | read (f : File) : d.files f = true →
    Step d .idle { d with readers := d.readers + 1 } (.irq f)
  | irq (f : File) : Step d (.irq f) (f.irq d) (.load f)
  | load (f : File) : Step d (.load f) d (.store f d.disable_count)
  | store (f : File) (n : BitVec 32) :
    Step d (.store f n) { d with disable_count := n + f.delta } (.sprintf f)
  | sprintf (f : File) : Step d (.sprintf f) d (.ret (f.text d.irq_num d.disable_count))
  | ret (text : String) : Step d (.ret text) { d with readers := d.readers - 1 } .idle

lemma step_of_act (h : x.act d a = some (e, y)) : Step d x e y := by
  cases x <;> cases a <;> simp only [Pc.act, reduceCtorEq, Option.some.injEq] at h
  case idle.read f =>
    split_ifs at h with hf
    cases h
    exact .read f hf
  case irq.step =>
    cases h
    exact .irq _
  case load.step =>
    cases h
    exact .load _
  case store.step =>
    cases h
    exact .store _ _
  case sprintf.step =>
    cases h
    exact .sprintf _
  case ret.step =>
    cases h
    exact .ret _

lemma File.irq_cases (f : File) (d : Module) :
    ∃ depth warnings, f.irq d = { d with depth := depth, warnings := warnings } := by
  cases f with
  | proc_disable => exact ⟨_, _, rfl⟩
  | proc_enable =>
    by_cases hzero : d.depth d.irq_num = 0
    · exact ⟨_, _, if_pos hzero⟩
    · exact ⟨_, _, if_neg hzero⟩

/-- The line goes down by one or up by one, unless it is enabled once too often. -/
lemma File.line_irq (f : File) (d : Module) :
    (f.irq d).line = d.line + f.delta ↔ (f = .proc_enable → d.line ≠ 0) := by
  cases f with
  | proc_disable =>
    refine ⟨fun _ h => (by cases h), fun _ => ?_⟩
    exact Function.update_self d.irq_num _ d.depth
  | proc_enable =>
    by_cases hzero : d.depth d.irq_num = 0
    · have hsame : (File.proc_enable.irq d).line = d.line := by
        simp only [File.irq, Module.enable_irq, if_pos hzero]
        rfl
      rw [hsame]
      refine ⟨fun h => ?_, fun h => absurd hzero (h rfl)⟩
      rw [Module.line, hzero] at h
      exact absurd h (by decide)
    · refine ⟨fun _ _ => hzero, fun _ => ?_⟩
      simp only [File.irq, Module.enable_irq, if_neg hzero]
      exact (Function.update_self d.irq_num _ d.depth).trans (BitVec.sub_eq_add_neg _ _)

lemma Step.readers (h : Step d x e y) {r : ℕ} (hr : d.readers = 0 + (x.busy + r)) :
    e.readers = 0 + (y.busy + r) := by
  cases h with
  | read | ret =>
    simp only [Pc.busy] at hr ⊢
    omega
  | irq f =>
    obtain ⟨depth, warnings, heq⟩ := f.irq_cases d
    rw [heq]
    exact hr
  | _ => exact hr

end

section

variable {ι : Type} [Fintype ι] [DecidableEq ι] {v v' : Parties.State Module Pc ι}
  {mv : Parties.Move ι Act Env} {tr : List (Parties.Move ι Act Env × Parties.State Module Pc ι)}

/-- The depth of the line is `disable_count` with what the reads in progress will still store. -/
def Exact (v : Parties.State Module Pc ι) : Prop :=
  v.shared.line = v.shared.disable_count + Parties.tally Pc.owes v.place

/-- No read stores a count that another one has changed since, none enables the line once too
often, and the module comes back to a line that is enabled. -/
def MoveOk (v : Parties.State Module Pc ι) : Parties.Move ι Act Env → Prop
  | .act p .step => (∀ f n, v.place p = .store f n → n = v.shared.disable_count) ∧
      (v.place p = .irq .proc_enable → v.shared.line ≠ 0)
  | .env (.my_init irq_num _) => v.shared.depth irq_num = 0
  | _ => True

/-- The reads in progress are counted, and there are none while the module is not there. -/
structure Attended (v : Parties.State Module Pc ι) : Prop where
  readers : v.shared.readers = 0 + Parties.tally Pc.busy v.place
  unloaded : v.shared.loaded = false → v.shared.readers = 0 ∧ ∀ f, v.shared.files f = false

namespace Attended

lemma idle (hv : Attended v) (hno : v.shared.loaded = false) (p : ι) : v.place p = .idle := by
  have hle := Parties.le_tally Pc.busy v.place p
  have hreaders := hv.readers
  rw [(hv.unloaded hno).1] at hreaders
  cases hp : v.place p with
  | idle => rfl
  | _ =>
    rw [hp] at hle
    simp only [Pc.busy] at hle
    omega

lemma next (hv : Attended v) (h : driver.next v mv = some v') : Attended v' := by
  cases mv with
  | act p a =>
    obtain ⟨e, y, hact, rfl⟩ := Parties.next_act.mp h
    have hstep := step_of_act hact
    refine ⟨?_, fun hno => ?_⟩
    · obtain ⟨r, hr, hupdate⟩ := Parties.tally_split Pc.busy v.place p
      have hreaders := hv.readers
      rw [hr] at hreaders
      exact (hstep.readers hreaders).trans (congrArg (0 + ·) (hupdate y).symm)
    · -- nobody can read while the module is not there
      have hsame : e.loaded = v.shared.loaded := by
        generalize v.place p = x at hstep
        cases hstep with
        | irq f =>
          obtain ⟨depth, warnings, heq⟩ := f.irq_cases v.shared
          rw [heq]
        | _ => rfl
      have hidle := hv.idle (hsame ▸ hno) p
      rw [hidle] at hstep
      cases hstep with
      | read f hf =>
        rw [(hv.unloaded (hsame ▸ hno)).2 f] at hf
        cases hf
  | env ev =>
    obtain ⟨e, henv, rfl⟩ := Parties.next_env.mp h
    cases ev with
    | my_init irq_num created =>
      simp only [driver, Env.act] at henv
      split_ifs at henv
      cases henv
      exact ⟨hv.readers, fun hno => by cases hno⟩
    | my_exit =>
      simp only [driver, Env.act] at henv
      split_ifs at henv with hexit
      cases henv
      exact ⟨hv.readers, fun _ => ⟨hexit.2, fun _ => rfl⟩⟩

omit [DecidableEq ι] in
lemma start : Attended (start ι) where
  readers := by
    have hzero : Parties.tally Pc.busy (IrqDisable.start ι).place = 0 :=
      Parties.tally_eq_zero fun p => rfl
    rw [hzero]
    rfl
  unloaded _ := ⟨rfl, fun _ => rfl⟩

end Attended

omit [Fintype ι] [DecidableEq ι] in
/-- What a move of a read is asked for depends on where it is. -/
lemma moveOk_act {p : ι} {a : Act} {r : Module × Pc}
    (h : (v.place p).act v.shared a = some r) :
    MoveOk v (.act p a) ↔ (∀ f n, v.place p = .store f n → n = v.shared.disable_count) ∧
      (v.place p = .irq .proc_enable → v.shared.line ≠ 0) := by
  cases a with
  | step => exact Iff.rfl
  | read f =>
    cases hp : v.place p with
    | idle =>
      exact ⟨fun _ => ⟨fun f n hno => (by cases hno), fun hno => (by cases hno)⟩,
        fun _ => True.intro⟩
    | _ =>
      rw [hp] at h
      cases h

/-- A move keeps the count exact if and only if it is one of these. -/
lemma exact_iff_moveOk (hv : Attended v) (hexact : Exact v) (h : driver.next v mv = some v') :
    Exact v' ↔ MoveOk v mv := by
  cases mv with
  | act p a =>
    obtain ⟨e, y, hact, rfl⟩ := Parties.next_act.mp h
    rw [moveOk_act hact]
    refine (Parties.ledger_act_iff (c := Module.line) (m := Module.disable_count)
      (w := Pc.owes) hexact).trans ?_
    have hstep := step_of_act hact
    generalize v.place p = x at hstep
    have hquiet : (∀ f n, x ≠ .store f n) → (∀ f, x ≠ .irq f) →
        ((∀ f n, x = .store f n → n = v.shared.disable_count) ∧
          (x = .irq .proc_enable → v.shared.line ≠ 0)) := fun hstore hirq =>
      ⟨fun f n hx => absurd hx (hstore f n), fun hx => absurd hx (hirq _)⟩
    cases hstep with
    | irq f =>
      have hcount : (f.irq v.shared).disable_count = v.shared.disable_count := by
        obtain ⟨depth, warnings, heq⟩ := f.irq_cases v.shared
        rw [heq]
      have hline := f.line_irq v.shared
      simp only [Pc.owes, hcount, add_zero]
      rw [← add_assoc, add_right_comm v.shared.line, add_left_inj, hline]
      constructor
      · intro hne
        exact ⟨fun f n hno => (by cases hno), fun hf => hne (by cases hf; rfl)⟩
      · rintro ⟨-, hne⟩ rfl
        exact hne rfl
    | store f n =>
      have hsame : Module.line { v.shared with disable_count := n + f.delta } = v.shared.line :=
        rfl
      simp only [Pc.owes, hsame, add_zero]
      rw [add_right_inj, add_left_inj]
      constructor
      · rintro rfl
        exact ⟨fun f n hn => (by cases hn; rfl), fun hno => (by cases hno)⟩
      · rintro ⟨hn, -⟩
        exact (hn f n rfl).symm
    | read | load | sprintf | ret =>
      exact ⟨fun _ => hquiet (fun _ _ h => (by cases h)) fun _ h => (by cases h), fun _ => rfl⟩
  | env ev =>
    obtain ⟨e, henv, rfl⟩ := Parties.next_env.mp h
    cases ev with
    | my_init irq_num created =>
      simp only [driver, Env.act] at henv
      split_ifs at henv with hloaded
      cases henv
      have hidle := hv.idle (Bool.eq_false_iff.mpr hloaded)
      have hzero : Parties.tally Pc.owes v.place = 0 :=
        Parties.tally_eq_zero fun p => by rw [hidle p]; rfl
      change v.shared.depth irq_num = 0 + Parties.tally Pc.owes v.place ↔ _
      rw [hzero]
      exact Iff.rfl
    | my_exit =>
      simp only [driver, Env.act] at henv
      split_ifs at henv with hexit
      cases henv
      exact ⟨fun _ => True.intro, fun _ => hexact⟩

/-- In every run, the depth of the line is `disable_count` with what the reads in progress will
still store, if and only if no read stores a count that another one has changed since it loaded
it, none enables the line once too often, and the module is never loaded for a line that is
disabled already. -/
theorem disable_count_iff (hr : driver.system.Run (start ι) tr) :
    System.Always Exact (start ι) tr ↔ System.Along MoveOk (start ι) tr := by
  have hstart : Exact (start ι) := by
    have hzero : Parties.tally Pc.owes (start ι).place = 0 :=
      Parties.tally_eq_zero fun p => rfl
    rw [Exact, hzero]
    rfl
  exact hr.always_iff_along (I := fun v => Attended v ∧ Exact v) (fun v hv => hv.2)
    (fun v mv v' hv hok h => ⟨hv.1.next h, (exact_iff_moveOk hv.1 hv.2 h).mpr hok⟩)
    (fun v mv v' hv hno h hexact => hno ((exact_iff_moveOk hv.1 hv.2 h).mp hexact))
    ⟨Attended.start, hstart⟩

open Parties Parties.Move in
/-- Two reads that disable the line run side by side, and both load the count before one of them
stores it. Then the line is enabled three times. -/
def session : List (Parties.Move Two Act Env) :=
  [env (.my_init 12 fun _ => true), act first (.read .proc_disable),
    act second (.read .proc_disable), act first .step, act second .step, act first .step,
    act second .step, act first .step, act second .step, act first .step, act second .step,
    act first .step, act second .step] ++
  (List.replicate 3 (act first (.read .proc_enable) :: List.replicate 5 (act first .step))).flatten

lemma exists_session : ∃ tr, driver.system.Run (start (Fin 2)) tr ∧ tr.map Prod.fst = session := by
  have h : (System.final driver.next (start (Fin 2)) session).isSome := by
    decide +kernel
  exact System.exists_run_of_isSome h

/-- The line is enabled, and the count is two below zero. -/
example : (System.final driver.next (start (Fin 2)) session).map
    (fun v => (v.shared.line, v.shared.disable_count.toInt, v.shared.warnings)) =
      some (0, -2, 1) := by
  decide +kernel

theorem session_disable_count_iff :
    ∃ tr, driver.system.Run (start (Fin 2)) tr ∧ tr.map Prod.fst = session ∧
      (System.Always Exact (start (Fin 2)) tr ↔ System.Along MoveOk (start (Fin 2)) tr) := by
  obtain ⟨tr, hrun, hacts⟩ := exists_session
  exact ⟨tr, hrun, hacts, disable_count_iff hrun⟩

end

end QuickDevSkeleton.IrqDisable
