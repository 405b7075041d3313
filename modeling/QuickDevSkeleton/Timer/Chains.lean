import QuickDevSkeleton.Timer.Device

/-!
# The chains of expirations

A chain starts when a read finds the timer at rest, and has one expiration for each count of the
data field. Only a read that sets the timer up in the middle of a chain, or a module exit there,
can spoil it.
-/

namespace QuickDevSkeleton.Timer

open Foundations

/-- No pending timer was set up, no expiration came after `my_exit`, and every read is followed by
exactly 100 expirations before the timer stops. -/
structure Lifetime (w : World) : Prop where
  setup : w.reinitialised = false
  exit : w.expired_late = false
  most : ∀ r ∈ w.reads, r.expirations ≤ CHAIN
  stopped : ∀ r ∈ w.reads, r.stopped = true → r.expirations = CHAIN
  /-- A timer that is not queued, and that nobody is about to queue, has stopped itself. -/
  alive : w.my_timer.pending = false → w.funcs = [] → ∀ r ∈ w.reads, r.stopped = true

/-- The timer is not queued, and `timer_func` is not running. -/
def World.AtRest (w : World) : Prop :=
  w.my_timer.pending = false ∧ w.funcs = []

instance (w : World) : Decidable w.AtRest :=
  inferInstanceAs (Decidable (_ ∧ _))

/-- A read sets the timer up at rest, and starts it before an expiration has come in between; the
module is unloaded with the timer at rest. -/
def ChainOk (w : World) : Action → Prop
  | .my_proc i => match w.procs[i]? with
    | some .setup_timer => w.AtRest
    | _ => w.my_timer.data = CHAIN ∧ w.funcs = []
  | .my_exit => w.AtRest
  | _ => True

instance (w : World) (a : Action) : Decidable (ChainOk w a) := by
  cases a with
  | my_proc i =>
    simp only [ChainOk]
    split
    · exact inferInstance
    · exact inferInstance
  | read | expire | timer_func | my_exit =>
    simp only [ChainOk]
    exact inferInstance

/-! ### The invariant -/

/-- Every read since the timer was at rest has been followed by `n` expirations. -/
def Counted (w : World) (n : ℕ) : Prop :=
  ∀ r ∈ w.reads, r.stopped = false → r.expirations = n

/-- Where a chain is. -/
inductive Phase (w : World) : Prop where
  | rest (hp : w.my_timer.pending = false) (hf : w.funcs = [])
      (h : ∀ r ∈ w.reads, r.stopped = true)
  | queued (n : ℕ) (hp : w.my_timer.pending = true) (hf : w.funcs = []) (hn : n < CHAIN)
      (hdata : w.my_timer.data + n = CHAIN) (h : Counted w n)
  | running (n data : ℕ) (hp : w.my_timer.pending = false) (hf : w.funcs = [.store data])
      (hn : n < CHAIN) (hdata : data + n = CHAIN) (h : Counted w (n + 1))
  | rearming (n : ℕ) (hp : w.my_timer.pending = false) (hf : w.funcs = [.mod_timer])
      (hn : n < CHAIN) (hdata : w.my_timer.data + n = CHAIN) (h : Counted w n)

/-- The invariant of runs without interference. -/
structure Inv (w : World) : Prop where
  setup : w.reinitialised = false
  exit : w.expired_late = false
  stopped : ∀ r ∈ w.reads, r.stopped = true → r.expirations = CHAIN
  phase : Phase w
  unloaded : w.loaded = false → w.procs = [] ∧ w.AtRest

namespace Inv

variable {w w' : World}

lemma init : Inv World.init where
  setup := rfl
  exit := rfl
  stopped r hr := by cases hr
  phase := .rest rfl rfl fun r hr => by cases hr
  unloaded h := by cases h

lemma lifetime (h : Inv w) : Lifetime w where
  setup := h.setup
  exit := h.exit
  most r hr := by
    cases hstop : r.stopped with
    | true => exact Nat.le_of_eq (h.stopped r hr hstop)
    | false =>
      cases h.phase with
      | rest _ _ hall => rw [hall r hr] at hstop; cases hstop
      | queued n _ _ hn _ hc => exact hc r hr hstop ▸ Nat.le_of_lt hn
      | running n data _ _ hn _ hc => exact hc r hr hstop ▸ hn
      | rearming n _ _ hn _ hc => exact hc r hr hstop ▸ Nat.le_of_lt hn
  stopped := h.stopped
  alive hp hf := by
    cases h.phase with
    | rest _ _ hall => exact hall
    | queued _ hp' => rw [hp] at hp'; cases hp'
    | running _ _ _ hf' => rw [hf] at hf'; cases hf'
    | rearming _ _ hf' => rw [hf] at hf'; cases hf'

/-- At rest, all reads have had their expirations. -/
lemma all_stopped (h : Inv w) (hrest : w.AtRest) : ∀ r ∈ w.reads, r.stopped = true :=
  h.lifetime.alive hrest.1 hrest.2

/-- A loaded module, since something goes on. -/
lemma loaded (h : Inv w) (hbusy : ¬ (w.procs = [] ∧ w.AtRest)) : w.loaded = true := by
  by_contra hno
  exact hbusy (h.unloaded (Bool.eq_false_iff.mpr hno))

/-- A read sets the timer up at rest. -/
lemma setup_timer (h : Inv w) {i : ℕ} (hi : w.procs[i]? = some .setup_timer) (hrest : w.AtRest) :
    Inv { w.setup_timer with procs := w.procs.set i .mod_timer } where
  setup := by
    change (w.reinitialised || w.my_timer.pending) = false
    rw [h.setup, hrest.1]
    rfl
  exit := h.exit
  stopped := h.stopped
  phase := .rest rfl hrest.2 (h.all_stopped hrest)
  unloaded hno := by
    have hnil := (h.unloaded hno).1
    rw [hnil] at hi
    cases hi

/-- A read starts the timer that it, or another read, has set up. -/
lemma mod_timer (h : Inv w) {i : ℕ} (hi : w.procs[i]? = some .mod_timer)
    (hdata : w.my_timer.data = CHAIN) (hf : w.funcs = []) :
    Inv { w.mod_timer with procs := w.procs.eraseIdx i, reads := w.reads ++ [⟨0, false⟩] } where
  setup := h.setup
  exit := h.exit
  stopped r hr hstop := by
    rcases List.mem_append.mp hr with hold | hnew
    · exact h.stopped r hold hstop
    · rw [List.mem_singleton.mp hnew] at hstop
      cases hstop
  phase := by
    refine .queued 0 rfl hf (by decide) hdata fun r hr hstop => ?_
    rcases List.mem_append.mp hr with hold | hnew
    · cases h.phase with
      | rest _ _ hall => rw [hall r hold] at hstop; cases hstop
      | queued n _ _ _ hdata' hc =>
        rw [hc r hold hstop]
        omega
      | running _ _ _ hf' => rw [hf] at hf'; cases hf'
      | rearming _ _ hf' => rw [hf] at hf'; cases hf'
    · rw [List.mem_singleton.mp hnew]
  unloaded hno := by
    have hnil := (h.unloaded hno).1
    rw [hnil] at hi
    cases hi

lemma expire_stopped (r : Read) : r.expire.stopped = r.stopped := by
  rw [Read.expire]
  split <;> rfl

lemma expire (h : Inv w) (hp : w.my_timer.pending = true) : Inv w.expire where
  setup := h.setup
  exit := by
    have hloaded := h.loaded fun hno => by
      rw [hno.2.1] at hp
      cases hp
    change (w.expired_late || !w.loaded) = false
    rw [h.exit, hloaded]
    rfl
  stopped r hr hstop := by
    obtain ⟨r', hr', rfl⟩ := List.mem_map.mp hr
    rw [expire_stopped] at hstop
    rw [Read.expire, if_pos hstop]
    exact h.stopped r' hr' hstop
  phase := by
    cases h.phase with
    | rest hp' => rw [hp] at hp'; cases hp'
    | queued n _ hf hn hdata hc =>
      refine .running n w.my_timer.data rfl ?_ hn hdata fun r hr hstop => ?_
      · change w.funcs ++ _ = _
        rw [hf]
        rfl
      · obtain ⟨r', hr', rfl⟩ := List.mem_map.mp hr
        rw [expire_stopped] at hstop
        rw [Read.expire, if_neg (by rw [hstop]; decide)]
        exact congrArg (· + 1) (hc r' hr' hstop)
    | running _ _ hp' => rw [hp] at hp'; cases hp'
    | rearming _ hp' => rw [hp] at hp'; cases hp'
  unloaded hno := by
    have hrest := (h.unloaded hno).2.1
    rw [hp] at hrest
    cases hrest

lemma decrement_eq {data : ℕ} (hpos : 0 < data) (hlt : data ≤ CHAIN) :
    decrement data = data - 1 := by
  rw [decrement]
  rw [CHAIN] at hlt
  omega

/-- `timer_func` stores its argument, counted down, and goes on or stops the timer. -/
lemma store (h : Inv w) {i data : ℕ} (hi : w.funcs[i]? = some (.store data)) :
    Inv (w.store i data) := by
  have hloaded := h.loaded fun hno => by
    rw [hno.2.2] at hi
    cases hi
  cases h.phase with
  | rest _ hf => rw [hf] at hi; cases hi
  | queued _ _ hf => rw [hf] at hi; cases hi
  | rearming _ _ hf =>
    rw [hf] at hi
    cases i with
    | zero => cases hi
    | succ i => cases hi
  | running n data' hp hf hn hdata hc =>
    rw [hf] at hi
    cases i with
    | succ i => cases hi
    | zero =>
      cases hi
      have hdec : decrement data = data - 1 := decrement_eq (by omega) (by omega)
      rw [World.store, hdec]
      dsimp only
      split_ifs with hmore
      · exact {
          setup := h.setup
          exit := h.exit
          stopped := h.stopped
          phase := .rearming (n + 1) hp (by rw [hf]; rfl) (by omega)
            (by change data - 1 + (n + 1) = _; omega) hc
          unloaded := fun hno => nomatch hloaded.symm.trans hno }
      · exact {
          setup := h.setup
          exit := h.exit
          stopped := fun r hr hstop => by
            obtain ⟨r', hr', rfl⟩ := List.mem_map.mp hr
            cases hold : r'.stopped with
            | true => exact h.stopped r' hr' hold
            | false =>
              change r'.expirations = CHAIN
              rw [hc r' hr' hold]
              omega
          phase := .rest hp (by rw [hf]; rfl) fun r hr => by
            obtain ⟨r', -, rfl⟩ := List.mem_map.mp hr
            rfl
          unloaded := fun hno => nomatch hloaded.symm.trans hno }

/-- `timer_func` re-arms the timer. -/
lemma rearm (h : Inv w) {i : ℕ} (hi : w.funcs[i]? = some .mod_timer) :
    Inv { w.mod_timer with funcs := w.funcs.eraseIdx i } := by
  have hloaded := h.loaded fun hno => by
    rw [hno.2.2] at hi
    cases hi
  cases h.phase with
  | rest _ hf => rw [hf] at hi; cases hi
  | queued _ _ hf => rw [hf] at hi; cases hi
  | running _ _ _ hf =>
    rw [hf] at hi
    cases i with
    | zero => cases hi
    | succ i => cases hi
  | rearming n hp hf hn hdata hc =>
    rw [hf] at hi
    cases i with
    | succ i => cases hi
    | zero =>
      exact {
        setup := h.setup
        exit := h.exit
        stopped := h.stopped
        phase := .queued n rfl (by rw [hf]; rfl) hn hdata hc
        unloaded := fun hno => nomatch hloaded.symm.trans hno }

/-- Every action that meets the condition keeps the invariant. -/
lemma step {a : Action} (h : Inv w) (hok : ChainOk w a) (hstep : timers.step w a w') :
    Inv w' := by
  change w.next a = some w' at hstep
  cases a with
  | read =>
    simp only [World.next] at hstep
    split_ifs at hstep with hloaded
    cases hstep
    exact {
      setup := h.setup
      exit := h.exit
      stopped := h.stopped
      phase := by
        cases h.phase with
        | rest hp hf hc => exact .rest hp hf hc
        | queued n hp hf hn hdata hc => exact .queued n hp hf hn hdata hc
        | running n data hp hf hn hdata hc => exact .running n data hp hf hn hdata hc
        | rearming n hp hf hn hdata hc => exact .rearming n hp hf hn hdata hc
      unloaded := fun hno => nomatch hloaded.symm.trans hno }
  | my_proc i =>
    simp only [World.next, World.my_proc] at hstep
    cases hi : w.procs[i]? with
    | none => rw [hi] at hstep; cases hstep
    | some p =>
      rw [hi] at hstep
      simp only [ChainOk, hi] at hok
      cases p with
      | setup_timer =>
        cases hstep
        exact h.setup_timer hi hok
      | mod_timer =>
        cases hstep
        exact h.mod_timer hi hok.1 hok.2
  | expire =>
    simp only [World.next] at hstep
    split_ifs at hstep with hp
    cases hstep
    exact h.expire hp
  | timer_func i =>
    simp only [World.next, World.timer_func] at hstep
    cases hi : w.funcs[i]? with
    | none => rw [hi] at hstep; cases hstep
    | some f =>
      rw [hi] at hstep
      cases f with
      | store data =>
        rw [← Option.some.inj hstep]
        exact h.store hi
      | mod_timer =>
        cases hstep
        exact h.rearm hi
  | my_exit =>
    simp only [World.next] at hstep
    split_ifs at hstep with hcond
    cases hstep
    exact {
      setup := h.setup
      exit := h.exit
      stopped := h.stopped
      phase := .rest hok.1 hok.2 (h.all_stopped hok)
      unloaded := fun _ => ⟨hcond.2, hok⟩ }

end Inv

/-- In every run in which the timer is set up at rest, started before it can have expired, and left
at rest, the chains are whole. -/
theorem lifetime_of_chainOk {tr : List (Action × World)} (hr : timers.Run World.init tr)
    (hok : System.Along ChainOk World.init tr) : System.Always Lifetime World.init tr :=
  (hr.always_of_along (fun _ _ _ h hok hs => h.step hok hs) Inv.init hok).mono fun _ h =>
    h.lifetime

/-- A read, its 100 expirations, and the module exit. -/
def oneChain : List Action :=
  [.read, .my_proc 0, .my_proc 0] ++
    (List.replicate 99 [Action.expire, .timer_func 0, .timer_func 0]).flatten ++
    [.expire, .timer_func 0, .my_exit]

theorem lifetime_of_chainOk_one :
    ∃ tr, timers.Run World.init tr ∧ tr.map Prod.fst = oneChain ∧
      System.Always Lifetime World.init tr := by
  have hsome : (System.final (System.checked World.next ChainOk) World.init oneChain).isSome := by
    decide +kernel
  obtain ⟨tr, hrun, hacts, halong⟩ := System.exists_run_along hsome
  exact ⟨tr, hrun, hacts, lifetime_of_chainOk hrun halong⟩

/-- The module is unloaded right after a read, and the timer expires. -/
theorem expired_after_exit :
    ∃ tr, timers.Run World.init tr ∧
      tr.map Prod.fst = [.read, .my_proc 0, .my_proc 0, .my_exit, .expire] ∧
      ¬ System.Always Lifetime World.init tr := by
  have hlate : (System.final World.next World.init
      [.read, .my_proc 0, .my_proc 0, .my_exit, .expire]).map World.expired_late = some true := by
    decide +kernel
  refine System.exists_run_not_always hlate fun w hw hlife => ?_
  rw [hlife.exit] at hw
  cases hw

end QuickDevSkeleton.Timer
