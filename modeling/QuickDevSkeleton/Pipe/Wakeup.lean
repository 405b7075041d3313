import QuickDevSkeleton.Pipe.Exclusion

/-!
# Wakeups in the pipe

A process that has found its condition false and is going to sleep, or sleeps, must not be
left alone when the condition becomes true: somebody must still owe its queue a `wake_up`.
Reads and writes pay that debt. `PIPE_RESET` empties the pipe and wakes nobody, so it loses
the wakeup of a writer that sleeps because the pipe was full.
-/

namespace QuickDevSkeleton.Pipe

open Foundations

/-- What the processes on a queue wait for. -/
def Queue.ready (dev : Mydev) : Queue → Prop
  | .readq => dev.wp ≠ dev.rp
  | .writeq => dev.spacefree ≠ 0

/-- A process that sleeps on `Q`, or is about to, and that no `wake_up` has reached. -/
structure Proc.Dozes (Q : Queue) (pr : Proc) : Prop where
  down : pr.pc = .falling ∨ pr.pc = .asleep
  unwoken : pr.woken = false
  queue : pr.call.sleepsOn = some Q

/-- A process on its way to `wake_up(&Q)`. -/
def Proc.Owes (Q : Queue) (pr : Proc) : Prop :=
  (∃ r, pr.pc = .wake Q r) ∨ ∃ r, pr.pc = .up r ∧ pr.call.afterUp r = .wake Q r

namespace World

/-- Whoever dozes on `Q` while the condition of `Q` is true is owed a `wake_up`. -/
def Served (w : World) (Q : Queue) : Prop :=
  (∃ q, (w.procs q).Dozes Q) → Q.ready w.dev → ∃ r, (w.procs r).Owes Q

/-- A process sleeps on a queue whose condition is true, `mysem` is free, and no process is
between its `up` and its `wake_up`. -/
def LostWakeup (w : World) : Prop :=
  w.mysem ≠ 0 ∧ (∀ p Q r, (w.procs p).pc ≠ .wake Q r) ∧
    ∃ p, (w.procs p).pc = .asleep ∧ (w.procs p).woken = false ∧
      ((w.procs p).call.sleepsOn = some .writeq ∧ 0 < w.dev.spacefree ∨
        (w.procs p).call.sleepsOn = some .readq ∧ w.dev.wp ≠ w.dev.rp)

/-- The invariant of the processes on a pipe. -/
structure Attended (w : World) : Prop where
  exclusive : w.Exclusive
  wf : w.dev.Wf
  served : ∀ Q, w.Served Q

end World

/-- A process is at the reset of `PIPE_RESET` only when nobody dozes on `writeq`, or somebody
is on the way to wake that queue. -/
def ResetOk (w : World) (a : ℕ × Act) : Prop :=
  (w.procs a.1).pc = .locked → (w.procs a.1).call.sleepsOn = none →
    (∃ q, (w.procs q).Dozes .writeq) → ∃ r, (w.procs r).Owes .writeq

/-! ### Dozing and owing -/

/-- A process at `wake_up(&Q)`. -/
def Pc.wakes (Q : Queue) : Pc → Bool
  | .wake Q' _ => Q' = Q
  | _ => false

lemma Proc.owes_of_wakes {Q : Queue} {pr : Proc} (h : pr.pc.wakes Q = true) : pr.Owes Q := by
  cases hpc : pr.pc with
  | wake Q' r =>
    rw [hpc, Pc.wakes, decide_eq_true_eq] at h
    exact Or.inl ⟨r, h ▸ hpc⟩
  | _ =>
    rw [hpc] at h
    cases h

section

variable {pr : Proc} {Q : Queue}

lemma Call.ready_iff {c : Call} {dev : Mydev} (h : c.sleepsOn = some Q) :
    c.ready dev = true ↔ Q.ready dev := by
  cases c with
  | read count c =>
    cases h
    simp [Call.ready, Queue.ready]
  | write data c =>
    cases h
    simp [Call.ready, Queue.ready]
  | ioctl cmd => cases h

lemma Proc.not_dozes_of_not_queued (h : pr.pc.queued = false) : ¬ pr.Dozes Q := by
  rintro ⟨hpc | hpc, -, -⟩ <;> simp [hpc, Pc.queued] at h

lemma Proc.not_owes_of_walks (h : pr.pc.walks = true) : ¬ pr.Owes Q := by
  rintro (⟨r, hpc⟩ | ⟨r, hpc, -⟩) <;> simp [hpc, Pc.walks] at h

lemma Proc.not_owes_of_eq {pc : Pc} (h : pr.pc = pc) (hw : ∀ q r, pc ≠ .wake q r)
    (hu : ∀ r, pc ≠ .up r) : ¬ pr.Owes Q := by
  rintro (⟨r, hpc⟩ | ⟨r, hpc, -⟩)
  · exact hw Q r (h.symm.trans hpc)
  · exact hu r (h.symm.trans hpc)

end

namespace World

variable {w w' : World} {p : ℕ} {Q : Queue}

/-- A move of one process that leaves the device alone, starts no doze and drops no debt. -/
lemma Served.frame {pr : Proc} (h : w.Served Q) (hdev : w'.dev = w.dev)
    (hprocs : w'.procs = Function.update w.procs p pr)
    (hdoze : pr.Dozes Q → (w.procs p).Dozes Q) (howe : (w.procs p).Owes Q → pr.Owes Q) :
    w'.Served Q := by
  rintro ⟨q, hq⟩ hready
  rw [hdev] at hready
  have hq' : (w.procs q).Dozes Q := by
    rw [hprocs] at hq
    by_cases hqp : q = p
    · subst hqp
      rw [Function.update_self] at hq
      exact hdoze hq
    · rwa [Function.update_of_ne hqp] at hq
  obtain ⟨r, hr⟩ := h ⟨q, hq'⟩ hready
  refine ⟨r, ?_⟩
  rw [hprocs]
  by_cases hrp : r = p
  · subst hrp
    rw [Function.update_self]
    exact howe hr
  · rwa [Function.update_of_ne hrp]

/-- `wake_up(&q)` leaves nobody dozing on `q` and does not disturb the other queue. -/
lemma Served.wake {q : Queue} {r : Reply} (h : w.Served Q) (hpc : (w.procs p).pc = .wake q r) :
    ((w.wake_up q).goto p (.ret r)).Served Q := by
  have hdoze : ∀ x, (((w.wake_up q).goto p (.ret r)).procs x).Dozes Q →
      Q ≠ q ∧ (w.procs x).Dozes Q := by
    intro x hx
    by_cases hxp : x = p
    · subst hxp
      exact absurd hx (Proc.not_dozes_of_not_queued (by rw [pc_goto_self]; rfl))
    · rw [goto_other hxp] at hx
      obtain ⟨hdown, hun, hqueue⟩ := hx
      rw [wake_up_pc] at hdown
      rw [wake_up_call] at hqueue
      refine ⟨?_, ⟨hdown, woken_of_wake_up hun, hqueue⟩⟩
      rintro rfl
      have hqd : (w.procs x).pc.queued = true := by
        rcases hdown with h | h <;> rw [h] <;> rfl
      rw [wake_up_woken hqd hqueue] at hun
      cases hun
  rintro ⟨x, hx⟩ hready
  obtain ⟨hne, hx'⟩ := hdoze x hx
  obtain ⟨y, hy⟩ := h ⟨x, hx'⟩ hready
  have hyp : y ≠ p := by
    rintro rfl
    rcases hy with ⟨r', hy⟩ | ⟨r', hy, -⟩
    · rw [hpc] at hy
      cases hy
      exact hne rfl
    · rw [hpc] at hy
      cases hy
  refine ⟨y, ?_⟩
  rw [goto_other hyp]
  rcases hy with ⟨r', hy⟩ | ⟨r', hy, hup⟩
  · exact Or.inl ⟨r', by rw [wake_up_pc, hy]⟩
  · exact Or.inr ⟨r', by rw [wake_up_pc, hy], by rw [wake_up_call, hup]⟩

/-- The work under `mysem`: whoever it makes ready is owed a `wake_up`, by somebody else
already or by the process that did the work. -/
lemma Served.work {dev : Mydev} {pc : Pc} (h : w.Served Q) (hlocked : (w.procs p).pc = .locked)
    (hpc : pc.queued = false)
    (howed : (∃ q, (w.procs q).Dozes Q) → Q.ready dev →
      Q.ready w.dev ∨ (∃ r, (w.procs r).Owes Q) ∨ Proc.Owes Q { w.procs p with pc := pc }) :
    ({ w with dev := dev }.goto p pc).Served Q := by
  rintro ⟨x, hx⟩ hready
  have hxp : x ≠ p := by
    rintro rfl
    exact Proc.not_dozes_of_not_queued (by rwa [pc_goto_self]) hx
  rw [goto_other hxp] at hx
  have hother : (∃ r, (w.procs r).Owes Q) →
      ∃ r, ((({ w with dev := dev } : World).goto p pc).procs r).Owes Q := by
    rintro ⟨r, hr⟩
    have hrp : r ≠ p := by
      rintro rfl
      exact Proc.not_owes_of_eq hlocked (by simp) (by simp) hr
    exact ⟨r, by rwa [goto_other hrp]⟩
  rcases howed ⟨x, hx⟩ hready with hw | hr | hp
  · exact hother (h ⟨x, hx⟩ hw)
  · exact hother hr
  · exact ⟨p, by rwa [goto_self]⟩

end World

/-! ### The work of each call -/

/-- Whether a queue is ready depends on the bytes in the pipe only. -/
lemma Queue.ready_iff {dev : Mydev} (h : dev.Wf) (Q : Queue) :
    Q.ready dev ↔ match Q with
      | .readq => dev.queue ≠ []
      | .writeq => dev.queue.length < BUF_LEN - 1 := by
  cases Q with
  | readq => exact not_congr (Mydev.queue_eq_nil_iff h).symm
  | writeq =>
    simp only [Queue.ready, Mydev.spacefree_eq h]
    omega

lemma Queue.ready_congr {dev dev' : Mydev} (h : dev.Wf) (h' : dev'.Wf)
    (hq : dev'.queue = dev.queue) (Q : Queue) : Q.ready dev' ↔ Q.ready dev := by
  rw [Queue.ready_iff h, Queue.ready_iff h', hq]

/-- A read or a write under `mysem` either has to wait, or fails and leaves the bytes alone,
or owes the other queue a `wake_up`. -/
lemma Mydev.call_cases {dev : Mydev} {c : Call} {Q : Queue} (h : dev.Wf)
    (hQ : c.sleepsOn = some Q) :
    dev.call c = (dev, ⟨none, []⟩) ∨
      Q.ready dev ∧ ∃ dev' r, dev.call c = (dev', r) ∧ dev'.Wf ∧ r.ret ≠ none ∧
        (dev'.queue = dev.queue ∨ ∀ Q', Q' ≠ Q → c.afterUp r = .wake Q' r) := by
  cases c with
  | read count c =>
    cases hQ
    simp only [Mydev.call, Mydev.my_read]
    split_ifs with hempty
    · exact Or.inl rfl
    · refine Or.inr ⟨hempty, ?_⟩
      rcases readSection_cases h hempty count c with ⟨heq, -⟩ | ⟨n, d, heq, hwf, -⟩
      · exact ⟨_, _, heq, h, by simp, Or.inl rfl⟩
      · refine ⟨_, _, heq, hwf, by simp, Or.inr fun Q' hQ' => ?_⟩
        have hn : ((n : ℤ) : ℤ) ≠ -EFAULT := by simp only [EFAULT]; omega
        cases Q' with
        | readq => exact absurd rfl hQ'
        | writeq => simp [Call.afterUp, hn]
  | write data c =>
    cases hQ
    simp only [Mydev.call, Mydev.my_write]
    split_ifs with hfull
    · exact Or.inl rfl
    · refine Or.inr ⟨hfull, ?_⟩
      rcases writeSection_cases h hfull data c with ⟨d, heq, hwf, hq, -⟩ | ⟨n, d, heq, hwf, -⟩
      · exact ⟨_, _, heq, hwf, by simp, Or.inl hq⟩
      · refine ⟨_, _, heq, hwf, by simp, Or.inr fun Q' hQ' => ?_⟩
        have hn : ((n : ℤ) : ℤ) ≠ -EFAULT := by simp only [EFAULT]; omega
        cases Q' with
        | readq => simp [Call.afterUp, hn]
        | writeq => exact absurd rfl hQ'
  | ioctl cmd => cases hQ

/-- An `ioctl` under `mysem` empties the pipe or leaves it alone. -/
lemma Mydev.ioctl_cases (dev : Mydev) (cmd : ℕ) :
    ∃ dev' r, dev.call (.ioctl cmd) = (dev', r) ∧ r.ret ≠ none ∧
      (dev' = dev ∨ dev' = dev.reset) := by
  simp only [Mydev.call, Mydev.my_ioctl]
  split_ifs
  · exact ⟨_, _, rfl, by simp, Or.inl rfl⟩
  · exact ⟨_, _, rfl, by simp, Or.inr rfl⟩
  · exact ⟨_, _, rfl, by simp, Or.inl rfl⟩

namespace World

variable {w w' : World} {p : ℕ}

lemma critical_eq {dev : Mydev} {r : Reply} (h : w.dev.call (w.procs p).call = (dev, r)) :
    w.critical p = { w with dev := dev }.goto p (if r.ret = none then .unlock else .up r) := by
  simp only [critical, h]

/-- The work under `mysem` keeps the device well formed and every dozing process attended. -/
lemma Attended.critical (h : w.Attended) (hlocked : (w.procs p).pc = .locked) (a : Act)
    (hok : ResetOk w (p, a)) : (w.critical p).dev.Wf ∧ ∀ Q, (w.critical p).Served Q := by
  cases hQ : (w.procs p).call.sleepsOn with
  | some Q =>
    rcases Mydev.call_cases h.wf hQ with hwait | ⟨hready, dev, r, heq, hwf, hret, hdone⟩
    · rw [critical_eq hwait, if_pos rfl]
      exact ⟨h.wf, fun Q' => (h.served Q').work hlocked rfl fun _ hr => Or.inl hr⟩
    · rw [critical_eq heq, if_neg hret]
      refine ⟨hwf, fun Q' => (h.served Q').work hlocked rfl fun _ hr => ?_⟩
      by_cases hQ' : Q' = Q
      · exact Or.inl (hQ' ▸ hready)
      · rcases hdone with hsame | hwake
        · exact Or.inl ((Queue.ready_congr h.wf hwf hsame Q').mp hr)
        · exact Or.inr (Or.inr (Or.inr ⟨r, rfl, hwake Q' hQ'⟩))
  | none =>
    cases hcall : (w.procs p).call with
    | read | write => simp [hcall, Call.sleepsOn] at hQ
    | ioctl cmd =>
      obtain ⟨dev, r, heq, hret, hdev⟩ := w.dev.ioctl_cases cmd
      rw [← hcall] at heq
      rw [critical_eq heq, if_neg hret]
      rcases hdev with rfl | rfl
      · exact ⟨h.wf, fun Q' => (h.served Q').work hlocked rfl fun _ hr => Or.inl hr⟩
      · refine ⟨Mydev.reset_wf h.wf, fun Q' => (h.served Q').work hlocked rfl fun hd hr => ?_⟩
        cases Q' with
        | readq => exact absurd rfl hr
        | writeq => exact Or.inr (Or.inl (hok hlocked hQ hd))

/-- Every action keeps the invariant, except a reset while a writer dozes unattended. -/
lemma Attended.next {a : ℕ × Act} (h : w.Attended) (hok : ResetOk w a)
    (hnext : w.next a.1 a.2 = some w') : w'.Attended := by
  obtain ⟨p, act⟩ := a
  have hm := next_moves hnext
  have hex := h.exclusive.moves hm
  cases hm with
  | work hpc =>
    obtain ⟨hwf, hserved⟩ := h.critical hpc act hok
    exact ⟨hex, hwf, hserved⟩
  | wake q r hpc => exact ⟨hex, h.wf, fun Q => (h.served Q).wake hpc⟩
  | start c hpc =>
    refine ⟨hex, h.wf, fun Q => (h.served Q).frame rfl rfl ?_ ?_⟩
    · exact fun hd => absurd hd (Proc.not_dozes_of_not_queued c.entry_walks.2)
    · exact fun ho => absurd ho (Proc.not_owes_of_walks (by rw [hpc]; rfl))
  | take hpc hfree =>
    refine ⟨hex, h.wf, fun Q => (h.served Q).frame rfl rfl ?_ ?_⟩
    · exact fun hd => absurd hd (Proc.not_dozes_of_not_queued rfl)
    · exact fun ho => absurd ho (Proc.not_owes_of_walks (by rw [hpc]; rfl))
  | release hpc =>
    refine ⟨hex, h.wf, fun Q => (h.served Q).frame rfl rfl ?_ ?_⟩
    · exact fun hd => absurd hd (Proc.not_dozes_of_not_queued rfl)
    · exact fun ho => absurd ho (Proc.not_owes_of_eq hpc (by simp) (by simp))
  | done r hpc =>
    refine ⟨hex, h.wf, fun Q => (h.served Q).frame rfl rfl ?_ ?_⟩
    · refine fun hd => absurd hd (Proc.not_dozes_of_not_queued ?_)
      cases (w.procs p).call <;> simp only [Call.afterUp] <;> (try split) <;> rfl
    · -- the debt moves from before the `up` to after it
      rintro (⟨r', hr'⟩ | ⟨r', hr', hup⟩)
      · rw [hpc] at hr'
        cases hr'
      · rw [hpc] at hr'
        cases hr'
        exact Or.inl ⟨r, hup⟩
  | enqueue hpc =>
    refine ⟨hex, h.wf, fun Q => (h.served Q).frame rfl rfl ?_ ?_⟩
    · rintro ⟨hd | hd, -, -⟩ <;> cases hd
    · exact fun ho => absurd ho (Proc.not_owes_of_walks (by rw [hpc]; rfl))
  | fall hpc hcond =>
    refine ⟨hex, h.wf, fun Q => ?_⟩
    by_cases hQ : (w.procs p).call.sleepsOn = some Q
    · -- the condition of `Q` was just found false
      intro _ hready
      rw [goto_dev, ← Call.ready_iff hQ, hcond] at hready
      cases hready
    · refine (h.served Q).frame rfl rfl ?_ ?_
      · exact fun hd => absurd hd.queue hQ
      · exact fun ho => absurd ho (Proc.not_owes_of_walks (by rw [hpc]; rfl))
  | sleep hpc hw =>
    refine ⟨hex, h.wf, fun Q => (h.served Q).frame rfl rfl ?_ ?_⟩
    · exact fun hd => ⟨Or.inl hpc, hw, hd.queue⟩
    · exact fun ho => absurd ho (Proc.not_owes_of_walks (by rw [hpc]; rfl))
  | walk pc hfrom hto hq =>
    refine ⟨hex, h.wf, fun Q => (h.served Q).frame rfl rfl ?_ ?_⟩
    · exact fun hd => absurd hd (Proc.not_dozes_of_not_queued hq)
    · exact fun ho => absurd ho (Proc.not_owes_of_walks hfrom)

lemma Attended.init (mem : Memory UInt8) (start : ℕ) : (World.init mem start).Attended where
  exclusive := Exclusive.init mem start
  wf := Mydev.my_init_wf mem start
  served Q := by
    rintro ⟨q, hq⟩ -
    exact absurd hq (Proc.not_dozes_of_not_queued rfl)

/-- An attended sleeper is not lost: its waker is before its `up` or before its `wake_up`. -/
lemma Attended.not_lostWakeup (h : w.Attended) : ¬ w.LostWakeup := by
  rintro ⟨hfree, hnowake, p, hpc, hun, hcond⟩
  have howed : ∃ Q r, (w.procs r).Owes Q := by
    rcases hcond with ⟨hq, hready⟩ | ⟨hq, hready⟩
    · exact ⟨.writeq, h.served .writeq ⟨p, Or.inr hpc, hun, hq⟩ hready.ne'⟩
    · exact ⟨.readq, h.served .readq ⟨p, Or.inr hpc, hun, hq⟩ hready⟩
  obtain ⟨Q, r, hwake | hup⟩ := howed
  · obtain ⟨rep, hrep⟩ := hwake
    exact hnowake r Q rep hrep
  · obtain ⟨rep, hrep, -⟩ := hup
    exact hfree (h.exclusive.taken r (by rw [hrep]; rfl))

end World

/-- In every run of any number of processes in which no reset happens while a writer dozes
unattended, no wakeup is lost. -/
theorem no_lost_wakeup (mem : Memory UInt8) (start : ℕ) {tr : List ((ℕ × Act) × World)}
    (hrun : processes.Run (World.init mem start) tr)
    (hok : System.Along ResetOk (World.init mem start) tr) :
    System.Always (fun w => ¬ w.LostWakeup) (World.init mem start) tr := by
  have hstep : ∀ w a w', w.Attended → ResetOk w a → processes.step w a w' → w'.Attended :=
    fun _ _ _ h hok hs => h.next hok hs
  have hinv := System.Run.always_of_along hstep hrun (World.Attended.init mem start) hok
  exact hinv.mono fun w h => h.not_lostWakeup

/-- Whenever a process is at its reset, process `r` is about to wake `writeq`. -/
def ResetBefore (r : ℕ) (w : World) (a : ℕ × Act) : Prop :=
  (w.procs a.1).pc = .locked → (w.procs a.1).call.sleepsOn = none →
    (w.procs r).pc.wakes .writeq = true

instance {r : ℕ} {w : World} {a : ℕ × Act} : Decidable (ResetBefore r w a) :=
  inferInstanceAs (Decidable (_ → _ → _))

lemma ResetBefore.resetOk {r : ℕ} {w : World} {a : ℕ × Act} (h : ResetBefore r w a) :
    ResetOk w a :=
  fun hlocked hreset _ => ⟨r, Proc.owes_of_wakes (h hlocked hreset)⟩

/-- Process 0 fills the pipe and process 1 finds it full and goes to sleep. Process 2 reads a byte,
and process 3 resets the pipe before process 2 comes to its `wake_up`. Process 1 is woken and writes
its byte. -/
def sleepResetWake : List (ℕ × Act) :=
  (0, .start (.write (List.replicate 99 0) ⟨99, false⟩)) :: List.replicate 5 (0, .step) ++
  (1, .start (.write [65] ⟨1, false⟩)) :: List.replicate 7 (1, .step) ++
  (2, .start (.read 1 ⟨1, false⟩)) :: List.replicate 3 (2, .step) ++
  (3, .start (.ioctl PIPE_RESET)) :: List.replicate 4 (3, .step) ++
  List.replicate 2 (2, .step) ++ List.replicate 8 (1, .step)

theorem no_lost_wakeup_reset :
    ∃ tr, processes.Run (World.init (fun _ => 0) 1000) tr ∧ tr.map Prod.fst = sleepResetWake ∧
      System.Always (fun w => ¬ w.LostWakeup) (World.init (fun _ => 0) 1000) tr := by
  have hsome : (System.final (System.checked (fun w a => World.next w a.1 a.2) (ResetBefore 2))
      (World.init (fun _ => 0) 1000) sleepResetWake).isSome := by
    decide +kernel
  obtain ⟨tr, hrun, hacts, halong⟩ := System.exists_run_along hsome
  exact ⟨tr, hrun, hacts,
    no_lost_wakeup (fun _ => 0) 1000 hrun (halong.mono fun _ _ h => h.resetOk)⟩

/-! ### The wakeup that a reset loses -/

/-- A process moves itself only. -/
lemma World.next_other {w w' : World} {p q : ℕ} {a : Act} (h : w.next p a = some w')
    (hq : q ≠ p) : (w'.procs q).pc = (w.procs q).pc := by
  cases World.next_moves h with
  | start | enqueue => simp [hq]
  | take | release | done | fall | sleep | walk => rw [World.goto_other hq]
  | work hpc =>
    rw [World.critical_eq rfl, World.goto_other hq]
  | wake Q r hpc => rw [World.goto_other hq, World.wake_up_pc]

lemma World.final_other {w w' : World} {as : List (ℕ × Act)} {q : ℕ}
    (h : System.final (fun w a => World.next w a.1 a.2) w as = some w')
    (hq : ∀ a ∈ as, q ≠ a.1) : (w'.procs q).pc = (w.procs q).pc := by
  induction as generalizing w with
  | nil =>
    cases h
    rfl
  | cons a as ih =>
    obtain ⟨u, hu, hfin⟩ := Option.bind_eq_some_iff.mp h
    rw [ih hfin fun b hb => hq b (List.mem_cons_of_mem a hb)]
    exact World.next_other hu (hq a List.mem_cons_self)

/-- Process 0 fills the pipe, process 1 finds it full and goes to sleep, process 2 resets it. -/
def fillSleepReset : List (ℕ × Act) :=
  (0, .start (.write (List.replicate 99 0) ⟨99, false⟩)) :: List.replicate 5 (0, .step) ++
  (1, .start (.write [0] ⟨1, false⟩)) :: List.replicate 7 (1, .step) ++
  (2, .start (.ioctl PIPE_RESET)) :: List.replicate 4 (2, .step)

/-- What `LostWakeup` asks of processes 0, 1 and 2. -/
def World.summary (w : World) : List Pc × Bool × ℕ × ℕ :=
  ([(w.procs 0).pc, (w.procs 1).pc, (w.procs 2).pc], (w.procs 1).woken, w.mysem, w.dev.spacefree)

/-- After a reset of a full pipe, a writer sleeps on although there is room. -/
theorem reset_loses_wakeup :
    ∃ tr, processes.Run (World.init (fun _ => 0) 1000) tr ∧
      ¬ System.Always (fun w => ¬ w.LostWakeup) (World.init (fun _ => 0) 1000) tr := by
  have hsum : (System.final (fun w a => World.next w a.1 a.2) (World.init (fun _ => 0) 1000)
      fillSleepReset).map World.summary = some ([.idle, .asleep, .idle], false, 1, 99) := by
    decide +kernel
  have hqueue : (System.final (fun w a => World.next w a.1 a.2) (World.init (fun _ => 0) 1000)
      fillSleepReset).map (fun w => (w.procs 1).call.sleepsOn) = some (some .writeq) := by
    decide +kernel
  cases hfin : System.final (fun w a => World.next w a.1 a.2) (World.init (fun _ => 0) 1000)
      fillSleepReset with
  | none => simp [hfin] at hsum
  | some w =>
    simp only [hfin, Option.map_some, Option.some.injEq, World.summary, Prod.mk.injEq,
      List.cons.injEq, and_true] at hsum hqueue
    obtain ⟨⟨h0, h1, h2⟩, hun, hsem, hfree⟩ := hsum
    obtain ⟨tr, hrun, -, hlast⟩ := System.exists_run_of_final hfin
    refine ⟨tr, hrun, fun hno => hlast _ hno ⟨by rw [hsem]; decide, ?_, 1, h1, hun,
      Or.inl ⟨hqueue, by rw [hfree]; decide⟩⟩⟩
    intro p Q r
    by_cases hp : p ∈ [0, 1, 2]
    · simp only [List.mem_cons, List.not_mem_nil, or_false] at hp
      rcases hp with rfl | rfl | rfl
      · simp [h0]
      · simp [h1]
      · simp [h2]
    · have hidle : (w.procs p).pc = .idle := by
        refine World.final_other hfin fun a ha => ?_
        rintro rfl
        simp only [fillSleepReset, List.mem_append, List.mem_cons, List.mem_replicate] at ha
        apply hp
        rcases ha with ((rfl | ⟨-, rfl⟩) | rfl | ⟨-, rfl⟩) | rfl | ⟨-, rfl⟩ <;> simp
      simp [hidle]

end QuickDevSkeleton.Pipe
