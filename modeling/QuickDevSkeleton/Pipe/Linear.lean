import QuickDevSkeleton.Pipe.Balance

/-!
# Calls that interleave are calls one after the other

Any number of processes read, write and reset one pipe. Each call that is not refused has its
effect at one moment between its entry and its return, while it holds `mysem`, and what it returns
is what a bounded queue would return there. So the bytes go through the pipe in one order, whoever
writes and reads them. A call is refused when a signal ends it, or when it is an `ioctl` that means
nothing to the pipe.
-/

namespace QuickDevSkeleton.Pipe

open Foundations

/-- A process, its call, and what became of it. -/
abbrev Entry := ℕ × Call × Reply

/-- The calls in the order in which they had `mysem` for good, those that a signal ended, and the
returns as the callers see them. -/
structure History where
  done : List Entry
  interrupted : List Entry
  returned : List Entry

/-- A process that comes from `mysem` with its reply is done, one that a signal sends to its return
is interrupted, and one that leaves its call has returned. -/
def History.record (h : History) (w : World) (a : ℕ × Act) (w' : World) : History :=
  let c := (w.procs a.1).call
  match a.2, (w.procs a.1).pc, (w'.procs a.1).pc with
  | .step, .locked, .up r => { h with done := h.done ++ [(a.1, c, r)] }
  | .step, .ret r, _ => { h with returned := h.returned ++ [(a.1, c, r)] }
  | .signal, _, .ret r => { h with interrupted := h.interrupted ++ [(a.1, c, r)] }
  | _, _, _ => h

/-- The processes on one pipe, with the history of their calls. -/
def recorded : System (World × History) (ℕ × Act) :=
  System.ofPartial (System.observe (fun w a => w.next a.1 a.2) History.record)

/-- The history hinders nobody: every run of the processes is one of these. -/
lemma recorded_of_processes {w : World} {tr : List ((ℕ × Act) × World)}
    (hr : processes.Run w tr) :
    ∃ tr', recorded.Run (w, ⟨[], [], []⟩) tr' ∧ tr'.map (Prod.map id Prod.fst) = tr :=
  hr.observe History.record ⟨[], [], []⟩

/-- A call that returns this has not had `mysem`, or has waited in vain. -/
def Reply.refused (r : Reply) : Bool :=
  r.ret = some (-ERESTARTSYS) ∨ r.ret = some (-ENOTTY) ∨ r.ret = some (-EINVAL)

/-- The reply that a process has and has not yet returned. -/
def Pc.reply : Pc → Option Reply
  | .up r | .wake _ r | .ret r => some r
  | _ => none

/-- The call of a process that has its reply. -/
def Proc.replied (p : ℕ) (pr : Proc) : List Entry :=
  (pr.pc.reply.map fun r => (p, pr.call, r)).toList

/-- The entries of a process. -/
def entriesOf (p : ℕ) (es : List Entry) : List Entry := es.filter fun x => x.1 = p

/-- An `ioctl` that the queue refuses as well. -/
def Entry.Invalid (x : Entry) : Prop :=
  ∃ due, event x.2 = ⟨.invalid due, some (.error due), []⟩

/-- Of the calls `replied`, those that are not refused are `done`, those that return `-ERESTARTSYS`
are `interrupted`, and the rest are invalid. -/
structure Sorted (done interrupted replied : List Entry) : Prop where
  done : done = replied.filter fun x => x.2.2.refused = false
  interrupted : interrupted = replied.filter fun x => x.2.2.ret = some (-ERESTARTSYS)
  invalid : ∀ x ∈ replied, x.2.2.refused = true →
    x.2.2 = ⟨some (-ERESTARTSYS), []⟩ ∨ x.Invalid

/-- The events of the queue that were done. -/
def History.events (h : History) : List (BoundedQueue.Event UInt8 ℤ) :=
  h.done.map fun x => event x.2

/-- The interleaved calls are calls of a bounded queue. -/
structure Linear (s : World × History) : Prop where
  /-- One after the other, they lead from the empty queue to the bytes in the pipe. -/
  queue : ∃ tr, (BoundedQueue.system UInt8 (BUF_LEN - 1) (-EFAULT)).Run [] tr ∧
    tr.map Prod.fst = s.2.events ∧ System.last [] tr = s.1.dev.queue
  /-- The bytes accepted since the last reset are those delivered since then, in that order,
  followed by those in the pipe. -/
  stream : BoundedQueue.accepted s.2.events =
    BoundedQueue.delivered s.2.events ++ s.1.dev.queue
  /-- The calls of a process that have a reply, first those that have returned it: each of them was
  done, was ended by a signal or is invalid, in the order of the replies. -/
  calls : ∀ p, Sorted (entriesOf p s.2.done) (entriesOf p s.2.interrupted)
    (entriesOf p s.2.returned ++ (s.1.procs p).replied p)

/-! ### One process -/

/-- A call that goes for `mysem` needs it, and a reply that was worked out is none that refuses. -/
def Proc.Sound (pr : Proc) : Prop :=
  match pr.pc with
  | .idle | .ret _ => True
  | .up r | .wake _ r => pr.call.entry = .down ∧ r.refused = false
  | _ => pr.call.entry = .down

/-- A process in its call, before it has its reply. -/
def Pc.waits : Pc → Bool
  | .down | .locked | .unlock | .wait | .prepare | .prepared | .falling | .asleep => true
  | _ => false

lemma Proc.waits_iff {p : ℕ} {pr : Proc} (h : pr.pc.waits = true) :
    pr.replied p = [] ∧ (pr.Sound ↔ pr.call.entry = .down) := by
  cases hpc : pr.pc <;> simp_all [Proc.replied, Pc.reply, Proc.Sound, Pc.waits]

lemma not_refused_of_nonneg (n : ℕ) (bytes : List UInt8) :
    (⟨some (n : ℤ), bytes⟩ : Reply).refused = false := by
  simp only [Reply.refused, Option.some.injEq, decide_eq_false_iff_not, ERESTARTSYS, ENOTTY, EINVAL]
  omega

/-- A call that needs `mysem` is not refused once it has it. -/
lemma Call.not_refused {c : Call} (h : c.entry = .down) (dev : Mydev) :
    (dev.call c).2.refused = false := by
  cases c with
  | read count c =>
    simp only [Mydev.call, Mydev.my_read, Mydev.readSection]
    split_ifs
    · rfl
    · rfl
    · exact not_refused_of_nonneg _ _
  | write data c =>
    simp only [Mydev.call, Mydev.my_write, Mydev.writeSection]
    split_ifs
    · rfl
    · rfl
    · exact not_refused_of_nonneg _ _
  | ioctl cmd =>
    simp only [Call.entry] at h
    split_ifs at h with htype hcmd
    simp only [Mydev.call, Mydev.my_ioctl, if_neg htype, if_pos hcmd]
    rfl

/-- A call goes for `mysem`, or is refused at once since it is invalid. -/
lemma Call.entry_cases (p : ℕ) (c : Call) :
    c.entry = .down ∨
      ∃ r, c.entry = .ret r ∧ r.refused = true ∧ r.ret ≠ some (-ERESTARTSYS) ∧
        Entry.Invalid (p, c, r) := by
  cases c with
  | read | write => exact Or.inl rfl
  | ioctl cmd =>
    simp only [Call.entry]
    split_ifs with htype hcmd
    · have hne : cmd ≠ PIPE_RESET := fun heq => htype (heq ▸ rfl)
      refine Or.inr ⟨_, rfl, rfl, by decide, -ENOTTY, ?_⟩
      simp only [event, Call.request, if_neg hne, if_pos htype]
      rfl
    · exact Or.inl rfl
    · refine Or.inr ⟨_, rfl, rfl, by decide, -EINVAL, ?_⟩
      simp only [event, Call.request, if_neg hcmd, if_neg htype]
      rfl

namespace World

variable {w w' : World} {p q : ℕ} {a : Act}

/-- The others are in the calls that they were in. -/
lemma call_other (h : w.next p a = some w') (hqp : q ≠ p) :
    (w'.procs q).call = (w.procs q).call := by
  cases next_moves h with
  | start | enqueue => simp [hqp]
  | wake Q r => rw [goto_other hqp, wake_up_call]
  | work =>
    simp only [critical]
    rw [goto_other hqp]
  | take | release | done | fall | sleep | walk => rw [goto_other hqp]

/-- A process that goes on in its call. -/
lemma quiet_of_waits (hp : (w.procs p).Sound) (hfrom : (w.procs p).pc.waits = true)
    (hto : (w'.procs p).pc.waits = true) (hcall : (w'.procs p).call = (w.procs p).call) :
    (w'.procs p).replied p = (w.procs p).replied p ∧ (w'.procs p).Sound := by
  obtain ⟨hreplied, hsound⟩ := Proc.waits_iff (p := p) hfrom
  obtain ⟨hreplied', hsound'⟩ := Proc.waits_iff (p := p) hto
  exact ⟨hreplied'.trans hreplied.symm, hsound'.mpr (hcall ▸ hsound.mp hp)⟩

lemma record_of_waits (h : History) (hfrom : (w.procs p).pc.waits = true)
    (hto : (w'.procs p).pc.waits = true) : h.record w (p, a) w' = h := by
  simp only [History.record]
  split
  case h_1 r _ hpc => simp [hpc, Pc.waits] at hto
  case h_2 r _ hpc => simp [hpc, Pc.waits] at hfrom
  case h_3 r _ hpc => simp [hpc, Pc.waits] at hto
  case h_4 => rfl

end World

/-- What an action does to the call of the process that takes it. -/
inductive Progress (w : World) (p : ℕ) : Act → World → Prop where
  | works (hpc : (w.procs p).pc = .locked) : Progress w p .step (w.critical p)
  | returns (r : Reply) (hpc : (w.procs p).pc = .ret r) : Progress w p .step (w.goto p .idle)
  | rejected (c : Call) (r : Reply) (w' : World) (hpc : (w.procs p).pc = .idle)
      (hdev : w'.dev = w.dev) (hto : w'.procs p = ⟨c, .ret r, false⟩) (hr : r.refused = true)
      (hnot : r.ret ≠ some (-ERESTARTSYS)) (hinvalid : Entry.Invalid (p, c, r)) :
      Progress w p (.start c) w'
  | interrupted (hpc : (w.procs p).pc.waits = true) :
      Progress w p .signal (w.goto p (.ret ⟨some (-ERESTARTSYS), []⟩))
  | goesOn (a : Act) (w' : World) (hdev : w'.dev = w.dev)
      (hquiet : (w'.procs p).replied p = (w.procs p).replied p ∧ (w'.procs p).Sound)
      (hrecord : ∀ h : History, h.record w (p, a) w' = h) : Progress w p a w'

namespace World

variable {w w' : World} {p : ℕ} {a : Act}

lemma progress_of_waits (hp : (w.procs p).Sound) (hdev : w'.dev = w.dev)
    (hfrom : (w.procs p).pc.waits = true) (hto : (w'.procs p).pc.waits = true)
    (hcall : (w'.procs p).call = (w.procs p).call) : Progress w p a w' :=
  .goesOn a w' hdev (quiet_of_waits hp hfrom hto hcall) fun h => record_of_waits h hfrom hto

/-- Every action is of one of these kinds. -/
lemma next_progress (h : w.next p a = some w') (hp : (w.procs p).Sound) : Progress w p a w' := by
  cases a with
  | start c =>
    simp only [next] at h
    split_ifs at h with hidle
    cases h
    rcases c.entry_cases p with hentry | ⟨r, hentry, hr, hnot, hinvalid⟩
    · refine .goesOn _ _ rfl ⟨?_, ?_⟩ fun _ => rfl
      · simp [Proc.replied, Pc.reply, hidle, hentry]
      · simp [Proc.Sound, hentry]
    · exact .rejected c r _ hidle rfl (by simp [hentry]) hr hnot hinvalid
  | step =>
    simp only [next, advance] at h
    split at h
    case h_1 => cases h
    case h_2 hpc =>
      split_ifs at h
      cases h
      exact progress_of_waits hp rfl (by rw [hpc]; rfl) (by rw [goto_self]; rfl) (by rw [goto_self])
    case h_3 hpc =>
      cases h
      exact .works hpc
    case h_4 hpc =>
      cases h
      exact progress_of_waits hp rfl (by rw [hpc]; rfl) (by rw [goto_self]; rfl) (by rw [goto_self])
    case h_6 hpc =>
      cases h
      exact progress_of_waits hp rfl (by rw [hpc]; rfl) (by simp [Pc.waits]) (by simp)
    case h_5 hpc | h_7 hpc | h_8 hpc =>
      cases h
      refine progress_of_waits hp rfl (by rw [hpc]; rfl) ?_ (by rw [goto_self])
      rw [goto_self]
      dsimp only
      split <;> rfl
    case h_9 hpc =>
      split_ifs at h
      cases h
      exact progress_of_waits hp rfl (by rw [hpc]; rfl) (by rw [goto_self]; rfl) (by rw [goto_self])
    case h_10 r hpc =>
      cases h
      rw [Proc.Sound, hpc] at hp
      refine .goesOn _ _ rfl ?_ fun h => by simp only [History.record, hpc]
      rw [goto_self]
      cases hcall : (w.procs p).call with
      | read | write =>
        simp only [Call.afterUp]
        split <;> simp_all [Proc.replied, Pc.reply, Proc.Sound]
      | ioctl => simp_all [Call.afterUp, Proc.replied, Pc.reply, Proc.Sound]
    case h_11 Q r hpc =>
      cases h
      refine .goesOn _ _ rfl ?_ fun h => by simp only [History.record, hpc]
      rw [goto_self]
      simp [Proc.replied, Pc.reply, Proc.Sound, hpc]
    case h_12 r hpc =>
      cases h
      exact .returns r hpc
  | signal =>
    simp only [next, interrupt] at h
    split at h
    case h_1 hpc | h_2 hpc =>
      cases h
      exact .interrupted (by rw [hpc]; rfl)
    case h_3 hpc =>
      cases h
      exact progress_of_waits hp rfl (by rw [hpc]; rfl) (by rw [goto_self]; rfl) (by rw [goto_self])
    case h_4 => cases h

end World

/-! ### The history -/

section

variable {w w' : World} {h : History} {p q : ℕ} {a : Act} {r : Reply}

lemma record_done (hpc : (w.procs p).pc = .locked) (hpc' : (w'.procs p).pc = .up r) :
    h.record w (p, .step) w' = { h with done := h.done ++ [(p, (w.procs p).call, r)] } := by
  simp only [History.record, hpc, hpc']

lemma record_returned (hpc : (w.procs p).pc = .ret r) :
    h.record w (p, .step) w' = { h with returned := h.returned ++ [(p, (w.procs p).call, r)] } := by
  simp only [History.record, hpc]

lemma record_interrupted (hpc' : (w'.procs p).pc = .ret r) :
    h.record w (p, .signal) w' =
      { h with interrupted := h.interrupted ++ [(p, (w.procs p).call, r)] } := by
  simp only [History.record, hpc']

end

/-- The reply of a process depends on its place and its call only. -/
lemma Proc.replied_congr {p : ℕ} {pr pr' : Proc} (hpc : pr'.pc = pr.pc)
    (hcall : pr'.call = pr.call) : pr'.replied p = pr.replied p := by
  rw [replied, replied, hpc, hcall]

lemma Proc.Sound.congr {pr pr' : Proc} (h : pr.Sound) (hpc : pr'.pc = pr.pc)
    (hcall : pr'.call = pr.call) : pr'.Sound := by
  rw [Sound, hpc, hcall]
  exact h

lemma Proc.replied_of_reply {p : ℕ} {pr : Proc} {r : Reply} (h : pr.pc.reply = some r) :
    pr.replied p = [(p, pr.call, r)] := by
  rw [replied, h]
  rfl

section

variable {p q : ℕ} {es : List Entry} {x : Entry}

lemma entriesOf_self (hx : x.1 = p) : entriesOf p (es ++ [x]) = entriesOf p es ++ [x] := by
  simp [entriesOf, hx]

lemma entriesOf_other (hx : x.1 ≠ p) : entriesOf p (es ++ [x]) = entriesOf p es := by
  simp [entriesOf, hx]

end

/-! ### One more reply -/

namespace Sorted

variable {done interrupted replied : List Entry} {x : Entry}

/-- The last clause, with one more reply. -/
lemma invalid_append (h : Sorted done interrupted replied)
    (hx : x.2.2.refused = true → x.2.2 = ⟨some (-ERESTARTSYS), []⟩ ∨ x.Invalid) :
    ∀ y ∈ replied ++ [x], y.2.2.refused = true →
      y.2.2 = ⟨some (-ERESTARTSYS), []⟩ ∨ y.Invalid := by
  intro y hy hr
  rcases List.mem_append.mp hy with hold | hnew
  · exact h.invalid y hold hr
  · obtain rfl := List.mem_singleton.mp hnew
    exact hx hr

lemma append_done (h : Sorted done interrupted replied) (hx : x.2.2.refused = false) :
    Sorted (done ++ [x]) interrupted (replied ++ [x]) where
  done := by rw [h.done, List.filter_append, List.filter_singleton]; simp [hx]
  interrupted := by
    have hnot : x.2.2.ret ≠ some (-ERESTARTSYS) := fun heq => by simp [Reply.refused, heq] at hx
    rw [List.filter_append, List.filter_singleton]
    simp [hnot, ← h.interrupted]
  invalid := h.invalid_append fun hr => Bool.noConfusion (hx.symm.trans hr)

lemma append_interrupted (h : Sorted done interrupted replied)
    (hx : x.2.2 = ⟨some (-ERESTARTSYS), []⟩) :
    Sorted done (interrupted ++ [x]) (replied ++ [x]) where
  done := by
    rw [List.filter_append, List.filter_singleton, ← h.done]
    simp [hx, Reply.refused]
  interrupted := by rw [h.interrupted, List.filter_append, List.filter_singleton]; simp [hx]
  invalid := h.invalid_append fun _ => Or.inl hx

lemma append_invalid (h : Sorted done interrupted replied) (hr : x.2.2.refused = true)
    (hnot : x.2.2.ret ≠ some (-ERESTARTSYS)) (hx : x.Invalid) :
    Sorted done interrupted (replied ++ [x]) where
  done := by rw [List.filter_append, List.filter_singleton, ← h.done]; simp [hr]
  interrupted := by rw [List.filter_append, List.filter_singleton, ← h.interrupted]; simp [hnot]
  invalid := h.invalid_append fun _ => Or.inr hx

end Sorted

/-- The history so far. -/
structure Recorded (s : World × History) : Prop where
  wf : s.1.dev.Wf
  sound : ∀ p, (s.1.procs p).Sound
  queue : ∃ tr, (BoundedQueue.system UInt8 (BUF_LEN - 1) (-EFAULT)).Run [] tr ∧
    tr.map Prod.fst = s.2.events ∧ System.last [] tr = s.1.dev.queue
  calls : ∀ p, Sorted (entriesOf p s.2.done) (entriesOf p s.2.interrupted)
    (entriesOf p s.2.returned ++ (s.1.procs p).replied p)

namespace Recorded

variable {s : World × History} {w w' : World} {h : History} {p : ℕ} {act : Act}

/-- Only process `p` moves, and only its entries are new. -/
lemma move {h' : History} (hs : Recorded (w, h)) (hnext : w.next p act = some w')
    (hwf : w'.dev.Wf) (hsound : (w'.procs p).Sound)
    (hqueue : ∃ tr, (BoundedQueue.system UInt8 (BUF_LEN - 1) (-EFAULT)).Run [] tr ∧
      tr.map Prod.fst = h'.events ∧ System.last [] tr = w'.dev.queue)
    (hother : ∀ q ≠ p, entriesOf q h'.done = entriesOf q h.done ∧
      entriesOf q h'.interrupted = entriesOf q h.interrupted ∧
      entriesOf q h'.returned = entriesOf q h.returned)
    (hself : Sorted (entriesOf p h'.done) (entriesOf p h'.interrupted)
      (entriesOf p h'.returned ++ (w'.procs p).replied p)) :
    Recorded (w', h') := by
  have hpc : ∀ q ≠ p, (w'.procs q).pc = (w.procs q).pc :=
    fun q hq => (World.next_moves hnext).pc_other hq
  have hcall : ∀ q ≠ p, (w'.procs q).call = (w.procs q).call :=
    fun q hq => World.call_other hnext hq
  refine ⟨hwf, fun q => ?_, hqueue, fun q => ?_⟩
  · rcases eq_or_ne q p with rfl | hq
    · exact hsound
    · exact (hs.sound q).congr (hpc q hq) (hcall q hq)
  · rcases eq_or_ne q p with rfl | hq
    · exact hself
    · obtain ⟨hdone, hinterrupted, hreturned⟩ := hother q hq
      have hcalls := hs.calls q
      rwa [hdone, hinterrupted, hreturned, Proc.replied_congr (hpc q hq) (hcall q hq)]

/-- Before its reply, all that is replied of a process has returned. -/
lemma calls_of_reply_none (hs : Recorded (w, h)) (hreply : (w.procs p).replied p = []) :
    Sorted (entriesOf p h.done) (entriesOf p h.interrupted) (entriesOf p h.returned) := by
  have hcalls := hs.calls p
  rwa [hreply, List.append_nil] at hcalls

/-- The work of a process under `mysem`: it has to wait, or it is done. -/
lemma work (hs : Recorded (w, h)) (hnext : w.next p .step = some (w.critical p))
    (hpc : (w.procs p).pc = .locked) :
    Recorded (w.critical p, h.record w (p, .step) (w.critical p)) := by
  have hentry : (w.procs p).call.entry = .down := by
    have hsound := hs.sound p
    rwa [Proc.Sound, hpc] at hsound
  have hnot := Call.not_refused hentry w.dev
  have hcalls := hs.calls_of_reply_none (p := p) (Proc.waits_iff (by rw [hpc]; rfl)).1
  obtain ⟨tr, hrun, hfst, hlast⟩ := hs.queue
  obtain ⟨dev, r, hcall⟩ : ∃ dev r, w.dev.call (w.procs p).call = (dev, r) := ⟨_, _, rfl⟩
  obtain ⟨hstep, hwf⟩ := Mydev.call_step (a := ((w.procs p).call, r)) hs.wf hcall
  rw [hcall] at hnot
  by_cases hr : r.ret = none
  · have heq : w.critical p = { w with dev := dev }.goto p .unlock := by
      simp only [World.critical, hcall, if_pos hr]
    have hsame : dev.queue = w.dev.queue := hstep.of_waits (by rw [event, hr, Option.map_none])
    rw [heq] at hnext ⊢
    rw [World.record_of_waits h (by rw [hpc]; rfl) (by rw [World.goto_self]; rfl)]
    refine hs.move hnext hwf ?_ ⟨tr, hrun, hfst, hlast.trans hsame.symm⟩
      (fun q _ => ⟨rfl, rfl, rfl⟩) ?_
    · rw [World.goto_self]
      exact hentry
    · rw [World.goto_self]
      exact (List.append_nil (entriesOf p h.returned)).symm ▸ hcalls
  · have heq : w.critical p = { w with dev := dev }.goto p (.up r) := by
      simp only [World.critical, hcall, if_neg hr]
    rw [heq] at hnext ⊢
    rw [record_done hpc World.pc_goto_self]
    refine hs.move hnext hwf ?_ ⟨tr ++ [(event ((w.procs p).call, r), dev.queue)], ?_, ?_, ?_⟩
      (fun q hq => ⟨entriesOf_other hq.symm, rfl, rfl⟩) ?_
    · rw [World.goto_self]
      exact ⟨hentry, hnot⟩
    · exact hrun.concat (hlast.symm ▸ hstep)
    · rw [List.map_append, hfst, History.events, History.events, List.map_append]
      rfl
    · exact System.last_concat
    · rw [World.goto_self, Proc.replied_of_reply rfl]
      simp only [entriesOf_self]
      exact hcalls.append_done hnot

/-- A return: what was replied is returned. -/
lemma returns (hs : Recorded (w, h)) {r : Reply} (hnext : w.next p .step = some (w.goto p .idle))
    (hpc : (w.procs p).pc = .ret r) :
    Recorded (w.goto p .idle, h.record w (p, .step) (w.goto p .idle)) := by
  have hcalls := hs.calls p
  rw [record_returned hpc]
  refine hs.move hnext hs.wf ?_ hs.queue (fun q hq => ⟨rfl, rfl, entriesOf_other hq.symm⟩) ?_
  · rw [World.goto_self]
    exact True.intro
  · rw [Proc.replied_of_reply (by rw [hpc]; rfl)] at hcalls
    simp only [entriesOf_self]
    rw [World.goto_self]
    exact (List.append_nil _).symm ▸ hcalls

lemma rejected (hs : Recorded (w, h)) {c : Call} {r : Reply} (hnext : w.next p (.start c) = some w')
    (hpc : (w.procs p).pc = .idle) (hdev : w'.dev = w.dev) (hto : w'.procs p = ⟨c, .ret r, false⟩)
    (hr : r.refused = true) (hnot : r.ret ≠ some (-ERESTARTSYS))
    (hinvalid : Entry.Invalid (p, c, r)) : Recorded (w', h.record w (p, .start c) w') := by
  have hcalls := hs.calls_of_reply_none (p := p) (by rw [Proc.replied, hpc]; rfl)
  refine hs.move hnext (hdev ▸ hs.wf) ?_ (hdev ▸ hs.queue) (fun q _ => ⟨rfl, rfl, rfl⟩) ?_
  · rw [hto]
    exact True.intro
  · rw [hto, Proc.replied_of_reply rfl]
    exact hcalls.append_invalid hr hnot hinvalid

lemma interrupted (hs : Recorded (w, h))
    (hnext : w.next p .signal = some (w.goto p (.ret ⟨some (-ERESTARTSYS), []⟩)))
    (hpc : (w.procs p).pc.waits = true) :
    Recorded (w.goto p (.ret ⟨some (-ERESTARTSYS), []⟩),
      h.record w (p, .signal) (w.goto p (.ret ⟨some (-ERESTARTSYS), []⟩))) := by
  have hcalls := hs.calls_of_reply_none (p := p) (Proc.waits_iff hpc).1
  rw [record_interrupted World.pc_goto_self]
  refine hs.move hnext hs.wf ?_ hs.queue (fun q hq => ⟨rfl, entriesOf_other hq.symm, rfl⟩) ?_
  · rw [World.goto_self]
    exact True.intro
  · rw [World.goto_self, Proc.replied_of_reply rfl]
    simp only [entriesOf_self]
    exact hcalls.append_interrupted rfl

lemma step {t : World × History} {a : ℕ × Act} (hs : Recorded s) (hstep : recorded.step s a t) :
    Recorded t := by
  obtain ⟨hnext, hrec⟩ := System.observe_eq_some.mp hstep
  obtain ⟨w, h⟩ := s
  obtain ⟨w', h'⟩ := t
  obtain ⟨p, act⟩ := a
  change h.record w (p, act) w' = h' at hrec
  subst hrec
  cases World.next_progress hnext (hs.sound p) with
  | works hpc => exact hs.work hnext hpc
  | returns r hpc => exact hs.returns hnext hpc
  | rejected c r w' hpc hdev hto hr hnot hinvalid =>
    exact hs.rejected hnext hpc hdev hto hr hnot hinvalid
  | interrupted hpc => exact hs.interrupted hnext hpc
  | goesOn a w' hdev hquiet hrecord =>
    obtain ⟨hreplied, hsound⟩ := hquiet
    rw [hrecord]
    refine hs.move hnext (hdev ▸ hs.wf) hsound (hdev ▸ hs.queue) (fun q _ => ⟨rfl, rfl, rfl⟩) ?_
    rw [hreplied]
    exact hs.calls p

lemma init (mem : Memory UInt8) (start : ℕ) : Recorded (World.init mem start, ⟨[], [], []⟩) where
  wf := Mydev.my_init_wf mem start
  sound _ := True.intro
  queue := ⟨[], System.Run.nil _, rfl, (Ring.contents_self rfl).symm⟩
  calls _ := ⟨rfl, rfl, fun _ hx => by cases hx⟩

lemma linear (hs : Recorded s) : Linear s := by
  obtain ⟨tr, hrun, hfst, hlast⟩ := hs.queue
  refine ⟨⟨tr, hrun, hfst, hlast⟩, ?_, hs.calls⟩
  have heq := BoundedQueue.accepted_eq hrun
  rwa [hfst, hlast] at heq

end Recorded

/-- However processes read, write and reset a pipe, sleep on it and are interrupted: their calls
are, in the order in which they had `mysem`, the calls of one bounded queue, each of them between
its entry and its return; and the bytes that writers had accepted since the last reset are those
that readers got since then, in the same order, followed by those in the pipe. No call is refused
but one that a signal ended and an `ioctl` that the queue refuses as well. -/
theorem processes_linearize {mem : Memory UInt8} {start : ℕ}
    {tr : List ((ℕ × Act) × World × History)}
    (hr : recorded.Run (World.init mem start, ⟨[], [], []⟩) tr) :
    System.Always Linear (World.init mem start, ⟨[], [], []⟩) tr :=
  (hr.always (fun _ _ _ h hs => h.step hs) (Recorded.init mem start)).mono fun _ h => h.linear

/-- A reader sleeps until a writer comes, and gets the first of its two bytes. After a reset another
reader finds nothing and is interrupted in its sleep. A last `ioctl` means nothing to the pipe. -/
def readersWriterReset : List (ℕ × Act) :=
  (0, .start (.read 1 ⟨1, false⟩)) :: List.replicate 7 (0, .step) ++
  (1, .start (.write [65, 66] ⟨2, false⟩)) :: List.replicate 5 (1, .step) ++
  List.replicate 8 (0, .step) ++
  (2, .start (.ioctl PIPE_RESET)) :: List.replicate 4 (2, .step) ++
  (3, .start (.read 1 ⟨1, false⟩)) :: List.replicate 7 (3, .step) ++
  [(3, .signal), (3, .step), (3, .step), (3, .signal), (3, .step)] ++
  [(2, .start (.ioctl 0)), (2, .step)]

theorem processes_linearize_reader :
    ∃ tr, recorded.Run (World.init (fun _ => 0) 1000, ⟨[], [], []⟩) tr ∧
      tr.map Prod.fst = readersWriterReset ∧
      System.Always Linear (World.init (fun _ => 0) 1000, ⟨[], [], []⟩) tr := by
  have hsome : (System.final (System.observe (fun w a => World.next w a.1 a.2) History.record)
      (World.init (fun _ => 0) 1000, ⟨[], [], []⟩) readersWriterReset).isSome := by
    decide +kernel
  obtain ⟨tr, hrun, hacts⟩ := System.exists_run_of_isSome hsome
  exact ⟨tr, hrun, hacts, processes_linearize hrun⟩

end QuickDevSkeleton.Pipe
