import QuickDevSkeleton.UsbSkel.Stream

/-!
# The errors

A completion that fails, and a reset, store an error in `dev->errors`; the next read, write or
flush takes it out and reports it. `skel_write` and `skel_flush` do both under `err_lock`, but
`skel_read` first reads the error and then clears it, without the lock: a write in between reports
the same error. So an error may be reported twice, but never more often, and once unless a write
gets between the two statements of a read.

The errors are numbered in the order in which they are stored, and every report has the number of
its error. An error that another one has overwritten keeps its number, and is not reported.
-/

namespace QuickDevSkeleton.UsbSkel

open Foundations

/-- The error that a read has seen and not cleared yet. -/
def Pc.sees : Pc → Option ℤ
  | .reading _ (.clear rv) => some rv
  | _ => none

/-- A write is at the section of `err_lock`. -/
def Pc.finding : Pc → Bool
  | .writing _ .errors => true
  | _ => false

/-- What a step of a process has to do with the errors: a read sees one, or a call is about to
return a value that reports one. -/
inductive Note where
  | nothing
  | sees
  | reports (byRead : Bool) (value : ℤ)

def Pc.note : Pc → Pc → Note
  | .reading _ .check, .reading _ (.clear _) => .sees
  | .reading _ (.clear _), .reading _ (.exit r) => .reports true r.ret
  | .writing _ .errors, .writing _ (.error _ _ retval) => .reports false retval
  | .flushing _ .errors, .flushing _ (.unlock res) =>
    if res = 0 then .nothing else .reports false res
  | _, _ => .nothing

/-- A report: the number of the error, who reports it, and the value returned. -/
structure Report where
  number : ℕ
  byRead : Bool
  value : ℤ
  deriving DecidableEq

/-- The number of the error that a process has seen last in a read, and all reports. -/
structure ErrorLog (ι : Type) where
  seen : ι → ℕ
  reports : List Report

/-- The number of the error that was stored last. -/
def Skel.current (s : Skel) : ℕ := s.posted.length - 1

section

variable {ι : Type} [DecidableEq ι]

/-- A read reports the error that it has seen, whatever is stored by then; a write or a flush
reports the error that is stored. -/
def ErrorLog.record (h : ErrorLog ι) (v : Parties.State Skel Pc ι) :
    Parties.Move ι Act Env → Parties.State Skel Pc ι → ErrorLog ι
  | .env _, _ => h
  | .act i _, v' =>
    match (v.place i).note (v'.place i) with
    | .nothing => h
    | .sees => { h with seen := Function.update h.seen i v.shared.current }
    | .reports true value => { h with reports := h.reports ++ [⟨h.seen i, true, value⟩] }
    | .reports false value =>
      { h with reports := h.reports ++ [⟨v.shared.current, false, value⟩] }

/-- The driver, with its reports. -/
def reporting : System (Parties.State Skel Pc ι × ErrorLog ι) (Parties.Move ι Act Env) :=
  System.ofPartial (System.observe driver.next ErrorLog.record)

/-- The reports hinder nobody: every run of the driver is one of these. -/
lemma reporting_of_driver {v : Parties.State Skel Pc ι} {h : ErrorLog ι}
    {tr : List (Parties.Move ι Act Env × Parties.State Skel Pc ι)} (hr : driver.system.Run v tr) :
    ∃ tr', reporting.Run (v, h) tr' ∧ tr'.map (Prod.map id Prod.fst) = tr :=
  hr.observe ErrorLog.record h

end

/-! ### Reports in order -/

/-- The reports that count: those of the reads, or all of them. -/
def Report.counts (all : Bool) (r : Report) : Bool := all || r.byRead

/-- The numbers of the reports that satisfy `k` go up. -/
def Rising (k : Report → Bool) (rs : List Report) : Prop :=
  ((rs.filter k).map Report.number).Pairwise (· < ·)

lemma Rising.concat {k : Report → Bool} {rs : List Report} {r : Report} (h : Rising k rs)
    (hr : k r = true → ∀ r' ∈ rs, k r' = true → r'.number < r.number) : Rising k (rs ++ [r]) := by
  rw [Rising, List.filter_append, List.filter_singleton, List.map_append]
  cases hk : k r with
  | false =>
    rw [cond_false, List.map_nil, List.append_nil]
    exact h
  | true =>
    rw [cond_true]
    refine List.pairwise_append.mpr ⟨h, List.pairwise_singleton _ _, fun n hn m hm => ?_⟩
    obtain ⟨r', hr', rfl⟩ := List.mem_map.mp hn
    obtain ⟨hmem, hk'⟩ := List.mem_filter.mp hr'
    obtain rfl := List.mem_singleton.mp hm
    exact hr hk r' hmem hk'

lemma Rising.nodup {k : Report → Bool} {rs : List Report} (h : Rising k rs) :
    ((rs.filter k).map Report.number).Nodup :=
  h.imp Nat.ne_of_lt

/-! ### One step -/

variable {s t : Skel} {x y : Pc}

lemma Pc.sees_afterIo (c : ReadCall) (rv : ℤ) (r : Option Reply) :
    Pc.sees (.reading c (.afterIo rv r)) = none := by
  cases r with
  | none =>
    rw [ReadPc.afterIo]
    split <;> rfl
  | some r => rfl

lemma Pc.sees_copy (c : ReadCall) (ok : Bool) :
    Pc.sees (.reading c (skel_read_copy s c ok).2) = none := by
  simp only [skel_read_copy]
  split <;> rfl

/-- A flush reports an error as a read and a write do. -/
lemma reported_eq (rv : ℤ) : (if rv = -EPIPE then -EPIPE else - EIO) = reported rv := by
  unfold reported
  split_ifs with h
  · exact h.symm
  · rfl

/-- What a step does to the errors. -/
lemma Step.note (h : Step s x t y) (hs : s.errors ≤ 0) : t.posted = s.posted ∧
    (x.note y = .nothing ∧ t.errors = s.errors ∧ y.sees = none ∨
    x.note y = .sees ∧ t.errors = s.errors ∧ s.errors < 0 ∧ y.sees = some s.errors ∨
    (∃ rv, x.note y = .reports true (reported rv) ∧ t.errors = 0 ∧ x.sees = some rv ∧
      y.sees = none) ∨
    x.note y = .reports false (reported s.errors) ∧ t.errors = 0 ∧ s.errors < 0 ∧ y.sees = none ∧
      (x.holds = 1 ∨ x.finding = true)) := by
  cases h with
  | read_error c herr => exact ⟨rfl, .inr (.inl ⟨rfl, rfl, herr, rfl⟩)⟩
  | read_clear c rv => exact ⟨rfl, .inr (.inr (.inl ⟨rv, rfl, rfl, rfl, rfl⟩))⟩
  | write_error c herr => exact ⟨rfl, .inr (.inr (.inr ⟨rfl, rfl, herr, rfl, .inr rfl⟩))⟩
  | flush_errors last =>
    refine ⟨rfl, ?_⟩
    by_cases hzero : s.errors = 0
    · exact .inl ⟨by simp [Pc.note, hzero], hzero.symm, rfl⟩
    · refine .inr (.inr (.inr ⟨?_, rfl, lt_of_le_of_ne hs hzero, rfl, .inl rfl⟩))
      rw [if_neg hzero, reported_eq, Pc.note, if_neg (reported_neg (lt_of_le_of_ne hs hzero)).ne]
  | read_copy c ok => exact ⟨rfl, .inl ⟨rfl, rfl, Pc.sees_copy c ok⟩⟩
  | read_submit c count r | read_failed c rv r =>
    exact ⟨rfl, .inl ⟨rfl, rfl, Pc.sees_afterIo c _ r⟩⟩
  | _ => exact ⟨rfl, .inl ⟨rfl, rfl, rfl⟩⟩

/-- What happens around the processes stores an error, or leaves the errors alone. -/
lemma EnvStep.errors (h : EnvStep s t) :
    t.errors = s.errors ∧ t.posted = s.posted ∨
      t.errors < 0 ∧ t.posted = s.posted ++ [t.errors] := by
  cases h with
  | read_error n st data hn hlen hst => exact .inr ⟨by simp only [Skel.post]; omega, rfl⟩
  | giveback_error urb st hmem hst => exact .inr ⟨by simp only [Skel.post]; omega, rfl⟩
  | post_reset hhub => exact .inr ⟨by simp only [Skel.post]; decide, rfl⟩
  | _ => exact .inl ⟨rfl, rfl⟩

/-- A process that is going to clear the errors holds `io_mutex`. -/
lemma Pc.holds_of_sees {rv : ℤ} (h : x.sees = some rv) : x.holds = 1 := by
  cases x with
  | reading c pc =>
    cases pc with
    | clear rv => rfl
    | _ => cases h
  | _ => cases h

/-! ### Every run -/

section

variable {ι : Type} [DecidableEq ι] {buf : List UInt8} {all : Bool}
  {v : Parties.State Skel Pc ι} {h : ErrorLog ι} {i : ι} {e : ℤ}

/-- A write that finds an error finds no read between seeing an error and clearing it. -/
def Untangled (v : Parties.State Skel Pc ι) : Parties.Move ι Act Env → Prop
  | .act i _ => (v.place i).finding = true → v.shared.errors ≠ 0 → ∀ j, (v.place j).sees = none
  | .env _ => True

instance [Fintype ι] (v : Parties.State Skel Pc ι) : (m : Parties.Move ι Act Env) →
    Decidable (Untangled v m)
  | .act i _ => inferInstanceAs (Decidable ((v.place i).finding = true → v.shared.errors ≠ 0 →
    ∀ j, (v.place j).sees = none))
  | .env _ => inferInstanceAs (Decidable True)

/-- The report is of an error that was stored, and returns the value that stands for it. -/
def Report.Faithful (s : Skel) (r : Report) : Prop :=
  ∃ e, s.posted[r.number]? = some e ∧ r.value = reported e

/-- Process `i` has seen a stored error, and the reports that count are of earlier ones. -/
def ErrorLog.Saw (h : ErrorLog ι) (all : Bool) (s : Skel) (i : ι) (rv : ℤ) : Prop :=
  s.posted[h.seen i]? = some rv ∧ ∀ r ∈ h.reports, r.counts all = true → r.number < h.seen i

/-- The invariant of the reports. An error that is stored has not been reported. -/
structure Logged (all : Bool) (x : Parties.State Skel Pc ι × ErrorLog ι) : Prop where
  outline : readOutline.Holds x.1
  errors : x.1.shared.errors ≤ 0
  current : x.1.shared.errors < 0 → ∃ before, x.1.shared.posted = before ++ [x.1.shared.errors] ∧
    ∀ r ∈ x.2.reports, r.number < before.length
  saw : ∀ i rv, (x.1.place i).sees = some rv → x.2.Saw all x.1.shared i rv
  faithful : ∀ r ∈ x.2.reports, r.Faithful x.1.shared
  rising : Rising (Report.counts all) x.2.reports
  byOthers : Rising (fun r => !r.byRead) x.2.reports

lemma Report.Faithful.number_lt {r : Report} (hr : r.Faithful s) : r.number < s.posted.length := by
  obtain ⟨e, he, -⟩ := hr
  exact (List.getElem?_eq_some_iff.mp he).1

/-- The numbers stay as they are when an error is stored. -/
lemma posted_mono {n : ℕ} (hp : s.posted <+: t.posted) (hn : s.posted[n]? = some e) :
    t.posted[n]? = some e := by
  obtain ⟨new, hp⟩ := hp
  rw [← hp, List.getElem?_append_left (List.getElem?_eq_some_iff.mp hn).1]
  exact hn

lemma Report.Faithful.mono {r : Report} (hr : r.Faithful s) (hp : s.posted <+: t.posted) :
    r.Faithful t := by
  obtain ⟨e, he, hvalue⟩ := hr
  exact ⟨e, posted_mono hp he, hvalue⟩

omit [DecidableEq ι] in
lemma ErrorLog.Saw.mono {rv : ℤ} (hi : h.Saw all s i rv) (hp : s.posted <+: t.posted) :
    h.Saw all t i rv :=
  ⟨posted_mono hp hi.1, hi.2⟩

lemma Skel.current_eq {before : List ℤ} (hp : s.posted = before ++ [e]) :
    s.current = before.length := by
  rw [current, hp, List.length_append, List.length_singleton, Nat.add_sub_cancel]

namespace Logged

/-- A step of process `i` that does not report anything. -/
lemma quiet {y : Pc} (hx : Logged all (v, h))
    (houtline : readOutline.Holds ⟨t, Function.update v.place i y⟩)
    (hp : t.posted = v.shared.posted) (he : t.errors = v.shared.errors) (hy : y.sees = none) :
    Logged all (⟨t, Function.update v.place i y⟩, h) where
  outline := houtline
  errors := he ▸ hx.errors
  current := by
    show t.errors < 0 → ∃ before, t.posted = before ++ [t.errors] ∧ _
    rw [he, hp]
    exact hx.current
  saw j rv hj := by
    have hold : (v.place j).sees = some rv := by
      by_cases hji : j = i
      · subst hji
        simp [hy] at hj
      · simpa [Function.update_of_ne hji] using hj
    exact (hx.saw j rv hold).mono (hp ▸ List.prefix_rfl)
  faithful r hr := (hx.faithful r hr).mono (hp ▸ List.prefix_rfl)
  rising := hx.rising
  byOthers := hx.byOthers

/-- A read sees the error that is stored: all reports are of earlier ones. -/
lemma sees {y : Pc} (hx : Logged all (v, h))
    (houtline : readOutline.Holds ⟨t, Function.update v.place i y⟩)
    (hp : t.posted = v.shared.posted) (he : t.errors = v.shared.errors)
    (hneg : v.shared.errors < 0) (hy : y.sees = some v.shared.errors) :
    Logged all (⟨t, Function.update v.place i y⟩,
      { h with seen := Function.update h.seen i v.shared.current }) where
  outline := houtline
  errors := he ▸ hx.errors
  current := by
    show t.errors < 0 → ∃ before, t.posted = before ++ [t.errors] ∧ _
    rw [he, hp]
    exact hx.current
  saw j rv hj := by
    rw [ErrorLog.Saw]
    by_cases hji : j = i
    · subst hji
      obtain ⟨before, hposted, hbefore⟩ := hx.current hneg
      have hrv : v.shared.errors = rv := by simpa [hy] using hj
      simp only [Function.update_self]
      rw [hp, Skel.current_eq hposted, hposted, List.getElem?_concat_length, hrv]
      exact ⟨rfl, fun r hr _ => hbefore r hr⟩
    · simp only [Function.update_of_ne hji]
      rw [hp]
      exact hx.saw j rv (by simpa [Function.update_of_ne hji] using hj)
  faithful r hr := (hx.faithful r hr).mono (hp ▸ List.prefix_rfl)
  rising := hx.rising
  byOthers := hx.byOthers

/-- A report, after which no error is stored. -/
lemma reports {y : Pc} {r : Report} (hx : Logged all (v, h))
    (houtline : readOutline.Holds ⟨t, Function.update v.place i y⟩)
    (hp : t.posted = v.shared.posted) (he : t.errors = 0) (hy : y.sees = none)
    (hr : r.Faithful v.shared)
    (hnew : r.counts all = true → (∀ j, j ≠ i → (v.place j).sees = none) ∧
      ∀ r' ∈ h.reports, r'.counts all = true → r'.number < r.number)
    (hothers : r.byRead = false → ∀ r' ∈ h.reports, r'.number < r.number) :
    Logged all (⟨t, Function.update v.place i y⟩, { h with reports := h.reports ++ [r] }) where
  outline := houtline
  errors := he.le
  current hlt := absurd he (ne_of_lt hlt)
  saw j rv hj := by
    have hji : j ≠ i := by
      rintro rfl
      simp [hy] at hj
    have hold : (v.place j).sees = some rv := by simpa [Function.update_of_ne hji] using hj
    obtain ⟨hposted, hearlier⟩ := hx.saw j rv hold
    refine ⟨hp ▸ hposted, fun r' hr' hcounts => ?_⟩
    rcases List.mem_append.mp hr' with hmem | hmem
    · exact hearlier r' hmem hcounts
    · obtain rfl := List.mem_singleton.mp hmem
      rw [(hnew hcounts).1 j hji] at hold
      cases hold
  faithful r' hr' := by
    rcases List.mem_append.mp hr' with hmem | hmem
    · exact (hx.faithful r' hmem).mono (hp ▸ List.prefix_rfl)
    · exact (List.mem_singleton.mp hmem ▸ hr).mono (hp ▸ List.prefix_rfl)
  rising := hx.rising.concat fun hk => (hnew hk).2
  byOthers := hx.byOthers.concat fun hk r' hr' _ => hothers (by simpa using hk) r' hr'

lemma act {a : Act} {v' : Parties.State Skel Pc ι} (hx : Logged all (v, h))
    (hm : all = true → Untangled v (.act i a)) (hnext : driver.next v (.act i a) = some v') :
    Logged all (v', h.record v (.act i a) v') := by
  have houtline := readOutline_valid.next hx.outline hnext
  obtain ⟨t, y, hact, rfl⟩ := Parties.next_act.mp hnext
  -- nobody else holds `io_mutex` with the process that acts
  have halone : (v.place i).holds = 1 → ∀ j, j ≠ i → (v.place j).sees = none := by
    intro hi j hj
    by_contra hsees
    obtain ⟨rv, hrv⟩ := Option.ne_none_iff_exists'.mp hsees
    exact hx.outline.apart i j hj.symm ⟨hi, Pc.holds_of_sees hrv⟩
  obtain ⟨hp, hcases⟩ := (step_of_act hact).note hx.errors
  simp only [ErrorLog.record, Function.update_self]
  rcases hcases with ⟨hnote, he, hy⟩ | ⟨hnote, he, hneg, hy⟩ | ⟨rv, hnote, he, hsees, hy⟩ |
    ⟨hnote, he, hneg, hy, hholds⟩
  · rw [hnote]
    exact hx.quiet houtline hp he hy
  · rw [hnote]
    exact hx.sees houtline hp he hneg hy
  · rw [hnote]
    obtain ⟨hposted, hearlier⟩ := hx.saw i rv hsees
    exact hx.reports houtline hp he hy ⟨rv, hposted, rfl⟩
      (fun _ => ⟨halone (Pc.holds_of_sees hsees), hearlier⟩) fun hread => by cases hread
  · rw [hnote]
    obtain ⟨before, hposted, hbefore⟩ := hx.current hneg
    rw [Skel.current_eq hposted]
    refine hx.reports houtline hp he hy ⟨v.shared.errors, ?_, rfl⟩
      (fun hcounts => ⟨fun j hj => ?_, fun r hr _ => hbefore r hr⟩) fun _ => hbefore
    · rw [hposted, List.getElem?_concat_length]
    · have hall : all = true := by simpa [Report.counts] using hcounts
      rcases hholds with hholds | hfinding
      · exact halone hholds j hj
      · exact hm hall hfinding hneg.ne j

lemma env {e : Env} {v' : Parties.State Skel Pc ι} (hx : Logged all (v, h))
    (hnext : driver.next v (.env e) = some v') : Logged all (v', h) := by
  have houtline := readOutline_valid.next hx.outline hnext
  obtain ⟨t, henv, rfl⟩ := Parties.next_env.mp hnext
  rcases (envStep_of_act henv).errors with ⟨he, hp⟩ | ⟨hneg, hp⟩
  · refine ⟨houtline, he ▸ hx.errors, ?_, fun i rv hi => ?_, fun r hr => ?_, hx.rising, hx.byOthers⟩
    · show t.errors < 0 → ∃ before, t.posted = before ++ [t.errors] ∧ _
      rw [he, hp]
      exact hx.current
    · exact (hx.saw i rv hi).mono (hp ▸ List.prefix_rfl)
    · exact (hx.faithful r hr).mono (hp ▸ List.prefix_rfl)
  · exact ⟨houtline, hneg.le, fun _ => ⟨_, hp, fun r hr => (hx.faithful r hr).number_lt⟩,
      fun i rv hi => (hx.saw i rv hi).mono ⟨_, hp.symm⟩,
      fun r hr => (hx.faithful r hr).mono ⟨_, hp.symm⟩,
      hx.rising, hx.byOthers⟩

lemma next {m : Parties.Move ι Act Env} {x x' : Parties.State Skel Pc ι × ErrorLog ι}
    (hx : Logged all x) (hm : all = true → Untangled x.1 m) (h : reporting.step x m x') :
    Logged all x' := by
  obtain ⟨hnext, hrecord⟩ := System.observe_eq_some.mp h
  obtain ⟨v', h'⟩ := x'
  change ErrorLog.record x.2 x.1 m v' = h' at hrecord
  subst hrecord
  cases m with
  | act i a => exact hx.act hm hnext
  | env e => exact hx.env hnext

end Logged

omit [DecidableEq ι] in
lemma logged_start (hbuf : buf.length < 2 ^ 16) :
    Logged all (start ι buf, ⟨fun _ => 0, []⟩) where
  outline := readOutline_start hbuf
  errors := le_rfl
  current h := absurd h (lt_irrefl 0)
  saw _ _ h := by cases h
  faithful _ h := by cases h
  rising := List.Pairwise.nil
  byOthers := List.Pairwise.nil

/-- Every report is of a stored error and returns the value that stands for it; no error is
reported by two reads, and none by two writes or flushes. -/
structure Reported (x : Parties.State Skel Pc ι × ErrorLog ι) : Prop where
  faithful : ∀ r ∈ x.2.reports, r.Faithful x.1.shared
  byRead : ((x.2.reports.filter fun r => r.byRead).map Report.number).Nodup
  byOthers : ((x.2.reports.filter fun r => !r.byRead).map Report.number).Nodup

/-- Whatever fails and in whichever order: no error is reported by two reads, nor by two writes or
flushes, so that none is reported more than twice. If no write finds an error while a read stands
between seeing an error and clearing it, none is reported twice. -/
theorem errors_reported {tr : List (Parties.Move ι Act Env × Parties.State Skel Pc ι × ErrorLog ι)}
    (hbuf : buf.length < 2 ^ 16) (hr : reporting.Run (start ι buf, ⟨fun _ => 0, []⟩) tr) :
    System.Always Reported (start ι buf, ⟨fun _ => 0, []⟩) tr ∧
    (System.Along (fun x m => Untangled x.1 m) (start ι buf, ⟨fun _ => 0, []⟩) tr →
      System.Always (fun x => (x.2.reports.map Report.number).Nodup)
        (start ι buf, ⟨fun _ => 0, []⟩) tr) := by
  constructor
  · have hlogged := hr.always (I := Logged false)
      (fun _ _ _ hs hstep => hs.next (fun hall => by cases hall) hstep) (logged_start hbuf)
    exact hlogged.mono fun x hx => ⟨hx.faithful, hx.rising.nodup, hx.byOthers.nodup⟩
  · intro hok
    have hlogged := hr.always_of_along (I := Logged true)
      (fun _ _ _ hs ha hstep => hs.next (fun _ => ha) hstep) (logged_start hbuf) hok
    refine hlogged.mono fun x hx => ?_
    have hall : x.2.reports.filter (Report.counts true) = x.2.reports :=
      List.filter_eq_self.mpr fun r _ => rfl
    have hnodup := hx.rising.nodup
    rwa [hall] at hnodup

end

open Parties Parties.Move in
/-- A reset stores an error, and a read of the second process reports it. A write of the first
process fails and stores another one, which a second reset overwrites; the next write reports the
error of that reset. -/
def failures : List (Parties.Move Two Act Env) :=
  [act first .open, act first .step, act first .step, act first .step,
    act second .open, act second .step, act second .step, act second .step,
    env .reset, env .hub, env .hub, env .hub, env .hub,
    act second (.read ⟨2, false⟩), act second .step, act second .step, act second .step,
    act second .step, act second .step, act second .step, act second .step,
    act first (.write ⟨[1, 2, 3], false⟩), act first .step, act first .step, act first .step,
    act first .step, act first .step, act first .step, act first .step, act first .step,
    act first .step, env (.giveback 0 71), act first .step, env (.finish 0), act first .step,
    env .reset, env .hub, env .hub, env .hub, env .hub,
    act first (.write ⟨[4], false⟩), act first .step, act first .step, act first .step,
    act first .step, act first .step]

lemma session_errors_reported : ∃ tr,
    reporting.Run (start (Fin 2) [0, 0, 0, 0], ⟨fun _ => 0, []⟩) tr ∧
    tr.map Prod.fst = failures ∧
    (System.last (start (Fin 2) [0, 0, 0, 0], ⟨fun _ => 0, []⟩) tr).1.shared.posted =
      [-EPIPE, -71, -EPIPE] ∧
    (System.last (start (Fin 2) [0, 0, 0, 0], ⟨fun _ => 0, []⟩) tr).2.reports =
      [⟨0, true, -EPIPE⟩, ⟨2, false, -EPIPE⟩] ∧
    System.Always Reported (start (Fin 2) [0, 0, 0, 0], ⟨fun _ => 0, []⟩) tr ∧
    System.Always (fun x => (x.2.reports.map Report.number).Nodup)
      (start (Fin 2) [0, 0, 0, 0], ⟨fun _ => 0, []⟩) tr := by
  have h : (System.final (System.checked (System.observe driver.next ErrorLog.record)
      fun x m => Untangled x.1 m) (start (Fin 2) [0, 0, 0, 0], ⟨fun _ => 0, []⟩) failures).map
      (fun x => (x.1.shared.posted, x.2.reports)) =
        some ([-EPIPE, -71, -EPIPE], [⟨0, true, -EPIPE⟩, ⟨2, false, -EPIPE⟩]) := by
    decide +kernel
  obtain ⟨x, hx, hlog⟩ := Option.map_eq_some_iff.mp h
  obtain ⟨hposted, hreports⟩ := Prod.mk.inj hlog
  obtain ⟨tr, hrun, hacts, halong, hlast⟩ := System.exists_run_along_last hx
  obtain ⟨hreported, honce⟩ := errors_reported (by decide) hrun
  exact ⟨tr, hrun, hacts, hlast ▸ hposted, hlast ▸ hreports, hreported, honce halong⟩

open Parties.Move in
/-- The condition is needed. A reset stores one error, process 1 sees it in a read, process 0
reports it for a write, and process 1 goes on to report it too. -/
lemma error_reported_twice : ∃ tr,
    reporting.Run (start (Fin 2) [0, 0, 0, 0], ⟨fun _ => 0, []⟩) tr ∧
    tr.map Prod.fst = [act 0 .open, act 0 .step, act 0 .step, act 0 .step,
      act 1 .open, act 1 .step, act 1 .step, act 1 .step,
      env .reset, env .hub, env .hub, env .hub, env .hub,
      act 1 (.read ⟨2, false⟩), act 1 .step, act 1 .step, act 1 .step, act 1 .step,
      act 0 (.write ⟨[1, 2, 3], false⟩), act 0 .step, act 0 .step, act 1 .step] ∧
    ¬ System.Always (fun x => (x.2.reports.map Report.number).Nodup)
      (start (Fin 2) [0, 0, 0, 0], ⟨fun _ => 0, []⟩) tr :=
  System.exists_run_not_always (g := fun x => x.2.reports.map Report.number) (r := [0, 0])
    (by decide +kernel) fun t ht => by
      rw [ht]
      decide

end QuickDevSkeleton.UsbSkel
