import QuickDevSkeleton.UsbSkel.Lifetime
import QuickDevSkeleton.UsbSkel.Stream
import QuickDevSkeleton.UsbSkel.Urbs

/-!
# The driver does not deadlock

A process waits for a permit, for `io_mutex`, for the end of a read, or for the anchor to empty.
In every state that a run can reach, following who has what leads to a process that can go on, to
the core, or to an urb whose completion is due.
-/

namespace QuickDevSkeleton.UsbSkel

open Foundations

/-! ### Who has an anchored urb -/

/-- The urb that a writer has on the anchor and the core does not have. -/
def WritePc.anchored : WritePc → Option ℕ
  | .submit urb | .report urb _ | .unanchor urb _ => some urb
  | .unlock urb retval => if retval = 0 then none else some urb
  | _ => none

def Pc.anchored : Pc → Option ℕ
  | .writing _ pc => pc.anchored
  | _ => none

variable {s t : Skel} {x y : Pc} {u : ℕ}

/-- The ledger of the anchor. -/
lemma Step.anchored (h : Step s x t y) {r : ℕ}
    (hr : s.submitted.count u = s.queue.count u + (x.count Pc.anchored u + r)) :
    t.submitted.count u = t.queue.count u + (y.count Pc.anchored u + r) := by
  cases h with
  | write_anchor c urb =>
    rw [Pc.count_none rfl] at hr
    simp only [List.count_append]
    by_cases hu : u = urb
    · subst hu
      rw [Pc.count_self rfl, List.count_singleton_self]
      omega
    · rw [Pc.count_other rfl hu, List.count_singleton, if_neg (by simpa using Ne.symm hu)]
      exact hr
  | write_submit c urb =>
    rw [Pc.count_none (x := .writing c (.unlock urb 0)) rfl]
    simp only [List.count_append]
    by_cases hu : u = urb
    · subst hu
      rw [Pc.count_self rfl] at hr
      rw [List.count_singleton_self]
      omega
    · rw [Pc.count_other rfl hu] at hr
      rw [List.count_singleton, if_neg (by simpa using Ne.symm hu)]
      exact hr
  | write_refused c urb e he =>
    have hret : -(e : ℤ) ≠ 0 := by omega
    rw [Pc.count_congr (y := .writing c (.submit urb)) (if_neg hret)]
    exact hr
  | write_unlock_refused c urb retval hret =>
    have hunlock : Pc.anchored (.writing c (.unlock urb retval)) = some urb := if_neg hret
    rw [Pc.count_congr (y := .writing c (.unlock urb retval)) hunlock.symm]
    exact hr
  | write_unanchor c urb retval =>
    rw [Pc.count_none rfl]
    simp only [Skel.usb_unanchor_urb]
    by_cases hu : u = urb
    · subst hu
      rw [Pc.count_self rfl] at hr
      rw [List.count_erase_self]
      omega
    · rw [Pc.count_other rfl hu] at hr
      rw [List.count_erase_of_ne hu]
      exact hr
  | _ => exact hr

lemma EnvStep.anchored (h : EnvStep s t) {r : ℕ}
    (hr : s.submitted.count u = s.queue.count u + r) :
    t.submitted.count u = t.queue.count u + r := by
  cases h with
  | giveback_done urb hmem | giveback_error urb st hmem =>
    simp only [Skel.post, Skel.usb_unanchor_urb]
    by_cases hu : u = urb
    · subst hu
      have hpos := List.count_pos_iff.mpr hmem
      rw [List.count_erase_self, List.count_erase_self]
      omega
    · rw [List.count_erase_of_ne hu, List.count_erase_of_ne hu]
      exact hr
  | _ => exact hr

section

variable {ι : Type} [DecidableEq ι] {v v' : Parties.State Skel Pc ι}
  {m : Parties.Move ι Act Env} {tr : List (Parties.Move ι Act Env × Parties.State Skel Pc ι)}
  {buf : List UInt8} {i : ι}

/-- A move that starts nothing new: a process takes its next step, or has a submission refused, an
urb completes, or the core goes on. -/
def Internal : Parties.Move ι Act Env → Prop
  | .act _ .step | .act _ (.fault _) => True
  | .act _ _ => False
  | .env .reset | .env .unbind => False
  | .env _ => True

/-- Something that has begun can go on. -/
def Live (v : Parties.State Skel Pc ι) : Prop :=
  ∃ m, Internal m ∧ (driver.next v m).isSome

lemma Live.of_act {a : Act} (ha : Internal (.act i a : Parties.Move ι Act Env))
    (h : ((v.place i).act v.shared a).isSome) : Live v :=
  ⟨.act i a, ha, by rw [Parties.next, Option.isSome_map]; exact h⟩

lemma Live.of_env {e : Env} (he : Internal (.env e : Parties.Move ι Act Env))
    (h : (e.act v.shared).isSome) : Live v :=
  ⟨.env e, he, by rw [Parties.next, Option.isSome_map]; exact h⟩

/-! ### What is waited for -/

/-- A read that the core has can complete. -/
lemma Live.of_reading (h : v.shared.reading ≠ none) : Live v := by
  obtain ⟨n, hn⟩ := Option.ne_none_iff_exists'.mp h
  refine Live.of_env (e := .skel_read_bulk_callback 0 []) trivial ?_
  simp [Env.act, UsbSkel.skel_read_bulk_callback, hn]

lemma Live.of_queue (h : v.shared.queue ≠ []) : Live v := by
  obtain ⟨urb, hurb⟩ := List.exists_mem_of_ne_nil _ h
  refine Live.of_env (e := .giveback urb 0) trivial ?_
  simp [Env.act, UsbSkel.giveback, hurb]

lemma Live.of_giving (h : v.shared.giving ≠ []) : Live v := by
  obtain ⟨urb, hurb⟩ := List.exists_mem_of_ne_nil _ h
  refine Live.of_env (e := .finish urb) trivial ?_
  simp [Env.act, UsbSkel.finish, hurb]

/-- A submission is accepted or refused. -/
lemma Live.of_submit {c : WriteCall} {urb : ℕ} (h : v.place i = .writing c (.submit urb)) :
    Live v := by
  refine Live.of_act (i := i) (a := .fault 1) trivial ?_
  simp [h, Pc.act, skel_write, skel_write_submit]

variable [Fintype ι]

/-- What keeps the driver from a deadlock. -/
structure Sound (v : Parties.State Skel Pc ι) : Prop where
  outline : readOutline.Holds v
  alive : Alive v
  permitted : Permitted v
  locked : Locked v
  anchored : ∀ u, v.shared.submitted.count u =
    v.shared.queue.count u + Parties.tally (Pc.count Pc.anchored u) v.place

lemma Sound.next (hv : Sound v) (h : driver.next v m = some v') : Sound v' where
  outline := readOutline_valid.next hv.outline h
  alive := hv.alive.next h
  permitted := hv.permitted.next h
  locked := hv.locked.next h
  anchored u := Parties.next_ledger (c := fun s : Skel => s.submitted.count u)
    (m := fun s => s.queue.count u) h (fun _ _ _ hact _ hr => (step_of_act hact).anchored hr)
    (fun _ henv _ hr => (envStep_of_act henv).anchored hr) (hv.anchored u)

/-- An urb on the anchor is with the core, or with a writer that is not blocked. -/
lemma Sound.live_of_submitted (hv : Sound v) (h : v.shared.submitted ≠ []) : Live v := by
  obtain ⟨urb, hurb⟩ := List.exists_mem_of_ne_nil _ h
  have hpos := List.count_pos_iff.mpr hurb
  have hledger := hv.anchored urb
  by_cases hqueue : v.shared.queue = []
  · rw [hqueue, List.count_nil] at hledger
    obtain ⟨i, hi⟩ := Parties.exists_of_tally_ne (w := Pc.count Pc.anchored urb) (f := v.place)
      (by omega)
    cases hplace : v.place i with
    | writing c pc =>
      cases pc with
      | submit urb => exact Live.of_submit hplace
      | unlock | report | unanchor =>
        refine Live.of_act (i := i) (a := .step) trivial ?_
        simp [hplace, Pc.act, skel_write, skel_write_submit]
      | _ =>
        rw [hplace] at hi
        exact absurd rfl hi
    | _ =>
      rw [hplace] at hi
      exact absurd rfl hi
  · exact Live.of_queue hqueue

/-- The holder of `io_mutex` is not blocked, or waits for an urb. -/
lemma Sound.live_of_locked (hv : Sound v) (h : v.shared.io_mutex = true) : Live v := by
  have hflow : v.shared.Flow := hv.outline.inv
  have hledger := hv.locked
  rw [Locked, h, Bool.toNat_true] at hledger
  by_cases hhub : v.shared.hub.holds = 0
  · obtain ⟨i, hi⟩ := Parties.exists_of_tally_ne (w := Pc.holds) (f := v.place) (by omega)
    have hguarded : (v.place i).Guarded v.shared := (hv.outline.known i).1
    cases hplace : v.place i with
    | reading c pc =>
      rw [hplace] at hguarded hi
      cases pc with
      | lock => exact absurd rfl hi
      | wait =>
        rcases hongoing : v.shared.ongoing_read with _ | _
        · refine Live.of_act (i := i) (a := .step) trivial ?_
          simp [hplace, Pc.act, skel_read, skel_read_locked, hongoing]
        · exact Live.of_reading ((hguarded rfl).2.2 hongoing)
      | begun count r =>
        refine Live.of_act (i := i) (a := .fault 1) trivial ?_
        simp [hplace, Pc.act, skel_read, skel_read_locked, skel_do_read_io]
      | _ =>
        refine Live.of_act (i := i) (a := .step) trivial ?_
        simp [hplace, Pc.act, skel_read, skel_read_locked, skel_do_read_io]
    | writing c pc =>
      rw [hplace] at hi
      cases pc with
      | submit urb => exact Live.of_submit hplace
      | held urb =>
        refine Live.of_act (i := i) (a := .step) trivial ?_
        simp only [hplace, Pc.act, skel_write, skel_write_submit]
        split <;> rfl
      | unlock urb retval =>
        refine Live.of_act (i := i) (a := .step) trivial ?_
        simp [hplace, Pc.act, skel_write, skel_write_submit]
      | _ => exact absurd rfl hi
    | flushing last pc =>
      rw [hplace] at hi
      cases pc with
      | lock => exact absurd rfl hi
      | drawAnchor =>
        by_cases hsubmitted : v.shared.submitted = []
        · refine Live.of_act (i := i) (a := .step) trivial ?_
          simp [hplace, Pc.act, skel_flush, hsubmitted]
        · exact hv.live_of_submitted hsubmitted
      | drawRead =>
        by_cases hreading : v.shared.reading = none
        · refine Live.of_act (i := i) (a := .step) trivial ?_
          simp [hplace, Pc.act, skel_flush, hreading]
        · exact Live.of_reading hreading
      | _ =>
        refine Live.of_act (i := i) (a := .step) trivial ?_
        simp [hplace, Pc.act, skel_flush]
    | releasing pc =>
      rw [hplace] at hi
      cases pc with
      | held | unlock =>
        refine Live.of_act (i := i) (a := .step) trivial ?_
        simp [hplace, Pc.act, skel_release]
      | _ => exact absurd rfl hi
    | _ =>
      rw [hplace] at hi
      exact absurd rfl hi
  · cases hh : v.shared.hub with
    | drawAnchor =>
      by_cases hsubmitted : v.shared.submitted = []
      · refine Live.of_env (e := .hub) trivial ?_
        simp [Env.act, Hub.step, hh, hsubmitted]
      · exact hv.live_of_submitted hsubmitted
    | drawRead =>
      by_cases hreading : v.shared.reading = none
      · refine Live.of_env (e := .hub) trivial ?_
        simp [Env.act, Hub.step, hh, hreading]
      · exact Live.of_reading hreading
    | reset | clear | unlock =>
      refine Live.of_env (e := .hub) trivial ?_
      simp [Env.act, Hub.step, hh]
    | _ =>
      rw [hh] at hhub
      exact absurd rfl hhub

/-- A step that only needs `io_mutex` to be free. -/
lemma Sound.live_of_lock (hv : Sound v)
    (h : v.shared.io_mutex = false → ((v.place i).act v.shared .step).isSome) : Live v := by
  rcases hmutex : v.shared.io_mutex with _ | _
  · exact Live.of_act (i := i) (a := .step) trivial (h hmutex)
  · exact hv.live_of_locked hmutex

/-- A writer that has its permit can go on, or waits for `io_mutex`. -/
lemma Sound.live_of_writing (hv : Sound v) {c : WriteCall} {pc : WritePc}
    (h : v.place i = .writing c pc) (hpc : pc ≠ .down) : Live v := by
  cases pc with
  | down => exact absurd rfl hpc
  | lock urb =>
    refine hv.live_of_lock (i := i) fun hfree => ?_
    simp [h, Pc.act, skel_write, skel_write_submit, hfree]
  | submit urb => exact Live.of_submit h
  | errors =>
    refine Live.of_act (i := i) (a := .step) trivial ?_
    simp only [h, Pc.act, skel_write, skel_write_prepare]
    split <;> rfl
  | held urb =>
    refine Live.of_act (i := i) (a := .step) trivial ?_
    simp only [h, Pc.act, skel_write, skel_write_submit]
    split <;> rfl
  | alloc | buffer | copy =>
    refine Live.of_act (i := i) (a := .step) trivial ?_
    simp [h, Pc.act, skel_write, skel_write_prepare]
  | error urb buf retval =>
    refine Live.of_act (i := i) (a := .step) trivial ?_
    cases urb <;> simp [h, Pc.act, skel_write, skel_write_submit]
  | _ =>
    refine Live.of_act (i := i) (a := .step) trivial ?_
    simp [h, Pc.act, skel_write, skel_write_submit]

/-- A permit that is not in `limit_sem` comes back. -/
lemma Sound.live_of_permits (hv : Sound v) (h : v.shared.limit_sem = 0) : Live v := by
  have hledger := hv.permitted
  rw [Permitted, Skel.permits, h, WRITES_IN_FLIGHT] at hledger
  by_cases hqueue : v.shared.queue = []
  · by_cases hgiving : v.shared.giving = []
    · rw [hqueue, hgiving, List.length_nil] at hledger
      obtain ⟨i, hi⟩ := Parties.exists_of_tally_ne (w := Pc.permits) (f := v.place) (by omega)
      cases hplace : v.place i with
      | writing c pc =>
        refine hv.live_of_writing hplace fun hdown => ?_
        rw [hplace, hdown] at hi
        exact hi rfl
      | _ =>
        rw [hplace] at hi
        exact absurd rfl hi
    · exact Live.of_giving hgiving
  · exact Live.of_queue hqueue

/-- A process in the driver can go on, or waits for something that can. -/
lemma Sound.live_of_place (hv : Sound v) (hclosed : v.place i ≠ .closed)
    (hidle : v.place i ≠ .idle) : Live v := by
  cases hplace : v.place i with
  | closed => exact absurd hplace hclosed
  | idle => exact absurd hplace hidle
  | opening pc =>
    refine Live.of_act (i := i) (a := .step) trivial ?_
    cases pc with
    | find =>
      simp only [hplace, Pc.act, skel_open]
      split <;> rfl
    | _ => simp [hplace, Pc.act, skel_open]
  | reading c pc =>
    by_cases hholds : pc = .lock
    · refine hv.live_of_lock (i := i) fun hfree => ?_
      simp [hplace, hholds, Pc.act, skel_read, hfree]
    · have hknown : (v.place i).Guarded v.shared := (hv.outline.known i).1
      rw [hplace] at hknown
      refine hv.live_of_locked (hknown ?_).1
      cases pc with
      | lock => exact absurd rfl hholds
      | _ => rfl
  | writing c pc =>
    by_cases hdown : pc = .down
    · by_cases hzero : v.shared.limit_sem = 0
      · exact hv.live_of_permits hzero
      · refine Live.of_act (i := i) (a := .step) trivial ?_
        simp [hplace, hdown, Pc.act, skel_write, skel_write_prepare, hzero]
    · exact hv.live_of_writing hplace hdown
  | flushing last pc =>
    by_cases hholds : pc = .lock
    · refine hv.live_of_lock (i := i) fun hfree => ?_
      simp [hplace, hholds, Pc.act, skel_flush, hfree]
    · have hknown : (v.place i).Guarded v.shared := (hv.outline.known i).1
      rw [hplace] at hknown
      refine hv.live_of_locked (hknown ?_).1
      cases pc with
      | lock => exact absurd rfl hholds
      | _ => rfl
  | releasing pc =>
    cases pc with
    | lock =>
      refine hv.live_of_lock (i := i) fun hfree => ?_
      simp [hplace, Pc.act, skel_release, hfree]
    | _ =>
      refine Live.of_act (i := i) (a := .step) trivial ?_
      simp [hplace, Pc.act, skel_release]
  | readRet | writeRet =>
    refine Live.of_act (i := i) (a := .step) trivial ?_
    simp [hplace, Pc.act]

/-- A reset or the end of the device can go on, or waits for something that can. -/
lemma Sound.live_of_hub (hv : Sound v) (hbound : v.shared.hub ≠ .bound)
    (hgone : v.shared.hub ≠ .gone) : Live v := by
  have hstep : (Hub.step v.shared).isSome → Live v := fun h =>
    Live.of_env (e := .hub) trivial h
  cases hh : v.shared.hub with
  | bound => exact absurd hh hbound
  | gone => exact absurd hh hgone
  | preReset | lock =>
    rcases hmutex : v.shared.io_mutex with _ | _
    · exact hstep (by simp [Hub.step, hh, hmutex])
    · exact hv.live_of_locked hmutex
  | drawAnchor | kill =>
    by_cases hsubmitted : v.shared.submitted = []
    · exact hstep (by simp [Hub.step, hh, hsubmitted])
    · exact hv.live_of_submitted hsubmitted
  | drawRead =>
    by_cases hreading : v.shared.reading = none
    · exact hstep (by simp [Hub.step, hh, hreading])
    · exact Live.of_reading hreading
  | deregister =>
    by_cases hopeners : v.shared.openers = 0
    · exact hstep (by simp [Hub.step, hh, hopeners])
    · have hledger := hv.alive.openers
      obtain ⟨i, hi⟩ := Parties.exists_of_tally_ne (w := Pc.opener) (f := v.place) (by omega)
      refine hv.live_of_place (i := i) (fun hp => ?_) fun hp => ?_ <;>
        exact hi (by rw [hp]; rfl)
  | _ => exact hstep (by simp [Hub.step, hh])

omit [DecidableEq ι] in
lemma sound_start (hbuf : buf.length < 2 ^ 16) : Sound (start ι buf) where
  outline := readOutline_start hbuf
  alive := alive_start
  permitted := permitted_start
  locked := locked_start
  anchored u := by simp [start, Skel.probed, Parties.tally, Pc.count, Pc.anchored]

/-- In no state that a run can reach is the driver stuck: while a process is anywhere in it, or the
core in the middle of a reset or of the end of the device, some process can take its next step, the
core can, or an urb can complete. No signal and no new call is needed. -/
theorem no_deadlock (hbuf : buf.length < 2 ^ 16) (hr : driver.system.Run (start ι buf) tr) :
    System.Always (fun v =>
      (∃ p, v.place p ≠ .closed ∧ v.place p ≠ .idle) ∨
        (v.shared.hub ≠ .bound ∧ v.shared.hub ≠ .gone) →
      ∃ m, Internal m ∧ (driver.next v m).isSome) (start ι buf) tr := by
  refine (hr.always (I := Sound) (fun _ _ _ hs hstep => hs.next hstep) (sound_start hbuf)).mono
    fun v hv hbusy => ?_
  rcases hbusy with ⟨p, hclosed, hidle⟩ | ⟨hbound, hgone⟩
  · exact hv.live_of_place hclosed hidle
  · exact hv.live_of_hub hbound hgone

end

lemma session_no_deadlock : ∃ tr, driver.system.Run (start (Fin 2) [0, 0, 0, 0]) tr ∧
    tr.map Prod.fst = session ∧
    System.Always (fun v =>
      (∃ p, v.place p ≠ .closed ∧ v.place p ≠ .idle) ∨
        (v.shared.hub ≠ .bound ∧ v.shared.hub ≠ .gone) →
      ∃ m, Internal m ∧ (driver.next v m).isSome) (start (Fin 2) [0, 0, 0, 0]) tr := by
  obtain ⟨tr, hrun, hacts⟩ := exists_session
  exact ⟨tr, hrun, hacts, no_deadlock (by decide) hrun⟩

end QuickDevSkeleton.UsbSkel
