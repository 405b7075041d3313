import QuickDevSkeleton.UsbSkel.Device

/-!
# What a step can do

The steps of the processes and those around them, one rule for each way a statement of the source
can go. A law about all interleavings is proved by going through these rules once.
-/

namespace QuickDevSkeleton.UsbSkel

open Foundations

/-- The steps of a process. -/
inductive Step (s : Skel) : Pc → Skel → Pc → Prop
  -- `usb_open`, `skel_open`
  | open_enter : s.minor = true →
    Step s .closed { s with openers := s.openers + 1 } (.opening .find)
  | open_none : Step s .closed s .closed
  | open_find : s.intfdata = true → Step s (.opening .find) s (.opening .autopm)
  | open_fail (pc : OpenPc) : pc ≠ .get →
    Step s (.opening pc) { s with openers := s.openers - 1 } .closed
  | open_autopm : Step s (.opening .autopm) { s with pm_usage := s.pm_usage + 1 } (.opening .get)
  | open_get :
    Step s (.opening .get) { s with kref := s.kref + 1, openers := s.openers - 1 } .idle
  -- calls
  | read_zero (c : ReadCall) : c.count = 0 → Step s .idle s (.readRet c ⟨0, []⟩)
  | read_enter (c : ReadCall) : c.count ≠ 0 → Step s .idle s (.reading c .lock)
  | read_return (c : ReadCall) (r : Reply) : Step s (.readRet c r) s .idle
  | write_zero (c : WriteCall) : c.data.length = 0 → Step s .idle s (.writeRet c 0)
  | write_enter (c : WriteCall) : c.data.length ≠ 0 → Step s .idle s (.writing c .down)
  | write_return (c : WriteCall) (ret : ℤ) : Step s (.writeRet c ret) s .idle
  | flush_enter (last : Bool) : Step s .idle s (.flushing last .lock)
  -- `skel_read`
  | read_lock (c : ReadCall) : s.io_mutex = false →
    Step s (.reading c .lock) { s with io_mutex := true } (.reading c .held)
  | read_lock_signal (c : ReadCall) : Step s (.reading c .lock) s (.readRet c ⟨-EINTR, []⟩)
  | read_interface (c : ReadCall) : s.interface = true →
    Step s (.reading c .held) s (.reading c .retry)
  | read_gone (c : ReadCall) :
    Step s (.reading c .held) s (.reading c (.exit ⟨-ENODEV, []⟩))
  | read_again (c : ReadCall) :
    Step s (.reading c .retry) s (.reading c (.exit ⟨-EAGAIN, []⟩))
  | read_ongoing (c : ReadCall) : Step s (.reading c .retry) s (.reading c .wait)
  | read_idle (c : ReadCall) : s.ongoing_read = false →
    Step s (.reading c .retry) s (.reading c .check)
  | read_woken (c : ReadCall) : s.ongoing_read = false →
    Step s (.reading c .wait) s (.reading c .check)
  | read_signal (c : ReadCall) :
    Step s (.reading c .wait) s (.reading c (.exit ⟨-ERESTARTSYS, []⟩))
  | read_error (c : ReadCall) : s.errors < 0 →
    Step s (.reading c .check) s (.reading c (.clear s.errors))
  | read_sound (c : ReadCall) : Step s (.reading c .check) s (.reading c .data)
  | read_clear (c : ReadCall) (rv : ℤ) :
    Step s (.reading c (.clear rv)) { s with errors := 0 }
      (.reading c (.exit ⟨reported rv, []⟩))
  | read_empty (c : ReadCall) : s.bulk_in_filled = 0 ∨ s.available = 0 →
    Step s (.reading c .data) s (.reading c (.prepare c.count none))
  | read_copy (c : ReadCall) (ok : Bool) : s.bulk_in_filled ≠ 0 → s.available ≠ 0 →
    Step s (.reading c .data) (skel_read_copy s c ok).1 (.reading c (skel_read_copy s c ok).2)
  | read_begin (c : ReadCall) (count : ℕ) (r : Option Reply) :
    Step s (.reading c (.prepare count r)) { s with ongoing_read := true }
      (.reading c (.begun count r))
  | read_submit (c : ReadCall) (count : ℕ) (r : Option Reply) :
    s.enabled = true → s.reading = none →
    Step s (.reading c (.begun count r))
      { s with
        bulk_in_filled := 0, bulk_in_copied := 0
        reading := some (min s.bulk_in_size count) }
      (.reading c (.afterIo 0 r))
  | read_refused (c : ReadCall) (count e : ℕ) (r : Option Reply) : e ≠ 0 →
    Step s (.reading c (.begun count r)) { s with bulk_in_filled := 0, bulk_in_copied := 0 }
      (.reading c (.failed (-e) r))
  | read_failed (c : ReadCall) (rv : ℤ) (r : Option Reply) :
    Step s (.reading c (.failed rv r)) { s with ongoing_read := false }
      (.reading c (.afterIo (if rv = -ENOMEM then rv else - EIO) r))
  | read_exit (c : ReadCall) (r : Reply) :
    Step s (.reading c (.exit r)) { s with io_mutex := false } (.readRet c r)
  -- `skel_write`
  | write_again (c : WriteCall) : Step s (.writing c .down) s (.writeRet c (-EAGAIN))
  | write_signal (c : WriteCall) : Step s (.writing c .down) s (.writeRet c (-ERESTARTSYS))
  | write_down (c : WriteCall) : s.limit_sem ≠ 0 →
    Step s (.writing c .down) { s with limit_sem := s.limit_sem - 1 } (.writing c .errors)
  | write_error (c : WriteCall) : s.errors < 0 →
    Step s (.writing c .errors) { s with errors := 0 }
      (.writing c (.error none false (reported s.errors)))
  | write_sound (c : WriteCall) : Step s (.writing c .errors) s (.writing c .alloc)
  | write_alloc (c : WriteCall) :
    Step s (.writing c .alloc)
      { s with refs := Function.update s.refs s.fresh 1, fresh := s.fresh + 1 }
      (.writing c (.buffer s.fresh))
  | write_no_urb (c : WriteCall) :
    Step s (.writing c .alloc) s (.writing c (.error none false (-ENOMEM)))
  | write_buffer (c : WriteCall) (urb : ℕ) :
    Step s (.writing c (.buffer urb)) { s with buf := Function.update s.buf urb (some []) }
      (.writing c (.copy urb))
  | write_no_buffer (c : WriteCall) (urb : ℕ) :
    Step s (.writing c (.buffer urb)) s (.writing c (.error (some urb) false (-ENOMEM)))
  | write_copy (c : WriteCall) (urb : ℕ) :
    Step s (.writing c (.copy urb)) { s with buf := Function.update s.buf urb (some c.payload) }
      (.writing c (.lock urb))
  | write_fault (c : WriteCall) (urb : ℕ) :
    Step s (.writing c (.copy urb)) s (.writing c (.error (some urb) true (-EFAULT)))
  | write_lock (c : WriteCall) (urb : ℕ) : s.io_mutex = false →
    Step s (.writing c (.lock urb)) { s with io_mutex := true } (.writing c (.held urb))
  | write_anchor (c : WriteCall) (urb : ℕ) : s.interface = true →
    Step s (.writing c (.held urb))
      { s with
        submitted := s.submitted ++ [urb]
        refs := Function.update s.refs urb (s.refs urb + 1) }
      (.writing c (.submit urb))
  | write_gone (c : WriteCall) (urb : ℕ) :
    Step s (.writing c (.held urb)) { s with io_mutex := false }
      (.writing c (.error (some urb) true (-ENODEV)))
  | write_submit (c : WriteCall) (urb : ℕ) : s.enabled = true →
    Step s (.writing c (.submit urb))
      { s with
        queue := s.queue ++ [urb]
        refs := Function.update s.refs urb (s.refs urb + 1)
        sent := s.sent ++ [(s.buf urb).getD []] }
      (.writing c (.unlock urb 0))
  | write_refused (c : WriteCall) (urb e : ℕ) : e ≠ 0 →
    Step s (.writing c (.submit urb)) s (.writing c (.unlock urb (-e)))
  | write_unlock (c : WriteCall) (urb : ℕ) :
    Step s (.writing c (.unlock urb 0)) { s with io_mutex := false } (.writing c (.free urb))
  | write_unlock_refused (c : WriteCall) (urb : ℕ) (retval : ℤ) : retval ≠ 0 →
    Step s (.writing c (.unlock urb retval)) { s with io_mutex := false }
      (.writing c (.report urb retval))
  | write_report (c : WriteCall) (urb : ℕ) (retval : ℤ) :
    Step s (.writing c (.report urb retval)) s (.writing c (.unanchor urb retval))
  | write_free (c : WriteCall) (urb : ℕ) :
    Step s (.writing c (.free urb))
      ({ s with written := s.written ++ [c.payload] }.usb_free_urb urb)
      (.writeRet c c.writesize)
  | write_unanchor (c : WriteCall) (urb : ℕ) (retval : ℤ) :
    Step s (.writing c (.unanchor urb retval)) (s.usb_unanchor_urb urb)
      (.writing c (.error (some urb) true retval))
  | write_no_free (c : WriteCall) (buf : Bool) (retval : ℤ) :
    Step s (.writing c (.error none buf retval)) s (.writing c (.up retval))
  | write_undo (c : WriteCall) (urb : ℕ) (buf : Bool) (retval : ℤ) :
    Step s (.writing c (.error (some urb) buf retval))
      ((s.usb_free_coherent urb buf).usb_free_urb urb) (.writing c (.up retval))
  | write_up (c : WriteCall) (retval : ℤ) :
    Step s (.writing c (.up retval)) { s with limit_sem := s.limit_sem + 1 } (.writeRet c retval)
  -- `skel_flush`
  | flush_lock (last : Bool) : s.io_mutex = false →
    Step s (.flushing last .lock) { s with io_mutex := true } (.flushing last .drawAnchor)
  | flush_anchor (last : Bool) : s.submitted = [] →
    Step s (.flushing last .drawAnchor) s (.flushing last .drawRead)
  | flush_read (last : Bool) : s.reading = none →
    Step s (.flushing last .drawRead) s (.flushing last .errors)
  | flush_errors (last : Bool) :
    Step s (.flushing last .errors) { s with errors := 0 }
      (.flushing last (.unlock
        (if s.errors = 0 then 0 else if s.errors = -EPIPE then -EPIPE else - EIO)))
  | flush_unlock (res : ℤ) :
    Step s (.flushing false (.unlock res)) { s with io_mutex := false } .idle
  | flush_unlock_last (res : ℤ) :
    Step s (.flushing true (.unlock res)) { s with io_mutex := false } (.releasing .lock)
  -- `skel_release`
  | release_lock : s.io_mutex = false →
    Step s (.releasing .lock) { s with io_mutex := true } (.releasing .held)
  | release_autopm : s.interface = true →
    Step s (.releasing .held) { s with pm_usage := s.pm_usage - 1 } (.releasing .unlock)
  | release_gone : s.interface = false → Step s (.releasing .held) s (.releasing .unlock)
  | release_unlock : Step s (.releasing .unlock) { s with io_mutex := false } (.releasing .put)
  | release_put : Step s (.releasing .put) s.kref_put .closed

/-- The steps around the processes. -/
inductive EnvStep (s : Skel) : Skel → Prop
  | read_done (n : ℕ) (data : List UInt8) : s.reading = some n → data.length ≤ n →
    EnvStep s
      { s with
        bulk_in_buffer := data ++ s.bulk_in_buffer.drop data.length
        reading := none
        ongoing_read := false
        bulk_in_filled := data.length
        arrived := s.arrived ++ data }
  | read_error (n st : ℕ) (data : List UInt8) : s.reading = some n → data.length ≤ n → st ≠ 0 →
    EnvStep s
      ({ s with
        bulk_in_buffer := data ++ s.bulk_in_buffer.drop data.length
        reading := none
        ongoing_read := false }.post (-st))
  | giveback_done (urb : ℕ) : urb ∈ s.queue →
    EnvStep s ({ s with
      queue := s.queue.erase urb, giving := s.giving ++ [urb] }.usb_unanchor_urb urb)
  | giveback_error (urb st : ℕ) : urb ∈ s.queue → st ≠ 0 →
    EnvStep s (({ s with
      queue := s.queue.erase urb, giving := s.giving ++ [urb] }.usb_unanchor_urb urb).post (-st))
  | finish (urb : ℕ) : urb ∈ s.giving →
    EnvStep s (({ s with
      giving := s.giving.erase urb
      limit_sem := s.limit_sem + 1 }.usb_free_coherent urb true).usb_free_urb urb)
  | pre_reset : s.hub = .bound → EnvStep s { s with hub := .preReset }
  | pre_reset_lock : s.hub = .preReset → s.io_mutex = false →
    EnvStep s { s with io_mutex := true, hub := .drawAnchor }
  | reset_anchor : s.hub = .drawAnchor → EnvStep s { s with hub := .drawRead }
  | reset_read : s.hub = .drawRead → s.reading = none → EnvStep s { s with hub := .reset }
  | post_reset : s.hub = .reset →
    EnvStep s { s.post (-EPIPE) with io_mutex := false, hub := .bound }
  | unbind : s.hub = .bound → s.reading = none → s.queue = [] → s.giving = [] →
    EnvStep s { s with enabled := false, hub := .disconnect }
  | set_intfdata : s.hub = .disconnect → EnvStep s { s with intfdata := false, hub := .deregister }
  | deregister : s.hub = .deregister → s.openers = 0 →
    EnvStep s { s with minor := false, hub := .lock }
  | disconnect_lock : s.hub = .lock → s.io_mutex = false →
    EnvStep s { s with io_mutex := true, hub := .clear }
  | clear_interface : s.hub = .clear → EnvStep s { s with interface := false, hub := .unlock }
  | disconnect_unlock : s.hub = .unlock → EnvStep s { s with io_mutex := false, hub := .kill }
  | kill : s.hub = .kill → EnvStep s { s with hub := .put }
  | put : s.hub = .put → EnvStep s { s.kref_put with hub := .gone }

variable {s t : Skel} {y : Pc} {a : Act} {e : Env}

lemma step_of_open {pc : OpenPc} (h : skel_open s pc a = some (t, y)) :
    Step s (.opening pc) t y := by
  cases pc <;> cases a <;> simp only [skel_open, reduceCtorEq, Option.some.injEq] at h
  case find.step =>
    split at h <;> cases h
    · exact .open_find ‹_›
    · exact .open_fail _ OpenPc.noConfusion
  case find.fault | autopm.fault =>
    cases h
    exact .open_fail _ OpenPc.noConfusion
  case autopm.step =>
    cases h
    exact .open_autopm
  case get.step =>
    cases h
    exact .open_get

lemma step_of_release {pc : ReleasePc} (h : skel_release s pc a = some (t, y)) :
    Step s (.releasing pc) t y := by
  cases pc <;> cases a <;> simp only [skel_release, reduceCtorEq, Option.some.injEq] at h
  case lock.step =>
    split at h <;> cases h
    exact .release_lock (Bool.eq_false_iff.mpr ‹_›)
  case held.step =>
    cases h
    split
    · exact .release_autopm ‹_›
    · exact .release_gone (Bool.eq_false_iff.mpr ‹_›)
  case unlock.step =>
    cases h
    exact .release_unlock
  case put.step =>
    cases h
    exact .release_put

lemma step_of_flush {last : Bool} {pc : FlushPc} (h : skel_flush s last pc a = some (t, y)) :
    Step s (.flushing last pc) t y := by
  cases pc <;> cases a <;> simp only [skel_flush, reduceCtorEq, Option.some.injEq] at h
  case lock.step =>
    split at h <;> cases h
    exact .flush_lock last (Bool.eq_false_iff.mpr ‹_›)
  case drawAnchor.step =>
    split at h <;> cases h
    exact .flush_anchor last ‹_›
  case drawRead.step =>
    split at h <;> cases h
    exact .flush_read last ‹_›
  case errors.step =>
    cases h
    exact .flush_errors last
  case unlock.step =>
    cases h
    cases last
    · exact .flush_unlock _
    · exact .flush_unlock_last _

lemma step_of_do_read_io {c : ReadCall} {pc pc' : ReadPc}
    (h : skel_do_read_io s pc a = some (t, pc')) : Step s (.reading c pc) t (.reading c pc') := by
  cases pc <;> cases a <;> simp only [skel_do_read_io, reduceCtorEq, Option.some.injEq] at h
  case prepare.step =>
    cases h
    exact .read_begin c _ _
  case begun.step =>
    split at h <;> cases h
    rename_i hready
    exact .read_submit c _ _ hready.1 hready.2
  case begun.fault =>
    split at h <;> cases h
    exact .read_refused c _ _ _ ‹_›
  case failed.step =>
    cases h
    exact .read_failed c _ _

lemma step_of_read_locked {c : ReadCall} {pc pc' : ReadPc}
    (h : skel_read_locked s c pc a = some (t, pc')) : Step s (.reading c pc) t (.reading c pc') := by
  cases pc <;> cases a <;> simp only [skel_read_locked, Option.some.injEq] at h <;>
    try exact step_of_do_read_io h
  case held.step =>
    split at h <;> cases h
    · exact .read_interface c ‹_›
    · exact .read_gone c
  case retry.step =>
    split_ifs at h <;> cases h
    · exact .read_again c
    · exact .read_ongoing c
    · exact .read_idle c (Bool.eq_false_iff.mpr ‹_›)
  case wait.step =>
    split at h <;> cases h
    exact .read_woken c (Bool.eq_false_iff.mpr ‹_›)
  case wait.signal =>
    cases h
    exact .read_signal c
  case check.step =>
    split at h <;> cases h
    · exact .read_error c ‹_›
    · exact .read_sound c
  case clear.step =>
    cases h
    exact .read_clear c _
  case data.step =>
    split at h <;> cases h
    · exact .read_empty c ‹_›
    · rename_i hdata
      exact .read_copy c true (not_or.mp hdata).1 (not_or.mp hdata).2
  case data.fault =>
    split at h <;> cases h
    rename_i hdata
    exact .read_copy c false (not_or.mp hdata).1 (not_or.mp hdata).2

lemma step_of_read {c : ReadCall} {pc : ReadPc} (h : skel_read s c pc a = some (t, y)) :
    Step s (.reading c pc) t y := by
  have hlocked : ∀ {pc}, (skel_read_locked s c pc a).map (Prod.map id (Pc.reading c)) = some (t, y) →
      Step s (.reading c pc) t y := by
    intro pc h
    obtain ⟨⟨u, pc'⟩, hu, hy⟩ := Option.map_eq_some_iff.mp h
    cases hy
    exact step_of_read_locked hu
  cases pc <;> cases a <;> simp only [skel_read, Option.some.injEq] at h <;> try exact hlocked h
  case lock.step =>
    split at h <;> cases h
    exact .read_lock c (Bool.eq_false_iff.mpr ‹_›)
  case lock.signal =>
    cases h
    exact .read_lock_signal c
  case exit.step =>
    cases h
    exact .read_exit c _

lemma step_of_write_prepare {c : WriteCall} {pc : WritePc}
    (h : skel_write_prepare s c pc a = some (t, y)) : Step s (.writing c pc) t y := by
  cases pc <;> cases a <;> simp only [skel_write_prepare, reduceCtorEq, Option.some.injEq] at h
  case down.step =>
    split_ifs at h <;> cases h
    · exact .write_again c
    · exact .write_down c ‹_›
  case down.signal =>
    split at h <;> cases h
    exact .write_signal c
  case errors.step =>
    split at h <;> cases h
    · exact .write_error c ‹_›
    · exact .write_sound c
  case alloc.step =>
    cases h
    exact .write_alloc c
  case alloc.fault =>
    cases h
    exact .write_no_urb c
  case buffer.step =>
    cases h
    exact .write_buffer c _
  case buffer.fault =>
    cases h
    exact .write_no_buffer c _
  case copy.step =>
    cases h
    exact .write_copy c _
  case copy.fault =>
    cases h
    exact .write_fault c _

lemma step_of_write_submit {c : WriteCall} {pc : WritePc}
    (h : skel_write_submit s c pc a = some (t, y)) : Step s (.writing c pc) t y := by
  cases pc <;> cases a <;> simp only [skel_write_submit, reduceCtorEq, Option.some.injEq] at h
  case lock.step =>
    split at h <;> cases h
    exact .write_lock c _ (Bool.eq_false_iff.mpr ‹_›)
  case held.step =>
    split at h <;> cases h
    · exact .write_anchor c _ ‹_›
    · exact .write_gone c _
  case submit.step =>
    split at h <;> cases h
    exact .write_submit c _ ‹_›
  case submit.fault =>
    split at h <;> cases h
    exact .write_refused c _ _ ‹_›
  case unlock.step =>
    cases h
    split
    · rename_i hzero
      subst hzero
      exact .write_unlock c _
    · exact .write_unlock_refused c _ _ ‹_›
  case report.step =>
    cases h
    exact .write_report c _ _
  case free.step =>
    cases h
    exact .write_free c _
  case unanchor.step =>
    cases h
    exact .write_unanchor c _ _
  case error.step urb buf retval =>
    cases urb with
    | none =>
      cases h
      exact .write_no_free c _ _
    | some urb =>
      cases h
      exact .write_undo c _ _ _
  case up.step =>
    cases h
    exact .write_up c _

lemma step_of_write {c : WriteCall} {pc : WritePc} (h : skel_write s c pc a = some (t, y)) :
    Step s (.writing c pc) t y := by
  cases pc <;> first
    | exact step_of_write_prepare h
    | exact step_of_write_submit h

/-- What a process does is one of the rules. -/
theorem step_of_act {x : Pc} (h : x.act s a = some (t, y)) : Step s x t y := by
  cases x with
  | closed =>
    cases a <;> simp only [Pc.act, reduceCtorEq, Option.some.injEq] at h
    rw [usb_open] at h
    split at h <;> cases h
    · exact .open_enter ‹_›
    · exact .open_none
  | opening pc => exact step_of_open h
  | idle =>
    cases a <;> simp only [Pc.act, reduceCtorEq, Option.some.injEq] at h
    case read c =>
      cases h
      split
      · exact .read_zero c ‹_›
      · exact .read_enter c ‹_›
    case write c =>
      cases h
      split
      · exact .write_zero c ‹_›
      · exact .write_enter c ‹_›
    case flush =>
      cases h
      exact .flush_enter false
    case close =>
      cases h
      exact .flush_enter true
  | reading c pc => exact step_of_read h
  | readRet c r =>
    cases a <;> simp only [Pc.act, reduceCtorEq, Option.some.injEq] at h
    cases h
    exact .read_return c r
  | writing c pc => exact step_of_write h
  | writeRet c ret =>
    cases a <;> simp only [Pc.act, reduceCtorEq, Option.some.injEq] at h
    cases h
    exact .write_return c ret
  | flushing last pc => exact step_of_flush h
  | releasing pc => exact step_of_release h

lemma envStep_of_hub (h : Hub.step s = some t) : EnvStep s t := by
  rw [Hub.step] at h
  split at h
  case h_1 | h_13 => cases h
  case h_2 hhub =>
    split at h <;> cases h
    exact .pre_reset_lock hhub (Bool.eq_false_iff.mpr ‹_›)
  case h_3 hhub =>
    split at h <;> cases h
    exact .reset_anchor hhub
  case h_4 hhub =>
    split at h <;> cases h
    exact .reset_read hhub ‹_›
  case h_5 hhub =>
    cases h
    exact .post_reset hhub
  case h_6 hhub =>
    cases h
    exact .set_intfdata hhub
  case h_7 hhub =>
    split at h <;> cases h
    exact .deregister hhub ‹_›
  case h_8 hhub =>
    split at h <;> cases h
    exact .disconnect_lock hhub (Bool.eq_false_iff.mpr ‹_›)
  case h_9 hhub =>
    cases h
    exact .clear_interface hhub
  case h_10 hhub =>
    cases h
    exact .disconnect_unlock hhub
  case h_11 hhub =>
    split at h <;> cases h
    exact .kill hhub
  case h_12 hhub =>
    cases h
    exact .put hhub

/-- What happens around the processes is one of the rules. -/
theorem envStep_of_act (h : e.act s = some t) : EnvStep s t := by
  cases e with
  | skel_read_bulk_callback st data =>
    simp only [Env.act, UsbSkel.skel_read_bulk_callback] at h
    split at h
    · cases h
    · rename_i n hn
      split_ifs at h with hlen hst <;> cases h
      · exact .read_done n data hn (not_lt.mp hlen)
      · exact .read_error n st data hn (not_lt.mp hlen) hst
  | giveback urb st =>
    simp only [Env.act, UsbSkel.giveback] at h
    split_ifs at h with hmem hst <;> cases h
    · exact .giveback_done urb hmem
    · exact .giveback_error urb st hmem hst
  | finish urb =>
    simp only [Env.act, UsbSkel.finish] at h
    split_ifs at h with hmem
    cases h
    exact .finish urb hmem
  | reset =>
    simp only [Env.act] at h
    split_ifs at h with hhub
    cases h
    exact .pre_reset hhub
  | unbind =>
    simp only [Env.act] at h
    split_ifs at h with hhub
    cases h
    exact .unbind hhub.1 hhub.2.1 hhub.2.2.1 hhub.2.2.2
  | hub => exact envStep_of_hub h

lemma reported_neg {rv : ℤ} (h : rv < 0) : reported rv < 0 := by
  unfold reported
  split
  · exact h
  · decide

/-! ### A session -/

open Parties Parties.Move in
/-- The first process opens the device and writes three bytes. The second one opens it, reads two
bytes that come while it waits, and closes it. The interface is unbound, and the first process
closes the device. -/
def session : List (Parties.Move Two Act Env) :=
  [act first .open, act first .step, act first .step, act first .step,
    act first (.write ⟨[1, 2, 3], false⟩), act first .step, act first .step, act first .step,
    act first .step, act first .step, act first .step, act first .step, act first .step,
    act first .step, env (.giveback 0 0), act first .step, env (.finish 0), act first .step,
    act second .open, act second .step, act second .step, act second .step,
    act second (.read ⟨2, false⟩), act second .step, act second .step, act second .step,
    act second .step, act second .step, act second .step, act second .step, act second .step,
    env (.skel_read_bulk_callback 0 [7, 8]), act second .step, act second .step, act second .step,
    act second .step, act second .step, act second .close, act second .step, act second .step,
    act second .step, act second .step, act second .step, act second .step, act second .step,
    act second .step, act second .step, env .unbind, env .hub, env .hub, env .hub, env .hub,
    env .hub, env .hub, env .hub, act first .close, act first .step, act first .step,
    act first .step, act first .step, act first .step, act first .step, act first .step,
    act first .step, act first .step]

lemma exists_session : ∃ tr, driver.system.Run (start (Fin 2) [0, 0, 0, 0]) tr ∧
    tr.map Prod.fst = session := by
  have h : (System.final driver.next (start (Fin 2) [0, 0, 0, 0]) session).isSome := by
    decide +kernel
  exact System.exists_run_of_isSome h

end QuickDevSkeleton.UsbSkel
