import QuickDevSkeleton.UsbSkel.Lifetime
import QuickDevSkeleton.UsbSkel.Stream

/-!
# The interface pointer

`skel_disconnect` clears `dev->interface`, which the error messages of the driver dereference. The
completion handlers are safe, since the core has all urbs given back before it calls
`skel_disconnect`, and so is `skel_do_read_io`, which holds `io_mutex`. `skel_write` reports a
failed submission after it has released `io_mutex`: it is safe exactly if `skel_disconnect` does not
clear the pointer in between.
-/

namespace QuickDevSkeleton.UsbSkel

open Foundations

/-- The places where `io_mutex` is held and `dev->interface` has been found not null. -/
def Pc.bound : Pc → Bool
  | .reading _ .lock | .reading _ .held | .reading _ (.exit _) => false
  | .reading _ _ => true
  | .writing _ (.submit _) | .writing _ (.unlock _ _) => true
  | _ => false

/-- A write is at the message about its failed submission. -/
def Pc.reporting : Pc → Bool
  | .writing _ (.report _ _) => true
  | _ => false

/-- The places whose next statement dereferences `dev->interface`. -/
def Pc.derefs : Pc → Bool
  | .reading _ (.failed _ _) => true
  | pc => pc.reporting

/-- A status that a completion handler reports: unlinking an urb is no error. -/
def faulty (st : ℕ) : Bool :=
  st ≠ 0 && !(-(st : ℤ) = -ENOENT || -(st : ℤ) = -ECONNRESET || -(st : ℤ) = -ESHUTDOWN)

variable {s t : Skel} {x y z : Pc}

lemma Pc.holds_of_bound (h : x.bound = true) : x.holds = 1 := by
  cases x with
  | reading c pc =>
    cases pc with
    | lock => cases h
    | _ => rfl
  | writing c pc =>
    cases pc with
    | submit | unlock => rfl
    | _ => cases h
  | _ => cases h

lemma Pc.reporting_of_derefs (h : x.derefs = true) (hb : x.bound = false) :
    x.reporting = true := by
  cases x with
  | reading c pc =>
    cases pc with
    | failed rv r => cases hb
    | _ => cases h
  | _ => exact h

lemma Step.bound (h : Step s x t y) (hx : x.bound = true → s.interface = true)
    (hy : y.bound = true) : t.interface = true := by
  rw [h.interface]
  cases h with
  | read_interface c hbound => exact hbound
  | write_anchor c urb hbound => exact hbound
  | _ => first
    | exact hx rfl
    | cases hy

/-- `dev->interface` is not cleared under a process that holds `io_mutex`. -/
lemma EnvStep.bound (h : EnvStep s t) (hz : z.Guarded s) (hb : z.bound = true)
    (hs : s.interface = true) : t.interface = true := by
  cases h with
  | clear_interface hhub =>
    have hzero := (hz (Pc.holds_of_bound hb)).2.1
    rw [hhub] at hzero
    cases hzero
  | _ => exact hs

/-- The outline of the interface pointer. -/
def interfaceOutline : Parties.Outline Skel Pc where
  inv s := s.Flow ∧ s.Stage
  known s x := (x.Guarded s ∧ x.Replies) ∧ (x.bound = true → s.interface = true)
  apart x y := ¬ (x.holds = 1 ∧ y.holds = 1)

lemma interfaceOutline_valid : interfaceOutline.Valid driver where
  symm h hyx := h hyx.symm
  act hact hs hx :=
    have hread := readOutline_valid.act hact hs.1 hx.1
    ⟨⟨hread.1, (step_of_act hact).stage hs.2⟩, hread.2, (step_of_act hact).bound hx.2⟩
  other hact hs hx hz hxz :=
    have hread := readOutline_valid.other hact hs.1 hx.1 hz.1 hxz
    ⟨⟨hread.1, fun hb => (step_of_act hact).interface.trans (hz.2 hb)⟩, hread.2⟩
  env henv hs :=
    have hread := readOutline_valid.env henv hs.1
    ⟨⟨hread.1, (envStep_of_act henv).stage hs.2⟩, fun z hz =>
      ⟨hread.2 z hz.1, fun hb => (envStep_of_act henv).bound hz.1.1 hb (hz.2 hb)⟩⟩

section

variable {ι : Type} [DecidableEq ι] {buf : List UInt8} {v v' : Parties.State Skel Pc ι}
  {m : Parties.Move ι Act Env} {tr : List (Parties.Move ι Act Env × Parties.State Skel Pc ι)}

/-- The move dereferences `dev->interface`, and that is null. -/
def NullDeref (v : Parties.State Skel Pc ι) (m : Parties.Move ι Act Env) : Prop :=
  v.shared.interface = false ∧
    match m with
    | .act i _ => (v.place i).derefs = true
    | .env (.skel_read_bulk_callback st _) | .env (.giveback _ st) => faulty st = true
    | .env _ => False

/-- Nobody is at the message of `skel_write` while `dev->interface` is null. -/
def Reportable (v : Parties.State Skel Pc ι) : Prop :=
  v.shared.interface = false → ∀ i, (v.place i).reporting = false

/-- `skel_disconnect` clears `dev->interface` while nobody is at that message. -/
def ClearsInTime (v : Parties.State Skel Pc ι) (m : Parties.Move ι Act Env) : Prop :=
  m = .env .hub → v.shared.hub = .clear → ∀ i, (v.place i).reporting = false

/-- Only the message of `skel_write` can find the pointer null. -/
lemma reporting_of_nullDeref (hv : interfaceOutline.Holds v) (h : driver.next v m = some v')
    (hnull : NullDeref v m) : ∃ i a, m = .act i a ∧ (v.place i).reporting = true := by
  obtain ⟨hinterface, hm⟩ := hnull
  have hstage : v.shared.Stage := hv.inv.2
  have hdisabled : v.shared.enabled = false := by
    have hcleared := hstage.interface
    rw [hstage.enabled]
    rw [hinterface] at hcleared
    cases hh : v.shared.hub <;> rw [hh] at hcleared <;> first
      | rfl
      | cases hcleared
  obtain ⟨hreading, hqueue, -⟩ := hstage.idle hdisabled
  cases m with
  | act i a =>
    refine ⟨i, a, rfl, Pc.reporting_of_derefs hm (Bool.eq_false_iff.mpr fun hb => ?_)⟩
    rw [(hv.known i).2 hb] at hinterface
    cases hinterface
  | env e =>
    obtain ⟨t, henv, -⟩ := Parties.next_env.mp h
    cases e with
    | skel_read_bulk_callback st data =>
      simp [driver, Env.act, UsbSkel.skel_read_bulk_callback, hreading] at henv
    | giveback urb st =>
      simp [driver, Env.act, UsbSkel.giveback, hqueue] at henv
    | _ => cases hm

/-- A submission fails, and the write gets to its message, while `dev->interface` is not null. -/
lemma Step.reporting (h : Step s x t y) (hx : x.bound = true → s.interface = true)
    (hy : y.reporting = true) : t.interface = true := by
  cases h with
  | write_unlock_refused => exact hx rfl
  | read_submit c count r | read_failed c rv r => cases r <;> cases hy
  | _ => cases hy

/-- Only the core's own step clears the pointer. -/
lemma Env.clears {e : Env} (h : e.act s = some t) (hs : s.interface = true)
    (ht : t.interface = false) : e = .hub ∧ s.hub = .clear := by
  have hne : t.interface ≠ s.interface := by simp [hs, ht]
  cases e with
  | hub =>
    refine ⟨rfl, ?_⟩
    cases envStep_of_hub h with
    | clear_interface hhub => exact hhub
    | _ => exact absurd rfl hne
  | skel_read_bulk_callback st data =>
    simp only [Env.act, UsbSkel.skel_read_bulk_callback] at h
    split at h
    · cases h
    · split_ifs at h <;> cases h <;> exact absurd rfl hne
  | giveback urb st =>
    simp only [Env.act, UsbSkel.giveback] at h
    split_ifs at h <;> cases h <;> exact absurd rfl hne
  | finish urb =>
    simp only [Env.act, UsbSkel.finish] at h
    split_ifs at h
    cases h
    exact absurd rfl hne
  | reset | unbind =>
    simp only [Env.act] at h
    split_ifs at h
    cases h
    exact absurd rfl hne

lemma Reportable.next (hv : interfaceOutline.Holds v) (hs : Reportable v) (hok : ClearsInTime v m)
    (h : driver.next v m = some v') : Reportable v' := by
  intro hnull
  cases m with
  | act i a =>
    obtain ⟨t, y, hact, rfl⟩ := Parties.next_act.mp h
    have hstep := step_of_act hact
    refine Parties.forall_place_update (Q := fun z : Pc => z.reporting = false)
      (Bool.eq_false_iff.mpr fun hy => ?_) fun j _ => hs (hstep.interface ▸ hnull) j
    have hbound := hstep.reporting (hv.known i).2 hy
    rw [show t.interface = false from hnull] at hbound
    cases hbound
  | env e =>
    obtain ⟨t, henv, rfl⟩ := Parties.next_env.mp h
    rcases hinterface : v.shared.interface with _ | _
    · exact hs hinterface
    · obtain ⟨rfl, hhub⟩ := Env.clears henv hinterface hnull
      exact hok rfl hhub

/-- If `skel_disconnect` clears the pointer while a write is at its message, that message finds it
null. -/
lemma Reportable.breaks (hok : ¬ ClearsInTime v m) (h : driver.next v m = some v') :
    ¬ Reportable v' := by
  rw [ClearsInTime, Classical.not_imp, Classical.not_imp] at hok
  obtain ⟨rfl, hhub, hreporting⟩ := hok
  obtain ⟨t, henv, rfl⟩ := Parties.next_env.mp h
  have ht : t = { v.shared with interface := false, hub := .unlock } := by
    simp only [driver, Env.act, Hub.step, hhub] at henv
    exact (Option.some.inj henv).symm
  exact fun hr => hreporting (hr (by rw [ht]))

omit [DecidableEq ι] in
lemma interfaceOutline_start (hbuf : buf.length < 2 ^ 16) :
    interfaceOutline.Holds (start ι buf) where
  inv := ⟨(readOutline_start (ι := ι) hbuf).inv, rfl, fun h => (by cases h), fun h => (by cases h),
    rfl⟩
  known i := ⟨(readOutline_start hbuf).known i, fun h => by cases h⟩
  apart := (readOutline_start hbuf).apart

/-- In every run, the only statement that can dereference `dev->interface` while it is null is the
message of `skel_write` about a failed submission; and no process ever stands there with the
pointer null exactly if `skel_disconnect` clears it while no process stands there. -/
theorem interface_dereferenced (hbuf : buf.length < 2 ^ 16)
    (hr : driver.system.Run (start ι buf) tr) :
    System.Along (fun v m => NullDeref v m →
      ∃ i a, m = .act i a ∧ (v.place i).reporting = true) (start ι buf) tr ∧
    (System.Always Reportable (start ι buf) tr ↔ System.Along ClearsInTime (start ι buf) tr) := by
  constructor
  · exact hr.along (I := interfaceOutline.Holds)
      (fun _ _ _ hs hstep => interfaceOutline_valid.next hs hstep)
      (fun _ _ _ hs hstep => reporting_of_nullDeref hs hstep) (interfaceOutline_start hbuf)
  · exact hr.always_iff_along (I := fun v => interfaceOutline.Holds v ∧ Reportable v)
      (fun _ hs => hs.2)
      (fun _ _ _ hs hok hstep =>
        ⟨interfaceOutline_valid.next hs.1 hstep, hs.2.next hs.1 hok hstep⟩)
      (fun _ _ _ _ hok hstep => Reportable.breaks hok hstep)
      ⟨interfaceOutline_start hbuf, fun h => (by cases h)⟩

end

open Parties Parties.Move in
/-- The first process opens the device and writes three bytes, whose submission is refused. It has
released `io_mutex` and is at its message. -/
def refusal : List (Parties.Move Two Act Env) :=
  [act first .open, act first .step, act first .step, act first .step,
    act first (.write ⟨[1, 2, 3], false⟩), act first .step, act first .step, act first .step,
    act first .step, act first .step, act first .step, act first .step, act first (.fault 19),
    act first .step]

open Parties Parties.Move in
/-- The write returns before the interface is unbound. -/
def refusalThenUnbind : List (Parties.Move Two Act Env) :=
  refusal ++ [act first .step, act first .step, act first .step, act first .step, act first .step,
    env .unbind, env .hub, env .hub, env .hub, env .hub, env .hub, env .hub, env .hub]

open Parties Parties.Move in
/-- The interface is unbound while the write is at its message, up to the moment when
`skel_disconnect` is about to clear the pointer. -/
def unbindAtMessage : List (Parties.Move Two Act Env) :=
  refusal ++ [env .unbind, env .hub, env .hub, env .hub]

/-- A refused submission that is reported in time, and one that is not. -/
theorem session_interface_dereferenced :
    (∃ tr, driver.system.Run (start (Fin 2) [0, 0, 0, 0]) tr ∧
      tr.map Prod.fst = refusalThenUnbind ∧
      System.Along (fun v m => NullDeref v m →
        ∃ i a, m = .act i a ∧ (v.place i).reporting = true) (start (Fin 2) [0, 0, 0, 0]) tr ∧
      System.Always Reportable (start (Fin 2) [0, 0, 0, 0]) tr) ∧
    ∃ tr, driver.system.Run (start (Fin 2) [0, 0, 0, 0]) tr ∧
      tr.map Prod.fst = unbindAtMessage ++ [.env .hub] ∧
      ¬ System.Always Reportable (start (Fin 2) [0, 0, 0, 0]) tr := by
  constructor
  · have h : (System.final (System.checked driver.next fun v _ =>
        v.shared.hub = .clear → ∀ i, (v.place i).reporting = false)
        (start (Fin 2) [0, 0, 0, 0]) refusalThenUnbind).isSome := by
      decide +kernel
    obtain ⟨tr, hrun, hacts, halong⟩ := System.exists_run_along h
    obtain ⟨honly, hiff⟩ := interface_dereferenced (by decide) hrun
    exact ⟨tr, hrun, hacts, honly, hiff.mpr (halong.mono fun _ _ hok _ => hok)⟩
  · have h : (System.final driver.next (start (Fin 2) [0, 0, 0, 0]) unbindAtMessage).map
        (fun v => (v.shared.hub, (v.place Parties.first).reporting)) = some (.clear, true) := by
      decide +kernel
    obtain ⟨v, hv, hstands⟩ := Option.map_eq_some_iff.mp h
    obtain ⟨hhub, hreporting⟩ := Prod.mk.inj hstands
    have hnext : (driver.next v (.env .hub)).isSome := by
      simp [Parties.next, driver, Env.act, Hub.step, hhub]
    have hearly : ¬ ClearsInTime v (.env .hub) := fun hok =>
      Bool.noConfusion (hreporting.symm.trans (hok rfl hhub Parties.first))
    obtain ⟨tr, hrun, hacts, hnot⟩ := System.exists_run_not_along hv hnext hearly
    exact ⟨tr, hrun, hacts, fun hall => hnot ((interface_dereferenced (by decide) hrun).2.mp hall)⟩

end QuickDevSkeleton.UsbSkel
