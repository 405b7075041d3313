import QuickDevSkeleton.UsbSkel.Permits

/-!
# The life of the device

`struct usb_skel` is referenced by the bound interface and by every open file. `skel_disconnect`
drops the first reference, `skel_release` the others, and the last one runs `skel_delete`. A
process in `skel_open` has no reference yet; what keeps the device alive for it is that
`usb_deregister_dev` waits for `minor_rwsem`.
-/

namespace QuickDevSkeleton.UsbSkel

open Foundations

namespace Hub

/-- The interface's reference to the device. -/
def refs : Hub → ℕ
  | gone => 0
  | _ => 1

/-- The endpoints are disabled. -/
def ending : Hub → Bool
  | disconnect | deregister | lock | clear | unlock | kill | put | gone => true
  | _ => false

/-- The minor has been given back. -/
def deregistered : Hub → Bool
  | lock | clear | unlock | kill | put | gone => true
  | _ => false

/-- `dev->interface` has been cleared. -/
def cleared : Hub → Bool
  | unlock | kill | put | gone => true
  | _ => false

end Hub

/-- How far the core is with the end of the device. -/
structure Skel.Stage (s : Skel) : Prop where
  enabled : s.enabled = !s.hub.ending
  idle : s.enabled = false → s.reading = none ∧ s.queue = [] ∧ s.giving = []
  minor : s.hub.deregistered = true → s.minor = false ∧ s.openers = 0
  interface : s.interface = !s.hub.cleared

/-- A process in `skel_open`. -/
def Pc.opener : Pc → ℕ
  | .opening _ => 1
  | _ => 0

/-- The reference of an open file. -/
def Pc.file : Pc → ℕ
  | .closed | .opening _ => 0
  | _ => 1

variable {s t : Skel} {x y : Pc}

lemma Step.stage (h : Step s x t y) (hs : s.Stage) : t.Stage := by
  cases h with
  | open_enter hminor =>
    refine { hs with minor := fun hhub => ?_ }
    rw [(hs.minor hhub).1] at hminor
    cases hminor
  | open_fail pc | open_get =>
    refine { hs with minor := fun hhub => ⟨(hs.minor hhub).1, ?_⟩ }
    simp [(hs.minor hhub).2]
  | read_submit c count r henabled =>
    refine { hs with idle := fun hno => ?_ }
    rw [henabled] at hno
    cases hno
  | write_submit c urb henabled =>
    refine { hs with idle := fun hno => ?_ }
    rw [henabled] at hno
    cases hno
  | _ => exact { hs with }

lemma EnvStep.stage (h : EnvStep s t) (hs : s.Stage) : t.Stage := by
  have hmem : ∀ {urb : ℕ}, urb ∈ s.queue ∨ urb ∈ s.giving → s.enabled ≠ false := by
    intro urb hurb hno
    obtain ⟨-, hqueue, hgiving⟩ := hs.idle hno
    rw [hqueue, hgiving] at hurb
    simp at hurb
  cases h with
  | read_done | read_error => exact { hs with idle := fun hno => ⟨rfl, (hs.idle hno).2⟩ }
  | giveback_done urb hurb | giveback_error urb st hurb =>
    exact { hs with idle := fun hno => absurd hno (hmem (Or.inl hurb)) }
  | finish urb hurb => exact { hs with idle := fun hno => absurd hno (hmem (Or.inr hurb)) }
  | unbind hhub hreading hqueue hgiving =>
    obtain ⟨henabled, hidle, hminor, hinterface⟩ := hs
    rw [hhub] at hinterface
    exact ⟨rfl, fun _ => ⟨hreading, hqueue, hgiving⟩, fun h => (by cases h), hinterface⟩
  | deregister hhub hopeners =>
    obtain ⟨henabled, hidle, hminor, hinterface⟩ := hs
    rw [hhub] at henabled hinterface
    exact ⟨henabled, hidle, fun _ => ⟨rfl, hopeners⟩, hinterface⟩
  | clear_interface hhub =>
    obtain ⟨henabled, hidle, hminor, hinterface⟩ := hs
    rw [hhub] at henabled hminor
    exact ⟨henabled, hidle, hminor, rfl⟩
  | pre_reset hhub | pre_reset_lock hhub | reset_anchor hhub | reset_read hhub | post_reset hhub
  | set_intfdata hhub | disconnect_lock hhub | disconnect_unlock hhub | kill hhub | put hhub =>
    obtain ⟨henabled, hidle, hminor, hinterface⟩ := hs
    rw [hhub] at henabled hinterface hminor
    exact ⟨henabled, hidle, hminor, hinterface⟩

/-! ### The references -/

lemma Step.openers (h : Step s x t y) {r : ℕ} (hr : s.openers = 0 + (x.opener + r)) :
    t.openers = 0 + (y.opener + r) := by
  cases h with
  | open_enter hminor | open_fail pc | open_get =>
    simp only [Pc.opener] at hr ⊢
    omega
  | _ => exact hr

lemma EnvStep.openers (h : EnvStep s t) : t.openers = s.openers := by
  cases h <;> rfl

lemma Step.kref (h : Step s x t y) {r : ℕ} (hr : s.kref = s.hub.refs + (x.file + r)) :
    t.kref = t.hub.refs + (y.file + r) := by
  cases h with
  | open_get | release_put =>
    simp only [Pc.file, Skel.kref_put] at hr ⊢
    omega
  | _ => exact hr

lemma EnvStep.kref (h : EnvStep s t) {r : ℕ} (hr : s.kref = s.hub.refs + r) :
    t.kref = t.hub.refs + r := by
  cases h with
  | put hhub =>
    rw [hhub] at hr
    simp only [Hub.refs, Skel.kref_put] at hr ⊢
    omega
  | pre_reset hhub | pre_reset_lock hhub | reset_anchor hhub | reset_read hhub | post_reset hhub
  | unbind hhub | set_intfdata hhub | deregister hhub | disconnect_lock hhub | clear_interface hhub
  | disconnect_unlock hhub | kill hhub =>
    rw [hhub] at hr
    exact hr
  | _ => exact hr

/-- `skel_delete` has run once if the last reference is gone, and otherwise not at all. -/
def Skel.Deleted (s : Skel) : Prop := s.deleted = if s.kref = 0 then 1 else 0

lemma Skel.Deleted.kref_put (hs : s.Deleted) (h : s.kref ≠ 0) : s.kref_put.Deleted := by
  rw [Skel.Deleted, if_neg h] at hs
  simp only [Skel.Deleted, Skel.kref_put, hs]
  by_cases hone : s.kref = 1
  · simp [hone]
  · rw [if_neg hone, if_neg (by omega)]

lemma Step.deleted (h : Step s x t y) (hs : s.Deleted)
    (hx : x.file = 1 ∨ x.opener = 1 → s.kref ≠ 0) : t.Deleted := by
  cases h with
  | open_get =>
    have hne := hx (Or.inr rfl)
    rw [Skel.Deleted, if_neg hne] at hs
    simp [Skel.Deleted, hs]
  | release_put => exact hs.kref_put (hx (Or.inl rfl))
  | _ => exact hs

lemma EnvStep.deleted (h : EnvStep s t) (hs : s.Deleted) (hhub : s.hub = .put → s.kref ≠ 0) :
    t.Deleted := by
  cases h with
  | put h => exact hs.kref_put (hhub h)
  | _ => exact hs

/-! ### Power management -/

/-- The power management reference of an open file, up to the test in `skel_release`. -/
def Pc.pm : Pc → ℕ
  | .closed | .opening .find | .opening .autopm | .releasing .unlock | .releasing .put => 0
  | _ => 1

lemma Step.interface (h : Step s x t y) : t.interface = s.interface := by
  cases h <;> rfl

lemma EnvStep.interface (h : EnvStep s t) (ht : t.interface = true) : s.interface = true := by
  cases h with
  | clear_interface => cases ht
  | _ => exact ht

lemma Step.pm (h : Step s x t y) (hbound : s.interface = true) {r : ℕ}
    (hr : s.pm_usage = 0 + (x.pm + r)) : t.pm_usage = 0 + (y.pm + r) := by
  cases h with
  | open_autopm | release_autopm =>
    simp only [Pc.pm] at hr ⊢
    omega
  | release_gone hgone =>
    rw [hbound] at hgone
    cases hgone
  | open_fail pc hget =>
    cases pc with
    | get => exact absurd rfl hget
    | _ => exact hr
  | _ => exact hr

lemma EnvStep.pm (h : EnvStep s t) : t.pm_usage = s.pm_usage := by
  cases h <;> rfl

/-! ### Every run -/

section

variable {ι : Type} [Fintype ι] [DecidableEq ι] {v v' : Parties.State Skel Pc ι}
  {m : Parties.Move ι Act Env} {tr : List (Parties.Move ι Act Env × Parties.State Skel Pc ι)}
  {buf : List UInt8}

/-- What holds of the device's references. -/
structure Alive (v : Parties.State Skel Pc ι) : Prop where
  stage : v.shared.Stage
  openers : v.shared.openers = 0 + Parties.tally Pc.opener v.place
  kref : v.shared.kref = v.shared.hub.refs + Parties.tally Pc.file v.place
  deleted : v.shared.Deleted
  pm : v.shared.interface = true → v.shared.pm_usage = 0 + Parties.tally Pc.pm v.place

/-- A process with a file, or in `skel_open`, keeps the device alive. -/
lemma Alive.kref_ne (hv : Alive v) {i : ι} (hi : (v.place i).file = 1 ∨ (v.place i).opener = 1) :
    v.shared.kref ≠ 0 := by
  have hkref := hv.kref
  rcases hi with hi | hi
  · have hle := Parties.le_tally Pc.file v.place i
    omega
  · have hle := Parties.le_tally Pc.opener v.place i
    have hopeners := hv.openers
    have hhub : v.shared.hub.refs = 1 := by
      have hminor := hv.stage.minor
      cases hh : v.shared.hub with
      | gone =>
        rw [hh] at hminor
        have hzero := (hminor rfl).2
        omega
      | _ => rfl
    omega

lemma Alive.next (hv : Alive v) (h : driver.next v m = some v') : Alive v' where
  stage := by
    cases m with
    | act i a =>
      obtain ⟨t, y, hact, rfl⟩ := Parties.next_act.mp h
      exact (step_of_act hact).stage hv.stage
    | env e =>
      obtain ⟨t, henv, rfl⟩ := Parties.next_env.mp h
      exact (envStep_of_act henv).stage hv.stage
  openers := by
    refine Parties.next_ledger (c := Skel.openers) (m := fun _ => 0) h
      (fun i a y hact r hr => (step_of_act hact).openers hr) (fun e henv r hr => ?_) hv.openers
    rw [(envStep_of_act henv).openers]
    exact hr
  kref := by
    refine Parties.next_ledger (c := Skel.kref) (m := fun s => s.hub.refs) h
      (fun i a y hact r hr => (step_of_act hact).kref hr)
      (fun e henv r hr => (envStep_of_act henv).kref hr) hv.kref
  deleted := by
    cases m with
    | act i a =>
      obtain ⟨t, y, hact, rfl⟩ := Parties.next_act.mp h
      exact (step_of_act hact).deleted hv.deleted hv.kref_ne
    | env e =>
      obtain ⟨t, henv, rfl⟩ := Parties.next_env.mp h
      refine (envStep_of_act henv).deleted hv.deleted fun hhub => ?_
      have hkref := hv.kref
      rw [hhub, Hub.refs] at hkref
      · omega
      · exact fun h => by cases h
  pm hbound := by
    have hbefore : v.shared.interface = true := by
      cases m with
      | act i a =>
        obtain ⟨t, y, hact, rfl⟩ := Parties.next_act.mp h
        exact (step_of_act hact).interface ▸ hbound
      | env e =>
        obtain ⟨t, henv, rfl⟩ := Parties.next_env.mp h
        exact (envStep_of_act henv).interface hbound
    refine Parties.next_ledger (c := Skel.pm_usage) (m := fun _ => 0) h
      (fun i a y hact r hr => (step_of_act hact).pm hbefore hr) (fun e henv r hr => ?_)
      (hv.pm hbefore)
    rw [(envStep_of_act henv).pm]
    exact hr

omit [DecidableEq ι] in
lemma alive_start : Alive (start ι buf) where
  stage := ⟨rfl, fun h => (by cases h), fun h => (by cases h), rfl⟩
  openers := by simp [start, Skel.probed, Parties.tally, Pc.opener]
  kref := by simp [start, Skel.probed, Parties.tally, Pc.file, Hub.refs]
  deleted := rfl
  pm _ := by simp [start, Skel.probed, Parties.tally, Pc.pm]

lemma Alive.always (hr : driver.system.Run (start ι buf) tr) :
    System.Always Alive (start ι buf) tr :=
  hr.always (fun _ _ _ hs hstep => hs.next hstep) alive_start

/-- However opens, closes, completions and the end of the device interleave: `kref` counts the
bound interface and the open files, and `skel_delete` runs once, when the last of them is gone. It
has not run while a process is anywhere in the driver, `skel_open` included, or while an urb is with
the core. As long as the interface is bound, its usage count is the number of open files. -/
theorem device_lifetime (hr : driver.system.Run (start ι buf) tr) :
    System.Always (fun v =>
      v.shared.kref = v.shared.hub.refs + Parties.tally Pc.file v.place ∧
      v.shared.deleted = (if v.shared.kref = 0 then 1 else 0) ∧
      (∀ p, v.place p ≠ .closed → v.shared.deleted = 0) ∧
      (v.shared.reading ≠ none ∨ v.shared.queue ≠ [] ∨ v.shared.giving ≠ [] →
        v.shared.deleted = 0) ∧
      (v.shared.interface = true → v.shared.pm_usage = Parties.tally Pc.pm v.place))
      (start ι buf) tr := by
  refine (Alive.always hr).mono fun v h => ?_
  have hzero : v.shared.kref ≠ 0 → v.shared.deleted = 0 := fun hne => by
    rw [h.deleted, if_neg hne]
  refine ⟨h.kref, h.deleted, fun p hp => hzero (h.kref_ne (i := p) ?_), fun hcore => hzero ?_,
    fun hbound => (h.pm hbound).trans (Nat.zero_add _)⟩
  · cases hplace : v.place p with
    | closed => exact absurd hplace hp
    | opening pc => exact Or.inr rfl
    | _ => exact Or.inl rfl
  · have henabled : v.shared.enabled = true := by
      by_contra hno
      obtain ⟨hreading, hqueue, hgiving⟩ := h.stage.idle (Bool.not_eq_true _ ▸ hno)
      rcases hcore with hcore | hcore | hcore
      · exact hcore hreading
      · exact hcore hqueue
      · exact hcore hgiving
    have hkref := h.kref
    have hhub : v.shared.hub.refs = 1 := by
      have hending := h.stage.enabled
      cases hh : v.shared.hub with
      | gone =>
        rw [hh, henabled] at hending
        cases hending
      | _ => rfl
    omega

end

lemma session_device_lifetime : ∃ tr, driver.system.Run (start (Fin 2) [0, 0, 0, 0]) tr ∧
    tr.map Prod.fst = session ∧
    System.Always (fun v =>
      v.shared.kref = v.shared.hub.refs + Parties.tally Pc.file v.place ∧
      v.shared.deleted = (if v.shared.kref = 0 then 1 else 0) ∧
      (∀ p, v.place p ≠ .closed → v.shared.deleted = 0) ∧
      (v.shared.reading ≠ none ∨ v.shared.queue ≠ [] ∨ v.shared.giving ≠ [] →
        v.shared.deleted = 0) ∧
      (v.shared.interface = true → v.shared.pm_usage = Parties.tally Pc.pm v.place))
      (start (Fin 2) [0, 0, 0, 0]) tr := by
  obtain ⟨tr, hrun, hacts⟩ := exists_session
  exact ⟨tr, hrun, hacts, device_lifetime hrun⟩

end QuickDevSkeleton.UsbSkel
