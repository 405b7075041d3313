import QuickDevSkeleton.Pci.Bus
import QuickDevSkeleton.Pci.Probe

/-!
# The lifetime of a bound device

What `my_remove` and the file operations assume of a device whose probe has returned `0`, and
along which runs they can: a probe that succeeds goes on to `err_out` and takes it all back.
-/

namespace QuickDevSkeleton.Pci

open Foundations

/-- The device is enabled, its regions are requested, and its drvdata is a `struct mydev` whose
window is mapped and whose `cdev` is registered. -/
structure Serviceable (w : World) (pdev : ℕ) : Prop where
  mydev : ∃ dev d, w.drvdata pdev = some dev ∧ w.mydevs.cell dev = some d ∧ d.ioaddr ≠ 0 ∧
    w.Mapped d.ioaddr d.regs_len ∧
    ⟨MKDEV PCI_MAJOR (PCI_SLOT (w.devices pdev).devfn), dev⟩ ∈ w.cdevs
  regions : ∀ i ∈ w.bars pdev, w.regions pdev i = some .my_pci_driver
  enabled : 0 < w.enable_cnt pdev

/-- Every bound device is serviceable, and no call has used memory that it must not: neither io
addresses that are not mapped nor a null pointer. -/
structure Lifetime (s : State) : Prop where
  serviceable : ∀ pdev, s.bound pdev = true → Serviceable s.world pdev
  no_oops : s.oops = false

/-- The module is loaded: it has bound no device, registered no `cdev` and no file is open. -/
structure Loaded (s : State) : Prop where
  bound : ∀ pdev, s.bound pdev = false
  cdevs : s.world.cdevs = []
  files : ∀ fd, s.files fd = none
  no_oops : s.oops = false

/-- The action is not a probe that finds a window. -/
def NoSuccess (s : State) : Action → Prop
  | .probe pdev K => ¬ Succeeds K s.world pdev
  | _ => True

section

variable {s t : State} {a : Action}

/-- As long as no probe succeeds there is nothing to go wrong. -/
lemma Loaded.lifetime (h : Loaded s) : Lifetime s where
  serviceable pdev hb := by
    rw [h.bound pdev] at hb
    cases hb
  no_oops := h.no_oops

lemma ProbeEnds.cdevs {K : Outcomes} {pdev : ℕ} {w w' : World} {rc : ℤ}
    (h : ProbeEnds K pdev w rc w') (hno : ¬ Succeeds K w pdev) :
    rc ≠ 0 ∧ w'.cdevs = w.cdevs := by
  cases h with
  | no_memory _ => exact ⟨by decide, rfl⟩
  | not_enabled _ henable => exact ⟨henable, rfl⟩
  | failed _ _ _ hrc hleft => exact ⟨hrc, hleft.cdevs⟩
  | succeeded h _ => exact absurd h hno

/-- A failed probe binds nothing. -/
lemma Loaded.step (h : Loaded s) (hok : NoSuccess s a) (hstep : bus.step s a t) : Loaded t := by
  have hact : s.act a = some t := hstep
  cases a with
  | probe pdev K =>
    obtain ⟨rc, w', hrun, hends⟩ := my_probe_ends K pdev s.world
    obtain ⟨hrc, hcdevs⟩ := hends.cdevs hok
    rw [State.act, h.bound pdev, if_neg Bool.false_ne_true, State.exec, hrun] at hact
    cases hact
    constructor
    · intro e
      by_cases he : e = pdev
      · simp [State.bind, he, hrc]
      · simp [State.bind, he, h.bound e]
    · exact hcdevs.trans h.cdevs
    · exact h.files
    · exact h.no_oops
  | remove pdev =>
    rw [State.act, h.bound pdev, if_neg Bool.false_ne_true] at hact
    cases hact
  | open_ fd devno =>
    rw [State.act, my_open, h.cdevs] at hact
    cases hact
  | read fd _ _ | pread fd _ _ _ | write fd _ _ | pwrite fd _ _ _ | llseek fd _ _ =>
    rw [State.act, h.files fd] at hact
    cases hact
  | release fd =>
    cases hact
    refine ⟨h.bound, h.cdevs, fun e => ?_, h.no_oops⟩
    by_cases he : e = fd
    · simp [State.setFile, he]
    · simp [State.setFile, he, h.files e]

/-- A successful probe binds a device without drvdata. -/
lemma lifetime_broken (hno : ¬ NoSuccess s a) (hstep : bus.step s a t) : ¬ Lifetime t := by
  intro hlife
  have hact : s.act a = some t := hstep
  cases a with
  | probe pdev K =>
    have hsucc : Succeeds K s.world pdev := not_not.mp hno
    obtain ⟨w', hrun, htorn⟩ := my_probe_succeeds hsucc.1 hsucc.2.1 hsucc.2.2
    rw [State.act] at hact
    split_ifs at hact with hb
    rw [State.exec, hrun] at hact
    cases hact
    obtain ⟨dev, d, hdata, -⟩ := (hlife.serviceable pdev (by simp [State.bind])).mydev
    change w'.drvdata pdev = some dev at hdata
    rw [htorn.drvdata] at hdata
    cases hdata
  | _ => exact hno trivial

end

/-- Along every run from the moment the module is loaded: the bound devices are serviceable and no
call goes wrong if and only if no probe of the run can enable its device and map a window. -/
theorem lifetime_iff_noSuccess (s : State) (tr : List (Action × State)) (h : Loaded s)
    (hrun : bus.Run s tr) : System.Always Lifetime s tr ↔ System.Along NoSuccess s tr :=
  hrun.always_iff_along (fun _ => Loaded.lifetime) (fun _ _ _ => Loaded.step)
    (fun _ _ _ _ => lifetime_broken) h

/-- After a probe of a card whose regions belong to another driver. -/
def probedBusy : State :=
  ((State.loaded (some (.other 1))).act (.probe 0 Outcomes.fine)).getD (State.loaded none)

theorem lifetime_iff_noSuccess_busy :
    System.Always Lifetime (State.loaded (some (.other 1)))
      [(Action.probe 0 Outcomes.fine, probedBusy)] := by
  have hloaded : Loaded (State.loaded (some (.other 1))) :=
    ⟨fun _ => rfl, rfl, fun _ => rfl, rfl⟩
  have hstep : bus.step (State.loaded (some (.other 1))) (.probe 0 Outcomes.fine) probedBusy := rfl
  refine (lifetime_iff_noSuccess _ _ hloaded (.cons hstep (.nil _))).mpr ⟨?_, trivial⟩
  rintro ⟨-, -, hfree, -⟩
  have hbar : (World.loaded (some (.other 1))).regions 0 1 = none := hfree 1 (by decide)
  cases hbar

/-- Nobody holds the regions of the card and the kernel refuses nothing: the probe reports success,
and the removal of the card dereferences its drvdata, which is a null pointer. -/
theorem probed_card_lost :
    ∃ tr, bus.Run (State.loaded none) tr ∧
      tr.map Prod.fst = [.probe 0 Outcomes.fine, .remove 0] ∧
      ¬ System.Always Lifetime (State.loaded none) tr := by
  have hoops : (System.final State.act (State.loaded none)
      [.probe 0 Outcomes.fine, .remove 0]).map State.oops = some true := by
    decide +kernel
  refine System.exists_run_not_always hoops fun s hs hlifetime => ?_
  have hno := hlifetime.no_oops
  rw [hs] at hno
  cases hno

end QuickDevSkeleton.Pci
