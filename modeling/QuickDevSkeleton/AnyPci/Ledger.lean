import QuickDevSkeleton.AnyPci.Driver

/-!
# The ledger of the driver

`girlf` has one sequence of releases for every state of a card, and none of the states is the one
it fits: it takes a registered net device without unregistering it, and before the registration
there is no class device yet. So the ledger is right as long as `girlf` has nothing to do, that
is as long as every probe of a card succeeds and no card is removed.
-/

namespace QuickDevSkeleton.AnyPci

open Foundations

/-- No `NULL` pointer was followed, all that was released was held, a device without driver has
nothing held for it, and the class was not used when it did not exist. -/
structure Ledger (s : State) : Prop where
  oops : s.oops = false
  releases : ∀ x ∈ s.world.releases, x.held = true
  rest : ∀ dev, dev ∉ s.bound → s.world.held dev = []
  class_misused : s.world.class_misused = false

/-- Every call that `girlp` looks at succeeds. -/
def Outcomes.Succeeds (K : Outcomes) : Prop :=
  K.alloc_etherdev = true ∧ K.register_netdev = true ∧ K.pci_enable_device = true ∧
    K.request_region = true ∧ K.request_mem_region = true ∧ K.ioremap ≠ 0 ∧ K.cdev_add = true

instance (K : Outcomes) : Decidable K.Succeeds :=
  inferInstanceAs (Decidable (_ ∧ _))

/-- A probe of a card succeeds, while there is the class, and no card is removed. -/
def LedgerOk (s : State) : Action → Prop
  | .probe dev K => s.world.Matching dev → K.Succeeds ∧ s.world.pf_class = true
  | .remove dev => ¬ s.world.Matching dev
  | _ => True

instance (s : State) (a : Action) : Decidable (LedgerOk s a) := by
  cases a with
  | probe | remove =>
    simp only [LedgerOk]
    exact inferInstance
  | class_destroy | unregistered =>
    exact instDecidableTrue

/-! ### The calls as functions on the state -/

namespace World

variable (w : World) (dev : ℕ) (r : Resource) (pt : Option PciTest)

def acquired : World :=
  { w with held := Function.update w.held dev (w.held dev ++ [r]) }

def withData : World :=
  { w with driver_data := Function.update w.driver_data dev pt }

@[simp] lemma acquired_held : (w.acquired dev r).held dev = w.held dev ++ [r] :=
  Function.update_self _ _ _

@[simp] lemma withData_held : (w.withData dev pt).held = w.held := rfl

@[simp] lemma acquired_devices : (w.acquired dev r).devices = w.devices := rfl

@[simp] lemma withData_devices : (w.withData dev pt).devices = w.devices := rfl

end World

section

variable {dev : ℕ} {r : Resource} {w u : World} {K : Outcomes} {rc : ℤ}

lemma acquire_bind {α : Type} (f : Unit → Exec World α) :
    (acquire dev r >>= f) w = f ⟨⟩ (w.acquired dev r) := rfl

lemma set_driver_data_bind {α : Type} {pt : Option PciTest} (f : Unit → Exec World α) :
    (set_driver_data dev pt >>= f) w = f ⟨⟩ (w.withData dev pt) := rfl

/-! ### What `girlf` does to a card -/

/-- Something was released that was not held, or the registration will never be. -/
def Spoilt (dev : ℕ) (w : World) : Prop :=
  (∃ x ∈ w.releases, x.held = false) ∨ .registration ∈ w.held dev

/-- The states in which `girlf` finds a card: registered, or without a class device. -/
def Suspect (dev : ℕ) (w : World) : Prop :=
  .registration ∈ w.held dev ∨ ∀ devno, .class_device devno ∉ w.held dev

lemma release_spoilt (hr : r ≠ .registration) : Exec.Keeps (Spoilt dev) (release dev r) := by
  refine Exec.Keeps.modify fun w hw => ?_
  rcases hw with ⟨x, hx, hheld⟩ | hreg
  · exact Or.inl ⟨x, List.mem_append_left _ hx, hheld⟩
  · right
    change _ ∈ Function.update w.held dev _ dev
    rw [Function.update_self]
    exact (List.mem_erase_of_ne hr.symm).mpr hreg

lemma set_driver_data_spoilt (pt : Option PciTest) :
    Exec.Keeps (Spoilt dev) (set_driver_data dev pt) :=
  Exec.Keeps.modify fun _ hw => hw

/-- The first release takes a class device that is not there, or leaves the registration. -/
lemma device_destroy_spoilt (h : Suspect dev w) (devno : ℕ) :
    Spoilt dev (device_destroy dev devno w).2 := by
  rcases h with hreg | hnone
  · right
    change _ ∈ Function.update w.held dev _ dev
    rw [Function.update_self]
    exact (List.mem_erase_of_ne (by simp)).mpr hreg
  · refine Or.inl ⟨⟨dev, .class_device devno, _⟩, ?_, decide_eq_false (hnone devno)⟩
    exact List.mem_append_right _ (List.mem_singleton_self _)

/-- `girlf` on a card follows a `NULL` pointer or spoils the ledger. -/
lemma girlf_card (hm : w.Matching dev) (h : Suspect dev w) :
    (girlf dev w).1 = none ∨ Spoilt dev (girlf dev w).2 := by
  rw [girlf, Exec.withState_run, if_pos hm, removeCard, Exec.withState_run]
  cases hdata : w.driver_data dev with
  | none => exact Or.inl rfl
  | some pt =>
    right
    have hrest : Exec.Keeps (Spoilt dev) (do
        release dev .cdev
        release dev (.chrdev pt.cds_dev)
        release dev (.mapping pt.iomem_start)
        release dev .enable
        release dev .io_region
        release dev .mem_region
        release dev .netdev
        set_driver_data dev none) := by
      refine .bind (release_spoilt (by simp)) fun _ => .bind (release_spoilt (by simp)) fun _ =>
        .bind (release_spoilt (by simp)) fun _ => .bind (release_spoilt (by simp)) fun _ =>
        .bind (release_spoilt (by simp)) fun _ => .bind (release_spoilt (by simp)) fun _ =>
        .bind (release_spoilt (by simp)) fun _ => set_driver_data_spoilt none
    exact hrest _ (device_destroy_spoilt h pt.cds_dev)

/-- A device that is no card. -/
lemma girlf_other (hm : ¬ w.Matching dev) : girlf dev w = (some (), w) := by
  rw [girlf, Exec.withState_run, if_neg hm]
  rfl

/-- A probe that fails: it follows a `NULL` pointer, or returns an error with the ledger
spoilt. -/
def Fails (dev : ℕ) (x : Option ℤ × World) : Prop :=
  x.1 = none ∨ ∃ rc, x.1 = some rc ∧ rc ≠ 0 ∧ Spoilt dev x.2

lemma fail_fails (hrc : rc ≠ 0) (hm : w.Matching dev) (h : Suspect dev w) :
    Fails dev (fail dev rc w) := by
  have hcard := girlf_card hm h
  rcases hrun : girlf dev w with ⟨_ | ⟨⟩, u⟩
  · rw [fail, Exec.bind_run_none hrun]
    exact Or.inl rfl
  · rw [hrun] at hcard
    rw [fail, Exec.bind_run_some hrun]
    rcases hcard with hnone | hspoilt
    · cases hnone
    · exact Or.inr ⟨rc, rfl, hrc, hspoilt⟩

/-! ### The probe of a card -/

/-- A call of the probe fails, or the probe goes on. -/
lemma guard_fails {ok : Bool} {x : Exec World ℤ} (hfail : Fails dev (fail dev rc w))
    (hgo : ok = true → Fails dev (x w)) : Fails dev ((if !ok then fail dev rc else x) w) := by
  cases ok with
  | true => exact hgo rfl
  | false => exact hfail

/-- A probe of a card in which a call fails. -/
lemma probeCard_fails (hm : w.Matching dev) (hnone : w.held dev = []) (h : ¬ K.Succeeds) :
    Fails dev (probeCard K dev w) := by
  have herr : (-1 : ℤ) ≠ 0 := by decide
  rw [probeCard]
  refine guard_fails (fail_fails (by decide) hm (Or.inr ?_)) fun halloc => ?_
  · intro devno
    rw [hnone]
    exact List.not_mem_nil
  rw [acquire_bind, set_driver_data_bind]
  refine guard_fails (fail_fails herr hm (Or.inr ?_)) fun hreg => ?_
  · intro devno
    simp [hnone]
  -- the net device is registered, and stays so
  rw [acquire_bind]
  refine guard_fails (fail_fails herr hm (Or.inl (by simp))) fun henable => ?_
  rw [acquire_bind]
  refine guard_fails (fail_fails herr hm (Or.inl (by simp))) fun hio => ?_
  rw [acquire_bind]
  refine guard_fails (fail_fails herr hm (Or.inl (by simp))) fun hmem => ?_
  rw [acquire_bind, set_driver_data_bind]
  by_cases hmap : K.ioremap = 0
  · rw [if_pos hmap]
    exact fail_fails herr hm (Or.inl (by simp))
  rw [if_neg hmap, acquire_bind, acquire_bind, set_driver_data_bind]
  refine guard_fails (fail_fails herr hm (Or.inl (by simp))) fun hadd => ?_
  exact absurd ⟨halloc, hreg, henable, hio, hmem, hmap, hadd⟩ h

/-- `u` differs from `w` by what was acquired for a device. -/
structure Grown (dev : ℕ) (w u : World) : Prop where
  devices : u.devices = w.devices
  others : ∀ d, d ≠ dev → u.held d = w.held d
  kept : ∀ r ∈ w.held dev, r ∈ u.held dev
  releases : u.releases = w.releases
  pf_class : u.pf_class = w.pf_class

namespace Grown

variable {pt : Option PciTest}

lemma refl : Grown dev w w := ⟨rfl, fun _ _ => rfl, fun _ => id, rfl, rfl⟩

lemma acquired (h : Grown dev w u) : Grown dev w (u.acquired dev r) where
  devices := h.devices
  others d hd := (Function.update_of_ne hd _ _).trans (h.others d hd)
  kept r' hr' := by
    rw [World.acquired_held]
    exact List.mem_append_left _ (h.kept r' hr')
  releases := h.releases
  pf_class := h.pf_class

lemma withData (h : Grown dev w u) : Grown dev w (u.withData dev pt) :=
  ⟨h.devices, h.others, h.kept, h.releases, h.pf_class⟩

/-- The class device, if there comes to be one. -/
lemma device_create (h : Grown dev w u) (hsame : u.class_misused = w.class_misused) (devno : ℕ) :
    ∃ v, device_create K dev devno u = (some (), v) ∧ Grown dev w v ∧
      v.class_misused = (w.class_misused || !w.pf_class) := by
  have huse : Grown dev w { u with class_misused := u.class_misused || !u.pf_class } :=
    ⟨h.devices, h.others, h.kept, h.releases, h.pf_class⟩
  rw [AnyPci.device_create, ← hsame, ← h.pf_class]
  cases K.device_create with
  | true => exact ⟨_, rfl, huse.acquired, rfl⟩
  | false => exact ⟨_, rfl, huse, rfl⟩

end Grown

/-- The card with its net device registered. -/
def World.registered (w : World) (dev : ℕ) : World :=
  ((w.acquired dev .netdev).withData dev (some ⟨0, 0⟩)).acquired dev .registration

/-- The card with everything but a class device. -/
def World.ready (w : World) (K : Outcomes) (dev : ℕ) : World :=
  let devno := alloc_chrdev_region K.major K.chrdev_failures 0
  let w := ((w.registered dev).acquired dev .enable).acquired dev .io_region
  let w := (w.acquired dev .mem_region).withData dev (some ⟨0, K.ioremap⟩)
  let w := (w.acquired dev (.mapping K.ioremap)).acquired dev (.chrdev devno)
  (w.withData dev (some ⟨devno, K.ioremap⟩)).acquired dev .cdev

lemma grown_registered : Grown dev w (w.registered dev) :=
  Grown.refl.acquired.withData.acquired

lemma registered_ready : Grown dev (w.registered dev) (w.ready K dev) :=
  Grown.refl.acquired.acquired.acquired.withData.acquired.acquired.withData.acquired

lemma Grown.trans {v : World} (h : Grown dev w u) (h' : Grown dev u v) : Grown dev w v where
  devices := h'.devices.trans h.devices
  others d hd := (h'.others d hd).trans (h.others d hd)
  kept r hr := h'.kept r (h.kept r hr)
  releases := h'.releases.trans h.releases
  pf_class := h'.pf_class.trans h.pf_class

/-- A successful probe leaves the card registered, and has used the class. -/
lemma probeCard_succeeds (h : K.Succeeds) :
    ∃ u, probeCard K dev w = (some 0, u) ∧ Grown dev w u ∧ .registration ∈ u.held dev ∧
      u.class_misused = (w.class_misused || !w.pf_class) := by
  obtain ⟨halloc, hreg, henable, hio, hmem, hmap, hadd⟩ := h
  have hrun : probeCard K dev w = (device_create K dev (alloc_chrdev_region K.major
      K.chrdev_failures 0) >>= fun _ => (pure 0 : Exec World ℤ)) (w.ready K dev) := by
    simp only [probeCard, halloc, hreg, henable, hio, hmem, hmap, hadd, Bool.not_true,
      Bool.false_eq_true, if_false, acquire_bind, set_driver_data_bind]
    rfl
  have hmem₀ : .registration ∈ (w.registered dev).held dev := by
    rw [World.registered, World.acquired_held]
    exact List.mem_append_right _ (List.mem_singleton_self _)
  obtain ⟨u, hcreate, hgrown, hmisused⟩ := (Grown.refl (w := w.ready K dev)).device_create
    (K := K) rfl (alloc_chrdev_region K.major K.chrdev_failures 0)
  refine ⟨u, by rw [hrun, Exec.bind_run_some hcreate]; rfl, ?_, ?_, ?_⟩
  · exact (grown_registered.trans registered_ready).trans hgrown
  · exact hgrown.kept _ (registered_ready.kept _ hmem₀)
  · rw [hmisused]
    rfl

end

/-! ### The invariant -/

/-- A spoilt ledger of a device without driver is wrong. -/
lemma Spoilt.not_ledger {s : State} {dev : ℕ} (h : Spoilt dev s.world) (hdev : dev ∉ s.bound) :
    ¬ Ledger s := by
  intro hledger
  rcases h with ⟨x, hx, hheld⟩ | hreg
  · rw [hledger.releases x hx] at hheld
    cases hheld
  · rw [hledger.rest dev hdev] at hreg
    exact List.not_mem_nil hreg

/-- The invariant of runs in which `girlf` finds no card: a bound card is registered, and nothing is
held for another device. -/
structure Inv (s : State) : Prop where
  ledger : Ledger s
  nodup : s.bound.Nodup
  cards : ∀ dev ∈ s.bound, s.world.Matching dev → .registration ∈ s.world.held dev
  plain : ∀ dev, ¬ s.world.Matching dev → s.world.held dev = []

namespace Inv

variable {s t : State} {dev : ℕ} {K : Outcomes}

lemma init (devices : ℕ → PciDev) : Inv (State.init devices) where
  ledger := ⟨rfl, fun _ hx => (nomatch hx), fun _ _ => rfl, rfl⟩
  nodup := List.nodup_nil
  cards _ hdev := nomatch hdev
  plain _ _ := rfl

/-- The probe of a device that is no card. -/
lemma probe_plain (h : Inv s) (hdev : dev ∉ s.bound) (hm : ¬ s.world.Matching dev) :
    Inv { s with bound := dev :: s.bound } where
  ledger := {
    oops := h.ledger.oops
    releases := h.ledger.releases
    rest := fun d hd => h.ledger.rest d fun hmem => hd (List.mem_cons_of_mem _ hmem)
    class_misused := h.ledger.class_misused }
  nodup := List.nodup_cons.mpr ⟨hdev, h.nodup⟩
  cards d hd hmd := by
    rcases List.mem_cons.mp hd with rfl | hd
    · exact absurd hmd hm
    · exact h.cards d hd hmd
  plain := h.plain

/-- A successful probe of a card. -/
lemma probe_card (h : Inv s) (hdev : dev ∉ s.bound) (hm : s.world.Matching dev) {u : World}
    (hgrown : Grown dev s.world u) (hreg : .registration ∈ u.held dev)
    (hclass : u.class_misused = false) :
    Inv { s with world := u, bound := dev :: s.bound } where
  ledger := {
    oops := h.ledger.oops
    releases := fun x hx => h.ledger.releases x (hgrown.releases ▸ hx)
    rest := fun d hd => by
      rw [hgrown.others d fun heq => hd (heq ▸ List.mem_cons_self)]
      exact h.ledger.rest d fun hmem => hd (List.mem_cons_of_mem _ hmem)
    class_misused := hclass }
  nodup := List.nodup_cons.mpr ⟨hdev, h.nodup⟩
  cards d hd hmd := by
    by_cases heq : d = dev
    · exact heq ▸ hreg
    · rw [World.Matching, hgrown.devices] at hmd
      change _ ∈ u.held d
      rw [hgrown.others d heq]
      exact h.cards d ((List.mem_cons.mp hd).resolve_left heq) hmd
  plain d hmd := by
    have hne : d ≠ dev := by
      rintro rfl
      rw [World.Matching, hgrown.devices] at hmd
      exact hmd hm
    rw [World.Matching, hgrown.devices] at hmd
    change u.held d = []
    rw [hgrown.others d hne]
    exact h.plain d hmd

/-- The removal of a device that is no card. -/
lemma remove_plain (h : Inv s) (hm : ¬ s.world.Matching dev) :
    Inv { s with bound := s.bound.erase dev } where
  ledger := {
    oops := h.ledger.oops
    releases := h.ledger.releases
    rest := fun d hd => by
      by_cases heq : d = dev
      · exact heq ▸ h.plain dev hm
      · exact h.ledger.rest d fun hmem => hd ((List.mem_erase_of_ne heq).mpr hmem)
    class_misused := h.ledger.class_misused }
  nodup := h.nodup.erase dev
  cards d hd hmd := h.cards d (List.mem_of_mem_erase hd) hmd
  plain := h.plain

lemma step {a : Action} (h : Inv s) (hok : LedgerOk s a) (hstep : driver.step s a t) : Inv t := by
  change s.next a = some t at hstep
  cases a with
  | probe dev K =>
    simp only [State.next] at hstep
    split_ifs at hstep with hcond
    rw [← Option.some.inj hstep]
    by_cases hm : s.world.Matching dev
    · obtain ⟨hsucc, hclass⟩ := hok hm
      obtain ⟨u, hrun, hgrown, hreg, hmisused⟩ := probeCard_succeeds hsucc
      have hprobe : girlp K dev s.world = (some 0, u) := by
        rw [girlp, Exec.withState_run, if_pos hm, hrun]
      rw [State.exec, hprobe]
      refine h.probe_card hcond.2 hm hgrown hreg ?_
      rw [hmisused, h.ledger.class_misused, hclass]
      rfl
    · have hprobe : girlp K dev s.world = (some 0, s.world) := by
        rw [girlp, Exec.withState_run, if_neg hm]
        rfl
      rw [State.exec, hprobe]
      exact h.probe_plain hcond.2 hm
  | remove dev =>
    simp only [State.next] at hstep
    split_ifs at hstep with hmem
    rw [← Option.some.inj hstep, State.exec, girlf_other hok]
    exact h.remove_plain hok
  | class_destroy | unregistered =>
    simp only [State.next] at hstep
    split_ifs at hstep
    cases hstep
    exact ⟨⟨h.ledger.oops, h.ledger.releases, h.ledger.rest, h.ledger.class_misused⟩, h.nodup,
      h.cards, h.plain⟩

/-- Every other action spoils the ledger at once. -/
lemma broken {a : Action} (h : Inv s) (hno : ¬ LedgerOk s a) (hstep : driver.step s a t) :
    ¬ Ledger t := by
  change s.next a = some t at hstep
  cases a with
  | probe dev K =>
    simp only [LedgerOk, Classical.not_imp] at hno
    obtain ⟨hm, hno⟩ := hno
    simp only [State.next] at hstep
    split_ifs at hstep with hcond
    rw [← Option.some.inj hstep]
    have hprobe : girlp K dev s.world = probeCard K dev s.world := by
      rw [girlp, Exec.withState_run, if_pos hm]
    rw [State.exec, hprobe]
    by_cases hsucc : K.Succeeds
    · obtain ⟨u, hrun, -, -, hmisused⟩ := probeCard_succeeds (w := s.world) hsucc
      rw [hrun]
      intro hledger
      have hused : u.class_misused = false := hledger.class_misused
      have hclass : s.world.pf_class = true := by
        rw [hmisused] at hused
        simp only [Bool.or_eq_false_iff, Bool.not_eq_false'] at hused
        exact hused.2
      exact hno ⟨hsucc, hclass⟩
    · have hfails := probeCard_fails hm (h.ledger.rest dev hcond.2) hsucc
      rcases hrun : probeCard K dev s.world with ⟨_ | rc, u⟩
      · intro hledger
        cases hledger.oops
      · rw [hrun] at hfails
        rcases hfails with hnone | ⟨rc', hrc', hne, hspoilt⟩
        · cases hnone
        · cases hrc'
          refine hspoilt.not_ledger ?_
          change dev ∉ if rc = 0 then dev :: s.bound else s.bound
          rw [if_neg hne]
          exact hcond.2
  | remove dev =>
    have hm : s.world.Matching dev := not_not.mp hno
    simp only [State.next] at hstep
    split_ifs at hstep with hmem
    rw [← Option.some.inj hstep, State.exec]
    have hcard := girlf_card hm (Or.inl (h.cards dev hmem hm))
    rcases hrun : girlf dev s.world with ⟨_ | ⟨⟩, u⟩
    · intro hledger
      cases hledger.oops
    · rw [hrun] at hcard
      rcases hcard with hnone | hspoilt
      · cases hnone
      · exact hspoilt.not_ledger fun hin => ((List.Nodup.mem_erase_iff h.nodup).mp hin).1 rfl
  | class_destroy | unregistered => exact absurd trivial hno

end Inv

/-- The ledger is right all along a run if and only if every probe of a card succeeds and finds the
class, and no card is removed. -/
theorem ledger_iff_ledgerOk (devices : ℕ → PciDev) {tr : List (Action × State)}
    (hr : driver.Run (State.init devices) tr) :
    System.Always Ledger (State.init devices) tr ↔
      System.Along LedgerOk (State.init devices) tr :=
  hr.always_iff_along (fun _ h => h.ledger) (fun _ _ _ h hok hs => h.step hok hs)
    (fun _ _ _ h hno hs => h.broken hno hs) (Inv.init devices)

/-- Every call succeeds, the device number after one failure. -/
def Outcomes.fine : Outcomes where
  alloc_etherdev := true
  register_netdev := true
  pci_enable_device := true
  request_region := true
  request_mem_region := true
  ioremap := 4096
  chrdev_failures := 1
  major := 254
  cdev_add := true
  device_create := true

/-- Device 0 is a network card. -/
def oneCard : ℕ → PciDev
  | 0 => ⟨0x10ec, 0x8139⟩
  | _ => ⟨0x8086, 0x1237⟩

/-- The card is probed; another device is probed and removed, before and after the class is
destroyed. -/
theorem ledger_iff_ledgerOk_other :
    ∃ tr, driver.Run (State.init oneCard) tr ∧
      tr.map Prod.fst = [.probe 0 Outcomes.fine, .probe 1 Outcomes.fine, .remove 1,
        .probe 2 Outcomes.fine, .class_destroy, .remove 2] ∧
      System.Always Ledger (State.init oneCard) tr := by
  have hsome : (System.final (System.checked State.next LedgerOk) (State.init oneCard)
      [.probe 0 Outcomes.fine, .probe 1 Outcomes.fine, .remove 1, .probe 2 Outcomes.fine,
        .class_destroy, .remove 2]).isSome := by
    decide +kernel
  obtain ⟨tr, hrun, hacts, halong⟩ := System.exists_run_along hsome
  exact ⟨tr, hrun, hacts, (ledger_iff_ledgerOk oneCard hrun).mpr halong⟩

/-- The card is probed, with every call successful, and removed: its net device stays
registered. -/
theorem removed_card_registered :
    ∃ tr, driver.Run (State.init oneCard) tr ∧
      tr.map Prod.fst = [.probe 0 Outcomes.fine, .remove 0] ∧
      ¬ System.Always Ledger (State.init oneCard) tr := by
  have hleft : (System.final State.next (State.init oneCard)
      [.probe 0 Outcomes.fine, .remove 0]).map (fun s => (s.world.held 0, s.bound)) =
        some ([.registration], []) := by
    decide +kernel
  refine System.exists_run_not_always hleft fun s hs hledger => ?_
  obtain ⟨hheld, hbound⟩ := Prod.mk.inj hs
  rw [hledger.rest 0 (by rw [hbound]; exact List.not_mem_nil)] at hheld
  cases hheld

end QuickDevSkeleton.AnyPci
