import QuickDevSkeleton.Platform.Skel

/-!
# The ledger of the platform driver

What the driver holds is what its bound devices need, in every state of a run, unless a device
without all its resources is probed or the driver cannot be registered.
-/

namespace QuickDevSkeleton.Platform

open Foundations

/-- Each bound device has its own device number, with a class device, and its own block, in which
its `cdev` is if it could be added. Beyond that the driver holds nothing but its class. -/
structure Accounted (s : State) : Prop where
  regions : s.world.regions.Perm (s.bound.map PlatformDevice.devno)
  class_devices : s.world.class_devices.Perm (s.bound.map PlatformDevice.devno)
  numbers : (s.bound.map PlatformDevice.devno).Nodup
  mydevs : ∀ p, (s.world.mydevs.cell p).isSome ↔
    ∃ pdev ∈ s.bound, s.world.drvdata pdev.id = some p
  owned : ∀ pdev ∈ s.bound, ∃ dev, s.world.drvdata pdev.id = some dev
  apart : ∀ x ∈ s.bound, ∀ y ∈ s.bound, s.world.drvdata x.id = s.world.drvdata y.id → x = y
  cdevs : ∀ c ∈ s.world.cdevs,
    ∃ pdev ∈ s.bound, pdev.devno = c.1 ∧ s.world.drvdata pdev.id = some c.2
  my_class : s.world.my_class = s.driver
  registered : ∀ pdev ∈ s.bound, s.driver = true ∧ pdev ∈ s.devices
  no_oops : s.oops = false

/-- The probe gets no memory, or finds all resources that it asks for. -/
def ProbeOk (K : Outcomes) (pdev : PlatformDevice) : Prop :=
  K.kzalloc = true → pdev.asked.isSome

/-- The probes find what they ask for, and the driver is registered once its class is made. -/
def LedgerOk (s : State) : Action → Prop
  | .register pdev K => s.driver = true → ProbeOk K pdev
  | .init K => s.ClassMade K → K.platform_driver_register = 0 ∧
      ∀ pdev ∈ s.devices, ProbeOk (K.probe pdev) pdev
  | .unregister _ | .exit => True

instance (K : Outcomes) (pdev : PlatformDevice) : Decidable (ProbeOk K pdev) :=
  inferInstanceAs (Decidable (_ → _))

instance (s : State) (a : Action) : Decidable (LedgerOk s a) :=
  match a with
  | .register _ _ => inferInstanceAs (Decidable (_ → _))
  | .init _ => inferInstanceAs (Decidable (_ → _))
  | .unregister _ | .exit => inferInstanceAs (Decidable True)

/-! ### The probe -/

/-- The driver holds the same in `w` and in `w'`. -/
structure Same (w w' : World) : Prop where
  cell : w'.mydevs.cell = w.mydevs.cell
  drvdata : w'.drvdata = w.drvdata
  regions : w'.regions = w.regions
  cdevs : w'.cdevs = w.cdevs
  class_devices : w'.class_devices = w.class_devices
  my_class : w'.my_class = w.my_class

/-- Between `w` and `w'` the driver has got all that the device needs; `p` is its block. -/
structure Got (pdev : PlatformDevice) (p : ℕ) (w w' : World) : Prop where
  cell : ∀ q, (w'.mydevs.cell q).isSome ↔ (w.mydevs.cell q).isSome ∨ q = p
  fresh : w.mydevs.cell p = none
  drvdata : w'.drvdata = Function.update w.drvdata pdev.id (some p)
  number : pdev.devno ∉ w.regions
  regions : w'.regions = pdev.devno :: w.regions
  cdevs : ∀ c ∈ w'.cdevs, c ∈ w.cdevs ∨ c = (pdev.devno, p)
  class_devices : w'.class_devices = pdev.devno :: w.class_devices
  my_class : w'.my_class = w.my_class

section

variable {K : Outcomes} {pdev : PlatformDevice} {w : World} {dev : ℕ}

lemma kfree_run (h : (w.mydevs.cell dev).isSome) :
    kfree dev w = (some ⟨⟩, { w with mydevs := w.mydevs.free dev }) := by
  rw [kfree, Exec.withState_run, if_pos h]
  rfl

lemma mem_cdev_add {c c' : BitVec 32 × ℕ} {cdevs : List (BitVec 32 × ℕ)}
    (h : c ∈ cdev_add K c' cdevs) : c ∈ cdevs ∨ c = c' := by
  rw [cdev_add] at h
  split_ifs at h
  · exact (List.mem_cons.mp h).symm
  · exact Or.inl h

/-- A `cdev` that is deleted again leaves the others. -/
lemma filter_cdev_add {devno : BitVec 32} {cdevs : List (BitVec 32 × ℕ)}
    (h : ∀ c ∈ cdevs, c.2 ≠ dev) :
    ((cdev_add K (devno, dev) cdevs).filter fun c => decide (c.2 ≠ dev)) = cdevs := by
  have hkeep : (cdevs.filter fun c => decide (c.2 ≠ dev)) = cdevs :=
    List.filter_eq_self.mpr fun c hc => decide_eq_true (h c hc)
  rw [cdev_add]
  split_ifs
  · rw [List.filter_cons_of_neg (by simp), hkeep]
  · exact hkeep

/-- With its block allocated, what is left of the probe succeeds or takes everything back. -/
lemma register_run {d : Mydev} (hcdevs : ∀ c ∈ w.cdevs, c.2 ≠ w.mydevs.next) :
    ∃ r w', register K pdev w.mydevs.next { w with mydevs := w.mydevs.alloc d } = (some r, w') ∧
      (r ≠ 0 ∧ Same w w' ∨ r = 0 ∧ Got pdev w.mydevs.next w w') := by
  have hsome : ((w.mydevs.alloc d).cell w.mydevs.next).isSome := by
    rw [Heap.cell_alloc]
    rfl
  rw [register, Exec.withState_run]
  split_ifs with hbusy hclass
  · rw [Exec.bind_run_some (kfree_run hsome)]
    exact ⟨_, _, rfl, Or.inl ⟨by decide, w.mydevs.free_alloc d, rfl, rfl, rfl, rfl, rfl⟩⟩
  · rw [Exec.modify_bind, cdev_del, Exec.modify_bind, unregister_chrdev_region, Exec.modify_bind,
      Exec.bind_run_some (kfree_run hsome)]
    refine ⟨_, _, rfl, Or.inl ⟨hclass, w.mydevs.free_alloc d, rfl, ?_, ?_, rfl, rfl⟩⟩
    · exact List.erase_cons_head pdev.devno w.regions
    · exact filter_cdev_add hcdevs
  · rw [Exec.modify_bind, Exec.modify_bind]
    have hbusy' : pdev.devno ∉ w.regions := by
      intro hmem
      exact hbusy (by simp [hmem])
    refine ⟨0, _, rfl, Or.inr ⟨rfl, fun q => ?_, w.mydevs.cell_next, rfl, hbusy', rfl,
      fun c hc => mem_cdev_add hc, rfl, rfl⟩⟩
    by_cases hq : q = w.mydevs.next
    · simp [hq]
    · simp [hq, Heap.cell_alloc_of_ne]

/-- A probe that gets past its resources fails without a trace, or gets all it needs. -/
lemma my_probe_run (hok : ProbeOk K pdev) (hcdevs : ∀ c ∈ w.cdevs, c.2 ≠ w.mydevs.next) :
    ∃ r w', my_probe K pdev w = (some r, w') ∧
      (r ≠ 0 ∧ Same w w' ∨ r = 0 ∧ Got pdev w.mydevs.next w w') := by
  by_cases hmem : K.kzalloc = true
  · obtain ⟨⟨mem, io, irq⟩, hasked⟩ := Option.isSome_iff_exists.mp (hok hmem)
    rw [my_probe, if_neg (by simp [hmem]), hasked]
    exact register_run hcdevs
  · rw [my_probe, if_pos (by simpa using hmem)]
    exact ⟨_, _, rfl, Or.inl ⟨by decide, rfl, rfl, rfl, rfl, rfl, rfl⟩⟩

/-- Otherwise it comes upon a null pointer. -/
lemma my_probe_crashes (hno : ¬ ProbeOk K pdev) : my_probe K pdev w = (none, w) := by
  obtain ⟨hmem, hasked⟩ := Classical.not_imp.mp hno
  rw [my_probe, if_neg (by simp [hmem]), Option.not_isSome_iff_eq_none.mp hasked]
  rfl

/-- The removal of a device that has its block. -/
lemma my_remove_run (hdata : w.drvdata pdev.id = some dev) (hdev : (w.mydevs.cell dev).isSome) :
    my_remove pdev w = (some ⟨⟩, {
      mydevs := w.mydevs.free dev
      drvdata := Function.update w.drvdata pdev.id none
      regions := w.regions.erase pdev.devno
      cdevs := w.cdevs.filter fun c => c.2 ≠ dev
      class_devices := w.class_devices.erase pdev.devno
      my_class := w.my_class }) := by
  have hfree (v : World) (hv : v.mydevs = w.mydevs) :
      kfree dev v = (some ⟨⟩, { v with mydevs := v.mydevs.free dev }) := by
    refine kfree_run ?_
    rwa [hv]
  rw [my_remove, Exec.withState_run, hdata]
  dsimp only
  rw [Exec.modify_bind, cdev_del, Exec.modify_bind, unregister_chrdev_region, Exec.modify_bind]
  refine Eq.trans (Exec.bind_run_some (hfree _ ?_)) ?_
  · rfl
  · rfl

end

/-! ### Devices and the driver meet and part -/

/-- The ledger, and what keeps the devices apart: their ids. -/
structure Inv (s : State) : Prop extends Accounted s where
  ids : (s.devices.map PlatformDevice.id).Nodup

namespace Inv

variable {s : State} {K : Outcomes} {pdev : PlatformDevice}

lemma nodup (h : Inv s) : s.bound.Nodup :=
  h.numbers.of_map

/-- Bound devices have different ids. -/
lemma id_ne (h : Inv s) {x : PlatformDevice} (hx : x ∈ s.bound) (hmem : pdev ∈ s.devices)
    (hne : x ≠ pdev) : x.id ≠ pdev.id := fun hid =>
  hne (List.inj_on_of_nodup_map h.ids (h.registered x hx).2 hmem hid)

lemma cdev_fresh (h : Inv s) : ∀ c ∈ s.world.cdevs, c.2 ≠ s.world.mydevs.next := by
  intro c hc heq
  obtain ⟨x, hx, -, hdata⟩ := h.cdevs c hc
  have hsome := (h.mydevs c.2).mpr ⟨x, hx, hdata⟩
  rw [heq, Heap.cell_next] at hsome
  cases hsome

/-- Nothing that is held has changed. -/
lemma same (h : Inv s) {w : World} (hw : Same s.world w) : Inv { s with world := w } :=
  { h with
    regions := hw.regions ▸ h.regions
    class_devices := hw.class_devices ▸ h.class_devices
    mydevs := by
      intro p
      rw [hw.cell, hw.drvdata]
      exact h.mydevs p
    owned := by
      rw [hw.drvdata]
      exact h.owned
    apart := by
      rw [hw.drvdata]
      exact h.apart
    cdevs := by
      rw [hw.cdevs, hw.drvdata]
      exact h.cdevs
    my_class := hw.my_class.trans h.my_class }

/-- A device that has got all it needs is bound. -/
lemma got (h : Inv s) (hdriver : s.driver = true) (hmem : pdev ∈ s.devices)
    (hfree : pdev ∉ s.bound) {w : World} {p : ℕ} (hw : Got pdev p s.world w) :
    Inv { s with world := w, bound := pdev :: s.bound } := by
  have hself : w.drvdata pdev.id = some p := by rw [hw.drvdata, Function.update_self]
  have hother : ∀ x ∈ s.bound, w.drvdata x.id = s.world.drvdata x.id := by
    intro x hx
    have hne : x ≠ pdev := fun heq => hfree (heq ▸ hx)
    rw [hw.drvdata, Function.update_of_ne (h.id_ne hx hmem hne)]
  have hnew : ∀ x ∈ s.bound, s.world.drvdata x.id ≠ some p := by
    intro x hx hdata
    have hsome := (h.mydevs p).mpr ⟨x, hx, hdata⟩
    rw [hw.fresh] at hsome
    cases hsome
  constructor
  · constructor
    · rw [hw.regions]
      exact h.regions.cons _
    · rw [hw.class_devices]
      exact h.class_devices.cons _
    · exact List.nodup_cons.mpr ⟨fun hin => hw.number (h.regions.mem_iff.mpr hin), h.numbers⟩
    · intro q
      rw [hw.cell, h.mydevs]
      constructor
      · rintro (⟨x, hx, hdata⟩ | rfl)
        · exact ⟨x, List.mem_cons_of_mem _ hx, (hother x hx).trans hdata⟩
        · exact ⟨pdev, List.mem_cons_self, hself⟩
      · rintro ⟨x, hx, hdata⟩
        rcases List.mem_cons.mp hx with rfl | hx
        · exact Or.inr (Option.some.inj (hdata.symm.trans hself))
        · exact Or.inl ⟨x, hx, (hother x hx).symm.trans hdata⟩
    · intro x hx
      rcases List.mem_cons.mp hx with rfl | hx
      · exact ⟨p, hself⟩
      · obtain ⟨dev, hdata⟩ := h.owned x hx
        exact ⟨dev, (hother x hx).trans hdata⟩
    · intro x hx y hy heq
      rcases List.mem_cons.mp hx with rfl | hx' <;> rcases List.mem_cons.mp hy with rfl | hy'
      · rfl
      · exact absurd ((hother y hy').symm.trans (heq.symm.trans hself)) (hnew y hy')
      · exact absurd ((hother x hx').symm.trans (heq.trans hself)) (hnew x hx')
      · exact h.apart x hx' y hy' ((hother x hx').symm.trans (heq.trans (hother y hy')))
    · intro c hc
      rcases hw.cdevs c hc with hold | rfl
      · obtain ⟨x, hx, hnumber, hdata⟩ := h.cdevs c hold
        exact ⟨x, List.mem_cons_of_mem _ hx, hnumber, (hother x hx).trans hdata⟩
      · exact ⟨pdev, List.mem_cons_self, rfl, hself⟩
    · exact hw.my_class.trans h.my_class
    · intro x hx
      rcases List.mem_cons.mp hx with rfl | hx
      · exact ⟨hdriver, hmem⟩
      · exact h.registered x hx
    · exact h.no_oops
  · exact h.ids

/-- A probe that comes to its end binds the device, or leaves all as it was. -/
lemma attach (h : Inv s) (hdriver : s.driver = true) (hmem : pdev ∈ s.devices)
    (hfree : pdev ∉ s.bound) (hok : ProbeOk K pdev) :
    ∃ t, attach K pdev s = (some ⟨⟩, t) ∧ Inv t ∧ t.devices = s.devices ∧ t.driver = true ∧
      ∀ x ∈ t.bound, x ∈ s.bound ∨ x = pdev := by
  obtain ⟨r, w, hrun, hcase⟩ := my_probe_run hok h.cdev_fresh
  have hworld : onWorld (my_probe K pdev) s = (some r, { s with world := w }) := by
    rw [onWorld, hrun]
  have hattach : Platform.attach K pdev s = (some ⟨⟩, if r = 0 then
      { s with world := w, bound := pdev :: s.bound } else { s with world := w }) := by
    rw [Platform.attach, Exec.bind_run_some hworld]
    rfl
  rcases hcase with ⟨hr, hw⟩ | ⟨hr, hw⟩
  · rw [if_neg hr] at hattach
    exact ⟨_, hattach, h.same hw, rfl, hdriver, fun x => Or.inl⟩
  · rw [if_pos hr] at hattach
    exact ⟨_, hattach, h.got hdriver hmem hfree hw, rfl, hdriver,
      fun x hx => (List.mem_cons.mp hx).symm⟩

/-- Where one of two parallel lists loses an element and the other one its image, they stay
parallel. -/
lemma perm_erase {l : List (BitVec 32)} (hl : l.Perm (s.bound.map PlatformDevice.devno))
    (hb : pdev ∈ s.bound) :
    (l.erase pdev.devno).Perm ((s.bound.erase pdev).map PlatformDevice.devno) := by
  have hsplit := (List.perm_cons_erase hb).map PlatformDevice.devno
  have herase := (hl.trans hsplit).erase pdev.devno
  rwa [List.map_cons, List.erase_cons_head] at herase

/-- The removal of a bound device takes back what the device has. -/
lemma detach (h : Inv s) (hb : pdev ∈ s.bound) :
    ∃ t, detach pdev s = (some ⟨⟩, t) ∧ Inv t ∧ t.devices = s.devices ∧ t.driver = s.driver ∧
      t.bound = s.bound.erase pdev := by
  obtain ⟨dev, hdata⟩ := h.owned pdev hb
  have hdev := (h.mydevs dev).mpr ⟨pdev, hb, hdata⟩
  have hdetach := Exec.bind_run_some (f := fun _ => Exec.modify fun s : State =>
    { s with bound := s.bound.erase pdev }) (show onWorld (my_remove pdev) s = (some ⟨⟩, _) by
      rw [onWorld, my_remove_run hdata hdev])
  have hmem {x : PlatformDevice} : x ∈ s.bound.erase pdev ↔ x ≠ pdev ∧ x ∈ s.bound :=
    h.nodup.mem_erase_iff
  have hother : ∀ x ∈ s.bound.erase pdev,
      Function.update s.world.drvdata pdev.id none x.id = s.world.drvdata x.id := by
    intro x hx
    obtain ⟨hne, hx⟩ := hmem.mp hx
    exact Function.update_of_ne (h.id_ne hx (h.registered pdev hb).2 hne) _ _
  have hapart : ∀ x ∈ s.bound.erase pdev, s.world.drvdata x.id ≠ some dev := by
    intro x hx hdata'
    obtain ⟨hne, hx⟩ := hmem.mp hx
    exact hne (h.apart x hx pdev hb (hdata'.trans hdata.symm))
  refine ⟨_, hdetach, ?_, rfl, rfl, rfl⟩
  constructor
  · constructor
    · exact perm_erase h.regions hb
    · exact perm_erase h.class_devices hb
    · exact h.numbers.sublist (List.erase_sublist.map _)
    · intro p
      by_cases hp : p = dev
      · rw [hp, Heap.cell_free]
        refine iff_of_false Bool.false_ne_true ?_
        rintro ⟨x, hx, hdata'⟩
        exact hapart x hx ((hother x hx).symm.trans hdata')
      · rw [Heap.cell_free_of_ne _ hp, h.mydevs]
        constructor
        · rintro ⟨x, hx, hdata'⟩
          have hne : x ≠ pdev := by
            rintro rfl
            exact hp (Option.some.inj (hdata'.symm.trans hdata))
          have hx := hmem.mpr ⟨hne, hx⟩
          exact ⟨x, hx, (hother x hx).trans hdata'⟩
        · rintro ⟨x, hx, hdata'⟩
          exact ⟨x, (hmem.mp hx).2, (hother x hx).symm.trans hdata'⟩
    · intro x hx
      obtain ⟨p, hdata'⟩ := h.owned x (hmem.mp hx).2
      exact ⟨p, (hother x hx).trans hdata'⟩
    · intro x hx y hy heq
      exact h.apart x (hmem.mp hx).2 y (hmem.mp hy).2
        ((hother x hx).symm.trans (heq.trans (hother y hy)))
    · intro c hc
      obtain ⟨hc, hne⟩ := List.mem_filter.mp hc
      obtain ⟨x, hx, hnumber, hdata'⟩ := h.cdevs c hc
      have hxp : x ≠ pdev := by
        rintro rfl
        exact of_decide_eq_true hne (Option.some.inj (hdata'.symm.trans hdata))
      have hx := hmem.mpr ⟨hxp, hx⟩
      exact ⟨x, hx, hnumber, (hother x hx).trans hdata'⟩
    · exact h.my_class
    · exact fun x hx => h.registered x (hmem.mp hx).2
    · exact h.no_oops
  · exact h.ids

end Inv

/-! ### All devices at once -/

section

variable {s t : State} {pdev : PlatformDevice}

lemma attach_crashes {K : Outcomes} (hno : ¬ ProbeOk K pdev) : (attach K pdev s).1 = none := by
  have hworld : onWorld (my_probe K pdev) s = (none, s) := by
    rw [onWorld, my_probe_crashes hno]
  rw [attach, Exec.bind_run_none hworld]

/-- The driver meets the devices that are there. -/
lemma Inv.attachAll {K : PlatformDevice → Outcomes} {pdevs : List PlatformDevice} (h : Inv s)
    (hdriver : s.driver = true) (hnd : pdevs.Nodup) (hmem : ∀ pdev ∈ pdevs, pdev ∈ s.devices)
    (hfree : ∀ pdev ∈ pdevs, pdev ∉ s.bound) (hok : ∀ pdev ∈ pdevs, ProbeOk (K pdev) pdev) :
    ∃ t, attachAll K pdevs s = (some ⟨⟩, t) ∧ Inv t := by
  induction pdevs generalizing s with
  | nil => exact ⟨s, rfl, h⟩
  | cons pdev pdevs ih =>
    obtain ⟨hnot, hnd⟩ := List.nodup_cons.mp hnd
    obtain ⟨hmem₀, hmem⟩ := List.forall_mem_cons.mp hmem
    obtain ⟨hfree₀, hfree⟩ := List.forall_mem_cons.mp hfree
    obtain ⟨hok₀, hok⟩ := List.forall_mem_cons.mp hok
    obtain ⟨u, hrun, hu, hdevices, hdriver, hbound⟩ := h.attach hdriver hmem₀ hfree₀ hok₀
    rw [Platform.attachAll, Exec.bind_run_some hrun]
    refine ih hu hdriver hnd (hdevices ▸ hmem) (fun x hx hin => ?_) hok
    rcases hbound x hin with hin | rfl
    · exact hfree x hx hin
    · exact hnot hx

/-- One of them stops it at a null pointer. -/
lemma Inv.attachAll_crashes {K : PlatformDevice → Outcomes} {pdevs : List PlatformDevice}
    (h : Inv s) (hdriver : s.driver = true) (hnd : pdevs.Nodup)
    (hmem : ∀ pdev ∈ pdevs, pdev ∈ s.devices) (hfree : ∀ pdev ∈ pdevs, pdev ∉ s.bound)
    (hno : ∃ pdev ∈ pdevs, ¬ ProbeOk (K pdev) pdev) : (Platform.attachAll K pdevs s).1 = none := by
  induction pdevs generalizing s with
  | nil =>
    obtain ⟨pdev, hpdev, -⟩ := hno
    cases hpdev
  | cons pdev pdevs ih =>
    obtain ⟨hnot, hnd⟩ := List.nodup_cons.mp hnd
    obtain ⟨hmem₀, hmem⟩ := List.forall_mem_cons.mp hmem
    obtain ⟨hfree₀, hfree⟩ := List.forall_mem_cons.mp hfree
    by_cases hok : ProbeOk (K pdev) pdev
    · obtain ⟨u, hrun, hu, hdevices, hdriver, hbound⟩ := h.attach hdriver hmem₀ hfree₀ hok
      rw [Platform.attachAll, Exec.bind_run_some hrun]
      refine ih hu hdriver hnd (hdevices ▸ hmem) (fun x hx hin => ?_) ?_
      · rcases hbound x hin with hin | rfl
        · exact hfree x hx hin
        · exact hnot hx
      · obtain ⟨x, hx, hbad⟩ := hno
        rcases List.mem_cons.mp hx with rfl | hx
        · exact absurd hok hbad
        · exact ⟨x, hx, hbad⟩
    · have hcrash : Platform.attach (K pdev) pdev s =
          (none, (Platform.attach (K pdev) pdev s).2) := Prod.ext (attach_crashes hok) rfl
      rw [Platform.attachAll, Exec.bind_run_none hcrash]

/-- The driver goes, and parts from all devices. -/
lemma Inv.detachAll {pdevs : List PlatformDevice} (h : Inv s) (hbound : s.bound = pdevs) :
    ∃ t, detachAll pdevs s = (some ⟨⟩, t) ∧ Inv t ∧ t.bound = [] := by
  induction pdevs generalizing s with
  | nil => exact ⟨s, rfl, h, hbound⟩
  | cons pdev pdevs ih =>
    obtain ⟨u, hrun, hu, -, -, hrest⟩ := h.detach (hbound ▸ List.mem_cons_self)
    rw [hbound, List.erase_cons_head] at hrest
    rw [Platform.detachAll, Exec.bind_run_some hrun]
    exact ih hu hrest

/-! ### Steps -/

/-- Without an oops a step is what its action comes to. -/
lemma next_run {a : Action} (hoops : s.oops = false) (hstep : nolan.step s a t) :
    ∃ x, a.run s = some x ∧
      ((∃ u, x s = (some u, t)) ∨ ∃ u, x s = (none, u) ∧ t = { u with oops := true }) := by
  change s.next a = some t at hstep
  rw [State.next, hoops, if_neg Bool.false_ne_true] at hstep
  obtain ⟨x, hx, ht⟩ := Option.map_eq_some_iff.mp hstep
  refine ⟨x, hx, ?_⟩
  rcases hrun : x s with ⟨_ | u, v⟩
  · rw [hrun] at ht
    exact Or.inr ⟨v, rfl, ht.symm⟩
  · rw [hrun] at ht
    exact Or.inl ⟨u, Prod.ext rfl ht⟩

/-- Another device is registered. -/
lemma Inv.register (h : Inv s) (hid : pdev.id ∉ s.devices.map PlatformDevice.id) :
    Inv { s with devices := pdev :: s.devices } :=
  { h with
    registered := fun x hx => (h.registered x hx).imp_right (List.mem_cons_of_mem _)
    ids := List.nodup_cons.mpr ⟨hid, h.ids⟩ }

/-- A device that is not bound goes. -/
lemma Inv.unregister (h : Inv s) (hfree : pdev ∉ s.bound) :
    Inv { s with devices := s.devices.erase pdev } :=
  { h with
    registered := by
      intro x hx
      have hne : x ≠ pdev := fun heq => hfree (heq ▸ hx)
      exact ⟨(h.registered x hx).1, (List.mem_erase_of_ne hne).mpr (h.registered x hx).2⟩
    ids := h.ids.sublist (List.erase_sublist.map _) }

/-- The class comes and goes with the driver, when nothing is bound. -/
lemma Inv.driver (h : Inv s) (hbound : s.bound = []) (d : Bool) :
    Inv { s with driver := d, world := { s.world with my_class := d } } :=
  { h with
    my_class := rfl
    registered := by
      change ∀ x ∈ s.bound, _
      rw [hbound]
      exact fun x hx => absurd hx List.not_mem_nil }

lemma Inv.bound_nil (h : Inv s) (hdriver : s.driver = false) : s.bound = [] := by
  refine List.eq_nil_iff_forall_not_mem.mpr fun x hx => ?_
  exact Bool.false_ne_true (hdriver.symm.trans (h.registered x hx).1)

lemma run_register {K : Outcomes} {x : Exec State PUnit}
    (hx : Action.run s (.register pdev K) = some x) :
    pdev.id ∉ s.devices.map PlatformDevice.id ∧ x s =
      (if s.driver then Platform.attach K pdev else pure ⟨⟩)
        { s with devices := pdev :: s.devices } := by
  by_cases hid : pdev.id ∈ s.devices.map PlatformDevice.id
  · rw [Action.run, if_pos hid] at hx
    cases hx
  · rw [Action.run, if_neg hid] at hx
    cases hx
    exact ⟨hid, rfl⟩

lemma run_unregister {x : Exec State PUnit} (hx : Action.run s (.unregister pdev) = some x) :
    x s = (if pdev ∈ s.bound then do
        Platform.detach pdev
        Exec.modify fun s => { s with devices := s.devices.erase pdev }
      else Exec.modify fun s => { s with devices := s.devices.erase pdev } : Exec State PUnit)
        s := by
  rw [Action.run] at hx
  split at hx
  · cases hx
    rfl
  · cases hx

lemma run_init {K : InitOutcomes} {x : Exec State PUnit}
    (hx : Action.run s (.init K) = some x) : s.driver = false ∧ x = my_init K := by
  rw [Action.run] at hx
  split_ifs at hx with hdriver
  cases hx
  exact ⟨Bool.eq_false_of_not_eq_true hdriver, rfl⟩

lemma run_exit {x : Exec State PUnit} (hx : Action.run s .exit = some x) : x = my_exit := by
  rw [Action.run] at hx
  split_ifs at hx
  cases hx
  rfl

/-- What is left of `my_init` when it has the class. -/
lemma my_init_run {K : InitOutcomes} (hclass : s.ClassMade K) :
    my_init K s = (if K.platform_driver_register ≠ 0 then pure ⟨⟩
        else do
          Exec.modify fun s => { s with driver := true }
          Platform.attachAll K.probe s.devices : Exec State PUnit)
        { s with world := { s.world with my_class := true } } := by
  rw [my_init, Exec.withState_run, if_neg (not_not.mpr hclass), Exec.modify_bind]

/-- An action that meets the condition comes to its end and keeps the ledger. -/
lemma Inv.returns {a : Action} {x : Exec State PUnit} (h : Inv s) (hok : LedgerOk s a)
    (hx : a.run s = some x) : ∃ u, x s = (some ⟨⟩, u) ∧ Inv u := by
  cases a with
  | register pdev K =>
    obtain ⟨hid, hrun⟩ := run_register hx
    have hnew := h.register hid
    by_cases hdriver : s.driver = true
    · have hfree : pdev ∉ s.bound := fun hin =>
        hid (List.mem_map_of_mem (h.registered pdev hin).2)
      obtain ⟨u, hattach, hu, -⟩ :=
        hnew.attach hdriver List.mem_cons_self hfree (hok hdriver)
      rw [if_pos hdriver] at hrun
      exact ⟨u, hrun.trans hattach, hu⟩
    · rw [if_neg hdriver] at hrun
      exact ⟨_, hrun, hnew⟩
  | unregister pdev =>
    have hrun := run_unregister hx
    by_cases hb : pdev ∈ s.bound
    · obtain ⟨u, hdetach, hu, -, -, hrest⟩ := h.detach hb
      have hfree : pdev ∉ u.bound := by
        rw [hrest]
        exact h.nodup.not_mem_erase
      rw [if_pos hb, Exec.bind_run_some hdetach] at hrun
      exact ⟨_, hrun, hu.unregister hfree⟩
    · rw [if_neg hb] at hrun
      exact ⟨_, hrun, h.unregister hb⟩
  | init K =>
    obtain ⟨hdriver, rfl⟩ := run_init hx
    have hbound := h.bound_nil hdriver
    have hnone : ∀ pdev ∈ s.devices, pdev ∉ s.bound := fun _ _ =>
      hbound ▸ List.not_mem_nil
    by_cases hclass : s.ClassMade K
    · obtain ⟨hreg, hprobes⟩ := hok hclass
      obtain ⟨u, hattach, hu⟩ := (h.driver hbound true).attachAll rfl (h.ids.of_map)
        (fun _ hin => hin) hnone hprobes
      refine ⟨u, ?_, hu⟩
      rw [my_init_run hclass, if_neg (not_not.mpr hreg), Exec.modify_bind]
      exact hattach
    · refine ⟨s, ?_, h⟩
      rw [my_init, Exec.withState_run, if_pos hclass]
      rfl
  | exit =>
    obtain rfl := run_exit hx
    obtain ⟨u, hdetach, hu, hbound⟩ := h.detachAll rfl
    refine ⟨_, ?_, hu.driver hbound false⟩
    rw [my_exit, Exec.withState_run, Exec.bind_run_some hdetach]
    rfl

/-- One that does not meet it comes upon a null pointer, or leaves a class without a driver. -/
lemma Inv.fails {a : Action} {x : Exec State PUnit} (h : Inv s) (hno : ¬ LedgerOk s a)
    (hx : a.run s = some x) :
    (x s).1 = none ∨ ∃ u, x s = (some ⟨⟩, u) ∧ u.world.my_class ≠ u.driver := by
  cases a with
  | register pdev K =>
    obtain ⟨hdriver, hbad⟩ := Classical.not_imp.mp hno
    obtain ⟨hid, hrun⟩ := run_register hx
    rw [if_pos hdriver] at hrun
    rw [hrun]
    exact Or.inl (attach_crashes hbad)
  | init K =>
    obtain ⟨hclass, hbad⟩ := Classical.not_imp.mp hno
    obtain ⟨hdriver, rfl⟩ := run_init hx
    have hbound := h.bound_nil hdriver
    have hnone : ∀ pdev ∈ s.devices, pdev ∉ s.bound := fun _ _ =>
      hbound ▸ List.not_mem_nil
    rw [my_init_run hclass]
    by_cases hreg : K.platform_driver_register = 0
    · rw [if_neg (not_not.mpr hreg), Exec.modify_bind]
      refine Or.inl ((h.driver hbound true).attachAll_crashes rfl (h.ids.of_map)
        (fun _ hin => hin) hnone ?_)
      by_contra hall
      refine hbad ⟨hreg, fun pdev hin => ?_⟩
      by_contra hpdev
      exact hall ⟨pdev, hin, hpdev⟩
    · rw [if_pos hreg]
      refine Or.inr ⟨_, rfl, fun heq => ?_⟩
      exact Bool.false_ne_true (hdriver.symm.trans heq.symm)
  | unregister _ => exact absurd True.intro hno
  | exit => exact absurd True.intro hno

/-- A step that meets the condition keeps the ledger. -/
lemma Inv.step {a : Action} (h : Inv s) (hok : LedgerOk s a) (hstep : nolan.step s a t) :
    Inv t := by
  obtain ⟨x, hx, hend⟩ := next_run h.no_oops hstep
  obtain ⟨u, hrun, hu⟩ := h.returns hok hx
  rcases hend with ⟨_, ht⟩ | ⟨v, hnone, -⟩
  · have heq : u = t := (Prod.ext_iff.mp (hrun.symm.trans ht)).2
    rwa [heq] at hu
  · rw [hrun] at hnone
    cases hnone

/-- A step that does not meet it leaves an oops, or a class without a driver. -/
lemma Inv.broken {a : Action} (h : Inv s) (hno : ¬ LedgerOk s a) (hstep : nolan.step s a t) :
    ¬ Accounted t := by
  intro ht
  obtain ⟨x, hx, hend⟩ := next_run h.no_oops hstep
  rcases hend with ⟨_, hsome⟩ | ⟨v, -, rfl⟩
  · rcases h.fails hno hx with hnone | ⟨u, hrun, hne⟩
    · rw [hsome] at hnone
      cases hnone
    · have heq : u = t := (Prod.ext_iff.mp (hrun.symm.trans hsome)).2
      rw [heq] at hne
      exact hne ht.my_class
  · exact Bool.false_ne_true ht.no_oops.symm

end

lemma Inv.init : Inv State.init where
  regions := .nil
  class_devices := .nil
  numbers := List.nodup_nil
  mydevs p := by simp [State.init, Heap.empty]
  owned := by simp [State.init]
  apart := by simp [State.init]
  cdevs := by simp [State.init]
  my_class := rfl
  registered := by simp [State.init]
  no_oops := rfl
  ids := List.nodup_nil

/-- In every run of registrations and unregistrations of devices, and of loads and unloads of the
driver, with any failures: what the driver holds is accounted for by its bound devices, and nothing
goes wrong, exactly when every probe that gets its memory finds all resources, and the driver is
registered whenever its class is made. -/
theorem accounted_iff_ledgerOk {tr : List (Action × State)} (hr : nolan.Run State.init tr) :
    System.Always Accounted State.init tr ↔ System.Along LedgerOk State.init tr :=
  hr.always_iff_along (fun _ h => h.toAccounted) (fun _ _ _ h hok hs => h.step hok hs)
    (fun _ _ _ h hno hs => h.broken hno hs) Inv.init

/-! ### The devices of the repository -/

/-- The device of `skel_dev.c`. -/
def skel_dev : PlatformDevice :=
  ⟨1, [⟨0xfebff800, 0xfebff8ff, IORESOURCE_MEM⟩, ⟨0xe400, 0xe4ff, IORESOURCE_IO⟩,
    ⟨20, 20, IORESOURCE_IRQ⟩]⟩

/-- The device of `plat_dev.c`, which has no resources. -/
def plat_dev : PlatformDevice :=
  ⟨1, []⟩

/-- The kernel grants all. -/
def Outcomes.fine : Outcomes :=
  ⟨true, true, true, 0⟩

def InitOutcomes.fine : InitOutcomes :=
  ⟨0, 0, fun _ => Outcomes.fine⟩

/-- The device with resources comes before the driver, goes, and comes again after it. -/
def skelSession : List Action :=
  [.register skel_dev Outcomes.fine, .init InitOutcomes.fine, .unregister skel_dev,
    .register skel_dev Outcomes.fine, .exit]

theorem accounted_iff_ledgerOk_skel :
    ∃ tr, nolan.Run State.init tr ∧ tr.map Prod.fst = skelSession ∧
      System.Always Accounted State.init tr := by
  have hsome : (System.final (System.checked State.next LedgerOk) State.init
      skelSession).isSome := by
    decide +kernel
  obtain ⟨tr, hrun, hacts, halong⟩ := System.exists_run_along hsome
  exact ⟨tr, hrun, hacts, (accounted_iff_ledgerOk hrun).mpr halong⟩

end QuickDevSkeleton.Platform
