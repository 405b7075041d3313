import QuickDevSkeleton.Pci.Driver

/-!
# The runs of `my_probe`

How each pass from the label `retry` on ends and in which state, and from that how a whole probe
ends: it always returns, and it returns `0` exactly if it finds a window to map.
-/

namespace QuickDevSkeleton.Pci

open Foundations

/-! ### The states on the way -/

namespace World

variable (w : World) (pdev dev : ℕ)

/-- The resource that the window is to come from, and the flag it must have. -/
def window : Resource :=
  if w.use_io ≠ 0 then (w.devices pdev).resource 0 else (w.devices pdev).resource 1

def Typed : Prop :=
  (w.window pdev).flags &&& (if w.use_io ≠ 0 then IORESOURCE_IO else IORESOURCE_MEM) ≠ 0

instance : Decidable (w.Typed pdev) :=
  inferInstanceAs (Decidable (_ ≠ _))

/-- `dev` is allocated, bound to the device, and the device enabled. -/
def started : World :=
  { w with
    mydevs := w.mydevs.alloc ⟨0, 0⟩
    drvdata := Function.update w.drvdata pdev (some w.mydevs.next)
    enable_cnt := Function.update w.enable_cnt pdev (w.enable_cnt pdev + 1) }

/-- The regions are requested, and the mapping has failed. -/
def unmapped : World :=
  { w.setRegions pdev (some .my_pci_driver) with
    mydevs := w.mydevs.modify dev fun d => { d with ioaddr := 0 } }

/-- The state at `goto retry`. -/
def again : World :=
  { (w.unmapped pdev dev).setRegions pdev none with
    releases := w.releases ++ (w.unmapped pdev dev).held pdev
    use_io := 1 }

/-- The state after `err_out` or the end of `my_remove`, where `ioaddr` is the field of `dev`. -/
def torn (ioaddr : ℕ) (disable : Bool) : World :=
  { w.setRegions pdev none with
    releases := w.releases ++ w.held pdev
    mapped := if ioaddr ≠ 0 then w.mapped.eraseP (·.addr = ioaddr) else w.mapped
    drvdata := Function.update w.drvdata pdev none
    enable_cnt := if disable then Function.update w.enable_cnt pdev (w.enable_cnt pdev - 1)
      else w.enable_cnt }

/-- The window is mapped at `ioaddr`, and the `cdev` registered if it could be. -/
def found (K : Outcomes) (ioaddr : ℕ) : World :=
  { w.setRegions pdev (some .my_pci_driver) with
    mapped := ⟨ioaddr, (w.window pdev).len⟩ :: w.mapped
    mydevs := (w.mydevs.modify dev fun d => { d with ioaddr := ioaddr }).modify dev
      fun d => { d with regs_len := (w.window pdev).len }
    cdevs := if K.cdev_add then
        ⟨MKDEV PCI_MAJOR (PCI_SLOT (w.devices pdev).devfn), dev⟩ :: w.cdevs
      else w.cdevs }

end World

/-- The request of the regions is granted. -/
def Attempt.Granted (a : Attempt) (w : World) (pdev : ℕ) : Prop :=
  w.Free pdev ∧ a.request_regions = 0

/-- The mapping of the window succeeds. -/
def Attempt.Maps (a : Attempt) (r : Resource) : Prop :=
  r.len ≠ 0 ∧ a.iomap ≠ 0

instance (a : Attempt) (w : World) (pdev : ℕ) : Decidable (a.Granted w pdev) :=
  inferInstanceAs (Decidable (_ ∧ _))

instance (a : Attempt) (r : Resource) : Decidable (a.Maps r) :=
  inferInstanceAs (Decidable (_ ∧ _))

/-! ### One pass -/

section

variable {K : Outcomes} {w : World} {pdev dev : ℕ} {disable : Bool} {a : Attempt}
  {more : List Attempt}

lemma request_granted (h : a.Granted w pdev) :
    pci_request_regions a pdev w = (some 0, w.setRegions pdev (some .my_pci_driver)) := by
  obtain ⟨hfree, hreq⟩ := h
  rw [pci_request_regions, Exec.withState_run, if_neg (not_not.mpr hfree),
    if_neg (not_not.mpr hreq)]
  rfl

lemma request_refused (h : ¬ a.Granted w pdev) :
    ∃ rc, rc ≠ 0 ∧ pci_request_regions a pdev w = (some rc, w) := by
  rw [pci_request_regions, Exec.withState_run]
  by_cases hfree : w.Free pdev
  · have hreq : a.request_regions ≠ 0 := fun hreq => h ⟨hfree, hreq⟩
    rw [if_neg (not_not.mpr hfree), if_pos hreq]
    exact ⟨_, hreq, rfl⟩
  · rw [if_pos hfree]
    exact ⟨_, by decide, rfl⟩

lemma iomap_maps {bar : ℕ} (h : a.Maps ((w.devices pdev).resource bar)) :
    pci_iomap a pdev bar w = (some a.iomap,
      { w with mapped := ⟨a.iomap, ((w.devices pdev).resource bar).len⟩ :: w.mapped }) := by
  rw [pci_iomap, Exec.withState_run, if_neg (not_or.mpr h)]
  rfl

lemma iomap_fails {bar : ℕ} (h : ¬ a.Maps ((w.devices pdev).resource bar)) :
    pci_iomap a pdev bar w = (some 0, w) := by
  rw [pci_iomap, Exec.withState_run, if_pos]
  · rfl
  · by_contra hno
    exact h (not_or.mp hno)

lemma register_cdev_run (w : World) : register_cdev K pdev dev w = (some (),
    { w with cdevs := if K.cdev_add then
        ⟨MKDEV PCI_MAJOR (PCI_SLOT (w.devices pdev).devfn), dev⟩ :: w.cdevs
      else w.cdevs }) := by
  rw [register_cdev, Exec.withState_run, cdev_add]
  split
  · rfl
  · rfl

/-- The flags of the window are wrong. -/
lemma retry_untyped (h : ¬ w.Typed pdev) :
    retry K pdev dev disable (a :: more) w = (some (-ENODEV, disable), w) := by
  by_cases hio : w.use_io = 0
  · have hflag : ((w.devices pdev).resource 1).flags &&& IORESOURCE_MEM = 0 := by
      simpa [World.Typed, World.window, hio] using h
    simp [retry, hio, hflag]
  · have hflag : ((w.devices pdev).resource 0).flags &&& IORESOURCE_IO = 0 := by
      simpa [World.Typed, World.window, hio] using h
    simp [retry, hio, hflag]

/-- The flags are right, and the request comes next. -/
lemma retry_typed (h : w.Typed pdev) {rc : ℤ} {u : World}
    (hreq : pci_request_regions a pdev w = (some rc, u)) :
    retry K pdev dev disable (a :: more) w =
      (if rc ≠ 0 then pure (rc, disable)
      else if w.use_io ≠ 0 then do
        let ioaddr ← pci_iomap a pdev 0
        setField dev fun d => { d with ioaddr := ioaddr }
        if ioaddr = 0 then pure (- EIO, true)
        else
          setField dev fun d => { d with regs_len := ((w.devices pdev).resource 0).len }
          register_cdev K pdev dev
          pure (rc, true)
      else do
        let ioaddr ← pci_iomap a pdev 1
        setField dev fun d => { d with ioaddr := ioaddr }
        if ioaddr = 0 then
          pci_release_regions pdev
          Exec.modify fun w => { w with use_io := 1 }
          retry K pdev dev true more
        else
          setField dev fun d => { d with regs_len := ((w.devices pdev).resource 1).len }
          register_cdev K pdev dev
          pure (rc, true)) u := by
  rw [retry, Exec.withState_run, if_neg, if_neg, Exec.bind_run_some hreq]
  · rintro ⟨hio, hflag⟩
    simp [World.Typed, World.window, hio, hflag] at h
  · rintro ⟨hio, hflag⟩
    simp [World.Typed, World.window, hio, hflag] at h

/-- The request is refused. -/
lemma retry_refused (h : w.Typed pdev) (hgrant : ¬ a.Granted w pdev) :
    ∃ rc, rc ≠ 0 ∧ retry K pdev dev disable (a :: more) w = (some (rc, disable), w) := by
  obtain ⟨rc, hrc, hreq⟩ := request_refused hgrant
  refine ⟨rc, hrc, ?_⟩
  rw [retry_typed h hreq, if_pos hrc]
  rfl

/-- The io ports cannot be mapped. -/
lemma retry_no_pio (h : w.Typed pdev) (hgrant : a.Granted w pdev) (hio : w.use_io ≠ 0)
    (hmap : ¬ a.Maps (w.window pdev)) :
    retry K pdev dev disable (a :: more) w = (some (- EIO, true), w.unmapped pdev dev) := by
  have hmap' : ¬ a.Maps ((w.devices pdev).resource 0) := by
    rwa [World.window, if_pos hio] at hmap
  rw [retry_typed h (request_granted hgrant), if_neg (not_not.mpr rfl), if_pos hio]
  exact Exec.bind_run_some (iomap_fails (w := w.setRegions pdev (some .my_pci_driver)) hmap')

/-- The memory cannot be mapped, and the io ports are tried. -/
lemma retry_again (h : w.Typed pdev) (hgrant : a.Granted w pdev) (hio : w.use_io = 0)
    (hmap : ¬ a.Maps (w.window pdev)) :
    retry K pdev dev disable (a :: more) w =
      retry K pdev dev true more (w.again pdev dev) := by
  have hmap' : ¬ a.Maps ((w.devices pdev).resource 1) := by
    rwa [World.window, if_neg (not_not.mpr hio)] at hmap
  rw [retry_typed h (request_granted hgrant), if_neg (not_not.mpr rfl), if_neg (not_not.mpr hio)]
  exact Exec.bind_run_some (iomap_fails (w := w.setRegions pdev (some .my_pci_driver)) hmap')

/-- The window is mapped. -/
lemma retry_found (h : w.Typed pdev) (hgrant : a.Granted w pdev) (hmap : a.Maps (w.window pdev)) :
    retry K pdev dev disable (a :: more) w =
      (some (0, true), w.found pdev dev K a.iomap) := by
  rw [retry_typed h (request_granted hgrant), if_neg (not_not.mpr rfl)]
  by_cases hio : w.use_io = 0
  · have hwin : w.window pdev = (w.devices pdev).resource 1 := if_neg (not_not.mpr hio)
    rw [World.found, hwin, if_neg (not_not.mpr hio)]
    rw [hwin] at hmap
    refine (Exec.bind_run_some
      (iomap_maps (w := w.setRegions pdev (some .my_pci_driver)) hmap)).trans ?_
    rw [setField, Exec.modify_bind, if_neg hmap.2, setField, Exec.modify_bind]
    exact Exec.bind_run_some (register_cdev_run _)
  · have hwin : w.window pdev = (w.devices pdev).resource 0 := if_pos hio
    rw [World.found, hwin, if_pos hio]
    rw [hwin] at hmap
    refine (Exec.bind_run_some
      (iomap_maps (w := w.setRegions pdev (some .my_pci_driver)) hmap)).trans ?_
    rw [setField, Exec.modify_bind, if_neg hmap.2, setField, Exec.modify_bind]
    exact Exec.bind_run_some (register_cdev_run _)

/-! ### All passes -/

/-- The attempt finds its window in `r`, provided that the regions are free. -/
def Attempt.Finds (a : Attempt) (r : Resource) (flag : ℕ) : Prop :=
  r.flags &&& flag ≠ 0 ∧ a.request_regions = 0 ∧ a.Maps r

/-- The passes find a window: the first one in the resource that `use_io` selects or, if that is
the memory and cannot be mapped, the second one in the io ports. -/
def FindsWindow (K : Outcomes) (w : World) (pdev : ℕ) : Prop :=
  let pio := (w.devices pdev).resource 0
  let mmio := (w.devices pdev).resource 1
  w.Free pdev ∧
    if w.use_io ≠ 0 then K.first.Finds pio IORESOURCE_IO
    else K.first.Finds mmio IORESOURCE_MEM ∨
      mmio.flags &&& IORESOURCE_MEM ≠ 0 ∧ K.first.request_regions = 0 ∧ ¬ K.first.Maps mmio ∧
        K.second.Finds pio IORESOURCE_IO

/-- `v` differs from `u` by passes that found no window: what they may have done to the regions
and to `use_io` is left open. -/
structure Tried (w u : World) (dev : ℕ) : Prop where
  devices : u.devices = w.devices
  mapped : u.mapped = w.mapped
  enable_cnt : u.enable_cnt = w.enable_cnt
  drvdata : u.drvdata = w.drvdata
  cdevs : u.cdevs = w.cdevs
  dev : w.mydevs.cell dev = some ⟨0, 0⟩ → u.mydevs.cell dev = some ⟨0, 0⟩

lemma Tried.refl (w : World) (dev : ℕ) : Tried w w dev :=
  ⟨rfl, rfl, rfl, rfl, rfl, id⟩

lemma Tried.trans {w u v : World} (h : Tried w u dev) (h' : Tried u v dev) : Tried w v dev where
  devices := h'.devices.trans h.devices
  mapped := h'.mapped.trans h.mapped
  enable_cnt := h'.enable_cnt.trans h.enable_cnt
  drvdata := h'.drvdata.trans h.drvdata
  cdevs := h'.cdevs.trans h.cdevs
  dev := h'.dev ∘ h.dev

lemma unmapped_tried : Tried w (w.unmapped pdev dev) dev := by
  refine ⟨rfl, rfl, rfl, rfl, rfl, fun hdev => ?_⟩
  change (w.mydevs.modify dev _).cell dev = _
  rw [Heap.cell_modify, hdev]
  rfl

lemma again_tried : Tried w (w.again pdev dev) dev :=
  ⟨rfl, rfl, rfl, rfl, rfl, (unmapped_tried : Tried w (w.unmapped pdev dev) dev).dev⟩

lemma setRegions_free (w : World) (pdev : ℕ) : (w.setRegions pdev none).Free pdev := by
  intro i hi
  simp only [World.setRegions, Function.update_self]
  exact if_pos hi

lemma again_free : (w.again pdev dev).Free pdev :=
  setRegions_free (w.unmapped pdev dev) pdev

lemma again_typed :
    (w.again pdev dev).Typed pdev ↔ ((w.devices pdev).resource 0).flags &&& IORESOURCE_IO ≠ 0 :=
  Iff.rfl

/-- The passes find a window, and the state is that of the pass that did. -/
lemma retry_finds (dev : ℕ) (h : FindsWindow K w pdev) : ∃ u ioaddr, Tried w u dev ∧ ioaddr ≠ 0 ∧
    retry K pdev dev false [K.first, K.second] w =
      (some (0, true), u.found pdev dev K ioaddr) := by
  obtain ⟨hfree, h⟩ := h
  by_cases hio : w.use_io = 0
  · have hwin : w.window pdev = (w.devices pdev).resource 1 := if_neg (not_not.mpr hio)
    have htyped : w.Typed pdev ↔
        ((w.devices pdev).resource 1).flags &&& IORESOURCE_MEM ≠ 0 := by
      rw [World.Typed, hwin, if_neg (not_not.mpr hio)]
    rw [if_neg (not_not.mpr hio)] at h
    rcases h with ⟨hflag, hreq, hmap⟩ | ⟨hflag, hreq, hmap, hflag', hreq', hmap'⟩
    · exact ⟨w, _, Tried.refl w dev, hmap.2,
        retry_found (htyped.mpr hflag) ⟨hfree, hreq⟩ (hwin ▸ hmap)⟩
    · refine ⟨w.again pdev dev, _, again_tried, hmap'.2, ?_⟩
      rw [retry_again (htyped.mpr hflag) ⟨hfree, hreq⟩ hio (hwin ▸ hmap)]
      exact retry_found (again_typed.mpr hflag') ⟨again_free, hreq'⟩ hmap'
  · have hwin : w.window pdev = (w.devices pdev).resource 0 := if_pos hio
    rw [if_pos hio] at h
    obtain ⟨hflag, hreq, hmap⟩ := h
    refine ⟨w, _, Tried.refl w dev, hmap.2, retry_found ?_ ⟨hfree, hreq⟩ (hwin ▸ hmap)⟩
    rwa [World.Typed, hwin, if_pos hio]

/-- The passes find no window: they end with an error, and the device is to be disabled if the
first of them requested its regions. -/
lemma retry_fails (dev : ℕ) (h : ¬ FindsWindow K w pdev) : ∃ rc u, rc ≠ 0 ∧ Tried w u dev ∧
    retry K pdev dev false [K.first, K.second] w =
      (some (rc, decide (w.Typed pdev ∧ K.first.Granted w pdev)), u) := by
  by_cases htyped : w.Typed pdev
  · by_cases hgrant : K.first.Granted w pdev
    · have hdisable : decide (w.Typed pdev ∧ K.first.Granted w pdev) = true :=
        decide_eq_true ⟨htyped, hgrant⟩
      rw [hdisable]
      by_cases hio : w.use_io = 0
      · have hwin : w.window pdev = (w.devices pdev).resource 1 := if_neg (not_not.mpr hio)
        have hflag : ((w.devices pdev).resource 1).flags &&& IORESOURCE_MEM ≠ 0 := by
          rwa [World.Typed, hwin, if_neg (not_not.mpr hio)] at htyped
        simp only [FindsWindow, hgrant.1, hio, true_and, ne_eq, not_true_eq_false, if_false,
          not_or] at h
        have hmap : ¬ K.first.Maps (w.window pdev) := fun hmap =>
          h.1 ⟨hflag, hgrant.2, hwin ▸ hmap⟩
        rw [retry_again htyped hgrant hio hmap]
        by_cases htyped' : (w.again pdev dev).Typed pdev
        · by_cases hgrant' : K.second.Granted (w.again pdev dev) pdev
          · have hmap' : ¬ K.second.Maps ((w.again pdev dev).window pdev) := fun hmap' =>
              h.2 ⟨hflag, hgrant.2, hwin ▸ hmap, again_typed.mp htyped', hgrant'.2, hmap'⟩
            exact ⟨_, _, by decide, again_tried.trans unmapped_tried,
              retry_no_pio htyped' hgrant' Nat.one_ne_zero hmap'⟩
          · obtain ⟨rc, hrc, hrun⟩ := retry_refused htyped' hgrant'
            exact ⟨rc, _, hrc, again_tried, hrun⟩
        · exact ⟨_, _, by decide, again_tried, retry_untyped htyped'⟩
      · have hwin : w.window pdev = (w.devices pdev).resource 0 := if_pos hio
        have hmap : ¬ K.first.Maps (w.window pdev) := by
          intro hmap
          refine h ⟨hgrant.1, ?_⟩
          rw [if_pos hio]
          refine ⟨?_, hgrant.2, hwin ▸ hmap⟩
          rwa [World.Typed, hwin, if_pos hio] at htyped
        exact ⟨_, _, by decide, unmapped_tried, retry_no_pio htyped hgrant hio hmap⟩
    · rw [decide_eq_false fun hno => hgrant hno.2]
      obtain ⟨rc, hrc, hrun⟩ := retry_refused htyped hgrant
      exact ⟨rc, _, hrc, Tried.refl w dev, hrun⟩
  · rw [decide_eq_false fun hno => htyped hno.1]
    exact ⟨_, _, by decide, Tried.refl w dev, retry_untyped htyped⟩

/-! ### Whole probes -/

lemma teardown_run {d : Mydev} (h : w.mydevs.cell dev = some d) :
    teardown pdev dev disable w = (some (), w.torn pdev d.ioaddr disable) := by
  rw [teardown, deref, Exec.withState_run, h, World.torn]
  by_cases hio : d.ioaddr = 0
  · cases disable
    · simp only [hio]
      rfl
    · simp only [hio]
      rfl
  · simp only [ne_eq, hio, not_false_eq_true, if_true]
    cases disable
    · rfl
    · rfl

lemma kfree_run {d : Mydev} (h : w.mydevs.cell dev = some d) :
    kfree dev w = (some (), { w with mydevs := w.mydevs.free dev }) := by
  rw [kfree, deref, Exec.withState_run, h]
  rfl

/-- A probe that gets as far as the label `retry` ends with `err_out`. -/
lemma my_probe_retry (hmem : K.kzalloc = true) (henable : K.enable_device = 0) {rc : ℤ}
    {u : World} {d : Mydev}
    (hrun : retry K pdev w.mydevs.next false [K.first, K.second] (w.started pdev) =
      (some (rc, disable), u))
    (hdev : u.mydevs.cell w.mydevs.next = some d) :
    my_probe K pdev w = (some rc, u.torn pdev d.ioaddr disable) := by
  rw [my_probe, kzalloc, hmem]
  change (pci_enable_device K pdev >>= _) _ = _
  rw [pci_enable_device, if_neg (not_not.mpr henable)]
  change (retry K pdev w.mydevs.next false [K.first, K.second] >>= _) (w.started pdev) = _
  rw [Exec.bind_run_some hrun]
  exact Exec.bind_run_some (teardown_run hdev)

lemma my_probe_no_memory (h : K.kzalloc = false) :
    my_probe K pdev w = (some (-ENOMEM), w) := by
  rw [my_probe, kzalloc, h]
  rfl

lemma my_probe_not_enabled (hmem : K.kzalloc = true) (henable : K.enable_device ≠ 0) :
    my_probe K pdev w = (some K.enable_device,
      { w with
        mydevs := (w.mydevs.alloc ⟨0, 0⟩).free w.mydevs.next
        drvdata := Function.update (Function.update w.drvdata pdev (some w.mydevs.next)) pdev
          none }) := by
  have hdev : (w.mydevs.alloc ⟨0, 0⟩).cell w.mydevs.next = some ⟨0, 0⟩ := Heap.cell_alloc _ _
  rw [my_probe, kzalloc, hmem]
  change (pci_enable_device K pdev >>= _) _ = _
  rw [pci_enable_device, if_pos henable, Exec.pure_bind, if_pos henable]
  exact Exec.bind_run_some (kfree_run hdev)

lemma findsWindow_started : FindsWindow K (w.started pdev) pdev ↔ FindsWindow K w pdev :=
  Iff.rfl

lemma torn_free (w : World) (pdev ioaddr : ℕ) (disable : Bool) :
    (w.torn pdev ioaddr disable).Free pdev :=
  setRegions_free w pdev

lemma torn_mapped {ioaddr : ℕ} (h : ioaddr ≠ 0) :
    (w.torn pdev ioaddr disable).mapped = w.mapped.eraseP (·.addr = ioaddr) := by
  simp only [World.torn, if_pos h]

/-- What a probe leaves behind that has failed after the device was enabled. -/
structure Leftover (K : Outcomes) (pdev : ℕ) (w w' : World) : Prop where
  leaked : (w'.mydevs.cell w.mydevs.next).isSome
  mapped : w'.mapped = w.mapped
  regions : w'.Free pdev
  drvdata : w'.drvdata pdev = none
  enable_cnt : w'.enable_cnt pdev =
    w.enable_cnt pdev + if w.Typed pdev ∧ K.first.Granted w pdev then 0 else 1
  cdevs : w'.cdevs = w.cdevs

lemma my_probe_fails (hmem : K.kzalloc = true) (henable : K.enable_device = 0)
    (h : ¬ FindsWindow K w pdev) :
    ∃ rc w', rc ≠ 0 ∧ my_probe K pdev w = (some rc, w') ∧ Leftover K pdev w w' := by
  obtain ⟨rc, u, hrc, htried, hrun⟩ :=
    retry_fails w.mydevs.next (mt findsWindow_started.mp h)
  have hdev := htried.dev (Heap.cell_alloc _ _)
  refine ⟨rc, _, hrc, my_probe_retry hmem henable hrun hdev, ?_⟩
  constructor
  · exact Option.isSome_iff_exists.mpr ⟨_, hdev⟩
  · exact htried.mapped
  · exact torn_free _ _ _ _
  · exact Function.update_self _ _ _
  · have hcnt : u.enable_cnt pdev = w.enable_cnt pdev + 1 := by
      rw [htried.enable_cnt]
      exact Function.update_self _ _ _
    change (if decide (w.Typed pdev ∧ K.first.Granted w pdev) then
      Function.update u.enable_cnt pdev (u.enable_cnt pdev - 1) else u.enable_cnt) pdev = _
    by_cases hfirst : w.Typed pdev ∧ K.first.Granted w pdev
    · rw [if_pos (decide_eq_true hfirst), if_pos hfirst, Function.update_self, hcnt,
        Int.add_sub_cancel, Int.add_zero]
    · rw [decide_eq_false hfirst, if_neg Bool.false_ne_true, if_neg hfirst, hcnt]
  · exact htried.cdevs

/-- What a probe leaves behind that has succeeded. -/
structure TornDown (K : Outcomes) (pdev : ℕ) (w w' : World) : Prop where
  dangling : ∃ d, w'.mydevs.cell w.mydevs.next = some d ∧ d.ioaddr ≠ 0
  mapped : w'.mapped = w.mapped
  regions : w'.Free pdev
  drvdata : w'.drvdata pdev = none
  enable_cnt : w'.enable_cnt = w.enable_cnt
  cdevs : w'.cdevs = if K.cdev_add then
      ⟨MKDEV PCI_MAJOR (PCI_SLOT (w.devices pdev).devfn), w.mydevs.next⟩ :: w.cdevs
    else w.cdevs

lemma my_probe_succeeds (hmem : K.kzalloc = true) (henable : K.enable_device = 0)
    (h : FindsWindow K w pdev) :
    ∃ w', my_probe K pdev w = (some 0, w') ∧ TornDown K pdev w w' := by
  obtain ⟨u, ioaddr, htried, hio, hrun⟩ :=
    retry_finds w.mydevs.next (findsWindow_started.mpr h)
  have hu := htried.dev (Heap.cell_alloc _ _)
  have hdev : (u.found pdev w.mydevs.next K ioaddr).mydevs.cell w.mydevs.next =
      some ⟨(u.window pdev).len, ioaddr⟩ := by
    simp only [World.found, Heap.cell_modify, hu, Option.map_some]
  refine ⟨_, my_probe_retry hmem henable hrun hdev, ?_⟩
  constructor
  · exact ⟨_, hdev, hio⟩
  · rw [torn_mapped hio]
    refine (List.eraseP_cons_of_pos ?_).trans htried.mapped
    exact decide_eq_true rfl
  · exact torn_free _ _ _ _
  · exact Function.update_self _ _ _
  · change Function.update u.enable_cnt pdev (u.enable_cnt pdev - 1) = w.enable_cnt
    rw [htried.enable_cnt]
    simp [World.started]
  · change (if K.cdev_add then ⟨MKDEV PCI_MAJOR (PCI_SLOT (u.devices pdev).devfn), _⟩ :: u.cdevs
      else u.cdevs) = _
    rw [htried.cdevs, htried.devices]
    rfl

/-- The device can be enabled and a window be mapped. -/
def Succeeds (K : Outcomes) (w : World) (pdev : ℕ) : Prop :=
  K.kzalloc = true ∧ K.enable_device = 0 ∧ FindsWindow K w pdev

/-- The four ways in which a probe ends. -/
inductive ProbeEnds (K : Outcomes) (pdev : ℕ) (w : World) : ℤ → World → Prop where
  | no_memory (hmem : K.kzalloc = false) : ProbeEnds K pdev w (-ENOMEM) w
  | not_enabled (hmem : K.kzalloc = true) (henable : K.enable_device ≠ 0) :
      ProbeEnds K pdev w K.enable_device
        { w with
          mydevs := (w.mydevs.alloc ⟨0, 0⟩).free w.mydevs.next
          drvdata := Function.update (Function.update w.drvdata pdev (some w.mydevs.next)) pdev
            none }
  | failed {rc : ℤ} {w' : World} (hmem : K.kzalloc = true) (henable : K.enable_device = 0)
      (hno : ¬ FindsWindow K w pdev) (hrc : rc ≠ 0) (hleft : Leftover K pdev w w') :
      ProbeEnds K pdev w rc w'
  | succeeded {w' : World} (h : Succeeds K w pdev) (htorn : TornDown K pdev w w') :
      ProbeEnds K pdev w 0 w'

/-- Every probe returns, in one of these ways. -/
lemma my_probe_ends (K : Outcomes) (pdev : ℕ) (w : World) :
    ∃ rc w', my_probe K pdev w = (some rc, w') ∧ ProbeEnds K pdev w rc w' := by
  cases hmem : K.kzalloc with
  | false => exact ⟨_, _, my_probe_no_memory hmem, .no_memory hmem⟩
  | true =>
    by_cases henable : K.enable_device = 0
    · by_cases hfinds : FindsWindow K w pdev
      · obtain ⟨w', hrun, htorn⟩ := my_probe_succeeds hmem henable hfinds
        exact ⟨0, w', hrun, .succeeded ⟨hmem, henable, hfinds⟩ htorn⟩
      · obtain ⟨rc, w', hrc, hrun, hleft⟩ := my_probe_fails hmem henable hfinds
        exact ⟨rc, w', hrun, .failed hmem henable hfinds hrc hleft⟩
    · exact ⟨_, _, my_probe_not_enabled hmem henable, .not_enabled hmem henable⟩

end

end QuickDevSkeleton.Pci
