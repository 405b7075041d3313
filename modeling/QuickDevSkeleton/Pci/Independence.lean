import QuickDevSkeleton.Pci.Probe

/-!
# Probes of two devices

`use_io` belongs to the module. A probe that cannot map the memory of its device sets it, and
every later probe then looks at the io ports only. So the window that a device gets, and the value
that its probe returns, can depend on what another device answered before.
-/

namespace QuickDevSkeleton.Pci

open Foundations

/-- What the kernel answers to the calls that the probe of one device makes: to its first and its
second request of the regions, and to the mapping of each BAR. -/
structure Answers where
  kzalloc : Bool
  enable_device : ℤ
  request_regions : ℕ → ℤ
  iomap : ℕ → ℕ
  cdev_add : Bool

namespace Answers

variable (S : Answers)

/-- The answers in the order in which a probe asks: the BAR of its first pass is the one that
`use_io` selects, a second pass has the io ports. -/
def outcomes (use_io : ℕ) : Outcomes where
  kzalloc := S.kzalloc
  enable_device := S.enable_device
  first := ⟨S.request_regions 0, S.iomap (if use_io ≠ 0 then 0 else 1)⟩
  second := ⟨S.request_regions 1, S.iomap 0⟩
  cdev_add := S.cdev_add

/-- `my_probe` of a device with these answers. -/
def probe (pdev : ℕ) (w : World) : Option ℤ × World :=
  my_probe (S.outcomes w.use_io) pdev w

end Answers

/-- The `struct mydev` that was allocated on the way from `w` to `u`. -/
def World.allocated (w u : World) : Option ℕ :=
  if u.mydevs.next = w.mydevs.next then none else some w.mydevs.next

/-- The window of the `struct mydev` at `dev`, if it has one: the BAR, which is that of `use_io`
at the end of its probe, and the stored `regs_len`. -/
def World.chosen (w : World) (use_io : ℕ) (dev : Option ℕ) : Option (ℕ × ℕ) :=
  (dev.bind w.mydevs.cell).bind fun d =>
    if d.ioaddr = 0 then none else some (if use_io ≠ 0 then 0 else 1, d.regs_len)

/-- What the probe of `B` returns, and its window. -/
def probed_alone (S : Answers) (B : ℕ) (w : World) : Option ℤ × Option (ℕ × ℕ) :=
  let (rc, u) := S.probe B w
  (rc, u.chosen u.use_io (w.allocated u))

/-- The same, with the window as it is after a probe of `A` that follows. -/
def probed_before (R : Answers) (A : ℕ) (S : Answers) (B : ℕ) (w : World) :
    Option ℤ × Option (ℕ × ℕ) :=
  let (rc, u) := S.probe B w
  let (_, v) := R.probe A u
  (rc, v.chosen u.use_io (w.allocated u))

/-- The same after a probe of `A`. -/
def probed_after (R : Answers) (A : ℕ) (S : Answers) (B : ℕ) (w : World) :
    Option ℤ × Option (ℕ × ℕ) :=
  let (_, u) := R.probe A w
  probed_alone S B u

/-- The probe of `B` does not depend on that of `A`. -/
def Independent (R : Answers) (A : ℕ) (S : Answers) (B : ℕ) (w : World) : Prop :=
  probed_before R A S B w = probed_alone S B w ∧ probed_after R A S B w = probed_alone S B w

instance (R : Answers) (A : ℕ) (S : Answers) (B : ℕ) (w : World) :
    Decidable (Independent R A S B w) :=
  inferInstanceAs (Decidable (_ ∧ _))

/-! ### The verdict on one device -/

namespace Answers

variable (S : Answers) (w : World) (pdev : ℕ)

/-- The answer to the first request of the regions. -/
def reply : ℤ :=
  if ¬ w.Free pdev then -EBUSY else S.request_regions 0

/-- BAR `bar` can be mapped. -/
def Maps (bar : ℕ) : Prop :=
  ((w.devices pdev).resource bar).len ≠ 0 ∧ S.iomap bar ≠ 0

instance (bar : ℕ) : Decidable (S.Maps w pdev bar) :=
  inferInstanceAs (Decidable (_ ∧ _))

/-- BAR 0 is a range of io ports. -/
def HasPio : Prop :=
  ((w.devices pdev).resource 0).flags &&& IORESOURCE_IO ≠ 0

/-- BAR 1 is a range of memory. -/
def HasMmio : Prop :=
  ((w.devices pdev).resource 1).flags &&& IORESOURCE_MEM ≠ 0

instance : Decidable (HasPio w pdev) :=
  inferInstanceAs (Decidable (_ ≠ _))

instance : Decidable (HasMmio w pdev) :=
  inferInstanceAs (Decidable (_ ≠ _))

/-- How a pass for the io ports ends, in which the request of the regions is answered by `rc`. -/
def pioVerdict (rc : ℤ) : ℤ × Option (ℕ × ℕ) :=
  if ¬ HasPio w pdev then (-ENODEV, none)
  else if rc ≠ 0 then (rc, none)
  else if ¬ S.Maps w pdev 0 then (- EIO, none)
  else (0, some (0, ((w.devices pdev).resource 0).len))

/-- How a pass for the memory ends, with the pass that may follow. -/
def mmioVerdict : ℤ × Option (ℕ × ℕ) :=
  if ¬ HasMmio w pdev then (-ENODEV, none)
  else if S.reply w pdev ≠ 0 then (S.reply w pdev, none)
  else if ¬ S.Maps w pdev 1 then S.pioVerdict w pdev (S.request_regions 1)
  else (0, some (1, ((w.devices pdev).resource 1).len))

/-- How a probe ends. -/
def verdict : ℤ × Option (ℕ × ℕ) :=
  if S.kzalloc = false then (-ENOMEM, none)
  else if S.enable_device ≠ 0 then (S.enable_device, none)
  else if w.use_io ≠ 0 then S.pioVerdict w pdev (S.reply w pdev)
  else S.mmioVerdict w pdev

/-- The memory of the device is to be mapped and cannot be, so that a probe that starts with
`use_io` at `0` sets it. -/
def FallsBack : Prop :=
  S.kzalloc = true ∧ S.enable_device = 0 ∧ HasMmio w pdev ∧ S.reply w pdev = 0 ∧
    ¬ S.Maps w pdev 1

instance : Decidable (S.FallsBack w pdev) :=
  inferInstanceAs (Decidable (_ ∧ _ ∧ _ ∧ _ ∧ _))

/-- The probe of the device ends in the same way whatever `use_io` is: it does not get as far as
the BARs, or neither BAR has its type, or the request of the regions is refused with the error
that a missing type has or with both types there, or the memory cannot be mapped and the second
pass ends as a first one for the io ports would. -/
def Indifferent : Prop :=
  S.kzalloc = false ∨ S.enable_device ≠ 0 ∨ (¬ HasMmio w pdev ∧ ¬ HasPio w pdev) ∨
    (S.reply w pdev ≠ 0 ∧ (S.reply w pdev = -ENODEV ∨ (HasMmio w pdev ∧ HasPio w pdev))) ∨
    (HasMmio w pdev ∧ S.reply w pdev = 0 ∧ ¬ S.Maps w pdev 1 ∧
      (¬ HasPio w pdev ∨ S.request_regions 1 = 0 ∨
        (S.request_regions 1 = - EIO ∧ ¬ S.Maps w pdev 0)))

instance : Decidable (S.Indifferent w pdev) :=
  inferInstanceAs (Decidable (_ ∨ _ ∨ _ ∨ _ ∨ _))

end Answers

/-! ### A probe ends with its verdict -/

/-- `u` differs from `w` by what a probe of `pdev` may have done with `dev`. -/
structure Beside (pdev dev : ℕ) (w u : World) : Prop where
  devices : u.devices = w.devices
  regions : ∀ p, p ≠ pdev → u.regions p = w.regions p
  mydevs : ∀ d, d ≠ dev → u.mydevs.cell d = w.mydevs.cell d
  next : w.mydevs.next ≤ u.mydevs.next

namespace Beside

variable {pdev dev ioaddr : ℕ} {disable : Bool} {w u v : World}

lemma trans (h : Beside pdev dev w u) (h' : Beside pdev dev u v) : Beside pdev dev w v where
  devices := h'.devices.trans h.devices
  regions p hp := (h'.regions p hp).trans (h.regions p hp)
  mydevs d hd := (h'.mydevs d hd).trans (h.mydevs d hd)
  next := h.next.trans h'.next

lemma started : Beside pdev w.mydevs.next w (w.started pdev) where
  devices := rfl
  regions _ _ := rfl
  mydevs _ hd := Heap.cell_alloc_of_ne _ _ hd
  next := Nat.le_succ _

lemma unmapped : Beside pdev dev w (w.unmapped pdev dev) where
  devices := rfl
  regions _ hp := Function.update_of_ne hp _ _
  mydevs _ hd := Heap.cell_modify_of_ne _ _ hd
  next := le_rfl

lemma again : Beside pdev dev w (w.again pdev dev) where
  devices := rfl
  regions _ hp := (Function.update_of_ne hp _ _).trans (Function.update_of_ne hp _ _)
  mydevs _ hd := Heap.cell_modify_of_ne _ _ hd
  next := le_rfl

lemma found {K : Outcomes} : Beside pdev dev w (w.found pdev dev K ioaddr) where
  devices := rfl
  regions _ hp := Function.update_of_ne hp _ _
  mydevs _ hd := (Heap.cell_modify_of_ne _ _ hd).trans (Heap.cell_modify_of_ne _ _ hd)
  next := le_rfl

lemma torn : Beside pdev dev w (w.torn pdev ioaddr disable) where
  devices := rfl
  regions _ hp := Function.update_of_ne hp _ _
  mydevs _ _ := rfl
  next := le_rfl

lemma free (h : Beside pdev dev w u) {p : ℕ} (hp : p ≠ pdev) : u.Free p ↔ w.Free p := by
  rw [World.Free, World.bars, h.devices, h.regions p hp]
  rfl

end Beside

/-- `u` is left by the part of a probe that set up `dev`, with the window `v` of it. -/
structure Leaves (pdev dev : ℕ) (v : Option (ℕ × ℕ)) (w u : World) : Prop where
  beside : Beside pdev dev w u
  kept : ∃ d, u.mydevs.cell dev = some d
  window : u.chosen u.use_io (some dev) = v

lemma World.chosen_none {w : World} {dev : ℕ} (h : w.mydevs.cell dev = some ⟨0, 0⟩)
    (use_io : ℕ) : w.chosen use_io (some dev) = none := by
  simp [World.chosen, h]

section

variable {S : Answers} {K : Outcomes} {w : World} {pdev dev : ℕ} {disable : Bool} {a : Attempt}
  {more : List Attempt} {rc : ℤ}

lemma Leaves.nothing (h : w.mydevs.cell dev = some ⟨0, 0⟩) : Leaves pdev dev none w w where
  beside := ⟨rfl, fun _ _ => rfl, fun _ _ => rfl, le_rfl⟩
  kept := ⟨_, h⟩
  window := w.chosen_none h _

lemma Leaves.unmapped (h : w.mydevs.cell dev = some ⟨0, 0⟩) :
    Leaves pdev dev none w (w.unmapped pdev dev) := by
  have hcell : (w.unmapped pdev dev).mydevs.cell dev = some ⟨0, 0⟩ := unmapped_tried.dev h
  exact ⟨Beside.unmapped, ⟨_, hcell⟩, World.chosen_none hcell _⟩

lemma Leaves.found {d : Mydev} {ioaddr : ℕ} (h : w.mydevs.cell dev = some d) (hio : ioaddr ≠ 0) :
    Leaves pdev dev (some (if w.use_io ≠ 0 then 0 else 1, (w.window pdev).len)) w
      (w.found pdev dev K ioaddr) := by
  have hcell : (w.found pdev dev K ioaddr).mydevs.cell dev =
      some ⟨(w.window pdev).len, ioaddr⟩ := by
    simp only [World.found, Heap.cell_modify, h, Option.map_some]
  refine ⟨Beside.found, ⟨_, hcell⟩, ?_⟩
  rw [World.chosen, Option.bind_some, hcell, Option.bind_some, if_neg hio]
  rfl

/-- A request of the regions, whoever holds them. -/
lemma request_reply (hrc : rc = if ¬ w.Free pdev then -EBUSY else a.request_regions) :
    (rc = 0 → a.Granted w pdev) ∧ (rc ≠ 0 → pci_request_regions a pdev w = (some rc, w)) := by
  by_cases hfree : w.Free pdev
  · rw [if_neg (not_not.mpr hfree)] at hrc
    refine ⟨fun h => ⟨hfree, hrc ▸ h⟩, fun h => ?_⟩
    rw [pci_request_regions, Exec.withState_run, if_neg (not_not.mpr hfree), if_pos (hrc ▸ h), hrc]
    rfl
  · rw [if_pos hfree] at hrc
    refine ⟨fun h => absurd (hrc.symm.trans h) (by decide), fun _ => ?_⟩
    rw [pci_request_regions, Exec.withState_run, if_pos hfree, hrc]
    rfl

/-- A pass for the io ports ends with its verdict. -/
lemma pio_pass (S : Answers) (K : Outcomes) (pdev : ℕ) (disable : Bool) (a : Attempt)
    (more : List Attempt) (hcell : w.mydevs.cell dev = some ⟨0, 0⟩) (hio : w.use_io ≠ 0)
    (hmap : a.iomap = S.iomap 0)
    (hrc : rc = if ¬ w.Free pdev then -EBUSY else a.request_regions) :
    ∃ disable' u,
      retry K pdev dev disable (a :: more) w =
        (some ((S.pioVerdict w pdev rc).1, disable'), u) ∧
      u.use_io = w.use_io ∧ Leaves pdev dev (S.pioVerdict w pdev rc).2 w u := by
  have hwin : w.window pdev = (w.devices pdev).resource 0 := if_pos hio
  have htyped : w.Typed pdev ↔ Answers.HasPio w pdev := by
    rw [World.Typed, hwin, if_pos hio, Answers.HasPio]
  have hmaps : a.Maps (w.window pdev) ↔ S.Maps w pdev 0 := by
    rw [Attempt.Maps, hwin, hmap, Answers.Maps]
  rw [Answers.pioVerdict]
  by_cases hpio : Answers.HasPio w pdev
  · rw [if_neg (not_not.mpr hpio)]
    obtain ⟨hgrant, hreq⟩ := request_reply hrc
    by_cases hzero : rc = 0
    · rw [if_neg (not_not.mpr hzero)]
      by_cases hm : S.Maps w pdev 0
      · rw [if_neg (not_not.mpr hm)]
        refine ⟨_, _, retry_found (htyped.mpr hpio) (hgrant hzero) (hmaps.mpr hm), rfl, ?_⟩
        have hleaves : Leaves pdev dev _ w (w.found pdev dev K a.iomap) :=
          Leaves.found hcell (hmaps.mpr hm).2
        rwa [if_pos hio, hwin] at hleaves
      · rw [if_pos hm]
        exact ⟨_, _, retry_no_pio (htyped.mpr hpio) (hgrant hzero) hio (mt hmaps.mp hm), rfl,
          Leaves.unmapped hcell⟩
    · rw [if_pos hzero]
      refine ⟨disable, w, ?_, rfl, Leaves.nothing hcell⟩
      rw [retry_typed (htyped.mpr hpio) (hreq hzero), if_pos hzero]
      rfl
  · rw [if_pos hpio]
    exact ⟨_, _, retry_untyped (mt htyped.mp hpio), rfl, Leaves.nothing hcell⟩

lemma Leaves.again {v : Option (ℕ × ℕ)} {u : World}
    (h : Leaves pdev dev v (w.again pdev dev) u) : Leaves pdev dev v w u where
  beside := Beside.again.trans h.beside
  kept := h.kept
  window := h.window

/-- A pass for the memory, and the one for the io ports that may follow, end with their
verdict. -/
lemma mmio_pass (S : Answers) (pdev : ℕ) (disable : Bool)
    (hcell : w.mydevs.cell dev = some ⟨0, 0⟩) (hio : w.use_io = 0) (hK : K = S.outcomes 0) :
    ∃ disable' u,
      retry K pdev dev disable [K.first, K.second] w =
        (some ((S.mmioVerdict w pdev).1, disable'), u) ∧
      u.use_io = (if Answers.HasMmio w pdev ∧ S.reply w pdev = 0 ∧ ¬ S.Maps w pdev 1 then 1
        else w.use_io) ∧
      Leaves pdev dev (S.mmioVerdict w pdev).2 w u := by
  have hwin : w.window pdev = (w.devices pdev).resource 1 := if_neg (not_not.mpr hio)
  have htyped : w.Typed pdev ↔ Answers.HasMmio w pdev := by
    rw [World.Typed, hwin, if_neg (not_not.mpr hio), Answers.HasMmio]
  have hmaps : K.first.Maps (w.window pdev) ↔ S.Maps w pdev 1 := by
    rw [Attempt.Maps, hwin, hK, Answers.Maps]
    rfl
  have hreply : S.reply w pdev = if ¬ w.Free pdev then -EBUSY else K.first.request_regions := by
    rw [hK]
    rfl
  rw [Answers.mmioVerdict]
  by_cases hmmio : Answers.HasMmio w pdev
  · rw [if_neg (not_not.mpr hmmio)]
    obtain ⟨hgrant, hreq⟩ := request_reply hreply
    by_cases hzero : S.reply w pdev = 0
    · rw [if_neg (not_not.mpr hzero)]
      by_cases hm : S.Maps w pdev 1
      · rw [if_neg (not_not.mpr hm), if_neg fun h => h.2.2 hm]
        refine ⟨_, _, retry_found (htyped.mpr hmmio) (hgrant hzero) (hmaps.mpr hm), rfl, ?_⟩
        have hleaves : Leaves pdev dev _ w (w.found pdev dev K K.first.iomap) :=
          Leaves.found hcell (hmaps.mpr hm).2
        rwa [if_neg (not_not.mpr hio), hwin] at hleaves
      · rw [if_pos hm, if_pos ⟨hmmio, hzero, hm⟩,
          retry_again (htyped.mpr hmmio) (hgrant hzero) hio (mt hmaps.mp hm)]
        have hsecond : S.request_regions 1 = if ¬ (w.again pdev dev).Free pdev then -EBUSY
            else K.second.request_regions := by
          rw [if_neg (not_not.mpr again_free), hK]
          rfl
        obtain ⟨disable', u, hrun, huse, hleaves⟩ := pio_pass S K pdev true K.second []
          (again_tried.dev hcell : (w.again pdev dev).mydevs.cell dev = _) Nat.one_ne_zero
          (by rw [hK]; rfl) hsecond
        exact ⟨disable', u, hrun, huse, hleaves.again⟩
    · rw [if_pos hzero, if_neg fun h => hzero h.2.1]
      refine ⟨disable, w, ?_, rfl, Leaves.nothing hcell⟩
      rw [retry_typed (htyped.mpr hmmio) (hreq hzero), if_pos hzero]
      rfl
  · rw [if_pos hmmio, if_neg fun h => hmmio h.1]
    exact ⟨_, _, retry_untyped (mt htyped.mp hmmio), rfl, Leaves.nothing hcell⟩

/-- How a probe of `pdev` ends, and what it leaves of the module and of other devices. -/
structure Ends (S : Answers) (pdev : ℕ) (w u : World) : Prop where
  beside : Beside pdev w.mydevs.next w u
  window : u.chosen u.use_io (w.allocated u) = (S.verdict w pdev).2
  use_io : u.use_io = if w.use_io = 0 ∧ S.FallsBack w pdev then 1 else w.use_io

/-- A probe that gets as far as its passes ends as they do. -/
lemma ends_of_passes (hmem : S.kzalloc = true) (henable : S.enable_device = 0) {u : World}
    (hrun : retry (S.outcomes w.use_io) pdev w.mydevs.next false
      [(S.outcomes w.use_io).first, (S.outcomes w.use_io).second] (w.started pdev) =
        (some ((S.verdict w pdev).1, disable), u))
    (huse : u.use_io = if w.use_io = 0 ∧ S.FallsBack w pdev then 1 else w.use_io)
    (h : Leaves pdev w.mydevs.next (S.verdict w pdev).2 (w.started pdev) u) :
    ∃ v, S.probe pdev w = (some (S.verdict w pdev).1, v) ∧ Ends S pdev w v := by
  obtain ⟨d, hd⟩ := h.kept
  have halloc : w.allocated (u.torn pdev d.ioaddr disable) = some w.mydevs.next := by
    refine if_neg fun hnext => ?_
    change u.mydevs.next = w.mydevs.next at hnext
    rw [← hnext, Heap.cell_next] at hd
    cases hd
  refine ⟨_, my_probe_retry hmem henable hrun hd,
    (Beside.started.trans h.beside).trans Beside.torn, ?_, huse⟩
  rw [halloc]
  exact h.window

lemma probe_ends (S : Answers) (pdev : ℕ) (w : World) :
    ∃ u, S.probe pdev w = (some (S.verdict w pdev).1, u) ∧ Ends S pdev w u := by
  have hcell : (w.started pdev).mydevs.cell w.mydevs.next = some ⟨0, 0⟩ := Heap.cell_alloc _ _
  cases hmem : S.kzalloc with
  | false =>
    have hverdict : S.verdict w pdev = (-ENOMEM, none) := if_pos hmem
    refine ⟨w, ?_, ⟨rfl, fun _ _ => rfl, fun _ _ => rfl, le_rfl⟩, ?_, ?_⟩
    · rw [Answers.probe, my_probe_no_memory hmem, hverdict]
    · rw [hverdict, World.allocated, if_pos rfl]
      rfl
    · rw [if_neg]
      rintro ⟨-, hmem', -⟩
      rw [hmem] at hmem'
      cases hmem'
  | true =>
    by_cases henable : S.enable_device = 0
    · by_cases hio : w.use_io = 0
      · have hverdict : S.verdict w pdev = S.mmioVerdict (w.started pdev) pdev := by
          rw [Answers.verdict, if_neg (by rw [hmem]; decide), if_neg (not_not.mpr henable),
            if_neg (not_not.mpr hio)]
          rfl
        obtain ⟨disable', u, hrun, huse, hleaves⟩ := mmio_pass S pdev false hcell hio
          (K := S.outcomes w.use_io) (by rw [hio])
        rw [← hverdict] at hrun hleaves
        refine ends_of_passes hmem henable hrun ?_ hleaves
        rw [huse]
        change (if Answers.HasMmio w pdev ∧ S.reply w pdev = 0 ∧ ¬ S.Maps w pdev 1 then 1
          else w.use_io) = _
        simp only [Answers.FallsBack, hio, hmem, henable, true_and]
      · have hverdict :
            S.verdict w pdev = S.pioVerdict (w.started pdev) pdev (S.reply w pdev) := by
          rw [Answers.verdict, if_neg (by rw [hmem]; decide), if_neg (not_not.mpr henable),
            if_pos hio]
          rfl
        obtain ⟨disable', u, hrun, huse, hleaves⟩ := pio_pass S (S.outcomes w.use_io) pdev false
          (S.outcomes w.use_io).first [(S.outcomes w.use_io).second] hcell hio
          (congrArg S.iomap (if_pos hio)) (rfl : S.reply w pdev = _)
        rw [← hverdict] at hrun hleaves
        refine ends_of_passes hmem henable hrun ?_ hleaves
        rw [huse, if_neg fun h => hio h.1]
        rfl
    · have hverdict : S.verdict w pdev = (S.enable_device, none) := by
        rw [Answers.verdict, if_neg (by rw [hmem]; decide), if_pos henable]
      rw [hverdict]
      refine ⟨_, my_probe_not_enabled (K := S.outcomes w.use_io) hmem henable,
        ⟨rfl, fun _ _ => rfl, fun d _ => congrFun (Heap.free_alloc _ _) d, Nat.le_succ _⟩, ?_, ?_⟩
      · rw [hverdict, World.allocated, if_neg]
        · rw [World.chosen, Option.bind_some, Heap.cell_free]
          rfl
        · exact Nat.succ_ne_self w.mydevs.next
      · rw [if_neg fun h => henable h.2.2.1]

end

/-! ### Two probes -/

section

variable {R S : Answers} {A B : ℕ} {w u : World}

lemma probed_alone_eq : probed_alone S B w = (some (S.verdict w B).1, (S.verdict w B).2) := by
  obtain ⟨u, hrun, hends⟩ := probe_ends S B w
  rw [probed_alone, hrun, ← hends.window]

/-- A later probe leaves the window as it is. -/
lemma probed_before_eq : probed_before R A S B w = probed_alone S B w := by
  obtain ⟨u, hrun, hends⟩ := probe_ends S B w
  obtain ⟨v, hrun', hends'⟩ := probe_ends R A u
  have hsame : v.chosen u.use_io (w.allocated u) = u.chosen u.use_io (w.allocated u) := by
    rw [World.allocated]
    by_cases hnext : u.mydevs.next = w.mydevs.next
    · rw [if_pos hnext]
      rfl
    · have hcell := hends'.beside.mydevs w.mydevs.next fun h => hnext h.symm
      simp only [if_neg hnext, World.chosen, Option.bind_some, hcell]
  simp only [probed_before, probed_alone, hrun, hrun', hsame]

/-- The verdict on a device rests on the device, its regions and `use_io`. -/
lemma Answers.verdict_congr (hdev : u.devices = w.devices) (hfree : u.Free B ↔ w.Free B)
    (hio : u.use_io = w.use_io) : S.verdict u B = S.verdict w B := by
  have hreply : S.reply u B = S.reply w B := by
    rw [Answers.reply, Answers.reply]
    simp only [hfree]
  have hpio : ∀ rc, S.pioVerdict u B rc = S.pioVerdict w B rc := by
    intro rc
    simp only [Answers.pioVerdict, Answers.HasPio, Answers.Maps, hdev]
    congr
  simp only [Answers.verdict, Answers.mmioVerdict, Answers.HasMmio, Answers.Maps, hreply, hpio,
    hdev, hio]
  congr

/-- What the two kinds of first pass must have in common to end in the same way. -/
lemma Answers.pioVerdict_eq_iff : S.pioVerdict w B (S.reply w B) = S.mmioVerdict w B ↔
    (¬ HasMmio w B ∧ ¬ HasPio w B) ∨
    (S.reply w B ≠ 0 ∧ (S.reply w B = -ENODEV ∨ (HasMmio w B ∧ HasPio w B))) ∨
    (HasMmio w B ∧ S.reply w B = 0 ∧ ¬ S.Maps w B 1 ∧
      (¬ HasPio w B ∨ S.request_regions 1 = 0 ∨
        (S.request_regions 1 = - EIO ∧ ¬ S.Maps w B 0))) := by
  have hnodev : (0 : ℤ) ≠ -ENODEV := by decide
  have hio : - EIO ≠ -ENODEV := by decide
  rw [mmioVerdict, pioVerdict, pioVerdict]
  by_cases hreply : S.reply w B = 0
  · by_cases hmmio : HasMmio w B
    · by_cases hmaps : S.Maps w B 1
      · -- the memory is mapped, and the io ports are no memory
        by_cases hpio : HasPio w B
        · by_cases hmaps' : S.Maps w B 0 <;> simp [hreply, hmmio, hmaps, hpio, hmaps']
        · simp [hreply, hmmio, hmaps, hpio, hnodev.symm]
      · by_cases hpio : HasPio w B
        · -- the io ports are tried in both cases, and answer the second request or the first
          by_cases hagain : S.request_regions 1 = 0
          · simp [hreply, hmmio, hmaps, hpio, hagain]
          · by_cases hmaps' : S.Maps w B 0
            · simp [hreply, hmmio, hmaps, hpio, hagain, hmaps']
            · simp [hreply, hmmio, hmaps, hpio, hagain, hmaps', eq_comm]
        · simp [hreply, hmmio, hmaps, hpio]
    · by_cases hpio : HasPio w B
      · by_cases hmaps' : S.Maps w B 0
        · simp [hreply, hmmio, hpio, hmaps']
        · simp [hreply, hmmio, hpio, hmaps', hio]
      · simp [hreply, hmmio, hpio]
  · by_cases hmmio : HasMmio w B
    · by_cases hpio : HasPio w B
      · simp [hreply, hmmio, hpio]
      · simp [hreply, hmmio, hpio, eq_comm]
    · by_cases hpio : HasPio w B
      · simp [hreply, hmmio, hpio]
      · simp [hreply, hmmio, hpio]

/-- The verdicts on a device with `use_io` set and not agree if and only if the device is
indifferent. -/
lemma Answers.verdict_eq_iff (hio : w.use_io = 0) (hu : u.use_io = 1)
    (hdev : u.devices = w.devices) (hfree : u.Free B ↔ w.Free B) :
    S.verdict u B = S.verdict w B ↔ S.Indifferent w B := by
  have hset : S.verdict u B = S.verdict { w with use_io := 1 } B := verdict_congr hdev hfree hu
  rw [hset, Indifferent, verdict, verdict]
  by_cases hmem : S.kzalloc = false
  · simp [hmem]
  · by_cases henable : S.enable_device = 0
    · rw [if_neg hmem, if_neg hmem, if_neg (not_not.mpr henable), if_neg (not_not.mpr henable),
        if_pos Nat.one_ne_zero, if_neg (not_not.mpr hio), or_iff_right hmem,
        or_iff_right (not_not.mpr henable)]
      exact pioVerdict_eq_iff
    · simp [hmem, henable]

end

/-- The probe of `B` does not depend on that of `A` if and only if `use_io` is set to begin with,
or `A` does not fall back to the io ports, or `B` is indifferent to `use_io`. -/
theorem independent_iff {A B : ℕ} (hne : B ≠ A) (R S : Answers) (w : World) :
    Independent R A S B w ↔ w.use_io ≠ 0 ∨ ¬ R.FallsBack w A ∨ S.Indifferent w B := by
  obtain ⟨u, hrun, hends⟩ := probe_ends R A w
  have hfree := hends.beside.free hne
  have hiff : Independent R A S B w ↔ S.verdict u B = S.verdict w B := by
    rw [Independent, and_iff_right probed_before_eq, probed_after, hrun]
    change probed_alone S B u = _ ↔ _
    rw [probed_alone_eq, probed_alone_eq, Prod.ext_iff, Prod.ext_iff, Option.some.injEq]
  rw [hiff]
  by_cases hio : w.use_io = 0
  · by_cases hback : R.FallsBack w A
    · have huse : u.use_io = 1 := hends.use_io.trans (if_pos ⟨hio, hback⟩)
      rw [Answers.verdict_eq_iff hio huse hends.beside.devices hfree]
      simp [hio, hback]
    · have huse : u.use_io = w.use_io := hends.use_io.trans (if_neg fun h => hback h.2)
      exact iff_of_true (Answers.verdict_congr hends.beside.devices hfree huse)
        (Or.inr (Or.inl hback))
  · have huse : u.use_io = w.use_io := hends.use_io.trans (if_neg fun h => hio h.1)
    exact iff_of_true (Answers.verdict_congr hends.beside.devices hfree huse) (Or.inl hio)

/-- Every call succeeds; BAR `n` is mapped at `4096 * (n + 1)`. -/
def Answers.fine : Answers where
  kzalloc := true
  enable_device := 0
  request_regions _ := 0
  iomap n := 4096 * (n + 1)
  cdev_add := true

theorem independent_iff_fine :
    (1 : ℕ) ≠ 0 ∧ Independent Answers.fine 0 Answers.fine 1 (World.loaded none) :=
  ⟨by decide, (independent_iff (by decide) _ _ _).mpr (Or.inr (Or.inl (by decide)))⟩

/-- The memory of card 0 cannot be mapped, and card 1 has to do with its io ports. -/
theorem fallback_spreads :
    probed_alone Answers.fine 1 (World.loaded none) = (some 0, some (1, 256)) ∧
      probed_after { Answers.fine with iomap := fun n => if n = 0 then 4096 else 0 } 0
        Answers.fine 1 (World.loaded none) = (some 0, some (0, 256)) ∧
      ¬ Independent { Answers.fine with iomap := fun n => if n = 0 then 4096 else 0 } 0
        Answers.fine 1 (World.loaded none) := by
  decide +kernel

end QuickDevSkeleton.Pci
