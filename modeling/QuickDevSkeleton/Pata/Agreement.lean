import QuickDevSkeleton.Pata.Drivers

/-!
# The drivers agree on the device

Of a device with no more than three resources the two drivers take the same ones, if one of them is
an interrupt. From the same map they then compute the same task file as long as no offset gets to
the sign bit of the `int` that it is shifted in.
-/

namespace QuickDevSkeleton.Pata

/-! ### The lookups -/

section

variable {resource : List Resource}

/-- The two results say the same. -/
lemma choice_iff {io io' ctl ctl' irq irq' : Resource} {mmio mmio' : Bool}
    (h : mmio' = decide (resource_type io' = IORESOURCE_MEM)) :
    (Except.ok (io', ctl', irq', mmio') : Except ℤ _) = Except.ok (io, ctl, irq, mmio) ↔
      some (io', ctl', some irq') = some (io, ctl, some irq) ∧
        mmio = decide (resource_type io = IORESOURCE_MEM) := by
  constructor
  · intro heq
    cases heq
    exact ⟨rfl, h⟩
  · rintro ⟨heq, hmmio⟩
    cases heq
    rw [h, hmmio]

/-- Of at most three resources, one of them an interrupt, both drivers take the same: two ports, or
two pieces of memory. -/
lemma resources_iff (hlen : resource.length ≤ 3) {io ctl irq : Resource} {mmio : Bool} :
    ide_resources resource = .ok (io, ctl, irq, mmio) ↔
      pata_resources resource = some (io, ctl, some irq) ∧
        mmio = decide (resource_type io = IORESOURCE_MEM) := by
  have hle := Nat.le_trans ofType_length hlen
  have hport : ∀ r ∈ ofType resource IORESOURCE_IO, resource_type r = IORESOURCE_IO :=
    fun r hr => type_of_mem hr
  have hmemory : ∀ r ∈ ofType resource IORESOURCE_MEM, resource_type r = IORESOURCE_MEM :=
    fun r hr => type_of_mem hr
  simp only [ide_resources, pata_resources, platform_get_resource_eq]
  generalize ofType resource IORESOURCE_IO = ports at hle hport ⊢
  generalize ofType resource IORESOURCE_MEM = memory at hle hmemory ⊢
  generalize ofType resource IORESOURCE_IRQ = irqs at hle ⊢
  rcases irqs with _ | ⟨q, irqs⟩
  · -- without an interrupt the one driver fails, and the other one polls
    rcases ports with _ | ⟨x, _ | ⟨y, ports⟩⟩ <;> rcases memory with _ | ⟨b, _ | ⟨c, memory⟩⟩ <;>
      simp [bind, Except.bind]
  rcases ports with _ | ⟨x, _ | ⟨y, ports⟩⟩
  · rcases memory with _ | ⟨b, _ | ⟨c, memory⟩⟩
    · simp [bind, Except.bind]
    · simp [bind, Except.bind]
    · exact choice_iff (decide_eq_true (hmemory b List.mem_cons_self)).symm
  · -- one port leaves no room for two pieces of memory
    rcases memory with _ | ⟨b, _ | ⟨c, memory⟩⟩
    · simp [bind, Except.bind]
    · simp [bind, Except.bind]
    · simp only [List.length_cons] at hle
      omega
  · refine choice_iff (decide_eq_false ?_).symm
    rw [hport x List.mem_cons_self]
    decide

end

/-! ### The task file -/

section

variable {shift : BitVec 32}

/-- After the rounds up to `k` the ports up to `k` have their addresses. -/
lemma setupPort_run (base step : BitVec 64) (k : ℕ) :
    ((List.range' 1 k).foldl (setupPort step)
        (Function.update (fun _ => 0) 0 base, base + step)).2 =
          base + BitVec.ofNat 64 (k + 1) * step ∧
      ∀ r ≤ k, ((List.range' 1 k).foldl (setupPort step)
        (Function.update (fun _ => 0) 0 base, base + step)).1 r =
          base + BitVec.ofNat 64 r * step := by
  induction k with
  | zero =>
    refine ⟨by simp, fun r hr => ?_⟩
    rw [Nat.le_zero.mp hr]
    simp
  | succ k ih =>
    rw [List.range'_1_concat, List.foldl_append, List.foldl_cons, List.foldl_nil]
    obtain ⟨hport, harray⟩ := ih
    generalize (List.range' 1 k).foldl (setupPort step)
      (Function.update (fun _ => 0) 0 base, base + step) = s at hport harray ⊢
    dsimp only [setupPort]
    refine ⟨?_, fun r hr => ?_⟩
    · have hnext : BitVec.ofNat 64 (k + 1 + 1) * step = BitVec.ofNat 64 (k + 1) * step + step := by
        rw [BitVec.ofNat_add, BitVec.add_mul, BitVec.one_mul]
      rw [hport, hnext, BitVec.add_assoc]
    · by_cases hlast : r = 1 + k
      · rw [hlast, Function.update_self, hport, Nat.add_comm]
      · rw [Function.update_of_ne hlast]
        exact harray r (by omega)

lemma plat_ide_setup_ports_eq (base : BitVec 64) {r : ℕ} (hr : r ≤ 7) :
    plat_ide_setup_ports base shift r = base + BitVec.ofNat 64 r * portStep shift :=
  (setupPort_run base (portStep shift) 7).2 r hr

/-- An offset is a multiple of the step, for all registers, until one of them gets to the sign
bit. -/
lemma offsets_iff (hs : shift.toNat < 32) :
    (∀ r : Fin 8, regOffset shift (r.castLE (by decide)) =
      BitVec.ofNat 64 r.val * portStep shift) ↔ shift.toNat ≤ 28 := by
  have hall : ∀ s : Fin 32, (∀ r : Fin 8,
      (BitVec.ofNat 32 r.val <<< s.val).signExtend 64 =
        BitVec.ofNat 64 r.val * ((1 : BitVec 32) <<< s.val).signExtend 64) ↔ s.val ≤ 28 := by
    decide +kernel
  exact hall ⟨shift.toNat, hs⟩

end

/-- The addresses at which the host reads the task file, and those at which it writes it. -/
def AtaIoports.taskFile (a : AtaIoports) : List (BitVec 64) × List (BitVec 64) :=
  ([a.data_addr, a.error_addr, a.nsect_addr, a.lbal_addr, a.lbam_addr, a.lbah_addr, a.device_addr,
      a.status_addr],
    [a.data_addr, a.feature_addr, a.nsect_addr, a.lbal_addr, a.lbam_addr, a.lbah_addr,
      a.device_addr, a.command_addr])

/-- The other driver has one address for both. -/
def IdeHw.taskFile (hw : IdeHw) : List (BitVec 64) × List (BitVec 64) :=
  let array := (List.finRange 8).map fun r : Fin 8 => hw.io_ports_array r.val
  (array, array)

section

variable {M : Machine} {pdev : PlatformDevice} {host : AtaHost} {hw : IdeHw} {shift : BitVec 32}

lemma setup_port_taskFile (a : AtaIoports) :
    (pata_platform_setup_port a shift).taskFile =
      ((List.finRange 8).map fun r => a.cmd_addr + regOffset shift (r.castLE (by decide)),
        (List.finRange 8).map fun r => a.cmd_addr + regOffset shift (r.castLE (by decide))) := rfl

/-- From one base the drivers compute the same addresses as long as the offsets are positive. -/
lemma taskFile_iff (hs : shift.toNat < 32) {a : AtaIoports}
    (harray : hw.io_ports_array = plat_ide_setup_ports a.cmd_addr shift) :
    (pata_platform_setup_port a shift).taskFile = hw.taskFile ↔ shift.toNat ≤ 28 := by
  rw [setup_port_taskFile, IdeHw.taskFile, Prod.mk.injEq, and_self, List.map_inj_left,
    ← offsets_iff hs]
  refine ⟨fun h r => ?_, fun h r _ => ?_⟩
  · have hr := h r (List.mem_finRange r)
    rw [harray, plat_ide_setup_ports_eq _ (Nat.le_of_lt_succ r.isLt)] at hr
    exact (BitVec.add_right_inj a.cmd_addr).mp hr
  · rw [harray, plat_ide_setup_ports_eq _ (Nat.le_of_lt_succ r.isLt), h r]

/-- What `pata_platform` attaches. -/
lemma platform_probe_attaches {io ctl irq : Resource}
    (h : platform_probe M io ctl (some irq) shift = .attaches host) :
    host.mmio = decide (io.flags = IORESOURCE_MEM ∧ ctl.flags = IORESOURCE_MEM) ∧
      host.irq = irq.start.setWidth 32 ∧
      ∃ a, host.ioaddr = pata_platform_setup_port a shift ∧
        a.cmd_addr = (if host.mmio then M.devm_ioremap else M.devm_ioport_map)
          io.start (resource_size io) ∧
        a.ctl_addr = (if host.mmio then M.devm_ioremap else M.devm_ioport_map)
          ctl.start (resource_size ctl) := by
  have hirq : (if 0 < irq.start then irq.start.setWidth 32 else 0) = irq.start.setWidth 32 := by
    split_ifs with hpos
    · rfl
    · rw [BitVec.le_zero_iff.mp (BitVec.not_lt.mp hpos)]
      rfl
  dsimp only [platform_probe] at h
  rw [hirq] at h
  generalize decide (io.flags = IORESOURCE_MEM ∧ ctl.flags = IORESOURCE_MEM) = mmio at h ⊢
  generalize hmap : (if mmio = true then M.devm_ioremap else M.devm_ioport_map) = map at h
  generalize (if 0 < irq.start then irq.flags &&& IRQF_TRIGGER_MASK else 0) = irq_flags at h
  split_ifs at h
  cases h
  exact ⟨rfl, rfl, _, rfl, congrFun₂ hmap.symm _ _, congrFun₂ hmap.symm _ _⟩

/-- What `ide_platform` attaches. -/
lemma plat_ide_probe_attaches (h : plat_ide_probe M pdev = .attaches hw) :
    ∃ io ctl irq, ide_resources pdev.resource = .ok (io, ctl, irq, hw.mmio) ∧
      hw.irq = irq.start.setWidth 32 ∧
      hw.ctl_addr = (if hw.mmio then M.devm_ioremap else M.devm_ioport_map)
        ctl.start (resource_size ctl) ∧
      hw.io_ports_array = plat_ide_setup_ports ((if hw.mmio then M.devm_ioremap
        else M.devm_ioport_map) io.start (resource_size io)) (pdev.ioport_shift.getD 0) := by
  rw [plat_ide_probe] at h
  split at h
  · cases h
  · rename_i io ctl irq mmio hres
    cases hshift : pdev.ioport_shift with
    | none =>
      simp only [hshift] at h
      cases h
    | some shift =>
      simp only [hshift] at h
      cases h
      exact ⟨io, ctl, irq, hres, rfl, rfl, rfl⟩

/-- When both drivers attach to a device, they have taken the same resources and the same interrupt.
They map them in the same way unless memory has flags besides its type, and then they have the same
control address, and the same task file exactly for a shift up to 28. -/
theorem drivers_agree (hs : (pdev.ioport_shift.getD 0).toNat < 32)
    (hpata : pata_platform_probe M pdev = .attaches host)
    (hide : plat_ide_probe M pdev = .attaches hw) :
    ∃ io ctl irq, pata_resources pdev.resource = some (io, ctl, some irq) ∧
      ide_resources pdev.resource = .ok (io, ctl, irq, hw.mmio) ∧ host.irq = hw.irq ∧
      (host.mmio = hw.mmio ↔
        (hw.mmio = true → io.flags = IORESOURCE_MEM ∧ ctl.flags = IORESOURCE_MEM)) ∧
      (host.mmio = hw.mmio → host.ioaddr.ctl_addr = hw.ctl_addr ∧
        (host.ioaddr.taskFile = hw.taskFile ↔ (pdev.ioport_shift.getD 0).toNat ≤ 28)) := by
  obtain ⟨io, ctl, irq, hres, hirq, hctl, harray⟩ := plat_ide_probe_attaches hide
  rw [pata_platform_probe] at hpata
  split_ifs at hpata with hlen
  obtain ⟨hres', htype⟩ := (resources_iff (by omega)).mp hres
  rw [hres'] at hpata
  obtain ⟨hmmio, hirq', a, hport, hcmd, hctl'⟩ := platform_probe_attaches hpata
  refine ⟨io, ctl, irq, hres', hres, hirq'.trans hirq.symm, ?_, fun hsame => ⟨?_, ?_⟩⟩
  · constructor
    · intro hsame hmem
      rw [hsame, hmem] at hmmio
      exact of_decide_eq_true hmmio.symm
    · intro hplain
      cases hmem : hw.mmio with
      | true => rw [hmmio, decide_eq_true (hplain hmem)]
      | false =>
        rw [hmmio, decide_eq_false]
        rintro ⟨hio, -⟩
        rw [hmem, resource_type, hio] at htype
        exact Bool.false_ne_true (htype.trans (decide_eq_true (by decide)))
  · rw [hport, hctl, ← hsame, ← hctl']
    rfl
  · rw [hport]
    refine taskFile_iff hs ?_
    rw [harray, hcmd, hsame]

end

/-! ### The fake device -/

/-- The resources of the fake device: two pieces of memory, and an interrupt. -/
def fake_pata_res : List Resource :=
  [⟨(768 + 1) * 1024 * 1024, (768 + 2) * 1024 * 1024, IORESOURCE_MEM⟩,
    ⟨(768 + 3) * 1024 * 1024, (768 + 4) * 1024 * 1024, IORESOURCE_MEM⟩, ⟨2, 2, IORESOURCE_IRQ⟩]

def fake_pata_device : PlatformDevice :=
  ⟨fake_pata_res, some 0⟩

/-- A machine that maps what lies at an address right above the first 3 GiB. -/
def Machine.high : Machine :=
  ⟨true, fun start _ => start + 0xc0000000, fun start _ => start⟩

theorem drivers_agree_fake : ∃ host hw,
    pata_platform_probe Machine.high fake_pata_device = .attaches host ∧
    plat_ide_probe Machine.high fake_pata_device = .attaches hw ∧
    host.irq = hw.irq ∧ host.ioaddr.ctl_addr = hw.ctl_addr ∧
      host.ioaddr.taskFile = hw.taskFile := by
  obtain ⟨host, hpata⟩ : ∃ host, pata_platform_probe Machine.high fake_pata_device =
      .attaches host := ⟨_, rfl⟩
  obtain ⟨hw, hide⟩ : ∃ hw, plat_ide_probe Machine.high fake_pata_device = .attaches hw :=
    ⟨_, rfl⟩
  obtain ⟨io, ctl, irq, hres, -, hirq, hkind, hsame⟩ := drivers_agree (by decide) hpata hide
  have hmemory : io.flags = IORESOURCE_MEM ∧ ctl.flags = IORESOURCE_MEM := by
    cases hres
    exact ⟨rfl, rfl⟩
  obtain ⟨hctl, htask⟩ := hsame (hkind.mpr fun _ => hmemory)
  exact ⟨host, hw, hpata, hide, hirq, hctl, htask.mpr (by decide)⟩

end QuickDevSkeleton.Pata
