import QuickDevSkeleton.Pci.Probe

/-!
# What a failed probe undoes

A probe that fails while it enables the device frees what it allocated. One that fails later goes
through `err_out`, which never frees the `struct mydev` and releases regions whoever holds them.
-/

namespace QuickDevSkeleton.Pci

open Foundations

/-- Nothing that a probe has acquired is still held, and every region that it has released was
its own at that moment. -/
structure Undone (pdev : ℕ) (w w' : World) : Prop where
  freed : w'.mydevs.cell = w.mydevs.cell
  unmapped : w'.mapped = w.mapped
  regions : w'.regions = w.regions
  drvdata : w'.drvdata pdev = none
  enable_cnt : w'.enable_cnt = w.enable_cnt
  releases : ∃ rs, w'.releases = w.releases ++ rs ∧ ∀ r ∈ rs, r.owner = some .my_pci_driver

/-- The probe returns, and if it returns an error then it has undone what it did. -/
def UndoneOnFailure (K : Outcomes) (pdev : ℕ) (w : World) : Prop :=
  ∃ rc w', my_probe K pdev w = (some rc, w') ∧ (rc ≠ 0 → Undone pdev w w')

section

variable {K : Outcomes} {w w' : World} {pdev : ℕ}

/-- The `struct mydev` of a probe that fails in `err_out` is lost. -/
lemma Leftover.not_undone (h : Leftover K pdev w w') : ¬ Undone pdev w w' := by
  intro hundone
  have hleaked := h.leaked
  rw [hundone.freed, Heap.cell_next] at hleaked
  cases hleaked

/-- A probe that goes to `err_out` before its request of the regions is granted releases them all
the same, whoever holds them. -/
lemma not_granted_releases (hmem : K.kzalloc = true) (henable : K.enable_device = 0)
    (hno : ¬ (w.Typed pdev ∧ K.first.Granted w pdev)) :
    ∃ rc w', rc ≠ 0 ∧ my_probe K pdev w = (some rc, w') ∧
      w'.releases = w.releases ++ w.held pdev ∧ w'.Free pdev := by
  have hdev : (w.started pdev).mydevs.cell w.mydevs.next = some ⟨0, 0⟩ := Heap.cell_alloc _ _
  by_cases htyped : w.Typed pdev
  · obtain ⟨rc, hrc, hrun⟩ := retry_refused (w := w.started pdev) htyped
      fun hgrant => hno ⟨htyped, hgrant⟩
    exact ⟨rc, _, hrc, my_probe_retry hmem henable hrun hdev, rfl, torn_free _ _ _ _⟩
  · exact ⟨_, _, by decide,
      my_probe_retry hmem henable (retry_untyped (w := w.started pdev) htyped) hdev, rfl,
      torn_free _ _ _ _⟩

lemma undone_no_memory : Undone pdev w w ↔ w.drvdata pdev = none := by
  constructor
  · exact Undone.drvdata
  · intro hdata
    exact ⟨rfl, rfl, rfl, hdata, rfl, [], (List.append_nil _).symm, fun _ hr => nomatch hr⟩

end

/-- A failed probe undoes what it did if and only if there was no memory for its `struct mydev`,
and the device had no other one, or the device could not be enabled. -/
theorem undoneOnFailure_iff (K : Outcomes) (pdev : ℕ) (w : World) :
    UndoneOnFailure K pdev w ↔
      K.kzalloc = false ∧ w.drvdata pdev = none ∨
        K.kzalloc = true ∧ K.enable_device ≠ 0 ∨ Succeeds K w pdev := by
  obtain ⟨rc, w', hrun, hends⟩ := my_probe_ends K pdev w
  have hiff : UndoneOnFailure K pdev w ↔ (rc ≠ 0 → Undone pdev w w') := by
    constructor
    · rintro ⟨rc', v, hrun', hundone⟩
      rw [hrun] at hrun'
      cases hrun'
      exact hundone
    · exact fun hundone => ⟨rc, w', hrun, hundone⟩
  rw [hiff]
  cases hends with
  | no_memory hmem =>
    have hrc : -ENOMEM ≠ 0 := by decide
    simp [hrc, hmem, Succeeds, undone_no_memory]
  | not_enabled hmem henable =>
    refine iff_of_true (fun _ => ?_) (Or.inr (Or.inl ⟨hmem, henable⟩))
    exact ⟨Heap.free_alloc _ _, rfl, rfl, Function.update_self _ _ _, rfl, [],
      (List.append_nil _).symm, fun _ hr => nomatch hr⟩
  | failed hmem henable hno hrc hleft =>
    refine iff_of_false (fun hundone => hleft.not_undone (hundone hrc)) ?_
    rintro (⟨hmem', -⟩ | ⟨-, henable'⟩ | ⟨-, -, hfinds⟩)
    · rw [hmem] at hmem'
      cases hmem'
    · exact henable' henable
    · exact hno hfinds
  | succeeded h _ => exact iff_of_true (fun hrc => absurd rfl hrc) (Or.inr (Or.inr h))

/-- The regions of the card belong to another driver: the probe fails, and they do not any more. -/
theorem foreign_regions_released :
    (my_probe Outcomes.fine 0 (World.loaded (some (.other 1)))).1 = some (-EBUSY) ∧
      (my_probe Outcomes.fine 0 (World.loaded (some (.other 1)))).2.regions 0 1 = none ∧
      ¬ UndoneOnFailure Outcomes.fine 0 (World.loaded (some (.other 1))) := by
  have hrc : (my_probe Outcomes.fine 0 (World.loaded (some (.other 1)))).1 = some (-EBUSY) := by
    decide +kernel
  have hfree :
      (my_probe Outcomes.fine 0 (World.loaded (some (.other 1)))).2.regions 0 1 = none := by
    decide +kernel
  refine ⟨hrc, hfree, ?_⟩
  rintro ⟨rc, w', hrun, hundone⟩
  rw [hrun] at hrc hfree
  cases hrc
  have hregions : w'.regions 0 1 = some (.other 1) := by
    rw [(hundone (by decide)).regions]
    rfl
  rw [hregions] at hfree
  cases hfree

end QuickDevSkeleton.Pci
