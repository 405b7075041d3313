import QuickDevSkeleton.Journal.Balance

/-!
# Pending write-back

A dirty buffer waits for its write-back. `write_begin` clears the dirty bit of every buffer of
the page, and `write_end` hands those in its own range to the journal. When between the two no
buffer is forgotten.
-/

namespace QuickDevSkeleton.Journal

open Foundations

/-- The buffer numbers that operation handed over under handle `h`, from `w` to `w'`. -/
def HandedOver (w w' : World) (i : ℕ) (h : Handle) (k : ℕ) : Prop :=
  ∃ e ∈ w'.log.drop w.log.length, e.handle = h.id ∧ e.page = i ∧ e.buffer = k

/-- No pending write-back is lost: a live buffer that was dirty is still dirty, or was handed to
the journal under handle `h`. -/
def Kept (w w' : World) (i : ℕ) (h : Handle) : Prop :=
  ∀ k < w.blocks.count, (w.ring i k).live → (w.ring i k).dirty →
    (w'.ring i k).dirty ∨ HandedOver w w' i h k

section

variable {w v w' : World} {a : Round} {h : Handle} {r : ℤ}

lemma handedOver_iff {i : ℕ} {l : List ℕ} {k : ℕ}
    (hlog : w'.log = w.log ++ l.map (fun k => ⟨h.id, i, k, h.granted i k⟩)) :
    HandedOver w w' i h k ↔ k ∈ l := by
  rw [HandedOver, hlog, List.drop_left]
  simp

/-- The ring of a page after a successful `write_end`. -/
lemma finished_ring (i from_ to_ m n k : ℕ) (u : Bool) :
    ((finished (journalled v i h from_ to_ m) i h u n).ring i k).dirty = (v.ring i k).dirty := by
  have hring : (finished (journalled v i h from_ to_ m) i h u n).ring i =
      (journalled v i h from_ to_ m).ring i := by
    simp [World.ring, finished, World.setPage]
  rw [hring, journalled, World.ring_onPage, upTo]
  split <;> rfl

/-- A successful `write_end` has handed over all of its range, and touches no dirty bit. -/
lemma EndEnds.success {K : Outcomes} {i from_ to_ done : ℕ}
    (hends : EndEnds K v i h from_ to_ done r w') (hr : 0 ≤ r) :
    (∀ k, (w'.ring i k).dirty = (v.ring i k).dirty) ∧
      w'.log = v.log ++ (reached v i from_ to_ v.blocks.count).map
        (fun k => ⟨h.id, i, k, h.granted i k⟩) := by
  cases hends with
  | done hall => exact ⟨fun k => finished_ring _ _ _ _ _ _ _, rfl⟩
  | @refused u n k hk hr' hall =>
    have hneg := K.dirty_nonpos k
    exact absurd (le_antisymm hneg hr) hr'

/-- A successful round: the copy and the zeroing aside, it hands over the live buffers of its
range and keeps all dirty bits that `write_begin` has left. -/
lemma round_success (hbegin : a.begin_ w = (some 0, v)) (hv : v.handle = some h)
    (hrun : a.run w = (some r, w')) (hr : 0 ≤ r) :
    (∀ k, (w'.ring a.page k).dirty =
        ((zeroed (v.store a.page (a.pos % PAGE_CACHE_SIZE) a.data) a.page (a.pos % PAGE_CACHE_SIZE)
          a.len a.data.length).ring a.page k).dirty) ∧
      w'.log = v.log ++ (a.range v).map (fun k => ⟨h.id, a.page, k, h.granted a.page k⟩) := by
  obtain ⟨hdirty, hlog⟩ := (writeRound_returned hbegin hv hrun).success hr
  refine ⟨hdirty, hlog.trans ?_⟩
  rw [(zeroed_frame _ _ _).2.2, (zeroed_frame _ _ _).1, reached_copied]
  rfl

/-- No buffer is new once `write_begin` has prepared the page. -/
lemma accessed_not_new {K : Outcomes} {i m k : ℕ} (hk : k < w.blocks.count) :
    ((accessed K (begun w i) i (newHandle w) m).ring i k).new = false := by
  rw [accessed, World.ring_onPage, upTo]
  split
  · exact begun_not_new hk
  · exact begun_not_new hk

/-- After a `write_begin` that was granted all it asked for no live buffer is dirty, and the
rest of the round makes none dirty again. -/
lemma granted_clean {K : Outcomes} {i k off len copied : ℕ} {bytes : List UInt8}
    (hk : k < w.blocks.count) (hfreed : (w.ring i k).freed = false) :
    ((zeroed ((accessed K (begun w i) i (newHandle w) w.blocks.count).store i off bytes) i off len
      copied).ring i k).dirty = false := by
  have hlive : ((begun w i).ring i k).live = true := by
    rw [begun_live hk, hfreed, Bool.not_false]
  rw [zeroed_of_not_new, store_ring, accessed, World.ring_onPage, upTo_of_lt _ _ _ hk hlive]
  · rfl
  · intro j hj
    rw [store_ring]
    exact accessed_not_new hj

end

/-- A round whose two halves succeed, under the handle `h`, loses no pending write-back if and
only if the task had its handle before, so that `write_begin` cleared nothing, or every dirty
buffer of the page that is mapped and not freed lies in the range that `write_end` walks. -/
theorem kept_iff_in_range (w v w' : World) (a : Round) (h : Handle) (r : ℤ)
    (hbegin : a.begin_ w = (some 0, v)) (hv : v.handle = some h) (hrun : a.run w = (some r, w'))
    (hr : 0 ≤ r) :
    Kept w w' a.page h ↔
      w.handle.isSome ∨ ∀ k < w.blocks.count, (w.ring a.page k).live → (w.ring a.page k).dirty →
        Touches w.blocks.size (a.pos % PAGE_CACHE_SIZE)
          (walkEnd (w.pages a.page) (a.pos % PAGE_CACHE_SIZE) a.len a.data.length) k := by
  obtain ⟨hdirty, hlog⟩ := round_success hbegin hv hrun hr
  rcases begin_with_handle hbegin hv with ⟨⟨h₀, hh⟩, rfl⟩ | ⟨hh, rfl⟩
  · refine ⟨fun _ => Or.inl (by rw [hh]; rfl), fun _ k hk hlive hd => Or.inl ?_⟩
    have hring : (grabbed w a.page).ring a.page = w.ring a.page := by
      simp [World.ring, grabbed]
    rw [hdirty]
    apply zeroed_dirty
    rw [store_ring, hring]
    exact hd
  · have hkept : ∀ k < w.blocks.count, (w.ring a.page k).live →
        (((w'.ring a.page k).dirty ∨ HandedOver w w' a.page h k) ↔
          Touches w.blocks.size (a.pos % PAGE_CACHE_SIZE)
            (walkEnd (w.pages a.page) (a.pos % PAGE_CACHE_SIZE) a.len a.data.length) k) := by
      intro k hk hlive
      have hclean : (w'.ring a.page k).dirty = false :=
        (hdirty k).trans (granted_clean hk (BufferHead.not_freed hlive))
      rw [hclean, handedOver_iff (w := w) hlog, mem_range_accessed]
      exact ⟨fun hor => (hor.resolve_left Bool.false_ne_true).2.2,
        fun ht => Or.inr ⟨hk, BufferHead.not_freed hlive, ht⟩⟩
    rw [hh]
    constructor
    · exact fun hall => Or.inr fun k hk hlive hd => (hkept k hk hlive).mp (hall k hk hlive hd)
    · rintro (hsome | hall) k hk hlive hd
      · cases hsome
      · exact (hkept k hk hlive).mpr (hall k hk hlive hd)

/-- A file all of whose buffers are mapped, uptodate and dirty. -/
def World.dirty (blocks : BlockSize) : World :=
  { World.cold with
    blocks := blocks
    pages := fun _ =>
      ⟨false, 1, true, false, false,
        some fun _ => ⟨0, true, true, true, false, false⟩, fun _ => 0⟩ }

/-- The same file with only the buffers `ks` of its pages dirty. -/
def World.dirtyIn (blocks : BlockSize) (ks : List ℕ) : World :=
  { World.dirty blocks with
    pages := fun _ =>
      ⟨false, 1, true, false, false,
        some fun k => ⟨0, true, true, k ∈ ks, false, false⟩, fun _ => 0⟩ }

/-- A write across the boundary of two dirty buffers, to a page of four, loses nothing. -/
theorem kept_iff_in_range_two :
    let w := World.dirtyIn ⟨4, 1024, rfl⟩ [1, 2]
    let a : Round := ⟨Outcomes.fine, 2000, 100, List.replicate 100 7⟩
    ∃ h, (a.begin_ w).2.handle = some h ∧ Kept w (a.run w).2 a.page h := by
  intro w a
  have hsome : (a.begin_ w).2.handle.isSome := by decide +kernel
  obtain ⟨h, hh⟩ := Option.isSome_iff_exists.mp hsome
  refine ⟨h, hh, (kept_iff_in_range w (a.begin_ w).2 (a.run w).2 a h 100
    (Exec.run_eq (by decide +kernel)) hh (Exec.run_eq (by decide +kernel))
    (by decide)).mpr (Or.inr fun k _ _ hd => ?_)⟩
  have hk : k ∈ [1, 2] := of_decide_eq_true hd
  simp only [List.mem_cons, List.not_mem_nil, or_false] at hk
  rcases hk with rfl | rfl
  · decide +kernel
  · decide +kernel

/-- On a page of four buffers it loses the write-back of the three others. -/
theorem writeBack_lost :
    let w := World.dirty ⟨4, 1024, rfl⟩
    let a : Round := ⟨Outcomes.fine, 0, 1, [7]⟩
    (a.begin_ w).1 = some 0 ∧ (a.run w).1 = some 1 ∧ ¬ Kept w (a.run w).2 a.page (newHandle w) := by
  intro w a
  have hlog : (a.run w).2.log = [⟨0, 0, 0, true⟩] := by decide +kernel
  have hclean : ((a.run w).2.ring a.page 1).dirty = false := by decide +kernel
  refine ⟨by decide +kernel, by decide +kernel, fun hkept => ?_⟩
  rcases hkept 1 (by decide) rfl rfl with hdirty | ⟨e, he, -, -, hone⟩
  · replace hdirty := hclean.symm.trans hdirty
    cases hdirty
  · have hmem : e ∈ (a.run w).2.log := List.mem_of_mem_drop he
    rw [hlog, List.mem_singleton] at hmem
    rw [hmem] at hone
    cases hone

end QuickDevSkeleton.Journal
