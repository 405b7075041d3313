import QuickDevSkeleton.Journal.Recorder

/-!
# The page contract of `writepage`

A page comes to `example_journalled_writepage` locked and with its dirty bit cleared. Whether it
goes back unlocked once, without a handle left open, and with its buffers handed on or an error
reported.
-/

namespace QuickDevSkeleton.Journal

open Foundations

/-! ### The contract of the page -/

/-- What happened to the page during a call: how often it was unlocked, and whether it was passed to
`block_write_full_page`. -/
structure PageCalls where
  unlocks : ℕ
  full_page : Bool

namespace PageCalls

def unlock (c : PageCalls) : PageCalls :=
  { c with unlocks := c.unlocks + 1 }

def block_write_full_page (c : PageCalls) : PageCalls :=
  { unlocks := c.unlocks + 1, full_page := true }

def recorder : Recorder PageCalls :=
  ⟨fun _ c => c, unlock, block_write_full_page⟩

end PageCalls

/-- What happens to page `i` during a call. -/
def pageCalls (K : Outcomes) (i : ℕ) (w : World) : PageCalls :=
  (PageCalls.recorder.writepage K i (w, ⟨0, false⟩)).2.2

/-- The outcome of a call on page `i` in `w`: it has returned, with the page unlocked exactly once
and the handle as it was; and the buffers were handed on, or the page is dirty again, or an error is
returned. -/
structure PageKept (i : ℕ) (w : World) (out : Option ℤ × World) (calls : PageCalls) : Prop where
  returned : out.1 ≠ none
  unlocked : calls.unlocks = 1 ∧ (out.2.pages i).locked = false
  stopped : out.2.handle = w.handle
  handed : calls.full_page = true ∨ (out.2.pages i).dirty = true ∨
    (∃ err, out.1 = some err ∧ err ≠ 0) ∨
    ∀ k < out.2.blocks.count, (out.2.ring i k).live = true →
      ∃ e ∈ out.2.log.drop w.log.length, e.page = i ∧ e.buffer = k

section

variable {K : Outcomes} {w : World} {i : ℕ}

/-- A live buffer that the second walk leaves was live before, and one that the walk covers was
handed over. -/
lemma journalled_handed {v : World} {h : Handle} {k : ℕ} (hk : k < v.blocks.count)
    (hlive : ((journalled v i h 0 PAGE_CACHE_SIZE v.blocks.count).ring i k).live = true) :
    ∃ e ∈ (journalled v i h 0 PAGE_CACHE_SIZE v.blocks.count).log.drop v.log.length,
      e.page = i ∧ e.buffer = k := by
  have hlive' : (v.ring i k).live = true := by
    rw [journalled, World.ring_onPage, upTo] at hlive
    split at hlive
    · exact hlive
    · exact hlive
  have hmem : k ∈ reached v i 0 PAGE_CACHE_SIZE v.blocks.count :=
    mem_reached.mpr ⟨hk, hlive', v.blocks.touches_page hk⟩
  refine ⟨⟨h.id, i, k, h.granted i k⟩, ?_, rfl, rfl⟩
  rw [journalled, World.onPage, List.drop_left]
  exact List.mem_map.mpr ⟨k, hmem, rfl⟩

/-- A call that gets to its walks unlocks the page once and stops its handle, and where it returns 0
every live buffer was handed to the journal. -/
lemma writepage_walks (hj : Journals K w i) {c : PageCalls} :
    ∃ r v, PageCalls.recorder.writepage K i (w, c) = (some r, v, c.unlock) ∧
      (v.pages i).locked = false ∧ v.handle = none ∧
      (r = 0 → ∀ k < v.blocks.count, (v.ring i k).live = true →
        ∃ e ∈ v.log.drop w.log.length, e.page = i ∧ e.buffer = k) := by
  obtain ⟨m, r, p, haccess, hring, -⟩ := access_walk_opened K w i
  rcases journal_walk (K := K) 0 PAGE_CACHE_SIZE none hring rfl with
    ⟨p', hjournal, hall⟩ | ⟨k, -, hr', -, p', hjournal⟩
  · refine ⟨_, _, Recorder.writepage_run hj haccess hjournal rfl rfl, ?_, rfl, ?_⟩
    · simp
    · intro _ k hk hlive
      change k < (accessed K (opened w i) i (newHandle w) m).blocks.count at hk
      exact journalled_handed hk (by simpa [World.ring, World.setPage] using hlive)
  · refine ⟨_, _, Recorder.writepage_run hj haccess hjournal rfl rfl, ?_, rfl, fun hzero => ?_⟩
    · simp
    · by_cases hr : r = 0
      · rw [if_pos hr, if_neg hr'] at hzero
        exact absurd hzero hr'
      · rw [if_neg hr, if_neg hr] at hzero
        exact absurd hzero hr

/-- The record of a call beside its outcome. -/
lemma pageCalls_run {r : ℤ} {v : World} {c' : PageCalls}
    (hrun : PageCalls.recorder.writepage K i (w, ⟨0, false⟩) = (some r, v, c')) :
    example_journalled_writepage K i w = (some r, v) ∧ pageCalls K i w = c' := by
  exact ⟨Recorder.writepage_eq hrun, by rw [pageCalls, hrun]⟩

lemma pageKept_full (h : (w.pages i).buffers.isSome ∧ (w.pages i).checked = false) :
    PageKept i w (example_journalled_writepage K i w) (pageCalls K i w) := by
  obtain ⟨hout, hcalls⟩ := pageCalls_run (Recorder.writepage_full (K := K) h)
  rw [hout, hcalls]
  exact ⟨by simp, ⟨rfl, by simp⟩, rfl, Or.inl rfl⟩

/-- Short of its walks the page stays locked. -/
lemma pageCalls_short (hgo : ¬ ((w.pages i).buffers.isSome ∧ (w.pages i).checked = false))
    (hj : ¬ Journals K w i) : pageCalls K i w = ⟨0, false⟩ := by
  obtain ⟨r, v, c', hrun, -, -, ⟨rfl, -⟩ | ⟨-, rfl, -⟩⟩ :=
    Recorder.writepage_short (R := PageCalls.recorder) (c := ⟨0, false⟩) hgo hj
  · exact (pageCalls_run hrun).2
  · exact (pageCalls_run hrun).2

lemma pageKept_walks (hj : Journals K w i) :
    PageKept i w (example_journalled_writepage K i w) (pageCalls K i w) := by
  obtain ⟨r, v, hrun, hlocked, hhandle, hhanded⟩ := writepage_walks hj
  obtain ⟨hout, hcalls⟩ := pageCalls_run hrun
  rw [hout, hcalls]
  refine ⟨by simp, ⟨rfl, hlocked⟩, hhandle.trans hj.2.1.symm, Or.inr (Or.inr ?_)⟩
  by_cases hr : r = 0
  · exact Or.inr (hhanded hr)
  · exact Or.inl ⟨r, rfl, hr⟩

end

/-- For every page, with any ring and flags, every current handle and every answer of the
functions that `writepage` calls: it keeps the contract of the page if and only if the page has
checkpointed buffers, which go to `block_write_full_page`, or the task has no handle, the journal
is not aborted and starts one, and the page is prepared. On every other exit the page stays
locked. -/
theorem writepage_kept_iff (K : Outcomes) (i : ℕ) (w : World) :
    PageKept i w (example_journalled_writepage K i w) (pageCalls K i w) ↔
      ((w.pages i).buffers.isSome ∧ (w.pages i).checked = false) ∨
        (w.handle = none ∧ K.aborted = false ∧ K.journal_start = 0 ∧ K.block_write_begin = 0) := by
  by_cases hfull : (w.pages i).buffers.isSome ∧ (w.pages i).checked = false
  · exact ⟨fun _ => Or.inl hfull, fun _ => pageKept_full hfull⟩
  · constructor
    · intro hkept
      by_contra hor
      have hj : ¬ Journals K w i := fun hj => hor (Or.inr hj.2)
      have hone := hkept.unlocked.1
      rw [pageCalls_short hfull hj] at hone
      cases hone
    · intro hor
      exact pageKept_walks ⟨hfull, hor.resolve_left hfull⟩

/-- A clean page, locked for its `writepage`. -/
def World.atWritepage (handle : Option Handle) : World :=
  { World.cold with
    pages := fun _ =>
      ⟨true, 1, true, true, false, some fun _ => ⟨0, true, true, true, false, false⟩, fun _ => 0⟩
    handle := handle }

/-- In a task that has a handle `writepage` returns 0 at once: the page stays locked, and its
dirty buffer goes nowhere. -/
theorem writepage_page_stuck :
    let w := World.atWritepage (some ⟨0, 1, fun _ _ => false⟩)
    let out := example_journalled_writepage Outcomes.fine 0 w
    out.1 = some 0 ∧ (out.2.pages 0).locked = true ∧ (out.2.ring 0 0).dirty = true ∧
      ¬ PageKept 0 w out (pageCalls Outcomes.fine 0 w) := by
  refine ⟨rfl, rfl, rfl, fun hkept => ?_⟩
  have hlocked := hkept.unlocked.2
  cases hlocked

end QuickDevSkeleton.Journal
