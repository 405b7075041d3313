import QuickDevSkeleton.Journal.Recorder

/-!
# Write access before `journal_dirty_metadata`

The protocol of the journal: a buffer is handed to `journal_dirty_metadata` only under a handle
that was granted write access to it before. For both paths, when it is kept.
-/

namespace QuickDevSkeleton.Journal

open Foundations

/-- Every buffer that `x` hands to the journal had been granted to the handle before. -/
def InOrder (x : Exec World ℤ) (w : World) : Prop :=
  ∀ e ∈ (x w).2.log.drop w.log.length, e.granted = true

section

variable {K : Outcomes} {w : World} {i : ℕ}

lemma inOrder_of_log {x : Exec World ℤ} (h : (x w).2.log = w.log) : InOrder x w := by
  rw [InOrder, h, List.drop_length]
  exact fun e he => absurd he List.not_mem_nil

lemma inOrder_iff {x : Exec World ℤ} {h : Handle} {l : List ℕ}
    (hlog : (x w).2.log = w.log ++ l.map (fun k => ⟨h.id, i, k, h.granted i k⟩)) :
    InOrder x w ↔ ∀ k ∈ l, h.granted i k = true := by
  rw [InOrder, hlog, List.drop_left]
  simp

/-! ### `writepage` -/

/-- A buffer to which access is refused comes behind one that `journal_dirty_metadata`
refuses, so that the second walk does not get to it. -/
def PageOk (K : Outcomes) (w : World) (i : ℕ) : Prop :=
  Journals K w i → ∀ k < w.blocks.count, (w.ring i k).freed = false →
    (∀ j < k, (w.ring i j).freed = false → K.journal_dirty_metadata j = 0) →
      K.journal_get_write_access k = 0

/-- Short of its walks `writepage` hands nothing to the journal. -/
lemma writepage_log (hj : ¬ Journals K w i) :
    (example_journalled_writepage K i w).2.log = w.log := by
  by_cases hgo : (w.pages i).buffers.isSome ∧ (w.pages i).checked = false
  · rw [Recorder.writepage_eq (R := .nothing) (c := ⟨⟩) (Recorder.writepage_full hgo)]
    rfl
  · obtain ⟨r, v, c', hrun, hlog, -⟩ := Recorder.writepage_short (R := .nothing) (c := ⟨⟩) hgo hj
    rw [Recorder.writepage_eq hrun]
    exact hlog

lemma writepage_inOrder_iff : InOrder (example_journalled_writepage K i) w ↔ PageOk K w i := by
  by_cases hj : Journals K w i
  · obtain ⟨m, r, p, haccess, hring, hgranted⟩ := access_walk_opened K w i
    obtain ⟨m', r', p', hjournal, hreached⟩ :=
      journal_walk_reached (K := K) 0 PAGE_CACHE_SIZE none hring rfl
    have hrun := Recorder.writepage_eq
      (Recorder.writepage_run (R := .nothing) (c := ⟨⟩) hj haccess hjournal rfl rfl)
    rw [inOrder_iff (congrArg (fun out => out.2.log) hrun)]
    constructor
    · intro hall _ k hk hfreed hbefore
      have hmem : k ∈
          reached (accessed K (opened w i) i (newHandle w) m) i 0 PAGE_CACHE_SIZE m' := by
        refine (hreached k).mpr ⟨mem_reached_opened.mpr ⟨hk, hfreed⟩, fun j hj hjk => ?_⟩
        exact hbefore j hjk (mem_reached_opened.mp hj).2
      exact ((hgranted k hk hfreed).mp (hall k hmem)).1
    · intro hok k hmem
      obtain ⟨hk, hbefore⟩ := (hreached k).mp hmem
      obtain ⟨hk, hfreed⟩ := mem_reached_opened.mp hk
      have hbefore' : ∀ j < k, (w.ring i j).freed = false → K.journal_dirty_metadata j = 0 :=
        fun j hjk hj => hbefore j (mem_reached_opened.mpr ⟨Nat.lt_trans hjk hk, hj⟩) hjk
      refine (hgranted k hk hfreed).mpr ⟨hok hj k hk hfreed hbefore', fun j hjk hjfreed => ?_⟩
      exact hok hj j (Nat.lt_trans hjk hk) hjfreed fun l hlj => hbefore' l (Nat.lt_trans hlj hjk)
  · exact ⟨fun _ h => absurd h hj, fun _ => inOrder_of_log (writepage_log hj)⟩

/-! ### `write_begin` and `write_end` -/

/-- If the task has a handle already, so that `write_begin` asks for nothing, then that handle
has access to every buffer that `write_end` gets to. -/
def WriteOk (w : World) (a : Round) : Prop :=
  ∀ h, a.K.grab = true → w.handle = some h → (w.pages a.page).buffers.isSome →
    ∀ k ∈ a.range w, (∀ j ∈ a.range w, j < k → a.K.journal_dirty_metadata j = 0) →
      h.granted a.page k = true

lemma writeOk_of_no_handle {a : Round} (hh : w.handle = none) : WriteOk w a := by
  intro h _ hh'
  rw [hh] at hh'
  cases hh'

/-- A round under a handle of the caller. -/
lemma nested_inOrder_iff {a : Round} {h : Handle} (hg : a.K.grab = true) (hh : w.handle = some h)
    (hrun : a.begin_ w = (some 0, grabbed w a.page)) : InOrder a.run w ↔ WriteOk w a := by
  have hpage := World.pages_setPage w a.page
    { w.pages a.page with locked := true, count := (w.pages a.page).count + 1 }
  by_cases hring : (w.pages a.page).buffers.isSome
  · have hring' : ((grabbed w a.page).pages a.page).buffers.isSome := by
      rw [grabbed, hpage]
      exact hring
    have hR : a.range w = reached (grabbed w a.page) a.page (a.pos % PAGE_CACHE_SIZE)
        (walkEnd ((grabbed w a.page).pages a.page) (a.pos % PAGE_CACHE_SIZE) a.len a.data.length)
        w.blocks.count := by
      simp only [Round.range, reached, World.ring, grabbed, hpage]
      rfl
    obtain ⟨l, hlog, hl⟩ := writeRound_log a.data hrun hh hring' hR
    rw [inOrder_iff (x := a.run) hlog]
    constructor
    · intro hall h' _ hh' _ k hk hbefore
      cases hh.symm.trans hh'
      exact hall k ((hl k).mpr ⟨hk, hbefore⟩)
    · intro hok k hk
      obtain ⟨hk, hbefore⟩ := (hl k).mp hk
      exact hok h hg hh hring k hk hbefore
  · refine ⟨fun _ h' _ _ hring' => absurd hring' hring, fun _ => inOrder_of_log ?_⟩
    have hring' : ((grabbed w a.page).pages a.page).buffers.isSome = false := by
      rw [grabbed, hpage]
      exact Bool.eq_false_of_not_eq_true hring
    obtain ⟨u, hcrash, hlog⟩ := writeRound_crash a.data hrun (Or.inr hring')
    rw [Round.run, hcrash]
    exact hlog

lemma round_inOrder_iff {a : Round} : InOrder a.run w ↔ WriteOk w a := by
  obtain ⟨r, v, hrun, hends⟩ := write_begin_ends a.K a.pos a.len w
  change BeginEnds a.K w a.page r v at hends
  -- an error of `write_begin` ends the round
  have herror : r ≠ 0 → v.log = w.log → InOrder a.run w := by
    intro hr hlog
    apply inOrder_of_log
    rw [Round.run, writeRound, Exec.bind_run_some hrun, if_pos hr]
    exact hlog
  cases hends with
  | noPage hg =>
    refine ⟨fun _ h hg' => ?_, fun _ => herror (by decide) rfl⟩
    rw [hg] at hg'
    cases hg'
  | nested hg hh => exact nested_inOrder_iff hg hh hrun
  | noHandle hg hh hfail he => exact ⟨fun _ => writeOk_of_no_handle hh, fun _ => herror he rfl⟩
  | notPrepared hg hh hb hv hlog =>
    refine ⟨fun _ => writeOk_of_no_handle hh, fun _ => inOrder_of_log ?_⟩
    obtain ⟨u, hcrash, hlog'⟩ := writeRound_crash a.data hrun (Or.inl hv)
    rw [Round.run, hcrash]
    exact hlog'.trans hlog
  | granted hg hh ha hs hb hall =>
    refine ⟨fun _ => writeOk_of_no_handle hh, fun _ => ?_⟩
    obtain ⟨-, -, hring, -⟩ := accessed_begun (w := w) a.K a.page w.blocks.count
    obtain ⟨l, hlog, hl⟩ := writeRound_log a.data hrun rfl hring rfl
    rw [inOrder_iff (x := a.run) (w := w) hlog]
    intro k hk
    obtain ⟨hkn, hlive, -⟩ := mem_reached.mp ((hl k).mp hk).1
    change k < w.blocks.count at hkn
    replace hlive := accessed_live.symm.trans hlive
    have hfreed : (w.ring a.page k).freed = false := by
      rwa [begun_live hkn, Bool.not_eq_true'] at hlive
    exact (Handle.askUpTo_granted hlive rfl).mpr ⟨hkn, hall k hkn hfreed⟩
  | refused hg hh hk hlive hr => exact ⟨fun _ => writeOk_of_no_handle hh, fun _ => herror hr rfl⟩

end

/-- For every page, every ring and flags, and every answer of the journal: `writepage` keeps
the protocol if and only if no buffer to which access is refused is reached by the second walk;
a write keeps it if and only if it does not run under a handle of the caller, or that handle
has access already to every buffer that is handed over. -/
theorem inOrder_iff_ok (w : World) :
    (∀ (K : Outcomes) (i : ℕ), InOrder (example_journalled_writepage K i) w ↔ PageOk K w i) ∧
      ∀ a : Round, InOrder a.run w ↔ WriteOk w a :=
  ⟨fun _ _ => writepage_inOrder_iff, fun _ => round_inOrder_iff⟩

/-- Where write access to the only buffer of a page is refused, `writepage` hands it to
`journal_dirty_metadata` all the same. -/
theorem writepage_outOfOrder :
    ¬ InOrder (example_journalled_writepage
      { Outcomes.fine with journal_get_write_access := fun _ => -EROFS } 0) World.cold := by
  rw [writepage_inOrder_iff]
  intro hok
  have hzero := hok ⟨by decide, rfl, rfl, rfl, rfl⟩ 0 (by decide) rfl
    fun j hj => absurd hj (Nat.not_lt_zero j)
  exact absurd hzero (by decide)

end QuickDevSkeleton.Journal
