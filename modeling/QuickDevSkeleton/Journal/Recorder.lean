import QuickDevSkeleton.Journal.Balance

/-!
# The exits of `writepage`

`example_journalled_writepage` with a record of what it does to its page and of the handle that it
starts: how it ends short of its walks, and what is left to its walks where it gets to them.
-/

namespace QuickDevSkeleton.Journal

open Foundations

section

variable {K : Outcomes} {w : World} {i : ℕ}

/-- `writepage` gets as far as its two walks. -/
def Journals (K : Outcomes) (w : World) (i : ℕ) : Prop :=
  ¬ ((w.pages i).buffers.isSome ∧ (w.pages i).checked = false) ∧ w.handle = none ∧
    K.aborted = false ∧ K.journal_start = 0 ∧ K.block_write_begin = 0

/-- `ClearPageChecked`. -/
def unchecked (w : World) (i : ℕ) : World :=
  w.setPage i { w.pages i with checked := false }

/-- The world in which `writepage` starts to ask for write access. -/
def opened (w : World) (i : ℕ) : World :=
  prepared (unchecked w.start i) i

lemma opened_live {k : ℕ} (hk : k < w.blocks.count) :
    ((opened w i).ring i k).live = !(w.ring i k).freed := by
  have hring : (unchecked w.start i).ring i k = w.ring i k := by
    simp [World.ring, unchecked, World.start]
  rw [opened, prepared, World.ring_setRing, preparedRing_live (w := unchecked w.start i) hk, hring]

/-- The first walk of `writepage`, and what it is granted. -/
lemma access_walk_opened (K : Outcomes) (w : World) (i : ℕ) :
    ∃ m r p, walkPage i 0 PAGE_CACHE_SIZE none (do_journal_get_write_access K i) (opened w i) =
        (some (r, p), accessed K (opened w i) i (newHandle w) m) ∧
      ((accessed K (opened w i) i (newHandle w) m).pages i).buffers.isSome ∧
      ∀ k < w.blocks.count, (w.ring i k).freed = false →
        (((newHandle w).askUpTo K i ((opened w i).ring i) m).granted i k = true ↔
          K.journal_get_write_access k = 0 ∧
            ∀ j < k, (w.ring i j).freed = false → K.journal_get_write_access j = 0) := by
  have hring : ((opened w i).pages i).buffers.isSome := by
    simp [opened, prepared, World.setRing]
  have hlive : ∀ k < w.blocks.count, ((opened w i).ring i k).live = true ↔
      (w.ring i k).freed = false := by
    intro k hk
    rw [opened_live hk, Bool.not_eq_true']
  obtain ⟨m, r, p, haccess, hgranted⟩ :=
    access_walk_granted (K := K) (h := newHandle w) hring rfl fun k => rfl
  refine ⟨m, r, p, haccess, ?_, fun k hk hfreed => ?_⟩
  · rw [accessed, World.pages_onPage]
    rfl
  · rw [hgranted k hk ((hlive k hk).mpr hfreed)]
    refine and_congr_right fun _ => forall₂_congr fun j hj => ?_
    rw [hlive j (Nat.lt_trans hj hk)]

/-- The second walk of `writepage` comes to all buffers but those that were freed. -/
lemma mem_reached_opened {m k : ℕ} :
    k ∈ reached (accessed K (opened w i) i (newHandle w) m) i 0 PAGE_CACHE_SIZE w.blocks.count ↔
      k < w.blocks.count ∧ (w.ring i k).freed = false := by
  rw [mem_reached, accessed_live]
  constructor
  · rintro ⟨hk, hlive, -⟩
    rw [opened_live hk, Bool.not_eq_true'] at hlive
    exact ⟨hk, hlive⟩
  · rintro ⟨hk, hfreed⟩
    exact ⟨hk, by rw [opened_live hk, hfreed, Bool.not_false], w.blocks.touches_page hk⟩

end

/-- What is written down beside a call when `journal_start` gives it the handle `id`, and when the
page is unlocked by the call or by `block_write_full_page`. -/
structure Recorder (ρ : Type) where
  start : ℕ → ρ → ρ
  unlock : ρ → ρ
  full_page : ρ → ρ

namespace Recorder

variable {ρ : Type} (R : Recorder ρ)

/-- A handle that the task has already is not a new one. -/
def journal_start (K : Outcomes) : Exec (World × ρ) ℤ :=
  Exec.withState fun s =>
    Exec.recorded (if K.journal_start = 0 ∧ s.1.handle = none then R.start s.1.started else id)
      (Journal.journal_start K)

/-- `example_journalled_writepage`, with a record beside it. -/
def writepage (K : Outcomes) (i : ℕ) : Exec (World × ρ) ℤ :=
  Exec.withState fun s =>
    if (s.1.pages i).buffers.isSome && !(s.1.pages i).checked then do
      Exec.recorded R.full_page (unlock_page i)
      pure K.block_write_full_page
    else if s.1.handle.isSome then pure 0
    else if K.aborted then pure (-EROFS)
    else do
      let err ← R.journal_start K
      if err ≠ 0 then pure err
      else do
        Exec.beside (Exec.modify fun w => w.setPage i { w.pages i with checked := false })
        let ret ← Exec.beside (block_write_begin K i 0 PAGE_CACHE_SIZE)
        if ret ≠ 0 then do
          let _ ← Exec.beside (journal_stop K)
          pure 0
        else do
          let (ret, _) ← Exec.beside
            (walkPage i 0 PAGE_CACHE_SIZE none (do_journal_get_write_access K i))
          let (err, _) ← Exec.beside (walkPage i 0 PAGE_CACHE_SIZE none (write_end_fn K i))
          let ret := if ret = 0 then err else ret
          Exec.recorded R.unlock (unlock_page i)
          let err ← Exec.beside (journal_stop K)
          pure (if ret = 0 then err else ret)

variable {R}

lemma journal_start_records (K : Outcomes) :
    Exec.Records (R.journal_start K) (Journal.journal_start K) :=
  .withState fun s => .recorded (if K.journal_start = 0 ∧ s.1.handle = none then _ else _) _

/-- The record changes nothing. -/
lemma writepage_records (K : Outcomes) (i : ℕ) :
    Exec.Records (R.writepage K i) (example_journalled_writepage K i) := by
  refine .withState fun s => .ite (.bind (.recorded _ _) fun _ => .pure _) ?_
  refine .ite (.pure _) (.ite (.pure _) (.bind (journal_start_records K) fun err => ?_))
  refine .ite (.pure _) (.bind (.beside _) fun _ => .bind (.beside _) fun ret => ?_)
  refine .ite (.bind (.beside _) fun _ => .pure _) ?_
  refine .bind (.beside _) fun r => .bind (.beside _) fun r' => ?_
  exact .bind (.recorded _ _) fun _ => .bind (.beside _) fun _ => .pure _

variable {K : Outcomes} {w : World} {i : ℕ} {c : ρ}

lemma journal_start_run (hs : K.journal_start = 0) (hnone : w.handle = none) :
    R.journal_start K (w, c) = (some 0, w.start, R.start w.started c) := by
  rw [Recorder.journal_start, Exec.withState_run, if_pos ⟨hs, hnone⟩]
  exact Exec.recorded_run _ c (Journal.journal_start_run hs hnone)

lemma journal_start_fails (hs : K.journal_start ≠ 0) :
    R.journal_start K (w, c) = (some K.journal_start, w, c) := by
  have hstart : Journal.journal_start K w = (some K.journal_start, w) := by
    rw [Journal.journal_start, if_pos hs, Exec.pure_run]
  rw [Recorder.journal_start, Exec.withState_run, if_neg fun h => hs h.1]
  exact Exec.recorded_run _ c hstart

/-! ### The exits -/

/-- A page of checkpointed buffers goes to `block_write_full_page`. -/
lemma writepage_full (h : (w.pages i).buffers.isSome ∧ (w.pages i).checked = false) :
    R.writepage K i (w, c) = (some K.block_write_full_page,
      w.setPage i { w.pages i with locked := false }, R.full_page c) := by
  have hgo : ((w.pages i).buffers.isSome && !(w.pages i).checked) = true := by simpa using h
  rw [writepage, Exec.withState_run, if_pos hgo]
  rfl

/-- Short of its walks `writepage` hands nothing to the journal, and does not unlock the page. -/
lemma writepage_short (hgo : ¬ ((w.pages i).buffers.isSome ∧ (w.pages i).checked = false))
    (hj : ¬ Journals K w i) :
    ∃ r v c', R.writepage K i (w, c) = (some r, v, c') ∧ v.log = w.log ∧ v.handle = w.handle ∧
      (c' = c ∧ v = w ∨ w.handle = none ∧ c' = R.start w.started c ∧ v.blocks = w.blocks ∧
        v.started = w.started + 1) := by
  have hgo' : ¬ ((w.pages i).buffers.isSome && !(w.pages i).checked) = true := by simpa using hgo
  rw [writepage, Exec.withState_run, if_neg hgo']
  split_ifs with hhandle ha
  · exact ⟨_, _, _, rfl, rfl, rfl, Or.inl ⟨rfl, rfl⟩⟩
  · exact ⟨_, _, _, rfl, rfl, rfl, Or.inl ⟨rfl, rfl⟩⟩
  · have hnone : w.handle = none := by simpa using hhandle
    by_cases hs : K.journal_start = 0
    · have hb : K.block_write_begin ≠ 0 := by
        intro hb
        exact hj ⟨hgo, hnone, Bool.eq_false_of_not_eq_true ha, hs, hb⟩
      obtain ⟨v, hrun, hhandle, hlog⟩ :=
        block_write_begin_fails (w := unchecked w.start i) (i := i) hb
      have hv : v.handle = some (newHandle w) := hhandle
      obtain ⟨hblocks, hstarted, -⟩ := block_write_begin_keeps (K := K) (i := i) 0 PAGE_CACHE_SIZE
        (unchecked w.start i) ⟨rfl, rfl, rfl⟩
      rw [hrun] at hblocks hstarted
      have hclear : Exec.modify (fun w => w.setPage i { w.pages i with checked := false })
          w.start = (some ⟨⟩, unchecked w.start i) := rfl
      rw [Exec.bind_run_some (journal_start_run hs hnone), if_neg (by simp),
        Exec.bind_run_some (Exec.beside_run _ hclear), Exec.bind_run_some (Exec.beside_run _ hrun),
        if_pos hb, Exec.bind_run_some (Exec.beside_run _ (journal_stop_run hv))]
      exact ⟨_, _, _, rfl, hlog, hnone.symm, Or.inr ⟨hnone, rfl, hblocks, hstarted⟩⟩
    · rw [Exec.bind_run_some (journal_start_fails hs), if_pos hs]
      exact ⟨_, _, _, rfl, rfl, rfl, Or.inl ⟨rfl, rfl⟩⟩

/-- The end of `writepage`, after walks that ended with `ret` and `err`. -/
lemma writepage_tail_run {v : World} {h : Handle} (hv : v.handle = some h) (href : h.h_ref = 1)
    (ret : ℤ) :
    (do
      Exec.recorded R.unlock (unlock_page i)
      let err ← Exec.beside (journal_stop K)
      pure (if ret = 0 then err else ret) : Exec (World × ρ) ℤ) (v, c) =
        (some (if ret = 0 then K.journal_stop else ret),
          { v.setPage i { v.pages i with locked := false } with handle := none }, R.unlock c) := by
  have hunlock : unlock_page i v = (some ⟨⟩, v.setPage i { v.pages i with locked := false }) := rfl
  have hh : (v.setPage i { v.pages i with locked := false }).handle = some h := hv
  have hstop := journal_stop_run (K := K) hh
  rw [if_neg (by omega)] at hstop
  rw [Exec.bind_run_some (Exec.recorded_run R.unlock c hunlock),
    Exec.bind_run_some (Exec.beside_run (R.unlock c) hstop)]
  rfl

/-- `writepage` as far as its two walks, which end with `r` and `r'`. -/
lemma writepage_run (hj : Journals K w i) {v v' : World} {h : Handle} {r r' : ℤ}
    {p p' : Option Bool}
    (haccess : walkPage i 0 PAGE_CACHE_SIZE none (do_journal_get_write_access K i) (opened w i) =
      (some (r, p), v))
    (hjournal : walkPage i 0 PAGE_CACHE_SIZE none (write_end_fn K i) v = (some (r', p'), v'))
    (hh : v'.handle = some h) (href : h.h_ref = 1) :
    R.writepage K i (w, c) =
      (some (if (if r = 0 then r' else r) = 0 then K.journal_stop else if r = 0 then r' else r),
        { v'.setPage i { v'.pages i with locked := false } with handle := none },
        R.unlock (R.start w.started c)) := by
  obtain ⟨hgo, hnone, ha, hs, hb⟩ := hj
  have hgo' : ¬ ((w.pages i).buffers.isSome && !(w.pages i).checked) = true := by
    simpa using hgo
  have hclear : Exec.modify (fun w => w.setPage i { w.pages i with checked := false })
      w.start = (some ⟨⟩, unchecked w.start i) := rfl
  have hprepared : block_write_begin K i 0 PAGE_CACHE_SIZE (unchecked w.start i) =
      (some 0, opened w i) := block_write_begin_run hb
  rw [writepage, Exec.withState_run, if_neg hgo', if_neg (by simp [hnone]),
    if_neg (by simp [ha]), Exec.bind_run_some (journal_start_run hs hnone), if_neg (by simp),
    Exec.bind_run_some (Exec.beside_run _ hclear),
    Exec.bind_run_some (Exec.beside_run _ hprepared), if_neg (by simp),
    Exec.bind_run_some (Exec.beside_run _ haccess)]
  dsimp only
  rw [Exec.bind_run_some (Exec.beside_run _ hjournal)]
  exact writepage_tail_run hh href _

/-- A call with a record beside it ends like the call. -/
lemma writepage_eq {r : ℤ} {v : World} {c' : ρ} (hrun : R.writepage K i (w, c) = (some r, v, c')) :
    example_journalled_writepage K i w = (some r, v) := by
  obtain ⟨hres, hstate⟩ := writepage_records (R := R) K i (w, c)
  rw [hrun] at hres hstate
  exact Prod.ext hres.symm hstate.symm

/-- The record of nothing. -/
def nothing : Recorder Unit :=
  ⟨fun _ c => c, id, id⟩

end Recorder

end QuickDevSkeleton.Journal
