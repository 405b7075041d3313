import QuickDevSkeleton.Journal.Isolation
import QuickDevSkeleton.Journal.Release

/-!
# What `fsync` leaves behind

`example_journal_sync_file` has the kernel call `writepage` for the dirty pages of the range, until
one call fails, and commits the journal. When it returns 0, which stores to mapped pages the journal
has got.
-/

namespace QuickDevSkeleton.Journal

open Foundations

/-- What the kernel answers during one `fsync`: to each call of `writepage`, to the wait for pages
under write-back, and as the results of `journal_force_commit` and `blkdev_issue_flush`. -/
structure SyncOutcomes where
  writepage : ℕ → Outcomes
  wait : ℤ
  commit : ℤ
  flush : ℤ

/-- A page as `writepage` gets it. -/
def World.cleared (w : World) (i : ℕ) : World :=
  w.setPage i { w.pages i with dirty := false }

/-- The kernel calls `writepage`. -/
def call_writepage (K : Outcomes) (i : ℕ) : Exec CachedFile ℤ := fun s =>
  ((example_journalled_writepage K i (s.world.cleared i)).1, s.writepage K i)

/-- `write_cache_pages`: the dirty ones of the pages are written, up to the first failure. -/
def write_cache_pages (K : ℕ → Outcomes) : List ℕ → Exec CachedFile ℤ
  | [] => pure 0
  | i :: pages => Exec.withState fun s =>
    if (s.world.pages i).dirty then do
      let ret ← call_writepage (K i) i
      if ret ≠ 0 then pure ret else write_cache_pages K pages
    else write_cache_pages K pages

/-- `filemap_write_and_wait_range`: what the wait finds does not replace an error. -/
def filemap_write_and_wait_range (K : SyncOutcomes) (pages : List ℕ) : Exec CachedFile ℤ := do
  let err ← write_cache_pages K.writepage pages
  pure (if err = 0 then K.wait else err)

/-- `example_journal_sync_file(file, start, end, datasync)`, for the pages of the range. -/
def example_journal_sync_file (K : SyncOutcomes) (pages : List ℕ) : Exec CachedFile ℤ := do
  let ret ← filemap_write_and_wait_range K pages
  if ret ≠ 0 then pure ret
  else do
    Exec.modify fun s => if K.commit = 0 then s.commit else s
    let err := K.flush
    pure (if K.commit = 0 then err else K.commit)

/-- A page that is dirty, and that `writepage` does not pass on as it is. -/
def Waits (w : World) (i : ℕ) : Prop :=
  (w.pages i).dirty = true ∧ ¬ ((w.pages i).buffers.isSome && !(w.pages i).checked) = true

instance (w : World) (i : ℕ) : Decidable (Waits w i) :=
  inferInstanceAs (Decidable (_ ∧ _))

/-- Between `w` and `w'` the journal has taken every buffer of page `i` that is not freed. -/
def Taken (K : Outcomes) (i : ℕ) (w w' : World) : Prop :=
  ∀ k < w.blocks.count, (w.ring i k).freed = false →
    K.journal_dirty_metadata k = 0 ∧
      ∃ e ∈ w'.log.drop w.log.length, e.page = i ∧ e.buffer = k

/-- Page `i` is prepared for the journal, or there is nothing of it to be taken. -/
def Prepared (K : Outcomes) (i : ℕ) (w : World) : Prop :=
  K.block_write_begin = 0 ∨ ∀ k < w.blocks.count, (w.ring i k).freed = true

/-! ### One page -/

section

variable {K : Outcomes} {w v : World} {i : ℕ}

/-- `writepage` leaves the other pages alone. -/
lemma writepage_other (K : Outcomes) (w : World) {i j : ℕ} (hj : j ≠ i) :
    (example_journalled_writepage K i w).2.blocks = w.blocks ∧
      (example_journalled_writepage K i w).2.pages j = w.pages j := by
  by_cases hplain : ((w.pages i).buffers.isSome && !(w.pages i).checked) = true
  · have h := writepage_plain (K := K) hplain
    exact ⟨h.blocks, h.other j hj⟩
  · by_cases hhandle : HandleFor K w
    · have h := writepage_handle hplain hhandle
      exact ⟨h.blocks, (h.other j hj).trans (World.other_setPage hj _)⟩
    · rw [writepage_no_handle hplain hhandle]
      exact ⟨rfl, rfl⟩

/-- Without an answer that `writepage` reports, it gets a handle. -/
lemma handleFor_of_zero
    (hplain : ¬ ((w.pages i).buffers.isSome && !(w.pages i).checked) = true)
    (hnone : w.handle = none) (hrun : example_journalled_writepage K i w = (some 0, v)) :
    HandleFor K w := by
  refine ⟨hnone, ?_, ?_⟩
  · by_contra ha
    rw [example_journalled_writepage, Exec.withState_run, if_neg hplain, if_neg (by simp [hnone]),
      if_pos (by simpa using ha), Exec.pure_run] at hrun
    exact absurd (Option.some.inj (Prod.ext_iff.mp hrun).1) (by decide)
  · by_contra hs
    have hstart : journal_start K w = (some K.journal_start, w) := by
      rw [journal_start, if_pos hs, Exec.pure_run]
    rw [example_journalled_writepage, Exec.withState_run, if_neg hplain,
      if_neg (by simp [hnone])] at hrun
    split_ifs at hrun with ha
    · exact absurd (Option.some.inj (Prod.ext_iff.mp hrun).1) (by decide)
    · rw [Exec.bind_run_some hstart, if_pos hs, Exec.pure_run] at hrun
      exact hs (Option.some.inj (Prod.ext_iff.mp hrun).1)

/-- What a `writepage` that returns 0 passes to the journal: all of a page that it prepares, and
otherwise nothing. -/
structure Passed (K : Outcomes) (i : ℕ) (w : World) (l : List Dirtied) : Prop where
  page : ∀ e ∈ l, e.page = i
  all : K.block_write_begin = 0 → ∀ k < w.blocks.count, (w.ring i k).freed = false →
    K.journal_dirty_metadata k = 0 ∧ ∃ e ∈ l, e.page = i ∧ e.buffer = k
  nothing : K.block_write_begin ≠ 0 → l = []

lemma writepage_walks_zero (hj : Journals K w i)
    (hrun : example_journalled_writepage K i w = (some 0, v)) :
    v.handle = none ∧ ∃ l, v.log = w.log ++ l ∧ Passed K i w l := by
  obtain ⟨m, r, p, haccess, hring, -⟩ := access_walk_opened K w i
  rcases journal_walk (K := K) 0 PAGE_CACHE_SIZE none hring rfl with
    ⟨p', hjournal, hall⟩ | ⟨k, -, hr', -, p', hjournal⟩
  · have hcall := Recorder.writepage_eq
      (Recorder.writepage_run (R := Recorder.nothing) (c := ()) hj haccess hjournal rfl rfl)
    obtain ⟨-, rfl⟩ := Prod.ext_iff.mp (hrun.symm.trans hcall)
    refine ⟨rfl, _, rfl, fun e he => ?_, fun _ k hk hfreed => ?_, fun hb => absurd hj.2.2.2.2 hb⟩
    · obtain ⟨k, -, rfl⟩ := List.mem_map.mp he
      rfl
    · have hk := mem_reached_opened (K := K) (m := m).mpr ⟨hk, hfreed⟩
      exact ⟨hall k hk, _, List.mem_map_of_mem hk, rfl, rfl⟩
  · have hcall := Recorder.writepage_eq
      (Recorder.writepage_run (R := Recorder.nothing) (c := ()) hj haccess hjournal rfl rfl)
    have hret := Option.some.inj (Prod.ext_iff.mp (hrun.symm.trans hcall)).1
    by_cases hr : r = 0
    · rw [if_pos hr, if_neg hr'] at hret
      exact absurd hret.symm hr'
    · rw [if_neg hr, if_neg hr] at hret
      exact absurd hret.symm hr

lemma writepage_zero (hplain : ¬ ((w.pages i).buffers.isSome && !(w.pages i).checked) = true)
    (hnone : w.handle = none) (hrun : example_journalled_writepage K i w = (some 0, v)) :
    v.handle = none ∧ ∃ l, v.log = w.log ++ l ∧ Passed K i w l := by
  have hgo : ¬ ((w.pages i).buffers.isSome ∧ (w.pages i).checked = false) := by
    simpa using hplain
  by_cases hj : Journals K w i
  · exact writepage_walks_zero hj hrun
  · obtain ⟨-, ha, hs⟩ := handleFor_of_zero hplain hnone hrun
    obtain ⟨r, v', c', hcall, hlog, hhandle, -⟩ :=
      Recorder.writepage_short (R := Recorder.nothing) (c := ()) hgo hj
    obtain ⟨-, rfl⟩ := Prod.ext_iff.mp (hrun.symm.trans (Recorder.writepage_eq hcall))
    have hb : K.block_write_begin ≠ 0 := fun hb => hj ⟨hgo, hnone, ha, hs, hb⟩
    refine ⟨hhandle.trans hnone, [], by rw [hlog, List.append_nil], ?_⟩
    exact ⟨by simp, fun hzero => absurd hzero hb, fun _ => rfl⟩

/-- A page that goes to `block_write_full_page` has nothing to do with the journal. -/
lemma writepage_full_page (hplain : ((w.pages i).buffers.isSome && !(w.pages i).checked) = true) :
    (example_journalled_writepage K i w).2.handle = w.handle ∧
      (example_journalled_writepage K i w).2.log = w.log := by
  rw [example_journalled_writepage, Exec.withState_run, if_pos hplain]
  exact ⟨rfl, rfl⟩

end

/-! ### All pages of the range -/

section

variable {s s' : CachedFile}

/-- What a call of `writepage` that returns 0 leaves, as the kernel makes it. -/
structure Called (K : Outcomes) (i : ℕ) (w w' : World) (l : List Dirtied) : Prop where
  handle : w'.handle = none
  blocks : w'.blocks = w.blocks
  other : ∀ j, j ≠ i → w'.pages j = w.pages j
  log : w'.log = w.log ++ l
  page : ∀ e ∈ l, e.page = i
  passed : Waits w i → Passed K i w l

lemma call_writepage_zero {K : Outcomes} {i : ℕ} (hnone : s.world.handle = none)
    (hcall : call_writepage K i s = (some 0, s')) : ∃ l, Called K i s.world s'.world l := by
  obtain ⟨hret, rfl⟩ := Prod.ext_iff.mp hcall
  have hrun : example_journalled_writepage K i (s.world.cleared i) =
      (some 0, (example_journalled_writepage K i (s.world.cleared i)).2) := Exec.run_eq hret
  have hframe (j : ℕ) (hj : j ≠ i) := writepage_other K (s.world.cleared i) hj
  have hblocks : (example_journalled_writepage K i (s.world.cleared i)).2.blocks = s.world.blocks :=
    (hframe (i + 1) (Nat.succ_ne_self i)).1
  have hother : ∀ j, j ≠ i →
      (example_journalled_writepage K i (s.world.cleared i)).2.pages j = s.world.pages j :=
    fun j hj => (hframe j hj).2.trans (World.other_setPage hj _)
  have hpage : (s.world.cleared i).pages i = { s.world.pages i with dirty := false } :=
    World.pages_setPage _ _ _
  have hring : (s.world.cleared i).ring i = s.world.ring i := by
    rw [World.ring, hpage, World.ring]
  by_cases hplain : (((s.world.cleared i).pages i).buffers.isSome &&
      !((s.world.cleared i).pages i).checked) = true
  · obtain ⟨hhandle, hlog⟩ := writepage_full_page (K := K) hplain
    refine ⟨[], hhandle.trans hnone, hblocks, hother, ?_, by simp, fun hwaits => ?_⟩
    · exact hlog.trans (List.append_nil _).symm
    · rw [hpage] at hplain
      exact absurd hplain hwaits.2
  · obtain ⟨hhandle, l, hlog, hpassed⟩ := writepage_zero hplain hnone hrun
    refine ⟨l, hhandle, hblocks, hother, hlog, hpassed.page, fun _ => ?_⟩
    refine ⟨hpassed.page, fun hb k hk hfreed => hpassed.all hb k hk ?_, hpassed.nothing⟩
    rwa [hring]

/-- What `write_cache_pages` leaves when no call fails. -/
structure Flushed (K : ℕ → Outcomes) (pages : List ℕ) (w w' : World) (l : List Dirtied) :
    Prop where
  log : w'.log = w.log ++ l
  page : ∀ e ∈ l, e.page ∈ pages
  passed : ∀ i ∈ pages, Waits w i → Passed (K i) i w (l.filter fun e => e.page = i)

/-- The log of the first page, and that of the others. -/
lemma Flushed.cons {K : ℕ → Outcomes} {i : ℕ} {pages : List ℕ} {w v w' : World}
    {l l' : List Dirtied} (hi : i ∉ pages) (hc : Called (K i) i w v l)
    (hf : Flushed K pages v w' l') : Flushed K (i :: pages) w w' (l ++ l') where
  log := by rw [hf.log, hc.log, List.append_assoc]
  page e he := by
    rcases List.mem_append.mp he with he | he
    · exact List.mem_cons.mpr (Or.inl (hc.page e he))
    · exact List.mem_cons_of_mem i (hf.page e he)
  passed j hj hwaits := by
    rw [List.filter_append]
    rcases List.mem_cons.mp hj with rfl | hj
    · have hfirst : (l.filter fun e => decide (e.page = j)) = l :=
        List.filter_eq_self.mpr fun e he => decide_eq_true (hc.page e he)
      have hrest : (l'.filter fun e => decide (e.page = j)) = [] := by
        refine List.filter_eq_nil_iff.mpr fun e he hej => hi ?_
        exact of_decide_eq_true hej ▸ hf.page e he
      rw [hfirst, hrest, List.append_nil]
      exact hc.passed hwaits
    · have hji : j ≠ i := fun h => hi (h ▸ hj)
      have hpage : v.pages j = w.pages j := hc.other j hji
      have hring : v.ring j = w.ring j := by rw [World.ring, hpage, World.ring]
      have hfirst : (l.filter fun e => decide (e.page = j)) = [] := by
        refine List.filter_eq_nil_iff.mpr fun e he hej => hji ?_
        exact (of_decide_eq_true hej).symm.trans (hc.page e he)
      have hpassed := hf.passed j hj (by rwa [Waits, hpage])
      rw [hfirst, List.nil_append]
      refine ⟨hpassed.page, fun hb k hk hfreed => hpassed.all hb k ?_ ?_, hpassed.nothing⟩
      · rwa [hc.blocks]
      · rwa [hring]

/-- A page that is not dirty is passed over. -/
lemma Flushed.skip {K : ℕ → Outcomes} {i : ℕ} {pages : List ℕ} {w w' : World} {l : List Dirtied}
    (hclean : ¬ (w.pages i).dirty = true) (hf : Flushed K pages w w' l) :
    Flushed K (i :: pages) w w' l where
  log := hf.log
  page e he := List.mem_cons_of_mem i (hf.page e he)
  passed j hj hwaits := by
    rcases List.mem_cons.mp hj with rfl | hj
    · exact absurd hwaits.1 hclean
    · exact hf.passed j hj hwaits

lemma write_cache_pages_zero (K : ℕ → Outcomes) {pages : List ℕ} (hnd : pages.Nodup)
    (hnone : s.world.handle = none) (hrun : write_cache_pages K pages s = (some 0, s')) :
    ∃ l, Flushed K pages s.world s'.world l := by
  induction pages generalizing s with
  | nil =>
    obtain ⟨-, rfl⟩ := Prod.ext_iff.mp hrun
    exact ⟨[], (List.append_nil _).symm, by simp, by simp⟩
  | cons i pages ih =>
    obtain ⟨hi, hnd⟩ := List.nodup_cons.mp hnd
    rw [write_cache_pages, Exec.withState_run] at hrun
    split_ifs at hrun with hdirty
    · obtain ⟨ret, v, hcall, hrest⟩ := Exec.bind_eq_some.mp hrun
      split_ifs at hrest with hret
      · exact absurd (Option.some.inj (Prod.ext_iff.mp hrest).1) hret
      · rw [not_not.mp hret] at hcall
        obtain ⟨l, hc⟩ := call_writepage_zero hnone hcall
        obtain ⟨l', hf⟩ := ih hnd hc.handle hrest
        exact ⟨l ++ l', hf.cons hi hc⟩
    · obtain ⟨l, hf⟩ := ih hnd hnone hrun
      exact ⟨l, hf.skip hdirty⟩

lemma filemap_zero {K : SyncOutcomes} {pages : List ℕ}
    (h : filemap_write_and_wait_range K pages s = (some 0, s')) :
    write_cache_pages K.writepage pages s = (some 0, s') := by
  obtain ⟨err, u, hpages, hpure⟩ := Exec.bind_eq_some.mp h
  rw [Exec.pure_run] at hpure
  obtain ⟨hres, rfl⟩ := Prod.ext_iff.mp hpure
  by_cases herr : err = 0
  · rwa [herr] at hpages
  · exact absurd ((if_neg herr).symm.trans (Option.some.inj hres)) herr

/-- What the log says of a page is what the journal has taken of it. -/
lemma Flushed.taken_iff {K : ℕ → Outcomes} {pages : List ℕ} {w w' : World} {l : List Dirtied}
    (hf : Flushed K pages w w' l) {i : ℕ} (hi : i ∈ pages) (hwaits : Waits w i) :
    Taken (K i) i w w' ↔ Prepared (K i) i w := by
  have hpassed := hf.passed i hi hwaits
  have hdrop : w'.log.drop w.log.length = l := by rw [hf.log, List.drop_left]
  rw [Taken, hdrop]
  constructor
  · intro htaken
    by_cases hb : (K i).block_write_begin = 0
    · exact Or.inl hb
    · refine Or.inr fun k hk => ?_
      by_contra hfreed
      obtain ⟨-, e, he, hpage, -⟩ := htaken k hk (Bool.eq_false_of_not_eq_true hfreed)
      have hmem : e ∈ l.filter fun e => e.page = i :=
        List.mem_filter.mpr ⟨he, decide_eq_true hpage⟩
      rw [hpassed.nothing hb] at hmem
      cases hmem
  · rintro (hb | hfreed) k hk hlive
    · obtain ⟨hzero, e, he, hpage, hbuffer⟩ := hpassed.all hb k hk hlive
      exact ⟨hzero, e, List.mem_of_mem_filter he, hpage, hbuffer⟩
    · rw [hfreed k hk] at hlive
      cases hlive

/-- When `fsync` returns 0 to a task without a handle, the journal is committed; and it has taken
every dirty page of the range that was stored to through a mapping exactly when each of these pages
was prepared, since `writepage` returns 0 for one that could not be. -/
theorem sync_file_taken_iff (K : SyncOutcomes) {pages : List ℕ} (hnd : pages.Nodup)
    (hnone : s.world.handle = none)
    (hret : example_journal_sync_file K pages s = (some 0, s')) :
    (∀ i k, s'.handed i k = false) ∧
      ((∀ i ∈ pages, Waits s.world i → Taken (K.writepage i) i s.world s'.world) ↔
        ∀ i ∈ pages, Waits s.world i → Prepared (K.writepage i) i s.world) := by
  obtain ⟨ret, v, hwait, hrest⟩ := Exec.bind_eq_some.mp hret
  by_cases hzero : ret = 0
  · rw [if_neg (not_not.mpr hzero), Exec.modify_bind, Exec.pure_run] at hrest
    obtain ⟨hcode, hstate⟩ := Prod.ext_iff.mp hrest
    have hcommit : K.commit = 0 := by
      by_contra hno
      exact hno ((if_neg hno).symm.trans (Option.some.inj hcode))
    rw [hzero] at hwait
    obtain ⟨l, hf⟩ := write_cache_pages_zero K.writepage hnd hnone (filemap_zero hwait)
    have hcommitted : Flushed K.writepage pages s.world v.commit.world l :=
      ⟨hf.log, hf.page, hf.passed⟩
    have hs' : s' = v.commit := hstate.symm.trans (if_pos hcommit)
    rw [hs']
    exact ⟨fun _ _ => rfl, forall₃_congr fun i hi hwaits => hcommitted.taken_iff hi hwaits⟩
  · rw [if_pos hzero, Exec.pure_run] at hrest
    exact absurd (Option.some.inj (Prod.ext_iff.mp hrest).1) hzero

end

/-- An uptodate page that was stored to through a mapping. -/
def CachedFile.stored : CachedFile :=
  let s := CachedFile.zeros 8192
  { s with world := s.world.readpage 0 }.mapped_store 3 7

/-- An `fsync` without a failure. -/
def SyncOutcomes.fine : SyncOutcomes :=
  ⟨fun _ => Outcomes.fine, 0, 0, 0⟩

theorem sync_file_taken_iff_stored :
    let out := example_journal_sync_file SyncOutcomes.fine [0, 1] CachedFile.stored
    out.1 = some 0 ∧ ∀ i ∈ [0, 1], Waits CachedFile.stored.world i →
      Taken Outcomes.fine i CachedFile.stored.world out.2.world := by
  have hret : (example_journal_sync_file SyncOutcomes.fine [0, 1] CachedFile.stored).1 =
      some 0 := by
    decide +kernel
  refine ⟨hret, (sync_file_taken_iff SyncOutcomes.fine (by decide) rfl ?_).2.mpr fun _ _ _ => ?_⟩
  · exact Exec.run_eq hret
  · exact Or.inl rfl

/-! ### Runs with `fsync` -/

/-- The calls of `writepage` are steps of the file. -/
lemma write_cache_pages_run (K : ℕ → Outcomes) (pages : List ℕ) (s : CachedFile) :
    ∃ tr, cachedFile.Run s tr ∧ System.last s tr = (write_cache_pages K pages s).2 := by
  induction pages generalizing s with
  | nil => exact ⟨[], .nil s, rfl⟩
  | cons i pages ih =>
    rw [write_cache_pages, Exec.withState_run]
    split_ifs with hdirty
    · rcases hcall : call_writepage (K i) i s with ⟨ret, v⟩
      have hstep : cachedFile.step s (.writepage (K i) i) v :=
        congrArg some (Prod.ext_iff.mp hcall).2
      cases ret with
      | none =>
        rw [Exec.bind_run_none hcall]
        exact ⟨[(_, v)], .cons hstep (.nil v), rfl⟩
      | some ret =>
        rw [Exec.bind_run_some hcall]
        split_ifs with hret
        · exact ⟨[(_, v)], .cons hstep (.nil v), rfl⟩
        · obtain ⟨tr, hrun, hlast⟩ := ih v
          exact ⟨(_, v) :: tr, .cons hstep hrun, hlast⟩
    · exact ih s

/-- An `fsync` is a run of the file, so that it keeps what the steps keep. -/
lemma sync_file_run (K : SyncOutcomes) (pages : List ℕ) (s : CachedFile) :
    ∃ tr, cachedFile.Run s tr ∧ System.last s tr = (example_journal_sync_file K pages s).2 := by
  obtain ⟨tr, hrun, hlast⟩ := write_cache_pages_run K.writepage pages s
  rcases hpages : write_cache_pages K.writepage pages s with ⟨_ | err, v⟩
  · have hwait : filemap_write_and_wait_range K pages s = (none, v) := Exec.bind_run_none hpages
    refine ⟨tr, hrun, ?_⟩
    rw [example_journal_sync_file, Exec.bind_run_none hwait, hlast, hpages]
  · have hwait : filemap_write_and_wait_range K pages s =
        (some (if err = 0 then K.wait else err), v) := Exec.bind_run_some hpages
    rw [hpages] at hlast
    rw [example_journal_sync_file, Exec.bind_run_some hwait]
    by_cases hret : (if err = 0 then K.wait else err) ≠ 0
    · rw [if_pos hret]
      exact ⟨tr, hrun, hlast⟩
    · rw [if_neg hret, Exec.modify_bind, Exec.pure_run]
      by_cases hcommit : K.commit = 0
      · have hstep : cachedFile.step (System.last s tr) .commit v.commit := by
          rw [hlast]
          rfl
        exact ⟨_, hrun.concat hstep, System.last_concat.trans (if_pos hcommit).symm⟩
      · exact ⟨tr, hrun, hlast.trans (if_neg hcommit).symm⟩

end QuickDevSkeleton.Journal
