import QuickDevSkeleton.Foundations.System
import QuickDevSkeleton.Journal.Ends

/-!
# Locks, references and handles of the write path

A task writes in rounds of `write_begin`, copy and `write_end`. A round is balanced when it
gives back what it took: the lock and the reference of its page, and the handle it started.
-/

namespace QuickDevSkeleton.Journal

open Foundations

/-- A round of a write: the answers of the kernel, the range asked for, and the bytes that the
copy got hold of. -/
structure Round where
  K : Outcomes
  pos : ℕ
  len : ℕ
  data : List UInt8

namespace Round

def page (a : Round) : ℕ :=
  a.pos / PAGE_CACHE_SIZE

/-- The live buffers in the range that `write_end` walks. -/
def range (a : Round) (w : World) : List ℕ :=
  reached w a.page (a.pos % PAGE_CACHE_SIZE)
    (walkEnd (w.pages a.page) (a.pos % PAGE_CACHE_SIZE) a.len a.data.length) w.blocks.count

def begin_ (a : Round) : Exec World ℤ :=
  example_journalled_write_begin a.K a.pos a.len

def run (a : Round) : Exec World ℤ :=
  writeRound a.K a.pos a.len a.data

end Round

/-- The current handle and how often it is open. -/
def World.task (w : World) : Option (ℕ × ℕ) :=
  w.handle.map fun h => (h.id, h.h_ref)

/-- The round gives back what it took, and `write_end` is only ever run on a page that
`write_begin` has prepared, under a handle that `write_begin` has started. -/
structure Balanced (w : World) (a : Round) : Prop where
  begin_error : ∀ r v, a.begin_ w = (some r, v) → r ≠ 0 →
    (v.pages a.page).locked = (w.pages a.page).locked ∧
      (v.pages a.page).count = (w.pages a.page).count ∧ v.task = w.task
  begin_ok : ∀ v, a.begin_ w = (some 0, v) →
    (v.pages a.page).locked = true ∧ (v.pages a.page).buffers.isSome ∧
      ∃ h, v.handle = some h ∧ w.started ≤ h.id ∧ h.id < v.started
  round : ∃ r v, a.run w = (some r, v) ∧
    (v.pages a.page).locked = (w.pages a.page).locked ∧
      (v.pages a.page).count = (w.pages a.page).count ∧ v.task = w.task

/-- The rounds that meet no failure between the lock of the page and `write_end`: no page
could be had at all, or the task has no handle, the journal starts one, the page is prepared,
and write access is granted to every buffer that is not freed. -/
def RoundOk (w : World) (a : Round) : Prop :=
  a.K.grab = false ∨
    w.handle = none ∧ a.K.aborted = false ∧ a.K.journal_start = 0 ∧ a.K.block_write_begin = 0 ∧
      ∀ k < w.blocks.count, (w.ring a.page k).freed = false → a.K.journal_get_write_access k = 0

section

variable {w : World} {a : Round}

/-- The page and the task after a `write_begin` that was granted all it asked for. -/
lemma accessed_begun (K : Outcomes) (i m : ℕ) :
    ((accessed K (begun w i) i (newHandle w) m).pages i).locked = true ∧
      ((accessed K (begun w i) i (newHandle w) m).pages i).count = (w.pages i).count + 1 ∧
      ((accessed K (begun w i) i (newHandle w) m).pages i).buffers.isSome ∧
      ∃ h, (accessed K (begun w i) i (newHandle w) m).handle = some h ∧ h.id = w.started ∧
        h.h_ref = 1 := by
  rw [accessed, World.pages_onPage]
  refine ⟨?_, ?_, rfl, _, rfl, rfl, rfl⟩
  · simp [begun, prepared, World.setRing, World.start, grabbed]
  · simp [begun, prepared, World.setRing, World.start, grabbed]

/-- The range of `write_end` after such a `write_begin`. -/
lemma mem_range_accessed {m k : ℕ} :
    k ∈ a.range (accessed a.K (begun w a.page) a.page (newHandle w) m) ↔
      k < w.blocks.count ∧ (w.ring a.page k).freed = false ∧
        Touches w.blocks.size (a.pos % PAGE_CACHE_SIZE)
          (walkEnd (w.pages a.page) (a.pos % PAGE_CACHE_SIZE) a.len a.data.length) k := by
  have hend : walkEnd ((accessed a.K (begun w a.page) a.page (newHandle w) m).pages a.page)
      (a.pos % PAGE_CACHE_SIZE) a.len a.data.length =
        walkEnd (w.pages a.page) (a.pos % PAGE_CACHE_SIZE) a.len a.data.length := by
    rw [accessed, World.pages_onPage]
    simp [walkEnd, copiedTo, begun, prepared, World.setRing, World.start, grabbed]
  rw [Round.range, hend, mem_reached, accessed_live]
  constructor
  · rintro ⟨hk, hlive, ht⟩
    rw [begun_live (w := w) hk, Bool.not_eq_true'] at hlive
    exact ⟨hk, hlive, ht⟩
  · rintro ⟨hk, hlive, ht⟩
    refine ⟨hk, ?_, ht⟩
    rw [begun_live hk, hlive, Bool.not_false]

/-- `write_end` gives up the page and the handle, whatever the journal answers. -/
lemma EndEnds.balanced {K : Outcomes} {v v' : World} {i from_ to_ done : ℕ} {h : Handle} {r : ℤ}
    (hends : EndEnds K v i h from_ to_ done r v') (href : h.h_ref = 1) :
    (v'.pages i).locked = false ∧ (v'.pages i).count = (v.pages i).count - 1 ∧
      v'.handle = none := by
  have hstop : h.stop = none := by simp [Handle.stop, href]
  cases hends with
  | done hall => simp [finished, journalled, hstop]
  | refused hk hr hall => simp [finished, journalled, hstop]

/-- A round whose page could be had. -/
lemma RoundOk.of_grab (h : RoundOk w a) (hg : a.K.grab = true) :
    w.handle = none ∧ a.K.aborted = false ∧ a.K.journal_start = 0 ∧ a.K.block_write_begin = 0 ∧
      ∀ k < w.blocks.count, (w.ring a.page k).freed = false →
        a.K.journal_get_write_access k = 0 :=
  h.resolve_left fun hno => Bool.false_ne_true (hno.symm.trans hg)

/-- The round after a `write_begin` that was granted all it asked for. -/
lemma granted_balanced (hfree : (w.pages a.page).locked = false) (hh : w.handle = none)
    (hrun : a.begin_ w =
      (some 0, accessed a.K (begun w a.page) a.page (newHandle w) w.blocks.count)) :
    Balanced w a := by
  obtain ⟨hlocked, hc, hring, h', hh', hid, href⟩ :=
    accessed_begun (w := w) a.K a.page w.blocks.count
  refine ⟨fun r v h hr => ?_, fun v h => ?_, ?_⟩
  · cases hrun.symm.trans h
    exact absurd rfl hr
  · cases hrun.symm.trans h
    exact ⟨hlocked, hring, h', hh', hid.ge, by rw [hid]; exact Nat.lt_succ_self _⟩
  · obtain ⟨r', v', hround, hends'⟩ := writeRound_ends a.data hrun hh' hring
    obtain ⟨hlocked, hc', hnone⟩ := hends'.balanced href
    refine ⟨r', v', hround, hlocked.trans hfree.symm, ?_, ?_⟩
    · refine hc'.trans ?_
      rw [(zeroed_page _ _ _).2.1, store_page]
      change ((accessed a.K (begun w a.page) a.page (newHandle w) w.blocks.count).pages
        a.page).count - 1 = _
      rw [hc, Nat.add_sub_cancel]
    · rw [World.task, hnone, World.task, hh]

/-- A `write_begin` that returns 0 and leaves a handle has found it, or has prepared the whole page
under a new one. -/
lemma begin_with_handle {v : World} {h : Handle} (hbegin : a.begin_ w = (some 0, v))
    (hv : v.handle = some h) : (∃ h₀, w.handle = some h₀) ∧ v = grabbed w a.page ∨
      w.handle = none ∧ v = accessed a.K (begun w a.page) a.page (newHandle w) w.blocks.count := by
  obtain ⟨r₀, v₀, hbegin₀, hends⟩ := write_begin_ends a.K a.pos a.len w
  have hsame := hbegin.symm.trans hbegin₀
  change BeginEnds a.K w a.page r₀ v₀ at hends
  cases hends with
  | noPage hg => cases hsame
  | @nested h₀ hg hh =>
    cases hsame
    exact Or.inl ⟨⟨h₀, hh⟩, rfl⟩
  | noHandle hg hh hfail he =>
    cases hsame
    exact absurd rfl he
  | notPrepared hg hh hb hv₀ hlog₀ =>
    cases hsame
    rw [hv₀] at hv
    cases hv
  | granted hg hh ha hs hb hall =>
    cases hsame
    exact Or.inr ⟨hh, rfl⟩
  | refused hg hh hk hlive hr₀ =>
    have hzero : (0 : ℤ) = _ := Option.some.inj (congrArg Prod.fst hsame)
    exact absurd hzero.symm hr₀

/-- A `write_begin` that gets no handle returns an error, with the page grabbed. -/
lemma begin_no_handle (hgrab : a.K.grab = true) (hnone : w.handle = none)
    (hfail : a.K.aborted = true ∨ a.K.journal_start ≠ 0) :
    ∃ e ≠ 0, a.begin_ w = (some e, grabbed w a.page) := by
  have hnone' : (grabbed w a.page).handle = none := hnone
  simp only [Round.begin_, example_journalled_write_begin]
  rw [Exec.bind_run_some (grab_run hgrab)]
  simp only [Bool.not_true, Bool.false_eq_true, if_false, Exec.withState_run]
  rw [if_neg (by change ¬ (grabbed w a.page).handle.isSome = true; simp [hnone'])]
  by_cases haborted : a.K.aborted = true
  · rw [if_pos haborted]
    exact ⟨_, by decide, rfl⟩
  · have hstart := hfail.resolve_left haborted
    rw [if_neg haborted, journal_start, if_pos hstart, Exec.pure_bind, if_pos hstart]
    exact ⟨_, hstart, rfl⟩

/-- A round is balanced exactly when it meets no failure behind the lock of its page. -/
lemma balanced_iff_ok (hfree : (w.pages a.page).locked = false) :
    Balanced w a ↔ RoundOk w a := by
  obtain ⟨r, v, hrun, hends⟩ := write_begin_ends a.K a.pos a.len w
  change BeginEnds a.K w a.page r v at hends
  have hcount : (grabbed w a.page).pages a.page =
      { w.pages a.page with locked := true, count := (w.pages a.page).count + 1 } :=
    World.pages_setPage w _ _
  cases hends with
  | noPage hg =>
    refine ⟨fun _ => Or.inl hg, fun _ => ⟨fun r' v' h _ => ?_, fun v' h => ?_, ?_⟩⟩
    · cases hrun.symm.trans h
      exact ⟨rfl, rfl, rfl⟩
    · cases hrun.symm.trans h
    · refine ⟨-ENOMEM, w, ?_, rfl, rfl, rfl⟩
      rw [Round.run, writeRound, Exec.bind_run_some hrun, if_pos (by decide), Exec.pure_run]
  | @nested h hg hh =>
    constructor
    · intro hbal
      obtain ⟨-, -, h', -, hle, hlt⟩ := hbal.begin_ok _ hrun
      exact absurd hlt (Nat.not_lt.mpr hle)
    · intro hok
      rw [(hok.of_grab hg).1] at hh
      cases hh
  | noHandle hg hh hfail he =>
    constructor
    · intro hbal
      obtain ⟨-, hc, -⟩ := hbal.begin_error _ _ hrun he
      rw [hcount] at hc
      exact absurd hc (Nat.succ_ne_self _)
    · intro hok
      obtain ⟨-, ha, hs, -⟩ := hok.of_grab hg
      rcases hfail with hfail | hfail
      · rw [ha] at hfail
        cases hfail
      · exact absurd hs hfail
  | notPrepared hg hh hb hv hlog =>
    constructor
    · intro hbal
      obtain ⟨-, -, h', hsome, -⟩ := hbal.begin_ok _ hrun
      rw [hv] at hsome
      cases hsome
    · intro hok
      exact absurd (hok.of_grab hg).2.2.2.1 hb
  | granted hg hh ha hs hb hall =>
    exact ⟨fun _ => Or.inr ⟨hh, ha, hs, hb, hall⟩, fun _ => granted_balanced hfree hh hrun⟩
  | refused hg hh hk hlive hr =>
    constructor
    · intro hbal
      obtain ⟨-, hc, -⟩ := hbal.begin_error _ _ hrun hr
      rw [(accessed_begun a.K a.page _).2.1] at hc
      exact absurd hc (Nat.succ_ne_self _)
    · intro hok
      exact absurd ((hok.of_grab hg).2.2.2.2 _ hk hlive) hr

end

/-! ### Runs -/

/-- What is left of a task after a run of an operation: nothing if it crashed. -/
def survivor : Option ℤ × World → Option World
  | (some _, w) => some w
  | (none, _) => none

/-- A task that writes, round after round. The page of a round is not locked when it is
grabbed: `grab_cache_page_write_begin` waits for the lock. -/
def rounds : System (Option World) Round where
  step s a t := ∃ w, s = some w ∧ (w.pages a.page).locked = false ∧ t = survivor (a.run w)

/-- Along every run of rounds: all rounds are balanced if and only if none meets a failure
behind the lock of its page. -/
theorem rounds_balanced_iff (w : World) (tr : List (Round × Option World))
    (hrun : rounds.Run (some w) tr) :
    System.Along (fun s a => ∀ w, s = some w → Balanced w a) (some w) tr ↔
      System.Along (fun s a => ∀ w, s = some w → RoundOk w a) (some w) tr := by
  refine hrun.along_congr ?_
  rintro s a t ⟨w, rfl, hfree, -⟩
  constructor
  · rintro h v hv
    cases hv
    exact (balanced_iff_ok hfree).mp (h _ rfl)
  · rintro h v hv
    cases hv
    exact (balanced_iff_ok hfree).mpr (h _ rfl)

/-- A file with one block in each page, nothing of it in memory. -/
def World.cold : World where
  blocks := ⟨1, 4096, rfl⟩
  pages _ := ⟨false, 1, false, false, false, none, fun _ => 0⟩
  disk _ := 0
  i_size := 0
  handle := none
  started := 0
  log := []

/-- No function of the kernel fails. -/
def Outcomes.fine : Outcomes where
  grab := true
  aborted := false
  journal_start := 0
  block_write_begin := 0
  prepared := 0
  journal_get_write_access _ := 0
  journal_dirty_metadata _ := 0
  journal_stop := 0
  block_write_full_page := 0
  dirty_nonpos _ := le_rfl
  stop_nonpos := le_rfl

/-- A round that returns leaves the task to go on. -/
lemma survivor_of_isSome {r : Option ℤ × World} (h : r.1.isSome) : survivor r = some r.2 := by
  obtain ⟨ret, w⟩ := r
  cases ret with
  | some z => rfl
  | none => cases h

lemma roundOk_fine {w : World} {pos len : ℕ} {data : List UInt8} (h : w.handle = none) :
    RoundOk w ⟨Outcomes.fine, pos, len, data⟩ :=
  Or.inr ⟨h, rfl, rfl, rfl, fun _ _ _ => rfl⟩

/-- A write to the first page, a round in which no page can be had, and a write to the second page
leave everything balanced. -/
theorem rounds_balanced_iff_fine :
    ∃ tr, rounds.Run (some World.cold) tr ∧
      tr.map Prod.fst = [⟨Outcomes.fine, 0, 2, [7, 8]⟩,
        ⟨{ Outcomes.fine with grab := false }, 5, 1, [9]⟩, ⟨Outcomes.fine, 4096, 1, [5]⟩] ∧
      System.Along (fun s a => ∀ w, s = some w → Balanced w a) (some World.cold) tr := by
  let a : Round := ⟨Outcomes.fine, 0, 2, [7, 8]⟩
  let b : Round := ⟨{ Outcomes.fine with grab := false }, 5, 1, [9]⟩
  let c : Round := ⟨Outcomes.fine, 4096, 1, [5]⟩
  let v := (a.run World.cold).2
  let w := (b.run v).2
  have hv : survivor (a.run World.cold) = some v := survivor_of_isSome (by decide +kernel)
  have hw : survivor (b.run v) = some w := survivor_of_isSome (by decide +kernel)
  have hrun : rounds.Run (some World.cold)
      [(a, some v), (b, some w), (c, survivor (c.run w))] :=
    .cons ⟨_, rfl, rfl, hv.symm⟩ (.cons ⟨_, rfl, by decide +kernel, hw.symm⟩
      (.cons ⟨_, rfl, by decide +kernel, rfl⟩ (.nil _)))
  refine ⟨_, hrun, rfl, (rounds_balanced_iff World.cold _ hrun).mpr ⟨?_, ?_, ?_, trivial⟩⟩
  · rintro _ ⟨⟩
    exact roundOk_fine rfl
  · rintro _ ⟨⟩
    exact Or.inl rfl
  · rintro _ ⟨⟩
    exact roundOk_fine (Option.isNone_iff_eq_none.mp (by decide +kernel))

/-- A write on an aborted journal is not: `write_begin` returns `-EROFS` with its page locked
and referenced. -/
theorem rounds_unbalanced :
    let a : Round := ⟨{ Outcomes.fine with aborted := true }, 0, 1, [7]⟩
    rounds.Run (some World.cold) [(a, survivor (a.run World.cold))] ∧
      ¬ System.Along (fun s a => ∀ w, s = some w → Balanced w a) (some World.cold)
        [(a, survivor (a.run World.cold))] := by
  intro a
  refine ⟨.cons ⟨_, rfl, rfl, rfl⟩ (.nil _), fun h => ?_⟩
  rcases (balanced_iff_ok rfl).mp (h.1 _ rfl) with hgrab | ⟨-, haborted, -⟩
  · cases hgrab
  · cases haborted

end QuickDevSkeleton.Journal
