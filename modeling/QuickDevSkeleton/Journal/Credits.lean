import Mathlib.Data.List.Dedup
import Mathlib.Data.List.Perm.Subperm
import QuickDevSkeleton.Journal.Recorder
import QuickDevSkeleton.Mount.Failures

/-!
# Transaction credits

A handle is started with a number of credits, and every buffer that is handed to the journal under
it uses up one. `fs/journal` starts its handles with four credits and `fs/jbd2` with one; the walks
of the two are the same. Whether the credits of every handle cover the buffers handed over under
it, over all runs of the operations.
-/

namespace QuickDevSkeleton.Journal

open Foundations

namespace Recorder

variable {ρ : Type} (R : Recorder ρ)

/-- `example_journalled_write_begin`, with a record beside it. -/
def write_begin (K : Outcomes) (pos _len : ℕ) : Exec (World × ρ) ℤ := do
  let index := pos / PAGE_CACHE_SIZE
  let page ← Exec.beside (grab_cache_page_write_begin K index)
  if !page then pure (-ENOMEM)
  else Exec.withState fun s =>
    if s.1.handle.isSome then pure 0
    else if K.aborted then pure (-EROFS)
    else do
      let err ← R.journal_start K
      if err ≠ 0 then pure err
      else do
        let ret ← Exec.beside (block_write_begin K index 0 PAGE_CACHE_SIZE)
        if ret ≠ 0 then do
          let _ ← Exec.beside (journal_stop K)
          pure 0
        else do
          let (ret, _) ← Exec.beside
            (walkPage index 0 PAGE_CACHE_SIZE none (do_journal_get_write_access K index))
          pure ret

/-- A round of a write, with a record beside it. -/
def writeRound (K : Outcomes) (pos len : ℕ) (data : List UInt8) : Exec (World × ρ) ℤ := do
  let ret ← R.write_begin K pos len
  if ret ≠ 0 then pure ret
  else do
    Exec.beside (Exec.modify fun w => w.store (pos / PAGE_CACHE_SIZE) (pos % PAGE_CACHE_SIZE) data)
    Exec.beside (example_journalled_write_end K pos len data.length)

variable {R}

lemma write_begin_records (K : Outcomes) (pos len : ℕ) :
    Exec.Records (R.write_begin K pos len) (example_journalled_write_begin K pos len) := by
  refine .bind (.beside _) fun page => .ite (.pure _) (.withState fun s => .ite (.pure _) ?_)
  refine .ite (.pure _) (.bind (journal_start_records K) fun err => .ite (.pure _) ?_)
  refine .bind (.beside _) fun ret => .ite (.bind (.beside _) fun _ => .pure _) ?_
  exact .bind (.beside _) fun r => .pure _

lemma writeRound_records (K : Outcomes) (pos len : ℕ) (data : List UInt8) :
    Exec.Records (R.writeRound K pos len data) (Journal.writeRound K pos len data) :=
  .bind (write_begin_records K pos len) fun _ =>
    .ite (.pure _) (.bind (.beside _) fun _ => .beside _)

variable {K : Outcomes} {w : World} {c : ρ}

/-- `write_begin` starts a handle. -/
def Starts (K : Outcomes) (w : World) : Prop :=
  K.grab = true ∧ w.handle = none ∧ K.aborted = false ∧ K.journal_start = 0

instance (K : Outcomes) (w : World) : Decidable (Starts K w) :=
  inferInstanceAs (Decidable (_ ∧ _ ∧ _ ∧ _))

/-- What `write_begin` writes down. -/
lemma write_begin_record (pos len : ℕ) :
    (R.write_begin K pos len (w, c)).2.2 = if Starts K w then R.start w.started c else c := by
  simp only [write_begin]
  generalize pos / PAGE_CACHE_SIZE = i
  by_cases hg : K.grab = true
  · rw [Exec.bind_run_some (Exec.beside_run c (grab_run hg))]
    simp only [Bool.not_true, Bool.false_eq_true, if_false, Exec.withState_run]
    by_cases hh : w.handle = none
    · have hh' : (grabbed w i).handle = none := hh
      rw [if_neg (by simp [hh'])]
      by_cases ha : K.aborted = true
      · rw [if_pos ha, if_neg (by simp [Starts, ha])]
        rfl
      · rw [if_neg ha]
        by_cases hs : K.journal_start = 0
        · rw [if_pos ⟨hg, hh, Bool.eq_false_of_not_eq_true ha, hs⟩,
            Exec.bind_run_some (journal_start_run hs hh'), if_neg (by simp)]
          refine Exec.Keeps.bind (I := fun s : World × ρ => s.2 = R.start w.started c)
            (Exec.beside_keeps (· = _) _) (fun ret => .ite ?_ ?_) _ rfl
          · exact .bind (Exec.beside_keeps (· = _) _) fun _ => .pure _
          · exact .bind (Exec.beside_keeps (· = _) _) fun _ => .pure _
        · rw [if_neg fun h => hs h.2.2.2, Exec.bind_run_some (journal_start_fails hs), if_pos hs]
          rfl
    · have hsome : (grabbed w i).handle.isSome = true := Option.isSome_iff_ne_none.mpr hh
      rw [if_pos hsome, if_neg fun h => hh h.2.1]
      rfl
  · have hgrab : grab_cache_page_write_begin K i w = (some false, w) := by
      rw [grab_cache_page_write_begin, if_neg hg]
      rfl
    rw [Exec.bind_run_some (Exec.beside_run c hgrab), if_pos (by simp), if_neg fun h => hg h.1]
    rfl

lemma writeRound_record (pos len : ℕ) (data : List UInt8) :
    (R.writeRound K pos len data (w, c)).2.2 = if Starts K w then R.start w.started c else c := by
  rw [writeRound, ← write_begin_record (R := R) (c := c) pos len]
  rcases hrun : R.write_begin K pos len (w, c) with ⟨_ | r, v, c'⟩
  · rw [Exec.bind_run_none hrun]
  · rw [Exec.bind_run_some hrun]
    refine Exec.Keeps.ite (I := fun s : World × ρ => s.2 = c') (.pure _) ?_ (v, c') rfl
    exact .bind (Exec.beside_keeps (· = c') _) fun _ => Exec.beside_keeps (· = c') _

end Recorder

/-! ### Credits -/

/-- The credits that handles were started with. -/
abbrev Credits := ℕ → Option ℕ

/-- What `journal_start(example_journal, nblocks)` writes down. -/
def Credits.recorder (nblocks : ℕ) : Recorder Credits :=
  ⟨fun id c => Function.update c id (some nblocks), id, id⟩

lemma Credits.update_eq_some {c : Credits} {h h' n m : ℕ}
    (hm : Function.update c h (some n) h' = some m) : h' = h ∧ n = m ∨ h' ≠ h ∧ c h' = some m := by
  by_cases hh : h' = h
  · rw [hh, Function.update_self] at hm
    exact Or.inl ⟨hh, Option.some.inj hm⟩
  · rw [Function.update_of_ne hh] at hm
    exact Or.inr ⟨hh, hm⟩

/-- How many buffers were handed over under handle `h`, each counted once. -/
def spent (log : List Dirtied) (h : ℕ) : ℕ :=
  ((log.filter fun e => e.handle = h).map fun e => (e.page, e.buffer)).dedup.length

lemma spent_append_of_ne {log l : List Dirtied} {h : ℕ} (hl : ∀ e ∈ l, e.handle ≠ h) :
    spent (log ++ l) h = spent log h := by
  have hnone : l.filter (fun e => e.handle = h) = [] :=
    List.filter_eq_nil_iff.mpr fun e he => by simpa using hl e he
  rw [spent, List.filter_append, hnone, List.append_nil, spent]

lemma spent_append_of_new {log l : List Dirtied} {h : ℕ} (hlog : ∀ e ∈ log, e.handle ≠ h) :
    spent (log ++ l) h = spent l h := by
  have hnone : log.filter (fun e => e.handle = h) = [] :=
    List.filter_eq_nil_iff.mpr fun e he => by simpa using hlog e he
  rw [spent, List.filter_append, hnone, List.nil_append, spent]

lemma spent_eq_zero {log : List Dirtied} {h : ℕ} (hlog : ∀ e ∈ log, e.handle ≠ h) :
    spent log h = 0 := by
  have hnil := spent_append_of_new (l := []) hlog
  rwa [List.append_nil] at hnil

lemma spent_handed (h i : ℕ) (g : ℕ → Bool) (l : List ℕ) :
    spent (l.map fun k => ⟨h, i, k, g k⟩) h = l.dedup.length := by
  have hall : (l.map fun k => (⟨h, i, k, g k⟩ : Dirtied)).filter (fun e => e.handle = h) =
      l.map fun k => ⟨h, i, k, g k⟩ :=
    List.filter_eq_self.mpr fun e he => by
      obtain ⟨k, -, rfl⟩ := List.mem_map.mp he
      simp
  have hinj : Function.Injective fun k : ℕ => (i, k) := fun k k' hk => (Prod.mk.inj hk).2
  rw [spent, hall, List.map_map]
  change ((l.map fun k => (i, k)).dedup).length = _
  rw [List.dedup_map_of_injective hinj, List.length_map]

/-- What a call does to the handles of its task and to their credits: from `w` and `c` to `v` and
`c'`. It works on no handle, opens one and hands nothing over under it, or hands at most `n` buffers
over under the current handle or a new one, and stops it. -/
inductive Spends (n : ℕ) (w : World) (c : Credits) : Bool → World → Credits → Prop where
  | idle {returned : Bool} {v : World} (hlog : v.log = w.log)
      (hkept : returned → v.blocks = w.blocks ∧ v.started = w.started ∧ v.handle = w.handle) :
      Spends n w c returned v c
  | opened {returned : Bool} {v : World} (hnone : w.handle = none) (hlog : v.log = w.log)
      (hkept : returned → v.blocks = w.blocks ∧ v.started = w.started + 1 ∧
        ∀ h, v.handle = some h → h.id = w.started ∧ h.h_ref = 1) :
      Spends n w c returned v (Function.update c w.started (some n))
  | current {h : Handle} {v : World} {i : ℕ} {g : ℕ → Bool} {l : List ℕ} (hh : w.handle = some h)
      (hlog : v.log = w.log ++ l.map fun k => ⟨h.id, i, k, g k⟩) (hl : l.length ≤ n)
      (hkept : v.blocks = w.blocks ∧ v.started = w.started ∧ v.handle = h.stop) :
      Spends n w c true v c
  | fresh {v : World} {i : ℕ} {g : ℕ → Bool} {l : List ℕ} (hnone : w.handle = none)
      (hlog : v.log = w.log ++ l.map fun k => ⟨w.started, i, k, g k⟩) (hl : l.length ≤ n)
      (hkept : v.blocks = w.blocks ∧ v.started = w.started + 1 ∧ v.handle = none) :
      Spends n w c true v (Function.update c w.started (some n))

/-! ### Rounds of a write -/

section

variable {K : Outcomes} {w v v' : World} {c : Credits} {i : ℕ} {h : Handle} {n : ℕ}

lemma zeroed_started (from_ len copied : ℕ) :
    (zeroed w i from_ len copied).started = w.started := by
  rw [zeroed]
  split
  · simp only [page_zero_new_buffers]
    split <;> rfl
  · rfl

lemma reached_length (from_ to_ m : ℕ) : (reached w i from_ to_ m).length ≤ m :=
  (List.length_filter_le _ _).trans_eq List.length_range

/-- `write_end` hands over no more buffers than the page has, and stops its handle. -/
lemma EndEnds.spends {from_ to_ done : ℕ} {r : ℤ} (hends : EndEnds K v i h from_ to_ done r v') :
    ∃ l : List ℕ, v'.log = v.log ++ l.map (fun k => ⟨h.id, i, k, h.granted i k⟩) ∧
      l.length ≤ v.blocks.count ∧ v'.blocks = v.blocks ∧ v'.started = v.started ∧
      v'.handle = h.stop := by
  cases hends with
  | done hall => exact ⟨_, rfl, reached_length _ _ _, rfl, rfl, rfl⟩
  | refused hk hr hall =>
    exact ⟨_, rfl, (reached_length _ _ _).trans (mem_reached.mp hk).1, rfl, rfl, rfl⟩

/-- After a `write_begin` that returned 0 in `v`, a round hands over what `write_end` gets to, or
crashes. -/
lemma writeRound_spends {pos len : ℕ} (data : List UInt8)
    (hbegin : example_journalled_write_begin K pos len w = (some 0, v)) (hh : v.handle = some h) :
    (∃ u, writeRound K pos len data w = (none, u) ∧ u.log = v.log) ∨
      ∃ (r : ℤ) (u : World) (l : List ℕ), writeRound K pos len data w = (some r, u) ∧
        u.log = v.log ++ l.map (fun k => ⟨h.id, pos / PAGE_CACHE_SIZE, k,
          h.granted (pos / PAGE_CACHE_SIZE) k⟩) ∧
        l.length ≤ v.blocks.count ∧ u.blocks = v.blocks ∧ u.started = v.started ∧
        u.handle = h.stop := by
  by_cases hring : (v.pages (pos / PAGE_CACHE_SIZE)).buffers.isSome
  · obtain ⟨r, u, hrun, hends⟩ := writeRound_ends data hbegin hh hring
    obtain ⟨l, hlog, hl, hblocks, hstarted, hstop⟩ := hends.spends
    rw [(zeroed_frame _ _ _).2.2] at hlog
    rw [(zeroed_frame _ _ _).1] at hl hblocks
    rw [zeroed_started] at hstarted
    exact Or.inr ⟨r, u, l, hrun, hlog, hl, hblocks, hstarted, hstop⟩
  · exact Or.inl (writeRound_crash data hbegin (Or.inr (Bool.eq_false_of_not_eq_true hring)))

/-- A round as a whole. -/
lemma Round.spends (a : Round) (hn : w.blocks.count ≤ n) :
    Spends n w c (a.run w).1.isSome (a.run w).2
      (if Recorder.Starts a.K w then Function.update c w.started (some n) else c) := by
  obtain ⟨r, v, hrun, hends⟩ := write_begin_ends a.K a.pos a.len w
  change BeginEnds a.K w a.page r v at hends
  have herror : ∀ {e u}, example_journalled_write_begin a.K a.pos a.len w = (some e, u) → e ≠ 0 →
      a.run w = (some e, u) := by
    intro e u hbegin he
    rw [Round.run, writeRound, Exec.bind_run_some hbegin, if_pos he]
    rfl
  by_cases hs : Recorder.Starts a.K w
  · rw [if_pos hs]
    cases hends with
    | noPage hg => exact absurd (hg.symm.trans hs.1) Bool.false_ne_true
    | nested hg hh => cases hh.symm.trans hs.2.1
    | noHandle hg hh hfail he =>
      rcases hfail with hfail | hfail
      · cases hfail.symm.trans hs.2.2.1
      · exact absurd hs.2.2.2 hfail
    | notPrepared hg hh hb hv hlog =>
      obtain ⟨u, hcrash, hlog'⟩ := writeRound_crash a.data hrun (Or.inl hv)
      rw [Round.run, hcrash]
      exact .opened hh (hlog'.trans hlog) fun hret => by cases hret
    | granted hg hh ha hs' hb hall =>
      rcases writeRound_spends a.data hrun rfl with
        ⟨u, hcrash, hlog⟩ | ⟨r, u, l, hround, hlog, hl, hkept⟩
      · rw [Round.run, hcrash]
        exact .opened hh hlog fun hret => by cases hret
      · rw [Round.run, hround]
        exact .fresh hh hlog (hl.trans hn) hkept
    | refused hg hh hk hlive hr =>
      rw [herror hrun hr]
      refine .opened hh rfl fun _ => ⟨rfl, rfl, fun h hh' => ?_⟩
      cases hh'
      exact ⟨rfl, rfl⟩
  · rw [if_neg hs]
    have hnone : a.K.grab = true → w.handle = none →
        Spends n w c (a.run w).1.isSome (a.run w).2 c := by
      intro hg hh
      have hfail : a.K.aborted = true ∨ a.K.journal_start ≠ 0 := by
        by_contra hno
        rw [not_or, Bool.not_eq_true, not_not] at hno
        exact hs ⟨hg, hh, hno⟩
      obtain ⟨e, he, hbegin⟩ := begin_no_handle hg hh hfail
      rw [herror hbegin he]
      exact .idle rfl fun _ => ⟨rfl, rfl, rfl⟩
    cases hends with
    | noPage hg =>
      rw [herror hrun (by decide)]
      exact .idle rfl fun _ => ⟨rfl, rfl, rfl⟩
    | @nested h hg hh =>
      rcases writeRound_spends a.data hrun hh with
        ⟨u, hcrash, hlog⟩ | ⟨r, u, l, hround, hlog, hl, hkept⟩
      · rw [Round.run, hcrash]
        exact .idle hlog fun hret => by cases hret
      · rw [Round.run, hround]
        exact .current hh hlog (hl.trans hn) hkept
    | noHandle hg hh => exact hnone hg hh
    | notPrepared hg hh => exact hnone hg hh
    | granted hg hh => exact hnone hg hh
    | refused hg hh => exact hnone hg hh

/-! ### `writepage` -/

/-- A second buffer that is not freed stands behind one that the journal refuses, so that
`writepage` hands over one at most. -/
def OneBuffer (K : Outcomes) (w : World) (i : ℕ) : Prop :=
  Journals K w i → ∀ k < w.blocks.count, ∀ j < k, (w.ring i j).freed = false →
    (w.ring i k).freed = false →
      ∃ l < k, (w.ring i l).freed = false ∧ K.journal_dirty_metadata l ≠ 0

/-- The buffers that `writepage` hands over are those that are not freed and that no refusal
precedes. -/
structure Hands (K : Outcomes) (w : World) (i : ℕ) (l : List ℕ) : Prop where
  nodup : l.Nodup
  mem_iff : ∀ k, k ∈ l ↔ k < w.blocks.count ∧ (w.ring i k).freed = false ∧
    ∀ j < k, (w.ring i j).freed = false → K.journal_dirty_metadata j = 0

lemma Hands.length_le {l : List ℕ} (hl : Hands K w i l) : l.length ≤ w.blocks.count := by
  have hsub : l ⊆ List.range w.blocks.count := fun k hk =>
    List.mem_range.mpr ((hl.mem_iff k).mp hk).1
  exact (List.subperm_of_subset hl.nodup hsub).length_le.trans_eq List.length_range

/-- Two buffers are handed over exactly where a second one is reached. -/
lemma Hands.length_le_one_iff {l : List ℕ} (hl : Hands K w i l) (hj : Journals K w i) :
    l.length ≤ 1 ↔ OneBuffer K w i := by
  constructor
  · intro hone _ k hk j hjk hjfreed hkfreed
    by_contra hno
    push Not at hno
    have hk' : k ∈ l := (hl.mem_iff k).mpr ⟨hk, hkfreed, hno⟩
    have hj' : j ∈ l := (hl.mem_iff j).mpr ⟨by omega, hjfreed, fun m hm => hno m (by omega)⟩
    have hpair : [j, k].length ≤ l.length := by
      refine (List.subperm_of_subset ?_ ?_).length_le
      · simp [hjk.ne]
      · simp [hj', hk']
    exact absurd (hpair.trans hone) (by simp)
  · intro hone
    have heq : ∀ j ∈ l, ∀ k ∈ l, ¬ j < k := by
      intro j hj' k hk' hjk
      obtain ⟨hk, hkfreed, hbefore⟩ := (hl.mem_iff k).mp hk'
      obtain ⟨m, hm, hmfreed, hr⟩ := hone hj k hk j hjk ((hl.mem_iff j).mp hj').2.1 hkfreed
      exact hr (hbefore m hm hmfreed)
    have hnodup := hl.nodup
    match l, heq, hnodup with
    | [], _, _ => exact Nat.zero_le 1
    | [_], _, _ => exact le_rfl
    | j :: k :: t, heq, hnodup =>
      have hne : j ≠ k := by
        rintro rfl
        simp at hnodup
      rcases Nat.lt_or_gt_of_ne hne with hlt | hlt
      · exact absurd hlt (heq j (by simp) k (by simp))
      · exact absurd hlt (heq k (by simp) j (by simp))

/-- A call of `writepage` that gets to its walks. -/
lemma writepage_hands (hj : Journals K w i) :
    ∃ (r : ℤ) (v : World) (l : List ℕ) (g : ℕ → Bool), (Credits.recorder n).writepage K i (w, c) =
        (some r, v, Function.update c w.started (some n)) ∧
      v.log = w.log ++ l.map (fun k => ⟨w.started, i, k, g k⟩) ∧ Hands K w i l ∧
      v.blocks = w.blocks ∧ v.started = w.started + 1 ∧ v.handle = none := by
  obtain ⟨m, r, p, haccess, hring, -⟩ := access_walk_opened K w i
  obtain ⟨m', r', p', hjournal, hreached⟩ :=
    journal_walk_reached (K := K) 0 PAGE_CACHE_SIZE none hring rfl
  refine ⟨_, _, _, _, Recorder.writepage_run hj haccess hjournal rfl rfl, rfl, ⟨?_, fun k => ?_⟩,
    rfl, rfl, rfl⟩
  · exact List.nodup_range.filter _
  · rw [hreached]
    constructor
    · rintro ⟨hk, hbefore⟩
      obtain ⟨hk, hfreed⟩ := mem_reached_opened.mp hk
      exact ⟨hk, hfreed, fun j hjk hjfreed =>
        hbefore j (mem_reached_opened.mpr ⟨Nat.lt_trans hjk hk, hjfreed⟩) hjk⟩
    · rintro ⟨hk, hfreed, hbefore⟩
      exact ⟨mem_reached_opened.mpr ⟨hk, hfreed⟩,
        fun j hj hjk => hbefore j hjk (mem_reached_opened.mp hj).2⟩

lemma writepage_spends (hn : Journals K w i → ∀ l, Hands K w i l → l.length ≤ n) :
    Spends n w c ((Credits.recorder n).writepage K i (w, c)).1.isSome
      ((Credits.recorder n).writepage K i (w, c)).2.1
      ((Credits.recorder n).writepage K i (w, c)).2.2 := by
  by_cases hj : Journals K w i
  · obtain ⟨r, v, l, g, hrun, hlog, hl, hblocks, hstarted, hhandle⟩ :=
      writepage_hands (n := n) (c := c) hj
    rw [hrun]
    exact .fresh hj.2.1 hlog (hn hj l hl) ⟨hblocks, hstarted, hhandle⟩
  · by_cases hfull : (w.pages i).buffers.isSome ∧ (w.pages i).checked = false
    · rw [Recorder.writepage_full hfull]
      exact .idle rfl fun _ => ⟨rfl, rfl, rfl⟩
    · obtain ⟨r, v, c', hrun, hlog, hhandle, ⟨rfl, rfl⟩ | ⟨hnone, rfl, hblocks, hstarted⟩⟩ :=
        Recorder.writepage_short (R := Credits.recorder n) (c := c) hfull hj
      · rw [hrun]
        exact .idle rfl fun _ => ⟨rfl, rfl, rfl⟩
      · rw [hrun]
        refine .opened hnone hlog fun _ => ⟨hblocks, hstarted, fun h hh => ?_⟩
        rw [hhandle, hnone] at hh
        cases hh

end

/-! ### Runs -/

/-- A task that works on the file; it is dead once it has crashed. -/
structure Task where
  world : World
  credits : Credits
  alive : Bool

/-- What happens to a file: a page is written back, a task writes to it, or the kernel does
something else with its pages and its device, which hands nothing to the journal. The `write_begin`
and `write_end` of `fs/jbd2` are of the last kind. -/
inductive FileCall where
  | writepage (K : Outcomes) (i : ℕ)
  | write (a : Round)
  | elsewhere (pages : ℕ → Page) (disk : Memory UInt8) (i_size : ℕ)

/-- `example_journalled_writepage` of `fs/journal`, which starts a handle with four credits. -/
def journalWritepage (K : Outcomes) (i : ℕ) : Exec (World × Credits) ℤ :=
  (Credits.recorder 4).writepage K i

/-- `example_journalled_writepage` of `fs/jbd2`, which starts a handle with one credit. Its text is
the same but for that number. -/
def jbd2Writepage (K : Outcomes) (i : ℕ) : Exec (World × Credits) ℤ :=
  (Credits.recorder 1).writepage K i

/-- A round of a write in `fs/journal`; `write_begin` starts a handle with four credits. -/
def journalWrite (a : Round) : Exec (World × Credits) ℤ :=
  (Credits.recorder 4).writeRound a.K a.pos a.len a.data

def elsewhere (pages : ℕ → Page) (disk : Memory UInt8) (i_size : ℕ) :
    Exec (World × Credits) ℤ := do
  Exec.modify fun s => ({ s.1 with pages := pages, disk := disk, i_size := i_size }, s.2)
  pure 0

/-- The task after a call. -/
def Task.after (s : Task) (x : Exec (World × Credits) ℤ) : Task :=
  ⟨(x (s.world, s.credits)).2.1, (x (s.world, s.credits)).2.2, (x (s.world, s.credits)).1.isSome⟩

/-- The file of `fs/journal`. -/
def journalFile : System Task FileCall where
  step s a t := s.alive ∧ t = s.after (match a with
    | .writepage K i => journalWritepage K i
    | .write a => journalWrite a
    | .elsewhere pages disk i_size => elsewhere pages disk i_size)

/-- The file of `fs/jbd2`, where only `writepage` works on the journal. -/
def jbd2File : System Task FileCall where
  step s a t := s.alive ∧ (match a with
    | .writepage K i => t = s.after (jbd2Writepage K i)
    | .write _ => False
    | .elsewhere pages disk i_size => t = s.after (elsewhere pages disk i_size))

namespace Task

/-- No more buffers were handed over under a handle than it was started with credits. -/
def Suffice (s : Task) : Prop :=
  ∀ h n, s.credits h = some n → spent s.world.log h ≤ n

/-- A file with blocks of the size that `example_fill_super` has set for its superblock; nothing has
been handed to the journal yet. -/
structure Opened (s : Task) : Prop where
  blocksize : ∃ K d m m' sb, Mount.example_fill_super K d m = (some 0, m') ∧
    m'.supers d = some sb ∧ s.world.blocks.size = sb.s_blocksize
  log : s.world.log = []
  handle : ∀ h, s.world.handle = some h → h.id < s.world.started
  credits : ∀ h, s.credits h = none

/-- What holds of a task that starts its handles with `n` credits: the credits suffice, handles are
numbered in turn, and nothing was handed over under a handle that is still open and whose credits
are known. -/
structure Sound (n : ℕ) (s : Task) : Prop where
  suffice : s.Suffice
  numbered : s.alive → (∀ e ∈ s.world.log, e.handle < s.world.started) ∧
    ∀ h, s.world.handle = some h → h.id < s.world.started
  unspent : s.alive → ∀ h m, s.world.handle = some h → s.credits h.id = some m →
    m = n ∧ h.h_ref = 1 ∧ ∀ e ∈ s.world.log, e.handle ≠ h.id
  count : s.alive → s.world.blocks.count = 4

variable {s : Task} {n : ℕ}

lemma Opened.sound (h : s.Opened) : s.Sound n where
  suffice id m hm := by
    rw [h.credits] at hm
    cases hm
  numbered _ := by
    rw [h.log]
    exact ⟨fun e he => absurd he List.not_mem_nil, h.handle⟩
  unspent _ id m _ hm := by
    rw [h.credits] at hm
    cases hm
  count _ := by
    obtain ⟨K, d, m, m', sb, hfill, hsb, hsize⟩ := h.blocksize
    have hcovers := s.world.blocks.covers
    rw [hsize, Mount.fill_super_blocksize hfill hsb] at hcovers
    change s.world.blocks.count * 1024 = 4096 at hcovers
    omega

/-- A call that spends no more than the credits keeps the account. -/
lemma Sound.spends (h : s.Sound n) (halive : s.alive) {returned : Bool} {v : World} {c' : Credits}
    (hcall : Spends n s.world s.credits returned v c') : (Task.mk v c' returned).Sound n := by
  obtain ⟨hids, hid⟩ := h.numbered halive
  have hunspent := h.unspent halive
  have hcount := h.count halive
  -- no entry of the log belongs to a handle that is not started yet
  have hnew : ∀ e ∈ s.world.log, e.handle ≠ s.world.started := fun e he => (hids e he).ne
  cases hcall with
  | idle hlog hkept =>
    refine ⟨?_, fun hret => ?_, fun hret => ?_, fun hret => ?_⟩
    · simpa only [Suffice, hlog] using h.suffice
    · obtain ⟨-, hstarted, hhandle⟩ := hkept hret
      simpa only [hlog, hstarted, hhandle] using h.numbered halive
    · obtain ⟨-, -, hhandle⟩ := hkept hret
      simpa only [hlog, hhandle] using hunspent
    · simpa only [(hkept hret).1] using hcount
  | opened hnone hlog hkept =>
    refine ⟨fun id m hm => ?_, fun hret => ?_, fun hret h' m hh' hm => ?_, fun hret => ?_⟩
    · rw [hlog]
      rcases Credits.update_eq_some hm with ⟨rfl, -⟩ | ⟨-, hm⟩
      · rw [spent_eq_zero hnew]
        exact Nat.zero_le m
      · exact h.suffice id m hm
    · obtain ⟨-, hstarted, hopen⟩ := hkept hret
      rw [hlog, hstarted]
      exact ⟨fun e he => (hids e he).trans (Nat.lt_succ_self _),
        fun h' hh' => (hopen h' hh').1.trans_lt (Nat.lt_succ_self _)⟩
    · obtain ⟨hid', href⟩ := (hkept hret).2.2 h' hh'
      rw [hlog, hid']
      rcases Credits.update_eq_some hm with ⟨-, rfl⟩ | ⟨hne, -⟩
      · exact ⟨rfl, href, hnew⟩
      · exact absurd hid' hne
    · simpa only [(hkept hret).1] using hcount
  | @current h₀ v i g l hh hlog hl hkept =>
    obtain ⟨hblocks, hstarted, hstop⟩ := hkept
    refine ⟨fun id m hm => ?_, fun _ => ⟨?_, ?_⟩, fun _ h' m hh' hm => ?_, fun _ => ?_⟩
    · rw [hlog]
      by_cases hid' : id = h₀.id
      · subst hid'
        obtain ⟨rfl, -, hnone⟩ := hunspent h₀ m hh hm
        rw [spent_append_of_new hnone, spent_handed]
        exact (List.dedup_sublist l).length_le.trans hl
      · rw [spent_append_of_ne fun e he => ?_]
        · exact h.suffice id m hm
        · obtain ⟨k, -, rfl⟩ := List.mem_map.mp he
          exact fun heq => hid' heq.symm
    · rw [hlog, hstarted]
      intro e he
      rcases List.mem_append.mp he with he | he
      · exact hids e he
      · obtain ⟨k, -, rfl⟩ := List.mem_map.mp he
        exact hid h₀ hh
    · intro h' hh'
      rw [hstop, Handle.stop] at hh'
      split_ifs at hh' with href
      cases hh'
      exact (hid h₀ hh).trans_eq hstarted.symm
    · -- a handle whose credits are known is not open twice
      rw [hstop, Handle.stop] at hh'
      split_ifs at hh' with href
      cases hh'
      have hone := (hunspent h₀ m hh hm).2.1
      omega
    · exact hcount.symm ▸ congrArg BlockSize.count hblocks
  | @fresh v i g l hnone hlog hl hkept =>
    obtain ⟨hblocks, hstarted, hhandle⟩ := hkept
    refine ⟨fun id m hm => ?_, fun _ => ⟨?_, ?_⟩, fun _ h' m hh' hm => ?_, fun _ => ?_⟩
    · rw [hlog]
      rcases Credits.update_eq_some hm with ⟨rfl, rfl⟩ | ⟨hne, hm⟩
      · rw [spent_append_of_new hnew, spent_handed]
        exact (List.dedup_sublist l).length_le.trans hl
      · rw [spent_append_of_ne fun e he => ?_]
        · exact h.suffice id m hm
        · obtain ⟨k, -, rfl⟩ := List.mem_map.mp he
          exact hne.symm
    · rw [hlog, hstarted]
      intro e he
      rcases List.mem_append.mp he with he | he
      · exact (hids e he).trans (Nat.lt_succ_self _)
      · obtain ⟨k, -, rfl⟩ := List.mem_map.mp he
        exact Nat.lt_succ_self _
    · intro h' hh'
      cases hhandle.symm.trans hh'
    · cases hhandle.symm.trans hh'
    · exact hcount.symm ▸ congrArg BlockSize.count hblocks

lemma elsewhere_sound (h : s.Sound n) (halive : s.alive) (pages : ℕ → Page) (disk : Memory UInt8)
    (i_size : ℕ) : (s.after (elsewhere pages disk i_size)).Sound n :=
  h.spends halive (.idle rfl fun _ => ⟨rfl, rfl, rfl⟩)

/-- Every call of `fs/journal` keeps the account. -/
lemma journal_step {a : FileCall} {t : Task} (h : s.Sound 4) (hstep : journalFile.step s a t) :
    t.Sound 4 := by
  obtain ⟨halive, rfl⟩ := hstep
  have hle : s.world.blocks.count ≤ 4 := (h.count halive).le
  cases a with
  | writepage K i =>
    exact h.spends halive (writepage_spends fun _ l hl => hl.length_le.trans hle)
  | write a =>
    have hcall := a.spends (c := s.credits) hle
    obtain ⟨hres, hworld⟩ := Recorder.writeRound_records (R := Credits.recorder 4) a.K a.pos a.len
      a.data (s.world, s.credits)
    have hrecord := Recorder.writeRound_record (R := Credits.recorder 4) (K := a.K) (w := s.world)
      (c := s.credits) a.pos a.len a.data
    change Spends 4 s.world s.credits (writeRound a.K a.pos a.len a.data s.world).1.isSome
      (writeRound a.K a.pos a.len a.data s.world).2
      (if Recorder.Starts a.K s.world then (Credits.recorder 4).start s.world.started s.credits
        else s.credits) at hcall
    rw [← hrecord, ← hres, ← hworld] at hcall
    exact h.spends halive hcall
  | elsewhere pages disk i_size => exact elsewhere_sound h halive pages disk i_size

/-- One credit is enough for a `writepage` that hands over one buffer. -/
def Jbd2Ok (s : Task) : FileCall → Prop
  | .writepage K i => OneBuffer K s.world i
  | _ => True

lemma jbd2_step {a : FileCall} {t : Task} (h : s.Sound 1) (hok : s.Jbd2Ok a)
    (hstep : jbd2File.step s a t) : t.Sound 1 := by
  obtain ⟨halive, hstep⟩ := hstep
  cases a with
  | writepage K i =>
    rw [hstep]
    exact h.spends halive (writepage_spends fun hj l hl => (hl.length_le_one_iff hj).mpr hok)
  | write a => exact hstep.elim
  | elsewhere pages disk i_size =>
    rw [hstep]
    exact elsewhere_sound h halive pages disk i_size

/-- A `writepage` that hands over more overdraws its handle. -/
lemma jbd2_overdrawn {a : FileCall} {t : Task} (h : s.Sound 1) (hno : ¬ s.Jbd2Ok a)
    (hstep : jbd2File.step s a t) : ¬ t.Suffice := by
  obtain ⟨halive, hstep⟩ := hstep
  cases a with
  | writepage K i =>
    have hj : Journals K s.world i := by
      by_contra hj
      exact hno fun hj' => absurd hj' hj
    obtain ⟨r, v, l, g, hrun, hlog, hl, -⟩ := writepage_hands (n := 1) (c := s.credits) hj
    have hnew : ∀ e ∈ s.world.log, e.handle ≠ s.world.started :=
      fun e he => ((h.numbered halive).1 e he).ne
    intro hsuffice
    rw [hstep, after, jbd2Writepage, hrun] at hsuffice
    have hone := hsuffice s.world.started 1 (Function.update_self _ _ _)
    rw [hlog, spent_append_of_new hnew, spent_handed, List.dedup_eq_self.mpr hl.nodup] at hone
    exact hno ((hl.length_le_one_iff hj).mp hone)
  | write a => exact hstep.elim
  | elsewhere pages disk i_size => exact absurd trivial hno

end Task

/-- Over every run of the two filesystems, from any state of the file and its pages: in `fs/journal`
the credits of every handle suffice; in `fs/jbd2` they suffice if and only if no `writepage` gets to
a second buffer. -/
theorem credits_suffice_iff (s : Task) (hs : s.Opened) :
    (∀ tr, journalFile.Run s tr → System.Always Task.Suffice s tr) ∧
      ∀ tr, jbd2File.Run s tr →
        (System.Always Task.Suffice s tr ↔ System.Along Task.Jbd2Ok s tr) := by
  refine ⟨fun tr hrun => ?_, fun tr hrun => ?_⟩
  · exact (hrun.always (fun s a t => Task.journal_step) hs.sound).mono fun s h => h.suffice
  · exact hrun.always_iff_along (fun s h => h.suffice) (fun s a t => Task.jbd2_step)
      (fun s a t => Task.jbd2_overdrawn) hs.sound

lemma four_cover : 4 * 1024 = PAGE_CACHE_SIZE := rfl

/-- A file on a filesystem just mounted, nothing of it in memory. -/
def Task.mounted : Task :=
  ⟨{ World.cold with blocks := ⟨4, 1024, four_cover⟩ }, fun _ => none, true⟩

lemma Task.mounted_opened : Task.mounted.Opened where
  blocksize := ⟨Mount.Outcomes.fine, 0,
    { Mount.World.init with supers := fun _ => some ⟨0, false, 1⟩ }, _, ⟨1024, true, 1⟩,
    Exec.run_eq rfl, rfl, rfl⟩
  log := rfl
  handle _ hh := nomatch hh
  credits _ := rfl

/-- In `fs/journal` a page of four buffers is written back. -/
theorem credits_suffice_iff_four :
    System.Always Task.Suffice Task.mounted
      [(FileCall.writepage Outcomes.fine 0,
        Task.mounted.after (journalWritepage Outcomes.fine 0))] :=
  (credits_suffice_iff Task.mounted Task.mounted_opened).1 _ (.cons ⟨rfl, rfl⟩ (.nil _))

/-- In `fs/jbd2` the same page takes four buffers out of one credit. -/
theorem credits_overdrawn :
    let t := Task.mounted.after (jbd2Writepage Outcomes.fine 0)
    jbd2File.Run Task.mounted [(FileCall.writepage Outcomes.fine 0, t)] ∧ t.credits 0 = some 1 ∧
      spent t.world.log 0 = 4 ∧
      ¬ System.Always Task.Suffice Task.mounted [(FileCall.writepage Outcomes.fine 0, t)] := by
  intro t
  have hcredits : t.credits 0 = some 1 := by decide +kernel
  have hspent : spent t.world.log 0 = 4 := by decide +kernel
  refine ⟨.cons ⟨rfl, rfl⟩ (.nil _), hcredits, hspent, fun hall => ?_⟩
  have hle := hall.last 0 1 hcredits
  change spent t.world.log 0 ≤ 1 at hle
  omega

end QuickDevSkeleton.Journal
