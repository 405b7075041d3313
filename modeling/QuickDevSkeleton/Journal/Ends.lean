import QuickDevSkeleton.Journal.Walks

/-!
# How the journalled operations end

Every way in which `example_journalled_write_begin` and `example_journalled_write_end` can end,
with the value returned and the world they leave.
-/

namespace QuickDevSkeleton.Journal

open Foundations

/-! ### `write_begin` -/

section

variable (w : World) (i : ℕ)

/-- Page `i` as `grab_cache_page_write_begin` hands it out. -/
def grabbed : World :=
  w.setPage i { w.pages i with locked := true, count := (w.pages i).count + 1 }

/-- The handle that `journal_start` gives to a task without one. -/
def newHandle : Handle :=
  ⟨w.started, 1, fun _ _ => false⟩

/-- The buffers of page `i`, created if there were none. -/
def created : ℕ → BufferHead :=
  (create_page_buffers i w).ring i

/-- The buffers of page `i` after a successful `__block_write_begin` for the whole page. -/
def preparedRing (k : ℕ) : BufferHead :=
  if k < w.blocks.count then
    { (created w i k).map with
      uptodate := (created w i k).map.uptodate || (w.pages i).uptodate }
  else created w i k

def prepared : World :=
  w.setRing i (preparedRing w i)

/-- World `w` after a successful `journal_start` of a task without a handle. -/
def World.start : World :=
  { w with handle := some (newHandle w), started := w.started + 1 }

/-- The world in which `write_begin` starts to ask for write access. -/
def begun : World :=
  prepared (grabbed w i).start i

variable {w i}

/-- A write to the whole page reads nothing. -/
lemma readsBuffer_page {k : ℕ} (hk : k < w.blocks.count) :
    readsBuffer w i 0 PAGE_CACHE_SIZE k = false := by
  have hle : (k + 1) * w.blocks.size ≤ PAGE_CACHE_SIZE := by
    rw [← w.blocks.covers]
    exact Nat.mul_le_mul_right _ hk
  simp [readsBuffer, Nat.not_lt.mpr hle]

lemma prepareBuffers_page :
    prepareBuffers i 0 PAGE_CACHE_SIZE w.blocks.count (create_page_buffers i w) = prepared w i := by
  have hblocks : (create_page_buffers i w).blocks = w.blocks := by
    rw [create_page_buffers]
    split <;> rfl
  have hpage : ∀ bhs, (create_page_buffers i w).setPage i
      { (create_page_buffers i w).pages i with buffers := some bhs } = w.setRing i bhs := by
    intro bhs
    rw [create_page_buffers]
    split
    · rfl
    · exact World.setRing_setRing w i _ bhs
  have hup : ((create_page_buffers i w).pages i).uptodate = (w.pages i).uptodate := by
    rw [create_page_buffers]
    split
    · rfl
    · simp [World.setRing]
  have hread : ∀ k, k < w.blocks.count →
      readsBuffer (create_page_buffers i w) i 0 PAGE_CACHE_SIZE k = false := by
    intro k hk
    rw [← hblocks] at hk
    exact readsBuffer_page hk
  rw [prepared, ← hpage, prepareBuffers]
  congr 2
  · congr 1
    funext k
    simp only [preparedRing, hblocks, hup, created]
    split_ifs with hk ht
    · rw [hread k hk, Bool.or_false]
    · exact absurd (w.blocks.touches_page hk) ht
    · rfl
  · funext x
    by_cases hx : x / w.blocks.size < w.blocks.count
    · simp [hblocks, hread _ hx]
    · simp [hblocks, hx]

lemma map_fields (bh : BufferHead) :
    bh.map.mapped = true ∧ bh.map.freed = bh.freed ∧ bh.map.dirty = bh.dirty ∧
      bh.map.uptodate = bh.uptodate ∧ bh.map.new = false := by
  rw [BufferHead.map]
  split_ifs with h
  · exact ⟨h, rfl, rfl, rfl, rfl⟩
  · exact ⟨rfl, rfl, rfl, rfl, rfl⟩

lemma created_freed (k : ℕ) : (created w i k).freed = (w.ring i k).freed := by
  rw [created, create_page_buffers]
  cases h : (w.pages i).buffers with
  | none => simp [World.ring, h, World.setRing]
  | some bhs => rfl

/-- After `__block_write_begin` for the whole page a buffer is live unless it is freed. -/
lemma preparedRing_live {k : ℕ} (hk : k < w.blocks.count) :
    (preparedRing w i k).live = !(w.ring i k).freed := by
  obtain ⟨hmapped, hfreed, -⟩ := map_fields (created w i k)
  rw [preparedRing, if_pos hk]
  simp only [BufferHead.live, hmapped, hfreed, created_freed, Bool.true_and]

lemma preparedRing_not_new {k : ℕ} (hk : k < w.blocks.count) :
    (preparedRing w i k).new = false := by
  rw [preparedRing, if_pos hk]
  exact (map_fields _).2.2.2.2

variable {K : Outcomes}

lemma grab_run (hg : K.grab = true) :
    grab_cache_page_write_begin K i w = (some true, grabbed w i) := by
  rw [grab_cache_page_write_begin, if_pos hg]
  rfl

lemma journal_start_run (hs : K.journal_start = 0) (hh : w.handle = none) :
    journal_start K w = (some 0, w.start) := by
  rw [journal_start, if_neg (not_not.mpr hs), Exec.modify_bind]
  simp only [hh]
  rfl

lemma journal_stop_run {h : Handle} (hh : w.handle = some h) :
    journal_stop K w = (some K.journal_stop,
      { w with handle := if h.h_ref > 1 then some { h with h_ref := h.h_ref - 1 } else none }) := by
  simp only [journal_stop, Exec.withState_run, hh]
  rfl

lemma block_write_begin_run (hb : K.block_write_begin = 0) :
    block_write_begin K i 0 PAGE_CACHE_SIZE w = (some 0, prepared w i) := by
  rw [block_write_begin, Exec.modify_bind, if_neg (not_not.mpr hb), Exec.modify_bind,
    Exec.pure_run, Nat.zero_add, ← prepareBuffers_page]
  have hblocks : (create_page_buffers i w).blocks = w.blocks := by
    rw [create_page_buffers]
    split <;> rfl
  rw [hblocks]

lemma create_page_buffers_frame :
    (create_page_buffers i w).blocks = w.blocks ∧ (create_page_buffers i w).handle = w.handle ∧
      (create_page_buffers i w).log = w.log := by
  rw [create_page_buffers]
  split <;> exact ⟨rfl, rfl, rfl⟩

lemma page_zero_new_buffers_frame (from_ to_ : ℕ) :
    (page_zero_new_buffers i from_ to_ w).blocks = w.blocks ∧
      (page_zero_new_buffers i from_ to_ w).handle = w.handle ∧
      (page_zero_new_buffers i from_ to_ w).log = w.log := by
  simp only [page_zero_new_buffers]
  split <;> exact ⟨rfl, rfl, rfl⟩

/-- A failed `__block_write_begin` leaves the handle and the log alone. -/
lemma block_write_begin_fails (hb : K.block_write_begin ≠ 0) :
    ∃ v, block_write_begin K i 0 PAGE_CACHE_SIZE w = (some K.block_write_begin, v) ∧
      v.handle = w.handle ∧ v.log = w.log := by
  rw [block_write_begin, Exec.modify_bind, if_pos hb, Exec.modify_bind]
  obtain ⟨-, hhandle, hlog⟩ := create_page_buffers_frame (w := w) (i := i)
  refine ⟨_, rfl, ?_, ?_⟩
  · rw [(page_zero_new_buffers_frame _ _).2.1]
    exact hhandle
  · rw [(page_zero_new_buffers_frame _ _).2.2]
    exact hlog

/-- `__block_write_begin` cuts no page anew, starts no handle and does not change the size. -/
lemma block_write_begin_keeps {n m : ℕ} {b : BlockSize} (from_ len : ℕ) :
    Exec.Keeps (fun v : World => v.blocks = b ∧ v.started = n ∧ v.i_size = m)
      (block_write_begin K i from_ len) := by
  have hcreate : Exec.Keeps (fun v : World => v.blocks = b ∧ v.started = n ∧ v.i_size = m)
      (Exec.modify (create_page_buffers i)) := by
    refine .modify fun v hv => ?_
    rw [create_page_buffers]
    split
    · exact hv
    · exact hv
  refine .bind hcreate fun _ => .ite (.bind (.modify fun v hv => ?_) fun _ => .pure _)
    (.bind (.modify fun v hv => hv) fun _ => .pure _)
  simp only [page_zero_new_buffers]
  split
  · exact hv
  · exact hv

lemma begun_live {k : ℕ} (hk : k < w.blocks.count) :
    ((begun w i).ring i k).live = !(w.ring i k).freed := by
  have hring : ∀ j, (grabbed w i).start.ring i j = w.ring i j := by
    intro j
    simp [World.ring, World.start, grabbed, World.setPage]
  rw [begun, prepared, World.ring_setRing, preparedRing_live (w := (grabbed w i).start) hk, hring]

end

/-- How `write_begin` can end on page `i`: with which value and in which world. -/
inductive BeginEnds (K : Outcomes) (w : World) (i : ℕ) : ℤ → World → Prop where
  | noPage (hg : K.grab = false) : BeginEnds K w i (-ENOMEM) w
  | nested {h : Handle} (hg : K.grab = true) (hh : w.handle = some h) :
      BeginEnds K w i 0 (grabbed w i)
  | noHandle {e : ℤ} (hg : K.grab = true) (hh : w.handle = none)
      (hfail : K.aborted = true ∨ K.journal_start ≠ 0) (he : e ≠ 0) :
      BeginEnds K w i e (grabbed w i)
  | notPrepared {v : World} (hg : K.grab = true) (hh : w.handle = none)
      (hb : K.block_write_begin ≠ 0) (hv : v.handle = none) (hlog : v.log = w.log) :
      BeginEnds K w i 0 v
  | granted (hg : K.grab = true) (hh : w.handle = none) (ha : K.aborted = false)
      (hs : K.journal_start = 0) (hb : K.block_write_begin = 0)
      (hall : ∀ k < w.blocks.count, (w.ring i k).freed = false → K.journal_get_write_access k = 0) :
      BeginEnds K w i 0 (accessed K (begun w i) i (newHandle w) w.blocks.count)
  | refused {k : ℕ} (hg : K.grab = true) (hh : w.handle = none) (hk : k < w.blocks.count)
      (hlive : (w.ring i k).freed = false) (hr : K.journal_get_write_access k ≠ 0) :
      BeginEnds K w i (K.journal_get_write_access k)
        (accessed K (begun w i) i (newHandle w) (k + 1))

lemma write_begin_ends (K : Outcomes) (pos len : ℕ) (w : World) :
    ∃ r w', example_journalled_write_begin K pos len w = (some r, w') ∧
      BeginEnds K w (pos / PAGE_CACHE_SIZE) r w' := by
  simp only [example_journalled_write_begin]
  generalize pos / PAGE_CACHE_SIZE = i
  by_cases hg : K.grab = true
  · rw [Exec.bind_run_some (grab_run hg)]
    simp only [Bool.not_true, Bool.false_eq_true, if_false, Exec.withState_run]
    cases hh : w.handle with
    | some h =>
      refine ⟨0, _, ?_, .nested hg hh⟩
      rw [if_pos (by simp [grabbed, World.setPage, hh])]
      rfl
    | none =>
      have hgh : (grabbed w i).handle = none := hh
      rw [if_neg (by simp [hgh])]
      split_ifs with ha
      · exact ⟨_, _, rfl, .noHandle hg hh (Or.inl ha) (by decide)⟩
      · by_cases hs : K.journal_start = 0
        · rw [Exec.bind_run_some (journal_start_run hs hgh), if_neg (by simp)]
          by_cases hb : K.block_write_begin = 0
          · rw [Exec.bind_run_some (block_write_begin_run hb), if_neg (by simp)]
            have hring : ((begun w i).pages i).buffers.isSome := by
              simp [begun, prepared, World.setRing]
            have hlive : ∀ k < w.blocks.count, ((begun w i).ring i k).live = true ↔
                (w.ring i k).freed = false := by
              intro k hk
              rw [begun_live hk, Bool.not_eq_true']
            have ha' : K.aborted = false := Bool.eq_false_of_not_eq_true ha
            rcases access_walk (K := K) (h := newHandle w) hring rfl with
              ⟨p, hrun, hall⟩ | ⟨k, hk, hk', hr, -, p, hrun⟩
            · refine ⟨_, _, Exec.bind_run_some hrun, .granted hg hh ha' hs hb fun k hk hfreed => ?_⟩
              exact hall k hk ((hlive k hk).mpr hfreed)
            · exact ⟨_, _, Exec.bind_run_some hrun, .refused hg hh hk ((hlive k hk).mp hk') hr⟩
          · obtain ⟨v, hrun, hhandle, hlog⟩ := block_write_begin_fails (w := (grabbed w i).start)
              (i := i) hb
            have hv : v.handle = some (newHandle w) := hhandle
            rw [Exec.bind_run_some hrun, if_pos hb, Exec.bind_run_some (journal_stop_run hv)]
            exact ⟨_, _, rfl, .notPrepared hg hh hb rfl hlog⟩
        · rw [journal_start, if_pos hs, Exec.pure_bind, if_pos hs]
          exact ⟨_, _, rfl, .noHandle hg hh (Or.inr hs) hs⟩
  · have hg' : K.grab = false := Bool.eq_false_of_not_eq_true hg
    refine ⟨_, _, ?_, .noPage hg'⟩
    rw [grab_cache_page_write_begin, if_neg hg]
    rfl

/-! ### `write_end` -/

section

variable (w : World) (i : ℕ)

/-- What `journal_stop` leaves of the task's handle. -/
def Handle.stop (h : Handle) : Option Handle :=
  if h.h_ref > 1 then some { h with h_ref := h.h_ref - 1 } else none

/-- World `w` once `write_end` has zeroed what a short copy left of the new buffers. -/
def zeroed (from_ len copied : ℕ) : World :=
  if copied < len then
    page_zero_new_buffers i (from_ + copiedTo (w.pages i) len copied) (from_ + len) w
  else w

/-- World `w` after the last steps of `write_end`, which stop the handle `h` and give up the
page. -/
def finished (h : Handle) (uptodate : Bool) (i_size : ℕ) : World :=
  { w.setPage i { w.pages i with
      uptodate := uptodate, locked := false, count := (w.pages i).count - 1 } with
    i_size := i_size, handle := h.stop }

end

/-- How `write_end` can end on page `i`, for a task with the handle `h`: the walk from `v` on
reached all buffers of the range, or the journal refused one. -/
inductive EndEnds (K : Outcomes) (v : World) (i : ℕ) (h : Handle) (from_ to_ done : ℕ) :
    ℤ → World → Prop where
  | done {u : Bool} {size : ℕ}
      (hall : ∀ k ∈ reached v i from_ to_ v.blocks.count, K.journal_dirty_metadata k = 0) :
      EndEnds K v i h from_ to_ done (if K.journal_stop ≠ 0 then K.journal_stop else done)
        (finished (journalled v i h from_ to_ v.blocks.count) i h u size)
  | refused {u : Bool} {size k : ℕ} (hk : k ∈ reached v i from_ to_ v.blocks.count)
      (hr : K.journal_dirty_metadata k ≠ 0)
      (hall : ∀ j ∈ reached v i from_ to_ v.blocks.count, j < k → K.journal_dirty_metadata j = 0) :
      EndEnds K v i h from_ to_ done (K.journal_dirty_metadata k)
        (finished (journalled v i h from_ to_ (k + 1)) i h u size)

section

variable {w : World} {i : ℕ} {h : Handle} {K : Outcomes}

lemma zeroed_frame (from_ len copied : ℕ) :
    (zeroed w i from_ len copied).blocks = w.blocks ∧
      (zeroed w i from_ len copied).handle = w.handle ∧
      (zeroed w i from_ len copied).log = w.log := by
  rw [zeroed]
  split
  · exact page_zero_new_buffers_frame _ _
  · exact ⟨rfl, rfl, rfl⟩

lemma zeroed_page (from_ len copied : ℕ) :
    ((zeroed w i from_ len copied).pages i).locked = (w.pages i).locked ∧
      ((zeroed w i from_ len copied).pages i).count = (w.pages i).count ∧
      ((zeroed w i from_ len copied).pages i).uptodate = (w.pages i).uptodate := by
  rw [zeroed]
  split
  · simp only [page_zero_new_buffers]
    split
    · exact ⟨rfl, rfl, rfl⟩
    · rw [World.pages_setPage]
      exact ⟨rfl, rfl, rfl⟩
  · exact ⟨rfl, rfl, rfl⟩

lemma zeroed_buffers (from_ len copied : ℕ) :
    ((zeroed w i from_ len copied).pages i).buffers.isSome = (w.pages i).buffers.isSome := by
  rw [zeroed]
  split
  · simp only [page_zero_new_buffers]
    split
    · rfl
    · rename_i bhs hbhs
      rw [World.pages_setPage, hbhs]
      rfl
  · rfl

lemma zeroed_live (from_ len copied k : ℕ) :
    ((zeroed w i from_ len copied).ring i k).live = (w.ring i k).live := by
  rw [zeroed]
  split
  · simp only [page_zero_new_buffers]
    split
    · rfl
    · rename_i bhs hbhs
      simp only [World.ring, World.pages_setPage, Option.getD_some, hbhs]
      split <;> rfl
  · rfl

lemma zeroed_dirty {k : ℕ} (from_ len copied : ℕ) (hk : (w.ring i k).dirty) :
    ((zeroed w i from_ len copied).ring i k).dirty := by
  rw [zeroed]
  split
  · simp only [page_zero_new_buffers]
    split
    · exact hk
    · rename_i bhs hbhs
      simp only [World.ring, hbhs, Option.getD_some] at hk
      simp only [World.ring, World.pages_setPage, Option.getD_some, hbhs]
      split
      · rfl
      · exact hk
  · exact hk

/-- Without a new buffer there is nothing to zero. -/
lemma zero_of_not_new {from_ to_ : ℕ} (hnew : ∀ k < w.blocks.count, (w.ring i k).new = false) :
    page_zero_new_buffers i from_ to_ w = w := by
  simp only [page_zero_new_buffers]
  split
  · rfl
  · rename_i bhs hbhs
    have hhit : ∀ k, (decide (k < w.blocks.count) && (w.ring i k).new) = false := by
      intro k
      by_cases hk : k < w.blocks.count
      · rw [hnew k hk, Bool.and_false]
      · rw [decide_eq_false hk, Bool.false_and]
    simp only [hhit, Bool.false_and, Bool.and_false, Bool.false_eq_true, if_false, ← hbhs]
    exact World.setPage_self w i

lemma zeroed_of_not_new (from_ len copied : ℕ)
    (hnew : ∀ k < w.blocks.count, (w.ring i k).new = false) : zeroed w i from_ len copied = w := by
  rw [zeroed]
  split
  · exact zero_of_not_new hnew
  · rfl

lemma begun_not_new {k : ℕ} (hk : k < w.blocks.count) : ((begun w i).ring i k).new = false := by
  rw [begun, prepared, World.ring_setRing]
  exact preparedRing_not_new (w := (grabbed w i).start) hk

/-- The steps of `write_end` after its walk, which ended with `ret` and `partial_`. -/
lemma write_end_tail_run {v : World} (hv : v.handle = some h) (partial_ : Option Bool) (ret : ℤ)
    (size done : ℕ) :
    (do
      Exec.modify fun w =>
        if partial_ = some false then w.setPage i { w.pages i with uptodate := true } else w
      Exec.modify fun w => { w with i_size := max w.i_size size }
      let ret2 ← journal_stop K
      let ret := if ret = 0 then ret2 else ret
      unlock_page i
      page_cache_release i
      pure (if ret ≠ 0 then ret else (done : ℤ)) : Exec World ℤ) v =
        (some (if ret ≠ 0 then ret else if K.journal_stop ≠ 0 then K.journal_stop else done),
          finished v i h (if partial_ = some false then true else (v.pages i).uptodate)
            (max v.i_size size)) := by
  have hret : (if (if ret = 0 then K.journal_stop else ret) ≠ 0 then
        (if ret = 0 then K.journal_stop else ret) else (done : ℤ)) =
      if ret ≠ 0 then ret else if K.journal_stop ≠ 0 then K.journal_stop else done := by
    by_cases h0 : ret = 0
    · rw [if_pos h0, if_neg (not_not.mpr h0)]
    · rw [if_neg h0]
      simp [h0]
  by_cases hp : partial_ = some false
  · rw [Exec.modify_bind, if_pos hp, Exec.modify_bind]
    refine (Exec.bind_run_some (journal_stop_run (h := h) ?_)).trans ?_
    · exact hv
    rw [← hret]
    simp [finished, World.setPage, unlock_page, page_cache_release, Handle.stop, hp]
  · rw [Exec.modify_bind, if_neg hp, Exec.modify_bind]
    refine (Exec.bind_run_some (journal_stop_run (h := h) ?_)).trans ?_
    · exact hv
    rw [← hret]
    simp [finished, World.setPage, unlock_page, page_cache_release, Handle.stop, hp]

/-- The log after `write_end`: every live buffer of the range that no refusal precedes was
handed over. -/
lemma EndEnds.log {v v' : World} {from_ to_ done : ℕ} {r : ℤ}
    (hends : EndEnds K v i h from_ to_ done r v') :
    ∃ l : List ℕ, v'.log = v.log ++ l.map (fun k => ⟨h.id, i, k, h.granted i k⟩) ∧
      ∀ k, k ∈ l ↔ k ∈ reached v i from_ to_ v.blocks.count ∧
        ∀ j ∈ reached v i from_ to_ v.blocks.count, j < k → K.journal_dirty_metadata j = 0 := by
  cases hends with
  | done hall =>
    exact ⟨_, rfl, fun k => ⟨fun hk => ⟨hk, fun j hj _ => hall j hj⟩, fun hk => hk.1⟩⟩
  | refused hk hr hall => exact ⟨_, rfl, mem_reached_stop hk hr hall⟩

lemma write_end_ends (pos len copied : ℕ) (hh : w.handle = some h)
    (hring : (w.pages (pos / PAGE_CACHE_SIZE)).buffers.isSome) :
    ∃ r w', example_journalled_write_end K pos len copied w = (some r, w') ∧
      EndEnds K (zeroed w (pos / PAGE_CACHE_SIZE) (pos % PAGE_CACHE_SIZE) len copied)
        (pos / PAGE_CACHE_SIZE) h (pos % PAGE_CACHE_SIZE)
        (walkEnd (w.pages (pos / PAGE_CACHE_SIZE)) (pos % PAGE_CACHE_SIZE) len copied)
        (copiedTo (w.pages (pos / PAGE_CACHE_SIZE)) len copied) r w' := by
  simp only [example_journalled_write_end, Exec.withState_run]
  generalize pos / PAGE_CACHE_SIZE = i at hring ⊢
  generalize pos % PAGE_CACHE_SIZE = from_
  generalize walkEnd (w.pages i) from_ len copied = to_
  obtain ⟨-, hhandle, -⟩ := zeroed_frame (w := w) (i := i) from_ len copied
  have hring' : ((zeroed w i from_ len copied).pages i).buffers.isSome := by
    rw [zeroed_buffers, hring]
  rw [Exec.modify_bind]
  change ∃ r w', _ = _ ∧ EndEnds K (zeroed w i from_ len copied) i h from_ to_ _ r w'
  rcases journal_walk (K := K) from_ to_ (some false) hring' (hhandle.trans hh) with
    ⟨p, hrun, hall⟩ | ⟨k, hk, hr, hall, p, hrun⟩
  · have htail := write_end_tail_run (K := K) (i := i)
      (World.handle_onPage : (journalled (zeroed w i from_ len copied) i h from_ to_
        (zeroed w i from_ len copied).blocks.count).handle = _)
      p 0 (pos + copiedTo (w.pages i) len copied) (copiedTo (w.pages i) len copied)
    exact ⟨_, _, (Exec.bind_run_some hrun).trans htail, .done hall⟩
  · have htail := write_end_tail_run (K := K) (i := i)
      (World.handle_onPage : (journalled (zeroed w i from_ len copied) i h from_ to_
        (k + 1)).handle = _)
      p (K.journal_dirty_metadata k) (pos + copiedTo (w.pages i) len copied)
      (copiedTo (w.pages i) len copied)
    rw [if_pos hr] at htail
    exact ⟨_, _, (Exec.bind_run_some hrun).trans htail, .refused hk hr hall⟩

lemma journal_stop_null (hh : w.handle = none) : journal_stop K w = (none, w) := by
  simp [journal_stop, hh]

/-- Without a handle `write_end` crashes before it hands anything to the journal. -/
lemma write_end_null (pos len copied : ℕ) (hh : w.handle = none) :
    ∃ v, example_journalled_write_end K pos len copied w = (none, v) ∧ v.log = w.log := by
  have hfn : ∀ j k, Exec.Keeps (fun v : World => v.handle = none ∧ v.log = w.log)
      (write_end_fn K j k) := by
    intro j k v hv
    rw [write_end_fn, withBuffer, Exec.withState_run, if_pos (by simp [hv.1])]
    exact hv
  have hwalk : ∀ j from_ to_ p, Exec.Keeps (fun v : World => v.handle = none ∧ v.log = w.log)
      (walkPage j from_ to_ p (write_end_fn K j)) := fun j from_ to_ p =>
    Exec.Keeps.withState fun v =>
      Exec.Keeps.ite Exec.Keeps.crash (walk_page_buffers_keeps (hfn j) p)
  obtain ⟨-, hhandle, hlog⟩ := zeroed_frame (w := w) (i := pos / PAGE_CACHE_SIZE)
    (pos % PAGE_CACHE_SIZE) len copied
  have hkept := hwalk (pos / PAGE_CACHE_SIZE) (pos % PAGE_CACHE_SIZE)
    (walkEnd (w.pages (pos / PAGE_CACHE_SIZE)) (pos % PAGE_CACHE_SIZE) len copied) (some false) _
    ⟨hhandle.trans hh, hlog⟩
  simp only [example_journalled_write_end, Exec.withState_run]
  rw [Exec.modify_bind, ← zeroed]
  rcases hrun : walkPage (pos / PAGE_CACHE_SIZE) (pos % PAGE_CACHE_SIZE)
    (walkEnd (w.pages (pos / PAGE_CACHE_SIZE)) (pos % PAGE_CACHE_SIZE) len copied) (some false)
    (write_end_fn K (pos / PAGE_CACHE_SIZE))
    (zeroed w (pos / PAGE_CACHE_SIZE) (pos % PAGE_CACHE_SIZE) len copied) with ⟨_ | ⟨ret, p⟩, v⟩
  · rw [hrun] at hkept
    rw [Exec.bind_run_none hrun]
    exact ⟨v, rfl, hkept.2⟩
  · rw [hrun] at hkept
    rw [Exec.bind_run_some hrun, Exec.modify_bind, Exec.modify_bind,
      Exec.bind_run_none (journal_stop_null ?_)]
    · refine ⟨_, rfl, ?_⟩
      show World.log (if _ then _ else _) = _
      split
      · exact hkept.2
      · exact hkept.2
    · show World.handle (if _ then _ else _) = _
      split
      · exact hkept.1
      · exact hkept.1

/-- On a page without buffers `write_end` crashes at once. -/
lemma write_end_no_buffers {pos : ℕ} (len copied : ℕ)
    (hring : (w.pages (pos / PAGE_CACHE_SIZE)).buffers.isSome = false) :
    ∃ v, example_journalled_write_end K pos len copied w = (none, v) ∧ v.log = w.log := by
  obtain ⟨-, -, hlog⟩ := zeroed_frame (w := w) (i := pos / PAGE_CACHE_SIZE)
    (pos % PAGE_CACHE_SIZE) len copied
  have hcrash : ∀ from_ to_ p fn, walkPage (pos / PAGE_CACHE_SIZE) from_ to_ p fn
      (zeroed w (pos / PAGE_CACHE_SIZE) (pos % PAGE_CACHE_SIZE) len copied) = (none,
        zeroed w (pos / PAGE_CACHE_SIZE) (pos % PAGE_CACHE_SIZE) len copied) := by
    intro from_ to_ p fn
    rw [walkPage, Exec.withState_run, if_pos ?_, Exec.crash_run]
    rw [← Option.not_isSome, zeroed_buffers, hring, Bool.not_false]
  simp only [example_journalled_write_end, Exec.withState_run]
  rw [Exec.modify_bind, ← zeroed, Exec.bind_run_none (hcrash _ _ _ _)]
  exact ⟨_, rfl, hlog⟩

/-! ### A round of a write -/

/-- The page after the copy. -/
lemma store_page (v : World) (off : ℕ) (bytes : List UInt8) :
    (v.store i off bytes).pages i =
      { v.pages i with data := (v.pages i).data.write off bytes } :=
  World.pages_setPage v i _

lemma store_ring (v : World) (off : ℕ) (bytes : List UInt8) :
    (v.store i off bytes).ring i = v.ring i := by
  rw [World.ring, store_page, World.ring]

/-- After a `write_begin` that returned `0` in `v`, the round goes on with the copy and
`write_end`. -/
lemma writeRound_ends {pos len : ℕ} (data : List UInt8) {v : World}
    (hbegin : example_journalled_write_begin K pos len w = (some 0, v)) (hh : v.handle = some h)
    (hring : (v.pages (pos / PAGE_CACHE_SIZE)).buffers.isSome) :
    ∃ r w', writeRound K pos len data w = (some r, w') ∧
      EndEnds K
        (zeroed (v.store (pos / PAGE_CACHE_SIZE) (pos % PAGE_CACHE_SIZE) data)
          (pos / PAGE_CACHE_SIZE) (pos % PAGE_CACHE_SIZE) len data.length)
        (pos / PAGE_CACHE_SIZE) h (pos % PAGE_CACHE_SIZE)
        (walkEnd (v.pages (pos / PAGE_CACHE_SIZE)) (pos % PAGE_CACHE_SIZE) len data.length)
        (copiedTo (v.pages (pos / PAGE_CACHE_SIZE)) len data.length) r w' := by
  have hring' : ((v.store (pos / PAGE_CACHE_SIZE) (pos % PAGE_CACHE_SIZE) data).pages
      (pos / PAGE_CACHE_SIZE)).buffers.isSome := by
    rw [store_page]
    exact hring
  obtain ⟨r, w', hend, hends⟩ := write_end_ends (K := K)
    (w := v.store (pos / PAGE_CACHE_SIZE) (pos % PAGE_CACHE_SIZE) data) pos len data.length hh
    hring'
  rw [store_page] at hends
  refine ⟨r, w', ?_, hends⟩
  rw [writeRound, Exec.bind_run_some hbegin, if_neg (not_not.mpr rfl), Exec.modify_bind]
  exact hend

/-- Neither the copy nor the zeroing changes which buffers a walk reaches. -/
lemma reached_copied (v : World) (off len copied from_ to_ m : ℕ) (bytes : List UInt8) :
    reached (zeroed (v.store i off bytes) i off len copied) i from_ to_ m =
      reached v i from_ to_ m := by
  have hblocks : (zeroed (v.store i off bytes) i off len copied).blocks = v.blocks :=
    (zeroed_frame _ _ _).1
  simp only [reached, hblocks, zeroed_live, store_ring]

/-- What a round hands to the journal after a `write_begin` that returned `0` in `v`. -/
lemma writeRound_log {pos len : ℕ} (data : List UInt8) {v : World}
    (hbegin : example_journalled_write_begin K pos len w = (some 0, v)) (hh : v.handle = some h)
    (hring : (v.pages (pos / PAGE_CACHE_SIZE)).buffers.isSome) {R : List ℕ}
    (hR : R = reached v (pos / PAGE_CACHE_SIZE) (pos % PAGE_CACHE_SIZE)
      (walkEnd (v.pages (pos / PAGE_CACHE_SIZE)) (pos % PAGE_CACHE_SIZE) len data.length)
      v.blocks.count) :
    ∃ l : List ℕ, (writeRound K pos len data w).2.log = v.log ++
        l.map (fun k => ⟨h.id, pos / PAGE_CACHE_SIZE, k, h.granted (pos / PAGE_CACHE_SIZE) k⟩) ∧
      ∀ k, k ∈ l ↔ k ∈ R ∧ ∀ j ∈ R, j < k → K.journal_dirty_metadata j = 0 := by
  obtain ⟨r, w', hround, hends⟩ := writeRound_ends data hbegin hh hring
  obtain ⟨l, hlog, hl⟩ := hends.log
  have hblocks : (zeroed (v.store (pos / PAGE_CACHE_SIZE) (pos % PAGE_CACHE_SIZE) data)
      (pos / PAGE_CACHE_SIZE) (pos % PAGE_CACHE_SIZE) len data.length).blocks = v.blocks :=
    (zeroed_frame _ _ _).1
  rw [(zeroed_frame _ _ _).2.2] at hlog
  rw [reached_copied, hblocks, ← hR] at hl
  exact ⟨l, by rw [hround]; exact hlog, hl⟩

/-- After a `write_begin` that returned `0` without a handle, or on a page without buffers,
`write_end` crashes. -/
lemma writeRound_crash {pos len : ℕ} (data : List UInt8) {v : World}
    (hbegin : example_journalled_write_begin K pos len w = (some 0, v))
    (hbad : v.handle = none ∨ (v.pages (pos / PAGE_CACHE_SIZE)).buffers.isSome = false) :
    ∃ u, writeRound K pos len data w = (none, u) ∧ u.log = v.log := by
  rw [writeRound, Exec.bind_run_some hbegin, if_neg (not_not.mpr rfl), Exec.modify_bind]
  rcases hbad with hh | hring
  · exact write_end_null (w := v.store (pos / PAGE_CACHE_SIZE) (pos % PAGE_CACHE_SIZE) data) pos len
      data.length hh
  · refine write_end_no_buffers (w := v.store (pos / PAGE_CACHE_SIZE) (pos % PAGE_CACHE_SIZE) data)
      len data.length ?_
    rw [store_page]
    exact hring

/-- A round that returned has found a page with buffers, and ended in one of the two ways. -/
lemma writeRound_returned {pos len : ℕ} {data : List UInt8} {v w' : World} {r : ℤ}
    (hbegin : example_journalled_write_begin K pos len w = (some 0, v)) (hh : v.handle = some h)
    (hrun : writeRound K pos len data w = (some r, w')) :
    EndEnds K
      (zeroed (v.store (pos / PAGE_CACHE_SIZE) (pos % PAGE_CACHE_SIZE) data)
        (pos / PAGE_CACHE_SIZE) (pos % PAGE_CACHE_SIZE) len data.length)
      (pos / PAGE_CACHE_SIZE) h (pos % PAGE_CACHE_SIZE)
      (walkEnd (v.pages (pos / PAGE_CACHE_SIZE)) (pos % PAGE_CACHE_SIZE) len data.length)
      (copiedTo (v.pages (pos / PAGE_CACHE_SIZE)) len data.length) r w' := by
  have hring : (v.pages (pos / PAGE_CACHE_SIZE)).buffers.isSome := by
    by_contra hring
    obtain ⟨u, hcrash, -⟩ := writeRound_crash data hbegin
      (Or.inr (Bool.eq_false_of_not_eq_true hring))
    rw [hcrash] at hrun
    cases hrun
  obtain ⟨r', v', hround, hends⟩ := writeRound_ends data hbegin hh hring
  cases hround.symm.trans hrun
  exact hends

end

end QuickDevSkeleton.Journal
