import QuickDevSkeleton.Journal.AddressMapping

/-!
# The two walks over the buffers of a page

Each callback and each walk in closed form: the walk that asks for write access to every buffer
and the walk that hands buffers to the journal.
-/

namespace QuickDevSkeleton.Journal

open Foundations

/-- The callbacks work on mapped buffers that are not freed, and pass over all others. -/
def BufferHead.live (bh : BufferHead) : Bool :=
  bh.mapped && !bh.freed

lemma BufferHead.not_freed {bh : BufferHead} (h : bh.live) : bh.freed = false := by
  simp only [live, Bool.and_eq_true, Bool.not_eq_true'] at h
  exact h.2

/-! ### Pages and rings -/

section

variable (w : World) (i k : ℕ) (p q : Page) (bhs bhs' : ℕ → BufferHead)

@[simp] lemma World.pages_setPage : (w.setPage i p).pages i = p :=
  Function.update_self _ _ _

@[simp] lemma World.setPage_setPage : (w.setPage i p).setPage i q = w.setPage i q := by
  simp [World.setPage]

@[simp] lemma World.setPage_self : w.setPage i (w.pages i) = w := by
  simp [World.setPage]

@[simp] lemma World.ring_setRing : (w.setRing i bhs).ring i = bhs := by
  simp [World.ring, World.setRing]

@[simp] lemma World.setRing_setRing : (w.setRing i bhs).setRing i bhs' = w.setRing i bhs' := by
  simp [World.setRing]

lemma World.setRing_ring {w : World} {i : ℕ} (h : (w.pages i).buffers.isSome) :
    w.setRing i (w.ring i) = w := by
  obtain ⟨bhs, hbhs⟩ := Option.isSome_iff_exists.mp h
  have hpage : { w.pages i with buffers := some bhs } = w.pages i := by rw [← hbhs]
  rw [World.setRing, World.ring, hbhs, Option.getD_some, hpage, World.setPage_self]

lemma BlockSize.count_pos (b : BlockSize) : 0 < b.count := by
  have h := b.covers
  rcases Nat.eq_zero_or_pos b.count with h0 | h0
  · rw [h0, Nat.zero_mul] at h
    cases h
  · exact h0

lemma BlockSize.size_pos (b : BlockSize) : 0 < b.size := by
  have h := b.covers
  rcases Nat.eq_zero_or_pos b.size with h0 | h0
  · rw [h0, Nat.mul_zero] at h
    cases h
  · exact h0

/-- The whole page touches all of its buffers. -/
lemma BlockSize.touches_page (b : BlockSize) {k : ℕ} (hk : k < b.count) :
    Touches b.size 0 PAGE_CACHE_SIZE k := by
  have hlt := Nat.mul_lt_mul_of_pos_right hk b.size_pos
  rw [b.covers] at hlt
  exact ⟨Nat.mul_pos (Nat.succ_pos k) b.size_pos, hlt⟩

end

/-! ### The callbacks -/

/-- World `w`, with the ring `bhs` on page `i` and the handle `h`. -/
def World.onPage (w : World) (i : ℕ) (bhs : ℕ → BufferHead) (h : Handle) (log : List Dirtied) :
    World :=
  { w.setRing i bhs with handle := some h, log := log }

section

variable {w : World} {i k : ℕ} {bhs : ℕ → BufferHead} {h : Handle} {log : List Dirtied}
  (K : Outcomes)

lemma World.onPage_self (hring : (w.pages i).buffers.isSome) (hh : w.handle = some h) :
    w.onPage i (w.ring i) h w.log = w := by
  rw [World.onPage, World.setRing_ring hring, ← hh]

@[simp] lemma World.ring_onPage : (w.onPage i bhs h log).ring i = bhs :=
  World.ring_setRing w i bhs

@[simp] lemma World.pages_onPage :
    (w.onPage i bhs h log).pages i = { w.pages i with buffers := some bhs } :=
  World.pages_setPage w i _

@[simp] lemma World.handle_onPage : (w.onPage i bhs h log).handle = some h := rfl

/-- The effect of `do_journal_get_write_access` on a live buffer. -/
def cleaned (bh : BufferHead) : BufferHead :=
  { bh with dirty := false }

/-- The handle after write access to buffer `k` of page `i` was asked for. -/
def Handle.ask (h : Handle) (i k : ℕ) : Handle :=
  { h with
    granted := Function.update h.granted i (Function.update (h.granted i) k
      (decide (K.journal_get_write_access k = 0) || h.granted i k)) }

lemma BufferHead.not_live (bh : BufferHead) : (!bh.mapped || bh.freed) = !bh.live := by
  rw [live, Bool.not_and, Bool.not_not]

lemma withBuffer_dead {body : BufferHead → Exec World ℤ} (hk : (bhs k).live = false) :
    withBuffer i k body (w.onPage i bhs h log) = (some 0, w.onPage i bhs h log) := by
  simp [withBuffer, BufferHead.not_live, hk]

lemma withBuffer_live {body : BufferHead → Exec World ℤ} (hk : (bhs k).live = true) :
    withBuffer i k body (w.onPage i bhs h log) = body (bhs k) (w.onPage i bhs h log) := by
  simp [withBuffer, BufferHead.not_live, hk]

lemma World.setBuffer_onPage (bh : BufferHead) :
    (w.onPage i bhs h log).setBuffer i k bh = w.onPage i (Function.update bhs k bh) h log := by
  simp [World.setBuffer, World.onPage, World.setRing, World.setPage, World.ring]

lemma do_journal_get_write_access_live (hk : (bhs k).live = true) :
    do_journal_get_write_access K i k (w.onPage i bhs h log) =
      (some (K.journal_get_write_access k),
        w.onPage i (Function.update bhs k (cleaned (bhs k))) (h.ask K i k) log) := by
  rw [do_journal_get_write_access, withBuffer_live hk, Exec.modify_bind, World.setBuffer_onPage]
  rfl

lemma write_end_fn_live (hk : (bhs k).live = true) :
    write_end_fn K i k (w.onPage i bhs h log) =
      (some (K.journal_dirty_metadata k),
        w.onPage i (Function.update bhs k { bhs k with uptodate := true }) h
          (log ++ [⟨h.id, i, k, h.granted i k⟩])) := by
  rw [write_end_fn, withBuffer_live hk, Exec.modify_bind, World.setBuffer_onPage]
  rfl

end

/-! ### The walks -/

section

variable (K : Outcomes) (w : World) (i : ℕ) (h : Handle)

/-- The handle after write access to the first `m` buffers of page `i` was asked for. -/
def Handle.askUpTo (bhs : ℕ → BufferHead) (m : ℕ) : Handle :=
  { h with
    granted := Function.update h.granted i
      (upTo (fun k => (bhs k).live)
        (fun k => decide (K.journal_get_write_access k = 0) || h.granted i k) (h.granted i) m) }

/-- The world after the first `m` rounds of the walk that asks for write access. -/
def accessed (m : ℕ) : World :=
  w.onPage i (upTo (fun k => (w.ring i k).live) (fun k => cleaned (w.ring i k)) (w.ring i) m)
    (h.askUpTo K i (w.ring i) m) w.log

/-- The live buffers among the first `m` of page `i` that the range touches. -/
def reached (from_ to_ m : ℕ) : List ℕ :=
  (List.range m).filter fun k =>
    (w.ring i k).live && decide (Touches w.blocks.size from_ to_ k)

/-- The world after the first `m` rounds of the walk that hands buffers to the journal. -/
def journalled (from_ to_ m : ℕ) : World :=
  w.onPage i
    (upTo (fun k => (w.ring i k).live && decide (Touches w.blocks.size from_ to_ k))
      (fun k => { w.ring i k with uptodate := true }) (w.ring i) m)
    h (w.log ++ (reached w i from_ to_ m).map fun k => ⟨h.id, i, k, h.granted i k⟩)

variable {K w i h}

lemma mem_reached {from_ to_ m k : ℕ} :
    k ∈ reached w i from_ to_ m ↔
      k < m ∧ (w.ring i k).live ∧ Touches w.blocks.size from_ to_ k := by
  simp [reached]

lemma accessed_zero (hring : (w.pages i).buffers.isSome) (hh : w.handle = some h) :
    accessed K w i h 0 = w := by
  simp only [accessed, Handle.askUpTo, upTo_zero, Function.update_eq_self]
  exact World.onPage_self hring hh

lemma journalled_zero {from_ to_ : ℕ} (hring : (w.pages i).buffers.isSome)
    (hh : w.handle = some h) : journalled w i h from_ to_ 0 = w := by
  simp only [journalled, reached, upTo_zero, List.range_zero, List.filter_nil, List.map_nil,
    List.append_nil]
  exact World.onPage_self hring hh

/-- One round of the first walk. -/
lemma access_step (k : ℕ) :
    do_journal_get_write_access K i k (accessed K w i h k) =
      (some (if (w.ring i k).live then K.journal_get_write_access k else 0),
        accessed K w i h (k + 1)) := by
  have hk := upTo_of_le (fun k => (w.ring i k).live) (fun k => cleaned (w.ring i k)) (w.ring i)
    (Nat.le_refl k)
  by_cases hlive : (w.ring i k).live = true
  · rw [accessed, do_journal_get_write_access_live K (by rw [hk]; exact hlive), hk, if_pos hlive,
      accessed, Handle.askUpTo, Handle.askUpTo, upTo_succ _ _ _ hlive, upTo_succ _ _ _ hlive]
    simp only [Handle.ask, Function.update_self, Function.update_idem,
      upTo_of_le _ _ _ (Nat.le_refl k)]
  · have hdead : (w.ring i k).live = false := Bool.eq_false_of_not_eq_true hlive
    rw [accessed, do_journal_get_write_access, withBuffer_dead (by rw [hk]; exact hdead),
      if_neg hlive, accessed, Handle.askUpTo, Handle.askUpTo, upTo_succ_of_not _ _ _ hdead,
      upTo_succ_of_not _ _ _ hdead]

/-- One round of the second walk, on a buffer that the range touches. -/
lemma journal_step {from_ to_ k : ℕ} (ht : Touches w.blocks.size from_ to_ k) :
    write_end_fn K i k (journalled w i h from_ to_ k) =
      (some (if (w.ring i k).live then K.journal_dirty_metadata k else 0),
        journalled w i h from_ to_ (k + 1)) := by
  have hk := upTo_of_le (fun k => (w.ring i k).live && decide (Touches w.blocks.size from_ to_ k))
    (fun k => { w.ring i k with uptodate := true }) (w.ring i) (Nat.le_refl k)
  by_cases hlive : (w.ring i k).live = true
  · have hhit : ((w.ring i k).live && decide (Touches w.blocks.size from_ to_ k)) = true := by
      simp [hlive, ht]
    rw [journalled, write_end_fn_live K (by rw [hk]; exact hlive), hk, if_pos hlive, journalled,
      upTo_succ _ _ _ hhit, reached, reached, List.range_succ, List.filter_append]
    simp [hhit]
  · have hdead : (w.ring i k).live = false := Bool.eq_false_of_not_eq_true hlive
    have hhit : ((w.ring i k).live && decide (Touches w.blocks.size from_ to_ k)) = false := by
      rw [hdead, Bool.false_and]
    rw [journalled, write_end_fn, withBuffer_dead (by rw [hk]; exact hdead), if_neg hlive,
      journalled, upTo_succ_of_not _ _ _ hhit, reached, reached, List.range_succ,
      List.filter_append]
    simp [hdead]

lemma journal_skip {from_ to_ k : ℕ} (ht : ¬ Touches w.blocks.size from_ to_ k) :
    journalled w i h from_ to_ (k + 1) = journalled w i h from_ to_ k := by
  have hhit : ((w.ring i k).live && decide (Touches w.blocks.size from_ to_ k)) = false := by
    simp [ht]
  rw [journalled, journalled, upTo_succ_of_not _ _ _ hhit, reached, reached, List.range_succ,
    List.filter_append]
  simp [ht]

lemma World.size_lt (w : World) : w.blocks.count * w.blocks.size < 2 ^ 32 := by
  rw [w.blocks.covers]
  decide

lemma walkPage_eq {from_ to_ : ℕ} {partial_ : Option Bool} {fn : ℕ → Exec World ℤ}
    (hring : (w.pages i).buffers.isSome) :
    walkPage i from_ to_ partial_ fn w =
      walk_page_buffers w.blocks.count w.blocks.size from_ to_ (fun w k => (w.ring i k).uptodate)
        partial_ fn w := by
  rw [walkPage, Exec.withState_run, if_neg (by simpa using Option.isSome_iff_ne_none.mp hring)]

/-- A callback that does not return 0 has got to a live buffer. -/
lemma live_of_ne_zero {bh : BufferHead} {r : ℤ} (hr : (if bh.live then r else 0) ≠ 0) :
    bh.live = true := by
  by_contra hdead
  rw [if_neg hdead] at hr
  exact hr rfl

/-- The first walk: all live buffers are granted, or it stops behind the first that is not. -/
lemma access_walk (hring : (w.pages i).buffers.isSome) (hh : w.handle = some h) :
    (∃ p, walkPage i 0 PAGE_CACHE_SIZE none (do_journal_get_write_access K i) w =
          (some (0, p), accessed K w i h w.blocks.count) ∧
        ∀ k < w.blocks.count, (w.ring i k).live → K.journal_get_write_access k = 0) ∨
      ∃ k < w.blocks.count, (w.ring i k).live ∧ K.journal_get_write_access k ≠ 0 ∧
        (∀ j < k, (w.ring i j).live → K.journal_get_write_access j = 0) ∧
        ∃ p, walkPage i 0 PAGE_CACHE_SIZE none (do_journal_get_write_access K i) w =
          (some (K.journal_get_write_access k, p), accessed K w i h (k + 1)) := by
  have hwalk := walk_page_buffers_run (fun w k => (World.ring w i k).uptodate) w.size_lt
    w.blocks.count_pos w.blocks.size_pos (f := accessed K w i h)
    (fun k _ _ => access_step k) (fun k hk ht => absurd (w.blocks.touches_page hk) ht) none
  rw [accessed_zero hring hh] at hwalk
  rw [walkPage_eq hring]
  rcases hwalk with ⟨p, hrun, hall⟩ | ⟨k, hk, ht, hr, hall, p, hrun⟩
  · refine Or.inl ⟨p, hrun, fun k hk hlive => ?_⟩
    have hk0 := hall k hk (w.blocks.touches_page hk)
    rwa [if_pos hlive] at hk0
  · have hlive := live_of_ne_zero hr
    rw [if_pos hlive] at hr hrun
    refine Or.inr ⟨k, hk, hlive, hr, fun j hj hjlive => ?_, p, hrun⟩
    have hj0 := hall j hj (w.blocks.touches_page (Nat.lt_trans hj hk))
    rwa [if_pos hjlive] at hj0

/-- The second walk: it hands all live buffers that the range touches to the journal, or stops
behind the first that the journal refuses. -/
lemma journal_walk (from_ to_ : ℕ) (partial_ : Option Bool) (hring : (w.pages i).buffers.isSome)
    (hh : w.handle = some h) :
    (∃ p, walkPage i from_ to_ partial_ (write_end_fn K i) w =
          (some (0, p), journalled w i h from_ to_ w.blocks.count) ∧
        ∀ k ∈ reached w i from_ to_ w.blocks.count, K.journal_dirty_metadata k = 0) ∨
      ∃ k ∈ reached w i from_ to_ w.blocks.count, K.journal_dirty_metadata k ≠ 0 ∧
        (∀ j ∈ reached w i from_ to_ w.blocks.count, j < k → K.journal_dirty_metadata j = 0) ∧
        ∃ p, walkPage i from_ to_ partial_ (write_end_fn K i) w =
          (some (K.journal_dirty_metadata k, p), journalled w i h from_ to_ (k + 1)) := by
  have hwalk := walk_page_buffers_run (fun w k => (World.ring w i k).uptodate) w.size_lt
    w.blocks.count_pos w.blocks.size_pos (f := journalled w i h from_ to_)
    (fun k _ ht => journal_step (K := K) ht) (fun k _ ht => journal_skip ht) partial_
  rw [journalled_zero hring hh] at hwalk
  rw [walkPage_eq hring]
  rcases hwalk with ⟨p, hrun, hall⟩ | ⟨k, hk, ht, hr, hall, p, hrun⟩
  · refine Or.inl ⟨p, hrun, fun k hk => ?_⟩
    obtain ⟨hk, hlive, ht⟩ := mem_reached.mp hk
    have hk0 := hall k hk ht
    rwa [if_pos hlive] at hk0
  · have hlive := live_of_ne_zero hr
    rw [if_pos hlive] at hr hrun
    refine Or.inr ⟨k, mem_reached.mpr ⟨hk, hlive, ht⟩, hr, fun j hj hjk => ?_, p, hrun⟩
    obtain ⟨hj, hjlive, htj⟩ := mem_reached.mp hj
    have hj0 := hall j hjk htj
    rwa [if_pos hjlive] at hj0

/-! ### What the walks leave -/

lemma cleaned_live (bh : BufferHead) : (cleaned bh).live = bh.live := rfl

lemma accessed_live {m k : ℕ} : ((accessed K w i h m).ring i k).live = (w.ring i k).live := by
  rw [accessed, World.ring_onPage, upTo]
  split
  · exact cleaned_live _
  · rfl

/-- Where a walk is stopped by a refusal at `k`, it has handed over those buffers of its range
that no refusal precedes. -/
lemma mem_reached_stop {from_ to_ n k : ℕ} (hk : k ∈ reached w i from_ to_ n)
    (hr : K.journal_dirty_metadata k ≠ 0)
    (hall : ∀ j ∈ reached w i from_ to_ n, j < k → K.journal_dirty_metadata j = 0) (l : ℕ) :
    l ∈ reached w i from_ to_ (k + 1) ↔ l ∈ reached w i from_ to_ n ∧
      ∀ j ∈ reached w i from_ to_ n, j < l → K.journal_dirty_metadata j = 0 := by
  obtain ⟨hkn, -⟩ := mem_reached.mp hk
  constructor
  · intro hl
    obtain ⟨hlk, hlive, ht⟩ := mem_reached.mp hl
    have hlk : l ≤ k := Nat.lt_succ_iff.mp hlk
    exact ⟨mem_reached.mpr ⟨Nat.lt_of_le_of_lt hlk hkn, hlive, ht⟩,
      fun j hj hjl => hall j hj (Nat.lt_of_lt_of_le hjl hlk)⟩
  · rintro ⟨hl, hbefore⟩
    obtain ⟨-, hlive, ht⟩ := mem_reached.mp hl
    refine mem_reached.mpr ⟨?_, hlive, ht⟩
    by_contra hlk
    exact hr (hbefore k hk (by omega))

/-- What the second walk hands over: the live buffers of its range that no refusal precedes. -/
lemma journal_walk_reached (from_ to_ : ℕ) (partial_ : Option Bool)
    (hring : (w.pages i).buffers.isSome) (hh : w.handle = some h) :
    ∃ m r p, walkPage i from_ to_ partial_ (write_end_fn K i) w =
        (some (r, p), journalled w i h from_ to_ m) ∧
      ∀ k, k ∈ reached w i from_ to_ m ↔ k ∈ reached w i from_ to_ w.blocks.count ∧
        ∀ j ∈ reached w i from_ to_ w.blocks.count, j < k → K.journal_dirty_metadata j = 0 := by
  rcases journal_walk (K := K) from_ to_ partial_ hring hh with
    ⟨p, hrun, hall⟩ | ⟨k, hk, hr, hall, p, hrun⟩
  · exact ⟨_, _, p, hrun, fun k => ⟨fun hk => ⟨hk, fun j hj _ => hall j hj⟩, fun hk => hk.1⟩⟩
  · exact ⟨_, _, p, hrun, mem_reached_stop hk hr hall⟩

/-- The access to a live buffer that a handle without access gets by asking. -/
lemma Handle.askUpTo_granted {bhs : ℕ → BufferHead} {m k : ℕ} (hlive : (bhs k).live)
    (hnew : h.granted i k = false) :
    (h.askUpTo K i bhs m).granted i k = true ↔ k < m ∧ K.journal_get_write_access k = 0 := by
  simp only [Handle.askUpTo, Function.update_self]
  by_cases hk : k < m
  · rw [upTo_of_lt _ _ _ hk hlive, hnew]
    simp [hk]
  · rw [upTo_of_le _ _ _ (Nat.not_lt.mp hk), hnew]
    simp [hk]

/-- What the first walk is granted, under a handle that had no access yet. -/
lemma access_walk_granted (hring : (w.pages i).buffers.isSome) (hh : w.handle = some h)
    (hnew : ∀ k, h.granted i k = false) :
    ∃ m r p, walkPage i 0 PAGE_CACHE_SIZE none (do_journal_get_write_access K i) w =
        (some (r, p), accessed K w i h m) ∧
      ∀ k < w.blocks.count, (w.ring i k).live →
        ((h.askUpTo K i (w.ring i) m).granted i k = true ↔
          K.journal_get_write_access k = 0 ∧
            ∀ j < k, (w.ring i j).live → K.journal_get_write_access j = 0) := by
  rcases access_walk (K := K) hring hh with ⟨p, hrun, hall⟩ | ⟨k₀, hk₀, hlive₀, hr, hall, p, hrun⟩
  · refine ⟨_, _, p, hrun, fun k hk hlive => ?_⟩
    rw [Handle.askUpTo_granted hlive (hnew k)]
    exact ⟨fun hg => ⟨hg.2, fun j hj hjlive => hall j (Nat.lt_trans hj hk) hjlive⟩,
      fun hg => ⟨hk, hg.1⟩⟩
  · refine ⟨_, _, p, hrun, fun k hk hlive => ?_⟩
    rw [Handle.askUpTo_granted hlive (hnew k)]
    constructor
    · rintro ⟨hlt, hg⟩
      exact ⟨hg, fun j hj hjlive => hall j (by omega) hjlive⟩
    · rintro ⟨hg, hbefore⟩
      refine ⟨?_, hg⟩
      by_contra hlt
      exact hr (hbefore k₀ (by omega) hlive₀)

end

end QuickDevSkeleton.Journal
