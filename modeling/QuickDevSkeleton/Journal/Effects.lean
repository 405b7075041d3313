import QuickDevSkeleton.Journal.Balance

/-!
# What the operations change in the cache

`write_begin` and `writepage` change no byte of any page, and leave it to every buffer whether it
holds the bytes of the file. A round that meets no failure stores its copy, and the page becomes
uptodate only if all buffers outside its range were.
-/

namespace QuickDevSkeleton.Journal

open Foundations

/-- The memory of the page holds the file's bytes in buffer `k`. -/
def World.Holds (w : World) (i k : ℕ) : Prop :=
  (w.pages i).uptodate = true ∨ (w.ring i k).uptodate = true

instance (w : World) (i k : ℕ) : Decidable (w.Holds i k) :=
  inferInstanceAs (Decidable (_ ∨ _))

/-- From `w` to `v` the buffers of page `i` may have been created, mapped, cleaned and handed to the
journal, but no byte has changed, in memory or on the device. -/
structure SameBytes (w : World) (i : ℕ) (v : World) : Prop where
  blocks : v.blocks = w.blocks
  disk : v.disk = w.disk
  i_size : v.i_size = w.i_size
  other : ∀ j, j ≠ i → v.pages j = w.pages j
  data : (v.pages i).data = (w.pages i).data
  uptodate : (v.pages i).uptodate = (w.pages i).uptodate
  pending : (v.pages i).dirty = (w.pages i).dirty
  holds : ∀ k, v.Holds i k ↔ w.Holds i k
  dirty : ∀ k, (v.ring i k).dirty = true → (w.ring i k).dirty = true ∨ (w.pages i).dirty = true
  new : ∀ k, (v.ring i k).new = false
  log : ∃ l, v.log = w.log ++ l ∧ ∀ e ∈ l, e.page = i

namespace SameBytes

variable {w v : World} {i : ℕ} {K : Outcomes}

lemma refl (hnew : ∀ k, (w.ring i k).new = false) : SameBytes w i w where
  blocks := rfl
  disk := rfl
  i_size := rfl
  other _ _ := rfl
  data := rfl
  uptodate := rfl
  pending := rfl
  holds _ := Iff.rfl
  dirty _ h := Or.inl h
  new := hnew
  log := ⟨[], (List.append_nil _).symm, fun _ h => nomatch h⟩

lemma other_setPage {j : ℕ} (p : Page) (hj : j ≠ i) : (v.setPage i p).pages j = v.pages j :=
  Function.update_of_ne hj _ _

/-- The page keeps its bytes and its buffers. -/
lemma setPage (h : SameBytes w i v) {p : Page} (hdata : p.data = (v.pages i).data)
    (hup : p.uptodate = (v.pages i).uptodate) (hpending : p.dirty = (v.pages i).dirty)
    (hbuffers : p.buffers = (v.pages i).buffers) : SameBytes w i (v.setPage i p) := by
  have hring : (v.setPage i p).ring i = v.ring i := by
    rw [World.ring, World.pages_setPage, hbuffers, World.ring]
  exact {
    blocks := h.blocks
    disk := h.disk
    i_size := h.i_size
    other := fun j hj => (other_setPage p hj).trans (h.other j hj)
    data := by rw [World.pages_setPage, hdata, h.data]
    uptodate := by rw [World.pages_setPage, hup, h.uptodate]
    pending := by rw [World.pages_setPage, hpending, h.pending]
    holds := fun k => by
      rw [World.Holds, World.pages_setPage, hup, hring]
      exact h.holds k
    dirty := fun k => by
      rw [hring]
      exact h.dirty k
    new := fun k => by
      rw [hring]
      exact h.new k
    log := h.log }

/-- The page keeps its bytes, and its buffers change. -/
lemma setRing (h : SameBytes w i v) {bhs : ℕ → BufferHead}
    (hholds : ∀ k, (v.pages i).uptodate = true ∨ (bhs k).uptodate = true ↔ v.Holds i k)
    (hdirty : ∀ k, (bhs k).dirty = true → (v.ring i k).dirty = true ∨ (v.pages i).dirty = true)
    (hnew : ∀ k, (bhs k).new = false) : SameBytes w i (v.setRing i bhs) where
  blocks := h.blocks
  disk := h.disk
  i_size := h.i_size
  other j hj := (other_setPage _ hj).trans (h.other j hj)
  data := by
    rw [World.setRing, World.pages_setPage]
    exact h.data
  uptodate := by
    rw [World.setRing, World.pages_setPage]
    exact h.uptodate
  pending := by
    rw [World.setRing, World.pages_setPage]
    exact h.pending
  holds k := by
    rw [World.Holds, World.ring_setRing, World.setRing, World.pages_setPage]
    exact (hholds k).trans (h.holds k)
  dirty k := by
    rw [World.ring_setRing]
    intro hk
    rcases hdirty k hk with hold | hold
    · exact h.dirty k hold
    · exact Or.inr (h.pending.symm.trans hold)
  new k := by
    rw [World.ring_setRing]
    exact hnew k
  log := h.log

/-- One buffer changes. -/
lemma setBuffer (h : SameBytes w i v) {k : ℕ} {bh : BufferHead}
    (hup : (v.pages i).uptodate = true ∨ bh.uptodate = true ↔ v.Holds i k)
    (hdirty : bh.dirty = true → (v.ring i k).dirty = true) (hnew : bh.new = false) :
    SameBytes w i (v.setBuffer i k bh) := by
  refine h.setRing (fun j => ?_) (fun j => ?_) fun j => ?_
  · by_cases hj : j = k
    · rw [hj, Function.update_self]
      exact hup
    · rw [Function.update_of_ne hj]
      exact Iff.rfl
  · by_cases hj : j = k
    · rw [hj, Function.update_self]
      exact fun hd => Or.inl (hdirty hd)
    · rw [Function.update_of_ne hj]
      exact Or.inl
  · by_cases hj : j = k
    · rw [hj, Function.update_self]
      exact hnew
    · rw [Function.update_of_ne hj]
      exact h.new j

/-! ### Preparing a page -/

lemma create_page_buffers (h : SameBytes w i v) : SameBytes w i (create_page_buffers i v) := by
  rw [Journal.create_page_buffers]
  cases hbuffers : (v.pages i).buffers with
  | some bhs => exact h
  | none =>
    have hring : ∀ k, v.ring i k = ⟨0, false, false, false, false, false⟩ := by
      intro k
      rw [World.ring, hbuffers]
      rfl
    refine h.setRing (fun k => ?_) (fun k hk => Or.inr hk) fun k => rfl
    rw [World.Holds, hring]
    simp

/-- A preparation for the whole page reads no buffer, however far it gets. -/
lemma readsBuffer_whole (k : ℕ) : readsBuffer v i 0 PAGE_CACHE_SIZE k = false := by
  rcases Nat.lt_or_ge k v.blocks.count with hk | hk
  · exact readsBuffer_page hk
  · have hout : ¬ Touches v.blocks.size 0 PAGE_CACHE_SIZE k := by
      rintro ⟨-, hlt⟩
      rw [← v.blocks.covers] at hlt
      exact absurd (Nat.lt_of_mul_lt_mul_right hlt) (Nat.not_lt.mpr hk)
    rw [readsBuffer, decide_eq_false hout]
    rfl

lemma prepareBuffers (h : SameBytes w i v) (m : ℕ) :
    SameBytes w i (prepareBuffers i 0 PAGE_CACHE_SIZE m v) := by
  have hread : Journal.prepareBuffers i 0 PAGE_CACHE_SIZE m v = v.setRing i fun k =>
      if k < m then
        { (if Touches v.blocks.size 0 PAGE_CACHE_SIZE k then (v.ring i k).map else v.ring i k) with
          uptodate := (if Touches v.blocks.size 0 PAGE_CACHE_SIZE k then (v.ring i k).map
            else v.ring i k).uptodate || (v.pages i).uptodate }
      else v.ring i k := by
    simp only [Journal.prepareBuffers, readsBuffer_whole, Bool.or_false, Bool.and_false,
      Bool.false_eq_true, if_false, World.setRing]
  have hmap : ∀ k, (if Touches v.blocks.size 0 PAGE_CACHE_SIZE k then (v.ring i k).map
      else v.ring i k).uptodate = (v.ring i k).uptodate ∧
      (if Touches v.blocks.size 0 PAGE_CACHE_SIZE k then (v.ring i k).map
        else v.ring i k).dirty = (v.ring i k).dirty ∧
      (if Touches v.blocks.size 0 PAGE_CACHE_SIZE k then (v.ring i k).map
        else v.ring i k).new = false := by
    intro k
    obtain ⟨-, -, hdirty, hup, hnew⟩ := map_fields (v.ring i k)
    split
    · exact ⟨hup, hdirty, hnew⟩
    · exact ⟨rfl, rfl, h.new k⟩
  rw [hread]
  refine h.setRing (fun k => ?_) (fun k => ?_) fun k => ?_
  · split
    · rw [(hmap k).1, World.Holds, Bool.or_eq_true]
      tauto
    · exact Iff.rfl
  · split
    · intro hk
      exact Or.inl ((hmap k).2.1.symm.trans hk)
    · exact Or.inl
  · split
    · exact (hmap k).2.2
    · exact h.new k

lemma page_zero_new_buffers (h : SameBytes w i v) (from_ to_ : ℕ) :
    SameBytes w i (page_zero_new_buffers i from_ to_ v) := by
  rw [zero_of_not_new fun k _ => h.new k]
  exact h

/-! ### Programs -/

lemma grab_cache_page_write_begin :
    Exec.Keeps (SameBytes w i) (grab_cache_page_write_begin K i) :=
  .ite (.bind (.modify fun _ h => h.setPage rfl rfl rfl rfl) fun _ => .pure _) (.pure _)

lemma unlock_page : Exec.Keeps (SameBytes w i) (unlock_page i) :=
  .modify fun _ h => h.setPage rfl rfl rfl rfl

lemma journal_start : Exec.Keeps (SameBytes w i) (journal_start K) := by
  refine .ite (.pure _) (.bind (.modify fun v h => ?_) fun _ => .pure _)
  cases hh : v.handle with
  | none => exact { h with }
  | some _ => exact { h with }

lemma journal_stop : Exec.Keeps (SameBytes w i) (journal_stop K) := by
  refine .withState fun v => ?_
  cases hh : v.handle with
  | none => exact .crash
  | some _ => exact .bind (.modify fun _ h => { h with }) fun _ => .pure _

lemma journal_get_write_access (k : ℕ) :
    Exec.Keeps (SameBytes w i) (journal_get_write_access K i k) := by
  refine .withState fun v => ?_
  cases hh : v.handle with
  | none => exact .crash
  | some _ => exact .bind (.modify fun _ h => { h with }) fun _ => .pure _

lemma journal_dirty_metadata (k : ℕ) :
    Exec.Keeps (SameBytes w i) (journal_dirty_metadata K i k) := by
  refine .withState fun v => ?_
  cases hh : v.handle with
  | none => exact .crash
  | some h₀ =>
    refine .bind (.modify fun u h => ?_) fun _ => .pure _
    obtain ⟨l, hl, hpage⟩ := h.log
    exact { h with
      log := by
        refine ⟨l ++ [⟨h₀.id, i, k, h₀.granted i k⟩], ?_, fun e he => ?_⟩
        · change u.log ++ _ = _
          rw [hl, List.append_assoc]
        · rcases List.mem_append.mp he with hold | hnew
          · exact hpage e hold
          · rw [List.mem_singleton.mp hnew] }

lemma block_write_begin :
    Exec.Keeps (SameBytes w i) (block_write_begin K i 0 PAGE_CACHE_SIZE) := by
  refine .bind (.modify fun _ h => h.create_page_buffers) fun _ => .ite ?_ ?_
  · exact .bind (.modify fun _ h => (h.prepareBuffers _).page_zero_new_buffers _ _) fun _ => .pure _
  · exact .bind (.modify fun _ h => h.prepareBuffers _) fun _ => .pure _

/-- Both callbacks start from the buffer as it is. -/
lemma withBuffer {k : ℕ} {body : BufferHead → Exec World ℤ}
    (hbody : ∀ v, SameBytes w i v → SameBytes w i (body (v.ring i k) v).2) :
    Exec.Keeps (SameBytes w i) (withBuffer i k body) := by
  intro v h
  simp only [Journal.withBuffer, Exec.withState_run]
  split_ifs
  · exact h
  · exact h
  · exact hbody v h

lemma do_journal_get_write_access (k : ℕ) :
    Exec.Keeps (SameBytes w i) (do_journal_get_write_access K i k) := by
  refine withBuffer fun v h => ?_
  exact journal_get_write_access k _ (h.setBuffer Iff.rfl (fun hd => nomatch hd) (h.new k))

/-- On an uptodate page `write_end_fn` makes no buffer uptodate that was not. -/
lemma write_end_fn (hup : (w.pages i).uptodate = true) (k : ℕ) :
    Exec.Keeps (SameBytes w i) (write_end_fn K i k) := by
  refine withBuffer fun v h => ?_
  have hholds : (v.pages i).uptodate = true := h.uptodate.trans hup
  exact journal_dirty_metadata k _
    (h.setBuffer (iff_of_true (Or.inl hholds) (Or.inl hholds)) id (h.new k))

lemma walkPage (from_ to_ : ℕ) (partial_ : Option Bool) {fn : ℕ → Exec World ℤ}
    (hfn : ∀ k, Exec.Keeps (SameBytes w i) (fn k)) :
    Exec.Keeps (SameBytes w i) (walkPage i from_ to_ partial_ fn) :=
  .withState fun _ => .ite .crash (walk_page_buffers_keeps hfn _)

/-- `write_begin` changes no byte. -/
lemma write_begin (pos len : ℕ) : Exec.Keeps (SameBytes w (pos / PAGE_CACHE_SIZE))
    (example_journalled_write_begin K pos len) := by
  refine .bind grab_cache_page_write_begin fun _ => .ite (.pure _) (.withState fun v => ?_)
  refine .ite (.pure _) (.ite (.pure _) (.bind journal_start fun _ => .ite (.pure _) ?_))
  refine .bind block_write_begin fun _ => .ite (.bind journal_stop fun _ => .pure _) ?_
  exact .bind (walkPage _ _ _ do_journal_get_write_access) fun _ => .pure _

/-- `writepage` changes no byte of a page that is uptodate, and none of one that it leaves to
`block_write_full_page`. -/
lemma writepage (hup : (w.pages i).uptodate = true ∨
      ((w.pages i).buffers.isSome && !(w.pages i).checked) = true)
    (hnew : ∀ k, (w.ring i k).new = false) :
    SameBytes w i (example_journalled_writepage K i w).2 := by
  rw [example_journalled_writepage, Exec.withState_run]
  by_cases hplain : ((w.pages i).buffers.isSome && !(w.pages i).checked) = true
  · rw [if_pos hplain]
    exact Exec.Keeps.bind unlock_page (fun _ => .pure _) w (refl hnew)
  · rw [if_neg hplain]
    refine Exec.Keeps.ite (.pure _) (.ite (.pure _) (.bind journal_start fun _ =>
      .ite (.pure _) ?_)) w (refl hnew)
    refine .bind (.modify fun _ h => h.setPage rfl rfl rfl rfl) fun _ => .bind block_write_begin
      fun _ => .ite (.bind journal_stop fun _ => .pure _) ?_
    refine .bind (walkPage _ _ _ do_journal_get_write_access) fun _ =>
      .bind (walkPage _ _ _ (write_end_fn (hup.resolve_right hplain))) fun _ => ?_
    exact .bind unlock_page fun _ => .bind journal_stop fun _ => .pure _

end SameBytes

/-! ### A round that meets no failure -/

/-- The round meets no failure: the task has no handle, the kernel grants all, and the copy falls
short only on a page that is uptodate. -/
def Round.Fine (a : Round) (w : World) : Prop :=
  w.handle = none ∧ a.K.grab = true ∧ a.K.aborted = false ∧ a.K.journal_start = 0 ∧
    a.K.block_write_begin = 0 ∧ (∀ k < w.blocks.count, a.K.journal_get_write_access k = 0) ∧
    (∀ k < w.blocks.count, a.K.journal_dirty_metadata k = 0) ∧ a.K.journal_stop = 0 ∧
    (a.data.length = a.len ∨ (w.pages a.page).uptodate = true)

instance (a : Round) (w : World) : Decidable (a.Fine w) :=
  inferInstanceAs (Decidable (_ ∧ _))

/-- The copy of the round, or its walk, comes to buffer `k`. -/
def Round.Reaches (a : Round) (w : World) (k : ℕ) : Prop :=
  Touches w.blocks.size (a.pos % PAGE_CACHE_SIZE) (a.pos % PAGE_CACHE_SIZE + a.data.length) k

instance (a : Round) (w : World) (k : ℕ) : Decidable (a.Reaches w k) :=
  inferInstanceAs (Decidable (Touches _ _ _ _))

/-- What such a round does. -/
structure Written (w : World) (a : Round) (w' : World) : Prop where
  blocks : w'.blocks = w.blocks
  disk : w'.disk = w.disk
  i_size : w'.i_size = max w.i_size (a.pos + a.data.length)
  other : ∀ j, j ≠ a.page → w'.pages j = w.pages j
  data : (w'.pages a.page).data = (w.pages a.page).data.write (a.pos % PAGE_CACHE_SIZE) a.data
  pending : (w'.pages a.page).dirty = (w.pages a.page).dirty
  keeps_uptodate : (w.pages a.page).uptodate = true → (w'.pages a.page).uptodate = true
  keeps : ∀ k, w.Holds a.page k → w'.Holds a.page k
  holds : ∀ k < w.blocks.count, w'.Holds a.page k → a.Reaches w k ∨ w.Holds a.page k
  dirty : ∀ k, (w'.ring a.page k).dirty = true →
    (w.ring a.page k).dirty = true ∨ (w.pages a.page).dirty = true
  new : ∀ k, (w'.ring a.page k).new = false
  log : ∃ l, w'.log = w.log ++ l ∧ ∀ e ∈ l, e.page = a.page ∧ w'.Holds a.page e.buffer

section

variable {w v : World} {i : ℕ} {h : Handle} {K : Outcomes}

/-- A walk of `write_end` that leaves `partial_` clear has passed over uptodate buffers only. -/
lemma journal_walk_untouched {from_ to_ : ℕ} {partial_ : Option Bool}
    (hring : (w.pages i).buffers.isSome) (hh : w.handle = some h)
    (hrun : walkPage i from_ to_ partial_ (write_end_fn K i) w = (some (0, some false), v)) {k : ℕ}
    (hk : k < w.blocks.count) (hnot : ¬ Touches w.blocks.size from_ to_ k) :
    (w.ring i k).uptodate = true := by
  have hzero : journalled w i h from_ to_ 0 = w := journalled_zero hring hh
  rw [walkPage_eq hring, ← hzero] at hrun
  have hup := walk_page_buffers_untouched w.size_lt (f := journalled w i h from_ to_)
    (fun k _ ht => journal_step (K := K) ht) (fun k _ ht => journal_skip ht) hrun hk hnot
  rw [journalled, World.ring_onPage, upTo_of_le _ _ _ (Nat.le_refl k)] at hup
  exact hup

/-- The second walk makes buffers of its range uptodate, and changes nothing else of any. -/
lemma journalled_buffer (from_ to_ m k : ℕ) :
    ∃ u, (journalled w i h from_ to_ m).ring i k = { w.ring i k with uptodate := u } ∧
      ((w.ring i k).uptodate = true → u = true) ∧
      (u = true → (w.ring i k).uptodate = true ∨ Touches w.blocks.size from_ to_ k) ∧
      (k ∈ reached w i from_ to_ m → u = true) := by
  rw [journalled, World.ring_onPage, upTo]
  split_ifs with hk
  · have htouch : Touches w.blocks.size from_ to_ k :=
      of_decide_eq_true (Bool.and_eq_true_iff.mp hk.2).2
    exact ⟨true, rfl, fun _ => rfl, fun _ => Or.inr htouch, fun _ => rfl⟩
  · refine ⟨_, rfl, id, Or.inl, fun hmem => ?_⟩
    obtain ⟨hlt, hlive, htouch⟩ := mem_reached.mp hmem
    exact absurd ⟨hlt, Bool.and_eq_true_iff.mpr ⟨hlive, decide_eq_true htouch⟩⟩ hk

/-- A `write_end` that meets no failure. -/
lemma write_end_fine {pos len copied : ℕ} (hi : pos / PAGE_CACHE_SIZE = i)
    (hh : w.handle = some h) (hring : (w.pages i).buffers.isSome)
    (hnew : ∀ k, (w.ring i k).new = false) (hle : copied ≤ len)
    (hfull : copied = len ∨ (w.pages i).uptodate = true)
    (hmeta : ∀ k < w.blocks.count, K.journal_dirty_metadata k = 0) (hstop : K.journal_stop = 0) :
    ∃ u, example_journalled_write_end K pos len copied w = (some (copied : ℤ),
        finished (journalled w i h (pos % PAGE_CACHE_SIZE) (pos % PAGE_CACHE_SIZE + copied)
          w.blocks.count) i h u (max w.i_size (pos + copied))) ∧
      ((w.pages i).uptodate = true → u = true) ∧
      (u = true → (w.pages i).uptodate = true ∨
        ∀ k < w.blocks.count, ¬ Touches w.blocks.size (pos % PAGE_CACHE_SIZE)
          (pos % PAGE_CACHE_SIZE + copied) k → (w.ring i k).uptodate = true) := by
  have hdone : copiedTo (w.pages i) len copied = copied := by
    rw [copiedTo, if_neg]
    rintro ⟨hlt, hstale⟩
    rcases hfull with heq | hup
    · exact absurd heq hlt.ne
    · rw [hup] at hstale
      cases hstale
  have hend : walkEnd (w.pages i) (pos % PAGE_CACHE_SIZE) len copied =
      pos % PAGE_CACHE_SIZE + copied := by
    rw [walkEnd, hdone]
    split
    · rfl
    · rw [le_antisymm hle (by omega)]
  simp only [example_journalled_write_end, Exec.withState_run, hi, hdone, hend]
  generalize pos % PAGE_CACHE_SIZE = from_
  have hzero : (if copied < len then page_zero_new_buffers i (from_ + copied) (from_ + len) w
      else w) = w := by
    split
    · exact zero_of_not_new fun k _ => hnew k
    · rfl
  rw [Exec.modify_bind, hzero]
  rcases journal_walk (K := K) from_ (from_ + copied) (some false) hring hh with
    ⟨p, hrun, -⟩ | ⟨k, hk, hr, -⟩
  · refine ⟨if p = some false then true else (w.pages i).uptodate, ?_, fun hup => ?_, fun hup => ?_⟩
    · have htail := write_end_tail_run (K := K) (i := i)
        (World.handle_onPage :
          (journalled w i h from_ (from_ + copied) w.blocks.count).handle = _)
        p 0 (pos + copied) copied
      rw [Exec.bind_run_some hrun]
      refine htail.trans ?_
      rw [if_neg (not_not.mpr rfl), if_neg (not_not.mpr hstop), journalled, World.pages_onPage]
      rfl
    · split
      · rfl
      · exact hup
    · split_ifs at hup with hp
      · rw [hp] at hrun
        exact Or.inr fun k hk hnot => journal_walk_untouched hring hh hrun hk hnot
      · exact Or.inl hup
  · exact absurd (hmeta k (mem_reached.mp hk).1) hr

variable {a : Round} {w' : World}

/-- A `write_begin` that meets no failure leaves a prepared page and a handle. -/
lemma begin_fine (hnew : ∀ k, (w.ring a.page k).new = false) (hfine : a.Fine w) :
    ∃ h v, a.begin_ w = (some 0, v) ∧ SameBytes w a.page v ∧ v.handle = some h ∧
      (v.pages a.page).buffers.isSome ∧ v.log = w.log := by
  obtain ⟨hnone, hgrab, haborted, hstart, hprepared, haccess, -⟩ := hfine
  obtain ⟨r, v, hbegin, hends⟩ := write_begin_ends a.K a.pos a.len w
  have hsame : SameBytes w a.page v := by
    have hkeeps := SameBytes.write_begin (K := a.K) a.pos a.len w (.refl hnew)
    rw [hbegin] at hkeeps
    exact hkeeps
  change BeginEnds a.K w a.page r v at hends
  cases hends with
  | noPage hg =>
    rw [hgrab] at hg
    cases hg
  | nested hg hh =>
    rw [hnone] at hh
    cases hh
  | noHandle hg hh hfail he =>
    rcases hfail with ha | hs
    · rw [haborted] at ha
      cases ha
    · exact absurd hstart hs
  | notPrepared hg hh hb => exact absurd hprepared hb
  | granted => exact ⟨_, _, hbegin, hsame, rfl, by rw [accessed, World.pages_onPage]; rfl, rfl⟩
  | refused hg hh hk hlive hr => exact absurd (haccess _ hk) hr

lemma finished_page (u : Bool) (n : ℕ) :
    (finished v i h u n).pages i = { v.pages i with
      uptodate := u, locked := false, count := (v.pages i).count - 1 } :=
  Function.update_self _ _ _

lemma finished_ring_eq (u : Bool) (n : ℕ) : (finished v i h u n).ring i = v.ring i := by
  rw [World.ring, finished_page, World.ring]

/-- What such a `write_end` leaves of the world `v`, once the copy is made. -/
lemma written_of_finished {n : ℕ} (hsame : SameBytes w a.page v) (hlog : v.log = w.log) {u : Bool}
    (hn : n = max w.i_size (a.pos + a.data.length))
    (hkeeps : (w.pages a.page).uptodate = true → u = true)
    (hholds : u = true → (w.pages a.page).uptodate = true ∨
      ∀ k < w.blocks.count, ¬ a.Reaches w k → (v.ring a.page k).uptodate = true) :
    Written w a (finished (journalled (v.store a.page (a.pos % PAGE_CACHE_SIZE) a.data) a.page h
      (a.pos % PAGE_CACHE_SIZE) (a.pos % PAGE_CACHE_SIZE + a.data.length) v.blocks.count)
      a.page h u n) := by
  have hbuf (k : ℕ) := journalled_buffer (w := v.store a.page (a.pos % PAGE_CACHE_SIZE) a.data)
    (i := a.page) (h := h) (a.pos % PAGE_CACHE_SIZE) (a.pos % PAGE_CACHE_SIZE + a.data.length)
    v.blocks.count k
  rw [store_ring] at hbuf
  have hpage : (journalled (v.store a.page (a.pos % PAGE_CACHE_SIZE) a.data) a.page h
      (a.pos % PAGE_CACHE_SIZE) (a.pos % PAGE_CACHE_SIZE + a.data.length)
      v.blocks.count).pages a.page =
        { (v.pages a.page) with
          data := (v.pages a.page).data.write (a.pos % PAGE_CACHE_SIZE) a.data
          buffers := ((journalled (v.store a.page (a.pos % PAGE_CACHE_SIZE) a.data) a.page h
            (a.pos % PAGE_CACHE_SIZE) (a.pos % PAGE_CACHE_SIZE + a.data.length)
            v.blocks.count).pages a.page).buffers } := by
    rw [journalled, World.pages_onPage, store_page]
  have hreach (k : ℕ) : Touches (v.store a.page (a.pos % PAGE_CACHE_SIZE) a.data).blocks.size
      (a.pos % PAGE_CACHE_SIZE) (a.pos % PAGE_CACHE_SIZE + a.data.length) k ↔ a.Reaches w k := by
    rw [Round.Reaches, ← hsame.blocks]
    rfl
  exact {
    blocks := hsame.blocks
    disk := hsame.disk
    i_size := hn
    other := fun j hj => by
      rw [finished, journalled, World.onPage]
      change ((((v.store a.page _ _).setRing a.page _).setPage a.page _).pages j) = _
      rw [SameBytes.other_setPage _ hj, World.setRing, SameBytes.other_setPage _ hj, World.store,
        SameBytes.other_setPage _ hj, hsame.other j hj]
    data := by
      rw [finished_page, hpage, hsame.data]
    pending := by
      rw [finished_page, hpage, hsame.pending]
    keeps_uptodate := fun hup => by
      rw [finished_page]
      exact hkeeps hup
    keeps := fun k hk => by
      rw [World.Holds, finished_page, finished_ring_eq]
      obtain ⟨u', hring, hold, -⟩ := hbuf k
      rw [hring]
      rcases (hsame.holds k).mpr hk with hup | hup
      · exact Or.inl (hkeeps (hsame.uptodate.symm.trans hup))
      · exact Or.inr (hold hup)
    holds := fun k hk hholds' => by
      rw [World.Holds, finished_page, finished_ring_eq] at hholds'
      obtain ⟨u', hring, -, hnew', -⟩ := hbuf k
      rw [hring] at hholds'
      rcases hholds' with hup | hup
      · rcases hholds hup with hold | hall
        · exact Or.inr (Or.inl hold)
        · by_cases htouch : a.Reaches w k
          · exact Or.inl htouch
          · exact Or.inr ((hsame.holds k).mp (Or.inr (hall k hk htouch)))
      · rcases hnew' hup with hold | htouch
        · exact Or.inr ((hsame.holds k).mp (Or.inr hold))
        · exact Or.inl ((hreach k).mp htouch)
    dirty := fun k hk => by
      rw [finished_ring_eq] at hk
      obtain ⟨u', hring, -⟩ := hbuf k
      rw [hring] at hk
      exact hsame.dirty k hk
    new := fun k => by
      rw [finished_ring_eq]
      obtain ⟨u', hring, -⟩ := hbuf k
      rw [hring]
      exact hsame.new k
    log := by
      refine ⟨(reached (v.store a.page (a.pos % PAGE_CACHE_SIZE) a.data) a.page
        (a.pos % PAGE_CACHE_SIZE) (a.pos % PAGE_CACHE_SIZE + a.data.length)
        v.blocks.count).map fun k => ⟨h.id, a.page, k, h.granted a.page k⟩, ?_, fun e he => ?_⟩
      · rw [← hlog]
        rfl
      · obtain ⟨k, hk, rfl⟩ := List.mem_map.mp he
        refine ⟨rfl, Or.inr ?_⟩
        obtain ⟨u', hring, -, -, hmem⟩ := hbuf k
        rw [finished_ring_eq, hring]
        exact hmem hk }

/-- The round as a whole. -/
lemma written (hnew : ∀ k, (w.ring a.page k).new = false) (hle : a.data.length ≤ a.len)
    (hfine : a.Fine w) :
    ∃ w', a.run w = (some (a.data.length : ℤ), w') ∧ (a.begin_ w).1 = some 0 ∧
      Written w a w' := by
  obtain ⟨h, v, hbegin, hsame, hh, hring, hlog⟩ := begin_fine hnew hfine
  obtain ⟨-, -, -, -, -, -, hmeta, hstop, hfull⟩ := hfine
  have hpage := store_page (i := a.page) v (a.pos % PAGE_CACHE_SIZE) a.data
  have hbufs := store_ring (i := a.page) v (a.pos % PAGE_CACHE_SIZE) a.data
  have hup : a.data.length = a.len ∨
      ((v.store a.page (a.pos % PAGE_CACHE_SIZE) a.data).pages a.page).uptodate = true := by
    rw [hpage]
    exact hfull.imp_right hsame.uptodate.trans
  obtain ⟨u, hend, hkeeps, hholds⟩ := write_end_fine
    (w := v.store a.page (a.pos % PAGE_CACHE_SIZE) a.data) (h := h) (i := a.page) (K := a.K)
    rfl hh (by rw [hpage]; exact hring) (fun k => by rw [hbufs]; exact hsame.new k)
    hle hup (fun k hk => hmeta k (hsame.blocks ▸ hk)) hstop
  rw [hpage] at hkeeps hholds
  rw [hbufs] at hholds
  have hrun : a.run w = example_journalled_write_end a.K a.pos a.len a.data.length
      (v.store a.page (a.pos % PAGE_CACHE_SIZE) a.data) := by
    rw [Round.run, writeRound]
    refine (Exec.bind_run_some hbegin).trans ?_
    rw [if_neg (not_not.mpr rfl), Exec.modify_bind]
    rfl
  refine ⟨_, hrun.trans hend, by rw [hbegin], written_of_finished hsame hlog ?_
    (fun hup => hkeeps (hsame.uptodate.trans hup)) fun hup => ?_⟩
  · rw [← hsame.i_size]
    rfl
  · refine (hholds hup).imp (fun hold => hsame.uptodate.symm.trans hold) fun hall k hk hnot => ?_
    refine hall k (hsame.blocks ▸ hk) fun htouch => hnot ?_
    rw [Round.Reaches, ← hsame.blocks]
    exact htouch

end

end QuickDevSkeleton.Journal
