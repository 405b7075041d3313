import QuickDevSkeleton.Journal.Cache
import QuickDevSkeleton.Journal.Recorder

/-!
# Pages that the kernel lets go

`set_page_dirty` marks a page that has been stored to through a mapping, `writepage` takes the mark
away once it has a handle, and `releasepage` warns when a page still bears it. The kernel clears the
dirty flag before it calls `writepage`, and asks `releasepage` only for pages whose flag is clear.
-/

namespace QuickDevSkeleton.Journal

open Foundations

/-- `example_journalled_set_page_dirty(page)`, and whether the page was clean. -/
def example_journalled_set_page_dirty (p : Page) : Page × Bool :=
  ({ p with checked := true, dirty := true }, !p.dirty)

/-- `example_releasepage(page, wait)`: whether `WARN_ON` fires, and the result, where `freed` is
that of `journal_try_to_free_buffers`. -/
def example_releasepage (freed : ℤ) (p : Page) : Bool × ℤ :=
  (p.checked, if p.buffers.isNone then 0 else freed)

/-- No page that the kernel may ask for makes `releasepage` warn. -/
def Quiet (s : CachedFile) : Prop :=
  ∀ i freed, (s.world.pages i).dirty = false →
    (example_releasepage freed (s.world.pages i)).1 = false

/-- `writepage` gets a handle of its own. -/
def HandleFor (K : Outcomes) (w : World) : Prop :=
  w.handle = none ∧ K.aborted = false ∧ K.journal_start = 0

instance (K : Outcomes) (w : World) : Decidable (HandleFor K w) :=
  inferInstanceAs (Decidable (_ ∧ _ ∧ _))

/-- When `writepage` is called for a marked page, it gets a handle. -/
def ReleaseOk (s : CachedFile) : CacheAct → Prop
  | .writepage K i => (s.world.pages i).checked = true → HandleFor K s.world
  | .write _ | .mapped_store _ _ | .commit | .write_back _ _ | .evict _ _ | .readpage _
  | .read _ => True

instance (s : CachedFile) (a : CacheAct) : Decidable (ReleaseOk s a) :=
  match a with
  | .writepage _ _ => inferInstanceAs (Decidable (_ → _))
  | .write _ | .mapped_store _ _ | .commit | .write_back _ _ | .evict _ _ | .readpage _
  | .read _ => inferInstanceAs (Decidable True)

/-! ### The mark and the dirty flag -/

namespace World

/-- Of every page, the mark and the dirty flag. -/
def flags (w : World) (j : ℕ) : Bool × Bool :=
  ((w.pages j).checked, (w.pages j).dirty)

variable {w : World} {i : ℕ}

lemma other_setPage {j : ℕ} (hj : j ≠ i) (p : Page) : (w.setPage i p).pages j = w.pages j :=
  Function.update_of_ne hj _ _

lemma flags_setPage (p : Page) :
    (w.setPage i p).flags = Function.update w.flags i (p.checked, p.dirty) := by
  funext j
  by_cases hj : j = i
  · rw [hj, Function.update_self, flags, pages_setPage]
  · rw [Function.update_of_ne hj, flags, other_setPage hj, flags]

end World

/-- From `w` to `v` only page `i` has changed, and neither its mark nor its dirty flag. -/
structure KeepsMark (i : ℕ) (w v : World) : Prop where
  blocks : v.blocks = w.blocks
  other : ∀ j, j ≠ i → v.pages j = w.pages j
  checked : (v.pages i).checked = (w.pages i).checked
  dirty : (v.pages i).dirty = (w.pages i).dirty

namespace KeepsMark

variable {K : Outcomes} {w v : World} {i : ℕ}

lemma refl (i : ℕ) (w : World) : KeepsMark i w w :=
  ⟨rfl, fun _ _ => rfl, rfl, rfl⟩

lemma flags (h : KeepsMark i w v) : v.flags = w.flags := by
  funext j
  by_cases hj : j = i
  · rw [hj, World.flags, h.checked, h.dirty, World.flags]
  · rw [World.flags, h.other j hj, World.flags]

lemma setPage (h : KeepsMark i w v) {p : Page} (hchecked : p.checked = (v.pages i).checked)
    (hdirty : p.dirty = (v.pages i).dirty) : KeepsMark i w (v.setPage i p) where
  blocks := h.blocks
  other j hj := (World.other_setPage hj p).trans (h.other j hj)
  checked := by rw [World.pages_setPage, hchecked, h.checked]
  dirty := by rw [World.pages_setPage, hdirty, h.dirty]

lemma setBuffer (h : KeepsMark i w v) (k : ℕ) (bh : BufferHead) :
    KeepsMark i w (v.setBuffer i k bh) :=
  h.setPage rfl rfl

/-! What the functions of the kernel do with a page touches neither its mark nor its flag. -/

lemma create_page_buffers (h : KeepsMark i w v) : KeepsMark i w (create_page_buffers i v) := by
  rw [Journal.create_page_buffers]
  cases (v.pages i).buffers with
  | some _ => exact h
  | none => exact h.setPage rfl rfl

lemma page_zero_new_buffers (h : KeepsMark i w v) (from_ to_ : ℕ) :
    KeepsMark i w (page_zero_new_buffers i from_ to_ v) := by
  simp only [Journal.page_zero_new_buffers]
  split
  · exact h
  · exact h.setPage rfl rfl

lemma prepareBuffers (h : KeepsMark i w v) (from_ to_ m : ℕ) :
    KeepsMark i w (prepareBuffers i from_ to_ m v) :=
  h.setPage rfl rfl

lemma unlock_page : Exec.Keeps (KeepsMark i w) (unlock_page i) :=
  .modify fun _ h => h.setPage rfl rfl

lemma page_cache_release : Exec.Keeps (KeepsMark i w) (page_cache_release i) :=
  .modify fun _ h => h.setPage rfl rfl

lemma grab_cache_page_write_begin :
    Exec.Keeps (KeepsMark i w) (grab_cache_page_write_begin K i) :=
  .ite (.bind (.modify fun _ h => h.setPage rfl rfl) fun _ => .pure _) (.pure _)

lemma journal_start : Exec.Keeps (KeepsMark i w) (journal_start K) := by
  refine .ite (.pure _) (.bind (.modify fun v h => ?_) fun _ => .pure _)
  cases v.handle with
  | none => exact { h with }
  | some _ => exact { h with }

/-- What ends in a crash without a handle. -/
lemma ofHandle {fn : Handle → Exec World ℤ} (h : ∀ t, Exec.Keeps (KeepsMark i w) (fn t)) :
    Exec.Keeps (KeepsMark i w) (Exec.withState fun w =>
      match w.handle with
      | none => Exec.crash
      | some t => fn t) := by
  refine .withState fun v => ?_
  cases v.handle with
  | none => exact .crash
  | some t => exact h t

lemma journal_stop : Exec.Keeps (KeepsMark i w) (journal_stop K) :=
  ofHandle fun _ => .bind (.modify fun _ h => { h with }) fun _ => .pure _

lemma journal_get_write_access (k : ℕ) :
    Exec.Keeps (KeepsMark i w) (journal_get_write_access K i k) :=
  ofHandle fun _ => .bind (.modify fun _ h => { h with }) fun _ => .pure _

lemma journal_dirty_metadata (k : ℕ) : Exec.Keeps (KeepsMark i w) (journal_dirty_metadata K i k) :=
  ofHandle fun _ => .bind (.modify fun _ h => { h with }) fun _ => .pure _

lemma block_write_begin (from_ len : ℕ) :
    Exec.Keeps (KeepsMark i w) (block_write_begin K i from_ len) := by
  refine .bind (.modify fun _ h => h.create_page_buffers) fun _ => .ite ?_ ?_
  · exact .bind (.modify fun _ h => (h.prepareBuffers _ _ _).page_zero_new_buffers _ _)
      fun _ => .pure _
  · exact .bind (.modify fun _ h => h.prepareBuffers _ _ _) fun _ => .pure _

lemma withBuffer {k : ℕ} {body : BufferHead → Exec World ℤ}
    (hbody : ∀ bh, Exec.Keeps (KeepsMark i w) (body bh)) :
    Exec.Keeps (KeepsMark i w) (withBuffer i k body) :=
  .withState fun _ => .ite .crash (.ite (.pure _) (hbody _))

lemma do_journal_get_write_access (k : ℕ) :
    Exec.Keeps (KeepsMark i w) (do_journal_get_write_access K i k) :=
  withBuffer fun _ => .bind (.modify fun _ h => h.setBuffer _ _) fun _ => journal_get_write_access k

lemma write_end_fn (k : ℕ) : Exec.Keeps (KeepsMark i w) (write_end_fn K i k) :=
  withBuffer fun _ => .bind (.modify fun _ h => h.setBuffer _ _) fun _ => journal_dirty_metadata k

lemma walkPage (from_ to_ : ℕ) (partial_ : Option Bool) {fn : ℕ → Exec World ℤ}
    (hfn : ∀ k, Exec.Keeps (KeepsMark i w) (fn k)) :
    Exec.Keeps (KeepsMark i w) (walkPage i from_ to_ partial_ fn) :=
  .withState fun _ => .ite .crash (walk_page_buffers_keeps hfn _)

/-! Nor does a round of a write. -/

lemma write_begin (pos len : ℕ) : Exec.Keeps (KeepsMark (pos / PAGE_CACHE_SIZE) w)
    (example_journalled_write_begin K pos len) := by
  refine .bind grab_cache_page_write_begin fun _ => .ite (.pure _) (.withState fun v => ?_)
  refine .ite (.pure _) (.ite (.pure _) (.bind journal_start fun _ => .ite (.pure _) ?_))
  refine .bind (block_write_begin _ _) fun _ => .ite (.bind journal_stop fun _ => .pure _) ?_
  exact .bind (walkPage _ _ _ do_journal_get_write_access) fun _ => .pure _

lemma write_end (pos len copied : ℕ) : Exec.Keeps (KeepsMark (pos / PAGE_CACHE_SIZE) w)
    (example_journalled_write_end K pos len copied) := by
  intro v h
  simp only [example_journalled_write_end, Exec.withState_run]
  refine Exec.Keeps.bind (.modify fun u h => ?_) (fun _ => ?_) v h
  · split_ifs
    · exact h.page_zero_new_buffers _ _
    · exact h
  refine .bind (walkPage _ _ _ write_end_fn) fun r => .bind (.modify fun u h => ?_) fun _ => ?_
  · split_ifs
    · exact h.setPage rfl rfl
    · exact h
  refine .bind (.modify fun _ h => { h with }) fun _ => .bind journal_stop fun _ => ?_
  exact .bind unlock_page fun _ => .bind page_cache_release fun _ => .pure _

lemma round (a : Round) : Exec.Keeps (KeepsMark a.page w) a.run :=
  .bind (write_begin _ _) fun _ => .ite (.pure _)
    (.bind (.modify fun _ h => h.setPage rfl rfl) fun _ => write_end _ _ _)

end KeepsMark

/-! ### What a step does to them -/

section

variable {K : Outcomes} {w : World} {i : ℕ}

/-- After the mark is gone `writepage` leaves all marks and flags alone. -/
lemma writepage_handle (hplain : ¬ ((w.pages i).buffers.isSome && !(w.pages i).checked) = true)
    (h : HandleFor K w) :
    KeepsMark i (unchecked w.start i) (example_journalled_writepage K i w).2 := by
  obtain ⟨hnone, ha, hs⟩ := h
  rw [example_journalled_writepage, Exec.withState_run, if_neg hplain, if_neg (by simp [hnone]),
    if_neg (by simp [ha]), Exec.bind_run_some (journal_start_run hs hnone), if_neg (by simp),
    Exec.modify_bind]
  refine Exec.Keeps.bind (KeepsMark.block_write_begin _ _) (fun _ => ?_) (unchecked w.start i)
    (.refl i _)
  refine .ite (.bind KeepsMark.journal_stop fun _ => .pure _) ?_
  refine .bind (KeepsMark.walkPage _ _ _ KeepsMark.do_journal_get_write_access) fun _ =>
    .bind (KeepsMark.walkPage _ _ _ KeepsMark.write_end_fn) fun _ => ?_
  exact .bind KeepsMark.unlock_page fun _ => .bind KeepsMark.journal_stop fun _ => .pure _

/-- Without a handle nothing happens. -/
lemma writepage_no_handle
    (hplain : ¬ ((w.pages i).buffers.isSome && !(w.pages i).checked) = true)
    (h : ¬ HandleFor K w) : (example_journalled_writepage K i w).2 = w := by
  rw [example_journalled_writepage, Exec.withState_run, if_neg hplain]
  split_ifs with hhandle ha
  · rfl
  · rfl
  · have hnone : w.handle = none := by simpa using hhandle
    have hs : K.journal_start ≠ 0 := fun hs => h ⟨hnone, by simpa using ha, hs⟩
    have hstart : journal_start K w = (some K.journal_start, w) := by
      rw [journal_start, if_pos hs, Exec.pure_run]
    rw [Exec.bind_run_some hstart, if_pos hs, Exec.pure_run]

/-- A page of checkpointed buffers is only unlocked. -/
lemma writepage_plain (hplain : ((w.pages i).buffers.isSome && !(w.pages i).checked) = true) :
    KeepsMark i w (example_journalled_writepage K i w).2 := by
  rw [example_journalled_writepage, Exec.withState_run, if_pos hplain]
  exact Exec.Keeps.bind KeepsMark.unlock_page (fun _ => .pure _) w (.refl i w)

lemma writepage_flags : (example_journalled_writepage K i w).2.flags =
    Function.update w.flags i ((w.pages i).checked && !decide (HandleFor K w),
      (w.pages i).dirty) := by
  by_cases hplain : ((w.pages i).buffers.isSome && !(w.pages i).checked) = true
  · have hclear : (w.pages i).checked = false := by simpa using (Bool.and_eq_true_iff.mp hplain).2
    rw [(writepage_plain hplain).flags, hclear, Bool.false_and, ← hclear]
    exact (Function.update_eq_self i w.flags).symm
  · by_cases h : HandleFor K w
    · rw [(writepage_handle hplain h).flags, decide_eq_true h, Bool.not_true, Bool.and_false]
      exact World.flags_setPage _
    · rw [writepage_no_handle hplain h, decide_eq_false h, Bool.not_false, Bool.and_true]
      exact (Function.update_eq_self i w.flags).symm

end

/-- A store to a mapped page ends in `set_page_dirty`. -/
lemma mapped_store_eq (w : World) (x : ℕ) (byte : UInt8) :
    w.mapped_store x byte = w.setPage (x / PAGE_CACHE_SIZE)
      (example_journalled_set_page_dirty { w.pages (x / PAGE_CACHE_SIZE) with
        data := (w.pages (x / PAGE_CACHE_SIZE)).data.write (x % PAGE_CACHE_SIZE) [byte] }).1 := rfl

/-- The marks and the dirty flags that an action leaves. -/
def CacheAct.flags (w : World) : CacheAct → ℕ → Bool × Bool
  | .mapped_store x _ => Function.update w.flags (x / PAGE_CACHE_SIZE) (true, true)
  | .writepage K i =>
    Function.update w.flags i ((w.pages i).checked && !decide (HandleFor K w), false)
  | .evict i _ => Function.update w.flags i (false, false)
  | .write _ | .commit | .write_back _ _ | .readpage _ | .read _ => w.flags

section

variable {s s' : CachedFile} {a : CacheAct}

lemma step_flags (hstep : cachedFile.step s a s') : s'.world.flags = a.flags s.world := by
  change s.next a = some s' at hstep
  cases a with
  | write a =>
    simp only [CachedFile.next] at hstep
    split_ifs at hstep
    rw [← Option.some.inj hstep]
    exact (KeepsMark.round a s.world (.refl _ _)).flags
  | mapped_store x byte =>
    simp only [CachedFile.next] at hstep
    split_ifs at hstep
    rw [← Option.some.inj hstep]
    exact (congrArg World.flags (mapped_store_eq _ _ _)).trans (World.flags_setPage _)
  | writepage K i =>
    rw [← Option.some.inj hstep]
    refine writepage_flags.trans ?_
    rw [World.flags_setPage, World.pages_setPage, Function.update_idem]
    rfl
  | commit =>
    rw [← Option.some.inj hstep]
    rfl
  | write_back i k =>
    simp only [CachedFile.next] at hstep
    split_ifs at hstep
    rw [← Option.some.inj hstep]
    exact ((KeepsMark.refl i s.world).setBuffer k _).flags
  | evict i memory =>
    simp only [CachedFile.next] at hstep
    split_ifs at hstep
    rw [← Option.some.inj hstep]
    exact World.flags_setPage _
  | readpage i =>
    simp only [CachedFile.next] at hstep
    split_ifs at hstep
    rw [← Option.some.inj hstep]
    exact (World.flags_setPage _).trans (Function.update_eq_self i s.world.flags)
  | read x =>
    simp only [CachedFile.next] at hstep
    split_ifs at hstep
    rw [← Option.some.inj hstep]
    rfl

/-- No clean page is marked. -/
lemma quiet_iff : Quiet s ↔ ∀ i, s.world.flags i ≠ (true, false) := by
  refine ⟨fun h i hi => ?_, fun h i freed hclean => ?_⟩
  · obtain ⟨hmark, hclean⟩ := Prod.ext_iff.mp hi
    exact Bool.false_ne_true ((h i 0 hclean).symm.trans hmark)
  · by_contra hmark
    exact h i (Prod.ext_iff.mpr ⟨Bool.eq_true_of_not_eq_false hmark, hclean⟩)

/-- An action that leaves page `i` with `p`, where it leaves the others alone. -/
lemma quiet_update (h : Quiet s) {i : ℕ} {p : Bool × Bool}
    (hflags : s'.world.flags = Function.update s.world.flags i p) :
    Quiet s' ↔ p ≠ (true, false) := by
  rw [quiet_iff, hflags]
  refine ⟨fun hall => ?_, fun hp j => ?_⟩
  · have hi := hall i
    rwa [Function.update_self] at hi
  · by_cases hj : j = i
    · rwa [hj, Function.update_self]
    · rw [Function.update_of_ne hj]
      exact quiet_iff.mp h j

/-- From a state without warnings a step leads to one exactly when it meets the condition. -/
lemma quiet_step (h : Quiet s) (hstep : cachedFile.step s a s') : Quiet s' ↔ ReleaseOk s a := by
  have hflags := step_flags hstep
  have hsame (heq : s'.world.flags = s.world.flags) : Quiet s' := by
    rw [quiet_iff, heq]
    exact quiet_iff.mp h
  cases a with
  | write _ | commit | write_back _ _ | readpage _ | read _ =>
    exact iff_of_true (hsame hflags) True.intro
  | mapped_store x byte => exact iff_of_true ((quiet_update h hflags).mpr (by simp)) True.intro
  | evict i memory => exact iff_of_true ((quiet_update h hflags).mpr (by simp)) True.intro
  | writepage K i =>
    rw [quiet_update h hflags]
    simp [ReleaseOk]

variable {blocks : BlockSize} {disk : Memory UInt8} {i_size : ℕ} {memory : ℕ → Memory UInt8}

/-- In a run `releasepage` warns about no page that the kernel lets go exactly when `writepage` gets
a handle for every marked page. -/
theorem quiet_iff_releaseOk {tr : List (CacheAct × CachedFile)}
    (hr : cachedFile.Run (CachedFile.opened blocks disk i_size memory) tr) :
    System.Always Quiet (CachedFile.opened blocks disk i_size memory) tr ↔
      System.Along ReleaseOk (CachedFile.opened blocks disk i_size memory) tr :=
  hr.always_iff_along (fun _ h => h) (fun _ _ _ h hok hstep => (quiet_step h hstep).mpr hok)
    (fun _ _ _ h hno hstep hq => hno ((quiet_step h hstep).mp hq)) fun _ _ _ => rfl

end

/-- A mapped page is stored to, journalled, committed, stored on the device and dropped. -/
def mappedPage : List CacheAct :=
  [.readpage 0, .mapped_store 3 7, .writepage Outcomes.fine 0, .commit, .write_back 0 0,
    .write_back 0 1, .write_back 0 2, .write_back 0 3, .evict 0 fun _ => 6]

theorem quiet_iff_releaseOk_mapped :
    ∃ tr, cachedFile.Run (.opened ⟨4, 1024, rfl⟩ (fun _ => 0) 8192 fun _ _ => 5) tr ∧
      tr.map Prod.fst = mappedPage ∧
      System.Always Quiet (.opened ⟨4, 1024, rfl⟩ (fun _ => 0) 8192 fun _ _ => 5) tr := by
  have hsome : (System.final (System.checked CachedFile.next ReleaseOk)
      (.opened ⟨4, 1024, rfl⟩ (fun _ => 0) 8192 fun _ _ => 5) mappedPage).isSome := by
    decide +kernel
  obtain ⟨tr, hrun, hacts, halong⟩ := System.exists_run_along hsome
  exact ⟨tr, hrun, hacts, (quiet_iff_releaseOk hrun).mpr halong⟩

end QuickDevSkeleton.Journal
