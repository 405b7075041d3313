import QuickDevSkeleton.Mount.Geometry

/-!
# Mounts that fail

What `example_fill_super` leaves behind where one of the functions it calls fails. It looks at the
result of `journal_load`, but not at that of `example_init_journal`, and it undoes the journal after
the one failure and the root inode after none.
-/

namespace QuickDevSkeleton.Mount

open Foundations

/-- The outcome of a call of `example_fill_super` in `w`: no `NULL` journal was loaded or destroyed,
a superblock that is filled has its root and a loaded journal, and a failed call has left no
journal, no reference and no pointer behind. -/
structure Clean (w : World) (s_bdev : ℕ) (out : Option ℤ × World) : Prop where
  no_null : out.1 ≠ none
  filled : out.1 = some 0 → (∃ s, out.2.supers s_bdev = some s ∧ s.s_root = true) ∧
    ∃ p j, out.2.example_journal = some p ∧ out.2.journals p = some j ∧ j.loaded = true
  undone : ∀ err, out.1 = some err → err ≠ 0 →
    (∀ p, w.created ≤ p → p < out.2.created → out.2.journals p = none) ∧
      out.2.example_journal = none ∧ out.2.inodes = w.inodes ∧
      out.2.buffer_heads = w.buffer_heads

/-- Everything after the root inode succeeds. -/
structure Outcomes.Succeeds (K : Outcomes) : Prop where
  journal : K.JournalOk 1024
  load : K.journal_load = 0
  root : K.d_make_root = true

section

variable {K : Outcomes} {w : World} {d : ℕ}

/-! ### The outcomes -/

/-- Without a root inode, nothing else is done. -/
lemma fill_super_no_inode (h : K.root_inode = false) :
    ∃ supers, example_fill_super K d w = (some (-ENOMEM), { w with supers := supers }) := by
  have hinode : (!K.root_inode) = true := by simp [h]
  simp only [example_fill_super, Exec.modify_bind, if_pos hinode]
  exact ⟨_, rfl⟩

/-- A `NULL` journal is loaded. -/
lemma fill_super_null (h : K.root_inode = true) (hno : ¬ K.JournalOk 1024) :
    (example_fill_super K d w).1 = none := by
  have hinode : ¬ (!K.root_inode) = true := by simp [h]
  simp only [example_fill_super, Exec.modify_bind, if_neg hinode]
  obtain ⟨v, hnull⟩ := init_journal_null d _ hno
  rw [Exec.bind_run_some hnull]
  rfl

/-- The journal cannot be loaded: it is destroyed, and the root inode is still held. -/
lemma fill_super_load_error (h : K.root_inode = true) (hok : K.JournalOk 1024)
    (herr : K.journal_load ≠ 0) :
    ∃ v, example_fill_super K d w = (some K.journal_load, v) ∧ v.inodes = w.inodes + 1 := by
  have hinode : ¬ (!K.root_inode) = true := by simp [h]
  obtain ⟨b_data, hread⟩ := Option.ne_none_iff_exists'.mp hok.bread
  simp only [example_fill_super, Exec.modify_bind, if_neg hinode]
  rw [Exec.bind_run_some (init_journal_ok hok hread)]
  simp only [journal_load, Exec.bind_assoc, Exec.modify_bind, Exec.pure_bind, if_pos herr]
  exact ⟨_, rfl, rfl⟩

/-- The root dentry cannot be made: the journal stays, and the pointer to it. -/
lemma fill_super_no_root (h : K.root_inode = true) (hok : K.JournalOk 1024)
    (hload : K.journal_load = 0) (hroot : K.d_make_root = false) :
    ∃ v, example_fill_super K d w = (some (-ENOMEM), v) ∧ v.example_journal = some w.created := by
  have hinode : ¬ (!K.root_inode) = true := by simp [h]
  obtain ⟨b_data, hread⟩ := Option.ne_none_iff_exists'.mp hok.bread
  simp only [example_fill_super, Exec.modify_bind, if_neg hinode]
  rw [Exec.bind_run_some (init_journal_ok hok hread)]
  simp only [journal_load, d_make_root, Exec.bind_assoc, Exec.modify_bind, Exec.pure_bind, hload,
    ne_eq, not_true_eq_false, if_false, hroot]
  exact ⟨_, rfl, rfl⟩

lemma fill_super_succeeds (h : K.root_inode = true) (hok : K.Succeeds) :
    ∃ v j, example_fill_super K d w = (some 0, v) ∧
      v.supers d = (w.supers d).map (fun s => { s with s_blocksize := 1024, s_root := true }) ∧
      v.example_journal = some w.created ∧ v.journals w.created = some j ∧ j.loaded = true := by
  have hinode : ¬ (!K.root_inode) = true := by simp [h]
  obtain ⟨b_data, hread⟩ := Option.ne_none_iff_exists'.mp hok.journal.bread
  simp only [example_fill_super, Exec.modify_bind, if_neg hinode]
  rw [Exec.bind_run_some (init_journal_ok hok.journal hread)]
  simp only [journal_load, d_make_root, Exec.bind_assoc, Exec.modify_bind, Exec.pure_bind, hok.load,
    ne_eq, not_true_eq_false, if_false, hok.root, if_true]
  refine ⟨_, ⟨d, 2, (b_data + 4) % 2 ^ 32, 1024, true⟩, rfl, ?_, rfl, ?_, rfl⟩
  · simp [Function.comp_def]
  · simp

/-- The block size that a superblock gets. -/
lemma fill_super_blocksize {v : World} {s : SuperBlock}
    (hfill : example_fill_super K d w = (some 0, v)) (hs : v.supers d = some s) :
    s.s_blocksize = 1024 := by
  have hinode : K.root_inode = true := by
    by_contra hno
    obtain ⟨supers, hrun⟩ := fill_super_no_inode (w := w) (d := d) (Bool.not_eq_true _ ▸ hno)
    cases hfill.symm.trans hrun
  have hok : K.JournalOk 1024 := by
    by_contra hno
    have hnull := fill_super_null (w := w) (d := d) hinode hno
    rw [hfill] at hnull
    cases hnull
  have hload : K.journal_load = 0 := by
    by_contra herr
    obtain ⟨v', hrun, -⟩ := fill_super_load_error (w := w) (d := d) hinode hok herr
    have hzero := congrArg Prod.fst (hfill.symm.trans hrun)
    exact herr (Option.some.inj hzero).symm
  have hroot : K.d_make_root = true := by
    by_contra hno
    obtain ⟨v', hrun, -⟩ := fill_super_no_root (w := w) (d := d) hinode hok hload
      (Bool.not_eq_true _ ▸ hno)
    cases hfill.symm.trans hrun
  obtain ⟨v', j, hrun, hsuper, -⟩ :=
    fill_super_succeeds (w := w) (d := d) hinode ⟨hok, hload, hroot⟩
  cases hfill.symm.trans hrun
  rw [hsuper, Option.map_eq_some_iff] at hs
  obtain ⟨s', -, rfl⟩ := hs
  rfl

end

/-- The call is clean exactly if there is no root inode, and no journal from before, or if
everything succeeds. -/
theorem fill_super_clean_iff (K : Outcomes) (d : ℕ) (w : World) (hs : (w.supers d).isSome) :
    Clean w d (example_fill_super K d w) ↔
      K.root_inode = false ∧ w.example_journal = none ∨ K.root_inode = true ∧ K.Succeeds := by
  cases hinode : K.root_inode with
  | false =>
    obtain ⟨supers, hrun⟩ := fill_super_no_inode (w := w) (d := d) hinode
    rw [hrun]
    constructor
    · intro h
      exact Or.inl ⟨rfl, (h.undone _ rfl (by decide)).2.1⟩
    · rintro (⟨-, hnone⟩ | ⟨hno, -⟩)
      · refine ⟨Option.some_ne_none _, fun hzero => ?_, fun err _ _ => ?_⟩
        · exact absurd (Option.some.inj hzero) (by decide)
        · exact ⟨fun p hle hlt => absurd hle (not_le.mpr hlt), hnone, rfl, rfl⟩
      · cases hno
  | true =>
    rw [or_iff_right (fun h => Bool.noConfusion h.1), and_iff_right rfl]
    constructor
    · intro h
      have hok : K.JournalOk 1024 := by
        by_contra hno
        exact h.no_null (fill_super_null hinode hno)
      have hload : K.journal_load = 0 := by
        by_contra herr
        obtain ⟨v, hrun, hinodes⟩ := fill_super_load_error (w := w) (d := d) hinode hok herr
        rw [hrun] at h
        have hsame := (h.undone _ rfl herr).2.2.1
        change v.inodes = w.inodes at hsame
        omega
      have hroot : K.d_make_root = true := by
        by_contra hno
        obtain ⟨v, hrun, hglobal⟩ := fill_super_no_root (w := w) (d := d) hinode hok hload
          (Bool.not_eq_true _ ▸ hno)
        rw [hrun] at h
        have hnull := (h.undone _ rfl (by decide)).2.1
        cases hglobal.symm.trans hnull
      exact ⟨hok, hload, hroot⟩
    · intro hok
      obtain ⟨v, j, hrun, hsuper, hglobal, hjournal, hloaded⟩ :=
        fill_super_succeeds (w := w) (d := d) hinode hok
      obtain ⟨s, hs⟩ := Option.isSome_iff_exists.mp hs
      have hfilled : v.supers d = some { s with s_blocksize := 1024, s_root := true } := by
        rw [hsuper, hs, Option.map_some]
      rw [hrun]
      refine ⟨Option.some_ne_none _, fun _ => ?_, fun err herr hne => ?_⟩
      · exact ⟨⟨_, hfilled, rfl⟩, w.created, j, hglobal, hjournal, hloaded⟩
      · exact absurd (Option.some.inj herr).symm hne

/-- A mount on which nothing fails. -/
theorem fill_super_clean_iff_fine :
    Clean { World.init with supers := fun _ => some ⟨0, false, 1⟩ } 0
      (example_fill_super Outcomes.fine 0
        { World.init with supers := fun _ => some ⟨0, false, 1⟩ }) :=
  (fill_super_clean_iff Outcomes.fine 0 _ rfl).mpr
    (Or.inr ⟨rfl, ⟨by decide, by decide, rfl, rfl, rfl⟩, rfl, rfl⟩)

/-- A device whose block 1 cannot be read: `journal_load` gets the `NULL` that
`example_init_journal` returns. And a device whose journal does not load: the root inode is not
released. -/
theorem fill_super_not_clean :
    (example_fill_super { Outcomes.fine with bread := none } 0
      { World.init with supers := fun _ => some ⟨0, false, 1⟩ }).1 = none ∧
    ¬ Clean { World.init with supers := fun _ => some ⟨0, false, 1⟩ } 0
      (example_fill_super { Outcomes.fine with bread := none } 0
        { World.init with supers := fun _ => some ⟨0, false, 1⟩ }) ∧
    ¬ Clean { World.init with supers := fun _ => some ⟨0, false, 1⟩ } 0
      (example_fill_super { Outcomes.fine with journal_load := - EIO } 0
        { World.init with supers := fun _ => some ⟨0, false, 1⟩ }) := by
  refine ⟨rfl, fun h => h.no_null rfl, fun h => ?_⟩
  have hinodes := (h.undone (- EIO) rfl (by decide)).2.2.1
  exact absurd hinodes (by decide)

end QuickDevSkeleton.Mount
