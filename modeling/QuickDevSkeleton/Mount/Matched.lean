import QuickDevSkeleton.Foundations.System
import QuickDevSkeleton.Mount.Super

/-!
# Journals and superblocks

All mounts share one variable for their journal, and no unmount destroys a journal. Over runs
of mounts and unmounts, when every superblock works on its own journal and no journal outlives
its superblock.
-/

namespace QuickDevSkeleton.Mount

open Foundations

/-- Every operation on a mounted superblock works on a live journal of its device, and every
live journal belongs to a mounted device. -/
structure Matched (w : World) : Prop where
  own_journal : ∀ d, (w.supers d).isSome → ∀ op : FileOp,
    ∃ p j, op.journal w d = some p ∧ w.journals p = some j ∧ j.j_dev = d
  mounted : ∀ p j, w.journals p = some j → (w.supers j.j_dev).isSome

/-- A mount, with the answers of the kernel, or an unmount. -/
inductive Action where
  | mount (bdev : ℕ) (K : Outcomes)
  | umount (bdev : ℕ)

/-- Successful mounts and unmounts, in any order. -/
inductive Step : World → Action → World → Prop where
  | mount {w w' : World} {d : ℕ} {K : Outcomes}
      (h : example_fs_mount K d w = (some .root, w')) : Step w (.mount d K) w'
  | umount {w w' : World} {d : ℕ} (hd : (w.supers d).isSome)
      (h : umount d w = (some (), w')) : Step w (.umount d) w'

def mounts : System World Action where
  step := Step

/-- A device is mounted while it is mounted already or nothing is; a device is unmounted while
it has another mount. -/
def MountOk (w : World) : Action → Prop
  | .mount d _ => (w.supers d).isSome ∨ ∀ e, w.supers e = none
  | .umount d => ∃ s, w.supers d = some s ∧ 1 < s.mounts

/-- Nothing is mounted, or one device is, and the only live journal is its own. -/
def Single (w : World) : Prop :=
  (∀ d, w.supers d = none) ∧ (∀ p, w.journals p = none) ∨
    ∃ d p j, (∀ e, (w.supers e).isSome ↔ e = d) ∧ w.example_journal = some p ∧
      (∀ q, w.journals q = if q = p then some j else none) ∧ j.j_dev = d ∧ p < w.created

section

variable {K : Outcomes} {w w' : World} {d : ℕ}

/-- A journal that `example_init_journal` returns is a new one, of the device. -/
lemma init_journal_some {blocksize p : ℕ}
    (h : example_init_journal K d blocksize w = (some (some p), w')) :
    p = w.created ∧ ∃ j : Journal, j.j_dev = d ∧
      w' = { w with
        journals := Function.update w.journals w.created (some j)
        created := w.created + 1 } := by
  cases hread : K.bread with
  | none =>
    simp only [example_init_journal, hread] at h
    split_ifs at h <;> cases h
  | some b_data =>
    simp only [example_init_journal, hread] at h
    split_ifs at h with hsmall hinit hsb
    · cases h
    · cases h
    · cases h
    · cases h
      exact ⟨rfl, _, rfl, rfl⟩

/-- A superblock that was filled has a new journal of its device, which the global variable
points to. -/
lemma fill_super_ok (h : example_fill_super K d w = (some 0, w')) :
    (∃ s, w'.supers = Function.update w.supers d s ∧ s.isSome = (w.supers d).isSome) ∧
      w'.example_journal = some w.created ∧ w'.created = w.created + 1 ∧
      ∃ j : Journal, j.j_dev = d ∧ w'.journals = Function.update w.journals w.created (some j) := by
  rw [example_fill_super, Exec.modify_bind] at h
  split_ifs at h with hinode
  · cases h
  · rw [Exec.modify_bind] at h
    obtain ⟨journal, v, hinit, h⟩ := Exec.bind_eq_some.mp h
    rw [Exec.modify_bind] at h
    cases journal with
    | none => cases h
    | some p =>
      obtain ⟨rfl, j, hj, rfl⟩ := init_journal_some hinit
      rw [journal_load, Exec.bind_assoc, Exec.modify_bind, Exec.pure_bind] at h
      split_ifs at h with herr
      · rw [journal_destroy, Exec.modify_bind, Exec.modify_bind] at h
        exact absurd (Option.some.inj (congrArg Prod.fst h)) herr
      · rw [d_make_root, Exec.bind_assoc, Exec.modify_bind, Exec.pure_bind, Exec.modify_bind] at h
        split_ifs at h with hroot
        · cases h
          refine ⟨⟨_, Function.update_idem _ _ _, ?_⟩, rfl, rfl,
            { j with loaded := decide (K.journal_load = 0) }, hj, ?_⟩
          · simp
          · simp
        · cases h

/-- A successful mount is one more of a superblock that is there, or it brings a new superblock
and a new journal. -/
lemma mount_ok (h : example_fs_mount K d w = (some .root, w')) :
    (∃ s, w'.supers = Function.update w.supers d (some s)) ∧
      ((w.supers d).isSome ∧ w'.journals = w.journals ∧ w'.example_journal = w.example_journal ∧
          w'.created = w.created ∨
        w.supers d = none ∧ w'.example_journal = some w.created ∧ w'.created = w.created + 1 ∧
          ∃ j : Journal, j.j_dev = d ∧
            w'.journals = Function.update w.journals w.created (some j)) := by
  rw [example_fs_mount] at h
  split_ifs at h with hmodule
  · cases h
  · rw [Exec.modify_bind] at h
    obtain ⟨err, v, hmount, h⟩ := Exec.bind_eq_some.mp h
    split_ifs at h with herr
    · cases h
    · cases h
      rw [not_not.mp herr] at hmount
      rw [mount_bdev, Exec.withState_run] at hmount
      dsimp only at hmount
      cases hsuper : w.supers d with
      | some s =>
        rw [hsuper] at hmount
        cases hmount
        exact ⟨⟨_, rfl⟩, Or.inl ⟨rfl, rfl, rfl, rfl⟩⟩
      | none =>
        rw [hsuper] at hmount
        dsimp only at hmount
        rw [Exec.modify_bind] at hmount
        obtain ⟨err', u, hfill, hmount⟩ := Exec.bind_eq_some.mp hmount
        split_ifs at hmount with herr'
        · cases hmount
          exact absurd rfl herr'
        · cases hmount
          rw [not_not.mp herr'] at hfill
          obtain ⟨⟨s, hsupers, hs⟩, hglobal, hcreated, j, hj, hjournals⟩ := fill_super_ok hfill
          simp only [Function.update_self, Option.isSome_some] at hs
          obtain ⟨s, rfl⟩ := Option.isSome_iff_exists.mp hs
          refine ⟨⟨s, ?_⟩, Or.inr ⟨rfl, hglobal, hcreated, j, hj, hjournals⟩⟩
          rw [hsupers, Function.update_idem]

/-- An unmount keeps the superblock while it has another mount; it never touches a journal. -/
lemma umount_ok {s : SuperBlock} (hs : w.supers d = some s) (h : umount d w = (some (), w')) :
    w'.journals = w.journals ∧ w'.example_journal = w.example_journal ∧ w'.created = w.created ∧
      (1 < s.mounts → ∃ s', w'.supers = Function.update w.supers d (some s')) ∧
      (¬ 1 < s.mounts → w'.supers d = none) := by
  rw [umount, Exec.withState_run, hs] at h
  dsimp only at h
  split_ifs at h with hmounts
  · cases h
    exact ⟨rfl, rfl, rfl, fun _ => ⟨_, rfl⟩, fun hno => absurd hmounts hno⟩
  · cases h
    exact ⟨rfl, rfl, rfl, fun hyes => absurd hyes hmounts, fun _ => Function.update_self _ _ _⟩

/-- Further mounts of what is mounted change nothing about it. -/
lemma Single.congr (hw : Single w)
    (hsupers : ∀ e, (w'.supers e).isSome = (w.supers e).isSome)
    (hjournals : w'.journals = w.journals) (hglobal : w'.example_journal = w.example_journal)
    (hcreated : w'.created = w.created) : Single w' := by
  rcases hw with ⟨hnone, hempty⟩ | ⟨d, p, j, hone, hp, hj, hdev, hlt⟩
  · refine Or.inl ⟨fun e => ?_, by rwa [hjournals]⟩
    rw [← Option.not_isSome_iff_eq_none, hsupers, hnone e]
    exact Bool.false_ne_true
  · refine Or.inr ⟨d, p, j, fun e => ?_, hglobal.trans hp, by rwa [hjournals], hdev, ?_⟩
    · rw [hsupers]
      exact hone e
    · rwa [hcreated]

lemma isSome_update {s : SuperBlock} {supers : ℕ → Option SuperBlock} (hd : (supers d).isSome)
    (e : ℕ) : (Function.update supers d (some s) e).isSome = (supers e).isSome := by
  by_cases he : e = d
  · rw [he, Function.update_self, hd, Option.isSome_some]
  · rw [Function.update_of_ne he]

/-- With one mounted device at most, every operation works on its own journal. -/
lemma Single.matched (hw : Single w) : Matched w := by
  rcases hw with ⟨hsupers, hjournals⟩ | ⟨d, p, j, hsupers, hglobal, hjournals, hj, -⟩
  · constructor
    · intro d hd
      rw [hsupers d] at hd
      cases hd
    · intro p j hpj
      rw [hjournals p] at hpj
      cases hpj
  · constructor
    · intro e he op
      have hop : op.journal w e = some p := by cases op <;> exact hglobal
      refine ⟨p, j, hop, ?_, hj.trans ((hsupers e).mp he).symm⟩
      rw [hjournals, if_pos rfl]
    · intro q j' hq
      rw [hjournals] at hq
      split_ifs at hq with hqp
      · cases hq
        exact (hsupers _).mpr hj

/-- The steps that meet the condition keep it so. -/
lemma Single.step {a : Action} (hw : Single w) (hok : MountOk w a) (hstep : Step w a w') :
    Single w' := by
  cases hstep with
  | @mount _ d K h =>
    obtain ⟨⟨s, hs⟩, hcases⟩ := mount_ok h
    rcases hcases with ⟨hsome, hj', hg', hc'⟩ | ⟨hnone, hg', hc', j, hj, hj'⟩
    · refine hw.congr (fun e => ?_) hj' hg' hc'
      rw [hs, isSome_update hsome]
    · have hnothing : (∀ e, w.supers e = none) ∧ ∀ q, w.journals q = none := by
        rcases hok with hok | hok
        · rw [hnone] at hok
          cases hok
        · rcases hw with hw | ⟨e, p, j, hsupers, -⟩
          · exact hw
          · have he := (hsupers e).mpr rfl
            rw [hok e] at he
            cases he
      refine Or.inr ⟨d, w.created, j, fun e => ?_, hg', fun q => ?_, hj, ?_⟩
      · rw [hs]
        by_cases he : e = d
        · simp [he]
        · simp [hnothing.1 e, he]
      · rw [hj']
        by_cases hq : q = w.created
        · simp [hq]
        · simp [hnothing.2 q, hq]
      · rw [hc']
        exact Nat.lt_succ_self _
  | @umount _ d hd h =>
    obtain ⟨s, hs, hmounts⟩ := hok
    obtain ⟨hj', hg', hc', hkeep, -⟩ := umount_ok hs h
    obtain ⟨s', hs'⟩ := hkeep hmounts
    refine hw.congr (fun e => ?_) hj' hg' hc'
    rw [hs', isSome_update hd]

/-- Any other step breaks the match at once. -/
lemma Single.broken {a : Action} (hw : Single w) (hno : ¬ MountOk w a) (hstep : Step w a w') :
    ¬ Matched w' := by
  intro hmatched
  cases hstep with
  | @mount _ d K h =>
    obtain ⟨hnone, hother⟩ := not_or.mp hno
    obtain ⟨⟨s, hs⟩, hcases⟩ := mount_ok h
    rcases hcases with ⟨hsome, -⟩ | ⟨-, hg', -, j, hj, hj'⟩
    · exact hnone hsome
    · rcases hw with ⟨hsupers, -⟩ | ⟨e, p, j₀, hsupers, -⟩
      · exact hother hsupers
      · -- the operations on the device mounted before now work on the new journal
        have hne : e ≠ d := fun hed => hnone ((hsupers d).mpr hed.symm)
        have he : (w'.supers e).isSome := by
          rw [hs, Function.update_of_ne hne]
          exact (hsupers e).mpr rfl
        obtain ⟨q, j', hq, hj'', hdev⟩ := hmatched.own_journal e he .write_begin
        change w'.example_journal = some q at hq
        rw [hg'] at hq
        cases hq
        rw [hj', Function.update_self] at hj''
        cases hj''
        exact hne (hdev.symm.trans hj)
  | @umount _ d hd h =>
    obtain ⟨s, hs⟩ := Option.isSome_iff_exists.mp hd
    obtain ⟨hj', -, -, -, hkill⟩ := umount_ok hs h
    have hgone := hkill fun hmounts => hno ⟨s, hs, hmounts⟩
    rcases hw with ⟨hsupers, -⟩ | ⟨e, p, j, hsupers, -, hjournals, hj, -⟩
    · rw [hsupers] at hs
      cases hs
    · -- the journal of the device outlives it
      have hlive : w'.journals p = some j := by rw [hj', hjournals, if_pos rfl]
      have hmounted := hmatched.mounted p j hlive
      rw [hj, ← (hsupers d).mp hd, hgone] at hmounted
      cases hmounted

end

/-- Along every run of mounts and unmounts: journals and superblocks stay matched if and only if
a device is mounted only while it is mounted already or nothing is, and no superblock loses its
last mount. -/
theorem matched_iff_single (tr : List (Action × World)) (hrun : mounts.Run World.init tr) :
    System.Always Matched World.init tr ↔ System.Along MountOk World.init tr :=
  hrun.always_iff_along (fun _ => Single.matched) (fun _ _ _ => Single.step)
    (fun _ _ _ => Single.broken) (Or.inl ⟨fun _ => rfl, fun _ => rfl⟩)

/-- No function of the kernel fails. -/
def Outcomes.fine : Outcomes where
  module_get := true
  root_inode := true
  logical_block_size := 512
  bread := some 4096
  journal_init_dev := true
  sb_read := true
  s_nr_users := 1
  journal_load := 0
  d_make_root := true

/-- The world after a mount of `d`. -/
def mounted (d : ℕ) (w : World) : World :=
  (example_fs_mount Outcomes.fine d w).2

lemma step_mounted (d : ℕ) {w : World} (h : (example_fs_mount Outcomes.fine d w).1 = some .root) :
    Step w (.mount d Outcomes.fine) (mounted d w) :=
  .mount (Exec.run_eq h)

/-- One device, mounted twice. -/
theorem matched_iff_single_remount :
    System.Always Matched World.init
      [(Action.mount 0 Outcomes.fine, mounted 0 World.init),
        (Action.mount 0 Outcomes.fine, mounted 0 (mounted 0 World.init))] := by
  refine (matched_iff_single _ (.cons (step_mounted 0 (by decide +kernel))
    (.cons (step_mounted 0 (by decide +kernel)) (.nil _)))).mpr
    ⟨Or.inr fun _ => rfl, Or.inl ?_, trivial⟩
  decide +kernel

/-- Two devices: once the second is mounted, a write to the first goes to the journal of the
second. -/
theorem second_mount_unmatched :
    mounts.Run World.init
        [(Action.mount 0 Outcomes.fine, mounted 0 World.init),
          (Action.mount 1 Outcomes.fine, mounted 1 (mounted 0 World.init))] ∧
      ¬ System.Always Matched World.init
        [(Action.mount 0 Outcomes.fine, mounted 0 World.init),
          (Action.mount 1 Outcomes.fine, mounted 1 (mounted 0 World.init))] := by
  have h₀ : Step World.init (.mount 0 Outcomes.fine) (mounted 0 World.init) :=
    step_mounted 0 (by decide +kernel)
  have h₁ : Step (mounted 0 World.init) (.mount 1 Outcomes.fine)
      (mounted 1 (mounted 0 World.init)) :=
    step_mounted 1 (by decide +kernel)
  refine ⟨.cons h₀ (.cons h₁ (.nil _)), fun hall => ?_⟩
  have hinit : Single World.init := Or.inl ⟨fun _ => rfl, fun _ => rfl⟩
  have hsingle : Single (mounted 0 World.init) :=
    hinit.step (a := .mount 0 Outcomes.fine) (Or.inr fun _ => rfl) h₀
  have hzero : ((mounted 0 World.init).supers 0).isSome := by decide +kernel
  have hone : (mounted 0 World.init).supers 1 = none := rfl
  refine hsingle.broken ?_ h₁ (System.always_cons.mp (System.always_cons.mp hall).2).2.1
  rintro (hmounted | hnothing)
  · rw [hone] at hmounted
    cases hmounted
  · rw [hnothing 0] at hzero
    cases hzero

end QuickDevSkeleton.Mount
