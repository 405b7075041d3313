import QuickDevSkeleton.FileSystem.References
import QuickDevSkeleton.Mount.Matched

/-!
# References of the journalled filesystem

With all that `example_fill_super` does to inodes and journals left out, the runs of mounts and
unmounts of the journalled filesystem are runs of `FileSystem`, which counts superblocks and module
references only.
-/

namespace QuickDevSkeleton.Mount

open Foundations

/-- The same superblocks with as many mounts, one a device, and the same references. -/
structure Abstracts (w : World) (v : FileSystem.World) : Prop where
  refs : v.module_refs = w.module_refs
  supers : ∀ e, v.sget e = (w.supers e).map fun s => ⟨e, s.mounts⟩
  nodup : (v.supers.map FileSystem.SuperBlock.s_bdev).Nodup

variable {K : Outcomes} {w w' : World} {v : FileSystem.World} {d : ℕ}

/-- The references and the numbers of mounts are `refs` and `mounts`. -/
def World.Counts (refs : ℤ) (mounts : ℕ → Option ℕ) (w : World) : Prop :=
  w.module_refs = refs ∧ ∀ e, (w.supers e).map SuperBlock.mounts = mounts e

/-- Other fields of a superblock do not count. -/
lemma World.Counts.update {refs : ℤ} {mounts : ℕ → Option ℕ} (h : w.Counts refs mounts)
    {f : SuperBlock → SuperBlock} (hf : ∀ s, (f s).mounts = s.mounts) :
    World.Counts refs mounts
      { w with supers := Function.update w.supers d ((w.supers d).map f) } := by
  refine ⟨h.1, fun e => ?_⟩
  rw [← h.2 e]
  change (Function.update w.supers d ((w.supers d).map f) e).map SuperBlock.mounts = _
  by_cases hed : e = d
  · rw [hed, Function.update_self, Option.map_map]
    exact congrArg (Option.map · (w.supers d)) (funext hf)
  · rw [Function.update_of_ne hed]

lemma init_journal_keeps (refs : ℤ) (mounts : ℕ → Option ℕ) (K : Outcomes) (d blocksize : ℕ) :
    Exec.Keeps (World.Counts refs mounts) (example_init_journal K d blocksize) := by
  rw [example_init_journal]
  refine Exec.Keeps.ite (Exec.Keeps.pure _) ?_
  cases K.bread with
  | none => exact Exec.Keeps.pure _
  | some b_data =>
    refine Exec.Keeps.bind (Exec.Keeps.modify fun _ h => h) fun _ => ?_
    refine Exec.Keeps.bind (Exec.Keeps.modify fun _ h => h) fun _ => ?_
    refine Exec.Keeps.ite (Exec.Keeps.pure _) (Exec.Keeps.bind ?_ fun journal => ?_)
    · exact Exec.Keeps.withState fun w =>
        Exec.Keeps.bind (Exec.Keeps.modify fun _ h => h) fun _ => Exec.Keeps.pure _
    · refine Exec.Keeps.ite ?_ (Exec.Keeps.pure _)
      exact Exec.Keeps.bind (Exec.Keeps.modify fun _ h => h) fun _ => Exec.Keeps.pure _

/-- What `example_fill_super` does to inodes and journals does not count. -/
lemma fill_super_keeps (refs : ℤ) (mounts : ℕ → Option ℕ) (K : Outcomes) (d : ℕ) :
    Exec.Keeps (World.Counts refs mounts) (example_fill_super K d) := by
  rw [example_fill_super]
  refine Exec.Keeps.bind (Exec.Keeps.modify fun _ h => h.update fun _ => rfl) fun _ => ?_
  refine Exec.Keeps.ite (Exec.Keeps.pure _) ?_
  refine Exec.Keeps.bind (Exec.Keeps.modify fun _ h => h) fun _ => ?_
  refine Exec.Keeps.bind (init_journal_keeps refs mounts K d 1024) fun journal => ?_
  refine Exec.Keeps.bind (Exec.Keeps.modify fun _ h => h) fun _ => ?_
  refine Exec.Keeps.bind ?_ fun err => Exec.Keeps.ite ?_ ?_
  · cases journal with
    | none => exact Exec.Keeps.crash
    | some p => exact Exec.Keeps.bind (Exec.Keeps.modify fun _ h => h) fun _ => Exec.Keeps.pure _
  · refine Exec.Keeps.bind ?_ fun _ =>
      Exec.Keeps.bind (Exec.Keeps.modify fun _ h => h) fun _ => Exec.Keeps.pure _
    cases journal with
    | none => exact Exec.Keeps.crash
    | some p => exact Exec.Keeps.modify fun _ h => h
  · refine Exec.Keeps.bind ?_ fun root => ?_
    · exact Exec.Keeps.bind (Exec.Keeps.modify fun _ h => h) fun _ => Exec.Keeps.pure _
    · refine Exec.Keeps.bind (Exec.Keeps.modify fun _ h => h.update fun _ => rfl) fun _ => ?_
      exact Exec.Keeps.ite (Exec.Keeps.pure _) (Exec.Keeps.pure _)

/-- A superblock is killed on both sides. -/
lemma Abstracts.kill (h : Abstracts w v) (d : ℕ) :
    Abstracts { w with module_refs := w.module_refs - 1, supers := Function.update w.supers d none }
      (v.example_kill_block_super d) where
  refs := congrArg (· - 1) h.refs
  supers e := by
    rw [FileSystem.World.sget_kill h.nodup]
    change _ = (Function.update w.supers d none e).map _
    by_cases hed : e = d
    · rw [if_pos hed, hed, Function.update_self, Option.map_none]
    · rw [if_neg hed, Function.update_of_ne hed]
      exact h.supers e
  nodup := h.nodup.sublist (List.eraseP_sublist.map _)

/-- A superblock gets another number of mounts on both sides. -/
lemma Abstracts.setMounts (h : Abstracts w v) {s : SuperBlock} (hs : w.supers d = some s) (n : ℕ) :
    Abstracts { w with supers := Function.update w.supers d (some { s with mounts := n }) }
      (v.setMounts d n) where
  refs := h.refs
  supers e := by
    rw [FileSystem.World.sget_setMounts, h.supers, Option.map_map]
    change _ = (Function.update w.supers d _ e).map _
    by_cases hed : e = d
    · rw [hed, Function.update_self, hs, Option.map_some, Function.comp_apply, if_pos rfl]
      rfl
    · rw [Function.update_of_ne hed]
      cases w.supers e with
      | none => rfl
      | some s => exact congrArg some (if_neg hed)
  nodup := by
    have hsame : (v.setMounts d n).supers.map FileSystem.SuperBlock.s_bdev =
        v.supers.map FileSystem.SuperBlock.s_bdev := by
      rw [FileSystem.World.setMounts, List.map_map]
      refine List.map_congr_left fun s _ => ?_
      rw [Function.comp_apply]
      split_ifs <;> rfl
    rw [hsame]
    exact h.nodup

/-- A superblock is created on both sides, and only its number of mounts counts. -/
lemma Abstracts.create (h : Abstracts w v) (hnone : w.supers d = none)
    (hcounts : w'.Counts w.module_refs
      fun e => (Function.update w.supers d (some ⟨0, false, 1⟩) e).map SuperBlock.mounts) :
    Abstracts w' { v with supers := ⟨d, 1⟩ :: v.supers } where
  refs := h.refs.trans hcounts.1.symm
  supers e := by
    have hmounts := hcounts.2 e
    have hmap : ∀ o : Option SuperBlock, (o.map fun s => FileSystem.SuperBlock.mk e s.mounts) =
        (o.map SuperBlock.mounts).map fun n => ⟨e, n⟩ := by
      intro o
      rw [Option.map_map]
      rfl
    rw [hmap, hmounts, ← hmap]
    by_cases hed : e = d
    · rw [hed, Function.update_self]
      exact List.find?_cons_of_pos (decide_eq_true rfl)
    · rw [Function.update_of_ne hed, ← h.supers e]
      exact List.find?_cons_of_neg (by simpa using Ne.symm hed)
  nodup := by
    refine List.nodup_cons.mpr ⟨fun hmem => ?_, h.nodup⟩
    obtain ⟨s, hs, hsd⟩ := List.mem_map.mp hmem
    have hget := h.supers d
    rw [hnone, Option.map_none] at hget
    exact List.find?_eq_none.mp hget s hs (decide_eq_true hsd)

/-! ### Mounts and unmounts -/

lemma Abstracts.mount_bdev {err : ℤ} (h : Abstracts w v)
    (hrun : mount_bdev K d w = (some err, w')) :
    Abstracts w' (v.mount_bdev ⟨true, 0, err⟩ d).1 := by
  rw [Mount.mount_bdev, Exec.withState_run] at hrun
  have hget := h.supers d
  cases hsuper : w.supers d with
  | some s =>
    rw [hsuper] at hrun hget
    cases hrun
    simp only [FileSystem.World.mount_bdev, hget]
    exact h.setMounts hsuper (s.mounts + 1)
  | none =>
    rw [hsuper] at hrun hget
    dsimp only at hrun
    rw [Exec.modify_bind] at hrun
    obtain ⟨err', u, hfill, hrun⟩ := Exec.bind_eq_some.mp hrun
    have hcounts := fill_super_keeps w.module_refs
      (fun e => (Function.update w.supers d (some ⟨0, false, 1⟩) e).map SuperBlock.mounts) K d
      { w with supers := Function.update w.supers d (some ⟨0, false, 1⟩) } ⟨rfl, fun _ => rfl⟩
    rw [hfill] at hcounts
    have hcreate := h.create hsuper hcounts
    by_cases hok : err' = 0
    · rw [if_neg (not_not.mpr hok)] at hrun
      cases hrun
      have hv : v.mount_bdev ⟨true, 0, 0⟩ d = ({ v with supers := ⟨d, 1⟩ :: v.supers }, 0) := by
        simp [FileSystem.World.mount_bdev, hget]
      rw [hv]
      exact hcreate
    · rw [if_pos hok] at hrun
      cases hrun
      have hv : v.mount_bdev ⟨true, 0, err⟩ d = (FileSystem.World.example_kill_block_super
          { v with supers := ⟨d, 1⟩ :: v.supers } d, err) := by
        simp [FileSystem.World.mount_bdev, hget, hok]
      rw [hv]
      exact hcreate.kill d

/-- A mount of the journalled filesystem is one of `FileSystem`, whatever it returns. -/
lemma Abstracts.mount {r : Dentry} (h : Abstracts w v)
    (hrun : example_fs_mount K d w = (some r, w')) :
    ∃ K', Abstracts w' (v.example_fs_mount K' d).1 := by
  rw [example_fs_mount] at hrun
  split_ifs at hrun with hmodule
  · cases hrun
    exact ⟨⟨false, 0, 0⟩, h⟩
  · rw [Exec.modify_bind] at hrun
    obtain ⟨err, u, hmount, hrun⟩ := Exec.bind_eq_some.mp hrun
    have htook : Abstracts { w with module_refs := w.module_refs + 1 }
        { v with module_refs := v.module_refs + 1 } :=
      ⟨congrArg (· + 1) h.refs, h.supers, h.nodup⟩
    have hu : w' = u := by
      split_ifs at hrun <;> cases hrun <;> rfl
    rw [hu]
    exact ⟨⟨true, 0, err⟩, htook.mount_bdev hmount⟩

lemma Abstracts.umount (h : Abstracts w v) (hd : (w.supers d).isSome)
    (hrun : umount d w = (some (), w')) : ∃ v', v.umount d = some v' ∧ Abstracts w' v' := by
  obtain ⟨s, hs⟩ := Option.isSome_iff_exists.mp hd
  have hget : v.sget d = some ⟨d, s.mounts⟩ := by
    rw [h.supers, hs, Option.map_some]
  rw [Mount.umount, Exec.withState_run, hs] at hrun
  dsimp only at hrun
  rw [FileSystem.World.umount, hget, Option.map_some]
  refine ⟨_, rfl, ?_⟩
  split_ifs at hrun with hmounts
  · cases hrun
    rw [if_pos hmounts]
    exact h.setMounts hs (s.mounts - 1)
  · cases hrun
    rw [if_neg hmounts]
    exact h.kill d

lemma abstracts_init : Abstracts World.init FileSystem.World.init where
  refs := rfl
  supers _ := rfl
  nodup := List.nodup_nil

/-- Every run of the journalled filesystem is a run of `FileSystem`, state by state. -/
theorem mounts_abstracts (tr : List (Action × World)) (hrun : mounts.Run World.init tr) :
    ∃ tr', FileSystem.mounts.Run FileSystem.World.init tr' ∧
      List.Forall₂ (fun x y => Abstracts x.2 y.2) tr tr' := by
  refine hrun.simulate_rel (fun w a w' v h hstep => ?_) abstracts_init
  cases hstep with
  | @mount _ d K hmount =>
    obtain ⟨K', hv⟩ := h.mount hmount
    exact ⟨.mount d K', _, rfl, hv⟩
  | @umount _ d hd humount =>
    obtain ⟨v', hv', hv⟩ := h.umount hd humount
    exact ⟨.umount d, v', hv', hv⟩

end QuickDevSkeleton.Mount
