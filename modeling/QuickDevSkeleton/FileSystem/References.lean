import Mathlib.Algebra.Order.Group.Int
import QuickDevSkeleton.Foundations.System

/-!
# Module references of a filesystem

The mount and kill functions that `fs/journal/file_system.c` and `fs/get_block/file_system.c` have
in common. A reference to the module is taken with every mount and put with every superblock that
dies; when the two agree.
-/

namespace QuickDevSkeleton.FileSystem

open Foundations

/-- A superblock of a block device, and how many mounts it has. -/
structure SuperBlock where
  s_bdev : ℕ
  mounts : ℕ

/-- The live superblocks, and the references to the module. -/
structure World where
  supers : List SuperBlock
  module_refs : ℤ

/-- What the kernel answers during one mount: whether the module can be had, the error of
`mount_bdev` before it has a superblock to create or mount again (0 if there is none), and the
result of `example_fill_super`. -/
structure Outcomes where
  module_get : Bool
  bdev : ℤ
  fill_super : ℤ

namespace World

variable (w : World)

/-- The superblock of a device. -/
def sget (bdev : ℕ) : Option SuperBlock :=
  w.supers.find? fun s => s.s_bdev = bdev

/-- `kill_block_super` ends the superblock of the device. -/
def example_kill_block_super (bdev : ℕ) : World where
  supers := w.supers.eraseP fun s => s.s_bdev = bdev
  module_refs := w.module_refs - 1

/-- The superblock of the device gets another number of mounts. -/
def setMounts (bdev n : ℕ) : World :=
  { w with supers := w.supers.map fun s => if s.s_bdev = bdev then { s with mounts := n } else s }

/-- `mount_bdev(fs_type, flags, dev_name, data, example_fill_super)`. A superblock that cannot be
filled is killed again. -/
def mount_bdev (K : Outcomes) (bdev : ℕ) : World × ℤ :=
  if K.bdev ≠ 0 then (w, K.bdev)
  else match w.sget bdev with
    | some s => (w.setMounts bdev (s.mounts + 1), 0)
    | none =>
      let w := { w with supers := ⟨bdev, 1⟩ :: w.supers }
      if K.fill_super ≠ 0 then (w.example_kill_block_super bdev, K.fill_super) else (w, 0)

/-- A mount; without a reference to the module it returns a null dentry. -/
def example_fs_mount (K : Outcomes) (bdev : ℕ) : World × Option ℤ :=
  if !K.module_get then (w, none)
  else
    let (w, err) := { w with module_refs := w.module_refs + 1 }.mount_bdev K bdev
    (w, some err)

/-- `umount` of a device: the superblock is killed with its last mount. -/
def umount (bdev : ℕ) : Option World :=
  (w.sget bdev).map fun s =>
    if s.mounts > 1 then w.setMounts bdev (s.mounts - 1) else w.example_kill_block_super bdev

/-- The module is loaded and nothing is mounted. -/
def init : World where
  supers := []
  module_refs := 0

end World

/-! ### Superblocks by device -/

namespace World

variable {v : World} {d : ℕ}

/-- Another number of mounts does not change which superblocks there are. -/
lemma sget_setMounts (v : World) (d n e : ℕ) :
    (v.setMounts d n).sget e =
      (v.sget e).map fun s => if s.s_bdev = d then { s with mounts := n } else s := by
  have hsame : ((fun s : SuperBlock => decide (s.s_bdev = e)) ∘
      fun s => if s.s_bdev = d then { s with mounts := n } else s) =
      fun s => decide (s.s_bdev = e) := by
    funext s
    rw [Function.comp_apply]
    split_ifs <;> rfl
  rw [sget, setMounts, List.find?_map, hsame, sget]

/-- Where every device has one superblock at most, a killed one is gone, and no other. -/
lemma sget_kill (hnodup : (v.supers.map SuperBlock.s_bdev).Nodup) (d e : ℕ) :
    (v.example_kill_block_super d).sget e = if e = d then none else v.sget e := by
  obtain ⟨supers, refs⟩ := v
  simp only [sget, example_kill_block_super] at hnodup ⊢
  induction supers with
  | nil => simp
  | cons s supers ih =>
    obtain ⟨hs, hnodup⟩ := List.nodup_cons.mp hnodup
    by_cases hsd : s.s_bdev = d
    · rw [List.eraseP_cons_of_pos (by simpa using hsd)]
      split_ifs with hed
      · refine List.find?_eq_none.mpr fun t ht htd => hs ?_
        rw [hsd, ← hed, ← of_decide_eq_true htd]
        exact List.mem_map_of_mem ht
      · rw [List.find?_cons_of_neg]
        simpa [hsd] using Ne.symm hed
    · rw [List.eraseP_cons_of_neg (by simpa using hsd), List.find?_cons, List.find?_cons, ih hnodup]
      by_cases hse : s.s_bdev = e
      · have hed : e ≠ d := fun hed => hsd (hse.trans hed)
        simp only [decide_eq_true hse, if_neg hed]
      · simp only [decide_eq_false hse]

end World

/-! ### Runs -/

/-- A mount with the answers of the kernel, or an unmount. -/
inductive Action where
  | mount (bdev : ℕ) (K : Outcomes)
  | umount (bdev : ℕ)

def World.next (w : World) : Action → Option World
  | .mount bdev K => some (w.example_fs_mount K bdev).1
  | .umount bdev => w.umount bdev

/-- Mounts and unmounts in any order. -/
def mounts : System World Action :=
  System.ofPartial World.next

/-- As many references are held as there are superblocks, so that the module can be removed exactly
when nothing is mounted. -/
structure Balanced (w : World) : Prop where
  refs : w.module_refs = w.supers.length
  removable : w.module_refs = 0 ↔ w.supers = []

/-- A mount that gets the module goes to a device that is not mounted, and gets as far as creating
its superblock. -/
def MountOk (w : World) : Action → Prop
  | .mount bdev K => K.module_get = true → K.bdev = 0 ∧ w.sget bdev = none
  | .umount _ => True

section

variable {w w' : World} {bdev : ℕ} {K : Outcomes}

/-- The references that no superblock accounts for. -/
def World.excess (w : World) : ℤ :=
  w.module_refs - w.supers.length

lemma balanced_iff : Balanced w ↔ w.excess = 0 := by
  refine ⟨fun h => sub_eq_zero.mpr h.refs, fun h => ?_⟩
  have hrefs : w.module_refs = w.supers.length := sub_eq_zero.mp h
  refine ⟨hrefs, ?_⟩
  rw [hrefs, Int.natCast_eq_zero, List.length_eq_zero_iff]

lemma excess_setMounts (w : World) (bdev n : ℕ) : (w.setMounts bdev n).excess = w.excess := by
  rw [World.excess, World.setMounts, List.length_map]
  rfl

/-- With a superblock goes a reference. -/
lemma excess_kill_super {s : SuperBlock} (h : w.sget bdev = some s) :
    (w.example_kill_block_super bdev).excess = w.excess := by
  have hmem : s ∈ w.supers := List.mem_of_find?_eq_some h
  have hdev : decide (s.s_bdev = bdev) = true :=
    List.find?_some (p := fun s : SuperBlock => decide (s.s_bdev = bdev)) h
  have hlen : (w.supers.eraseP fun s => s.s_bdev = bdev).length = w.supers.length - 1 :=
    List.length_eraseP_of_mem hmem hdev
  have hpos : 0 < w.supers.length := List.length_pos_of_mem hmem
  simp only [World.excess, World.example_kill_block_super, hlen]
  omega

/-- `mount_bdev` uses up the reference of its caller when it creates a superblock, whether that is
filled or killed again. -/
lemma excess_creates (hbdev : K.bdev = 0) (hget : w.sget bdev = none) :
    (w.mount_bdev K bdev).1.excess = w.excess - 1 := by
  let w₁ : World := { w with supers := ⟨bdev, 1⟩ :: w.supers }
  have hnew : w₁.sget bdev = some ⟨bdev, 1⟩ := List.find?_cons_of_pos (decide_eq_true rfl)
  have hexcess : w₁.excess = w.excess - 1 := by
    simp only [w₁, World.excess, List.length_cons, Int.natCast_succ]
    omega
  simp only [World.mount_bdev, if_neg (not_not.mpr hbdev), hget]
  by_cases hfill : K.fill_super = 0
  · rw [if_neg (not_not.mpr hfill)]
    exact hexcess
  · rw [if_pos hfill, ← hexcess]
    exact excess_kill_super hnew

/-- A mount that fails early, or finds its device mounted, does not use up the reference. -/
lemma excess_finds (h : ¬ (K.bdev = 0 ∧ w.sget bdev = none)) :
    (w.mount_bdev K bdev).1.excess = w.excess := by
  by_cases hbdev : K.bdev = 0
  · obtain ⟨s, hget⟩ := Option.ne_none_iff_exists'.mp fun hnone => h ⟨hbdev, hnone⟩
    simp only [World.mount_bdev, if_neg (not_not.mpr hbdev), hget]
    exact excess_setMounts w bdev (s.mounts + 1)
  · simp only [World.mount_bdev, if_pos (Ne.intro hbdev)]

/-- The reference that the mount takes. -/
lemma excess_mount (hmodule : K.module_get = true) :
    (w.example_fs_mount K bdev).1.excess =
      if K.bdev = 0 ∧ w.sget bdev = none then w.excess else w.excess + 1 := by
  let w₁ : World := { w with module_refs := w.module_refs + 1 }
  have hmount : (w.example_fs_mount K bdev).1 = (w₁.mount_bdev K bdev).1 := by
    simp only [World.example_fs_mount, hmodule]
    rfl
  have htook : w₁.excess = w.excess + 1 := by
    simp only [w₁, World.excess]
    omega
  rw [hmount]
  split_ifs with hnew
  · obtain ⟨hbdev, hget⟩ := hnew
    rw [excess_creates (w := w₁) hbdev hget, htook, add_sub_cancel_right]
  · rw [excess_finds (w := w₁) hnew, htook]

lemma mount_refused (h : K.module_get = false) : (w.example_fs_mount K bdev).1 = w := by
  simp only [World.example_fs_mount, h]
  rfl

lemma excess_umount (h : w.umount bdev = some w') : w'.excess = w.excess := by
  obtain ⟨s, hget, rfl⟩ := Option.map_eq_some_iff.mp h
  split_ifs
  · exact excess_setMounts w bdev (s.mounts - 1)
  · exact excess_kill_super hget

end

/-- The steps that meet the condition keep the balance. -/
lemma Balanced.step {w w' : World} {a : Action} (h : Balanced w) (hok : MountOk w a)
    (hstep : mounts.step w a w') : Balanced w' := by
  have hnext : w.next a = some w' := hstep
  rw [balanced_iff] at h ⊢
  cases a with
  | mount bdev K =>
    rw [← Option.some.inj hnext]
    cases hmodule : K.module_get with
    | false => rw [mount_refused hmodule, h]
    | true => rw [excess_mount hmodule, if_pos (hok hmodule), h]
  | umount bdev => rw [excess_umount hnext, h]

/-- Any other mount leaves a reference behind. -/
lemma Balanced.lost {w w' : World} {a : Action} (h : Balanced w) (hno : ¬ MountOk w a)
    (hstep : mounts.step w a w') : ¬ Balanced w' := by
  have hnext : w.next a = some w' := hstep
  rw [balanced_iff] at h ⊢
  cases a with
  | mount bdev K =>
    obtain ⟨hmodule, hfinds⟩ := Classical.not_imp.mp hno
    rw [← Option.some.inj hnext, excess_mount hmodule, if_neg hfinds, h]
    decide
  | umount bdev => exact absurd trivial hno

/-- The runs of mounts and unmounts in which the references to the module are always as many as the
superblocks are those in which every mount that gets the module creates a superblock. -/
theorem balanced_iff_mountOk (tr : List (Action × World)) (hrun : mounts.Run World.init tr) :
    System.Always Balanced World.init tr ↔ System.Along MountOk World.init tr :=
  hrun.always_iff_along (fun _ h => h) (fun _ _ _ => Balanced.step) (fun _ _ _ => Balanced.lost)
    (balanced_iff.mpr rfl)

/-- A device is mounted and unmounted, and then a mount of it fails in `example_fill_super`. -/
theorem balanced_iff_mountOk_twice :
    ∃ tr, mounts.Run World.init tr ∧
      tr.map Prod.fst = [.mount 8 ⟨true, 0, 0⟩, .umount 8, .mount 8 ⟨true, 0, -12⟩] ∧
      System.Always Balanced World.init tr := by
  obtain ⟨w₁, h₁⟩ : ∃ w, World.init.next (.mount 8 ⟨true, 0, 0⟩) = some w := ⟨_, rfl⟩
  obtain ⟨w₂, h₂⟩ : ∃ w, w₁.next (.umount 8) = some w := by
    cases h₁
    exact ⟨_, rfl⟩
  obtain ⟨w₃, h₃⟩ : ∃ w, w₂.next (.mount 8 ⟨true, 0, -12⟩) = some w := ⟨_, rfl⟩
  have hrun : mounts.Run World.init
      [(.mount 8 ⟨true, 0, 0⟩, w₁), (.umount 8, w₂), (.mount 8 ⟨true, 0, -12⟩, w₃)] :=
    .cons h₁ (.cons h₂ (.cons h₃ (.nil w₃)))
  refine ⟨_, hrun, rfl, (balanced_iff_mountOk _ hrun).mpr
    ⟨fun _ => ⟨rfl, rfl⟩, trivial, fun _ => ⟨rfl, ?_⟩, trivial⟩⟩
  cases h₁
  cases h₂
  rfl

/-- A device is mounted twice and unmounted twice: its superblock is gone, and a reference is left.
-/
theorem second_mount_keeps_module :
    ∃ tr, mounts.Run World.init tr ∧
      tr.map Prod.fst = [.mount 8 ⟨true, 0, 0⟩, .mount 8 ⟨true, 0, 0⟩, .umount 8, .umount 8] ∧
      ¬ System.Always Balanced World.init tr := by
  have h : (System.final World.next World.init
      [.mount 8 ⟨true, 0, 0⟩, .mount 8 ⟨true, 0, 0⟩, .umount 8, .umount 8]).map
        (fun w => (w.module_refs, w.supers.length)) = some (1, 0) := by
    decide +kernel
  refine System.exists_run_not_always h fun w hw hbalanced => ?_
  have hrefs := hbalanced.refs
  obtain ⟨hone, hzero⟩ := Prod.mk.inj hw
  rw [hone, hzero] at hrefs
  cases hrefs

end QuickDevSkeleton.FileSystem
