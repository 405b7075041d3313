import QuickDevSkeleton.Devpts.Device

/-!
# What a step of devpts can do

The steps of the processes and of the mounts around them, one rule for each way a statement of the
source can go. `devpts_mnt` is never set, so that `sget` makes a new super block for every mount.
-/

namespace QuickDevSkeleton.Devpts

open Foundations

namespace Fs

variable {d e : Fs} {s t : ℕ} {f : PtsFsInfo → PtsFsInfo} {g : List Dentry → List Dentry} {m : Bool}
  {sb : SuperBlock}

/-- `deactivate_super(sb)` with the last reference. -/
def destroy (d : Fs) (s : ℕ) (mount : Bool) : Fs :=
  { d with sbs := (d.drop s mount).sbs.free s }

/-! ### What the operations do to the fields -/

section

variable {α : Type} {k : SuperBlock → α} {z : α} {F : SuperBlock → SuperBlock}

lemma field_of_cell (h : d.sbs.cell s = some sb) : d.field k z s = k sb := by
  rw [field, h]
  rfl

lemma field_modify_of_eq (h : ∀ sb, k (F sb) = k sb) :
    (d.modify s F).field k z t = d.field k z t :=
  congrArg (Option.getD · z) (d.sbs.map_cell_modify F h t)

lemma field_modify_self (h : d.sbs.cell s = some sb) :
    (d.modify s F).field k z s = k (F sb) :=
  field_of_cell (by rw [modify, Heap.cell_modify, h]; rfl)

lemma field_modify_of_ne (h : t ≠ s) : (d.modify s F).field k z t = d.field k z t := by
  rw [field, modify, Heap.cell_modify_of_ne _ _ h]
  rfl

lemma field_destroy_self : (d.destroy s m).field k z s = z := by
  rw [field, destroy, Heap.cell_free]
  rfl

lemma field_destroy_of_ne (h : t ≠ s) : (d.destroy s m).field k z t = d.field k z t := by
  rw [field, destroy, Heap.cell_free_of_ne _ h]
  exact field_modify_of_ne h

/-- No super block has been made from `next` on. -/
lemma field_next : d.field k z d.sbs.next = z := by
  rw [field, d.sbs.cell_next]
  rfl

lemma field_of_cell_eq (h : e.sbs.cell = d.sbs.cell) : e.field k z t = d.field k z t := by
  rw [field, h]
  rfl

lemma field_of_cell_update (h : e.sbs.cell = Function.update d.sbs.cell s (some sb)) :
    e.field k z t = if t = s then k sb else d.field k z t := by
  by_cases ht : t = s
  · rw [field, h, ht, Function.update_self, if_pos rfl]
    rfl
  · rw [field, h, Function.update_of_ne ht, if_neg ht]
    rfl

end

lemma cell_of_isSome (h : (d.DEVPTS_SB s).isSome) : ∃ sb, d.sbs.cell s = some sb := by
  cases hcell : d.sbs.cell s with
  | none => simp [DEVPTS_SB, field, hcell] at h
  | some sb => exact ⟨sb, rfl⟩

@[simp] lemma active_update : (d.update s f).active t = d.active t :=
  field_modify_of_eq fun _ => rfl

@[simp] lemma mounts_update : (d.update s f).mounts t = d.mounts t :=
  field_modify_of_eq fun _ => rfl

@[simp] lemma ptys_update : (d.update s f).ptys t = d.ptys t :=
  field_modify_of_eq fun _ => rfl

@[simp] lemma DEVPTS_SB_update_self :
    (d.update s f).DEVPTS_SB s = (d.DEVPTS_SB s).map f := by
  cases hcell : d.sbs.cell s with
  | none => simp [DEVPTS_SB, field, update, modify, hcell]
  | some sb =>
    rw [DEVPTS_SB, DEVPTS_SB, field_of_cell hcell]
    exact field_modify_self hcell

lemma DEVPTS_SB_update_of_ne (h : t ≠ s) : (d.update s f).DEVPTS_SB t = d.DEVPTS_SB t :=
  field_modify_of_ne h

@[simp] lemma active_updatePtys : (d.updatePtys s g).active t = d.active t :=
  field_modify_of_eq fun _ => rfl

@[simp] lemma mounts_updatePtys : (d.updatePtys s g).mounts t = d.mounts t :=
  field_modify_of_eq fun _ => rfl

@[simp] lemma DEVPTS_SB_updatePtys : (d.updatePtys s g).DEVPTS_SB t = d.DEVPTS_SB t :=
  field_modify_of_eq fun _ => rfl

lemma ptys_updatePtys_self (h : (d.DEVPTS_SB s).isSome) :
    (d.updatePtys s g).ptys s = g (d.ptys s) := by
  obtain ⟨sb, hcell⟩ := cell_of_isSome h
  rw [ptys, ptys, field_of_cell hcell]
  exact field_modify_self hcell

lemma ptys_updatePtys_of_ne (h : t ≠ s) : (d.updatePtys s g).ptys t = d.ptys t :=
  field_modify_of_ne h

@[simp] lemma DEVPTS_SB_grab : (d.grab s m).DEVPTS_SB t = d.DEVPTS_SB t :=
  field_modify_of_eq fun _ => rfl

@[simp] lemma ptys_grab : (d.grab s m).ptys t = d.ptys t :=
  field_modify_of_eq fun _ => rfl

lemma active_grab_self (h : (d.DEVPTS_SB s).isSome) : (d.grab s m).active s = d.active s + 1 := by
  obtain ⟨sb, hcell⟩ := cell_of_isSome h
  rw [active, active, field_of_cell hcell]
  exact field_modify_self hcell

lemma mounts_grab_self (h : (d.DEVPTS_SB s).isSome) :
    (d.grab s m).mounts s = d.mounts s + m.toNat := by
  obtain ⟨sb, hcell⟩ := cell_of_isSome h
  rw [mounts, mounts, field_of_cell hcell]
  exact field_modify_self hcell

lemma active_grab_of_ne (h : t ≠ s) : (d.grab s m).active t = d.active t :=
  field_modify_of_ne h

lemma mounts_grab_of_ne (h : t ≠ s) : (d.grab s m).mounts t = d.mounts t :=
  field_modify_of_ne h

@[simp] lemma DEVPTS_SB_drop : (d.drop s m).DEVPTS_SB t = d.DEVPTS_SB t :=
  field_modify_of_eq fun _ => rfl

@[simp] lemma ptys_drop : (d.drop s m).ptys t = d.ptys t :=
  field_modify_of_eq fun _ => rfl

lemma active_drop_self (h : (d.DEVPTS_SB s).isSome) : (d.drop s m).active s = d.active s - 1 := by
  obtain ⟨sb, hcell⟩ := cell_of_isSome h
  rw [active, active, field_of_cell hcell]
  exact field_modify_self hcell

lemma mounts_drop_self (h : (d.DEVPTS_SB s).isSome) :
    (d.drop s m).mounts s = d.mounts s - m.toNat := by
  obtain ⟨sb, hcell⟩ := cell_of_isSome h
  rw [mounts, mounts, field_of_cell hcell]
  exact field_modify_self hcell

lemma active_drop_of_ne (h : t ≠ s) : (d.drop s m).active t = d.active t :=
  field_modify_of_ne h

lemma mounts_drop_of_ne (h : t ≠ s) : (d.drop s m).mounts t = d.mounts t :=
  field_modify_of_ne h

lemma DEVPTS_SB_destroy_self : (d.destroy s m).DEVPTS_SB s = none := field_destroy_self

lemma DEVPTS_SB_destroy_of_ne (h : t ≠ s) : (d.destroy s m).DEVPTS_SB t = d.DEVPTS_SB t :=
  field_destroy_of_ne h

/-- What `deactivate_super` does to an instance. -/
lemma deactivate_super_eq (h : (d.DEVPTS_SB s).isSome) :
    d.deactivate_super s m = if d.active s = 1 then d.destroy s m else d.drop s m := by
  obtain ⟨fsi, hfsi⟩ := Option.isSome_iff_exists.mp h
  have hdrop : (d.drop s m).DEVPTS_SB s = some fsi := DEVPTS_SB_drop.trans hfsi
  rw [deactivate_super, devpts_kill_sb, hdrop]
  rfl

end Fs

/-! ### The steps of a process -/

/-- The steps of a process. -/
inductive Step (d : Fs) : Pc → Fs → Pc → Prop
  -- `devpts_get_ref`, `devpts_put_ref`
  | get_none : Step d .closed d (.opened none)
  | get_ref (s : ℕ) : (d.DEVPTS_SB s).isSome →
    Step d .closed (d.grab s false) (.opened (some s))
  | put_ref (s : ℕ) : (d.DEVPTS_SB s).isSome → d.active s ≠ 1 →
    Step d (.opened (some s)) (d.drop s false) .closed
  | put_last (s : ℕ) : (d.DEVPTS_SB s).isSome → d.active s = 1 →
    Step d (.opened (some s)) (d.destroy s false) .closed
  -- `devpts_new_index`
  | index_null : Step d (.opened none) d (.failed none (-ENODEV))
  | index_enter (s : ℕ) : Step d (.opened (some s)) d (.newIndex s .preGet)
  | failed_null (ret : ℤ) : Step d (.failed none ret) d .closed
  | failed (s : ℕ) (ret : ℤ) : Step d (.failed (some s) ret) d (.opened (some s))
  | pre_get (s : ℕ) : Step d (.newIndex s .preGet) d (.newIndex s .lock)
  | pre_get_fail (s : ℕ) : Step d (.newIndex s .preGet) d (.failed (some s) (-ENOMEM))
  | index_lock (s : ℕ) : d.allocated_ptys_lock = false →
    Step d (.newIndex s .lock) { d with allocated_ptys_lock := true } (.newIndex s .limit)
  | limit_reached (s : ℕ) (fsi : PtsFsInfo) : d.DEVPTS_SB s = some fsi →
    fsi.mount_opts.limit ≤ d.pty_count →
    Step d (.newIndex s .limit) d (.newIndex s (.error (-ENOSPC)))
  | limit_ok (s : ℕ) (fsi : PtsFsInfo) : d.DEVPTS_SB s = some fsi →
    d.pty_count < fsi.mount_opts.limit →
    Step d (.newIndex s .limit) d (.newIndex s .getNew)
  | get_new (s : ℕ) (fsi : PtsFsInfo) : d.DEVPTS_SB s = some fsi →
    Step d (.newIndex s .getNew)
      (d.update s fun fsi' =>
        { fsi' with allocated_ptys := ida_lowest fsi.allocated_ptys :: fsi'.allocated_ptys })
      (.newIndex s (.max (ida_lowest fsi.allocated_ptys)))
  | get_again (s : ℕ) : Step d (.newIndex s .getNew) d (.newIndex s .again)
  | get_fail (s : ℕ) : Step d (.newIndex s .getNew) d (.newIndex s (.error (- EIO)))
  | max_reached (s n : ℕ) (fsi : PtsFsInfo) : d.DEVPTS_SB s = some fsi →
    fsi.mount_opts.max ≤ n → Step d (.newIndex s (.max n)) d (.newIndex s (.remove n))
  | max_ok (s n : ℕ) (fsi : PtsFsInfo) : d.DEVPTS_SB s = some fsi →
    n < fsi.mount_opts.max → Step d (.newIndex s (.max n)) d (.newIndex s (.count n))
  | index_remove (s n : ℕ) :
    Step d (.newIndex s (.remove n))
      (d.update s fun fsi => { fsi with allocated_ptys := fsi.allocated_ptys.erase n })
      (.newIndex s (.error (-ENOSPC)))
  | index_count (s n : ℕ) :
    Step d (.newIndex s (.count n)) { d with pty_count := d.pty_count + 1 }
      (.newIndex s (.unlock n))
  | index_unlock (s n : ℕ) :
    Step d (.newIndex s (.unlock n)) { d with allocated_ptys_lock := false } (.index s n)
  | index_again (s : ℕ) :
    Step d (.newIndex s .again) { d with allocated_ptys_lock := false } (.newIndex s .preGet)
  | index_error (s : ℕ) (ret : ℤ) :
    Step d (.newIndex s (.error ret)) { d with allocated_ptys_lock := false }
      (.failed (some s) ret)
  -- `devpts_pty_new`, `devpts_pty_kill`
  | pty_inode (s n device priv : ℕ) (fsuid fsgid : Kid) (fsi : PtsFsInfo) :
    device ≠ MKDEV TTYAUX_MAJOR PTMX_MINOR → d.DEVPTS_SB s = some fsi →
    Step d (.index s n) { d with fresh := d.fresh + 1 }
      (.ptyNew s n (newPtyInode d fsi.mount_opts n device priv fsuid fsgid))
  | pty_no_inode (s n : ℕ) : Step d (.index s n) d (.index s n)
  | pty_add (s n : ℕ) (inode : Inode) :
    Step d (.ptyNew s n inode) (d.updatePtys s (⟨decimal n, inode⟩ :: ·)) (.pty s n inode)
  | pty_no_dentry (s n : ℕ) (inode : Inode) : Step d (.ptyNew s n inode) d (.index s n)
  | pty_kill (s n : ℕ) (inode : Inode) (dentry : Dentry) :
    d_find_alias d s inode = some dentry →
    Step d (.pty s n inode) (d.updatePtys s (·.erase dentry)) (.index s n)
  -- `devpts_kill_index`
  | kill_enter (s n : ℕ) : Step d (.index s n) d (.killIndex s n .lock)
  | kill_lock (s n : ℕ) : d.allocated_ptys_lock = false →
    Step d (.killIndex s n .lock) { d with allocated_ptys_lock := true } (.killIndex s n .remove)
  | kill_remove (s n : ℕ) :
    Step d (.killIndex s n .remove)
      (d.update s fun fsi => { fsi with allocated_ptys := fsi.allocated_ptys.erase n })
      (.killIndex s n .count)
  | kill_count (s n : ℕ) :
    Step d (.killIndex s n .count) { d with pty_count := d.pty_count - 1 }
      (.killIndex s n .unlock)
  | kill_unlock (s n : ℕ) :
    Step d (.killIndex s n .unlock) { d with allocated_ptys_lock := false } (.opened (some s))

/-- The instance that a process has a reference to. -/
def Pc.sb : Pc → Option ℕ
  | .closed => none
  | .opened fsi | .failed fsi _ => fsi
  | .newIndex s _ | .index s _ | .ptyNew s _ _ | .pty s _ _ | .killIndex s _ _ => some s

variable {d e : Fs} {x y : Pc} {a : Act} {s : ℕ}

lemma step_of_get_ref {inode : Option ℕ} (h : devpts_get_ref d inode = some (e, y)) :
    Step d .closed e y := by
  unfold devpts_get_ref at h
  split_ifs at h with hmounted
  split at h
  · cases h
    exact .get_none
  · split at h
    · cases h
      exact .get_none
    · next s hs _ hfsi =>
      cases h
      exact .get_ref _ (Option.isSome_of_eq_some hfsi)

lemma step_of_new_index {pc : IndexPc} {fsi : PtsFsInfo} (hfsi : d.DEVPTS_SB s = some fsi)
    (h : devpts_new_index d s fsi pc a = some (e, y)) : Step d (.newIndex s pc) e y := by
  cases pc <;> cases a <;>
    simp only [devpts_new_index, reduceCtorEq, Option.some.injEq] at h
  case preGet.step =>
    cases h
    exact .pre_get s
  case preGet.fail =>
    cases h
    exact .pre_get_fail s
  case lock.step =>
    split at h <;> cases h
    exact .index_lock s (Bool.eq_false_iff.mpr ‹_›)
  case limit.step =>
    split at h <;> cases h
    · exact .limit_reached s fsi hfsi ‹_›
    · exact .limit_ok s fsi hfsi (not_le.mp ‹_›)
  case getNew.step =>
    cases h
    exact .get_new s fsi hfsi
  case getNew.fail =>
    cases h
    exact .get_fail s
  case getNew.again =>
    cases h
    exact .get_again s
  case max.step =>
    split at h <;> cases h
    · exact .max_reached s _ fsi hfsi ‹_›
    · exact .max_ok s _ fsi hfsi (not_le.mp ‹_›)
  case remove.step =>
    cases h
    exact .index_remove s _
  case count.step =>
    cases h
    exact .index_count s _
  case unlock.step =>
    cases h
    exact .index_unlock s _
  case again.step =>
    cases h
    exact .index_again s
  case error.step =>
    cases h
    exact .index_error s _

lemma step_of_kill_index {pc : KillPc} {n : ℕ} (h : devpts_kill_index d s n pc a = some (e, y)) :
    Step d (.killIndex s n pc) e y := by
  cases pc <;> cases a <;>
    simp only [devpts_kill_index, reduceCtorEq, Option.some.injEq] at h
  case lock.step =>
    split at h <;> cases h
    exact .kill_lock s n (Bool.eq_false_iff.mpr ‹_›)
  case remove.step =>
    cases h
    exact .kill_remove s n
  case count.step =>
    cases h
    exact .kill_count s n
  case unlock.step =>
    cases h
    exact .kill_unlock s n

/-- What a process does, while its instance is there, is one of the rules. -/
theorem step_of_act (h : x.act d a = some (e, y))
    (hx : ∀ s, x.sb = some s → (d.DEVPTS_SB s).isSome) : Step d x e y := by
  unfold Pc.act at h
  split at h
  case h_1 => exact step_of_get_ref h
  case h_2 =>
    cases h
    exact .index_null
  case h_3 s =>
    cases h
    exact .index_enter s
  case h_4 s =>
    have hs := hx s rfl
    rw [Fs.deactivate_super_eq hs] at h
    cases h
    split_ifs with hlast
    · exact .put_last s hs hlast
    · exact .put_ref s hs hlast
  case h_5 =>
    cases h
    exact .failed_null _
  case h_6 s _ =>
    cases h
    exact .failed s _
  case h_7 s pc _ =>
    obtain ⟨fsi, hfsi, h⟩ := Option.bind_eq_some_iff.mp h
    exact step_of_new_index hfsi h
  case h_8 s n device priv fsuid fsgid =>
    split_ifs at h with hdevice
    obtain ⟨fsi, hfsi, h⟩ := Option.map_eq_some_iff.mp h
    cases h
    exact .pty_inode s n device priv fsuid fsgid fsi hdevice hfsi
  case h_9 s n =>
    cases h
    exact .pty_no_inode s n
  case h_10 s n =>
    cases h
    exact .kill_enter s n
  case h_11 s n inode =>
    cases h
    exact .pty_add s n inode
  case h_12 s n inode =>
    cases h
    exact .pty_no_dentry s n inode
  case h_13 s n inode =>
    unfold devpts_pty_kill at h
    split_ifs at h with hdevice
    split at h <;> cases h
    exact .pty_kill s n inode _ ‹_›
  case h_14 => exact step_of_kill_index h
  case h_15 => cases h

/-! ### Mounts -/

/-- A mount gets as far as its super block. -/
def MountCall.Opens (c : MountCall) : Prop :=
  c.error = 0 ∧ (c.ns.isInit = true ∨ c.opts.newinstance = true) ∧ c.sget = none

/-- Nothing fails from there on, but for the memory of the `pts_fs_info`. -/
def MountCall.Completes (c : MountCall) : Prop :=
  c.root_inode = true ∧ c.d_make_root = true ∧ (c.ns.make_kuid 0).isSome ∧
    (c.ns.make_kgid 0).isSome ∧ c.d_alloc_name = true ∧ c.new_inode = true

/-- The inode of `ptmx` is as the options say. -/
def PtmxOf (opts : PtsMountOpts) (ptmx : Inode) : Prop :=
  ptmx.i_ino = 2 ∧ ptmx.i_mode = S_IFCHR ||| opts.ptmxmode

/-- What a mount does. -/
inductive MountStep (d : Fs) (c : MountCall) : Fs → Mounted → Prop
  | refused (error : ℤ) : ¬ c.Opens → MountStep d c d (.error error)
  /-- There is no `pts_fs_info` for `devpts_kill_sb`. -/
  | oops (sbs : Heap SuperBlock) (error : ℤ) : c.Opens → c.kzalloc = false →
    sbs.cell = Function.update d.sbs.cell d.sbs.next (some ⟨none, false, 0, 0, []⟩) →
    MountStep d c { d with sbs := sbs, oopses := d.oopses + 1 } (.error error)
  | undone (sbs : Heap SuperBlock) (fresh : ℕ) (error : ℤ) : c.Opens → c.kzalloc = true →
    ¬ c.Completes → sbs.cell = d.sbs.cell → d.fresh ≤ fresh →
    MountStep d c { d with sbs := sbs, fresh := fresh } (.error error)
  | mounted (sbs : Heap SuperBlock) (ptmx : Inode) : c.Opens → c.kzalloc = true → c.Completes →
    PtmxOf c.opts ptmx →
    sbs.cell = Function.update d.sbs.cell d.sbs.next
      (some ⟨some ⟨[], c.opts, some ptmx⟩, true, 1, 1, []⟩) →
    MountStep d c { d with sbs := sbs, fresh := d.fresh + 1 } (.root d.sbs.next)

/-- Two states with the same instances. -/
structure Fs.Same (d e : Fs) : Prop where
  mnt : e.devpts_mnt = d.devpts_mnt
  count : e.pty_count = d.pty_count
  lock : e.allocated_ptys_lock = d.allocated_ptys_lock
  fresh : d.fresh ≤ e.fresh
  info : ∀ t, e.DEVPTS_SB t = d.DEVPTS_SB t
  active : ∀ t, e.active t = d.active t
  mounts : ∀ t, e.mounts t = d.mounts t
  ptys : ∀ t, e.ptys t = d.ptys t

/-- Two states, the second one with a new instance `s` that is mounted once. -/
structure Fs.Added (d e : Fs) (s : ℕ) (opts : PtsMountOpts) (ptmx : Inode) : Prop where
  mnt : e.devpts_mnt = d.devpts_mnt
  count : e.pty_count = d.pty_count
  lock : e.allocated_ptys_lock = d.allocated_ptys_lock
  fresh : d.fresh ≤ e.fresh
  info_new : e.DEVPTS_SB s = some ⟨[], opts, some ptmx⟩
  active_new : e.active s = 1
  mounts_new : e.mounts s = 1
  ptys_new : e.ptys s = []
  info : ∀ t, t ≠ s → e.DEVPTS_SB t = d.DEVPTS_SB t
  active : ∀ t, t ≠ s → e.active t = d.active t
  mounts : ∀ t, t ≠ s → e.mounts t = d.mounts t
  ptys : ∀ t, t ≠ s → e.ptys t = d.ptys t

/-- The steps around the processes. A mount that fails changes nothing that can be seen. -/
inductive EnvStep (d : Fs) : Fs → Prop
  | same {e : Fs} : Fs.Same d e → EnvStep d e
  | added {e : Fs} (opts : PtsMountOpts) (ptmx : Inode) : opts.Parsed → PtmxOf opts ptmx →
    Fs.Added d e d.sbs.next opts ptmx → EnvStep d e
  | remount (s : ℕ) (ns : UserNs) (mem : ℕ → Bool) (data : Option (List Char)) :
    EnvStep d (d.update s fun fsi => (devpts_remount ns mem data fsi).2)
  | bind (s : ℕ) : d.mounts s ≠ 0 → EnvStep d (d.grab s true)
  | umount (s : ℕ) : d.mounts s ≠ 0 → d.active s ≠ 1 → EnvStep d (d.drop s true)
  | umount_last (s : ℕ) : d.mounts s ≠ 0 → d.active s = 1 → EnvStep d (d.destroy s true)

/-- The super block that `sget` makes. -/
def SuperBlock.new : SuperBlock := ⟨none, false, 1, 0, []⟩

lemma sget_eq (h : d.devpts_mnt = none) (newinstance : Bool) :
    (d.sget fun s => !newinstance && compare_init_pts_sb d s) =
      ({ d with sbs := d.sbs.alloc .new }, d.sbs.next) := by
  have htest : ∀ s, compare_init_pts_sb d s = false := fun s => by rw [compare_init_pts_sb, h]
  have hfind : (List.range d.sbs.next).find? (fun s => (d.sbs.cell s).isSome &&
      (!newinstance && compare_init_pts_sb d s)) = none := by
    simp [htest]
  rw [Fs.sget, hfind]
  rfl

/-- A new super block that is stored and released for good is gone. -/
lemma cell_undone {h : Heap SuperBlock} {sb sb' : SuperBlock} {f : SuperBlock → SuperBlock} :
    ((((h.alloc sb).modify h.next fun _ => sb').modify h.next f).free h.next).cell = h.cell := by
  funext t
  by_cases ht : t = h.next
  · rw [ht, Heap.cell_free, h.cell_next]
  · rw [Heap.cell_free_of_ne _ ht, Heap.cell_modify_of_ne _ _ ht, Heap.cell_modify_of_ne _ _ ht,
      h.cell_alloc_of_ne sb ht]

/-- A new super block as it is stored. -/
lemma cell_stored {h : Heap SuperBlock} {sb sb' : SuperBlock} :
    ((h.alloc sb).modify h.next fun _ => sb').cell =
      Function.update h.cell h.next (some sb') := by
  funext t
  by_cases ht : t = h.next
  · rw [ht, Heap.cell_modify, Function.update_self, Heap.cell_alloc]
    rfl
  · rw [Heap.cell_modify_of_ne _ _ ht, Function.update_of_ne ht, h.cell_alloc_of_ne sb ht]

section

variable {c : MountCall} {sb : SuperBlock} {fsi : PtsFsInfo} {n : ℕ}

/-- The state with the super block `sb` in the place of the one that `sget` has made. -/
def Fs.stored (d : Fs) (sb : SuperBlock) : Fs :=
  { d with sbs := (d.sbs.alloc .new).modify d.sbs.next fun _ => sb }

lemma cell_stored_next : (d.stored sb).sbs.cell d.sbs.next = some sb := by
  rw [Fs.stored, cell_stored, Function.update_self]

lemma cell_destroy_stored (d : Fs) (sb : SuperBlock) :
    ((d.stored sb).destroy d.sbs.next false).sbs.cell = d.sbs.cell :=
  cell_undone

lemma cell_drop_stored :
    ((d.stored .new).drop d.sbs.next false).sbs.cell =
      Function.update d.sbs.cell d.sbs.next (some ⟨none, false, 0, 0, []⟩) := by
  funext t
  by_cases ht : t = d.sbs.next
  · rw [ht, Function.update_self, Fs.drop, Fs.modify, Heap.cell_modify, cell_stored_next]
    rfl
  · rw [Function.update_of_ne ht, Fs.drop, Fs.modify, Heap.cell_modify_of_ne _ _ ht, Fs.stored,
      cell_stored, Function.update_of_ne ht]

/-- Its release destroys it if it has a `pts_fs_info`, and is an oops otherwise. -/
lemma deactivate_stored (d : Fs) (sb : SuperBlock) (h : sb.s_fs_info = some fsi)
    (hactive : sb.s_active = 1) :
    (d.stored sb).deactivate_super d.sbs.next false = (d.stored sb).destroy d.sbs.next false := by
  have hinfo : (d.stored sb).DEVPTS_SB d.sbs.next = some fsi :=
    (Fs.field_of_cell cell_stored_next).trans h
  have hone : (d.stored sb).active d.sbs.next = 1 :=
    (Fs.field_of_cell cell_stored_next).trans hactive
  rw [Fs.deactivate_super_eq (Option.isSome_of_eq_some hinfo), if_pos hone]

lemma deactivate_stored_oops (d : Fs) :
    (d.stored .new).deactivate_super d.sbs.next false =
      { (d.stored .new).drop d.sbs.next false with oopses := d.oopses + 1 } := by
  have hone : (d.stored .new).active d.sbs.next = 1 := Fs.field_of_cell cell_stored_next
  have hinfo : ((d.stored .new).drop d.sbs.next false).DEVPTS_SB d.sbs.next = none :=
    Fs.DEVPTS_SB_drop.trans (Fs.field_of_cell cell_stored_next)
  rw [Fs.deactivate_super, if_pos hone, Fs.devpts_kill_sb, hinfo]
  rfl

/-- `devpts_fill_super` on a new super block. -/
lemma devpts_fill_super_new (c : MountCall) :
    (c.kzalloc = false ∧ devpts_fill_super c .new = (-ENOMEM, .new)) ∨
    (c.kzalloc = true ∧ ¬ (c.root_inode = true ∧ c.d_make_root = true) ∧
      ∃ fsi, devpts_fill_super c .new = (-ENOMEM, ⟨some fsi, false, 1, 0, []⟩)) ∨
    (c.kzalloc = true ∧ c.root_inode = true ∧ c.d_make_root = true ∧
      ∃ opts, devpts_fill_super c .new = (0, ⟨some ⟨[], opts, none⟩, true, 1, 0, []⟩)) := by
  cases hk : c.kzalloc with
  | false => exact Or.inl ⟨rfl, by rw [devpts_fill_super, hk]; rfl⟩
  | true =>
    refine Or.inr ?_
    cases hi : c.root_inode with
    | false =>
      exact Or.inl ⟨rfl, fun h => (by cases h.1), _, by rw [devpts_fill_super, hk, hi]; rfl⟩
    | true =>
      cases hr : c.d_make_root with
      | false =>
        exact Or.inl ⟨rfl, fun h => (by cases h.2), _, by rw [devpts_fill_super, hk, hi, hr]; rfl⟩
      | true => exact Or.inr ⟨rfl, rfl, rfl, _, by rw [devpts_fill_super, hk, hi, hr]; rfl⟩

/-- `mknod_ptmx` where there is no `ptmx` yet. -/
lemma mknod_ptmx_new (c : MountCall) (opts : PtsMountOpts) (addr : ℕ) :
    (((c.ns.make_kuid 0).isSome ∧ (c.ns.make_kgid 0).isSome ∧ c.d_alloc_name = true ∧
      c.new_inode = true) ∧ ∃ ptmx : Inode, PtmxOf opts ptmx ∧
      mknod_ptmx c addr ⟨[], opts, none⟩ = (0, ⟨[], opts, some ptmx⟩)) ∨
    (¬ ((c.ns.make_kuid 0).isSome ∧ (c.ns.make_kgid 0).isSome ∧ c.d_alloc_name = true ∧
      c.new_inode = true) ∧
      ∃ error, error ≠ 0 ∧ mknod_ptmx c addr ⟨[], opts, none⟩ = (error, ⟨[], opts, none⟩)) := by
  unfold mknod_ptmx
  split
  · next root_uid root_gid huid hgid =>
    rw [huid, hgid]
    cases hn : c.d_alloc_name with
    | false => exact Or.inr ⟨fun h => (by cases h.2.2.1), -ENOMEM, by decide, rfl⟩
    | true =>
      cases hi : c.new_inode with
      | false => exact Or.inr ⟨fun h => (by cases h.2.2.2), -ENOMEM, by decide, rfl⟩
      | true => exact Or.inl ⟨⟨rfl, rfl, rfl, rfl⟩, _, ⟨rfl, rfl⟩, rfl⟩
  · next hno =>
    refine Or.inr ⟨fun h => ?_, -EINVAL, by decide, rfl⟩
    obtain ⟨uid, huid⟩ := Option.isSome_iff_exists.mp h.1
    obtain ⟨gid, hgid⟩ := Option.isSome_iff_exists.mp h.2.1
    exact hno uid gid huid hgid

/-- A mount with a new super block is one of the rules. -/
lemma mountStep_sb (hopens : c.Opens) :
    MountStep d c (devpts_mount_sb { d with sbs := d.sbs.alloc .new } c c.opts d.sbs.next).1
      (devpts_mount_sb { d with sbs := d.sbs.alloc .new } c c.opts d.sbs.next).2 := by
  rw [devpts_mount_sb, Heap.cell_alloc]
  dsimp only
  rw [if_neg (show ¬ SuperBlock.new.s_root = true from Bool.false_ne_true)]
  rcases devpts_fill_super_new c with
    ⟨hk, hfill⟩ | ⟨hk, hno, fsi, hfill⟩ | ⟨hk, hi, hr, opts, hfill⟩
  · rw [hfill, if_pos (show (-ENOMEM, SuperBlock.new).1 ≠ 0 by decide)]
    have hundo := deactivate_stored_oops d
    exact hundo ▸ MountStep.oops _ _ hopens hk cell_drop_stored
  · rw [hfill]
    refine Eq.subst (motive := fun e => MountStep d c e _)
      (deactivate_stored d _ rfl rfl).symm ?_
    exact .undone _ _ _ hopens hk (fun hall => hno ⟨hall.1, hall.2.1⟩)
      (cell_destroy_stored d _) (Nat.le_refl _)
  · rw [hfill]
    dsimp only
    rw [if_neg (not_not.mpr rfl)]
    rcases mknod_ptmx_new c c.opts d.fresh with
      ⟨hall, ptmx, hptmx, hmknod⟩ | ⟨hno, error, herror, hmknod⟩
    · rw [hmknod]
      exact .mounted _ ptmx hopens hk ⟨hi, hr, hall⟩ hptmx cell_stored
    · rw [hmknod]
      dsimp only
      rw [if_pos herror]
      have hundo := deactivate_stored { d with fresh := d.fresh + 1 }
        ⟨some ⟨[], c.opts, none⟩, true, 1, 0, []⟩ rfl rfl
      exact hundo ▸ MountStep.undone _ _ _ hopens hk (fun hall => hno hall.2.2)
        (cell_destroy_stored { d with fresh := d.fresh + 1 } _) (Nat.le_succ _)

/-- A mount is one of the rules. -/
theorem mountStep (h : d.devpts_mnt = none) (c : MountCall) :
    MountStep d c (devpts_mount d c).1 (devpts_mount d c).2 := by
  unfold devpts_mount
  by_cases herror : c.error = 0
  · rw [if_neg (not_not.mpr herror)]
    by_cases hns : c.ns.isInit = false ∧ c.opts.newinstance = false
    · rw [if_pos hns]
      refine .refused _ fun hopens => ?_
      rcases hopens.2.1 with hinit | hnew
      · exact Bool.false_ne_true (hns.1.symm.trans hinit)
      · exact Bool.false_ne_true (hns.2.symm.trans hnew)
    · rw [if_neg hns]
      cases hsget : c.sget with
      | some e => exact .refused _ fun hopens => Option.some_ne_none e (hsget.symm.trans hopens.2.2)
      | none =>
        rw [not_and_or, Bool.not_eq_false, Bool.not_eq_false] at hns
        dsimp only
        rw [sget_eq h]
        exact mountStep_sb ⟨herror, hns, hsget⟩
  · rw [if_pos herror]
    exact .refused _ fun hopens => herror hopens.1

end

namespace MountStep

variable {c : MountCall} {r : Mounted}

/-- A mount that returns an error leaves the instances as they were. -/
lemma same {error : ℤ} (h : MountStep d c e (.error error)) : Fs.Same d e := by
  have hfield : ∀ {e : Fs} {sb : SuperBlock},
      e.sbs.cell = Function.update d.sbs.cell d.sbs.next (some sb) →
      ∀ {α : Type} {k : SuperBlock → α} {z : α} (t : ℕ), k sb = z →
        e.field k z t = d.field k z t := by
    intro e sb hcell α k z t hk
    rw [Fs.field_of_cell_update hcell]
    split_ifs with ht
    · rw [hk, ht, Fs.field_next]
    · rfl
  cases h with
  | refused => exact ⟨rfl, rfl, rfl, Nat.le_refl _, fun _ => rfl, fun _ => rfl, fun _ => rfl,
      fun _ => rfl⟩
  | oops sbs _ hopens hk hcell =>
    exact ⟨rfl, rfl, rfl, Nat.le_refl _, fun t => hfield hcell t rfl, fun t => hfield hcell t rfl,
      fun t => hfield hcell t rfl, fun t => hfield hcell t rfl⟩
  | undone sbs fresh _ hopens hk hno hcell hfresh =>
    exact ⟨rfl, rfl, rfl, hfresh, fun t => Fs.field_of_cell_eq hcell,
      fun t => Fs.field_of_cell_eq hcell, fun t => Fs.field_of_cell_eq hcell,
      fun t => Fs.field_of_cell_eq hcell⟩

/-- One that returns a root has made a new instance, and has found all it needs. -/
lemma added (h : MountStep d c e (.root s)) :
    (c.Opens ∧ c.kzalloc = true ∧ c.Completes) ∧ s = d.sbs.next ∧
      ∃ ptmx : Inode, PtmxOf c.opts ptmx ∧ Fs.Added d e s c.opts ptmx := by
  cases h with
  | mounted sbs ptmx hopens hk hall hptmx hcell =>
    have hnew : ∀ {α : Type} {k : SuperBlock → α} {z : α},
        Fs.field { d with sbs := sbs, fresh := d.fresh + 1 } k z d.sbs.next = k _ := fun {α k z} =>
      (Fs.field_of_cell_update hcell).trans (if_pos rfl)
    have hold : ∀ {α : Type} {k : SuperBlock → α} {z : α} (t : ℕ), t ≠ d.sbs.next →
        Fs.field { d with sbs := sbs, fresh := d.fresh + 1 } k z t = d.field k z t :=
      fun {α k z} t ht => (Fs.field_of_cell_update hcell).trans (if_neg ht)
    exact ⟨⟨hopens, hk, hall⟩, rfl, ptmx, hptmx, rfl, rfl, rfl, Nat.le_succ _, hnew, hnew,
      hnew, hnew, hold, hold, hold, hold⟩

end MountStep

/-- What happens around the processes is one of the rules. -/
theorem envStep_of_act {ev : Env} (h : ev.act d = some e) (hmnt : d.devpts_mnt = none)
    (hlive : ∀ s, d.mounts s ≠ 0 → (d.DEVPTS_SB s).isSome) : EnvStep d e := by
  cases ev with
  | mount c =>
    cases h
    have hmount := mountStep hmnt c
    cases hr : (devpts_mount d c).2 with
    | error error =>
      rw [hr] at hmount
      exact .same hmount.same
    | root s =>
      rw [hr] at hmount
      obtain ⟨-, hs, ptmx, hptmx, hadded⟩ := hmount.added
      exact .added c.opts ptmx parsed_mount_options hptmx (hs ▸ hadded)
  | remount s ns mem data =>
    simp only [Env.act] at h
    split_ifs at h with hmounted
    cases h
    exact .remount s ns mem data
  | bind s =>
    simp only [Env.act] at h
    split_ifs at h with hmounted
    cases h
    exact .bind s hmounted
  | umount s =>
    simp only [Env.act] at h
    split_ifs at h with hmounted
    rw [Fs.deactivate_super_eq (hlive s hmounted)] at h
    cases h
    split_ifs with hlast
    · exact .umount_last s hmounted hlast
    · exact .umount s hmounted hlast

/-! ### A session -/

/-- A mount with the given options that finds all it needs. -/
def mountCall (data : String) : MountCall :=
  ⟨.init, some data.toList, fun _ => true, none, true, true, true, true, true⟩

open Parties Parties.Move in
/-- An instance is mounted. The first process gets the pty 0 of it. The second one is on its way to
pty 1, with a retry, when a remount lowers the maximum. The instance is unmounted, and the first
process gives its pty back. -/
def session : List (Parties.Move Two Act Env) :=
  [env (.mount (mountCall "newinstance,uid=5,,ptmxmode=666")), act first (.devpts_get_ref (some 0)),
    act first .devpts_new_index, act first .step, act first .step, act first .step, act first .step,
    act first .step, act first .step, act first .step,
    act first (.devpts_pty_new 0 77 GLOBAL_ROOT_UID GLOBAL_ROOT_GID), act first .step,
    act second (.devpts_get_ref (some 0)), act second .devpts_new_index, act second .step,
    act second .step, act second .step, act second .again, act second .step, act second .step,
    act second .step, act second .step, act second .step,
    env (.remount 0 .init (fun _ => true) (some "max=1".toList)), act second .step,
    act second .step, act second .step, act second .step, act second .devpts_put_ref,
    env (.umount 0), act first .devpts_pty_kill, act first .devpts_kill_index, act first .step,
    act first .step, act first .step, act first .step, act first .devpts_put_ref]

lemma exists_session : ∃ tr, devpts.system.Run (start (Fin 2)) tr ∧ tr.map Prod.fst = session := by
  have h : (System.final devpts.next (start (Fin 2)) session).isSome := by
    decide +kernel
  exact System.exists_run_of_isSome h

end QuickDevSkeleton.Devpts
