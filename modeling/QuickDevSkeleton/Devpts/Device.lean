import QuickDevSkeleton.Devpts.Options
import QuickDevSkeleton.Foundations.Heap
import QuickDevSkeleton.Foundations.Parties

/-!
# The devpts file system

`fs/inode_orig.c`: the instances, each a super block with a `pts_fs_info`, and the processes that
get a pty through `devpts_get_ref`, `devpts_new_index`, `devpts_pty_new` and give it back through
`devpts_pty_kill`, `devpts_kill_index`, `devpts_put_ref`.

A process stops at every statement of the two functions that count the ptys, since a remount can
change the options between any two of them; a section under the `i_mutex` of the root is one step. A
mount is one step too: nothing leads to its super block before it returns. So is a remount.
-/

namespace QuickDevSkeleton.Devpts

open Foundations

def ENOSPC : ℤ := 28

def PTMX_MINOR : ℕ := 2

def TTYAUX_MAJOR : ℕ := 5

def S_IFCHR : ℕ := 0o020000

def NR_UNIX98_PTY_DEFAULT : ℤ := 4096

def NR_UNIX98_PTY_RESERVE : ℤ := 1024

def pty_limit : ℤ := NR_UNIX98_PTY_DEFAULT

def pty_reserve : ℤ := NR_UNIX98_PTY_RESERVE

def MKDEV (major minor : ℕ) : ℕ := major <<< 20 ||| minor

/-! ### Instances -/

/-- The fields of a `struct inode` that the file system sets, and where the inode is. -/
structure Inode where
  addr : ℕ
  i_ino : ℕ
  i_uid : Kid
  i_gid : Kid
  i_mode : ℕ
  i_rdev : ℕ
  i_private : ℕ
  deriving DecidableEq

structure Dentry where
  name : List Char
  inode : Inode
  deriving DecidableEq

/-- `struct pts_fs_info` -/
structure PtsFsInfo where
  /-- The ids that are in use. -/
  allocated_ptys : List ℕ
  mount_opts : PtsMountOpts
  ptmx_dentry : Option Inode
  deriving DecidableEq

/-- A super block: its references, the mounts that hold some of them, and the entries of the root
directory beside `ptmx`. -/
structure SuperBlock where
  s_fs_info : Option PtsFsInfo
  s_root : Bool
  s_active : ℕ
  mounts : ℕ
  ptys : List Dentry
  deriving DecidableEq

/-- The instances, and the static variables. -/
structure Fs where
  sbs : Heap SuperBlock
  /-- The super block of the mount that `devpts_mnt` points to. -/
  devpts_mnt : Option ℕ
  pty_count : ℤ
  allocated_ptys_lock : Bool
  /-- No inode has been allocated from here on. -/
  fresh : ℕ
  /-- How often `devpts_kill_sb` had no `pts_fs_info`. -/
  oopses : ℕ

namespace Fs

variable (d : Fs)

/-- A field of a super block; `z` if it has been freed. -/
def field {α : Type} (g : SuperBlock → α) (z : α) (s : ℕ) : α :=
  ((d.sbs.cell s).map g).getD z

/-- `DEVPTS_SB(sb)` -/
def DEVPTS_SB (s : ℕ) : Option PtsFsInfo := d.field SuperBlock.s_fs_info none s

/-- The references to a super block, and how many of them belong to mounts. -/
def active (s : ℕ) : ℕ := d.field SuperBlock.s_active 0 s

def mounts (s : ℕ) : ℕ := d.field SuperBlock.mounts 0 s

/-- The ptys in the root directory. -/
def ptys (s : ℕ) : List Dentry := d.field SuperBlock.ptys [] s

/-- Change a super block. -/
def modify (s : ℕ) (f : SuperBlock → SuperBlock) : Fs :=
  { d with sbs := d.sbs.modify s f }

/-- Change its `pts_fs_info`. -/
def update (s : ℕ) (f : PtsFsInfo → PtsFsInfo) : Fs :=
  d.modify s fun sb => { sb with s_fs_info := sb.s_fs_info.map f }

/-- Change the ptys in its root directory. -/
def updatePtys (s : ℕ) (f : List Dentry → List Dentry) : Fs :=
  d.modify s fun sb => { sb with ptys := f sb.ptys }

/-- `atomic_inc(&sb->s_active)`; `mount`: for a mount. -/
def grab (s : ℕ) (mount : Bool) : Fs :=
  d.modify s fun sb =>
    { sb with s_active := sb.s_active + 1, mounts := sb.mounts + mount.toNat }

/-- `atomic_dec(&sb->s_active)` -/
def drop (s : ℕ) (mount : Bool) : Fs :=
  d.modify s fun sb =>
    { sb with s_active := sb.s_active - 1, mounts := sb.mounts - mount.toNat }

/-- `devpts_kill_sb(sb)`: without a `pts_fs_info`, `ida_destroy` has a null pointer. -/
def devpts_kill_sb (s : ℕ) : Fs :=
  match d.DEVPTS_SB s with
  | none => { d with oopses := d.oopses + 1 }
  | some _ => { d with sbs := d.sbs.free s }

/-- `deactivate_super(sb)` -/
def deactivate_super (s : ℕ) (mount : Bool) : Fs :=
  if d.active s = 1 then (d.drop s mount).devpts_kill_sb s else d.drop s mount

end Fs

/-! ### Mounting -/

/-- A call of `devpts_mount`: who calls it with which options, and what the rest of the kernel
answers: the error of `sget`, and whether there is memory. -/
structure MountCall where
  ns : UserNs
  data : Option (List Char)
  mem : ℕ → Bool
  sget : Option ℕ
  kzalloc : Bool
  root_inode : Bool
  d_make_root : Bool
  d_alloc_name : Bool
  new_inode : Bool

/-- The options of a block that is all zeros. -/
def PtsMountOpts.zero : PtsMountOpts where
  setuid := false
  setgid := false
  uid := GLOBAL_ROOT_UID
  gid := GLOBAL_ROOT_GID
  mode := 0
  ptmxmode := 0
  newinstance := false
  max := 0

/-- What `parse_mount_options` returns to `devpts_mount`. -/
def MountCall.error (c : MountCall) : ℤ :=
  (parse_mount_options c.ns c.mem c.data .PARSE_MOUNT PtsMountOpts.zero).1

/-- The local `opts` of `devpts_mount`: a mount sets every option, so that it does not matter which
ones are there. -/
def MountCall.opts (c : MountCall) : PtsMountOpts :=
  (parse_mount_options c.ns c.mem c.data .PARSE_MOUNT PtsMountOpts.zero).2

def new_pts_fs_info (kzalloc : Bool) : Option PtsFsInfo :=
  if kzalloc then
    some {
      allocated_ptys := []
      mount_opts := { PtsMountOpts.zero with
        mode := DEVPTS_DEFAULT_MODE, ptmxmode := DEVPTS_DEFAULT_PTMX_MODE }
      ptmx_dentry := none }
  else none

def devpts_fill_super (c : MountCall) (sb : SuperBlock) : ℤ × SuperBlock :=
  let sb := { sb with s_fs_info := new_pts_fs_info c.kzalloc }
  if sb.s_fs_info = none then (-ENOMEM, sb)
  else if c.root_inode = false then (-ENOMEM, sb)
  else if c.d_make_root = false then (-ENOMEM, sb)
  else (0, { sb with s_root := true })

def mknod_ptmx (c : MountCall) (addr : ℕ) (fsi : PtsFsInfo) : ℤ × PtsFsInfo :=
  match c.ns.make_kuid 0, c.ns.make_kgid 0 with
  | some root_uid, some root_gid =>
    if fsi.ptmx_dentry.isSome then (0, fsi)
    else if c.d_alloc_name = false then (-ENOMEM, fsi)
    else if c.new_inode = false then (-ENOMEM, fsi)
    else (0, { fsi with ptmx_dentry := some {
      addr := addr
      i_ino := 2
      i_uid := root_uid
      i_gid := root_gid
      i_mode := S_IFCHR ||| fsi.mount_opts.ptmxmode
      i_rdev := MKDEV TTYAUX_MAJOR 2
      i_private := 0 } })
  | _, _ => (-EINVAL, fsi)

def update_ptmx_mode (fsi : PtsFsInfo) : PtsFsInfo :=
  { fsi with ptmx_dentry := fsi.ptmx_dentry.map fun inode =>
    { inode with i_mode := S_IFCHR ||| fsi.mount_opts.ptmxmode } }

def devpts_remount (ns : UserNs) (mem : ℕ → Bool) (data : Option (List Char)) (fsi : PtsFsInfo) :
    ℤ × PtsFsInfo :=
  let r := parse_mount_options ns mem data .PARSE_REMOUNT fsi.mount_opts
  (r.1, update_ptmx_mode { fsi with mount_opts := r.2 })

def compare_init_pts_sb (d : Fs) (s : ℕ) : Bool :=
  match d.devpts_mnt with
  | some m => m == s
  | none => false

/-- `sget(fs_type, test, ...)`: a super block that passes the test, with one more reference, or a
new one. -/
def Fs.sget (d : Fs) (test : ℕ → Bool) : Fs × ℕ :=
  match (List.range d.sbs.next).find? fun s => (d.sbs.cell s).isSome && test s with
  | some s => (d.grab s false, s)
  | none => ({ d with sbs := d.sbs.alloc ⟨none, false, 1, 0, []⟩ }, d.sbs.next)

/-- What a mount comes to: an error, or the super block that it is of. -/
inductive Mounted where
  | error (error : ℤ)
  | root (s : ℕ)
  deriving DecidableEq

/-- `devpts_mount` from where it has the super block `s`. -/
def devpts_mount_sb (d : Fs) (c : MountCall) (opts : PtsMountOpts) (s : ℕ) :
    Fs × Mounted :=
  match d.sbs.cell s with
  | none => (d, .error 0) -- `sget` returns no such super block
  | some sb =>
    let filled := if sb.s_root then (0, sb) else devpts_fill_super c sb
    if filled.1 ≠ 0 then
      ((d.modify s fun _ => filled.2).deactivate_super s false, .error filled.1)
    else
      match filled.2.s_fs_info with
      | none => (d, .error 0) -- `devpts_fill_super` has not failed
      | some fsi =>
        let made := mknod_ptmx c d.fresh { fsi with mount_opts := opts }
        let sb := { filled.2 with s_fs_info := some made.2 }
        let d := { d with fresh := d.fresh + 1 }
        if made.1 ≠ 0 then
          ((d.modify s fun _ => sb).deactivate_super s false, .error made.1)
        else
          -- the new mount takes over the reference of `sget`
          (d.modify s fun _ => { sb with mounts := sb.mounts + 1 }, .root s)

def devpts_mount (d : Fs) (c : MountCall) : Fs × Mounted :=
  if c.error ≠ 0 then (d, .error c.error)
  else if c.ns.isInit = false ∧ c.opts.newinstance = false then (d, .error (-EINVAL))
  else
    match c.sget with
    | some e => (d, .error (-e))
    | none =>
      let got := d.sget fun s => !c.opts.newinstance && compare_init_pts_sb d s
      devpts_mount_sb got.1 c c.opts got.2

/-! ### Ptys -/

/-- The lowest id that is not in use. -/
def ida_lowest (ids : List ℕ) : ℕ :=
  ((List.range (ids.length + 1)).find? (· ∉ ids)).getD ids.length

inductive IndexPc where
  /-- At the label `retry`. -/
  | preGet
  /-- At `mutex_lock`. -/
  | lock
  /-- `allocated_ptys_lock` is held from here to `error`; at the test of `pty_count`. -/
  | limit
  /-- At `ida_get_new`. -/
  | getNew
  /-- At the test of `index`. -/
  | max (index : ℕ)
  /-- At `ida_remove`. -/
  | remove (index : ℕ)
  /-- At `pty_count++`. -/
  | count (index : ℕ)
  /-- At the `mutex_unlock` before `return index`. -/
  | unlock (index : ℕ)
  /-- At the `mutex_unlock` before `goto retry`. -/
  | again
  /-- At a `mutex_unlock` before an error is returned. -/
  | error (ret : ℤ)
  deriving DecidableEq

inductive KillPc where
  /-- At `mutex_lock`. -/
  | lock
  /-- `allocated_ptys_lock` is held; at `ida_remove`. -/
  | remove
  /-- At `pty_count--`. -/
  | count
  /-- At `mutex_unlock`. -/
  | unlock
  deriving DecidableEq

/-- Where a process is, with what it has got so far. -/
inductive Pc where
  | closed
  /-- `devpts_get_ref` has returned `fsi`. -/
  | opened (fsi : Option ℕ)
  | newIndex (s : ℕ) (pc : IndexPc)
  /-- `devpts_new_index` has returned an error. -/
  | failed (fsi : Option ℕ) (ret : ℤ)
  /-- `devpts_new_index` has returned `index`. -/
  | index (s index : ℕ)
  /-- In `devpts_pty_new`, with the inode; at the section of `i_mutex`. -/
  | ptyNew (s index : ℕ) (inode : Inode)
  /-- `devpts_pty_new` has returned `inode`. -/
  | pty (s index : ℕ) (inode : Inode)
  | killIndex (s index : ℕ) (pc : KillPc)
  deriving DecidableEq

/-- What a process does next: it calls a function, takes its next step, takes it with the call it
makes there failing, or with `ida_get_new` out of preallocated memory. The `inode` of
`devpts_get_ref` is one of the instance `s`, or of another file system. -/
inductive Act where
  | devpts_get_ref (inode : Option ℕ)
  | devpts_put_ref
  | devpts_new_index
  | devpts_pty_new (device priv : ℕ) (fsuid fsgid : Kid)
  | devpts_pty_kill
  | devpts_kill_index
  | step
  | fail
  | again

/-- What happens around the processes. -/
inductive Env where
  | mount (c : MountCall)
  | remount (s : ℕ) (ns : UserNs) (mem : ℕ → Bool) (data : Option (List Char))
  | bind (s : ℕ)
  | umount (s : ℕ)

/-- `pts_sb_from_inode(inode)` -/
def pts_sb_from_inode (d : Fs) : Option ℕ → Option ℕ
  | some s => some s
  | none => d.devpts_mnt

/-- The inode of a caller is on a file system that is mounted. -/
def devpts_get_ref (d : Fs) (inode : Option ℕ) : Option (Fs × Pc) :=
  if inode.all fun s => d.mounts s ≠ 0 then
    match pts_sb_from_inode d inode with
    | none => some (d, .opened none)
    | some s =>
      match d.DEVPTS_SB s with
      | none => some (d, .opened none)
      | some _ => some (d.grab s false, .opened (some s))
  else none

/-- What `devpts_new_index` compares `pty_count` with. -/
def PtsMountOpts.limit (opts : PtsMountOpts) : ℤ :=
  pty_limit - (if opts.newinstance then pty_reserve else 0)

/-- `devpts_new_index(fsi)`, where `fsi` is that of the super block `s`. -/
def devpts_new_index (d : Fs) (s : ℕ) (fsi : PtsFsInfo) : IndexPc → Act → Option (Fs × Pc)
  | .preGet, .step => some (d, .newIndex s .lock)
  | .preGet, .fail => some (d, .failed (some s) (-ENOMEM))
  | .lock, .step =>
    if d.allocated_ptys_lock then none
    else some ({ d with allocated_ptys_lock := true }, .newIndex s .limit)
  | .limit, .step =>
    if d.pty_count ≥ fsi.mount_opts.limit then some (d, .newIndex s (.error (-ENOSPC)))
    else some (d, .newIndex s .getNew)
  | .getNew, .step =>
    let index := ida_lowest fsi.allocated_ptys
    some (d.update s fun fsi => { fsi with allocated_ptys := index :: fsi.allocated_ptys },
      .newIndex s (.max index))
  | .getNew, .again => some (d, .newIndex s .again)
  | .getNew, .fail => some (d, .newIndex s (.error (- EIO)))
  | .max index, .step =>
    if index ≥ fsi.mount_opts.max then some (d, .newIndex s (.remove index))
    else some (d, .newIndex s (.count index))
  | .remove index, .step =>
    some (d.update s fun fsi => { fsi with allocated_ptys := fsi.allocated_ptys.erase index },
      .newIndex s (.error (-ENOSPC)))
  | .count index, .step =>
    some ({ d with pty_count := d.pty_count + 1 }, .newIndex s (.unlock index))
  | .unlock index, .step => some ({ d with allocated_ptys_lock := false }, .index s index)
  | .again, .step => some ({ d with allocated_ptys_lock := false }, .newIndex s .preGet)
  | .error ret, .step => some ({ d with allocated_ptys_lock := false }, .failed (some s) ret)
  | _, _ => none

def devpts_kill_index (d : Fs) (s idx : ℕ) : KillPc → Act → Option (Fs × Pc)
  | .lock, .step =>
    if d.allocated_ptys_lock then none
    else some ({ d with allocated_ptys_lock := true }, .killIndex s idx .remove)
  | .remove, .step =>
    some (d.update s fun fsi => { fsi with allocated_ptys := fsi.allocated_ptys.erase idx },
      .killIndex s idx .count)
  | .count, .step => some ({ d with pty_count := d.pty_count - 1 }, .killIndex s idx .unlock)
  | .unlock, .step => some ({ d with allocated_ptys_lock := false }, .opened (some s))
  | _, _ => none

/-- `devpts_pty_new` up to `mutex_lock`: the inode. -/
def newPtyInode (d : Fs) (opts : PtsMountOpts) (index device priv : ℕ) (fsuid fsgid : Kid) :
    Inode where
  addr := d.fresh
  i_ino := index + 3
  i_uid := if opts.setuid then opts.uid else fsuid
  i_gid := if opts.setgid then opts.gid else fsgid
  i_mode := S_IFCHR ||| opts.mode
  i_rdev := device
  i_private := priv

/-- `d_find_alias(inode)`, for an inode of the super block `s`. -/
def d_find_alias (d : Fs) (s : ℕ) (inode : Inode) : Option Dentry :=
  (d.ptys s).find? fun dentry => dentry.inode.addr = inode.addr

/-- `devpts_get_priv(pts_inode)`: no result is the `BUG_ON`, and `0` is `NULL`. -/
def devpts_get_priv (d : Fs) (s : ℕ) (pts_inode : Inode) : Option ℕ :=
  if pts_inode.i_rdev = MKDEV TTYAUX_MAJOR PTMX_MINOR then none
  else
    match d_find_alias d s pts_inode with
    | none => some 0
    | some _ => some pts_inode.i_private

/-- `devpts_pty_kill(inode)`: `BUG_ON`, and `d_delete` has a null pointer if there is no dentry. -/
def devpts_pty_kill (d : Fs) (s index : ℕ) (inode : Inode) : Option (Fs × Pc) :=
  if inode.i_rdev = MKDEV TTYAUX_MAJOR PTMX_MINOR then none
  else
    match d_find_alias d s inode with
    | none => none
    | some dentry => some (d.updatePtys s (·.erase dentry), .index s index)

/-- The next step of a process. A pty is given back in the opposite order. The pty driver has a
device number of its own for each slave. -/
def Pc.act (d : Fs) : Pc → Act → Option (Fs × Pc)
  | .closed, .devpts_get_ref inode => devpts_get_ref d inode
  | .opened none, .devpts_new_index => some (d, .failed none (-ENODEV))
  | .opened (some s), .devpts_new_index => some (d, .newIndex s .preGet)
  | .opened (some s), .devpts_put_ref => some (d.deactivate_super s false, .closed)
  | .failed none _, .step => some (d, .closed)
  | .failed (some s) _, .step => some (d, .opened (some s))
  | .newIndex s pc, a => (d.DEVPTS_SB s).bind fun fsi => devpts_new_index d s fsi pc a
  | .index s n, .devpts_pty_new device priv fsuid fsgid =>
    if device = MKDEV TTYAUX_MAJOR PTMX_MINOR then none
    else
      (d.DEVPTS_SB s).map fun fsi => ({ d with fresh := d.fresh + 1 },
        .ptyNew s n (newPtyInode d fsi.mount_opts n device priv fsuid fsgid))
  -- no memory for the inode
  | .index s n, .fail => some (d, .index s n)
  | .index s n, .devpts_kill_index => some (d, .killIndex s n .lock)
  | .ptyNew s n inode, .step =>
    some (d.updatePtys s (⟨decimal n, inode⟩ :: ·), .pty s n inode)
  -- no memory for the dentry
  | .ptyNew s n _, .fail => some (d, .index s n)
  | .pty s n inode, .devpts_pty_kill => devpts_pty_kill d s n inode
  | .killIndex s n pc, a => devpts_kill_index d s n pc a
  | _, _ => none

/-- A remount, a bind mount and an unmount are of something that is mounted. -/
def Env.act (d : Fs) : Env → Option Fs
  | .mount c => some (devpts_mount d c).1
  | .remount s ns mem data =>
    if d.mounts s = 0 then none
    else some (d.update s fun fsi => (devpts_remount ns mem data fsi).2)
  | .bind s => if d.mounts s = 0 then none else some (d.grab s true)
  | .umount s => if d.mounts s = 0 then none else some (d.deactivate_super s true)

/-- The file system, the processes with ptys, and the mounts. -/
def devpts : Parties Fs Pc Act Env where
  act d pc a := pc.act d a
  env := Env.act

/-- The start: the module is loaded, and nothing is mounted. -/
def start (ι : Type) : Parties.State Fs Pc ι :=
  ⟨⟨Heap.empty, none, 0, false, 0, 0⟩, fun _ => .closed⟩

end QuickDevSkeleton.Devpts
