import QuickDevSkeleton.Kernel.Parser

/-!
# The mount options of devpts

`parse_mount_options` sets the options of an instance from a text, `devpts_show_options` prints
them. A remount parses into the options of the running instance: it starts from the defaults, keeps
`newinstance`, and what it has set when it meets a bad option stays.

The kernel is built with `CONFIG_DEVPTS_MULTIPLE_INSTANCES`.
-/

namespace QuickDevSkeleton.Devpts

open Foundations

def DEVPTS_DEFAULT_MODE : ℕ := 0o600

def DEVPTS_DEFAULT_PTMX_MODE : ℕ := 0o000

def NR_UNIX98_PTY_MAX : ℤ := 1048576

def S_IALLUGO : BitVec 32 := 0o7777

/-! ### User namespaces -/

/-- A valid `kuid_t` or `kgid_t`: `-1` is not one. -/
abbrev Kid := Fin 4294967295

def GLOBAL_ROOT_UID : Kid := 0

def GLOBAL_ROOT_GID : Kid := 0

/-- The user namespace of a process: the initial one, or one that maps ids to kernel ids. -/
inductive UserNs where
  | init
  | other (uid gid : ℕ → Option Kid)

/-- `ns == &init_user_ns` -/
def UserNs.isInit : UserNs → Bool
  | init => true
  | other _ _ => false

/-- An `int` as the `uid_t` or `gid_t` that it is converted to. -/
def toId (option : ℤ) : ℕ := (option % 2 ^ 32).toNat

/-- The initial namespace maps every valid id to itself. -/
def initKid (id : ℕ) : Option Kid :=
  if h : id < 4294967295 then some ⟨id, h⟩ else none

/-- `make_kuid(ns, option)`; none: the id is not valid. -/
def UserNs.make_kuid (ns : UserNs) (option : ℤ) : Option Kid :=
  match ns with
  | .init => initKid (toId option)
  | .other uid _ => uid (toId option)

def UserNs.make_kgid (ns : UserNs) (option : ℤ) : Option Kid :=
  match ns with
  | .init => initKid (toId option)
  | .other _ gid => gid (toId option)

/-! ### The options -/

/-- `struct pts_mount_opts` -/
structure PtsMountOpts where
  setuid : Bool
  setgid : Bool
  uid : Kid
  gid : Kid
  mode : ℕ
  ptmxmode : ℕ
  newinstance : Bool
  max : ℤ
  deriving DecidableEq

inductive Token where
  | Opt_uid
  | Opt_gid
  | Opt_mode
  | Opt_ptmxmode
  | Opt_newinstance
  | Opt_max
  | Opt_err
  deriving DecidableEq

def tokens : List (Token × Pattern) :=
  [(.Opt_uid, ⟨"uid=".toList, some .u⟩),
   (.Opt_gid, ⟨"gid=".toList, some .u⟩),
   (.Opt_mode, ⟨"mode=".toList, some .o⟩),
   (.Opt_ptmxmode, ⟨"ptmxmode=".toList, some .o⟩),
   (.Opt_newinstance, ⟨"newinstance".toList, none⟩),
   (.Opt_max, ⟨"max=".toList, some .d⟩)]

/-- The operations of `parse_mount_options`. -/
inductive Op where
  | PARSE_MOUNT
  | PARSE_REMOUNT
  deriving DecidableEq

/-- The assignments of `parse_mount_options` before its loop. -/
def PtsMountOpts.defaults (op : Op) (opts : PtsMountOpts) : PtsMountOpts where
  setuid := false
  setgid := false
  uid := GLOBAL_ROOT_UID
  gid := GLOBAL_ROOT_GID
  mode := DEVPTS_DEFAULT_MODE
  ptmxmode := DEVPTS_DEFAULT_PTMX_MODE
  newinstance := if op = .PARSE_MOUNT then false else opts.newinstance
  max := NR_UNIX98_PTY_MAX

/-- `option & S_IALLUGO` -/
def allugo (option : ℤ) : ℕ := (BitVec.ofInt 32 option &&& S_IALLUGO).toNat

/-- One pass of the loop, on the option `p`; none: the loop returns `-EINVAL`. -/
def parse_option (ns : UserNs) (mem : Bool) (op : Op) (opts : PtsMountOpts) (p : List Char) :
    Option PtsMountOpts :=
  if p = [] then some opts
  else match match_token tokens .Opt_err p with
  | (.Opt_uid, arg) => do
    let option ← match_int mem arg
    let uid ← ns.make_kuid option
    some { opts with uid := uid, setuid := true }
  | (.Opt_gid, arg) => do
    let option ← match_int mem arg
    let gid ← ns.make_kgid option
    some { opts with gid := gid, setgid := true }
  | (.Opt_mode, arg) => do
    let option ← match_octal mem arg
    some { opts with mode := allugo option }
  | (.Opt_ptmxmode, arg) => do
    let option ← match_octal mem arg
    some { opts with ptmxmode := allugo option }
  | (.Opt_newinstance, _) =>
    some (if op = .PARSE_MOUNT then { opts with newinstance := true } else opts)
  | (.Opt_max, arg) => do
    let option ← match_int mem arg
    if option < 0 ∨ option > NR_UNIX98_PTY_MAX then none
    else some { opts with max := option }
  | (.Opt_err, _) => none

/-- The loop of `parse_mount_options`: what it returns, and the options then. `mem k`: there is
memory to convert the number of the `k`th option. -/
def parse_options (ns : UserNs) (op : Op) :
    (ℕ → Bool) → PtsMountOpts → List (List Char) → ℤ × PtsMountOpts
  | _, opts, [] => (0, opts)
  | mem, opts, p :: ps =>
    match parse_option ns (mem 0) op opts p with
    | none => (-EINVAL, opts)
    | some opts => parse_options ns op (fun k => mem (k + 1)) opts ps

def parse_mount_options (ns : UserNs) (mem : ℕ → Bool) (data : Option (List Char)) (op : Op)
    (opts : PtsMountOpts) : ℤ × PtsMountOpts :=
  parse_options ns op mem (opts.defaults op) (strsep data)

/-! ### Showing the options -/

/-- `%u` and `%d` of a number that is not negative. -/
def decimal (n : ℕ) : List Char := Nat.toDigits 10 n

/-- `%03o` -/
def octal (n : ℕ) : List Char :=
  let ds := Nat.toDigits 8 n
  List.replicate (3 - ds.length) '0' ++ ds

/-- What `devpts_show_options` prints. A kernel id is its own id in the initial namespace. -/
def devpts_show_options (opts : PtsMountOpts) : List Char :=
  (if opts.setuid then ",uid=".toList ++ decimal opts.uid else []) ++
  ((if opts.setgid then ",gid=".toList ++ decimal opts.gid else []) ++
  ((",mode=".toList ++ octal opts.mode) ++
  ((",ptmxmode=".toList ++ octal opts.ptmxmode) ++
  (if opts.max < NR_UNIX98_PTY_MAX then ",max=".toList ++ decimal opts.max.toNat else []))))

example : devpts_show_options ⟨true, false, 5, 0, 0o620, 0, true, 64⟩ =
    ",uid=5,mode=620,ptmxmode=000,max=64".toList := by decide

/-! ### What the parser leaves -/

/-- Options as `parse_mount_options` leaves them: an owner that was not given is root, and modes and
the maximum are in their ranges. -/
structure PtsMountOpts.Parsed (opts : PtsMountOpts) : Prop where
  uid : opts.setuid = false → opts.uid = GLOBAL_ROOT_UID
  gid : opts.setgid = false → opts.gid = GLOBAL_ROOT_GID
  mode : opts.mode < 4096
  ptmxmode : opts.ptmxmode < 4096
  max_nonneg : 0 ≤ opts.max
  max_le : opts.max ≤ NR_UNIX98_PTY_MAX

variable {ns : UserNs} {mem : ℕ → Bool} {m : Bool} {op : Op} {opts opts' : PtsMountOpts}
  {p : List Char} {ps : List (List Char)} {data : Option (List Char)}

lemma allugo_lt (option : ℤ) : allugo option < 4096 := by
  have hle : allugo option ≤ S_IALLUGO.toNat := by
    rw [allugo, BitVec.toNat_and]
    exact Nat.and_le_right
  exact Nat.lt_of_le_of_lt hle (by decide)

/-- A mode is not changed by the mask. -/
lemma allugo_of_lt {n : ℕ} (h : n < 4096) : allugo n = n := by
  have hbits : (BitVec.ofInt 32 (n : ℤ)).toNat = n := by
    rw [BitVec.ofInt_natCast, BitVec.toNat_ofNat, Nat.mod_eq_of_lt (by omega)]
  have hmask : S_IALLUGO.toNat = 2 ^ 12 - 1 := by decide
  rw [allugo, BitVec.toNat_and, hbits, hmask, Nat.and_two_pow_sub_one_eq_mod, Nat.mod_eq_of_lt h]

lemma parsed_defaults : (opts.defaults op).Parsed := by
  refine ⟨fun _ => rfl, fun _ => rfl, ?_, ?_, ?_, ?_⟩
  · exact (by decide : DEVPTS_DEFAULT_MODE < 4096)
  · exact (by decide : DEVPTS_DEFAULT_PTMX_MODE < 4096)
  · exact (by decide : 0 ≤ NR_UNIX98_PTY_MAX)
  · exact Int.le_refl NR_UNIX98_PTY_MAX

/-- What one option can set. -/
inductive Sets (op : Op) (opts : PtsMountOpts) : PtsMountOpts → Prop where
  | nothing : Sets op opts opts
  | uid (uid : Kid) : Sets op opts { opts with uid := uid, setuid := true }
  | gid (gid : Kid) : Sets op opts { opts with gid := gid, setgid := true }
  | mode (mode : ℕ) (hmode : mode < 4096) : Sets op opts { opts with mode := mode }
  | ptmxmode (mode : ℕ) (hmode : mode < 4096) : Sets op opts { opts with ptmxmode := mode }
  | newinstance (hop : op = .PARSE_MOUNT) : Sets op opts { opts with newinstance := true }
  | max (max : ℤ) (hmax : 0 ≤ max) (hle : max ≤ NR_UNIX98_PTY_MAX) :
      Sets op opts { opts with max := max }

lemma sets_of_parse (h : parse_option ns m op opts p = some opts') : Sets op opts opts' := by
  unfold parse_option at h
  split at h
  · cases h
    exact .nothing
  · split at h
    · obtain ⟨option, -, h⟩ := Option.bind_eq_some_iff.mp h
      obtain ⟨uid, -, h⟩ := Option.bind_eq_some_iff.mp h
      cases h
      exact .uid uid
    · obtain ⟨option, -, h⟩ := Option.bind_eq_some_iff.mp h
      obtain ⟨gid, -, h⟩ := Option.bind_eq_some_iff.mp h
      cases h
      exact .gid gid
    · obtain ⟨option, -, h⟩ := Option.bind_eq_some_iff.mp h
      cases h
      exact .mode _ (allugo_lt option)
    · obtain ⟨option, -, h⟩ := Option.bind_eq_some_iff.mp h
      cases h
      exact .ptmxmode _ (allugo_lt option)
    · by_cases hop : op = .PARSE_MOUNT
      · rw [if_pos hop] at h
        cases h
        exact .newinstance hop
      · rw [if_neg hop] at h
        cases h
        exact .nothing
    · obtain ⟨option, -, h⟩ := Option.bind_eq_some_iff.mp h
      split at h
      · cases h
      · next hrange =>
        cases h
        rw [not_or, Int.not_lt, Int.not_lt] at hrange
        exact .max option hrange.1 hrange.2
    · cases h

/-- The loop keeps what every option keeps. -/
lemma parse_options_induct {P : PtsMountOpts → Prop} (hstep : ∀ o o', Sets op o o' → P o → P o')
    (hopts : P opts) : P (parse_options ns op mem opts ps).2 := by
  induction ps generalizing mem opts with
  | nil => exact hopts
  | cons p ps ih =>
    rw [parse_options]
    split
    · exact hopts
    · next opts' h => exact ih (hstep _ _ (sets_of_parse h) hopts)

lemma Sets.parsed (h : Sets op opts opts') (hopts : opts.Parsed) : opts'.Parsed := by
  cases h with
  | nothing => exact hopts
  | uid uid => exact { hopts with uid := fun hset => (by cases hset) }
  | gid gid => exact { hopts with gid := fun hset => (by cases hset) }
  | mode mode hmode => exact { hopts with mode := hmode }
  | ptmxmode mode hmode => exact { hopts with ptmxmode := hmode }
  | newinstance hop => exact { hopts with }
  | max max hmax hle => exact { hopts with max_nonneg := hmax, max_le := hle }

/-- The parser leaves well-formed options, whatever the text is and whether it succeeds or not. -/
lemma parsed_mount_options : (parse_mount_options ns mem data op opts).2.Parsed :=
  parse_options_induct (fun _ _ h => h.parsed) parsed_defaults

/-- `newinstance` cannot be changed by a remount. -/
lemma newinstance_remount :
    (parse_mount_options ns mem data .PARSE_REMOUNT opts).2.newinstance = opts.newinstance := by
  refine parse_options_induct (P := fun o => o.newinstance = opts.newinstance)
    (fun o o' h ho => ?_) rfl
  cases h with
  | newinstance hop => cases hop
  | _ => exact ho

end QuickDevSkeleton.Devpts
