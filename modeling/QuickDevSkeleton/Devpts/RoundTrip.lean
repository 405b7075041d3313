import QuickDevSkeleton.Devpts.Instances

/-!
# Showing the options and setting them again

What `devpts_show_options` prints is what a remount takes: parsed by a process of the initial user
namespace, it sets the options that were shown. The one thing that does not come back is an owner
above the range of an `int`: `%u` prints it, and `match_int` refuses it.
-/

namespace QuickDevSkeleton.Devpts

open Foundations

/-- The texts of the options that are shown. -/
def shown (opts : PtsMountOpts) : List (List Char) :=
  (if opts.setuid then ["uid=".toList ++ decimal opts.uid] else []) ++
  ((if opts.setgid then ["gid=".toList ++ decimal opts.gid] else []) ++
  (("mode=".toList ++ octal opts.mode) ::
  (("ptmxmode=".toList ++ octal opts.ptmxmode) ::
  (if opts.max < NR_UNIX98_PTY_MAX then ["max=".toList ++ decimal opts.max.toNat] else []))))

variable {opts o : PtsMountOpts} {mem : ℕ → Bool} {rest : List (List Char)} {p : List Char} {n : ℕ}

lemma comma_not_mem_decimal : ',' ∉ decimal n :=
  not_mem_toDigits (by decide) (by decide) (by decide)

lemma comma_not_mem_octal : ',' ∉ octal n := by
  rw [octal, List.mem_append, not_or]
  exact ⟨fun hmem => absurd (List.eq_of_mem_replicate hmem) (by decide),
    not_mem_toDigits (by decide) (by decide) (by decide)⟩

lemma comma_not_mem_shown (h : p ∈ shown opts) : ',' ∉ p := by
  have hlit : ∀ {s t : List Char}, ',' ∉ s → ',' ∉ t → ',' ∉ s ++ t := fun hs ht hmem =>
    (List.mem_append.mp hmem).elim hs ht
  simp only [shown, List.mem_append, List.mem_cons, List.mem_ite_nil_right, List.not_mem_nil,
    or_false] at h
  rcases h with ⟨-, rfl⟩ | ⟨-, rfl⟩ | rfl | rfl | ⟨-, rfl⟩
  · exact hlit (by decide) comma_not_mem_decimal
  · exact hlit (by decide) comma_not_mem_decimal
  · exact hlit (by decide) comma_not_mem_octal
  · exact hlit (by decide) comma_not_mem_octal
  · exact hlit (by decide) comma_not_mem_decimal

lemma show_eq_flatMap : devpts_show_options opts = (shown opts).flatMap fun p => ',' :: p := by
  cases opts with
  | mk setuid setgid uid gid mode ptmxmode newinstance max =>
    by_cases hmax : max < NR_UNIX98_PTY_MAX
    · cases setuid <;> cases setgid <;> simp [devpts_show_options, shown, hmax]
    · cases setuid <;> cases setgid <;> simp [devpts_show_options, shown, hmax]

/-- Texts with a separator before each of them, split at the separator. -/
lemma splitOn_flatMap {l : List (List Char)} {p : List Char} (hp : ',' ∉ p)
    (hl : ∀ q ∈ l, ',' ∉ q) : (p ++ l.flatMap fun q => ',' :: q).splitOn ',' = p :: l := by
  induction l generalizing p with
  | nil =>
    rw [List.flatMap_nil, List.append_nil]
    exact List.splitOn_eq_singleton hp
  | cons q l ih =>
    rw [List.flatMap_cons, List.cons_append, List.splitOn_append_cons_self_of_not_mem hp,
      ih (hl q List.mem_cons_self) fun r hr => hl r (List.mem_cons_of_mem q hr)]

/-- A remount that is given what was shown comes across the options that were shown. -/
lemma strsep_show : strsep (some (devpts_show_options opts)) = [] :: shown opts := by
  rw [strsep, show_eq_flatMap]
  exact splitOn_flatMap List.not_mem_nil fun p hp => comma_not_mem_shown hp

/-! ### One option -/

lemma tokens_apart : tokens.Pairwise fun x y => x.2.Apart y.2 := by
  decide

/-- The token of a text with a number that the conversion takes. -/
lemma match_token_number {token : Token} {p : Pattern} {q : Conversion} {arg : List Char}
    (hmem : (token, p) ∈ tokens) (hp : p.conversion = some q) (hne : arg ≠ [])
    (h : q.behind arg = []) : match_token tokens .Opt_err (p.text ++ arg) = (token, arg) :=
  match_token_of_mem tokens_apart hmem (match_one_append hp hne h)

lemma behind_decimal (h : n < 2 ^ 63) :
    Conversion.u.behind (decimal n) = [] ∧ Conversion.d.behind (decimal n) = [] := by
  have hread : simple_strtoul (decimal n) 0 = (n, []) := simple_strtoul_decimal (by omega)
  have hsign : '-' ∉ decimal n := not_mem_toDigits (by decide) (by decide) (by decide)
  exact ⟨congrArg Prod.snd hread,
    (congrArg Prod.snd (simple_strtol_of_digits hsign 0)).trans (congrArg Prod.snd hread)⟩

lemma behind_octal (h : n < 2 ^ 63) : Conversion.o.behind (octal n) = [] :=
  congrArg Prod.snd (simple_strtoul_octal (by omega))

lemma decimal_ne_nil : decimal n ≠ [] := Nat.toDigits_ne_nil

lemma octal_ne_nil : octal n ≠ [] := List.append_ne_nil_of_right_ne_nil _ Nat.toDigits_ne_nil

lemma initKid_toId (k : Kid) : initKid (toId k.val) = some k := by
  have hid : toId (k.val : ℤ) = k.val := by
    have hlt := k.isLt
    rw [toId, Int.emod_eq_of_lt (by omega) (by omega), Int.toNat_natCast]
  rw [initKid, hid]
  exact dif_pos k.isLt

/-- What the parser does with an owner that was shown. -/
lemma parse_uid (k : Kid) :
    parse_option .init true .PARSE_REMOUNT o ("uid=".toList ++ decimal k) =
      if k.val < 2 ^ 31 then some { o with uid := k, setuid := true } else none := by
  have hk : k.val < 2 ^ 63 := Nat.lt_trans k.isLt (by decide)
  have htoken : match_token tokens .Opt_err ("uid=".toList ++ decimal k) = (.Opt_uid, decimal k) :=
    match_token_number (p := ⟨"uid=".toList, some .u⟩) (by decide) rfl decimal_ne_nil
      (behind_decimal hk).1
  rw [parse_option, if_neg (List.append_ne_nil_of_right_ne_nil _ decimal_ne_nil), htoken]
  dsimp only
  rw [decimal, match_int_decimal hk]
  split_ifs
  · exact congrArg (Option.bind · _) (initKid_toId k)
  · rfl

lemma parse_gid (k : Kid) :
    parse_option .init true .PARSE_REMOUNT o ("gid=".toList ++ decimal k) =
      if k.val < 2 ^ 31 then some { o with gid := k, setgid := true } else none := by
  have hk : k.val < 2 ^ 63 := Nat.lt_trans k.isLt (by decide)
  have htoken : match_token tokens .Opt_err ("gid=".toList ++ decimal k) = (.Opt_gid, decimal k) :=
    match_token_number (p := ⟨"gid=".toList, some .u⟩) (by decide) rfl decimal_ne_nil
      (behind_decimal hk).1
  rw [parse_option, if_neg (List.append_ne_nil_of_right_ne_nil _ decimal_ne_nil), htoken]
  dsimp only
  rw [decimal, match_int_decimal hk]
  split_ifs
  · exact congrArg (Option.bind · _) (initKid_toId k)
  · rfl

lemma parse_mode (h : n < 4096) :
    parse_option .init true .PARSE_REMOUNT o ("mode=".toList ++ octal n) =
      some { o with mode := n } := by
  have htoken : match_token tokens .Opt_err ("mode=".toList ++ octal n) = (.Opt_mode, octal n) :=
    match_token_number (p := ⟨"mode=".toList, some .o⟩) (by decide) rfl octal_ne_nil
      (behind_octal (by omega))
  rw [parse_option, if_neg (List.append_ne_nil_of_right_ne_nil _ octal_ne_nil), htoken]
  dsimp only
  rw [octal, match_octal_octal (by omega)]
  simp [allugo_of_lt h]

lemma parse_ptmxmode (h : n < 4096) :
    parse_option .init true .PARSE_REMOUNT o ("ptmxmode=".toList ++ octal n) =
      some { o with ptmxmode := n } := by
  have htoken : match_token tokens .Opt_err ("ptmxmode=".toList ++ octal n) = (.Opt_ptmxmode, octal n) :=
    match_token_number (p := ⟨"ptmxmode=".toList, some .o⟩) (by decide) rfl octal_ne_nil
      (behind_octal (by omega))
  rw [parse_option, if_neg (List.append_ne_nil_of_right_ne_nil _ octal_ne_nil), htoken]
  dsimp only
  rw [octal, match_octal_octal (by omega)]
  simp [allugo_of_lt h]

lemma parse_max (h : (n : ℤ) ≤ NR_UNIX98_PTY_MAX) :
    parse_option .init true .PARSE_REMOUNT o ("max=".toList ++ decimal n) =
      some { o with max := n } := by
  have hn : n < 2 ^ 31 := by
    rw [NR_UNIX98_PTY_MAX] at h
    omega
  have htoken : match_token tokens .Opt_err ("max=".toList ++ decimal n) = (.Opt_max, decimal n) :=
    match_token_number (p := ⟨"max=".toList, some .d⟩) (by decide) rfl decimal_ne_nil
      (behind_decimal (by omega)).2
  rw [parse_option, if_neg (List.append_ne_nil_of_right_ne_nil _ decimal_ne_nil), htoken]
  dsimp only
  rw [decimal, match_int_decimal (by omega), if_pos hn]
  simp [h]

/-! ### All options -/

/-- The loop, when there is memory. -/
def parse_shown (o : PtsMountOpts) (ps : List (List Char)) : ℤ × PtsMountOpts :=
  parse_options .init .PARSE_REMOUNT (fun _ => true) o ps

lemma parse_shown_cons {o' : PtsMountOpts}
    (h : parse_option .init true .PARSE_REMOUNT o p = some o') :
    parse_shown o (p :: rest) = parse_shown o' rest := by
  rw [parse_shown, parse_options, h]
  rfl

lemma parse_shown_fail (h : parse_option .init true .PARSE_REMOUNT o p = none) :
    parse_shown o (p :: rest) = (-EINVAL, o) := by
  rw [parse_shown, parse_options, h]

/-- The owner is set, if it was shown; it is refused if it is out of range. -/
lemma parse_shown_uid (hopts : opts.Parsed) (hset : o.setuid = false)
    (huid : o.uid = GLOBAL_ROOT_UID) :
    parse_shown o ((if opts.setuid then ["uid=".toList ++ decimal opts.uid] else []) ++ rest) =
      if opts.uid.val < 2 ^ 31 then
        parse_shown { o with setuid := opts.setuid, uid := opts.uid } rest
      else (-EINVAL, o) := by
  cases hshow : opts.setuid with
  | false =>
    have hroot : opts.uid = GLOBAL_ROOT_UID := hopts.uid hshow
    have hsame : { o with setuid := false, uid := opts.uid } = o := by
      cases o with
      | mk =>
        cases hset
        cases huid
        exact congrArg (fun k => PtsMountOpts.mk _ _ k _ _ _ _ _) hroot
    rw [hsame, hroot]
    rfl
  | true =>
    rw [if_pos rfl, List.singleton_append]
    by_cases hlt : opts.uid.val < 2 ^ 31
    · rw [if_pos hlt, parse_shown_cons ((parse_uid opts.uid).trans (if_pos hlt))]
    · rw [if_neg hlt, parse_shown_fail ((parse_uid opts.uid).trans (if_neg hlt))]

lemma parse_shown_gid (hopts : opts.Parsed) (hset : o.setgid = false)
    (hgid : o.gid = GLOBAL_ROOT_GID) :
    parse_shown o ((if opts.setgid then ["gid=".toList ++ decimal opts.gid] else []) ++ rest) =
      if opts.gid.val < 2 ^ 31 then
        parse_shown { o with setgid := opts.setgid, gid := opts.gid } rest
      else (-EINVAL, o) := by
  cases hshow : opts.setgid with
  | false =>
    have hroot : opts.gid = GLOBAL_ROOT_GID := hopts.gid hshow
    have hsame : { o with setgid := false, gid := opts.gid } = o := by
      cases o with
      | mk =>
        cases hset
        cases hgid
        exact congrArg (fun k => PtsMountOpts.mk _ _ _ k _ _ _ _) hroot
    rw [hsame, hroot]
    rfl
  | true =>
    rw [if_pos rfl, List.singleton_append]
    by_cases hlt : opts.gid.val < 2 ^ 31
    · rw [if_pos hlt, parse_shown_cons ((parse_gid opts.gid).trans (if_pos hlt))]
    · rw [if_neg hlt, parse_shown_fail ((parse_gid opts.gid).trans (if_neg hlt))]

lemma parse_shown_max (hopts : opts.Parsed) (hmax : o.max = NR_UNIX98_PTY_MAX) :
    parse_shown o (if opts.max < NR_UNIX98_PTY_MAX then
      ["max=".toList ++ decimal opts.max.toNat] else []) = (0, { o with max := opts.max }) := by
  have hle := hopts.max_le
  split_ifs with hlt
  · have hcast : (opts.max.toNat : ℤ) = opts.max := Int.toNat_of_nonneg hopts.max_nonneg
    rw [parse_shown_cons (parse_max (by omega)), hcast]
    rfl
  · have heq : opts.max = o.max := by omega
    rw [heq]
    rfl

/-- The owners that a remount can set from their numerals. -/
def PtsMountOpts.OwnersFit (opts : PtsMountOpts) : Prop :=
  opts.uid.val < 2 ^ 31 ∧ opts.gid.val < 2 ^ 31

instance (opts : PtsMountOpts) : Decidable opts.OwnersFit := inferInstanceAs (Decidable (_ ∧ _))

/-- The text that shows parsed options sets them again, whatever the options are by then. -/
lemma parse_show (hopts : opts.Parsed) (hmem : ∀ k, mem k = true) (o : PtsMountOpts) :
    (opts.OwnersFit → parse_mount_options .init mem (some (devpts_show_options opts))
      .PARSE_REMOUNT o = (0, { opts with newinstance := o.newinstance })) ∧
    (¬ opts.OwnersFit → (parse_mount_options .init mem (some (devpts_show_options opts))
      .PARSE_REMOUNT o).1 = -EINVAL) := by
  have hall : mem = fun _ => true := funext hmem
  have hskip : parse_mount_options .init mem (some (devpts_show_options opts)) .PARSE_REMOUNT o =
      parse_shown (o.defaults .PARSE_REMOUNT) (shown opts) := by
    rw [parse_mount_options, strsep_show, hall]
    exact parse_shown_cons (if_pos rfl)
  rw [hskip, shown, parse_shown_uid hopts rfl rfl]
  by_cases huid : opts.uid.val < 2 ^ 31
  · rw [if_pos huid, parse_shown_gid hopts rfl rfl]
    by_cases hgid : opts.gid.val < 2 ^ 31
    · rw [if_pos hgid, parse_shown_cons (parse_mode hopts.mode),
        parse_shown_cons (parse_ptmxmode hopts.ptmxmode), parse_shown_max hopts rfl]
      exact ⟨fun _ => rfl, fun hno => absurd ⟨huid, hgid⟩ hno⟩
    · rw [if_neg hgid]
      exact ⟨fun hfit => absurd hfit.2 hgid, fun _ => rfl⟩
  · rw [if_neg huid]
    exact ⟨fun hfit => absurd hfit.1 huid, fun _ => rfl⟩

/-! ### Every run -/

section

variable {ι : Type} [Fintype ι] [DecidableEq ι]
  {tr : List (Parties.Move ι Act Env × Parties.State Fs Pc ι)}

/-- In every state that is reached, what is shown of an instance can be given to a remount, of that
or of another instance, at that time or later, by a process of the initial user namespace and with
memory for every number that `match_number` copies: if the owners are in the range of an `int`, the
remount succeeds, and the instance that was remounted has the options of the one that was shown and
shows them in the same way; otherwise it returns `-EINVAL`. Only `newinstance` stays its own. -/
theorem options_restored (hr : devpts.system.Run (start ι) tr) :
    System.Always (fun v => ∀ s fsi, v.shared.DEVPTS_SB s = some fsi →
      ∀ mem, (∀ k, mem k = true) → ∀ target : PtsFsInfo,
        let data := devpts_show_options fsi.mount_opts
        let r := devpts_remount .init mem (some data) target
        (fsi.mount_opts.OwnersFit → r.1 = 0 ∧
          r.2.mount_opts =
            { fsi.mount_opts with newinstance := target.mount_opts.newinstance } ∧
          devpts_show_options r.2.mount_opts = data) ∧
        (¬ fsi.mount_opts.OwnersFit → r.1 = -EINVAL)) (start ι) tr := by
  refine (Counted.always hr).mono fun v hv s fsi hfsi mem hmem target => ?_
  have hparse := parse_show (hv.sound.parsed s fsi hfsi) hmem target.mount_opts
  refine ⟨fun hfit => ?_, fun hno => hparse.2 hno⟩
  have hsame := hparse.1 hfit
  refine ⟨congrArg Prod.fst hsame, congrArg Prod.snd hsame, ?_⟩
  exact congrArg (fun r => devpts_show_options r.2) hsame

theorem session_options_restored :
    ∃ tr, devpts.system.Run (start (Fin 2)) tr ∧ tr.map Prod.fst = session ∧
      System.Always (fun v => ∀ s fsi, v.shared.DEVPTS_SB s = some fsi →
        ∀ mem, (∀ k, mem k = true) → ∀ target : PtsFsInfo,
          let data := devpts_show_options fsi.mount_opts
          let r := devpts_remount .init mem (some data) target
          (fsi.mount_opts.OwnersFit → r.1 = 0 ∧
            r.2.mount_opts =
              { fsi.mount_opts with newinstance := target.mount_opts.newinstance } ∧
            devpts_show_options r.2.mount_opts = data) ∧
          (¬ fsi.mount_opts.OwnersFit → r.1 = -EINVAL)) (start (Fin 2)) tr := by
  obtain ⟨tr, hrun, hacts⟩ := exists_session
  exact ⟨tr, hrun, hacts, options_restored hrun⟩

end

end QuickDevSkeleton.Devpts
