import QuickDevSkeleton.Devpts.Steps

/-!
# The life of an instance

A super block is referenced by its mounts and by the processes between `devpts_get_ref` and
`devpts_put_ref`. The last reference destroys the instance, and `devpts_get_ref` cannot bring it
back. Every mount makes an instance of its own, since `devpts_mnt` is never set; one that fails
leaves nothing behind, but for a mount that has no memory for its `pts_fs_info`: there
`devpts_kill_sb` uses a null pointer.
-/

namespace QuickDevSkeleton.Devpts

open Foundations

/-- The reference of a process to the instance `s`. -/
def Pc.refs (s : ℕ) (x : Pc) : ℕ := if x.sb = some s then 1 else 0

/-- Instances are those of the super blocks with a reference, and their options were parsed. -/
structure Fs.Sound (d : Fs) : Prop where
  mnt : d.devpts_mnt = none
  live : ∀ s, (d.DEVPTS_SB s).isSome ↔ d.active s ≠ 0
  parsed : ∀ s fsi, d.DEVPTS_SB s = some fsi → fsi.mount_opts.Parsed

section

variable {d e : Fs} {x y : Pc} {s t : ℕ} {f : PtsFsInfo → PtsFsInfo} {m : Bool} {fsi : PtsFsInfo}

namespace Fs

lemma isSome_update : ((d.update s f).DEVPTS_SB t).isSome = (d.DEVPTS_SB t).isSome := by
  by_cases ht : t = s
  · rw [ht, DEVPTS_SB_update_self, Option.isSome_map]
  · rw [DEVPTS_SB_update_of_ne ht]

/-- What holds of all instances still does when `f` keeps it for one. -/
lemma forall_update {P : ℕ → PtsFsInfo → Prop} (hf : ∀ fsi, d.DEVPTS_SB s = some fsi → P s fsi →
    P s (f fsi)) (h : ∀ t fsi, d.DEVPTS_SB t = some fsi → P t fsi) :
    ∀ t fsi, (d.update s f).DEVPTS_SB t = some fsi → P t fsi := by
  intro t fsi hfsi
  by_cases ht : t = s
  · subst ht
    rw [DEVPTS_SB_update_self] at hfsi
    obtain ⟨fsi, hold, rfl⟩ := Option.map_eq_some_iff.mp hfsi
    exact hf fsi hold (h t fsi hold)
  · exact h t fsi (DEVPTS_SB_update_of_ne ht ▸ hfsi)

/-! ### Soundness -/

lemma Sound.update (hd : d.Sound)
    (hf : ∀ fsi, fsi.mount_opts.Parsed → (f fsi).mount_opts.Parsed) : (d.update s f).Sound where
  mnt := hd.mnt
  live t := by
    rw [isSome_update, active_update]
    exact hd.live t
  parsed := forall_update (P := fun _ fsi => fsi.mount_opts.Parsed) (fun fsi _ => hf fsi) hd.parsed

lemma Sound.grab (hd : d.Sound) (hs : (d.DEVPTS_SB s).isSome) : (d.grab s m).Sound where
  mnt := hd.mnt
  live t := by
    rw [DEVPTS_SB_grab]
    by_cases ht : t = s
    · rw [ht, active_grab_self hs]
      exact ⟨fun _ => Nat.succ_ne_zero _, fun _ => hs⟩
    · rw [active_grab_of_ne ht]
      exact hd.live t
  parsed t fsi hfsi := hd.parsed t fsi (DEVPTS_SB_grab ▸ hfsi)

lemma Sound.drop (hd : d.Sound) (hs : (d.DEVPTS_SB s).isSome) (hne : d.active s ≠ 1) :
    (d.drop s m).Sound where
  mnt := hd.mnt
  live t := by
    rw [DEVPTS_SB_drop]
    by_cases ht : t = s
    · have hactive := (hd.live s).mp hs
      rw [ht, active_drop_self hs]
      exact ⟨fun _ => by omega, fun _ => hs⟩
    · rw [active_drop_of_ne ht]
      exact hd.live t
  parsed t fsi hfsi := hd.parsed t fsi (DEVPTS_SB_drop ▸ hfsi)

lemma Sound.destroy (hd : d.Sound) : (d.destroy s m).Sound where
  mnt := hd.mnt
  live t := by
    by_cases ht : t = s
    · have hzero : (d.destroy s m).active s = 0 := field_destroy_self
      rw [ht, DEVPTS_SB_destroy_self, hzero]
      simp
    · rw [DEVPTS_SB_destroy_of_ne ht, active, field_destroy_of_ne ht]
      exact hd.live t
  parsed t fsi hfsi := by
    by_cases ht : t = s
    · rw [ht, DEVPTS_SB_destroy_self] at hfsi
      cases hfsi
    · exact hd.parsed t fsi (DEVPTS_SB_destroy_of_ne ht ▸ hfsi)

end Fs

lemma parsed_remount {ns : UserNs} {mem : ℕ → Bool} {data : Option (List Char)} :
    (devpts_remount ns mem data fsi).2.mount_opts.Parsed :=
  parsed_mount_options

lemma Fs.Same.sound (h : Fs.Same d e) (hd : d.Sound) : e.Sound where
  mnt := h.mnt.trans hd.mnt
  live t := by
    rw [h.info, h.active]
    exact hd.live t
  parsed t fsi hfsi := hd.parsed t fsi (h.info t ▸ hfsi)

lemma Fs.Added.sound {opts : PtsMountOpts} {ptmx : Inode} (h : Fs.Added d e s opts ptmx)
    (hopts : opts.Parsed) (hd : d.Sound) : e.Sound where
  mnt := h.mnt.trans hd.mnt
  live t := by
    by_cases ht : t = s
    · rw [ht, h.info_new, h.active_new]
      simp
    · rw [h.info t ht, h.active t ht]
      exact hd.live t
  parsed t fsi hfsi := by
    by_cases ht : t = s
    · rw [ht, h.info_new] at hfsi
      cases hfsi
      exact hopts
    · exact hd.parsed t fsi (h.info t ht ▸ hfsi)

lemma Step.sound (h : Step d x e y) (hd : d.Sound) : e.Sound := by
  cases h with
  | get_ref s hs => exact hd.grab hs
  | put_ref s hs hne => exact hd.drop hs hne
  | put_last s hs hone => exact hd.destroy
  | get_new | index_remove | kill_remove => exact hd.update fun fsi hfsi => hfsi
  | pty_add | pty_kill =>
    exact ⟨hd.mnt, fun t => by simpa using hd.live t, fun t fsi hfsi =>
      hd.parsed t fsi (Fs.DEVPTS_SB_updatePtys ▸ hfsi)⟩
  | _ => exact { hd with }

lemma EnvStep.sound (h : EnvStep d e) (hd : d.Sound)
    (hlive : ∀ s, d.mounts s ≠ 0 → (d.DEVPTS_SB s).isSome) : e.Sound := by
  cases h with
  | same hsame => exact hsame.sound hd
  | added opts ptmx hopts hptmx hadded => exact hadded.sound hopts hd
  | remount s ns mem data => exact hd.update fun fsi _ => parsed_remount
  | bind s hmounted => exact hd.grab (hlive s hmounted)
  | umount s hmounted hne => exact hd.drop (hlive s hmounted) hne
  | umount_last s hmounted hone => exact hd.destroy

/-- An instance that has not been there before is the new one of a mount. -/
lemma EnvStep.created (h : EnvStep d e) (hd : ¬ (d.DEVPTS_SB s).isSome)
    (he : (e.DEVPTS_SB s).isSome) : ∃ opts ptmx, PtmxOf opts ptmx ∧ Fs.Added d e s opts ptmx := by
  cases h with
  | same hsame =>
    rw [hsame.info s] at he
    exact absurd he hd
  | added opts ptmx hopts hptmx hadded =>
    by_cases hs : s = d.sbs.next
    · exact ⟨opts, ptmx, hptmx, hs ▸ hadded⟩
    · rw [hadded.info s hs] at he
      exact absurd he hd
  | remount t ns mem data =>
    rw [Fs.isSome_update] at he
    exact absurd he hd
  | bind t =>
    rw [Fs.DEVPTS_SB_grab] at he
    exact absurd he hd
  | umount t =>
    rw [Fs.DEVPTS_SB_drop] at he
    exact absurd he hd
  | umount_last t =>
    by_cases ht : s = t
    · rw [ht, Fs.DEVPTS_SB_destroy_self] at he
      cases he
    · rw [Fs.DEVPTS_SB_destroy_of_ne ht] at he
      exact absurd he hd

/-! ### References -/

lemma Step.active (h : Step d x e y) (t : ℕ) {r : ℕ}
    (hr : d.active t = d.mounts t + (x.refs t + r)) : e.active t = e.mounts t + (y.refs t + r) := by
  cases h with
  | get_ref s hs =>
    by_cases ht : t = s
    · subst ht
      rw [Fs.active_grab_self hs, Fs.mounts_grab_self hs]
      simp only [Pc.refs, Pc.sb, reduceCtorEq, if_true, if_false, Bool.toNat_false] at hr ⊢
      omega
    · rw [Fs.active_grab_of_ne ht, Fs.mounts_grab_of_ne ht, hr]
      simp [Pc.refs, Pc.sb, Ne.symm ht]
  | put_ref s hs hne =>
    by_cases ht : t = s
    · subst ht
      rw [Fs.active_drop_self hs, Fs.mounts_drop_self hs]
      simp only [Pc.refs, Pc.sb, reduceCtorEq, if_true, if_false, Bool.toNat_false] at hr ⊢
      omega
    · rw [Fs.active_drop_of_ne ht, Fs.mounts_drop_of_ne ht, hr]
      simp [Pc.refs, Pc.sb, Ne.symm ht]
  | put_last s hs hone =>
    by_cases ht : t = s
    · subst ht
      rw [Fs.active, Fs.mounts, Fs.field_destroy_self, Fs.field_destroy_self]
      simp only [Pc.refs, Pc.sb, reduceCtorEq, if_true, if_false] at hr ⊢
      omega
    · rw [Fs.active, Fs.mounts, Fs.field_destroy_of_ne ht, Fs.field_destroy_of_ne ht]
      refine hr.trans ?_
      simp [Fs.mounts, Pc.refs, Pc.sb, Ne.symm ht]
  | get_new | index_remove | kill_remove =>
    rw [Fs.active_update, Fs.mounts_update]
    exact hr
  | pty_add | pty_kill =>
    rw [Fs.active_updatePtys, Fs.mounts_updatePtys]
    exact hr
  | _ => exact hr

lemma EnvStep.active (h : EnvStep d e) (hlive : ∀ s, d.mounts s ≠ 0 → (d.DEVPTS_SB s).isSome)
    (t : ℕ) {r : ℕ} (hr : d.active t = d.mounts t + r) : e.active t = e.mounts t + r := by
  cases h with
  | same hsame =>
    rw [hsame.active, hsame.mounts]
    exact hr
  | added opts ptmx hopts hptmx hadded =>
    by_cases ht : t = d.sbs.next
    · have hzero : d.active t = 0 := ht ▸ Fs.field_next
      rw [ht, hadded.active_new, hadded.mounts_new]
      omega
    · rw [hadded.active t ht, hadded.mounts t ht]
      exact hr
  | remount s ns mem data =>
    rw [Fs.active_update, Fs.mounts_update]
    exact hr
  | bind s hmounted =>
    by_cases ht : t = s
    · subst ht
      rw [Fs.active_grab_self (hlive t hmounted), Fs.mounts_grab_self (hlive t hmounted),
        Bool.toNat_true]
      omega
    · rw [Fs.active_grab_of_ne ht, Fs.mounts_grab_of_ne ht]
      exact hr
  | umount s hmounted hne =>
    by_cases ht : t = s
    · subst ht
      rw [Fs.active_drop_self (hlive t hmounted), Fs.mounts_drop_self (hlive t hmounted),
        Bool.toNat_true]
      omega
    · rw [Fs.active_drop_of_ne ht, Fs.mounts_drop_of_ne ht]
      exact hr
  | umount_last s hmounted hone =>
    by_cases ht : t = s
    · subst ht
      rw [Fs.active, Fs.mounts, Fs.field_destroy_self, Fs.field_destroy_self]
      omega
    · rw [Fs.active, Fs.mounts, Fs.field_destroy_of_ne ht, Fs.field_destroy_of_ne ht]
      exact hr

end

/-! ### Every run -/

section

variable {ι : Type} [Fintype ι] [DecidableEq ι] {v v' : Parties.State Fs Pc ι}
  {mv : Parties.Move ι Act Env} {tr : List (Parties.Move ι Act Env × Parties.State Fs Pc ι)}

/-- The references of every instance. -/
structure Counted (v : Parties.State Fs Pc ι) : Prop where
  sound : v.shared.Sound
  active : ∀ s, v.shared.active s = v.shared.mounts s + Parties.tally (Pc.refs s) v.place

namespace Counted

omit [DecidableEq ι] in
/-- What is mounted is there. -/
lemma live_of_mounts (hv : Counted v) {s : ℕ} (hs : v.shared.mounts s ≠ 0) :
    (v.shared.DEVPTS_SB s).isSome := by
  have hactive := hv.active s
  exact (hv.sound.live s).mpr (by omega)

/-- The instance of a process is there. -/
lemma live_of_sb (hv : Counted v) (i : ι) {s : ℕ} (hs : (v.place i).sb = some s) :
    (v.shared.DEVPTS_SB s).isSome := by
  have hactive := hv.active s
  have hle := Parties.le_tally (Pc.refs s) v.place i
  have hone : (v.place i).refs s = 1 := if_pos hs
  exact (hv.sound.live s).mpr (by omega)

/-- A move of a process is one of the rules. -/
lemma step (hv : Counted v) {i : ι} {a : Act} {e : Fs} {y : Pc}
    (h : devpts.act v.shared (v.place i) a = some (e, y)) : Step v.shared (v.place i) e y :=
  step_of_act h fun _ => hv.live_of_sb i

omit [DecidableEq ι] in
lemma envStep (hv : Counted v) {ev : Env} {e : Fs} (h : devpts.env v.shared ev = some e) :
    EnvStep v.shared e :=
  envStep_of_act h hv.sound.mnt fun _ => hv.live_of_mounts

lemma next (hv : Counted v) (h : devpts.next v mv = some v') : Counted v' where
  sound := by
    cases mv with
    | act i a =>
      obtain ⟨e, y, hact, rfl⟩ := Parties.next_act.mp h
      exact (hv.step hact).sound hv.sound
    | env ev =>
      obtain ⟨e, henv, rfl⟩ := Parties.next_env.mp h
      exact (hv.envStep henv).sound hv.sound fun _ => hv.live_of_mounts
  active s := by
    refine Parties.next_ledger (c := fun d => d.active s) (m := fun d => d.mounts s) h
      (fun i a y hact r hr => (hv.step hact).active s hr) (fun ev henv r hr => ?_) (hv.active s)
    exact (hv.envStep henv).active (fun _ => hv.live_of_mounts) s hr

omit [DecidableEq ι] in
lemma start : Counted (start ι) where
  sound := ⟨rfl, fun s => by simp [Devpts.start, Fs.DEVPTS_SB, Fs.active, Fs.field, Heap.empty],
    fun s fsi h => by cases h⟩
  active s := by
    have hzero : Parties.tally (Pc.refs s) (Devpts.start ι).place = 0 :=
      Parties.tally_eq_zero fun i => rfl
    rw [hzero]
    rfl

lemma always (hr : devpts.system.Run (Devpts.start ι) tr) :
    System.Always Counted (Devpts.start ι) tr :=
  hr.always (fun _ _ _ hv h => hv.next h) start

end Counted

/-- However mounts, remounts, unmounts and the processes with their ptys interleave: an instance is
there exactly as long as something is mounted from it or a process has a reference, and `s_active`
counts these. No process that is in the file system finds its instance gone. -/
theorem instance_lifetime (hr : devpts.system.Run (start ι) tr) :
    System.Always (fun v => ∀ s,
      v.shared.active s = v.shared.mounts s + Parties.tally (Pc.refs s) v.place ∧
      ((v.shared.DEVPTS_SB s).isSome ↔
        v.shared.mounts s ≠ 0 ∨ ∃ p, (v.place p).sb = some s)) (start ι) tr := by
  refine (Counted.always hr).mono fun v hv s => ⟨hv.active s, ?_⟩
  constructor
  · intro hs
    by_contra hnone
    rw [not_or, not_not, not_exists] at hnone
    have hzero : Parties.tally (Pc.refs s) v.place = 0 :=
      Parties.tally_eq_zero fun p => if_neg (hnone.2 p)
    have hactive := hv.active s
    exact (hv.sound.live s).mp hs (by omega)
  · rintro (hs | ⟨p, hp⟩)
    · exact hv.live_of_mounts hs
    · exact hv.live_of_sb p hp

theorem session_instance_lifetime :
    ∃ tr, devpts.system.Run (start (Fin 2)) tr ∧ tr.map Prod.fst = session ∧
      System.Always (fun v => ∀ s,
        v.shared.active s = v.shared.mounts s + Parties.tally (Pc.refs s) v.place ∧
        ((v.shared.DEVPTS_SB s).isSome ↔
          v.shared.mounts s ≠ 0 ∨ ∃ p, (v.place p).sb = some s)) (start (Fin 2)) tr := by
  obtain ⟨tr, hrun, hacts⟩ := exists_session
  exact ⟨tr, hrun, hacts, instance_lifetime hrun⟩

/-- In every state that is reached, a mount succeeds if and only if it gets to its super block and
finds all it needs, whether or not it asks for `newinstance`; its instance is then a new one, with
the options that were parsed and a `ptmx` node of that mode, and no process is in it. A mount that
fails changes no instance. -/
theorem mount_own_instance (hr : devpts.system.Run (start ι) tr) :
    System.Always (fun v => ∀ c,
      ((∃ s, (devpts_mount v.shared c).2 = .root s) ↔
        c.Opens ∧ c.kzalloc = true ∧ c.Completes) ∧
      (∀ s, (devpts_mount v.shared c).2 = .root s →
        v.shared.DEVPTS_SB s = none ∧ (∀ p, (v.place p).sb ≠ some s) ∧
        ∃ ptmx : Inode, PtmxOf c.opts ptmx ∧
          Fs.Added v.shared (devpts_mount v.shared c).1 s c.opts ptmx) ∧
      (∀ error, (devpts_mount v.shared c).2 = .error error →
        Fs.Same v.shared (devpts_mount v.shared c).1)) (start ι) tr := by
  refine (Counted.always hr).mono fun v hv c => ?_
  have hmount := mountStep hv.sound.mnt c
  refine ⟨⟨?_, ?_⟩, fun s hs => ?_, fun error herror => ?_⟩
  · rintro ⟨s, hs⟩
    rw [hs] at hmount
    exact hmount.added.1
  · rintro ⟨hopens, hk, hall⟩
    generalize devpts_mount v.shared c = r at hmount
    obtain ⟨e, o⟩ := r
    cases hmount with
    | refused error hno => exact absurd hopens hno
    | oops sbs error _ hno =>
      rw [hk] at hno
      cases hno
    | undone sbs fresh error _ _ hno => exact absurd hall hno
    | mounted => exact ⟨_, rfl⟩
  · rw [hs] at hmount
    obtain ⟨-, hnext, hadded⟩ := hmount.added
    have hnone : v.shared.DEVPTS_SB s = none := hnext ▸ Fs.field_next
    refine ⟨hnone, fun p hp => ?_, hadded⟩
    have hlive := hv.live_of_sb p hp
    rw [hnone] at hlive
    cases hlive
  · rw [herror] at hmount
    exact hmount.same

theorem session_mount_own_instance :
    ∃ tr, devpts.system.Run (start (Fin 2)) tr ∧ tr.map Prod.fst = session ∧
      System.Always (fun v => ∀ c,
        ((∃ s, (devpts_mount v.shared c).2 = .root s) ↔
          c.Opens ∧ c.kzalloc = true ∧ c.Completes) ∧
        (∀ s, (devpts_mount v.shared c).2 = .root s →
          v.shared.DEVPTS_SB s = none ∧ (∀ p, (v.place p).sb ≠ some s) ∧
          ∃ ptmx : Inode, PtmxOf c.opts ptmx ∧
            Fs.Added v.shared (devpts_mount v.shared c).1 s c.opts ptmx) ∧
        (∀ error, (devpts_mount v.shared c).2 = .error error →
          Fs.Same v.shared (devpts_mount v.shared c).1)) (start (Fin 2)) tr := by
  obtain ⟨tr, hrun, hacts⟩ := exists_session
  exact ⟨tr, hrun, hacts, mount_own_instance hrun⟩

/-! ### The null pointer -/

/-- A mount has memory for its `pts_fs_info`, if it gets to its super block. -/
def HasInfo (mv : Parties.Move ι Act Env) : Prop :=
  ∀ c, mv = .env (.mount c) → c.Opens → c.kzalloc = true

omit [Fintype ι] [DecidableEq ι] in
lemma Step.oopses {d e : Fs} {x y : Pc} (h : Step d x e y) : e.oopses = d.oopses := by
  cases h <;> rfl

lemma MountStep.oopses {d e : Fs} {c : MountCall} {r : Mounted} (h : MountStep d c e r) :
    (c.Opens → c.kzalloc = true) ↔ e.oopses = d.oopses := by
  cases h with
  | refused error hno => exact ⟨fun _ => rfl, fun _ hopens => absurd hopens hno⟩
  | oops sbs error hopens hk =>
    constructor
    · intro hall
      rw [hk] at hall
      cases hall hopens
    · intro heq
      exact absurd heq (Nat.succ_ne_self _)
  | undone sbs fresh error hopens hk => exact ⟨fun _ => rfl, fun _ _ => hk⟩
  | mounted sbs ptmx hopens hk => exact ⟨fun _ => rfl, fun _ _ => hk⟩

lemma Counted.oopses (hv : Counted v) (h : devpts.next v mv = some v') :
    HasInfo mv ↔ v'.shared.oopses = v.shared.oopses := by
  cases mv with
  | act i a =>
    obtain ⟨e, y, hact, rfl⟩ := Parties.next_act.mp h
    exact ⟨fun _ => (hv.step hact).oopses, fun _ c hc => (by cases hc)⟩
  | env ev =>
    obtain ⟨e, henv, rfl⟩ := Parties.next_env.mp h
    cases ev with
    | mount c =>
      cases henv
      rw [← (mountStep hv.sound.mnt c).oopses]
      exact ⟨fun hall => hall c rfl, fun hall c' hc' => by cases hc'; exact hall⟩
    | remount s ns mem data =>
      have heq : e.oopses = v.shared.oopses := by
        simp only [devpts, Env.act] at henv
        split_ifs at henv
        cases henv
        rfl
      exact ⟨fun _ => heq, fun _ c hc => (by cases hc)⟩
    | bind s =>
      have heq : e.oopses = v.shared.oopses := by
        simp only [devpts, Env.act] at henv
        split_ifs at henv
        cases henv
        rfl
      exact ⟨fun _ => heq, fun _ c hc => (by cases hc)⟩
    | umount s =>
      have heq : e.oopses = v.shared.oopses := by
        simp only [devpts, Env.act] at henv
        split_ifs at henv with hmounted
        rw [Fs.deactivate_super_eq (hv.live_of_mounts hmounted)] at henv
        cases henv
        split_ifs <;> rfl
      exact ⟨fun _ => heq, fun _ c hc => (by cases hc)⟩

/-- `devpts_kill_sb` never has a null pointer, in any run, if and only if no mount that got to its
super block was without memory for its `pts_fs_info`. -/
theorem kill_sb_null_iff (hr : devpts.system.Run (start ι) tr) :
    System.Always (fun v => v.shared.oopses = 0) (start ι) tr ↔
      System.Along (fun _ mv => HasInfo mv) (start ι) tr := by
  refine hr.always_iff_along (I := fun v => Counted v ∧ v.shared.oopses = 0) (fun v h => h.2)
    (fun v mv v' hv hok h => ⟨hv.1.next h, ((hv.1.oopses h).mp hok).trans hv.2⟩)
    (fun v mv v' hv hno h hzero => hno ((hv.1.oopses h).mpr (hzero.trans hv.2.symm)))
    ⟨Counted.start, rfl⟩

/-- Three mounts fail: one for its options, one in `sget` and one without memory for its root, which
gives its super block back. The fourth one succeeds and is undone by an unmount. -/
def failingMounts : List (Parties.Move Parties.Two Act Env) :=
  [.env (.mount (mountCall "max=none")), .env (.mount { mountCall "" with sget := some 12 }),
    .env (.mount { mountCall "uid=5" with d_make_root := false }),
    .env (.mount (mountCall "newinstance")), .env (.umount 1)]

lemma hasInfo_failingMounts : ∀ mv ∈ failingMounts, HasInfo mv := by
  intro mv hmv c hc _
  simp only [failingMounts, List.mem_cons, List.not_mem_nil, or_false] at hmv
  rcases hmv with rfl | rfl | rfl | rfl | rfl <;> cases hc <;> rfl

/-- Mounts that fail do no harm, but one without memory for its `pts_fs_info` does. -/
theorem session_kill_sb_null_iff :
    (∃ tr, devpts.system.Run (start (Fin 2)) tr ∧ tr.map Prod.fst = failingMounts ∧
      System.Always (fun v => v.shared.oopses = 0) (start (Fin 2)) tr) ∧
    ∃ tr, devpts.system.Run (start (Fin 2)) tr ∧
      tr.map Prod.fst = failingMounts ++ [.env (.mount { mountCall "" with kzalloc := false })] ∧
      ¬ System.Always (fun v => v.shared.oopses = 0) (start (Fin 2)) tr := by
  have h : (System.final devpts.next (start (Fin 2)) failingMounts).isSome := by
    decide +kernel
  constructor
  · obtain ⟨tr, hrun, hacts⟩ := System.exists_run_of_isSome h
    have halong : System.Along (fun _ mv => HasInfo mv) (start (Fin 2)) tr :=
      System.along_of_labels fun mv hmv _ => hasInfo_failingMounts mv (hacts ▸ hmv)
    exact ⟨tr, hrun, hacts, (kill_sb_null_iff hrun).mpr halong⟩
  · obtain ⟨v, hv⟩ := Option.isSome_iff_exists.mp h
    have hopens : MountCall.Opens { mountCall "" with kzalloc := false } :=
      ⟨by decide +kernel, Or.inl rfl, rfl⟩
    have hno : ¬ HasInfo (ι := Fin 2) (.env (.mount { mountCall "" with kzalloc := false })) :=
      fun hinfo => Bool.noConfusion (hinfo _ rfl hopens)
    obtain ⟨tr, hrun, hacts, hnot⟩ : ∃ tr, devpts.system.Run (start (Fin 2)) tr ∧
        tr.map Prod.fst = failingMounts ++ [_] ∧
        ¬ System.Along (fun _ mv => HasInfo mv) (start (Fin 2)) tr :=
      System.exists_run_not_along hv rfl hno
    exact ⟨tr, hrun, hacts, fun hall => hnot ((kill_sb_null_iff hrun).mp hall)⟩

end

end QuickDevSkeleton.Devpts
