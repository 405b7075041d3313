import Mathlib.Algebra.BigOperators.Group.Finset.Basic
import Mathlib.Algebra.Order.Group.Multiset
import QuickDevSkeleton.Devpts.Indices

/-!
# The directory of an instance

The root directory of an instance has an entry for every pty between `devpts_pty_new` and
`devpts_pty_kill`, under the decimal numeral of its index, and one for `ptmx`. `devpts_get_priv`
finds what `devpts_pty_new` was given as long as the entry is there.
-/

namespace QuickDevSkeleton.Devpts

open Foundations

namespace Pc

/-- The entry of a process in the directory of the instance `s`. -/
def entries (s : ℕ) : Pc → Multiset Dentry
  | .pty t n inode => if t = s then {⟨decimal n, inode⟩} else 0
  | _ => 0

/-- The inode of a process. -/
def inode : Pc → Option Inode
  | .ptyNew _ _ inode | .pty _ _ inode => some inode
  | _ => none

/-- The inode of a process was made for its index, and is not that of `ptmx`. -/
def Made : Pc → Prop
  | .ptyNew _ n inode | .pty _ n inode =>
    inode.i_ino = n + 3 ∧ inode.i_rdev ≠ MKDEV TTYAUX_MAJOR PTMX_MINOR
  | _ => True

lemma mem_entries {x : Pc} {s : ℕ} {dentry : Dentry} :
    dentry ∈ x.entries s ↔ ∃ n inode, x = .pty s n inode ∧ dentry = ⟨decimal n, inode⟩ := by
  constructor
  · intro h
    cases x with
    | pty t n inode =>
      rw [entries] at h
      split_ifs at h with ht
      · subst ht
        exact ⟨n, inode, rfl, Multiset.mem_singleton.mp h⟩
      · exact absurd h (Multiset.notMem_zero _)
    | _ => exact absurd h (Multiset.notMem_zero _)
  · rintro ⟨n, inode, rfl, rfl⟩
    rw [entries, if_pos rfl]
    exact Multiset.mem_singleton_self _

end Pc

section

variable {d e : Fs} {x y : Pc} {s : ℕ}

lemma Step.made (h : Step d x e y) (hx : x.Made) : y.Made := by
  cases h with
  | pty_inode s n device priv fsuid fsgid fsi hdevice => exact ⟨rfl, hdevice⟩
  | pty_add => exact hx
  | _ => exact True.intro

/-- An inode that a process has after a step it had before, or it is new. -/
lemma Step.inode (h : Step d x e y) {i : Inode} (hy : y.inode = some i) :
    x.inode = some i ∨ i.addr = d.fresh ∧ e.fresh = d.fresh + 1 := by
  cases h with
  | pty_inode =>
    cases hy
    exact Or.inr ⟨rfl, rfl⟩
  | pty_add => exact Or.inl hy
  | _ => cases hy

lemma Step.fresh (h : Step d x e y) : d.fresh ≤ e.fresh := by
  cases h with
  | pty_inode => exact Nat.le_succ _
  | _ => exact Nat.le_refl _

lemma EnvStep.fresh (h : EnvStep d e) : d.fresh ≤ e.fresh := by
  cases h with
  | same hsame => exact hsame.fresh
  | added opts ptmx hopts hptmx hadded => exact hadded.fresh
  | _ => exact Nat.le_refl _

/-- A process makes no instance. -/
lemma Step.live (h : Step d x e y) (he : (e.DEVPTS_SB s).isSome) : (d.DEVPTS_SB s).isSome := by
  cases h with
  | get_new | index_remove | kill_remove => exact Fs.isSome_update ▸ he
  | put_last t =>
    by_cases ht : s = t
    · rw [ht, Fs.DEVPTS_SB_destroy_self] at he
      cases he
    · exact Fs.DEVPTS_SB_destroy_of_ne ht ▸ he
  | get_ref => exact Fs.DEVPTS_SB_grab ▸ he
  | put_ref => exact Fs.DEVPTS_SB_drop ▸ he
  | pty_add | pty_kill => exact Fs.DEVPTS_SB_updatePtys ▸ he
  | _ => exact he

/-- The ptys in a directory are those of the processes. A process that removes one finds its own. -/
lemma Step.ptys (h : Step d x e y) (hlive : (e.DEVPTS_SB s).isSome)
    (halias : ∀ t n inode, x = .pty t n inode →
      d_find_alias d t inode = some ⟨decimal n, inode⟩)
    {r : Multiset Dentry} (hr : (d.ptys s : Multiset Dentry) = 0 + (x.entries s + r)) :
    (e.ptys s : Multiset Dentry) = 0 + (y.entries s + r) := by
  cases h with
  | pty_add t n inode =>
    by_cases ht : s = t
    · subst ht
      rw [Fs.DEVPTS_SB_updatePtys] at hlive
      rw [Fs.ptys_updatePtys_self hlive, ← Multiset.cons_coe, hr]
      simp [Pc.entries]
    · rw [Fs.ptys_updatePtys_of_ne ht, hr]
      simp [Pc.entries, Ne.symm ht]
  | pty_kill t n inode dentry hfind =>
    rw [halias t n inode rfl] at hfind
    cases hfind
    by_cases ht : s = t
    · subst ht
      rw [Fs.DEVPTS_SB_updatePtys] at hlive
      rw [Fs.ptys_updatePtys_self hlive, ← Multiset.coe_erase, hr]
      simp [Pc.entries]
    · rw [Fs.ptys_updatePtys_of_ne ht, hr]
      simp [Pc.entries, Ne.symm ht]
  | put_last t =>
    by_cases ht : s = t
    · rw [ht, Fs.DEVPTS_SB_destroy_self] at hlive
      cases hlive
    · rw [Fs.ptys, Fs.field_destroy_of_ne ht]
      exact hr
  | get_ref =>
    rw [Fs.ptys_grab]
    exact hr
  | put_ref =>
    rw [Fs.ptys_drop]
    exact hr
  | get_new | index_remove | kill_remove =>
    rw [Fs.ptys_update]
    exact hr
  | _ => exact hr

lemma EnvStep.ptys (h : EnvStep d e) (he : (e.DEVPTS_SB s).isSome) :
    e.ptys s = d.ptys s := by
  cases h with
  | same hsame => exact hsame.ptys s
  | added opts ptmx hopts hptmx hadded =>
    by_cases hs : s = d.sbs.next
    · have hnone : d.ptys d.sbs.next = [] := Fs.field_next
      rw [hs, hadded.ptys_new, hnone]
    · exact hadded.ptys s hs
  | remount t => exact Fs.ptys_update
  | bind t => exact Fs.ptys_grab
  | umount t => exact Fs.ptys_drop
  | umount_last t =>
    by_cases ht : s = t
    · rw [ht, Fs.DEVPTS_SB_destroy_self] at he
      cases he
    · exact Fs.field_destroy_of_ne ht

/-- No entry is in a directory twice. -/
lemma Step.nodup_ptys (h : Step d x e y) (hlive : (e.DEVPTS_SB s).isSome)
    (hnew : ∀ t n inode, x = .ptyNew t n inode → (⟨decimal n, inode⟩ : Dentry) ∉ d.ptys t)
    (hd : (d.ptys s).Nodup) : (e.ptys s).Nodup := by
  cases h with
  | pty_add t n inode =>
    by_cases ht : s = t
    · subst ht
      rw [Fs.DEVPTS_SB_updatePtys] at hlive
      rw [Fs.ptys_updatePtys_self hlive]
      exact List.nodup_cons.mpr ⟨hnew s n inode rfl, hd⟩
    · rw [Fs.ptys_updatePtys_of_ne ht]
      exact hd
  | pty_kill t n inode dentry =>
    by_cases ht : s = t
    · subst ht
      rw [Fs.DEVPTS_SB_updatePtys] at hlive
      rw [Fs.ptys_updatePtys_self hlive]
      exact hd.erase dentry
    · rw [Fs.ptys_updatePtys_of_ne ht]
      exact hd
  | put_last t =>
    by_cases ht : s = t
    · rw [ht, Fs.DEVPTS_SB_destroy_self] at hlive
      cases hlive
    · rw [Fs.ptys, Fs.field_destroy_of_ne ht]
      exact hd
  | get_ref =>
    rw [Fs.ptys_grab]
    exact hd
  | put_ref =>
    rw [Fs.ptys_drop]
    exact hd
  | get_new | index_remove | kill_remove =>
    rw [Fs.ptys_update]
    exact hd
  | _ => exact hd

/-! ### `ptmx` -/

/-- Every instance has a `ptmx` of the mode that its options say. -/
def Fs.HasPtmx (d : Fs) : Prop :=
  ∀ s fsi, d.DEVPTS_SB s = some fsi →
    ∃ ptmx, fsi.ptmx_dentry = some ptmx ∧ PtmxOf fsi.mount_opts ptmx

lemma Step.hasPtmx (h : Step d x e y) (hd : d.HasPtmx) : e.HasPtmx := by
  cases h with
  | get_new | index_remove | kill_remove => exact Fs.forall_update (fun fsi _ hfsi => hfsi) hd
  | put_last t =>
    intro s fsi hfsi
    by_cases ht : s = t
    · rw [ht, Fs.DEVPTS_SB_destroy_self] at hfsi
      cases hfsi
    · exact hd s fsi (Fs.DEVPTS_SB_destroy_of_ne ht ▸ hfsi)
  | get_ref => exact fun s fsi hfsi => hd s fsi (Fs.DEVPTS_SB_grab ▸ hfsi)
  | put_ref => exact fun s fsi hfsi => hd s fsi (Fs.DEVPTS_SB_drop ▸ hfsi)
  | pty_add | pty_kill => exact fun s fsi hfsi => hd s fsi (Fs.DEVPTS_SB_updatePtys ▸ hfsi)
  | _ => exact hd

lemma EnvStep.hasPtmx (h : EnvStep d e) (hd : d.HasPtmx) : e.HasPtmx := by
  cases h with
  | same hsame => exact fun s fsi hfsi => hd s fsi (hsame.info s ▸ hfsi)
  | added opts ptmx hopts hptmx hadded =>
    intro s fsi hfsi
    by_cases hs : s = d.sbs.next
    · rw [hs, hadded.info_new] at hfsi
      cases hfsi
      exact ⟨ptmx, rfl, hptmx⟩
    · exact hd s fsi (hadded.info s hs ▸ hfsi)
  | remount t ns mem data =>
    refine Fs.forall_update (P := fun _ fsi => ∃ ptmx, fsi.ptmx_dentry = some ptmx ∧
      PtmxOf fsi.mount_opts ptmx) (fun fsi _ hfsi => ?_) hd
    obtain ⟨ptmx, hsome, hino, -⟩ := hfsi
    refine ⟨{ ptmx with
      i_mode := S_IFCHR ||| (devpts_remount ns mem data fsi).2.mount_opts.ptmxmode }, ?_, hino, rfl⟩
    change Option.map _ fsi.ptmx_dentry = _
    rw [hsome]
    rfl
  | bind t => exact fun s fsi hfsi => hd s fsi (Fs.DEVPTS_SB_grab ▸ hfsi)
  | umount t => exact fun s fsi hfsi => hd s fsi (Fs.DEVPTS_SB_drop ▸ hfsi)
  | umount_last t =>
    intro s fsi hfsi
    by_cases ht : s = t
    · rw [ht, Fs.DEVPTS_SB_destroy_self] at hfsi
      cases hfsi
    · exact hd s fsi (Fs.DEVPTS_SB_destroy_of_ne ht ▸ hfsi)

end

/-! ### Every run -/

section

variable {ι : Type} [Fintype ι] [DecidableEq ι] {v v' : Parties.State Fs Pc ι}
  {mv : Parties.Move ι Act Env} {tr : List (Parties.Move ι Act Env × Parties.State Fs Pc ι)}
  {p : ι}

/-- The directories, and whose the entries are. -/
structure Listed (v : Parties.State Fs Pc ι) : Prop where
  booked : Booked v
  ptys : ∀ s, (v.shared.DEVPTS_SB s).isSome →
    (v.shared.ptys s : Multiset Dentry) = 0 + Parties.tally (Pc.entries s) v.place
  nodup : ∀ s, (v.shared.DEVPTS_SB s).isSome → (v.shared.ptys s).Nodup
  made : ∀ p, (v.place p).Made
  fresh : ∀ p inode, (v.place p).inode = some inode → inode.addr < v.shared.fresh
  apart : ∀ p q i j, p ≠ q → (v.place p).inode = some i → (v.place q).inode = some j →
    i.addr ≠ j.addr
  hasPtmx : v.shared.HasPtmx

namespace Listed

omit [DecidableEq ι] in
/-- An entry is that of a process. -/
lemma mem_ptys (hv : Listed v) {s : ℕ} (hs : (v.shared.DEVPTS_SB s).isSome) {dentry : Dentry} :
    dentry ∈ v.shared.ptys s ↔
      ∃ p n inode, v.place p = .pty s n inode ∧ dentry = ⟨decimal n, inode⟩ := by
  have hptys := hv.ptys s hs
  rw [Multiset.zero_add] at hptys
  rw [← Multiset.mem_coe, hptys, Parties.tally, Multiset.mem_sum]
  simp only [Finset.mem_univ, true_and, Pc.mem_entries]

/-- Two entries with the same inode are one. -/
lemma eq_of_addr (hv : Listed v) {s t n m : ℕ} {p q : ι} {i j : Inode}
    (hp : v.place p = .pty s n i) (hq : v.place q = .pty t m j) (haddr : i.addr = j.addr) :
    p = q := by
  by_contra hne
  exact hv.apart p q i j hne (by rw [hp]; rfl) (by rw [hq]; rfl) haddr

/-- A process finds its own entry. -/
lemma find_alias (hv : Listed v) {s n : ℕ} {p : ι} {inode : Inode}
    (hp : v.place p = .pty s n inode) :
    d_find_alias v.shared s inode = some ⟨decimal n, inode⟩ := by
  have hs := hv.booked.counted.live_of_sb p (s := s) (by rw [hp]; rfl)
  have hmem := (hv.mem_ptys hs).mpr ⟨p, n, inode, hp, rfl⟩
  have hsome : (d_find_alias v.shared s inode).isSome :=
    List.find?_isSome.mpr ⟨_, hmem, by simp⟩
  obtain ⟨dentry, hfind⟩ := Option.isSome_iff_exists.mp hsome
  have haddr := List.find?_some hfind
  obtain ⟨q, m, j, hq, rfl⟩ := (hv.mem_ptys hs).mp (List.mem_of_find?_eq_some hfind)
  have hpq := hv.eq_of_addr hq hp (by simpa using haddr)
  subst hpq
  rw [hq] at hp
  cases hp
  exact hfind

omit [DecidableEq ι] in
/-- An inode that no process has is not found. -/
lemma find_alias_none (hv : Listed v) {s : ℕ} (hs : (v.shared.DEVPTS_SB s).isSome)
    {inode : Inode} (hno : ∀ p n i, v.place p = .pty s n i → i.addr ≠ inode.addr) :
    d_find_alias v.shared s inode = none := by
  refine List.find?_eq_none.mpr fun dentry hmem => ?_
  obtain ⟨p, n, i, hp, rfl⟩ := (hv.mem_ptys hs).mp hmem
  simpa using hno p n i hp

omit [DecidableEq ι] in
/-- After a step of a process its inode is the old one, or a new one. -/
lemma apart_of_step (hv : Listed v) {p : ι} {e : Fs} {y : Pc}
    (hstep : Step v.shared (v.place p) e y) (q : ι) (hqp : q ≠ p) (i j : Inode)
    (hi : y.inode = some i) (hj : (v.place q).inode = some j) : i.addr ≠ j.addr := by
  rcases hstep.inode hi with hold | ⟨haddr, -⟩
  · exact hv.apart p q i j (Ne.symm hqp) hold hj
  · have hlt := hv.fresh q j hj
    omega

lemma next (hv : Listed v) (h : devpts.next v mv = some v') : Listed v' := by
  have hbooked := hv.booked.next h
  cases mv with
  | act p a =>
    obtain ⟨e, y, hact, rfl⟩ := Parties.next_act.mp h
    have hstep := hv.booked.counted.step hact
    refine ⟨hbooked, fun s hs => ?_, fun s hs => ?_, Parties.forall_place_update
      (hstep.made (hv.made p)) fun q _ => hv.made q, ?_, ?_, hstep.hasPtmx hv.hasPtmx⟩
    · obtain ⟨r, hr, hupdate⟩ := Parties.tally_split (Pc.entries s) v.place p
      have hptys := hv.ptys s (hstep.live hs)
      rw [hr] at hptys
      refine (hstep.ptys hs (fun t n inode hp => hv.find_alias hp) hptys).trans ?_
      exact congrArg (0 + ·) (hupdate y).symm
    · refine hstep.nodup_ptys hs (fun t n inode hp hmem => ?_) (hv.nodup s (hstep.live hs))
      -- an inode that is to be added is nobody's
      have ht := hv.booked.counted.live_of_sb p (s := t) (by rw [hp]; rfl)
      obtain ⟨q, m, i, hq, heq⟩ := (hv.mem_ptys ht).mp hmem
      have hpq : p ≠ q := by
        rintro rfl
        rw [hp] at hq
        cases hq
      refine hv.apart p q inode i hpq (by rw [hp]; rfl) (by rw [hq]; rfl) ?_
      exact congrArg (fun d : Dentry => d.inode.addr) heq
    · refine Parties.forall_place_update (Q := fun x : Pc => ∀ i, x.inode = some i →
        i.addr < e.fresh)
        (fun i hi => ?_) fun q _ i hi => Nat.lt_of_lt_of_le (hv.fresh q i hi) hstep.fresh
      rcases hstep.inode hi with hold | ⟨haddr, hfresh⟩
      · exact Nat.lt_of_lt_of_le (hv.fresh p i hold) hstep.fresh
      · omega
    · have hpair := Parties.pairwise_place_update
        (R := fun x z : Pc => ∀ i j, x.inode = some i → z.inode = some j → i.addr ≠ j.addr)
        (fun hR i j hi hj => Ne.symm (hR j i hj hi)) (fun q r hqr i j => hv.apart q r i j hqr)
        (hv.apart_of_step hstep)
      exact fun q r i j hqr => hpair q r hqr i j
  | env ev =>
    obtain ⟨e, henv, rfl⟩ := Parties.next_env.mp h
    have hstep := hv.booked.counted.envStep henv
    refine ⟨hbooked, fun s hs => ?_, fun s hs => ?_, hv.made, fun p i hi =>
      Nat.lt_of_lt_of_le (hv.fresh p i hi) hstep.fresh, hv.apart, hstep.hasPtmx hv.hasPtmx⟩
    · by_cases hd : (v.shared.DEVPTS_SB s).isSome
      · change (e.ptys s : Multiset Dentry) = _
        rw [hstep.ptys hs]
        exact hv.ptys s hd
      · -- nobody is in an instance that has just been made
        obtain ⟨opts, ptmx, -, hadded⟩ := hstep.created hd hs
        have hzero : Parties.tally (Pc.entries s) v.place = 0 := Parties.tally_eq_zero fun p => by
          refine Multiset.eq_zero_of_forall_notMem fun dentry hmem => hd ?_
          obtain ⟨n, inode, hp, -⟩ := Pc.mem_entries.mp hmem
          exact hv.booked.counted.live_of_sb p (by rw [hp]; rfl)
        change (e.ptys s : Multiset Dentry) = 0 + Parties.tally (Pc.entries s) v.place
        rw [hadded.ptys_new, hzero]
        rfl
    · by_cases hd : (v.shared.DEVPTS_SB s).isSome
      · change (e.ptys s).Nodup
        rw [hstep.ptys hs]
        exact hv.nodup s hd
      · obtain ⟨opts, ptmx, -, hadded⟩ := hstep.created hd hs
        change (e.ptys s).Nodup
        rw [hadded.ptys_new]
        exact List.nodup_nil

omit [DecidableEq ι] in
lemma start : Listed (start ι) where
  booked := Booked.start
  ptys s hs := by cases hs
  nodup s hs := by cases hs
  made p := True.intro
  fresh p i hi := by cases hi
  apart p q i j _ hi := by cases hi
  hasPtmx s fsi h := by cases h

lemma always (hr : devpts.system.Run (Devpts.start ι) tr) :
    System.Always Listed (Devpts.start ι) tr :=
  hr.always (fun _ _ _ hv h => hv.next h) start

end Listed

/-- Numerals of different numbers differ, and none of them is `ptmx`. -/
lemma decimal_injective : Function.Injective decimal := by
  intro n m h
  have hofDigits := congrArg (Nat.ofDigitChars 10 · 0) h
  simpa [decimal, Nat.ofDigitChars_ten_toDigits] using hofDigits

lemma decimal_ne_ptmx (n : ℕ) : decimal n ≠ "ptmx".toList := by
  intro h
  have hmem : 'p' ∈ decimal n := by
    rw [h]
    decide
  obtain ⟨d, hd, hp⟩ := mem_toDigits (by decide) hmem
  have hall : ∀ d < 10, 'p' ≠ Nat.digitChar d := by decide
  exact hall d hd hp

namespace Listed

/-- What is the same for two entries only if their indices are is never the same. -/
lemma nodup_map (hv : Listed v) {s : ℕ} (hs : (v.shared.DEVPTS_SB s).isSome) {α : Type}
    {g : Dentry → α} (hg : ∀ p q n m i j, v.place p = .pty s n i → v.place q = .pty s m j →
      g ⟨decimal n, i⟩ = g ⟨decimal m, j⟩ → n = m) : ((v.shared.ptys s).map g).Nodup := by
  refine (hv.nodup s hs).map_on fun a ha b hb heq => ?_
  obtain ⟨p, n, i, hp, rfl⟩ := (hv.mem_ptys hs).mp ha
  obtain ⟨q, m, j, hq, rfl⟩ := (hv.mem_ptys hs).mp hb
  have hnm := hg p q n m i j hp hq heq
  subst hnm
  have hpq := hv.booked.counted_unique (p := p) (q := q) (s := s) (n := n) (by rw [hp]; rfl)
    (by rw [hq]; rfl)
  subst hpq
  rw [hp] at hq
  cases hq
  rfl

omit [Fintype ι] [DecidableEq ι] in
lemma made_of_pty (h : (v.place p).Made) {s n : ℕ} {inode : Inode}
    (hp : v.place p = .pty s n inode) :
    inode.i_ino = n + 3 ∧ inode.i_rdev ≠ MKDEV TTYAUX_MAJOR PTMX_MINOR := by
  rw [hp] at h
  exact h

end Listed

/-- In every state that is reached, the directory of an instance lists the ptys of the processes
between `devpts_pty_new` and `devpts_pty_kill`, each once, under the numeral of its index and with
the inode it was given. No two entries have the same name or the same inode number, also next to
the root and to `ptmx`, which is there with the mode of the options. -/
theorem devpts_directory (hr : devpts.system.Run (start ι) tr) :
    System.Always (fun v => ∀ s fsi, v.shared.DEVPTS_SB s = some fsi →
      (∀ dentry, dentry ∈ v.shared.ptys s ↔
        ∃ p n inode, v.place p = .pty s n inode ∧ dentry = ⟨decimal n, inode⟩) ∧
      ("ptmx".toList :: (v.shared.ptys s).map Dentry.name).Nodup ∧
      ∃ ptmx, fsi.ptmx_dentry = some ptmx ∧
        ptmx.i_mode = S_IFCHR ||| fsi.mount_opts.ptmxmode ∧
        (1 :: ptmx.i_ino :: (v.shared.ptys s).map fun dentry => dentry.inode.i_ino).Nodup)
      (start ι) tr := by
  refine (Listed.always hr).mono fun v hv s fsi hfsi => ?_
  have hs := Option.isSome_of_eq_some hfsi
  obtain ⟨ptmx, hptmx, hino, hmode⟩ := hv.hasPtmx s fsi hfsi
  -- the inode numbers of the ptys begin with three
  have hge : ∀ k ∈ (v.shared.ptys s).map (fun dentry => dentry.inode.i_ino), 3 ≤ k := by
    intro k hk
    obtain ⟨dentry, hmem, rfl⟩ := List.mem_map.mp hk
    obtain ⟨p, n, inode, hp, rfl⟩ := (hv.mem_ptys hs).mp hmem
    have hmade := Listed.made_of_pty (hv.made p) hp
    change 3 ≤ inode.i_ino
    omega
  refine ⟨fun dentry => hv.mem_ptys hs, List.nodup_cons.mpr ⟨fun hmem => ?_, ?_⟩, ptmx, hptmx,
    hmode, List.nodup_cons.mpr ⟨fun hmem => ?_, List.nodup_cons.mpr ⟨fun hmem => ?_, ?_⟩⟩⟩
  · obtain ⟨dentry, hdentry, hname⟩ := List.mem_map.mp hmem
    obtain ⟨p, n, inode, -, rfl⟩ := (hv.mem_ptys hs).mp hdentry
    exact decimal_ne_ptmx n hname
  · exact hv.nodup_map hs fun p q n m i j _ _ heq => decimal_injective heq
  · rcases List.mem_cons.mp hmem with heq | hmem
    · omega
    · have hle := hge 1 hmem
      omega
  · have hle := hge _ hmem
    omega
  · refine hv.nodup_map hs fun p q n m i j hp hq heq => ?_
    have hi := Listed.made_of_pty (hv.made p) hp
    have hj := Listed.made_of_pty (hv.made q) hq
    change i.i_ino = j.i_ino at heq
    omega

theorem session_devpts_directory :
    ∃ tr, devpts.system.Run (start (Fin 2)) tr ∧ tr.map Prod.fst = session ∧
      System.Always (fun v => ∀ s fsi, v.shared.DEVPTS_SB s = some fsi →
        (∀ dentry, dentry ∈ v.shared.ptys s ↔
          ∃ p n inode, v.place p = .pty s n inode ∧ dentry = ⟨decimal n, inode⟩) ∧
        ("ptmx".toList :: (v.shared.ptys s).map Dentry.name).Nodup ∧
        ∃ ptmx, fsi.ptmx_dentry = some ptmx ∧
          ptmx.i_mode = S_IFCHR ||| fsi.mount_opts.ptmxmode ∧
          (1 :: ptmx.i_ino :: (v.shared.ptys s).map fun dentry => dentry.inode.i_ino).Nodup)
        (start (Fin 2)) tr := by
  obtain ⟨tr, hrun, hacts⟩ := exists_session
  exact ⟨tr, hrun, hacts, devpts_directory hrun⟩

/-! ### What `devpts_get_priv` returns -/

/-- What each process passed to `devpts_pty_new` last. -/
abbrev Passed (ι : Type) := ι → ℕ

/-- A call of `devpts_pty_new` is recorded. -/
def Passed.record (r : Passed ι) (_ : Parties.State Fs Pc ι) (mv : Parties.Move ι Act Env)
    (_ : Parties.State Fs Pc ι) : Passed ι :=
  match mv with
  | .act p (.devpts_pty_new _ priv _ _) => Function.update r p priv
  | _ => r

/-- The file system, with what was passed to `devpts_pty_new`. -/
def remembered (ι : Type) [DecidableEq ι] :
    System (Parties.State Fs Pc ι × Passed ι) (Parties.Move ι Act Env) :=
  System.ofPartial (System.observe devpts.next Passed.record)

omit [Fintype ι] in
/-- A move of another process is not recorded for `p`. -/
lemma Passed.record_of_ne {r : Passed ι} {q : ι} {a : Act} (h : p ≠ q) :
    r.record v (.act q a) v' p = r p := by
  cases a with
  | devpts_pty_new device priv => exact Function.update_of_ne h _ _
  | _ => rfl

omit [Fintype ι] in
/-- Nor is a move that does not call `devpts_pty_new`. -/
lemma Passed.record_of_not {r : Passed ι} {q : ι} {a : Act}
    (h : ∀ device priv fsuid fsgid, a ≠ .devpts_pty_new device priv fsuid fsgid) :
    r.record v (.act q a) v' = r := by
  cases a with
  | devpts_pty_new device priv fsuid fsgid => exact absurd rfl (h device priv fsuid fsgid)
  | _ => rfl

omit [Fintype ι] in
/-- The record hinders nothing: every run of the file system is one of these. -/
lemma remembered_of_devpts (hr : devpts.system.Run (start ι) tr) :
    ∃ tr', (remembered ι).Run (start ι, fun _ => 0) tr' ∧ tr'.map (Prod.map id Prod.fst) = tr :=
  hr.observe Passed.record fun _ => 0

/-- An inode that a process has after its move was there before, or the move has made it. -/
lemma inode_of_act {d e : Fs} {x y : Pc} {a : Act} {i : Inode} (h : x.act d a = some (e, y))
    (hstep : Step d x e y) (hy : y.inode = some i) :
    (x.inode = some i ∧ ∀ device priv fsuid fsgid, a ≠ .devpts_pty_new device priv fsuid fsgid) ∨
      ∃ device fsuid fsgid, a = .devpts_pty_new device i.i_private fsuid fsgid := by
  cases hstep with
  | pty_inode s n =>
    refine Or.inr ?_
    cases a with
    | devpts_pty_new device priv fsuid fsgid =>
      simp only [Pc.act] at h
      split_ifs at h
      obtain ⟨fsi, -, h⟩ := Option.map_eq_some_iff.mp h
      have hi := (congrArg (fun r : Fs × Pc => r.2.inode) h).trans hy
      refine ⟨device, fsuid, fsgid, ?_⟩
      rw [← Option.some.inj hi]
      rfl
    | _ => cases congrArg (Option.map Prod.snd) h
  | pty_add s n inode =>
    refine Or.inl ⟨hy, ?_⟩
    rintro device priv fsuid fsgid rfl
    cases h
  | _ => cases hy

/-- The inode of a process has what it passed to `devpts_pty_new`. -/
structure Remembers (w : Parties.State Fs Pc ι × Passed ι) : Prop where
  listed : Listed w.1
  priv : ∀ p inode, (w.1.place p).inode = some inode → inode.i_private = w.2 p

namespace Remembers

lemma step {w w' : Parties.State Fs Pc ι × Passed ι} (hw : Remembers w)
    (h : (remembered ι).step w mv w') : Remembers w' := by
  obtain ⟨hnext, hrec⟩ := System.observe_eq_some.mp h
  refine ⟨hw.listed.next hnext, fun p inode hinode => ?_⟩
  rw [← hrec]
  cases mv with
  | act q a =>
    obtain ⟨e, y, hact, hnext⟩ := Parties.next_act.mp hnext
    rw [hnext] at hinode
    change (Function.update w.1.place q y p).inode = some inode at hinode
    by_cases hpq : p = q
    · subst hpq
      rw [Function.update_self] at hinode
      rcases inode_of_act hact (hw.listed.booked.counted.step hact) hinode with
        ⟨hold, hne⟩ | ⟨device, fsuid, fsgid, rfl⟩
      · rw [Passed.record_of_not hne]
        exact hw.priv p inode hold
      · exact (Function.update_self (f := w.2) p inode.i_private).symm
    · rw [Function.update_of_ne hpq] at hinode
      rw [Passed.record_of_ne hpq]
      exact hw.priv p inode hinode
  | env ev =>
    obtain ⟨e, henv, hnext⟩ := Parties.next_env.mp hnext
    rw [hnext] at hinode
    exact hw.priv p inode hinode

lemma always {tr : List (Parties.Move ι Act Env × Parties.State Fs Pc ι × Passed ι)}
    (hr : (remembered ι).Run (Devpts.start ι, fun _ => 0) tr) :
    System.Always Remembers (Devpts.start ι, fun _ => 0) tr :=
  hr.always (fun _ _ _ hw h => hw.step h) ⟨Listed.start, fun p inode h => by cases h⟩

end Remembers

/-- In every run, `devpts_get_priv` of the inode of a pty returns what its process passed to
`devpts_pty_new`, and `devpts_pty_kill` finds the entry of that pty, which is the only one it takes
out. For an inode that no pty has any more, it returns `NULL`. -/
theorem priv_found {tr : List (Parties.Move ι Act Env × Parties.State Fs Pc ι × Passed ι)}
    (hr : (remembered ι).Run (start ι, fun _ => 0) tr) :
    System.Always (fun w =>
      (∀ p s n inode, w.1.place p = .pty s n inode →
        devpts_get_priv w.1.shared s inode = some (w.2 p) ∧
        ∃ e, devpts_pty_kill w.1.shared s n inode = some (e, .index s n) ∧
          (w.1.shared.ptys s).Perm (⟨decimal n, inode⟩ :: e.ptys s)) ∧
      (∀ s inode, (w.1.shared.DEVPTS_SB s).isSome →
        inode.i_rdev ≠ MKDEV TTYAUX_MAJOR PTMX_MINOR →
        (∀ p n i, w.1.place p = .pty s n i → i.addr ≠ inode.addr) →
        devpts_get_priv w.1.shared s inode = some 0)) (start ι, fun _ => 0) tr := by
  refine (Remembers.always hr).mono fun w hw =>
    ⟨fun p s n inode hp => ?_, fun s inode hs hdev hno => ?_⟩
  · have hfind := hw.listed.find_alias hp
    have hdev := (Listed.made_of_pty (hw.listed.made p) hp).2
    have hs := hw.listed.booked.counted.live_of_sb p (s := s) (by rw [hp]; rfl)
    have hmem := (hw.listed.mem_ptys hs).mpr ⟨p, n, inode, hp, rfl⟩
    refine ⟨?_, w.1.shared.updatePtys s (·.erase ⟨decimal n, inode⟩), ?_, ?_⟩
    · rw [devpts_get_priv, if_neg hdev, hfind]
      exact congrArg some (hw.priv p inode (by rw [hp]; rfl))
    · rw [devpts_pty_kill, if_neg hdev, hfind]
    · rw [Fs.ptys_updatePtys_self hs]
      exact List.perm_cons_erase hmem
  · rw [devpts_get_priv, if_neg hdev, hw.listed.find_alias_none hs hno]

theorem session_priv_found :
    ∃ tr, (remembered (Fin 2)).Run (start (Fin 2), fun _ => 0) tr ∧
      tr.map Prod.fst = session ∧
      System.Always (fun w : Parties.State Fs Pc (Fin 2) × Passed (Fin 2) =>
        (∀ p s n inode, w.1.place p = .pty s n inode →
          devpts_get_priv w.1.shared s inode = some (w.2 p) ∧
          ∃ e, devpts_pty_kill w.1.shared s n inode = some (e, .index s n) ∧
            (w.1.shared.ptys s).Perm (⟨decimal n, inode⟩ :: e.ptys s)) ∧
        (∀ s inode, (w.1.shared.DEVPTS_SB s).isSome →
          inode.i_rdev ≠ MKDEV TTYAUX_MAJOR PTMX_MINOR →
          (∀ p n i, w.1.place p = .pty s n i → i.addr ≠ inode.addr) →
          devpts_get_priv w.1.shared s inode = some 0)) (start (Fin 2), fun _ => 0) tr := by
  obtain ⟨tr, hrun, hacts⟩ := exists_session
  obtain ⟨tr', hrun', hmap⟩ := remembered_of_devpts hrun
  refine ⟨tr', hrun', ?_, priv_found hrun'⟩
  rw [← hacts, ← hmap, List.map_map]
  rfl

end

end QuickDevSkeleton.Devpts
