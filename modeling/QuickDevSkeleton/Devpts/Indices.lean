import QuickDevSkeleton.Devpts.Instances

/-!
# The indices

`devpts_new_index` and `devpts_kill_index` keep two books under `allocated_ptys_lock`: the ids of
each instance, and `pty_count` for all of them. Between two statements of a section the books do
not agree; what follows holds there too, whatever remounts and mounts do in the meantime.
-/

namespace QuickDevSkeleton.Devpts

open Foundations

/-- The ids of an instance. -/
def Fs.ida (d : Fs) (s : ℕ) : List ℕ := ((d.DEVPTS_SB s).map PtsFsInfo.allocated_ptys).getD []

namespace Pc

/-- The id of a process that is in the books of its instance. -/
def allocated : Pc → Option (ℕ × ℕ)
  | .newIndex s (.max n) | .newIndex s (.remove n) | .newIndex s (.count n)
  | .newIndex s (.unlock n) | .index s n | .ptyNew s n _ | .pty s n _
  | .killIndex s n .lock | .killIndex s n .remove => some (s, n)
  | _ => none

/-- The index of a process that `pty_count` counts. -/
def counted : Pc → Option (ℕ × ℕ)
  | .newIndex s (.unlock n) | .index s n | .ptyNew s n _ | .pty s n _
  | .killIndex s n .lock | .killIndex s n .remove | .killIndex s n .count => some (s, n)
  | _ => none

/-- The process holds `allocated_ptys_lock`. -/
def inside : Pc → ℕ
  | .newIndex _ .preGet | .newIndex _ .lock | .killIndex _ _ .lock => 0
  | .newIndex _ _ | .killIndex _ _ _ => 1
  | _ => 0

/-- One for a process with the id `q` in the books. -/
def holds (q : ℕ × ℕ) (x : Pc) : ℕ := if x.allocated = some q then 1 else 0

/-- One for a process that is counted. -/
def counts (x : Pc) : ℤ := if x.counted.isSome then 1 else 0

lemma sb_of_allocated {x : Pc} {s n : ℕ} (h : x.allocated = some (s, n)) : x.sb = some s := by
  unfold allocated at h
  split at h <;> cases h <;> rfl

lemma sb_of_counted {x : Pc} {s n : ℕ} (h : x.counted = some (s, n)) : x.sb = some s := by
  unfold counted at h
  split at h <;> cases h <;> rfl

/-- Outside of the sections the two books agree. -/
lemma counted_eq_allocated {x : Pc} (h : x.inside = 0) : x.counted = x.allocated := by
  cases x with
  | newIndex s pc => cases pc <;> first | rfl | cases h
  | killIndex s n pc => cases pc <;> first | rfl | cases h
  | _ => rfl

end Pc

/-! ### The lowest id -/

lemma ida_lowest_spec (ids : List ℕ) : ida_lowest ids ∉ ids ∧ ∀ m < ida_lowest ids, m ∈ ids := by
  have hfind : ∃ n, (List.range (ids.length + 1)).find? (· ∉ ids) = some n := by
    by_contra hnone
    rw [← Option.isSome_iff_exists, Option.not_isSome_iff_eq_none, List.find?_eq_none] at hnone
    -- all of these numbers would be in a shorter list
    have hsub : List.range (ids.length + 1) ⊆ ids := fun m hm => by simpa using hnone m hm
    have hle := (List.nodup_range.subperm hsub).length_le
    rw [List.length_range] at hle
    omega
  obtain ⟨n, hn⟩ := hfind
  rw [ida_lowest, hn, Option.getD_some]
  obtain ⟨hno, -, hall⟩ := List.find?_range_eq_some.mp hn
  exact ⟨by simpa using hno, fun m hm => by simpa using hall m hm⟩

/-! ### What the steps do to the books -/

section

variable {d e : Fs} {x y : Pc} {s t n : ℕ} {fsi : PtsFsInfo}

namespace Fs

/-- Whether an instance was mounted with `newinstance`. -/
def newinstance (d : Fs) (s : ℕ) : Bool :=
  ((d.DEVPTS_SB s).map fun fsi => fsi.mount_opts.newinstance).getD false

/-- The limit leaves room for one more index in the instance. -/
def Room (d : Fs) (s : ℕ) : Prop :=
  d.pty_count < pty_limit - (if d.newinstance s then pty_reserve else 0)

/-- The books of an instance and `pty_count` are the same in both states. -/
structure Keeps (d e : Fs) (s : ℕ) : Prop where
  count : e.pty_count = d.pty_count
  ida : e.ida s = d.ida s
  newinstance : e.newinstance s = d.newinstance s

lemma ida_of_some (h : d.DEVPTS_SB s = some fsi) : d.ida s = fsi.allocated_ptys := by
  rw [ida, h]
  rfl

lemma newinstance_of_some (h : d.DEVPTS_SB s = some fsi) :
    d.newinstance s = fsi.mount_opts.newinstance := by
  rw [newinstance, h]
  rfl

lemma room_iff (h : d.DEVPTS_SB s = some fsi) :
    d.Room s ↔ d.pty_count < fsi.mount_opts.limit := by
  rw [Room, newinstance_of_some h]
  rfl

lemma ida_congr (h : e.DEVPTS_SB s = d.DEVPTS_SB s) : e.ida s = d.ida s := by
  rw [ida, h, ida]

lemma newinstance_congr (h : e.DEVPTS_SB s = d.DEVPTS_SB s) :
    e.newinstance s = d.newinstance s := by
  rw [newinstance, h, newinstance]

/-- The books of an instance are in its `pts_fs_info`. -/
lemma Keeps.of_info (hcount : e.pty_count = d.pty_count)
    (hinfo : e.DEVPTS_SB s = d.DEVPTS_SB s) : Keeps d e s :=
  ⟨hcount, ida_congr hinfo, newinstance_congr hinfo⟩

lemma ida_update {f : PtsFsInfo → PtsFsInfo} {g : List ℕ → List ℕ} (hg : g [] = [])
    (hf : ∀ fsi, (f fsi).allocated_ptys = g fsi.allocated_ptys) :
    (d.update s f).ida t = if t = s then g (d.ida s) else d.ida t := by
  by_cases ht : t = s
  · rw [if_pos ht, ht, ida, ida, DEVPTS_SB_update_self]
    cases d.DEVPTS_SB s with
    | none => exact hg.symm
    | some fsi => exact hf fsi
  · rw [if_neg ht, ida, ida, DEVPTS_SB_update_of_ne ht]

lemma newinstance_update {f : PtsFsInfo → PtsFsInfo}
    (hf : ∀ fsi, (f fsi).mount_opts.newinstance = fsi.mount_opts.newinstance) :
    (d.update s f).newinstance t = d.newinstance t := by
  by_cases ht : t = s
  · rw [ht, newinstance, newinstance, DEVPTS_SB_update_self]
    cases d.DEVPTS_SB s with
    | none => rfl
    | some fsi => exact hf fsi
  · rw [newinstance, newinstance, DEVPTS_SB_update_of_ne ht]

/-- Taking an id out of the books of an instance. -/
lemma ida_erase : (d.update s fun fsi => { fsi with
    allocated_ptys := fsi.allocated_ptys.erase n }).ida t =
      if t = s then (d.ida s).erase n else d.ida t :=
  ida_update (g := (·.erase n)) rfl fun _ => rfl

/-- Putting one in. -/
lemma ida_cons (h : d.DEVPTS_SB s = some fsi) : (d.update s fun fsi => { fsi with
    allocated_ptys := n :: fsi.allocated_ptys }).ida t =
      if t = s then n :: d.ida s else d.ida t := by
  by_cases ht : t = s
  · rw [if_pos ht, ht, ida, DEVPTS_SB_update_self, h, ida_of_some h]
    rfl
  · rw [if_neg ht, ida, DEVPTS_SB_update_of_ne ht]
    rfl

end Fs

lemma allocated_remount (ns : UserNs) (mem : ℕ → Bool) (data : Option (List Char))
    (fsi : PtsFsInfo) : (devpts_remount ns mem data fsi).2.allocated_ptys = fsi.allocated_ptys :=
  rfl

/-- `newinstance` of an instance never changes. -/
lemma Step.newinstance (h : Step d x e y) (hlive : (e.DEVPTS_SB s).isSome) :
    e.newinstance s = d.newinstance s := by
  cases h with
  | get_new | index_remove | kill_remove => exact Fs.newinstance_update fun _ => rfl
  | put_last t =>
    by_cases ht : s = t
    · rw [ht, Fs.DEVPTS_SB_destroy_self] at hlive
      cases hlive
    · exact Fs.newinstance_congr (Fs.DEVPTS_SB_destroy_of_ne ht)
  | get_ref => exact Fs.newinstance_congr Fs.DEVPTS_SB_grab
  | put_ref => exact Fs.newinstance_congr Fs.DEVPTS_SB_drop
  | pty_add | pty_kill => exact Fs.newinstance_congr Fs.DEVPTS_SB_updatePtys
  | _ => rfl

/-- What happens around the processes keeps the books of an instance that goes on. -/
lemma EnvStep.keeps (h : EnvStep d e) (hd : (d.DEVPTS_SB s).isSome) (he : (e.DEVPTS_SB s).isSome) :
    Fs.Keeps d e s := by
  cases h with
  | same hsame => exact .of_info hsame.count (hsame.info s)
  | added opts ptmx hopts hptmx hadded =>
    refine .of_info hadded.count (hadded.info s fun hs => ?_)
    have hnone : d.DEVPTS_SB d.sbs.next = none := Fs.field_next
    rw [hs, hnone] at hd
    cases hd
  | remount t ns mem data =>
    have hida := Fs.ida_update (d := d) (s := t) (t := s) (g := id) rfl
      (allocated_remount ns mem data)
    refine ⟨rfl, hida.trans ?_, Fs.newinstance_update fun _ => newinstance_remount⟩
    split_ifs with ht
    · rw [ht]
      rfl
    · rfl
  | bind t => exact .of_info rfl Fs.DEVPTS_SB_grab
  | umount t => exact .of_info rfl Fs.DEVPTS_SB_drop
  | umount_last t =>
    by_cases ht : s = t
    · rw [ht, Fs.DEVPTS_SB_destroy_self] at he
      cases he
    · exact .of_info rfl (Fs.DEVPTS_SB_destroy_of_ne ht)

/-- A process that is not in a section, while another one is, keeps the books. -/
lemma Step.keeps (h : Step d x e y) (hx : x.inside = 0) (hlock : d.allocated_ptys_lock = true)
    (hlive : (e.DEVPTS_SB s).isSome) : y.inside = 0 ∧ Fs.Keeps d e s := by
  have hnew := h.newinstance hlive
  cases h with
  | get_ref => exact ⟨rfl, .of_info rfl Fs.DEVPTS_SB_grab⟩
  | put_ref => exact ⟨rfl, .of_info rfl Fs.DEVPTS_SB_drop⟩
  | put_last t =>
    by_cases ht : s = t
    · rw [ht, Fs.DEVPTS_SB_destroy_self] at hlive
      cases hlive
    · exact ⟨rfl, .of_info rfl (Fs.DEVPTS_SB_destroy_of_ne ht)⟩
  | index_lock t hfree | kill_lock t n hfree =>
    rw [hlock] at hfree
    cases hfree
  | pty_add | pty_kill => exact ⟨rfl, .of_info rfl Fs.DEVPTS_SB_updatePtys⟩
  | limit_reached | limit_ok | get_new | get_again | get_fail | max_reached | max_ok | index_remove
  | index_count | index_unlock | index_again | index_error | kill_remove | kill_count
  | kill_unlock => cases hx
  | _ => exact ⟨rfl, rfl, rfl, rfl⟩

/-- The ids of an instance are those that the processes hold. -/
lemma Step.ida (h : Step d x e y) (hlive : (e.DEVPTS_SB s).isSome) {r : ℕ}
    (hr : (d.ida s).count n = 0 + (x.holds (s, n) + r)) :
    (e.ida s).count n = 0 + (y.holds (s, n) + r) := by
  cases h with
  | get_new t fsi hfsi =>
    rw [Fs.ida_cons hfsi]
    by_cases ht : s = t
    · subst ht
      rw [if_pos rfl, List.count_cons, hr]
      simp only [Pc.holds, Pc.allocated, reduceCtorEq, if_false, beq_iff_eq, Option.some.injEq,
        Prod.mk.injEq, true_and]
      omega
    · rw [if_neg ht, hr]
      simp [Pc.holds, Pc.allocated, Ne.symm ht]
  | index_remove t k | kill_remove t k =>
    rw [Fs.ida_erase]
    by_cases ht : s = t
    · subst ht
      rw [if_pos rfl, List.count_erase, hr]
      simp only [Pc.holds, Pc.allocated, reduceCtorEq, if_false, beq_iff_eq, Option.some.injEq,
        Prod.mk.injEq, true_and]
      omega
    · rw [if_neg ht, hr]
      simp [Pc.holds, Pc.allocated, Ne.symm ht]
  | put_last t =>
    by_cases ht : s = t
    · rw [ht, Fs.DEVPTS_SB_destroy_self] at hlive
      cases hlive
    · rw [Fs.ida_congr (Fs.DEVPTS_SB_destroy_of_ne ht)]
      exact hr
  | get_ref =>
    rw [Fs.ida_congr Fs.DEVPTS_SB_grab]
    exact hr
  | put_ref =>
    rw [Fs.ida_congr Fs.DEVPTS_SB_drop]
    exact hr
  | pty_add | pty_kill =>
    rw [Fs.ida_congr Fs.DEVPTS_SB_updatePtys]
    exact hr
  | _ => exact hr

lemma EnvStep.ida (h : EnvStep d e) (he : (e.DEVPTS_SB s).isSome) {r : ℕ}
    (hr : (d.ida s).count n = 0 + r) : (e.ida s).count n = 0 + r := by
  by_cases hd : (d.DEVPTS_SB s).isSome
  · rw [(h.keeps hd he).ida]
    exact hr
  · -- a new instance has no ids
    have hnone : d.ida s = [] := by
      rw [Fs.ida, Option.not_isSome_iff_eq_none.mp hd]
      rfl
    obtain ⟨opts, ptmx, -, hadded⟩ := h.created hd he
    have hempty : e.ida s = [] := Fs.ida_of_some hadded.info_new
    rw [hempty]
    rw [hnone] at hr
    exact hr

/-- No id is in the books of an instance twice. -/
lemma Step.nodup (h : Step d x e y) (hlive : (e.DEVPTS_SB s).isSome) (hd : (d.ida s).Nodup) :
    (e.ida s).Nodup := by
  cases h with
  | get_new t fsi hfsi =>
    rw [Fs.ida_cons hfsi]
    split_ifs with ht
    · subst ht
      rw [Fs.ida_of_some hfsi] at hd ⊢
      exact List.nodup_cons.mpr ⟨(ida_lowest_spec _).1, hd⟩
    · exact hd
  | index_remove t k | kill_remove t k =>
    rw [Fs.ida_erase]
    split_ifs with ht
    · subst ht
      exact hd.erase k
    · exact hd
  | put_last t =>
    by_cases ht : s = t
    · rw [ht, Fs.DEVPTS_SB_destroy_self] at hlive
      cases hlive
    · rw [Fs.ida_congr (Fs.DEVPTS_SB_destroy_of_ne ht)]
      exact hd
  | get_ref =>
    rw [Fs.ida_congr Fs.DEVPTS_SB_grab]
    exact hd
  | put_ref =>
    rw [Fs.ida_congr Fs.DEVPTS_SB_drop]
    exact hd
  | pty_add | pty_kill =>
    rw [Fs.ida_congr Fs.DEVPTS_SB_updatePtys]
    exact hd
  | _ => exact hd

/-! ### The lock and the count -/

lemma Step.lock (h : Step d x e y) {r : ℕ}
    (hr : d.allocated_ptys_lock.toNat = 0 + (x.inside + r)) :
    e.allocated_ptys_lock.toNat = 0 + (y.inside + r) := by
  have hle := Bool.toNat_le d.allocated_ptys_lock
  cases h with
  | index_lock t hfree | kill_lock t n hfree =>
    rw [hfree] at hr
    simp only [Pc.inside, Bool.toNat_false, Bool.toNat_true] at hr ⊢
    omega
  | index_unlock | index_again | index_error | kill_unlock =>
    simp only [Pc.inside, Bool.toNat_false] at hr ⊢
    omega
  | _ => exact hr

lemma Step.count (h : Step d x e y) {r : ℤ} (hr : d.pty_count = 0 + (x.counts + r)) :
    e.pty_count = 0 + (y.counts + r) := by
  cases h with
  | index_count | kill_count =>
    simp only [Pc.counts, Pc.counted, Option.isSome_some, Option.isSome_none, if_true,
      Bool.false_eq_true, if_false] at hr ⊢
    omega
  | _ => exact hr

lemma EnvStep.lock (h : EnvStep d e) : e.allocated_ptys_lock = d.allocated_ptys_lock := by
  cases h with
  | same hsame => exact hsame.lock
  | added opts ptmx hopts hptmx hadded => exact hadded.lock
  | _ => rfl

lemma EnvStep.count (h : EnvStep d e) : e.pty_count = d.pty_count := by
  cases h with
  | same hsame => exact hsame.count
  | added opts ptmx hopts hptmx hadded => exact hadded.count
  | _ => rfl

/-! ### What a process knows inside a section -/

/-- What a process that is counting a pty can rely on: the limit leaves room, the lower ids are in
use, and after the test of the maximum the index is in range. A process that has taken its index
out of the books, but is still counted, knows that nobody else has it. -/
def Pc.Knows (d : Fs) : Pc → Prop
  | .newIndex s .getNew => d.Room s
  | .newIndex s (.max n) => d.Room s ∧ ∀ m < n, m ∈ d.ida s
  | .newIndex s (.count n) => d.Room s ∧ (∀ m < n, m ∈ d.ida s) ∧ n < NR_UNIX98_PTY_MAX
  | .newIndex _ (.unlock n) | .index _ n | .ptyNew _ n _ | .pty _ n _ | .killIndex _ n .lock
  | .killIndex _ n .remove => n < NR_UNIX98_PTY_MAX
  | .killIndex s n .count => n < NR_UNIX98_PTY_MAX ∧ n ∉ d.ida s
  | _ => True

lemma Pc.Knows.of_keeps (hx : x.Knows d) (h : ∀ s, x.sb = some s → Fs.Keeps d e s) :
    x.Knows e := by
  cases x with
  | newIndex s pc =>
    obtain ⟨hcount, hida, hnew⟩ := h s rfl
    cases pc with
    | getNew | max | count =>
      simp only [Knows, Fs.Room, hcount, hida, hnew] at hx ⊢
      exact hx
    | _ => exact hx
  | killIndex s n pc =>
    cases pc with
    | count =>
      rw [Knows, (h s rfl).ida]
      exact hx
    | _ => exact hx
  | _ => exact hx

/-- Outside of a section it knows nothing about the books. -/
lemma Pc.Knows.of_outside (hx : x.Knows d) (h : x.inside = 0) : x.Knows e := by
  cases x with
  | newIndex s pc => cases pc <;> first | exact hx | cases h
  | killIndex s n pc => cases pc <;> first | exact hx | cases h
  | _ => exact hx

lemma Step.knows (h : Step d x e y) (hd : d.Sound) (hnodup : ∀ s, (d.ida s).Nodup)
    (hx : x.Knows d) : y.Knows e := by
  cases h with
  | limit_ok t fsi hfsi hlt => exact (Fs.room_iff hfsi).mpr hlt
  | get_new t fsi hfsi =>
    refine ⟨?_, fun m hm => ?_⟩
    · have hnew := (Step.get_new t fsi hfsi).newinstance (s := t)
        (by rw [Fs.isSome_update, hfsi]; rfl)
      rw [Fs.Room, hnew]
      exact hx
    · rw [Fs.ida_cons hfsi, if_pos rfl, Fs.ida_of_some hfsi]
      exact List.mem_cons_of_mem _ ((ida_lowest_spec _).2 m hm)
  | max_ok t n fsi hfsi hlt =>
    exact ⟨hx.1, hx.2, Int.lt_of_lt_of_le hlt (hd.parsed t fsi hfsi).max_le⟩
  | index_count t n => exact hx.2.2
  | kill_remove t n =>
    refine ⟨hx, ?_⟩
    rw [Fs.ida_erase, if_pos rfl]
    exact (hnodup t).not_mem_erase
  | index_unlock | pty_inode | pty_no_inode | pty_add | pty_no_dentry | pty_kill | kill_enter
  | kill_lock => exact hx
  | _ => exact True.intro

end

/-! ### Every run -/

section

variable {ι : Type} [Fintype ι] [DecidableEq ι] {v v' : Parties.State Fs Pc ι}
  {mv : Parties.Move ι Act Env} {tr : List (Parties.Move ι Act Env × Parties.State Fs Pc ι)}

/-- The books, and who the indices in them belong to. -/
structure Booked (v : Parties.State Fs Pc ι) : Prop where
  counted : Counted v
  nodup : ∀ s, (v.shared.ida s).Nodup
  ida : ∀ s n, (v.shared.ida s).count n = 0 + Parties.tally (Pc.holds (s, n)) v.place
  lock : v.shared.allocated_ptys_lock.toNat = 0 + Parties.tally Pc.inside v.place
  count : v.shared.pty_count = 0 + Parties.tally Pc.counts v.place
  knows : ∀ i, (v.place i).Knows v.shared
  le : v.shared.pty_count ≤ pty_limit

namespace Booked

/-- One process at most is in a section. -/
lemma inside_unique (hv : Booked v) {i j : ι} (h : i ≠ j) (hi : (v.place i).inside = 1) :
    (v.place j).inside = 0 := by
  have hle := Parties.add_le_tally Pc.inside v.place h
  have hlock := hv.lock
  have hone := Bool.toNat_le v.shared.allocated_ptys_lock
  omega

lemma locked (hv : Booked v) {i : ι} (hi : (v.place i).inside = 1) :
    v.shared.allocated_ptys_lock = true := by
  have hle := Parties.le_tally Pc.inside v.place i
  have hlock := hv.lock
  cases hfree : v.shared.allocated_ptys_lock with
  | true => rfl
  | false =>
    rw [hfree, Bool.toNat_false] at hlock
    omega

/-- An instance that is gone has no ids, and no process has one of it. -/
lemma ida_gone (hv : Counted v) {s : ℕ} (hs : ¬ (v.shared.DEVPTS_SB s).isSome) (n : ℕ) :
    (v.shared.ida s).count n = 0 + Parties.tally (Pc.holds (s, n)) v.place := by
  have hnone : v.shared.ida s = [] := by
    rw [Fs.ida, Option.not_isSome_iff_eq_none.mp hs]
    rfl
  have hzero : Parties.tally (Pc.holds (s, n)) v.place = 0 :=
    Parties.tally_eq_zero fun i =>
      if_neg fun hi => hs (hv.live_of_sb i (Pc.sb_of_allocated hi))
  rw [hnone, hzero]
  rfl

lemma inside_le (x : Pc) : x.inside = 0 ∨ x.inside = 1 := by
  cases x with
  | newIndex s pc => cases pc <;> first | exact Or.inl rfl | exact Or.inr rfl
  | killIndex s n pc => cases pc <;> first | exact Or.inl rfl | exact Or.inr rfl
  | _ => exact Or.inl rfl

lemma next_knows (hv : Booked v) (h : devpts.next v mv = some v') (hv' : Counted v') (j : ι) :
    (v'.place j).Knows v'.shared := by
  cases mv with
  | act i a =>
    obtain ⟨e, y, hact, rfl⟩ := Parties.next_act.mp h
    have hstep := hv.counted.step hact
    by_cases hji : j = i
    · change (Function.update v.place i y j).Knows e
      rw [hji, Function.update_self]
      exact hstep.knows hv.counted.sound hv.nodup (hv.knows i)
    · have hplace : Function.update v.place i y j = v.place j := Function.update_of_ne hji _ _
      change (Function.update v.place i y j).Knows e
      rw [hplace]
      rcases inside_le (v.place j) with hj | hj
      · exact (hv.knows j).of_outside hj
      · refine (hv.knows j).of_keeps fun s hs => ?_
        have hlive := hv'.live_of_sb j ((congrArg Pc.sb hplace).trans hs)
        exact (hstep.keeps (hv.inside_unique hji hj) (hv.locked hj) hlive).2
  | env ev =>
    obtain ⟨e, henv, rfl⟩ := Parties.next_env.mp h
    refine (hv.knows j).of_keeps fun s hs => ?_
    exact (hv.counted.envStep henv).keeps (hv.counted.live_of_sb j hs) (hv'.live_of_sb j hs)

/-- `pty_count` never passes the limit. -/
lemma next_le (hv : Booked v) (h : devpts.next v mv = some v') :
    v'.shared.pty_count ≤ pty_limit := by
  cases mv with
  | act i a =>
    obtain ⟨e, y, hact, rfl⟩ := Parties.next_act.mp h
    have hstep := hv.counted.step hact
    have hknows := hv.knows i
    have hle := hv.le
    generalize v.place i = x at hstep hknows
    cases hstep with
    | index_count s n =>
      have hroom := hknows.1
      simp only [Fs.Room] at hroom
      have hreserve : (0 : ℤ) ≤ pty_reserve := by decide
      change v.shared.pty_count + 1 ≤ pty_limit
      split_ifs at hroom <;> omega
    | kill_count s n =>
      change v.shared.pty_count - 1 ≤ pty_limit
      omega
    | _ => exact hle
  | env ev =>
    obtain ⟨e, henv, rfl⟩ := Parties.next_env.mp h
    exact (hv.counted.envStep henv).count ▸ hv.le

lemma next (hv : Booked v) (h : devpts.next v mv = some v') : Booked v' := by
  have hv' := hv.counted.next h
  refine ⟨hv', fun s => ?_, fun s n => ?_, ?_, ?_, hv.next_knows h hv', hv.next_le h⟩
  · by_cases hlive : (v'.shared.DEVPTS_SB s).isSome
    · cases mv with
      | act i a =>
        obtain ⟨e, y, hact, rfl⟩ := Parties.next_act.mp h
        exact (hv.counted.step hact).nodup hlive (hv.nodup s)
      | env ev =>
        obtain ⟨e, henv, rfl⟩ := Parties.next_env.mp h
        have hstep := hv.counted.envStep henv
        refine List.nodup_iff_count_le_one.mpr fun n => ?_
        have hle := List.nodup_iff_count_le_one.mp (hv.nodup s) n
        have hsame := hstep.ida hlive (n := n) (Nat.zero_add _).symm
        change (e.ida s).count n ≤ 1
        omega
    · rw [Fs.ida, Option.not_isSome_iff_eq_none.mp hlive]
      exact List.nodup_nil
  · by_cases hlive : (v'.shared.DEVPTS_SB s).isSome
    · exact Parties.next_ledger (c := fun d => (d.ida s).count n) (m := fun _ => 0) h
        (fun i a y hact r hr => (hv.counted.step hact).ida hlive hr)
        (fun ev henv r hr => (hv.counted.envStep henv).ida hlive hr) (hv.ida s n)
    · exact ida_gone hv' hlive n
  · refine Parties.next_ledger (c := fun d => d.allocated_ptys_lock.toNat) (m := fun _ => 0) h
      (fun i a y hact r hr => (hv.counted.step hact).lock hr) (fun ev henv r hr => ?_) hv.lock
    rw [(hv.counted.envStep henv).lock]
    exact hr
  · refine Parties.next_ledger (c := fun d => d.pty_count) (m := fun _ => 0) h
      (fun i a y hact r hr => (hv.counted.step hact).count hr) (fun ev henv r hr => ?_) hv.count
    rw [(hv.counted.envStep henv).count]
    exact hr

omit [DecidableEq ι] in
lemma start : Booked (start ι) where
  counted := Counted.start
  nodup s := List.nodup_nil
  ida s n := by
    have hzero : Parties.tally (Pc.holds (s, n)) (Devpts.start ι).place = 0 :=
      Parties.tally_eq_zero fun i => rfl
    rw [hzero]
    rfl
  lock := by
    have hzero : Parties.tally Pc.inside (Devpts.start ι).place = 0 :=
      Parties.tally_eq_zero fun i => rfl
    rw [hzero]
    rfl
  count := by
    have hzero : Parties.tally Pc.counts (Devpts.start ι).place = 0 :=
      Parties.tally_eq_zero fun i => rfl
    rw [hzero]
    rfl
  knows i := True.intro
  le := by
    change (0 : ℤ) ≤ pty_limit
    decide

lemma always (hr : devpts.system.Run (Devpts.start ι) tr) :
    System.Always Booked (Devpts.start ι) tr :=
  hr.always (fun _ _ _ hv h => hv.next h) start

/-- An id of an instance is that of one process. -/
lemma mem_ida_iff (hv : Booked v) {s n : ℕ} :
    n ∈ v.shared.ida s ↔ ∃ p, (v.place p).allocated = some (s, n) := by
  have hida := hv.ida s n
  rw [Nat.zero_add] at hida
  constructor
  · intro hmem
    have hpos := List.count_pos_iff.mpr hmem
    obtain ⟨p, hp⟩ := Parties.exists_of_tally_ne (w := Pc.holds (s, n)) (f := v.place) (by omega)
    refine ⟨p, ?_⟩
    by_contra hno
    exact hp (if_neg hno)
  · rintro ⟨p, hp⟩
    have hle := Parties.le_tally (Pc.holds (s, n)) v.place p
    have hone : (v.place p).holds (s, n) = 1 := if_pos hp
    exact List.count_pos_iff.mp (by omega)

lemma allocated_unique (hv : Booked v) {p q : ι} {s n : ℕ}
    (hp : (v.place p).allocated = some (s, n)) (hq : (v.place q).allocated = some (s, n)) :
    p = q := by
  by_contra hne
  have hle := Parties.add_le_tally (Pc.holds (s, n)) v.place hne
  have hp1 : (v.place p).holds (s, n) = 1 := if_pos hp
  have hq1 : (v.place q).holds (s, n) = 1 := if_pos hq
  have hida := hv.ida s n
  have hnodup := List.nodup_iff_count_le_one.mp (hv.nodup s) n
  omega

omit [DecidableEq ι] in
/-- A process that is counted has its id in the books, or has just taken it out. -/
lemma counted_cases (hv : Booked v) {p : ι} {s n : ℕ} (hp : (v.place p).counted = some (s, n)) :
    (v.place p).allocated = some (s, n) ∨
      (v.place p).inside = 1 ∧ n ∉ v.shared.ida s := by
  have hknows := hv.knows p
  generalize v.place p = x at hp hknows
  cases x with
  | newIndex t pc => cases pc <;> first | exact Or.inl hp | cases hp
  | killIndex t k pc =>
    cases pc with
    | count =>
      cases hp
      exact Or.inr ⟨rfl, hknows.2⟩
    | _ => exact Or.inl hp
  | _ => exact Or.inl hp

/-- No index of an instance is counted for two processes. -/
lemma counted_unique (hv : Booked v) {p q : ι} {s n : ℕ}
    (hp : (v.place p).counted = some (s, n)) (hq : (v.place q).counted = some (s, n)) :
    p = q := by
  rcases hv.counted_cases hp with hp | ⟨hpin, hpno⟩
  · rcases hv.counted_cases hq with hq | ⟨hqin, hqno⟩
    · exact hv.allocated_unique hp hq
    · exact absurd (hv.mem_ida_iff.mpr ⟨p, hp⟩) hqno
  · rcases hv.counted_cases hq with hq | ⟨hqin, hqno⟩
    · exact absurd (hv.mem_ida_iff.mpr ⟨q, hq⟩) hpno
    · by_contra hne
      have := hv.inside_unique hne hpin
      omega

omit [DecidableEq ι] in
/-- An index that is counted is in range. -/
lemma counted_lt (hv : Booked v) {p : ι} {s n : ℕ} (hp : (v.place p).counted = some (s, n)) :
    n < NR_UNIX98_PTY_MAX := by
  have hknows := hv.knows p
  generalize v.place p = x at hp hknows
  cases x with
  | newIndex t pc =>
    cases pc with
    | unlock =>
      cases hp
      exact hknows
    | _ => cases hp
  | killIndex t k pc =>
    cases pc with
    | count =>
      cases hp
      exact hknows.1
    | lock | remove =>
      cases hp
      exact hknows
    | unlock => cases hp
  | index | ptyNew | pty =>
    cases hp
    exact hknows
  | _ => cases hp

end Booked

/-- However processes that get and give back ptys interleave with each other, with mounts, remounts
and unmounts: `pty_count` is the number of processes with an index that is counted, and is at most
the limit; an index of an instance is counted for one process at most and is below
`NR_UNIX98_PTY_MAX`; the ids in the books of an instance are those that the processes hold; and
whenever `allocated_ptys_lock` is free, the ids held are the indices counted. -/
theorem indices_accounted (hr : devpts.system.Run (start ι) tr) :
    System.Always (fun v =>
      v.shared.pty_count = Parties.tally Pc.counts v.place ∧
      v.shared.pty_count ≤ pty_limit ∧
      (∀ p q s n, (v.place p).counted = some (s, n) → (v.place q).counted = some (s, n) → p = q) ∧
      (∀ p s (n : ℕ), (v.place p).counted = some (s, n) → n < NR_UNIX98_PTY_MAX) ∧
      (∀ s n, n ∈ v.shared.ida s ↔ ∃ p, (v.place p).allocated = some (s, n)) ∧
      (v.shared.allocated_ptys_lock = false →
        ∀ p, (v.place p).counted = (v.place p).allocated)) (start ι) tr := by
  refine (Booked.always hr).mono fun v hv => ⟨hv.count.trans (Int.zero_add _), hv.le,
    fun p q s n hp hq => hv.counted_unique hp hq, fun p s n hp => hv.counted_lt hp,
    fun s n => hv.mem_ida_iff, fun hfree p => Pc.counted_eq_allocated ?_⟩
  rcases Booked.inside_le (v.place p) with hp | hp
  · exact hp
  · rw [hv.locked hp] at hfree
    cases hfree

theorem session_indices_accounted :
    ∃ tr, devpts.system.Run (start (Fin 2)) tr ∧ tr.map Prod.fst = session ∧
      System.Always (fun v =>
        v.shared.pty_count = Parties.tally Pc.counts v.place ∧
        v.shared.pty_count ≤ pty_limit ∧
        (∀ p q s n, (v.place p).counted = some (s, n) →
          (v.place q).counted = some (s, n) → p = q) ∧
        (∀ p s (n : ℕ), (v.place p).counted = some (s, n) → n < NR_UNIX98_PTY_MAX) ∧
        (∀ s n, n ∈ v.shared.ida s ↔ ∃ p, (v.place p).allocated = some (s, n)) ∧
        (v.shared.allocated_ptys_lock = false →
          ∀ p, (v.place p).counted = (v.place p).allocated)) (start (Fin 2)) tr := by
  obtain ⟨tr, hrun, hacts⟩ := exists_session
  exact ⟨tr, hrun, hacts, indices_accounted hrun⟩

end

end QuickDevSkeleton.Devpts
