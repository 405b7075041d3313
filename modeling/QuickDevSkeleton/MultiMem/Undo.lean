import QuickDevSkeleton.MultiMem.Log

/-!
# A `setup_mydev` that fails

When an allocation fails, `setup_mydev` hands all entries so far to `release_mydev`, with the one
that it has just begun. If that entry has a structure but no buffer, every block is freed once; if
it has no structure, `release_mydev` dereferences its null pointer.
-/

namespace QuickDevSkeleton.MultiMem

open Foundations

/-- The request of a pass for a structure. -/
def structRequest (A : Allocator) (s : Slab) : ℕ × Slab :=
  s.kzalloc A sizeofMydev

/-- The request of pass `i` for a buffer. -/
def bufferRequest (A : Allocator) (buf_lens : ℕ → ℕ) (i : ℕ) (s : Slab) : ℕ × Slab :=
  (structRequest A s).2.kzalloc A (bufSize (buf_lens i))

/-- Going over the entries from `i` on, no request for a structure fails before a request for a
buffer does. -/
def StructsPlaced (A : Allocator) (buf_lens : ℕ → ℕ) (s : Slab) (i : ℕ) : ℕ → Prop
  | 0 => True
  | n + 1 => (structRequest A s).1 ≠ 0 ∧ ((bufferRequest A buf_lens i s).1 ≠ 0 →
      StructsPlaced A buf_lens (bufferRequest A buf_lens i s).2 (i + 1) n)

instance StructsPlaced.decide (A : Allocator) (buf_lens : ℕ → ℕ) (s : Slab) (i : ℕ) :
    (n : ℕ) → Decidable (StructsPlaced A buf_lens s i n)
  | 0 => inferInstanceAs (Decidable True)
  | n + 1 =>
    have := StructsPlaced.decide A buf_lens (bufferRequest A buf_lens i s).2 (i + 1) n
    inferInstanceAs (Decidable (_ ∧ (_ → _)))

namespace World

/-- The pointers that `release_mydev` frees for entry `i`. -/
def pointers (w : World) (i : ℕ) : List ℕ :=
  [(w.dev i).start, w.multi_devs i]

/-- The pointers that it frees for `n` entries from `i` on. -/
def pointersFrom (w : World) (i n : ℕ) : List ℕ :=
  (List.range' i n).flatMap w.pointers

/-- `w` is what `n` entries, the last of which may lack its buffer, have made of `w₀`. -/
structure Holds (w₀ w : World) (n : ℕ) : Prop where
  devs : ∀ j < n, w.multi_devs j ≠ 0
  sound : w.slab.Sound
  live : ∃ new, w.slab.live = new ++ w₀.slab.live ∧
    (new.map Block.addr).Perm ((w.pointersFrom 0 n).filter (· ≠ 0))

end World

/-! ### Release -/

section

variable {w w₀ u : World} {i n : ℕ}

lemma pointersFrom_succ (w : World) (i n : ℕ) :
    w.pointersFrom i (n + 1) = (w.dev i).start :: w.multi_devs i :: w.pointersFrom (i + 1) n := by
  simp [World.pointersFrom, World.pointers, List.range'_succ]

lemma pointersFrom_last (w : World) (n : ℕ) :
    w.pointersFrom 0 (n + 1) = w.pointersFrom 0 n ++ w.pointers n := by
  simp [World.pointersFrom, List.range'_1_concat]

lemma mem_pointersFrom {j : ℕ} (h : j < n) : w.multi_devs j ∈ w.pointersFrom 0 n := by
  refine List.mem_flatMap.mpr ⟨j, List.mem_range'_1.mpr ⟨Nat.zero_le j, by omega⟩, ?_⟩
  simp [World.pointers]

lemma kfree_run {p : ℕ} {s : Slab} (h : w.slab.kfree p = some s) :
    World.kfree p w = (some ⟨⟩, { w with slab := s }) := by
  rw [World.kfree, h]

/-- The loop frees the pointers of its entries. -/
lemma releaseFrom_run {s : Slab} (hdevs : ∀ j, i ≤ j → j < i + n → w.multi_devs j ≠ 0)
    (h : w.slab.kfreeAll (w.pointersFrom i n) = some s) :
    releaseFrom i n w = (some ⟨⟩, { w with slab := s }) := by
  induction n generalizing i w with
  | zero =>
    cases h
    rfl
  | succ n ih =>
    rw [pointersFrom_succ, Slab.kfreeAll] at h
    obtain ⟨s₁, hs₁, h⟩ := Option.bind_eq_some_iff.mp h
    rw [Slab.kfreeAll] at h
    obtain ⟨s₂, hs₂, h⟩ := Option.bind_eq_some_iff.mp h
    have hstart : World.kfree (w.structs (w.multi_devs i)).start w =
        (some ⟨⟩, { w with slab := s₁ }) := kfree_run hs₁
    have hdev : World.kfree (w.multi_devs i) { w with slab := s₁ } =
        (some ⟨⟩, { w with slab := s₂ }) := kfree_run (w := { w with slab := s₁ }) hs₂
    rw [releaseFrom, Exec.withState_run, if_neg (hdevs i le_rfl (by omega)),
      Exec.bind_run_some hstart, Exec.bind_run_some hdev]
    exact ih (w := { w with slab := s₂ }) (fun j hij hjn => hdevs j (by omega) (by omega)) h

lemma kfree_multi_devs {p : ℕ} {r : Option PUnit} (h : World.kfree p w = (r, u)) :
    u.multi_devs = w.multi_devs := by
  rw [World.kfree] at h
  cases hs : w.slab.kfree p with
  | none =>
    rw [hs] at h
    cases h
    rfl
  | some s =>
    rw [hs] at h
    cases h
    rfl

/-- The loop does not get past an entry without a structure. -/
lemma releaseFrom_null {j : ℕ} (hij : i ≤ j) (hjn : j < i + n) (h : w.multi_devs j = 0) :
    (releaseFrom i n w).1 = none := by
  induction n generalizing i w with
  | zero => omega
  | succ n ih =>
    rw [releaseFrom, Exec.withState_run]
    by_cases hi : w.multi_devs i = 0
    · rw [if_pos hi, Exec.crash_run]
    · have hne : i ≠ j := fun heq => hi (heq ▸ h)
      rw [if_neg hi]
      refine Exec.bind_crashes fun _ u hu => Exec.bind_crashes fun _ v hv => ?_
      apply ih (by omega) (by omega)
      rw [kfree_multi_devs hv, kfree_multi_devs hu, h]

/-- Releasing what is there gives every block back, and no other. -/
lemma World.Holds.release (h : w₀.Holds w n) :
    ∃ u, release_mydev n w = (some ⟨⟩, u) ∧ u.slab.live = w₀.slab.live := by
  obtain ⟨new, hlive, hperm⟩ := h.live
  have hnodup : (new.map Block.addr ++ w₀.slab.live.map Block.addr).Nodup := by
    rw [← List.map_append, ← hlive]
    exact h.sound.nodup
  obtain ⟨hnew, -, hdisj⟩ := List.nodup_append.mp hnodup
  have hfree : w.slab.kfreeAll (w.pointersFrom 0 n) =
      some (w.slab.without (w.pointersFrom 0 n)) := by
    apply Slab.kfreeAll_eq (hperm.nodup_iff.mp hnew)
    intro p hp hp0
    have hmem := hperm.mem_iff.mpr (List.mem_filter.mpr ⟨hp, decide_eq_true hp0⟩)
    rw [hlive, List.map_append]
    exact List.mem_append_left _ hmem
  refine ⟨_, releaseFrom_run (fun j _ hj => h.devs j (by omega)) hfree, ?_⟩
  have hpointer : ∀ b : Block, b.addr ∈ new.map Block.addr ↔
      b.addr ∈ w.pointersFrom 0 n ∧ b.addr ≠ 0 := by
    intro b
    rw [hperm.mem_iff, List.mem_filter, decide_eq_true_iff]
  show w.slab.live.filter (fun b => b.addr = 0 ∨ b.addr ∉ w.pointersFrom 0 n) = w₀.slab.live
  rw [hlive, List.filter_append]
  have hgone : new.filter (fun b => b.addr = 0 ∨ b.addr ∉ w.pointersFrom 0 n) = [] := by
    apply List.filter_eq_nil_iff.mpr
    intro b hb hkeep
    obtain ⟨hmem, hb0⟩ := (hpointer b).mp (List.mem_map_of_mem hb)
    rcases of_decide_eq_true hkeep with hzero | hnot
    · exact hb0 hzero
    · exact hnot hmem
  have hkept : w₀.slab.live.filter (fun b => b.addr = 0 ∨ b.addr ∉ w.pointersFrom 0 n) =
      w₀.slab.live := by
    apply List.filter_eq_self.mpr
    intro b hb
    apply decide_eq_true
    by_contra hno
    obtain ⟨hb0, hmem⟩ := not_or.mp hno
    have hin := (hpointer b).mpr ⟨not_not.mp hmem, hb0⟩
    exact hdisj _ hin _ (List.mem_map_of_mem hb) rfl
  rw [hgone, hkept, List.nil_append]

/-! ### One pass -/

/-- A new entry `i`, whose structure is at the new address `p`. -/
lemma World.Holds.enter {p : ℕ} {d : Mydev} {blocks : List Block} (h : w₀.Holds w i) (hp : p ≠ 0)
    (hnew : p ∉ w.slab.live.map Block.addr)
    (hdevs : u.multi_devs = Function.update w.multi_devs i p)
    (hstructs : u.structs = Function.update w.structs p d)
    (hlive : u.slab.live = blocks ++ w.slab.live)
    (hblocks : (blocks.map Block.addr).Perm ([d.start, p].filter (· ≠ 0)))
    (hsound : u.slab.Sound) : w₀.Holds u (i + 1) := by
  obtain ⟨new, hold, hperm⟩ := h.live
  have hptr : ∀ j < i, u.multi_devs j = w.multi_devs j := by
    intro j hj
    rw [hdevs, Function.update_of_ne hj.ne]
  have hother : ∀ j < i, w.multi_devs j ≠ p := by
    intro j hj heq
    have hmem := hperm.mem_iff.mpr
      (List.mem_filter.mpr ⟨mem_pointersFrom hj, decide_eq_true (h.devs j hj)⟩)
    apply hnew
    rw [hold, List.map_append, ← heq]
    exact List.mem_append_left _ hmem
  have hsame : u.pointersFrom 0 i = w.pointersFrom 0 i := by
    apply List.flatMap_congr
    intro j hj
    have hji : j < i := by
      have hrange := (List.mem_range'_1.mp hj).2
      omega
    rw [World.pointers, World.pointers, World.dev, World.dev, hptr j hji, hstructs,
      Function.update_of_ne (hother j hji)]
  have hlast : u.pointers i = [d.start, p] := by
    rw [World.pointers, World.dev, hdevs, Function.update_self, hstructs, Function.update_self]
  refine ⟨fun j hj => ?_, hsound, blocks ++ new, ?_, ?_⟩
  · rcases Nat.lt_succ_iff_lt_or_eq.mp hj with hj | rfl
    · rw [hptr j hj]
      exact h.devs j hj
    · rw [hdevs, Function.update_self]
      exact hp
  · rw [hlive, hold, List.append_assoc]
  · rw [pointersFrom_last, hsame, hlast, List.filter_append, List.map_append]
    exact (hblocks.append hperm).trans List.perm_append_comm

end

section

variable {A : Allocator} {buf_lens : ℕ → ℕ} {w w₀ : World} {i n : ℕ}

/-- The error path dereferences the entry that has no structure. -/
lemma release_error_null (h : w.multi_devs i = 0) :
    ((do
      release_mydev (i + 1)
      pure (-ENOMEM) : Exec World ℤ) w).1 = none := by
  have hnull : (release_mydev (i + 1) w).1 = none :=
    releaseFrom_null (Nat.zero_le i) (by omega) h
  refine Exec.bind_crashes fun _ u hu => ?_
  rw [hu] at hnull
  cases hnull

/-- The request for the structure fails. -/
lemma setupOne_no_struct (buf_lens : ℕ → ℕ) (i : ℕ) (h : (structRequest A w.slab).1 = 0) :
    (setupOne A buf_lens i w).1 = none := by
  have hzero : (w.slab.kzalloc A sizeofMydev).1 = 0 := h
  rw [setupOne, Exec.bind_run_some (kzalloc_run _ _), Exec.modify_bind, if_pos hzero]
  exact release_error_null ((Function.update_self _ _ _).trans hzero)

/-- The pass up to the request for the buffer, which may have failed. -/
lemma setupOne_placed (buf_lens : ℕ → ℕ) (i : ℕ) (h : (structRequest A w.slab).1 ≠ 0) :
    ∃ u : World,
      u.multi_devs = Function.update w.multi_devs i (structRequest A w.slab).1 ∧
      u.structs = Function.update w.structs (structRequest A w.slab).1
        ⟨(bufferRequest A buf_lens i w.slab).1, 0, 0, bufSize (buf_lens i)⟩ ∧
      u.slab = (bufferRequest A buf_lens i w.slab).2 ∧
      setupOne A buf_lens i w =
        (if (bufferRequest A buf_lens i w.slab).1 = 0 then do
          release_mydev (i + 1)
          pure (-ENOMEM)
        else do
          Exec.modify (World.setFields i fun d =>
            { d with
              end_ := (bufferRequest A buf_lens i w.slab).1 + bufSize (buf_lens i)
              wp := (bufferRequest A buf_lens i w.slab).1 })
          pure 0 : Exec World ℤ) u := by
  have hne : (w.slab.kzalloc A sizeofMydev).1 ≠ 0 := h
  rw [setupOne, Exec.bind_run_some (kzalloc_run _ _), Exec.modify_bind, if_neg hne,
    Exec.modify_bind, Exec.bind_run_some (kzalloc_run _ _), Exec.modify_bind]
  refine ⟨_, rfl, ?_, rfl, rfl⟩
  simp [World.setFields, World.setDev, hne, structRequest, bufferRequest]

/-- The request for the structure succeeds: its address is new. -/
lemma structRequest_new (hs : w.slab.Sound) (h : (structRequest A w.slab).1 ≠ 0) :
    (structRequest A w.slab).1 ∉ w.slab.live.map Block.addr ∧
      (structRequest A w.slab).2.live =
        ⟨(structRequest A w.slab).1, sizeofMydev⟩ :: w.slab.live := by
  rcases Slab.kzalloc_cases (A := A) (s := w.slab) sizeofMydev with ⟨hnull, -⟩ | ⟨-, hlive, hapart⟩
  · exact absurd hnull h
  · exact ⟨Slab.Sound.new hs.pos (by decide) hapart, hlive⟩

lemma bufferRequest_sound (i : ℕ) (hs : w.slab.Sound) :
    (bufferRequest A buf_lens i w.slab).2.Sound :=
  (hs.kzalloc (by decide)).kzalloc (bufSize_bounds (buf_lens i)).1

/-- The request for the buffer fails: everything is undone. -/
lemma World.Holds.no_buffer (h : w₀.Holds w i) (hp : (structRequest A w.slab).1 ≠ 0)
    (hq : (bufferRequest A buf_lens i w.slab).1 = 0) :
    ∃ u, setupOne A buf_lens i w = (some (-ENOMEM), u) ∧ u.slab.live = w₀.slab.live := by
  obtain ⟨v, hdevs, hstructs, hslab, hrun⟩ := setupOne_placed buf_lens i hp
  obtain ⟨hnew, hlive⟩ := structRequest_new h.sound hp
  have hlive' : v.slab.live = [⟨(structRequest A w.slab).1, sizeofMydev⟩] ++ w.slab.live := by
    rcases Slab.kzalloc_cases (A := A) (s := (structRequest A w.slab).2) (bufSize (buf_lens i))
      with ⟨-, hsame⟩ | ⟨hne, -⟩
    · rw [hslab]
      exact hsame.trans hlive
    · exact absurd hq hne
  have hblocks : ([⟨(structRequest A w.slab).1, sizeofMydev⟩].map Block.addr).Perm
      ([(bufferRequest A buf_lens i w.slab).1, (structRequest A w.slab).1].filter (· ≠ 0)) := by
    simp [hq, hp]
  have hv : w₀.Holds v (i + 1) := h.enter hp hnew hdevs hstructs hlive' hblocks
    (hslab ▸ bufferRequest_sound i h.sound)
  obtain ⟨u, hrelease, hback⟩ := hv.release
  refine ⟨u, ?_, hback⟩
  rw [hrun, if_pos hq, Exec.bind_run_some hrelease, Exec.pure_run]

/-- Both requests succeed: there is one entry more. -/
lemma World.Holds.done (h : w₀.Holds w i) (hp : (structRequest A w.slab).1 ≠ 0)
    (hq : (bufferRequest A buf_lens i w.slab).1 ≠ 0) :
    ∃ u, setupOne A buf_lens i w = (some 0, u) ∧ w₀.Holds u (i + 1) ∧
      u.slab = (bufferRequest A buf_lens i w.slab).2 := by
  obtain ⟨v, hdevs, hstructs, hslab, hrun⟩ := setupOne_placed buf_lens i hp
  rw [if_neg hq, Exec.modify_bind, Exec.pure_run] at hrun
  refine ⟨_, hrun, ?_, hslab⟩
  obtain ⟨hnew, hlive⟩ := structRequest_new h.sound hp
  have hlive' : v.slab.live = [⟨(bufferRequest A buf_lens i w.slab).1, bufSize (buf_lens i)⟩,
      ⟨(structRequest A w.slab).1, sizeofMydev⟩] ++ w.slab.live := by
    rcases Slab.kzalloc_cases (A := A) (s := (structRequest A w.slab).2) (bufSize (buf_lens i))
      with ⟨hnull, -⟩ | ⟨-, hadd, -⟩
    · exact absurd hnull hq
    · rw [hslab]
      exact hadd.trans (congrArg _ hlive)
  refine h.enter (d := ⟨(bufferRequest A buf_lens i w.slab).1,
    (bufferRequest A buf_lens i w.slab).1 + bufSize (buf_lens i),
    (bufferRequest A buf_lens i w.slab).1, bufSize (buf_lens i)⟩) hp hnew hdevs ?_ hlive' ?_
    (hslab ▸ bufferRequest_sound i h.sound)
  · simp [World.setFields, hdevs, hstructs]
  · simp [hq, hp]

/-! ### The loop -/

/-- If no structure is refused, the loop ends with all entries, or with none and an error. -/
lemma setupFrom_placed (hw : w₀.Holds w i) (h : StructsPlaced A buf_lens w.slab i n) :
    (∃ u, setupFrom A buf_lens i n w = (some 0, u) ∧ w₀.Holds u (i + n)) ∨
      ∃ u, setupFrom A buf_lens i n w = (some (-ENOMEM), u) ∧ u.slab.live = w₀.slab.live := by
  induction n generalizing i w with
  | zero => exact Or.inl ⟨w, rfl, hw⟩
  | succ n ih =>
    obtain ⟨hp, hrest⟩ := h
    by_cases hq : (bufferRequest A buf_lens i w.slab).1 = 0
    · obtain ⟨u, hone, hback⟩ := hw.no_buffer hp hq
      refine Or.inr ⟨u, ?_, hback⟩
      rw [setupFrom, Exec.bind_run_some hone, if_pos (by decide), Exec.pure_run]
    · obtain ⟨u, hone, hu, hslab⟩ := hw.done hp hq
      rw [setupFrom, Exec.bind_run_some hone, if_neg (not_not.mpr rfl), Nat.add_comm n 1,
        ← Nat.add_assoc]
      exact ih hu (hslab ▸ hrest hq)

/-- If a structure is refused, the loop crashes. -/
lemma setupFrom_null (hw : w₀.Holds w i) (h : ¬ StructsPlaced A buf_lens w.slab i n) :
    (setupFrom A buf_lens i n w).1 = none := by
  induction n generalizing i w with
  | zero => exact absurd trivial h
  | succ n ih =>
    by_cases hp : (structRequest A w.slab).1 = 0
    · refine Exec.bind_crashes fun r u hu => ?_
      have hcrash := setupOne_no_struct buf_lens i hp
      rw [hu] at hcrash
      cases hcrash
    · have hq : (bufferRequest A buf_lens i w.slab).1 ≠ 0 ∧
          ¬ StructsPlaced A buf_lens (bufferRequest A buf_lens i w.slab).2 (i + 1) n := by
        by_contra hno
        refine h ⟨hp, fun hq => ?_⟩
        by_contra hmore
        exact hno ⟨hq, hmore⟩
      obtain ⟨u, hone, hu, hslab⟩ := hw.done hp hq.1
      rw [setupFrom, Exec.bind_run_some hone, if_neg (not_not.mpr rfl)]
      exact ih hu (hslab ▸ hq.2)

end

/-! ### Set up or undone -/

/-- `setup_mydev` returns with all entries allocated, and `release_mydev` will free them, or with
an error and exactly the blocks that were there before; no null pointer is dereferenced. -/
def SetUpOrUndone (A : Allocator) (buf_lens : ℕ → ℕ) (num : ℕ) (w : World) : Prop :=
  (∃ u, setup_mydev A buf_lens num w = (some 0, u) ∧
    (∀ i < num, u.Entry buf_lens i ∧ 1 ≤ (u.dev i).buf_size ∧ (u.dev i).buf_size ≤ 4096) ∧
    ∃ v, release_mydev num u = (some PUnit.unit.{1}, v) ∧ v.slab.live = w.slab.live) ∨
  ∃ u, setup_mydev A buf_lens num w = (some (-ENOMEM), u) ∧ u.slab.live = w.slab.live

lemma SetUpOrUndone.returns {A : Allocator} {buf_lens : ℕ → ℕ} {num : ℕ} {w : World}
    (h : SetUpOrUndone A buf_lens num w) : (setup_mydev A buf_lens num w).1 ≠ none := by
  intro hcrash
  rcases h with ⟨u, hrun, -⟩ | ⟨u, hrun, -⟩
  · rw [hrun] at hcrash
    cases hcrash
  · rw [hrun] at hcrash
    cases hcrash

/-- For every number of entries, all buffer lengths and every allocator: `setup_mydev` succeeds or
is undone exactly if no request for a structure fails. -/
theorem setUpOrUndone_iff (A : Allocator) (buf_lens : ℕ → ℕ) (num : ℕ) (w : World)
    (hw : w.slab.Sound) :
    SetUpOrUndone A buf_lens num w ↔ StructsPlaced A buf_lens w.slab 0 num := by
  have hstart : w.Holds w 0 :=
    ⟨fun _ hj => absurd hj (Nat.not_lt_zero _), hw, [], rfl, List.Perm.nil⟩
  constructor
  · intro h
    by_contra hno
    exact h.returns (setupFrom_null hstart hno)
  · intro h
    rcases setupFrom_placed hstart h with ⟨u, hrun, hu⟩ | ⟨u, hrun, hback⟩
    · rw [Nat.zero_add] at hu
      have hready := setup_mydev_ok (n := num) hrun
      refine Or.inl ⟨u, hrun, fun i hi => ⟨hready.entry i hi, ?_⟩, hu.release⟩
      rw [(hready.entry i hi).buf_size]
      exact bufSize_bounds (buf_lens i)
    · exact Or.inr ⟨u, hrun, hback⟩

lemma World.unset_sound : World.unset.slab.Sound where
  pos _ hb := absurd hb List.not_mem_nil
  nodup := List.nodup_nil

/-- An allocator with room for so many blocks. -/
def Allocator.room (blocks : ℕ) : Allocator where
  place s size := if s.live.length < blocks then Allocator.bump.place s size else none
  nonnull h := Allocator.bump.nonnull (Option.ite_none_right_eq_some.mp h).2
  apart h := Allocator.bump.apart (Option.ite_none_right_eq_some.mp h).2

/-- With room for eight blocks all four entries are set up; with room for seven the last buffer
fails and all is undone; with room for six the last structure fails. -/
theorem setUpOrUndone_iff_room :
    (SetUpOrUndone (Allocator.room 8) (fun _ => 10) DEV_NUM World.unset ∧
      (setup_mydev (Allocator.room 8) (fun _ => 10) DEV_NUM World.unset).1 = some 0) ∧
    (SetUpOrUndone (Allocator.room 7) (fun _ => 10) DEV_NUM World.unset ∧
      (setup_mydev (Allocator.room 7) (fun _ => 10) DEV_NUM World.unset).1 = some (-ENOMEM)) ∧
    ¬ SetUpOrUndone (Allocator.room 6) (fun _ => 10) DEV_NUM World.unset := by
  have hiff (A : Allocator) := setUpOrUndone_iff A (fun _ => 10) DEV_NUM World.unset
    World.unset_sound
  refine ⟨⟨(hiff _).mpr (by decide +kernel), by decide +kernel⟩,
    ⟨(hiff _).mpr (by decide +kernel), by decide +kernel⟩, fun h => ?_⟩
  exact absurd ((hiff _).mp h) (by decide +kernel)

/-- An allocator without memory. -/
def Allocator.empty : Allocator where
  place _ _ := none
  nonnull h := by cases h
  apart h := by cases h

/-- The very first request fails, and the error path dereferences `multi_devs[0]`. -/
theorem setup_crashes : ¬ SetUpOrUndone Allocator.empty (fun _ => 0) DEV_NUM World.unset := by
  have hcrash : (setup_mydev Allocator.empty (fun _ => 0) DEV_NUM World.unset).1 = none := rfl
  exact fun h => h.returns hcrash

end QuickDevSkeleton.MultiMem
