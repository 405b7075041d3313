import QuickDevSkeleton.Journal.Balance

/-!
# Lookups of a cached file

`example_lookup` of `fs/journal/inode.c` fills in the inode of `UUID` whether `iget_locked` has made
it or found it in the inode cache. The size that the writes have given to the file, and the other
attributes, over runs of lookups, writes and drops of the dentry.
-/

namespace QuickDevSkeleton.Journal

open Foundations

inductive FileOperations where
  | empty_fops
  | example_file_operations

inductive AddressSpaceOperations where
  | empty_aops
  | example_address_space_ops

/-- The attributes of the inode; its size is the `i_size` of the file. -/
structure Inode where
  i_mode : ℕ
  i_uid : ℕ
  i_gid : ℕ
  i_atime : ℕ
  i_ctime : ℕ
  i_fop : FileOperations
  a_ops : AddressSpaceOperations

/-- The inode `JOURNAL_INUM`, while it is in the inode cache, the dentry of its name, and the
file. -/
structure Volume where
  inode : Option Inode
  dentry : Bool
  file : World

/-- Whether an inode can be allocated, and the readings of `CURRENT_TIME`, one after the other. -/
structure LookupOutcomes where
  alloc : Bool
  times : ℕ → ℕ

/-- `iget_locked`: the inode of the cache, or a new one of size 0; `false` is `NULL`. -/
def iget_locked (K : LookupOutcomes) : Exec Volume Bool :=
  Exec.withState fun v =>
    if v.inode.isSome then pure true
    else if !K.alloc then pure false
    else do
      Exec.modify fun v =>
        { v with
          inode := some ⟨0, 0, 0, 0, 0, .empty_fops, .empty_aops⟩
          file := { v.file with i_size := 0 } }
      pure true

/-- `d_splice_alias(inode, dentry)`. -/
def d_splice_alias : Exec Volume PUnit :=
  Exec.modify fun v => { v with dentry := true }

/-- The attributes that `example_lookup` sets; `i_atime` is set to the first reading before. -/
def Inode.fill (K : LookupOutcomes) (n : Inode) : Inode :=
  { n with
    i_mode := 0o444 ||| (8 <<< 12)
    i_uid := 0
    i_gid := 0
    i_ctime := K.times 1
    i_atime := K.times 2
    i_fop := .example_file_operations
    a_ops := .example_address_space_ops }

/-- What is found under another name than `UUID` is no inode. -/
def example_lookup (K : LookupOutcomes) (name : String) : Exec Volume PUnit :=
  if name = "UUID" then do
    let inode ← iget_locked K
    if !inode then Exec.crash
    else do
      Exec.modify fun v =>
        { v with inode := v.inode.map (·.fill K), file := { v.file with i_size := 16 } }
      d_splice_alias
  else pure ⟨⟩

/-! ### Runs -/

/-- The volume, and beside it the size that the inode was created with and the end offsets of the
writes that were completed since. -/
structure Watched where
  volume : Volume
  created : ℕ
  ends : List ℕ

/-- A lookup, the two halves of a write, something else that the kernel does with the file and that
leaves its size alone, and a drop of the dentry. -/
inductive VolumeAct where
  | lookup (K : LookupOutcomes) (name : String)
  | write_begin (K : Outcomes) (pos len : ℕ)
  | write_end (K : Outcomes) (pos len copied : ℕ)
  | elsewhere (file : World)
  | drop

namespace Watched

variable (s : Watched)

/-- The file has become `w`. -/
def setFile (w : World) : Watched :=
  { s with volume := { s.volume with file := w } }

/-- A lookup has led to the volume `v`. -/
def looked (v : Volume) : Watched :=
  if s.volume.inode.isSome then { s with volume := v }
  else { volume := v, created := v.file.i_size, ends := [] }

/-- `write_end` has returned `r`: a byte count, or an error. -/
def completed (pos : ℕ) (r : ℤ) (w : World) : Watched :=
  { s.setFile w with ends := if 0 ≤ r then (pos + r.toNat) :: s.ends else s.ends }

/-- The calls that return. A name is looked up while it has no dentry, and what is written to has an
inode. -/
def next : VolumeAct → Option Watched
  | .lookup K name =>
    if name = "UUID" ∧ s.volume.dentry then none
    else
      match example_lookup K name s.volume with
      | (some _, v) => some (s.looked v)
      | (none, _) => none
  | .write_begin K pos len =>
    if s.volume.inode.isNone then none
    else
      match example_journalled_write_begin K pos len s.volume.file with
      | (some _, w) => some (s.setFile w)
      | (none, _) => none
  | .write_end K pos len copied =>
    if s.volume.inode.isNone then none
    else
      match example_journalled_write_end K pos len copied s.volume.file with
      | (some r, w) => some (s.completed pos r w)
      | (none, _) => none
  | .elsewhere w => some (s.setFile { w with i_size := s.volume.file.i_size })
  | .drop => some { s with volume := { s.volume with dentry := false } }

/-- The size is the largest of the size at creation and the ends of the writes. -/
def SizeLaw : Prop :=
  s.volume.inode.isSome → s.volume.file.i_size = s.ends.foldr max s.created

/-- A lookup that finds the inode in the cache changes none of its attributes. -/
def AttributesKept : VolumeAct → Prop
  | .lookup K name => s.volume.inode.isSome → ∀ t, s.next (.lookup K name) = some t →
      t.volume.inode = s.volume.inode ∧ t.volume.file.i_size = s.volume.file.i_size
  | _ => True

/-- The inode is looked up in the cache only while it has the size and the times that the lookup
gives it; and a write that the journal refuses lies within the file. -/
def LookupOk : VolumeAct → Prop
  | .lookup K name => name = "UUID" → ∀ n, s.volume.inode = some n →
      s.volume.file.i_size = 16 ∧ n.i_ctime = K.times 1 ∧ n.i_atime = K.times 2
  | .write_end K pos len copied =>
    let w := s.volume.file
    let p := w.pages (pos / PAGE_CACHE_SIZE)
    pos + copiedTo p len copied ≤ w.i_size ∨
      (∀ k ∈ reached w (pos / PAGE_CACHE_SIZE) (pos % PAGE_CACHE_SIZE)
        (walkEnd p (pos % PAGE_CACHE_SIZE) len copied) w.blocks.count,
          K.journal_dirty_metadata k = 0) ∧ K.journal_stop = 0
  | _ => True

end Watched

/-! ### Sizes -/

section

variable {w v : World} {K : Outcomes}

lemma journal_stop_i_size (n : ℕ) :
    Exec.Keeps (fun v : World => v.i_size = n) (journal_stop K) := by
  refine .withState fun v => ?_
  split
  · exact .crash
  · exact .bind (.modify fun _ h => h) fun _ => .pure _

/-- A walk does not change the size, if what it does to a live buffer does not. -/
lemma walkPage_i_size {n i from_ to_ : ℕ} {partial_ : Option Bool} {fn : ℕ → Exec World ℤ}
    (hfn : ∀ k, Exec.Keeps (fun v : World => v.i_size = n) (fn k)) :
    Exec.Keeps (fun v : World => v.i_size = n) (walkPage i from_ to_ partial_ fn) :=
  .withState fun _ => .ite .crash (walk_page_buffers_keeps hfn _)

lemma withBuffer_i_size {n i k : ℕ} {body : BufferHead → Exec World ℤ}
    (hbody : ∀ bh, Exec.Keeps (fun v : World => v.i_size = n) (body bh)) :
    Exec.Keeps (fun v : World => v.i_size = n) (withBuffer i k body) :=
  .withState fun _ => .ite .crash (.ite (.pure _) (hbody _))

lemma access_i_size (n i k : ℕ) :
    Exec.Keeps (fun v : World => v.i_size = n) (do_journal_get_write_access K i k) := by
  refine withBuffer_i_size fun bh => .bind (.modify fun _ h => h) fun _ => .withState fun u => ?_
  split
  · exact .crash
  · exact .bind (.modify fun _ h => h) fun _ => .pure _

/-- `write_begin` does not change the size. -/
lemma write_begin_i_size (pos len n : ℕ) :
    Exec.Keeps (fun v : World => v.i_size = n) (example_journalled_write_begin K pos len) := by
  have hgrab : ∀ i, Exec.Keeps (fun v : World => v.i_size = n)
      (grab_cache_page_write_begin K i) := fun i =>
    .ite (.bind (.modify fun _ h => h) fun _ => .pure _) (.pure _)
  have hstart : Exec.Keeps (fun v : World => v.i_size = n) (journal_start K) := by
    refine .ite (.pure _) (.bind (.modify fun v hv => ?_) fun _ => .pure _)
    split
    · exact hv
    · exact hv
  have hbegin : ∀ i, Exec.Keeps (fun v : World => v.i_size = n)
      (block_write_begin K i 0 PAGE_CACHE_SIZE) := fun i v hv =>
    (block_write_begin_keeps 0 PAGE_CACHE_SIZE v ⟨rfl, rfl, hv⟩).2.2
  refine .bind (hgrab _) fun _ => .ite (.pure _) (.withState fun v => .ite (.pure _) ?_)
  refine .ite (.pure _) (.bind hstart fun _ => .ite (.pure _) (.bind (hbegin _) fun _ => ?_))
  refine .ite (.bind (journal_stop_i_size n) fun _ => .pure _) ?_
  exact .bind (walkPage_i_size fun k => access_i_size n _ k) fun _ => .pure _

/-- A `write_end` that returns has had a handle and a page with buffers. -/
lemma write_end_needs {pos len copied : ℕ} {r : ℤ}
    (hrun : example_journalled_write_end K pos len copied w = (some r, v)) :
    (∃ h, w.handle = some h) ∧ (w.pages (pos / PAGE_CACHE_SIZE)).buffers.isSome := by
  constructor
  · rw [← Option.ne_none_iff_exists']
    intro hnone
    obtain ⟨u, hcrash, -⟩ := write_end_null (K := K) pos len copied hnone
    cases hrun.symm.trans hcrash
  · by_contra hno
    obtain ⟨u, hcrash, -⟩ := write_end_no_buffers (K := K) len copied
      (Bool.eq_false_of_not_eq_true hno)
    cases hrun.symm.trans hcrash

lemma zeroed_i_size (i from_ len copied : ℕ) :
    (zeroed w i from_ len copied).i_size = w.i_size := by
  rw [zeroed]
  split
  · simp only [page_zero_new_buffers]
    split <;> rfl
  · rfl

/-- A `write_end` that returns has extended the file to the end of what was copied. -/
lemma write_end_i_size {pos len copied : ℕ} {r : ℤ}
    (hrun : example_journalled_write_end K pos len copied w = (some r, v)) :
    v.i_size = max w.i_size (pos + copiedTo (w.pages (pos / PAGE_CACHE_SIZE)) len copied) := by
  obtain ⟨⟨h, hh⟩, hring⟩ := write_end_needs hrun
  simp only [example_journalled_write_end, Exec.withState_run] at hrun
  generalize pos / PAGE_CACHE_SIZE = i at hrun hring ⊢
  generalize pos % PAGE_CACHE_SIZE = from_ at hrun
  generalize walkEnd (w.pages i) from_ len copied = to_ at hrun
  rw [Exec.modify_bind, ← zeroed] at hrun
  have hring' : ((zeroed w i from_ len copied).pages i).buffers.isSome := by
    rw [zeroed_buffers, hring]
  have hh' : (zeroed w i from_ len copied).handle = some h := (zeroed_frame _ _ _).2.1.trans hh
  have hfinished : ∀ m u, (finished (journalled (zeroed w i from_ len copied) i h from_ to_ m) i h u
      (max (zeroed w i from_ len copied).i_size (pos + copiedTo (w.pages i) len copied))).i_size =
        max w.i_size (pos + copiedTo (w.pages i) len copied) := fun m u => by
    rw [finished, zeroed_i_size]
  rcases journal_walk (K := K) from_ to_ (some false) hring' hh' with
    ⟨p, hwalk, -⟩ | ⟨k, -, -, -, p, hwalk⟩
  · have htail := write_end_tail_run (K := K) (i := i)
      (World.handle_onPage : (journalled (zeroed w i from_ len copied) i h from_ to_
        (zeroed w i from_ len copied).blocks.count).handle = _)
      p 0 (pos + copiedTo (w.pages i) len copied) (copiedTo (w.pages i) len copied)
    cases ((Exec.bind_run_some hwalk).trans htail).symm.trans hrun
    exact hfinished _ _
  · have htail := write_end_tail_run (K := K) (i := i)
      (World.handle_onPage : (journalled (zeroed w i from_ len copied) i h from_ to_
        (k + 1)).handle = _)
      p (K.journal_dirty_metadata k) (pos + copiedTo (w.pages i) len copied)
      (copiedTo (w.pages i) len copied)
    cases ((Exec.bind_run_some hwalk).trans htail).symm.trans hrun
    exact hfinished _ _

/-- What a `write_end` returns: a byte count exactly if the journal refuses nothing. -/
lemma write_end_returned {pos len copied : ℕ} {r : ℤ}
    (hrun : example_journalled_write_end K pos len copied w = (some r, v)) :
    (0 ≤ r → r = copiedTo (w.pages (pos / PAGE_CACHE_SIZE)) len copied) ∧
      (0 ≤ r ↔ (∀ k ∈ reached w (pos / PAGE_CACHE_SIZE) (pos % PAGE_CACHE_SIZE)
        (walkEnd (w.pages (pos / PAGE_CACHE_SIZE)) (pos % PAGE_CACHE_SIZE) len copied)
          w.blocks.count, K.journal_dirty_metadata k = 0) ∧ K.journal_stop = 0) := by
  obtain ⟨⟨h, hh⟩, hring⟩ := write_end_needs hrun
  obtain ⟨r', v', hrun', hends⟩ := write_end_ends (K := K) pos len copied hh hring
  cases hrun.symm.trans hrun'
  have hreached : ∀ from_ to_ m, reached (zeroed w (pos / PAGE_CACHE_SIZE) (pos % PAGE_CACHE_SIZE)
      len copied) (pos / PAGE_CACHE_SIZE) from_ to_ m =
        reached w (pos / PAGE_CACHE_SIZE) from_ to_ m := by
    intro from_ to_ m
    simp only [reached, (zeroed_frame _ _ _).1, zeroed_live]
  cases hends with
  | done hall =>
    rw [hreached, (zeroed_frame _ _ _).1] at hall
    by_cases hstop : K.journal_stop = 0
    · rw [if_neg (not_not.mpr hstop)]
      exact ⟨fun _ => rfl, fun _ => ⟨hall, hstop⟩, fun _ => Int.natCast_nonneg _⟩
    · have hneg := K.stop_nonpos
      rw [if_pos hstop]
      exact ⟨fun h0 => absurd (le_antisymm hneg h0) hstop,
        fun h0 => absurd (le_antisymm hneg h0) hstop, fun h0 => absurd h0.2 hstop⟩
  | @refused u n k hk hr hall =>
    have hneg := K.dirty_nonpos k
    rw [hreached, (zeroed_frame _ _ _).1] at hk
    exact ⟨fun h0 => absurd (le_antisymm hneg h0) hr, fun h0 => absurd (le_antisymm hneg h0) hr,
      fun h0 => absurd (h0.1 k hk) hr⟩

end

/-! ### Lookups -/

section

variable {K : LookupOutcomes} {v : Volume}

/-- Every attribute of the inode is set. -/
lemma Inode.fill_eq (n m : Inode) : n.fill K = m.fill K := rfl

lemma lookup_cached {n : Inode} (hn : v.inode = some n) :
    example_lookup K "UUID" v =
      (some ⟨⟩, ⟨some (n.fill K), true, { v.file with i_size := 16 }⟩) := by
  have hfound : iget_locked K v = (some true, v) := by
    rw [iget_locked, Exec.withState_run, if_pos (by simp [hn]), Exec.pure_run]
  rw [example_lookup, if_pos rfl, Exec.bind_run_some hfound, if_neg (by simp), Exec.modify_bind, hn]
  rfl

lemma lookup_new (hnone : v.inode = none) (halloc : K.alloc = true) :
    ∃ n : Inode, example_lookup K "UUID" v =
      (some ⟨⟩, ⟨some (n.fill K), true, { v.file with i_size := 16 }⟩) := by
  have hfound : iget_locked K v = (some true,
      { v with
        inode := some ⟨0, 0, 0, 0, 0, .empty_fops, .empty_aops⟩
        file := { v.file with i_size := 0 } }) := by
    rw [iget_locked, Exec.withState_run, if_neg (by simp [hnone]), if_neg (by simp [halloc])]
    rfl
  rw [example_lookup, if_pos rfl, Exec.bind_run_some hfound, if_neg (by simp), Exec.modify_bind]
  exact ⟨_, rfl⟩

/-- Without an inode `example_lookup` writes to `NULL`. -/
lemma lookup_null (hnone : v.inode = none) (halloc : K.alloc = false) :
    example_lookup K "UUID" v = (none, v) := by
  have hfound : iget_locked K v = (some false, v) := by
    rw [iget_locked, Exec.withState_run, if_neg (by simp [hnone]), if_pos (by simp [halloc])]
    rfl
  rw [example_lookup, if_pos rfl, Exec.bind_run_some hfound, if_pos (by simp), Exec.crash_run]

lemma lookup_other {name : String} (hname : name ≠ "UUID") :
    example_lookup K name v = (some ⟨⟩, v) := by
  rw [example_lookup, if_neg hname, Exec.pure_run]

end

namespace Watched

variable {s t : Watched}

/-- The size is that of the law, and the attributes are those of some lookup. -/
structure Inv (s : Watched) : Prop where
  size : s.SizeLaw
  filled : ∀ n, s.volume.inode = some n → ∃ (m : Inode) (K : LookupOutcomes), n = m.fill K

/-! ### One step -/

/-- What a lookup that returns does. -/
lemma lookup_cases {K : LookupOutcomes} {name : String} (h : s.next (.lookup K name) = some t) :
    name ≠ "UUID" ∧ t = s.looked s.volume ∨
      name = "UUID" ∧ ∃ n : Inode, (∀ m, s.volume.inode = some m → n = m) ∧
        t = s.looked ⟨some (n.fill K), true, { s.volume.file with i_size := 16 }⟩ := by
  by_cases hname : name = "UUID"
  · subst hname
    refine Or.inr ⟨rfl, ?_⟩
    simp only [next] at h
    split_ifs at h
    cases hinode : s.volume.inode with
    | some n =>
      rw [lookup_cached hinode] at h
      cases h
      exact ⟨n, fun m hm => Option.some.inj hm, rfl⟩
    | none =>
      by_cases halloc : K.alloc = true
      · obtain ⟨n, hrun⟩ := lookup_new hinode halloc
        rw [hrun] at h
        cases h
        exact ⟨n, fun m hm => (nomatch hm), rfl⟩
      · rw [lookup_null hinode (Bool.eq_false_of_not_eq_true halloc)] at h
        cases h
  · refine Or.inl ⟨hname, ?_⟩
    simp only [next, lookup_other hname] at h
    split_ifs at h
    cases h
    rfl

lemma looked_cached {n : Inode} (hn : s.volume.inode = some n) (v : Volume) :
    s.looked v = { s with volume := v } := by
  rw [looked, if_pos (by simp [hn])]

lemma looked_new (hnone : s.volume.inode = none) (v : Volume) :
    s.looked v = ⟨v, v.file.i_size, []⟩ := by
  rw [looked, if_neg (by simp [hnone])]

/-- A lookup that gives the inode what it has. -/
lemma lookup_keeps {K : LookupOutcomes} {name : String} (h : s.Inv)
    (hok : s.LookupOk (.lookup K name)) (hstep : s.next (.lookup K name) = some t) :
    t.Inv ∧ (s.volume.inode.isSome → t.volume.inode = s.volume.inode ∧
      t.volume.file.i_size = s.volume.file.i_size) := by
  rcases lookup_cases hstep with ⟨-, rfl⟩ | ⟨rfl, n, hn, rfl⟩
  · cases hinode : s.volume.inode with
    | some m =>
      rw [looked_cached hinode]
      exact ⟨h, fun _ => ⟨hinode, rfl⟩⟩
    | none =>
      rw [looked_new hinode]
      refine ⟨⟨fun hsome => ?_, fun m hm => ?_⟩, fun hsome => (nomatch hsome)⟩
      · change s.volume.inode.isSome = true at hsome
        rw [hinode] at hsome
        cases hsome
      · cases hinode.symm.trans hm
  · cases hinode : s.volume.inode with
    | some m =>
      obtain ⟨hsize, hctime, hatime⟩ := hok rfl m hinode
      have hnm : n = m := hn m hinode
      obtain ⟨m', K', hfill⟩ := h.filled m hinode
      have hsame : m.fill K = m := by
        rw [hfill] at hctime hatime ⊢
        change K'.times 1 = K.times 1 at hctime
        change K'.times 2 = K.times 2 at hatime
        simp only [Inode.fill, hctime, hatime]
      rw [looked_cached hinode, hnm, hsame]
      refine ⟨⟨fun _ => ?_, fun l hl => h.filled l (hinode.trans hl)⟩, fun _ => ⟨rfl, hsize.symm⟩⟩
      exact hsize.symm.trans (h.size (by rw [hinode]; rfl))
    | none =>
      rw [looked_new hinode]
      exact ⟨⟨fun _ => rfl, fun m hm => ⟨n, K, (Option.some.inj hm).symm⟩⟩,
        fun hsome => (nomatch hsome)⟩

/-- A lookup that changes no attribute of a cached inode has given it what it had. -/
lemma lookupOk_of_kept {K : LookupOutcomes} {name : String}
    (hstep : s.next (.lookup K name) = some t) (hlaw : s.AttributesKept (.lookup K name)) :
    s.LookupOk (.lookup K name) := by
  rintro rfl n hinode
  obtain ⟨hattr, hsize⟩ := hlaw (by rw [hinode]; rfl) t hstep
  rcases lookup_cases hstep with ⟨hne, -⟩ | ⟨-, m, hm, rfl⟩
  · exact absurd rfl hne
  · rw [looked_cached hinode] at hattr hsize
    rw [hinode] at hattr
    have hfill : m.fill K = n := Option.some.inj hattr
    exact ⟨hsize.symm, by rw [← hfill]; rfl, by rw [← hfill]; rfl⟩

/-- What a `write_end` that returns does. -/
lemma write_end_cases {K : Outcomes} {pos len copied : ℕ}
    (h : s.next (.write_end K pos len copied) = some t) :
    s.volume.inode.isSome ∧ ∃ r w, t = s.completed pos r w ∧
      example_journalled_write_end K pos len copied s.volume.file = (some r, w) := by
  simp only [next] at h
  split_ifs at h with hinode
  refine ⟨Option.isSome_iff_ne_none.mpr (by simpa using hinode), ?_⟩
  rcases hrun : example_journalled_write_end K pos len copied s.volume.file with ⟨_ | r, w⟩
  · rw [hrun] at h
    cases h
  · rw [hrun] at h
    cases h
    exact ⟨r, w, rfl, rfl⟩

/-- A write of `r` bytes extends the file to its end. -/
lemma write_end_law {K : Outcomes} {pos len copied : ℕ} (h : s.Inv)
    (hstep : s.next (.write_end K pos len copied) = some t) :
    t.SizeLaw ↔ s.LookupOk (.write_end K pos len copied) := by
  obtain ⟨hinode, r, w, rfl, hrun⟩ := write_end_cases hstep
  have hsize := write_end_i_size hrun
  obtain ⟨hcopied, hiff⟩ := write_end_returned hrun
  have hlaw := h.size hinode
  rw [SizeLaw, forall_prop_of_true (show (s.completed pos r w).volume.inode.isSome from hinode)]
  change w.i_size = (if 0 ≤ r then (pos + r.toNat) :: s.ends else s.ends).foldr max s.created ↔ _
  by_cases hr : 0 ≤ r
  · have hbytes : r.toNat = copiedTo (s.volume.file.pages (pos / PAGE_CACHE_SIZE)) len copied := by
      have hnat := hcopied hr
      omega
    rw [if_pos hr, List.foldr_cons, ← hlaw, hbytes, hsize, max_comm]
    exact iff_of_true rfl (Or.inr (hiff.mp hr))
  · rw [if_neg hr, ← hlaw, hsize, max_eq_left_iff]
    exact (or_iff_left fun hall => hr (hiff.mpr hall)).symm

/-- A step that meets the condition keeps the invariant. -/
lemma step_keeps {a : VolumeAct} (h : s.Inv) (hok : s.LookupOk a) (hstep : s.next a = some t) :
    t.Inv ∧ s.AttributesKept a := by
  cases a with
  | lookup K name =>
    obtain ⟨ht, hkept⟩ := lookup_keeps h hok hstep
    refine ⟨ht, fun hsome t' hstep' => ?_⟩
    cases hstep.symm.trans hstep'
    exact hkept hsome
  | write_begin K pos len =>
    simp only [next] at hstep
    split_ifs at hstep
    rcases hrun : example_journalled_write_begin K pos len s.volume.file with ⟨_ | r, w⟩
    · rw [hrun] at hstep
      cases hstep
    · rw [hrun] at hstep
      cases hstep
      have hkept := write_begin_i_size (K := K) pos len s.volume.file.i_size s.volume.file rfl
      rw [hrun] at hkept
      exact ⟨⟨fun hsome => hkept.trans (h.size hsome), h.filled⟩, trivial⟩
  | write_end K pos len copied =>
    obtain ⟨-, r, w, rfl, -⟩ := write_end_cases hstep
    exact ⟨⟨(write_end_law h hstep).mpr hok, h.filled⟩, trivial⟩
  | elsewhere w =>
    cases hstep
    exact ⟨⟨h.size, h.filled⟩, trivial⟩
  | drop =>
    cases hstep
    exact ⟨⟨h.size, h.filled⟩, trivial⟩

/-- A step that does not breaks one of the two laws. -/
lemma step_breaks {a : VolumeAct} (h : s.Inv) (hno : ¬ s.LookupOk a) (hstep : s.next a = some t)
    (hlaw : s.AttributesKept a) : ¬ t.SizeLaw := by
  cases a with
  | lookup K name => exact absurd (lookupOk_of_kept hstep hlaw) hno
  | write_end K pos len copied => exact fun hsize => hno ((write_end_law h hstep).mp hsize)
  | write_begin K pos len => exact absurd trivial hno
  | elsewhere w => exact absurd trivial hno
  | drop => exact absurd trivial hno

end Watched

/-- Over every run of lookups, writes and drops of the dentry, with anything else that leaves the
size alone in between: the size is always the largest of the size at creation and the ends of the
completed writes, and no lookup changes an attribute of a cached inode, if and only if every lookup
that finds the inode in the cache finds it with the size 16 and the times of the lookup, and no
write that the journal refuses goes beyond the end of the file. -/
theorem lookups_keep_iff (s : Watched) (hs : s.volume.inode = none)
    (tr : List (VolumeAct × Watched)) (hrun : (System.ofPartial Watched.next).Run s tr) :
    System.Always Watched.SizeLaw s tr ∧ System.Along Watched.AttributesKept s tr ↔
      System.Along Watched.LookupOk s tr := by
  have hinv : s.Inv := by
    constructor
    · intro hsome
      rw [hs] at hsome
      cases hsome
    · intro n hn
      cases hs.symm.trans hn
  exact hrun.always_and_along_iff (fun s h => h.size) (fun s a t => Watched.step_keeps)
    (fun s a t => Watched.step_breaks) hinv

/-- Nothing of the file is cached. -/
def Watched.start : Watched :=
  ⟨⟨none, false, World.cold⟩, 0, []⟩

def LookupOutcomes.now (time : ℕ) : LookupOutcomes :=
  ⟨true, fun _ => time⟩

/-- The condition where no write reaches beyond the end of the file. -/
def Watched.Steady (s : Watched) : VolumeAct → Bool
  | .lookup K _ =>
    match s.volume.inode with
    | some n => s.volume.file.i_size = 16 ∧ n.i_ctime = K.times 1 ∧ n.i_atime = K.times 2
    | none => true
  | .write_end _ pos len copied =>
    pos + copiedTo (s.volume.file.pages (pos / PAGE_CACHE_SIZE)) len copied ≤ s.volume.file.i_size
  | _ => true

lemma Watched.Steady.lookupOk {s : Watched} {a : VolumeAct} (h : s.Steady a = true) :
    s.LookupOk a := by
  cases a with
  | lookup K name =>
    intro _ n hn
    rw [Steady, hn] at h
    exact of_decide_eq_true h
  | write_end K pos len copied => exact Or.inl (of_decide_eq_true h)
  | _ => exact trivial

/-- A lookup, a write of ten bytes, a drop of the dentry, and another lookup within the same tick of
the clock. -/
theorem lookups_keep_iff_again :
    ∃ tr, (System.ofPartial Watched.next).Run Watched.start tr ∧
      tr.map Prod.fst = [.lookup (.now 1) "UUID", .write_begin Outcomes.fine 0 10,
        .write_end Outcomes.fine 0 10 10, .drop, .lookup (.now 1) "UUID"] ∧
      System.Always Watched.SizeLaw Watched.start tr ∧
      System.Along Watched.AttributesKept Watched.start tr := by
  have h : (System.final (System.checked Watched.next fun s a => s.Steady a = true) Watched.start
      [.lookup (.now 1) "UUID", .write_begin Outcomes.fine 0 10, .write_end Outcomes.fine 0 10 10,
        .drop, .lookup (.now 1) "UUID"]).isSome := by
    decide +kernel
  obtain ⟨tr, hrun, hacts, halong⟩ := System.exists_run_along h
  have hok : System.Along Watched.LookupOk Watched.start tr :=
    halong.mono fun _ _ hsteady => Watched.Steady.lookupOk hsteady
  exact ⟨tr, hrun, hacts, (lookups_keep_iff Watched.start rfl tr hrun).mpr hok⟩

/-- A write of 20 bytes between two lookups: the second one cuts the file to 16 bytes. -/
theorem lookup_truncates :
    ∃ tr, (System.ofPartial Watched.next).Run Watched.start tr ∧
      tr.map Prod.fst = [.lookup (.now 1) "UUID", .write_begin Outcomes.fine 0 20,
        .write_end Outcomes.fine 0 20 20, .drop, .lookup (.now 2) "UUID"] ∧
      ¬ System.Always Watched.SizeLaw Watched.start tr := by
  refine System.exists_run_not_always (g := fun s => (s.volume.inode.isSome, s.volume.file.i_size,
    s.ends.foldr max s.created)) (r := (true, 16, 20)) (by decide +kernel) ?_
  intro t ht hlaw
  obtain ⟨hsome, hsize, hmax⟩ : t.volume.inode.isSome = true ∧ t.volume.file.i_size = 16 ∧
      t.ends.foldr max t.created = 20 := by
    simpa only [Prod.mk.injEq] using ht
  have heq := hlaw hsome
  omega

end QuickDevSkeleton.Journal
