import Mathlib.Algebra.Order.Group.Int
import QuickDevSkeleton.Foundations.Heap
import QuickDevSkeleton.Foundations.System

/-!
# One inode for all lookups

`example_lookup` of `page_cache_read/inode.c` gets an inode once, keeps it in a global variable, and
hands it out again for every later lookup, without a reference of its own. When every dentry has a
live inode of its superblock, with a reference for every owner.
-/

namespace QuickDevSkeleton.PageCache.Lookup

open Foundations

structure Inode where
  i_sb : ℕ
  i_ino : ℕ
  i_count : ℤ

/-- A dentry, or another holder, that owns a reference to an inode: the superblock it is on, and the
inode. -/
structure Owner where
  isDentry : Bool
  sb : ℕ
  inode : ℕ

/-- The live inodes, the global variable, the owners of references, the mounted superblocks, and how
many superblocks there have been. -/
structure World where
  inodes : Heap Inode
  private_inode : Option ℕ
  owners : List Owner
  supers : List ℕ
  created : ℕ

namespace World

variable (w : World)

/-- The live inode with a number on a superblock. -/
def find_inode (sb ino : ℕ) : Option ℕ :=
  (List.range w.inodes.next).find? fun p =>
    (w.inodes.cell p).any fun i => i.i_sb = sb ∧ i.i_ino = ino

/-- The count of an inode changes by `n`. -/
def count (p : ℕ) (n : ℤ) : World :=
  { w with inodes := w.inodes.modify p fun i => { i with i_count := i.i_count + n } }

/-- A reference to the inode with this number, which is created if it is not there. -/
def iget_locked (sb ino : ℕ) : World × ℕ :=
  match w.find_inode sb ino with
  | some p => (w.count p 1, p)
  | none => ({ w with inodes := w.inodes.alloc ⟨sb, ino, 1⟩ }, w.inodes.next)

def iput (p : ℕ) : World :=
  w.count p (-1)

/-- The dentry takes over a reference from the caller. -/
def d_splice_alias (p sb : ℕ) : World :=
  { w with owners := ⟨true, sb, p⟩ :: w.owners }

/-- A lookup of any name in a directory of the superblock `i_sb`. -/
def example_lookup (i_sb : ℕ) : World :=
  match w.private_inode with
  | some inode => w.d_splice_alias inode i_sb
  | none =>
    let (w, inode) := w.iget_locked i_sb 123
    { w with private_inode := some inode }.d_splice_alias inode i_sb

end World

/-- A mount of a new superblock, a lookup on one, another reference to the inode of the `k`-th
owner, the end of the `k`-th owner (a dentry is dropped, or a holder lets go), the eviction of an
inode without references, or an unmount. -/
inductive Action where
  | mount
  | lookup (sb : ℕ)
  | hold (k : ℕ)
  | drop (k : ℕ)
  | evict (p : ℕ)
  | unmount (sb : ℕ)

namespace World

variable (w : World)

/-- One step. A superblock is unmounted when no dentry and no file is left on it, and its inodes
without references go with it. -/
def next : Action → Option World
  | .mount => some { w with supers := w.created :: w.supers, created := w.created + 1 }
  | .lookup sb => if sb ∈ w.supers then some (w.example_lookup sb) else none
  | .hold k =>
    match w.owners.drop k with
    | o :: _ => some { w.count o.inode 1 with owners := ⟨false, o.sb, o.inode⟩ :: w.owners }
    | [] => none
  | .drop k =>
    match w.owners.drop k with
    | o :: later => some ({ w with owners := w.owners.take k ++ later }.iput o.inode)
    | [] => none
  | .evict p =>
    if (w.inodes.cell p).any fun i => i.i_count = 0 then
      some { w with inodes := w.inodes.free p }
    else none
  | .unmount sb =>
    if sb ∈ w.supers ∧ ∀ o ∈ w.owners, o.sb ≠ sb then
      some { w with
        inodes := w.inodes.sweep fun i => ¬ (i.i_sb = sb ∧ i.i_count = 0)
        supers := w.supers.filter (· ≠ sb) }
    else none

/-- The module is loaded and nothing is mounted. -/
def init : World where
  inodes := Heap.empty
  private_inode := none
  owners := []
  supers := []
  created := 0

/-- How many owners of references an inode has. -/
def refs (p : ℕ) : ℕ :=
  w.owners.countP fun o => o.inode = p

end World

/-- Mounts, lookups and the rest in any order. -/
def lookups : System World Action :=
  System.ofPartial World.next

/-- The inode of every dentry and every other owner is live and on its superblock, and its count is
the number of its owners. -/
def World.Attached (w : World) : Prop :=
  ∀ o ∈ w.owners, ∃ i, w.inodes.cell o.inode = some i ∧ i.i_sb = o.sb ∧ i.i_count = w.refs o.inode

/-- A lookup finds the global variable null. -/
def LookupOk (w : World) : Action → Prop
  | .lookup _ => w.private_inode = none
  | _ => True

/-- What the steps keep: every live inode counts its owners, also one that has none. -/
structure World.Inv (w : World) : Prop where
  counts : ∀ p i, w.inodes.cell p = some i → i.i_count = w.refs p
  live : ∀ o ∈ w.owners, ∃ i, w.inodes.cell o.inode = some i ∧ i.i_sb = o.sb

namespace World

variable {w w' : World} {p sb : ℕ}

lemma Inv.attached (h : w.Inv) : w.Attached := by
  intro o ho
  obtain ⟨i, hcell, hsb⟩ := h.live o ho
  exact ⟨i, hcell, hsb, h.counts o.inode i hcell⟩

/-- The owners and the count of one inode change alike. -/
lemma Inv.count (h : w.Inv) {n : ℤ} {owners : List Owner}
    (hrefs : ∀ q, ((owners.countP fun o => o.inode = q : ℕ) : ℤ) =
      w.refs q + if q = p then n else 0)
    (hlive : ∀ o ∈ owners, ∃ i, w.inodes.cell o.inode = some i ∧ i.i_sb = o.sb) :
    Inv { w.count p n with owners := owners } where
  counts q j hq := by
    refine Eq.trans ?_ (hrefs q).symm
    by_cases hqp : q = p
    · subst hqp
      obtain ⟨i, hcell, rfl⟩ : ∃ i, w.inodes.cell q = some i ∧
          { i with i_count := i.i_count + n } = j := by
        rw [← Option.map_eq_some_iff, ← Heap.cell_modify]
        exact hq
      rw [if_pos rfl, ← h.counts q i hcell]
    · rw [if_neg hqp, add_zero]
      refine h.counts q j ?_
      rw [← hq]
      exact (Heap.cell_modify_of_ne _ _ hqp).symm
  live o ho := by
    obtain ⟨i, hcell, hsb⟩ := hlive o ho
    by_cases hop : o.inode = p
    · refine ⟨{ i with i_count := i.i_count + n }, ?_, hsb⟩
      change (w.inodes.modify p _).cell o.inode = _
      rw [hop, Heap.cell_modify, ← hop, hcell]
      rfl
    · refine ⟨i, ?_, hsb⟩
      rw [← hcell]
      exact Heap.cell_modify_of_ne _ _ hop

lemma countP_cons (o : Owner) (os : List Owner) (p : ℕ) :
    (((o :: os).countP fun o => o.inode = p : ℕ) : ℤ) =
      (os.countP fun o => o.inode = p : ℕ) + if p = o.inode then 1 else 0 := by
  rw [List.countP_cons]
  by_cases hp : p = o.inode
  · simp [hp]
  · simp [hp, Ne.symm hp]

/-- A live inode gets a reference and an owner. -/
lemma Inv.cons (h : w.Inv) {o : Owner} {i : Inode} (hcell : w.inodes.cell o.inode = some i)
    (hsb : i.i_sb = o.sb) : Inv { w.count o.inode 1 with owners := o :: w.owners } := by
  refine h.count (fun q => countP_cons o w.owners q) fun o' ho' => ?_
  rcases List.mem_cons.mp ho' with rfl | ho'
  · exact ⟨i, hcell, hsb⟩
  · exact h.live o' ho'

/-- An owner goes, and puts its reference. -/
lemma Inv.drop (h : w.Inv) {earlier later : List Owner} {o : Owner}
    (howners : w.owners = earlier ++ o :: later) :
    Inv ({ w with owners := earlier ++ later }.iput o.inode) := by
  have hmem : ∀ x ∈ earlier ++ later, x ∈ w.owners := by
    intro x hx
    rw [howners]
    rcases List.mem_append.mp hx with hx | hx
    · exact List.mem_append_left _ hx
    · exact List.mem_append_right _ (List.mem_cons_of_mem o hx)
  refine h.count (fun q => ?_) fun x hx => h.live x (hmem x hx)
  have hq := countP_cons o later q
  rw [refs, howners, List.countP_append, List.countP_append, Int.natCast_add, Int.natCast_add, hq]
  by_cases hqo : q = o.inode
  · simp only [if_pos hqo]
    omega
  · simp only [if_neg hqo]
    omega

/-- An inode that is not live has no owner. -/
lemma Inv.refs_eq_zero (h : w.Inv) (hcell : w.inodes.cell p = none) : w.refs p = 0 := by
  refine List.countP_eq_zero.mpr fun o ho hop => ?_
  obtain ⟨i, hi, -⟩ := h.live o ho
  rw [of_decide_eq_true hop, hcell] at hi
  cases hi

/-- A new inode with one reference and one owner. -/
lemma Inv.alloc (h : w.Inv) (sb ino : ℕ) :
    Inv { w with
      inodes := w.inodes.alloc ⟨sb, ino, 1⟩
      owners := ⟨true, sb, w.inodes.next⟩ :: w.owners } where
  counts q j hq := by
    have hcount := countP_cons ⟨true, sb, w.inodes.next⟩ w.owners q
    refine Eq.trans ?_ hcount.symm
    by_cases hqn : q = w.inodes.next
    · subst hqn
      cases (Heap.cell_alloc w.inodes ⟨sb, ino, 1⟩).symm.trans hq
      have hzero := h.refs_eq_zero w.inodes.cell_next
      rw [refs] at hzero
      rw [hzero, if_pos rfl]
      rfl
    · rw [if_neg hqn, add_zero]
      exact h.counts q j ((Heap.cell_alloc_of_ne _ _ hqn).symm.trans hq)
  live o ho := by
    rcases List.mem_cons.mp ho with rfl | ho
    · exact ⟨_, Heap.cell_alloc _ _, rfl⟩
    · obtain ⟨i, hcell, hsb⟩ := h.live o ho
      refine ⟨i, ?_, hsb⟩
      have hne : o.inode ≠ w.inodes.next := by
        intro heq
        rw [heq, Heap.cell_next] at hcell
        cases hcell
      exact (Heap.cell_alloc_of_ne _ _ hne).trans hcell

lemma find_inode_some {ino : ℕ} (h : w.find_inode sb ino = some p) :
    ∃ i, w.inodes.cell p = some i ∧ i.i_sb = sb := by
  have hany := List.find?_some (p := fun p => (w.inodes.cell p).any fun i : Inode =>
    decide (i.i_sb = sb ∧ i.i_ino = ino)) h
  obtain ⟨i, hcell, hi⟩ := (Option.any_eq_true _ _).mp hany
  exact ⟨i, hcell, (of_decide_eq_true hi).1⟩

/-- The first lookup: the dentry takes over the reference of `iget_locked`. -/
lemma Inv.first_lookup (h : w.Inv) (hnull : w.private_inode = none) (sb : ℕ) :
    (w.example_lookup sb).Inv := by
  simp only [example_lookup, hnull, iget_locked]
  cases hfind : w.find_inode sb 123 with
  | some p =>
    obtain ⟨i, hcell, hsb⟩ := find_inode_some hfind
    have hcons := h.cons (o := ⟨true, sb, p⟩) hcell hsb
    exact ⟨hcons.counts, hcons.live⟩
  | none =>
    have halloc := h.alloc sb 123
    exact ⟨halloc.counts, halloc.live⟩

/-- An inode without references has no owner, so it may go. -/
lemma Inv.unused (h : w.Inv) {i : Inode} (hcell : w.inodes.cell p = some i)
    (hzero : i.i_count = 0) : ∀ o ∈ w.owners, o.inode ≠ p := by
  intro o ho hop
  have hcount := h.counts p i hcell
  rw [hzero] at hcount
  have hrefs : w.refs p = 0 := Int.natCast_eq_zero.mp hcount.symm
  exact List.countP_eq_zero.mp hrefs o ho (decide_eq_true hop)

lemma Inv.evict (h : w.Inv) (hany : (w.inodes.cell p).any (fun i => i.i_count = 0) = true) :
    Inv { w with inodes := w.inodes.free p } where
  counts q j hq := by
    have hqp : q ≠ p := by
      rintro rfl
      cases (Heap.cell_free w.inodes q).symm.trans hq
    exact h.counts q j ((Heap.cell_free_of_ne _ hqp).symm.trans hq)
  live o ho := by
    obtain ⟨i, hcell, hzero⟩ := (Option.any_eq_true _ _).mp hany
    obtain ⟨j, hj, hsb⟩ := h.live o ho
    have hne := h.unused hcell (of_decide_eq_true hzero) o ho
    exact ⟨j, (Heap.cell_free_of_ne _ hne).trans hj, hsb⟩

/-- The inodes of a superblock on which there is no owner go. -/
lemma Inv.unmount (h : w.Inv) (hnone : ∀ o ∈ w.owners, o.sb ≠ sb) :
    Inv { w with
      inodes := w.inodes.sweep fun i => ¬ (i.i_sb = sb ∧ i.i_count = 0)
      supers := w.supers.filter (· ≠ sb) } where
  counts q j hq := h.counts q j (Option.filter_eq_some_iff.mp hq).1
  live o ho := by
    obtain ⟨i, hcell, hsb⟩ := h.live o ho
    refine ⟨i, Option.filter_eq_some_iff.mpr ⟨hcell, decide_eq_true ?_⟩, hsb⟩
    rintro ⟨hi, -⟩
    exact hnone o ho (hsb.symm.trans hi)

/-- The steps that meet the condition keep the invariant. -/
lemma Inv.step {a : Action} (h : w.Inv) (hok : LookupOk w a) (hstep : lookups.step w a w') :
    w'.Inv := by
  have hnext : w.next a = some w' := hstep
  cases a with
  | mount =>
    cases hnext
    exact ⟨h.counts, h.live⟩
  | lookup sb =>
    rw [next] at hnext
    split_ifs at hnext
    cases hnext
    exact h.first_lookup hok sb
  | hold k =>
    rw [next] at hnext
    split at hnext
    · next o later hdrop =>
      cases hnext
      have ho : o ∈ w.owners := List.mem_of_mem_drop (hdrop ▸ List.mem_cons_self)
      obtain ⟨i, hcell, hsb⟩ := h.live o ho
      exact h.cons (o := ⟨false, o.sb, o.inode⟩) hcell hsb
    · cases hnext
  | drop k =>
    rw [next] at hnext
    split at hnext
    · next o later hdrop =>
      cases hnext
      refine h.drop ?_
      rw [← hdrop, List.take_append_drop]
    · cases hnext
  | evict p =>
    rw [next] at hnext
    split_ifs at hnext with hany
    cases hnext
    exact h.evict hany
  | unmount sb =>
    rw [next] at hnext
    split_ifs at hnext with hgone
    cases hnext
    exact h.unmount hgone.2

/-- A later lookup attaches an inode that does not count its new owner, or one that is not live. -/
lemma Inv.not_attached {a : Action} (h : w.Inv) (hno : ¬ LookupOk w a)
    (hstep : lookups.step w a w') : ¬ w'.Attached := by
  intro hattached
  have hnext : w.next a = some w' := hstep
  cases a with
  | lookup sb =>
    obtain ⟨p, hp⟩ := Option.ne_none_iff_exists'.mp hno
    rw [next] at hnext
    split_ifs at hnext
    cases hnext
    simp only [example_lookup, hp] at hattached
    obtain ⟨i, hcell, -, hcount⟩ := hattached ⟨true, sb, p⟩ List.mem_cons_self
    have hbefore : i.i_count = w.refs p := h.counts p i hcell
    have hafter : i.i_count = (w.refs p : ℤ) + if p = p then 1 else 0 :=
      hcount.trans (countP_cons ⟨true, sb, p⟩ w.owners p)
    rw [if_pos rfl] at hafter
    omega
  | mount => exact hno trivial
  | hold k => exact hno trivial
  | drop k => exact hno trivial
  | evict p => exact hno trivial
  | unmount sb => exact hno trivial

lemma inv_init : init.Inv :=
  ⟨fun _ _ h => (nomatch h), fun _ h => (nomatch h)⟩

end World

/-- The runs in which every owner has a live inode of its superblock that counts it are those in
which no lookup finds an inode in the global variable. -/
theorem attached_iff_lookupOk (tr : List (Action × World)) (hrun : lookups.Run World.init tr) :
    System.Always World.Attached World.init tr ↔ System.Along LookupOk World.init tr :=
  hrun.always_iff_along (fun _ h => h.attached) (fun _ _ _ => World.Inv.step)
    (fun _ _ _ => World.Inv.not_attached) World.inv_init

/-- A lookup, its dentry dropped, its inode evicted, and the unmount. -/
theorem attached_iff_lookupOk_once :
    ∃ tr, lookups.Run World.init tr ∧
      tr.map Prod.fst = [.mount, .lookup 0, .drop 0, .evict 0, .unmount 0] ∧
      System.Always World.Attached World.init tr := by
  obtain ⟨w₁, h₁⟩ : ∃ w, World.init.next .mount = some w := ⟨_, rfl⟩
  obtain ⟨w₂, h₂⟩ : ∃ w, w₁.next (.lookup 0) = some w := by
    cases h₁
    exact ⟨_, rfl⟩
  have h : (System.final World.next w₂ [.drop 0, .evict 0, .unmount 0]).isSome := by
    cases h₁
    cases h₂
    decide +kernel
  obtain ⟨tr, hrun, hacts⟩ := System.exists_run_of_isSome h
  have hrun' : lookups.Run World.init ((.mount, w₁) :: (.lookup 0, w₂) :: tr) :=
    .cons h₁ (.cons h₂ hrun)
  refine ⟨_, hrun', by simp [hacts], (attached_iff_lookupOk _ hrun').mpr ⟨trivial, ?_, ?_⟩⟩
  · cases h₁
    rfl
  · refine System.along_of_labels ?_
    rw [hacts]
    simp [LookupOk]

/-- The inode of a lookup is evicted after its dentry was dropped, and the next lookup attaches it
again. -/
theorem evicted_inode_attached :
    ∃ tr, lookups.Run World.init tr ∧
      tr.map Prod.fst = [.mount, .lookup 0, .drop 0, .evict 0, .lookup 0] ∧
      ¬ System.Always World.Attached World.init tr := by
  have h : (System.final World.next World.init
      [.mount, .lookup 0, .drop 0, .evict 0, .lookup 0]).map (fun w =>
        (w.owners.head?.map Owner.inode, (w.inodes.cell 0).isNone)) = some (some 0, true) := by
    decide +kernel
  refine System.exists_run_not_always h fun w hw hattached => ?_
  obtain ⟨hhead, hdead⟩ := Prod.mk.inj hw
  obtain ⟨o, ho, hzero⟩ := Option.map_eq_some_iff.mp hhead
  obtain ⟨i, hcell, -⟩ := hattached o (List.mem_of_mem_head? ho)
  rw [hzero, Option.isNone_iff_eq_none.mp hdead] at hcell
  cases hcell

end QuickDevSkeleton.PageCache.Lookup
