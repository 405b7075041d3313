import QuickDevSkeleton.Foundations.Exec
import QuickDevSkeleton.Foundations.Heap
import QuickDevSkeleton.Foundations.LinkedList
import QuickDevSkeleton.Kernel.UserCopy

/-!
# Keys behind a spin lock

The keyboard driver of `my_spin.c`: the interrupt handler hangs every key on a list, a read takes
keys from its front. What is done under `my_lock` is executed here pointer by pointer, and crashes
where the kernel would follow a pointer to no live object.
-/

namespace QuickDevSkeleton.KeyQueue

open Foundations

/-- Where a link of a `list_head` points: to the head in `struct mydev`, into a `struct key_dev`, or
to one of the two poisons of a deleted entry. -/
inductive Link where
  | head
  | key (p : ℕ)
  | poison1
  | poison2
  deriving DecidableEq

/-- The links of all list heads, the counter, and the allocated `key_dev`s with their values. Every
key counted has memory of its own, so the `unsigned long` counter does not overflow. -/
structure Mydev where
  links : Links Link
  key_count : ℕ
  keys : Heap UInt8

/-- The object that a link leads to is allocated. -/
def Mydev.live (d : Mydev) : Link → Bool
  | .head => true
  | .key p => (d.keys.cell p).isSome
  | _ => false

/-! ### List operations -/

def list_add_tail (new : Link) : Exec Mydev PUnit :=
  Exec.withState fun d =>
    if d.live (d.links.prev .head) then
      Exec.modify fun d => { d with links := d.links.insertLast new .head }
    else Exec.crash

def list_del (entry : Link) : Exec Mydev PUnit :=
  Exec.withState fun d =>
    if d.live (d.links.prev entry) ∧ d.live (d.links.next entry) then
      Exec.modify fun d => { d with links := d.links.remove entry .poison1 .poison2 }
    else Exec.crash

/-- `pos->key_item.next`. -/
def next (pos : Link) : Exec Mydev Link :=
  Exec.withState fun d => if d.live pos then pure (d.links.next pos) else Exec.crash

/-- `pos->value`: the head is in no `key_dev`. -/
def value : Link → Exec Mydev UInt8
  | .key p => Exec.withState fun d =>
    match d.keys.cell p with
    | some v => pure v
    | none => Exec.crash
  | _ => Exec.crash

def kfree : Link → Exec Mydev PUnit
  | .key p => Exec.withState fun d =>
    if (d.keys.cell p).isSome then Exec.modify fun d => { d with keys := d.keys.free p }
    else Exec.crash
  | _ => Exec.crash

/-! ### The driver -/

/-- The interrupt handler: `alloc` tells whether `kzalloc` succeeds, and `byte` is what `inb` reads.
What precedes the lock concerns a node that nobody else can reach yet. -/
def key_func (alloc : Bool) (byte : UInt8) : Exec Mydev Irqreturn :=
  Exec.withState fun d =>
    if alloc then do
      let tmp := Link.key d.keys.next
      Exec.modify fun d => { d with keys := d.keys.alloc byte, links := d.links.init tmp }
      list_add_tail tmp
      Exec.modify fun d => { d with key_count := d.key_count + 1 }
      pure .IRQ_HANDLED
    else pure .IRQ_NONE

/-- One round of the loop in `my_read`: the byte that goes into `kbuf`. -/
def pop : Exec Mydev UInt8 := do
  let pos ← next .head
  let byte ← value pos
  list_del pos
  kfree pos
  pure byte

/-- The loop in `my_read`. A buffer of `count` bytes could be allocated, so `int i` is wide enough.
-/
def popLoop : ℕ → Exec Mydev (List UInt8)
  | 0 => pure []
  | count + 1 => do
    let byte ← pop
    let bytes ← popLoop count
    pure (byte :: bytes)

/-- How `my_read` leaves the section under the lock: with its result, or with a buffer to copy. -/
inductive Locked where
  | done (ret : ℤ)
  | kbuf (bytes : List UInt8)

/-- `my_read` as far as it holds the lock; `alloc` tells whether `kzalloc` succeeds. -/
def my_read (count : ℕ) (alloc : Bool) : Exec Mydev Locked :=
  Exec.withState fun d =>
    let count := min count d.key_count
    if count = 0 then pure (.done count)
    else if alloc then do
      let bytes ← popLoop count
      Exec.modify fun d => { d with key_count := d.key_count - count }
      pure (.kbuf bytes)
    else pure (.done (-ENOMEM))

/-- The rest of `my_read`; `copied` tells whether `copy_to_user` moves the whole buffer. -/
def copyOut (bytes : List UInt8) (copied : Bool) : ℤ :=
  if copied then bytes.length else -EFAULT

/-- `list_for_each_entry_safe` with the body of `my_exit`. Every round frees a node, so the loop has
at most as many rounds as nodes were ever allocated. -/
def freeLoop : ℕ → Link → Exec Mydev PUnit
  | 0, _ => Exec.crash
  | rounds + 1, pos => do
    let n ← next pos
    if pos = .head then pure ⟨⟩
    else do
      list_del pos
      kfree pos
      freeLoop rounds n

def my_exit : Exec Mydev PUnit :=
  Exec.withState fun d =>
    if d.key_count ≠ 0 then freeLoop (d.keys.next + 1) (d.links.next .head) else pure ⟨⟩

/-- The device after `my_init`. -/
def my_init (links : Links Link) : Mydev where
  links := links.init .head
  key_count := 0
  keys := Heap.empty

/-! ### What the functions do to the queue -/

/-- The list consists of the nodes `ps` with the values `bytes`, and no other node is allocated. -/
structure Mydev.Queued (d : Mydev) (ps : List ℕ) (bytes : List UInt8) : Prop where
  ring : d.links.Ring .head (ps.map .key)
  cells : ps.map d.keys.cell = bytes.map some
  only : ∀ p, d.keys.cell p ≠ none → p ∈ ps

variable {d : Mydev} {p : ℕ} {ps : List ℕ} {byte : UInt8} {bytes : List UInt8}

lemma next_run {pos : Link} (h : d.live pos) : next pos d = (some (d.links.next pos), d) := by
  simp only [next, Exec.withState_run, if_pos h, Exec.pure_run]

lemma value_run (h : d.keys.cell p = some byte) : value (.key p) d = (some byte, d) := by
  simp only [value, Exec.withState_run, h, Exec.pure_run]

lemma list_del_run {entry : Link} (hprev : d.live (d.links.prev entry))
    (hnext : d.live (d.links.next entry)) :
    list_del entry d =
      (some ⟨⟩, { d with links := d.links.remove entry .poison1 .poison2 }) := by
  simp only [list_del, Exec.withState_run, if_pos (And.intro hprev hnext)]
  rfl

lemma kfree_run (h : d.keys.cell p = some byte) :
    kfree (.key p) d = (some ⟨⟩, { d with keys := d.keys.free p }) := by
  simp only [kfree, Exec.withState_run, h, Option.isSome_some, if_true]
  rfl

namespace Mydev.Queued

lemma length_eq (h : d.Queued ps bytes) : ps.length = bytes.length := by
  rw [← List.length_map d.keys.cell, h.cells, List.length_map]

/-- The head and the nodes on the list are allocated. -/
lemma live (h : d.Queued ps bytes) {x : Link} (hx : x ∈ Link.head :: ps.map .key) : d.live x := by
  rcases List.mem_cons.mp hx with rfl | hx
  · rfl
  · obtain ⟨p, hp, rfl⟩ := List.mem_map.mp hx
    have hcell : d.keys.cell p ∈ bytes.map some := h.cells ▸ List.mem_map_of_mem hp
    obtain ⟨byte, -, hbyte⟩ := List.mem_map.mp hcell
    rw [Mydev.live, ← hbyte]
    rfl

lemma nodup (h : d.Queued ps bytes) : ps.Nodup :=
  List.Nodup.of_map _ (List.nodup_cons.mp h.ring.nodup).2

/-- There are no more nodes on the list than were ever allocated. -/
lemma length_le_next (h : d.Queued ps bytes) : ps.length ≤ d.keys.next := by
  have hsub : ps ⊆ List.range d.keys.next := by
    intro p hp
    by_contra hno
    have hnone : d.keys.cell p = none :=
      d.keys.unused p (Nat.le_of_not_lt fun hlt => hno (List.mem_range.mpr hlt))
    have hlive : d.live (.key p) := h.live (List.mem_cons_of_mem _ (List.mem_map_of_mem hp))
    rw [Mydev.live, hnone] at hlive
    cases hlive
  calc ps.length ≤ (List.range d.keys.next).length := h.nodup.length_le_of_subset hsub
    _ = d.keys.next := List.length_range

end Mydev.Queued

/-- The device without its first node. -/
def Mydev.tail (d : Mydev) (p : ℕ) : Mydev :=
  { d with links := d.links.remove (.key p) .poison1 .poison2, keys := d.keys.free p }

lemma Mydev.Queued.tail (h : d.Queued (p :: ps) (byte :: bytes)) : (d.tail p).Queued ps bytes where
  ring := h.ring.remove_first _ _
  cells := by
    have hp : p ∉ ps := (List.nodup_cons.mp h.nodup).1
    have hsame : ∀ q ∈ ps, (d.keys.free p).cell q = d.keys.cell q := fun q hq =>
      d.keys.cell_free_of_ne (ne_of_mem_of_not_mem hq hp)
    change ps.map (d.keys.free p).cell = _
    rw [List.map_congr_left hsame]
    exact (List.cons.inj h.cells).2
  only q hq := by
    by_cases hqp : q = p
    · exact absurd (hqp ▸ d.keys.cell_free p) hq
    · have hcell : d.keys.cell q ≠ none := by
        rw [← d.keys.cell_free_of_ne hqp]
        exact hq
      exact (List.mem_cons.mp (h.only q hcell)).resolve_left hqp

/-- The first node is deleted and freed without a crash. -/
lemma Mydev.Queued.unlink (h : d.Queued (p :: ps) (byte :: bytes)) {α : Type} (f : Exec Mydev α) :
    (do list_del (.key p); kfree (.key p); f) d = f (d.tail p) := by
  have hprev : d.live (d.links.prev (.key p)) := by
    rw [h.ring.path.1.2]
    rfl
  have hnext : d.live (d.links.next (.key p)) := by
    refine h.live ?_
    rcases List.mem_append.mp h.ring.path.2.next_mem with hmem | hmem
    · exact List.mem_cons_of_mem _ (List.mem_cons_of_mem _ hmem)
    · rw [List.mem_singleton.mp hmem]
      exact List.mem_cons_self
  rw [Exec.bind_run_some (list_del_run hprev hnext)]
  exact Exec.bind_run_some (kfree_run (List.cons.inj h.cells).1)

lemma pop_run (h : d.Queued (p :: ps) (byte :: bytes)) : pop d = (some byte, d.tail p) := by
  rw [pop, Exec.bind_run_some (next_run (h.live List.mem_cons_self)), h.ring.next_cons,
    Exec.bind_run_some (value_run (List.cons.inj h.cells).1)]
  exact h.unlink (pure byte)

/-- The loop of `my_read` takes the first keys off the list. -/
lemma popLoop_run {count : ℕ} (h : d.Queued ps bytes) (hle : count ≤ bytes.length) :
    ∃ d', popLoop count d = (some (bytes.take count), d') ∧
      d'.Queued (ps.drop count) (bytes.drop count) ∧ d'.key_count = d.key_count := by
  induction count generalizing d ps bytes with
  | zero => exact ⟨d, rfl, h, rfl⟩
  | succ count ih =>
    cases bytes with
    | nil => cases hle
    | cons byte bytes =>
      cases ps with
      | nil => cases h.length_eq
      | cons p ps =>
        obtain ⟨d', hrun, hd', hcount⟩ := ih h.tail (Nat.le_of_succ_le_succ hle)
        refine ⟨d', ?_, hd', hcount⟩
        rw [popLoop, Exec.bind_run_some (pop_run h), Exec.bind_run_some hrun]
        rfl

/-- The loop of `my_exit` frees all nodes. -/
lemma freeLoop_run {rounds : ℕ} (h : d.Queued ps bytes) (hlt : ps.length < rounds) :
    ∃ d', freeLoop rounds (d.links.next .head) d = (some ⟨⟩, d') ∧ d'.Queued [] [] := by
  induction ps generalizing d bytes rounds with
  | nil =>
    obtain ⟨rounds, rfl⟩ := Nat.exists_eq_succ_of_ne_zero (Nat.ne_of_gt hlt)
    have hnil : bytes = [] := List.length_eq_zero_iff.mp h.length_eq.symm
    rw [h.ring.next_nil, freeLoop, Exec.bind_run_some (next_run rfl), if_pos rfl]
    exact ⟨d, rfl, hnil ▸ h⟩
  | cons p ps ih =>
    obtain ⟨rounds, rfl⟩ := Nat.exists_eq_succ_of_ne_zero (Nat.ne_of_gt (Nat.zero_lt_of_lt hlt))
    cases bytes with
    | nil => cases h.length_eq
    | cons byte bytes =>
      obtain ⟨d', hrun, hd'⟩ := ih h.tail (Nat.lt_of_succ_lt_succ hlt)
      refine ⟨d', ?_, hd'⟩
      have hp : d.live (.key p) := h.live (List.mem_cons_of_mem _ List.mem_cons_self)
      rw [h.ring.next_cons, freeLoop, Exec.bind_run_some (next_run hp), if_neg Link.noConfusion,
        h.unlink, ← hrun]
      rw [← h.ring.next_remove .poison1 .poison2]
      rfl

/-- The next node to be allocated is not on the list. -/
lemma Mydev.Queued.next_not_mem (h : d.Queued ps bytes) :
    Link.key d.keys.next ∉ Link.head :: ps.map .key := by
  intro hmem
  have hlive := h.live hmem
  rw [Mydev.live, d.keys.cell_next] at hlive
  cases hlive

/-- A new node goes to the end of the list. -/
lemma Mydev.Queued.insertLast (h : d.Queued ps bytes) (byte : UInt8) :
    Mydev.Queued { d with
      keys := d.keys.alloc byte
      links := (d.links.init (.key d.keys.next)).insertLast (.key d.keys.next) .head }
      (ps ++ [d.keys.next]) (bytes ++ [byte]) where
  ring := by
    rw [List.map_append]
    exact (h.ring.init h.next_not_mem).insertLast h.next_not_mem
  cells := by
    have hsame : ∀ q ∈ ps, (d.keys.alloc byte).cell q = d.keys.cell q := by
      intro q hq
      have hne : q ≠ d.keys.next := by
        rintro rfl
        exact h.next_not_mem (List.mem_cons_of_mem _ (List.mem_map_of_mem hq))
      exact d.keys.cell_alloc_of_ne byte hne
    rw [List.map_append, List.map_append, List.map_congr_left hsame, h.cells, List.map_singleton,
      Heap.cell_alloc, List.map_singleton]
  only p hp := by
    by_cases hpn : p = d.keys.next
    · rw [hpn]
      exact List.mem_append_right _ List.mem_cons_self
    · have hcell : d.keys.cell p ≠ none := by
        rw [← d.keys.cell_alloc_of_ne byte hpn]
        exact hp
      exact List.mem_append_left _ (h.only p hcell)

/-! ### The driver's functions -/

/-- The list holds the keys `bytes`, and the counter tells how many. -/
def Mydev.Holds (d : Mydev) (bytes : List UInt8) : Prop :=
  (∃ ps, d.Queued ps bytes) ∧ d.key_count = bytes.length

lemma holds_my_init (links : Links Link) : (my_init links).Holds [] :=
  ⟨⟨[], Links.ring_init _ _, rfl, fun _ hp => absurd rfl hp⟩, rfl⟩

lemma key_func_run (h : d.Holds bytes) (byte : UInt8) :
    ∃ d', key_func true byte d = (some .IRQ_HANDLED, d') ∧ d'.Holds (bytes ++ [byte]) := by
  obtain ⟨⟨ps, hq⟩, hcount⟩ := h
  have hins := hq.insertLast byte
  let d₁ := { d with keys := d.keys.alloc byte, links := d.links.init (.key d.keys.next) }
  have hlast : d₁.live (d₁.links.prev .head) := by
    have hmem := (hq.ring.init hq.next_not_mem).path.prev_mem
    have hlive : ∀ x ∈ Link.head :: ps.map .key, d₁.live x := by
      intro x hx
      refine hins.live ?_
      rw [List.map_append, ← List.cons_append]
      exact List.mem_append_left _ hx
    exact hlive _ hmem
  refine ⟨{ d₁ with
    links := d₁.links.insertLast (.key d.keys.next) .head, key_count := d.key_count + 1 }, ?_,
    ⟨_, hins.ring, hins.cells, hins.only⟩, ?_⟩
  · rw [key_func, Exec.withState_run, if_pos rfl, Exec.modify_bind]
    have hadd : list_add_tail (.key d.keys.next) d₁ =
        (some ⟨⟩, { d₁ with links := d₁.links.insertLast (.key d.keys.next) .head }) := by
      simp only [list_add_tail, Exec.withState_run, if_pos hlast]
      rfl
    rw [Exec.bind_run_some hadd]
    rfl
  · rw [List.length_append, ← hcount]
    rfl

/-- Without memory for a node, or for a buffer, or without a key, nothing happens. -/
lemma key_func_fails (byte : UInt8) : key_func false byte d = (some .IRQ_NONE, d) := rfl

/-- The two ways in which a read leaves the lock: with a result that is not positive, or with the
first keys of the queue. -/
lemma my_read_run (h : d.Holds bytes) (count : ℕ) (alloc : Bool) :
    (∃ ret ≤ 0, my_read count alloc d = (some (.done ret), d)) ∨
      ∃ d' n, my_read count alloc d = (some (.kbuf (bytes.take n)), d') ∧
        d'.Holds (bytes.drop n) ∧ 0 < n ∧ n ≤ bytes.length := by
  obtain ⟨⟨ps, hq⟩, hcount⟩ := h
  by_cases hzero : min count d.key_count = 0
  · refine Or.inl ⟨(min count d.key_count : ℕ), by rw [hzero]; exact le_refl _, ?_⟩
    simp only [my_read, Exec.withState_run, if_pos hzero, Exec.pure_run]
  · cases alloc with
    | false =>
      refine Or.inl ⟨-ENOMEM, by decide, ?_⟩
      simp only [my_read, Exec.withState_run, if_neg hzero]
      rfl
    | true =>
      have hle : min count d.key_count ≤ bytes.length := hcount ▸ Nat.min_le_right _ _
      obtain ⟨d', hrun, hq', hcount'⟩ := popLoop_run hq hle
      refine Or.inr ⟨{ d' with key_count := d'.key_count - min count d.key_count },
        min count d.key_count, ?_, ⟨⟨_, hq'.ring, hq'.cells, hq'.only⟩, ?_⟩,
        Nat.pos_of_ne_zero hzero, hle⟩
      · simp only [my_read, Exec.withState_run, if_neg hzero, if_true]
        rw [Exec.bind_run_some hrun]
        rfl
      · rw [List.length_drop, ← hcount, ← hcount']

/-- After `my_exit` no node is allocated. -/
lemma my_exit_run (h : d.Holds bytes) :
    ∃ d', my_exit d = (some ⟨⟩, d') ∧ ∀ p, d'.keys.cell p = none := by
  obtain ⟨⟨ps, hq⟩, hcount⟩ := h
  have hfree : ∀ d' : Mydev, d'.Queued [] [] → ∀ p, d'.keys.cell p = none := by
    intro d' hq' p
    by_contra hp
    cases hq'.only p hp
  by_cases hzero : d.key_count = 0
  · have hbytes : bytes = [] := List.length_eq_zero_iff.mp (hcount ▸ hzero)
    have hps : ps = [] := List.length_eq_zero_iff.mp (by rw [hq.length_eq, hbytes]; rfl)
    refine ⟨d, ?_, hfree d (hps ▸ hbytes ▸ hq)⟩
    rw [my_exit, Exec.withState_run, if_neg (not_not.mpr hzero)]
    rfl
  · obtain ⟨d', hrun, hq'⟩ := freeLoop_run hq (Nat.lt_succ_of_le hq.length_le_next)
    refine ⟨d', ?_, hfree d' hq'⟩
    rw [my_exit, Exec.withState_run, if_pos hzero, hrun]

end QuickDevSkeleton.KeyQueue
