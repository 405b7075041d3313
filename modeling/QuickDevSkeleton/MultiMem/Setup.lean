import QuickDevSkeleton.MultiMem.Device

/-!
# What a successful `setup_mydev` leaves behind

Each entry of the array points to a structure of its own, whose buffer is empty, has the
size that `buf_lens` asks for, and meets no other buffer.
-/

namespace QuickDevSkeleton.MultiMem

open Foundations

/-- The structure of entry `i`. -/
def World.dev (w : World) (i : ℕ) : Mydev :=
  w.structs (w.multi_devs i)

/-- Entry `i` was set up: both its blocks are in use and its buffer is empty. -/
structure World.Entry (w : World) (buf_lens : ℕ → ℕ) (i : ℕ) : Prop where
  struct_live : ⟨w.multi_devs i, sizeofMydev⟩ ∈ w.slab.live
  buffer_live : ⟨(w.dev i).start, (w.dev i).buf_size⟩ ∈ w.slab.live
  buf_size : (w.dev i).buf_size = bufSize (buf_lens i)
  end_eq : (w.dev i).end_ = (w.dev i).start + (w.dev i).buf_size
  wp_eq : (w.dev i).wp = (w.dev i).start

/-- The first `n` entries were set up, apart from one another. -/
structure World.Ready (w : World) (buf_lens : ℕ → ℕ) (n : ℕ) : Prop where
  entry : ∀ i < n, w.Entry buf_lens i
  distinct : ∀ i < n, ∀ j < n, i ≠ j → w.multi_devs i ≠ w.multi_devs j
  apart : ∀ i < n, ∀ j < n, i ≠ j →
    Block.Apart ⟨(w.dev i).start, (w.dev i).buf_size⟩ ⟨(w.dev j).start, (w.dev j).buf_size⟩

lemma bufSize_bounds (len : ℕ) : 1 ≤ bufSize len ∧ bufSize len ≤ 4096 := by
  unfold bufSize
  split_ifs
  · decide
  · decide
  · omega

section

variable {A : Allocator} {buf_lens : ℕ → ℕ} {w w' : World} {n : ℕ}

lemma kzalloc_run (size : ℕ) (w : World) :
    World.kzalloc A size w = (some (w.slab.kzalloc A size).1,
      { w with
        slab := (w.slab.kzalloc A size).2
        mem := if (w.slab.kzalloc A size).1 = 0 then w.mem
          else w.mem.write (w.slab.kzalloc A size).1 (List.replicate size 0) }) := rfl

/-- The error path does not report success. -/
lemma release_error {num : ℕ} :
    (release_mydev num >>= fun _ => pure (-ENOMEM)) w ≠ (some 0, w') := by
  intro h
  obtain ⟨_, _, -, hret⟩ := Exec.bind_eq_some.mp h
  cases hret

/-- A successful pass through the loop adds one entry: a structure at a new address, apart
from all blocks in use, and a buffer apart from all of these. -/
lemma setupOne_ok {i : ℕ} (h : setupOne A buf_lens i w = (some 0, w')) :
    ∃ p q, w'.multi_devs = Function.update w.multi_devs i p ∧
      w'.structs = Function.update w.structs p
        ⟨q, q + bufSize (buf_lens i), q, bufSize (buf_lens i)⟩ ∧
      w'.slab.live = ⟨q, bufSize (buf_lens i)⟩ :: ⟨p, sizeofMydev⟩ :: w.slab.live ∧
      (∀ b ∈ w.slab.live, Block.Apart ⟨p, sizeofMydev⟩ b) ∧
      ∀ b ∈ w.slab.live, Block.Apart ⟨q, bufSize (buf_lens i)⟩ b := by
  rw [setupOne, Exec.bind_run_some (kzalloc_run _ _), Exec.modify_bind] at h
  split_ifs at h with hp
  · exact absurd h release_error
  rw [Exec.modify_bind, Exec.bind_run_some (kzalloc_run _ _), Exec.modify_bind] at h
  split_ifs at h with hq
  · exact absurd h release_error
  cases h
  rcases Slab.kzalloc_cases (A := A) (s := w.slab) sizeofMydev with ⟨hnull, -⟩ | ⟨-, hlive, hapart⟩
  · exact absurd hnull hp
  rcases Slab.kzalloc_cases (A := A) (s := (w.slab.kzalloc A sizeofMydev).2)
    (bufSize (buf_lens i)) with ⟨hnull, -⟩ | ⟨-, hlive', hapart'⟩
  · exact absurd hnull hq
  rw [hlive] at hlive' hapart'
  refine ⟨(w.slab.kzalloc A sizeofMydev).1,
    ((w.slab.kzalloc A sizeofMydev).2.kzalloc A (bufSize (buf_lens i))).1, ?_, ?_, hlive', hapart,
    fun b hb => hapart' b (List.mem_cons_of_mem _ hb)⟩
  · rfl
  · simp [World.setFields, World.setDev, hp]

/-- The pass adds entry `i` to the entries before it. -/
lemma World.Ready.succ {i : ℕ} (hw : w.Ready buf_lens i)
    (h : setupOne A buf_lens i w = (some 0, w')) : w'.Ready buf_lens (i + 1) := by
  obtain ⟨p, q, hdevs, hstructs, hlive, hp, hq⟩ := setupOne_ok h
  have hnew : ∀ j < i, w.multi_devs j ≠ p := by
    rintro j hj rfl
    have hself := hp _ (hw.entry j hj).struct_live
    simp only [Block.Apart, sizeofMydev] at hself
    omega
  have hold : ∀ j < i, w'.multi_devs j = w.multi_devs j ∧ w'.dev j = w.dev j := by
    intro j hj
    have hj' : w'.multi_devs j = w.multi_devs j := by
      rw [hdevs, Function.update_of_ne (Nat.ne_of_lt hj)]
    refine ⟨hj', ?_⟩
    rw [World.dev, hj', hstructs, Function.update_of_ne (hnew j hj), World.dev]
  have hi : w'.multi_devs i = p := by rw [hdevs, Function.update_self]
  have hdev : w'.dev i = ⟨q, q + bufSize (buf_lens i), q, bufSize (buf_lens i)⟩ := by
    rw [World.dev, hi, hstructs, Function.update_self]
  have happ : ∀ j < i,
      Block.Apart ⟨q, bufSize (buf_lens i)⟩ ⟨(w.dev j).start, (w.dev j).buf_size⟩ :=
    fun j hj => hq _ (hw.entry j hj).buffer_live
  constructor
  · intro j hj
    rcases Nat.lt_succ_iff_lt_or_eq.mp hj with hj | rfl
    · obtain ⟨hptr, hd⟩ := hold j hj
      obtain ⟨h₁, h₂, h₃, h₄, h₅⟩ := hw.entry j hj
      constructor
      · rw [hptr, hlive]
        exact List.mem_cons_of_mem _ (List.mem_cons_of_mem _ h₁)
      · rw [hd, hlive]
        exact List.mem_cons_of_mem _ (List.mem_cons_of_mem _ h₂)
      · rw [hd, h₃]
      · rw [hd, h₄]
      · rw [hd, h₅]
    · constructor
      · simp [hi, hlive]
      · simp [hdev, hlive]
      · rw [hdev]
      · rw [hdev]
      · rw [hdev]
  · intro j hj k hk hjk
    rcases Nat.lt_succ_iff_lt_or_eq.mp hj with hj | rfl <;>
      rcases Nat.lt_succ_iff_lt_or_eq.mp hk with hk | rfl
    · rw [(hold j hj).1, (hold k hk).1]
      exact hw.distinct j hj k hk hjk
    · rw [(hold j hj).1, hi]
      exact hnew j hj
    · rw [(hold k hk).1, hi]
      exact (hnew k hk).symm
    · exact absurd rfl hjk
  · intro j hj k hk hjk
    rcases Nat.lt_succ_iff_lt_or_eq.mp hj with hj | rfl <;>
      rcases Nat.lt_succ_iff_lt_or_eq.mp hk with hk | rfl
    · rw [(hold j hj).2, (hold k hk).2]
      exact hw.apart j hj k hk hjk
    · rw [(hold j hj).2, hdev]
      exact (happ j hj).symm
    · rw [(hold k hk).2, hdev]
      exact happ k hk
    · exact absurd rfl hjk

lemma setupFrom_ok {i : ℕ} (hw : w.Ready buf_lens i)
    (h : setupFrom A buf_lens i n w = (some 0, w')) : w'.Ready buf_lens (i + n) := by
  induction n generalizing i w with
  | zero =>
    cases h
    exact hw
  | succ n ih =>
    obtain ⟨r, u, hone, hrest⟩ := Exec.bind_eq_some.mp h
    split_ifs at hrest with hr
    · cases hrest
      exact absurd rfl hr
    · rw [not_not.mp hr] at hone
      have hdone := ih (hw.succ hone) hrest
      rwa [Nat.add_assoc, Nat.add_comm 1 n] at hdone

/-- After a successful `setup_mydev` all entries are ready. -/
lemma setup_mydev_ok (h : setup_mydev A buf_lens n w = (some 0, w')) : w'.Ready buf_lens n := by
  have hnone : w.Ready buf_lens 0 :=
    ⟨fun _ hi => absurd hi (Nat.not_lt_zero _), fun _ hi => absurd hi (Nat.not_lt_zero _),
      fun _ hi => absurd hi (Nat.not_lt_zero _)⟩
  have hdone := setupFrom_ok hnone h
  rwa [Nat.zero_add] at hdone

end

end QuickDevSkeleton.MultiMem
