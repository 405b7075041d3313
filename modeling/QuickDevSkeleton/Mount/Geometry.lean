import Mathlib.Data.Nat.Digits.Defs
import QuickDevSkeleton.Foundations.Memory
import QuickDevSkeleton.Mount.Matched

/-!
# The geometry of the journal

What `example_init_journal` passes to `journal_init_dev`, compared with what is stored in the block
that it reads. The function is the same in `fs/journal` and in `fs/jbd2`.
-/

namespace QuickDevSkeleton.Mount

open Foundations

/-- The buffer that `__bread` returns: the address of its data, and the bytes there. -/
structure Block where
  b_data : ℕ
  content : Memory UInt8

/-- The 32-bit value that is stored at a byte of the block, the lowest byte first. -/
def Block.stored (b : Block) (offset : ℕ) : ℕ :=
  Nat.ofDigits 256 ((b.content.read offset 4).map UInt8.toNat)

/-- The outcomes of a mount that reads the block `b`. -/
def Outcomes.reading (K : Outcomes) (b : Block) : Outcomes :=
  { K with bread := some b.b_data }

namespace Jbd2

def example_init_journal (K : Outcomes) (bdev blocksize : ℕ) : Exec World (Option ℕ) :=
  Mount.example_init_journal K bdev blocksize

end Jbd2

/-- The start and the length that `init_journal` passes to `journal_init_dev`, if it gets there:
what becomes of the new journal afterwards has no influence on them. -/
def geometry (init_journal : Outcomes → ℕ → ℕ → Exec World (Option ℕ)) (K : Outcomes)
    (bdev blocksize : ℕ) (w : World) : Option (ℕ × ℕ) :=
  match init_journal { K with sb_read := true, s_nr_users := 1 } bdev blocksize w with
  | (some (some p), w') => (w'.journals p).map fun j => (j.j_start, j.j_len)
  | _ => none

section

variable {K : Outcomes} {bdev blocksize : ℕ} {w w' : World}

/-- The journal is made, and its superblock has one user. -/
structure Outcomes.JournalOk (K : Outcomes) (blocksize : ℕ) : Prop where
  size : K.logical_block_size ≤ blocksize
  bread : K.bread ≠ none
  init : K.journal_init_dev = true
  sb_read : K.sb_read = true
  users : K.s_nr_users = 1

/-- Then it is returned, with the length computed from the address of the block. -/
lemma init_journal_ok {b_data : ℕ} (h : K.JournalOk blocksize) (hread : K.bread = some b_data) :
    example_init_journal K bdev blocksize w = (some (some w.created), { w with
      journals := Function.update w.journals w.created
        (some ⟨bdev, 2, (b_data + 4) % 2 ^ 32, blocksize, false⟩)
      created := w.created + 1 }) := by
  have hinit : ¬ (!K.journal_init_dev) = true := by simp [h.init]
  have hsb : ¬ (!K.sb_read || decide (K.s_nr_users ≠ 1)) = true := by simp [h.sb_read, h.users]
  simp only [example_init_journal, if_neg (not_lt.mpr h.size), hread, if_neg hinit, if_neg hsb]
  rfl

/-- Otherwise `NULL` is returned, and a journal that was made has been destroyed. -/
lemma init_journal_null (bdev : ℕ) (w : World) (h : ¬ K.JournalOk blocksize) :
    ∃ w', example_init_journal K bdev blocksize w = (some none, w') := by
  by_cases hsmall : blocksize < K.logical_block_size
  · exact ⟨w, by simp only [example_init_journal, if_pos hsmall]; rfl⟩
  cases hread : K.bread with
  | none => exact ⟨w, by simp only [example_init_journal, if_neg hsmall, hread]; rfl⟩
  | some b_data =>
    by_cases hinit : (!K.journal_init_dev) = true
    · exact ⟨_, by simp only [example_init_journal, if_neg hsmall, hread, if_pos hinit]; rfl⟩
    · have hsb : (!K.sb_read || decide (K.s_nr_users ≠ 1)) = true := by
        by_contra hno
        refine h ⟨not_lt.mp hsmall, by rw [hread]; exact Option.some_ne_none _, ?_, ?_, ?_⟩
        · simpa using hinit
        · simp only [Bool.or_eq_true, not_or] at hno
          simpa using hno.1
        · simp only [Bool.or_eq_true, not_or] at hno
          simpa using hno.2
      exact ⟨_, by
        simp only [example_init_journal, if_neg hsmall, hread, if_neg hinit, if_pos hsb]; rfl⟩

/-- The length is computed from the address of the block. -/
lemma geometry_eq {b_data : ℕ} (hread : K.bread = some b_data)
    (hsize : K.logical_block_size ≤ blocksize) (hinit : K.journal_init_dev = true) :
    geometry example_init_journal K bdev blocksize w = some (2, (b_data + 4) % 2 ^ 32) := by
  have hok : Outcomes.JournalOk { K with sb_read := true, s_nr_users := 1 } blocksize :=
    ⟨hsize, by rw [hread]; exact Option.some_ne_none _, hinit, rfl, rfl⟩
  rw [geometry, init_journal_ok hok hread]
  simp

/-- A journal that is returned has the geometry that was passed for it. -/
lemma geometry_of_some {p : ℕ}
    (h : example_init_journal K bdev blocksize w = (some (some p), w')) :
    ∃ j, w'.journals p = some j ∧
      geometry example_init_journal K bdev blocksize w = some (j.j_start, j.j_len) := by
  have hok : K.JournalOk blocksize := by
    by_contra hno
    obtain ⟨v, hnull⟩ := init_journal_null bdev w hno
    cases hnull.symm.trans h
  obtain ⟨b_data, hread⟩ := Option.ne_none_iff_exists'.mp hok.bread
  cases (init_journal_ok hok hread).symm.trans h
  exact ⟨_, Function.update_self _ _ _, geometry_eq hread hok.size hok.init⟩

end

/-- The geometry that is passed is the one that is stored: the block after the superblock, and the
32-bit value at byte 4. -/
def Decoded (init_journal : Outcomes → ℕ → ℕ → Exec World (Option ℕ)) (K : Outcomes)
    (bdev blocksize : ℕ) (w : World) (b : Block) : Prop :=
  geometry init_journal (K.reading b) bdev blocksize w = some (2, b.stored 4)

/-- In both filesystems, and whenever `journal_init_dev` is reached, the geometry is decoded from
the block exactly if the address of the stored value, cut to 32 bits, is that value; and two mounts
have the same geometry exactly if their buffers are at the same address up to a multiple of
`2 ^ 32`, whatever is stored there. -/
theorem decoded_iff (init_journal : Outcomes → ℕ → ℕ → Exec World (Option ℕ))
    (hvariant : init_journal = example_init_journal ∨ init_journal = Jbd2.example_init_journal)
    (K K' : Outcomes) (bdev blocksize : ℕ) (w w' : World) (b b' : Block)
    (hsize : K.logical_block_size ≤ blocksize) (hinit : K.journal_init_dev = true)
    (hsize' : K'.logical_block_size ≤ blocksize) (hinit' : K'.journal_init_dev = true) :
    (Decoded init_journal K bdev blocksize w b ↔ (b.b_data + 4) % 2 ^ 32 = b.stored 4) ∧
    (geometry init_journal (K.reading b) bdev blocksize w =
        geometry init_journal (K'.reading b') bdev blocksize w' ↔
      b.b_data % 2 ^ 32 = b'.b_data % 2 ^ 32) := by
  have hsame : init_journal = example_init_journal := by
    rcases hvariant with h | h
    · exact h
    · exact h
  subst hsame
  have hfirst : geometry example_init_journal (K.reading b) bdev blocksize w =
      some (2, (b.b_data + 4) % 2 ^ 32) := geometry_eq rfl hsize hinit
  have hsecond : geometry example_init_journal (K'.reading b') bdev blocksize w' =
      some (2, (b'.b_data + 4) % 2 ^ 32) := geometry_eq rfl hsize' hinit'
  rw [Decoded, hfirst, hsecond]
  constructor
  · simp only [Option.some.injEq, Prod.mk.injEq, true_and]
  · simp only [Option.some.injEq, Prod.mk.injEq, true_and]
    omega

/-- A buffer at address 4096 whose block stores the value 4100. -/
def luckyBlock : Block where
  b_data := 4096
  content x := if x = 4 then 4 else if x = 5 then 16 else 0

theorem decoded_iff_lucky :
    let far : Block := { luckyBlock with b_data := 2 ^ 32 + 4096 }
    Decoded Jbd2.example_init_journal Outcomes.fine 0 1024 World.init luckyBlock ∧
      geometry Jbd2.example_init_journal (Outcomes.fine.reading luckyBlock) 0 1024 World.init =
        geometry Jbd2.example_init_journal (Outcomes.fine.reading far) 0 1024 World.init := by
  intro far
  obtain ⟨hdecoded, hgeometry⟩ := decoded_iff Jbd2.example_init_journal (Or.inr rfl) Outcomes.fine
    Outcomes.fine 0 1024 World.init World.init luckyBlock far (by decide) rfl (by decide) rfl
  exact ⟨hdecoded.mpr (by decide), hgeometry.mpr (by decide)⟩

/-- The same block in a buffer at address 8192: the length is 8196 now. -/
theorem decoded_by_address :
    ¬ Decoded example_init_journal Outcomes.fine 0 1024 World.init
        { luckyBlock with b_data := 8192 } ∧
      geometry example_init_journal (Outcomes.fine.reading luckyBlock) 0 1024 World.init ≠
        geometry example_init_journal (Outcomes.fine.reading { luckyBlock with b_data := 8192 })
          0 1024 World.init := by
  have hsize : Outcomes.fine.logical_block_size ≤ 1024 := by decide
  have hlucky : geometry example_init_journal (Outcomes.fine.reading luckyBlock) 0 1024
      World.init = some (2, (4096 + 4) % 2 ^ 32) := geometry_eq rfl hsize rfl
  have hmoved : geometry example_init_journal
      (Outcomes.fine.reading { luckyBlock with b_data := 8192 }) 0 1024 World.init =
        some (2, (8192 + 4) % 2 ^ 32) := geometry_eq rfl hsize rfl
  rw [Decoded, hlucky, hmoved]
  exact ⟨by decide, by decide⟩

end QuickDevSkeleton.Mount
