import QuickDevSkeleton.Foundations.Memory

/-!
# Kernel memory blocks

`kzalloc` and `kfree` as their callers see them. Where a block is placed, and whether there
is memory for it at all, is up to the allocator; what it promises is that a block it hands
out has a non-null address and meets none that is in use.
-/

namespace QuickDevSkeleton

open Foundations

/-- An allocated block. -/
structure Block where
  addr : ℕ
  size : ℕ
  deriving DecidableEq

/-- Two blocks share no address. -/
def Block.Apart (a b : Block) : Prop :=
  a.addr + a.size ≤ b.addr ∨ b.addr + b.size ≤ a.addr

lemma Block.Apart.symm {a b : Block} (h : a.Apart b) : b.Apart a :=
  h.elim Or.inr Or.inl

/-- The blocks in use, and how many requests were made so far. -/
structure Slab where
  live : List Block
  requests : ℕ

/-- The choices of the allocator: an address for each request, or none when it fails. -/
structure Allocator where
  place : Slab → ℕ → Option ℕ
  nonnull : ∀ {s size a}, place s size = some a → a ≠ 0
  apart : ∀ {s size a}, place s size = some a → ∀ b ∈ s.live, Block.Apart ⟨a, size⟩ b

namespace Slab

variable (A : Allocator) (s : Slab)

/-- `kzalloc(size)`: the address of a new block, `0` for `NULL`. -/
def kzalloc (size : ℕ) : ℕ × Slab :=
  match A.place s size with
  | none => (0, { s with requests := s.requests + 1 })
  | some a => (a, { live := ⟨a, size⟩ :: s.live, requests := s.requests + 1 })

/-- `kfree(p)`: the block at `p` is no longer in use; `NULL` is ignored and any other address
at which no block is in use is an error. -/
def kfree (p : ℕ) : Option Slab :=
  if p = 0 then some s
  else if s.live.any (·.addr = p) then some { s with live := s.live.filter (·.addr ≠ p) }
  else none

variable {A s}

/-- A request fails with the null address, or adds a block apart from all others. -/
lemma kzalloc_cases (size : ℕ) :
    (s.kzalloc A size).1 = 0 ∧ (s.kzalloc A size).2.live = s.live ∨
      (s.kzalloc A size).1 ≠ 0 ∧
      (s.kzalloc A size).2.live = ⟨(s.kzalloc A size).1, size⟩ :: s.live ∧
      ∀ b ∈ s.live, Block.Apart ⟨(s.kzalloc A size).1, size⟩ b := by
  simp only [kzalloc]
  cases h : A.place s size with
  | none => exact Or.inl ⟨rfl, rfl⟩
  | some a => exact Or.inr ⟨A.nonnull h, rfl, A.apart h⟩

/-! ### Blocks and their addresses -/

/-- No block is empty, and no two blocks have one address. -/
structure Sound (s : Slab) : Prop where
  pos : ∀ b ∈ s.live, 0 < b.size
  nodup : (s.live.map Block.addr).Nodup

/-- A new block has an address of its own. -/
lemma Sound.new {l : List Block} {p size : ℕ} (hpos : ∀ b ∈ l, 0 < b.size) (hsize : 0 < size)
    (hapart : ∀ b ∈ l, Block.Apart ⟨p, size⟩ b) : p ∉ l.map Block.addr := by
  intro hmem
  obtain ⟨b, hb, rfl⟩ := List.mem_map.mp hmem
  have hb0 := hpos b hb
  have happ := hapart b hb
  simp only [Block.Apart] at happ
  omega

lemma Sound.kzalloc (h : s.Sound) {size : ℕ} (hsize : 0 < size) :
    (s.kzalloc A size).2.Sound := by
  rcases kzalloc_cases (A := A) (s := s) size with ⟨-, hlive⟩ | ⟨-, hlive, hapart⟩
  · exact ⟨by rw [hlive]; exact h.pos, by rw [hlive]; exact h.nodup⟩
  · constructor
    · rw [hlive]
      exact List.forall_mem_cons.mpr ⟨hsize, h.pos⟩
    · rw [hlive]
      exact List.nodup_cons.mpr ⟨Sound.new h.pos hsize hapart, h.nodup⟩

/-! ### Freeing many blocks -/

/-- `kfree` of each pointer of a list, in order. -/
def kfreeAll (s : Slab) : List ℕ → Option Slab
  | [] => some s
  | p :: ps => (s.kfree p).bind fun s => kfreeAll s ps

/-- What is left when the blocks at the pointers are free. -/
def without (s : Slab) (ps : List ℕ) : Slab :=
  { s with live := s.live.filter fun b => b.addr = 0 ∨ b.addr ∉ ps }

/-- Pointers that are null or lead to different blocks can all be freed. -/
lemma kfreeAll_eq {ps : List ℕ} (hnodup : (ps.filter (· ≠ 0)).Nodup)
    (hlive : ∀ p ∈ ps, p ≠ 0 → p ∈ s.live.map Block.addr) :
    s.kfreeAll ps = some (s.without ps) := by
  induction ps generalizing s with
  | nil => simp [kfreeAll, without]
  | cons p ps ih =>
    by_cases hp : p = 0
    · subst hp
      have hfree : s.kfree 0 = some s := if_pos rfl
      have hsame : s.without (0 :: ps) = s.without ps := by
        have hiff : ∀ b : Block, (b.addr = 0 ∨ b.addr ∉ 0 :: ps) ↔ (b.addr = 0 ∨ b.addr ∉ ps) := by
          intro b
          simp only [List.mem_cons, not_or]
          tauto
        simp only [without, hiff]
      rw [kfreeAll, hfree, Option.bind_some, hsame]
      exact ih (by simpa using hnodup) fun q hq => hlive q (List.mem_cons_of_mem 0 hq)
    · have hfree : s.kfree p = some { s with live := s.live.filter (·.addr ≠ p) } := by
        obtain ⟨b, hb, hbp⟩ := List.mem_map.mp (hlive p List.mem_cons_self hp)
        have hany : s.live.any (·.addr = p) = true :=
          List.any_eq_true.mpr ⟨b, hb, decide_eq_true hbp⟩
        rw [kfree, if_neg hp, if_pos hany]
      have hcons : (p :: ps).filter (· ≠ 0) = p :: ps.filter (· ≠ 0) := by simp [hp]
      rw [hcons] at hnodup
      obtain ⟨hnot, hrest⟩ := List.nodup_cons.mp hnodup
      have hps : p ∉ ps := fun hmem => hnot (List.mem_filter.mpr ⟨hmem, decide_eq_true hp⟩)
      rw [kfreeAll, hfree, Option.bind_some, ih hrest]
      · have hiff : ∀ b : Block, (b.addr = 0 ∨ b.addr ∉ ps) ∧ b.addr ≠ p ↔
            (b.addr = 0 ∨ b.addr ∉ p :: ps) := by
          intro b
          simp only [List.mem_cons, not_or]
          constructor
          · rintro ⟨hzero | hmem, hne⟩
            · exact Or.inl hzero
            · exact Or.inr ⟨hne, hmem⟩
          · rintro (hzero | ⟨hne, hmem⟩)
            · exact ⟨Or.inl hzero, fun heq => hp (heq ▸ hzero)⟩
            · exact ⟨Or.inr hmem, hne⟩
        simp only [without, List.filter_filter, ← Bool.decide_and, hiff]
      · intro q hq hq0
        obtain ⟨b, hb, rfl⟩ := List.mem_map.mp (hlive q (List.mem_cons_of_mem p hq) hq0)
        have hne : b.addr ≠ p := fun heq => hps (heq ▸ hq)
        exact List.mem_map_of_mem (List.mem_filter.mpr ⟨hb, decide_eq_true hne⟩)

end Slab

/-! ### An allocator -/

/-- An address above every block, and not null. -/
def Slab.top : List Block → ℕ
  | [] => 1
  | b :: l => max (b.addr + b.size) (top l)

lemma Slab.top_ne_zero (l : List Block) : top l ≠ 0 := by
  induction l with
  | nil => exact Nat.one_ne_zero
  | cons b l ih =>
    simp only [top]
    omega

lemma Slab.le_top {l : List Block} {b : Block} (h : b ∈ l) : b.addr + b.size ≤ top l := by
  induction l with
  | nil => cases h
  | cons c l ih =>
    rcases List.mem_cons.mp h with rfl | h
    · exact Nat.le_max_left _ _
    · exact Nat.le_trans (ih h) (Nat.le_max_right _ _)

/-- An allocator that never runs out: it places each block above all others. -/
def Allocator.bump : Allocator where
  place s _ := some (Slab.top s.live)
  nonnull h := by
    cases h
    exact Slab.top_ne_zero _
  apart h b hb := by
    cases h
    exact Or.inr (Slab.le_top hb)

end QuickDevSkeleton
