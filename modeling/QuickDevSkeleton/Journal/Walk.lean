import Mathlib.Algebra.Order.Group.Int
import Mathlib.Algebra.Ring.Int.Defs
import Mathlib.Algebra.Ring.Nat
import Mathlib.Logic.Function.Basic
import QuickDevSkeleton.Foundations.Exec

/-!
# Walking the buffers of a page

`walk_page_buffers` follows `b_this_page` around the ring of the `n` buffers of a page, each
of `b` bytes, and calls `fn` on those that the byte range from `from_` to `to_` touches. The
buffers are numbered from the head on, so that the last one leads back to `0`. Offsets are
32-bit unsigned integers.
-/

namespace QuickDevSkeleton.Journal

open Foundations

variable {σ : Type*}

/-- The loop of `walk_page_buffers`; `fuel` bounds its rounds, and running out of it counts as
a crash. `partial_` is what the pointer of that name points to, `none` when it is `NULL`. -/
def walkLoop (n b from_ to_ : ℕ) (uptodate : σ → ℕ → Bool) (fn : ℕ → Exec σ ℤ) :
    ℕ → ℕ → ℕ → ℤ → Option Bool → Exec σ (ℤ × Option Bool)
  | 0, _, _, _, _ => Exec.crash
  | fuel + 1, bh, block_start, ret, partial_ =>
    if ret = 0 ∧ (bh ≠ 0 ∨ block_start = 0) then
      let next := (bh + 1) % n
      let block_end := (block_start + b) % 2 ^ 32
      if block_end ≤ from_ ∨ block_start ≥ to_ then
        Exec.withState fun s =>
          walkLoop n b from_ to_ uptodate fn fuel next block_end ret
            (if partial_.isSome && !uptodate s bh then some true else partial_)
      else do
        let err ← fn bh
        walkLoop n b from_ to_ uptodate fn fuel next block_end (if ret = 0 then err else ret)
          partial_
    else pure (ret, partial_)

def walk_page_buffers (n b from_ to_ : ℕ) (uptodate : σ → ℕ → Bool) (partial_ : Option Bool)
    (fn : ℕ → Exec σ ℤ) : Exec σ (ℤ × Option Bool) :=
  walkLoop n b from_ to_ uptodate fn (n + 1) 0 0 0 partial_

/-- The range from `from_` to `to_` touches buffer `k`. An empty range in the inside of a
buffer touches it, too. -/
def Touches (b from_ to_ k : ℕ) : Prop :=
  from_ < (k + 1) * b ∧ k * b < to_

instance (b from_ to_ k : ℕ) : Decidable (Touches b from_ to_ k) :=
  inferInstanceAs (Decidable (_ ∧ _))

section

variable {n b from_ to_ : ℕ} {uptodate : σ → ℕ → Bool} {fn : ℕ → Exec σ ℤ}

/-- A program that every callback keeps is kept by the walk. -/
lemma walkLoop_keeps {I : σ → Prop} (h : ∀ k, Exec.Keeps I (fn k)) (fuel bh block_start : ℕ)
    (ret : ℤ) (partial_ : Option Bool) :
    Exec.Keeps I (walkLoop n b from_ to_ uptodate fn fuel bh block_start ret partial_) := by
  induction fuel generalizing bh block_start ret partial_ with
  | zero => exact Exec.Keeps.crash
  | succ fuel ih =>
    rw [walkLoop]
    refine Exec.Keeps.ite (Exec.Keeps.ite ?_ ?_) (Exec.Keeps.pure _)
    · exact Exec.Keeps.withState fun s => ih _ _ _ _
    · exact Exec.Keeps.bind (h bh) fun err => ih _ _ _ _

lemma walk_page_buffers_keeps {I : σ → Prop} (h : ∀ k, Exec.Keeps I (fn k))
    (partial_ : Option Bool) :
    Exec.Keeps I (walk_page_buffers n b from_ to_ uptodate partial_ fn) :=
  walkLoop_keeps h _ _ _ _ _

/-- One round of the loop, at buffer `k`. -/
lemma walkLoop_step (hsize : n * b < 2 ^ 32) {k : ℕ} (hlt : k < n) (fuel : ℕ)
    (partial_ : Option Bool) (s : σ) :
    walkLoop n b from_ to_ uptodate fn (fuel + 1) (k % n) (k * b) 0 partial_ s =
      if Touches b from_ to_ k then
        (fn k >>= fun err =>
          walkLoop n b from_ to_ uptodate fn fuel ((k + 1) % n) ((k + 1) * b) err partial_) s
      else
        walkLoop n b from_ to_ uptodate fn fuel ((k + 1) % n) ((k + 1) * b) 0
          (if partial_.isSome && !uptodate s k then some true else partial_) s := by
  have hgo : (0 : ℤ) = 0 ∧ (k % n ≠ 0 ∨ k * b = 0) := by
    rw [Nat.mod_eq_of_lt hlt]
    rcases Nat.eq_zero_or_pos k with rfl | hpos
    · simp
    · exact ⟨rfl, Or.inl hpos.ne'⟩
  have hend : (k * b + b) % 2 ^ 32 = (k + 1) * b := by
    have hle : (k + 1) * b ≤ n * b := Nat.mul_le_mul_right b hlt
    rw [← Nat.succ_mul]
    exact Nat.mod_eq_of_lt (Nat.lt_of_le_of_lt hle hsize)
  rw [walkLoop, if_pos hgo, hend, Nat.mod_eq_of_lt hlt]
  by_cases htouch : Touches b from_ to_ k
  · have hin : ¬ ((k + 1) * b ≤ from_ ∨ k * b ≥ to_) := by
      rintro (hout | hout)
      · exact absurd htouch.1 (Nat.not_lt.mpr hout)
      · exact absurd htouch.2 (Nat.not_lt.mpr hout)
    rw [if_neg hin, if_pos htouch]
    rfl
  · have hout : (k + 1) * b ≤ from_ ∨ k * b ≥ to_ := by
      rcases Nat.lt_or_ge from_ ((k + 1) * b) with hlo | hlo
      · exact Or.inr (Nat.not_lt.mp fun hhi => htouch ⟨hlo, hhi⟩)
      · exact Or.inl hlo
    rw [if_pos hout, if_neg htouch, Exec.withState_run]

variable {f : ℕ → σ} {r : ℕ → ℤ}

/-- The loop from buffer `k` on, where `f k` is the state it finds and `r k` what `fn` returns
there: it visits all buffers that are left, or stops behind the first with an error. -/
lemma walkLoop_run (uptodate : σ → ℕ → Bool) (hsize : n * b < 2 ^ 32) (hb : 0 < b)
    (hvisit : ∀ k < n, Touches b from_ to_ k → fn k (f k) = (some (r k), f (k + 1)))
    (hskip : ∀ k < n, ¬ Touches b from_ to_ k → f (k + 1) = f k) (d k : ℕ) (hk : k + d = n)
    (hn : 0 < n) (partial_ : Option Bool) :
    (∃ p, walkLoop n b from_ to_ uptodate fn (d + 1) (k % n) (k * b) 0 partial_ (f k) =
          (some (0, p), f n) ∧ ∀ j < n, k ≤ j → Touches b from_ to_ j → r j = 0) ∨
      ∃ j < n, k ≤ j ∧ Touches b from_ to_ j ∧ r j ≠ 0 ∧
        (∀ i < j, k ≤ i → Touches b from_ to_ i → r i = 0) ∧
        ∃ p, walkLoop n b from_ to_ uptodate fn (d + 1) (k % n) (k * b) 0 partial_ (f k) =
          (some (r j, p), f (j + 1)) := by
  induction d generalizing k partial_ with
  | zero =>
    have hkn : k = n := hk
    have hend : ¬ ((0 : ℤ) = 0 ∧ (k % n ≠ 0 ∨ k * b = 0)) := by
      have hne := (Nat.mul_pos hn hb).ne'
      simp [hkn, hne]
    refine Or.inl ⟨partial_, ?_, fun j hj hle => absurd hj (by omega)⟩
    rw [walkLoop, if_neg hend, Exec.pure_run, hkn]
  | succ d ih =>
    have hlt : k < n := by omega
    rw [walkLoop_step hsize hlt]
    by_cases htouch : Touches b from_ to_ k
    · rw [if_pos htouch, Exec.bind_run_some (hvisit k hlt htouch)]
      by_cases hr : r k = 0
      · rw [hr]
        rcases ih (k + 1) (by omega) partial_ with
          ⟨p, hrun, hall⟩ | ⟨j, hj, hkj, htj, hrj, hall, p, hrun⟩
        · refine Or.inl ⟨p, hrun, fun j hj hkj htj => ?_⟩
          rcases hkj.eq_or_lt with rfl | hkj
          · exact hr
          · exact hall j hj hkj htj
        · refine Or.inr ⟨j, hj, by omega, htj, hrj, fun i hi hki hti => ?_, p, hrun⟩
          rcases hki.eq_or_lt with rfl | hki
          · exact hr
          · exact hall i hi hki hti
      · refine Or.inr
          ⟨k, hlt, le_rfl, htouch, hr, fun i hi hki => absurd hi (by omega), partial_, ?_⟩
        rw [walkLoop, if_neg fun hstop => hr hstop.1, Exec.pure_run]
    · rw [if_neg htouch, ← hskip k hlt htouch]
      rcases ih (k + 1) (by omega) _ with ⟨p, hrun, hall⟩ | ⟨j, hj, hkj, htj, hrj, hall, p, hrun⟩
      · refine Or.inl ⟨p, hrun, fun j hj hkj htj => ?_⟩
        rcases hkj.eq_or_lt with rfl | hkj
        · exact absurd htj htouch
        · exact hall j hj hkj htj
      · refine Or.inr ⟨j, hj, by omega, htj, hrj, fun i hi hki hti => ?_, p, hrun⟩
        rcases hki.eq_or_lt with rfl | hki
        · exact absurd hti htouch
        · exact hall i hi hki hti

/-- The walk as a whole. `f k` is the state that buffer `k` finds, and `r k` what `fn` returns
there. -/
lemma walk_page_buffers_run (uptodate : σ → ℕ → Bool) (hsize : n * b < 2 ^ 32) (hn : 0 < n)
    (hb : 0 < b)
    (hvisit : ∀ k < n, Touches b from_ to_ k → fn k (f k) = (some (r k), f (k + 1)))
    (hskip : ∀ k < n, ¬ Touches b from_ to_ k → f (k + 1) = f k) (partial_ : Option Bool) :
    (∃ p, walk_page_buffers n b from_ to_ uptodate partial_ fn (f 0) = (some (0, p), f n) ∧
        ∀ j < n, Touches b from_ to_ j → r j = 0) ∨
      ∃ j < n, Touches b from_ to_ j ∧ r j ≠ 0 ∧ (∀ i < j, Touches b from_ to_ i → r i = 0) ∧
        ∃ p, walk_page_buffers n b from_ to_ uptodate partial_ fn (f 0) =
          (some (r j, p), f (j + 1)) := by
  have hrun := walkLoop_run uptodate hsize hb hvisit hskip n 0 (Nat.zero_add n) hn
    partial_
  simpa only [Nat.zero_mod, Nat.zero_mul, Nat.zero_le, forall_const, true_and,
    walk_page_buffers] using hrun

/-- The loop never clears what `partial_` points to. -/
lemma walkLoop_partial {fuel bh block_start : ℕ} {ret ret' : ℤ} {partial_ : Option Bool} {s t : σ}
    (hrun : walkLoop n b from_ to_ uptodate fn fuel bh block_start ret partial_ s =
      (some (ret', some false), t)) : partial_ = some false := by
  induction fuel generalizing bh block_start ret partial_ s with
  | zero => cases hrun
  | succ fuel ih =>
    rw [walkLoop] at hrun
    by_cases hgo : ret = 0 ∧ (bh ≠ 0 ∨ block_start = 0)
    · rw [if_pos hgo] at hrun
      by_cases hout : (block_start + b) % 2 ^ 32 ≤ from_ ∨ block_start ≥ to_
      · rw [if_pos hout, Exec.withState_run] at hrun
        have hnext := ih hrun
        split_ifs at hnext with hset
        · cases hnext
        · exact hnext
      · rw [if_neg hout] at hrun
        obtain ⟨err, u, -, hrest⟩ := Exec.bind_eq_some.mp hrun
        exact ih hrest
    · rw [if_neg hgo] at hrun
      cases hrun
      rfl

/-- A loop that ends without an error and with `partial_` still clear has found all buffers that
it passed over uptodate. -/
lemma walkLoop_untouched (hsize : n * b < 2 ^ 32)
    (hvisit : ∀ k < n, Touches b from_ to_ k → fn k (f k) = (some (r k), f (k + 1)))
    (hskip : ∀ k < n, ¬ Touches b from_ to_ k → f (k + 1) = f k) (d k : ℕ) (hk : k + d = n)
    {partial_ : Option Bool} {t : σ}
    (hrun : walkLoop n b from_ to_ uptodate fn (d + 1) (k % n) (k * b) 0 partial_ (f k) =
      (some (0, some false), t)) :
    ∀ j < n, k ≤ j → ¬ Touches b from_ to_ j → uptodate (f j) j = true := by
  induction d generalizing k partial_ with
  | zero => exact fun j hj hkj => absurd hj (by omega)
  | succ d ih =>
    have hlt : k < n := by omega
    rw [walkLoop_step hsize hlt] at hrun
    intro j hj hkj hnot
    by_cases htouch : Touches b from_ to_ k
    · rw [if_pos htouch, Exec.bind_run_some (hvisit k hlt htouch)] at hrun
      have hr : r k = 0 := by
        by_contra hr
        rw [walkLoop, if_neg fun hgo => hr hgo.1] at hrun
        exact hr (congrArg Prod.fst (Option.some.inj (congrArg Prod.fst hrun)))
      rw [hr] at hrun
      rcases hkj.eq_or_lt with rfl | hkj
      · exact absurd htouch hnot
      · exact ih (k + 1) (by omega) hrun j hj hkj hnot
    · rw [if_neg htouch] at hrun
      rcases hkj.eq_or_lt with rfl | hkj
      · have hclear := walkLoop_partial hrun
        by_contra hup
        rw [Bool.not_eq_true] at hup
        rw [hup] at hclear
        split_ifs at hclear with hsome
        · cases hclear
        · rw [hclear] at hsome
          exact hsome rfl
      · rw [← hskip k hlt htouch] at hrun
        exact ih (k + 1) (by omega) hrun j hj hkj hnot

lemma walk_page_buffers_untouched (hsize : n * b < 2 ^ 32)
    (hvisit : ∀ k < n, Touches b from_ to_ k → fn k (f k) = (some (r k), f (k + 1)))
    (hskip : ∀ k < n, ¬ Touches b from_ to_ k → f (k + 1) = f k) {partial_ : Option Bool} {t : σ}
    (hrun : walk_page_buffers n b from_ to_ uptodate partial_ fn (f 0) =
      (some (0, some false), t)) {j : ℕ} (hj : j < n) (hnot : ¬ Touches b from_ to_ j) :
    uptodate (f j) j = true := by
  have hloop : walkLoop n b from_ to_ uptodate fn (n + 1) (0 % n) (0 * b) 0 partial_ (f 0) =
      (some (0, some false), t) := by
    rw [Nat.zero_mod, Nat.zero_mul]
    exact hrun
  exact walkLoop_untouched hsize hvisit hskip n 0 (Nat.zero_add n) hloop j hj (Nat.zero_le j) hnot

end

/-! ### What a walk leaves behind -/

section

variable {β : Type*} (L : ℕ → Bool) (g a : ℕ → β) {m k : ℕ}

/-- The values `a`, changed to those of `g` at the places below `m` that `L` selects. -/
def upTo (m : ℕ) : ℕ → β :=
  fun k => if k < m ∧ L k then g k else a k

@[simp] lemma upTo_zero : upTo L g a 0 = a := by
  funext k
  simp [upTo]

lemma upTo_of_lt (hk : k < m) (hL : L k = true) : upTo L g a m k = g k :=
  if_pos ⟨hk, hL⟩

lemma upTo_of_le (hk : m ≤ k) : upTo L g a m k = a k :=
  if_neg fun h => absurd h.1 (Nat.not_lt.mpr hk)

lemma upTo_succ (hL : L m = true) :
    upTo L g a (m + 1) = Function.update (upTo L g a m) m (g m) := by
  funext k
  rcases Nat.lt_trichotomy k m with hk | rfl | hk
  · simp [upTo, Function.update_of_ne hk.ne, hk, Nat.lt_succ_of_lt hk]
  · simp [upTo, hL]
  · simp [upTo, Function.update_of_ne hk.ne', Nat.not_lt.mpr hk.le, Nat.not_lt.mpr hk]

lemma upTo_succ_of_not (hL : L m = false) : upTo L g a (m + 1) = upTo L g a m := by
  funext k
  rcases Nat.lt_trichotomy k m with hk | rfl | hk
  · simp [upTo, hk, Nat.lt_succ_of_lt hk]
  · simp [upTo, hL]
  · simp [upTo, Nat.not_lt.mpr hk.le, Nat.not_lt.mpr hk]

end

end QuickDevSkeleton.Journal
