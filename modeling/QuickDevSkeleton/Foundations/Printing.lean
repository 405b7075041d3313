import Mathlib.Algebra.Ring.Nat
import Mathlib.Data.Int.Notation
import Mathlib.Data.List.Basic

/-!
# Printing through nested calls

A function that prints is given the place where its text is to start and returns a number, in an
`int`; its caller goes on printing that much further: `ret += f(page + ret)`. What the functions
write is one text as long as each of them returns how many characters it has written.

A function may return a number without having written anything. Such a number is *skipped*: the
next text starts that much further.
-/

namespace Foundations

/-- What a function has printed: the number that it returns, and the texts that it wrote, each with
its offset from the place that the function was given. -/
structure Printed (α : Type*) where
  ret : ℤ
  pieces : List (ℤ × List α)
  deriving DecidableEq

namespace Printed

variable {α : Type*} {w : ℕ}

/-- Nothing is written, and `n` is returned. -/
def silent (n : ℤ) : Printed α := ⟨n, []⟩

/-- `sprintf` prints `t`, and returns its length in an `int`, that is modulo `w`. -/
def text (w : ℕ) (t : List α) : Printed α := ⟨(t.length : ℤ).bmod w, [(0, t)]⟩

/-- Pieces as a caller sees them that gave the place `off`. -/
def moved (off : ℤ) (ps : List (ℤ × List α)) : List (ℤ × List α) :=
  ps.map fun q => (off + q.1, q.2)

/-- `ret += f(page + ret)`, where `f` prints `p`. -/
def call (w : ℕ) (o p : Printed α) : Printed α :=
  ⟨(o.ret + p.ret).bmod w, o.pieces ++ moved o.ret p.pieces⟩

/-- `ret += sprintf(page + ret, ...)`. -/
def sprintf (w : ℕ) (o : Printed α) (t : List α) : Printed α :=
  o.call w (text w t)

/-- Several texts, one after the other. -/
def texts (w : ℕ) (ts : List (List α)) : Printed α :=
  ts.foldl (sprintf w) (silent 0)

/-- The characters, in the order in which they were written. -/
def chars (o : Printed α) : List α := o.pieces.flatMap Prod.snd

/-- The first text is at the place that the function was given. -/
def Starts (o : Printed α) : Prop := ∃ t ps, o.pieces = (0, t) :: ps

/-- The pieces follow each other from the offset on, without a gap and without overlap. -/
def Placed : ℤ → List (ℤ × List α) → Prop
  | _, [] => True
  | off, q :: ps => q.1 = off ∧ Placed (off + q.2.length) ps

/-- The function returns how many characters it wrote, and they are where they should be. -/
def Contiguous (o : Printed α) : Prop :=
  Placed 0 o.pieces ∧ o.ret = o.chars.length

/-- All texts, each with the mark at its end, are in the first `N` places. -/
def Fits (N : ℕ) (o : Printed α) : Prop :=
  ∀ q ∈ o.pieces, 0 ≤ q.1 ∧ q.1 + q.2.length + 1 ≤ N

instance (N : ℕ) (o : Printed α) : Decidable (o.Fits N) :=
  inferInstanceAs (Decidable (∀ q ∈ o.pieces, _))

/-! ### Pieces -/

lemma placed_append {off : ℤ} {ps qs : List (ℤ × List α)} :
    Placed off (ps ++ qs) ↔
      Placed off ps ∧ Placed (off + (ps.flatMap Prod.snd).length) qs := by
  induction ps generalizing off with
  | nil => simp [Placed]
  | cons q ps ih =>
    rw [List.cons_append, Placed, Placed, ih, and_assoc, List.flatMap_cons, List.length_append,
      Int.natCast_add, Int.add_assoc]

lemma placed_moved {off d : ℤ} {ps : List (ℤ × List α)} :
    Placed off (moved d ps) ↔ Placed (off - d) ps := by
  induction ps generalizing off with
  | nil => exact Iff.rfl
  | cons q ps ih =>
    change d + q.1 = off ∧ Placed _ (moved d ps) ↔ q.1 = off - d ∧ _
    rw [ih, show off + (q.2.length : ℤ) - d = off - d + q.2.length by omega]
    exact and_congr_left fun _ => by omega

/-- Every piece of a callee is one of the caller, further on. -/
lemma forall_moved {off : ℤ} {ps : List (ℤ × List α)} {P : ℤ → List α → Prop} :
    (∀ q ∈ moved off ps, P q.1 q.2) ↔ ∀ q ∈ ps, P (off + q.1) q.2 :=
  List.forall_mem_map

lemma ret_silent (n : ℤ) : (silent n : Printed α).ret = n := rfl

lemma ret_call (o p : Printed α) : (o.call w p).ret = (o.ret + p.ret).bmod w := rfl

lemma pieces_call (o p : Printed α) :
    (o.call w p).pieces = o.pieces ++ moved o.ret p.pieces := rfl

lemma pieces_call_silent (o : Printed α) (n : ℤ) : (o.call w (silent n)).pieces = o.pieces :=
  List.append_nil _

@[simp] lemma chars_call (o p : Printed α) : (o.call w p).chars = o.chars ++ p.chars := by
  simp [chars, call, moved, List.flatMap_map]

lemma Starts.call {o : Printed α} (h : o.Starts) (p : Printed α) : (o.call w p).Starts := by
  obtain ⟨t, ps, hps⟩ := h
  exact ⟨t, ps ++ moved o.ret p.pieces, by rw [pieces_call, hps, List.cons_append]⟩

/-- The pieces of a call follow each other if and only if those of the caller do, up to where the
callee starts, and those of the callee. -/
lemma placed_call_iff {o p : Printed α} (hp : p.Starts) :
    Placed 0 (o.call w p).pieces ↔ o.Contiguous ∧ Placed 0 p.pieces := by
  obtain ⟨t, ps, hps⟩ := hp
  have hzero : Placed ((o.chars.length : ℤ) - o.ret) p.pieces ↔
      o.ret = o.chars.length ∧ Placed 0 p.pieces := by
    rw [hps, Placed, Placed]
    constructor
    · rintro ⟨heq, hrest⟩
      have heq' : (o.chars.length : ℤ) - o.ret = 0 := heq.symm
      rw [heq'] at hrest
      exact ⟨by omega, rfl, hrest⟩
    · rintro ⟨heq, -, hrest⟩
      rw [heq, Int.sub_self]
      exact ⟨rfl, hrest⟩
  rw [pieces_call, placed_append, Int.zero_add, placed_moved, Contiguous, and_assoc, ← hzero]
  rfl

lemma starts_texts (t : List α) (ts : List (List α)) : (texts w (t :: ts)).Starts := by
  have h : ∀ (o : Printed α), o.Starts → (ts.foldl (sprintf w) o).Starts := by
    induction ts with
    | nil => exact fun _ h => h
    | cons t ts ih => exact fun o h => ih _ (h.call _)
  exact h _ ⟨t, [], rfl⟩

/-! ### What has been written and what was skipped -/

/-- `o` has written `n` characters and skipped `skip` places, the last `trailing` of them at its
end. -/
structure Tally (w : ℕ) (o : Printed α) (n skip trailing : ℕ) : Prop where
  ret : o.ret = ((n + skip : ℕ) : ℤ).bmod w
  length : o.chars.length = n
  small : 4 * trailing < w
  skipped : Placed 0 o.pieces → skip = trailing
  placed : skip = 0 → 2 * n < w → Placed 0 o.pieces
  inside : 2 * (n + skip) < w →
    ∀ q ∈ o.pieces, 0 ≤ q.1 ∧ q.1 + q.2.length ≤ (n + skip : ℕ)
  reach : ∀ N : ℕ, 4 * N < w → (∀ q ∈ o.pieces, q.1 + q.2.length ≤ (N : ℤ)) →
    n + skip ≤ N + trailing

lemma bmod_natCast {n : ℕ} (h : 2 * n < w) : (n : ℤ).bmod w = n :=
  Int.bmod_eq_of_le_mul_two (by omega) (by omega)

namespace Tally

variable {o p : Printed α} {n n' k k' a a' : ℕ}

lemma silent {m : ℕ} (h : 4 * m < w) : Tally w (silent m : Printed α) 0 m m where
  ret := by
    rw [ret_silent, Nat.zero_add, bmod_natCast (by omega)]
  length := rfl
  small := h
  skipped _ := rfl
  placed _ _ := trivial
  inside _ q hq := nomatch hq
  reach N _ _ := by omega

lemma text (hw : 0 < w) (t : List α) : Tally w (text w t) t.length 0 0 where
  ret := rfl
  length := congrArg List.length (List.append_nil t)
  small := hw
  skipped _ := rfl
  placed _ _ := ⟨rfl, trivial⟩
  inside _ q hq := by
    rw [List.mem_singleton.mp hq]
    exact ⟨Int.le_refl 0, by dsimp only; omega⟩
  reach N _ h := by
    have hend := h (0, t) (List.mem_singleton_self _)
    dsimp only at hend
    omega

/-- The number that is returned, while all is in range. -/
lemma ret_eq (h : Tally w o n k a) (hlt : 2 * (n + k) < w) : o.ret = (n + k : ℕ) := by
  rw [h.ret, bmod_natCast hlt]

/-- What was written is in one piece if and only if nothing was skipped and its length is in the
range of an `int`. -/
lemma contiguous_iff (h : Tally w o n k a) : o.Contiguous ↔ k = 0 ∧ 2 * n < w := by
  have hw : 0 < w := Nat.lt_of_le_of_lt (Nat.zero_le _) h.small
  rw [Contiguous, h.length, h.ret]
  constructor
  · rintro ⟨hplaced, hret⟩
    have hsmall := h.small
    obtain ⟨-, hlt, hdvd⟩ := (Int.bmod_eq_iff hw).mp hret
    have hk : k = 0 := by
      rw [h.skipped hplaced] at hdvd ⊢
      have hdvd' : (w : ℤ) ∣ (a : ℤ) := by
        rw [← Int.dvd_neg]
        convert hdvd using 1
        omega
      exact Nat.eq_zero_of_dvd_of_lt (Int.natCast_dvd_natCast.mp hdvd') (by omega)
    exact ⟨hk, by omega⟩
  · rintro ⟨rfl, hlt⟩
    exact ⟨h.placed rfl hlt, bmod_natCast hlt⟩

/-- Where nothing is skipped at the end, all of the places that were printed or skipped have to be
there. -/
lemma fits_iff (h : Tally w o n k 0) {N : ℕ} (hN : 0 < N) (hNw : 4 * N < w) :
    o.Fits N ↔ n + k + 1 ≤ N := by
  constructor
  · intro hfits
    have hends : ∀ q ∈ o.pieces, q.1 + q.2.length ≤ ((N - 1 : ℕ) : ℤ) := by
      intro q hq
      have := (hfits q hq).2
      omega
    have hreach := h.reach (N - 1) (by omega) hends
    omega
  · intro hle q hq
    obtain ⟨hpos, hend⟩ := h.inside (by omega) q hq
    exact ⟨hpos, by omega⟩

/-! ### The tally of a call -/

/-- A callee that writes nothing. -/
lemma call_silent (h : Tally w o n k a) {m : ℕ} (hm : 4 * (a + m) < w) :
    Tally w (o.call w (.silent m)) n (k + m) (a + m) where
  ret := by
    rw [ret_call, h.ret, ret_silent, Int.bmod_add_bmod]
    congr 1
    omega
  length := by
    rw [chars_call, List.length_append, h.length]
    rfl
  small := hm
  skipped hplaced := by
    rw [pieces_call_silent] at hplaced
    rw [h.skipped hplaced]
  placed hk hlt := by
    rw [pieces_call_silent]
    exact h.placed (by omega) hlt
  inside hlt q hq := by
    rw [pieces_call_silent] at hq
    obtain ⟨hpos, hend⟩ := h.inside (by omega) q hq
    exact ⟨hpos, by omega⟩
  reach N hN hall := by
    rw [pieces_call_silent] at hall
    have := h.reach N hN hall
    omega

/-- A callee that writes from its start on. -/
lemma call (h : Tally w o n k a) (h' : Tally w p n' k' a') (hp : p.Starts) :
    Tally w (o.call w p) (n + n') (k + k') a' where
  ret := by
    rw [ret_call, h.ret, h'.ret, Int.bmod_add_bmod, Int.add_bmod_bmod]
    congr 1
    omega
  length := by rw [chars_call, List.length_append, h.length, h'.length]
  small := h'.small
  skipped hplaced := by
    obtain ⟨hcaller, hcallee⟩ := (placed_call_iff hp).mp hplaced
    rw [(h.contiguous_iff.mp hcaller).1, Nat.zero_add, h'.skipped hcallee]
  placed hk hlt := (placed_call_iff hp).mpr
    ⟨h.contiguous_iff.mpr ⟨by omega, by omega⟩, h'.placed (by omega) (by omega)⟩
  inside hlt := by
    rw [pieces_call, List.forall_mem_append, h.ret_eq (by omega),
      forall_moved (P := fun off t => 0 ≤ off ∧ off + t.length ≤ _)]
    constructor
    · intro q hq
      obtain ⟨hpos, hend⟩ := h.inside (by omega) q hq
      exact ⟨hpos, by omega⟩
    · intro q hq
      obtain ⟨hpos, hend⟩ := h'.inside (by omega) q hq
      exact ⟨by omega, by omega⟩
  reach N hN hall := by
    rw [pieces_call, List.forall_mem_append] at hall
    obtain ⟨hcaller, hcallee⟩ := hall
    have hreach := h.reach N hN hcaller
    have hsmall := h.small
    rw [h.ret_eq (by omega), forall_moved (P := fun off t => off + t.length ≤ (N : ℤ))] at hcallee
    -- the callee starts within the first `N` places
    have hstart : n + k ≤ N := by
      obtain ⟨t, ps, hps⟩ := hp
      have := hcallee (0, t) (by rw [hps]; exact List.mem_cons_self)
      dsimp only at this
      omega
    have hends : ∀ q ∈ p.pieces, q.1 + q.2.length ≤ ((N - (n + k) : ℕ) : ℤ) := by
      intro q hq
      have := hcallee q hq
      omega
    have hrest := h'.reach (N - (n + k)) (by omega) hends
    omega

lemma sprintf (h : Tally w o n k a) (t : List α) :
    Tally w (o.sprintf w t) (n + t.length) k 0 :=
  h.call (text (Nat.lt_of_le_of_lt (Nat.zero_le _) h.small) t) ⟨t, [], rfl⟩

lemma foldl_sprintf (h : Tally w o n k 0) (ts : List (List α)) :
    Tally w (ts.foldl (Printed.sprintf w) o) (n + (ts.map List.length).sum) k 0 := by
  induction ts generalizing o n with
  | nil => exact h
  | cons t ts ih =>
    rw [List.foldl_cons, List.map_cons, List.sum_cons, ← Nat.add_assoc]
    exact ih (h.sprintf t)

lemma texts (hw : 0 < w) (ts : List (List α)) :
    Tally w (texts w ts) (ts.map List.length).sum 0 0 := by
  have h : Tally w (Printed.silent (0 : ℕ) : Printed α) 0 0 0 := Tally.silent hw
  rw [← Nat.zero_add (ts.map List.length).sum]
  exact h.foldl_sprintf ts

lemma call_texts (h : Tally w o n k 0) (ts : List (List α)) :
    Tally w (o.call w (.texts w ts)) (n + (ts.map List.length).sum) k 0 := by
  have hw : 0 < w := Nat.lt_of_le_of_lt (Nat.zero_le _) h.small
  cases ts with
  | nil => exact h.call_silent (m := 0) hw
  | cons t ts => exact h.call (texts hw _) (starts_texts t ts)

end Tally

end Printed

end Foundations
