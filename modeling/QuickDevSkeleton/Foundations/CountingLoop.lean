import Mathlib.Data.List.Induction

/-!
# Loops over a counter that wraps

The loop `for (i = 0; i <= max; i++)` with a counter of a machine type, that is modulo `w`. It
visits `0`, ..., `max` and ends if the counter can get beyond `max`, and never ends if it cannot.
Functions that run such loops need not return.
-/

namespace Foundations

variable {α : Type*} {w max : ℕ} {f : α → ℕ → α}

/-- The loop from the counter `i` on, for fewer than `fuel` iterations of its body `f`. -/
def countLoop (w max : ℕ) (f : α → ℕ → α) : ℕ → ℕ → α → Option α
  | 0, _, _ => none
  | fuel + 1, i, a => if i ≤ max then countLoop w max f fuel ((i + 1) % w) (f a i) else some a

/-- A loop that is given more time than it needs ends in the same way. -/
lemma countLoop_mono {n m i : ℕ} {a b : α} (hnm : n ≤ m) (h : countLoop w max f n i a = some b) :
    countLoop w max f m i a = some b := by
  induction n generalizing m i a with
  | zero => cases h
  | succ n ih =>
    obtain ⟨m, rfl⟩ := Nat.exists_eq_succ_of_ne_zero (Nat.ne_of_gt (Nat.zero_lt_of_lt hnm))
    rw [countLoop] at h ⊢
    split at h
    · rw [if_pos ‹_›]
      exact ih (Nat.le_of_succ_le_succ hnm) h
    · rwa [if_neg ‹_›]

lemma countLoop_unique {n m i : ℕ} {a b c : α} (hb : countLoop w max f n i a = some b)
    (hc : countLoop w max f m i a = some c) : b = c := by
  rcases Nat.le_total n m with hnm | hmn
  · exact Option.some.inj ((countLoop_mono hnm hb).symm.trans hc)
  · exact Option.some.inj (hb.symm.trans (countLoop_mono hmn hc))

/-- What the body of a loop keeps, the loop keeps. -/
lemma countLoop_preserves {P : α → Prop} (hf : ∀ a i, P a → P (f a i)) {n i : ℕ} {a b : α}
    (ha : P a) (h : countLoop w max f n i a = some b) : P b := by
  induction n generalizing i a with
  | zero => cases h
  | succ n ih =>
    rw [countLoop] at h
    split at h
    · exact ih (hf a i ha) h
    · cases h
      exact ha

/-- From `i` on, the loop visits the `k` counters up to `max`. -/
lemma countLoop_run {i k : ℕ} (hw : max + 1 < w) (hk : i + k = max + 1) (a : α) :
    countLoop w max f (k + 1) i a = some ((List.range' i k).foldl f a) := by
  induction k generalizing i a with
  | zero =>
    rw [countLoop, if_neg (by omega)]
    rfl
  | succ k ih =>
    have hmod : (i + 1) % w = i + 1 := Nat.mod_eq_of_lt (by omega)
    rw [countLoop, if_pos (by omega), hmod, ih (by omega)]
    rfl

/-- The loop visits `0`, ..., `max`. -/
theorem countLoop_returns (hw : max + 1 < w) (a : α) :
    countLoop w max f (max + 2) 0 a = some ((List.range (max + 1)).foldl f a) := by
  rw [List.range_eq_range']
  exact countLoop_run hw (Nat.zero_add _) a

/-- A counter that cannot get beyond `max` never ends the loop. -/
theorem countLoop_forever (hpos : 0 < w) (hw : w ≤ max + 1) {i : ℕ} (hi : i ≤ max)
    (fuel : ℕ) (a : α) :
    countLoop w max f fuel i a = none := by
  induction fuel generalizing i a with
  | zero => rfl
  | succ fuel ih =>
    rw [countLoop, if_pos hi]
    exact ih (Nat.le_of_lt_succ (Nat.lt_of_lt_of_le (Nat.mod_lt _ hpos) hw)) _

/-- The loop ends if and only if its counter can get beyond `max`. -/
theorem countLoop_terminates_iff (hw : 0 < w) (a : α) :
    (∃ fuel, (countLoop w max f fuel 0 a).isSome) ↔ max + 1 < w := by
  constructor
  · rintro ⟨fuel, h⟩
    by_contra hno
    rw [countLoop_forever hw (Nat.le_of_not_lt hno) (Nat.zero_le max)] at h
    cases h
  · intro h
    exact ⟨max + 2, by rw [countLoop_returns h]; rfl⟩

/-! ### Loops over a list -/

/-- If the body does something for its own element and keeps what it has done for the others, the
loop does it for all of them. -/
lemma foldl_visits {β : Type*} {f : β → α → β} {P : α → β → Prop} {l : List α}
    (hown : ∀ b, ∀ x ∈ l, P x (f b x)) (hkeep : ∀ b, ∀ x ∈ l, ∀ y ∈ l, x ≠ y → P x b → P x (f b y))
    (b : β) : ∀ x ∈ l, P x (l.foldl f b) := by
  induction l using List.reverseRecOn with
  | nil => simp
  | append_singleton l y ih =>
    intro x hx
    have hlast : y ∈ l ++ [y] := List.mem_append_right l (List.mem_singleton_self y)
    rw [List.foldl_append, List.foldl_cons, List.foldl_nil]
    by_cases hxy : x = y
    · rw [hxy]
      exact hown _ y hlast
    · have hmem : x ∈ l := by simpa [hxy] using hx
      have hrest : P x (l.foldl f b) := by
        apply ih
        · exact fun b z hz => hown b z (List.mem_append_left [y] hz)
        · exact fun b z hz z' hz' =>
            hkeep b z (List.mem_append_left [y] hz) z' (List.mem_append_left [y] hz')
        · exact hmem
      exact hkeep _ x hx y hlast hxy hrest

/-! ### Functions that may not return -/

/-- A loop whose iterations return in whatever state they start returns if and only if each of
them does. -/
lemma isSome_foldlM_iff {β : Type*} {f : β → α → Option β} {P : α → Prop}
    (hf : ∀ b a, (f b a).isSome ↔ P a) {l : List α} {b : β} :
    (l.foldlM f b).isSome ↔ ∀ a ∈ l, P a := by
  induction l generalizing b with
  | nil => simp
  | cons a l ih =>
    rw [List.foldlM_cons, List.forall_mem_cons, ← hf b a]
    cases f b a with
    | none => simp
    | some b' => simpa using ih

/-- Where all results are right or none is, a function returns a right one if and only if it
returns. -/
lemma exists_result_iff {f : ℕ → Option α} {P : α → Prop} {E Q : Prop}
    (hreturns : (∃ fuel, (f fuel).isSome) ↔ E) (hright : ∀ fuel a, f fuel = some a → (P a ↔ Q)) :
    (∃ fuel a, f fuel = some a ∧ P a) ↔ E ∧ Q := by
  constructor
  · rintro ⟨fuel, a, hrun, ha⟩
    exact ⟨hreturns.mp ⟨fuel, Option.isSome_of_eq_some hrun⟩, (hright fuel a hrun).mp ha⟩
  · rintro ⟨hends, hq⟩
    obtain ⟨fuel, hsome⟩ := hreturns.mpr hends
    obtain ⟨a, hrun⟩ := Option.isSome_iff_exists.mp hsome
    exact ⟨fuel, a, hrun, (hright fuel a hrun).mpr hq⟩

end Foundations
