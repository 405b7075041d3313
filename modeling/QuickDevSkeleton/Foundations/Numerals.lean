import Mathlib.Data.Nat.Notation
import Mathlib.Logic.Basic

/-!
# Reading numerals

The digits at the start of a text, and the number that they stand for. What `Nat.toDigits` prints
is read back in full, also behind leading zeros.
-/

namespace Foundations

/-- The value of a digit; the letters serve the bases above ten. -/
def digitVal (c : Char) : Option ℕ :=
  if '0' ≤ c ∧ c ≤ '9' then some (c.toNat - '0'.toNat)
  else if 'a' ≤ c.toLower ∧ c.toLower ≤ 'f' then some (c.toLower.toNat - 'a'.toNat + 10)
  else none

/-- Read digits as long as there are some: the number, which continues `n`, and the rest. -/
def readDigits (b : ℕ) : ℕ → List Char → ℕ × List Char
  | n, [] => (n, [])
  | n, c :: s =>
    match digitVal c with
    | some d => if d < b then readDigits b (b * n + d) s else (n, c :: s)
    | none => (n, c :: s)

variable {b n : ℕ} {c : Char} {s : List Char}

lemma digitVal_digitChar {d : ℕ} (h : d < 10) : digitVal d.digitChar = some d := by
  have hall : ∀ d < 10, digitVal (Nat.digitChar d) = some d := by decide
  exact hall d h

lemma readDigits_cons {d : ℕ} (h : digitVal c = some d) (hd : d < b) :
    readDigits b n (c :: s) = readDigits b (b * n + d) s := by
  rw [readDigits, h]
  exact if_pos hd

/-- A digit that is no letter has the value that `Nat.ofDigitChars` gives it. -/
lemma readDigits_digitChars {ds : List Char} (hb : b ≤ 10)
    (h : ∀ c ∈ ds, ∃ d < b, c = Nat.digitChar d) :
    readDigits b n ds = (Nat.ofDigitChars b ds n, []) := by
  induction ds generalizing n with
  | nil => rw [readDigits, Nat.ofDigitChars_nil]
  | cons c ds ih =>
    obtain ⟨d, hd, rfl⟩ := h c List.mem_cons_self
    have hten : d < 10 := Nat.lt_of_lt_of_le hd hb
    rw [readDigits_cons (digitVal_digitChar hten) hd,
      ih fun c hc => h c (List.mem_cons_of_mem _ hc),
      Nat.ofDigitChars_cons_digitChar_of_lt_ten hten]

/-! ### What is printed -/

lemma mem_toDigits (hb : 1 < b) (h : c ∈ Nat.toDigits b n) : ∃ d < b, c = Nat.digitChar d := by
  induction n using Nat.strongRecOn with
  | ind n ih =>
    by_cases hlt : n < b
    · rw [Nat.toDigits_of_lt_base hlt, List.mem_singleton] at h
      exact ⟨n, hlt, h⟩
    · have hle : b ≤ n := Nat.not_lt.mp hlt
      rw [Nat.toDigits_of_base_le hb hle, List.mem_append] at h
      rcases h with h | h
      · exact ih (n / b) (Nat.div_lt_self (by omega) hb) h
      · have hmod : n % b < b := Nat.mod_lt n (by omega)
        exact ⟨n % b, hmod, List.mem_singleton.mp h⟩

/-- A printed number is read back, also from behind zeros. -/
theorem readDigits_toDigits (hb : 1 < b) (hb' : b ≤ 10) (k : ℕ) :
    readDigits b 0 (List.replicate k '0' ++ Nat.toDigits b n) = (n, []) := by
  rw [readDigits_digitChars hb', Nat.ofDigitChars_append, Nat.ofDigitChars_replicate_zero,
    Nat.mul_zero, Nat.ofDigitChars_toDigits hb hb']
  intro c hc
  rcases List.mem_append.mp hc with hc | hc
  · exact ⟨0, by omega, List.eq_of_mem_replicate hc⟩
  · exact mem_toDigits hb hc

/-- Only the numeral of zero starts with a zero. -/
lemma head?_toDigits (hb : 1 < b) (hb' : b ≤ 10) (hn : n ≠ 0) :
    ∃ c s, Nat.toDigits b n = c :: s ∧ c ≠ '0' := by
  induction n using Nat.strongRecOn with
  | ind n ih =>
    by_cases hlt : n < b
    · refine ⟨n.digitChar, [], Nat.toDigits_of_lt_base hlt, fun hzero => ?_⟩
      have hval : digitVal n.digitChar = digitVal (Nat.digitChar 0) := congrArg digitVal hzero
      rw [digitVal_digitChar (by omega), digitVal_digitChar (by omega)] at hval
      exact hn (Option.some.inj hval)
    · have hle : b ≤ n := Nat.not_lt.mp hlt
      have hdiv : n / b ≠ 0 := Nat.ne_of_gt (Nat.div_pos hle (by omega))
      obtain ⟨c, s, hs, hc⟩ := ih (n / b) (Nat.div_lt_self (by omega) hb) hdiv
      exact ⟨c, s ++ [(n % b).digitChar], by rw [Nat.toDigits_of_base_le hb hle, hs]; rfl, hc⟩

end Foundations
