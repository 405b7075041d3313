import QuickDevSkeleton.Foundations.Numerals
import QuickDevSkeleton.Kernel.UserCopy

/-!
# The option parser of the kernel

What a file system gets from the kernel to take its mount options apart: `strsep`, `match_token`
with the conversions `%u`, `%o` and `%d`, and `match_int` and `match_octal` on what a conversion has
matched. The numbers are those of `simple_strtoul`, which reads on when they overflow.
-/

namespace QuickDevSkeleton

open Foundations

/-- What the calls of `strsep(&data, ",")` return, one after the other, until it returns `NULL`. -/
def strsep (data : Option (List Char)) : List (List Char) :=
  match data with
  | none => []
  | some s => s.splitOn ','

/-! ### Numbers -/

/-- The base that a numeral shows by how it starts. -/
def shownBase : List Char → ℕ
  | '0' :: x :: c :: _ => if x.toLower = 'x' ∧ (digitVal c).isSome then 16 else 8
  | '0' :: _ => 8
  | _ => 10

/-- Where the digits of a numeral in base `b` start. -/
def digitsOf (b : ℕ) : List Char → List Char
  | '0' :: x :: s => if b = 16 ∧ x.toLower = 'x' then s else '0' :: x :: s
  | s => s

/-- `simple_strtoul(s, &endp, base)`: the number, and the text at `endp`. -/
def simple_strtoul (s : List Char) (base : ℕ) : ℕ × List Char :=
  let b := if base = 0 then shownBase s else base
  let r := readDigits b 0 (digitsOf b s)
  (r.1 % 2 ^ 64, r.2)

/-- `simple_strtol(s, &endp, base)` -/
def simple_strtol (s : List Char) (base : ℕ) : ℤ × List Char :=
  match s with
  | '-' :: s =>
    let r := simple_strtoul s base
    (toLoff (-r.1), r.2)
  | s =>
    let r := simple_strtoul s base
    (toLoff r.1, r.2)

/-- `match_number(s, &result, base)`; `mem`: there is memory for its copy of the text. No number:
it returns an error. -/
def match_number (mem : Bool) (s : List Char) (base : ℕ) : Option ℤ :=
  let val := simple_strtol s base
  if mem = false then none
  else if val.2 = s then none
  else if val.1 < -2 ^ 31 ∨ 2 ^ 31 - 1 < val.1 then none
  else some val.1

def match_int (mem : Bool) (s : List Char) : Option ℤ := match_number mem s 0

def match_octal (mem : Bool) (s : List Char) : Option ℤ := match_number mem s 8

/-! ### Tokens -/

/-- The conversions of a pattern. -/
inductive Conversion where
  | u
  | o
  | d
  deriving DecidableEq

/-- The text behind what a conversion takes. -/
def Conversion.behind : Conversion → List Char → List Char
  | u, s => (simple_strtoul s 0).2
  | o, s => (simple_strtoul s 8).2
  | d, s => (simple_strtol s 0).2

/-- A pattern of a `match_table_t`: a text, and a conversion at its end. -/
structure Pattern where
  text : List Char
  conversion : Option Conversion
  deriving DecidableEq

/-- `match_one(s, p, args)`: the text of `args[0]`, if `s` matches. -/
def match_one (s : List Char) (p : Pattern) : Option (List Char) :=
  match p.conversion with
  | none => if s = p.text then some [] else none
  | some k =>
    if p.text <+: s then
      let arg := s.drop p.text.length
      if k.behind arg = arg then none
      else if k.behind arg = [] then some arg
      else none
    else none

/-- `match_token(s, table, args)`, where the last entry of the table is `err`. -/
def match_token {T : Type} (table : List (T × Pattern)) (err : T) (s : List Char) : T × List Char :=
  match table with
  | [] => (err, [])
  | (token, p) :: table =>
    match match_one s p with
    | some arg => (token, arg)
    | none => match_token table err s

/-! ### Printed numbers are matched -/

variable {n k : ℕ}

lemma digitsOf_of_ne {b : ℕ} (h : b ≠ 16) (s : List Char) : digitsOf b s = s := by
  unfold digitsOf
  split
  · rw [if_neg fun hand => h hand.1]
  · rfl

/-- A decimal numeral, as `%u` and `%d` print it, is taken for one. -/
lemma simple_strtoul_decimal (h : n < 2 ^ 64) :
    simple_strtoul (Nat.toDigits 10 n) 0 = (n, []) := by
  by_cases hzero : n = 0
  · rw [hzero]
    decide
  · have hbase : shownBase (Nat.toDigits 10 n) = 10 := by
      obtain ⟨c, s, hs, hc⟩ := head?_toDigits (by decide) (by decide : 10 ≤ 10) hzero
      rw [hs]
      unfold shownBase
      split
      · next heq => exact absurd (List.cons.inj heq).1 hc
      · next heq => exact absurd (List.cons.inj heq).1 hc
      · rfl
    have hread := readDigits_toDigits (n := n) (by decide : 1 < 10) (by decide) 0
    rw [List.replicate_zero, List.nil_append] at hread
    simp only [simple_strtoul, if_true, hbase, digitsOf_of_ne (by decide : (10 : ℕ) ≠ 16), hread,
      Nat.mod_eq_of_lt h]

lemma simple_strtoul_octal (h : n < 2 ^ 64) :
    simple_strtoul (List.replicate k '0' ++ Nat.toDigits 8 n) 8 = (n, []) := by
  have hread := readDigits_toDigits (n := n) (by decide : 1 < 8) (by decide) k
  simp only [simple_strtoul, if_neg (by decide : ¬ (8 : ℕ) = 0),
    digitsOf_of_ne (by decide : (8 : ℕ) ≠ 16), hread, Nat.mod_eq_of_lt h]

/-- A numeral has no sign. -/
lemma simple_strtol_of_digits {s : List Char} (hs : '-' ∉ s) (base : ℕ) :
    simple_strtol s base = (toLoff (simple_strtoul s base).1, (simple_strtoul s base).2) := by
  unfold simple_strtol
  split
  · exact absurd List.mem_cons_self hs
  · rfl

lemma not_mem_toDigits {b : ℕ} {c : Char} (hb : 1 < b) (hb' : b ≤ 10) (hc : c.isDigit = false) :
    c ∉ Nat.toDigits b n := by
  intro hmem
  rw [Nat.isDigit_of_mem_toDigits (by omega) hb' hmem] at hc
  cases hc

/-- What `match_number` makes of a numeral in full. -/
lemma match_number_of_digits {s : List Char} {base : ℕ} (hs : '-' ∉ s) (hne : s ≠ [])
    (h : simple_strtoul s base = (n, [])) (hn : n < 2 ^ 63) :
    match_number true s base = if n < 2 ^ 31 then some (n : ℤ) else none := by
  have hval : simple_strtol s base = ((n : ℤ), []) := by
    rw [simple_strtol_of_digits hs, h, toLoff_of_small (by omega) (by omega)]
  simp only [match_number, hval, if_neg (by decide : ¬ true = false), if_neg (Ne.symm hne)]
  by_cases hlt : n < 2 ^ 31
  · rw [if_neg (by omega), if_pos hlt]
  · rw [if_pos (by omega), if_neg hlt]

lemma match_int_decimal (h : n < 2 ^ 63) :
    match_int true (Nat.toDigits 10 n) = if n < 2 ^ 31 then some (n : ℤ) else none :=
  match_number_of_digits (not_mem_toDigits (by decide) (by decide) (by decide))
    Nat.toDigits_ne_nil (simple_strtoul_decimal (by omega)) h

lemma match_octal_octal (h : n < 2 ^ 31) :
    match_octal true (List.replicate k '0' ++ Nat.toDigits 8 n) = some (n : ℤ) := by
  have hsign : '-' ∉ List.replicate k '0' ++ Nat.toDigits 8 n := by
    rw [List.mem_append, not_or]
    exact ⟨fun hmem => absurd (List.eq_of_mem_replicate hmem) (by decide),
      not_mem_toDigits (by decide) (by decide) (by decide)⟩
  rw [match_octal, match_number_of_digits hsign
    (List.append_ne_nil_of_right_ne_nil _ Nat.toDigits_ne_nil)
    (simple_strtoul_octal (by omega)) (by omega), if_pos h]

/-- A conversion that takes all of a text matches it. -/
lemma match_one_append {p : Pattern} {q : Conversion} {arg : List Char}
    (hp : p.conversion = some q) (hne : arg ≠ []) (h : q.behind arg = []) :
    match_one (p.text ++ arg) p = some arg := by
  simp only [match_one, hp, List.drop_left, h, if_pos (List.prefix_append p.text arg),
    if_neg (Ne.symm hne), if_true]

/-- Neither of two patterns starts like the other. -/
def Pattern.Apart (p q : Pattern) : Prop :=
  ¬ p.text <+: q.text ∧ ¬ q.text <+: p.text

instance (p q : Pattern) : Decidable (p.Apart q) := inferInstanceAs (Decidable (_ ∧ _))

lemma match_one_eq_none {p q : Pattern} {arg : List Char} (h : p.Apart q) :
    match_one (q.text ++ arg) p = none := by
  have hprefix : ¬ p.text <+: q.text ++ arg := fun hp =>
    (List.prefix_or_prefix_of_prefix hp (List.prefix_append q.text arg)).elim h.1 h.2
  rw [match_one]
  cases p.conversion with
  | none =>
    refine if_neg fun heq => hprefix ?_
    exact heq.symm ▸ List.prefix_rfl
  | some k => exact if_neg hprefix

/-- In a table whose patterns are apart, the entry that a text was made from is found. -/
lemma match_token_of_mem {T : Type} {table : List (T × Pattern)} {err token : T} {p : Pattern}
    {arg : List Char} (htable : table.Pairwise fun x y => x.2.Apart y.2)
    (hmem : (token, p) ∈ table) (h : match_one (p.text ++ arg) p = some arg) :
    match_token table err (p.text ++ arg) = (token, arg) := by
  induction table with
  | nil => cases hmem
  | cons x table ih =>
    obtain ⟨hx, htable⟩ := List.pairwise_cons.mp htable
    rw [match_token]
    rcases List.mem_cons.mp hmem with rfl | hmem
    · rw [h]
    · rw [match_one_eq_none (hx _ hmem)]
      exact ih htable hmem

end QuickDevSkeleton
