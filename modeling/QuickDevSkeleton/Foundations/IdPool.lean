import Mathlib.Data.Finset.Card
import QuickDevSkeleton.Foundations.System

/-!
# Pools of ids

Ids are handed out for keys `κ`, to each key the lowest one that it does not have. All keys share
one pool: a key is served while the pool holds less than the key's limit. A key with a lower limit
so leaves room for the others, and the keys up to any limit never hold more than that limit, in
whatever order ids are taken and given back.
-/

namespace Foundations.IdPool

variable {κ : Type*} [DecidableEq κ]

/-- What can happen to the ids in use. -/
inductive Step (limit : κ → ℕ) (range : ℕ) (P : Finset (κ × ℕ)) : Finset (κ × ℕ) → Prop
  | idle : Step limit range P P
  | take (k : κ) (n : ℕ) : (k, n) ∉ P → (∀ m < n, (k, m) ∈ P) → n < range → P.card < limit k →
    Step limit range P (insert (k, n) P)
  | give (k : κ) (n : ℕ) : (k, n) ∈ P → Step limit range P (P.erase (k, n))

/-- The pool as a transition system. -/
def system (limit : κ → ℕ) (range : ℕ) : System (Finset (κ × ℕ)) Unit where
  step P _ Q := Step limit range P Q

variable {limit : κ → ℕ} {range : ℕ} {P Q : Finset (κ × ℕ)}

/-- The ids of the keys up to a limit. -/
def upTo (limit : κ → ℕ) (l : ℕ) (P : Finset (κ × ℕ)) : Finset (κ × ℕ) :=
  P.filter fun q => limit q.1 ≤ l

/-- The keys up to each limit are within it. -/
def Within (limit : κ → ℕ) (P : Finset (κ × ℕ)) : Prop := ∀ l, (upTo limit l P).card ≤ l

lemma Step.within (h : Step limit range P Q) (hP : Within limit P) : Within limit Q := by
  intro l
  cases h with
  | idle => exact hP l
  | take k n _ _ _ hcard =>
    by_cases hk : limit k ≤ l
    · calc (upTo limit l (insert (k, n) P)).card
          ≤ (insert (k, n) P).card := Finset.card_filter_le _ _
        _ ≤ P.card + 1 := Finset.card_insert_le _ _
        _ ≤ l := Nat.le_trans hcard hk
    · rw [upTo, Finset.filter_insert, if_neg hk]
      exact hP l
  | give k n _ =>
    exact Nat.le_trans (Finset.card_le_card (Finset.filter_subset_filter _ (Finset.erase_subset _ _)))
      (hP l)

/-- Along every run from the empty pool, the keys up to each limit are within it. -/
theorem within_always {tr : List (Unit × Finset (κ × ℕ))}
    (hr : (system limit range).Run ∅ tr) : System.Always (Within limit) ∅ tr :=
  hr.always (fun _ _ _ hP h => Step.within h hP) fun _ => Nat.zero_le _

end Foundations.IdPool
