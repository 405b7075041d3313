import Mathlib.Algebra.BigOperators.Group.Finset.Piecewise
import Mathlib.Data.Fintype.Basic
import Mathlib.Tactic.Abel
import QuickDevSkeleton.Foundations.System

/-!
# Parties that share a state

Any number of parties, each at a place of its own, act on one shared state, and between their
actions the environment acts on the shared state alone. Two rules reduce a law about all
interleavings to obligations about one action.

`Outline` is a proof outline: an invariant of the shared state, an assertion for every place, and
which places two parties are never at together. An action has to establish the assertion of the
place it leads to, and to leave the assertions of the others alone.

`next_ledger` is for laws that count: what the shared state shows is what the shared state
accounts for and what the places of all parties account for. An action has to balance, whatever
the other parties hold. `ledger_act_iff` is the converse: an action that does not balance breaks
such a law.
-/

namespace Foundations

/-- What a party does at its place, and what the environment does. No result: it is blocked. -/
structure Parties (σ π α ε : Type*) where
  act : σ → π → α → Option (σ × π)
  env : σ → ε → Option σ

namespace Parties

/-- A shared state, and the places of the parties `ι`. -/
structure State (σ π ι : Type*) where
  shared : σ
  place : ι → π

/-- A move: of one party, or of the environment. -/
inductive Move (ι α ε : Type*) where
  | act (i : ι) (a : α)
  | env (e : ε)

/-- Two parties. -/
abbrev Two := Fin 2

def first : Two := 0

def second : Two := 1

variable {σ π α ε ι M : Type*} [DecidableEq ι]

/-- The outcome of a move. -/
def next (P : Parties σ π α ε) (v : State σ π ι) : Move ι α ε → Option (State σ π ι)
  | .act i a =>
    (P.act v.shared (v.place i) a).map fun r => ⟨r.1, Function.update v.place i r.2⟩
  | .env e => (P.env v.shared e).map fun s => ⟨s, v.place⟩

/-- The parties as a transition system. -/
def system (P : Parties σ π α ε) : System (State σ π ι) (Move ι α ε) :=
  System.ofPartial P.next

variable {P : Parties σ π α ε} {v v' : State σ π ι} {i : ι} {a : α} {e : ε}

lemma next_act :
    P.next v (.act i a) = some v' ↔
      ∃ t x, P.act v.shared (v.place i) a = some (t, x) ∧
        v' = ⟨t, Function.update v.place i x⟩ := by
  rw [next, Option.map_eq_some_iff]
  constructor
  · rintro ⟨⟨t, x⟩, h, rfl⟩
    exact ⟨t, x, h, rfl⟩
  · rintro ⟨t, x, h, rfl⟩
    exact ⟨(t, x), h, rfl⟩

lemma next_env :
    P.next v (.env e) = some v' ↔ ∃ t, P.env v.shared e = some t ∧ v' = ⟨t, v.place⟩ := by
  rw [next, Option.map_eq_some_iff]
  constructor
  · rintro ⟨t, h, rfl⟩
    exact ⟨t, h, rfl⟩
  · rintro ⟨t, h, rfl⟩
    exact ⟨t, h, rfl⟩

/-- A law about every place and the shared state, after a move of one party. -/
lemma forall_place_update {Q : π → Prop} {f : ι → π} {x : π} (hx : Q x)
    (hothers : ∀ j, j ≠ i → Q (f j)) (j : ι) : Q (Function.update f i x j) := by
  by_cases hji : j = i
  · rw [hji, Function.update_self]
    exact hx
  · rw [Function.update_of_ne hji]
    exact hothers j hji

/-- A symmetric law about every two places, after a move of one party. -/
lemma pairwise_place_update {R : π → π → Prop} {f : ι → π} {x : π}
    (hsymm : ∀ {y z}, R y z → R z y) (hold : ∀ j k, j ≠ k → R (f j) (f k))
    (hothers : ∀ j, j ≠ i → R x (f j)) (j k : ι) (hjk : j ≠ k) :
    R (Function.update f i x j) (Function.update f i x k) := by
  by_cases hj : j = i
  · subst hj
    rw [Function.update_self, Function.update_of_ne (Ne.symm hjk)]
    exact hothers k (Ne.symm hjk)
  · rw [Function.update_of_ne hj]
    by_cases hk : k = i
    · subst hk
      rw [Function.update_self]
      exact hsymm (hothers j hj)
    · rw [Function.update_of_ne hk]
      exact hold j k hjk

/-! ### Proof outlines -/

/-- An invariant of the shared state, what a party knows at a place, and which two places are
never taken together. -/
structure Outline (σ π : Type*) where
  inv : σ → Prop
  known : σ → π → Prop
  apart : π → π → Prop

namespace Outline

variable (O : Outline σ π)

/-- The outline describes a state. -/
structure Holds (v : State σ π ι) : Prop where
  inv : O.inv v.shared
  known : ∀ i, O.known v.shared (v.place i)
  apart : ∀ i j, i ≠ j → O.apart (v.place i) (v.place j)

/-- The obligations of an outline: each is about one action, and at most one other party. -/
structure Valid (P : Parties σ π α ε) : Prop where
  symm : ∀ {x y}, O.apart x y → O.apart y x
  act : ∀ {s x a t y}, P.act s x a = some (t, y) → O.inv s → O.known s x → O.inv t ∧ O.known t y
  other : ∀ {s x a t y z}, P.act s x a = some (t, y) → O.inv s → O.known s x → O.known s z →
    O.apart x z → O.known t z ∧ O.apart y z
  env : ∀ {s e t}, P.env s e = some t → O.inv s → O.inv t ∧ ∀ z, O.known s z → O.known t z

variable {O}

/-- A valid outline describes the state after a move. -/
theorem Valid.next (h : O.Valid P) {m : Move ι α ε} (hv : O.Holds v) (hm : P.next v m = some v') :
    O.Holds v' := by
  cases m with
  | act i a =>
    obtain ⟨t, y, hact, rfl⟩ := next_act.mp hm
    obtain ⟨hinv, hy⟩ := h.act hact hv.inv (hv.known i)
    have hothers : ∀ j, j ≠ i → O.known t (v.place j) ∧ O.apart y (v.place j) := fun j hj =>
      h.other hact hv.inv (hv.known i) (hv.known j) (hv.apart i j (Ne.symm hj))
    exact ⟨hinv, forall_place_update hy fun j hj => (hothers j hj).1,
      pairwise_place_update h.symm hv.apart fun j hj => (hothers j hj).2⟩
  | env e =>
    obtain ⟨t, henv, rfl⟩ := next_env.mp hm
    obtain ⟨hinv, hknown⟩ := h.env henv hv.inv
    exact ⟨hinv, fun i => hknown _ (hv.known i), hv.apart⟩

/-- A valid outline that describes the first state of a run describes all of them. -/
theorem Valid.always (h : O.Valid P) {tr : List (Move ι α ε × State σ π ι)}
    (hr : P.system.Run v tr) (hv : O.Holds v) : System.Always O.Holds v tr :=
  hr.always (fun _ _ _ hs hstep => h.next hs hstep) hv

end Outline

/-! ### Ledgers -/

section

variable [Fintype ι] [AddCommMonoid M]

/-- What the places of all parties account for. -/
def tally (w : π → M) (f : ι → π) : M := ∑ i, w (f i)

/-- One party's share, and the rest, which does not depend on its place. -/
lemma tally_split (w : π → M) (f : ι → π) (i : ι) :
    ∃ r, tally w f = w (f i) + r ∧ ∀ x, tally w (Function.update f i x) = w x + r := by
  refine ⟨∑ j ∈ Finset.univ.erase i, w (f j), ?_, fun x => ?_⟩
  · exact (Finset.add_sum_erase _ _ (Finset.mem_univ i)).symm
  · rw [tally, ← Finset.add_sum_erase _ _ (Finset.mem_univ i), Function.update_self]
    congr 1
    refine Finset.sum_congr rfl fun j hj => ?_
    rw [Function.update_of_ne (Finset.ne_of_mem_erase hj)]

omit [DecidableEq ι] in
lemma tally_eq_zero {w : π → M} {f : ι → π} (h : ∀ i, w (f i) = 0) : tally w f = 0 :=
  Finset.sum_eq_zero fun i _ => h i

omit [DecidableEq ι] in
lemma exists_of_tally_ne {w : π → ℕ} {f : ι → π} (h : tally w f ≠ 0) : ∃ i, w (f i) ≠ 0 := by
  by_contra hnone
  exact h (tally_eq_zero fun i => not_not.mp fun hi => hnone ⟨i, hi⟩)

/-- A party's share is part of the tally. -/
lemma le_tally (w : π → ℕ) (f : ι → π) (i : ι) : w (f i) ≤ tally w f := by
  obtain ⟨r, hr, -⟩ := tally_split w f i
  exact hr ▸ Nat.le_add_right _ _

/-- So are the shares of two parties. -/
lemma add_le_tally (w : π → ℕ) (f : ι → π) {i j : ι} (h : i ≠ j) :
    w (f i) + w (f j) ≤ tally w f := by
  have hj : j ∈ Finset.univ.erase i := Finset.mem_erase.mpr ⟨Ne.symm h, Finset.mem_univ j⟩
  rw [tally, ← Finset.add_sum_erase _ _ (Finset.mem_univ i), ← Finset.add_sum_erase _ _ hj,
    ← Nat.add_assoc]
  exact Nat.le_add_right _ _

/-- The ledger rule: a move that balances with any rest keeps the books. `c` is what the shared
state shows, `m` and `w` what the shared state and a place account for. -/
theorem next_ledger {c m : σ → M} {w : π → M} {mv : Move ι α ε} (h : P.next v mv = some v')
    (hact : ∀ i a y, P.act v.shared (v.place i) a = some (v'.shared, y) → ∀ r,
      c v.shared = m v.shared + (w (v.place i) + r) → c v'.shared = m v'.shared + (w y + r))
    (henv : ∀ e, P.env v.shared e = some v'.shared → ∀ r,
      c v.shared = m v.shared + r → c v'.shared = m v'.shared + r)
    (hv : c v.shared = m v.shared + tally w v.place) :
    c v'.shared = m v'.shared + tally w v'.place := by
  cases mv with
  | act i a =>
    obtain ⟨t, y, hstep, rfl⟩ := next_act.mp h
    obtain ⟨r, hr, hupdate⟩ := tally_split w v.place i
    rw [hr] at hv
    change c t = m t + tally w (Function.update v.place i y)
    rw [hupdate]
    exact hact i a y hstep r hv
  | env e =>
    obtain ⟨t, hstep, rfl⟩ := next_env.mp h
    exact henv e hstep _ hv

end

section

variable [Fintype ι] [AddCancelCommMonoid M] {c m : σ → M} {w : π → M} {t : σ} {x : π}

/-- A move of one party keeps balanced books balanced if and only if it balances by itself. -/
lemma ledger_act_iff (hv : c v.shared = m v.shared + tally w v.place) :
    c t = m t + tally w (Function.update v.place i x) ↔
      c t + (m v.shared + w (v.place i)) = c v.shared + (m t + w x) := by
  obtain ⟨r, hr, hupdate⟩ := tally_split w v.place i
  rw [hupdate, hv, hr]
  constructor
  · intro h
    rw [h]
    abel
  · intro h
    refine add_right_cancel (b := m v.shared + w (v.place i)) (h.trans ?_)
    abel

end

end Parties

end Foundations
