import Mathlib.Data.List.Basic

/-!
# Executions that can crash

A program on states `σ` runs to a result or crashes; either way it leaves a state, so that
what it did before a crash can still be talked about. `Exec` is the monad of such programs.
The equations below execute a program step by step; `bind_eq_some` takes a finished run
apart, and `Keeps` is the invariant rule, crashes included.
-/

namespace Foundations

/-- A program on states `σ` with results `α`: no result means that it crashed. -/
def Exec (σ α : Type*) := σ → Option α × σ

namespace Exec

universe u v

variable {σ : Type u} {α β γ : Type v}

/-- Run `x`, then `f` on its result, unless `x` crashed. -/
def andThen (x : Exec σ α) (f : α → Exec σ β) : Exec σ β := fun s =>
  match x s with
  | (some a, t) => f a t
  | (none, t) => (none, t)

instance : Monad (Exec σ) where
  pure a := fun s => (some a, s)
  bind := andThen

/-- Apply a function to the state. -/
def modify (f : σ → σ) : Exec σ PUnit := fun s => (some ⟨⟩, f s)

/-- Continue with the current state at hand. -/
def withState (f : σ → Exec σ α) : Exec σ α := fun s => f s s

/-- A null pointer is dereferenced, or an assertion fails. -/
def crash : Exec σ α := fun s => (none, s)

/-! ### Execution -/

variable {s t : σ}

@[simp] lemma pure_run (a : α) : (pure a : Exec σ α) s = (some a, s) := rfl

@[simp] lemma withState_run (f : σ → Exec σ α) : withState f s = f s s := rfl

@[simp] lemma crash_run : (crash : Exec σ α) s = (none, s) := rfl

@[simp] lemma pure_bind (a : α) (f : α → Exec σ β) : (pure a >>= f) = f a := rfl

@[simp] lemma modify_bind (g : σ → σ) (f : PUnit → Exec σ β) :
    (modify g >>= f) s = f ⟨⟩ (g s) := rfl

lemma bind_run_some {x : Exec σ α} {f : α → Exec σ β} {a : α} (h : x s = (some a, t)) :
    (x >>= f) s = f a t := by
  show andThen x f s = f a t
  rw [andThen, h]

lemma bind_run_none {x : Exec σ α} {f : α → Exec σ β} (h : x s = (none, t)) :
    (x >>= f) s = (none, t) := by
  show andThen x f s = (none, t)
  rw [andThen, h]

lemma bind_assoc (x : Exec σ α) (f : α → Exec σ β) (g : β → Exec σ γ) :
    (x >>= f) >>= g = x >>= fun a => f a >>= g := by
  funext s
  rcases h : x s with ⟨_ | a, t⟩
  · rw [bind_run_none h, bind_run_none (bind_run_none h)]
  · rw [bind_run_some h]
    show andThen (x >>= f) g s = andThen (f a) g t
    rw [andThen, andThen, bind_run_some h]

/-- A sequence that finishes has finished its first part. -/
lemma bind_eq_some {x : Exec σ α} {f : α → Exec σ β} {b : β} :
    (x >>= f) s = (some b, t) ↔ ∃ a u, x s = (some a, u) ∧ f a u = (some b, t) := by
  constructor
  · intro h
    rcases hx : x s with ⟨_ | a, u⟩
    · rw [bind_run_none hx] at h
      cases h
    · rw [bind_run_some hx] at h
      exact ⟨a, u, rfl, h⟩
  · rintro ⟨a, u, hx, hf⟩
    rw [bind_run_some hx, hf]

/-- A sequence crashes if its second part crashes whenever the first one finishes. -/
lemma bind_crashes {x : Exec σ α} {f : α → Exec σ β}
    (h : ∀ a t, x s = (some a, t) → (f a t).1 = none) : ((x >>= f) s).1 = none := by
  rcases hx : x s with ⟨_ | a, t⟩
  · rw [bind_run_none hx]
  · rw [bind_run_some hx]
    exact h a t hx

/-- A run is its result and the state it leaves. -/
lemma run_eq {x : Exec σ α} {a : α} (h : (x s).1 = some a) : x s = (some a, (x s).2) :=
  Prod.ext h rfl

/-! ### Invariants -/

/-- `x` keeps `I`, also when it crashes. -/
def Keeps (I : σ → Prop) (x : Exec σ α) : Prop :=
  ∀ s, I s → I (x s).2

namespace Keeps

variable {I : σ → Prop}

lemma pure (a : α) : Keeps I (pure a : Exec σ α) := fun _ h => h

lemma crash : Keeps I (crash : Exec σ α) := fun _ h => h

lemma modify {f : σ → σ} (h : ∀ s, I s → I (f s)) : Keeps I (modify f) := h

lemma withState {f : σ → Exec σ α} (h : ∀ s, Keeps I (f s)) : Keeps I (withState f) :=
  fun s hs => h s s hs

lemma ite {p : Prop} [Decidable p] {x y : Exec σ α} (hx : Keeps I x) (hy : Keeps I y) :
    Keeps I (if p then x else y) := by
  split
  · exact hx
  · exact hy

lemma bind {x : Exec σ α} {f : α → Exec σ β} (hx : Keeps I x) (hf : ∀ a, Keeps I (f a)) :
    Keeps I (x >>= f) := by
  intro s hs
  have hu := hx s hs
  rcases h : x s with ⟨_ | a, u⟩
  · rw [bind_run_none h]
    rwa [h] at hu
  · rw [bind_run_some h]
    rw [h] at hu
    exact hf a u hu

end Keeps

/-! ### Records beside the state -/

section

variable {ρ : Type u}

/-- `x`, with a record beside the state, to which `f` is applied. -/
def recorded (f : ρ → ρ) (x : Exec σ α) : Exec (σ × ρ) α := fun s =>
  ((x s.1).1, (x s.1).2, f s.2)

/-- `x`, with a record that is left alone. -/
def beside (x : Exec σ α) : Exec (σ × ρ) α :=
  recorded id x

lemma recorded_run {x : Exec σ α} {a : α} (f : ρ → ρ) (c : ρ) (h : x s = (some a, t)) :
    recorded f x (s, c) = (some a, t, f c) := by
  rw [recorded, h]

/-- What is done beside a record keeps every property of the record. -/
lemma beside_keeps (P : ρ → Prop) (x : Exec σ α) :
    Keeps (fun s => P s.2) (beside x : Exec (σ × ρ) α) :=
  fun _ h => h

lemma beside_run {x : Exec σ α} {a : α} (c : ρ) (h : x s = (some a, t)) :
    beside x (s, c) = (some a, t, c) :=
  recorded_run id c h

/-- `y` does what `x` does, whatever it records. -/
def Records (y : Exec (σ × ρ) α) (x : Exec σ α) : Prop :=
  ∀ s, (y s).1 = (x s.1).1 ∧ (y s).2.1 = (x s.1).2

namespace Records

lemma recorded (f : ρ → ρ) (x : Exec σ α) : Records (recorded f x) x := fun _ => ⟨rfl, rfl⟩

lemma beside (x : Exec σ α) : Records (beside x : Exec (σ × ρ) α) x := fun _ => ⟨rfl, rfl⟩

lemma pure (a : α) : Records (pure a : Exec (σ × ρ) α) (pure a) := fun _ => ⟨rfl, rfl⟩

lemma withState {f : σ × ρ → Exec (σ × ρ) α} {g : σ → Exec σ α}
    (h : ∀ s, Records (f s) (g s.1)) : Records (withState f) (withState g) :=
  fun s => h s s

lemma ite {p : Prop} [Decidable p] {y y' : Exec (σ × ρ) α} {x x' : Exec σ α}
    (h : Records y x) (h' : Records y' x') :
    Records (if p then y else y') (if p then x else x') := by
  split
  · exact h
  · exact h'

lemma bind {y : Exec (σ × ρ) α} {x : Exec σ α} {g : α → Exec (σ × ρ) β} {f : α → Exec σ β}
    (h : Records y x) (hf : ∀ a, Records (g a) (f a)) : Records (y >>= g) (x >>= f) := by
  intro s
  obtain ⟨hres, hstate⟩ := h s
  rcases hx : x s.1 with ⟨_ | a, t⟩
  · rw [hx] at hres hstate
    have hy : y s = (none, (y s).2) := Prod.ext hres rfl
    rw [bind_run_none hx, bind_run_none hy]
    exact ⟨rfl, hstate⟩
  · rw [hx] at hres hstate
    have hy : y s = (some a, (y s).2) := Prod.ext hres rfl
    rw [bind_run_some hx, bind_run_some hy]
    obtain ⟨hres', hstate'⟩ := hf a (y s).2
    rw [hstate] at hres' hstate'
    exact ⟨hres', hstate'⟩

end Records

end

end Exec

end Foundations
