import Mathlib.Data.List.Basic
import Mathlib.Logic.Function.Basic

/-!
# Transition systems

A system takes labelled steps from state to state. A run is recorded as the list of its
labels, each with the state it led to, so that a law about "every state reached" is a law
about the members of that list.

The rules below are the ones that verification of a system rests on: an invariant from its
step lemma (`Run.always`), the same when only the steps that meet a condition keep it
(`Run.always_of_along`), the exact form of that law (`Run.always_iff_along`), and forward
simulation by a function or a relation (`Run.simulate`, `Run.simulate_rel`).
-/

namespace Foundations

/-- A transition system on states `σ` with step labels `α`. -/
structure System (σ α : Type*) where
  step : σ → α → σ → Prop

namespace System

variable {σ τ α β ι ρ : Type*}

/-- `S.Run s tr`: from `s`, the system can take the steps of `tr`, one after the other. -/
inductive Run (S : System σ α) : σ → List (α × σ) → Prop where
  | nil (s : σ) : Run S s []
  | cons {s t : σ} {a : α} {tr : List (α × σ)} (h : S.step s a t) (hr : Run S t tr) :
      Run S s ((a, t) :: tr)

/-- Every state of a run, the first one included, satisfies `P`. -/
def Always (P : σ → Prop) (s : σ) (tr : List (α × σ)) : Prop :=
  P s ∧ ∀ x ∈ tr, P x.2

/-- Every step of a run meets `ok`, a condition on the state before it and its label. -/
def Along (ok : σ → α → Prop) : σ → List (α × σ) → Prop
  | _, [] => True
  | s, (a, t) :: tr => ok s a ∧ Along ok t tr

/-- The state that a run ends in. -/
def last : σ → List (α × σ) → σ
  | s, [] => s
  | _, (_, t) :: tr => last t tr

variable {S : System σ α} {s t : σ} {a : α} {tr : List (α × σ)}

@[simp] lemma always_nil {P : σ → Prop} : Always P s ([] : List (α × σ)) ↔ P s := by
  simp [Always]

@[simp] lemma always_cons {P : σ → Prop} :
    Always P s ((a, t) :: tr) ↔ P s ∧ Always P t tr := by
  simp [Always]

@[simp] lemma along_nil {ok : σ → α → Prop} : Along ok s [] := trivial

@[simp] lemma along_cons {ok : σ → α → Prop} :
    Along ok s ((a, t) :: tr) ↔ ok s a ∧ Along ok t tr := Iff.rfl

lemma last_concat : last s (tr ++ [(a, t)]) = t := by
  induction tr generalizing s with
  | nil => rfl
  | cons x tr ih => exact ih

lemma Always.last {P : σ → Prop} (h : Always P s tr) : P (last s tr) := by
  induction tr generalizing s with
  | nil => exact always_nil.mp h
  | cons x tr ih => exact ih (always_cons.mp h).2

lemma Always.mono {P Q : σ → Prop} (h : ∀ s, P s → Q s) (hP : Always P s tr) :
    Always Q s tr :=
  ⟨h s hP.1, fun x hx => h x.2 (hP.2 x hx)⟩

/-- A law about the abstract states of a run. -/
lemma always_map {P : τ → Prop} {abs : σ → τ} {lab : α → β} :
    Always P (abs s) (tr.map (Prod.map lab abs)) ↔ Always (fun s => P (abs s)) s tr :=
  and_congr_right fun _ => List.forall_mem_map

lemma Along.mono {ok ok' : σ → α → Prop} (h : ∀ s a, ok s a → ok' s a) (hok : Along ok s tr) :
    Along ok' s tr := by
  induction tr generalizing s with
  | nil => exact along_nil
  | cons x tr ih =>
    obtain ⟨hx, htr⟩ := along_cons.mp hok
    exact along_cons.mpr ⟨h s x.1 hx, ih htr⟩

/-- A condition that the labels of a run meet wherever they occur. -/
lemma along_of_labels {ok : σ → α → Prop} (h : ∀ a ∈ tr.map Prod.fst, ∀ s, ok s a) :
    Along ok s tr := by
  induction tr generalizing s with
  | nil => exact along_nil
  | cons x tr ih =>
    exact along_cons.mpr ⟨h x.1 List.mem_cons_self s,
      ih fun a ha => h a (List.mem_cons_of_mem x.1 ha)⟩

namespace Run

/-- A property that every allowed step keeps holds along a run of allowed steps. -/
theorem always_of_along {I : σ → Prop} {ok : σ → α → Prop}
    (hstep : ∀ s a t, I s → ok s a → S.step s a t → I t)
    (hr : S.Run s tr) (hs : I s) (hok : Along ok s tr) : Always I s tr := by
  induction hr with
  | nil s => exact always_nil.mpr hs
  | cons h _ ih =>
    obtain ⟨ha, htr⟩ := along_cons.mp hok
    exact always_cons.mpr ⟨hs, ih (hstep _ _ _ hs ha h) htr⟩

/-- A condition that follows from another one wherever an invariant holds. -/
theorem along_of_along {I : σ → Prop} {ok ok' : σ → α → Prop}
    (hstep : ∀ s a t, I s → ok s a → S.step s a t → I t) (himp : ∀ s a, I s → ok s a → ok' s a)
    (hr : S.Run s tr) (hs : I s) (hok : Along ok s tr) : Along ok' s tr := by
  induction hr with
  | nil s => exact along_nil
  | cons h _ ih =>
    obtain ⟨ha, htr⟩ := along_cons.mp hok
    exact along_cons.mpr ⟨himp _ _ hs ha, ih (hstep _ _ _ hs ha h) htr⟩

/-- The invariant rule: a property that every step keeps holds along every run. -/
theorem always {I : σ → Prop} (hstep : ∀ s a t, I s → S.step s a t → I t)
    (hr : S.Run s tr) (hs : I s) : Always I s tr := by
  induction hr with
  | nil s => exact always_nil.mpr hs
  | cons h _ ih => exact always_cons.mpr ⟨hs, ih (hstep _ _ _ hs h)⟩

/-- A law about states and one about steps, which together come to the condition `ok` on the steps:
the runs that obey both are the runs of steps that meet `ok`. -/
theorem always_and_along_iff {I P : σ → Prop} {law ok : σ → α → Prop} (hIP : ∀ s, I s → P s)
    (hkeep : ∀ s a t, I s → ok s a → S.step s a t → I t ∧ law s a)
    (hbreak : ∀ s a t, I s → ¬ ok s a → S.step s a t → law s a → ¬ P t)
    (hr : S.Run s tr) (hs : I s) : Always P s tr ∧ Along law s tr ↔ Along ok s tr := by
  induction hr with
  | nil s => simp [hIP s hs]
  | @cons s t a tr h _ ih =>
    rw [always_cons, along_cons, along_cons]
    constructor
    · rintro ⟨⟨_, hall⟩, hlaw, halong⟩
      have ha : ok s a := by
        by_contra hno
        exact hbreak s a t hs hno h hlaw hall.1
      exact ⟨ha, (ih (hkeep s a t hs ha h).1).mp ⟨hall, halong⟩⟩
    · rintro ⟨ha, htr⟩
      obtain ⟨ht, hlaw⟩ := hkeep s a t hs ha h
      obtain ⟨hall, halong⟩ := (ih ht).mpr htr
      exact ⟨⟨hIP s hs, hall⟩, hlaw, halong⟩

/-- The exact form of the invariant rule: when a step that does not meet `ok` breaks `P` at
once, the runs along which `P` holds are the runs of steps that meet `ok`. -/
theorem always_iff_along {I P : σ → Prop} {ok : σ → α → Prop} (hIP : ∀ s, I s → P s)
    (hkeep : ∀ s a t, I s → ok s a → S.step s a t → I t)
    (hbreak : ∀ s a t, I s → ¬ ok s a → S.step s a t → ¬ P t)
    (hr : S.Run s tr) (hs : I s) : Always P s tr ↔ Along ok s tr := by
  have htrue : Along (fun _ _ => True) s tr := along_of_labels fun _ _ _ => trivial
  have hiff : Always P s tr ∧ Along (fun _ _ => True) s tr ↔ Along ok s tr :=
    hr.always_and_along_iff hIP (fun s a t hs ha h => ⟨hkeep s a t hs ha h, trivial⟩)
      (fun s a t hs hno h _ => hbreak s a t hs hno h) hs
  rwa [and_iff_left htrue] at hiff

/-- A law about steps that comes to the condition `ok` on the states of an invariant, which the
steps that meet `ok` keep: the runs that obey the law are the runs of steps that meet `ok`. -/
theorem along_iff {I : σ → Prop} {law ok : σ → α → Prop}
    (hkeep : ∀ s a t, I s → ok s a → S.step s a t → I t)
    (hlaw : ∀ s a t, I s → S.step s a t → (law s a ↔ ok s a))
    (hr : S.Run s tr) (hs : I s) : Along law s tr ↔ Along ok s tr := by
  induction hr with
  | nil s => exact Iff.rfl
  | cons hstep _ ih =>
    rw [along_cons, along_cons, hlaw _ _ _ hs hstep]
    exact and_congr_right fun ha => ih (hkeep _ _ _ hs ha hstep)

/-- A law about steps that every step from a state of an invariant obeys. -/
theorem along {I : σ → Prop} {law : σ → α → Prop}
    (hkeep : ∀ s a t, I s → S.step s a t → I t) (hlaw : ∀ s a t, I s → S.step s a t → law s a)
    (hr : S.Run s tr) (hs : I s) : Along law s tr := by
  induction hr with
  | nil s => exact along_nil
  | cons hstep _ ih => exact along_cons.mpr ⟨hlaw _ _ _ hs hstep, ih (hkeep _ _ _ hs hstep)⟩

/-- Along a run, a condition may be replaced by one that is equivalent wherever a step is
possible. -/
lemma along_congr {p q : σ → α → Prop} (h : ∀ s a t, S.step s a t → (p s a ↔ q s a))
    (hr : S.Run s tr) : Along p s tr ↔ Along q s tr :=
  hr.along_iff (I := fun _ => True) (fun _ _ _ _ _ _ => trivial) (fun s a t _ => h s a t) trivial

/-- One more step at the end of a run. -/
lemma concat (hr : S.Run s tr) (h : S.step (System.last s tr) a t) : S.Run s (tr ++ [(a, t)]) := by
  induction hr with
  | nil s => exact Run.cons h (Run.nil t)
  | cons hstep _ ih => exact Run.cons hstep (ih h)

/-- Forward simulation: if every step from a state of the invariant is matched by a step of
`T` between the abstract states, with the abstract label, then so is every run. -/
theorem simulate {T : System τ β} {I : σ → Prop} {abs : σ → τ} {lab : α → β}
    (hsim : ∀ s a t, I s → S.step s a t → T.step (abs s) (lab a) (abs t) ∧ I t)
    (hr : S.Run s tr) (hs : I s) :
    T.Run (abs s) (tr.map (Prod.map lab abs)) := by
  induction hr with
  | nil s => exact Run.nil _
  | cons h _ ih =>
    obtain ⟨habs, ht⟩ := hsim _ _ _ hs h
    exact Run.cons habs (ih ht)

/-- Forward simulation with a relation: the runs match state by state. -/
theorem simulate_rel {T : System τ β} {R : σ → τ → Prop}
    (hsim : ∀ s a t u, R s u → S.step s a t → ∃ b v, T.step u b v ∧ R t v)
    {u : τ} (hr : S.Run s tr) (hs : R s u) :
    ∃ tr', T.Run u tr' ∧ List.Forall₂ (fun x y => R x.2 y.2) tr tr' := by
  induction hr generalizing u with
  | nil s => exact ⟨[], Run.nil u, List.Forall₂.nil⟩
  | cons h _ ih =>
    obtain ⟨b, v, hstep, ht⟩ := hsim _ _ _ _ hs h
    obtain ⟨tr', hrun, hall⟩ := ih ht
    exact ⟨(b, v) :: tr', Run.cons hstep hrun, List.Forall₂.cons ht hall⟩

end Run

/-- A component that is not what component `i` has become is another one, and as it was before. -/
lemma of_update [DecidableEq ι] {f : ι → α} {i j : ι} {a b : α} (hne : a ≠ b)
    (h : Function.update f i a j = b) : j ≠ i ∧ f j = b := by
  by_cases hji : j = i
  · rw [hji, Function.update_self] at h
    exact absurd h hne
  · rw [Function.update_of_ne hji] at h
    exact ⟨hji, h⟩

/-! ### Systems given by a function -/

/-- The system of a function that answers every input `ι` with a new state and a reply. -/
def ofFun (f : σ → ι → σ × ρ) : System σ (ι × ρ) where
  step s a t := f s a.1 = (t, a.2)

/-- The run of such a system on a list of inputs. -/
def trace (f : σ → ι → σ × ρ) : σ → List ι → List ((ι × ρ) × σ)
  | _, [] => []
  | s, i :: is => ((i, (f s i).2), (f s i).1) :: trace f (f s i).1 is

lemma run_trace (f : σ → ι → σ × ρ) (s : σ) (is : List ι) : (ofFun f).Run s (trace f s is) := by
  induction is generalizing s with
  | nil => exact Run.nil s
  | cons i is ih => exact Run.cons rfl (ih _)

/-- The system of a function that performs an action or finds it blocked. -/
def ofPartial (f : σ → α → Option σ) : System σ α where
  step s a t := f s a = some t

/-- The state after a list of actions, if none of them is blocked. -/
def final (f : σ → α → Option σ) : σ → List α → Option σ
  | s, [] => some s
  | s, a :: as => (f s a).bind (final f · as)

/-- A list of actions none of which is blocked is a run, and leads to its last state. -/
lemma exists_run_of_final {f : σ → α → Option σ} {as : List α} (h : final f s as = some t) :
    ∃ tr, (ofPartial f).Run s tr ∧ tr.map Prod.fst = as ∧
      ∀ P : σ → Prop, Always P s tr → P t := by
  induction as generalizing s with
  | nil =>
    cases h
    exact ⟨[], Run.nil _, rfl, fun P hP => always_nil.mp hP⟩
  | cons a as ih =>
    obtain ⟨u, hu, ht⟩ := Option.bind_eq_some_iff.mp h
    obtain ⟨tr, hrun, hmap, hlast⟩ := ih ht
    refine ⟨(a, u) :: tr, Run.cons hu hrun, by rw [List.map_cons, hmap], fun P hP => ?_⟩
    exact hlast P (always_cons.mp hP).2

/-- A run of given actions, from the evaluation of the function. -/
lemma exists_run_of_isSome {f : σ → α → Option σ} {as : List α} (h : (final f s as).isSome) :
    ∃ tr, (ofPartial f).Run s tr ∧ tr.map Prod.fst = as := by
  obtain ⟨t, ht⟩ := Option.isSome_iff_exists.mp h
  obtain ⟨tr, hrun, hacts, -⟩ := exists_run_of_final ht
  exact ⟨tr, hrun, hacts⟩

/-- A run that breaks a law about steps at its last action. -/
lemma exists_run_not_along {f : σ → α → Option σ} {law : σ → α → Prop} {as : List α}
    (h : final f s as = some t) (ha : (f t a).isSome) (hno : ¬ law t a) :
    ∃ tr, (ofPartial f).Run s tr ∧ tr.map Prod.fst = as ++ [a] ∧ ¬ Along law s tr := by
  induction as generalizing s with
  | nil =>
    cases h
    obtain ⟨u, hu⟩ := Option.isSome_iff_exists.mp ha
    exact ⟨[(a, u)], Run.cons hu (Run.nil u), rfl, fun hlaw => hno (along_cons.mp hlaw).1⟩
  | cons b as ih =>
    obtain ⟨u, hu, ht⟩ := Option.bind_eq_some_iff.mp h
    obtain ⟨tr, hrun, hacts, hnot⟩ := ih ht
    exact ⟨(b, u) :: tr, Run.cons hu hrun, by rw [List.map_cons, hacts, List.cons_append],
      fun hlaw => hnot (along_cons.mp hlaw).2⟩

/-- The function that performs an action only where it meets `ok`. -/
def checked (f : σ → α → Option σ) (ok : σ → α → Prop) [∀ s a, Decidable (ok s a)] (s : σ)
    (a : α) : Option σ :=
  if ok s a then f s a else none

/-- A run of given actions all of which meet a condition, with its last state, from the evaluation
of both. -/
lemma exists_run_along_last {f : σ → α → Option σ} {ok : σ → α → Prop}
    [∀ s a, Decidable (ok s a)] {as : List α} (h : final (checked f ok) s as = some t) :
    ∃ tr, (ofPartial f).Run s tr ∧ tr.map Prod.fst = as ∧ Along ok s tr ∧ last s tr = t := by
  induction as generalizing s with
  | nil => exact ⟨[], Run.nil s, rfl, along_nil, Option.some.inj h⟩
  | cons a as ih =>
    obtain ⟨u, hu, hfinal⟩ := Option.bind_eq_some_iff.mp h
    rw [checked] at hu
    split_ifs at hu with hok
    obtain ⟨tr, hrun, hacts, halong, hlast⟩ := ih hfinal
    exact ⟨(a, u) :: tr, Run.cons hu hrun, by rw [List.map_cons, hacts],
      along_cons.mpr ⟨hok, halong⟩, hlast⟩

/-- A run of given actions all of which meet a condition. -/
lemma exists_run_along {f : σ → α → Option σ} {ok : σ → α → Prop} [∀ s a, Decidable (ok s a)]
    {as : List α} (h : (final (checked f ok) s as).isSome) :
    ∃ tr, (ofPartial f).Run s tr ∧ tr.map Prod.fst = as ∧ Along ok s tr := by
  obtain ⟨t, ht⟩ := Option.isSome_iff_exists.mp h
  obtain ⟨tr, hrun, hacts, halong, -⟩ := exists_run_along_last ht
  exact ⟨tr, hrun, hacts, halong⟩

/-- A function that performs actions, with a component beside its state in which `g` records
what each of them did. -/
def observe (f : σ → α → Option σ) (g : ρ → σ → α → σ → ρ) (s : σ × ρ) (a : α) :
    Option (σ × ρ) :=
  (f s.1 a).map fun t => (t, g s.2 s.1 a t)

lemma observe_eq_some {f : σ → α → Option σ} {g : ρ → σ → α → σ → ρ} {s t : σ × ρ} :
    observe f g s a = some t ↔ f s.1 a = some t.1 ∧ g s.2 s.1 a t.1 = t.2 := by
  rw [observe, Option.map_eq_some_iff]
  constructor
  · rintro ⟨u, hu, rfl⟩
    exact ⟨hu, rfl⟩
  · rintro ⟨hu, hg⟩
    exact ⟨t.1, hu, by rw [hg]⟩

/-- Observation blocks nothing: every run has its records. -/
lemma Run.observe {f : σ → α → Option σ} (g : ρ → σ → α → σ → ρ) (r : ρ)
    (hr : (ofPartial f).Run s tr) :
    ∃ tr', (ofPartial (System.observe f g)).Run (s, r) tr' ∧
      tr'.map (Prod.map id Prod.fst) = tr := by
  induction hr generalizing r with
  | nil s => exact ⟨[], Run.nil _, rfl⟩
  | @cons s t a tr h _ ih =>
    obtain ⟨tr', hrun, hmap⟩ := ih (g r s a t)
    refine ⟨(a, t, g r s a t) :: tr', Run.cons (observe_eq_some.mpr ⟨h, rfl⟩) hrun, ?_⟩
    rw [List.map_cons, hmap]
    rfl

/-- A run that refutes an invariant: `g` tells enough about its last state. -/
lemma exists_run_not_always {f : σ → α → Option σ} {as : List α} {g : σ → ρ} {r : ρ}
    {P : σ → Prop} (h : (final f s as).map g = some r) (hno : ∀ t, g t = r → ¬ P t) :
    ∃ tr, (ofPartial f).Run s tr ∧ tr.map Prod.fst = as ∧ ¬ Always P s tr := by
  obtain ⟨t, ht, hr⟩ := Option.map_eq_some_iff.mp h
  obtain ⟨tr, hrun, hacts, hlast⟩ := exists_run_of_final ht
  exact ⟨tr, hrun, hacts, fun hall => hno t hr (hlast P hall)⟩

end System

end Foundations
