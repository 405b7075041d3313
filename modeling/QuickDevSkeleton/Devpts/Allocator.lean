import Mathlib.Algebra.BigOperators.Ring.Finset
import Mathlib.Data.Finset.Option
import QuickDevSkeleton.Devpts.Indices
import QuickDevSkeleton.Foundations.IdPool

/-!
# The index allocator as a pool

What `devpts_new_index` and `devpts_kill_index` come to when their sections are taken for single
steps: a pool of ids in which every instance gets its lowest free index, as long as there are fewer
indices than its limit. An instance that was mounted with `newinstance` has the lower limit.
-/

namespace QuickDevSkeleton.Devpts

open Foundations

/-- An instance, and whether it was mounted with `newinstance`. -/
abbrev Key := ℕ × Bool

/-- The limit of an instance. -/
def Key.limit (k : Key) : ℕ := (pty_limit - (if k.2 then pty_reserve else 0)).toNat

/-- The index that is counted for a process. -/
def Pc.held (d : Fs) (x : Pc) : Option (Key × ℕ) :=
  x.counted.map fun q => ((q.1, d.newinstance q.1), q.2)

section

variable {d e : Fs} {x y : Pc}

lemma Pc.held_eq_some {s n : ℕ} {b : Bool} :
    x.held d = some ((s, b), n) ↔ x.counted = some (s, n) ∧ d.newinstance s = b := by
  rw [held, Option.map_eq_some_iff]
  constructor
  · rintro ⟨⟨t, m⟩, hq, heq⟩
    cases heq
    exact ⟨hq, rfl⟩
  · rintro ⟨hq, rfl⟩
    exact ⟨_, hq, rfl⟩

/-- The key of a process stays the same as long as its instance does. -/
lemma Pc.held_congr (h : ∀ s, x.sb = some s → e.newinstance s = d.newinstance s) :
    x.held e = x.held d := by
  unfold held
  cases hq : x.counted with
  | none => rfl
  | some q =>
    have hsb := Pc.sb_of_counted (s := q.1) (n := q.2) hq
    rw [Option.map_some, Option.map_some, h _ hsb]

/-- Either nothing is counted or given up, or an index is counted, or given up. -/
lemma Step.counted_cases (h : Step d x e y) :
    (y.counted = x.counted ∧ ∀ s n, x.counted = some (s, n) → y.sb = some s) ∨
    (∃ s n, x = .newIndex s (.count n) ∧ y = .newIndex s (.unlock n)) ∨
    (∃ s n, x = .killIndex s n .count ∧ y = .killIndex s n .unlock) := by
  cases h with
  | index_count s n => exact Or.inr (Or.inl ⟨s, n, rfl, rfl⟩)
  | kill_count s n => exact Or.inr (Or.inr ⟨s, n, rfl, rfl⟩)
  | _ => exact Or.inl ⟨rfl, fun s n hq => by cases hq <;> rfl⟩

end

section

variable {ι : Type} [Fintype ι] [DecidableEq ι] {v v' : Parties.State Fs Pc ι}
  {mv : Parties.Move ι Act Env} {tr : List (Parties.Move ι Act Env × Parties.State Fs Pc ι)}

/-- The indices that are counted for the processes. -/
def held (v : Parties.State Fs Pc ι) : Finset (Key × ℕ) :=
  Finset.univ.biUnion fun p => ((v.place p).held v.shared).toFinset

omit [DecidableEq ι] in
lemma mem_held {q : Key × ℕ} : q ∈ held v ↔ ∃ p, (v.place p).held v.shared = some q := by
  simp [held, Option.mem_toFinset]

omit [DecidableEq ι] in
/-- There are no more of them than `pty_count`. -/
lemma card_held_le (hv : Booked v) : ((held v).card : ℤ) ≤ v.shared.pty_count := by
  have hcard : (held v).card ≤ ∑ p, ((v.place p).held v.shared).toFinset.card :=
    Finset.card_biUnion_le
  have hsum : ((∑ p, ((v.place p).held v.shared).toFinset.card : ℕ) : ℤ) =
      Parties.tally Pc.counts v.place := by
    rw [Parties.tally, Nat.cast_sum]
    refine Finset.sum_congr rfl fun p _ => ?_
    unfold Pc.held Pc.counts
    cases (v.place p).counted with
    | none => rfl
    | some q => rfl
  have hcount := hv.count
  omega

/-- A move of process `p`, as its index shows it. -/
lemma mem_held_update {p : ι} {e : Fs} {y : Pc} {q : Key × ℕ}
    (hkeys : ∀ r, (v.place r).held e = (v.place r).held v.shared) :
    q ∈ held ⟨e, Function.update v.place p y⟩ ↔
      y.held e = some q ∨ ∃ r, r ≠ p ∧ (v.place r).held v.shared = some q := by
  rw [mem_held]
  constructor
  · rintro ⟨r, hr⟩
    change (Function.update v.place p y r).held e = some q at hr
    by_cases hrp : r = p
    · rw [hrp, Function.update_self] at hr
      exact Or.inl hr
    · rw [Function.update_of_ne hrp, hkeys] at hr
      exact Or.inr ⟨r, hrp, hr⟩
  · rintro (hy | ⟨r, hrp, hr⟩)
    · refine ⟨p, ?_⟩
      change (Function.update v.place p y p).held e = some q
      rwa [Function.update_self]
    · refine ⟨r, ?_⟩
      change (Function.update v.place p y r).held e = some q
      rwa [Function.update_of_ne hrp, hkeys]

namespace Booked

/-- The instance that a process has an index of is there after its move, as before. -/
lemma held_eq {p r : ι} {e : Fs} {y : Pc} (hstep : Step v.shared (v.place p) e y)
    (hv' : Counted (⟨e, Function.update v.place p y⟩ : Parties.State Fs Pc ι)) :
    (v.place r).held e = (v.place r).held v.shared := by
  unfold Pc.held
  cases hq : (v.place r).counted with
  | none => rfl
  | some q =>
    have hlive : (e.DEVPTS_SB q.1).isSome := by
      refine hv'.live_of_sb r ?_
      change (Function.update v.place p y r).sb = some q.1
      by_cases hrp : r = p
      · subst hrp
        rw [Function.update_self]
        rcases hstep.counted_cases with ⟨-, hsb⟩ | ⟨s, n, hx, hy⟩ | ⟨s, n, hx, hy⟩
        · exact hsb q.1 q.2 hq
        · rw [hx] at hq
          cases hq
        · rw [hx] at hq
          cases hq
          rw [hy]
          rfl
      · rw [Function.update_of_ne hrp]
        exact Pc.sb_of_counted (n := q.2) hq
    rw [Option.map_some, Option.map_some, hstep.newinstance hlive]

/-- While a process is in a section, the ids of the others are the indices counted for them. -/
lemma exists_counted (hv : Booked v) {p : ι} {s n m : ℕ} (hp : (v.place p).inside = 1)
    (hown : (v.place p).allocated = some (s, n)) (hne : m ≠ n) (hm : m ∈ v.shared.ida s) :
    ∃ r, (v.place r).counted = some (s, m) := by
  obtain ⟨r, hr⟩ := hv.mem_ida_iff.mp hm
  have hrp : p ≠ r := by
    rintro rfl
    rw [hown] at hr
    cases hr
    exact hne rfl
  exact ⟨r, (Pc.counted_eq_allocated (hv.inside_unique hrp hp)).trans hr⟩

section

variable {p : ι} {e : Fs} {y : Pc}

/-- A move that counts nothing leaves the pool as it is. -/
lemma pool_idle (hkeys : ∀ r, (v.place r).held e = (v.place r).held v.shared)
    (hsame : y.counted = (v.place p).counted) :
    held (⟨e, Function.update v.place p y⟩ : Parties.State Fs Pc ι) = held v := by
  have hy : y.held e = (v.place p).held v.shared := by
    rw [← hkeys p, Pc.held, hsame, Pc.held]
  ext q
  rw [mem_held_update hkeys, hy, mem_held]
  constructor
  · rintro (hq | ⟨r, -, hr⟩)
    · exact ⟨p, hq⟩
    · exact ⟨r, hr⟩
  · rintro ⟨r, hr⟩
    by_cases hrp : r = p
    · exact Or.inl (hrp ▸ hr)
    · exact Or.inr ⟨r, hrp, hr⟩

/-- `pty_count++` takes an id. -/
lemma pool_take (hv : Booked v) {s n : ℕ} (hx : v.place p = .newIndex s (.count n))
    (hkeys : ∀ r, (v.place r).held e = (v.place r).held v.shared)
    (hnew : e.newinstance s = v.shared.newinstance s) :
    IdPool.Step Key.limit NR_UNIX98_PTY_MAX.toNat (held v)
      (held ⟨e, Function.update v.place p (.newIndex s (.unlock n))⟩) := by
  have hinside : (v.place p).inside = 1 := by rw [hx]; rfl
  have hown : (v.place p).allocated = some (s, n) := by rw [hx]; rfl
  have hnone : (v.place p).counted = none := by rw [hx]; rfl
  have hy : (Pc.newIndex s (.unlock n)).held e = some ((s, v.shared.newinstance s), n) :=
    Pc.held_eq_some.mpr ⟨rfl, hnew⟩
  have hknows := hv.knows p
  rw [hx] at hknows
  obtain ⟨hroom, hlower, hrange⟩ := hknows
  have heq : held (⟨e, Function.update v.place p (.newIndex s (.unlock n))⟩ :
      Parties.State Fs Pc ι) = insert ((s, v.shared.newinstance s), n) (held v) := by
    ext q
    rw [mem_held_update hkeys, hy, Finset.mem_insert, mem_held, Option.some_inj]
    refine or_congr eq_comm ⟨fun ⟨r, _, hr⟩ => ⟨r, hr⟩, fun ⟨r, hr⟩ => ⟨r, ?_, hr⟩⟩
    rintro rfl
    rw [Pc.held, hnone] at hr
    cases hr
  rw [heq]
  refine .take _ n ?_ (fun m hm => ?_) (by omega) ?_
  · rw [mem_held]
    rintro ⟨r, hr⟩
    have hr := (Pc.held_eq_some.mp hr).1
    rcases hv.counted_cases hr with hall | ⟨-, hno⟩
    · rw [hv.allocated_unique hown hall, hr] at hnone
      cases hnone
    · exact hno (hv.mem_ida_iff.mpr ⟨p, hown⟩)
  · obtain ⟨r, hr⟩ := hv.exists_counted hinside hown (Nat.ne_of_lt hm) (hlower m hm)
    exact mem_held.mpr ⟨r, Pc.held_eq_some.mpr ⟨hr, rfl⟩⟩
  · have hcard := card_held_le hv
    have hlt : v.shared.pty_count < Key.limit (s, v.shared.newinstance s) := by
      rw [Key.limit, Int.toNat_of_nonneg]
      · exact hroom
      · dsimp only
        split_ifs <;> decide
    omega

/-- `pty_count--` gives it back. -/
lemma pool_give (hv : Booked v) {s n : ℕ} (hx : v.place p = .killIndex s n .count)
    (hkeys : ∀ r, (v.place r).held e = (v.place r).held v.shared) :
    IdPool.Step Key.limit NR_UNIX98_PTY_MAX.toNat (held v)
      (held ⟨e, Function.update v.place p (.killIndex s n .unlock)⟩) := by
  have hp : (v.place p).counted = some (s, n) := by rw [hx]; rfl
  have hheld : (v.place p).held v.shared = some ((s, v.shared.newinstance s), n) :=
    Pc.held_eq_some.mpr ⟨hp, rfl⟩
  have hy : (Pc.killIndex s n .unlock).held e = none := rfl
  have heq : held (⟨e, Function.update v.place p (.killIndex s n .unlock)⟩ :
      Parties.State Fs Pc ι) = (held v).erase ((s, v.shared.newinstance s), n) := by
    ext q
    rw [mem_held_update hkeys, hy, Finset.mem_erase, mem_held]
    constructor
    · rintro (hno | ⟨r, hrp, hr⟩)
      · cases hno
      · refine ⟨?_, r, hr⟩
        rintro rfl
        exact hrp (hv.counted_unique (Pc.held_eq_some.mp hr).1 hp)
    · rintro ⟨hne, r, hr⟩
      refine Or.inr ⟨r, ?_, hr⟩
      rintro rfl
      rw [hheld] at hr
      exact hne (Option.some.inj hr).symm
  rw [heq]
  exact .give _ n (mem_held.mpr ⟨p, hheld⟩)

end

/-- Every move is a step of the pool. -/
lemma pool_step (hv : Booked v) (h : devpts.next v mv = some v') :
    IdPool.Step Key.limit NR_UNIX98_PTY_MAX.toNat (held v) (held v') := by
  have hv' := hv.counted.next h
  cases mv with
  | env ev =>
    obtain ⟨e, henv, rfl⟩ := Parties.next_env.mp h
    have hstep := hv.counted.envStep henv
    have hsame : held (⟨e, v.place⟩ : Parties.State Fs Pc ι) = held v := by
      unfold held
      congr 1
      funext p
      rw [Pc.held_congr fun s hs =>
        (hstep.keeps (hv.counted.live_of_sb p hs) (hv'.live_of_sb p hs)).newinstance]
    rw [hsame]
    exact .idle
  | act p a =>
    obtain ⟨e, y, hact, rfl⟩ := Parties.next_act.mp h
    have hstep := hv.counted.step hact
    have hkeys : ∀ r, (v.place r).held e = (v.place r).held v.shared := fun r =>
      held_eq hstep hv'
    rcases hstep.counted_cases with ⟨hsame, -⟩ | ⟨s, n, hx, rfl⟩ | ⟨s, n, hx, rfl⟩
    · rw [pool_idle hkeys hsame]
      exact .idle
    · refine hv.pool_take hx hkeys (hstep.newinstance (hv'.live_of_sb p ?_))
      change (Function.update v.place p (.newIndex s (.unlock n)) p).sb = some s
      rw [Function.update_self]
      rfl
    · exact hv.pool_give hx hkeys

end Booked

omit [DecidableEq ι] in
lemma held_start : held (start ι) = ∅ := by
  ext q
  rw [mem_held]
  constructor
  · rintro ⟨p, hp⟩
    cases hp
  · intro hq
    exact absurd hq (Finset.notMem_empty q)

lemma pool_run (hr : devpts.system.Run (start ι) tr) :
    (IdPool.system Key.limit NR_UNIX98_PTY_MAX.toNat).Run (held (start ι))
      (tr.map (Prod.map (fun _ => ()) held)) :=
  hr.simulate (I := Booked) (fun _ _ _ hv h => ⟨hv.pool_step h, hv.next h⟩) Booked.start

/-- The sections of `devpts_new_index` and `devpts_kill_index`, step by step and in any
interleaving, with remounts between any two of their statements, are a pool of ids: each index that
is counted is the lowest one that its instance does not have, it is counted while fewer indices
than the limit of the instance are, and it is given up once. -/
theorem allocator_refines (hr : devpts.system.Run (start ι) tr) :
    (IdPool.system Key.limit NR_UNIX98_PTY_MAX.toNat).Run ∅
      (tr.map (Prod.map (fun _ => ()) held)) := by
  have hstart : held (start ι) = ∅ := held_start
  exact hstart ▸ pool_run hr

theorem session_allocator_refines :
    ∃ tr, devpts.system.Run (start (Fin 2)) tr ∧ tr.map Prod.fst = session ∧
      (IdPool.system Key.limit NR_UNIX98_PTY_MAX.toNat).Run ∅
        (tr.map (Prod.map (fun _ => ()) held)) := by
  obtain ⟨tr, hrun, hacts⟩ := exists_session
  exact ⟨tr, hrun, hacts, allocator_refines hrun⟩

/-- A process with an index that is counted, of an instance mounted with `newinstance`. -/
def Pc.isPrivate (d : Fs) (x : Pc) : Bool :=
  (x.held d).any fun q => q.1.2

/-- Such processes have different ids of the pool, with the lower limit. -/
lemma Booked.card_private_le (hv : Booked v) :
    (Finset.univ.filter fun p => (v.place p).isPrivate v.shared = true).card ≤
      (IdPool.upTo Key.limit (pty_limit - pty_reserve).toNat (held v)).card := by
  have hheld : ∀ {p}, (v.place p).isPrivate v.shared = true →
      ∃ s n, (v.place p).held v.shared = some ((s, true), n) := by
    intro p hp
    unfold Pc.isPrivate at hp
    cases hq : (v.place p).held v.shared with
    | none =>
      rw [hq] at hp
      cases hp
    | some q =>
      obtain ⟨⟨s, b⟩, n⟩ := q
      rw [hq] at hp
      cases hp
      exact ⟨s, n, rfl⟩
  refine Finset.card_le_card_of_injOn
    (fun p => ((v.place p).held v.shared).getD ((0, false), 0)) (fun p hp => ?_)
    (fun p hp r hr heq => ?_)
  · obtain ⟨s, n, hq⟩ := hheld (Finset.mem_filter.mp hp).2
    dsimp only
    rw [hq, Option.getD_some]
    refine Finset.mem_filter.mpr ⟨mem_held.mpr ⟨p, hq⟩, Nat.le_of_eq rfl⟩
  · obtain ⟨s, n, hp⟩ := hheld (Finset.mem_filter.mp hp).2
    obtain ⟨t, m, hr⟩ := hheld (Finset.mem_filter.mp hr).2
    dsimp only at heq
    rw [hp, hr, Option.getD_some, Option.getD_some] at heq
    cases heq
    exact hv.counted_unique (Pc.held_eq_some.mp hp).1 (Pc.held_eq_some.mp hr).1

/-- In every run, the instances that were mounted with `newinstance` leave the reserve to the
others: together they never have more indices than the limit without it. -/
theorem reserve_kept (hr : devpts.system.Run (start ι) tr) :
    System.Always (fun v => ((Finset.univ.filter fun p =>
      (v.place p).isPrivate v.shared = true).card : ℤ) ≤ pty_limit - pty_reserve)
      (start ι) tr := by
  have hstart : held (start ι) = ∅ := held_start
  have hpool := IdPool.within_always (hstart ▸ pool_run hr)
  rw [← hstart, System.always_map] at hpool
  have hbooked := Booked.always hr
  have hbound : ∀ {v : Parties.State Fs Pc ι}, Booked v → IdPool.Within Key.limit (held v) →
      ((Finset.univ.filter fun p => (v.place p).isPrivate v.shared = true).card : ℤ) ≤
        pty_limit - pty_reserve := by
    intro v hv hwithin
    have hle := Nat.le_trans hv.card_private_le (hwithin _)
    have hnat : ((pty_limit - pty_reserve).toNat : ℤ) = pty_limit - pty_reserve := by decide
    omega
  exact ⟨hbound hbooked.1 hpool.1, fun x hx => hbound (hbooked.2 x hx) (hpool.2 x hx)⟩

theorem session_reserve_kept :
    ∃ tr, devpts.system.Run (start (Fin 2)) tr ∧ tr.map Prod.fst = session ∧
      System.Always (fun v => ((Finset.univ.filter fun p =>
        (v.place p).isPrivate v.shared = true).card : ℤ) ≤ pty_limit - pty_reserve)
        (start (Fin 2)) tr := by
  obtain ⟨tr, hrun, hacts⟩ := exists_session
  exact ⟨tr, hrun, hacts, reserve_kept hrun⟩

end

end QuickDevSkeleton.Devpts
