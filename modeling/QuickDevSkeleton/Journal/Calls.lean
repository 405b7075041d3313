import QuickDevSkeleton.Journal.Walk

/-!
# The calls of a walk

What `walk_page_buffers` is for: it calls `fn` on the buffers that a byte range touches, one after
the other, until one call fails, and finds out on the way whether all other buffers are
uptodate. The journal and its later version have the same function.
-/

namespace QuickDevSkeleton.Journal

open Foundations

variable {σ : Type*}

/-- Call `fn` on the buffers of a list, up to and including the first on which it does not return
`0`: the buffers it was called on, and what the last call returned. -/
def callUntil (fn : ℕ → Exec σ ℤ) : List ℕ → Exec σ (List ℕ × ℤ)
  | [] => pure ([], 0)
  | k :: ks => do
    let err ← fn k
    if err ≠ 0 then pure ([k], err)
    else
      let (called, ret) ← callUntil fn ks
      pure (k :: called, ret)

/-- The touched ones of `d` buffers from `k` on, in ring order. -/
def touched (b from_ to_ k d : ℕ) : List ℕ :=
  (List.range' k d).filter fun j => Touches b from_ to_ j

/-- The walk has reached buffer `k`: it comes to all buffers if no call fails, and otherwise to
those up to the last call. -/
def Reached (called : List ℕ) (ret : ℤ) (k : ℕ) : Prop :=
  ret ≠ 0 → ∃ j ∈ called, k ≤ j

/-- From buffer `k` on, the walk reaches one out of range that is not uptodate. -/
def PassesStale (n b from_ to_ : ℕ) (uptodate : σ → ℕ → Bool) (s : σ) (called : List ℕ) (ret : ℤ)
    (k : ℕ) : Prop :=
  ∃ j, k ≤ j ∧ j < n ∧ Reached called ret j ∧ ¬ Touches b from_ to_ j ∧ uptodate s j = false

/-- The pointer `partial`, if it is given, is set to `1` if `P` holds and left alone otherwise. -/
structure SetIf (P : Prop) (before after : Option Bool) : Prop where
  set : P → after = before.map fun _ => true
  alone : ¬ P → after = before

/-! ### Calls -/

section

variable {fn : ℕ → Exec σ ℤ} {k : ℕ} {ks called : List ℕ} {err ret : ℤ} {s t u : σ}

lemma callUntil_nil (fn : ℕ → Exec σ ℤ) (s : σ) : callUntil fn [] s = (some ([], 0), s) := rfl

lemma callUntil_fails (h : fn k s = (some err, t)) (herr : err ≠ 0) :
    callUntil fn (k :: ks) s = (some ([k], err), t) := by
  rw [callUntil, Exec.bind_run_some h, if_pos herr, Exec.pure_run]

lemma callUntil_goes_on (h : fn k s = (some 0, t))
    (hrest : callUntil fn ks t = (some (called, ret), u)) :
    callUntil fn (k :: ks) s = (some (k :: called, ret), u) := by
  rw [callUntil, Exec.bind_run_some h, if_neg (not_not.mpr rfl), Exec.bind_run_some hrest]
  rfl

/-- The calls are on buffers of the list, and the value of a failing call is that of one of
them. -/
lemma callUntil_called (h : callUntil fn ks s = (some (called, ret), t)) :
    (∀ j ∈ called, j ∈ ks) ∧ (ret ≠ 0 → ∃ j, j ∈ called) := by
  induction ks generalizing s called with
  | nil =>
    cases h
    exact ⟨fun j hj => hj, fun hret => absurd rfl hret⟩
  | cons k ks ih =>
    rw [callUntil] at h
    obtain ⟨err, u, -, hnext⟩ := Exec.bind_eq_some.mp h
    by_cases herr : err ≠ 0
    · rw [if_pos herr] at hnext
      cases hnext
      exact ⟨fun j hj => List.mem_singleton.mp hj ▸ List.mem_cons_self,
        fun _ => ⟨k, List.mem_singleton_self k⟩⟩
    · rw [if_neg herr] at hnext
      obtain ⟨⟨called', ret'⟩, v, hrest, hpure⟩ := Exec.bind_eq_some.mp hnext
      cases hpure
      obtain ⟨hsub, -⟩ := ih hrest
      refine ⟨fun j hj => ?_, fun _ => ⟨k, List.mem_cons_self⟩⟩
      rcases List.mem_cons.mp hj with rfl | hj
      · exact List.mem_cons_self
      · exact List.mem_cons_of_mem k (hsub j hj)

end

/-! ### Touched buffers -/

section

variable {b from_ to_ k d : ℕ}

lemma touched_of_touches (h : Touches b from_ to_ k) :
    touched b from_ to_ k (d + 1) = k :: touched b from_ to_ (k + 1) d := by
  simp [touched, List.range'_succ, h]

lemma touched_of_not (h : ¬ Touches b from_ to_ k) :
    touched b from_ to_ k (d + 1) = touched b from_ to_ (k + 1) d := by
  simp [touched, List.range'_succ, h]

lemma le_of_mem_touched {j : ℕ} (h : j ∈ touched b from_ to_ k d) : k ≤ j :=
  (List.mem_range'_1.mp (List.mem_filter.mp h).1).1

end

/-! ### The pointer `partial` -/

section

variable {P Q : Prop} {before between after : Option Bool}

lemma SetIf.congr (h : SetIf P before after) (hPQ : Q ↔ P) : SetIf Q before after where
  set hQ := h.set (hPQ.mp hQ)
  alone hQ := h.alone fun hP => hQ (hPQ.mpr hP)

/-- What two assignments in a row come to. -/
lemma SetIf.trans (h : SetIf P before between) (h' : SetIf Q between after) :
    SetIf (P ∨ Q) before after where
  set := by
    intro hor
    by_cases hP : P
    · have hbetween := h.set hP
      by_cases hQ : Q
      · rw [h'.set hQ, hbetween, Option.map_map]
        rfl
      · rw [h'.alone hQ, hbetween]
    · rw [h'.set (hor.resolve_left hP), h.alone hP]
  alone := by
    intro hnor
    rw [h'.alone fun hQ => hnor (Or.inr hQ), h.alone fun hP => hnor (Or.inl hP)]

/-- The assignment of the walk to `*partial` at a buffer out of range. -/
lemma setIf_assigned (before : Option Bool) (up : Bool) :
    SetIf (up = false) before (if before.isSome && !up then some true else before) := by
  cases before with
  | none => exact ⟨fun _ => rfl, fun _ => rfl⟩
  | some v =>
    cases up with
    | false => exact ⟨fun _ => rfl, fun hup => absurd rfl hup⟩
    | true => exact ⟨fun hup => absurd hup (by decide), fun _ => rfl⟩

end

/-! ### Buffers that are passed over -/

section

variable {n b from_ to_ k d : ℕ} {uptodate : σ → ℕ → Bool} {fn : ℕ → Exec σ ℤ} {s t u : σ}
  {called : List ℕ} {ret : ℤ}

lemma not_passesStale_end (hk : k = n) :
    ¬ PassesStale n b from_ to_ uptodate s called ret k := by
  rintro ⟨j, hkj, hjn, -⟩
  omega

/-- A walk that stops at `k` passes over nothing from there on. -/
lemma not_passesStale_stop (htouch : Touches b from_ to_ k) (hret : ret ≠ 0) :
    ¬ PassesStale n b from_ to_ uptodate s [k] ret k := by
  rintro ⟨j, hkj, -, hreach, hnot, -⟩
  obtain ⟨i, hi, hji⟩ := hreach hret
  obtain rfl := List.mem_singleton.mp hi
  obtain rfl := Nat.le_antisymm hkj hji
  exact hnot htouch

/-- A call on `k` changes nothing for the buffers after it. -/
lemma passesStale_call (htouch : Touches b from_ to_ k)
    (hframe : ∀ j, j ≠ k → uptodate u j = uptodate s j) :
    PassesStale n b from_ to_ uptodate s (k :: called) ret k ↔
      PassesStale n b from_ to_ uptodate u called ret (k + 1) := by
  constructor
  · rintro ⟨j, hkj, hjn, hreach, hnot, hup⟩
    have hne : j ≠ k := fun hj => hnot (hj ▸ htouch)
    refine ⟨j, by omega, hjn, fun hret => ?_, hnot, by rw [hframe j hne, hup]⟩
    obtain ⟨i, hi, hji⟩ := hreach hret
    rcases List.mem_cons.mp hi with rfl | hi
    · exact absurd (Nat.le_antisymm hji hkj) hne
    · exact ⟨i, hi, hji⟩
  · rintro ⟨j, hkj, hjn, hreach, hnot, hup⟩
    refine ⟨j, by omega, hjn, fun hret => ?_, hnot, by rw [← hframe j (by omega), hup]⟩
    obtain ⟨i, hi, hji⟩ := hreach hret
    exact ⟨i, List.mem_cons_of_mem k hi, hji⟩

/-- A buffer `k` out of range is passed over, whatever happens after it. -/
lemma passesStale_skip (hlt : k < n) (htouch : ¬ Touches b from_ to_ k)
    (hcalls : callUntil fn (touched b from_ to_ (k + 1) d) s = (some (called, ret), t)) :
    PassesStale n b from_ to_ uptodate s called ret k ↔
      uptodate s k = false ∨ PassesStale n b from_ to_ uptodate s called ret (k + 1) := by
  constructor
  · rintro ⟨j, hkj, hjn, hreach, hnot, hup⟩
    rcases hkj.eq_or_lt with rfl | hkj
    · exact Or.inl hup
    · exact Or.inr ⟨j, hkj, hjn, hreach, hnot, hup⟩
  · rintro (hup | ⟨j, hkj, hjn, hreach, hnot, hup⟩)
    · obtain ⟨hsub, hsome⟩ := callUntil_called hcalls
      refine ⟨k, le_rfl, hlt, fun hret => ?_, htouch, hup⟩
      obtain ⟨i, hi⟩ := hsome hret
      exact ⟨i, hi, (Nat.le_succ k).trans (le_of_mem_touched (hsub i hi))⟩
    · exact ⟨j, by omega, hjn, hreach, hnot, hup⟩

/-! ### The walk -/

/-- The loop from buffer `k` on, with `d` buffers left. -/
lemma walkLoop_calls (from_ to_ : ℕ) (hb : 0 < b) (hsize : n * b < 2 ^ 32)
    (hreturns : ∀ k s, ∃ err t, fn k s = (some err, t))
    (hframe : ∀ k s j, j ≠ k → uptodate (fn k s).2 j = uptodate s j) (d k : ℕ) (hk : k + d = n)
    (hn : 0 < n) (partial_ : Option Bool) (s : σ) :
    ∃ called ret t p,
      callUntil fn (touched b from_ to_ k d) s = (some (called, ret), t) ∧
      walkLoop n b from_ to_ uptodate fn (d + 1) (k % n) (k * b) 0 partial_ s =
        (some (ret, p), t) ∧
      SetIf (PassesStale n b from_ to_ uptodate s called ret k) partial_ p := by
  induction d generalizing k partial_ s with
  | zero =>
    have hkn : k = n := hk
    have hend : ¬ ((0 : ℤ) = 0 ∧ (k % n ≠ 0 ∨ k * b = 0)) := by
      have hne := (Nat.mul_pos hn hb).ne'
      simp [hkn, hne]
    refine ⟨[], 0, s, partial_, callUntil_nil fn s, ?_,
      fun hstale => absurd hstale (not_passesStale_end hkn), fun _ => rfl⟩
    rw [walkLoop, if_neg hend, Exec.pure_run]
  | succ d ih =>
    have hlt : k < n := by omega
    rw [walkLoop_step hsize hlt]
    by_cases htouch : Touches b from_ to_ k
    · obtain ⟨err, u, hfn⟩ := hreturns k s
      have hothers : ∀ j, j ≠ k → uptodate u j = uptodate s j := by
        intro j hj
        have hsame := hframe k s j hj
        rwa [hfn] at hsame
      rw [if_pos htouch, Exec.bind_run_some hfn, touched_of_touches htouch]
      by_cases herr : err = 0
      · subst herr
        obtain ⟨called, ret, t, p, hcalls, hwalk, hset⟩ := ih (k + 1) (by omega) partial_ u
        exact ⟨k :: called, ret, t, p, callUntil_goes_on hfn hcalls, hwalk,
          hset.congr (passesStale_call htouch hothers)⟩
      · refine ⟨[k], err, u, partial_, callUntil_fails hfn herr, ?_,
          fun hstale => absurd hstale (not_passesStale_stop htouch herr), fun _ => rfl⟩
        rw [walkLoop, if_neg fun hgo => herr hgo.1, Exec.pure_run]
    · rw [if_neg htouch, touched_of_not htouch]
      obtain ⟨called, ret, t, p, hcalls, hwalk, hset⟩ := ih (k + 1) (by omega) _ s
      exact ⟨called, ret, t, p, hcalls, hwalk,
        ((setIf_assigned partial_ (uptodate s k)).trans hset).congr
          (passesStale_skip hlt htouch hcalls)⟩

end

/-- The walk ends for every callback that returns and leaves the other buffers alone. It calls it
on the buffers that the range touches until a call fails, returns what the last call returned,
and sets `*partial` exactly if it passes over a buffer that is not uptodate. -/
theorem walk_page_buffers_calls {n b : ℕ} (hn : 0 < n) (hb : 0 < b) (hsize : n * b < 2 ^ 32)
    (from_ to_ : ℕ) (uptodate : σ → ℕ → Bool) (fn : ℕ → Exec σ ℤ)
    (hreturns : ∀ k s, ∃ err t, fn k s = (some err, t))
    (hframe : ∀ k s j, j ≠ k → uptodate (fn k s).2 j = uptodate s j) (partial_ : Option Bool)
    (s : σ) :
    ∃ called ret t p,
      callUntil fn (touched b from_ to_ 0 n) s = (some (called, ret), t) ∧
      walk_page_buffers n b from_ to_ uptodate partial_ fn s = (some (ret, p), t) ∧
      SetIf (PassesStale n b from_ to_ uptodate s called ret 0) partial_ p := by
  have hloop := walkLoop_calls from_ to_ hb hsize hreturns hframe n 0 (Nat.zero_add n) hn
    partial_ s
  rwa [Nat.zero_mod, Nat.zero_mul] at hloop

/-- A callback that makes its buffer uptodate and fails on the third one. -/
def failsOnThird (k : ℕ) : Exec (ℕ → Bool) ℤ := fun s =>
  (some (if k = 2 then -5 else 0), Function.update s k true)

lemma failsOnThird_frame (k : ℕ) (s : ℕ → Bool) (j : ℕ) (hj : j ≠ k) :
    (failsOnThird k s).2 j = s j := by
  show Function.update s k true j = s j
  exact Function.update_of_ne hj true s

/-- The walk over the last three of four buffers. -/
theorem walk_page_buffers_calls_failing :
    ∃ called ret t p,
      callUntil failsOnThird (touched 1024 1024 4096 0 4) (fun _ => false) =
        (some (called, ret), t) ∧
      walk_page_buffers 4 1024 1024 4096 (fun s k => s k) (some false) failsOnThird
        (fun _ => false) = (some (ret, p), t) ∧
      SetIf (PassesStale 4 1024 1024 4096 (fun s k => s k) (fun _ => false) called ret 0)
        (some false) p := by
  have hsize : 4 * 1024 < 2 ^ 32 := by omega
  have hreturns : ∀ k s, ∃ err t, failsOnThird k s = (some err, t) := fun _ _ => ⟨_, _, rfl⟩
  have hwalk := walk_page_buffers_calls (n := 4) (b := 1024) (by decide) (by decide) hsize 1024
    4096 (fun (s : ℕ → Bool) k => s k) failsOnThird hreturns failsOnThird_frame (some false)
    (fun _ => false)
  exact hwalk

end QuickDevSkeleton.Journal
