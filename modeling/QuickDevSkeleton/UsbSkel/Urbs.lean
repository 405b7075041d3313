import Mathlib.Algebra.Order.Group.Multiset
import QuickDevSkeleton.UsbSkel.Permits

/-!
# The urbs of the writes

A write urb is referenced by its writer, by the anchor and by the core, and is freed when the last
of them drops it; its transfer buffer belongs to the writer up to the submission and to the core
from there on. Whatever fails and in whichever order writers and completions run, the references
are exactly these, the buffer is allocated exactly while it has its owner, and the bytes that the
core accepts are those of the writes that return their size.
-/

namespace QuickDevSkeleton.UsbSkel

open Foundations

/-- The local variable `urb`, while it points to an urb that the writer references. -/
def WritePc.urb : WritePc → Option ℕ
  | .buffer urb | .copy urb | .lock urb | .held urb | .submit urb | .unlock urb _ | .report urb _
  | .free urb | .unanchor urb _ => some urb
  | .error urb _ _ => urb
  | _ => none

def Pc.urb : Pc → Option ℕ
  | .writing _ pc => pc.urb
  | _ => none

variable {s t : Skel} {x y z : Pc} {u : ℕ} {b : Option (List UInt8)}

/-! ### What a writer knows of its urb -/

/-- No urb from `fresh` on is anchored, is with the core or has a buffer. -/
structure Skel.Unused (s : Skel) : Prop where
  submitted : ∀ u ∈ s.submitted, u < s.fresh
  queue : ∀ u ∈ s.queue, u < s.fresh
  giving : ∀ u ∈ s.giving, u < s.fresh
  buf : ∀ u, s.fresh ≤ u → s.buf u = none

/-- The urb is not with the core, and has buffer `b`. -/
structure Skel.Private (s : Skel) (u : ℕ) (b : Option (List UInt8)) : Prop where
  fresh : u < s.fresh
  queue : u ∉ s.queue
  giving : u ∉ s.giving
  buf : s.buf u = b

/-- What a place in `skel_write` knows. -/
def WritePc.Known (s : Skel) (c : WriteCall) : WritePc → Prop
  | .buffer urb => s.Private urb none
  | .copy urb => s.Private urb (some [])
  | .lock urb | .held urb | .submit urb => s.Private urb (some c.payload)
  | .unlock urb retval =>
    if retval = 0 then urb < s.fresh else retval < 0 ∧ s.Private urb (some c.payload)
  | .report urb retval | .unanchor urb retval => retval < 0 ∧ s.Private urb (some c.payload)
  | .free urb => urb < s.fresh
  | .error urb _ retval => retval < 0 ∧ ∀ u, urb = some u → ∃ b, s.Private u b
  | .up retval => retval < 0
  | _ => True

def Pc.Known (s : Skel) : Pc → Prop
  | .writing c pc => pc.Known s c
  | .writeRet c ret => ret < 0 ∨ ret = c.writesize
  | _ => True

/-- Two writers never have the same urb. -/
def Pc.Apart (x y : Pc) : Prop := ∀ u, x.urb = some u → y.urb ≠ some u

lemma Step.fresh_le (h : Step s x t y) : s.fresh ≤ t.fresh := by
  cases h with
  | write_alloc => exact Nat.le_succ _
  | _ => exact le_rfl

/-- A step of another writer leaves an urb alone. -/
lemma Step.private (h : Step s x t y) (hx : x.urb ≠ some u) (hu : s.Private u b) :
    t.Private u b := by
  have hne : ∀ {urb}, some urb ≠ some u → u ≠ urb := fun h hu => h (congrArg some hu.symm)
  obtain ⟨hfresh, hqueue, hgiving, hbuf⟩ := hu
  cases h with
  | write_alloc => exact ⟨Nat.lt_succ_of_lt hfresh, hqueue, hgiving, hbuf⟩
  | write_buffer c urb =>
    exact ⟨hfresh, hqueue, hgiving, (Function.update_of_ne (hne hx) _ _).trans hbuf⟩
  | write_copy c urb =>
    exact ⟨hfresh, hqueue, hgiving, (Function.update_of_ne (hne hx) _ _).trans hbuf⟩
  | write_submit c urb =>
    refine ⟨hfresh, fun hmem => ?_, hgiving, hbuf⟩
    rcases List.mem_append.mp hmem with hmem | hmem
    · exact hqueue hmem
    · exact hne hx (List.mem_singleton.mp hmem)
  | write_undo c urb buf retval =>
    refine ⟨hfresh, hqueue, hgiving, ?_⟩
    cases buf with
    | false => exact hbuf
    | true => exact (Function.update_of_ne (hne hx) _ _).trans hbuf
  | _ => exact ⟨hfresh, hqueue, hgiving, hbuf⟩

lemma EnvStep.fresh_eq (h : EnvStep s t) : t.fresh = s.fresh := by
  cases h <;> rfl

/-- A completion leaves the urbs that are not with the core alone. -/
lemma EnvStep.private (h : EnvStep s t) (hu : s.Private u b) : t.Private u b := by
  obtain ⟨hfresh, hqueue, hgiving, hbuf⟩ := hu
  cases h with
  | giveback_done urb hmem | giveback_error urb st hmem =>
    have hne : u ≠ urb := fun hu => hqueue (hu ▸ hmem)
    refine ⟨hfresh, fun h => hqueue (List.mem_of_mem_erase h), fun h => ?_, hbuf⟩
    rcases List.mem_append.mp h with h | h
    · exact hgiving h
    · exact hne (List.mem_singleton.mp h)
  | finish urb hmem =>
    have hne : u ≠ urb := fun hu => hgiving (hu ▸ hmem)
    exact ⟨hfresh, hqueue, fun h => hgiving (List.mem_of_mem_erase h),
      (Function.update_of_ne hne _ _).trans hbuf⟩
  | _ => exact ⟨hfresh, hqueue, hgiving, hbuf⟩

/-- What a place knows is about its own urb. -/
lemma Pc.Known.frame (hz : z.Known s) (hfresh : s.fresh ≤ t.fresh)
    (h : ∀ u b, z.urb = some u → s.Private u b → t.Private u b) : z.Known t := by
  cases z with
  | writing c pc =>
    cases pc with
    | buffer urb => exact h _ _ rfl hz
    | copy urb => exact h _ _ rfl hz
    | lock urb => exact h _ _ rfl hz
    | held urb => exact h _ _ rfl hz
    | submit urb => exact h _ _ rfl hz
    | unlock urb retval =>
      simp only [Pc.Known, WritePc.Known] at hz ⊢
      split_ifs at hz ⊢
      · exact lt_of_lt_of_le hz hfresh
      · exact hz.imp_right (h _ _ rfl)
    | report urb retval => exact hz.imp_right (h _ _ rfl)
    | unanchor urb retval => exact hz.imp_right (h _ _ rfl)
    | free urb => exact lt_of_lt_of_le hz hfresh
    | error urb buf retval =>
      exact hz.imp_right fun hu u hurb => (hu u hurb).imp fun b hb => h u b hurb hb
    | _ => exact hz
  | _ => exact hz

lemma Step.unused (h : Step s x t y) (hs : s.Unused) (hx : x.Known s) : t.Unused := by
  obtain ⟨hsubmitted, hqueue, hgiving, hbuf⟩ := hs
  cases h with
  | write_alloc =>
    exact ⟨fun u hu => Nat.lt_succ_of_lt (hsubmitted u hu),
      fun u hu => Nat.lt_succ_of_lt (hqueue u hu), fun u hu => Nat.lt_succ_of_lt (hgiving u hu),
      fun u hu => hbuf u (Nat.le_of_succ_le hu)⟩
  | write_buffer c urb | write_copy c urb =>
    refine ⟨hsubmitted, hqueue, hgiving, fun u hu => ?_⟩
    have hne : u ≠ urb := (lt_of_lt_of_le hx.fresh hu).ne'
    exact (Function.update_of_ne hne _ _).trans (hbuf u hu)
  | write_anchor c urb =>
    refine ⟨fun u hu => ?_, hqueue, hgiving, hbuf⟩
    rcases List.mem_append.mp hu with hu | hu
    · exact hsubmitted u hu
    · exact List.mem_singleton.mp hu ▸ hx.fresh
  | write_submit c urb =>
    refine ⟨hsubmitted, fun u hu => ?_, hgiving, hbuf⟩
    rcases List.mem_append.mp hu with hu | hu
    · exact hqueue u hu
    · exact List.mem_singleton.mp hu ▸ hx.fresh
  | write_unanchor c urb retval =>
    exact ⟨fun u hu => hsubmitted u (List.mem_of_mem_erase hu), hqueue, hgiving, hbuf⟩
  | write_undo c urb buf retval =>
    refine ⟨hsubmitted, hqueue, hgiving, fun u hu => ?_⟩
    cases buf with
    | false => exact hbuf u hu
    | true =>
      by_cases hne : u = urb
      · exact hne ▸ Function.update_self _ _ _
      · exact (Function.update_of_ne hne _ _).trans (hbuf u hu)
  | _ => exact ⟨hsubmitted, hqueue, hgiving, hbuf⟩

lemma EnvStep.unused (h : EnvStep s t) (hs : s.Unused) : t.Unused := by
  obtain ⟨hsubmitted, hqueue, hgiving, hbuf⟩ := hs
  cases h with
  | giveback_done urb hmem | giveback_error urb st hmem =>
    refine ⟨fun u hu => hsubmitted u (List.mem_of_mem_erase hu),
      fun u hu => hqueue u (List.mem_of_mem_erase hu), fun u hu => ?_, hbuf⟩
    rcases List.mem_append.mp hu with hu | hu
    · exact hgiving u hu
    · exact List.mem_singleton.mp hu ▸ hqueue urb hmem
  | finish urb hmem =>
    refine ⟨hsubmitted, hqueue, fun u hu => hgiving u (List.mem_of_mem_erase hu), fun u hu => ?_⟩
    by_cases hne : u = urb
    · exact hne ▸ Function.update_self _ _ _
    · exact (Function.update_of_ne hne _ _).trans (hbuf u hu)
  | _ => exact ⟨hsubmitted, hqueue, hgiving, hbuf⟩

/-- What a writer does establishes what its next place knows. -/
lemma Step.known (h : Step s x t y) (hs : s.Unused) (hx : x.Known s) : y.Known t := by
  cases h with
  | write_zero c hzero =>
    refine Or.inr ?_
    rw [WriteCall.writesize, hzero, Nat.zero_min, Nat.cast_zero]
  | write_again c => exact Or.inl (by decide)
  | write_signal c => exact Or.inl (by decide)
  | write_error c herr => exact ⟨reported_neg herr, fun u hu => by cases hu⟩
  | write_alloc c =>
    exact ⟨Nat.lt_succ_self _, fun hu => lt_irrefl _ (hs.queue _ hu),
      fun hu => lt_irrefl _ (hs.giving _ hu), hs.buf _ le_rfl⟩
  | write_no_urb c => exact ⟨by decide, fun u hu => by cases hu⟩
  | write_buffer c urb => exact ⟨hx.fresh, hx.queue, hx.giving, Function.update_self _ _ _⟩
  | write_no_buffer c urb =>
    refine ⟨by decide, fun u hu => ?_⟩
    cases hu
    exact ⟨none, hx⟩
  | write_copy c urb => exact ⟨hx.fresh, hx.queue, hx.giving, Function.update_self _ _ _⟩
  | write_fault c urb =>
    refine ⟨by decide, fun u hu => ?_⟩
    cases hu
    exact ⟨some [], hx⟩
  | write_lock c urb => exact ⟨hx.fresh, hx.queue, hx.giving, hx.buf⟩
  | write_anchor c urb => exact ⟨hx.fresh, hx.queue, hx.giving, hx.buf⟩
  | write_gone c urb =>
    refine ⟨by decide, fun u hu => ?_⟩
    cases hu
    exact ⟨some c.payload, hx.fresh, hx.queue, hx.giving, hx.buf⟩
  | write_submit c urb =>
    simp only [Pc.Known, WritePc.Known, if_true]
    exact hx.fresh
  | write_refused c urb e he =>
    have hneg : -(e : ℤ) < 0 := by omega
    simp only [Pc.Known, WritePc.Known, if_neg hneg.ne]
    exact ⟨hneg, hx⟩
  | write_unlock c urb =>
    simp only [Pc.Known, WritePc.Known, if_true] at hx
    exact hx
  | write_unlock_refused c urb retval hret =>
    simp only [Pc.Known, WritePc.Known, if_neg hret] at hx
    exact ⟨hx.1, hx.2.fresh, hx.2.queue, hx.2.giving, hx.2.buf⟩
  | write_report c urb retval => exact hx
  | write_free c urb => exact Or.inr rfl
  | write_unanchor c urb retval =>
    refine ⟨hx.1, fun u hu => ?_⟩
    cases hu
    exact ⟨some c.payload, hx.2.fresh, hx.2.queue, hx.2.giving, hx.2.buf⟩
  | write_no_free c buf retval => exact hx.1
  | write_undo c urb buf retval => exact hx.1
  | write_up c retval => exact Or.inl hx
  | _ => trivial

/-- The urb of a writer is its own, or has just been allocated. -/
lemma Step.urb (h : Step s x t y) : y.urb = x.urb ∨ y.urb = none ∨ y.urb = some s.fresh := by
  cases h with
  | write_alloc => exact Or.inr (Or.inr rfl)
  | write_unlock_refused | write_unanchor => exact Or.inl rfl
  | _ => first
    | exact Or.inl rfl
    | exact Or.inr (Or.inl rfl)

/-- A place that has an urb knows that it is not from `fresh` on. -/
lemma Pc.Known.lt_fresh (hz : z.Known s) (hu : z.urb = some u) : u < s.fresh := by
  cases z with
  | writing c pc =>
    cases pc with
    | error urb buf retval =>
      obtain ⟨b, hb⟩ := hz.2 u hu
      exact hb.fresh
    | unlock urb retval =>
      cases hu
      simp only [Pc.Known, WritePc.Known] at hz
      split_ifs at hz
      · exact hz
      · exact hz.2.fresh
    | report urb retval | unanchor urb retval =>
      cases hu
      exact hz.2.fresh
    | free urb =>
      cases hu
      exact hz
    | buffer urb | copy urb | lock urb | held urb | submit urb =>
      cases hu
      exact hz.fresh
    | _ => cases hu
  | _ => cases hu

/-- The outline of `skel_write`. -/
def urbOutline : Parties.Outline Skel Pc where
  inv := Skel.Unused
  known s x := x.Known s
  apart := Pc.Apart

lemma urbOutline_valid : urbOutline.Valid driver where
  symm h u hy hx := h u hx hy
  act hact hs hx :=
    ⟨(step_of_act hact).unused hs hx, (step_of_act hact).known hs hx⟩
  other hact _ _ hz hxz := by
    have h := step_of_act hact
    refine ⟨hz.frame h.fresh_le fun u b hu => h.private fun hxu => hxz u hxu hu, fun u hy => ?_⟩
    rcases h.urb with hxy | hnone | hfresh
    · exact hxz u (hxy ▸ hy)
    · rw [hnone] at hy
      cases hy
    · rw [hfresh] at hy
      cases hy
      intro hzu
      exact lt_irrefl _ (hz.lt_fresh hzu)
  env henv hs :=
    ⟨(envStep_of_act henv).unused hs, fun z hz =>
      hz.frame (envStep_of_act henv).fresh_eq.ge fun u b _ => (envStep_of_act henv).private⟩

/-! ### The references -/

/-- What a place accounts for of urb `u`, where `f` tells which urb a place has. -/
def Pc.count (f : Pc → Option ℕ) (u : ℕ) (x : Pc) : ℕ := if f x = some u then 1 else 0

section

variable {f : Pc → Option ℕ}

lemma Pc.count_self (h : f x = some u) : x.count f u = 1 := if_pos h

lemma Pc.count_other {urb : ℕ} (h : f x = some urb) (hne : u ≠ urb) : x.count f u = 0 :=
  if_neg fun hu => hne (Option.some.inj (hu.symm.trans h))

lemma Pc.count_none (h : f x = none) : x.count f u = 0 := by
  rw [Pc.count, h, if_neg (by simp)]

lemma Pc.count_congr (h : f x = f y) : x.count f u = y.count f u := by
  rw [Pc.count, Pc.count, h]

end

/-- How often the core has an urb, up to the end of its completion handler. -/
def Skel.inCore (s : Skel) (u : ℕ) : ℕ := s.queue.count u + s.giving.count u

/-- The references to an urb that are not a writer's: the anchor's and the core's. -/
def Skel.owed (s : Skel) (u : ℕ) : ℕ := s.submitted.count u + s.inCore u

/-- The core still has an urb while its completion handler runs. -/
lemma Skel.inCore_giveback {urb : ℕ} (hmem : urb ∈ s.queue) :
    (s.queue.erase urb).count u + (s.giving ++ [urb]).count u = s.inCore u := by
  rw [Skel.inCore, List.count_append]
  by_cases hu : u = urb
  · subst hu
    have hpos := List.count_pos_iff.mpr hmem
    rw [List.count_erase_self, List.count_singleton_self]
    omega
  · rw [List.count_erase_of_ne hu, List.count_singleton, if_neg (by simpa using Ne.symm hu)]
    rfl

/-- Taking an urb off the anchor drops the anchor's reference, if there is one. -/
lemma Skel.refs_unanchor {r urb : ℕ} (hr : s.refs u = s.owed u + r) :
    (s.usb_unanchor_urb urb).refs u = (s.usb_unanchor_urb urb).owed u + r := by
  simp only [Skel.owed, Skel.inCore, Skel.usb_unanchor_urb] at hr ⊢
  by_cases hmem : urb ∈ s.submitted
  · rw [if_pos hmem]
    by_cases hu : u = urb
    · subst hu
      have hpos := List.count_pos_iff.mpr hmem
      rw [Function.update_self, List.count_erase_self]
      omega
    · rw [Function.update_of_ne hu, List.count_erase_of_ne hu]
      exact hr
  · rw [if_neg hmem, List.erase_of_not_mem hmem]
    exact hr

/-- The ledger of the references to one urb. -/
lemma Step.refs (h : Step s x t y) (hfresh : s.refs s.fresh = 0) {r : ℕ}
    (hr : s.refs u = s.owed u + (x.count Pc.urb u + r)) :
    t.refs u = t.owed u + (y.count Pc.urb u + r) := by
  cases h with
  | write_alloc c =>
    rw [Pc.count_none rfl] at hr
    by_cases hu : u = s.fresh
    · subst hu
      rw [Pc.count_self rfl]
      simp only [Skel.owed, Skel.inCore, Function.update_self] at hr ⊢
      omega
    · rw [Pc.count_other rfl hu]
      exact (Function.update_of_ne hu _ _).trans hr
  | write_anchor c urb =>
    by_cases hu : u = urb
    · subst hu
      rw [Pc.count_self rfl] at hr ⊢
      simp only [Skel.owed, Skel.inCore, Function.update_self, List.count_append, List.count_singleton_self]
        at hr ⊢
      omega
    · rw [Pc.count_other rfl hu] at hr ⊢
      simp only [Skel.owed, Skel.inCore, Function.update_of_ne hu, List.count_append] at hr ⊢
      rw [List.count_singleton, if_neg (by simpa using Ne.symm hu)]
      omega
  | write_submit c urb =>
    by_cases hu : u = urb
    · subst hu
      rw [Pc.count_self rfl] at hr ⊢
      simp only [Skel.owed, Skel.inCore, Function.update_self, List.count_append, List.count_singleton_self]
        at hr ⊢
      omega
    · rw [Pc.count_other rfl hu] at hr ⊢
      simp only [Skel.owed, Skel.inCore, Function.update_of_ne hu, List.count_append] at hr ⊢
      rw [List.count_singleton, if_neg (by simpa using Ne.symm hu)]
      omega
  | write_free c urb =>
    rw [Pc.count_none rfl]
    by_cases hu : u = urb
    · subst hu
      rw [Pc.count_self rfl] at hr
      simp only [Skel.owed, Skel.inCore, Skel.usb_free_urb, Function.update_self] at hr ⊢
      omega
    · rw [Pc.count_other rfl hu] at hr
      exact (Function.update_of_ne hu _ _).trans hr
  | write_undo c urb buf retval =>
    rw [Pc.count_none rfl]
    by_cases hu : u = urb
    · subst hu
      rw [Pc.count_self rfl] at hr
      simp only [Skel.owed, Skel.inCore, Skel.usb_free_urb, Skel.usb_free_coherent, Function.update_self]
        at hr ⊢
      omega
    · rw [Pc.count_other rfl hu] at hr
      exact (Function.update_of_ne hu _ _).trans hr
  | write_unanchor c urb retval =>
    exact Skel.refs_unanchor hr
  | _ => exact hr

lemma EnvStep.refs (h : EnvStep s t) {r : ℕ} (hr : s.refs u = s.owed u + r) :
    t.refs u = t.owed u + r := by
  have hgive : ∀ urb ∈ s.queue,
      ({ s with queue := s.queue.erase urb, giving := s.giving ++ [urb] } : Skel).owed u
        = s.owed u := fun urb hmem =>
    congrArg (s.submitted.count u + ·) (Skel.inCore_giveback hmem)
  cases h with
  | giveback_done urb hmem => exact Skel.refs_unanchor (hr.trans (by rw [hgive urb hmem]))
  | giveback_error urb st hmem => exact Skel.refs_unanchor (hr.trans (by rw [hgive urb hmem]))
  | finish urb hmem =>
    simp only [Skel.owed, Skel.inCore, Skel.usb_free_urb, Skel.usb_free_coherent] at hr ⊢
    by_cases hu : u = urb
    · subst hu
      have hpos := List.count_pos_iff.mpr hmem
      rw [Function.update_self, List.count_erase_self]
      omega
    · rw [Function.update_of_ne hu, List.count_erase_of_ne hu]
      exact hr
  | _ => exact hr

/-! ### The buffers -/

/-- The urb whose transfer buffer a place in `skel_write` owns. -/
def WritePc.owns : WritePc → Option ℕ
  | .copy urb | .lock urb | .held urb | .submit urb | .report urb _ | .unanchor urb _ => some urb
  | .unlock urb retval => if retval = 0 then none else some urb
  | .error urb buf _ => if buf then urb else none
  | _ => none

def Pc.owns : Pc → Option ℕ
  | .writing _ pc => pc.owns
  | _ => none

/-- The ledger of one transfer buffer. -/
lemma Step.bufs (h : Step s x t y) (hx : x.Known s) {r : ℕ}
    (hr : (s.buf u).isSome.toNat = s.inCore u + (x.count Pc.owns u + r)) :
    (t.buf u).isSome.toNat = t.inCore u + (y.count Pc.owns u + r) := by
  cases h with
  | write_buffer c urb =>
    rw [Pc.count_none rfl] at hr
    by_cases hu : u = urb
    · subst hu
      rw [hx.buf] at hr
      rw [Pc.count_self rfl]
      simp only [Skel.inCore, Function.update_self, Option.isSome_none, Option.isSome_some,
        Bool.toNat_false, Bool.toNat_true] at hr ⊢
      omega
    · rw [Pc.count_other rfl hu]
      simp only [Function.update_of_ne hu]
      exact hr
  | write_copy c urb =>
    by_cases hu : u = urb
    · subst hu
      rw [hx.buf] at hr
      rw [Pc.count_self rfl] at hr ⊢
      simp only [Skel.inCore, Function.update_self, Option.isSome_some] at hr ⊢
      exact hr
    · rw [Pc.count_other rfl hu] at hr ⊢
      simp only [Function.update_of_ne hu]
      exact hr
  | write_submit c urb =>
    rw [Pc.count_none (x := .writing c (.unlock urb 0)) rfl]
    by_cases hu : u = urb
    · subst hu
      rw [Pc.count_self rfl] at hr
      simp only [Skel.inCore, List.count_append, List.count_singleton_self] at hr ⊢
      omega
    · rw [Pc.count_other rfl hu] at hr
      simp only [Skel.inCore, List.count_append] at hr ⊢
      rw [List.count_singleton, if_neg (by simpa using Ne.symm hu)]
      exact hr
  | write_refused c urb e he =>
    have hret : -(e : ℤ) ≠ 0 := by omega
    have howns : Pc.owns (.writing c (.unlock urb (-e))) = some urb := if_neg hret
    rw [Pc.count_congr (y := .writing c (.submit urb)) howns]
    exact hr
  | write_unlock_refused c urb retval hret =>
    have howns : Pc.owns (.writing c (.unlock urb retval)) = some urb := if_neg hret
    rw [Pc.count_congr (y := .writing c (.unlock urb retval)) howns.symm]
    exact hr
  | write_no_free c buf retval => cases buf <;> exact hr
  | write_undo c urb buf retval =>
    rw [Pc.count_none (x := .writing c (.up retval)) rfl]
    cases buf with
    | false => exact hr
    | true =>
      by_cases hu : u = urb
      · subst hu
        have hle := Bool.toNat_le (s.buf u).isSome
        rw [Pc.count_self rfl] at hr
        simp only [Skel.inCore, Skel.usb_free_urb, Skel.usb_free_coherent, if_true,
          Function.update_self, Option.isSome_none, Bool.toNat_false] at hr ⊢
        omega
      · rw [Pc.count_other (x := .writing c (.error (some urb) true retval)) rfl hu] at hr
        simp only [Skel.usb_free_urb, Skel.usb_free_coherent, if_true, Function.update_of_ne hu]
        exact hr
  | _ => exact hr

lemma EnvStep.bufs (h : EnvStep s t) {r : ℕ} (hr : (s.buf u).isSome.toNat = s.inCore u + r) :
    (t.buf u).isSome.toNat = t.inCore u + r := by
  cases h with
  | giveback_done urb hmem => exact hr.trans (congrArg (· + r) (Skel.inCore_giveback hmem).symm)
  | giveback_error urb st hmem => exact hr.trans (congrArg (· + r) (Skel.inCore_giveback hmem).symm)
  | finish urb hmem =>
    simp only [Skel.inCore, Skel.usb_free_urb, Skel.usb_free_coherent, if_true] at hr ⊢
    by_cases hu : u = urb
    · subst hu
      have hpos := List.count_pos_iff.mpr hmem
      have hle := Bool.toNat_le (s.buf u).isSome
      rw [Function.update_self, List.count_erase_self]
      simp only [Option.isSome_none, Bool.toNat_false]
      omega
    · rw [Function.update_of_ne hu, List.count_erase_of_ne hu]
      exact hr
  | _ => exact hr

/-! ### The bytes -/

/-- The payload that the core has accepted from a writer that is about to return. -/
def WritePc.accepted (c : WriteCall) : WritePc → Multiset (List UInt8)
  | .unlock _ retval => if retval = 0 then {c.payload} else 0
  | .free _ => {c.payload}
  | _ => 0

def Pc.accepted : Pc → Multiset (List UInt8)
  | .writing c pc => pc.accepted c
  | _ => 0

lemma Step.sent (h : Step s x t y) (hx : x.Known s) {r : Multiset (List UInt8)}
    (hr : (s.sent : Multiset (List UInt8)) = s.written + (x.accepted + r)) :
    (t.sent : Multiset (List UInt8)) = t.written + (y.accepted + r) := by
  cases h with
  | write_submit c urb =>
    have hbuf : s.buf urb = some c.payload := hx.buf
    simp only [Pc.accepted, WritePc.accepted, if_true, hbuf, Option.getD_some, zero_add,
      ← Multiset.coe_add, Multiset.coe_singleton] at hr ⊢
    rw [hr, add_assoc, add_comm r]
  | write_refused c urb e he =>
    have hret : -(e : ℤ) ≠ 0 := by omega
    simp only [Pc.accepted, WritePc.accepted, if_neg hret] at hr ⊢
    exact hr
  | write_unlock_refused c urb retval hret =>
    simp only [Pc.accepted, WritePc.accepted, if_neg hret] at hr ⊢
    exact hr
  | write_free c urb =>
    simp only [Pc.accepted, WritePc.accepted, Skel.usb_free_urb, ← Multiset.coe_add,
      Multiset.coe_singleton, zero_add] at hr ⊢
    rw [hr, add_assoc]
  | _ => exact hr

lemma EnvStep.sent (h : EnvStep s t) : t.sent = s.sent ∧ t.written = s.written := by
  cases h <;> exact ⟨rfl, rfl⟩

/-! ### Every run -/

section

variable {ι : Type} [Fintype ι] [DecidableEq ι] {v v' : Parties.State Skel Pc ι}
  {m : Parties.Move ι Act Env} {tr : List (Parties.Move ι Act Env × Parties.State Skel Pc ι)}
  {buf : List UInt8}

/-- What holds of the write urbs. -/
structure Accounted (v : Parties.State Skel Pc ι) : Prop where
  outline : urbOutline.Holds v
  refs : ∀ u, v.shared.refs u = v.shared.owed u + Parties.tally (Pc.count Pc.urb u) v.place
  bufs : ∀ u, (v.shared.buf u).isSome.toNat =
    v.shared.inCore u + Parties.tally (Pc.count Pc.owns u) v.place
  sent : (v.shared.sent : Multiset (List UInt8)) =
    v.shared.written + Parties.tally Pc.accepted v.place

omit [DecidableEq ι] in
/-- Memory that has not been allocated has no references. -/
lemma Accounted.refs_fresh (hv : Accounted v) : v.shared.refs v.shared.fresh = 0 := by
  have hunused : v.shared.Unused := hv.outline.inv
  have hcount : ∀ {l : List ℕ}, (∀ u ∈ l, u < v.shared.fresh) → l.count v.shared.fresh = 0 :=
    fun h => List.count_eq_zero_of_not_mem fun hu => lt_irrefl _ (h _ hu)
  have htally : Parties.tally (Pc.count Pc.urb v.shared.fresh) v.place = 0 :=
    Parties.tally_eq_zero fun i => if_neg fun hu =>
      lt_irrefl _ (Pc.Known.lt_fresh (hv.outline.known i) hu)
  rw [hv.refs, Skel.owed, Skel.inCore, hcount hunused.submitted, hcount hunused.queue,
    hcount hunused.giving, htally]

lemma Accounted.next (hv : Accounted v) (h : driver.next v m = some v') : Accounted v' where
  outline := urbOutline_valid.next hv.outline h
  refs u := by
    refine Parties.next_ledger (c := fun s : Skel => s.refs u) (m := fun s => s.owed u) h
      (fun i a y hact r hr => ?_) (fun e henv r hr => ?_) (hv.refs u)
    · exact (step_of_act hact).refs hv.refs_fresh hr
    · exact (envStep_of_act henv).refs hr
  bufs u := by
    refine Parties.next_ledger (c := fun s : Skel => (s.buf u).isSome.toNat)
      (m := fun s => s.inCore u) h (fun i a y hact r hr => ?_) (fun e henv r hr => ?_)
      (hv.bufs u)
    · exact (step_of_act hact).bufs (hv.outline.known i) hr
    · exact (envStep_of_act henv).bufs hr
  sent := by
    refine Parties.next_ledger (c := fun s : Skel => (s.sent : Multiset (List UInt8)))
      (m := fun s => (s.written : Multiset (List UInt8))) h (fun i a y hact r hr => ?_)
      (fun e henv r hr => ?_) hv.sent
    · exact (step_of_act hact).sent (hv.outline.known i) hr
    · obtain ⟨hsent, hwritten⟩ := (envStep_of_act henv).sent
      rw [hsent, hwritten]
      exact hr

omit [DecidableEq ι] in
lemma accounted_start : Accounted (start ι buf) where
  outline := ⟨⟨by simp [start, Skel.probed], by simp [start, Skel.probed],
    by simp [start, Skel.probed], fun _ _ => rfl⟩, fun _ => trivial, fun _ _ _ u hu => by cases hu⟩
  refs u := by simp [start, Skel.probed, Skel.owed, Skel.inCore, Parties.tally, Pc.count, Pc.urb]
  bufs u := by simp [start, Skel.probed, Skel.inCore, Parties.tally, Pc.count, Pc.owns]
  sent := by simp [start, Skel.probed, Parties.tally, Pc.accepted]

lemma Accounted.always (hr : driver.system.Run (start ι buf) tr) :
    System.Always Accounted (start ι buf) tr :=
  hr.always (fun _ _ _ hs hstep => hs.next hstep) accounted_start

/-- Whatever fails, and however writers and completions interleave: the references to a write urb
are the anchor's, the core's and its writer's, and its transfer buffer is allocated exactly while
the core has the urb or a writer owns the buffer. So an urb and its buffer are freed by whoever
uses them last, and nothing is left when nobody uses them. -/
theorem urbs_accounted (hr : driver.system.Run (start ι buf) tr) :
    System.Always (fun v => ∀ u,
      v.shared.refs u = v.shared.submitted.count u + (v.shared.queue.count u +
        v.shared.giving.count u) + Parties.tally (Pc.count Pc.urb u) v.place ∧
      (v.shared.buf u).isSome.toNat = v.shared.queue.count u + v.shared.giving.count u +
        Parties.tally (Pc.count Pc.owns u) v.place) (start ι buf) tr :=
  (Accounted.always hr).mono fun _ h u => ⟨h.refs u, h.bufs u⟩

/-- A write that does not fail returns the size of its payload, the first `MAX_TRANSFER` bytes at
most, and the payloads that the core has accepted are those of the writes that returned their
size, each once, and of the writers that are about to. -/
theorem writes_exact (hr : driver.system.Run (start ι buf) tr) :
    System.Always (fun v =>
      (v.shared.sent : Multiset (List UInt8)) =
        v.shared.written + Parties.tally Pc.accepted v.place ∧
      ∀ p c ret, v.place p = .writeRet c ret → ret < 0 ∨ ret = c.writesize) (start ι buf) tr := by
  refine (Accounted.always hr).mono fun v h => ⟨h.sent, fun p c ret hp => ?_⟩
  have hknown : (v.place p).Known v.shared := h.outline.known p
  rwa [hp] at hknown

end

lemma session_urbs_accounted : ∃ tr, driver.system.Run (start (Fin 2) [0, 0, 0, 0]) tr ∧
    tr.map Prod.fst = session ∧
    System.Always (fun v => ∀ u,
      v.shared.refs u = v.shared.submitted.count u + (v.shared.queue.count u +
        v.shared.giving.count u) + Parties.tally (Pc.count Pc.urb u) v.place ∧
      (v.shared.buf u).isSome.toNat = v.shared.queue.count u + v.shared.giving.count u +
        Parties.tally (Pc.count Pc.owns u) v.place) (start (Fin 2) [0, 0, 0, 0]) tr := by
  obtain ⟨tr, hrun, hacts⟩ := exists_session
  exact ⟨tr, hrun, hacts, urbs_accounted hrun⟩

lemma session_writes_exact : ∃ tr, driver.system.Run (start (Fin 2) [0, 0, 0, 0]) tr ∧
    tr.map Prod.fst = session ∧
    System.Always (fun v =>
      (v.shared.sent : Multiset (List UInt8)) =
        v.shared.written + Parties.tally Pc.accepted v.place ∧
      ∀ p c ret, v.place p = .writeRet c ret → ret < 0 ∨ ret = c.writesize)
      (start (Fin 2) [0, 0, 0, 0]) tr := by
  obtain ⟨tr, hrun, hacts⟩ := exists_session
  exact ⟨tr, hrun, hacts, writes_exact hrun⟩

end QuickDevSkeleton.UsbSkel
