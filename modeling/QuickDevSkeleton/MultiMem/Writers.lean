import QuickDevSkeleton.Foundations.System
import QuickDevSkeleton.MultiMem.Device

/-!
# Concurrent writers

Any number of processes in `my_write` on one minor. A call stops where another one can run: once
it has computed its count, and once it has copied its bytes; nothing keeps other calls out in
between. When the buffer stays bounded all the same, and every acknowledged byte in place.
-/

namespace QuickDevSkeleton.MultiMem

open Foundations

/-! ### The three parts of `my_write` -/

/-- The bytes that a call is going to copy: the caller's data, cut to the room it has found. -/
def Mydev.cut (dev : Mydev) (data : List UInt8) : List UInt8 :=
  data.take (min data.length (toSizeT ((dev.end_ : ℤ) - dev.wp)))

/-- Where a call is: outside, at `copy_from_user` with the bytes to copy, or at `dev->wp += count`
with the bytes it has copied and where. -/
inductive Phase where
  | idle
  | copying (bytes : List UInt8)
  | advancing (at_ : ℕ) (bytes : List UInt8)

/-- Bytes whose number a successful write has returned, and where it has put them. -/
structure Ack where
  addr : ℕ
  bytes : List UInt8
  deriving DecidableEq

/-- The minor and its processes; `copies` are the blocks that `copy_from_user` has stored to so
far and `acks` the writes that have succeeded. -/
structure Writers where
  dev : Mydev
  mem : Memory UInt8
  procs : ℕ → Phase
  copies : List Block
  acks : List Ack

/-- A process enters `my_write` and computes its count, makes its copy, or advances `wp`. -/
inductive WriterAct where
  | check (p : ℕ) (data : List UInt8)
  | copy (p : ℕ) (c : UserCopy)
  | advance (p : ℕ)

namespace Writers

variable (s : Writers)

def goto (p : ℕ) (ph : Phase) : Writers :=
  { s with procs := Function.update s.procs p ph }

/-- One part of a call, if the process is there. -/
def next : WriterAct → Option Writers
  | .check p data =>
    match s.procs p with
    | .idle =>
      let bytes := s.dev.cut data
      some (if bytes.length = 0 then s else s.goto p (.copying bytes))
    | _ => none
  | .copy p c =>
    match s.procs p with
    | .copying bytes =>
      let (mem, missing) := c.copy_from_user s.mem s.dev.wp bytes
      let s := { s with
        mem := mem
        copies := ⟨s.dev.wp, (c.stored bytes).length⟩ :: s.copies }
      some (s.goto p (if missing ≠ 0 then .idle else .advancing s.dev.wp bytes))
    | _ => none
  | .advance p =>
    match s.procs p with
    | .advancing at_ bytes =>
      let s := { s with
        dev := { s.dev with wp := s.dev.wp + bytes.length }
        acks := ⟨at_, bytes⟩ :: s.acks }
      some (s.goto p .idle)
    | _ => none

end Writers

/-- The processes on one minor. -/
def writers : System Writers WriterAct :=
  System.ofPartial Writers.next

/-- A call that nobody interrupts is `my_write`. -/
lemma my_write_eq (w : World) (filp : File) (data : List UInt8) (c : UserCopy) :
    my_write w filp data c =
      let dev := w.structs filp.private_data
      let bytes := dev.cut data
      if bytes.length = 0 then (w, 0)
      else
        let (mem, missing) := c.copy_from_user w.mem dev.wp bytes
        if missing ≠ 0 then ({ w with mem := mem }, -EFAULT)
        else ({ w with
          mem := mem
          structs := Function.update w.structs filp.private_data
            { dev with wp := dev.wp + bytes.length } }, bytes.length) := by
  have hlen : ((w.structs filp.private_data).cut data).length =
      min data.length (toSizeT (((w.structs filp.private_data).end_ : ℤ) -
        (w.structs filp.private_data).wp)) := by
    rw [Mydev.cut, List.length_take, Nat.min_eq_left (Nat.min_le_left _ _)]
  simp only [my_write, hlen]
  by_cases hzero : min data.length (toSizeT (((w.structs filp.private_data).end_ : ℤ) -
      (w.structs filp.private_data).wp)) = 0
  · rw [if_pos hzero.symm, if_pos hzero]
  · rw [if_neg (Ne.symm hzero), if_neg hzero]
    rfl

/-! ### What is to hold, and when it does -/

/-- The pointer is in the buffer, no copy has left it, and the acknowledged bytes lie apart and
are still there. -/
structure Writers.Bounded (s : Writers) : Prop where
  start_le : s.dev.start ≤ s.dev.wp
  le_end : s.dev.wp ≤ s.dev.end_
  copies : ∀ b ∈ s.copies, s.dev.start ≤ b.addr ∧ b.addr + b.size ≤ s.dev.end_
  apart : s.acks.Pairwise fun a b => Block.Apart ⟨a.addr, a.bytes.length⟩ ⟨b.addr, b.bytes.length⟩
  kept : ∀ a ∈ s.acks, s.mem.read a.addr a.bytes.length = a.bytes

/-- A copy stores nothing behind the end, and nothing at all while another write is about to
advance `wp`. -/
def Writers.CopyOk (s : Writers) : WriterAct → Prop
  | .copy p c => ∀ bytes, s.procs p = .copying bytes →
      s.dev.wp + (c.stored bytes).length ≤ s.dev.end_ ∧
        (c.stored bytes ≠ [] → ∀ q at_ bs, s.procs q ≠ .advancing at_ bs)
  | _ => True

/-- No process is in a call. -/
structure Writers.Fresh (s : Writers) : Prop where
  start_le : s.dev.start ≤ s.dev.wp
  le_end : s.dev.wp ≤ s.dev.end_
  procs : ∀ p, s.procs p = .idle
  copies : s.copies = []
  acks : s.acks = []

/-- What the steps keep: the acknowledged bytes lie below `wp`, and the bytes of the one write
that is about to advance lie there. -/
structure Writers.Inv (s : Writers) : Prop extends s.Bounded where
  below : ∀ a ∈ s.acks, a.addr + a.bytes.length ≤ s.dev.wp
  nonempty : ∀ p bytes, s.procs p = .copying bytes → bytes ≠ []
  copied : ∀ p at_ bytes, s.procs p = .advancing at_ bytes → at_ = s.dev.wp ∧
    s.dev.wp + bytes.length ≤ s.dev.end_ ∧ s.mem.read s.dev.wp bytes.length = bytes
  alone : ∀ p q at_ bs at_' bs', s.procs p = .advancing at_ bs → s.procs q = .advancing at_' bs' →
    p = q

namespace Writers

variable {s t : Writers} {p q : ℕ}

@[simp] lemma goto_self {ph : Phase} : (s.goto p ph).procs p = ph :=
  Function.update_self _ _ _

lemma goto_other {ph : Phase} (h : q ≠ p) : (s.goto p ph).procs q = s.procs q :=
  Function.update_of_ne h _ _

lemma Fresh.inv (h : s.Fresh) : s.Inv where
  start_le := h.start_le
  le_end := h.le_end
  copies b hb := by
    rw [h.copies] at hb
    cases hb
  apart := by
    rw [h.acks]
    exact List.Pairwise.nil
  kept a ha := by
    rw [h.acks] at ha
    cases ha
  below a ha := by
    rw [h.acks] at ha
    cases ha
  nonempty p bytes hp := by
    rw [h.procs p] at hp
    cases hp
  copied p at_ bytes hp := by
    rw [h.procs p] at hp
    cases hp
  alone p q at_ bs at_' bs' hp _ := by
    rw [h.procs p] at hp
    cases hp

/-- A process enters, or leaves without having copied. -/
lemma Inv.goto {ph : Phase} (h : s.Inv) (hph : ∀ at_ bs, ph ≠ .advancing at_ bs)
    (hbytes : ∀ bytes, ph = .copying bytes → bytes ≠ []) : (s.goto p ph).Inv where
  start_le := h.start_le
  le_end := h.le_end
  copies := h.copies
  apart := h.apart
  kept := h.kept
  below := h.below
  nonempty q bytes hq := by
    by_cases hqp : q = p
    · rw [hqp, goto_self] at hq
      exact hbytes bytes hq
    · rw [goto_other hqp] at hq
      exact h.nonempty q bytes hq
  copied q at_ bs hq := h.copied q at_ bs (System.of_update (hph at_ bs) hq).2
  alone q r at_ bs at_' bs' hq hr :=
    h.alone q r at_ bs at_' bs' (System.of_update (hph at_ bs) hq).2
      (System.of_update (hph at_' bs') hr).2

/-- A copy that meets the condition, and leaves its process where it is. -/
lemma Inv.store (h : s.Inv) {bs : List UInt8} (hle : s.dev.wp + bs.length ≤ s.dev.end_)
    (halone : bs ≠ [] → ∀ q at_ bs', s.procs q ≠ .advancing at_ bs') :
    Inv { s with
      mem := s.mem.write s.dev.wp bs
      copies := ⟨s.dev.wp, bs.length⟩ :: s.copies } where
  start_le := h.start_le
  le_end := h.le_end
  copies b hb := by
    rcases List.mem_cons.mp hb with rfl | hb
    · exact ⟨h.start_le, hle⟩
    · exact h.copies b hb
  apart := h.apart
  kept a ha := by
    change (s.mem.write s.dev.wp bs).read a.addr a.bytes.length = a.bytes
    rw [Memory.read_write_disjoint _ (Or.inl (h.below a ha))]
    exact h.kept a ha
  below := h.below
  nonempty := h.nonempty
  copied q at_ bs' hq := by
    obtain ⟨hat, hend, hread⟩ := h.copied q at_ bs' hq
    have hnil : bs = [] := by
      by_contra hne
      exact halone hne q at_ bs' hq
    refine ⟨hat, hend, ?_⟩
    change (s.mem.write s.dev.wp bs).read s.dev.wp bs'.length = bs'
    rw [hnil, Memory.write_nil]
    exact hread
  alone := h.alone

/-- A process has copied its bytes to `wp`, and no other one is about to advance. -/
lemma Inv.reach {bytes : List UInt8} (h : s.Inv)
    (hnone : ∀ q at_ bs, s.procs q ≠ .advancing at_ bs)
    (hle : s.dev.wp + bytes.length ≤ s.dev.end_)
    (hread : s.mem.read s.dev.wp bytes.length = bytes) :
    (s.goto p (.advancing s.dev.wp bytes)).Inv := by
  have honly : ∀ q at_ bs, (s.goto p (.advancing s.dev.wp bytes)).procs q = .advancing at_ bs →
      q = p := by
    intro q at_ bs hq
    by_contra hqp
    rw [goto_other hqp] at hq
    exact hnone q at_ bs hq
  refine ⟨⟨h.start_le, h.le_end, h.copies, h.apart, h.kept⟩, h.below, ?_, ?_, ?_⟩
  · exact fun q bs hq => h.nonempty q bs (System.of_update Phase.noConfusion hq).2
  · intro q at_ bs hq
    rw [honly q at_ bs hq, goto_self] at hq
    cases hq
    exact ⟨rfl, hle, hread⟩
  · intro q r at_ bs at_' bs' hq hr
    rw [honly q at_ bs hq, honly r at_' bs' hr]

/-- The one process that is about to advance does so: its bytes are acknowledged. -/
lemma Inv.acknowledge {at_ : ℕ} {bytes : List UInt8} (h : s.Inv)
    (hp : s.procs p = .advancing at_ bytes) :
    (Writers.goto { s with
      dev := { s.dev with wp := s.dev.wp + bytes.length }
      acks := ⟨at_, bytes⟩ :: s.acks } p .idle).Inv := by
  obtain ⟨rfl, hend, hread⟩ := h.copied p at_ bytes hp
  have hnone : ∀ q at_ bs, (s.goto p .idle).procs q ≠ .advancing at_ bs := by
    intro q at_ bs hq
    obtain ⟨hqp, hq⟩ := System.of_update Phase.noConfusion hq
    exact hqp (h.alone q p _ _ _ _ hq hp)
  refine ⟨⟨Nat.le_add_right_of_le h.start_le, hend, h.copies, ?_, ?_⟩, ?_, ?_, ?_, ?_⟩
  · exact List.pairwise_cons.mpr ⟨fun a ha => Or.inr (h.below a ha), h.apart⟩
  · intro a ha
    rcases List.mem_cons.mp ha with rfl | ha
    · exact hread
    · exact h.kept a ha
  · intro a ha
    rcases List.mem_cons.mp ha with rfl | ha
    · exact Nat.le_refl _
    · exact Nat.le_add_right_of_le (h.below a ha)
  · exact fun q bs hq => h.nonempty q bs (System.of_update Phase.noConfusion hq).2
  · exact fun q at_ bs hq => absurd hq (hnone q at_ bs)
  · exact fun q r at_ bs _ _ hq _ => absurd hq (hnone q at_ bs)

/-- The steps that meet the condition keep the invariant. -/
lemma Inv.step {a : WriterAct} (h : s.Inv) (hok : s.CopyOk a) (hstep : writers.step s a t) :
    t.Inv := by
  have hnext : s.next a = some t := hstep
  cases a with
  | check p data =>
    simp only [next] at hnext
    split at hnext
    · cases hnext
      split_ifs with hzero
      · exact h
      · refine h.goto (fun _ _ hph => nomatch hph) fun bytes hbytes => ?_
        cases hbytes
        exact fun hnil => hzero (congrArg List.length hnil)
    · cases hnext
  | copy p c =>
    simp only [next] at hnext
    split at hnext
    · next bytes hp =>
      obtain ⟨hle, halone⟩ := hok bytes hp
      have hstore := h.store hle halone
      cases hnext
      split_ifs with hmissing
      · exact hstore.goto (fun _ _ hph => nomatch hph) fun _ hph => nomatch hph
      · have hstored : c.stored bytes = bytes := c.stored_ok (not_not.mp hmissing)
        refine hstore.reach (halone ?_) ?_ ?_
        · rw [hstored]
          exact h.nonempty p bytes hp
        · rwa [hstored] at hle
        · rw [hstored]
          exact Memory.read_write_same _ _ _
    · cases hnext
  | advance p =>
    simp only [next] at hnext
    split at hnext
    · next at_ bytes hp =>
      cases hnext
      exact h.acknowledge hp
    · cases hnext

end Writers

/-- Along every run of any number of writers whose copies all meet the condition, the pointer
stays in the buffer, no copy leaves it, and the acknowledged bytes lie apart and stay. -/
theorem bounded_of_copyOk (s : Writers) (tr : List (WriterAct × Writers)) (h : s.Fresh)
    (hrun : writers.Run s tr) (hok : System.Along Writers.CopyOk s tr) :
    System.Always Writers.Bounded s tr :=
  (hrun.always_of_along (fun _ _ _ => Writers.Inv.step) h.inv hok).mono
    fun _ => Writers.Inv.toBounded

/-- An empty buffer of `size` bytes that nobody writes to. -/
def Writers.init (size : ℕ) : Writers where
  dev := ⟨4096, 4096 + size, 4096, size⟩
  mem _ := 0
  procs _ := .idle
  copies := []
  acks := []

lemma Writers.fresh_init (size : ℕ) : (Writers.init size).Fresh :=
  ⟨Nat.le_refl _, Nat.le_add_right _ _, fun _ => rfl, rfl, rfl⟩

/-! ### A few processes -/

def WriterAct.proc : WriterAct → ℕ
  | .check p _ | .copy p _ | .advance p => p

def Phase.isAdvancing : Phase → Bool
  | .advancing _ _ => true
  | _ => false

/-- A step of one of the first `n` processes, which is no copy that goes wrong if nobody else is in
a call. -/
def Writers.CopyOkBelow (n : ℕ) (s : Writers) (a : WriterAct) : Bool :=
  a.proc < n &&
    match a with
    | .copy p c =>
      match s.procs p with
      | .copying bytes => s.dev.wp + (c.stored bytes).length ≤ s.dev.end_ ∧
          ∀ q < n, (s.procs q).isAdvancing = false
      | _ => true
    | _ => true

/-- Nobody but the first `n` processes is in a call. -/
def Writers.IdleFrom (n : ℕ) (s : Writers) : Prop := ∀ q, n ≤ q → s.procs q = .idle

lemma Writers.next_other {s t : Writers} {a : WriterAct} {q : ℕ} (h : s.next a = some t)
    (hq : q ≠ a.proc) : t.procs q = s.procs q := by
  cases a with
  | check p data =>
    simp only [next] at h
    split at h
    · cases h
      split_ifs
      · rfl
      · exact goto_other hq
    · cases h
  | copy p c =>
    simp only [next] at h
    split at h
    · cases h
      exact goto_other hq
    · cases h
  | advance p =>
    simp only [next] at h
    split at h
    · cases h
      exact goto_other hq
    · cases h

lemma Writers.CopyOkBelow.copyOk {n : ℕ} {s : Writers} {a : WriterAct} (hs : s.IdleFrom n)
    (h : s.CopyOkBelow n a = true) : s.CopyOk a := by
  obtain ⟨-, ha⟩ := Bool.and_eq_true_iff.mp h
  cases a with
  | copy p c =>
    intro bytes hbytes
    simp only [hbytes, decide_eq_true_eq] at ha
    refine ⟨ha.1, fun _ q at_ bs hq => ?_⟩
    rcases Nat.lt_or_ge q n with hlt | hge
    · have hfalse := ha.2 q hlt
      rw [hq] at hfalse
      cases hfalse
    · rw [hs q hge] at hq
      cases hq
  | _ => exact trivial

/-- A run of given steps of the first `n` processes whose copies are evaluated to be right. -/
lemma Writers.exists_run_copyOk {n : ℕ} {s t : Writers} {as : List WriterAct} (hs : s.Fresh)
    (h : System.final (System.checked Writers.next fun s a => s.CopyOkBelow n a = true) s as =
      some t) :
    ∃ tr, writers.Run s tr ∧ tr.map Prod.fst = as ∧ System.Along Writers.CopyOk s tr ∧
      System.last s tr = t := by
  obtain ⟨tr, hrun, hacts, halong, hlast⟩ := System.exists_run_along_last h
  refine ⟨tr, hrun, hacts, hrun.along_of_along (I := Writers.IdleFrom n) ?_
    (fun _ _ hidle hok => Writers.CopyOkBelow.copyOk hidle hok) (fun q _ => hs.procs q) halong,
    hlast⟩
  intro s a t hidle hok hstep q hq
  have hlt : a.proc < n := of_decide_eq_true (Bool.and_eq_true_iff.mp hok).1
  rw [Writers.next_other hstep (by omega)]
  exact hidle q hq

/-- Two processes write to the buffer at the same time, one after the other has advanced `wp`; a
third write faults, and a fourth one finds room for one byte only. -/
theorem bounded_of_copyOk_two :
    ∃ tr, writers.Run (Writers.init 4) tr ∧ tr.map Prod.fst =
        [.check 0 [7, 8], .check 1 [9], .copy 0 ⟨2, false⟩, .advance 0, .copy 1 ⟨1, false⟩,
          .advance 1, .check 0 [5], .copy 0 ⟨0, false⟩, .check 1 [3, 4], .copy 1 ⟨1, false⟩,
          .advance 1] ∧
      (System.last (Writers.init 4) tr).acks = [⟨4099, [3]⟩, ⟨4098, [9]⟩, ⟨4096, [7, 8]⟩] ∧
      System.Always Writers.Bounded (Writers.init 4) tr := by
  have h : (System.final (System.checked Writers.next fun s a => s.CopyOkBelow 2 a = true)
      (Writers.init 4) [.check 0 [7, 8], .check 1 [9], .copy 0 ⟨2, false⟩, .advance 0,
        .copy 1 ⟨1, false⟩, .advance 1, .check 0 [5], .copy 0 ⟨0, false⟩, .check 1 [3, 4],
        .copy 1 ⟨1, false⟩, .advance 1]).map Writers.acks =
      some [⟨4099, [3]⟩, ⟨4098, [9]⟩, ⟨4096, [7, 8]⟩] := by
    decide +kernel
  obtain ⟨t, ht, hacks⟩ := Option.map_eq_some_iff.mp h
  obtain ⟨tr, hrun, hacts, hok, hlast⟩ := Writers.exists_run_copyOk (Writers.fresh_init 4) ht
  exact ⟨tr, hrun, hacts, hlast ▸ hacks,
    bounded_of_copyOk (Writers.init 4) tr (Writers.fresh_init 4) hrun hok⟩

/-- Two processes write 3 bytes each to an empty buffer of 4: both pass the check before either
advances `wp`, which ends up behind the end of the buffer. -/
theorem two_writers_overrun :
    ∃ tr, writers.Run (Writers.init 4) tr ∧ tr.map Prod.fst =
        [.check 0 [1, 2, 3], .check 1 [4, 5, 6], .copy 0 ⟨3, false⟩, .copy 1 ⟨3, false⟩, .advance 0,
          .advance 1] ∧
      ¬ System.Always Writers.Bounded (Writers.init 4) tr := by
  have hwp : (System.final Writers.next (Writers.init 4)
      [.check 0 [1, 2, 3], .check 1 [4, 5, 6], .copy 0 ⟨3, false⟩, .copy 1 ⟨3, false⟩, .advance 0,
        .advance 1]).map (fun s => (s.dev.wp, s.dev.end_)) = some (4102, 4100) := by
    decide +kernel
  refine System.exists_run_not_always hwp fun s hs hbounded => ?_
  have hle := hbounded.le_end
  obtain ⟨hwp', hend⟩ := Prod.mk.inj hs
  rw [hwp', hend] at hle
  exact absurd hle (by decide)

end QuickDevSkeleton.MultiMem
