import QuickDevSkeleton.Foundations.Memory
import QuickDevSkeleton.Foundations.System
import QuickDevSkeleton.Kernel.UserCopy

/-!
# A key buffer without a lock

The keyboard driver of `like_irq.c`: the interrupt handler appends to `key_buf`, and a read of the
proc file prints the buffer in a loop and resets `pos` at its end. An interrupt can come, and
another read can go on, between any two rounds of the loop and before the reset; when no accepted
key is lost or printed twice all the same.
-/

namespace QuickDevSkeleton.KeyBuffer

open Foundations

def KEY_BUF : ℕ := 120

/-- The two globals. -/
structure Device where
  key_buf : Memory UInt8
  pos : ℕ

namespace Device

variable (d : Device)

/-- `key_buf[0..pos)`. -/
def keys : List UInt8 :=
  d.key_buf.read 0 d.pos

def key_service (value : UInt8) : Device × Irqreturn :=
  if d.pos < KEY_BUF then
    ({ key_buf := d.key_buf.write d.pos [value], pos := d.pos + 1 }, .IRQ_HANDLED)
  else (d, .IRQ_NONE)

end Device

/-- Where a run of `my_proc` is: at the test of its loop, or past it and before the reset; with the
text on the page so far, and the keys printed there. -/
inductive Phase where
  | idle
  | loop (i : ℕ) (page : String) (printed : List UInt8)
  | left (page : String) (printed : List UInt8)

/-- One round: a key, and a line break after every sixth. -/
def printKey (page : String) (i : ℕ) (key : UInt8) : String :=
  let page := page ++ toString key.toNat ++ "\t"
  if i % 6 = 0 ∧ i ≠ 0 then page ++ "\n " else page

/-- The rounds of a run that prints these keys. -/
def printKeys (keys : List UInt8) : String :=
  (keys.zipIdx 1).foldl (fun page key => printKey page key.2 key.1) ""

/-- What a run of `my_proc` has put on its page. -/
structure Output where
  page : String
  printed : List UInt8

/-- The device, the runs of `my_proc`, the values for which `key_service` has returned
`IRQ_HANDLED`, and the outputs of the runs that have ended. -/
structure Keyboard where
  dev : Device
  runs : ℕ → Phase
  accepted : List UInt8
  outputs : List Output

/-- A key arrives; a run begins, does one round of its loop or leaves it, or resets `pos` and
returns. -/
inductive KeyboardAct where
  | key (value : UInt8)
  | enter (r : ℕ)
  | round (r : ℕ)
  | reset (r : ℕ)

namespace Keyboard

variable (s : Keyboard)

def goto (r : ℕ) (ph : Phase) : Keyboard :=
  { s with runs := Function.update s.runs r ph }

def next : KeyboardAct → Option Keyboard
  | .key value =>
    let (dev, ret) := s.dev.key_service value
    some { s with
      dev := dev
      accepted := if ret = .IRQ_HANDLED then s.accepted ++ [value] else s.accepted }
  | .enter r =>
    match s.runs r with
    | .idle => some (s.goto r (.loop 1 "" []))
    | _ => none
  | .round r =>
    match s.runs r with
    | .loop i page printed =>
      if i ≤ s.dev.pos then
        let key := s.dev.key_buf (i - 1)
        some (s.goto r (.loop (i + 1) (printKey page i key) (printed ++ [key])))
      else some (s.goto r (.left (page ++ "\n") printed))
    | _ => none
  | .reset r =>
    match s.runs r with
    | .left page printed =>
      let s := { s with
        dev := { s.dev with pos := 0 }
        outputs := s.outputs ++ [Output.mk page printed] }
      some (s.goto r .idle)
    | _ => none

end Keyboard

/-- The keyboard under interrupts and reads. -/
def keyboard : System Keyboard KeyboardAct :=
  System.ofPartial Keyboard.next

/-- The accepted keys are those that the ended runs have printed, in order, followed by those in the
buffer, which does not overflow; on the page of a run are the keys that it has printed. -/
structure Keyboard.InOrder (s : Keyboard) : Prop where
  accepted : s.accepted = s.outputs.flatMap Output.printed ++ s.dev.keys
  pos_le : s.dev.pos ≤ KEY_BUF
  pages : ∀ o ∈ s.outputs, o.page = printKeys o.printed ++ "\n"

/-- No key is accepted while a run is between its loop and its reset, and no run resets `pos` while
another one has already printed a key. -/
def Keyboard.Calm (s : Keyboard) : KeyboardAct → Prop
  | .key _ => s.dev.pos < KEY_BUF → ∀ r page printed, s.runs r ≠ .left page printed
  | .reset r => ∀ q, q ≠ r → (∀ i page printed, s.runs q = .loop i page printed → printed = []) ∧
      ∀ page printed, s.runs q = .left page printed → printed = []
  | _ => True

/-- What the steps keep: a run in its loop has printed the first keys of the buffer, and one that
has left it all of them. -/
structure Keyboard.Inv (s : Keyboard) : Prop extends s.InOrder where
  loop : ∀ r i page printed, s.runs r = .loop i page printed →
    i = printed.length + 1 ∧ page = printKeys printed ∧ printed <+: s.dev.keys
  left : ∀ r page printed, s.runs r = .left page printed →
    page = printKeys printed ++ "\n" ∧ printed = s.dev.keys

/-! ### The steps -/

/-- One round more is one key more on the page. -/
lemma printKeys_append (keys : List UInt8) (key : UInt8) :
    printKeys (keys ++ [key]) = printKey (printKeys keys) (keys.length + 1) key := by
  rw [printKeys, List.zipIdx_append, List.foldl_append, Nat.add_comm 1]
  rfl

/-- The interrupt handler appends the key to the buffer, unless it is full. -/
lemma Device.keys_key_service {d : Device} (h : d.pos < KEY_BUF) (value : UInt8) :
    (d.key_service value).1.keys = d.keys ++ [value] ∧
      (d.key_service value).1.pos = d.pos + 1 ∧ (d.key_service value).2 = .IRQ_HANDLED := by
  rw [Device.key_service, if_pos h]
  refine ⟨?_, rfl, rfl⟩
  change (d.key_buf.write d.pos [value]).read 0 (d.pos + 1) = d.key_buf.read 0 d.pos ++ [value]
  rw [Memory.read_add, Nat.zero_add, Memory.read_write_disjoint _ (Or.inl (Nat.zero_add _).le)]
  exact congrArg (d.key_buf.read 0 d.pos ++ ·) (Memory.read_write_same d.key_buf d.pos [value])

lemma Device.length_keys (d : Device) : d.keys.length = d.pos :=
  Memory.length_read _ _ _

/-- The next key of the loop goes on with the buffer. -/
lemma Device.prefix_next {d : Device} {printed : List UInt8} (h : printed <+: d.keys)
    (hlt : printed.length < d.pos) : printed ++ [d.key_buf printed.length] <+: d.keys := by
  have hread : printed = d.key_buf.read 0 printed.length :=
    (List.prefix_iff_eq_take.mp h).trans (Memory.take_read _ _ hlt.le)
  have hle : printed.length + 1 ≤ d.pos := hlt
  have hnext : printed ++ [d.key_buf printed.length] = d.keys.take (printed.length + 1) := by
    rw [keys, Memory.take_read _ _ hle, Memory.read_add, ← hread, Nat.zero_add]
    rfl
  rw [hnext]
  exact List.take_prefix _ _

namespace Keyboard

variable {s t : Keyboard} {r q : ℕ} {ph : Phase}

@[simp] lemma goto_self : (s.goto r ph).runs r = ph :=
  Function.update_self _ _ _

lemma goto_other (h : q ≠ r) : (s.goto r ph).runs q = s.runs q :=
  Function.update_of_ne h _ _

/-- A run moves on; the device stays as it is. -/
lemma Inv.goto (h : s.Inv)
    (hloop : ∀ i page printed, ph = .loop i page printed →
      i = printed.length + 1 ∧ page = printKeys printed ∧ printed <+: s.dev.keys)
    (hleft : ∀ page printed, ph = .left page printed →
      page = printKeys printed ++ "\n" ∧ printed = s.dev.keys) :
    (s.goto r ph).Inv where
  toInOrder := ⟨h.accepted, h.pos_le, h.pages⟩
  loop q i page printed hq := by
    by_cases hqr : q = r
    · rw [hqr, goto_self] at hq
      exact hloop i page printed hq
    · rw [goto_other hqr] at hq
      exact h.loop q i page printed hq
  left q page printed hq := by
    by_cases hqr : q = r
    · rw [hqr, goto_self] at hq
      exact hleft page printed hq
    · rw [goto_other hqr] at hq
      exact h.left q page printed hq

/-- A key is accepted while no run is past its loop. -/
lemma Inv.key (h : s.Inv) (value : UInt8) (hpos : s.dev.pos < KEY_BUF)
    (hcalm : ∀ r page printed, s.runs r ≠ .left page printed) :
    Inv { s with dev := (s.dev.key_service value).1, accepted := s.accepted ++ [value] } := by
  obtain ⟨hkeys, hpos', -⟩ := Device.keys_key_service hpos value
  refine ⟨⟨?_, ?_, h.pages⟩, ?_, ?_⟩
  · rw [hkeys, ← List.append_assoc, ← h.accepted]
  · rw [hpos']
    exact hpos
  · intro r i page printed hr
    obtain ⟨hi, hpage, hprefix⟩ := h.loop r i page printed hr
    rw [hkeys]
    exact ⟨hi, hpage, hprefix.trans (List.prefix_append _ _)⟩
  · exact fun r page printed hr => absurd hr (hcalm r page printed)

/-- A run that has printed the whole buffer empties it, and no other run has printed anything. -/
lemma Inv.reset {page : String} {printed : List UInt8} (h : s.Inv)
    (hr : s.runs r = .left page printed)
    (hcalm : ∀ q, q ≠ r → (∀ i page printed, s.runs q = .loop i page printed → printed = []) ∧
      ∀ page printed, s.runs q = .left page printed → printed = []) :
    (Keyboard.goto { s with
      dev := { s.dev with pos := 0 }
      outputs := s.outputs ++ [Output.mk page printed] } r .idle).Inv := by
  obtain ⟨hpage, hall⟩ := h.left r page printed hr
  refine ⟨⟨?_, Nat.zero_le _, fun o ho => ?_⟩, fun q i page' printed' hq => ?_,
    fun q page' printed' hq => ?_⟩
  · change s.accepted = (s.outputs ++ [Output.mk page printed]).flatMap Output.printed ++ []
    rw [List.flatMap_append, List.flatMap_singleton, List.append_nil, hall]
    exact h.accepted
  · rcases List.mem_append.mp ho with hold | hnew
    · exact h.pages o hold
    · rw [List.mem_singleton.mp hnew]
      exact hpage
  · obtain ⟨hqr, hq⟩ := System.of_update Phase.noConfusion hq
    obtain ⟨hi, hpage', -⟩ := h.loop q i page' printed' hq
    rw [(hcalm q hqr).1 i page' printed' hq] at hi hpage' ⊢
    exact ⟨hi, hpage', List.nil_prefix⟩
  · obtain ⟨hqr, hq⟩ := System.of_update Phase.noConfusion hq
    exact ⟨(h.left q page' printed' hq).1, (hcalm q hqr).2 page' printed' hq⟩

/-- The steps that meet the condition keep the invariant. -/
lemma Inv.step {a : KeyboardAct} (h : s.Inv) (hcalm : s.Calm a) (hstep : keyboard.step s a t) :
    t.Inv := by
  have hnext : s.next a = some t := hstep
  cases a with
  | key value =>
    have ht : { s with
        dev := (s.dev.key_service value).1
        accepted := if (s.dev.key_service value).2 = .IRQ_HANDLED then s.accepted ++ [value]
          else s.accepted } = t := Option.some.inj hstep
    rw [← ht]
    by_cases hpos : s.dev.pos < KEY_BUF
    · rw [if_pos (Device.keys_key_service hpos value).2.2]
      exact h.key value hpos (hcalm hpos)
    · have hfull : s.dev.key_service value = (s.dev, .IRQ_NONE) := if_neg hpos
      rw [hfull]
      exact h
  | enter r =>
    simp only [next] at hnext
    split at hnext
    · cases hnext
      refine h.goto (fun i page printed hph => ?_) fun page printed hph => nomatch hph
      cases hph
      exact ⟨rfl, rfl, List.nil_prefix⟩
    · cases hnext
  | round r =>
    simp only [next] at hnext
    split at hnext
    · next i page printed hr =>
      obtain ⟨rfl, hpage, hprefix⟩ := h.loop r i page printed hr
      split_ifs at hnext with hle
      · cases hnext
        refine h.goto (fun i' page' printed' hph => ?_) fun page printed hph => nomatch hph
        cases hph
        refine ⟨by rw [List.length_append, List.length_singleton], ?_,
          Device.prefix_next hprefix hle⟩
        rw [printKeys_append, hpage]
      · cases hnext
        refine h.goto (fun i' page' printed' hph => nomatch hph) fun page' printed' hph => ?_
        cases hph
        refine ⟨congrArg (· ++ "\n") hpage, hprefix.eq_of_length_le ?_⟩
        rw [Device.length_keys]
        exact Nat.le_of_lt_succ (Nat.lt_of_not_le hle)
    · cases hnext
  | reset r =>
    simp only [next] at hnext
    split at hnext
    · next page printed hr =>
      cases hnext
      exact h.reset hr hcalm
    · cases hnext

/-- The driver after `my_init`. -/
def init : Keyboard where
  dev := ⟨fun _ => 0, 0⟩
  runs _ := .idle
  accepted := []
  outputs := []

lemma inv_init : init.Inv :=
  ⟨⟨rfl, Nat.zero_le _, fun _ h => absurd h List.not_mem_nil⟩, fun _ _ _ _ h => (nomatch h),
    fun _ _ _ h => (nomatch h)⟩

end Keyboard

/-- Along every run in which no key is accepted between the loop and the reset of a run, and no run
resets `pos` while another one has printed a key, every accepted key is printed by one run, in
order, or is still in the buffer. -/
theorem inOrder_of_calm (tr : List (KeyboardAct × Keyboard)) (hrun : keyboard.Run Keyboard.init tr)
    (hcalm : System.Along Keyboard.Calm Keyboard.init tr) :
    System.Always Keyboard.InOrder Keyboard.init tr :=
  (hrun.always_of_along (fun _ _ _ => Keyboard.Inv.step) Keyboard.inv_init hcalm).mono
    fun _ => Keyboard.Inv.toInOrder

/-- A key is printed, and another one arrives afterwards. -/
theorem inOrder_of_calm_print :
    ∃ tr, keyboard.Run Keyboard.init tr ∧
      tr.map Prod.fst = [.key 30, .enter 0, .round 0, .round 0, .reset 0, .key 31] ∧
      System.Always Keyboard.InOrder Keyboard.init tr := by
  let s₁ : Keyboard := { Keyboard.init with
    dev := (Keyboard.init.dev.key_service 30).1
    accepted := [30] }
  let s₂ := s₁.goto 0 (.loop 1 "" [])
  let s₃ := s₂.goto 0 (.loop 2 (printKey "" 1 30) [30])
  let s₄ := s₃.goto 0 (.left (printKey "" 1 30 ++ "\n") [30])
  let s₅ := Keyboard.goto { s₄ with
    dev := { s₄.dev with pos := 0 }
    outputs := [Output.mk (printKey "" 1 30 ++ "\n") [30]] } 0 .idle
  let s₆ := (s₅.next (.key 31)).getD s₅
  have h₁ : keyboard.step Keyboard.init (.key 30) s₁ := rfl
  have h₂ : keyboard.step s₁ (.enter 0) s₂ := rfl
  have h₃ : keyboard.step s₂ (.round 0) s₃ := rfl
  have h₄ : keyboard.step s₃ (.round 0) s₄ := rfl
  have h₅ : keyboard.step s₄ (.reset 0) s₅ := rfl
  have h₆ : keyboard.step s₅ (.key 31) s₆ := rfl
  have hrun := System.Run.cons h₁ (.cons h₂ (.cons h₃ (.cons h₄ (.cons h₅ (.cons h₆ (.nil s₆))))))
  have hother : ∀ q, q ≠ 0 → s₅.runs q = .idle ∧ s₄.runs q = .idle := by
    intro q hq
    simp only [s₅, s₄, s₃, s₂, Keyboard.goto_other hq]
    exact ⟨rfl, rfl⟩
  have hidle : ∀ q, s₅.runs q = .idle := by
    intro q
    by_cases hq : q = 0
    · rw [hq]
      rfl
    · exact (hother q hq).1
  refine ⟨_, hrun, rfl, inOrder_of_calm _ hrun ⟨fun _ _ _ _ h => (nomatch h), trivial, trivial,
    trivial, fun q hq => ?_, fun _ q page printed hq => ?_, trivial⟩⟩
  · rw [(hother q hq).2]
    exact ⟨fun _ _ _ h => (nomatch h), fun _ _ h => (nomatch h)⟩
  · rw [hidle q] at hq
    cases hq

/-- A key arrives after the last round of a run and before its reset: it is never printed. -/
theorem key_overwritten :
    ∃ tr, keyboard.Run Keyboard.init tr ∧
      tr.map Prod.fst = [.key 30, .enter 0, .round 0, .round 0, .key 31, .reset 0] ∧
      ¬ System.Always Keyboard.InOrder Keyboard.init tr := by
  have h : (System.final Keyboard.next Keyboard.init
      [.key 30, .enter 0, .round 0, .round 0, .key 31, .reset 0]).map (fun s =>
        (s.accepted, s.outputs.flatMap Output.printed, s.dev.pos)) = some ([30, 31], [30], 0) := by
    decide +kernel
  refine System.exists_run_not_always h fun s hs hinOrder => ?_
  obtain ⟨haccepted, hprinted, hpos⟩ : s.accepted = [30, 31] ∧
      s.outputs.flatMap Output.printed = [30] ∧ s.dev.pos = 0 := by
    simpa using hs
  have horder := hinOrder.accepted
  rw [haccepted, hprinted, Device.keys, hpos] at horder
  cases horder

end QuickDevSkeleton.KeyBuffer
