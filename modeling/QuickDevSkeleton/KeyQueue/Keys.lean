import QuickDevSkeleton.Foundations.System
import QuickDevSkeleton.KeyQueue.Device

/-!
# Interrupts, reads and the exit

Keys arrive while any number of processes read, and in the end the module is unloaded. The sections
under the lock are single steps; a read that has taken keys makes its copy later. The counter and
the list agree at every step, and no key is taken twice or left behind.
-/

namespace QuickDevSkeleton.KeyQueue

open Foundations

/-- A call of `my_read`: the bytes in its kernel buffer, and its result once it has returned. -/
structure Read where
  kbuf : List UInt8
  ret : Option ℤ

/-- The device, the values of the accepted interrupts, and the reads in lock order. -/
structure Keys where
  dev : Mydev
  accepted : List UInt8
  reads : List Read
  crashed : Bool
  exited : Bool

/-- An interrupt comes, a read takes the lock, the `k`-th read makes its copy, or the module is
unloaded. -/
inductive KeyAct where
  | interrupt (alloc : Bool) (byte : UInt8)
  | read (count : ℕ) (alloc : Bool)
  | copy (k : ℕ) (copied : Bool)
  | exit

namespace Keys

variable (s : Keys)

/-- Execute `x`, and record its result. -/
def perform {α : Type} (x : Exec Mydev α) (record : Keys → α → Keys) : Keys :=
  match x s.dev with
  | (some a, dev) => record { s with dev := dev } a
  | (none, dev) => { s with dev := dev, crashed := true }

/-- One step. The module stays while a read is on its way. -/
def act : KeyAct → Option Keys
  | .interrupt alloc byte =>
    some (s.perform (key_func alloc byte) fun s ret =>
      if ret = .IRQ_HANDLED then { s with accepted := s.accepted ++ [byte] } else s)
  | .read count alloc =>
    some (s.perform (my_read count alloc) fun s locked =>
      match locked with
      | .done ret => { s with reads := s.reads ++ [⟨[], some ret⟩] }
      | .kbuf bytes => { s with reads := s.reads ++ [⟨bytes, none⟩] })
  | .copy k copied =>
    match s.reads.drop k with
    | ⟨kbuf, none⟩ :: later =>
      some { s with reads := s.reads.take k ++ ⟨kbuf, some (copyOut kbuf copied)⟩ :: later }
    | _ => none
  | .exit =>
    if ∀ r ∈ s.reads, r.ret ≠ none then
      some (s.perform my_exit fun s _ => { s with exited := true })
    else none

/-- After a crash, or once the module is gone, there are no more steps. -/
def next (a : KeyAct) : Option Keys :=
  if s.crashed ∨ s.exited then none else s.act a

/-- The driver after `my_init`. -/
def init (links : Links Link) : Keys where
  dev := my_init links
  accepted := []
  reads := []
  crashed := false
  exited := false

end Keys

/-- The driver under interrupts and reads. -/
def keys : System Keys KeyAct :=
  System.ofPartial Keys.next

/-- No pointer to a dead node or to the head as a node was followed; the counter tells the length of
the list; the bytes taken into kernel buffers, in lock order, and those on the list make up the
accepted ones; and the exit has freed all nodes. -/
structure Keys.Sound (s : Keys) : Prop where
  safe : s.crashed = false
  queue : s.exited = false →
    ∃ bytes, s.dev.Holds bytes ∧ s.accepted = s.reads.flatMap Read.kbuf ++ bytes
  freed : s.exited = true → ∀ p, s.dev.keys.cell p = none

namespace Keys

variable {s t : Keys}

lemma perform_some {α : Type} {x : Exec Mydev α} {record : Keys → α → Keys} {a : α} {dev : Mydev}
    (h : x s.dev = (some a, dev)) : s.perform x record = record { s with dev := dev } a := by
  rw [perform, h]

/-- A step is taken by a module that is loaded and has not crashed. -/
lemma loaded_of_step {a : KeyAct} (hstep : keys.step s a t) :
    s.crashed = false ∧ s.exited = false := by
  have hnext : s.next a = some t := hstep
  rw [next] at hnext
  split_ifs at hnext with h
  exact ⟨Bool.eq_false_of_not_eq_true fun hc => h (Or.inl hc),
    Bool.eq_false_of_not_eq_true fun he => h (Or.inr he)⟩

/-- What the steps do, as long as the queue is in order. -/
inductive StepCases (s : Keys) (bytes : List UInt8) : KeyAct → Keys → Prop where
  | dropped (byte : UInt8) : StepCases s bytes (.interrupt false byte) s
  | accepted (byte : UInt8) (dev : Mydev) (hdev : dev.Holds (bytes ++ [byte])) :
      StepCases s bytes (.interrupt true byte)
        { s with dev := dev, accepted := s.accepted ++ [byte] }
  | refused (count : ℕ) (alloc : Bool) (ret : ℤ) (hret : ret ≤ 0) :
      StepCases s bytes (.read count alloc) { s with reads := s.reads ++ [⟨[], some ret⟩] }
  | took (count : ℕ) (alloc : Bool) (n : ℕ) (dev : Mydev) (hdev : dev.Holds (bytes.drop n))
      (hpos : 0 < n) (hle : n ≤ bytes.length) :
      StepCases s bytes (.read count alloc)
        { s with dev := dev, reads := s.reads ++ [⟨bytes.take n, none⟩] }
  | returned (k : ℕ) (copied : Bool) (earlier later : List Read) (kbuf : List UInt8)
      (hreads : s.reads = earlier ++ ⟨kbuf, none⟩ :: later) :
      StepCases s bytes (.copy k copied)
        { s with reads := earlier ++ ⟨kbuf, some (copyOut kbuf copied)⟩ :: later }
  | exited (dev : Mydev) (hfree : ∀ p, dev.keys.cell p = none)
      (hdone : ∀ r ∈ s.reads, r.ret ≠ none) :
      StepCases s bytes .exit { s with dev := dev, exited := true }

lemma step_cases {a : KeyAct} {bytes : List UInt8} (h : s.dev.Holds bytes)
    (hstep : keys.step s a t) : StepCases s bytes a t := by
  obtain ⟨hcrash, hexit⟩ := loaded_of_step hstep
  have hnext : s.next a = some t := hstep
  have hon : ¬ (s.crashed = true ∨ s.exited = true) := by
    rw [hcrash, hexit]
    decide
  rw [next, if_neg hon] at hnext
  cases a with
  | interrupt alloc byte =>
    cases alloc with
    | false =>
      rw [act, perform_some (key_func_fails byte)] at hnext
      cases hnext
      exact .dropped byte
    | true =>
      obtain ⟨dev, hrun, hdev⟩ := key_func_run h byte
      rw [act, perform_some hrun] at hnext
      cases hnext
      exact .accepted byte dev hdev
  | read count alloc =>
    rcases my_read_run h count alloc with ⟨ret, hret, hrun⟩ | ⟨dev, n, hrun, hdev, hpos, hle⟩
    · rw [act, perform_some hrun] at hnext
      cases hnext
      exact .refused count alloc ret hret
    · rw [act, perform_some hrun] at hnext
      cases hnext
      exact .took count alloc n dev hdev hpos hle
  | copy k copied =>
    rw [act] at hnext
    split at hnext
    · next kbuf later hdrop =>
      cases hnext
      refine .returned k copied _ later kbuf ?_
      rw [← hdrop, List.take_append_drop]
    · cases hnext
  | exit =>
    rw [act] at hnext
    split_ifs at hnext with hdone
    obtain ⟨dev, hrun, hfree⟩ := my_exit_run h
    rw [perform_some hrun] at hnext
    cases hnext
    exact .exited dev hfree hdone

lemma sound_init (links : Links Link) : (init links).Sound where
  safe := rfl
  queue _ := ⟨[], holds_my_init links, rfl⟩
  freed hexit := nomatch hexit

lemma Sound.step {a : KeyAct} (h : s.Sound) (hstep : keys.step s a t) : t.Sound := by
  obtain ⟨-, hexit⟩ := loaded_of_step hstep
  obtain ⟨bytes, hdev, haccepted⟩ := h.queue hexit
  have hlive : ∀ {p : Prop}, s.exited = true → p := fun he => by
    rw [hexit] at he
    cases he
  cases step_cases hdev hstep with
  | dropped byte => exact h
  | accepted byte dev hdev' =>
    refine ⟨h.safe, fun _ => ⟨_, hdev', ?_⟩, hlive⟩
    change s.accepted ++ [byte] = _
    rw [haccepted, List.append_assoc]
  | refused count alloc ret hret =>
    refine ⟨h.safe, fun _ => ⟨bytes, hdev, ?_⟩, hlive⟩
    rw [List.flatMap_append]
    change s.accepted = s.reads.flatMap Read.kbuf ++ [] ++ bytes
    rw [List.append_nil, haccepted]
  | took count alloc n dev hdev' hpos hle =>
    refine ⟨h.safe, fun _ => ⟨_, hdev', ?_⟩, hlive⟩
    rw [List.flatMap_append, List.flatMap_singleton, List.append_assoc, List.take_append_drop]
    exact haccepted
  | returned k copied earlier later kbuf hreads =>
    refine ⟨h.safe, fun _ => ⟨bytes, hdev, ?_⟩, hlive⟩
    rw [List.flatMap_append, List.flatMap_cons]
    rw [hreads, List.flatMap_append, List.flatMap_cons] at haccepted
    exact haccepted
  | exited dev hfree hdone => exact ⟨h.safe, fun he => (nomatch he), fun _ => hfree⟩

end Keys

/-- In every state of every run the counter tells the length of the list, no pointer has gone
astray, the accepted keys are those taken, in order, followed by those on the list, and an exit has
left no node allocated. -/
theorem keys_sound (links : Links Link) (tr : List (KeyAct × Keys))
    (hrun : keys.Run (Keys.init links) tr) : System.Always Keys.Sound (Keys.init links) tr :=
  hrun.always (fun _ _ _ h => h.step) (Keys.sound_init links)

/-- The list heads before they are initialised. -/
def zeroLinks : Links Link := ⟨fun _ => .poison1, fun _ => .poison1⟩

/-- Two keys, a read of one of them, and the exit. -/
theorem keys_sound_exit :
    ∃ tr, keys.Run (Keys.init zeroLinks) tr ∧
      tr.map Prod.fst =
        [.interrupt true 30, .interrupt true 31, .read 1 true, .copy 0 true, .exit] ∧
      System.Always Keys.Sound (Keys.init zeroLinks) tr := by
  have h : (System.final Keys.next (Keys.init zeroLinks)
      [.interrupt true 30, .interrupt true 31, .read 1 true, .copy 0 true, .exit]).isSome := by
    decide +kernel
  obtain ⟨tr, hrun, hacts⟩ := System.exists_run_of_isSome h
  exact ⟨tr, hrun, hacts, keys_sound zeroLinks tr hrun⟩

end QuickDevSkeleton.KeyQueue
