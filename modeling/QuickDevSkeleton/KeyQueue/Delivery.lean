import QuickDevSkeleton.KeyQueue.Keys

/-!
# Delivery of accepted keys

A read takes its keys off the list before it knows that it can deliver them. When every accepted
key is delivered, or on its way, or still on the list.
-/

namespace QuickDevSkeleton.KeyQueue

open Foundations

/-- What a read delivers: its buffer, unless it returns an error. While the copy is to be made, the
buffer is on its way. -/
def Read.delivered (r : Read) : List UInt8 :=
  match r.ret with
  | none => r.kbuf
  | some ret => if 0 < ret then r.kbuf else []

/-- The accepted keys are those of the reads that have returned a positive count or are on their
way, in lock order, and those on the list. -/
def Keys.NoKeyLost (s : Keys) : Prop :=
  s.exited = false →
    ∃ bytes, s.dev.Holds bytes ∧ s.accepted = s.reads.flatMap Read.delivered ++ bytes

/-- The copy of a read to its caller does not fault. -/
def CopyOk (_ : Keys) : KeyAct → Prop
  | .copy _ copied => copied = true
  | _ => True

/-- What the steps keep: every read delivers its buffer, which has a byte in it if it is still to be
copied. -/
structure Keys.Delivering (s : Keys) : Prop extends s.Sound where
  delivers : ∀ r ∈ s.reads, r.delivered = r.kbuf
  nonempty : ∀ r ∈ s.reads, r.ret = none → r.kbuf ≠ []

namespace Keys

variable {s t : Keys}

lemma delivering_init (links : Links Link) : (init links).Delivering where
  toSound := sound_init links
  delivers _ hr := nomatch hr
  nonempty _ hr := nomatch hr

lemma Delivering.noKeyLost (h : s.Delivering) : s.NoKeyLost := by
  intro hexit
  obtain ⟨bytes, hdev, haccepted⟩ := h.queue hexit
  refine ⟨bytes, hdev, ?_⟩
  rw [haccepted, List.flatMap_congr h.delivers]

/-- A read that has copied its buffer returns the number of its bytes. -/
lemma delivered_copied {kbuf : List UInt8} (hne : kbuf ≠ []) :
    Read.delivered ⟨kbuf, some (copyOut kbuf true)⟩ = kbuf := by
  have hpos : 0 < copyOut kbuf true := by
    rw [copyOut, if_pos rfl]
    exact Int.natCast_pos.mpr (List.length_pos_of_ne_nil hne)
  exact if_pos hpos

/-- A property of reads is kept by the steps if new reads have it, and a read keeps it on its
return. -/
lemma StepCases.forall_reads {P : Read → Prop} {a : KeyAct} {bytes : List UInt8}
    (hcases : StepCases s bytes a t) (h : ∀ r ∈ s.reads, P r)
    (hrefused : ∀ ret ≤ 0, P ⟨[], some ret⟩) (htook : ∀ kbuf ≠ [], P ⟨kbuf, none⟩)
    (hreturned : ∀ k copied kbuf, a = .copy k copied → P ⟨kbuf, none⟩ →
      P ⟨kbuf, some (copyOut kbuf copied)⟩) : ∀ r ∈ t.reads, P r := by
  cases hcases with
  | dropped byte => exact h
  | accepted byte dev hdev => exact h
  | refused count alloc ret hret =>
    exact List.forall_mem_append.mpr ⟨h, List.forall_mem_singleton.mpr (hrefused ret hret)⟩
  | took count alloc n dev hdev hpos hle =>
    refine List.forall_mem_append.mpr ⟨h, List.forall_mem_singleton.mpr (htook _ ?_)⟩
    refine List.ne_nil_of_length_pos ?_
    rw [List.length_take, Nat.min_eq_left hle]
    exact hpos
  | returned k copied earlier later kbuf hreads =>
    rw [hreads] at h
    obtain ⟨hearlier, hrest⟩ := List.forall_mem_append.mp h
    obtain ⟨hkbuf, hlater⟩ := List.forall_mem_cons.mp hrest
    exact List.forall_mem_append.mpr
      ⟨hearlier, List.forall_mem_cons.mpr ⟨hreturned k copied kbuf rfl hkbuf, hlater⟩⟩
  | exited dev hfree hdone => exact h

lemma Delivering.step {a : KeyAct} (h : s.Delivering) (hok : CopyOk s a)
    (hstep : keys.step s a t) : t.Delivering := by
  obtain ⟨-, hexit⟩ := loaded_of_step hstep
  obtain ⟨bytes, hdev, -⟩ := h.queue hexit
  have hreads : ∀ r ∈ t.reads, r.delivered = r.kbuf ∧ (r.ret = none → r.kbuf ≠ []) := by
    refine (step_cases hdev hstep).forall_reads
      (fun r hr => ⟨h.delivers r hr, h.nonempty r hr⟩) ?_ ?_ ?_
    · exact fun ret hret => ⟨if_neg (not_lt.mpr hret), fun hnone => (nomatch hnone)⟩
    · exact fun kbuf hne => ⟨rfl, fun _ => hne⟩
    · rintro k copied kbuf rfl ⟨-, hne⟩
      obtain rfl : copied = true := hok
      exact ⟨delivered_copied (hne rfl), fun hnone => (nomatch hnone)⟩
  exact ⟨h.toSound.step hstep, fun r hr => (hreads r hr).1, fun r hr => (hreads r hr).2⟩

/-- A copy that faults loses the keys of its read. -/
lemma Delivering.lost {a : KeyAct} (h : s.Delivering) (hno : ¬ CopyOk s a)
    (hstep : keys.step s a t) : ¬ t.NoKeyLost := by
  intro hall
  obtain ⟨-, hexit⟩ := loaded_of_step hstep
  obtain ⟨bytes, hdev, haccepted⟩ := h.queue hexit
  cases step_cases hdev hstep with
  | dropped byte => exact hno trivial
  | accepted byte dev hdev' => exact hno trivial
  | refused count alloc ret hret => exact hno trivial
  | took count alloc n dev hdev' hpos hle => exact hno trivial
  | exited dev hfree hdone => exact hno trivial
  | returned k copied earlier later kbuf hreads =>
    obtain ⟨bytes', hdev', haccepted'⟩ := hall hexit
    have hfaults : copied = false := Bool.eq_false_of_not_eq_true hno
    have hlost : Read.delivered ⟨kbuf, some (copyOut kbuf copied)⟩ = [] := by
      rw [hfaults]
      rfl
    have hmem : ⟨kbuf, none⟩ ∈ s.reads := hreads ▸ List.mem_append_right _ List.mem_cons_self
    have hsame : s.reads.flatMap Read.delivered = s.reads.flatMap Read.kbuf :=
      List.flatMap_congr h.delivers
    -- Both lists are as long as the counter says, so the bytes of `kbuf` are missing.
    have hlen : bytes'.length = bytes.length := hdev'.2.symm.trans hdev.2
    have htotal : s.accepted.length = (s.reads.flatMap Read.delivered).length + bytes.length := by
      rw [haccepted, hsame, List.length_append]
    have htotal' := congrArg List.length haccepted'
    simp only [List.flatMap_append, List.flatMap_cons, hlost, List.nil_append,
      List.length_append] at htotal'
    rw [htotal, hreads, hlen] at htotal'
    simp only [List.flatMap_append, List.flatMap_cons, List.length_append] at htotal'
    have hpos : 0 < (Read.delivered ⟨kbuf, none⟩).length :=
      List.length_pos_of_ne_nil (h.nonempty _ hmem rfl)
    omega

end Keys

/-- The runs in which no accepted key is lost are those in which no copy to a reader faults. -/
theorem noKeyLost_iff_copyOk (links : Links Link) (tr : List (KeyAct × Keys))
    (hrun : keys.Run (Keys.init links) tr) :
    System.Always Keys.NoKeyLost (Keys.init links) tr ↔ System.Along CopyOk (Keys.init links) tr :=
  hrun.always_iff_along (fun _ h => h.noKeyLost) (fun _ _ _ => Keys.Delivering.step)
    (fun _ _ _ => Keys.Delivering.lost) (Keys.delivering_init links)

/-- A key is read and copied. -/
theorem noKeyLost_iff_copyOk_read :
    ∃ tr, keys.Run (Keys.init zeroLinks) tr ∧
      tr.map Prod.fst = [.interrupt true 30, .read 1 true, .copy 0 true] ∧
      System.Always Keys.NoKeyLost (Keys.init zeroLinks) tr := by
  have h : (System.final Keys.next (Keys.init zeroLinks)
      [.interrupt true 30, .read 1 true, .copy 0 true]).isSome := by
    decide +kernel
  obtain ⟨tr, hrun, hacts⟩ := System.exists_run_of_isSome h
  refine ⟨tr, hrun, hacts, (noKeyLost_iff_copyOk zeroLinks tr hrun).mpr ?_⟩
  refine System.along_of_labels ?_
  rw [hacts]
  simp [CopyOk]

/-- A key is read into a buffer that cannot be copied to the caller: the read returns `-EFAULT`, and
the key is gone. -/
theorem key_lost :
    ∃ tr, keys.Run (Keys.init zeroLinks) tr ∧
      tr.map Prod.fst = [.interrupt true 30, .read 1 true, .copy 0 false] ∧
      ¬ System.Always Keys.NoKeyLost (Keys.init zeroLinks) tr := by
  have h : (System.final Keys.next (Keys.init zeroLinks)
      [.interrupt true 30, .read 1 true, .copy 0 false]).map (fun s =>
        (s.exited, s.accepted.length, s.dev.key_count, s.reads.flatMap Read.delivered)) =
      some (false, 1, 0, []) := by
    decide +kernel
  refine System.exists_run_not_always h fun s hs hall => ?_
  obtain ⟨hexit, hlen, hcount, hdelivered⟩ : s.exited = false ∧ s.accepted.length = 1 ∧
      s.dev.key_count = 0 ∧ s.reads.flatMap Read.delivered = [] := by
    simpa using hs
  obtain ⟨bytes, hdev, haccepted⟩ := hall hexit
  have hbytes : bytes.length = 0 := hdev.2.symm.trans hcount
  rw [haccepted, hdelivered, List.nil_append, hbytes] at hlen
  cases hlen

end QuickDevSkeleton.KeyQueue
