import QuickDevSkeleton.UsbSkel.Steps

/-!
# The permits and the lock

`limit_sem` starts with `WRITES_IN_FLIGHT` permits. Each of them is in the semaphore, with a process
inside `skel_write`, or with a write urb from its submission to the end of its completion handler,
however the writes, their failures and the completions interleave. `io_mutex` has a holder exactly
while it is locked.
-/

namespace QuickDevSkeleton.UsbSkel

open Foundations

/-! ### The permits -/

/-- The permits that a place in `skel_write` holds: a submitted urb has taken over its writer's. -/
def WritePc.permits : WritePc → ℕ
  | .down | .free _ => 0
  | .unlock _ retval => if retval = 0 then 0 else 1
  | _ => 1

def Pc.permits : Pc → ℕ
  | .writing _ pc => pc.permits
  | _ => 0

/-- The permits that are not with a process. -/
def Skel.permits (s : Skel) : ℕ := s.limit_sem + s.queue.length + s.giving.length

variable {s t : Skel} {x y : Pc}

lemma Step.permits (h : Step s x t y) : t.permits + y.permits = s.permits + x.permits := by
  cases h with
  | write_down c hsem =>
    simp only [Skel.permits, Pc.permits, WritePc.permits]
    omega
  | write_submit c urb =>
    simp only [Skel.permits, Pc.permits, WritePc.permits, List.length_append, List.length_singleton,
      if_true]
    omega
  | write_refused c urb e he =>
    have hret : (-(e : ℤ)) ≠ 0 := by omega
    simp [Skel.permits, Pc.permits, WritePc.permits, hret]
  | write_unlock_refused c urb retval hret =>
    simp [Skel.permits, Pc.permits, WritePc.permits, hret]
  | write_up c retval =>
    simp only [Skel.permits, Pc.permits, WritePc.permits]
    omega
  | _ => rfl

lemma EnvStep.permits (h : EnvStep s t) : t.permits = s.permits := by
  cases h with
  | giveback_done urb hmem | giveback_error urb st hmem =>
    have hlen := List.length_erase_add_one hmem
    simp only [Skel.permits, Skel.post, Skel.usb_unanchor_urb, List.length_append,
      List.length_singleton]
    omega
  | finish urb hmem =>
    have hlen := List.length_erase_add_one hmem
    simp only [Skel.permits, Skel.usb_free_urb, Skel.usb_free_coherent]
    omega
  | _ => rfl

/-! ### The lock -/

/-- The places between taking `io_mutex` and releasing it. -/
def Pc.holds : Pc → ℕ
  | .reading _ .lock => 0
  | .reading _ _ => 1
  | .writing _ (.held _) | .writing _ (.submit _) | .writing _ (.unlock _ _) => 1
  | .flushing _ .lock => 0
  | .flushing _ _ => 1
  | .releasing .held | .releasing .unlock => 1
  | _ => 0

def Hub.holds : Hub → ℕ
  | .drawAnchor | .drawRead | .reset | .clear | .unlock => 1
  | _ => 0

lemma Pc.holds_afterIo (c : ReadCall) (rv : ℤ) (r : Option Reply) :
    Pc.holds (.reading c (.afterIo rv r)) = 1 := by
  cases r with
  | none =>
    simp only [ReadPc.afterIo]
    split <;> rfl
  | some r => rfl

lemma Pc.holds_read_copy (c : ReadCall) (ok : Bool) :
    Pc.holds (.reading c (skel_read_copy s c ok).2) = 1 := by
  simp only [skel_read_copy]
  split <;> rfl

lemma Step.hub (h : Step s x t y) : t.hub = s.hub := by
  cases h <;> rfl

/-- A step takes the lock when it is free, releases it when it holds it, or leaves it. -/
lemma Step.lock (h : Step s x t y) :
    s.io_mutex = false ∧ t.io_mutex = true ∧ x.holds = 0 ∧ y.holds = 1 ∨
    t.io_mutex = false ∧ x.holds = 1 ∧ y.holds = 0 ∨
    t.io_mutex = s.io_mutex ∧ y.holds = x.holds := by
  cases h with
  | read_lock c hfree => exact .inl ⟨hfree, rfl, rfl, rfl⟩
  | write_lock c urb hfree => exact .inl ⟨hfree, rfl, rfl, rfl⟩
  | flush_lock last hfree => exact .inl ⟨hfree, rfl, rfl, rfl⟩
  | release_lock hfree => exact .inl ⟨hfree, rfl, rfl, rfl⟩
  | read_exit | write_gone | write_unlock | write_unlock_refused | flush_unlock
  | flush_unlock_last | release_unlock => exact .inr (.inl ⟨rfl, rfl, rfl⟩)
  | read_copy c ok => exact .inr (.inr ⟨rfl, Pc.holds_read_copy c ok⟩)
  | read_submit c count r => exact .inr (.inr ⟨rfl, Pc.holds_afterIo c 0 r⟩)
  | read_failed c rv r => exact .inr (.inr ⟨rfl, Pc.holds_afterIo c _ r⟩)
  | _ => exact .inr (.inr ⟨rfl, rfl⟩)

lemma EnvStep.lock (h : EnvStep s t) :
    s.io_mutex = false ∧ t.io_mutex = true ∧ s.hub.holds = 0 ∧ t.hub.holds = 1 ∨
    t.io_mutex = false ∧ s.hub.holds = 1 ∧ t.hub.holds = 0 ∨
    t.io_mutex = s.io_mutex ∧ t.hub.holds = s.hub.holds := by
  cases h with
  | pre_reset_lock hhub hfree => exact .inl ⟨hfree, rfl, by rw [hhub]; rfl, rfl⟩
  | disconnect_lock hhub hfree => exact .inl ⟨hfree, rfl, by rw [hhub]; rfl, rfl⟩
  | post_reset hhub => exact .inr (.inl ⟨rfl, by rw [hhub]; rfl, rfl⟩)
  | disconnect_unlock hhub => exact .inr (.inl ⟨rfl, by rw [hhub]; rfl, rfl⟩)
  | pre_reset hhub => exact .inr (.inr ⟨rfl, by rw [hhub]; rfl⟩)
  | reset_anchor hhub => exact .inr (.inr ⟨rfl, by rw [hhub]; rfl⟩)
  | reset_read hhub => exact .inr (.inr ⟨rfl, by rw [hhub]; rfl⟩)
  | unbind hhub => exact .inr (.inr ⟨rfl, by rw [hhub]; rfl⟩)
  | set_intfdata hhub => exact .inr (.inr ⟨rfl, by rw [hhub]; rfl⟩)
  | deregister hhub => exact .inr (.inr ⟨rfl, by rw [hhub]; rfl⟩)
  | clear_interface hhub => exact .inr (.inr ⟨rfl, by rw [hhub]; rfl⟩)
  | kill hhub => exact .inr (.inr ⟨rfl, by rw [hhub]; rfl⟩)
  | put hhub => exact .inr (.inr ⟨rfl, by rw [hhub]; rfl⟩)
  | _ => exact .inr (.inr ⟨rfl, rfl⟩)

/-! ### The ledgers -/

section

variable {ι : Type} [Fintype ι] [DecidableEq ι] {v v' : Parties.State Skel Pc ι}
  {m : Parties.Move ι Act Env} {tr : List (Parties.Move ι Act Env × Parties.State Skel Pc ι)}
  {buf : List UInt8}

/-- Every permit is somewhere. -/
def Permitted (v : Parties.State Skel Pc ι) : Prop :=
  WRITES_IN_FLIGHT = v.shared.permits + Parties.tally Pc.permits v.place

/-- `io_mutex` is locked by one holder, or free. -/
def Locked (v : Parties.State Skel Pc ι) : Prop :=
  v.shared.io_mutex.toNat = v.shared.hub.holds + Parties.tally Pc.holds v.place

lemma Permitted.next (hv : Permitted v) (h : driver.next v m = some v') : Permitted v' := by
  refine Parties.next_ledger (c := fun _ => WRITES_IN_FLIGHT) (m := Skel.permits) h
    (fun i a y hact r hr => ?_) (fun e henv r hr => ?_) hv
  · have hstep := (step_of_act hact).permits
    omega
  · have hstep := (envStep_of_act henv).permits
    omega

lemma Locked.next (hv : Locked v) (h : driver.next v m = some v') : Locked v' := by
  refine Parties.next_ledger (c := fun s : Skel => s.io_mutex.toNat)
    (m := fun s => s.hub.holds) h
    (fun i a y hact r hr => ?_) (fun e henv r hr => ?_) hv
  · have hle := Bool.toNat_le v.shared.io_mutex
    rw [(step_of_act hact).hub]
    rcases (step_of_act hact).lock with ⟨hs, ht, hx, hy⟩ | ⟨ht, hx, hy⟩ | ⟨ht, hy⟩
    · rw [hs, hx] at hr
      rw [ht, hy]
      simp only [Bool.toNat_false, Bool.toNat_true] at hr ⊢
      omega
    · rw [hx] at hr
      rw [ht, hy, Bool.toNat_false]
      omega
    · rw [ht, hy, hr]
  · have hle := Bool.toNat_le v.shared.io_mutex
    rcases (envStep_of_act henv).lock with ⟨hs, ht, hx, hy⟩ | ⟨ht, hx, hy⟩ | ⟨ht, hy⟩
    · rw [hs, hx] at hr
      rw [ht, hy]
      simp only [Bool.toNat_false, Bool.toNat_true] at hr ⊢
      omega
    · rw [hx] at hr
      rw [ht, hy, Bool.toNat_false]
      omega
    · rw [ht, hy, hr]

omit [DecidableEq ι] in
lemma permitted_start : Permitted (start ι buf) := by
  simp [Permitted, start, Skel.probed, Skel.permits, Parties.tally, Pc.permits]

omit [DecidableEq ι] in
lemma locked_start : Locked (start ι buf) := by
  simp [Locked, start, Skel.probed, Hub.holds, Parties.tally, Pc.holds]

/-- However writes, completions and everything else interleave: the permits in `limit_sem`, the
write urbs from their submission to the end of their completion handler, and the processes with a
permit inside `skel_write` are always `WRITES_IN_FLIGHT` together. -/
theorem permits_accounted (hr : driver.system.Run (start ι buf) tr) :
    System.Always (fun v => v.shared.limit_sem + v.shared.queue.length + v.shared.giving.length +
      Parties.tally Pc.permits v.place = WRITES_IN_FLIGHT) (start ι buf) tr :=
  (hr.always (I := Permitted) (fun _ _ _ hs hstep => hs.next hstep) permitted_start).mono
    fun _ h => Eq.symm h

end

lemma session_permits_accounted : ∃ tr, driver.system.Run (start (Fin 2) [0, 0, 0, 0]) tr ∧
    tr.map Prod.fst = session ∧
    System.Always (fun v => v.shared.limit_sem + v.shared.queue.length + v.shared.giving.length +
      Parties.tally Pc.permits v.place = WRITES_IN_FLIGHT) (start (Fin 2) [0, 0, 0, 0]) tr := by
  obtain ⟨tr, hrun, hacts⟩ := exists_session
  exact ⟨tr, hrun, hacts, permits_accounted hrun⟩

end QuickDevSkeleton.UsbSkel
