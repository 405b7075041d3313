import QuickDevSkeleton.UsbSkel.Permits

/-!
# The bytes of the reads

`skel_read` hands out what the last completion of `bulk_in_urb` brought, and starts the next one
when all of it is gone. `io_mutex` is what keeps two readers apart, `ongoing_read` what keeps a
reader and a completion apart. So in every interleaving the bytes that have arrived are handed out
once and in their order, and nobody touches the buffer or the urb while the core has them.
-/

namespace QuickDevSkeleton.UsbSkel

open Foundations

/-- The bytes of the buffer that have arrived and have not been handed out. -/
def Skel.pending (s : Skel) : List UInt8 :=
  (s.bulk_in_buffer.take s.bulk_in_filled).drop s.bulk_in_copied

/-- If a read is going on, the core has the urb. -/
def Skel.Busy (s : Skel) : Prop := s.ongoing_read = true → s.reading ≠ none

/-- What the fields of the reads satisfy between any two steps. -/
structure Skel.Flow (s : Skel) : Prop where
  small : s.bulk_in_size < 2 ^ 16
  size : s.bulk_in_buffer.length = s.bulk_in_size
  filled : s.bulk_in_filled ≤ s.bulk_in_size
  copied : s.bulk_in_copied ≤ s.bulk_in_filled
  stream : s.handed.flatMap Prod.snd ++ s.pending = s.arrived
  flying : ∀ n, s.reading = some n →
    s.ongoing_read = true ∧ s.bulk_in_filled = 0 ∧ n ≤ s.bulk_in_size
  locked : s.hub.holds = 1 → s.io_mutex = true
  idle : s.io_mutex = false ∨ s.hub.holds = 1 → s.Busy

/-- What a reader that holds `io_mutex` knows. -/
def ReadPc.Owned (s : Skel) : ReadPc → Prop
  | .check | .clear _ | .data => s.ongoing_read = false
  | .prepare _ _ => s.ongoing_read = false ∧ s.bulk_in_copied = s.bulk_in_filled
  | .begun _ _ | .failed _ _ =>
    s.ongoing_read = true ∧ s.reading = none ∧ s.bulk_in_copied = s.bulk_in_filled
  | _ => s.Busy

def Pc.Owned (s : Skel) : Pc → Prop
  | .reading _ pc => pc.Owned s
  | _ => s.Busy

/-- What a process knows while it holds `io_mutex`. -/
def Pc.Guarded (s : Skel) (x : Pc) : Prop :=
  x.holds = 1 → s.io_mutex = true ∧ s.hub.holds = 0 ∧ x.Owned s

variable {s t : Skel} {x y z : Pc}

/-! ### The buffer -/

namespace Skel.Flow

variable (hs : s.Flow)

include hs

lemma available_eq : s.available = s.bulk_in_filled - s.bulk_in_copied := by
  have hsmall := hs.small
  have hfilled := hs.filled
  have hcopied := hs.copied
  rw [Skel.available, toSizeT_of_nonneg (by omega) (by omega)]
  omega

lemma length_pending : s.pending.length = s.bulk_in_filled - s.bulk_in_copied := by
  have hfilled := hs.filled
  rw [Skel.pending, List.length_drop, List.length_take, hs.size]
  omega

/-- A chunk is the first of the bytes that are pending. -/
lemma chunk_eq {n : ℕ} (hn : n ≤ s.available) : s.chunk n = s.pending.take n := by
  rw [hs.available_eq] at hn
  rw [Skel.chunk, Skel.pending, List.drop_take, List.take_take, Nat.min_eq_left hn]

lemma length_chunk {n : ℕ} (hn : n ≤ s.available) : (s.chunk n).length = n := by
  rw [hs.chunk_eq hn, List.length_take, hs.length_pending, ← hs.available_eq, Nat.min_eq_left hn]

lemma pending_of_copied (h : s.bulk_in_copied = s.bulk_in_filled) : s.pending = [] := by
  apply List.eq_nil_of_length_eq_zero
  rw [hs.length_pending, h, Nat.sub_self]

/-- Nothing is pending while the core has the urb. -/
lemma copied_flying {n : ℕ} (h : s.reading = some n) : s.bulk_in_copied = s.bulk_in_filled := by
  have hzero := (hs.flying n h).2.1
  have hle := hs.copied
  omega

lemma reading_none (h : s.ongoing_read = false) : s.reading = none := by
  rcases hr : s.reading with _ | n
  · rfl
  · have hongoing := (hs.flying n hr).1
    rw [h] at hongoing
    cases hongoing

end Skel.Flow

lemma Skel.Busy.of_idle (h : s.ongoing_read = false) : s.Busy := fun hongoing => by
  rw [h] at hongoing
  cases hongoing

/-! ### One step -/

/-- The shared state after `copy_to_user`: the chunk has moved from the pending bytes to those
handed out. -/
lemma Skel.Flow.read_copy (hs : s.Flow) (c : ReadCall) (ok : Bool) :
    (skel_read_copy s c ok).1.Flow := by
  have hmin : min s.available c.count ≤ s.available := Nat.min_le_left _ _
  have havailable := hs.available_eq
  have hcopied := hs.copied
  refine ⟨hs.small, hs.size, hs.filled, ?_, ?_, hs.flying, hs.locked, hs.idle⟩
  · change s.bulk_in_copied + min s.available c.count ≤ s.bulk_in_filled
    omega
  · change (s.handed ++ [(ok, s.chunk (min s.available c.count))]).flatMap Prod.snd ++
      (s.bulk_in_buffer.take s.bulk_in_filled).drop (s.bulk_in_copied + min s.available c.count)
        = s.arrived
    rw [← hs.stream, List.flatMap_append, List.flatMap_singleton, hs.chunk_eq hmin,
      List.append_assoc, ← List.drop_drop]
    exact congrArg _ (List.take_append_drop _ _)

/-- Taking `io_mutex`. -/
lemma Skel.Flow.lock (hs : s.Flow) (hfree : s.io_mutex = false) :
    Skel.Flow { s with io_mutex := true } :=
  { hs with locked := fun _ => rfl, idle := fun _ => hs.idle (Or.inl hfree) }

/-- Releasing `io_mutex`. -/
lemma Skel.Flow.unlock (hs : s.Flow) (hhub : s.hub.holds = 0) (hbusy : s.Busy) :
    Skel.Flow { s with io_mutex := false } :=
  { hs with
    locked := fun h => absurd (hhub.symm.trans h) Nat.zero_ne_one
    idle := fun _ => hbusy }

lemma Step.flow (h : Step s x t y) (hs : s.Flow) (hx : x.Guarded s) : t.Flow := by
  have hheld : x.holds = 1 → ¬ (s.io_mutex = false ∨ s.hub.holds = 1) := fun h hor => by
    obtain ⟨hmutex, hhub, -⟩ := hx h
    rw [hmutex, hhub] at hor
    simp at hor
  cases h with
  | read_lock c hfree => exact hs.lock hfree
  | write_lock c urb hfree => exact hs.lock hfree
  | flush_lock last hfree => exact hs.lock hfree
  | release_lock hfree => exact hs.lock hfree
  | read_exit c r => exact hs.unlock (hx rfl).2.1 (hx rfl).2.2
  | write_gone c urb => exact hs.unlock (hx rfl).2.1 (hx rfl).2.2
  | write_unlock c urb => exact hs.unlock (hx rfl).2.1 (hx rfl).2.2
  | write_unlock_refused c urb retval => exact hs.unlock (hx rfl).2.1 (hx rfl).2.2
  | flush_unlock res => exact hs.unlock (hx rfl).2.1 (hx rfl).2.2
  | flush_unlock_last res => exact hs.unlock (hx rfl).2.1 (hx rfl).2.2
  | release_unlock => exact hs.unlock (hx rfl).2.1 (hx rfl).2.2
  | read_copy c ok => exact hs.read_copy c ok
  | read_begin c count r =>
    exact { hs with
      flying := fun n hn => ⟨rfl, (hs.flying n hn).2⟩
      idle := fun h => absurd h (hheld rfl) }
  | read_submit c count r henabled hnone =>
    have hpending : s.pending = [] := hs.pending_of_copied (hx rfl).2.2.2.2
    refine ⟨hs.small, hs.size, Nat.zero_le _, le_rfl, ?_, fun n hn => ?_, hs.locked,
      fun h => absurd h (hheld rfl)⟩
    · rw [← hs.stream, hpending]
      rfl
    · cases hn
      exact ⟨(hx rfl).2.2.1, rfl, Nat.min_le_left _ _⟩
  | read_refused c count e r he =>
    have hpending : s.pending = [] := hs.pending_of_copied (hx rfl).2.2.2.2
    refine ⟨hs.small, hs.size, Nat.zero_le _, le_rfl, ?_, fun n hn => ?_, hs.locked,
      fun h => absurd h (hheld rfl)⟩
    · rw [← hs.stream, hpending]
      rfl
    · exact ⟨(hs.flying n hn).1, rfl, (hs.flying n hn).2.2⟩
  | read_failed c rv r =>
    refine { hs with flying := fun n hn => ?_, idle := fun h => absurd h (hheld rfl) }
    have hnone : s.reading = none := (hx rfl).2.2.2.1
    rw [show s.reading = some n from hn] at hnone
    cases hnone
  | _ => exact { hs with }

lemma Hub.holds_le (h : Hub) : h.holds ≤ 1 := by
  cases h <;> decide

/-- While `io_mutex` is free, the core is not between taking and releasing it. -/
lemma Skel.Flow.hub_free (hs : s.Flow) (hfree : s.io_mutex = false) : s.hub.holds = 0 := by
  have hle := Hub.holds_le s.hub
  have hne : s.hub.holds ≠ 1 := fun h => by
    rw [hs.locked h] at hfree
    cases hfree
  omega

lemma Skel.Busy.afterIo {rv : ℤ} {r : Option Reply} (h : s.Busy) :
    (ReadPc.afterIo rv r).Owned s := by
  cases r with
  | none =>
    rw [ReadPc.afterIo]
    split <;> exact h
  | some r => exact h

/-- What a process does establishes what its next place knows, if that holds `io_mutex`. -/
lemma Step.guarded (h : Step s x t y) (hs : s.Flow) (hx : x.Guarded s) : y.Guarded t := by
  intro hy
  cases h with
  | read_lock c hfree => exact ⟨rfl, hs.hub_free hfree, hs.idle (Or.inl hfree)⟩
  | write_lock c urb hfree => exact ⟨rfl, hs.hub_free hfree, hs.idle (Or.inl hfree)⟩
  | flush_lock last hfree => exact ⟨rfl, hs.hub_free hfree, hs.idle (Or.inl hfree)⟩
  | release_lock hfree => exact ⟨rfl, hs.hub_free hfree, hs.idle (Or.inl hfree)⟩
  | read_idle c hidle | read_woken c hidle => exact ⟨(hx rfl).1, (hx rfl).2.1, hidle⟩
  | read_clear c rv =>
    exact ⟨(hx rfl).1, (hx rfl).2.1, Skel.Busy.of_idle (s := { s with errors := _ }) (hx rfl).2.2⟩
  | read_empty c hempty =>
    refine ⟨(hx rfl).1, (hx rfl).2.1, (hx rfl).2.2, ?_⟩
    have havailable := hs.available_eq
    have hcopied := hs.copied
    omega
  | read_copy c ok hfilled havailable =>
    refine ⟨(hx rfl).1, (hx rfl).2.1, ?_⟩
    have hidle : s.ongoing_read = false := (hx rfl).2.2
    by_cases hless : s.available < c.count
    · simp only [skel_read_copy, if_pos hless]
      refine ⟨hidle, ?_⟩
      have heq := hs.available_eq
      have hcopied := hs.copied
      change s.bulk_in_copied + min s.available c.count = s.bulk_in_filled
      omega
    · simp only [skel_read_copy, if_neg hless]
      exact Skel.Busy.of_idle hidle
  | read_begin c count r =>
    exact ⟨(hx rfl).1, (hx rfl).2.1, rfl, hs.reading_none (hx rfl).2.2.1, (hx rfl).2.2.2⟩
  | read_submit c count r henabled hnone =>
    exact ⟨(hx rfl).1, (hx rfl).2.1, Skel.Busy.afterIo fun _ => Option.some_ne_none _⟩
  | read_refused c count e r he =>
    exact ⟨(hx rfl).1, (hx rfl).2.1, (hx rfl).2.2.1, (hx rfl).2.2.2.1, rfl⟩
  | read_failed c rv r =>
    exact ⟨(hx rfl).1, (hx rfl).2.1, Skel.Busy.afterIo (Skel.Busy.of_idle rfl)⟩
  | _ => first
    | exact hx rfl
    | exact absurd (show 0 = 1 from hy) Nat.zero_ne_one

/-- What the holder of `io_mutex` knows is about the fields of the reads. -/
lemma Pc.Owned.congr (hongoing : t.ongoing_read = s.ongoing_read) (hreading : t.reading = s.reading)
    (hfilled : t.bulk_in_filled = s.bulk_in_filled) (hcopied : t.bulk_in_copied = s.bulk_in_copied)
    (hz : z.Owned s) : z.Owned t := by
  have hbusy : s.Busy → t.Busy := fun h => by
    rw [Skel.Busy, hongoing, hreading]
    exact h
  cases z with
  | reading c pc =>
    cases pc with
    | check | clear | data => exact hongoing.trans hz
    | prepare => exact ⟨hongoing.trans hz.1, by rw [hcopied, hfilled, hz.2]⟩
    | begun | failed =>
      exact ⟨hongoing.trans hz.1, hreading.trans hz.2.1, by rw [hcopied, hfilled, hz.2.2]⟩
    | _ => exact hbusy hz
  | _ => exact hbusy hz

/-- A process without `io_mutex` changes nothing that its holder knows. -/
lemma Step.guarded_other (h : Step s x t y) (hz : z.Guarded s)
    (hxz : ¬ (x.holds = 1 ∧ z.holds = 1)) : z.Guarded t ∧ ¬ (y.holds = 1 ∧ z.holds = 1) := by
  by_cases hzero : z.holds = 1
  · obtain ⟨hmutex, hhub, howned⟩ := hz hzero
    have hx : x.holds ≠ 1 := fun hx => hxz ⟨hx, hzero⟩
    have hfree : s.io_mutex ≠ false := by simp [hmutex]
    have hkeep : t.io_mutex = s.io_mutex ∧ t.hub = s.hub ∧ t.ongoing_read = s.ongoing_read ∧
        t.reading = s.reading ∧ t.bulk_in_filled = s.bulk_in_filled ∧
        t.bulk_in_copied = s.bulk_in_copied ∧ y.holds = x.holds := by
      cases h with
      | read_lock c h | write_lock c urb h | flush_lock last h | release_lock h =>
        exact absurd h hfree
      | _ => first
        | exact ⟨rfl, rfl, rfl, rfl, rfl, rfl, rfl⟩
        | exact absurd rfl hx
    obtain ⟨hm, hh, hongoing, hreading, hfilled, hcopied, hy⟩ := hkeep
    refine ⟨fun _ => ⟨hm.trans hmutex, by rw [hh, hhub], ?_⟩, fun h => hx (hy ▸ h.1)⟩
    exact Pc.Owned.congr hongoing hreading hfilled hcopied howned
  · exact ⟨fun h => absurd h hzero, fun h => hzero h.2⟩

lemma EnvStep.flow (h : EnvStep s t) (hs : s.Flow) : t.Flow := by
  cases h with
  | read_done n data hn hlen =>
    have hsize := hs.size
    obtain ⟨hongoing, hfilled, hle⟩ := hs.flying n hn
    have hcopied : s.bulk_in_copied = 0 := by
      have h := hs.copied
      omega
    refine ⟨hs.small, ?_, hlen.trans hle, ?_, ?_, fun n hn => (by cases hn), hs.locked,
      fun _ => Skel.Busy.of_idle rfl⟩
    · simp only [List.length_append, List.length_drop]
      omega
    · change s.bulk_in_copied ≤ data.length
      omega
    · change s.handed.flatMap Prod.snd ++ (((data ++ s.bulk_in_buffer.drop data.length).take
        data.length).drop s.bulk_in_copied) = s.arrived ++ data
      rw [← hs.stream, hs.pending_of_copied (hs.copied_flying hn), hcopied, List.append_nil,
        List.take_left', List.drop_zero]
      rfl
  | read_error n st data hn hlen hst =>
    have hsize := hs.size
    obtain ⟨hongoing, hfilled, hle⟩ := hs.flying n hn
    refine ⟨hs.small, ?_, hs.filled, hs.copied, ?_, fun n hn => (by cases hn), hs.locked,
      fun _ => Skel.Busy.of_idle rfl⟩
    · simp only [Skel.post, List.length_append, List.length_drop]
      omega
    · change s.handed.flatMap Prod.snd ++ (((data ++ s.bulk_in_buffer.drop data.length).take
        s.bulk_in_filled).drop s.bulk_in_copied) = s.arrived
      rw [← hs.stream, hs.pending_of_copied (hs.copied_flying hn), hfilled, List.take_zero,
        List.drop_nil]
  | pre_reset_lock hhub hfree | disconnect_lock hhub hfree =>
    exact { hs with locked := fun _ => rfl, idle := fun _ => hs.idle (Or.inl hfree) }
  | post_reset hhub | disconnect_unlock hhub =>
    have hbusy : s.Busy := hs.idle (Or.inr (by rw [hhub]; rfl))
    exact { hs with
      locked := fun h => absurd (show 0 = 1 from h) Nat.zero_ne_one
      idle := fun _ => hbusy }
  | pre_reset hhub | reset_anchor hhub | reset_read hhub | unbind hhub | set_intfdata hhub
  | deregister hhub | clear_interface hhub | kill hhub | put hhub =>
    have hholds := congrArg Hub.holds hhub
    exact { hs with
      locked := fun h => hs.locked (hholds.trans h)
      idle := fun h => hs.idle (h.imp_right hholds.trans) }
  | _ => exact { hs with }

/-- A completion finds the holder of `io_mutex` where it knows nothing but that a read may be
going on. -/
lemma Pc.Owned.complete {n : ℕ} (hs : s.Flow) (hn : s.reading = some n) (ht : t.ongoing_read = false)
    (hz : z.Owned s) : z.Owned t := by
  have hongoing := (hs.flying n hn).1
  have hbusy : t.Busy := Skel.Busy.of_idle ht
  have hno : s.ongoing_read ≠ false := by simp [hongoing]
  have hnone : s.reading ≠ none := by simp [hn]
  cases z with
  | reading c pc =>
    cases pc with
    | check | clear | data => exact ht
    | prepare => exact absurd hz.1 hno
    | begun | failed => exact absurd hz.2.1 hnone
    | _ => exact hbusy
  | _ => exact hbusy

/-- What happens around the holder of `io_mutex` leaves what it knows. -/
lemma EnvStep.guarded (h : EnvStep s t) (hs : s.Flow) (hz : z.Guarded s) : z.Guarded t := by
  intro hzero
  obtain ⟨hmutex, hhub, howned⟩ := hz hzero
  have hsame : t.ongoing_read = s.ongoing_read → t.reading = s.reading →
      t.bulk_in_filled = s.bulk_in_filled → t.bulk_in_copied = s.bulk_in_copied → z.Owned t :=
    fun h₁ h₂ h₃ h₄ => howned.congr h₁ h₂ h₃ h₄
  cases h with
  | read_done n data hn hlen => exact ⟨hmutex, hhub, howned.complete hs hn rfl⟩
  | read_error n st data hn hlen => exact ⟨hmutex, hhub, howned.complete hs hn rfl⟩
  | pre_reset_lock h hfree | disconnect_lock h hfree =>
    rw [hmutex] at hfree
    cases hfree
  | post_reset h | disconnect_unlock h =>
    rw [h] at hhub
    cases hhub
  | clear_interface h =>
    rw [h] at hhub
    cases hhub
  | reset_anchor h | reset_read h =>
    rw [h] at hhub
    cases hhub
  | giveback_done | giveback_error | finish =>
    exact ⟨hmutex, hhub, hsame rfl rfl rfl rfl⟩
  | _ => exact ⟨hmutex, rfl, hsame rfl rfl rfl rfl⟩

/-! ### The replies -/

/-- A reply of a read of at least one byte: an error, or some of the bytes, and how many. -/
def Reply.Ok (c : ReadCall) (r : Reply) : Prop :=
  r.ret < 0 ∧ r.data = [] ∨ 0 < r.ret ∧ r.ret = r.data.length ∧ r.ret ≤ c.count

/-- Every reply that a place of `skel_read` has is a good one. -/
def ReadPc.Replies (c : ReadCall) : ReadPc → Prop
  | .clear rv => rv < 0
  | .prepare _ r | .begun _ r => ∀ x, r = some x → x.Ok c
  | .failed rv r => rv < 0 ∧ ∀ x, r = some x → x.Ok c
  | .exit r => r.Ok c
  | _ => True

def Pc.Replies : Pc → Prop
  | .reading c pc => c.count ≠ 0 ∧ pc.Replies c
  | .readRet c r => c.count = 0 ∧ r = ⟨0, []⟩ ∨ r.Ok c
  | _ => True

lemma Reply.ok_error {c : ReadCall} {rv : ℤ} (h : rv < 0) : Reply.Ok c ⟨rv, []⟩ :=
  Or.inl ⟨h, rfl⟩

lemma ReadPc.replies_afterIo {c : ReadCall} {rv : ℤ} {r : Option Reply}
    (h : ∀ x, r = some x → x.Ok c) : (ReadPc.afterIo rv r).Replies c := by
  cases r with
  | none =>
    rw [ReadPc.afterIo]
    split
    · exact Reply.ok_error ‹_›
    · trivial
  | some r => exact h r rfl

lemma Step.replies (h : Step s x t y) (hs : s.Flow) (hx : x.Replies) : y.Replies := by
  cases h with
  | read_zero c hzero => exact Or.inl ⟨hzero, rfl⟩
  | read_enter c hcount => exact ⟨hcount, trivial⟩
  | read_lock_signal c => exact Or.inr (Reply.ok_error (by decide))
  | read_gone c => exact ⟨hx.1, Reply.ok_error (by decide)⟩
  | read_again c => exact ⟨hx.1, Reply.ok_error (by decide)⟩
  | read_signal c => exact ⟨hx.1, Reply.ok_error (by decide)⟩
  | read_error c herr => exact ⟨hx.1, herr⟩
  | read_clear c rv => exact ⟨hx.1, Reply.ok_error (reported_neg hx.2)⟩
  | read_empty c hempty => exact ⟨hx.1, fun r hr => by cases hr⟩
  | read_copy c ok hfilled havailable =>
    refine ⟨hx.1, ?_⟩
    have hcount := hx.1
    have hmin : min s.available c.count ≤ s.available := Nat.min_le_left _ _
    have hok : Reply.Ok c (if ok then
        ⟨(min s.available c.count : ℕ), s.chunk (min s.available c.count)⟩
      else ⟨-EFAULT, []⟩) := by
      cases ok with
      | false => exact Reply.ok_error (by decide)
      | true =>
        refine Or.inr ⟨?_, ?_, ?_⟩
        · simp only [if_true]
          omega
        · simp only [if_true, hs.length_chunk hmin]
        · simp only [if_true]
          omega
    by_cases hless : s.available < c.count
    · simp only [skel_read_copy, if_pos hless]
      exact fun r hr => by cases hr; exact hok
    · simp only [skel_read_copy, if_neg hless]
      exact hok
  | read_begin c count r => exact hx
  | read_submit c count r => exact ⟨hx.1, ReadPc.replies_afterIo hx.2⟩
  | read_refused c count e r he => exact ⟨hx.1, by omega, hx.2⟩
  | read_failed c rv r => exact ⟨hx.1, ReadPc.replies_afterIo hx.2.2⟩
  | read_exit c r => exact Or.inr hx.2
  | read_interface | read_ongoing | read_idle | read_woken | read_sound | read_lock =>
    exact ⟨hx.1, trivial⟩
  | _ => trivial

/-! ### Every run -/

/-- The outline of `skel_read`. -/
def readOutline : Parties.Outline Skel Pc where
  inv := Skel.Flow
  known s x := x.Guarded s ∧ x.Replies
  apart x y := ¬ (x.holds = 1 ∧ y.holds = 1)

lemma readOutline_valid : readOutline.Valid driver where
  symm h hyx := h hyx.symm
  act hact hs hx :=
    have h := step_of_act hact
    ⟨h.flow hs hx.1, h.guarded hs hx.1, h.replies hs hx.2⟩
  other hact _ _ hz hxz :=
    have h := (step_of_act hact).guarded_other hz.1 hxz
    ⟨⟨h.1, hz.2⟩, h.2⟩
  env henv hs :=
    ⟨(envStep_of_act henv).flow hs, fun _ hz => ⟨(envStep_of_act henv).guarded hs hz.1, hz.2⟩⟩

section

variable {ι : Type} [DecidableEq ι] {buf : List UInt8}
  {tr : List (Parties.Move ι Act Env × Parties.State Skel Pc ι)}

omit [DecidableEq ι] in
lemma readOutline_start (hbuf : buf.length < 2 ^ 16) : readOutline.Holds (start ι buf) where
  inv :=
    { small := hbuf
      size := rfl
      filled := Nat.zero_le _
      copied := le_rfl
      stream := rfl
      flying := fun n hn => by cases hn
      locked := fun h => absurd (show 0 = 1 from h) Nat.zero_ne_one
      idle := fun _ h => by cases h }
  known _ := ⟨fun h => absurd (show 0 = 1 from h) Nat.zero_ne_one, trivial⟩
  apart _ _ _ h := absurd (show 0 = 1 from h.1) Nat.zero_ne_one

lemma readOutline_always (hbuf : buf.length < 2 ^ 16) (hr : driver.system.Run (start ι buf) tr) :
    System.Always readOutline.Holds (start ι buf) tr :=
  readOutline_valid.always hr (readOutline_start hbuf)

/-- However readers, completions and resets interleave, the bytes that completed reads have brought
are handed to `copy_to_user` once and in their order, and what is left of them is in the buffer.
A `read` of at least one byte returns an error or a positive number of bytes, never 0. -/
theorem reads_in_order (hbuf : buf.length < 2 ^ 16) (hr : driver.system.Run (start ι buf) tr) :
    System.Always (fun v =>
      v.shared.handed.flatMap Prod.snd ++ v.shared.pending = v.shared.arrived ∧
      v.shared.bulk_in_copied ≤ v.shared.bulk_in_filled ∧
      v.shared.bulk_in_filled ≤ v.shared.bulk_in_size ∧
      ∀ p c r, v.place p = .readRet c r → c.count = 0 ∧ r = ⟨0, []⟩ ∨ r.Ok c)
      (start ι buf) tr := by
  refine (readOutline_always hbuf hr).mono fun v h => ?_
  have hflow : v.shared.Flow := h.inv
  refine ⟨hflow.stream, hflow.copied, hflow.filled, fun p c r hp => ?_⟩
  have hreplies := (h.known p).2
  rwa [hp] at hreplies

/-- While the core has `bulk_in_urb`, no process fills it in, submits it, or takes bytes out of
its buffer; and a process that waits for the end of a read waits for an urb that the core has. -/
theorem urb_undisturbed (hbuf : buf.length < 2 ^ 16) (hr : driver.system.Run (start ι buf) tr) :
    System.Always (fun v => ∀ p c,
      (v.shared.reading ≠ none → v.place p ≠ .reading c .data ∧
        ∀ n r, v.place p ≠ .reading c (.prepare n r) ∧ v.place p ≠ .reading c (.begun n r)) ∧
      (v.place p = .reading c .wait → v.shared.ongoing_read = true → v.shared.reading ≠ none))
      (start ι buf) tr := by
  refine (readOutline_always hbuf hr).mono fun v h p c => ?_
  have hflow : v.shared.Flow := h.inv
  have hguarded : (v.place p).Guarded v.shared := (h.known p).1
  refine ⟨fun hreading => ⟨fun hp => ?_, fun n r => ⟨fun hp => ?_, fun hp => ?_⟩⟩, fun hp => ?_⟩
  · rw [hp] at hguarded
    exact hreading (hflow.reading_none (hguarded rfl).2.2)
  · rw [hp] at hguarded
    exact hreading (hflow.reading_none (hguarded rfl).2.2.1)
  · rw [hp] at hguarded
    exact hreading (hguarded rfl).2.2.2.1
  · rw [hp] at hguarded
    exact (hguarded rfl).2.2

end

lemma session_reads_in_order : ∃ tr, driver.system.Run (start (Fin 2) [0, 0, 0, 0]) tr ∧
    tr.map Prod.fst = session ∧
    System.Always (fun v =>
      v.shared.handed.flatMap Prod.snd ++ v.shared.pending = v.shared.arrived ∧
      v.shared.bulk_in_copied ≤ v.shared.bulk_in_filled ∧
      v.shared.bulk_in_filled ≤ v.shared.bulk_in_size ∧
      ∀ p c r, v.place p = .readRet c r → c.count = 0 ∧ r = ⟨0, []⟩ ∨ r.Ok c)
      (start (Fin 2) [0, 0, 0, 0]) tr := by
  obtain ⟨tr, hrun, hacts⟩ := exists_session
  exact ⟨tr, hrun, hacts, reads_in_order (by decide) hrun⟩

lemma session_urb_undisturbed : ∃ tr, driver.system.Run (start (Fin 2) [0, 0, 0, 0]) tr ∧
    tr.map Prod.fst = session ∧
    System.Always (fun v => ∀ p c,
      (v.shared.reading ≠ none → v.place p ≠ .reading c .data ∧
        ∀ n r, v.place p ≠ .reading c (.prepare n r) ∧ v.place p ≠ .reading c (.begun n r)) ∧
      (v.place p = .reading c .wait → v.shared.ongoing_read = true → v.shared.reading ≠ none))
      (start (Fin 2) [0, 0, 0, 0]) tr := by
  obtain ⟨tr, hrun, hacts⟩ := exists_session
  exact ⟨tr, hrun, hacts, urb_undisturbed (by decide) hrun⟩

end QuickDevSkeleton.UsbSkel
