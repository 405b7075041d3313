import QuickDevSkeleton.Foundations.BoundedQueue
import QuickDevSkeleton.Foundations.RingBuffer
import QuickDevSkeleton.Pipe.Device

/-!
# The pipe is a bounded queue

The device keeps the bytes from `rp` to `wp`, wrapping at `end`, as a queue of capacity
`BUF_LEN - 1`. Each call is matched by an event of `Foundations.BoundedQueue`, and with it
every run of calls from `my_init`.
-/

namespace QuickDevSkeleton.Pipe

open Foundations

/-- Both pointers lie in the buffer, which has `BUF_LEN` bytes. -/
structure Mydev.Wf (dev : Mydev) : Prop
    extends Ring.Valid dev.start dev.end_ dev.rp dev.wp where
  size : dev.end_ = dev.start + BUF_LEN

/-- The bytes in the pipe, oldest first. -/
def Mydev.queue (dev : Mydev) : List UInt8 :=
  Ring.contents dev.mem dev.start dev.end_ dev.rp dev.wp

/-- What a call asks of a queue. The user copy of a `read` or `write` gives out after `moved`
bytes; a command other than `PIPE_RESET` is none of the queue's. -/
def Call.request : Call → BoundedQueue.Request UInt8 ℤ
  | .read count c => .read count c.moved
  | .write data c => .write data c.moved
  | .ioctl cmd =>
    if cmd = PIPE_RESET then .reset
    else .invalid (if IOC_TYPE cmd ≠ PIPE then -ENOTTY else -EINVAL)

/-- A call with its reply, as an event of a queue. -/
def event (a : Call × Reply) : BoundedQueue.Event UInt8 ℤ where
  request := a.1.request
  answer := a.2.ret.map retval
  bytes := a.2.bytes

/-- The pipe as a transition system: a label is a call with its reply. -/
def system : System Mydev (Call × Reply) :=
  System.ofFun Mydev.call

namespace Mydev

variable {dev : Mydev}

/-! ### Lengths and counts -/

lemma length_queue : dev.queue.length = Ring.used dev.start dev.end_ dev.rp dev.wp :=
  Ring.length_contents

lemma length_queue_lt (h : dev.Wf) : dev.queue.length < BUF_LEN := by
  have hlt := Ring.used_lt h.toValid
  have hsize := h.size
  rw [length_queue]
  omega

lemma queue_eq_nil_iff (h : dev.Wf) : dev.queue = [] ↔ dev.wp = dev.rp := by
  rw [← List.length_eq_zero_iff, length_queue, Ring.used_eq_zero_iff h.toValid, eq_comm]

/-- The three cases of `spacefree` all count the free bytes but one. -/
lemma spacefree_eq (h : dev.Wf) : dev.spacefree = BUF_LEN - 1 - dev.queue.length := by
  obtain ⟨⟨h₁, h₂, h₃, h₄⟩, hsize⟩ := h
  rw [length_queue, Ring.used, spacefree]
  rw [BUF_LEN] at hsize ⊢
  rcases Nat.lt_trichotomy dev.rp dev.wp with hlt | heq | hgt
  · rw [if_neg hlt.ne, if_pos hlt, if_pos hlt.le, toSizeT_of_nonneg (by omega) (by omega)]
    omega
  · rw [if_pos heq, if_pos heq.le, toSizeT_of_nonneg (by omega) (by omega)]
    omega
  · rw [if_neg hgt.ne', if_neg hgt.asymm, if_neg (by omega),
      toSizeT_of_nonneg (by omega) (by omega)]
    omega

lemma readCount_eq (h : dev.Wf) (hne : dev.wp ≠ dev.rp) (count : ℕ) :
    dev.readCount count = min count (Ring.readable dev.end_ dev.rp dev.wp) := by
  obtain ⟨⟨h₁, h₂, h₃, h₄⟩, hsize⟩ := h
  rw [BUF_LEN] at hsize
  rw [readCount, Ring.readable]
  rcases Nat.lt_or_gt_of_ne hne with hlt | hgt
  · rw [if_neg hlt.asymm, if_pos hlt, if_neg (by omega), toSizeT_of_nonneg (by omega) (by omega)]
    omega
  · rw [if_pos hgt, if_neg hgt.asymm, if_pos (by omega),
      toSizeT_of_nonneg (by omega) (by omega)]
    omega

lemma writeCount_eq (h : dev.Wf) (count : ℕ) :
    dev.writeCount count = min count (min dev.spacefree (dev.end_ - dev.wp)) := by
  have hfree := spacefree_eq h
  obtain ⟨⟨h₁, h₂, h₃, h₄⟩, hsize⟩ := h
  rw [length_queue, Ring.used] at hfree
  rw [BUF_LEN] at hsize hfree
  rw [writeCount]
  by_cases hlt : dev.wp < dev.rp
  · rw [if_pos hlt, if_neg (by omega), toSizeT_of_nonneg (by omega) (by omega)]
    rw [if_neg (by omega)] at hfree
    omega
  · rw [if_neg hlt, if_pos (by omega), toSizeT_of_nonneg (by omega) (by omega)]
    omega

/-! ### Moving the pointers -/

lemma moveRp_eq (count : ℕ) :
    dev.moveRp count = { dev with rp := Ring.wrap dev.start dev.end_ (dev.rp + count) } := by
  simp only [moveRp, Ring.wrap]
  split <;> rfl

lemma moveWp_eq (count : ℕ) :
    dev.moveWp count = { dev with wp := Ring.wrap dev.start dev.end_ (dev.wp + count) } := by
  simp only [moveWp, Ring.wrap]
  split <;> rfl

lemma moveRp_wf {n : ℕ} (h : dev.Wf) (hn : n ≤ Ring.readable dev.end_ dev.rp dev.wp) :
    (dev.moveRp n).Wf := by
  rw [moveRp_eq]
  exact ⟨Ring.valid_take h.toValid hn, h.size⟩

lemma queue_moveRp {n : ℕ} (h : dev.Wf) (hn : n ≤ Ring.readable dev.end_ dev.rp dev.wp) :
    (dev.moveRp n).queue = dev.queue.drop n := by
  rw [moveRp_eq]
  exact Ring.contents_take h.toValid hn

lemma reset_wf (h : dev.Wf) : dev.reset.Wf := by
  have hlt : dev.start < dev.end_ := h.lo_le_r.trans_lt h.r_lt_hi
  exact ⟨⟨le_rfl, hlt, le_rfl, hlt⟩, h.size⟩

lemma queue_reset : dev.reset.queue = [] :=
  Ring.contents_self rfl

/-! ### The sections under `mysem` -/

/-- The count that `my_read` arrives at fits the stretch at `rp`, and is positive if it can be. -/
lemma readCount_bounds (h : dev.Wf) (hne : dev.wp ≠ dev.rp) (count : ℕ) :
    dev.readCount count ≤ Ring.readable dev.end_ dev.rp dev.wp ∧
      dev.readCount count ≤ count ∧ (1 ≤ count → 1 ≤ dev.readCount count) := by
  rw [readCount_eq h hne]
  have hpos : 1 ≤ Ring.readable dev.end_ dev.rp dev.wp := by
    have := h.r_lt_hi
    unfold Ring.readable
    split <;> omega
  omega

/-- What `my_read` does once there is something to read. -/
lemma readSection_cases (h : dev.Wf) (hne : dev.wp ≠ dev.rp) (count : ℕ) (c : UserCopy) :
    (dev.readSection count c = (dev, ⟨some (-EFAULT), dev.queue.take c.moved⟩) ∧
      c.moved < min count dev.queue.length) ∨
    ∃ (n : ℕ) (dev' : Mydev), dev.readSection count c = (dev', ⟨some n, dev.queue.take n⟩) ∧
      dev'.Wf ∧ dev'.queue = dev.queue.drop n ∧ n ≤ c.moved ∧
      n ≤ min count dev.queue.length ∧ (1 ≤ count → 1 ≤ n) := by
  obtain ⟨hread, hle, hpos⟩ := readCount_bounds h hne count
  have hused : dev.readCount count ≤ dev.queue.length := by
    rw [length_queue]
    exact hread.trans Ring.readable_le_used
  by_cases hc : (c.copy_to_user dev.mem dev.rp (dev.readCount count)).2 = 0
  · have hbytes := c.copy_to_user_ok hc
    rw [Ring.read_eq_take dev.start hread] at hbytes
    refine Or.inr ⟨dev.readCount count, dev.moveRp (dev.readCount count), ?_,
      moveRp_wf h hread, queue_moveRp h hread, c.copy_to_user_eq_zero.mp hc, le_min hle hused, hpos⟩
    simp only [readSection, hc, ne_eq, not_true_eq_false, if_false, hbytes]
    rfl
  · have hshort : c.moved < dev.readCount count :=
      not_le.mp (mt c.copy_to_user_eq_zero.mpr hc)
    have hbytes : (c.copy_to_user dev.mem dev.rp (dev.readCount count)).1 = _ :=
      c.copy_to_user_short hshort.le
    rw [Ring.read_eq_take dev.start (hshort.le.trans hread)] at hbytes
    refine Or.inl ⟨?_, hshort.trans_le (le_min hle hused)⟩
    simp only [readSection, if_pos hc, hbytes]
    rfl

/-- The count that `my_write` arrives at fits the free stretch at `wp`. -/
lemma writeCount_bounds (h : dev.Wf) (hfree : dev.spacefree ≠ 0) (count : ℕ) :
    Ring.Room dev.start dev.end_ dev.rp dev.wp (dev.writeCount count) ∧
      dev.writeCount count ≤ min count (BUF_LEN - 1 - dev.queue.length) ∧
      (1 ≤ count → 1 ≤ dev.writeCount count) := by
  have hsize := h.size
  have hw := h.w_lt_hi
  rw [writeCount_eq h, spacefree_eq h, length_queue] at *
  refine ⟨⟨?_, ?_⟩, ?_, ?_⟩ <;> omega

/-- What `my_write` does once there is free space. -/
lemma writeSection_cases (h : dev.Wf) (hfree : dev.spacefree ≠ 0) (data : List UInt8)
    (c : UserCopy) :
    (∃ dev', dev.writeSection data c = (dev', ⟨some (-EFAULT), []⟩) ∧
      dev'.Wf ∧ dev'.queue = dev.queue ∧
      c.moved < min data.length (BUF_LEN - 1 - dev.queue.length)) ∨
    ∃ (n : ℕ) (dev' : Mydev), dev.writeSection data c = (dev', ⟨some n, []⟩) ∧
      dev'.Wf ∧ dev'.queue = dev.queue ++ data.take n ∧ n ≤ c.moved ∧
      n ≤ min data.length (BUF_LEN - 1 - dev.queue.length) ∧ (1 ≤ data.length → 1 ≤ n) := by
  obtain ⟨hroom, hle, hpos⟩ := writeCount_bounds h hfree data.length
  have hlen : (data.take (dev.writeCount data.length)).length = dev.writeCount data.length := by
    rw [List.length_take]
    omega
  by_cases hc :
      (c.copy_from_user dev.mem dev.wp (data.take (dev.writeCount data.length))).2 = 0
  · have hmem := c.copy_from_user_ok hc
    have hall := c.copy_from_user_eq_zero.mp hc
    rw [hlen] at hall
    rw [← hlen] at hroom
    refine Or.inr ⟨dev.writeCount data.length,
      { dev with mem := dev.mem.write dev.wp (data.take (dev.writeCount data.length)) }.moveWp
        (dev.writeCount data.length), ?_, ?_, ?_, hall, hle, hpos⟩
    · simp only [writeSection, hc, ne_eq, not_true_eq_false, if_false, hmem]
    · rw [moveWp_eq]
      exact ⟨hlen ▸ Ring.valid_put h.toValid hroom, h.size⟩
    · have hput := Ring.contents_put (m := dev.mem) h.toValid hroom
      rw [hlen] at hput
      rw [moveWp_eq]
      exact hput
  · -- the bytes stored before the fault lie outside the queue
    have hstored := c.length_stored_le (data.take (dev.writeCount data.length))
    have hshort := not_le.mp (mt c.copy_from_user_eq_zero.mpr hc)
    rw [hlen] at hstored hshort
    have hroom' : Ring.Room dev.start dev.end_ dev.rp dev.wp
        (c.stored (data.take (dev.writeCount data.length))).length :=
      ⟨by have := hroom.spare; omega, by have := hroom.straight; omega⟩
    exact Or.inl ⟨_, if_pos hc, ⟨h.toValid, h.size⟩, Ring.contents_write h.toValid hroom',
      hshort.trans_le hle⟩

lemma my_init_wf (mem : Memory UInt8) (start : ℕ) : (my_init mem start).Wf :=
  ⟨⟨le_rfl, Nat.lt_add_of_pos_right (by decide), le_rfl, Nat.lt_add_of_pos_right (by decide)⟩, rfl⟩

/-- Every call is an event of the bounded queue and keeps the pointers in the buffer. -/
lemma call_step {dev dev' : Mydev} {a : Call × Reply} (h : dev.Wf)
    (hstep : system.step dev a dev') :
    BoundedQueue.Step (BUF_LEN - 1) (-EFAULT) dev.queue (event a) dev'.queue ∧ dev'.Wf := by
  obtain ⟨i, r⟩ := a
  simp only [system, System.ofFun] at hstep
  have hlt := length_queue_lt h
  cases i with
  | read count c =>
    simp only [call, my_read] at hstep
    split_ifs at hstep with hempty
    · cases hstep
      exact ⟨.readWaits ((queue_eq_nil_iff h).mpr hempty), h⟩
    · have hne : dev.queue ≠ [] := mt (queue_eq_nil_iff h).mp hempty
      rcases readSection_cases h hempty count c with
        ⟨heq, hshort⟩ | ⟨n, d, heq, hwf, hq, hreach, hle, hpos⟩
      · cases heq.symm.trans hstep
        exact ⟨.readFails hne hshort, h⟩
      · cases heq.symm.trans hstep
        rw [hq]
        simp only [event, Option.map_some, retval_natCast]
        exact ⟨.read hne hreach hle hpos, hwf⟩
  | write data c =>
    simp only [call, my_write] at hstep
    split_ifs at hstep with hfull
    · cases hstep
      rw [spacefree_eq h] at hfull
      exact ⟨.writeWaits (by omega), h⟩
    · have hroom : dev.queue.length < BUF_LEN - 1 := by
        rw [spacefree_eq h] at hfull
        omega
      rcases writeSection_cases h hfull data c with
        ⟨d, heq, hwf, hq, hshort⟩ | ⟨n, d, heq, hwf, hq, hreach, hle, hpos⟩
      · cases heq.symm.trans hstep
        rw [hq]
        exact ⟨.writeFails hroom hshort, hwf⟩
      · cases heq.symm.trans hstep
        rw [hq]
        simp only [event, Option.map_some, retval_natCast]
        exact ⟨.wrote hroom hreach hle hpos, hwf⟩
  | ioctl cmd =>
    simp only [call, my_ioctl] at hstep
    split_ifs at hstep with htype hcmd
    · cases hstep
      have hne : cmd ≠ PIPE_RESET := fun heq => htype (heq ▸ rfl)
      simp only [event, Call.request, if_neg hne, if_pos htype]
      exact ⟨.refused, h⟩
    · cases hstep
      rw [queue_reset]
      simp only [event, Call.request, if_pos hcmd]
      exact ⟨.reset, reset_wf h⟩
    · cases hstep
      simp only [event, Call.request, if_neg hcmd, if_neg htype]
      exact ⟨.refused, h⟩

end Mydev

/-! ### Runs from `my_init` -/

/-- Whatever calls are made on a fresh pipe, they are events of a bounded queue of capacity
`BUF_LEN - 1` that starts empty and answers with `-EFAULT` where a user copy gives out; both
pointers stay in the buffer and `spacefree` counts what the queue still takes. -/
theorem refines_bounded_queue (mem : Memory UInt8) (start : ℕ) (calls : List Call) :
    (BoundedQueue.system UInt8 (BUF_LEN - 1) (-EFAULT)).Run []
        ((System.trace Mydev.call (my_init mem start) calls).map (Prod.map event Mydev.queue)) ∧
      System.Always
        (fun dev => dev.start ≤ dev.rp ∧ dev.rp < dev.end_ ∧ dev.start ≤ dev.wp ∧
          dev.wp < dev.end_ ∧ dev.spacefree = BUF_LEN - 1 - dev.queue.length)
        (my_init mem start) (System.trace Mydev.call (my_init mem start) calls) := by
  have hrun := System.run_trace Mydev.call (my_init mem start) calls
  have hwf := Mydev.my_init_wf mem start
  have hstep : ∀ dev a dev', dev.Wf → system.step dev a dev' →
      (BoundedQueue.system UInt8 (BUF_LEN - 1) (-EFAULT)).step dev.queue (event a) dev'.queue ∧
        dev'.Wf :=
    fun _ _ _ h hs => Mydev.call_step h hs
  constructor
  · have hsim := System.Run.simulate hstep hrun hwf
    have hnil : (my_init mem start).queue = [] := Ring.contents_self rfl
    rwa [hnil] at hsim
  · have hinv := System.Run.always (fun s a t h hs => (hstep s a t h hs).2) hrun hwf
    refine hinv.mono fun dev h => ?_
    exact ⟨h.lo_le_r, h.r_lt_hi, h.lo_le_w, h.w_lt_hi, Mydev.spacefree_eq h⟩

end QuickDevSkeleton.Pipe
