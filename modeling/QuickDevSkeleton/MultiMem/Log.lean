import QuickDevSkeleton.Foundations.AppendLog
import QuickDevSkeleton.MultiMem.Setup

/-!
# The device refines a set of append-only logs

Each minor is an append-only log: the bytes between `start` and `wp` of its structure. A file
is a position in the log of its minor.
-/

namespace QuickDevSkeleton.MultiMem

open Foundations

/-- The bytes written to entry `i` so far. -/
def World.log (w : World) (i : ℕ) : List UInt8 :=
  w.mem.read (w.dev i).start ((w.dev i).wp - (w.dev i).start)

/-- The entries point to structures of their own, whose buffers do not meet, and every `wp`
lies in its buffer. -/
structure World.Wf (w : World) (buf_lens : ℕ → ℕ) : Prop where
  distinct : ∀ i j : Fin DEV_NUM, i ≠ j → w.multi_devs i ≠ w.multi_devs j
  apart : ∀ i j : Fin DEV_NUM, i ≠ j →
    Block.Apart ⟨(w.dev i).start, (w.dev i).buf_size⟩ ⟨(w.dev j).start, (w.dev j).buf_size⟩
  start_le : ∀ i : Fin DEV_NUM, (w.dev i).start ≤ (w.dev i).wp
  wp_le : ∀ i : Fin DEV_NUM, (w.dev i).wp ≤ (w.dev i).end_
  end_eq : ∀ i : Fin DEV_NUM, (w.dev i).end_ = (w.dev i).start + (w.dev i).buf_size
  buf_size : ∀ i : Fin DEV_NUM, (w.dev i).buf_size = bufSize (buf_lens i)

/-- An open file points to the structure of its minor, and its position is in the buffer. -/
structure File.Wf (filp : File) (w : World) : Prop where
  private_data : filp.private_data = w.multi_devs filp.minor
  pos_nonneg : 0 ≤ filp.f_pos
  pos_le : filp.f_pos ≤ (w.dev filp.minor).buf_size

structure State.Wf (s : State) (buf_lens : ℕ → ℕ) : Prop where
  world : s.world.Wf buf_lens
  file : ∀ fd filp, s.files fd = some filp → filp.Wf s.world

/-- The logs that a state stands for. -/
def State.abs (s : State) : AppendLog.State (Fin DEV_NUM) ℕ UInt8 where
  log i := s.world.log i
  file fd := (s.files fd).map fun filp => (filp.minor, filp.f_pos.toNat)

/-- The place that a seek asks for, as the 64-bit sums of `my_llseek` have it. -/
def seekTarget (offset : ℤ) (origin f_pos buf_size : ℕ) : ℤ :=
  match origin with
  | 1 => toLoff (offset + f_pos)
  | 2 => toLoff (offset + buf_size)
  | _ => offset

/-- What a call asks of the logs. A `write` and a `pwrite` ask for the same. -/
def Call.request : Call → AppendLog.Request (Fin DEV_NUM) ℕ UInt8
  | .open_ fd minor => .open_ fd minor
  | .read fd count c => .read fd count c.moved
  | .pread fd pos count c => .readAt fd pos count c.moved
  | .write fd data c | .pwrite fd _ data c => .write fd data c.moved
  | .llseek fd offset origin => .seek fd (seekTarget offset origin)

/-- A call with its reply, as an event of the logs. -/
def event (a : Call × Reply) : AppendLog.Event (Fin DEV_NUM) ℕ UInt8 ℤ where
  request := a.1.request
  answer := retval a.2.ret
  bytes := a.2.bytes

/-- The error numbers of the driver and of the layer above it. -/
def errors : AppendLog.Errors ℤ where
  fault := -EFAULT
  range := -EINVAL
  closed := -EBADF

/-- The user copy of a call stops before the end of what it was asked for. -/
def Call.Faults : Call → Prop
  | .read _ count c | .pread _ _ count c => c.moved < count
  | .write _ data c | .pwrite _ _ data c => c.moved < data.length
  | _ => False

/-- Every open file has its position in the buffer of its minor. -/
def State.InRange (buf_lens : ℕ → ℕ) (s : State) : Prop :=
  ∀ fd filp, s.files fd = some filp →
    0 ≤ filp.f_pos ∧ filp.f_pos ≤ bufSize (buf_lens filp.minor)

/-! ### The module -/

section

variable {buf_lens : ℕ → ℕ} {w : World} {filp : File}

lemma World.Ready.wf (h : w.Ready buf_lens DEV_NUM) : w.Wf buf_lens where
  distinct i j hij := h.distinct i i.2 j j.2 (Fin.val_ne_of_ne hij)
  apart i j hij := h.apart i i.2 j j.2 (Fin.val_ne_of_ne hij)
  start_le i := by rw [(h.entry i i.2).wp_eq]
  wp_le i := by
    rw [(h.entry i i.2).wp_eq, (h.entry i i.2).end_eq]
    exact Nat.le_add_right _ _
  end_eq i := (h.entry i i.2).end_eq
  buf_size i := (h.entry i i.2).buf_size

namespace World.Wf

variable (h : w.Wf buf_lens) (i : Fin DEV_NUM)

@[simp] lemma length_log : (w.log i).length = (w.dev i).wp - (w.dev i).start :=
  Memory.length_read _ _ _

include h

/-- `end - wp` is the room that the log has left. -/
lemma room : (w.dev i).end_ - (w.dev i).wp = bufSize (buf_lens i) - (w.log i).length := by
  have h₁ := h.start_le i
  have h₂ := h.end_eq i
  have h₃ := h.buf_size i
  rw [length_log]
  omega

lemma log_length_le : (w.dev i).wp - (w.dev i).start ≤ 4096 := by
  have h₁ := h.wp_le i
  have h₂ := h.end_eq i
  have h₃ := h.buf_size i
  have h₄ := (bufSize_bounds (buf_lens i)).2
  omega

lemma log_length_le_size : (w.log i).length ≤ (w.dev i).buf_size := by
  have h₁ := h.wp_le i
  have h₂ := h.end_eq i
  rw [length_log]
  omega

/-- A store between `wp` and `end` that moves `wp` over `n` of the stored bytes appends these
to the log of the entry and leaves all other logs alone. -/
lemma append (w' : World) {n : ℕ} (hdevs : w'.multi_devs = w.multi_devs)
    (hstructs : w'.structs =
      Function.update w.structs (w.multi_devs i) { w.dev i with wp := (w.dev i).wp + n })
    (hn : (w.dev i).wp + n ≤ (w.dev i).end_)
    (hmem : ∀ a, a < (w.dev i).wp ∨ (w.dev i).end_ ≤ a → w'.mem a = w.mem a) :
    w'.Wf buf_lens ∧ (∀ j : Fin DEV_NUM, (w'.dev j).buf_size = (w.dev j).buf_size) ∧
      (∀ j : Fin DEV_NUM, j ≠ i → w'.log j = w.log j) ∧
      w'.log i = w.log i ++ w'.mem.read (w.dev i).wp n := by
  have hi : w'.dev i = { w.dev i with wp := (w.dev i).wp + n } := by
    rw [World.dev, hdevs, hstructs, Function.update_self]
  have hj : ∀ j : Fin DEV_NUM, j ≠ i → w'.dev j = w.dev j := by
    intro j hji
    rw [World.dev, hdevs, hstructs, Function.update_of_ne (h.distinct j i hji), World.dev]
  have hbounds : ∀ j : Fin DEV_NUM, (w'.dev j).start = (w.dev j).start ∧
      (w'.dev j).end_ = (w.dev j).end_ ∧ (w'.dev j).buf_size = (w.dev j).buf_size ∧
      (w.dev j).wp ≤ (w'.dev j).wp ∧ (w'.dev j).wp ≤ (w.dev j).end_ := by
    intro j
    by_cases hji : j = i
    · rw [hji, hi]
      exact ⟨rfl, rfl, rfl, Nat.le_add_right _ _, hn⟩
    · rw [hj j hji]
      exact ⟨rfl, rfl, rfl, Nat.le_refl _, h.wp_le j⟩
  have hs := h.start_le i
  have he := h.end_eq i
  refine ⟨?_, fun j => (hbounds j).2.2.1, ?_, ?_⟩
  · constructor
    · intro j k hjk
      rw [hdevs]
      exact h.distinct j k hjk
    · intro j k hjk
      rw [(hbounds j).1, (hbounds j).2.2.1, (hbounds k).1, (hbounds k).2.2.1]
      exact h.apart j k hjk
    · intro j
      rw [(hbounds j).1]
      exact Nat.le_trans (h.start_le j) (hbounds j).2.2.2.1
    · intro j
      rw [(hbounds j).2.1]
      exact (hbounds j).2.2.2.2
    · intro j
      rw [(hbounds j).1, (hbounds j).2.1, (hbounds j).2.2.1]
      exact h.end_eq j
    · intro j
      rw [(hbounds j).2.2.1]
      exact h.buf_size j
  · intro j hji
    rw [World.log, hj j hji]
    apply Memory.read_congr
    intro a ha₁ ha₂
    have hwp := h.wp_le j
    have hend := h.end_eq j
    have hap := h.apart j i hji
    simp only [Block.Apart] at hap
    exact hmem a (by omega)
  · have hlen : (w.dev i).wp + n - (w.dev i).start = (w.dev i).wp - (w.dev i).start + n := by omega
    rw [World.log, hi]
    show w'.mem.read (w.dev i).start ((w.dev i).wp + n - (w.dev i).start) = _
    rw [hlen, Memory.read_add, Nat.add_sub_cancel' hs, World.log]
    congr 1
    apply Memory.read_congr
    intro a _ ha
    exact hmem a (by omega)

end World.Wf

/-! ### The file operations -/

lemma File.Wf.structs (hf : filp.Wf w) : w.structs filp.private_data = w.dev filp.minor := by
  rw [hf.private_data, World.dev]

/-- A read faults in what the log holds between its position and `count` bytes on, or it delivers
that and moves the position by what it delivered. -/
lemma my_read_cases (hw : w.Wf buf_lens) (hf : filp.Wf w) (count : ℕ) {pos : ℤ} (hpos : 0 ≤ pos)
    (c : UserCopy) :
    (c.moved < (((w.log filp.minor).drop pos.toNat).take count).length ∧
      my_read w filp count pos c =
        (-EFAULT, ((w.log filp.minor).drop pos.toNat).take c.moved, pos)) ∨
      ∃ bytes, bytes = ((w.log filp.minor).drop pos.toNat).take count ∧ bytes.length ≤ c.moved ∧
        my_read w filp count pos c = ((bytes.length : ℤ), bytes, pos + bytes.length) := by
  have hs := hw.start_le filp.minor
  have hle := hw.log_length_le filp.minor
  obtain ⟨p, rfl⟩ := Int.eq_ofNat_of_zero_le hpos
  simp only [my_read, hf.structs, Int.toNat_natCast]
  by_cases hpast : (p : ℤ) ≥ ((w.dev filp.minor).wp : ℤ) - (w.dev filp.minor).start
  · have hdrop : (w.log filp.minor).drop p = [] := by
      apply List.drop_of_length_le
      rw [World.Wf.length_log]
      omega
    rw [if_pos hpast]
    exact Or.inr ⟨[], by rw [hdrop, List.take_nil], Nat.zero_le _, by simp⟩
  · have hroom : toSizeT (((w.dev filp.minor).wp : ℤ) - (w.dev filp.minor).start - p) =
        (w.dev filp.minor).wp - (w.dev filp.minor).start - p := by
      rw [toSizeT_of_nonneg (by omega) (by omega)]
      omega
    have haddr : (((w.dev filp.minor).start : ℤ) + p).toNat = (w.dev filp.minor).start + p := by
      omega
    have hstretch : ∀ n, ((w.log filp.minor).drop p).take n =
        w.mem.read ((w.dev filp.minor).start + p)
          (min n ((w.dev filp.minor).wp - (w.dev filp.minor).start - p)) :=
      fun n => Memory.take_drop_read _ _ _ (by omega)
    rw [if_neg hpast, hroom, haddr]
    split_ifs with hzero hfault
    · have hcount : count = 0 := by omega
      exact Or.inr ⟨[], by rw [hcount, List.take_zero], Nat.zero_le _, by simp⟩
    · have hshort := not_le.mp (mt c.copy_to_user_eq_zero.mpr hfault)
      refine Or.inl ⟨?_, ?_⟩
      · rwa [hstretch, Memory.length_read]
      · rw [c.copy_to_user_short hshort.le, hstretch, min_eq_left (by omega)]
    · refine Or.inr ⟨_, rfl, ?_, ?_⟩
      · rw [hstretch, Memory.length_read]
        exact c.copy_to_user_eq_zero.mp (not_not.mp hfault)
      · rw [hstretch, Memory.length_read, c.copy_to_user_ok (not_not.mp hfault),
          toLoff_of_small (by omega) (by omega)]

/-- A write faults and leaves all logs as they are, or it appends to the log of its minor as
much of its data as there is room for. -/
lemma my_write_cases (hw : w.Wf buf_lens) (hf : filp.Wf w) (data : List UInt8) (c : UserCopy) :
    (my_write w filp data c).1.Wf buf_lens ∧
      (my_write w filp data c).1.multi_devs = w.multi_devs ∧
      (∀ j : Fin DEV_NUM, ((my_write w filp data c).1.dev j).buf_size = (w.dev j).buf_size) ∧
      (∀ j : Fin DEV_NUM, j ≠ filp.minor → (my_write w filp data c).1.log j = w.log j) ∧
      (c.moved < min data.length (bufSize (buf_lens filp.minor) - (w.log filp.minor).length) ∧
          (my_write w filp data c).2 = -EFAULT ∧
          (my_write w filp data c).1.log filp.minor = w.log filp.minor ∨
        ∃ n : ℕ, n = min data.length (bufSize (buf_lens filp.minor) - (w.log filp.minor).length) ∧
          n ≤ c.moved ∧ (my_write w filp data c).2 = n ∧
          (my_write w filp data c).1.log filp.minor = w.log filp.minor ++ data.take n) := by
  have hle := hw.wp_le filp.minor
  have hroom : toSizeT (((w.dev filp.minor).end_ : ℤ) - (w.dev filp.minor).wp) =
      (w.dev filp.minor).end_ - (w.dev filp.minor).wp := by
    have h₁ := hw.log_length_le filp.minor
    have h₂ := hw.start_le filp.minor
    have h₃ := hw.end_eq filp.minor
    have h₄ := hw.buf_size filp.minor
    have h₅ := (bufSize_bounds (buf_lens filp.minor)).2
    rw [toSizeT_of_nonneg (by omega) (by omega)]
    omega
  simp only [my_write, hf.structs, hroom, hw.room filp.minor]
  generalize hcount : min data.length (bufSize (buf_lens filp.minor) - (w.log filp.minor).length) =
    count
  have hcap : (w.dev filp.minor).wp + count ≤ (w.dev filp.minor).end_ := by
    have := hw.room filp.minor
    omega
  have hlen : (data.take count).length = count := by
    rw [List.length_take]
    omega
  have hmem : ∀ a, a < (w.dev filp.minor).wp ∨ (w.dev filp.minor).end_ ≤ a →
      (c.copy_from_user w.mem (w.dev filp.minor).wp (data.take count)).1 a = w.mem a := by
    intro a ha
    have := c.length_stored_le (data.take count)
    exact Memory.write_outside _ (by omega)
  split_ifs with hzero hfault
  · subst hzero
    refine ⟨hw, rfl, fun j => rfl, fun j _ => rfl, Or.inr ⟨0, rfl, Nat.zero_le _, rfl, ?_⟩⟩
    rw [List.take_zero, List.append_nil]
  · have hstructs : w.structs = Function.update w.structs (w.multi_devs filp.minor)
        { w.dev filp.minor with wp := (w.dev filp.minor).wp + 0 } :=
      (Function.update_eq_self _ _).symm
    obtain ⟨hwf, hsize, hother, hself⟩ := hw.append filp.minor
      { w with mem := (c.copy_from_user w.mem (w.dev filp.minor).wp (data.take count)).1 }
      rfl hstructs hle hmem
    rw [Memory.read_zero, List.append_nil] at hself
    have hshort := not_le.mp (mt c.copy_from_user_eq_zero.mpr hfault)
    rw [hlen] at hshort
    exact ⟨hwf, rfl, hsize, hother, Or.inl ⟨hshort, rfl, hself⟩⟩
  · obtain ⟨hwf, hsize, hother, hself⟩ := hw.append filp.minor
      { w with
        mem := (c.copy_from_user w.mem (w.dev filp.minor).wp (data.take count)).1
        structs := Function.update w.structs filp.private_data
          { w.dev filp.minor with wp := (w.dev filp.minor).wp + count } }
      rfl (by rw [hf.private_data]) hcap hmem
    have hall := c.copy_from_user_eq_zero.mp (not_not.mp hfault)
    rw [hlen] at hall
    refine ⟨hwf, rfl, hsize, hother, Or.inr ⟨count, rfl, hall, rfl, hself.trans ?_⟩⟩
    have hread : (w.mem.write (w.dev filp.minor).wp (data.take count)).read
        (w.dev filp.minor).wp count = data.take count := by
      rw [Memory.read_write_prefix _ _ hlen.ge, List.take_take, Nat.min_self]
    rw [c.copy_from_user_ok (not_not.mp hfault), hread]

lemma my_llseek_eq {p : ℕ} (hp : filp.f_pos = p) (offset : ℤ) (origin : ℕ) :
    my_llseek w filp offset origin =
      let dev := w.structs filp.private_data
      let target := seekTarget offset origin p dev.buf_size
      if target < 0 ∨ target > dev.buf_size then (-EINVAL, filp.f_pos) else (target, target) := by
  cases filp
  cases hp
  rfl

/-- A seek out of the buffer is refused, and any other one stores its target. -/
lemma my_llseek_cases (hf : filp.Wf w) (offset : ℤ) (origin : ℕ) :
    let target := seekTarget offset origin filp.f_pos.toNat (w.dev filp.minor).buf_size
    (target < 0 ∨ ((w.dev filp.minor).buf_size : ℤ) < target) ∧
        my_llseek w filp offset origin = (-EINVAL, filp.f_pos) ∨
      ∃ pos : ℕ, target = pos ∧ pos ≤ (w.dev filp.minor).buf_size ∧
        my_llseek w filp offset origin = (↑pos, ↑pos) := by
  intro target
  rw [my_llseek_eq (Int.toNat_of_nonneg hf.pos_nonneg).symm, hf.structs]
  dsimp only
  split_ifs with hout
  · exact Or.inl ⟨hout, rfl⟩
  · obtain ⟨hneg, hbig⟩ := not_or.mp hout
    obtain ⟨pos, hpos⟩ := Int.eq_ofNat_of_zero_le (not_lt.mp hneg)
    rw [hpos] at hbig ⊢
    exact Or.inr ⟨pos, hpos, by omega, rfl⟩

end

/-! ### Calls -/

namespace State

variable {buf_lens : ℕ → ℕ} {s : State} {fd : ℕ} {filp : File}

lemma abs_setFile : (s.setFile fd filp).abs = s.abs.setFile fd filp.minor filp.f_pos.toNat := by
  simp only [abs, setFile, AppendLog.State.setFile, AppendLog.State.mk.injEq, true_and]
  funext fd'
  by_cases hfd : fd' = fd
  · rw [hfd, Function.update_self, Function.update_self, Option.map_some]
  · rw [Function.update_of_ne hfd, Function.update_of_ne hfd]

lemma setFile_self (hf : s.files fd = some filp) : s.setFile fd filp = s := by
  rw [setFile, ← hf, Function.update_eq_self]

lemma abs_file (hf : s.files fd = some filp) :
    s.abs.file fd = some (filp.minor, filp.f_pos.toNat) := by
  simp [abs, hf]

lemma Wf.setFile (h : s.Wf buf_lens) (hf : filp.Wf s.world) : (s.setFile fd filp).Wf buf_lens := by
  refine ⟨h.world, fun fd' filp' hfd' => ?_⟩
  by_cases hfd : fd' = fd
  · simp only [hfd, State.setFile, Function.update_self] at hfd'
    cases hfd'
    exact hf
  · simp only [State.setFile, Function.update_of_ne hfd] at hfd'
    exact h.file fd' filp' hfd'

/-- Only entry `i` of the logs has changed. -/
lemma abs_setLog {w : World} {i : Fin DEV_NUM} {l : List UInt8} (hi : w.log i = l)
    (hj : ∀ j : Fin DEV_NUM, j ≠ i → w.log j = s.world.log j) :
    ({ s with world := w } : State).abs = s.abs.setLog i l := by
  simp only [abs, AppendLog.State.setLog, AppendLog.State.mk.injEq, and_true]
  funext j
  by_cases hji : j = i
  · rw [hji, Function.update_self, hi]
  · rw [Function.update_of_ne hji, hj j hji]

end State

/-- A count is no `-EFAULT`. -/
lemma natCast_ne_fault (n : ℕ) : (n : ℤ) ≠ -EFAULT := by
  show (n : ℤ) ≠ -14
  omega

/-- A call is an event of the logs, keeps the module well formed, and reports a fault only when the
user copy had one. -/
structure State.Follows (s : State) (buf_lens : ℕ → ℕ) (c : Call) : Prop where
  step : AppendLog.Step (fun i : Fin DEV_NUM => bufSize (buf_lens i)) errors s.abs
    (event (c, (s.call c).2)) (s.call c).1.abs
  wf : (s.call c).1.Wf buf_lens
  faults : (s.call c).2.ret = -EFAULT → c.Faults

lemma State.Follows.of_call {buf_lens : ℕ → ℕ} {s t : State} {c : Call} {r : Reply}
    (hcall : s.call c = (t, r))
    (hstep : AppendLog.Step (fun i : Fin DEV_NUM => bufSize (buf_lens i)) errors s.abs
      (event (c, r)) t.abs)
    (hwf : t.Wf buf_lens) (hfaults : r.ret = -EFAULT → c.Faults) : s.Follows buf_lens c := by
  constructor
  · rw [hcall]
    exact hstep
  · rw [hcall]
    exact hwf
  · rw [hcall]
    exact hfaults

namespace State.Wf

variable {buf_lens : ℕ → ℕ} {s : State} {fd : ℕ} {filp : File}

/-- A call on a file that is not open. -/
lemma badFile {c : Call} (h : s.Wf buf_lens) (hf : s.files fd = none)
    (hfile : c.request.file = some fd) (hcall : s.call c = (s, ⟨-EBADF, []⟩)) :
    s.Follows buf_lens c := by
  have hnone : s.abs.file fd = none := by
    simp [State.abs, hf]
  exact .of_call hcall (.badFile hfile hnone) h fun hret => by cases hret

lemma read (h : s.Wf buf_lens) (hf : s.files fd = some filp) (count : ℕ) (u : UserCopy) :
    s.Follows buf_lens (.read fd count u) := by
  have hwf := h.file fd filp hf
  rcases my_read_cases h.world hwf count hwf.pos_nonneg u with
    ⟨hshort, heq⟩ | ⟨bytes, hbytes, hreach, heq⟩
  · have hcall : s.call (.read fd count u) =
        (s, ⟨-EFAULT, s.abs.stretch filp.minor filp.f_pos.toNat u.moved⟩) := by
      simp only [State.call, State.withFile, hf, heq]
      rw [State.setFile_self hf]
      rfl
    refine .of_call hcall (.readFails (State.abs_file hf) hshort) h fun _ => ?_
    rw [List.length_take] at hshort
    exact hshort.trans_le (min_le_left _ _)
  · have hpos := hwf.pos_nonneg
    have hnonneg : 0 ≤ filp.f_pos + bytes.length := by omega
    have hadvance : (filp.f_pos + bytes.length).toNat = filp.f_pos.toNat + bytes.length := by
      omega
    have hcall : s.call (.read fd count u) =
        (s.setFile fd { filp with f_pos := filp.f_pos + bytes.length },
          ⟨(bytes.length : ℤ), bytes⟩) := by
      simp only [State.call, State.withFile, hf, heq]
    refine .of_call hcall ?_ ?_ fun hret => absurd hret (natCast_ne_fault _)
    · rw [State.abs_setFile, hadvance]
      simp only [event, retval_natCast]
      rw [hbytes] at hreach ⊢
      exact .read (State.abs_file hf) hreach
    · refine h.setFile ⟨hwf.private_data, hnonneg, ?_⟩
      have hle := hwf.pos_le
      have hlog := h.world.log_length_le_size filp.minor
      rw [hbytes, List.length_take, List.length_drop]
      show filp.f_pos + _ ≤ ((s.world.dev filp.minor).buf_size : ℤ)
      omega

lemma pread (h : s.Wf buf_lens) (hf : s.files fd = some filp) (pos count : ℕ) (u : UserCopy) :
    s.Follows buf_lens (.pread fd pos count u) := by
  rcases my_read_cases h.world (h.file fd filp hf) count (Int.natCast_nonneg pos) u with
    ⟨hshort, heq⟩ | ⟨bytes, hbytes, hreach, heq⟩
  · have hcall : s.call (.pread fd pos count u) =
        (s, ⟨-EFAULT, s.abs.stretch filp.minor pos u.moved⟩) := by
      simp only [State.call, State.withFile, hf, heq]
      rfl
    refine .of_call hcall (.readAtFails (State.abs_file hf) hshort) h fun _ => ?_
    rw [List.length_take] at hshort
    exact hshort.trans_le (min_le_left _ _)
  · have hcall : s.call (.pread fd pos count u) = (s, ⟨(bytes.length : ℤ), bytes⟩) := by
      simp only [State.call, State.withFile, hf, heq]
    refine .of_call hcall ?_ h fun hret => absurd hret (natCast_ne_fault _)
    simp only [event, retval_natCast]
    rw [hbytes] at hreach ⊢
    exact .readAt (State.abs_file hf) hreach

/-- The state that a write leaves, with its event for the logs. -/
lemma my_write (h : s.Wf buf_lens) (hf : s.files fd = some filp) (data : List UInt8)
    (u : UserCopy) :
    State.Wf { s with world := (my_write s.world filp data u).1 } buf_lens ∧
      ((my_write s.world filp data u).2 = -EFAULT → u.moved < data.length) ∧
      AppendLog.Step (fun i : Fin DEV_NUM => bufSize (buf_lens i)) errors s.abs
        ⟨.write fd data u.moved, retval (my_write s.world filp data u).2, []⟩
        (State.abs { s with world := (my_write s.world filp data u).1 }) := by
  obtain ⟨hwf, hdevs, hsize, hother, hcases⟩ := my_write_cases h.world (h.file fd filp hf) data u
  refine ⟨⟨hwf, fun fd' filp' hf' => ?_⟩, ?_⟩
  · obtain ⟨hptr, hnonneg, hle⟩ := h.file fd' filp' hf'
    refine ⟨by rw [hdevs, hptr], hnonneg, ?_⟩
    rw [hsize]
    exact hle
  · rcases hcases with ⟨hshort, hret, hself⟩ | ⟨n, hn, hreach, hret, hself⟩
    · refine ⟨fun _ => hshort.trans_le (min_le_left _ _), ?_⟩
      have hsame : s.abs.setLog filp.minor (s.abs.log filp.minor) = s.abs := by
        rw [AppendLog.State.setLog, Function.update_eq_self]
      rw [State.abs_setLog hself hother, hret]
      exact hsame.symm ▸ .writeFails (State.abs_file hf) hshort
    · rw [State.abs_setLog hself hother, hret, retval_natCast]
      exact ⟨fun hfault => absurd hfault (natCast_ne_fault n), .wrote (State.abs_file hf) hn hreach⟩

lemma llseek (h : s.Wf buf_lens) (hf : s.files fd = some filp) (offset : ℤ) (origin : ℕ) :
    s.Follows buf_lens (.llseek fd offset origin) := by
  have hwf := h.file fd filp hf
  have hcap := h.world.buf_size filp.minor
  rcases my_llseek_cases hwf offset origin with ⟨hout, heq⟩ | ⟨pos, htarget, hpos, heq⟩
  · have hcall : s.call (.llseek fd offset origin) = (s, ⟨-EINVAL, []⟩) := by
      simp only [State.call, State.withFile, hf, heq]
      rw [State.setFile_self hf]
    rw [hcap] at hout
    exact .of_call hcall (.seekFails (State.abs_file hf) hout) h fun hret => by cases hret
  · have hcall : s.call (.llseek fd offset origin) =
        (s.setFile fd { filp with f_pos := pos }, ⟨pos, []⟩) := by
      simp only [State.call, State.withFile, hf, heq]
    refine .of_call hcall ?_ ?_ fun hret => absurd hret (natCast_ne_fault pos)
    · rw [State.abs_setFile]
      simp only [event, retval_natCast]
      rw [hcap] at htarget hpos
      exact .sought (State.abs_file hf) htarget hpos
    · exact h.setFile ⟨hwf.private_data, Int.natCast_nonneg _, Int.ofNat_le.mpr hpos⟩

end State.Wf

/-- Every call follows the logs. -/
lemma call_step {buf_lens : ℕ → ℕ} {s : State} (h : s.Wf buf_lens) (c : Call) :
    s.Follows buf_lens c := by
  cases c with
  | open_ fd minor =>
    refine ⟨?_, h.setFile ⟨rfl, le_rfl, Int.natCast_nonneg _⟩, fun hret => by cases hret⟩
    rw [State.call, State.abs_setFile]
    exact .opened
  | read fd count u =>
    cases hf : s.files fd with
    | none => exact h.badFile hf rfl (by simp only [State.call, State.withFile, hf])
    | some filp => exact h.read hf count u
  | pread fd pos count u =>
    cases hf : s.files fd with
    | none => exact h.badFile hf rfl (by simp only [State.call, State.withFile, hf])
    | some filp => exact h.pread hf pos count u
  | write fd data u | pwrite fd _ data u =>
    cases hf : s.files fd with
    | none => exact h.badFile hf rfl (by simp only [State.call, State.withFile, hf])
    | some filp =>
      obtain ⟨hwf, hfault, hstep⟩ := h.my_write hf data u
      refine .of_call (r := ⟨(my_write s.world filp data u).2, []⟩) ?_ hstep hwf hfault
      simp only [State.call, State.withFile, hf]
  | llseek fd offset origin =>
    cases hf : s.files fd with
    | none => exact h.badFile hf rfl (by simp only [State.call, State.withFile, hf])
    | some filp => exact h.llseek hf offset origin

/-! ### Runs after a successful `setup_mydev` -/

/-- The module after `setup_mydev`, before any file is open. -/
def State.loaded (w : World) : State where
  world := w
  files _ := none

/-- The state after a list of calls. -/
def State.after (s : State) (calls : List Call) : State :=
  calls.foldl (fun s c => (s.call c).1) s

lemma State.Wf.after {buf_lens : ℕ → ℕ} {s : State} (h : s.Wf buf_lens) (calls : List Call) :
    (s.after calls).Wf buf_lens := by
  induction calls generalizing s with
  | nil => exact h
  | cons c calls ih => exact ih (call_step h c).wf

lemma World.Ready.loaded {buf_lens : ℕ → ℕ} {w : World} (h : w.Ready buf_lens DEV_NUM) :
    (State.loaded w).Wf buf_lens ∧ (State.loaded w).abs = AppendLog.empty := by
  refine ⟨⟨h.wf, fun fd filp hf => by cases hf⟩, ?_⟩
  simp only [State.abs, AppendLog.empty, State.loaded, AppendLog.State.mk.injEq, Option.map_none,
    and_true]
  funext i
  rw [World.log, (h.entry i i.2).wp_eq, Nat.sub_self, Memory.read_zero]

/-- Whatever calls are made after a successful `setup_mydev`: they are events of append-only
logs that start empty and hold `buf_size` bytes each, and return exactly what the logs answer;
every file position stays in its buffer; a call fails with `-EFAULT` only when its user copy did;
and a call that does not write to a minor leaves the log of that minor alone. -/
theorem refines_append_logs (A : Allocator) (buf_lens : ℕ → ℕ) (w₀ w : World)
    (hsetup : setup_mydev A buf_lens DEV_NUM w₀ = (some 0, w)) (calls : List Call) :
    (AppendLog.system (fun i : Fin DEV_NUM => bufSize (buf_lens i)) errors).Run AppendLog.empty
        ((System.trace State.call (State.loaded w) calls).map (Prod.map event State.abs)) ∧
      System.Always (State.InRange buf_lens) (State.loaded w)
        (System.trace State.call (State.loaded w) calls) ∧
      ∀ c, let s := (State.loaded w).after calls
        ((s.call c).2.ret = -EFAULT → c.Faults) ∧
          ∀ j, c.request.target s.abs ≠ some j →
            (s.call c).1.abs.log j = s.abs.log j := by
  obtain ⟨hwf, hempty⟩ := (setup_mydev_ok hsetup).loaded
  have hrun := System.run_trace State.call (State.loaded w) calls
  have hstep : ∀ s a t, State.Wf s buf_lens → (System.ofFun State.call).step s a t →
      (AppendLog.system (fun i : Fin DEV_NUM => bufSize (buf_lens i)) errors).step s.abs (event a)
        t.abs ∧ t.Wf buf_lens := by
    rintro s ⟨c, r⟩ t hs hcall
    have ht : s.call c = (t, r) := hcall
    obtain ⟨rfl, rfl⟩ := Prod.ext_iff.mp ht
    exact ⟨(call_step hs c).step, (call_step hs c).wf⟩
  refine ⟨?_, ?_, ?_⟩
  · have hsim := System.Run.simulate hstep hrun hwf
    rwa [hempty] at hsim
  · have hinv := System.Run.always (fun s a t hs h => (hstep s a t hs h).2) hrun hwf
    refine hinv.mono fun s hs fd filp hf => ?_
    obtain ⟨-, hnonneg, hle⟩ := hs.file fd filp hf
    rw [hs.world.buf_size] at hle
    exact ⟨hnonneg, hle⟩
  · intro c s
    have hfollows := call_step (hwf.after calls) c
    exact ⟨hfollows.faults, fun j hj => hfollows.step.log_other hj⟩

/-- The module before anything was allocated. -/
def World.unset : World where
  slab := ⟨[], 0⟩
  mem _ := 0
  structs _ := ⟨0, 0, 0, 0⟩
  multi_devs _ := 0

lemma setup_unset_fst :
    (setup_mydev Allocator.bump (fun _ => 4) DEV_NUM World.unset).1 = some 0 := by
  decide +kernel

/-- With buffers of four bytes: a write of three bytes through a file at position `0`, a read of
two of them that faults after the first, the same read again, a write that is cut to the last free
byte, a seek, and a read of a file that is not open. -/
theorem refines_append_logs_small :
    (AppendLog.system (fun _ : Fin DEV_NUM => bufSize 4) errors).Run AppendLog.empty
      ((System.trace State.call
        (State.loaded (setup_mydev Allocator.bump (fun _ => 4) DEV_NUM World.unset).2)
        [.open_ 3 ⟨2, by decide⟩, .write 3 [7, 8, 9] ⟨3, false⟩, .read 3 2 ⟨1, false⟩,
          .read 3 2 ⟨2, false⟩, .write 3 [1, 2] ⟨2, false⟩, .llseek 3 (-2) 1,
          .read 4 1 ⟨1, false⟩]).map (Prod.map event State.abs)) :=
  (refines_append_logs Allocator.bump (fun _ => 4) World.unset _ (Exec.run_eq setup_unset_fst) _).1

end QuickDevSkeleton.MultiMem
