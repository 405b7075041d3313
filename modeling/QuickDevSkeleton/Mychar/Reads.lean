import QuickDevSkeleton.Wait.Seeks

/-!
# Reads of the simple memory devices

The device of `char/mychar.c` has the buffer of `time/my_wait.c` without the queue: `my_write` is
the same but for the `wake_up`, and `my_read` never waits and does not look for the end of the
buffer.
-/

namespace QuickDevSkeleton.Mychar

open Foundations Wait

/-- What a call of `my_read` does: the value it returns, the source and the length of the copy that
it asks for, the bytes that reach the caller, and `*pos` afterwards. -/
structure Read where
  ret : ℤ
  copy : Option (ℕ × ℕ)
  bytes : List UInt8
  pos : ℤ

def my_read (priv : Mydev) (count : ℕ) (pos : ℤ) (c : UserCopy) : Read :=
  let count := min count (toSizeT (priv.remaining pos))
  if 0 = count then ⟨count, none, [], pos⟩
  else
    let src := (priv.start + pos).toNat
    let (bytes, missing) := c.copy_to_user priv.mem src count
    if missing ≠ 0 then ⟨-EFAULT, some (src, count), bytes, pos⟩
    else ⟨toLoff count, some (src, count), bytes, toLoff (pos + count)⟩

def my_write (priv : Mydev) (data : List UInt8) (c : UserCopy) : Mydev × ℤ :=
  priv.my_write data c

/-- The device after `my_init` and a sequence of writes. -/
def afterWrites (mem : Memory UInt8) (start : ℕ) (writes : List (List UInt8 × UserCopy)) : Mydev :=
  writes.foldl (fun priv x => (my_write priv x.1 x.2).1) (my_init mem start)

/-- A read at `pos` that stays inside what is written: it copies the bytes from `start + pos` to the
end of the count or of what is written, if there are any; at the end of what is written or beyond it
returns 0; and it moves the position at most to that end. -/
structure Read.Inside (priv : Mydev) (count pos : ℕ) (r : Read) : Prop where
  copy : ∀ src n, r.copy = some (src, n) →
    src = priv.start + pos ∧ src < priv.wp ∧ src + n = min (src + count) priv.wp
  ends : priv.written ≤ pos → r.ret = 0
  pos : r.pos = pos ∨ r.pos ≤ priv.written

variable {priv : Mydev} {log : List UInt8} {count pos : ℕ}

/-! ### The device -/

lemma exists_holds_afterWrites (mem : Memory UInt8) (start : ℕ)
    (writes : List (List UInt8 × UserCopy)) : ∃ log, (afterWrites mem start writes).Holds log := by
  have hfold : ∀ priv log, Mydev.Holds priv log →
      ∃ log', (writes.foldl (fun priv x => (my_write priv x.1 x.2).1) priv).Holds log' := by
    induction writes with
    | nil => exact fun priv log h => ⟨log, h⟩
    | cons x writes ih =>
      intro priv log h
      rcases h.my_write x.1 x.2 with ⟨-, hdev⟩ | ⟨-, hdev⟩
      · exact ih _ _ hdev
      · exact ih _ _ hdev
  exact hfold _ [] (World.inv_init mem start).dev

/-! ### One read -/

lemma my_read_zero (priv : Mydev) (pos : ℤ) (c : UserCopy) :
    my_read priv 0 pos c = ⟨0, none, [], pos⟩ := by
  simp [my_read]

/-- A read inside what is written, or at its end. -/
lemma inside_of_le (h : priv.Holds log) (c : UserCopy) (hle : (pos : ℤ) ≤ priv.written) :
    (my_read priv count pos c).Inside priv count pos := by
  have hwritten := h.written
  have hlog := h.length_le
  have hwp := h.wp_eq
  have hroom : toSizeT (priv.remaining pos) = log.length - pos := by
    have hremaining : priv.remaining pos = priv.written - pos := rfl
    unfold BUF_LEN at hlog
    rw [hremaining, toSizeT_of_nonneg (by omega) (by omega)]
    omega
  have hsrc : ((priv.start : ℤ) + pos).toNat = priv.start + pos := by omega
  have hcopy : min count (log.length - pos) ≠ 0 → priv.start + pos < priv.wp ∧
      priv.start + pos + min count (log.length - pos) = min (priv.start + pos + count) priv.wp := by
    omega
  have hmoved : toLoff ((pos : ℤ) + (min count (log.length - pos) : ℕ)) =
      (pos : ℤ) + (min count (log.length - pos) : ℕ) := by
    unfold BUF_LEN at hlog
    exact toLoff_of_small (by omega) (by omega)
  have hbefore : min count (log.length - pos) ≠ 0 → ¬ priv.written ≤ pos := by
    omega
  simp only [my_read, hroom, hsrc]
  split_ifs with hzero hmissing
  · exact ⟨fun _ _ hsome => (nomatch hsome), fun _ => Int.natCast_eq_zero.mpr hzero.symm,
      Or.inl rfl⟩
  · refine ⟨fun src n hsome => ?_, fun hend => absurd hend (hbefore (Ne.symm hzero)), Or.inl rfl⟩
    cases hsome
    exact ⟨rfl, hcopy (Ne.symm hzero)⟩
  · refine ⟨fun src n hsome => ?_, fun hend => absurd hend (hbefore (Ne.symm hzero)), Or.inr ?_⟩
    · cases hsome
      exact ⟨rfl, hcopy (Ne.symm hzero)⟩
    · have hend : (pos : ℤ) + (min count (log.length - pos) : ℕ) ≤ priv.written := by omega
      simp only [hmoved]
      exact hend

/-- A read beyond what is written asks for a copy from there. -/
lemma not_inside_of_lt (h : priv.Holds log) (c : UserCopy) (hcount : count ≠ 0)
    (hpos : pos < 2 ^ 63) (hlt : priv.written < pos) :
    ¬ (my_read priv count pos c).Inside priv count pos := by
  have hwritten := h.written
  have hwp := h.wp_eq
  have hhuge : min count (toSizeT (priv.remaining pos)) ≠ 0 := by
    have hremaining : priv.remaining pos = priv.written - pos := rfl
    rw [hremaining, toSizeT]
    omega
  have hcopy : ∃ src n, (my_read priv count pos c).copy = some (src, n) := by
    simp only [my_read, if_neg hhuge.symm]
    split_ifs
    · exact ⟨_, _, rfl⟩
    · exact ⟨_, _, rfl⟩
  obtain ⟨src, n, hsome⟩ := hcopy
  intro hinside
  obtain ⟨hsrc, hbelow, -⟩ := hinside.copy src n hsome
  omega

/-! ### Both devices -/

/-- After any writes, a read of `char/mychar.c` stays inside what is written exactly if it asks for
nothing or its position is not beyond what is written; and in any run of reads, writes and seeks of
`time/my_wait.c`, every step of a read stays inside what is written exactly if no read computes its
count beyond what is written. -/
theorem reads_inside_iff (mem : Memory UInt8) (start : ℕ) :
    (∀ (writes : List (List UInt8 × UserCopy)) (count pos : ℕ) (c : UserCopy),
      pos < 2 ^ 63 →
      ((my_read (afterWrites mem start writes) count pos c).Inside
          (afterWrites mem start writes) count pos ↔
        count = 0 ∨ (pos : ℤ) ≤ (afterWrites mem start writes).written)) ∧
    ∀ tr, seekable.Run (World.init mem start) tr →
      (System.Along World.ReadInside (World.init mem start) tr ↔
        System.Along World.NotBeyond (World.init mem start) tr) := by
  refine ⟨fun writes count pos c hpos => ?_, fun tr hrun => along_readInside_iff hrun⟩
  obtain ⟨log, h⟩ := exists_holds_afterWrites mem start writes
  constructor
  · intro hinside
    by_contra hno
    obtain ⟨hcount, hbeyond⟩ := not_or.mp hno
    exact not_inside_of_lt h c hcount hpos (not_le.mp hbeyond) hinside
  · rintro (rfl | hle)
    · rw [my_read_zero]
      exact ⟨fun _ _ hsome => (nomatch hsome), fun _ => rfl, Or.inl rfl⟩
    · exact inside_of_le h c hle

/-- A reader waits at the end of two written bytes, and a write of a third one ends its wait. -/
def untilWritten : List SeekAct :=
  [.call (.write [1, 2] ⟨2, false⟩), .seek 0 2, .call (.enter 0 9),
    .call (.step 0 false ⟨0, false⟩), .call (.write [3] ⟨1, false⟩),
    .call (.step 0 false ⟨0, false⟩), .call (.step 0 false ⟨0, false⟩),
    .call (.step 0 false ⟨1, false⟩)]

theorem reads_inside_iff_written :
    (my_read (afterWrites (fun _ => 0) 4096 [([1, 2, 3], ⟨3, false⟩)]) 9 2 ⟨9, false⟩).Inside
      (afterWrites (fun _ => 0) 4096 [([1, 2, 3], ⟨3, false⟩)]) 9 2 ∧
    ∃ tr, seekable.Run (World.init (fun _ => 0) 4096) tr ∧ tr.map Prod.fst = untilWritten ∧
      System.Along World.ReadInside (World.init (fun _ => 0) 4096) tr := by
  have hboth := reads_inside_iff (fun _ => 0) 4096
  have hsome : (System.final (System.checked World.nextSeek World.NotBeyond)
      (World.init (fun _ => 0) 4096) untilWritten).isSome := by
    decide +kernel
  obtain ⟨tr, hrun, hacts, halong⟩ := System.exists_run_along hsome
  exact ⟨(hboth.1 [([1, 2, 3], ⟨3, false⟩)] 9 2 ⟨9, false⟩ (by decide)).mpr (Or.inr (by decide)),
    tr, hrun, hacts, (hboth.2 tr hrun).mpr halong⟩

/-- A read at position 4 of three written bytes, up to the computation of its count. -/
def oneBeyond : List SeekAct :=
  [.call (.write [1, 2, 3] ⟨3, false⟩), .seek 0 4, .call (.enter 0 1),
    .call (.step 0 false ⟨0, false⟩)]

theorem reads_beyond :
    ¬ (my_read (afterWrites (fun _ => 0) 4096 [([1, 2, 3], ⟨3, false⟩)]) 1 4 ⟨1, false⟩).Inside
      (afterWrites (fun _ => 0) 4096 [([1, 2, 3], ⟨3, false⟩)]) 1 4 ∧
    ∃ tr, seekable.Run (World.init (fun _ => 0) 4096) tr ∧
      tr.map Prod.fst = oneBeyond ++ [.call (.step 0 false ⟨0, false⟩)] ∧
      ¬ System.Along World.ReadInside (World.init (fun _ => 0) 4096) tr := by
  constructor
  · intro hinside
    have hcopy := hinside.copy 4100 1 (by decide)
    exact absurd hcopy.2.1 (by decide)
  · have hfinal : System.final World.nextSeek (World.init (fun _ => 0) 4096) oneBeyond =
        some _ := rfl
    refine System.exists_run_not_along hfinal rfl fun hinside => ?_
    have hasks := (hinside _ rfl).asks 1 rfl
    exact absurd hasks.1 (by decide)

end QuickDevSkeleton.Mychar
