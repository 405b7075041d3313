import QuickDevSkeleton.MultiMem.Log

/-!
# Seeking from the end

`my_read` takes the end of a file from `wp`, `my_llseek` from `buf_size`. A seek from the end and
a read agree on what the last bytes are when the buffer is full, or when no byte is asked for.
-/

namespace QuickDevSkeleton.MultiMem

open Foundations

/-- After a seek to `k` bytes before the end of an open file that succeeds, a read of `k` bytes or
more whose user copy does not fault returns the last `k` bytes of the log. -/
def State.SeekAgrees (s : State) (fd : ℕ) (i : Fin DEV_NUM) (k : ℕ) : Prop :=
  0 ≤ (s.call (.llseek fd (-k) 2)).2.ret → ∀ count c, k ≤ count → count ≤ c.moved →
    ((s.call (.llseek fd (-k) 2)).1.call (.read fd count c)).2 =
      ⟨k, (s.world.log i).drop ((s.world.log i).length - k)⟩

section

variable {buf_lens : ℕ → ℕ} {s : State} {fd k : ℕ} {filp : File}

/-- The seek leads to `k` bytes before the end of the buffer. -/
lemma State.Wf.seek_from_end (h : s.Wf buf_lens) (hf : s.files fd = some filp)
    (hk : k ≤ (s.world.log filp.minor).length) :
    s.call (.llseek fd (-k) 2) =
      (s.setFile fd { filp with f_pos := (s.world.dev filp.minor).buf_size - k },
        ⟨(s.world.dev filp.minor).buf_size - k, []⟩) := by
  have hfile := h.file fd filp hf
  have hlog := h.world.log_length_le_size filp.minor
  have hsize := h.world.buf_size filp.minor
  have hmax := (bufSize_bounds (buf_lens filp.minor)).2
  have htarget : toLoff (-(k : ℤ) + (s.world.dev filp.minor).buf_size) =
      (s.world.dev filp.minor).buf_size - k := by
    rw [toLoff_of_small (by omega) (by omega)]
    omega
  have hin : ¬ (((s.world.dev filp.minor).buf_size : ℤ) - k < 0 ∨
      ((s.world.dev filp.minor).buf_size : ℤ) - k > (s.world.dev filp.minor).buf_size) := by
    omega
  simp only [State.call, State.withFile, hf, my_llseek, hfile.structs, htarget, if_neg hin]

/-- A read that does not fault returns the log from its position on. -/
lemma State.Wf.read_reply (h : s.Wf buf_lens) (hf : s.files fd = some filp) {count : ℕ}
    {c : UserCopy} (hc : count ≤ c.moved) :
    (s.call (.read fd count c)).2 =
      ⟨(((s.world.log filp.minor).drop filp.f_pos.toNat).take count).length,
        ((s.world.log filp.minor).drop filp.f_pos.toNat).take count⟩ := by
  have hfile := h.file fd filp hf
  rcases my_read_cases h.world hfile count hfile.pos_nonneg c with
    ⟨hshort, -⟩ | ⟨bytes, rfl, -, heq⟩
  · rw [List.length_take] at hshort
    omega
  · simp only [State.call, State.withFile, hf, heq]

/-- A read after the seek. -/
lemma State.Wf.read_from_end (h : s.Wf buf_lens) (hf : s.files fd = some filp)
    (hk : k ≤ (s.world.log filp.minor).length) {count : ℕ} {c : UserCopy}
    (hc : count ≤ c.moved) :
    ((s.call (.llseek fd (-k) 2)).1.call (.read fd count c)).2 =
      ⟨(((s.world.log filp.minor).drop ((s.world.dev filp.minor).buf_size - k)).take
          count).length,
        ((s.world.log filp.minor).drop ((s.world.dev filp.minor).buf_size - k)).take count⟩ := by
  have hlog := h.world.log_length_le_size filp.minor
  have hwf := (call_step h (.llseek fd (-k) 2)).wf
  rw [h.seek_from_end hf hk] at hwf ⊢
  have hopen : (s.setFile fd { filp with
      f_pos := (s.world.dev filp.minor).buf_size - k }).files fd =
        some { filp with f_pos := (s.world.dev filp.minor).buf_size - k } :=
    Function.update_self _ _ _
  have hpos : (((s.world.dev filp.minor).buf_size : ℤ) - k).toNat =
      (s.world.dev filp.minor).buf_size - k := by
    omega
  rw [hwf.read_reply hopen hc, hpos]
  rfl

/-- What a seek from the end and a read agree on. -/
lemma State.Wf.seekAgrees_iff (h : s.Wf buf_lens) (hf : s.files fd = some filp)
    (hk : k ≤ (s.world.log filp.minor).length) :
    s.SeekAgrees fd filp.minor k ↔
      k = 0 ∨ (s.world.log filp.minor).length = (s.world.dev filp.minor).buf_size := by
  have hlog := h.world.log_length_le_size filp.minor
  have hret : 0 ≤ (s.call (.llseek fd (-k) 2)).2.ret := by
    rw [h.seek_from_end hf hk]
    show (0 : ℤ) ≤ (s.world.dev filp.minor).buf_size - k
    omega
  constructor
  · intro hagrees
    by_contra hno
    obtain ⟨hk0, hfull⟩ := not_or.mp hno
    have hread := hagrees hret k ⟨k, false⟩ le_rfl le_rfl
    rw [h.read_from_end hf hk (c := ⟨k, false⟩) le_rfl] at hread
    have hlen := congrArg Reply.ret hread
    simp only [List.length_take, List.length_drop] at hlen
    omega
  · intro hcases _ count c hcount hc
    -- the two starting points are the same, or both are behind the last byte
    have hsame : (s.world.log filp.minor).drop ((s.world.dev filp.minor).buf_size - k) =
        (s.world.log filp.minor).drop ((s.world.log filp.minor).length - k) := by
      rcases hcases with rfl | hfull
      · rw [List.drop_of_length_le (by omega), List.drop_of_length_le (by omega)]
      · rw [hfull]
    have hlast : ((s.world.log filp.minor).drop
        ((s.world.log filp.minor).length - k)).length = k := by
      rw [List.length_drop]
      omega
    rw [h.read_from_end hf hk hc, hsame, List.take_of_length_le (by omega), hlast]

end

/-- In every state that calls lead to after a successful `setup_mydev`, for every open file and
every `k` up to the number of bytes stored: seeking to `k` bytes before the end and reading gives
the last `k` bytes exactly if `k` is `0` or the buffer is full. -/
theorem seekAgrees_iff_full (A : Allocator) (buf_lens : ℕ → ℕ) (w₀ w : World)
    (hsetup : setup_mydev A buf_lens DEV_NUM w₀ = (some 0, w)) (calls : List Call) (fd : ℕ)
    (filp : File) (hf : ((State.loaded w).after calls).files fd = some filp) (k : ℕ)
    (hk : k ≤ (((State.loaded w).after calls).world.log filp.minor).length) :
    ((State.loaded w).after calls).SeekAgrees fd filp.minor k ↔
      k = 0 ∨ (((State.loaded w).after calls).world.log filp.minor).length =
        bufSize (buf_lens filp.minor) := by
  have hwf := (setup_mydev_ok hsetup).loaded.1.after calls
  rw [← hwf.world.buf_size filp.minor]
  exact hwf.seekAgrees_iff hf hk

/-- The module with buffers of four bytes. -/
@[irreducible] def World.small : World :=
  (setup_mydev Allocator.bump (fun _ => 4) DEV_NUM World.unset).2

/-- Two bytes are written through a file of the third minor. -/
def twoBytes : List Call :=
  [.open_ 3 ⟨2, by decide⟩, .write 3 [7, 8] ⟨2, false⟩]

lemma setup_small :
    setup_mydev Allocator.bump (fun _ => 4) DEV_NUM World.unset = (some 0, World.small) := by
  rw [World.small]
  exact Exec.run_eq setup_unset_fst

lemma le_length_twoBytes :
    1 ≤ (((State.loaded World.small).after twoBytes).world.log 2).length := by
  rw [World.log, Memory.length_read]
  decide +kernel

lemma files_twoBytes (s : State) :
    (s.after twoBytes).files 3 = some (my_open s.world ⟨2, by decide⟩) := by
  simp [State.after, twoBytes, State.call, State.setFile, State.withFile]

theorem seekAgrees_iff_full_twoBytes :
    ((State.loaded World.small).after twoBytes).SeekAgrees 3 ⟨2, by decide⟩ 1 ↔
      1 = 0 ∨ (((State.loaded World.small).after twoBytes).world.log 2).length = bufSize 4 :=
  seekAgrees_iff_full Allocator.bump (fun _ => 4) World.unset World.small setup_small twoBytes 3
    (my_open World.small ⟨2, by decide⟩) (files_twoBytes _) 1
    le_length_twoBytes

/-- With two of four bytes written, a seek to the last byte leads behind it, and the read returns
nothing. -/
theorem seek_end_disagrees :
    1 ≤ (((State.loaded World.small).after twoBytes).world.log 2).length ∧
      ¬ ((State.loaded World.small).after twoBytes).SeekAgrees 3 ⟨2, by decide⟩ 1 := by
  refine ⟨le_length_twoBytes, fun hagrees => ?_⟩
  have hread := hagrees (by decide +kernel) 1 ⟨1, false⟩ le_rfl le_rfl
  exact absurd (congrArg Reply.ret hread) (by decide +kernel)

end QuickDevSkeleton.MultiMem
