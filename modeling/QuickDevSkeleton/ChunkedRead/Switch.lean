import QuickDevSkeleton.Foundations.Memory
import QuickDevSkeleton.Kernel.UserCopy

/-!
# Reads of a file of three bytes

The end of `example_read`, from `real_len` on, is the same in `fs/min_read/file.c`,
`fs/sb_bread/read.c` and `fs/block_page_read/read.c` but for the sources of its three copies. What a
sequence of reads delivers is compared with the file, as one read delivers it.
-/

namespace QuickDevSkeleton.ChunkedRead

open Foundations

/-- The bytes of the file. -/
def FILE_LEN : ℕ := 3

/-- What a call of `example_read` returns, the bytes that reach the caller, and `*pp` afterwards. -/
structure Read where
  ret : ℕ
  bytes : List UInt8
  pp : ℕ

/-- The end of `example_read`, where the case for position `p` copies from the start of `source p`.
What `copy_to_user` returns is not looked at, and there is no case for position 3. -/
def readSwitch (source : ℕ → Memory UInt8) (len pp : ℕ) (user : UserCopy) : Read :=
  if pp > 3 then ⟨0, [], pp⟩
  else
    let real_len := 3 - pp
    let len := if len > real_len then real_len else len
    let bytes :=
      match pp with
      | 0 => (user.copy_to_user (source 0) 0 len).1
      | 1 => (user.copy_to_user (source 1) 0 len).1
      | 2 => (user.copy_to_user (source 2) 0 len).1
      | _ => []
    ⟨len, bytes, pp + len⟩

/-! ### The implementations -/

/-- A string literal in memory, with zeros after it. -/
def literal (cs : List Char) : Memory UInt8 :=
  fun x => cs[x]?.elim 0 fun ch => ch.toNat.toUInt8

/-- The literal of each case of `fs/min_read/file.c`. -/
def minReadSource : ℕ → Memory UInt8
  | 0 => literal ['1', '2', '3']
  | 1 => literal ['2', '3']
  | _ => literal ['3']

namespace MinRead

def example_read (len pp : ℕ) (user : UserCopy) : Read :=
  readSwitch minReadSource len pp user

end MinRead

namespace SbBread

/-- `buffer` after the `memcpy` from the data of the block. -/
def buffer (b_data : Memory UInt8) : Memory UInt8 :=
  Memory.write (fun _ => 0) 0 (b_data.read 0 4096)

/-- `bh` is the data of the buffer that `sb_bread` returns, or `none` for `NULL`, which the `memcpy`
dereferences. -/
def example_read (bh : Option (Memory UInt8)) (len pp : ℕ) (user : UserCopy) : Option Read :=
  bh.map fun b_data => readSwitch (fun _ => buffer b_data) len pp user

end SbBread

/-! ### Sequences of reads -/

/-- The bytes that reads with the lengths and copies of `rs` deliver, from position `pp` on, each at
the position where the one before has left the file. -/
def readAll (example_read : ℕ → ℕ → UserCopy → Option Read) :
    ℕ → List (ℕ × UserCopy) → Option (List UInt8)
  | _, [] => some []
  | pp, (len, user) :: rs =>
    (example_read len pp user).bind fun r =>
      (readAll example_read r.pp rs).map fun bytes => r.bytes ++ bytes

/-- Every caller has room for what it asks for. -/
def Roomy (rs : List (ℕ × UserCopy)) : Prop :=
  ∀ r ∈ rs, r.1 ≤ r.2.moved

instance (rs : List (ℕ × UserCopy)) : Decidable (Roomy rs) :=
  inferInstanceAs (Decidable (∀ r ∈ rs, _))

/-- The reads return, the file starts with the bytes they deliver, and a single read of all lengths
delivers the same. -/
def Invisible (file : List UInt8) (lens : List ℕ) (delivered : Option (List UInt8)) : Prop :=
  ∃ bytes, delivered = some bytes ∧ bytes <+: file ∧ bytes = file.take lens.sum

/-- Every read of the lengths finds at the source for its position the bytes of the file that are at
that position. -/
def Agrees (source : ℕ → Memory UInt8) (content : Memory UInt8) : ℕ → List ℕ → Prop
  | _, [] => True
  | pp, len :: lens =>
    (∀ i < min len (FILE_LEN - pp), source pp i = content (pp + i)) ∧
      Agrees source content (pp + min len (FILE_LEN - pp)) lens

/-- Every read that asks for bytes finds at the start of the block the bytes at its position. -/
def Repeats (content : Memory UInt8) (lens : List ℕ) : Prop :=
  Agrees (fun _ => content) content 0 lens

/-! ### One read -/

section

variable {source : ℕ → Memory UInt8} {content : Memory UInt8} {len pp : ℕ} {user : UserCopy}

/-- Within the file, a read delivers the first bytes of its source. -/
lemma readSwitch_of_le (hpp : pp ≤ FILE_LEN) : readSwitch source len pp user =
    ⟨min len (FILE_LEN - pp), (source pp).read 0 (min user.moved (min len (FILE_LEN - pp))),
      pp + min len (FILE_LEN - pp)⟩ := by
  have hlen : (if len > 3 - pp then 3 - pp else len) = min len (FILE_LEN - pp) := by
    unfold FILE_LEN
    split <;> omega
  unfold FILE_LEN at hpp
  simp only [readSwitch, if_neg (not_lt.mpr hpp), hlen, UserCopy.copy_to_user]
  have hcases : pp = 0 ∨ pp = 1 ∨ pp = 2 ∨ pp = 3 := by omega
  rcases hcases with rfl | rfl | rfl | rfl
  · rfl
  · rfl
  · rfl
  · have hzero : min len (FILE_LEN - 3) = 0 := by
      unfold FILE_LEN
      omega
    rw [hzero, Nat.min_zero]
    rfl

lemma readSwitch_of_lt (hpp : FILE_LEN < pp) : readSwitch source len pp user = ⟨0, [], pp⟩ := by
  unfold FILE_LEN at hpp
  rw [readSwitch, if_pos hpp]

end

/-! ### All reads -/

section

variable {source : ℕ → Memory UInt8} {content : Memory UInt8} {pp : ℕ} {rs : List (ℕ × UserCopy)}

/-- The reads of a sequence return, and deliver the bytes of the file from `pp` on exactly if each
of them finds its bytes at its source. -/
lemma readAll_eq_iff (hpp : pp ≤ FILE_LEN) (hroomy : Roomy rs) :
    readAll (fun len pp user => some (readSwitch source len pp user)) pp rs =
        some (content.read pp (min (rs.map Prod.fst).sum (FILE_LEN - pp))) ↔
      Agrees source content pp (rs.map Prod.fst) := by
  induction rs generalizing pp with
  | nil => simp [readAll, Agrees]
  | cons r rs ih =>
    obtain ⟨len, user⟩ := r
    have hlen : len ≤ user.moved := hroomy _ List.mem_cons_self
    have hrest : Roomy rs := fun r hr => hroomy r (List.mem_cons_of_mem _ hr)
    have hnext : pp + min len (FILE_LEN - pp) ≤ FILE_LEN := by omega
    have hsplit : min (len + (rs.map Prod.fst).sum) (FILE_LEN - pp) = min len (FILE_LEN - pp) +
        min (rs.map Prod.fst).sum (FILE_LEN - (pp + min len (FILE_LEN - pp))) := by
      omega
    simp only [readAll, Option.bind_some, List.map_cons, List.sum_cons, Agrees]
    have hmoved : min user.moved (min len (FILE_LEN - pp)) = min len (FILE_LEN - pp) := by omega
    rw [readSwitch_of_le hpp, hmoved, hsplit, Memory.read_add, ← ih hnext hrest,
      Option.map_eq_some_iff]
    constructor
    · rintro ⟨bytes, hbytes, happend⟩
      obtain ⟨hfirst, hmore⟩ := List.append_inj happend
        (by rw [Memory.length_read, Memory.length_read])
      refine ⟨fun i hi => ?_, by rw [hbytes, hmore]⟩
      rw [← Memory.read_eq_iff.mp hfirst i hi, Nat.zero_add]
    · rintro ⟨hfirst, hmore⟩
      refine ⟨_, hmore, congrArg (· ++ _) (Memory.read_eq_iff.mpr fun i hi => ?_)⟩
      rw [Nat.zero_add, hfirst i hi]

/-- Chunks are invisible exactly if every read finds the bytes at its position at its source. -/
lemma invisible_iff (hroomy : Roomy rs) :
    Invisible (content.read 0 FILE_LEN) (rs.map Prod.fst)
        (readAll (fun len pp user => some (readSwitch source len pp user)) 0 rs) ↔
      Agrees source content 0 (rs.map Prod.fst) := by
  rw [← readAll_eq_iff (Nat.zero_le _) hroomy, Nat.sub_zero]
  have htake : (content.read 0 FILE_LEN).take (rs.map Prod.fst).sum =
      content.read 0 (min (rs.map Prod.fst).sum FILE_LEN) := by
    rw [List.take_eq_take_min, Memory.length_read, Memory.take_read _ _ (Nat.min_le_right _ _)]
  constructor
  · rintro ⟨bytes, hbytes, -, htaken⟩
    rw [hbytes, htaken, htake]
  · intro hbytes
    exact ⟨_, hbytes, htake ▸ List.take_prefix _ _, htake.symm⟩

/-- The literals of `fs/min_read/file.c` are the ends of one text. -/
lemma agrees_minRead (hpp : pp ≤ FILE_LEN) (lens : List ℕ) :
    Agrees minReadSource (literal ['1', '2', '3']) pp lens := by
  induction lens generalizing pp with
  | nil => trivial
  | cons len lens ih =>
    refine ⟨fun i hi => ?_, ih (by omega)⟩
    unfold FILE_LEN at hi
    match pp with
    | 0 => rw [Nat.zero_add]; rfl
    | 1 => rw [Nat.add_comm]; rfl
    | 2 => rw [Nat.add_comm]; rfl
    | pp + 3 => omega

/-- The first three bytes of the buffer are those of the block. -/
lemma agrees_buffer (hpp : pp ≤ FILE_LEN) (lens : List ℕ) :
    Agrees (fun _ => SbBread.buffer content) content pp lens ↔
      Agrees (fun _ => content) content pp lens := by
  induction lens generalizing pp with
  | nil => exact Iff.rfl
  | cons len lens ih =>
    have hsame : ∀ i < min len (FILE_LEN - pp), SbBread.buffer content i = content i := by
      intro i hi
      have hlt : i < (content.read 0 4096).length := by
        unfold FILE_LEN at hi
        rw [Memory.length_read]
        omega
      have hinside := Memory.write_inside (fun _ => 0) (a := 0) hlt
      rw [Memory.getElem_read, Nat.zero_add] at hinside
      exact hinside
    refine and_congr ⟨fun h i hi => (hsame i hi).symm.trans (h i hi),
      fun h i hi => (hsame i hi).trans (h i hi)⟩ (ih (by omega))

end

end QuickDevSkeleton.ChunkedRead
