import Mathlib.Data.List.TakeWhile
import QuickDevSkeleton.ProcText.Device

/-!
# Writing a text and reading it back

A write stores the bytes of the caller in a block of their length, a read prints the block as a
string on a page. They fit together for texts that have a terminator of their own and are short
enough; an empty write leaves no block at all.
-/

namespace QuickDevSkeleton.ProcText

open Foundations

/-- The page that the proc layer gives to a read. -/
def PAGE_SIZE : ℕ := 4096

/-- How many bytes `%s` looks at from its pointer on: those of the string and the terminator. -/
def lookedAt (bs : List UInt8) : ℕ :=
  (cstring bs).length + 1

namespace Globals

/-- Printing `ker_buf` looks at no byte outside its block. -/
def LooksInside (g : Globals) (behind : List UInt8) : Prop :=
  ∀ p b, g.ker_buf = .block p → g.heap.cell p = some b → lookedAt (b ++ behind) ≤ b.length

/-- The next read prints the string in `data` and a newline, on its page with the terminator, and
looks at nothing outside the block. -/
structure ReadsBack (g : Globals) (behind data : List UInt8) : Prop where
  inside : g.LooksInside behind
  text : (proc_read behind g).1 = some (cstring data ++ ascii "\n")
  page : ∀ text, (proc_read behind g).1 = some text → text.length + 1 ≤ PAGE_SIZE

/-- What a successful write of `data` leaves: a block with these bytes, or none for no bytes. -/
structure Written (g : Globals) (data : List UInt8) : Prop where
  empty : data = [] → g.ker_buf = .zeroSize
  block : data ≠ [] → ∃ p, g.ker_buf = .block p ∧ g.heap.cell p = some data

end Globals

/-! ### A successful write -/

section

variable {g g' : Globals} {alloc : Bool} {data behind : List UInt8} {c : UserCopy} {n : ℤ}

/-- A copy that is complete fills a new block. -/
lemma written_store (heap : Heap (List UInt8)) (hcopy : c.missing data.length = 0) :
    (((Globals.mk g.ker_buf heap).kzalloc true data.length).store (c.stored data)).Written
      data := by
  have hall : data.length ≤ c.moved := by
    simp only [UserCopy.missing] at hcopy
    omega
  have hstored : c.stored data = data := by
    simp [UserCopy.stored, List.take_of_length_le hall, Nat.sub_eq_zero_of_le hall]
  constructor
  · intro hnil
    simp [Globals.kzalloc, Globals.store, hnil]
  · intro hne
    have hlen : data.length ≠ 0 := fun hzero => hne (List.length_eq_zero_iff.mp hzero)
    refine ⟨heap.next, ?_, ?_⟩
    · simp [Globals.kzalloc, Globals.store, hlen]
    · simp [Globals.kzalloc, Globals.store, hlen, hstored]

/-- A write that returns no error has stored its data. -/
lemma proc_write_ok (h : proc_write alloc data c g = (some n, g')) (hn : 0 ≤ n) :
    n = data.length ∧ g'.Written data := by
  obtain ⟨_, g₁, -, h⟩ := Exec.bind_eq_some.mp h
  rw [Exec.modify_bind, Exec.withState_run] at h
  by_cases hnull : (g₁.kzalloc alloc data.length).ker_buf = .null
  · rw [if_pos hnull] at h
    cases h
    exact absurd hn (show ¬ (0 : ℤ) ≤ -ENOMEM by decide)
  · rw [if_neg hnull, Exec.modify_bind] at h
    by_cases hcopy : c.missing data.length = 0
    · rw [if_neg (not_not.mpr hcopy)] at h
      cases h
      refine ⟨rfl, ?_⟩
      cases alloc with
      | false => exact absurd rfl hnull
      | true => exact written_store g₁.heap hcopy
    · rw [if_pos hcopy] at h
      obtain ⟨_, _, -, hret⟩ := Exec.bind_eq_some.mp h
      cases hret
      exact absurd hn (show ¬ (0 : ℤ) ≤ -EFAULT by decide)

/-! ### The read after it -/

/-- The string starts with all bytes of the block if none of them is a terminator. -/
lemma cstring_append_of_not_mem (h : 0 ∉ data) :
    cstring (data ++ behind) = data ++ cstring behind := by
  have hall : ∀ x ∈ data, decide (x ≠ 0) = true :=
    fun x hx => decide_eq_true fun hzero => h (hzero ▸ hx)
  exact List.takeWhile_append_of_pos hall

/-- A terminator in the block ends the string there. -/
lemma cstring_append_of_mem (h : 0 ∈ data) :
    cstring (data ++ behind) = cstring data ∧ (cstring data).length < data.length := by
  have hstart : cstring data <+: data := List.takeWhile_prefix _
  have hne : (cstring data).length ≠ data.length := by
    intro heq
    have hall := List.takeWhile_eq_self_iff.mp (hstart.eq_of_length heq)
    exact of_decide_eq_true (hall 0 h) rfl
  refine ⟨?_, lt_of_le_of_ne hstart.length_le hne⟩
  exact List.takeWhile_append.trans (if_neg hne)

/-- Printing a block looks at nothing behind it exactly if the block has a terminator. -/
lemma lookedAt_le_iff : lookedAt (data ++ behind) ≤ data.length ↔ 0 ∈ data := by
  constructor
  · intro hle
    by_contra hno
    rw [lookedAt, cstring_append_of_not_mem hno, List.length_append] at hle
    omega
  · intro hmem
    obtain ⟨hsame, hlt⟩ : cstring (data ++ behind) = cstring data ∧ _ := cstring_append_of_mem hmem
    rw [lookedAt, hsame]
    exact hlt

lemma proc_read_zeroSize (h : g.ker_buf = .zeroSize) :
    (proc_read behind g).1 = some (ascii "(null)\n") := by
  rw [proc_read, Exec.withState_run, h]
  rfl

lemma proc_read_block {p : ℕ} {b : List UInt8} (h : g.ker_buf = .block p)
    (hb : g.heap.cell p = some b) :
    (proc_read behind g).1 = some (cstring (b ++ behind) ++ ascii "\n") := by
  simp only [proc_read, Exec.withState_run, h, hb]
  rfl

/-- What is written reads back if it has a terminator and its string fits on the page. -/
lemma Globals.Written.readsBack (h : g.Written data) :
    g.ReadsBack behind data ↔ 0 ∈ data ∧ (cstring data).length + 2 ≤ PAGE_SIZE := by
  have hnewline : (ascii "\n").length = 1 := rfl
  constructor
  · intro hback
    have hfits := hback.page _ hback.text
    rw [List.length_append, hnewline] at hfits
    refine ⟨?_, by omega⟩
    by_cases hnil : data = []
    · have htext := hback.text
      rw [proc_read_zeroSize (h.empty hnil), hnil] at htext
      exact absurd (Option.some.inj htext) (by decide)
    · obtain ⟨p, hbuf, hcell⟩ := h.block hnil
      exact lookedAt_le_iff.mp (hback.inside p data hbuf hcell)
  · rintro ⟨hmem, hfits⟩
    have hne : data ≠ [] := List.ne_nil_of_mem hmem
    obtain ⟨p, hbuf, hcell⟩ := h.block hne
    have htext : (proc_read behind g).1 = some (cstring data ++ ascii "\n") := by
      rw [proc_read_block hbuf hcell, (cstring_append_of_mem hmem).1]
    constructor
    · intro q b hq hb
      rw [hbuf] at hq
      cases hq
      rw [hcell] at hb
      cases hb
      exact lookedAt_le_iff.mpr hmem
    · exact htext
    · intro text hread
      rw [htext] at hread
      cases hread
      rw [List.length_append, hnewline]
      exact hfits

end

/-- For every state, every write that succeeds and whatever lies behind the block: the next read
prints what was written exactly if it contains a terminator and its string, the newline and the
terminator fit on the page. -/
theorem readsBack_iff (g g' : Globals) (alloc : Bool) (data behind : List UInt8) (c : UserCopy)
    (n : ℤ) (h : proc_write alloc data c g = (some n, g')) (hn : 0 ≤ n) :
    g'.ReadsBack behind data ↔ 0 ∈ data ∧ (cstring data).length + 2 ≤ PAGE_SIZE :=
  (proc_write_ok h hn).2.readsBack

/-- The module as it is loaded. -/
def Globals.loaded : Globals :=
  ⟨.null, Heap.empty⟩

/-- A write for which there is memory and whose user copy is complete. -/
def Globals.afterWrite (data : List UInt8) : Option ℤ × Globals :=
  proc_write true data ⟨data.length, false⟩ Globals.loaded

theorem readsBack_iff_terminated :
    (Globals.afterWrite [72, 105, 0]).2.ReadsBack [42] [72, 105, 0] ↔
      (0 : UInt8) ∈ [72, 105, 0] ∧ (cstring [72, 105, 0]).length + 2 ≤ PAGE_SIZE :=
  readsBack_iff Globals.loaded _ true [72, 105, 0] [42] ⟨3, false⟩ 3 rfl (by decide)

/-- Two letters without a terminator: the string goes on behind the block. -/
theorem unterminated_read_on :
    (Globals.afterWrite [72, 105]).1 = some 2 ∧
      (proc_read [42, 0] (Globals.afterWrite [72, 105]).2).1 = some [72, 105, 42, 10] ∧
      ¬ (Globals.afterWrite [72, 105]).2.ReadsBack [42, 0] [72, 105] := by
  refine ⟨rfl, rfl, fun hback => ?_⟩
  exact absurd (Option.some.inj hback.text) (by decide)

end QuickDevSkeleton.ProcText
