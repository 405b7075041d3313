import QuickDevSkeleton.Foundations.CountingLoop
import QuickDevSkeleton.Foundations.Printing
import QuickDevSkeleton.Kernel.UserCopy
import QuickDevSkeleton.ProcText.Device
import QuickDevSkeleton.RadixTree.Walk

/-!
# The items of a slab cache

`memory/my_slab.c`: the module fills a list with items from its cache, and its proc entry prints
them all.
-/

namespace QuickDevSkeleton.ProcPage.MySlab

open Foundations RadixTree ProcText

/-! ### The functions -/

def ITEM_LEN : ℕ := 1000

/-- The values of the items are listed from the head of `proc_list` on. -/
structure Dev where
  count : ℤ
  proc_list : List UInt8

def count_line (mydev : Dev) : List UInt8 :=
  ascii ("count = " ++ toString mydev.count ++ "\n")

def value_line (value : UInt8) : List UInt8 :=
  ascii ("Value = " ++ toString value.toNat ++ "\n")

/-- The list is gone through in reverse. -/
def proc_read (mydev : Dev) : Printed UInt8 :=
  mydev.proc_list.reverse.foldl (fun ret value => ret.sprintf (2 ^ 32) (value_line value))
    (Printed.sprintf (2 ^ 32) (.silent 0) (count_line mydev))

/-- One iteration of `my_init`; `alloc` tells whether the cache has an item for it. -/
def add_item (alloc : ℕ → Bool) (mydev : Dev) (i : ℕ) : Option Dev :=
  if alloc i then some ⟨toInt (mydev.count + 1), UInt8.ofNat i :: mydev.proc_list⟩ else none

/-- The device that the proc entry is made for; when an item is missing, all of them are freed and
there is no entry. -/
def my_init (alloc : ℕ → Bool) : Except ℤ Dev :=
  match (List.range ITEM_LEN).foldlM (add_item alloc) ⟨0, []⟩ with
  | some mydev => .ok mydev
  | none => .error (- ENOMEM)

/-! ### What there is to print -/

def reportSize (mydev : Dev) : ℕ :=
  (count_line mydev).length + (mydev.proc_list.map fun value => (value_line value).length).sum

lemma tally_proc_read (mydev : Dev) :
    (proc_read mydev).Tally (2 ^ 32) (reportSize mydev) 0 0 := by
  have hlines := (Printed.Tally.silent (α := UInt8) (m := 0) (w := 2 ^ 32) (by decide)).sprintf
    (count_line mydev) |>.foldl_sprintf (mydev.proc_list.reverse.map value_line)
  rw [List.foldl_map, Nat.zero_add, List.map_map, List.map_reverse, List.sum_reverse] at hlines
  exact hlines

/-- Each item takes a line of its own. -/
lemma items_le_reportSize (mydev : Dev) : 9 * mydev.proc_list.length ≤ reportSize mydev := by
  have hline : ∀ value, 9 ≤ (value_line value).length := by
    intro value
    rw [value_line, length_ascii, String.length_append, String.length_append]
    change 9 ≤ 8 + _ + 1
    omega
  have hsum : ∀ values : List UInt8,
      9 * values.length ≤ (values.map fun value => (value_line value).length).sum := by
    intro values
    induction values with
    | nil => exact Nat.le_refl 0
    | cons value values ih =>
      have := hline value
      rw [List.length_cons, List.map_cons, List.sum_cons]
      omega
  exact Nat.le_trans (hsum _) (Nat.le_add_left _ _)

lemma length_items {alloc : ℕ → Bool} {is : List ℕ} {d d' : Dev}
    (h : is.foldlM (add_item alloc) d = some d') :
    d'.proc_list.length = d.proc_list.length + is.length := by
  induction is generalizing d with
  | nil =>
    cases h
    rfl
  | cons i is ih =>
    rw [List.foldlM_cons] at h
    obtain ⟨d₁, hadd, hrest⟩ := Option.bind_eq_some_iff.mp h
    rw [add_item] at hadd
    split at hadd
    · cases hadd
      rw [ih hrest, List.length_cons, List.length_cons]
      omega
    · cases hadd

/-- A device with a proc entry has all items. -/
lemma length_of_init {alloc : ℕ → Bool} {mydev : Dev} (h : my_init alloc = .ok mydev) :
    mydev.proc_list.length = ITEM_LEN := by
  unfold my_init at h
  cases hrun : (List.range ITEM_LEN).foldlM (add_item alloc) ⟨0, []⟩ with
  | none =>
    rw [hrun] at h
    cases h
  | some d =>
    rw [hrun] at h
    cases h
    have hlength := length_items hrun
    rwa [List.length_range, List.length_nil, Nat.zero_add] at hlength

/-- There is a proc entry if there is memory for all items. -/
lemma init_of_alloc {alloc : ℕ → Bool} (h : ∀ i < ITEM_LEN, alloc i) :
    ∃ mydev, my_init alloc = .ok mydev := by
  have hadd : ∀ d i, (add_item alloc d i).isSome ↔ alloc i := by
    intro d i
    rw [add_item]
    split <;> simp_all
  have hloop : ((List.range ITEM_LEN).foldlM (add_item alloc) ⟨0, []⟩).isSome :=
    (isSome_foldlM_iff hadd).mpr fun i hi => h i (List.mem_range.mp hi)
  obtain ⟨mydev, hrun⟩ := Option.isSome_iff_exists.mp hloop
  unfold my_init
  exact ⟨mydev, by rw [hrun]⟩

end QuickDevSkeleton.ProcPage.MySlab
