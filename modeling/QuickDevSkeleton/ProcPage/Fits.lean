import QuickDevSkeleton.ProcPage.ListBuffer
import QuickDevSkeleton.ProcPage.ListCache
import QuickDevSkeleton.ProcPage.MySlab

/-!
# What the reports need of their page

No report looks at how long the page is that it is printed to. So a report stays within its page
if and only if there is room for all that it has to print, with the mark at the end of the text.
-/

namespace QuickDevSkeleton.ProcPage

open Foundations RadixTree

/-- The proc layer gives one page. -/
def PAGE_SIZE : ℕ := 4096

lemma fits_page_iff {o : Printed UInt8} {n k : ℕ} (h : o.Tally (2 ^ 32) n k 0) :
    o.Fits PAGE_SIZE ↔ n + k + 1 ≤ PAGE_SIZE :=
  h.fits_iff (by decide) (by decide)

/-- The report of a device that has been set up does not fit: there are too many items. -/
lemma items_not_fit {alloc : ℕ → Bool} {mydev : MySlab.Dev}
    (h : MySlab.my_init alloc = .ok mydev) : ¬ (MySlab.proc_read mydev).Fits PAGE_SIZE := by
  rw [fits_page_iff (MySlab.tally_proc_read mydev), PAGE_SIZE]
  have hitems := MySlab.items_le_reportSize mydev
  rw [MySlab.length_of_init h, MySlab.ITEM_LEN] at hitems
  omega

/-- `list_buffer` returns with all that it has printed on the page if and only if its walks come to
an end and there is room for its lines and for the places that it skips; `list_cache` and the
`proc_read` of the slab module, if and only if there is room for their lines. For the items that
`my_init` lists there never is. -/
theorem report_fits_iff (c : Config) :
    (∀ (params : ListBuffer.Parameters) (get_fs_type : List UInt8 → Option (List (SuperBlock c))),
      (∃ fuel o, ListBuffer.list_buffer c params get_fs_type fuel = some o ∧ o.Fits PAGE_SIZE) ↔
        (∀ fst ∈ ListBuffer.supers c params get_fs_type, ListBuffer.SetEnds c params fst) ∧
        ListBuffer.reportSize c params get_fs_type + ListBuffer.reportSkip c params get_fs_type + 1
          ≤ PAGE_SIZE) ∧
    (∀ (params : ListCache.Parameters) (get_fs_type : List UInt8 → Option (List (SuperBlock c))),
      (ListCache.list_cache c params get_fs_type).Fits PAGE_SIZE ↔
        ListCache.reportSize c params get_fs_type + 1 ≤ PAGE_SIZE) ∧
    (∀ mydev : MySlab.Dev,
      (MySlab.proc_read mydev).Fits PAGE_SIZE ↔ MySlab.reportSize mydev + 1 ≤ PAGE_SIZE) ∧
    ∀ alloc : ℕ → Bool,
      ¬ ∃ mydev, MySlab.my_init alloc = .ok mydev ∧ (MySlab.proc_read mydev).Fits PAGE_SIZE := by
  refine ⟨fun params get_fs_type => ?_, fun params get_fs_type => ?_, fun mydev => ?_, ?_⟩
  · exact exists_result_iff (ListBuffer.list_buffer_returns_iff get_fs_type)
      fun _ _ h => fits_page_iff (ListBuffer.tally_list_buffer h)
  · simpa only [Nat.add_zero] using fits_page_iff (ListCache.tally_list_cache get_fs_type)
  · simpa only [Nat.add_zero] using fits_page_iff (MySlab.tally_proc_read mydev)
  · rintro alloc ⟨mydev, hinit, hfits⟩
    exact items_not_fit hinit hfits

example : (ListCache.list_cache config64 {} fun _ => some []).Fits PAGE_SIZE := by decide +kernel

/-- With memory for every item, reading the proc entry runs over the page. -/
theorem items_overrun : ∃ mydev, MySlab.my_init (fun _ => true) = .ok mydev ∧
    ¬ (MySlab.proc_read mydev).Fits PAGE_SIZE := by
  have halloc : ∀ i < MySlab.ITEM_LEN, (fun _ => true : ℕ → Bool) i := fun _ _ => rfl
  obtain ⟨mydev, hinit⟩ := MySlab.init_of_alloc halloc
  exact ⟨mydev, hinit, items_not_fit hinit⟩

end QuickDevSkeleton.ProcPage
