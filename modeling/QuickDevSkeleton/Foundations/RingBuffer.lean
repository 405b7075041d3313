import QuickDevSkeleton.Foundations.Memory

/-!
# Ring buffers

A ring buffer keeps a queue in the cells `[lo, hi)` of a memory: the queued cells run from
the read position to the write position and continue at `lo` when they reach `hi`. One cell
always stays free, so that equal positions mean an empty queue.

The lemmas follow the two operations. Both move a position by a stretch of cells that does
not cross `hi`, and wrap it afterwards when it has reached `hi`.
-/

namespace Foundations

namespace Ring

variable {α : Type*}

/-- Both positions of a ring lie in its block of cells. -/
structure Valid (lo hi r w : ℕ) : Prop where
  lo_le_r : lo ≤ r
  r_lt_hi : r < hi
  lo_le_w : lo ≤ w
  w_lt_hi : w < hi

/-- A position that has reached the end of the block continues at its start. -/
def wrap (lo hi p : ℕ) : ℕ :=
  if p = hi then lo else p

/-- The number of queued cells. -/
def used (lo hi r w : ℕ) : ℕ :=
  if r ≤ w then w - r else (hi - r) + (w - lo)

/-- The queued cells, oldest first. -/
def contents (m : Memory α) (lo hi r w : ℕ) : List α :=
  if r ≤ w then m.read r (w - r) else m.read r (hi - r) ++ m.read lo (w - lo)

variable {m : Memory α} {lo hi r w : ℕ}

@[simp] lemma length_contents : (contents m lo hi r w).length = used lo hi r w := by
  unfold contents used
  split <;> simp

lemma contents_self (h : r = w) : contents m lo hi r w = [] := by
  simp [contents, h]

/-- One cell of the block always stays free. -/
lemma used_lt (h : Valid lo hi r w) : used lo hi r w < hi - lo := by
  obtain ⟨h₁, h₂, h₃, h₄⟩ := h
  unfold used
  split <;> omega

lemma used_eq_zero_iff (h : Valid lo hi r w) : used lo hi r w = 0 ↔ r = w := by
  obtain ⟨h₁, h₂, h₃, h₄⟩ := h
  unfold used
  split <;> omega

lemma wrap_bounds (lo : ℕ) {hi p : ℕ} (h : lo < hi) (h₁ : lo ≤ p) (h₂ : p ≤ hi) :
    lo ≤ wrap lo hi p ∧ wrap lo hi p < hi := by
  unfold wrap
  split <;> omega

/-! ### Taking cells out -/

/-- The length of the queued stretch that starts at the read position. -/
def readable (hi r w : ℕ) : ℕ :=
  if r ≤ w then w - r else hi - r

lemma readable_le_used : readable hi r w ≤ used lo hi r w := by
  unfold readable used
  split <;> omega

lemma valid_take {n : ℕ} (h : Valid lo hi r w) (hn : n ≤ readable hi r w) :
    Valid lo hi (wrap lo hi (r + n)) w := by
  obtain ⟨h₁, h₂, h₃, h₄⟩ := h
  have hle : r + n ≤ hi := by
    unfold readable at hn
    split at hn <;> omega
  obtain ⟨hlo, hhi⟩ := wrap_bounds lo (by omega) (by omega) hle
  exact ⟨hlo, hhi, h₃, h₄⟩

/-- The stretch at the read position is the front of the queue. -/
lemma read_eq_take (lo : ℕ) {n : ℕ} (hn : n ≤ readable hi r w) :
    m.read r n = (contents m lo hi r w).take n := by
  unfold readable at hn
  unfold contents
  split at hn
  · rw [if_pos ‹_›, Memory.take_read m r hn]
  · rw [if_neg ‹_›, List.take_append_of_le_length (by simpa using hn), Memory.take_read m r hn]

/-- Moving the read position on removes the stretch from the front. -/
lemma contents_take {n : ℕ} (h : Valid lo hi r w) (hn : n ≤ readable hi r w) :
    contents m lo hi (wrap lo hi (r + n)) w = (contents m lo hi r w).drop n := by
  obtain ⟨h₁, h₂, h₃, h₄⟩ := h
  unfold readable at hn
  split at hn
  · have hw : wrap lo hi (r + n) = r + n := if_neg (by omega)
    have hle : r + n ≤ w := by omega
    rw [hw, contents, contents, if_pos hle, if_pos ‹_›, Memory.drop_read m r hn]
    congr 1
    omega
  · rw [contents, contents, if_neg ‹¬ r ≤ w›, List.drop_append_of_le_length (by simpa using hn),
      Memory.drop_read m r hn]
    by_cases hend : r + n = hi
    · have hw : wrap lo hi (r + n) = lo := if_pos hend
      have hz : hi - r - n = 0 := by omega
      rw [hw, if_pos h₃, hz, Memory.read_zero, List.nil_append]
    · have hw : wrap lo hi (r + n) = r + n := if_neg hend
      have hlt : ¬ r + n ≤ w := by omega
      have hsub : hi - (r + n) = hi - r - n := by omega
      rw [hw, if_neg hlt, hsub]

/-! ### Putting cells in -/

/-- A stretch of `n` free cells at the write position, with one free cell to spare. -/
structure Room (lo hi r w n : ℕ) : Prop where
  spare : used lo hi r w + n < hi - lo
  straight : w + n ≤ hi

lemma Room.lt_read {n : ℕ} (h : Valid lo hi r w) (hr : Room lo hi r w n) (hlt : w < r) :
    w + n < r := by
  obtain ⟨h₁, h₂, h₃, h₄⟩ := h
  have := hr.spare
  rw [used, if_neg (by omega)] at this
  omega

lemma valid_put {n : ℕ} (h : Valid lo hi r w) (hr : Room lo hi r w n) :
    Valid lo hi r (wrap lo hi (w + n)) := by
  obtain ⟨h₁, h₂, h₃, h₄⟩ := h
  obtain ⟨hlo, hhi⟩ := wrap_bounds lo (by omega) (by omega) hr.straight
  exact ⟨h₁, h₂, hlo, hhi⟩

/-- Cells stored in free room do not disturb the queue. -/
lemma contents_write {bs : List α} (h : Valid lo hi r w) (hr : Room lo hi r w bs.length) :
    contents (m.write w bs) lo hi r w = contents m lo hi r w := by
  have hlt := hr.lt_read h
  obtain ⟨h₁, h₂, h₃, h₄⟩ := h
  unfold contents
  split
  · exact Memory.read_write_disjoint m (by omega)
  · have hfar := hlt (by omega)
    rw [Memory.read_write_disjoint m (by omega), Memory.read_write_disjoint m (by omega)]

/-- Moving the write position over stored cells appends them to the queue. -/
lemma contents_put {bs : List α} (h : Valid lo hi r w) (hr : Room lo hi r w bs.length) :
    contents (m.write w bs) lo hi r (wrap lo hi (w + bs.length)) = contents m lo hi r w ++ bs := by
  have hkeep := contents_write (m := m) h hr
  have hspare := hr.spare
  have hlt := hr.lt_read h
  have hend := hr.straight
  obtain ⟨h₁, h₂, h₃, h₄⟩ := h
  rw [← hkeep]
  have hput : (m.write w bs).read w bs.length = bs := Memory.read_write_same m w bs
  by_cases hrw : r ≤ w
  · have happ : (m.write w bs).read r (w - r + bs.length) =
        (m.write w bs).read r (w - r) ++ bs := by
      rw [Memory.read_add, Nat.add_sub_cancel' hrw, hput]
    rw [contents, contents, if_pos hrw, ← happ]
    rw [used, if_pos hrw] at hspare
    by_cases hwrap : w + bs.length = hi
    · -- the write position wraps: the queue now reaches up to `hi`
      have hw : wrap lo hi (w + bs.length) = lo := if_pos hwrap
      have hlo : ¬ r ≤ lo := by omega
      rw [hw, if_neg hlo, Nat.sub_self, Memory.read_zero, List.append_nil]
      congr 1
      omega
    · have hw : wrap lo hi (w + bs.length) = w + bs.length := if_neg hwrap
      rw [hw, if_pos (by omega)]
      congr 1
      omega
  · have hfar := hlt (by omega)
    have hw : wrap lo hi (w + bs.length) = w + bs.length := if_neg (by omega)
    have hsum : w + bs.length - lo = w - lo + bs.length := by omega
    have happ : (m.write w bs).read lo (w - lo + bs.length) =
        (m.write w bs).read lo (w - lo) ++ bs := by
      rw [Memory.read_add, Nat.add_sub_cancel' h₃, hput]
    rw [hw, contents, contents, if_neg hrw, if_neg (by omega), hsum, happ, List.append_assoc]

end Ring

end Foundations
