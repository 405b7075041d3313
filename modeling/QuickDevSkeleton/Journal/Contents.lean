import QuickDevSkeleton.Journal.WriteBack

/-!
# The bytes that reach the journal

`write_begin` has `__block_write_begin` prepare a write to the whole page, so that no buffer is
read from the device, whatever part of it the copy then covers. When the buffers that
`write_end` hands to the journal hold the file's bytes all the same.
-/

namespace QuickDevSkeleton.Journal

open Foundations

/-- The byte that the device holds for offset `x` of page `i`. -/
def World.diskByte (w : World) (i x : ℕ) : UInt8 :=
  w.disk ((w.ring i (x / w.blocks.size)).map.b_blocknr * w.blocks.size + x % w.blocks.size)

/-- The memory of the page holds the file's bytes in the buffer of offset `x`. -/
def World.Current (w : World) (i x : ℕ) : Prop :=
  (w.pages i).uptodate = true ∨ (w.ring i (x / w.blocks.size)).uptodate = true

instance (w : World) (i x : ℕ) : Decidable (w.Current i x) :=
  inferInstanceAs (Decidable (_ ∨ _))

/-- The byte that the file holds at offset `x` of page `i`. -/
def World.fileByte (w : World) (i x : ℕ) : UInt8 :=
  if w.Current i x then (w.pages i).data x else w.diskByte i x

/-- Offset `x` is one of those that the copy of the round covers. -/
def Round.Copies (a : Round) (x : ℕ) : Prop :=
  a.pos % PAGE_CACHE_SIZE ≤ x ∧ x < a.pos % PAGE_CACHE_SIZE + a.data.length

instance (a : Round) (x : ℕ) : Decidable (a.Copies x) :=
  inferInstanceAs (Decidable (_ ∧ _))

/-- Every byte of every buffer that was handed to the journal is the one just written there,
or the one that the file held there before. -/
def BytesSound (w w' : World) (a : Round) : Prop :=
  ∀ e ∈ w'.log.drop w.log.length, e.page = a.page ∧ ∀ x, x / w.blocks.size = e.buffer →
    a.Copies x ∧ (w'.pages a.page).data x = a.data.getD (x - a.pos % PAGE_CACHE_SIZE) 0 ∨
      (w'.pages a.page).data x = w.fileByte a.page x

/-- No buffer that `write_end` hands over has stale memory outside the copy: it is uptodate, or
its memory happens to agree with the device. A buffer is handed over if it is not freed and the
walk touches it; under a handle of the caller nothing is mapped, so there it has to be mapped
already. -/
def NoStaleByte (w : World) (a : Round) : Prop :=
  ∀ k < w.blocks.count, (w.handle.isSome → (w.ring a.page k).mapped) →
    (w.ring a.page k).freed = false →
    Touches w.blocks.size (a.pos % PAGE_CACHE_SIZE)
      (walkEnd (w.pages a.page) (a.pos % PAGE_CACHE_SIZE) a.len a.data.length) k →
    ∀ x, x / w.blocks.size = k → ¬ a.Copies x →
      w.Current a.page x ∨ (w.pages a.page).data x = w.diskByte a.page x

section

variable {w v w' : World} {a : Round} {h : Handle} {r : ℤ}

/-- `write_end` changes no byte once the zeroing is done. -/
lemma EndEnds.data {K : Outcomes} {i from_ to_ done : ℕ}
    (hends : EndEnds K v i h from_ to_ done r w') :
    (w'.pages i).data = (v.pages i).data := by
  cases hends with
  | done hall => simp [finished, journalled]
  | refused hk hr hall => simp [finished, journalled]

/-- The bytes of the page after a round on a page without new buffers. -/
lemma round_data (hbegin : a.begin_ w = (some 0, v)) (hv : v.handle = some h)
    (hrun : a.run w = (some r, w')) (hnew : ∀ k < v.blocks.count, (v.ring a.page k).new = false) :
    (w'.pages a.page).data = (v.pages a.page).data.write (a.pos % PAGE_CACHE_SIZE) a.data := by
  have hnone : zeroed (v.store a.page (a.pos % PAGE_CACHE_SIZE) a.data) a.page
      (a.pos % PAGE_CACHE_SIZE) a.len a.data.length =
        v.store a.page (a.pos % PAGE_CACHE_SIZE) a.data := by
    apply zeroed_of_not_new
    intro k hk
    rw [store_ring]
    exact hnew k hk
  refine (writeRound_returned hbegin hv hrun).data.trans ?_
  change ((zeroed (v.store a.page (a.pos % PAGE_CACHE_SIZE) a.data) a.page
      (a.pos % PAGE_CACHE_SIZE) a.len a.data.length).pages a.page).data = _
  rw [hnone, store_page]

/-- Where the copy stored a byte, it is that byte. -/
lemma copied_byte (m : Memory UInt8) {x : ℕ} (hx : a.Copies x) :
    m.write (a.pos % PAGE_CACHE_SIZE) a.data x = a.data.getD (x - a.pos % PAGE_CACHE_SIZE) 0 := by
  obtain ⟨d, rfl⟩ := Nat.exists_eq_add_of_le hx.1
  have hd : d < a.data.length := Nat.lt_of_add_lt_add_left hx.2
  rw [Memory.write_inside m hd, Nat.add_sub_cancel_left]
  simp [List.getD, List.getElem?_eq_getElem hd]

lemma uncopied_byte (m : Memory UInt8) {x : ℕ} (hx : ¬ a.Copies x) :
    m.write (a.pos % PAGE_CACHE_SIZE) a.data x = m x := by
  apply Memory.write_outside
  rcases Nat.lt_or_ge x (a.pos % PAGE_CACHE_SIZE) with hlt | hge
  · exact Or.inl hlt
  · exact Or.inr (Nat.not_lt.mp fun hlt => hx ⟨hge, hlt⟩)

/-- What a successful `write_begin` leaves of a page without new buffers: its bytes, and buffers
that are handed over unless the walk passes over them. -/
lemma begin_success (hbegin : a.begin_ w = (some 0, v)) (hv : v.handle = some h)
    (hnew : ∀ k < w.blocks.count, (w.ring a.page k).new = false) :
    v.log = w.log ∧ (v.pages a.page).data = (w.pages a.page).data ∧
      (∀ k < v.blocks.count, (v.ring a.page k).new = false) ∧
      ∀ k, k ∈ a.range v ↔ k < w.blocks.count ∧ (w.handle.isSome → (w.ring a.page k).mapped) ∧
        (w.ring a.page k).freed = false ∧ Touches w.blocks.size (a.pos % PAGE_CACHE_SIZE)
          (walkEnd (w.pages a.page) (a.pos % PAGE_CACHE_SIZE) a.len a.data.length) k := by
  rcases begin_with_handle hbegin hv with ⟨⟨h₀, hh⟩, rfl⟩ | ⟨hh, rfl⟩
  · have hring : (grabbed w a.page).ring a.page = w.ring a.page := by
      simp [World.ring, grabbed]
    have hend : walkEnd ((grabbed w a.page).pages a.page) (a.pos % PAGE_CACHE_SIZE) a.len
        a.data.length = walkEnd (w.pages a.page) (a.pos % PAGE_CACHE_SIZE) a.len a.data.length := by
      simp [walkEnd, copiedTo, grabbed]
    refine ⟨rfl, ?_, ?_, fun k => ?_⟩
    · simp [grabbed]
    · rw [hring]
      exact hnew
    · rw [Round.range, hend, mem_reached, hring, hh]
      simp only [BufferHead.live, Bool.and_eq_true, Bool.not_eq_true', Option.isSome_some,
        forall_const, and_assoc]
      rfl
  · refine ⟨rfl, ?_, ?_, fun k => ?_⟩
    · simp [accessed, begun, prepared, World.setRing, World.start, grabbed]
    · exact fun k hk => accessed_not_new hk
    · rw [mem_range_accessed, hh]
      simp

end

/-- A successful round on a page whose buffers are not new hands only sound bytes to the journal
if and only if no buffer that it hands over has stale memory outside the copy. -/
theorem bytesSound_iff (w v w' : World) (a : Round) (r : ℤ)
    (hbegin : a.begin_ w = (some 0, v)) (hrun : a.run w = (some r, w')) (hr : 0 ≤ r)
    (hnew : ∀ k < w.blocks.count, (w.ring a.page k).new = false) :
    BytesSound w w' a ↔ NoStaleByte w a := by
  cases hv : v.handle with
  | none =>
    obtain ⟨u, hcrash, -⟩ := writeRound_crash a.data hbegin (Or.inl hv)
    rw [Round.run, hcrash] at hrun
    cases hrun
  | some h =>
    obtain ⟨hlog, hdata, hnew', hrange⟩ := begin_success hbegin hv hnew
    obtain ⟨-, hlog'⟩ := round_success hbegin hv hrun hr
    have hbytes : (w'.pages a.page).data =
        (w.pages a.page).data.write (a.pos % PAGE_CACHE_SIZE) a.data := by
      rw [round_data hbegin hv hrun hnew', hdata]
    have hout : ∀ x, ¬ a.Copies x → (w'.pages a.page).data x = (w.pages a.page).data x := by
      intro x hx
      rw [hbytes, uncopied_byte _ hx]
    have hfile : ∀ x, (w.pages a.page).data x = w.fileByte a.page x ↔
        w.Current a.page x ∨ (w.pages a.page).data x = w.diskByte a.page x := by
      intro x
      rw [World.fileByte]
      split_ifs with hx
      · exact ⟨fun _ => Or.inl hx, fun _ => rfl⟩
      · exact ⟨Or.inr, fun hor => hor.resolve_left hx⟩
    have hmem : ∀ e, e ∈ w'.log.drop w.log.length ↔
        ∃ k ∈ a.range v, ⟨h.id, a.page, k, h.granted a.page k⟩ = e := by
      intro e
      rw [hlog', hlog, List.drop_left, List.mem_map]
    constructor
    · intro hsound k hk hmapped hfreed htouch x hx hcopy
      have hk' := (hrange k).mpr ⟨hk, hmapped, hfreed, htouch⟩
      obtain ⟨-, hbyte⟩ := hsound _ ((hmem _).mpr ⟨k, hk', rfl⟩)
      have hold := (hbyte x hx).resolve_left fun hnewbyte => hcopy hnewbyte.1
      rw [hout x hcopy] at hold
      exact (hfile x).mp hold
    · intro hok e he
      obtain ⟨k, hk, rfl⟩ := (hmem e).mp he
      obtain ⟨hk, hmapped, hfreed, htouch⟩ := (hrange k).mp hk
      refine ⟨rfl, fun x hx => ?_⟩
      by_cases hcopy : a.Copies x
      · refine Or.inl ⟨hcopy, ?_⟩
        rw [hbytes, copied_byte _ hcopy]
      · refine Or.inr ?_
        rw [hout x hcopy]
        exact (hfile x).mpr (hok k hk hmapped hfreed htouch x hx hcopy)

/-- A file of one block that the device holds as zeros, with a page of stale memory. -/
def World.stale : World :=
  { World.cold with pages := fun _ => ⟨false, 1, false, false, false, none, fun _ => 5⟩ }

/-- A write of one byte to an uptodate page. -/
theorem bytesSound_iff_uptodate :
    let w := World.dirty ⟨1, 4096, rfl⟩
    let a : Round := ⟨Outcomes.fine, 0, 1, [7]⟩
    BytesSound w (a.run w).2 a := by
  intro w a
  refine (bytesSound_iff w (a.begin_ w).2 (a.run w).2 a 1 (Exec.run_eq (by decide +kernel))
    (Exec.run_eq (by decide +kernel)) (by decide) (fun k _ => rfl)).mpr ?_
  intro k _ _ _ _ x _ _
  exact Or.inl (Or.inl rfl)

/-- A write of one byte hands the stale rest of its buffer to the journal. -/
theorem stale_byte_journalled :
    let a : Round := ⟨Outcomes.fine, 0, 1, [7]⟩
    (a.begin_ World.stale).1 = some 0 ∧ (a.run World.stale).1 = some 1 ∧
      ¬ BytesSound World.stale (a.run World.stale).2 a := by
  intro a
  have hlog : (a.run World.stale).2.log = [⟨0, 0, 0, true⟩] := by decide +kernel
  have hbyte : ((a.run World.stale).2.pages a.page).data 1 = 5 := by decide +kernel
  have hfile : World.stale.fileByte a.page 1 = 0 := by decide +kernel
  refine ⟨by decide +kernel, by decide +kernel, fun hsound => ?_⟩
  have he : (⟨0, 0, 0, true⟩ : Dirtied) ∈
      (a.run World.stale).2.log.drop World.stale.log.length := by
    rw [hlog]
    exact List.mem_singleton_self _
  rcases (hsound _ he).2 1 (by decide) with ⟨hcopy, -⟩ | hold
  · exact absurd hcopy (by decide)
  · rw [hbyte, hfile] at hold
    exact absurd hold (by decide)

end QuickDevSkeleton.Journal
