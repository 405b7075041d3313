import QuickDevSkeleton.Journal.Cache
import QuickDevSkeleton.Journal.Effects

/-!
# Blocks that share a device block

`example_get_block` maps every block of the file to device block 0, so that the blocks overwrite
each other there. As long as every block is loaded from the device block that holds it, reads find
what was last written; a block that is loaded after another one has been stored gets the bytes of
that one.
-/

namespace QuickDevSkeleton.Journal

open Foundations

/-- Every byte read is the one last written at its offset, or the original one. -/
def Isolated (s : CachedFile) : Prop :=
  ∀ r ∈ s.reads, r.1 = r.2

/-! ### The condition -/

/-- The round ends before its copy: no page or no handle could be had, or write access is
refused. -/
def Round.Denied (a : Round) (w : World) : Prop :=
  a.K.grab = false ∨ w.handle = none ∧ (a.K.aborted = true ∨ a.K.journal_start ≠ 0 ∨
    a.K.block_write_begin = 0 ∧ ∃ k < w.blocks.count, (w.ring a.page k).freed = false ∧
      a.K.journal_get_write_access k ≠ 0)

/-- The copy of the round covers what buffer `k` holds of the file. -/
def Round.Covers (a : Round) (w : World) (k : ℕ) : Prop :=
  w.i_size ≤ a.page * PAGE_CACHE_SIZE + k * w.blocks.size ∨
    a.pos % PAGE_CACHE_SIZE ≤ k * w.blocks.size ∧
      min ((k + 1) * w.blocks.size) (w.i_size - a.page * PAGE_CACHE_SIZE) ≤
        a.pos % PAGE_CACHE_SIZE + a.data.length

instance (a : Round) (w : World) : Decidable (a.Denied w) :=
  inferInstanceAs (Decidable (_ ∨ _))

instance (a : Round) (w : World) (k : ℕ) : Decidable (a.Covers w k) :=
  inferInstanceAs (Decidable (_ ∨ _))

/-- A round is denied before its copy, or meets no failure, begins within the file or at its end,
and covers what it reaches of buffers whose memory does not hold the file's bytes; `writepage`
journals only pages that are uptodate; and every block of the file is loaded from the device block
that holds it. -/
def IsolationOk (s : CachedFile) : CacheAct → Prop
  | .write a => a.Denied s.world ∨ a.Fine s.world ∧ a.pos ≤ s.world.i_size ∧
      ∀ k < s.world.blocks.count, a.Reaches s.world k →
        a.Covers s.world k ∨ s.world.Holds a.page k
  | .writepage _ i => (s.world.pages i).uptodate = true ∨
      ((s.world.pages i).buffers.isSome && !(s.world.pages i).checked) = true
  | .readpage i => ∀ k < s.world.blocks.count, (s.world.ring i k).uptodate = false →
      s.world.inFile i k = true → s.home (s.world.block i k) = s.world.source i k
  | .mapped_store _ _ | .commit | .write_back _ _ | .evict _ _ | .read _ => True

instance (s : CachedFile) (a : CacheAct) : Decidable (IsolationOk s a) :=
  match a with
  | .write _ => inferInstanceAs (Decidable (_ ∨ _))
  | .writepage _ _ => inferInstanceAs (Decidable (_ ∨ _))
  | .readpage _ => inferInstanceAs (Decidable (∀ k < s.world.blocks.count, _))
  | .mapped_store _ _ | .commit | .write_back _ _ | .evict _ _ | .read _ => .isTrue trivial

/-! ### Offsets -/

namespace BlockSize

variable (b : BlockSize) (i y : ℕ)

lemma page_eq : i * PAGE_CACHE_SIZE + y = b.size * (i * b.count) + y := by
  rw [← b.covers, ← Nat.mul_assoc, Nat.mul_comm (i * b.count)]

lemma div_page : (i * PAGE_CACHE_SIZE + y) / b.size = i * b.count + y / b.size := by
  rw [b.page_eq, Nat.mul_add_div b.size_pos]

lemma mod_page : (i * PAGE_CACHE_SIZE + y) % b.size = y % b.size := by
  rw [b.page_eq, Nat.mul_add_mod]

lemma div_block (q : ℕ) : (q * b.size + y % b.size) / b.size = q := by
  rw [Nat.mul_comm, Nat.mul_add_div b.size_pos, Nat.div_eq_of_lt (Nat.mod_lt y b.size_pos),
    Nat.add_zero]

lemma of_div_eq {q y : ℕ} (h : y / b.size = q) : q * b.size ≤ y ∧ y < (q + 1) * b.size := by
  rw [← h]
  exact ⟨Nat.div_mul_le_self y _, Nat.lt_mul_of_div_lt (Nat.lt_succ_self _) b.size_pos⟩

lemma div_lt_count {y : ℕ} (hy : y < PAGE_CACHE_SIZE) : y / b.size < b.count := by
  rw [← b.covers] at hy
  exact Nat.div_lt_of_lt_mul (Nat.mul_comm b.count b.size ▸ hy)

end BlockSize

lemma World.source_of_inFile {w : World} {i k : ℕ} (hin : w.inFile i k = true) :
    ∃ d, w.source i k = some d := by
  rw [source]
  split_ifs
  · exact ⟨_, rfl⟩
  · exact ⟨_, rfl⟩

/-! ### The invariant -/

namespace CachedFile

/-- Where the memory of page `i` holds the file's bytes, it does. A buffer that waits for the
journal or for its write-back holds them. -/
structure PageInv (s : CachedFile) (i : ℕ) : Prop where
  new : ∀ k, (s.world.ring i k).new = false
  pending : (s.world.pages i).dirty = true → (s.world.pages i).uptodate = true
  waiting : ∀ k < s.world.blocks.count,
    s.handed i k = true ∨ (s.world.ring i k).dirty = true → s.world.Holds i k
  cached : ∀ y, y < PAGE_CACHE_SIZE → i * PAGE_CACHE_SIZE + y < s.world.i_size →
    s.world.Holds i (y / s.world.blocks.size) →
      (s.world.pages i).data y = s.content (i * PAGE_CACHE_SIZE + y)

/-- Every home holds the bytes of its block. -/
def Homes (s : CachedFile) : Prop :=
  ∀ b d, s.home b = some d → ∀ x < s.world.i_size, x / s.world.blocks.size = b →
    s.world.disk (d * s.world.blocks.size + x % s.world.blocks.size) = s.content x

structure Inv (s : CachedFile) : Prop where
  page : ∀ i, PageInv s i
  home : Homes s
  isolated : Isolated s

/-- From `s` to `t` the pages other than `i` keep what they are and what they should hold. -/
structure Frame (s t : CachedFile) (i : ℕ) : Prop where
  blocks : t.world.blocks = s.world.blocks
  other : ∀ j, j ≠ i → t.world.pages j = s.world.pages j
  handed : ∀ j, j ≠ i → ∀ k, t.handed j k = true → s.handed j k = true
  content : ∀ j, j ≠ i → ∀ y, y < PAGE_CACHE_SIZE → j * PAGE_CACHE_SIZE + y < t.world.i_size →
    j * PAGE_CACHE_SIZE + y < s.world.i_size ∧
      t.content (j * PAGE_CACHE_SIZE + y) = s.content (j * PAGE_CACHE_SIZE + y)

lemma frame_setPage (s : CachedFile) (i : ℕ) (p : Page) :
    Frame s { s with world := s.world.setPage i p } i where
  blocks := rfl
  other _ := SameBytes.other_setPage p
  handed _ _ _ := id
  content _ _ _ _ hlt := ⟨hlt, rfl⟩

variable {s s' : CachedFile}

lemma Inv.opened (blocks : BlockSize) (disk : Memory UInt8) (i_size : ℕ)
    (memory : ℕ → Memory UInt8) : (CachedFile.opened blocks disk i_size memory).Inv where
  page _ := {
    new := fun _ => rfl
    pending := fun hno => nomatch hno
    waiting := fun _ _ hwait => by
      rcases hwait with hno | hno <;> cases hno
    cached := fun _ _ _ hholds => by
      rcases hholds with hno | hno <;> cases hno }
  home _ d hd x _ _ := by
    have hhome : 0 = d := Option.some.inj hd
    change disk (d * blocks.size + x % blocks.size) = disk (x % blocks.size)
    rw [← hhome, Nat.zero_mul, Nat.zero_add]
  isolated _ h := nomatch h

lemma ring_of_page {w v : World} {i : ℕ} (h : v.pages i = w.pages i) : v.ring i = w.ring i := by
  rw [World.ring, h, World.ring]

lemma holds_of_page {w v : World} {i k : ℕ} (h : v.pages i = w.pages i) :
    v.Holds i k ↔ w.Holds i k := by
  rw [World.Holds, World.Holds, h, ring_of_page h]

/-- A page in the frame keeps its invariant. -/
lemma PageInv.frame {i j : ℕ} (h : PageInv s j) (hf : Frame s s' i) (hj : j ≠ i) :
    PageInv s' j where
  new k := by
    rw [ring_of_page (hf.other j hj)]
    exact h.new k
  pending hdirty := by
    rw [hf.other j hj] at hdirty ⊢
    exact h.pending hdirty
  waiting k hk hwait := by
    rw [ring_of_page (hf.other j hj)] at hwait
    rw [hf.blocks] at hk
    exact (holds_of_page (hf.other j hj)).mpr
      (h.waiting k hk (hwait.imp_left (hf.handed j hj k)))
  cached y hy hlt hholds := by
    obtain ⟨hlt', hsame⟩ := hf.content j hj y hy hlt
    rw [holds_of_page (hf.other j hj), hf.blocks] at hholds
    rw [hf.other j hj, hsame]
    exact h.cached y hy hlt' hholds

/-- Outside the frame the invariant is left to show for one page, and for the device. -/
lemma Inv.frame (h : s.Inv) {i : ℕ} (hf : Frame s s' i) (hpage : PageInv s' i) (hhome : Homes s')
    (hisolated : Isolated s') : s'.Inv where
  page j := by
    by_cases hj : j = i
    · exact hj ▸ hpage
    · exact (h.page j).frame hf hj
  home := hhome
  isolated := hisolated

namespace Inv

/-! ### Operations that change no byte -/

lemma handed_after {K : Outcomes} {w : World} {i k : ℕ}
    (h : (s.after K w).handed i k = true) : s.handed i k = true ∨
      ∃ e ∈ w.log.drop s.world.log.length, e.page = i ∧ e.buffer = k := by
  rcases Bool.or_eq_true_iff.mp h with hold | hnew
  · exact Or.inl hold
  · obtain ⟨e, he, heq⟩ := List.any_eq_true.mp hnew
    obtain ⟨hpage, hbuffer, -⟩ := of_decide_eq_true heq
    exact Or.inr ⟨e, he, hpage, hbuffer⟩

/-- What is handed to the journal is of page `i`. -/
lemma handed_elsewhere {K : Outcomes} {w : World} {i : ℕ}
    (hlog : ∃ l, w.log = s.world.log ++ l ∧ ∀ e ∈ l, e.page = i) {j : ℕ} (hj : j ≠ i) (k : ℕ)
    (h : (s.after K w).handed j k = true) : s.handed j k = true := by
  rcases handed_after h with hold | ⟨e, he, hpage, -⟩
  · exact hold
  · obtain ⟨l, hl, hall⟩ := hlog
    rw [hl, List.drop_left] at he
    exact absurd (hpage.symm.trans (hall e he)) hj

/-- What it hands to the journal, if anything, holds the bytes of the file. -/
lemma same (h : s.Inv) {K : Outcomes} {i : ℕ} {w : World} (hsame : SameBytes s.world i w)
    (hlog : w.log = s.world.log ∨ (s.world.pages i).uptodate = true) : (s.after K w).Inv := by
  have hf : Frame s (s.after K w) i := {
    blocks := hsame.blocks
    other := hsame.other
    handed := fun _ => handed_elsewhere hsame.log
    content := fun j _ y _ hlt => ⟨hsame.i_size ▸ hlt, rfl⟩ }
  have hpage : PageInv (s.after K w) i := {
    new := hsame.new
    pending := fun hdirty =>
      hsame.uptodate.trans ((h.page i).pending (hsame.pending.symm.trans hdirty))
    waiting := fun k hk hwait => by
      have hk' : k < s.world.blocks.count := hsame.blocks ▸ hk
      refine (hsame.holds k).mpr ?_
      rcases hwait with hhanded | hdirty
      · rcases handed_after hhanded with hold | ⟨e, he, -, -⟩
        · exact (h.page i).waiting k hk' (Or.inl hold)
        · rcases hlog with hnone | hup
          · rw [hnone, List.drop_length] at he
            cases he
          · exact Or.inl hup
      · rcases hsame.dirty k hdirty with hold | hpend
        · exact (h.page i).waiting k hk' (Or.inr hold)
        · exact Or.inl ((h.page i).pending hpend)
    cached := fun y hy hlt hholds => by
      have hlt' : i * PAGE_CACHE_SIZE + y < s.world.i_size := hsame.i_size ▸ hlt
      have hholds' : w.Holds i (y / w.blocks.size) := hholds
      rw [hsame.blocks, hsame.holds] at hholds'
      exact (congrFun hsame.data y).trans ((h.page i).cached y hy hlt' hholds') }
  refine h.frame hf hpage (fun b d hd x hx hb => ?_) h.isolated
  change w.disk (d * w.blocks.size + x % w.blocks.size) = s.content x
  change x / w.blocks.size = b at hb
  rw [hsame.blocks] at hb ⊢
  rw [hsame.disk]
  exact h.home b d hd x (hsame.i_size ▸ hx) hb

/-- `writepage`, after the kernel has cleared the dirty flag. -/
lemma writepage (h : s.Inv) {K : Outcomes} {i : ℕ} (hok : IsolationOk s (.writepage K i)) :
    (s.writepage K i).Inv := by
  have hpage : (s.world.setPage i { s.world.pages i with dirty := false }).pages i =
      { s.world.pages i with dirty := false } :=
    World.pages_setPage _ _ _
  have hring : (s.world.setPage i { s.world.pages i with dirty := false }).ring i =
      s.world.ring i := by
    rw [World.ring, hpage, World.ring]
  have hup : ((s.world.setPage i { s.world.pages i with dirty := false }).pages i).uptodate =
      (s.world.pages i).uptodate := by
    rw [hpage]
  have hclear : Inv { s with
      world := s.world.setPage i { s.world.pages i with dirty := false } } :=
    h.frame (frame_setPage s i _) {
      new := fun k => by
        rw [hring]
        exact (h.page i).new k
      pending := fun hno => by
        rw [hpage] at hno
        cases hno
      waiting := fun k hk hwait => by
        rw [hring] at hwait
        rw [World.Holds, hup, hring]
        exact (h.page i).waiting k hk hwait
      cached := fun y hy hlt hholds => by
        rw [World.Holds, hup, hring] at hholds
        rw [hpage]
        exact (h.page i).cached y hy hlt hholds } h.home h.isolated
  have hsame := SameBytes.writepage (K := K)
    (w := s.world.setPage i { s.world.pages i with dirty := false }) (i := i)
    (hok.imp hup.trans fun hplain => by
      rw [hpage]
      exact hplain) fun k => by
        rw [hring]
        exact (h.page i).new k
  refine hclear.same hsame ?_
  rcases hok with hold | hplain
  · exact Or.inr (hup.trans hold)
  · refine Or.inl ?_
    rw [example_journalled_writepage, Exec.withState_run, if_pos (by
      rw [hpage]
      exact hplain)]
    rfl

/-! ### Writes -/

/-- A denied `write_begin` returns an error, and hands nothing to the journal. -/
lemma begin_denied {a : Round} {w : World} (hdenied : a.Denied w) :
    ∃ r v, a.begin_ w = (some r, v) ∧ r ≠ 0 ∧ v.log = w.log := by
  obtain ⟨r, v, hbegin, hends⟩ := write_begin_ends a.K a.pos a.len w
  change BeginEnds a.K w a.page r v at hends
  by_cases hgrab : a.K.grab = true
  · have hgranted : ¬ a.K.grab = false := Bool.not_eq_false _ ▸ hgrab
    obtain ⟨hnone, haborted | hstart | ⟨hprepared, k, hk, hfreed, hr⟩⟩ :=
      hdenied.resolve_left hgranted
    · obtain ⟨e, he, hrun⟩ := begin_no_handle hgrab hnone (Or.inl haborted)
      exact ⟨e, _, hrun, he, rfl⟩
    · obtain ⟨e, he, hrun⟩ := begin_no_handle hgrab hnone (Or.inr hstart)
      exact ⟨e, _, hrun, he, rfl⟩
    · cases hends with
      | noPage hg => exact absurd hg hgranted
      | nested hg hh =>
        rw [hh] at hnone
        cases hnone
      | noHandle hg hh hfail he => exact ⟨_, _, hbegin, he, rfl⟩
      | notPrepared hg hh hb => exact absurd hprepared hb
      | granted hg hh ha hs hb hall => exact absurd (hall k hk hfreed) hr
      | refused hg hh hk' hlive hr' => exact ⟨_, _, hbegin, hr', rfl⟩
  · cases hends with
    | noPage => exact ⟨_, _, hbegin, by decide, rfl⟩
    | nested hg | noHandle hg | notPrepared hg | granted hg | refused hg => exact absurd hg hgrab

/-- A denied round leaves the cache as it is. -/
lemma write_denied (h : s.Inv) {a : Round} (hdenied : a.Denied s.world) : (s.write a).Inv := by
  obtain ⟨r, v, hbegin, hr, hlog⟩ := begin_denied hdenied
  have hsame : SameBytes s.world a.page v := by
    have hkeeps := SameBytes.write_begin (K := a.K) a.pos a.len s.world (.refl (h.page a.page).new)
    have hrun : example_journalled_write_begin a.K a.pos a.len s.world = (some r, v) := hbegin
    rw [hrun] at hkeeps
    exact hkeeps
  have hrun : a.run s.world = (some r, v) := by
    rw [Round.run, writeRound]
    refine (Exec.bind_run_some hbegin).trans ?_
    rw [if_pos hr]
    rfl
  have hnone : a.accepted s.world = 0 := by
    rw [Round.accepted, hbegin, if_neg fun hzero => hr (Option.some.inj hzero)]
  have hwrite : s.write a = s.after a.K v := by
    simp only [CachedFile.write, hnone, hrun, List.take_zero, Memory.write_nil, ne_eq,
      not_true_eq_false, false_and, if_false]
    rfl
  rw [hwrite]
  exact h.same hsame (Or.inl hlog)

section

variable {a : Round}

/-- The offset of the round, in its page. -/
lemma pos_eq (a : Round) : a.pos = a.page * PAGE_CACHE_SIZE + a.pos % PAGE_CACHE_SIZE := by
  rw [Round.page, Nat.mul_comm]
  exact (Nat.div_add_mod _ _).symm

lemma copied_of_covers {k y : ℕ} (hcovers : a.Covers s.world k)
    (hk : y / s.world.blocks.size = k)
    (hlt : a.page * PAGE_CACHE_SIZE + y < s.world.i_size) :
    a.pos % PAGE_CACHE_SIZE ≤ y ∧ y < a.pos % PAGE_CACHE_SIZE + a.data.length := by
  obtain ⟨hlow, hhigh⟩ := s.world.blocks.of_div_eq hk
  rcases hcovers with hout | ⟨hfirst, hlast⟩
  · omega
  · refine ⟨hfirst.trans hlow, lt_of_lt_of_le (lt_min hhigh ?_) hlast⟩
    omega

/-- Outside the round's page and range nothing is written, and nothing new comes into the file. -/
lemma lt_i_size (hpos : a.pos ≤ s.world.i_size) {x : ℕ}
    (hx : x < max s.world.i_size (a.pos + a.data.length))
    (hout : x < a.pos ∨ a.pos + a.data.length ≤ x) : x < s.world.i_size := by
  rcases lt_max_iff.mp hx with hlt | hlt
  · exact hlt
  · omega

/-- A round that meets no failure and covers what it has to. -/
lemma write_fine (h : s.Inv) (hpage : a.pos % PAGE_CACHE_SIZE + a.len ≤ PAGE_CACHE_SIZE)
    (hle : a.data.length ≤ a.len) (hfine : a.Fine s.world) (hpos : a.pos ≤ s.world.i_size)
    (hcovers : ∀ k < s.world.blocks.count, a.Reaches s.world k →
      a.Covers s.world k ∨ s.world.Holds a.page k) : (s.write a).Inv := by
  obtain ⟨w', hrun, hbegin, hw⟩ := written (h.page a.page).new hle hfine
  have haccepted : a.accepted s.world = a.data.length := by
    rw [Round.accepted, if_pos hbegin, hrun]
    exact Int.toNat_natCast _
  have hwrite : s.write a = { s.after a.K w' with
      content := s.content.write a.pos a.data
      home := fun b =>
        if a.data.length ≠ 0 ∧ Touches s.world.blocks.size a.pos (a.pos + a.data.length) b then none
        else s.home b } := by
    simp only [CachedFile.write, haccepted, hrun, List.take_length]
  rw [hwrite]
  have heq := pos_eq a
  refine h.frame {
    blocks := hw.blocks
    other := hw.other
    handed := fun _ => handed_elsewhere
      (hw.log.imp fun _ hl => ⟨hl.1, fun e he => (hl.2 e he).1⟩)
    content := fun j hj y hy hlt => ?_ } {
    new := hw.new
    pending := fun hdirty =>
      hw.keeps_uptodate ((h.page a.page).pending (hw.pending.symm.trans hdirty))
    waiting := fun k hk hwait => ?_
    cached := fun y hy hlt hholds => ?_ } (fun b d hd x hx hb => ?_) h.isolated
  · -- the range lies in the page of the round
    have hx : j * PAGE_CACHE_SIZE + y < a.pos ∨
        a.pos + a.data.length ≤ j * PAGE_CACHE_SIZE + y := by
      rcases Nat.lt_or_gt_of_ne hj with hlt' | hgt
      · have hmul := Nat.mul_le_mul_right PAGE_CACHE_SIZE (Nat.succ_le_of_lt hlt')
        rw [Nat.succ_mul] at hmul
        omega
      · have hmul := Nat.mul_le_mul_right PAGE_CACHE_SIZE (Nat.succ_le_of_lt hgt)
        rw [Nat.succ_mul] at hmul
        omega
    exact ⟨lt_i_size hpos (hw.i_size ▸ hlt) hx, Memory.write_outside _ hx⟩
  · have hk' : k < s.world.blocks.count := hw.blocks ▸ hk
    change w'.Holds a.page k
    rcases hwait with hhanded | hdirty
    · rcases handed_after hhanded with hold | ⟨e, he, -, rfl⟩
      · exact hw.keeps k ((h.page a.page).waiting k hk' (Or.inl hold))
      · obtain ⟨l, hl, hall⟩ := hw.log
        rw [hl, List.drop_left] at he
        exact (hall e he).2
    · apply hw.keeps
      rcases hw.dirty k hdirty with hold | hpend
      · exact (h.page a.page).waiting k hk' (Or.inr hold)
      · exact Or.inl ((h.page a.page).pending hpend)
  · change a.page * PAGE_CACHE_SIZE + y < w'.i_size at hlt
    change w'.Holds a.page (y / w'.blocks.size) at hholds
    change (w'.pages a.page).data y = s.content.write a.pos a.data (a.page * PAGE_CACHE_SIZE + y)
    rw [hw.i_size] at hlt
    rw [hw.blocks] at hholds
    rw [hw.data]
    by_cases hcopy : a.pos % PAGE_CACHE_SIZE ≤ y ∧ y < a.pos % PAGE_CACHE_SIZE + a.data.length
    · obtain ⟨d, rfl⟩ := Nat.exists_eq_add_of_le hcopy.1
      have hd : d < a.data.length := Nat.lt_of_add_lt_add_left hcopy.2
      have hx : a.page * PAGE_CACHE_SIZE + (a.pos % PAGE_CACHE_SIZE + d) = a.pos + d := by
        rw [← Nat.add_assoc, ← heq]
      rw [hx, Memory.write_inside _ hd, Memory.write_inside _ hd]
    · have hx : a.page * PAGE_CACHE_SIZE + y < a.pos ∨
          a.pos + a.data.length ≤ a.page * PAGE_CACHE_SIZE + y := by
        omega
      have hlt' := lt_i_size hpos hlt hx
      rw [Memory.write_outside _ hx, Memory.write_outside _ (by omega)]
      refine (h.page a.page).cached y hy hlt' ?_
      have hk := s.world.blocks.div_lt_count hy
      rcases hw.holds _ hk hholds with hreach | hold
      · exact (hcovers _ hk hreach).resolve_left fun hcov =>
          hcopy (copied_of_covers hcov rfl hlt')
      · exact hold
  · change x < w'.i_size at hx
    change x / w'.blocks.size = b at hb
    change w'.disk (d * w'.blocks.size + x % w'.blocks.size) = s.content.write a.pos a.data x
    rw [hw.i_size] at hx
    rw [hw.blocks] at hb ⊢
    have hd' : (if a.data.length ≠ 0 ∧
        Touches s.world.blocks.size a.pos (a.pos + a.data.length) b then none
      else s.home b) = some d := hd
    split_ifs at hd' with htouch
    have hout : x < a.pos ∨ a.pos + a.data.length ≤ x := by
      by_contra hin
      obtain ⟨hlow, hhigh⟩ := s.world.blocks.of_div_eq hb
      exact htouch ⟨by omega, by omega, by omega⟩
    rw [hw.disk, Memory.write_outside _ hout]
    exact h.home b d hd' x (lt_i_size hpos hx hout) hb

end

/-! ### The kernel -/

lemma write_byte (m : Memory UInt8) (x : ℕ) (byte : UInt8) : m.write x [byte] x = byte := by
  have hpos : 0 < [byte].length := List.length_pos_of_ne_nil (List.cons_ne_nil byte [])
  have hin := m.write_inside (a := x) hpos
  rwa [Nat.add_zero] at hin

lemma write_byte_of_ne (m : Memory UInt8) {x y : ℕ} (byte : UInt8) (hne : y ≠ x) :
    m.write x [byte] y = m y := by
  rw [Memory.write_outside]
  rw [List.length_singleton]
  omega

/-- A store to a mapped page. -/
lemma mapped_store (h : s.Inv) {x : ℕ} {byte : UInt8}
    (hup : (s.world.pages (x / PAGE_CACHE_SIZE)).uptodate = true) :
    (s.mapped_store x byte).Inv := by
  have hpage : (s.world.mapped_store x byte).pages (x / PAGE_CACHE_SIZE) =
      { s.world.pages (x / PAGE_CACHE_SIZE) with
        checked := true
        dirty := true
        data := (s.world.pages (x / PAGE_CACHE_SIZE)).data.write (x % PAGE_CACHE_SIZE) [byte] } :=
    World.pages_setPage _ _ _
  have hring : (s.world.mapped_store x byte).ring (x / PAGE_CACHE_SIZE) =
      s.world.ring (x / PAGE_CACHE_SIZE) := by
    rw [World.ring, hpage, World.ring]
  have hup' : ((s.world.mapped_store x byte).pages (x / PAGE_CACHE_SIZE)).uptodate = true := by
    rw [hpage]
    exact hup
  refine h.frame {
    blocks := rfl
    other := fun _ => SameBytes.other_setPage _
    handed := fun _ _ _ => id
    content := fun j hj y hy hlt => ⟨hlt, ?_⟩ } {
    new := fun k => (congrArg (fun bhs => (bhs k).new) hring).trans ((h.page _).new k)
    pending := fun _ => hup'
    waiting := fun _ _ _ => Or.inl hup'
    cached := fun y hy hlt _ => ?_ } (fun b d hd z hz hb => ?_) h.isolated
  · refine write_byte_of_ne _ _ fun heq => hj ?_
    rw [← heq, Nat.mul_comm, Nat.mul_add_div (by decide), Nat.div_eq_of_lt hy, Nat.add_zero]
  · have hdata := congrArg Page.data hpage
    refine (congrFun hdata y).trans ?_
    change (s.world.pages (x / PAGE_CACHE_SIZE)).data.write (x % PAGE_CACHE_SIZE) [byte] y =
      s.content.write x [byte] (x / PAGE_CACHE_SIZE * PAGE_CACHE_SIZE + y)
    have hx := Nat.div_add_mod' x PAGE_CACHE_SIZE
    by_cases hyx : y = x % PAGE_CACHE_SIZE
    · rw [hyx, hx, write_byte, write_byte]
    · rw [write_byte_of_ne _ _ hyx, write_byte_of_ne _ _ (by omega)]
      exact (h.page _).cached y hy hlt (Or.inl hup)
  · change s.world.disk (d * s.world.blocks.size + z % s.world.blocks.size) =
      s.content.write x [byte] z
    have hd' : Function.update s.home (x / s.world.blocks.size) none b = some d := hd
    have hne : b ≠ x / s.world.blocks.size := by
      rintro rfl
      rw [Function.update_self] at hd'
      cases hd'
    rw [Function.update_of_ne hne] at hd'
    have hzx : z ≠ x := by
      rintro rfl
      exact hne hb.symm
    rw [write_byte_of_ne _ _ hzx]
    exact h.home b d hd' z hz hb

lemma commit (h : s.Inv) : s.commit.Inv := by
  have hring (j k : ℕ) : ∃ d, (s.commit.world.ring j k) = { s.world.ring j k with dirty := d } ∧
      (d = true → s.handed j k = true ∨ (s.world.ring j k).dirty = true) := by
    change ∃ d, (((s.world.pages j).buffers.map fun bhs k =>
      { bhs k with dirty := (bhs k).dirty || s.handed j k }).getD
        fun _ => ⟨0, false, false, false, false, false⟩) k = _ ∧ _
    rw [World.ring]
    cases hbuffers : (s.world.pages j).buffers with
    | none => exact ⟨false, rfl, fun hno => by cases hno⟩
    | some bhs =>
      exact ⟨(bhs k).dirty || s.handed j k, rfl, fun hor => (Bool.or_eq_true_iff.mp hor).symm⟩
  have hholds (j k : ℕ) : s.commit.world.Holds j k ↔ s.world.Holds j k := by
    obtain ⟨d, hd, -⟩ := hring j k
    rw [World.Holds, hd]
    exact Iff.rfl
  refine ⟨fun j => {
    new := fun k => ?_
    pending := (h.page j).pending
    waiting := fun k hk hwait => (hholds j k).mpr ((h.page j).waiting k hk ?_)
    cached := fun y hy hlt hj => (h.page j).cached y hy hlt ((hholds j _).mp hj) },
    h.home, h.isolated⟩
  · obtain ⟨d, hd, -⟩ := hring j k
    rw [hd]
    exact (h.page j).new k
  · obtain ⟨d, hd, hdirty⟩ := hring j k
    rcases hwait with hno | hnew
    · cases hno
    · rw [hd] at hnew
      exact hdirty hnew

/-- A fresh page holds nothing, and nothing of it waits. -/
lemma evict (h : s.Inv) {i : ℕ} {memory : Memory UInt8} (hclean : s.Clean i) :
    Inv { s with world := s.world.setPage i (World.fresh memory) } := by
  have hpage : (s.world.setPage i (World.fresh memory)).pages i = World.fresh memory :=
    World.pages_setPage _ _ _
  have hring (k : ℕ) : (s.world.setPage i (World.fresh memory)).ring i k =
      ⟨0, false, false, false, false, false⟩ := by
    rw [World.ring, hpage]
    rfl
  have hnothing (k : ℕ) : ¬ (s.world.setPage i (World.fresh memory)).Holds i k := by
    rw [World.Holds, hpage, hring]
    rintro (hno | hno) <;> cases hno
  exact h.frame (frame_setPage s i _) {
    new := fun k => by rw [hring]
    pending := fun hno => by
      rw [hpage] at hno
      cases hno
    waiting := fun k hk hwait => by
      rw [hring, (hclean.2 k hk).1] at hwait
      rcases hwait with hno | hno <;> cases hno
    cached := fun y _ _ hholds => absurd hholds (hnothing _) } h.home h.isolated

/-- A buffer that waits holds each byte of its block, at the same offset in the block. -/
lemma waiting_byte (h : s.Inv) {i k x : ℕ} (hk : k < s.world.blocks.count)
    (hwait : s.handed i k = true ∨ (s.world.ring i k).dirty = true) (hx : x < s.world.i_size)
    (hblock : x / s.world.blocks.size = s.world.block i k) :
    (s.world.pages i).data (k * s.world.blocks.size + x % s.world.blocks.size) = s.content x := by
  have hxeq : x = i * PAGE_CACHE_SIZE + (k * s.world.blocks.size + x % s.world.blocks.size) := by
    have hblock' : x / s.world.blocks.size = i * s.world.blocks.count + k := hblock
    rw [s.world.blocks.page_eq, ← Nat.add_assoc, Nat.mul_comm k, ← Nat.mul_add, ← hblock',
      Nat.div_add_mod]
  have hin := s.world.blocks.div_block x k
  have hy : k * s.world.blocks.size + x % s.world.blocks.size < PAGE_CACHE_SIZE := by
    have hmul := Nat.mul_le_mul_right s.world.blocks.size (Nat.succ_le_of_lt hk)
    rw [s.world.blocks.covers, Nat.succ_mul] at hmul
    have hmod := Nat.mod_lt x s.world.blocks.size_pos
    omega
  have hcached := (h.page i).cached _ hy (hxeq ▸ hx) (hin.symm ▸ (h.page i).waiting k hk hwait)
  rw [hcached, ← hxeq]

/-- A buffer that waits for its write-back holds the file's bytes, and takes them to its device
block. No other block has its home there any more. -/
lemma write_back (h : s.Inv) {i k : ℕ} (hk : k < s.world.blocks.count)
    (hdirty : (s.world.ring i k).dirty = true) : (s.write_back i k).Inv := by
  have hpage : (s.world.write_back i k).pages i = { s.world.pages i with
      buffers := some (Function.update (s.world.ring i) k
        { s.world.ring i k with dirty := false }) } :=
    World.pages_setPage _ _ _
  have hring (l : ℕ) : (s.world.write_back i k).ring i l = s.world.ring i l ∨
      l = k ∧ (s.world.write_back i k).ring i l = { s.world.ring i k with dirty := false } := by
    rw [World.ring, hpage, Option.getD_some]
    by_cases hl : l = k
    · rw [hl, Function.update_self]
      exact Or.inr ⟨rfl, rfl⟩
    · rw [Function.update_of_ne hl]
      exact Or.inl rfl
  have hholds (l : ℕ) : (s.world.write_back i k).Holds i l ↔ s.world.Holds i l := by
    rw [World.Holds, World.Holds, hpage]
    rcases hring l with hl | ⟨rfl, hl⟩ <;> rw [hl]
  refine h.frame {
    blocks := rfl
    other := fun _ => SameBytes.other_setPage _
    handed := fun _ _ _ => id
    content := fun _ _ _ _ hlt => ⟨hlt, rfl⟩ } {
    new := fun l => ?_
    pending := fun hpend => ?_
    waiting := fun l hl hwait =>
      (hholds l).mpr ((h.page i).waiting l hl (hwait.imp_right fun hd => ?_))
    cached := fun y hy hlt hy' => ?_ } (fun b d hd x hx hb => ?_) h.isolated
  · change ((s.world.write_back i k).ring i l).new = false
    rcases hring l with hl | ⟨rfl, hl⟩
    · rw [hl]
      exact (h.page i).new l
    · rw [hl]
      exact (h.page i).new l
  · change ((s.world.write_back i k).pages i).uptodate = true
    have hpend' : ((s.world.write_back i k).pages i).dirty = true := hpend
    rw [hpage] at hpend' ⊢
    exact (h.page i).pending hpend'
  · have hd' : ((s.world.write_back i k).ring i l).dirty = true := hd
    rcases hring l with hl' | ⟨rfl, -⟩
    · rwa [hl'] at hd'
    · exact hdirty
  · have hdata := congrArg Page.data hpage
    exact (congrFun hdata y).trans ((h.page i).cached y hy hlt ((hholds _).mp hy'))
  · change (if (d * s.world.blocks.size + x % s.world.blocks.size) / s.world.blocks.size =
        (s.world.ring i k).b_blocknr then
      (s.world.pages i).data (k * s.world.blocks.size +
        (d * s.world.blocks.size + x % s.world.blocks.size) % s.world.blocks.size)
      else s.world.disk (d * s.world.blocks.size + x % s.world.blocks.size)) = s.content x
    rw [s.world.blocks.div_block]
    have hd' : (if b = s.world.block i k then some (s.world.ring i k).b_blocknr
      else if s.home b = some (s.world.ring i k).b_blocknr then none else s.home b) = some d := hd
    by_cases hblock : b = s.world.block i k
    · rw [if_pos hblock] at hd'
      rw [if_pos (Option.some.inj hd').symm, Nat.mul_comm d, Nat.mul_add_mod, Nat.mod_mod]
      exact h.waiting_byte hk (Or.inr hdirty) hx (hb.trans hblock)
    · rw [if_neg hblock] at hd'
      split_ifs at hd' with hlost
      have hne : d ≠ (s.world.ring i k).b_blocknr := by
        rintro rfl
        exact hlost hd'
      rw [if_neg hne]
      exact h.home b d hd' x hx hb

/-- A buffer created for a page starts as the page is. -/
lemma created_cases (w : World) (i k : ℕ) :
    created w i k = w.ring i k ∨ (w.ring i k).uptodate = false ∧
      created w i k = ⟨0, false, (w.pages i).uptodate, (w.pages i).dirty, false, false⟩ := by
  rw [created, create_page_buffers]
  cases hbuffers : (w.pages i).buffers with
  | none =>
    refine Or.inr ⟨by rw [World.ring, hbuffers]; rfl, ?_⟩
    rw [World.ring_setRing]
  | some bhs => exact Or.inl rfl

/-- Every block of the page comes from its home. -/
lemma readpage (h : s.Inv) {i : ℕ} (hok : IsolationOk s (.readpage i)) :
    Inv { s with world := s.world.readpage i } := by
  have hup : ((s.world.readpage i).pages i).uptodate = true := by
    rw [World.readpage, World.pages_setPage]
  refine h.frame (frame_setPage s i _) {
    new := fun k => ?_
    pending := fun _ => hup
    waiting := fun _ _ _ => Or.inl hup
    cached := fun y hy hlt _ => ?_ } h.home h.isolated
  · have hnew : (created s.world i k).new = false := by
      rcases created_cases s.world i k with hsame | ⟨-, hnew⟩
      · rw [hsame]
        exact (h.page i).new k
      · rw [hnew]
    rw [World.ring]
    simp only [World.readpage, World.pages_setPage]
    cases s.world.byBuffers i with
    | false => rfl
    | true =>
      change (if (created s.world i k).uptodate then created s.world i k else _).new = false
      split_ifs <;> exact hnew
  · simp only [World.readpage, World.pages_setPage]
    have hk := s.world.blocks.div_lt_count hy
    have hcreated := created_cases s.world i (y / s.world.blocks.size)
    split_ifs with hbuf
    · refine (h.page i).cached y hy hlt ?_
      rcases hcreated with hsame | ⟨-, hnew⟩
      · exact Or.inr (hsame ▸ hbuf)
      · rw [hnew] at hbuf
        exact Or.inl hbuf
    · have hring : (s.world.ring i (y / s.world.blocks.size)).uptodate = false := by
        rcases hcreated with hsame | ⟨hring, -⟩
        · rw [← hsame]
          exact Bool.eq_false_of_not_eq_true hbuf
        · exact hring
      have hin : s.world.inFile i (y / s.world.blocks.size) = true := by
        refine decide_eq_true (lt_of_le_of_lt ?_ hlt)
        rw [World.block, ← s.world.blocks.div_page]
        exact Nat.div_mul_le_self _ _
      have hhome := hok _ hk hring hin
      obtain ⟨d, hd⟩ := World.source_of_inFile hin
      rw [hd] at hhome ⊢
      have hbyte := h.home _ d hhome _ hlt (s.world.blocks.div_page i y)
      rwa [s.world.blocks.mod_page] at hbyte

/-- A read from a page that is uptodate. -/
lemma read (h : s.Inv) {x : ℕ} (hup : (s.world.pages (x / PAGE_CACHE_SIZE)).uptodate = true)
    (hlt : x < s.world.i_size) :
    Inv { s with
      reads := ((s.world.pages (x / PAGE_CACHE_SIZE)).data (x % PAGE_CACHE_SIZE), s.content x) ::
        s.reads } where
  page i := { h.page i with }
  home := h.home
  isolated r hr := by
    rcases List.mem_cons.mp hr with rfl | hold
    · have hx := Nat.div_add_mod' x PAGE_CACHE_SIZE
      have hcached := (h.page (x / PAGE_CACHE_SIZE)).cached (x % PAGE_CACHE_SIZE)
        (Nat.mod_lt x (by decide)) (by rw [hx]; exact hlt) (Or.inl hup)
      rwa [hx] at hcached
    · exact h.isolated r hold

lemma step {a : CacheAct} (h : s.Inv) (hok : IsolationOk s a) (hstep : cachedFile.step s a s') :
    s'.Inv := by
  change s.next a = some s' at hstep
  cases a with
  | write a =>
    simp only [CachedFile.next] at hstep
    split_ifs at hstep with hrange
    rw [← Option.some.inj hstep]
    rcases hok with hdenied | ⟨hfine, hpos, hcovers⟩
    · exact h.write_denied hdenied
    · exact h.write_fine hrange.1 hrange.2 hfine hpos hcovers
  | mapped_store x byte =>
    simp only [CachedFile.next] at hstep
    split_ifs at hstep with hmapped
    rw [← Option.some.inj hstep]
    exact h.mapped_store hmapped.1
  | writepage K i =>
    rw [← Option.some.inj hstep]
    exact h.writepage hok
  | commit =>
    rw [← Option.some.inj hstep]
    exact h.commit
  | write_back i k =>
    simp only [CachedFile.next] at hstep
    split_ifs at hstep with hdirty
    rw [← Option.some.inj hstep]
    exact h.write_back hdirty.1 hdirty.2
  | evict i memory =>
    simp only [CachedFile.next] at hstep
    split_ifs at hstep with hclean
    rw [← Option.some.inj hstep]
    exact h.evict hclean
  | readpage i =>
    simp only [CachedFile.next] at hstep
    split_ifs at hstep with hup
    rw [← Option.some.inj hstep]
    exact h.readpage hok
  | read x =>
    simp only [CachedFile.next] at hstep
    split_ifs at hstep with hread
    rw [← Option.some.inj hstep]
    exact h.read hread.1 hread.2

end Inv

end CachedFile

section

variable {blocks : BlockSize} {disk : Memory UInt8} {i_size : ℕ} {memory : ℕ → Memory UInt8}

/-- In every run in which each block is loaded from its home, and no round leaves stale bytes, the
blocks of the file are isolated. -/
theorem isolated_of_isolationOk {tr : List (CacheAct × CachedFile)}
    (hr : cachedFile.Run (CachedFile.opened blocks disk i_size memory) tr)
    (hok : System.Along IsolationOk (CachedFile.opened blocks disk i_size memory) tr) :
    System.Always Isolated (CachedFile.opened blocks disk i_size memory) tr :=
  (hr.always_of_along (fun _ _ _ h hok hs => h.step hok hs)
    (CachedFile.Inv.opened blocks disk i_size memory) hok).mono fun _ h => h.isolated

end

/-- A file of four blocks a page, on a device of zeros. -/
def CachedFile.zeros (i_size : ℕ) : CachedFile :=
  .opened ⟨4, 1024, rfl⟩ (fun _ => 0) i_size fun _ _ => 5

/-- A file of one block is written, stored, evicted and read. -/
def oneBlock : List CacheAct :=
  [.readpage 0, .write ⟨Outcomes.fine, 0, 1, [7]⟩, .write ⟨Outcomes.fine, 16, 2, [8, 9]⟩, .commit,
    .write_back 0 0, .evict 0 fun _ => 6, .readpage 0, .read 0, .read 1, .read 17]

theorem isolated_of_isolationOk_one :
    ∃ tr, cachedFile.Run (CachedFile.zeros 16) tr ∧ tr.map Prod.fst = oneBlock ∧
      System.Always Isolated (CachedFile.zeros 16) tr := by
  have hsome : (System.final (System.checked CachedFile.next IsolationOk) (CachedFile.zeros 16)
      oneBlock).isSome := by
    decide +kernel
  obtain ⟨tr, hrun, hacts, halong⟩ := System.exists_run_along hsome
  exact ⟨tr, hrun, hacts, isolated_of_isolationOk hrun halong⟩

/-- The first blocks of two pages are written and stored, and the first one is evicted and read. -/
def twoBlocks : List CacheAct :=
  [.readpage 0, .readpage 1, .write ⟨Outcomes.fine, 0, 1, [7]⟩,
    .write ⟨Outcomes.fine, 4096, 1, [8]⟩, .commit, .write_back 0 0, .write_back 1 0,
    .evict 0 fun _ => 6, .readpage 0, .read 0]

theorem first_block_overwritten :
    ∃ tr, cachedFile.Run (CachedFile.zeros 8192) tr ∧ tr.map Prod.fst = twoBlocks ∧
      ¬ System.Always Isolated (CachedFile.zeros 8192) tr := by
  have hreads : (System.final CachedFile.next (CachedFile.zeros 8192) twoBlocks).map
      CachedFile.reads = some [(8, 7)] := by
    decide +kernel
  refine System.exists_run_not_always hreads fun s hs hisolated => ?_
  have hbyte := hisolated (8, 7) (hs ▸ List.mem_singleton_self _)
  exact absurd hbyte (by decide)

end QuickDevSkeleton.Journal
