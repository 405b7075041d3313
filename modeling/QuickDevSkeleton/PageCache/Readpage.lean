import QuickDevSkeleton.Foundations.Heap
import QuickDevSkeleton.Foundations.System

/-!
# Reading pages with one bio

`address_mapping.c` of the page cache example. Every page is read by a bio of its own, but there is
one variable for the bio: a page that arrives while it is set is passed over, and a bio that fails
leaves it set. When every page is released again all the same.
-/

namespace QuickDevSkeleton.PageCache

open Foundations

/-- A bio that was allocated and not put: its device, its sector, the pages of its vectors, and
whether it was submitted and has not completed. -/
structure Bio where
  bi_bdev : ℕ
  bi_sector : ℕ
  bi_io_vec : List ℕ
  inFlight : Bool

/-- The flags of a page, whether it was passed to `example_readpage`, and how often it was unlocked
since. -/
structure Page where
  locked : Bool
  uptodate : Bool
  passed : Bool
  unlocks : ℕ

/-- The global variable, the bios, the pages, and the pages that bios have carried which completed
successfully. -/
structure Cache where
  private_bio : Option ℕ
  bios : Heap Bio
  pages : ℕ → Page
  carried : List ℕ

namespace Cache

variable (c : Cache)

def setPage (p : ℕ) (pg : Page) : Cache :=
  { c with pages := Function.update c.pages p pg }

def SetPageUptodate (p : ℕ) : Cache :=
  c.setPage p { c.pages p with uptodate := true }

def unlock_page (p : ℕ) : Cache :=
  c.setPage p { c.pages p with locked := false, unlocks := (c.pages p).unlocks + 1 }

/-- `bio_alloc` may sleep for memory and does not fail; `bi_io_vec` has room for the one page. -/
def example_readpage (s_bdev private_page : ℕ) : Cache :=
  match c.private_bio with
  | none =>
    { c with
      private_bio := some c.bios.next
      bios := c.bios.alloc ⟨s_bdev, 0, [private_page], true⟩ }
  | some _ => c

/-- The completion of `bio`, which has the number `b`. -/
def example_end_io (b : ℕ) (bio : Bio) (uptodate : Bool) : Cache :=
  match bio.bi_io_vec.getLast? with
  | none => c
  | some page =>
    if !uptodate then c
    else { (c.SetPageUptodate page).unlock_page page with
      private_bio := none
      bios := c.bios.free b }

end Cache

/-- A locked page, other than those before, is passed to `example_readpage`, or a bio in flight
completes. -/
inductive Action where
  | readpage (s_bdev page : ℕ)
  | complete (b : ℕ) (uptodate : Bool)

namespace Cache

variable (c : Cache)

/-- The page is passed, and locked. -/
def pass (p : ℕ) : Cache :=
  c.setPage p { c.pages p with locked := true, passed := true }

/-- The bio `b` is not in flight any more. -/
def finish (b : ℕ) (bio : Bio) (uptodate : Bool) : Cache :=
  { c with
    bios := c.bios.modify b fun bio => { bio with inFlight := false }
    carried := if uptodate then bio.bi_io_vec ++ c.carried else c.carried }

def next : Action → Option Cache
  | .readpage s_bdev page =>
    if (c.pages page).passed then none else some ((c.pass page).example_readpage s_bdev page)
  | .complete b uptodate =>
    match c.bios.cell b with
    | some bio =>
      if bio.inFlight then some ((c.finish b bio uptodate).example_end_io b bio uptodate) else none
    | none => none

/-- No page was passed yet. -/
def init : Cache where
  private_bio := none
  bios := Heap.empty
  pages _ := ⟨false, false, false, 0⟩
  carried := []

end Cache

/-- Reads and completions in any order. -/
def reads : System Cache Action :=
  System.ofPartial Cache.next

/-- No bio is in flight. -/
def Cache.Quiet (c : Cache) : Prop :=
  ∀ b bio, c.bios.cell b = some bio → bio.inFlight = false

/-- A page is passed only while `private_bio` is null, and completions are successful. -/
def ReadOk (c : Cache) : Action → Prop
  | .readpage _ _ => c.private_bio = none
  | .complete _ uptodate => uptodate = true

/-- A page that is waiting for its bio. -/
structure Page.Waits (pg : Page) : Prop where
  passed : pg.passed = true
  unlocks : pg.unlocks = 0

/-- A page that was unlocked, if it was passed at all. -/
def Page.Done (pg : Page) : Prop :=
  if pg.passed then pg.unlocks = 1 ∧ pg.locked = false else pg.unlocks = 0

/-- What the steps keep: there is no bio, or the one that `private_bio` points to is in flight with
the only page that is waiting. -/
structure Cache.Inv (c : Cache) : Prop where
  uptodate : ∀ p, (c.pages p).uptodate = true → p ∈ c.carried
  idle : c.private_bio = none → (∀ b, c.bios.cell b = none) ∧ ∀ p, (c.pages p).Done
  busy : ∀ b, c.private_bio = some b → ∃ bio p, c.bios.cell b = some bio ∧ bio.inFlight = true ∧
    bio.bi_io_vec = [p] ∧ (∀ a, a ≠ b → c.bios.cell a = none) ∧ (c.pages p).Waits ∧
      ∀ q, q ≠ p → (c.pages q).Done

namespace Cache

variable {c c' : Cache} {p q b : ℕ}

@[simp] lemma setPage_self {pg : Page} : (c.setPage p pg).pages p = pg :=
  Function.update_self _ _ _

lemma setPage_other {pg : Page} (h : q ≠ p) : (c.setPage p pg).pages q = c.pages q :=
  Function.update_of_ne h _ _

/-- A page that was not passed was not unlocked either. -/
lemma unlocks_eq_zero {pg : Page} (h : pg.Done) (hpassed : pg.passed = false) : pg.unlocks = 0 := by
  rwa [Page.Done, hpassed] at h

/-- A bio carries the page that is waiting, and it is the only one. -/
lemma Inv.only_bio {bio : Bio} (h : c.Inv) (hcell : c.bios.cell b = some bio) :
    ∃ p, bio.bi_io_vec = [p] ∧ (∀ a, a ≠ b → c.bios.cell a = none) ∧ (c.pages p).Waits ∧
      ∀ q, q ≠ p → (c.pages q).Done := by
  cases hnull : c.private_bio with
  | none =>
    rw [(h.idle hnull).1 b] at hcell
    cases hcell
  | some b' =>
    obtain ⟨bio', p, hcell', -, hvec, hothers, hrest⟩ := h.busy b' hnull
    obtain rfl : b = b' := by
      by_contra hne
      rw [hothers b hne] at hcell
      cases hcell
    cases hcell.symm.trans hcell'
    exact ⟨p, hvec, hothers, hrest⟩

/-- A page is passed while there is no bio: it gets one. -/
lemma Inv.readpage (h : c.Inv) (hnull : c.private_bio = none) (hp : (c.pages p).passed = false)
    (s_bdev : ℕ) : ((c.pass p).example_readpage s_bdev p).Inv := by
  obtain ⟨hempty, hdone⟩ := h.idle hnull
  have hunlocks : (c.pages p).unlocks = 0 := unlocks_eq_zero (hdone p) hp
  have hnull' : (c.pass p).private_bio = none := hnull
  simp only [example_readpage, hnull']
  refine ⟨fun q hq => ?_, fun hno => (nomatch hno), fun b hb => ?_⟩
  · by_cases hqp : q = p
    · subst hqp
      refine h.uptodate q ?_
      rwa [show (c.pass q).pages q = _ from setPage_self] at hq
    · refine h.uptodate q ?_
      rwa [show (c.pass p).pages q = _ from setPage_other hqp] at hq
  · cases hb
    refine ⟨⟨s_bdev, 0, [p], true⟩, p, Heap.cell_alloc _ _, rfl, rfl, fun a ha => ?_, ?_, ?_⟩
    · exact (c.bios.cell_alloc_of_ne _ ha).trans (hempty a)
    · rw [show (c.pass p).pages p = _ from setPage_self]
      exact ⟨rfl, hunlocks⟩
    · intro q hq
      rw [show (c.pass p).pages q = _ from setPage_other hq]
      exact hdone q

/-- The bio in flight completes: its page is unlocked, and it is put. -/
lemma Inv.complete {bio : Bio} (h : c.Inv) (hcell : c.bios.cell b = some bio) :
    ((c.finish b bio true).example_end_io b bio true).Inv := by
  obtain ⟨p, hvec, hothers, hwaits, hdone⟩ := h.only_bio hcell
  have hlast : bio.bi_io_vec.getLast? = some p := by
    rw [hvec]
    rfl
  simp only [example_end_io, hlast]
  refine ⟨fun q hq => ?_, fun _ => ⟨fun a => ?_, fun q => ?_⟩, fun a ha => (nomatch ha)⟩
  · change q ∈ bio.bi_io_vec ++ c.carried
    by_cases hqp : q = p
    · rw [hvec, hqp]
      exact List.mem_append_left _ List.mem_cons_self
    · refine List.mem_append_right _ (h.uptodate q ?_)
      change (((c.finish b bio true).SetPageUptodate p).unlock_page p).pages q |>.uptodate at hq
      rwa [unlock_page, setPage_other hqp, SetPageUptodate, setPage_other hqp] at hq
  · change ((c.bios.modify b _).free b).cell a = none
    by_cases hab : a = b
    · rw [hab, Heap.cell_free]
    · rw [Heap.cell_free_of_ne _ hab, Heap.cell_modify_of_ne _ _ hab]
      exact hothers a hab
  · change Page.Done ((((c.finish b bio true).SetPageUptodate p).unlock_page p).pages q)
    by_cases hqp : q = p
    · rw [hqp, unlock_page, setPage_self, SetPageUptodate, setPage_self]
      change if (c.pages p).passed then (c.pages p).unlocks + 1 = 1 ∧ false = false
        else (c.pages p).unlocks + 1 = 0
      rw [if_pos hwaits.passed, hwaits.unlocks]
      exact ⟨rfl, rfl⟩
    · rw [unlock_page, setPage_other hqp, SetPageUptodate, setPage_other hqp]
      exact hdone q hqp

/-- The two kinds of steps. -/
lemma step_cases {a : Action} (hstep : reads.step c a c') :
    (∃ s_bdev p, a = .readpage s_bdev p ∧ (c.pages p).passed = false ∧
        c' = (c.pass p).example_readpage s_bdev p) ∨
      ∃ b uptodate bio, a = .complete b uptodate ∧ c.bios.cell b = some bio ∧
        bio.inFlight = true ∧ c' = (c.finish b bio uptodate).example_end_io b bio uptodate := by
  have hnext : c.next a = some c' := hstep
  cases a with
  | readpage s_bdev p =>
    rw [next] at hnext
    split_ifs at hnext with hpassed
    exact Or.inl ⟨s_bdev, p, rfl, Bool.eq_false_iff.mpr hpassed,
      (Option.some.inj hnext).symm⟩
  | complete b uptodate =>
    rw [next] at hnext
    split at hnext
    · next bio hcell =>
      split_ifs at hnext with hflight
      exact Or.inr ⟨b, uptodate, bio, rfl, hcell, hflight, (Option.some.inj hnext).symm⟩
    · cases hnext

lemma Inv.step {a : Action} (h : c.Inv) (hok : ReadOk c a) (hstep : reads.step c a c') :
    c'.Inv := by
  rcases step_cases hstep with ⟨s_bdev, p, rfl, hp, rfl⟩ | ⟨b, uptodate, bio, rfl, hcell, -, rfl⟩
  · exact h.readpage hok hp s_bdev
  · rw [show uptodate = true from hok]
    exact h.complete hcell

lemma inv_init : init.Inv :=
  ⟨fun _ h => (nomatch h), fun _ => ⟨fun _ => rfl, fun _ => rfl⟩, fun _ h => (nomatch h)⟩

/-! ### Pages that are lost -/

/-- A page that is waiting, and that no bio in flight carries. -/
structure Lost (c : Cache) (p : ℕ) : Prop where
  waits : (c.pages p).Waits
  alone : ∀ b bio, c.bios.cell b = some bio → bio.inFlight = true → p ∉ bio.bi_io_vec

/-- Another page is passed. -/
lemma Lost.readpage (h : c.Lost p) (hq : (c.pages q).passed = false) (s_bdev : ℕ) :
    ((c.pass q).example_readpage s_bdev q).Lost p := by
  have hpq : p ≠ q := by
    rintro rfl
    rw [h.waits.passed] at hq
    cases hq
  have hpage : (c.pass q).pages p = c.pages p := setPage_other hpq
  rw [example_readpage]
  split
  · refine ⟨?_, fun a bio ha hflight => ?_⟩
    · change Page.Waits ((c.pass q).pages p)
      rw [hpage]
      exact h.waits
    · by_cases han : a = c.bios.next
      · have hnew : (c.bios.alloc ⟨s_bdev, 0, [q], true⟩).cell a = some ⟨s_bdev, 0, [q], true⟩ := by
          rw [han]
          exact Heap.cell_alloc _ _
        cases hnew.symm.trans ha
        exact fun hp => hpq (List.mem_singleton.mp hp)
      · refine h.alone a bio ?_ hflight
        rw [← c.bios.cell_alloc_of_ne _ han]
        exact ha
  · refine ⟨?_, h.alone⟩
    rw [hpage]
    exact h.waits

/-- A bio that completes is not in flight any more, and the others are as they were. -/
lemma cell_finish {bio x : Bio} {uptodate : Bool} {a : ℕ}
    (ha : (c.finish b bio uptodate).bios.cell a = some x) (hflight : x.inFlight = true) :
    a ≠ b ∧ c.bios.cell a = some x := by
  by_cases hab : a = b
  · rw [hab] at ha
    have hmod : (c.bios.cell b).map (fun bio => { bio with inFlight := false }) = some x := by
      rw [← Heap.cell_modify]
      exact ha
    obtain ⟨y, -, rfl⟩ := Option.map_eq_some_iff.mp hmod
    cases hflight
  · refine ⟨hab, ?_⟩
    rw [← ha]
    exact (c.bios.cell_modify_of_ne _ hab).symm

/-- A bio completes that does not carry the page. -/
lemma Lost.complete {bio : Bio} (h : c.Lost p) (hp : p ∉ bio.bi_io_vec) (uptodate : Bool) :
    ((c.finish b bio uptodate).example_end_io b bio uptodate).Lost p := by
  have hfinish : (c.finish b bio uptodate).Lost p :=
    ⟨h.waits, fun a x ha hflight => h.alone a x (cell_finish ha hflight).2 hflight⟩
  rw [example_end_io]
  split
  · exact hfinish
  · next page hlast =>
    split_ifs
    · exact hfinish
    · have hne : p ≠ page := fun heq => hp (heq ▸ List.mem_of_getLast? hlast)
      refine ⟨?_, fun a x ha hflight => ?_⟩
      · change Page.Waits
          ((((c.finish b bio uptodate).SetPageUptodate page).unlock_page page).pages p)
        rw [unlock_page, setPage_other hne, SetPageUptodate, setPage_other hne]
        exact h.waits
      · by_cases hab : a = b
        · have hnone : ((c.finish b bio uptodate).bios.free b).cell a = none := by
            rw [hab, Heap.cell_free]
          cases hnone.symm.trans ha
        · refine hfinish.alone a x ?_ hflight
          rw [← ha]
          exact (Heap.cell_free_of_ne _ hab).symm

lemma Lost.step {a : Action} (h : c.Lost p) (hstep : reads.step c a c') : c'.Lost p := by
  rcases step_cases hstep with
    ⟨s_bdev, q, -, hq, rfl⟩ | ⟨b, uptodate, bio, -, hcell, hflight, rfl⟩
  · exact h.readpage hq s_bdev
  · exact h.complete (h.alone b bio hcell hflight) uptodate

/-- A page that is passed while `private_bio` is set, or whose bio fails, is lost. -/
lemma Inv.lost {a : Action} (h : c.Inv) (hno : ¬ ReadOk c a) (hstep : reads.step c a c') :
    ∃ p, c'.Lost p := by
  rcases step_cases hstep with
    ⟨s_bdev, q, rfl, hq, rfl⟩ | ⟨b, uptodate, bio, rfl, hcell, hflight, rfl⟩
  · obtain ⟨b, hb⟩ := Option.ne_none_iff_exists'.mp hno
    obtain ⟨bio, p, hcell, -, hvec, hothers, hwaits, hdone⟩ := h.busy b hb
    have hqp : q ≠ p := by
      rintro rfl
      rw [hwaits.passed] at hq
      cases hq
    have hunlocks : (c.pages q).unlocks = 0 := unlocks_eq_zero (hdone q hqp) hq
    have hb' : (c.pass q).private_bio = some b := hb
    simp only [example_readpage, hb']
    refine ⟨q, ?_, fun a x ha _ => ?_⟩
    · rw [pass, setPage_self]
      exact ⟨rfl, hunlocks⟩
    · have ha' : c.bios.cell a = some x := ha
      by_cases hab : a = b
      · rw [hab, hcell] at ha'
        cases ha'
        rw [hvec]
        exact fun hmem => hqp (List.mem_singleton.mp hmem)
      · rw [hothers a hab] at ha'
        cases ha'
  · have hfails : uptodate = false := Bool.eq_false_iff.mpr hno
    obtain ⟨p, -, hothers, hwaits, -⟩ := h.only_bio hcell
    have hfinish : (c.finish b bio uptodate).Lost p := by
      refine ⟨hwaits, fun a x ha hx => ?_⟩
      obtain ⟨hab, ha'⟩ := cell_finish ha hx
      rw [hothers a hab] at ha'
      cases ha'
    refine ⟨p, ?_⟩
    rw [example_end_io]
    split
    · exact hfinish
    · rw [if_pos (by rw [hfails]; rfl)]
      exact hfinish

end Cache

end QuickDevSkeleton.PageCache
