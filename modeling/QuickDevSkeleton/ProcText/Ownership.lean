import QuickDevSkeleton.Foundations.System
import QuickDevSkeleton.ProcText.Device

/-!
# Who owns the block of `ker_buf`

Reads and writes of the proc file in any order, and then the exit. `ker_buf` owns its block: it must
never point to a freed one, and nothing else may be allocated.
-/

namespace QuickDevSkeleton.ProcText

open Foundations

/-- The globals, whether the kernel has met a freed block, and whether the module is gone. -/
structure Module where
  globals : Globals
  oops : Bool
  exited : Bool

inductive ModuleAct where
  | write (alloc : Bool) (data : List UInt8) (c : UserCopy)
  | read (behind : List UInt8)
  | exit

namespace Module

variable (m : Module)

def perform {α : Type} (x : Exec Globals α) (exited : Bool) : Module :=
  ⟨(x m.globals).2, (x m.globals).1.isNone, exited⟩

/-- One call. -/
def act : ModuleAct → Module
  | .write alloc data c => m.perform (proc_write alloc data c) false
  | .read behind => m.perform (proc_read behind) false
  | .exit => m.perform my_exit true

/-- After an oops, or once the module is gone, there are no more calls. -/
def next (a : ModuleAct) : Option Module :=
  if m.oops ∨ m.exited then none else some (m.act a)

/-- The module after `my_init`. -/
def init : Module where
  globals := ⟨.null, Heap.empty⟩
  oops := false
  exited := false

end Module

/-- The module under calls. -/
def calls : System Module ModuleAct :=
  System.ofPartial Module.next

/-- A block that `ker_buf` points to is allocated. -/
def Globals.Owns (g : Globals) : Prop :=
  ∀ p, g.ker_buf = .block p → g.heap.cell p ≠ none

/-- No freed block was freed again or read; while the module is loaded, `ker_buf` owns what it
points to; and an exit has left no block allocated. -/
structure Module.Owned (m : Module) : Prop where
  safe : m.oops = false
  owns : m.exited = false → m.globals.Owns
  freed : m.exited = true → ∀ p, m.globals.heap.cell p = none

/-- A write that gets its block copies all of the caller's bytes. -/
def CopyOk (_ : Module) : ModuleAct → Prop
  | .write alloc data c => alloc = true → c.missing data.length = 0
  | _ => True

/-- The block at `ker_buf` is allocated, and no other. -/
structure Globals.Sound (g : Globals) : Prop where
  owns : g.Owns
  only : ∀ p, g.heap.cell p ≠ none → g.ker_buf = .block p

/-! ### The functions -/

section

variable {g : Globals} {p : ℕ} {data : List UInt8} {c : UserCopy}

lemma kfree_block (h : g.heap.cell p ≠ none) :
    kfree (.block p) g = (some (), { g with heap := g.heap.free p }) := by
  simp only [kfree, Exec.withState_run, if_pos (Option.isSome_iff_ne_none.mpr h)]
  rfl

/-- A pointer to no block owns an empty heap. -/
lemma Globals.Sound.empty (h : g.Sound) (hbuf : ∀ p, g.ker_buf ≠ .block p) (p : ℕ) :
    g.heap.cell p = none := by
  by_contra hlive
  exact hbuf p (h.only p hlive)

/-- `kfree(ker_buf)` leaves no block allocated. -/
lemma kfree_run (h : g.Sound) : ∃ heap, kfree g.ker_buf g = (some (), { g with heap := heap }) ∧
    ∀ p, heap.cell p = none := by
  obtain ⟨buf, heap⟩ := g
  cases buf with
  | null => exact ⟨heap, rfl, h.empty fun _ hbuf => nomatch hbuf⟩
  | zeroSize => exact ⟨heap, rfl, h.empty fun _ hbuf => nomatch hbuf⟩
  | block p =>
    refine ⟨heap.free p, kfree_block (h.owns p rfl), fun q => ?_⟩
    by_cases hqp : q = p
    · rw [hqp]
      exact heap.cell_free p
    · rw [heap.cell_free_of_ne hqp]
      by_contra hlive
      exact hqp (Ptr.block.inj (h.only q hlive)).symm

/-- On an empty heap `kzalloc` gives `ker_buf` what it owns. -/
lemma Globals.sound_kzalloc (h : ∀ p, g.heap.cell p = none) (alloc : Bool) (count : ℕ) :
    (g.kzalloc alloc count).Sound := by
  cases alloc with
  | false => exact ⟨fun _ hbuf => (nomatch hbuf), fun p hlive => absurd (h p) hlive⟩
  | true =>
    rw [Globals.kzalloc, if_pos rfl]
    split_ifs
    · exact ⟨fun _ hbuf => (nomatch hbuf), fun p hlive => absurd (h p) hlive⟩
    · refine ⟨fun p hbuf => ?_, fun p hlive => ?_⟩
      · cases hbuf
        exact Option.ne_none_iff_exists'.mpr ⟨_, g.heap.cell_alloc _⟩
      · by_contra hbuf
        have hp : p ≠ g.heap.next := fun heq => hbuf (congrArg Ptr.block heq.symm)
        exact hlive ((g.heap.cell_alloc_of_ne _ hp).trans (h p))

/-- A copy into the block does not change what is allocated. -/
lemma Globals.Sound.store (h : g.Sound) (bs : List UInt8) :
    (g.store bs).Sound ∧ (g.store bs).ker_buf = g.ker_buf := by
  obtain ⟨buf, heap⟩ := g
  cases buf with
  | null => exact ⟨h, rfl⟩
  | zeroSize => exact ⟨h, rfl⟩
  | block p =>
    have hsame : ∀ q, (heap.modify p fun b => bs ++ b.drop bs.length).cell q = none ↔
        heap.cell q = none := by
      intro q
      by_cases hqp : q = p
      · rw [hqp, Heap.cell_modify, Option.map_eq_none_iff]
      · rw [heap.cell_modify_of_ne _ hqp]
    exact ⟨⟨fun q hbuf => (hsame q).not.mpr (h.owns q hbuf),
      fun q hlive => h.only q ((hsame q).not.mp hlive)⟩, rfl⟩

/-- A write that finds no memory, or copies everything, keeps the ownership. -/
lemma proc_write_run (h : g.Sound) (alloc : Bool)
    (hcopy : alloc = true → c.missing data.length = 0) :
    ∃ r g', proc_write alloc data c g = (some r, g') ∧ g'.Sound := by
  obtain ⟨heap, hfree, hempty⟩ := kfree_run h
  have hfree' : (Exec.withState fun g => kfree g.ker_buf) g =
      (some (), { g with heap := heap }) := hfree
  let g₁ := Globals.kzalloc { g with heap := heap } alloc data.length
  have hsound : g₁.Sound := Globals.sound_kzalloc hempty alloc data.length
  rw [proc_write, Exec.bind_run_some hfree', Exec.modify_bind, Exec.withState_run]
  by_cases hnull : g₁.ker_buf = .null
  · rw [if_pos hnull]
    exact ⟨_, _, rfl, hsound⟩
  · have hall : c.missing data.length = 0 := by
      cases alloc with
      | false => exact absurd rfl hnull
      | true => exact hcopy rfl
    rw [if_neg hnull, Exec.modify_bind, if_neg (not_not.mpr hall)]
    exact ⟨_, _, rfl, (hsound.store _).1⟩

/-- A write that gets its block and does not copy everything leaves `ker_buf` at the block that it
has freed. -/
lemma proc_write_fault (h : g.Sound) (hmissing : c.missing data.length ≠ 0) :
    ∃ g', proc_write true data c g = (some (-EFAULT), g') ∧ ¬ g'.Owns := by
  obtain ⟨heap, hfree, hempty⟩ := kfree_run h
  have hfree' : (Exec.withState fun g => kfree g.ker_buf) g =
      (some (), { g with heap := heap }) := hfree
  have hlen : data.length ≠ 0 := by
    intro hzero
    rw [hzero] at hmissing
    exact hmissing (Nat.zero_sub _)
  let g₁ := Globals.kzalloc { g with heap := heap } true data.length
  have hbuf : g₁.ker_buf = .block heap.next := by
    simp only [g₁, Globals.kzalloc, if_true, if_neg hlen]
  have hsound : g₁.Sound := Globals.sound_kzalloc hempty true data.length
  obtain ⟨hstored, hsame⟩ := hsound.store (c.stored data)
  have hnull : g₁.ker_buf ≠ .null := fun hno => nomatch hbuf.symm.trans hno
  have hfreed : kfree g₁.ker_buf (g₁.store (c.stored data)) = (some (),
      { g₁.store (c.stored data) with
        heap := (g₁.store (c.stored data)).heap.free heap.next }) := by
    rw [hbuf]
    exact kfree_block (hstored.owns _ (hsame.trans hbuf))
  refine ⟨{ g₁.store (c.stored data) with
    heap := (g₁.store (c.stored data)).heap.free heap.next }, ?_,
    fun howns => howns heap.next (hsame.trans hbuf) (Heap.cell_free _ _)⟩
  rw [proc_write, Exec.bind_run_some hfree', Exec.modify_bind, Exec.withState_run, if_neg hnull,
    Exec.modify_bind, if_pos hmissing, Exec.bind_run_some hfreed]
  rfl

lemma proc_read_run (h : g.Owns) (behind : List UInt8) :
    ∃ text, proc_read behind g = (some text, g) := by
  obtain ⟨buf, heap⟩ := g
  cases buf with
  | null => exact ⟨_, rfl⟩
  | zeroSize => exact ⟨_, rfl⟩
  | block p =>
    obtain ⟨b, hb⟩ : ∃ b, heap.cell p = some b := Option.ne_none_iff_exists'.mp (h p rfl)
    refine ⟨cstring (b ++ behind) ++ ascii "\n", ?_⟩
    simp only [proc_read, Exec.withState_run, hb]
    rfl

end

namespace Module

variable {m m' : Module}

/-- What the calls keep. -/
structure Inv (m : Module) : Prop extends m.Owned where
  only : m.exited = false → m.globals.Sound

/-- A step is a call to a module that is loaded. -/
lemma eq_of_step {a : ModuleAct} (hstep : calls.step m a m') :
    m.exited = false ∧ m' = m.act a := by
  have hnext : m.next a = some m' := hstep
  rw [next] at hnext
  split_ifs at hnext with h
  exact ⟨Bool.eq_false_of_not_eq_true fun he => h (Or.inr he), (Option.some.inj hnext).symm⟩

/-- A call that ends in sound globals. -/
lemma inv_perform {α : Type} {x : Exec Globals α} {r : α} {g : Globals}
    (hrun : x m.globals = (some r, g)) (hg : g.Sound) : (m.perform x false).Inv := by
  rw [perform, hrun]
  exact ⟨⟨rfl, fun _ => hg.owns, fun he => (nomatch he)⟩, fun _ => hg⟩

lemma Inv.step {a : ModuleAct} (h : m.Inv) (hok : CopyOk m a) (hstep : calls.step m a m') :
    m'.Inv := by
  obtain ⟨hloaded, rfl⟩ := eq_of_step hstep
  have hsound := h.only hloaded
  cases a with
  | write alloc data c =>
    obtain ⟨r, g', hrun, hg'⟩ := proc_write_run hsound alloc hok
    exact inv_perform hrun hg'
  | read behind =>
    obtain ⟨text, hrun⟩ := proc_read_run hsound.owns behind
    exact inv_perform hrun hsound
  | exit =>
    obtain ⟨heap, hrun, hempty⟩ := kfree_run hsound
    have hexit : my_exit m.globals = (some (), { m.globals with heap := heap }) := hrun
    change (m.perform my_exit true).Inv
    rw [perform, hexit]
    exact ⟨⟨rfl, fun he => (nomatch he), fun _ => hempty⟩, fun he => (nomatch he)⟩

lemma Inv.not_owned {a : ModuleAct} (h : m.Inv) (hno : ¬ CopyOk m a)
    (hstep : calls.step m a m') : ¬ m'.Owned := by
  obtain ⟨hloaded, rfl⟩ := eq_of_step hstep
  have hsound := h.only hloaded
  cases a with
  | write alloc data c =>
    have hfail : alloc = true ∧ c.missing data.length ≠ 0 := by
      simpa [CopyOk] using hno
    obtain ⟨rfl, hmissing⟩ := hfail
    obtain ⟨g', hrun, hg'⟩ := proc_write_fault hsound hmissing
    change ¬ (m.perform (proc_write true data c) false).Owned
    rw [perform, hrun]
    exact fun howned => hg' (howned.owns rfl)
  | read behind => exact absurd trivial hno
  | exit => exact absurd trivial hno

lemma inv_init : init.Inv :=
  ⟨⟨rfl, fun _ _ hbuf => (nomatch hbuf), fun he => (nomatch he)⟩,
    fun _ => ⟨fun _ hbuf => (nomatch hbuf), fun _ hlive => absurd rfl hlive⟩⟩

end Module

/-- The runs in which `ker_buf` never points to a freed block, no block is freed twice or read after
it was freed, and the exit leaves nothing allocated, are those in which every write that gets its
block copies all of its bytes. -/
theorem owned_iff_copyOk (tr : List (ModuleAct × Module)) (hrun : calls.Run Module.init tr) :
    System.Always Module.Owned Module.init tr ↔ System.Along CopyOk Module.init tr :=
  hrun.always_iff_along (fun _ h => h.toOwned) (fun _ _ _ => Module.Inv.step)
    (fun _ _ _ => Module.Inv.not_owned) Module.inv_init

/-- A text is written, read and replaced, and the module is unloaded. -/
theorem owned_iff_copyOk_replace :
    ∃ tr, calls.Run Module.init tr ∧
      tr.map Prod.fst = [.write true [104, 105] ⟨2, false⟩, .read [0], .write true [] ⟨0, false⟩,
        .exit] ∧
      System.Always Module.Owned Module.init tr := by
  have h : (System.final Module.next Module.init [.write true [104, 105] ⟨2, false⟩, .read [0],
      .write true [] ⟨0, false⟩, .exit]).isSome := by
    decide +kernel
  obtain ⟨tr, hrun, hacts⟩ := System.exists_run_of_isSome h
  refine ⟨tr, hrun, hacts, (owned_iff_copyOk tr hrun).mpr (System.along_of_labels ?_)⟩
  rw [hacts]
  simp [CopyOk, UserCopy.missing]

/-- A write whose copy fails frees the block and keeps the pointer; the exit frees it again. -/
theorem freed_twice :
    ∃ tr, calls.Run Module.init tr ∧
      tr.map Prod.fst = [.write true [104, 105] ⟨1, false⟩, .exit] ∧
      ¬ System.Always Module.Owned Module.init tr := by
  have h : (System.final Module.next Module.init [.write true [104, 105] ⟨1, false⟩, .exit]).map
      (fun m => m.oops) = some true := by
    decide +kernel
  refine System.exists_run_not_always h fun m hoops howned => ?_
  have hsafe := howned.safe
  rw [hoops] at hsafe
  cases hsafe

end QuickDevSkeleton.ProcText
