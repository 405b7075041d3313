import QuickDevSkeleton.BlockRead.Data
import QuickDevSkeleton.BlockRead.Sleep
import QuickDevSkeleton.ChunkedRead.Switch

/-!
# One open file of a bio

The reads of `fs/block_page_read/read.c` that one open file makes one after the other, on a device
whose block 0 does not change. None of them overlaps with another, so that each fills the buffer
from its own bio, and copies from the start of it.
-/

namespace QuickDevSkeleton.ChunkedRead

open Foundations BlockRead

/-- The call has returned. -/
def done : Pc → Bool
  | .returned _ _ => true
  | _ => false

/-- `private_bio` may be the bio of the call. -/
def holds : Pc → Bool
  | .load_bio | .set_bdev _ | .add_page _ | .submit_bio _ => true
  | pc => pc.waits.isSome

/-- The position at which the file is when its `i`-th call is made. -/
def start (w : World) : ℕ → ℕ
  | 0 => 0
  | i + 1 => (w.calls i).pp

/-- A read is made when all before it have returned, at the position where they have left the file
and by a caller with room for what it asks for; and a bio that succeeds brings the block, of which
the file is the first bytes. -/
def OneFile (dev : ℕ) (content : Memory UInt8) (w : World) : Action → Prop
  | .read d len pp user =>
    (∀ i < w.ncalls, done (w.calls i).pc = true) ∧ d = dev ∧ pp = start w w.ncalls ∧
      len ≤ user.moved
  | .complete _ data uptodate => uptodate = true → data.read 0 FILE_LEN = content.read 0 FILE_LEN
  | .step _ | .end_io _ => True

instance (dev : ℕ) (content : Memory UInt8) (w : World) (a : Action) :
    Decidable (OneFile dev content w a) :=
  match a with
  | .read _ _ _ _ => inferInstanceAs (Decidable (_ ∧ _))
  | .complete _ _ _ => inferInstanceAs (Decidable (_ → _))
  | .step _ | .end_io _ => .isTrue trivial

/-- A call that has returned did what the end of `example_read` does with the block. -/
def Served (content : Memory UInt8) (pp : ℕ) (c : Call) : Prop :=
  if done c.pc then
    c.pc = .returned (readSwitch (fun _ => content) c.len pp c.user).ret
      (readSwitch (fun _ => content) c.len pp c.user).bytes ∧
    c.pp = (readSwitch (fun _ => content) c.len pp c.user).pp
  else c.pp = pp

/-- What the actions of one file keep: only the last call is in progress, and the bio and the
requests in progress are those of a call. -/
structure OneByOne (dev : ℕ) (content : Memory UInt8) (w : World) : Prop where
  inv : Inv w
  before : ∀ i, i + 1 < w.ncalls → done (w.calls i).pc = true
  args : ∀ i < w.ncalls, (w.calls i).dev = dev ∧ (w.calls i).len ≤ (w.calls i).user.moved
  served : ∀ i < w.ncalls, Served content (start w i) (w.calls i)
  holder : w.private_bio ≠ none → ∃ i, holds (w.calls i).pc = true
  waiter : ∀ r, (w.reqs r).stage ≠ .completed → ∃ i, (w.calls i).pc.waits = some r
  cleared : ∀ r, (w.reqs r).stage = .wake_up → w.private_bio = none
  brought : ∀ x ∈ w.completed, x.2.read 0 FILE_LEN = content.read 0 FILE_LEN

lemma holds_of_waits {pc : Pc} {r : ℕ} (h : pc.waits = some r) : holds pc = true := by
  cases pc with
  | prepare_to_wait | schedule | asleep => exact Option.isSome_iff_exists.mpr ⟨r, h⟩
  | _ => cases h

/-- A call is in progress. -/
def busy (pc : Pc) : Bool :=
  !done pc && pc != .idle

lemma busy_of_holds {pc : Pc} (h : holds pc = true) : busy pc = true := by
  cases pc with
  | idle | returned => cases h
  | _ => rfl

namespace OneByOne

variable {dev : ℕ} {content : Memory UInt8} {w w' : World}

lemma init (pages : ℕ → Memory UInt8) : OneByOne dev content (World.init pages) where
  inv := Inv.init pages
  before _ hi := nomatch hi
  args _ hi := nomatch hi
  served _ hi := nomatch hi
  holder hno := absurd rfl hno
  waiter _ hno := absurd rfl hno
  cleared _ hno := nomatch hno
  brought _ hx := nomatch hx

/-! ### The call in progress -/

/-- Only the last call is in progress. -/
lemma eq_last (h : OneByOne dev content w) {i : ℕ} (hi : busy (w.calls i).pc = true) :
    i + 1 = w.ncalls := by
  have hlt : i < w.ncalls := by
    refine World.lt_ncalls h.inv.owners.fresh fun hidle => ?_
    rw [hidle] at hi
    cases hi
  by_contra hno
  have hdone := h.before i (by omega)
  rw [busy, hdone] at hi
  cases hi

lemma only (h : OneByOne dev content w) {i j : ℕ} (hi : busy (w.calls i).pc = true)
    (hj : busy (w.calls j).pc = true) : j = i := by
  have hi' := h.eq_last hi
  have hj' := h.eq_last hj
  omega

lemma bio_held (h : OneByOne dev content w) {i : ℕ} (hi : busy (w.calls i).pc = true)
    (hbio : w.private_bio ≠ none) : holds (w.calls i).pc = true := by
  obtain ⟨j, hj⟩ := h.holder hbio
  rw [← h.only hi (busy_of_holds hj)]
  exact hj

lemma req_awaited (h : OneByOne dev content w) {i r : ℕ} (hi : busy (w.calls i).pc = true)
    (hr : (w.reqs r).stage ≠ .completed) : (w.calls i).pc.waits = some r := by
  obtain ⟨j, hj⟩ := h.waiter r hr
  rw [← h.only hi (busy_of_holds (holds_of_waits hj))]
  exact hj

lemma all_completed (h : OneByOne dev content w) {i : ℕ} (hi : busy (w.calls i).pc = true)
    (hnone : (w.calls i).pc.waits = none) (r : ℕ) : (w.reqs r).stage = .completed := by
  by_contra hr
  cases hnone.symm.trans (h.req_awaited hi hr)

/-- Without overlap, the buffer is that of the call's own device. -/
lemma overlapOk (h : OneByOne dev content w) {i : ℕ} (hi : busy (w.calls i).pc = true) :
    OverlapOk w (.step i) := by
  have hlt : i < w.ncalls := Nat.lt_of_succ_le (h.eq_last hi).le
  change (w.calls i).pc.OverlapOk w (w.calls i)
  cases hpc : (w.calls i).pc with
  | alloc_page =>
    refine ⟨fun j _ => ?_, fun r _ => Or.inl ?_⟩
    · by_cases hj : busy (w.calls j).pc = true
      · rw [h.only hi hj, hpc]
        exact ⟨rfl, fun hno => nomatch hno⟩
      · cases hpj : (w.calls j).pc with
        | idle | returned => exact ⟨rfl, fun hno => nomatch hno⟩
        | _ =>
          rw [hpj] at hj
          exact absurd rfl hj
    · exact h.all_completed hi (by rw [hpc]; rfl) r
  | test =>
    left
    by_contra hbio
    have hheld := h.bio_held hi hbio
    rw [hpc] at hheld
    cases hheld
  | copy =>
    have hroom := (h.args i hlt).2
    change (w.calls i).count ≤ (w.calls i).user.moved
    rw [Call.count]
    split <;> omega
  | _ => trivial

/-! ### Statements -/

lemma start_congr (h : ∀ i, (w'.calls i).pp = (w.calls i).pp) (i : ℕ) : start w' i = start w i := by
  cases i with
  | zero => rfl
  | succ i => exact h i

lemma served_busy {pp : ℕ} {c : Call} (hc : busy c.pc = true) :
    Served content pp c ↔ c.pp = pp := by
  have hdone : done c.pc ≠ true := by
    intro hyes
    rw [busy, hyes] at hc
    cases hc
  rw [Served, if_neg hdone]

/-- The call in progress goes on, and keeps the bio and the request if there are any. -/
lemma move (h : OneByOne dev content w) {i : ℕ} {pc : Pc} (hi : busy (w.calls i).pc = true)
    (hinv : Inv w') (hcalls : w'.calls = Function.update w.calls i ((w.calls i).goto pc))
    (hn : w'.ncalls = w.ncalls) (hcompleted : w'.completed = w.completed) (hpc : busy pc = true)
    (hholder : w'.private_bio ≠ none → holds pc = true)
    (hwaiter : ∀ r, (w'.reqs r).stage ≠ .completed → pc.waits = some r)
    (hcleared : ∀ r, (w'.reqs r).stage = .wake_up → w'.private_bio = none) :
    OneByOne dev content w' := by
  have hself : w'.calls i = (w.calls i).goto pc := by rw [hcalls, Function.update_self]
  have hother : ∀ j, j ≠ i → w'.calls j = w.calls j := fun j hj => by
    rw [hcalls, Function.update_of_ne hj]
  have hsame : ∀ j, (w'.calls j).pp = (w.calls j).pp := by
    intro j
    by_cases hj : j = i
    · rw [hj, hself]
      rfl
    · rw [hother j hj]
  have hlast := h.eq_last hi
  refine ⟨hinv, fun j hj => ?_, fun j hj => ?_, fun j hj => ?_, fun hbio => ⟨i, ?_⟩,
    fun r hr => ⟨i, ?_⟩, hcleared, fun x hx => h.brought x (hcompleted ▸ hx)⟩
  · rw [hother j (by omega)]
    exact h.before j (by omega)
  · by_cases hji : j = i
    · rw [hji, hself]
      exact h.args i (by omega)
    · rw [hother j hji]
      exact h.args j (hn ▸ hj)
  · rw [start_congr hsame]
    by_cases hji : j = i
    · rw [hji, hself, served_busy hpc]
      exact (served_busy hi).mp (h.served i (by omega))
    · rw [hother j hji]
      exact h.served j (hn ▸ hj)
  · rw [hself]
    exact hholder hbio
  · rw [hself]
    exact hwaiter r hr

/-- The end of `example_read` delivers from the buffer what it would deliver from the block. -/
lemma finish_served {buffer : Memory UInt8} {c : Call}
    (hbuffer : ∀ i < FILE_LEN, buffer i = content i) : Served content c.pp (c.finish buffer) := by
  have hread : ∀ n ≤ FILE_LEN, buffer.read 0 n = content.read 0 n := by
    intro n hn
    apply Memory.read_eq_iff.mpr
    intro i hi
    rw [Nat.zero_add]
    exact hbuffer i (by omega)
  have hdone : done (c.finish buffer).pc = true := rfl
  rw [Served, if_pos hdone]
  change Pc.returned c.count (c.user.copy_to_user buffer 0 c.count).1 =
    .returned (readSwitch (fun _ => content) c.len c.pp c.user).ret
      (readSwitch (fun _ => content) c.len c.pp c.user).bytes ∧
    c.pp + c.count = (readSwitch (fun _ => content) c.len c.pp c.user).pp
  by_cases hpast : FILE_LEN < c.pp
  · have hcount : c.count = 0 := if_pos hpast
    rw [readSwitch_of_lt hpast, hcount, Nat.add_zero]
    exact ⟨by rw [UserCopy.copy_to_user, Nat.min_zero, Memory.read_zero], rfl⟩
  · have hcount : c.count = min c.len (FILE_LEN - c.pp) := if_neg hpast
    rw [readSwitch_of_le (not_lt.mp hpast), hcount, UserCopy.copy_to_user,
      hread _ ((Nat.min_le_right _ _).trans ((Nat.min_le_right _ _).trans (Nat.sub_le _ _)))]
    exact ⟨rfl, rfl⟩

/-- The buffer of a call that is past its wait begins with the bytes of the block. -/
lemma buffer_filled (h : OneByOne dev content w) {i : ℕ} (hpc : (w.calls i).pc = .copy) :
    ∀ k < FILE_LEN, w.buffer k = content k := by
  have hfilled : w.filled = some (w.calls i).dev := by
    apply (h.inv.calls i).ready
    rw [hpc]
    rfl
  obtain ⟨data, hdata, hread⟩ := h.inv.filled _ hfilled
  intro k hk
  have hpage := Memory.read_eq_iff.mp hread k (hk.trans (by decide))
  have hblock := Memory.read_eq_iff.mp (h.brought _ hdata) k hk
  simpa only [Nat.zero_add] using hpage.trans hblock

/-- The call in progress returns. -/
lemma copy (h : OneByOne dev content w) {i : ℕ} (hpc : (w.calls i).pc = .copy) :
    OneByOne dev content (w.setCall i ((w.calls i).finish w.buffer)) := by
  have hi : busy (w.calls i).pc = true := by rw [hpc]; rfl
  have hlast := h.eq_last hi
  have hnone : w.private_bio = none := by
    by_contra hbio
    have hheld := h.bio_held hi hbio
    rw [hpc] at hheld
    cases hheld
  have hquiet := h.all_completed hi (by rw [hpc]; rfl)
  have hself : (w.setCall i ((w.calls i).finish w.buffer)).calls i =
      (w.calls i).finish w.buffer := World.calls_setCall_self
  have hother : ∀ j, j ≠ i → (w.setCall i ((w.calls i).finish w.buffer)).calls j = w.calls j :=
    fun j hj => World.calls_setCall_of_ne hj
  have hstart : ∀ j < w.ncalls,
      start (w.setCall i ((w.calls i).finish w.buffer)) j = start w j := by
    intro j hj
    cases j with
    | zero => rfl
    | succ j =>
      change ((w.setCall i ((w.calls i).finish w.buffer)).calls j).pp = _
      rw [hother j (by omega)]
      rfl
  have hinv : Inv (w.setCall i ((w.calls i).finish w.buffer)) := by
    have hoverlap := h.overlapOk hi
    change (w.calls i).pc.OverlapOk w (w.calls i) at hoverlap
    rw [hpc] at hoverlap
    exact h.inv.copy hpc hoverlap
  refine ⟨hinv, fun j hj => ?_, fun j hj => ?_, fun j hj => ?_, fun hbio => absurd hnone hbio,
    fun r hr => absurd (hquiet r) hr, fun r _ => hnone, h.brought⟩
  · have hjn : j + 1 < w.ncalls := hj
    rw [hother j (by omega)]
    exact h.before j hj
  · by_cases hji : j = i
    · rw [hji, hself]
      exact h.args i (by omega)
    · rw [hother j hji]
      exact h.args j hj
  · rw [hstart j hj]
    by_cases hji : j = i
    · rw [hji, hself, ← (served_busy hi).mp (h.served i (by omega))]
      exact finish_served (h.buffer_filled hpc)
    · rw [hother j hji]
      exact h.served j hj

/-- A call that waits for nothing goes on, and waits for nothing. -/
lemma move_quiet (h : OneByOne dev content w) {i : ℕ} {pc : Pc} (hi : busy (w.calls i).pc = true)
    (hnone : (w.calls i).pc.waits = none) (hinv : Inv w')
    (hcalls : w'.calls = Function.update w.calls i ((w.calls i).goto pc))
    (hn : w'.ncalls = w.ncalls) (hcompleted : w'.completed = w.completed)
    (hreqs : w'.reqs = w.reqs) (hpc : busy pc = true)
    (hholder : w'.private_bio ≠ none → holds pc = true) : OneByOne dev content w' := by
  have hquiet (r : ℕ) : (w'.reqs r).stage = .completed := by
    rw [hreqs]
    exact h.all_completed hi hnone r
  exact h.move hi hinv hcalls hn hcompleted hpc hholder (fun r hr => absurd (hquiet r) hr)
    fun r hr => nomatch hr.symm.trans (hquiet r)

/-- The statements of `example_read`. -/
lemma example_read (h : OneByOne dev content w) {i : ℕ} (hstep : w.example_read i = some w') :
    OneByOne dev content w' := by
  have hi : busy (w.calls i).pc = true := by
    cases hpc : (w.calls i).pc with
    | idle | returned =>
      simp only [World.example_read, hpc] at hstep
      cases hstep
    | _ => rfl
  have hinv : Inv w' := h.inv.example_read (h.overlapOk hi) hstep
  have hheld := h.bio_held hi
  have hwaits := fun r => h.req_awaited (r := r) hi
  simp only [World.example_read] at hstep
  cases hpc : (w.calls i).pc with
  | idle | returned | oops =>
    rw [hpc] at hstep
    cases hstep
  | alloc_page =>
    rw [hpc] at hstep hheld
    cases Option.some.inj hstep
    exact h.move_quiet hi (by rw [hpc]; rfl) hinv rfl rfl rfl rfl rfl hheld
  | test =>
    rw [hpc] at hstep hheld
    cases Option.some.inj hstep
    refine h.move_quiet hi (by rw [hpc]; rfl) hinv rfl rfl rfl rfl ?_
      fun hbio => by cases hheld hbio
    split <;> rfl
  | bio_alloc =>
    rw [hpc] at hstep
    cases Option.some.inj hstep
    exact h.move_quiet hi (by rw [hpc]; rfl) hinv rfl rfl rfl rfl rfl fun _ => rfl
  | load_bio =>
    rw [hpc] at hstep
    cases hbio : w.private_bio with
    | none =>
      rw [hbio] at hstep
      cases Option.some.inj hstep
      exact h.move_quiet hi (by rw [hpc]; rfl) hinv rfl rfl rfl rfl rfl fun hno => absurd hbio hno
    | some b =>
      rw [hbio] at hstep
      cases Option.some.inj hstep
      exact h.move_quiet hi (by rw [hpc]; rfl) hinv rfl rfl rfl rfl rfl fun _ => rfl
  | set_bdev | add_page =>
    rw [hpc] at hstep
    cases Option.some.inj hstep
    exact h.move_quiet hi (by rw [hpc]; rfl) hinv rfl rfl rfl rfl rfl fun _ => rfl
  | submit_bio b =>
    have hquiet := h.all_completed hi (by rw [hpc]; rfl)
    rw [hpc] at hstep
    cases Option.some.inj hstep
    refine h.move hi hinv rfl rfl rfl rfl (fun _ => rfl) (fun r hr => ?_) fun r hr => ?_
    · by_cases hnew : r = w.nreqs
      · rw [hnew]
        rfl
      · change (Function.update w.reqs w.nreqs _ r).stage ≠ _ at hr
        rw [Function.update_of_ne hnew] at hr
        exact absurd (hquiet r) hr
    · change (Function.update w.reqs w.nreqs _ r).stage = _ at hr
      by_cases hnew : r = w.nreqs
      · rw [hnew, Function.update_self] at hr
        cases hr
      · rw [Function.update_of_ne hnew] at hr
        cases hr.symm.trans (hquiet r)
  | prepare_to_wait req =>
    rw [hpc] at hstep hwaits
    cases Option.some.inj hstep
    exact h.move hi hinv rfl rfl rfl rfl (fun _ => rfl) hwaits h.cleared
  | schedule req woken =>
    rw [hpc] at hstep hwaits hheld
    cases Option.some.inj hstep
    cases woken with
    | false => exact h.move hi hinv rfl rfl rfl rfl (fun _ => rfl) hwaits h.cleared
    | true => exact h.move_quiet hi (by rw [hpc]; rfl) hinv rfl rfl rfl rfl rfl hheld
  | asleep req woken =>
    rw [hpc] at hstep hheld
    cases woken with
    | false => cases hstep
    | true =>
      cases Option.some.inj hstep
      exact h.move_quiet hi (by rw [hpc]; rfl) hinv rfl rfl rfl rfl rfl hheld
  | finish_wait =>
    rw [hpc] at hstep hheld
    cases Option.some.inj hstep
    exact h.move_quiet hi (by rw [hpc]; rfl) hinv rfl rfl rfl rfl rfl hheld
  | copy =>
    rw [hpc] at hstep
    cases Option.some.inj hstep
    exact h.copy hpc

/-- A request goes on, or ends, with the calls left alone. -/
lemma setStage (h : OneByOne dev content w) {r : ℕ} {st : Stage} (hinv : Inv w')
    (hcalls : w'.calls = w.calls) (hn : w'.ncalls = w.ncalls)
    (hreqs : w'.reqs = Function.update w.reqs r { w.reqs r with stage := st })
    (hlive : (w.reqs r).stage ≠ .completed) (hbio : w'.private_bio ≠ none → w.private_bio ≠ none)
    (hcleared : st = .wake_up → w'.private_bio = none)
    (hbrought : ∀ x ∈ w'.completed, x.2.read 0 FILE_LEN = content.read 0 FILE_LEN) :
    OneByOne dev content w' := by
  have hsame : ∀ i, (w'.calls i).pp = (w.calls i).pp := fun i => by rw [hcalls]
  refine ⟨hinv, fun i hi => ?_, fun i hi => ?_, fun i hi => ?_, fun hno => ?_, fun s hs => ?_,
    fun s hs => ?_, hbrought⟩
  · rw [hcalls]
    exact h.before i (hn ▸ hi)
  · rw [hcalls]
    exact h.args i (hn ▸ hi)
  · rw [hcalls, start_congr hsame]
    exact h.served i (hn ▸ hi)
  · rw [hcalls]
    exact h.holder (hbio hno)
  · rw [hcalls]
    by_cases hsr : s = r
    · rw [hsr]
      exact h.waiter r hlive
    · rw [hreqs, Function.update_of_ne hsr] at hs
      exact h.waiter s hs
  · by_cases hsr : s = r
    · rw [hsr, hreqs, Function.update_self] at hs
      exact hcleared hs
    · rw [hreqs, Function.update_of_ne hsr] at hs
      by_contra hno
      exact hbio hno (h.cleared s hs)

/-- The device ends a request. -/
lemma complete (h : OneByOne dev content w) {r : ℕ} {data : Memory UInt8} {uptodate : Bool}
    (hok : uptodate = true → data.read 0 FILE_LEN = content.read 0 FILE_LEN)
    (hstep : w.complete r data uptodate = some w') : OneByOne dev content w' := by
  have hinv : Inv w' := h.inv.complete hstep
  have hdma : (w.dma r data).calls = w.calls ∧ (w.dma r data).ncalls = w.ncalls ∧
      (w.dma r data).reqs = w.reqs ∧ (w.dma r data).private_bio = w.private_bio ∧
      (w.dma r data).completed = w.completed := by
    rw [World.dma]
    split <;> exact ⟨rfl, rfl, rfl, rfl, rfl⟩
  obtain ⟨hcalls, hn, hreqs, hbio, hcompleted⟩ := hdma
  rw [World.complete] at hstep
  split at hstep
  · next hflight =>
    have hlive : (w.reqs r).stage ≠ .completed := by
      rw [hflight]
      exact Stage.noConfusion
    have hset (st : Stage) : ((w.dma r data).setStage r st).reqs =
        Function.update w.reqs r { w.reqs r with stage := st } := by
      rw [World.setStage, hreqs]
    have hw := Option.some.inj hstep
    cases uptodate with
    | false =>
      rw [if_neg Bool.false_ne_true] at hw
      cases hw
      exact h.setStage hinv hcalls hn (hset .completed) hlive (fun hno => hbio ▸ hno)
        (fun hno => by cases hno) fun x hx => h.brought x (hcompleted ▸ hx)
    | true =>
      rw [if_pos rfl] at hw
      cases hw
      refine h.setStage hinv hcalls hn (hset .show_content) hlive (fun hno => hbio ▸ hno)
        (fun hno => by cases hno) fun x hx => ?_
      rcases List.mem_cons.mp hx with rfl | hx
      · exact hok rfl
      · exact h.brought x hx
  · cases hstep

lemma done_wake (pc : Pc) : done pc.wake = done pc := by
  cases pc <;> rfl

lemma served_wake {pp : ℕ} {c : Call} :
    Served content pp (c.goto c.pc.wake) ↔ Served content pp c := by
  have hdone : done (c.goto c.pc.wake).pc = done c.pc := done_wake c.pc
  rw [Served, Served, hdone]
  by_cases hc : done c.pc = true
  · have hpc : (c.goto c.pc.wake).pc = c.pc := by
      change c.pc.wake = c.pc
      cases hpc : c.pc with
      | returned => rfl
      | _ =>
        rw [hpc] at hc
        cases hc
    rw [if_pos hc, if_pos hc, hpc]
    exact Iff.rfl
  · rw [if_neg hc, if_neg hc]
    exact Iff.rfl

/-- `wake_up_bit` reaches the call in progress. -/
lemma wake_up (h : OneByOne dev content w) {r : ℕ} (hst : (w.reqs r).stage = .wake_up) :
    OneByOne dev content { w.setStage r .completed with
      calls := fun i => (w.calls i).goto (w.calls i).pc.wake } where
  inv := h.inv.wake_up hst
  before i hi := by
    change done (w.calls i).pc.wake = true
    rw [done_wake]
    exact h.before i hi
  args i hi := h.args i hi
  served i hi := by
    have hserved := h.served i hi
    have hstart : start { w.setStage r .completed with
        calls := fun i => (w.calls i).goto (w.calls i).pc.wake } i = start w i :=
      start_congr (fun _ => rfl) i
    rw [hstart]
    exact served_wake.mpr hserved
  holder hno := absurd (h.cleared r hst) hno
  waiter s hs := by
    -- both requests would be those of the one call in progress
    have hlive : (w.reqs r).stage ≠ .completed := by
      rw [hst]
      exact Stage.noConfusion
    obtain ⟨i, hi⟩ := h.waiter r hlive
    have hbusy := busy_of_holds (holds_of_waits hi)
    change (Function.update w.reqs r _ s).stage ≠ _ at hs
    by_cases hsr : s = r
    · rw [hsr, Function.update_self] at hs
      exact absurd rfl hs
    · rw [Function.update_of_ne hsr] at hs
      have hsame := hi.symm.trans (h.req_awaited hbusy hs)
      exact absurd (Option.some.inj hsame).symm hsr
  cleared _ _ := h.cleared r hst
  brought := h.brought

/-- A read is made when all before it have returned. -/
lemma read (h : OneByOne dev content w) {len pp : ℕ} {user : UserCopy}
    (hok : OneFile dev content w (.read dev len pp user)) :
    OneByOne dev content { w.setCall w.ncalls ⟨dev, len, pp, user, .alloc_page⟩ with
      ncalls := w.ncalls + 1 } := by
  obtain ⟨hdone, -, hpp, hroom⟩ := hok
  have hself : (w.setCall w.ncalls ⟨dev, len, pp, user, .alloc_page⟩).calls w.ncalls =
      ⟨dev, len, pp, user, .alloc_page⟩ := World.calls_setCall_self
  have hother : ∀ i < w.ncalls,
      (w.setCall w.ncalls ⟨dev, len, pp, user, .alloc_page⟩).calls i = w.calls i :=
    fun i hi => World.calls_setCall_of_ne (Nat.ne_of_lt hi)
  have hstart : ∀ i ≤ w.ncalls,
      start (w.setCall w.ncalls ⟨dev, len, pp, user, .alloc_page⟩) i = start w i := by
    intro i hi
    cases i with
    | zero => rfl
    | succ i =>
      change ((w.setCall w.ncalls ⟨dev, len, pp, user, .alloc_page⟩).calls i).pp = _
      rw [hother i hi]
      rfl
  have hidle : ∀ i, ¬ busy (w.calls i).pc = true := by
    intro i hi
    have hlast := h.eq_last hi
    have hnot := hdone i (by omega)
    rw [busy, hnot] at hi
    cases hi
  refine ⟨h.inv.read dev len pp user, fun i hi => ?_, fun i hi => ?_, fun i hi => ?_,
    fun hbio => ?_, fun r hr => ?_, h.cleared, h.brought⟩
  · have hlt : i < w.ncalls := Nat.lt_of_succ_lt_succ hi
    change done ((w.setCall w.ncalls _).calls i).pc = true
    rw [hother i hlt]
    exact hdone i hlt
  · change ((w.setCall w.ncalls _).calls i).dev = dev ∧
      _ ≤ ((w.setCall w.ncalls _).calls i).user.moved
    rcases Nat.lt_succ_iff_lt_or_eq.mp hi with hlt | rfl
    · rw [hother i hlt]
      exact h.args i hlt
    · rw [hself]
      exact ⟨rfl, hroom⟩
  · change Served content (start (w.setCall w.ncalls _) i) ((w.setCall w.ncalls _).calls i)
    rw [hstart i (Nat.le_of_lt_succ hi)]
    rcases Nat.lt_succ_iff_lt_or_eq.mp hi with hlt | rfl
    · rw [hother i hlt]
      exact h.served i hlt
    · rw [hself]
      exact (served_busy rfl).mpr hpp
  · obtain ⟨i, hi⟩ := h.holder hbio
    exact absurd (busy_of_holds hi) (hidle i)
  · obtain ⟨i, hi⟩ := h.waiter r hr
    exact absurd (busy_of_holds (holds_of_waits hi)) (hidle i)

lemma step {a : Action} (h : OneByOne dev content w) (hok : OneFile dev content w a)
    (hstep : readers.step w a w') : OneByOne dev content w' := by
  change w.next a = some w' at hstep
  cases a with
  | read d len pp user =>
    cases Option.some.inj hstep
    obtain ⟨-, rfl, -⟩ := id hok
    exact h.read hok
  | step i => exact h.example_read hstep
  | complete r data uptodate => exact h.complete hok hstep
  | end_io r =>
    have hinv : Inv w' := h.inv.step (a := .end_io r) trivial hstep
    simp only [World.next, World.example_end_io] at hstep
    cases hst : (w.reqs r).stage with
    | in_flight | completed =>
      rw [hst] at hstep
      cases hstep
    | show_content =>
      rw [hst] at hstep
      cases Option.some.inj hstep
      exact h.setStage hinv rfl rfl rfl (by rw [hst]; exact Stage.noConfusion) id
        (fun hno => by cases hno) h.brought
    | clear =>
      rw [hst] at hstep
      cases Option.some.inj hstep
      exact h.setStage hinv rfl rfl rfl (by rw [hst]; exact Stage.noConfusion)
        (fun hno => absurd rfl hno) (fun _ => rfl) h.brought
    | wake_up =>
      rw [hst] at hstep
      cases Option.some.inj hstep
      exact h.wake_up hst

end OneByOne

/-! ### What the file delivers -/

/-- The bytes that a call has delivered. -/
def delivered : Pc → List UInt8
  | .returned _ bytes => bytes
  | _ => []

/-- The lengths and copies of the first calls. -/
def requests (w : World) (n : ℕ) : List (ℕ × UserCopy) :=
  (List.range n).map fun i => ((w.calls i).len, (w.calls i).user)

/-- The bytes that the first calls have delivered, one after the other. -/
def deliveries (w : World) (n : ℕ) : List UInt8 :=
  (List.range n).flatMap fun i => delivered (w.calls i).pc

section

variable {dev : ℕ} {content : Memory UInt8} {w : World}

lemma OneByOne.readAll_calls (h : OneByOne dev content w)
    (hdone : ∀ i < w.ncalls, done (w.calls i).pc = true) (m k : ℕ) (hk : k + m = w.ncalls) :
    readAll (fun len pp user => some (readSwitch (fun _ => content) len pp user)) (start w k)
        ((List.range' k m).map fun i => ((w.calls i).len, (w.calls i).user)) =
      some ((List.range' k m).flatMap fun i => delivered (w.calls i).pc) := by
  induction m generalizing k with
  | zero => rfl
  | succ m ih =>
    have hserved := h.served k (by omega)
    rw [Served, if_pos (hdone k (by omega))] at hserved
    obtain ⟨hpc, hpp⟩ := hserved
    have hrest := ih (k + 1) (by omega)
    rw [List.range'_succ, List.map_cons, readAll, Option.bind_some, List.flatMap_cons, hpc, ← hpp]
    change (readAll _ (start w (k + 1)) _).map _ = _
    rw [hrest]
    rfl

/-- What all calls have delivered is what the end of `example_read` delivers from the block. -/
lemma OneByOne.readAll_eq (h : OneByOne dev content w)
    (hdone : ∀ i < w.ncalls, done (w.calls i).pc = true) :
    readAll (fun len pp user => some (readSwitch (fun _ => content) len pp user)) 0
      (requests w w.ncalls) = some (deliveries w w.ncalls) := by
  rw [requests, deliveries, List.range_eq_range']
  exact h.readAll_calls hdone w.ncalls 0 (Nat.zero_add _)

lemma OneByOne.roomy (h : OneByOne dev content w) : Roomy (requests w w.ncalls) := by
  intro r hr
  obtain ⟨i, hi, rfl⟩ := List.mem_map.mp hr
  exact (h.args i (List.mem_range.mp hi)).2

/-- In a run of one file whose calls have all returned, chunks are invisible exactly if every read
finds at the start of the block the bytes at its position. -/
lemma deliveries_invisible_iff {pages : ℕ → Memory UInt8} {tr : List (Action × World)}
    (hrun : readers.Run (World.init pages) tr)
    (hfile : System.Along (OneFile dev content) (World.init pages) tr)
    (hlast : System.last (World.init pages) tr = w)
    (hdone : ∀ i < w.ncalls, done (w.calls i).pc = true) :
    Invisible (content.read 0 FILE_LEN) ((requests w w.ncalls).map Prod.fst)
        (some (deliveries w w.ncalls)) ↔
      Repeats content ((requests w w.ncalls).map Prod.fst) := by
  have h : OneByOne dev content w := by
    rw [← hlast]
    exact (hrun.always_of_along (fun _ _ _ h hok hs => h.step hok hs)
      (OneByOne.init pages) hfile).last
  rw [← h.readAll_eq hdone]
  exact invisible_iff h.roomy

end

/-- The reads of `fs/min_read/file.c` deliver the start of the file, however it is cut. Those of
`fs/sb_bread/read.c`, and those of `fs/block_page_read/read.c` in any run of one file on a device
whose block does not change, do so exactly if every read finds at the start of the block the bytes
at its position. -/
theorem chunks_invisible_iff (dev : ℕ) (content : Memory UInt8) :
    (∀ rs, Roomy rs → Invisible ((literal ['1', '2', '3']).read 0 FILE_LEN) (rs.map Prod.fst)
      (readAll (fun len pp user => some (MinRead.example_read len pp user)) 0 rs)) ∧
    (∀ rs, Roomy rs → (Invisible (content.read 0 FILE_LEN) (rs.map Prod.fst)
        (readAll (SbBread.example_read (some content)) 0 rs) ↔
      Repeats content (rs.map Prod.fst))) ∧
    ∀ pages tr w, readers.Run (World.init pages) tr →
      System.Along (OneFile dev content) (World.init pages) tr →
      System.last (World.init pages) tr = w → (∀ i < w.ncalls, done (w.calls i).pc = true) →
      (Invisible (content.read 0 FILE_LEN) ((requests w w.ncalls).map Prod.fst)
          (some (deliveries w w.ncalls)) ↔
        Repeats content ((requests w w.ncalls).map Prod.fst)) := by
  refine ⟨fun rs hroomy => ?_, fun rs hroomy => ?_, fun pages tr w hrun hfile hlast hdone => ?_⟩
  · exact (invisible_iff hroomy).mpr (agrees_minRead (Nat.zero_le _) _)
  · exact (invisible_iff hroomy).trans (agrees_buffer (Nat.zero_le _) _)
  · exact deliveries_invisible_iff hrun hfile hlast hdone

/-- Two reads of one byte, on a device that is slower than its reader. -/
def twoReads (content : Memory UInt8) : List Action :=
  [.read 5 1 0 ⟨1, false⟩] ++ List.replicate 9 (.step 0) ++
    [.complete 0 content true, .end_io 0, .end_io 0, .end_io 0] ++ List.replicate 3 (.step 0) ++
    [.read 5 1 1 ⟨1, false⟩] ++ List.replicate 9 (.step 1) ++
    [.complete 1 content true, .end_io 1, .end_io 1, .end_io 1] ++ List.replicate 3 (.step 1)

/-- What is looked at in the last state of these reads: how many calls there are, the lengths of
the first two, whether they have returned, and what they have delivered. -/
def twoResults (w : World) : ℕ × List ℕ × List Bool × List UInt8 :=
  (w.ncalls, (requests w 2).map Prod.fst, (List.range 2).map fun i => done (w.calls i).pc,
    deliveries w 2)

lemma exists_twoReads (content : Memory UInt8) (bytes : List UInt8)
    (h : (System.final (System.checked World.next (OneFile 5 content)) (World.init fun _ _ => 0)
      (twoReads content)).map twoResults = some (2, [1, 1], [true, true], bytes)) :
    ∃ tr w, readers.Run (World.init fun _ _ => 0) tr ∧ tr.map Prod.fst = twoReads content ∧
      System.Along (OneFile 5 content) (World.init fun _ _ => 0) tr ∧
      System.last (World.init fun _ _ => 0) tr = w ∧
      (∀ i < w.ncalls, done (w.calls i).pc = true) ∧ (requests w w.ncalls).map Prod.fst = [1, 1] ∧
      deliveries w w.ncalls = bytes := by
  obtain ⟨w, hw, hresults⟩ := Option.map_eq_some_iff.mp h
  obtain ⟨hn, hlens, hdone, hbytes⟩ : w.ncalls = 2 ∧ (requests w 2).map Prod.fst = [1, 1] ∧
      (List.range 2).map (fun i => done (w.calls i).pc) = [true, true] ∧
      deliveries w 2 = bytes := by
    simpa only [twoResults, Prod.mk.injEq] using hresults
  obtain ⟨tr, hrun, hacts, halong, hlast⟩ := System.exists_run_along_last hw
  have hreturned : ∀ i < 2, done (w.calls i).pc = true := by
    intro i hi
    have hmem := List.mem_map_of_mem (f := fun i => done (w.calls i).pc) (List.mem_range.mpr hi)
    rw [hdone] at hmem
    simpa using hmem
  exact ⟨tr, w, hrun, hacts, halong, hlast, hn ▸ hreturned, hn ▸ hlens, hn ▸ hbytes⟩

/-- On a block of equal bytes the chunks are those of one read. -/
theorem chunks_invisible_iff_equal :
    Invisible ((literal ['1', '2', '3']).read 0 FILE_LEN) [1, 2]
      (readAll (fun len pp user => some (MinRead.example_read len pp user)) 0
        [(1, ⟨1, false⟩), (2, ⟨2, false⟩)]) ∧
    Invisible (Memory.read (fun _ => 7) 0 FILE_LEN) [1, 1]
      (readAll (SbBread.example_read (some fun _ => 7)) 0 [(1, ⟨1, false⟩), (1, ⟨1, false⟩)]) ∧
    ∃ tr w, readers.Run (World.init fun _ _ => 0) tr ∧ tr.map Prod.fst = twoReads (fun _ => 7) ∧
      System.last (World.init fun _ _ => 0) tr = w ∧
      Invisible (Memory.read (fun _ => 7) 0 FILE_LEN) [1, 1] (some (deliveries w w.ncalls)) := by
  obtain ⟨hmin, hbread, hbio⟩ := chunks_invisible_iff 5 fun _ => 7
  have hequal : Repeats (fun _ => 7) [1, 1] := ⟨fun _ _ => rfl, fun _ _ => rfl, trivial⟩
  obtain ⟨tr, w, hrun, hacts, halong, hlast, hdone, hlens, -⟩ :=
    exists_twoReads (fun _ => 7) [7, 7] (by decide +kernel)
  have hchunks := hbio _ tr w hrun halong hlast hdone
  rw [hlens] at hchunks
  exact ⟨hmin [(1, ⟨1, false⟩), (2, ⟨2, false⟩)] (by decide),
    (hbread [(1, ⟨1, false⟩), (1, ⟨1, false⟩)] (by decide)).mpr hequal,
    tr, w, hrun, hacts, hlast, hchunks.mpr hequal⟩

/-- On a block that begins with 1 and 2, both reads of one byte deliver the 1. -/
theorem chunks_visible :
    ¬ Invisible (Memory.read (fun x => x.toUInt8 + 1) 0 FILE_LEN) [1, 1]
      (readAll (SbBread.example_read (some fun x => x.toUInt8 + 1)) 0
        [(1, ⟨1, false⟩), (1, ⟨1, false⟩)]) ∧
    ∃ tr w, readers.Run (World.init fun _ _ => 0) tr ∧
      tr.map Prod.fst = twoReads (fun x => x.toUInt8 + 1) ∧
      System.Along (OneFile 5 fun x => x.toUInt8 + 1) (World.init fun _ _ => 0) tr ∧
      System.last (World.init fun _ _ => 0) tr = w ∧ deliveries w w.ncalls = [1, 1] ∧
      ¬ Invisible (Memory.read (fun x => x.toUInt8 + 1) 0 FILE_LEN) [1, 1]
        (some (deliveries w w.ncalls)) := by
  have hdiffer : ¬ Invisible (Memory.read (fun x => x.toUInt8 + 1) 0 FILE_LEN) [1, 1]
      (some [1, 1]) := by
    rintro ⟨bytes, hbytes, -, htake⟩
    cases hbytes
    exact absurd htake (by decide)
  constructor
  · exact hdiffer
  · obtain ⟨tr, w, hrun, hacts, halong, hlast, -, -, hbytes⟩ :=
      exists_twoReads (fun x => x.toUInt8 + 1) [1, 1] (by decide +kernel)
    exact ⟨tr, w, hrun, hacts, halong, hlast, hbytes, hbytes ▸ hdiffer⟩

end QuickDevSkeleton.ChunkedRead
