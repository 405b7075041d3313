import QuickDevSkeleton.BlockRead.Device

/-!
# What the readers of a bio get

All calls of `example_read` share one page, one bio and one buffer. Where they overlap, a reader may
find the bio of another one and skip the wait, replace the page between `bio_add_page` and
`show_content`, or copy what another device has brought. Where they do not, every reader gets data
that a bio has read from its device, and `show_content` finds the page of the bio.
-/

namespace QuickDevSkeleton.BlockRead

open Foundations

/-- Every call that has returned a positive length has delivered that many bytes of what a
successful bio has read from its device, and every `show_content` has copied the page of its bio. -/
structure Faithful (w : World) : Prop where
  delivered : ∀ i ret bytes, (w.calls i).pc = .returned ret bytes → 0 < ret →
    ∃ data, (some (w.calls i).dev, data) ∈ w.completed ∧ bytes = data.read 0 ret
  shown : ∀ x ∈ w.shows, x.1 = x.2

/-! ### The condition -/

/-- Between `alloc_page` and the end of `submit_bio`. -/
def Pc.building : Pc → Bool
  | .test | .bio_alloc | .load_bio | .set_bdev _ | .add_page _ | .submit_bio _ => true
  | _ => false

/-- Between `alloc_page` and the return. -/
def Pc.active : Pc → Bool
  | .prepare_to_wait _ | .schedule _ _ | .asleep _ _ | .finish_wait | .copy => true
  | pc => pc.building

/-- Past the wait. -/
def Pc.ready : Pc → Bool
  | .schedule _ woken | .asleep _ woken => woken
  | .finish_wait | .copy => true
  | _ => false

/-- Before the copy of `show_content`. -/
def Stage.early : Stage → Bool
  | .in_flight | .show_content => true
  | _ => false

/-- Past that copy, with `example_end_io` still running. -/
def Stage.late : Stage → Bool
  | .clear | .wake_up => true
  | _ => false

/-- What a reader does under its program counter does not overlap with the others: it allocates its
page while nobody builds a bio, no bio is on its way to `show_content`, and all other readers and
bios in progress are those of its device; if it finds a bio, the buffer is filled from its device;
and its copy does not fault. -/
def Pc.OverlapOk (w : World) (c : Call) : Pc → Prop
  | .alloc_page =>
    (∀ i < w.ncalls, (w.calls i).pc.building = false ∧
      ((w.calls i).pc.active = true → (w.calls i).dev = c.dev)) ∧
    ∀ r < w.nreqs, (w.reqs r).stage = .completed ∨
      (w.reqs r).stage.late = true ∧ (w.reqs r).bio.bi_bdev = some c.dev
  | .test => w.private_bio = none ∨ w.filled = some c.dev
  | .copy => c.count ≤ c.user.moved
  | _ => True

/-- The condition on the actions. -/
def OverlapOk (w : World) : Action → Prop
  | .step i => (w.calls i).pc.OverlapOk w (w.calls i)
  | .read _ _ _ _ | .complete _ _ _ | .end_io _ => True

instance (w : World) (c : Call) (pc : Pc) : Decidable (pc.OverlapOk w c) :=
  match pc with
  | .alloc_page => inferInstanceAs (Decidable (_ ∧ _))
  | .test => inferInstanceAs (Decidable (_ ∨ _))
  | .copy => inferInstanceAs (Decidable (_ ≤ _))
  | .idle | .bio_alloc | .load_bio | .set_bdev _ | .add_page _ | .submit_bio _
  | .prepare_to_wait _ | .schedule _ _ | .asleep _ _ | .finish_wait | .returned _ _ | .oops =>
    .isTrue trivial

instance (w : World) (a : Action) : Decidable (OverlapOk w a) :=
  match a with
  | .step i => inferInstanceAs (Decidable ((w.calls i).pc.OverlapOk w (w.calls i)))
  | .read _ _ _ _ | .complete _ _ _ | .end_io _ => .isTrue trivial

/-! ### The invariant -/

/-- `show_content` has not copied for it yet, or `example_end_io` still runs. -/
def Stage.live (st : Stage) : Bool :=
  st.early || st.late

/-- The memory holds what a successful bio has read from the device. -/
def World.Holds (w : World) (dev : Option ℕ) (m : Memory UInt8) : Prop :=
  ∃ data, (dev, data) ∈ w.completed ∧ m.read 0 PAGE = data.read 0 PAGE

/-- How far the bio of a call is built. -/
def Pc.Built (w : World) (dev : ℕ) : Pc → Prop
  | .load_bio => ∀ b, w.private_bio = some b → (w.bios b).bi_page = none
  | .set_bdev b => (w.bios b).bi_page = none
  | .add_page b => w.bios b = ⟨some dev, none⟩
  | .submit_bio b => w.bios b = ⟨some dev, w.private_page⟩
  | _ => True

/-- Who is in progress: all for one device, and at most one of them between `alloc_page` and the
copy of `show_content`. -/
structure Owners (w : World) : Prop where
  fresh : ∀ i, w.ncalls ≤ i → (w.calls i).pc = .idle
  fresh_req : ∀ r, w.nreqs ≤ r → (w.reqs r).stage = .completed
  one_dev : ∀ i j, (w.calls i).pc.active = true → (w.calls j).pc.active = true →
    (w.calls i).dev = (w.calls j).dev
  req_dev : ∀ i r, (w.calls i).pc.active = true → (w.reqs r).stage.live = true →
    (w.reqs r).bio.bi_bdev = some (w.calls i).dev
  one_req_dev : ∀ r s, (w.reqs r).stage.live = true → (w.reqs s).stage.live = true →
    (w.reqs r).bio.bi_bdev = (w.reqs s).bio.bi_bdev
  one_builder : ∀ i j, (w.calls i).pc.building = true → (w.calls j).pc.building = true → i = j
  no_builder : ∀ i r, (w.calls i).pc.building = true → (w.reqs r).stage.early = false
  one_early : ∀ r s, (w.reqs r).stage.early = true → (w.reqs s).stage.early = true → r = s

/-- What a call has made sure of. -/
structure Call.Ok (w : World) (c : Call) : Prop where
  page : c.pc.building = true → w.private_page ≠ none
  built : c.pc.Built w c.dev
  ready : c.pc.ready = true → w.filled = some c.dev
  delivered : ∀ ret bytes, c.pc = .returned ret bytes → 0 < ret →
    ∃ data, (some c.dev, data) ∈ w.completed ∧ bytes = data.read 0 ret

/-- What holds of a request: its page is the global one up to the copy of `show_content`, it holds
the data of the device then, and afterwards the buffer does. -/
structure Request.Ok (w : World) (q : Request) : Prop where
  early : q.stage.early = true → ∃ p, q.bio.bi_page = some p ∧ w.private_page = some p
  loaded : q.stage = .show_content → ∀ p, w.private_page = some p →
    w.Holds q.bio.bi_bdev (w.pages p)
  late : q.stage.late = true → w.filled = q.bio.bi_bdev

structure Inv (w : World) : Prop where
  owners : Owners w
  calls : ∀ i, (w.calls i).Ok w
  reqs : ∀ r, (w.reqs r).Ok w
  filled : ∀ dev, w.filled = some dev → w.Holds (some dev) w.buffer
  shown : ∀ x ∈ w.shows, x.1 = x.2

lemma Pc.active_of_building {pc : Pc} (h : pc.building = true) : pc.active = true := by
  cases pc with
  | test | bio_alloc | load_bio | set_bdev | add_page | submit_bio => rfl
  | _ => cases h

lemma Pc.ready_of_building {pc : Pc} (h : pc.building = true) : pc.ready = false := by
  cases pc with
  | schedule | asleep | finish_wait | copy => cases h
  | _ => rfl

lemma Pc.active_of_ready {pc : Pc} (h : pc.ready = true) : pc.active = true := by
  cases pc with
  | schedule | asleep | finish_wait | copy => rfl
  | _ => cases h

lemma Pc.active_wake (pc : Pc) : pc.wake.active = pc.active := by
  cases pc <;> rfl

lemma Pc.building_wake (pc : Pc) : pc.wake.building = pc.building := by
  cases pc <;> rfl

lemma Pc.returned_of_wake {pc : Pc} {ret : ℕ} {bytes : List UInt8}
    (h : pc.wake = .returned ret bytes) : pc = .returned ret bytes := by
  cases pc with
  | returned => exact h
  | _ => cases h

lemma Pc.Built.wake {w : World} {dev : ℕ} {pc : Pc} (h : pc.Built w dev) :
    pc.wake.Built w dev := by
  cases pc <;> exact h

lemma Stage.live_of_late {st : Stage} (h : st.late = true) : st.live = true := by
  rw [Stage.live, h, Bool.or_true]

lemma Pc.built_of_not_building {w : World} {dev : ℕ} {pc : Pc} (h : pc.building = false) :
    pc.Built w dev := by
  cases pc with
  | load_bio | set_bdev | add_page | submit_bio => cases h
  | _ => trivial

/-- The call goes on: it begins nothing, and what it does is for the same device. -/
structure Call.Within (c c' : Call) : Prop where
  dev : c'.pc.active = true → c'.dev = c.dev
  active : c'.pc.active = true → c.pc.active = true
  building : c'.pc.building = true → c.pc.building = true

/-- The request goes on. -/
structure Request.Within (q q' : Request) : Prop where
  bdev : q'.bio.bi_bdev = q.bio.bi_bdev
  live : q'.stage.live = true → q.stage.live = true
  early : q'.stage.early = true → q.stage.early = true

lemma Call.Within.refl (c : Call) : c.Within c :=
  ⟨fun _ => rfl, id, id⟩

lemma Request.Within.refl (q : Request) : q.Within q :=
  ⟨rfl, id, id⟩

namespace Owners

variable {w w' : World}

lemma lt_nreqs (h : Owners w) {r : ℕ} (hst : (w.reqs r).stage ≠ .completed) : r < w.nreqs := by
  by_contra hno
  exact hst (h.fresh_req r (Nat.le_of_not_lt hno))

/-- Calls and requests go on, and none begins. -/
lemma mono (h : Owners w) (hfresh : ∀ i, w'.ncalls ≤ i → (w'.calls i).pc = .idle)
    (hfresh_req : ∀ r, w'.nreqs ≤ r → (w'.reqs r).stage = .completed)
    (hc : ∀ i, (w.calls i).Within (w'.calls i)) (hq : ∀ r, (w.reqs r).Within (w'.reqs r)) :
    Owners w' where
  fresh := hfresh
  fresh_req := hfresh_req
  one_dev i j hi hj := by
    rw [(hc i).dev hi, (hc j).dev hj]
    exact h.one_dev i j ((hc i).active hi) ((hc j).active hj)
  req_dev i r hi hr := by
    rw [(hc i).dev hi, (hq r).bdev]
    exact h.req_dev i r ((hc i).active hi) ((hq r).live hr)
  one_req_dev r s hr hs := by
    rw [(hq r).bdev, (hq s).bdev]
    exact h.one_req_dev r s ((hq r).live hr) ((hq s).live hs)
  one_builder i j hi hj := h.one_builder i j ((hc i).building hi) ((hc j).building hj)
  no_builder i r hi := by
    have hno := h.no_builder i r ((hc i).building hi)
    by_contra hearly
    rw [(hq r).early (Bool.not_eq_false _ ▸ hearly)] at hno
    cases hno
  one_early r s hr hs := h.one_early r s ((hq r).early hr) ((hq s).early hs)

/-- One call goes on. -/
lemma setCall (h : Owners w) {i : ℕ} {c : Call} (hidle : (w.calls i).pc ≠ .idle)
    (hc : (w.calls i).Within c) : Owners (w.setCall i c) := by
  refine h.mono (World.fresh_setCall h.fresh hidle) h.fresh_req (fun j => ?_) fun r => .refl _
  by_cases hji : j = i
  · rw [hji, World.calls_setCall_self]
    exact hc
  · rw [World.calls_setCall_of_ne hji]
    exact .refl _

/-- One request goes on. -/
lemma setStage (h : Owners w) (r : ℕ) (st : Stage) (hst : (w.reqs r).stage ≠ .completed)
    (hlive : st.live = true → (w.reqs r).stage.live = true)
    (hearly : st.early = true → (w.reqs r).stage.early = true) : Owners (w.setStage r st) := by
  refine h.mono h.fresh (fun s hs => ?_) (fun i => .refl _) fun s => ?_
  · have hne : s ≠ r := (Nat.ne_of_lt ((h.lt_nreqs hst).trans_le hs)).symm
    change (Function.update w.reqs r _ s).stage = .completed
    rw [Function.update_of_ne hne]
    exact h.fresh_req s hs
  · change (w.reqs s).Within (Function.update w.reqs r _ s)
    by_cases hsr : s = r
    · rw [hsr, Function.update_self]
      exact ⟨rfl, hlive, hearly⟩
    · rw [Function.update_of_ne hsr]
      exact .refl _

end Owners

namespace Inv

variable {w w' : World}

lemma init (pages : ℕ → Memory UInt8) : Inv (World.init pages) where
  owners := {
    fresh := fun _ _ => rfl
    fresh_req := fun _ _ => rfl
    one_dev := fun _ _ h => nomatch h
    req_dev := fun _ _ h => nomatch h
    one_req_dev := fun _ _ h => nomatch h
    one_builder := fun _ _ h => nomatch h
    no_builder := fun _ _ h => nomatch h
    one_early := fun _ _ h => nomatch h }
  calls _ := ⟨fun h => (nomatch h), trivial, fun h => (nomatch h), fun _ _ h => (nomatch h)⟩
  reqs _ := ⟨fun h => (nomatch h), fun h => (nomatch h), fun h => (nomatch h)⟩
  filled _ h := nomatch h
  shown _ h := nomatch h

lemma faithful (h : Inv w) : Faithful w where
  delivered i := (h.calls i).delivered
  shown := h.shown

/-! ### Calls -/

lemma forall_update {α : Type} {P : α → Prop} {f : ℕ → α} {i : ℕ} {x : α} (hi : P x)
    (h : ∀ j, j ≠ i → P (f j)) (j : ℕ) : P (Function.update f i x j) :=
  (Function.forall_update_iff f fun _ => P).mpr ⟨hi, h⟩ j

lemma forall_setCall {P : Call → Prop} {i : ℕ} {c : Call} (hi : P c)
    (h : ∀ j, j ≠ i → P (w.calls j)) (j : ℕ) : P ((w.setCall i c).calls j) :=
  forall_update hi h j

/-- A process calls `example_read`. -/
lemma read (h : Inv w) (dev len pp : ℕ) (user : UserCopy) :
    Inv { w.setCall w.ncalls ⟨dev, len, pp, user, .alloc_page⟩ with ncalls := w.ncalls + 1 } where
  owners := by
    refine h.owners.mono (World.fresh_read h.owners.fresh) h.owners.fresh_req (fun i => ?_)
      fun r => .refl _
    change (w.calls i).Within (Function.update w.calls w.ncalls _ i)
    by_cases hnew : i = w.ncalls
    · rw [hnew, Function.update_self]
      exact ⟨fun hno => (nomatch hno), fun hno => (nomatch hno), fun hno => (nomatch hno)⟩
    · rw [Function.update_of_ne hnew]
      exact .refl _
  calls := forall_setCall (P := fun c => c.Ok _)
    ⟨fun hno => (nomatch hno), trivial, fun hno => (nomatch hno), fun _ _ hno => (nomatch hno)⟩
    fun i _ => { h.calls i with }
  reqs r := { h.reqs r with }
  filled := h.filled
  shown := h.shown

/-- A call executes a statement, which may build its bio. -/
lemma setCall (h : Inv w) {i : ℕ} {c : Call} {bios : ℕ → Bio} {nbios : ℕ} {pb : Option ℕ}
    (hidle : (w.calls i).pc ≠ .idle) (hc : (w.calls i).Within c)
    (hframe : (w.calls i).pc.building = true ∨ bios = w.bios ∧ pb = w.private_bio)
    (hok : c.Ok { w.setCall i c with bios := bios, nbios := nbios, private_bio := pb }) :
    Inv { w.setCall i c with bios := bios, nbios := nbios, private_bio := pb } where
  owners := { h.owners.setCall hidle hc with }
  calls := by
    refine forall_setCall (P := fun c => c.Ok _) hok fun j hji => ?_
    have hj := h.calls j
    refine ⟨hj.page, ?_, hj.ready, hj.delivered⟩
    rcases hframe with hbuild | ⟨rfl, rfl⟩
    · -- nobody else builds
      have hno : (w.calls j).pc.building = false := by
        by_contra hyes
        exact hji (h.owners.one_builder j i (Bool.not_eq_false _ ▸ hyes) hbuild)
      exact Pc.built_of_not_building hno
    · exact hj.built
  reqs r := { h.reqs r with }
  filled := h.filled
  shown := h.shown

/-- A call allocates its page, without an overlap. -/
lemma alloc_page (h : Inv w) {i : ℕ} (hpc : (w.calls i).pc = .alloc_page)
    (hok : Pc.alloc_page.OverlapOk w (w.calls i)) :
    Inv { w.setCall i ((w.calls i).goto .test) with
      private_page := some w.npages
      npages := w.npages + 1 } := by
  have hidle : (w.calls i).pc ≠ .idle := by
    rw [hpc]
    exact Pc.noConfusion
  have hquiet (j : ℕ) : (w.calls j).pc.building = false := by
    rcases Nat.lt_or_ge j w.ncalls with hj | hj
    · exact (hok.1 j hj).1
    · rw [h.owners.fresh j hj]
      rfl
  have hdev (j : ℕ) (hj : (w.calls j).pc.active = true) :
      (w.calls j).dev = (w.calls i).dev := by
    refine (hok.1 j (World.lt_ncalls h.owners.fresh fun hno => ?_)).2 hj
    rw [hno] at hj
    cases hj
  have hreq (r : ℕ) : (w.reqs r).stage = .completed ∨
      (w.reqs r).stage.late = true ∧ (w.reqs r).bio.bi_bdev = some (w.calls i).dev := by
    rcases Nat.lt_or_ge r w.nreqs with hr | hr
    · exact hok.2 r hr
    · exact Or.inl (h.owners.fresh_req r hr)
  have hearly (r : ℕ) : (w.reqs r).stage.early = false := by
    rcases hreq r with hdone | ⟨hlate, -⟩
    · rw [hdone]
      rfl
    · cases hst : (w.reqs r).stage with
      | in_flight | show_content => rw [hst] at hlate; cases hlate
      | _ => rfl
  have hreq_dev (r : ℕ) (hr : (w.reqs r).stage.live = true) :
      (w.reqs r).bio.bi_bdev = some (w.calls i).dev := by
    rcases hreq r with hdone | ⟨-, hbdev⟩
    · rw [hdone] at hr
      cases hr
    · exact hbdev
  -- everybody in progress is for the device of this call
  have hall (j : ℕ) : ((w.setCall i ((w.calls i).goto .test)).calls j).pc.active = true →
      ((w.setCall i ((w.calls i).goto .test)).calls j).dev = (w.calls i).dev :=
    forall_setCall (P := fun c => c.pc.active = true → c.dev = (w.calls i).dev)
      (c := (w.calls i).goto .test) (fun _ => rfl) (fun j _ => hdev j) j
  have hbuild (j : ℕ) (hj : ((w.setCall i ((w.calls i).goto .test)).calls j).pc.building = true) :
      j = i := by
    by_contra hji
    rw [World.calls_setCall_of_ne hji, hquiet j] at hj
    cases hj
  exact {
    owners := {
      fresh := World.fresh_setCall h.owners.fresh hidle
      fresh_req := h.owners.fresh_req
      one_dev := fun j k hj hk => (hall j hj).trans (hall k hk).symm
      req_dev := fun j r hj hr => (hreq_dev r hr).trans (congrArg some (hall j hj).symm)
      one_req_dev := h.owners.one_req_dev
      one_builder := fun j k hj hk => (hbuild j hj).trans (hbuild k hk).symm
      no_builder := fun _ r _ => hearly r
      one_early := h.owners.one_early }
    calls := forall_setCall (P := fun c => c.Ok _)
      ⟨fun _ hno => (nomatch hno), trivial, fun hno => (nomatch hno), fun _ _ hno => (nomatch hno)⟩
      fun j _ => ⟨fun _ hno => (nomatch hno), Pc.built_of_not_building (hquiet j),
        (h.calls j).ready, (h.calls j).delivered⟩
    reqs := fun r => {
      early := fun hr => nomatch (hearly r).symm.trans hr
      loaded := fun hr => nomatch (hearly r).symm.trans (congrArg Stage.early hr)
      late := (h.reqs r).late }
    filled := h.filled
    shown := h.shown }

/-- A call submits its bio. -/
lemma submit_bio (h : Inv w) {i b : ℕ} (hpc : (w.calls i).pc = .submit_bio b) :
    Inv { w.setCall i ((w.calls i).goto (.prepare_to_wait w.nreqs)) with
      reqs := Function.update w.reqs w.nreqs ⟨w.bios b, .in_flight⟩
      nreqs := w.nreqs + 1 } := by
  have hbuild : (w.calls i).pc.building = true := by
    rw [hpc]
    rfl
  have hactive : (w.calls i).pc.active = true := by
    rw [hpc]
    rfl
  have hbio : w.bios b = ⟨some (w.calls i).dev, w.private_page⟩ := by
    have hbuilt := (h.calls i).built
    rwa [hpc] at hbuilt
  have hwait : Inv (w.setCall i ((w.calls i).goto (.prepare_to_wait w.nreqs))) :=
    h.setCall (by rw [hpc]; exact Pc.noConfusion)
      ⟨fun _ => rfl, fun _ => hactive, fun hno => nomatch hno⟩ (Or.inr ⟨rfl, rfl⟩)
      ⟨fun hno => (nomatch hno), trivial, fun hno => (nomatch hno), fun _ _ hno => (nomatch hno)⟩
  have hdev : ∀ j, ((w.setCall i ((w.calls i).goto (.prepare_to_wait w.nreqs))).calls j).pc.active =
      true → ((w.setCall i ((w.calls i).goto (.prepare_to_wait w.nreqs))).calls j).dev =
        (w.calls i).dev :=
    forall_setCall (P := fun c => c.pc.active = true → c.dev = (w.calls i).dev)
      (c := (w.calls i).goto (.prepare_to_wait w.nreqs)) (fun _ => rfl)
      fun j _ hj => h.owners.one_dev j i hj hactive
  have hnone : ∀ j, ((w.setCall i ((w.calls i).goto (.prepare_to_wait w.nreqs))).calls
      j).pc.building = false :=
    forall_setCall (P := fun c => c.pc.building = false)
      (c := (w.calls i).goto (.prepare_to_wait w.nreqs)) rfl fun j hji => by
        by_contra hyes
        exact hji (h.owners.one_builder j i (Bool.not_eq_false _ ▸ hyes) hbuild)
  have hreq_dev : ∀ r, (Function.update w.reqs w.nreqs ⟨w.bios b, .in_flight⟩ r).stage.live =
      true → (Function.update w.reqs w.nreqs ⟨w.bios b, .in_flight⟩ r).bio.bi_bdev =
        some (w.calls i).dev :=
    forall_update
      (P := fun q : Request => q.stage.live = true → q.bio.bi_bdev = some (w.calls i).dev)
      (fun _ => by rw [hbio]) fun r _ => h.owners.req_dev i r hactive
  have hearly (r : ℕ) (hr : (Function.update w.reqs w.nreqs ⟨w.bios b, .in_flight⟩
      r).stage.early = true) : r = w.nreqs := by
    by_contra hne
    rw [Function.update_of_ne hne, h.owners.no_builder i r hbuild] at hr
    cases hr
  exact {
    owners := {
      fresh := hwait.owners.fresh
      fresh_req := fun r hr => by
        change (Function.update w.reqs w.nreqs _ r).stage = .completed
        rw [Function.update_of_ne (Nat.ne_of_gt hr)]
        exact h.owners.fresh_req r (Nat.le_of_lt hr)
      one_dev := hwait.owners.one_dev
      req_dev := fun j r hj hr => (hreq_dev r hr).trans (congrArg some (hdev j hj).symm)
      one_req_dev := fun r s hr hs => (hreq_dev r hr).trans (hreq_dev s hs).symm
      one_builder := hwait.owners.one_builder
      no_builder := fun j _ hj => nomatch (hnone j).symm.trans hj
      one_early := fun r s hr hs => (hearly r hr).trans (hearly s hs).symm }
    calls := fun j => { hwait.calls j with }
    reqs := forall_update (P := fun q : Request => q.Ok _)
      ⟨fun _ => by
        obtain ⟨p, hp⟩ := Option.ne_none_iff_exists'.mp ((h.calls i).page hbuild)
        exact ⟨p, by rw [hbio, hp], hp⟩, fun hno => (nomatch hno), fun hno => (nomatch hno)⟩
      fun r _ => { h.reqs r with }
    filled := h.filled
    shown := h.shown }

/-- A call goes on to a statement for which it has made sure of what is needed. -/
lemma goto (h : Inv w) {i : ℕ} {pc : Pc} (hactive : (w.calls i).pc.active = true)
    (hbuild : pc.building = true → (w.calls i).pc.building = true)
    (hbuilt : pc.Built w (w.calls i).dev)
    (hready : pc.ready = true → w.filled = some (w.calls i).dev)
    (hret : ∀ ret bytes, pc ≠ .returned ret bytes) :
    Inv (w.setCall i ((w.calls i).goto pc)) :=
  h.setCall (fun hidle => by rw [hidle] at hactive; cases hactive)
    ⟨fun _ => rfl, fun _ => hactive, hbuild⟩ (Or.inr ⟨rfl, rfl⟩)
    ⟨fun hb => (h.calls i).page (hbuild hb), hbuilt, hready,
      fun ret bytes hpc => absurd hpc (hret ret bytes)⟩

/-- A call goes on with its bio. -/
lemma build (h : Inv w) {i b nbios : ℕ} {pc : Pc} {bio : Bio} {pb : Option ℕ}
    (hbuild : (w.calls i).pc.building = true) (hpc : pc.building = true)
    (hbuilt : pc.Built { w.setBio b bio with private_bio := pb } (w.calls i).dev) :
    Inv { (w.setCall i ((w.calls i).goto pc)).setBio b bio with
      nbios := nbios
      private_bio := pb } := by
  have hactive : (w.calls i).pc.active = true := Pc.active_of_building hbuild
  refine h.setCall (fun hidle => ?_) ⟨fun _ => rfl, fun _ => hactive, fun _ => hbuild⟩
    (Or.inl hbuild)
    ⟨fun _ => (h.calls i).page hbuild, ?_, fun hready => ?_, fun ret bytes hret => ?_⟩
  · rw [hidle] at hactive
    cases hactive
  · cases pc <;> exact hbuilt
  · exact nomatch (Pc.ready_of_building hpc).symm.trans hready
  · change pc = _ at hret
    rw [hret] at hpc
    cases hpc

/-- A call copies from a buffer that holds the data of its device. -/
lemma copy (h : Inv w) {i : ℕ} (hpc : (w.calls i).pc = .copy)
    (hok : (w.calls i).count ≤ (w.calls i).user.moved) :
    Inv (w.setCall i ((w.calls i).finish w.buffer)) := by
  have hfilled : w.filled = some (w.calls i).dev := by
    apply (h.calls i).ready
    rw [hpc]
    rfl
  obtain ⟨data, hdata, hread⟩ := h.filled _ hfilled
  have hcount : (w.calls i).count ≤ PAGE := by
    rw [Call.count]
    split
    · exact Nat.zero_le _
    · exact (Nat.min_le_right _ _).trans ((Nat.sub_le _ _).trans (by decide))
  refine h.setCall (by rw [hpc]; exact Pc.noConfusion)
    ⟨fun hno => (nomatch hno), fun hno => (nomatch hno), fun hno => (nomatch hno)⟩
    (Or.inr ⟨rfl, rfl⟩)
    ⟨fun hno => (nomatch hno), trivial, fun hno => (nomatch hno), fun ret bytes hret _ => ?_⟩
  cases hret
  refine ⟨data, hdata, ?_⟩
  change w.buffer.read 0 (min (w.calls i).user.moved (w.calls i).count) = _
  rw [Nat.min_eq_right hok, ← Memory.take_read _ _ hcount, hread, Memory.take_read _ _ hcount]

/-- The statements of `example_read`. -/
lemma example_read (h : Inv w) {i : ℕ} (hok : OverlapOk w (.step i))
    (hstep : w.example_read i = some w') : Inv w' := by
  simp only [World.example_read] at hstep
  simp only [OverlapOk] at hok
  have hcall := h.calls i
  cases hpc : (w.calls i).pc with
  | idle | returned | oops =>
    rw [hpc] at hstep
    cases hstep
  | alloc_page =>
    rw [hpc] at hstep hok
    rw [← Option.some.inj hstep]
    exact h.alloc_page hpc hok
  | test =>
    rw [hpc] at hstep hok
    rw [← Option.some.inj hstep]
    have hactive : (w.calls i).pc.active = true := by
      rw [hpc]
      rfl
    split
    · exact h.goto hactive (fun _ => by rw [hpc]; rfl) trivial (fun hno => by cases hno)
        fun _ _ => Pc.noConfusion
    · next hbio =>
      exact h.goto hactive (fun hno => by cases hno) trivial (fun _ => hok.resolve_left hbio)
        fun _ _ => Pc.noConfusion
  | bio_alloc =>
    rw [hpc] at hstep
    rw [← Option.some.inj hstep]
    refine h.build (by rw [hpc]; rfl) rfl fun b hb => ?_
    cases hb
    change (Function.update w.bios w.nbios _ w.nbios).bi_page = none
    rw [Function.update_self]
  | load_bio =>
    rw [hpc] at hstep
    have hactive : (w.calls i).pc.active = true := by
      rw [hpc]
      rfl
    have hbuilt := hcall.built
    rw [hpc] at hbuilt
    cases hbio : w.private_bio with
    | none =>
      rw [hbio] at hstep
      rw [← Option.some.inj hstep]
      exact h.goto hactive (fun hno => by cases hno) trivial (fun hno => by cases hno)
        fun _ _ => Pc.noConfusion
    | some b =>
      rw [hbio] at hstep
      rw [← Option.some.inj hstep]
      exact h.goto hactive (fun _ => by rw [hpc]; rfl) (hbuilt b hbio) (fun hno => by cases hno)
        fun _ _ => Pc.noConfusion
  | set_bdev b =>
    rw [hpc] at hstep
    rw [← Option.some.inj hstep]
    have hbuilt := hcall.built
    rw [hpc] at hbuilt
    refine h.build (by rw [hpc]; rfl) rfl ?_
    change Function.update w.bios b _ b = _
    rw [Function.update_self, hbuilt]
  | add_page b =>
    rw [hpc] at hstep
    rw [← Option.some.inj hstep]
    have hbuilt := hcall.built
    rw [hpc] at hbuilt
    refine h.build (by rw [hpc]; rfl) rfl ?_
    change Function.update w.bios b _ b = _
    rw [Function.update_self, hbuilt]
    rfl
  | submit_bio b =>
    rw [hpc] at hstep
    rw [← Option.some.inj hstep]
    exact h.submit_bio hpc
  | prepare_to_wait req =>
    rw [hpc] at hstep
    rw [← Option.some.inj hstep]
    exact h.goto (by rw [hpc]; rfl) (fun hno => by cases hno) trivial (fun hno => by cases hno)
      fun _ _ => Pc.noConfusion
  | schedule req woken =>
    rw [hpc] at hstep
    rw [← Option.some.inj hstep]
    have hready := hcall.ready
    rw [hpc] at hready
    cases woken with
    | false =>
      exact h.goto (by rw [hpc]; rfl) (fun hno => by cases hno) trivial (fun hno => by cases hno)
        fun _ _ => Pc.noConfusion
    | true =>
      exact h.goto (by rw [hpc]; rfl) (fun hno => by cases hno) trivial hready
        fun _ _ => Pc.noConfusion
  | asleep req woken =>
    rw [hpc] at hstep
    have hready := hcall.ready
    rw [hpc] at hready
    cases woken with
    | false => cases hstep
    | true =>
      rw [← Option.some.inj hstep]
      exact h.goto (by rw [hpc]; rfl) (fun hno => by cases hno) trivial hready
        fun _ _ => Pc.noConfusion
  | finish_wait =>
    rw [hpc] at hstep
    rw [← Option.some.inj hstep]
    have hready := hcall.ready
    rw [hpc] at hready
    exact h.goto (by rw [hpc]; rfl) (fun hno => by cases hno) trivial hready
      fun _ _ => Pc.noConfusion
  | copy =>
    rw [hpc] at hstep hok
    rw [← Option.some.inj hstep]
    have hready := hcall.ready
    rw [hpc] at hready
    exact h.copy hpc hok

/-! ### Completions -/

/-- A copied page reads back. -/
lemma read_page (m m' : Memory UInt8) :
    (m.write 0 (m'.read 0 PAGE)).read 0 PAGE = m'.read 0 PAGE := by
  have hread := Memory.read_write_same m 0 (m'.read 0 PAGE)
  rwa [Memory.length_read] at hread

lemma other_not_early (h : Inv w) {r s : ℕ} (hr : (w.reqs r).stage.early = true) (hsr : s ≠ r) :
    (w.reqs s).stage.early = false := by
  by_contra hyes
  exact hsr (h.owners.one_early s r (Bool.not_eq_false _ ▸ hyes) hr)

/-- A request that is past `show_content` depends on the buffer only. -/
lemma ok_of_not_early {q : Request} (hno : q.stage.early = false)
    (hlate : q.stage.late = true → w.filled = q.bio.bi_bdev) : q.Ok w where
  early hr := nomatch hno.symm.trans hr
  loaded hr := nomatch hno.symm.trans (congrArg Stage.early hr)
  late := hlate

/-- The device ends the request in flight. -/
lemma complete (h : Inv w) {r : ℕ} {data : Memory UInt8} {uptodate : Bool}
    (hstep : w.complete r data uptodate = some w') : Inv w' := by
  rw [World.complete] at hstep
  split at hstep
  · next hst =>
    have hearly : (w.reqs r).stage.early = true := by
      rw [hst]
      rfl
    have hlive : (w.reqs r).stage.live = true := by
      rw [hst]
      rfl
    have hne : (w.reqs r).stage ≠ .completed := by
      rw [hst]
      exact Stage.noConfusion
    obtain ⟨p, hpage, hprivate⟩ := (h.reqs r).early hearly
    have hdma : w.dma r data = { w with
        pages := Function.update w.pages p ((w.pages p).write 0 (data.read 0 PAGE)) } := by
      rw [World.dma, hpage]
    rw [hdma] at hstep
    rw [← Option.some.inj hstep]
    cases uptodate with
    | true =>
      exact {
        owners := { h.owners.setStage r .show_content hne (fun _ => hlive)
          fun _ => hearly with }
        calls := fun i => { h.calls i with
          delivered := fun ret bytes hpc hpos => by
            obtain ⟨data', hmem, hbytes⟩ := (h.calls i).delivered ret bytes hpc hpos
            exact ⟨data', List.mem_cons_of_mem _ hmem, hbytes⟩ }
        reqs := forall_update (P := fun q : Request => q.Ok _)
          ⟨fun _ => ⟨p, hpage, hprivate⟩, fun _ q hq => by
            cases hprivate.symm.trans hq
            refine ⟨data, List.mem_cons_self, ?_⟩
            change (Function.update w.pages p _ p).read 0 PAGE = _
            rw [Function.update_self, read_page], fun hno => (nomatch hno)⟩
          fun s hsr => ok_of_not_early (h.other_not_early hearly hsr) (h.reqs s).late
        filled := fun dev hdev => by
          obtain ⟨data', hmem, hread⟩ := h.filled dev hdev
          exact ⟨data', List.mem_cons_of_mem _ hmem, hread⟩
        shown := h.shown }
    | false =>
      exact {
        owners := { h.owners.setStage r .completed hne (fun hno => nomatch hno)
          fun hno => nomatch hno with }
        calls := fun i => { h.calls i with }
        reqs := forall_update (P := fun q : Request => q.Ok _)
          (ok_of_not_early rfl fun hno => nomatch hno)
          fun s hsr => ok_of_not_early (h.other_not_early hearly hsr) (h.reqs s).late
        filled := h.filled
        shown := h.shown }
  · cases hstep

/-- `show_content` copies the page of the bio. -/
lemma show_content (h : Inv w) {r : ℕ} (hst : (w.reqs r).stage = .show_content) :
    Inv ((w.show_content r).setStage r .clear) := by
  have hearly : (w.reqs r).stage.early = true := by
    rw [hst]
    rfl
  have hlive : (w.reqs r).stage.live = true := by
    rw [hst]
    rfl
  obtain ⟨p, hpage, hprivate⟩ := (h.reqs r).early hearly
  have howners := h.owners.setStage r .clear
    (by rw [hst]; exact Stage.noConfusion) (fun _ => hlive) fun hno => nomatch hno
  exact {
    owners := { howners with }
    calls := fun i => { h.calls i with
      ready := fun hready => h.owners.req_dev i r (Pc.active_of_ready hready) hlive }
    reqs := forall_update (P := fun q : Request => q.Ok _)
      (ok_of_not_early rfl fun _ => rfl)
      fun s hsr => ok_of_not_early (h.other_not_early hearly hsr) fun hlate =>
        h.owners.one_req_dev r s hlive (Stage.live_of_late hlate)
    filled := fun dev hdev => by
      obtain ⟨data, hmem, hread⟩ := (h.reqs r).loaded hst p hprivate
      have hbdev : (w.reqs r).bio.bi_bdev = some dev := hdev
      refine ⟨data, hbdev ▸ hmem, ?_⟩
      simp only [World.setStage, World.show_content, hprivate, read_page, hread]
    shown := fun x hx => by
      rcases List.mem_cons.mp hx with rfl | hold
      · exact hpage.trans hprivate.symm
      · exact h.shown x hold }

/-- `private_bio = NULL`. -/
lemma clear (h : Inv w) {r : ℕ} (hst : (w.reqs r).stage = .clear) :
    Inv { w.setStage r .wake_up with private_bio := none } := by
  have howners := h.owners.setStage r .wake_up
    (by rw [hst]; exact Stage.noConfusion) (fun _ => by rw [hst]; rfl) fun hno => nomatch hno
  exact {
    owners := { howners with }
    calls := fun i => { h.calls i with
      built := by
        have hbuilt := (h.calls i).built
        cases hpc : (w.calls i).pc with
        | load_bio =>
          change Pc.Built _ _ (w.calls i).pc
          rw [hpc]
          exact fun _ hno => nomatch hno
        | _ =>
          change Pc.Built _ _ (w.calls i).pc
          rw [hpc] at hbuilt ⊢
          exact hbuilt }
    reqs := forall_update (P := fun q : Request => q.Ok _)
      (ok_of_not_early rfl fun _ => (h.reqs r).late (by rw [hst]; rfl))
      fun s _ => { h.reqs s with }
    filled := h.filled
    shown := h.shown }

/-- `wake_up_bit` finds the buffer filled for everybody whom it wakes. -/
lemma wake_up (h : Inv w) {r : ℕ} (hst : (w.reqs r).stage = .wake_up) :
    Inv { w.setStage r .completed with
      calls := fun i => (w.calls i).goto (w.calls i).pc.wake } := by
  have hlate : (w.reqs r).stage.late = true := by
    rw [hst]
    rfl
  have hlive : (w.reqs r).stage.live = true := Stage.live_of_late hlate
  have howners := h.owners.setStage r .completed
    (by rw [hst]; exact Stage.noConfusion) (fun hno => nomatch hno) fun hno => nomatch hno
  have hdev (i : ℕ) (hi : (w.calls i).pc.active = true) : w.filled = some (w.calls i).dev :=
    ((h.reqs r).late hlate).trans (h.owners.req_dev i r hi hlive)
  exact {
    owners := by
      refine howners.mono (fun i hi => ?_) howners.fresh_req (fun i => ?_) fun r => .refl _
      · change (w.calls i).pc.wake = .idle
        rw [h.owners.fresh i hi]
        rfl
      · exact ⟨fun _ => rfl, fun hi => (Pc.active_wake _).symm.trans hi,
          fun hi => (Pc.building_wake _).symm.trans hi⟩
    calls := fun i => {
      page := fun hi => (h.calls i).page ((Pc.building_wake _).symm.trans hi)
      built := Pc.Built.wake (h.calls i).built
      ready := fun hi => hdev i ((Pc.active_wake _).symm.trans (Pc.active_of_ready hi))
      delivered := fun ret bytes hret =>
        (h.calls i).delivered ret bytes (Pc.returned_of_wake hret) }
    reqs := forall_update (P := fun q : Request => q.Ok _)
      (ok_of_not_early rfl fun hno => nomatch hno) fun s _ => { h.reqs s with }
    filled := h.filled
    shown := h.shown }

lemma step {a : Action} (h : Inv w) (hok : OverlapOk w a) (hstep : readers.step w a w') :
    Inv w' := by
  change w.next a = some w' at hstep
  cases a with
  | read dev len pp user =>
    rw [← Option.some.inj hstep]
    exact h.read dev len pp user
  | step i => exact h.example_read hok hstep
  | complete r data uptodate => exact h.complete hstep
  | end_io r =>
    simp only [World.next, World.example_end_io] at hstep
    cases hst : (w.reqs r).stage with
    | in_flight | completed =>
      rw [hst] at hstep
      cases hstep
    | show_content =>
      rw [hst] at hstep
      rw [← Option.some.inj hstep]
      exact h.show_content hst
    | clear =>
      rw [hst] at hstep
      rw [← Option.some.inj hstep]
      exact h.clear hst
    | wake_up =>
      rw [hst] at hstep
      rw [← Option.some.inj hstep]
      exact h.wake_up hst

end Inv

/-- In every run in which the readers do not overlap in these ways, every reader gets what a bio has
read from its device, and `show_content` finds the page of the bio. -/
theorem faithful_of_overlapOk {pages : ℕ → Memory UInt8} {tr : List (Action × World)}
    (hr : readers.Run (World.init pages) tr) (hok : System.Along OverlapOk (World.init pages) tr) :
    System.Always Faithful (World.init pages) tr :=
  (hr.always_of_along (fun _ _ _ h hok hs => h.step hok hs) (Inv.init pages) hok).mono
    fun _ => Inv.faithful

/-- A second reader of the device submits its bio while that of the first one is about to wake the
sleepers, and both return after that wake-up. -/
def followUp : List Action :=
  [.read 5 3 0 ⟨3, false⟩] ++ List.replicate 9 (.step 0) ++
    [.complete 0 (fun _ => 7) true, .end_io 0, .end_io 0, .read 5 2 0 ⟨3, false⟩] ++
    List.replicate 9 (.step 1) ++ [.end_io 0] ++
    List.replicate 3 (.step 0) ++ List.replicate 3 (.step 1)

theorem faithful_of_overlapOk_followUp :
    ∃ tr, readers.Run (World.init fun _ _ => 0) tr ∧ tr.map Prod.fst = followUp ∧
      System.Always Faithful (World.init fun _ _ => 0) tr := by
  have hsome : (System.final (System.checked World.next OverlapOk) (World.init fun _ _ => 0)
      followUp).isSome := by
    decide +kernel
  obtain ⟨tr, hrun, hacts, halong⟩ := System.exists_run_along hsome
  exact ⟨tr, hrun, hacts, faithful_of_overlapOk hrun halong⟩

/-- A second reader finds the bio of the first one, and copies a buffer that nothing has filled. -/
def overlap : List Action :=
  [.read 5 3 0 ⟨3, false⟩] ++ List.replicate 7 (.step 0) ++ [.read 5 3 0 ⟨3, false⟩] ++
    List.replicate 3 (.step 1)

theorem returned_without_data :
    ∃ tr, readers.Run (World.init fun _ _ => 0) tr ∧ tr.map Prod.fst = overlap ∧
      ¬ System.Always Faithful (World.init fun _ _ => 0) tr := by
  have hreturned : (System.final World.next (World.init fun _ _ => 0) overlap).map
      (fun w => ((w.calls 1).pc, w.completed.length)) = some (.returned 3 [0, 0, 0], 0) := by
    decide +kernel
  refine System.exists_run_not_always hreturned fun w hw hfaithful => ?_
  obtain ⟨hpc, hnone⟩ := Prod.mk.inj hw
  obtain ⟨data, hmem, -⟩ := hfaithful.delivered 1 3 _ hpc (by decide)
  rw [List.length_eq_zero_iff.mp hnone] at hmem
  cases hmem

end QuickDevSkeleton.BlockRead
