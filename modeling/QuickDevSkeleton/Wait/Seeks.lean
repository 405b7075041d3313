import QuickDevSkeleton.Wait.Readers

/-!
# Reads at any position

A seek sets the position of an open file, and a positional read works at a position of its own, as
on a file of its own that has been set there. A read that computes its count at a position that is
written, or at the end of what is written, stays inside the written bytes; one that does so beyond
the end casts a negative number of remaining bytes to `size_t`.
-/

namespace QuickDevSkeleton.Wait

open Foundations

/-- `priv->wp - priv->start`. -/
def Mydev.written (dev : Mydev) : ℤ :=
  dev.wp - dev.start

/-- The process is about to compute its count. -/
def Phase.counts : Phase → Bool
  | .counting _ => true
  | _ => false

namespace Reader

/-- A step of `my_read` that stays inside what is written: it sets up a copy only for the bytes from
the position to the end of the count or of what is written, it copies from nowhere else, at the end
of what is written or beyond a call returns nothing but 0 or the interruption of its wait, and the
position is moved at most to that end. -/
structure Inside (dev : Mydev) (r r' : Reader) : Prop where
  asks : ∀ n, r'.phase = .copying n →
    r.f_pos < dev.written ∧ r.f_pos + n = min (r.f_pos + r.asked) dev.written
  copies : ∀ n, r.phase = .copying n → 0 ≤ r.f_pos ∧ r.f_pos + n ≤ dev.written
  ends : dev.written ≤ r.f_pos →
    ∀ x, r'.replies = x :: r.replies → x.ret = 0 ∨ x.ret = -ERESTARTSYS
  pos : r'.f_pos = r.f_pos ∨ r'.f_pos ≤ dev.written

/-- The count is about to be computed at a position beyond what is written. -/
def Beyond (dev : Mydev) (r : Reader) : Prop :=
  r.phase.counts = true ∧ dev.written < r.f_pos

instance (dev : Mydev) (r : Reader) : Decidable (r.Beyond dev) :=
  inferInstanceAs (Decidable (_ ∧ _))

/-- What a call has kept of its count, with `len` bytes written. -/
def Counted (len : ℕ) (r : Reader) : Phase → Prop
  | .idle => True
  | .entered count | .waiting count | .preparing count | .prepared count _ | .falling count
  | .asleep count | .counting count => count ≠ 0 ∧ count = r.asked
  | .copying count => count ≠ 0 ∧ r.f_pos + count ≤ len

/-- What the steps of reads that are not beyond the end keep for one file. -/
structure Seated (len : ℕ) (r : Reader) : Prop where
  nonneg : 0 ≤ r.f_pos
  small : r.f_pos < 2 ^ 63
  counted : r.Counted len r.phase

end Reader

/-! ### Seeks -/

/-- What the files do, and seeks on files that are in no call. -/
inductive SeekAct where
  | call (a : WorldAct)
  | seek (f pos : ℕ)

namespace World

variable (w : World)

def nextSeek : SeekAct → Option World
  | .call a => w.next a
  | .seek f pos =>
    match (w.readers f).phase with
    | .idle => if pos < 2 ^ 63 then some (w.setReader f { w.readers f with f_pos := pos }) else none
    | _ => none

/-- The step of a call of `my_read`, if the action is one, stays inside what is written. -/
def ReadInside : SeekAct → Prop
  | .call (.enter f count) =>
    ∀ r, (w.readers f).enter w.dev count = some r →
      Reader.Inside w.dev { w.readers f with asked := count } r
  | .call (.step f signal c) =>
    ∀ r, (w.readers f).step w.dev signal c = some r → (w.readers f).Inside w.dev r
  | _ => True

/-- No read computes its count beyond what is written. -/
def NotBeyond : SeekAct → Prop
  | .call (.step f _ _) => ¬ (w.readers f).Beyond w.dev
  | _ => True

instance (w : World) (a : SeekAct) : Decidable (w.NotBeyond a) :=
  match a with
  | .call (.enter _ _) | .call (.write _ _) | .seek _ _ => inferInstanceAs (Decidable True)
  | .call (.step f _ _) => inferInstanceAs (Decidable (¬ (w.readers f).Beyond w.dev))

/-- What the runs without such a read keep. -/
structure Settled : Prop where
  dev : w.dev.Holds w.accepted
  readers : ∀ f, (w.readers f).Seated w.accepted.length

end World

/-- The files of one device, its writers, and seeks. -/
def seekable : System World SeekAct :=
  System.ofPartial World.nextSeek

/-! ### Steps -/

lemma Phase.exists_of_counts {ph : Phase} (h : ph.counts = true) :
    ∃ count, ph = .counting count := by
  cases ph with
  | counting count => exact ⟨count, rfl⟩
  | _ => cases h

lemma Mydev.Holds.written {dev : Mydev} {log : List UInt8} (h : dev.Holds log) :
    dev.written = log.length := by
  rw [Mydev.written, h.wp_eq]
  omega

namespace Reader

variable {r r' : Reader} {dev : Mydev} {log : List UInt8}

lemma Seated.goto {len : ℕ} {ph : Phase} (h : r.Seated len) (hph : r.Counted len ph) :
    (r.goto ph).Seated len := by
  refine ⟨h.nonneg, h.small, ?_⟩
  cases ph <;> exact hph

lemma Seated.reply {len : ℕ} (h : r.Seated len) (ret : ℤ) : (r.reply ret).Seated len :=
  ⟨h.nonneg, h.small, trivial⟩

lemma Seated.mono {len len' : ℕ} (h : r.Seated len) (hle : len ≤ len') : r.wake.Seated len' := by
  refine ⟨h.nonneg, h.small, ?_⟩
  have hcounted := h.counted
  change r.Counted len' r.phase
  cases hph : r.phase with
  | copying count =>
    rw [hph] at hcounted
    exact ⟨hcounted.1, hcounted.2.trans (Int.ofNat_le.mpr hle)⟩
  | _ =>
    rw [hph] at hcounted
    exact hcounted

/-- A step that goes on to a phase other than the copy, with nothing returned. -/
lemma Inside.goto {ph : Phase} (hfrom : ∀ n, r.phase ≠ .copying n) (hto : ∀ n, ph ≠ .copying n) :
    r.Inside dev (r.goto ph) where
  asks n hn := absurd hn (hto n)
  copies n hn := absurd hn (hfrom n)
  ends _ x hx := absurd hx.symm (List.cons_ne_self x r.replies)
  pos := Or.inl rfl

/-- A step that returns without a copy. -/
lemma Inside.reply {ret : ℤ} (hfrom : ∀ n, r.phase ≠ .copying n)
    (hret : ret = 0 ∨ ret = -ERESTARTSYS) : r.Inside dev (r.reply ret) where
  asks _ hn := nomatch hn
  copies n hn := absurd hn (hfrom n)
  ends _ x hx := by
    rw [← (List.cons.inj hx).1]
    exact hret
  pos := Or.inl rfl

/-- A call is made. -/
lemma Seated.enter {len count : ℕ} (h : r.Seated len) (henter : r.enter dev count = some r') :
    r'.Seated len ∧ Inside dev { r with asked := count } r' := by
  rw [Reader.enter] at henter
  split at henter
  · next hidle =>
    have hr : Seated len { r with asked := count } := ⟨h.nonneg, h.small, hidle ▸ trivial⟩
    have hcall : ∀ n, Reader.phase { r with asked := count } ≠ .copying n := by
      simp [hidle]
    rw [← Option.some.inj henter]
    split_ifs with hzero hend
    · exact ⟨hr.reply _, Inside.reply hcall (Or.inl (Int.natCast_eq_zero.mpr hzero))⟩
    · exact ⟨hr.reply _, Inside.reply hcall (Or.inl rfl)⟩
    · exact ⟨hr.goto ⟨hzero, rfl⟩, Inside.goto hcall (by simp)⟩
  · cases henter

/-- What is left to read at a position that is not beyond the end. -/
lemma Seated.room {len : ℕ} (h : r.Seated len) (hlog : log.length ≤ BUF_LEN)
    (hdev : dev.written = log.length) (hle : r.f_pos ≤ dev.written) :
    (toSizeT (dev.remaining r.f_pos) : ℤ) = dev.written - r.f_pos := by
  have hnonneg := h.nonneg
  have hremaining : dev.remaining r.f_pos = dev.written - r.f_pos := rfl
  unfold BUF_LEN at hlog
  rw [hremaining, toSizeT_of_nonneg (by omega) (by omega)]
  omega

/-- A step of a call that is not beyond the end. -/
lemma Seated.step {signal : Bool} {c : UserCopy} (h : r.Seated log.length) (hdev : dev.Holds log)
    (hok : ¬ r.Beyond dev) (hstep : r.step dev signal c = some r') :
    r'.Seated log.length ∧ r.Inside dev r' := by
  have hcounted := h.counted
  have hwritten := hdev.written
  rw [Reader.step] at hstep
  split at hstep
  · cases hstep
  · next count hph =>
    rw [hph] at hcounted
    rw [← Option.some.inj hstep]
    split_ifs
    all_goals
      exact ⟨h.goto hcounted, Inside.goto (by simp [hph]) (by simp)⟩
  · next count hph =>
    rw [hph] at hcounted
    rw [← Option.some.inj hstep]
    split_ifs
    all_goals
      exact ⟨h.goto hcounted, Inside.goto (by simp [hph]) (by simp)⟩
  · next count hph =>
    rw [hph] at hcounted
    rw [← Option.some.inj hstep]
    refine ⟨⟨h.nonneg, h.small, hcounted⟩, fun n hn => (by cases hn), fun n hn => ?_,
      fun _ x hx => ?_, Or.inl rfl⟩
    · cases hph.symm.trans hn
    · exact absurd hx.symm (List.cons_ne_self x r.replies)
  · next count sig hph =>
    rw [hph] at hcounted
    rw [← Option.some.inj hstep]
    have hcall : ∀ n, r.phase ≠ .copying n := by simp [hph]
    split_ifs
    · exact ⟨h.goto hcounted, Inside.goto hcall (by simp)⟩
    · exact ⟨h.reply _, Inside.reply hcall (Or.inr rfl)⟩
    · exact ⟨h.goto hcounted, Inside.goto hcall (by simp)⟩
  · next count hph =>
    rw [hph] at hcounted
    rw [← Option.some.inj hstep]
    exact ⟨h.goto hcounted, Inside.goto (by simp [hph]) (by simp)⟩
  · next count hph =>
    rw [hph] at hcounted
    split_ifs at hstep
    rw [← Option.some.inj hstep]
    exact ⟨h.goto hcounted, Inside.goto (by simp [hph]) (by simp)⟩
  · next count hph =>
    rw [hph] at hcounted
    obtain ⟨hzero, hasked⟩ := hcounted
    have hle : r.f_pos ≤ dev.written := not_lt.mp fun hlt => hok ⟨by rw [hph]; rfl, hlt⟩
    have hroom := h.room hdev.length_le hwritten hle
    have hcall : ∀ n, r.phase ≠ .copying n := by simp [hph]
    rw [← Option.some.inj hstep]
    split_ifs with hnone
    · exact ⟨h.reply _, Inside.reply hcall (Or.inl (Int.natCast_eq_zero.mpr hnone))⟩
    · refine ⟨h.goto ⟨hnone, ?_⟩, fun n hn => ?_, fun n hn => absurd hn (hcall n), fun _ x hx => ?_,
        Or.inl rfl⟩
      · omega
      · cases hn
        omega
      · exact absurd hx.symm (List.cons_ne_self x r.replies)
  · next count hph =>
    rw [hph] at hcounted
    obtain ⟨hzero, hle⟩ := hcounted
    have hnonneg := h.nonneg
    have hlog := hdev.length_le
    unfold BUF_LEN at hlog
    have hcopies : ∀ n, r.phase = .copying n → 0 ≤ r.f_pos ∧ r.f_pos + n ≤ dev.written := by
      intro n hn
      cases hph.symm.trans hn
      exact ⟨hnonneg, hwritten ▸ hle⟩
    have hbefore : r.f_pos < dev.written := by omega
    rw [← Option.some.inj hstep]
    split_ifs with hmissing
    · exact ⟨h.reply _, fun n hn => (by cases hn), hcopies,
        fun hend => absurd hbefore (not_lt.mpr hend), Or.inl rfl⟩
    · have hpos : toLoff (r.f_pos + count) = r.f_pos + count :=
        toLoff_of_small (by omega) (by omega)
      refine ⟨⟨?_, ?_, trivial⟩, fun n hn => (by cases hn), hcopies,
        fun hend => absurd hbefore (not_lt.mpr hend), Or.inr ?_⟩
      · change 0 ≤ toLoff (r.f_pos + count)
        omega
      · change toLoff (r.f_pos + count) < 2 ^ 63
        omega
      · change toLoff (r.f_pos + count) ≤ dev.written
        omega

/-- Beyond the end, the number of remaining bytes is cast to a huge one, and the copy is set up. -/
lemma Seated.not_inside {signal : Bool} {c : UserCopy} (h : r.Seated log.length)
    (hdev : dev.Holds log) (hbeyond : r.Beyond dev) (hstep : r.step dev signal c = some r') :
    ¬ r.Inside dev r' := by
  obtain ⟨hcounts, hlt⟩ := hbeyond
  obtain ⟨count, hph⟩ := Phase.exists_of_counts hcounts
  have hcounted := h.counted
  have hwritten := hdev.written
  have hsmall := h.small
  rw [hph] at hcounted
  have hhuge : toSizeT (dev.remaining r.f_pos) ≠ 0 := by
    have hremaining : dev.remaining r.f_pos = dev.written - r.f_pos := rfl
    rw [hremaining, toSizeT]
    omega
  have hasks : r.phase = .counting count → r' = r.goto (.copying
      (min count (toSizeT (dev.remaining r.f_pos)))) := by
    intro hph
    rw [Reader.step, hph] at hstep
    rw [← Option.some.inj hstep]
    exact if_neg fun hmin => by
      rcases Nat.min_eq_zero_iff.mp hmin with hno | hno
      · exact hcounted.1 hno
      · exact hhuge hno
  intro hinside
  have hphase := congrArg Reader.phase (hasks hph)
  exact absurd (hinside.asks _ hphase).1 (not_lt.mpr hlt.le)

end Reader

/-! ### Runs -/

namespace World

variable {w w' : World}

lemma Settled.setReader {f : ℕ} {r : Reader} (h : w.Settled) (hr : r.Seated w.accepted.length) :
    (w.setReader f r).Settled where
  dev := h.dev
  readers g := by
    change (Function.update w.readers f r g).Seated w.accepted.length
    by_cases hgf : g = f
    · rw [hgf, Function.update_self]
      exact hr
    · rw [Function.update_of_ne hgf]
      exact h.readers g

lemma Settled.write {data : List UInt8} {c : UserCopy} (h : w.Settled)
    (hnext : w.next (.write data c) = some w') : w'.Settled := by
  have hwrite : (if 0 < (w.dev.my_write data c).2 then
      { dev := (w.dev.my_write data c).1
        readers := fun f => (w.readers f).wake
        accepted := w.accepted ++ data.take (w.dev.my_write data c).2.toNat }
    else { w with dev := (w.dev.my_write data c).1 }) = w' := Option.some.inj hnext
  rw [← hwrite]
  rcases h.dev.my_write data c with ⟨hret, hdev⟩ | ⟨hret, hdev⟩
  · rw [if_neg (not_lt.mpr hret)]
    exact ⟨hdev, h.readers⟩
  · rw [if_pos hret]
    refine ⟨hdev, fun f => (h.readers f).mono ?_⟩
    rw [List.length_append]
    exact Nat.le_add_right _ _

/-- A step without a read beyond the end. -/
lemma Settled.step {a : SeekAct} (h : w.Settled) (hok : w.NotBeyond a)
    (hstep : seekable.step w a w') : w'.Settled := by
  have hnext : w.nextSeek a = some w' := hstep
  match a with
  | .call (.enter f count) =>
    obtain ⟨r, henter, rfl⟩ := Option.map_eq_some_iff.mp hnext
    exact h.setReader ((h.readers f).enter henter).1
  | .call (.step f signal c) =>
    obtain ⟨r, hread, rfl⟩ := Option.map_eq_some_iff.mp hnext
    exact h.setReader ((h.readers f).step h.dev hok hread).1
  | .call (.write data c) => exact h.write hnext
  | .seek f pos =>
    rw [nextSeek] at hnext
    split at hnext
    · next hidle =>
      split_ifs at hnext with hpos
      rw [← Option.some.inj hnext]
      refine h.setReader ⟨Int.natCast_nonneg pos, ?_, ?_⟩
      · change (pos : ℤ) < 2 ^ 63
        omega
      · change Reader.Counted _ _ (w.readers f).phase
        rw [hidle]
        trivial
    · cases hnext

/-- The steps that stay inside what is written are those that are not beyond its end. -/
lemma Settled.readInside_iff {a : SeekAct} (h : w.Settled) (hstep : seekable.step w a w') :
    w.ReadInside a ↔ w.NotBeyond a := by
  have hnext : w.nextSeek a = some w' := hstep
  match a with
  | .call (.enter f count) =>
    exact ⟨fun _ => trivial, fun _ r henter => ((h.readers f).enter henter).2⟩
  | .call (.step f signal c) =>
    obtain ⟨r, hread, -⟩ := Option.map_eq_some_iff.mp hnext
    constructor
    · intro hinside hbeyond
      exact (h.readers f).not_inside h.dev hbeyond hread (hinside r hread)
    · intro hok r' hread'
      exact ((h.readers f).step h.dev hok hread').2
  | .call (.write data c) => exact Iff.rfl
  | .seek f pos => exact Iff.rfl

lemma settled_init (mem : Memory UInt8) (start : ℕ) : (init mem start).Settled where
  dev := (inv_init mem start).dev
  readers _ := ⟨le_refl _, Int.pow_pos (by decide), trivial⟩

end World

/-- In the runs of reads, writes and seeks, every step of a read stays inside what is written if and
only if no read computes its count beyond the end of it. -/
lemma along_readInside_iff {mem : Memory UInt8} {start : ℕ} {tr : List (SeekAct × World)}
    (hrun : seekable.Run (World.init mem start) tr) :
    System.Along World.ReadInside (World.init mem start) tr ↔
      System.Along World.NotBeyond (World.init mem start) tr :=
  hrun.along_iff (fun _ _ _ h => h.step) (fun _ _ _ h => h.readInside_iff)
    (World.settled_init mem start)

end QuickDevSkeleton.Wait
