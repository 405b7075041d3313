import QuickDevSkeleton.Wait.Device

/-!
# What the readers see

Whatever the order of reads, writes, wakeups and signals, every file reads the accepted bytes from
the first one on, a read ends empty-handed only at the end of the buffer, and nobody sleeps through
bytes that have arrived.
-/

namespace QuickDevSkeleton.Wait

open Foundations

/-- Every file has been delivered the accepted bytes up to its position; a read with a positive
count returns 0 only at the end of the buffer; and a process that sleeps, or is going to, and that
no `wake_up` has reached has nothing to read. -/
structure World.Faithful (w : World) : Prop where
  delivered : ∀ f, (w.readers f).f_pos = (w.readers f).delivered.length ∧
    (w.readers f).delivered <+: w.accepted
  ends : ∀ f, ∀ r ∈ (w.readers f).replies, 1 ≤ r.count → r.ret = 0 → r.pos = BUF_LEN
  awake : ∀ f, (w.readers f).phase.down = true → (w.readers f).woken = false →
    (w.dev.wp : ℤ) - w.dev.start = (w.readers f).f_pos

/-- The buffer holds the bytes `log`. -/
structure Mydev.Holds (dev : Mydev) (log : List UInt8) : Prop where
  end_eq : dev.end_ = dev.start + BUF_LEN
  wp_eq : dev.wp = dev.start + log.length
  length_le : log.length ≤ BUF_LEN
  read_eq : dev.mem.read dev.start log.length = log

/-- What a call has made sure of, at position `pos` of a log of length `len`. -/
def Phase.Checked (pos len : ℕ) : Phase → Prop
  | .idle => True
  | .entered count | .waiting count | .preparing count | .prepared count _ | .falling count
  | .asleep count => count ≠ 0
  | .counting count => count ≠ 0 ∧ pos < len
  | .copying count => count ≠ 0 ∧ pos + count ≤ len

/-- What the steps keep for one file. -/
structure Reader.Ok (r : Reader) (log : List UInt8) : Prop where
  pos_eq : r.f_pos = r.delivered.length
  delivered : r.delivered <+: log
  ends : ∀ x ∈ r.replies, 1 ≤ x.count → x.ret = 0 → x.pos = BUF_LEN
  awake : r.phase.down = true → r.woken = false → r.delivered.length = log.length
  checked : r.phase.Checked r.delivered.length log.length

structure World.Inv (w : World) : Prop where
  dev : w.dev.Holds w.accepted
  readers : ∀ f, (w.readers f).Ok w.accepted

/-! ### Writes -/

section

variable {dev : Mydev} {log : List UInt8}

/-- A copy to `wp` does not touch what is below. -/
lemma Mydev.Holds.store (h : dev.Holds log) (bs : List UInt8) :
    Mydev.Holds { dev with mem := dev.mem.write dev.wp bs } log where
  end_eq := h.end_eq
  wp_eq := h.wp_eq
  length_le := h.length_le
  read_eq := by
    change (dev.mem.write dev.wp bs).read dev.start log.length = log
    rw [Memory.read_write_disjoint _ (Or.inl h.wp_eq.ge)]
    exact h.read_eq

/-- A successful write appends. -/
lemma Mydev.Holds.append (h : dev.Holds log) (bs : List UInt8)
    (hle : log.length + bs.length ≤ BUF_LEN) :
    Mydev.Holds { dev with mem := dev.mem.write dev.wp bs, wp := dev.wp + bs.length }
      (log ++ bs) where
  end_eq := h.end_eq
  wp_eq := by
    rw [List.length_append, ← Nat.add_assoc, ← h.wp_eq]
  length_le := by rwa [List.length_append]
  read_eq := by
    change (dev.mem.write dev.wp bs).read dev.start (log ++ bs).length = log ++ bs
    rw [List.length_append, Memory.read_add, (h.store bs).read_eq, ← h.wp_eq,
      Memory.read_write_same]

/-- A write appends the bytes whose number it returns, or appends nothing. -/
lemma Mydev.Holds.my_write (h : dev.Holds log) (data : List UInt8) (c : UserCopy) :
    (dev.my_write data c).2 ≤ 0 ∧ (dev.my_write data c).1.Holds log ∨
      0 < (dev.my_write data c).2 ∧
        (dev.my_write data c).1.Holds (log ++ data.take (dev.my_write data c).2.toNat) := by
  have hroom : toSizeT ((dev.end_ : ℤ) - dev.wp) = BUF_LEN - log.length := by
    have hle := h.length_le
    have hend := h.end_eq
    have hwp := h.wp_eq
    unfold BUF_LEN at *
    rw [toSizeT_of_nonneg (by omega) (by omega)]
    omega
  simp only [Mydev.my_write, hroom]
  by_cases hzero : min data.length (BUF_LEN - log.length) = 0
  · rw [if_pos hzero, hzero]
    exact Or.inl ⟨le_refl _, h⟩
  · rw [if_neg hzero]
    split_ifs with hmissing
    · exact Or.inl ⟨show -EFAULT ≤ 0 by decide, h.store _⟩
    · have hlen : (data.take (min data.length (BUF_LEN - log.length))).length =
          min data.length (BUF_LEN - log.length) := by
        rw [List.length_take, Nat.min_eq_left (Nat.min_le_left _ _)]
      refine Or.inr ⟨Int.natCast_pos.mpr (Nat.pos_of_ne_zero hzero), ?_⟩
      rw [c.copy_from_user_ok (not_not.mp hmissing), Int.toNat_natCast]
      have hfits : log.length + min data.length (BUF_LEN - log.length) ≤ BUF_LEN := by
        have hle := h.length_le
        omega
      have happ := h.append (data.take (min data.length (BUF_LEN - log.length))) (hlen.symm ▸ hfits)
      rwa [hlen] at happ

end

/-! ### Reads -/

namespace Reader

variable {r r' : Reader} {dev : Mydev} {log : List UInt8}

/-- What is left to read. -/
lemma Ok.remaining (h : r.Ok log) (hdev : dev.Holds log) :
    dev.remaining r.f_pos = ((log.length - r.delivered.length : ℕ) : ℤ) := by
  have hle := h.delivered.length_le
  rw [Mydev.remaining, h.pos_eq, hdev.wp_eq]
  omega

lemma Ok.goto {ph : Phase} (h : r.Ok log)
    (hdown : ph.down = false ∨ r.delivered.length = log.length)
    (hchecked : ph.Checked r.delivered.length log.length) : (r.goto ph).Ok log where
  pos_eq := h.pos_eq
  delivered := h.delivered
  ends := h.ends
  awake hd _ := hdown.resolve_left fun hno => Bool.false_ne_true (hno.symm.trans hd)
  checked := hchecked

lemma Ok.reply {ret : ℤ} (h : r.Ok log) (hret : 1 ≤ r.asked → ret = 0 → r.f_pos = BUF_LEN) :
    (r.reply ret).Ok log where
  pos_eq := h.pos_eq
  delivered := h.delivered
  ends x hx := by
    rcases List.mem_cons.mp hx with rfl | hx
    · exact hret
    · exact h.ends x hx
  awake hd := nomatch hd
  checked := trivial

lemma Ok.enter {count : ℕ} (h : r.Ok log) (hdev : dev.Holds log)
    (henter : r.enter dev count = some r') : r'.Ok log := by
  rw [Reader.enter] at henter
  split at henter
  · next hidle =>
    have hr : Ok { r with asked := count } log :=
      ⟨h.pos_eq, h.delivered, h.ends, h.awake, h.checked⟩
    rw [← Option.some.inj henter]
    split_ifs with hzero hend
    · refine hr.reply fun hone => ?_
      exact absurd hzero (Nat.ne_of_gt hone)
    · refine hr.reply fun _ _ => ?_
      have hend' := hdev.end_eq
      have hpos : r.f_pos + dev.start = (dev.end_ : ℤ) := hend
      change r.f_pos = BUF_LEN
      omega
    · exact hr.goto (Or.inl rfl) hzero
  · cases henter

/-- The copy of a read delivers the next bytes of the log. -/
lemma Ok.copy {n : ℕ} (h : r.Ok log) (hdev : dev.Holds log) (hn : n ≠ 0)
    (hle : r.delivered.length + n ≤ log.length) :
    Ok { r.reply n with
      f_pos := toLoff (r.f_pos + n)
      delivered := r.delivered ++ dev.mem.read (dev.start + r.f_pos).toNat n } log := by
  have hreply : (r.reply n).Ok log :=
    h.reply fun _ hzero => absurd (Int.natCast_eq_zero.mp hzero) hn
  have hsmall : toLoff (r.f_pos + n) = ((r.delivered.length + n : ℕ) : ℤ) := by
    have hlog := hdev.length_le
    unfold BUF_LEN at hlog
    rw [h.pos_eq, ← Int.natCast_add]
    exact toLoff_of_small (Int.natCast_nonneg _) (by omega)
  have haddr : ((dev.start : ℤ) + r.f_pos).toNat = dev.start + r.delivered.length := by
    rw [h.pos_eq, ← Int.natCast_add, Int.toNat_natCast]
  have hlog : ∀ k, k ≤ log.length → dev.mem.read dev.start k = log.take k := by
    intro k hk
    rw [← Memory.take_read _ _ hk, hdev.read_eq]
  have hmore : r.delivered ++ dev.mem.read (dev.start + r.delivered.length) n =
      log.take (r.delivered.length + n) := by
    have hdelivered : r.delivered = dev.mem.read dev.start r.delivered.length :=
      (List.prefix_iff_eq_take.mp h.delivered).trans (hlog _ h.delivered.length_le).symm
    calc r.delivered ++ dev.mem.read (dev.start + r.delivered.length) n
        = dev.mem.read dev.start r.delivered.length ++
            dev.mem.read (dev.start + r.delivered.length) n :=
          congrArg (· ++ _) hdelivered
      _ = dev.mem.read dev.start (r.delivered.length + n) := (Memory.read_add _ _ _ _).symm
      _ = log.take (r.delivered.length + n) := hlog _ hle
  rw [haddr, hmore, hsmall]
  refine ⟨?_, List.take_prefix _ _, hreply.ends, fun hd => (nomatch hd), trivial⟩
  rw [List.length_take, Nat.min_eq_left hle]

/-- A step of a call that is in progress. -/
lemma Ok.step {signal : Bool} {c : UserCopy} (h : r.Ok log) (hdev : dev.Holds log)
    (hstep : r.step dev signal c = some r') : r'.Ok log := by
  have hchecked := h.checked
  have hrem := h.remaining hdev
  have hle := h.delivered.length_le
  rw [Reader.step] at hstep
  split at hstep
  · cases hstep
  · next count hph =>
    rw [hph] at hchecked
    rw [← Option.some.inj hstep]
    split_ifs with hzero
    · exact h.goto (Or.inl rfl) hchecked
    · exact h.goto (Or.inl rfl) ⟨hchecked, by omega⟩
  · next count hph =>
    rw [hph] at hchecked
    rw [← Option.some.inj hstep]
    split_ifs with hmore
    · exact h.goto (Or.inl rfl) ⟨hchecked, by omega⟩
    · exact h.goto (Or.inl rfl) hchecked
  · next count hph =>
    rw [hph] at hchecked
    rw [← Option.some.inj hstep]
    exact ⟨h.pos_eq, h.delivered, h.ends, fun hd => (nomatch hd), hchecked⟩
  · next count sig hph =>
    rw [hph] at hchecked
    rw [← Option.some.inj hstep]
    split_ifs with hmore hsig
    · exact h.goto (Or.inl rfl) ⟨hchecked, by omega⟩
    · exact h.reply fun _ hret => absurd hret (by decide)
    · exact h.goto (Or.inr (by omega)) hchecked
  · next count hph =>
    rw [hph] at hchecked
    rw [← Option.some.inj hstep]
    exact ⟨h.pos_eq, h.delivered, h.ends, fun _ => h.awake (by rw [hph]; rfl), hchecked⟩
  · next count hph =>
    rw [hph] at hchecked
    split_ifs at hstep
    rw [← Option.some.inj hstep]
    exact h.goto (Or.inl rfl) hchecked
  · next count hph =>
    rw [hph] at hchecked
    obtain ⟨hcount, hlt⟩ := hchecked
    have hcast : toSizeT (dev.remaining r.f_pos) = log.length - r.delivered.length := by
      have hlog := hdev.length_le
      unfold BUF_LEN at hlog
      rw [hrem, toSizeT_of_nonneg (Int.natCast_nonneg _) (by omega), Int.toNat_natCast]
    rw [← Option.some.inj hstep, hcast]
    split_ifs with hzero
    · omega
    · refine h.goto (Or.inl rfl) ⟨hzero, ?_⟩
      omega
  · next count hph =>
    rw [hph] at hchecked
    obtain ⟨hcount, hend⟩ := hchecked
    rw [← Option.some.inj hstep]
    split_ifs with hmissing
    · exact h.reply fun _ hret => absurd hret (by decide)
    · have hcopy := h.copy hdev hcount hend
      rwa [← c.copy_to_user_ok (not_not.mp hmissing)] at hcopy

/-- The log grows, and `wake_up` reaches whoever is on the queue. -/
lemma Ok.grow (h : r.Ok log) (bs : List UInt8) : r.wake.Ok (log ++ bs) where
  pos_eq := h.pos_eq
  delivered := h.delivered.trans (List.prefix_append _ _)
  ends := h.ends
  awake hd hw := by
    have hqueued : r.phase.queued = false := (Bool.or_eq_false_iff.mp hw).2
    have hdown : r.phase.down = true := hd
    cases hph : r.phase with
    | falling count =>
      rw [hph] at hqueued
      cases hqueued
    | asleep count =>
      rw [hph] at hqueued
      cases hqueued
    | _ =>
      rw [hph] at hdown
      cases hdown
  checked := by
    have hlen : log.length ≤ (log ++ bs).length := by
      rw [List.length_append]
      exact Nat.le_add_right _ _
    have hchecked := h.checked
    change r.phase.Checked r.delivered.length (log ++ bs).length
    cases hph : r.phase with
    | counting count =>
      rw [hph] at hchecked
      exact ⟨hchecked.1, hchecked.2.trans_le hlen⟩
    | copying count =>
      rw [hph] at hchecked
      exact ⟨hchecked.1, hchecked.2.trans hlen⟩
    | _ =>
      rw [hph] at hchecked
      exact hchecked

end Reader

/-! ### Runs -/

namespace World

variable {w w' : World}

lemma Inv.faithful (h : w.Inv) : w.Faithful where
  delivered f := ⟨(h.readers f).pos_eq, (h.readers f).delivered⟩
  ends f := (h.readers f).ends
  awake f hdown hwoken := by
    rw [(h.readers f).pos_eq, (h.readers f).awake hdown hwoken, h.dev.wp_eq, Int.natCast_add,
      add_sub_cancel_left]

lemma Inv.setReader {f : ℕ} {r : Reader} (h : w.Inv) (hr : r.Ok w.accepted) :
    (w.setReader f r).Inv where
  dev := h.dev
  readers g := by
    change (Function.update w.readers f r g).Ok w.accepted
    by_cases hgf : g = f
    · rw [hgf, Function.update_self]
      exact hr
    · rw [Function.update_of_ne hgf]
      exact h.readers g

lemma Inv.step {a : WorldAct} (h : w.Inv) (hstep : files.step w a w') : w'.Inv := by
  have hnext : w.next a = some w' := hstep
  cases a with
  | enter f count =>
    obtain ⟨r, henter, rfl⟩ := Option.map_eq_some_iff.mp hnext
    exact h.setReader ((h.readers f).enter h.dev henter)
  | step f signal c =>
    obtain ⟨r, hread, rfl⟩ := Option.map_eq_some_iff.mp hnext
    exact h.setReader ((h.readers f).step h.dev hread)
  | write data c =>
    have hwrite : (if 0 < (w.dev.my_write data c).2 then
        { dev := (w.dev.my_write data c).1
          readers := fun f => (w.readers f).wake
          accepted := w.accepted ++ data.take (w.dev.my_write data c).2.toNat }
      else { w with dev := (w.dev.my_write data c).1 }) = w' := Option.some.inj hnext
    rw [← hwrite]
    rcases h.dev.my_write data c with ⟨hret, hdev⟩ | ⟨hret, hdev⟩
    · rw [if_neg (not_lt.mpr hret)]
      exact ⟨hdev, h.readers⟩
    · rw [if_pos hret]
      exact ⟨hdev, fun f => (h.readers f).grow _⟩

lemma inv_init (mem : Memory UInt8) (start : ℕ) : (init mem start).Inv where
  dev := ⟨rfl, rfl, Nat.zero_le _, rfl⟩
  readers _ := ⟨rfl, List.nil_prefix, fun _ hx => (nomatch hx), fun hd => (nomatch hd), trivial⟩

end World

/-- In every state of every run of any number of files and writes, every file has been delivered the
accepted bytes up to its position, no read ends empty-handed before the end of the buffer, and no
process sleeps that has something to read and has not been woken. -/
theorem files_faithful (mem : Memory UInt8) (start : ℕ) (tr : List (WorldAct × World))
    (hrun : files.Run (World.init mem start) tr) :
    System.Always World.Faithful (World.init mem start) tr :=
  (hrun.always (fun _ _ _ h => h.step) (World.inv_init mem start)).mono fun _ => World.Inv.faithful

/-- A reader goes to sleep on the empty buffer, a write wakes it, and it reads the first byte. -/
theorem files_faithful_wakeup :
    ∃ tr, files.Run (World.init (fun _ => 0) 4096) tr ∧
      tr.map Prod.fst = [.enter 0 1, .step 0 false ⟨0, false⟩, .step 0 false ⟨0, false⟩,
        .step 0 false ⟨0, false⟩, .step 0 false ⟨0, false⟩, .step 0 false ⟨0, false⟩,
        .write [7, 8] ⟨2, false⟩, .step 0 false ⟨0, false⟩, .step 0 false ⟨0, false⟩,
        .step 0 false ⟨0, false⟩, .step 0 false ⟨0, false⟩, .step 0 false ⟨1, false⟩] ∧
      System.Always World.Faithful (World.init (fun _ => 0) 4096) tr := by
  have h : (System.final World.next (World.init (fun _ => 0) 4096)
      [.enter 0 1, .step 0 false ⟨0, false⟩, .step 0 false ⟨0, false⟩,
        .step 0 false ⟨0, false⟩, .step 0 false ⟨0, false⟩, .step 0 false ⟨0, false⟩,
        .write [7, 8] ⟨2, false⟩, .step 0 false ⟨0, false⟩, .step 0 false ⟨0, false⟩,
        .step 0 false ⟨0, false⟩, .step 0 false ⟨0, false⟩,
        .step 0 false ⟨1, false⟩]).isSome := by
    decide +kernel
  obtain ⟨tr, hrun, hacts⟩ := System.exists_run_of_isSome h
  exact ⟨tr, hrun, hacts, files_faithful _ _ tr hrun⟩

end QuickDevSkeleton.Wait
