import QuickDevSkeleton.Foundations.System
import QuickDevSkeleton.Pci.Registers

/-!
# The register window behind an open file

The calls that a process can make on one open file of the 8139 driver, in any order: `my_read`
and `my_write` at the position of the file or at one that the call names, and `my_llseek`. No
access leaves the window, and the position stays in it or just behind it; there, `my_llseek`
no longer accepts the position that it would have to tell.
-/

namespace QuickDevSkeleton.Pci

open Foundations

/-! ### Calls on an open file -/

/-- `pread` and `pwrite` are the positional calls. -/
inductive FileCall where
  | read (K : Transfer) (count : ℕ)
  | write (K : Transfer) (data : List UInt8)
  | pread (K : Transfer) (count : ℕ) (pos : ℤ)
  | pwrite (K : Transfer) (data : List UInt8) (pos : ℤ)
  | llseek (offset : ℤ) (origin : ℕ)

/-- Offsets are signed 64-bit numbers, and those of the positional calls are not negative. -/
def FileCall.Valid : FileCall → Prop
  | .pread _ _ pos => 0 ≤ pos ∧ pos < 2 ^ 63
  | .pwrite _ _ pos => 0 ≤ pos ∧ pos < 2 ^ 63
  | .llseek offset _ => -2 ^ 63 ≤ offset ∧ offset < 2 ^ 63
  | _ => True

/-- The kernel and an open file. -/
structure Session where
  kernel : World
  filp : File

namespace Session

variable (s : Session)

/-- The kernel passes `filp->f_pos` and stores what the call makes of it. -/
def atPosition (x : ℤ → Exec World Reply) : Session × Option Reply :=
  match x s.filp.f_pos s.kernel with
  | (some r, w) => (⟨w, { s.filp with f_pos := r.f_pos }⟩, some r)
  | (none, w) => (⟨w, s.filp⟩, none)

/-- The kernel passes a position of its own and forgets it. -/
def atOffset (x : Exec World Reply) : Session × Option Reply :=
  match x s.kernel with
  | (r, w) => (⟨w, s.filp⟩, r)

def call : FileCall → Session × Option Reply
  | .read K count => s.atPosition (my_read K s.filp count)
  | .write K data => s.atPosition (my_write K s.filp data)
  | .pread K count pos => s.atOffset (my_read K s.filp count pos)
  | .pwrite K data pos => s.atOffset (my_write K s.filp data pos)
  | .llseek offset origin =>
    match my_llseek s.filp offset origin s.kernel with
    | (some (ret, f_pos), w) => (⟨w, { s.filp with f_pos := f_pos }⟩, some ⟨ret, [], f_pos⟩)
    | (none, w) => (⟨w, s.filp⟩, none)

lemma atPosition_some {x : ℤ → Exec World Reply} {r : Reply} {w : World}
    (h : x s.filp.f_pos s.kernel = (some r, w)) :
    s.atPosition x = (⟨w, { s.filp with f_pos := r.f_pos }⟩, some r) := by
  rw [atPosition, h]

lemma atOffset_some {x : Exec World Reply} {r : Reply} {w : World}
    (h : x s.kernel = (some r, w)) : s.atOffset x = (⟨w, s.filp⟩, some r) := by
  rw [atOffset, h]

end Session

/-! ### The law of a call -/

/-- The window is mapped and the position is in it or just behind it. -/
structure Session.InWindow (d : Mydev) (s : Session) : Prop where
  dev : s.kernel.mydevs.cell s.filp.private_data = some d
  maps : s.kernel.Maps d
  lo : 0 ≤ s.filp.f_pos
  hi : s.filp.f_pos ≤ d.regs_len

/-- The same session where no io address is mapped but those of the window. -/
def Session.only (s : Session) (d : Mydev) : Session :=
  ⟨s.kernel.only d, s.filp⟩

/-- The call does the same where an access outside the window is a crash. -/
def Session.Confined (d : Mydev) (s : Session) (c : FileCall) : Prop :=
  (s.only d).call c = ((s.call c).1.only d, (s.call c).2)

/-- The reply `r` to a read of `count` bytes at `p`, where `io` are the device registers. -/
structure Mydev.ReadsAt (d : Mydev) (K : Transfer) (count : ℕ) (p : ℤ) (io : Memory UInt8)
    (r : Reply) : Prop where
  success : 0 ≤ r.ret → r.ret = d.available count p.toNat ∧
    r.bytes = io.read (d.ioaddr + p.toNat) (d.available count p.toNat) ∧
    r.f_pos = p + d.available count p.toNat
  failure : r.ret < 0 → K.Fails (d.available count p.toNat) ∧ r.f_pos = p

/-- The reply `r` to a write of `data` at `p`, which turns the registers `io` into `io'`. -/
structure Mydev.WritesAt (d : Mydev) (K : Transfer) (data : List UInt8) (p : ℤ)
    (io io' : Memory UInt8) (r : Reply) : Prop where
  success : 0 ≤ r.ret → r.ret = d.available data.length p.toNat ∧
    io' = io.write (d.ioaddr + p.toNat) (data.take (d.available data.length p.toNat)) ∧
    r.f_pos = p + d.available data.length p.toNat
  failure : r.ret < 0 → K.Fails (d.available data.length p.toNat) ∧ io' = io ∧ r.f_pos = p

/-- What a call that is answered by `r` does to the session. -/
def Session.Law (d : Mydev) (s : Session) (c : FileCall) (r : Reply) (t : Session) : Prop :=
  match c with
  | .read K count =>
    d.ReadsAt K count s.filp.f_pos s.kernel.io r ∧ t.kernel = s.kernel ∧ t.filp.f_pos = r.f_pos
  | .write K data =>
    d.WritesAt K data s.filp.f_pos s.kernel.io t.kernel.io r ∧ t.filp.f_pos = r.f_pos
  | .pread K count pos => d.ReadsAt K count pos s.kernel.io r ∧ t = s
  | .pwrite K data pos => d.WritesAt K data pos s.kernel.io t.kernel.io r ∧ t.filp = s.filp
  | .llseek _ _ =>
    t.kernel = s.kernel ∧ (r.ret < 0 → t.filp = s.filp) ∧ (0 ≤ r.ret → t.filp.f_pos = r.ret)

/-- A call is answered, obeys its law and stays in the window. -/
def Session.CallOk (d : Mydev) (s : Session) (a : FileCall × Option Reply) : Prop :=
  s.Confined d a.1 ∧ ∃ r, a.2 = some r ∧ s.Law d a.1 r (s.call a.1).1

/-! ### Replies -/

section

variable {d : Mydev} {K : Transfer}

lemma Transfer.readReply_fails {io : Memory UInt8} {count p : ℕ}
    (h : K.Fails (d.available count p)) :
    K.readReply d io count p = K.failure p (io.read (d.ioaddr + p) K.copy.moved) := by
  rw [readReply, if_pos h]

lemma Transfer.readReply_ok {io : Memory UInt8} {count p : ℕ}
    (h : ¬ K.Fails (d.available count p)) :
    K.readReply d io count p = ⟨d.available count p,
      io.read (d.ioaddr + p) (d.available count p), p + d.available count p⟩ := by
  rw [readReply, if_neg h]

lemma Transfer.writeReply_fails {data : List UInt8} {p : ℕ}
    (h : K.Fails (d.available data.length p)) : K.writeReply d data p = K.failure p [] := by
  rw [writeReply, if_pos h]

lemma Transfer.writeReply_ok {data : List UInt8} {p : ℕ}
    (h : ¬ K.Fails (d.available data.length p)) :
    K.writeReply d data p =
      ⟨d.available data.length p, [], p + d.available data.length p⟩ := by
  rw [writeReply, if_neg h]

lemma readsAt_readReply (d : Mydev) (K : Transfer) (count : ℕ) {pos : ℤ} (hpos : 0 ≤ pos)
    (io : Memory UInt8) : d.ReadsAt K count pos io (K.readReply d io count pos.toNat) := by
  obtain ⟨p, rfl⟩ := Int.eq_ofNat_of_zero_le hpos
  rw [Int.toNat_natCast]
  by_cases h : K.Fails (d.available count p)
  · rw [Transfer.readReply_fails h]
    constructor
    · intro hret
      exact absurd hret (not_le.mpr (Transfer.failure_ret p _))
    · intro _
      exact ⟨h, Transfer.failure_f_pos p _⟩
  · rw [Transfer.readReply_ok h]
    constructor
    · intro _
      exact ⟨rfl, rfl, rfl⟩
    · intro hret
      exact absurd hret (not_lt.mpr (Int.natCast_nonneg _))

lemma writesAt_writeReply (d : Mydev) (K : Transfer) (data : List UInt8) {pos : ℤ}
    (hpos : 0 ≤ pos) (io : Memory UInt8) :
    d.WritesAt K data pos io (K.written d io data pos.toNat)
      (K.writeReply d data pos.toNat) := by
  obtain ⟨p, rfl⟩ := Int.eq_ofNat_of_zero_le hpos
  rw [Int.toNat_natCast]
  by_cases h : K.Fails (d.available data.length p)
  · rw [Transfer.writeReply_fails h, Transfer.written, if_pos h]
    constructor
    · intro hret
      exact absurd hret (not_le.mpr (Transfer.failure_ret p _))
    · intro _
      exact ⟨h, rfl, Transfer.failure_f_pos p _⟩
  · rw [Transfer.writeReply_ok h, Transfer.written, if_neg h]
    constructor
    · intro _
      exact ⟨rfl, rfl, rfl⟩
    · intro hret
      exact absurd hret (not_lt.mpr (Int.natCast_nonneg _))

/-- A seek that fails leaves the position alone, another one moves to the offset it returns. -/
lemma sought_law (filp : File) {offset : ℤ} {origin : ℕ} :
    ((d.sought filp.f_pos offset origin).1 < 0 →
        { filp with f_pos := (d.sought filp.f_pos offset origin).2 } = filp) ∧
      (0 ≤ (d.sought filp.f_pos offset origin).1 →
        (d.sought filp.f_pos offset origin).2 = (d.sought filp.f_pos offset origin).1) := by
  rw [Mydev.sought]
  split
  · exact ⟨fun hneg => by simp only at hneg; omega, fun _ => rfl⟩
  · exact ⟨fun _ => rfl, fun hret => absurd hret (show ¬ (0 : ℤ) ≤ -EINVAL by decide)⟩

/-- The position after a transfer of `count` bytes at `p`. -/
def Transfer.position (K : Transfer) (d : Mydev) (count p : ℕ) : ℤ :=
  if K.Fails (d.available count p) then p else p + d.available count p

lemma Transfer.readReply_f_pos (K : Transfer) (d : Mydev) (io : Memory UInt8) (count p : ℕ) :
    (K.readReply d io count p).f_pos = K.position d count p := by
  rw [position, readReply]
  split
  · exact failure_f_pos p _
  · rfl

lemma Transfer.writeReply_f_pos (K : Transfer) (d : Mydev) (data : List UInt8) (p : ℕ) :
    (K.writeReply d data p).f_pos = K.position d data.length p := by
  rw [position, writeReply]
  split
  · exact failure_f_pos p _
  · rfl

/-- A transfer moves the position forward, at most to the end of the window. -/
lemma Transfer.position_bounds {count p : ℕ} (hp : p ≤ d.regs_len) :
    0 ≤ K.position d count p ∧ K.position d count p ≤ d.regs_len := by
  rw [position]
  split
  · omega
  · rw [Mydev.available]
    omega

/-- From a position in the window, it leads out exactly if it is complete and goes to the end. -/
lemma Transfer.position_lt_iff {count p : ℕ} (hp : p < d.regs_len) :
    K.position d count p < d.regs_len ↔
      K.Fails (d.available count p) ∨ (p : ℤ) + count < d.regs_len := by
  rw [position]
  by_cases h : K.Fails (d.available count p)
  · simp [h, hp]
  · rw [if_neg h, or_iff_right h, Mydev.available]
    omega

lemma sought_position {f_pos offset : ℤ} {origin : ℕ} (hlo : 0 ≤ f_pos) (hhi : f_pos ≤ d.regs_len) :
    0 ≤ (d.sought f_pos offset origin).2 ∧ (d.sought f_pos offset origin).2 ≤ d.regs_len := by
  rw [Mydev.sought]
  split
  · simp only
    omega
  · exact ⟨hlo, hhi⟩

end

/-! ### The calls of a session in the window -/

section

variable {w : World} {filp : File} {d : Mydev} {K : Transfer} {pos : ℤ}

lemma my_read_at (hd : w.mydevs.cell filp.private_data = some d) (h : w.Maps d) (count : ℕ)
    (hpos : 0 ≤ pos ∧ pos < 2 ^ 63) :
    my_read K filp count pos w = (some (K.readReply d w.io count pos.toNat), w) := by
  obtain ⟨p, rfl⟩ := Int.eq_ofNat_of_zero_le hpos.1
  rw [Int.toNat_natCast]
  exact my_read_run hd h (by omega)

lemma my_write_at (hd : w.mydevs.cell filp.private_data = some d) (h : w.Maps d)
    (data : List UInt8) (hpos : 0 ≤ pos ∧ pos < 2 ^ 63) :
    my_write K filp data pos w = (some (K.writeReply d data pos.toNat),
      { w with io := K.written d w.io data pos.toNat }) := by
  obtain ⟨p, rfl⟩ := Int.eq_ofNat_of_zero_le hpos.1
  rw [Int.toNat_natCast]
  exact my_write_run hd h (by omega)

end

namespace Session

variable {d : Mydev} {s : Session} {K : Transfer}

lemma InWindow.range (h : s.InWindow d) : 0 ≤ s.filp.f_pos ∧ s.filp.f_pos < 2 ^ 63 := by
  have hlo := h.lo
  have hhi := h.hi
  have hsmall := h.maps.small
  omega

lemma InWindow.only (h : s.InWindow d) : (s.only d).InWindow d where
  dev := h.dev
  maps := h.maps.only
  lo := h.lo
  hi := h.hi

/-- The position of the file may be set to any in the window, and the registers to any bytes. -/
lemma InWindow.moved (h : s.InWindow d) {pos : ℤ} (hpos : 0 ≤ pos ∧ pos ≤ d.regs_len)
    (io : Memory UInt8) :
    InWindow d ⟨{ s.kernel with io := io }, { s.filp with f_pos := pos }⟩ where
  dev := h.dev
  maps := ⟨h.maps.mapped, h.maps.pos, h.maps.small, h.maps.fits⟩
  lo := hpos.1
  hi := hpos.2

lemma InWindow.call_read (h : s.InWindow d) (count : ℕ) :
    s.call (.read K count) =
      (⟨s.kernel, { s.filp with
          f_pos := (K.readReply d s.kernel.io count s.filp.f_pos.toNat).f_pos }⟩,
        some (K.readReply d s.kernel.io count s.filp.f_pos.toNat)) :=
  s.atPosition_some (my_read_at h.dev h.maps count h.range)

lemma InWindow.call_write (h : s.InWindow d) (data : List UInt8) :
    s.call (.write K data) =
      (⟨{ s.kernel with io := K.written d s.kernel.io data s.filp.f_pos.toNat },
        { s.filp with f_pos := (K.writeReply d data s.filp.f_pos.toNat).f_pos }⟩,
        some (K.writeReply d data s.filp.f_pos.toNat)) :=
  s.atPosition_some (my_write_at h.dev h.maps data h.range)

lemma InWindow.call_pread (h : s.InWindow d) (count : ℕ) {pos : ℤ}
    (hpos : 0 ≤ pos ∧ pos < 2 ^ 63) :
    s.call (.pread K count pos) = (s, some (K.readReply d s.kernel.io count pos.toNat)) :=
  s.atOffset_some (my_read_at h.dev h.maps count hpos)

lemma InWindow.call_pwrite (h : s.InWindow d) (data : List UInt8) {pos : ℤ}
    (hpos : 0 ≤ pos ∧ pos < 2 ^ 63) :
    s.call (.pwrite K data pos) =
      (⟨{ s.kernel with io := K.written d s.kernel.io data pos.toNat }, s.filp⟩,
        some (K.writeReply d data pos.toNat)) :=
  s.atOffset_some (my_write_at h.dev h.maps data hpos)

lemma InWindow.call_llseek (h : s.InWindow d) {offset : ℤ} (origin : ℕ)
    (hoff : -2 ^ 63 ≤ offset ∧ offset < 2 ^ 63) :
    s.call (.llseek offset origin) =
      (⟨s.kernel, { s.filp with f_pos := (d.sought s.filp.f_pos offset origin).2 }⟩,
        some ⟨(d.sought s.filp.f_pos offset origin).1, [],
          (d.sought s.filp.f_pos offset origin).2⟩) := by
  rw [call, my_llseek_run h.dev hoff]

/-- No call needs an io address outside the window. -/
lemma InWindow.confined (h : s.InWindow d) {c : FileCall} (hc : c.Valid) : s.Confined d c := by
  cases c with
  | read K count =>
    rw [Confined, h.only.call_read, h.call_read]
    rfl
  | write K data =>
    rw [Confined, h.only.call_write, h.call_write]
    rfl
  | pread K count pos =>
    rw [Confined, h.only.call_pread count hc, h.call_pread count hc]
    rfl
  | pwrite K data pos =>
    rw [Confined, h.only.call_pwrite data hc, h.call_pwrite data hc]
    rfl
  | llseek offset origin =>
    rw [Confined, h.only.call_llseek origin hc, h.call_llseek origin hc]
    rfl

/-- A call leaves the position in the window or just behind it. -/
lemma InWindow.call (h : s.InWindow d) {c : FileCall} (hc : c.Valid) :
    (s.call c).1.InWindow d := by
  have hlo := h.lo
  have hhi := h.hi
  have hp : s.filp.f_pos.toNat ≤ d.regs_len := by omega
  cases c with
  | read K count =>
    rw [h.call_read, K.readReply_f_pos]
    exact h.moved (Transfer.position_bounds hp) s.kernel.io
  | write K data =>
    rw [h.call_write, K.writeReply_f_pos]
    exact h.moved (Transfer.position_bounds hp) _
  | pread K count pos =>
    rw [h.call_pread count hc]
    exact h
  | pwrite K data pos =>
    rw [h.call_pwrite data hc]
    exact h.moved ⟨hlo, hhi⟩ _
  | llseek offset origin =>
    rw [h.call_llseek origin hc]
    exact h.moved (sought_position hlo hhi) s.kernel.io

lemma InWindow.callOk (h : s.InWindow d) {c : FileCall} (hc : c.Valid) :
    s.CallOk d (c, (s.call c).2) := by
  refine ⟨h.confined hc, ?_⟩
  cases c with
  | read K count =>
    rw [h.call_read]
    exact ⟨_, rfl, readsAt_readReply d K count h.lo s.kernel.io, rfl, rfl⟩
  | write K data =>
    rw [h.call_write]
    exact ⟨_, rfl, writesAt_writeReply d K data h.lo s.kernel.io, rfl⟩
  | pread K count pos =>
    rw [h.call_pread count hc]
    exact ⟨_, rfl, readsAt_readReply d K count hc.1 s.kernel.io, rfl⟩
  | pwrite K data pos =>
    rw [h.call_pwrite data hc]
    exact ⟨_, rfl, writesAt_writeReply d K data hc.1 s.kernel.io, rfl⟩
  | llseek offset origin =>
    rw [h.call_llseek origin hc]
    exact ⟨_, rfl, rfl, sought_law s.filp⟩

end Session

/-! ### Every sequence of calls -/

/-- The calls on one open file, each with its reply. -/
def session : System Session (FileCall × Option Reply) where
  step s a t := a.1.Valid ∧ s.call a.1 = (t, a.2)

namespace Session

variable {d : Mydev} {s t : Session} {a : FileCall × Option Reply}

lemma InWindow.step (h : s.InWindow d) (hstep : session.step s a t) : t.InWindow d := by
  have ht := h.call hstep.1
  rwa [hstep.2] at ht

lemma InWindow.step_ok (h : s.InWindow d) (hstep : session.step s a t) : s.CallOk d a := by
  have hok := h.callOk hstep.1
  rwa [hstep.2] at hok

/-- A file that was opened just now. -/
lemma inWindow_open {w : World} {filp : File} (hd : w.mydevs.cell filp.private_data = some d)
    (hmaps : w.Maps d) (hopen : filp.f_pos = 0) : InWindow d ⟨w, filp⟩ where
  dev := hd
  maps := hmaps
  lo := hopen.ge
  hi := by
    rw [hopen]
    omega

end Session

/-- The run of a list of calls. -/
lemma run_calls {cs : List FileCall} (s : Session) (h : ∀ c ∈ cs, c.Valid) :
    session.Run s (System.trace Session.call s cs) := by
  induction cs generalizing s with
  | nil => exact System.Run.nil s
  | cons c cs ih =>
    exact System.Run.cons ⟨h c List.mem_cons_self, rfl⟩
      (ih _ fun c' hc' => h c' (List.mem_cons_of_mem c hc'))

/-- In every sequence of calls on an open file, the position stays in the window or just behind
it, and every call obeys its law and stays in the window. -/
theorem window_confined (w : World) (filp : File) (d : Mydev)
    (hd : w.mydevs.cell filp.private_data = some d) (hmaps : w.Maps d) (hopen : filp.f_pos = 0)
    (tr : List ((FileCall × Option Reply) × Session)) (hrun : session.Run ⟨w, filp⟩ tr) :
    System.Always (fun s : Session => 0 ≤ s.filp.f_pos ∧ s.filp.f_pos ≤ d.regs_len) ⟨w, filp⟩ tr ∧
      System.Along (Session.CallOk d) ⟨w, filp⟩ tr := by
  have hstart := Session.inWindow_open hd hmaps hopen
  have hall : System.Always (Session.InWindow d) ⟨w, filp⟩ tr :=
    hrun.always (fun s a t hs hstep => hs.step hstep) hstart
  constructor
  · exact hall.mono fun s hs => ⟨hs.lo, hs.hi⟩
  · exact hrun.along (fun s a t hs hstep => hs.step hstep) (fun s a t hs hstep => hs.step_ok hstep)
      hstart

/-- A card whose window of 256 registers is mapped. -/
def World.cardMapped : World :=
  { World.loaded none with
    mapped := [⟨4096, 256⟩]
    mydevs := Heap.empty.alloc ⟨256, 4096⟩ }

/-- The file of that card as it is opened. -/
def openedCard : Session :=
  ⟨World.cardMapped, ⟨0, 0⟩⟩

/-- The registers of that card as the driver knows them. -/
def cardDev : Mydev :=
  ⟨256, 4096⟩

lemma cardMapped_maps : World.cardMapped.Maps cardDev where
  mapped := by decide
  pos := by decide
  small := by decide
  fits := by decide

/-- A kernel that never fails. -/
def Transfer.fine : Transfer where
  kzalloc := true
  copy := ⟨2 ^ 64, false⟩

/-- A fault after two bytes, a write, a seek that wraps around and a read across the end. -/
def someCalls : List FileCall :=
  [.read ⟨true, ⟨2, false⟩⟩ 4, .write Transfer.fine [1, 2, 3], .llseek (2 ^ 63 - 1) 1,
    .llseek (-2) 2, .read Transfer.fine 100, .pread Transfer.fine 4 1000]

theorem window_confined_card :
    System.Always (fun s : Session => 0 ≤ s.filp.f_pos ∧ s.filp.f_pos ≤ cardDev.regs_len)
        openedCard (System.trace Session.call openedCard someCalls) ∧
      System.Along (Session.CallOk cardDev) openedCard
        (System.trace Session.call openedCard someCalls) :=
  window_confined World.cardMapped ⟨0, 0⟩ cardDev rfl cardMapped_maps rfl _
    (run_calls openedCard (by simp [someCalls, FileCall.Valid]))

/-! ### Telling the position -/

/-- A seek by nothing tells the position, a seek to it restores it, and neither moves it. -/
def Session.TellsPosition (s : Session) : Prop :=
  s.call (.llseek 0 1) = (s, some ⟨s.filp.f_pos, [], s.filp.f_pos⟩) ∧
    s.call (.llseek s.filp.f_pos 0) = (s, some ⟨s.filp.f_pos, [], s.filp.f_pos⟩)

/-- The call does not complete a transfer of everything up to the end of the window. -/
def Session.StopsBefore (d : Mydev) (s : Session) (a : FileCall × Option Reply) : Prop :=
  match a.1 with
  | .read K count => K.Fails (d.available count s.filp.f_pos.toNat) ∨
      s.filp.f_pos + count < d.regs_len
  | .write K data => K.Fails (d.available data.length s.filp.f_pos.toNat) ∨
      s.filp.f_pos + data.length < d.regs_len
  | _ => True

namespace Session

variable {d : Mydev} {s t : Session} {a : FileCall × Option Reply}

/-- A position in the window is told; the one behind it is not a valid target. -/
lemma InWindow.tells_iff (h : s.InWindow d) : s.TellsPosition ↔ s.filp.f_pos < d.regs_len := by
  obtain ⟨hlo, hhi⟩ := h.range
  have hcur : d.target s.filp.f_pos 0 1 = s.filp.f_pos := by
    rw [Mydev.target, zero_add]
    exact toLoff_of_small hlo hhi
  have hset : d.target s.filp.f_pos s.filp.f_pos 0 = s.filp.f_pos := rfl
  rw [TellsPosition, h.call_llseek 1 (by omega), h.call_llseek 0 (by omega), Mydev.sought,
    Mydev.sought, hcur, hset]
  by_cases hin : s.filp.f_pos < d.regs_len
  · simp [hlo, hin]
  · have hret : s.filp.f_pos ≠ -EINVAL := by
      have hneg : -EINVAL < 0 := by decide
      omega
    simp [hin, hret.symm]

lemma sought_inside {f_pos offset : ℤ} {origin : ℕ} (h : f_pos < d.regs_len) :
    (d.sought f_pos offset origin).2 < d.regs_len := by
  rw [Mydev.sought]
  split_ifs with hin
  · exact hin.2
  · exact h

/-- From a position in the window, a call leads out of it exactly if it completes a transfer of
everything up to the end. -/
lemma InWindow.step_inside_iff (h : s.InWindow d) (hin : s.filp.f_pos < d.regs_len)
    (hstep : session.step s a t) : t.filp.f_pos < d.regs_len ↔ s.StopsBefore d a := by
  have hlo := h.lo
  have hp : s.filp.f_pos.toNat < d.regs_len := by omega
  have hpos : (s.filp.f_pos.toNat : ℤ) = s.filp.f_pos := Int.toNat_of_nonneg hlo
  obtain ⟨c, r⟩ := a
  obtain ⟨hc, hcall⟩ := hstep
  cases c with
  | read K count =>
    rw [h.call_read] at hcall
    obtain ⟨rfl, -⟩ := Prod.mk.inj hcall
    rw [StopsBefore, K.readReply_f_pos, Transfer.position_lt_iff hp, hpos]
  | write K data =>
    rw [h.call_write] at hcall
    obtain ⟨rfl, -⟩ := Prod.mk.inj hcall
    rw [StopsBefore, K.writeReply_f_pos, Transfer.position_lt_iff hp, hpos]
  | pread K count pos =>
    rw [h.call_pread count hc] at hcall
    obtain ⟨rfl, -⟩ := Prod.mk.inj hcall
    exact iff_of_true hin trivial
  | pwrite K data pos =>
    rw [h.call_pwrite data hc] at hcall
    obtain ⟨rfl, -⟩ := Prod.mk.inj hcall
    exact iff_of_true hin trivial
  | llseek offset origin =>
    rw [h.call_llseek origin hc] at hcall
    obtain ⟨rfl, -⟩ := Prod.mk.inj hcall
    exact iff_of_true (sought_inside hin) trivial

end Session

/-- In every state that calls on an open file lead to, the position can be told and restored
exactly if it is in the window; and it can be in all states of a sequence of calls exactly if no
call of it completes a transfer of everything up to the end of the window. -/
theorem tellsPosition_iff (w : World) (filp : File) (d : Mydev)
    (hd : w.mydevs.cell filp.private_data = some d) (hmaps : w.Maps d) (hopen : filp.f_pos = 0)
    (tr : List ((FileCall × Option Reply) × Session)) (hrun : session.Run ⟨w, filp⟩ tr) :
    System.Always (fun s : Session => s.TellsPosition ↔ s.filp.f_pos < d.regs_len) ⟨w, filp⟩ tr ∧
      (System.Always Session.TellsPosition ⟨w, filp⟩ tr ↔
        System.Along (Session.StopsBefore d) ⟨w, filp⟩ tr) := by
  have hstart := Session.inWindow_open hd hmaps hopen
  have hfirst : filp.f_pos < d.regs_len := by
    have hne := hmaps.pos
    omega
  constructor
  · have hall : System.Always (Session.InWindow d) ⟨w, filp⟩ tr :=
      hrun.always (fun s a t hs hstep => hs.step hstep) hstart
    exact hall.mono fun s hs => hs.tells_iff
  · refine hrun.always_iff_along
      (I := fun s : Session => s.InWindow d ∧ s.filp.f_pos < d.regs_len) ?_ ?_ ?_
      ⟨hstart, hfirst⟩
    · intro s hs
      exact hs.1.tells_iff.mpr hs.2
    · intro s a t hs hok hstep
      exact ⟨hs.1.step hstep, (hs.1.step_inside_iff hs.2 hstep).mpr hok⟩
    · intro s a t hs hno hstep htells
      exact hno ((hs.1.step_inside_iff hs.2 hstep).mp ((hs.1.step hstep).tells_iff.mp htells))

theorem tellsPosition_iff_card :
    System.Always (fun s : Session => s.TellsPosition ↔ s.filp.f_pos < cardDev.regs_len)
        openedCard (System.trace Session.call openedCard someCalls) ∧
      (System.Always Session.TellsPosition openedCard
          (System.trace Session.call openedCard someCalls) ↔
        System.Along (Session.StopsBefore cardDev) openedCard
          (System.trace Session.call openedCard someCalls)) :=
  tellsPosition_iff World.cardMapped ⟨0, 0⟩ cardDev rfl cardMapped_maps rfl _
    (run_calls openedCard (by simp [someCalls, FileCall.Valid]))

/-- After a read of the whole window, the position cannot be told. -/
theorem position_lost_at_end :
    ∃ tr, session.Run openedCard tr ∧ ¬ System.Always Session.TellsPosition openedCard tr := by
  have hstart : openedCard.InWindow cardDev := Session.inWindow_open rfl cardMapped_maps rfl
  have hrun : session.Run openedCard
      (System.trace Session.call openedCard [.read Transfer.fine 256]) :=
    run_calls openedCard (by simp [FileCall.Valid])
  refine ⟨_, hrun, fun hall => ?_⟩
  have hstep : session.step openedCard (.read Transfer.fine 256, _) _ := ⟨trivial, rfl⟩
  have htells := hall.2 _ List.mem_cons_self
  have hin := (hstart.step hstep).tells_iff.mp htells
  rcases (hstart.step_inside_iff (by decide) hstep).mp hin with hfail | hshort
  · exact absurd hfail (by decide)
  · exact absurd hshort (by decide)

end QuickDevSkeleton.Pci
