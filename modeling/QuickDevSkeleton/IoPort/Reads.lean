import QuickDevSkeleton.Foundations.CountingLoop
import QuickDevSkeleton.IoPort.Device

/-!
# Exact and bounded port reads

The buffer of a read has as many bytes as are asked for, but one `unsigned long` for each register:
they fit only where an `unsigned long` is as large as a register and the part of the count that is
in the window is aligned like the count itself. And a position behind the window makes the
remainder of the window wrap, so that the count is not cut at all.
-/

namespace QuickDevSkeleton.IoPort

open Foundations

/-! ### The property -/

/-- The port at an address is one of the window. -/
def Params.InWindow {L : Ulong} (m : Params L) (portAt : ℕ → Option ℤ) (a : ℕ) : Prop :=
  ∃ q, portAt a = some q ∧ m.port ≤ q ∧ q < m.port + m.port_size

/-- A read stores nothing outside its buffer, touches no port outside the window, and returns the
bytes of the registers; an access touches the four ports from its address on. -/
structure Reply.Exact (r : Reply) {L : Ulong} (m : Params L) (portAt : ℕ → Option ℤ)
    (first : ℕ) : Prop where
  stores : ∀ s ∈ r.kbuf.stores, s.1 + s.2 ≤ r.kbuf.size
  ports : ∀ a ∈ r.kbuf.reads.map Prod.fst, ∀ k : ℕ, k < 4 → m.InWindow portAt (L.cast (a + k))
  bytes : 0 ≤ r.ret → r.ret = r.bytes.length ∧ ∀ j (hj : j < r.bytes.length),
    ∃ v, r.kbuf.reads.lookup (L.cast (first + 4 * (j / 4))) = some v ∧ r.bytes[j] = byte v (j % 4)

/-- A call returns before its loop: the count is not aligned, nothing is asked for, nothing is left
of the window, or there is no memory. -/
def Idle (L : Ulong) (K : Answers) (port_size count f_pos : ℕ) : Prop :=
  count &&& 0x3 ≠ 0 ∨ count = 0 ∨ L.cast f_pos = port_size ∨ K.kzalloc = false

/-- How many of `count` bytes from the position on are in the window. -/
def available (L : Ulong) (port_size count f_pos : ℕ) : ℕ :=
  min count (port_size - L.cast f_pos)

/-- Registers and array elements have the same size, the position is in the window, and what is
available there consists of whole registers, none of which is beyond the last address. -/
structure Fits (L : Ulong) (start port_size count f_pos : ℕ) : Prop where
  word : L = .four
  inside : L.cast f_pos ≤ port_size
  aligned : 4 ∣ available L port_size count f_pos
  below : start + L.cast f_pos + available L port_size count f_pos ≤ L.card

/-! ### The loop -/

section

variable {L : Ulong} {K : Answers} {first n : ℕ} {b : Kbuf}

lemma mem_counters {i : ℕ} : i ∈ counters n ↔ 4 ∣ i ∧ i < n := by
  rw [counters, List.mem_range']
  constructor
  · rintro ⟨k, hk, rfl⟩
    omega
  · rintro ⟨⟨k, rfl⟩, hlt⟩
    exact ⟨k, by omega, by omega⟩

@[simp] lemma length_bytes (v : UInt32) : (L.bytes v).length = L.size := by
  simp [Ulong.bytes]

/-- Each iteration stores one element and reads one register. -/
lemma foldl_assign (L : Ulong) (K : Answers) (first : ℕ) (b : Kbuf) (is : List ℕ) :
    (is.foldl (Kbuf.assign L K first) b).size = b.size ∧
      (is.foldl (Kbuf.assign L K first) b).stores =
        (is.map fun i => (L.size * (i / 4), L.size)).reverse ++ b.stores ∧
      (is.foldl (Kbuf.assign L K first) b).reads.map Prod.fst =
        (is.map fun i => L.cast (first + (i : ℕ))).reverse ++ b.reads.map Prod.fst := by
  induction is generalizing b with
  | nil => exact ⟨rfl, rfl, rfl⟩
  | cons i is ih =>
    obtain ⟨hsize, hstores, hreads⟩ := ih (b.assign L K first i)
    refine ⟨hsize, ?_, ?_⟩
    · rw [List.foldl_cons, hstores]
      simp [Kbuf.assign]
    · rw [List.foldl_cons, hreads]
      simp [Kbuf.assign]

/-- The last access to the register number `i` has found the value of the element it is in. -/
def Kbuf.Shows (L : Ulong) (first : ℕ) (i : ℕ) (b : Kbuf) : Prop :=
  ∃ v, b.reads.lookup (L.cast (first + i)) = some v ∧
    b.mem.read (L.size * (i / 4)) L.size = L.bytes v

lemma assign_own (i : ℕ) : (b.assign L K first i).Shows L first i := by
  refine ⟨_, List.lookup_cons_self, ?_⟩
  have hread := Memory.read_write_same b.mem (L.size * (i / 4))
    (L.bytes (K.register b.reads.length (L.cast (first + i))))
  rwa [length_bytes] at hread

lemma assign_keep {i j : ℕ} (hij : i / 4 ≠ j / 4) (hcast : L.cast (first + i) ≠ L.cast (first + j))
    (h : b.Shows L first i) : (b.assign L K first j).Shows L first i := by
  obtain ⟨v, hlook, hread⟩ := h
  refine ⟨v, ?_, ?_⟩
  · rw [Kbuf.assign, List.lookup_cons, beq_eq_false_iff_ne.mpr hcast]
    exact hlook
  · have hapart : L.size * (i / 4) + L.size ≤ L.size * (j / 4) ∨
        L.size * (j / 4) + (L.bytes (K.register b.reads.length (L.cast (first + j)))).length ≤
          L.size * (i / 4) := by
      rw [length_bytes, ← Nat.mul_succ, ← Nat.mul_succ]
      rcases Nat.lt_or_gt_of_ne hij with hlt | hgt
      · exact Or.inl (Nat.mul_le_mul_left _ hlt)
      · exact Or.inr (Nat.mul_le_mul_left _ hgt)
    exact (Memory.read_write_disjoint b.mem hapart).trans hread

lemma Kbuf.Shows.byte {i : ℕ} (h : b.Shows L first i) :
    ∃ v, b.reads.lookup (L.cast (first + i)) = some v ∧
      ∀ k < L.size, b.mem (L.size * (i / 4) + k) = byte v k := by
  obtain ⟨v, hlook, hread⟩ := h
  refine ⟨v, hlook, fun k hk => ?_⟩
  have hget : (b.mem.read (L.size * (i / 4)) L.size)[k]? = (L.bytes v)[k]? := by rw [hread]
  simpa [Memory.read, Ulong.bytes, hk] using hget

end

/-! ### Addresses -/

section

variable {L : Ulong} {start port_size count f_pos : ℕ}

lemma cast_cast_add (z : ℤ) (k : ℕ) : L.cast (L.cast z + k) = L.cast (z + k) := by
  cases L
  all_goals
    simp only [Ulong.cast, Ulong.card]
    omega

/-- The address of byte `j` from the position on, which may wrap. -/
lemma cast_address (hstart : start < L.card) {j : ℕ} (hj : L.cast f_pos + j < L.card) :
    L.cast ((start + f_pos : ℕ) + j) =
      if start + L.cast f_pos + j < L.card then start + L.cast f_pos + j
      else start + L.cast f_pos + j - L.card := by
  split
  all_goals
    cases L
    all_goals
      simp only [Ulong.cast, Ulong.card] at *
      omega

/-- The remainder of the window, which wraps behind its end. -/
lemma cast_remainder (hsize : port_size < L.card) :
    L.cast (port_size - f_pos) =
      if L.cast f_pos ≤ port_size then port_size - L.cast f_pos
      else L.card + port_size - L.cast f_pos := by
  split
  all_goals
    cases L
    all_goals
      simp only [Ulong.cast, Ulong.card] at *
      omega

lemma cast_lt (z : ℤ) : L.cast z < L.card := by
  cases L
  all_goals
    simp only [Ulong.cast, Ulong.card]
    omega

/-- A count is cut to what is available, unless the position is behind the window. -/
lemma cut_eq_available (hsize : port_size < L.card) (hpos : L.cast f_pos ≤ port_size) :
    cut L port_size count f_pos = available L port_size count f_pos := by
  rw [cut, cast_remainder hsize, if_pos hpos, available]

lemma cut_eq_zero (hsize : port_size < L.card) :
    cut L port_size count f_pos = 0 ↔ count = 0 ∨ L.cast f_pos = port_size := by
  have hlt : L.cast f_pos < L.card := cast_lt f_pos
  rw [cut, cast_remainder hsize]
  split
  · omega
  · omega

/-- The condition on the count as it is cut. -/
lemma fits_iff (hsize : port_size < L.card) :
    Fits L start port_size count f_pos ↔
      (L = .four ∧ 4 ∣ cut L port_size count f_pos) ∧
        L.cast f_pos + cut L port_size count f_pos ≤ port_size ∧
        start + L.cast f_pos + cut L port_size count f_pos ≤ L.card := by
  constructor
  · rintro ⟨hword, hinside, haligned, hbelow⟩
    rw [cut_eq_available hsize hinside]
    refine ⟨⟨hword, haligned⟩, ?_, hbelow⟩
    rw [available]
    omega
  · rintro ⟨⟨hword, haligned⟩, hcut, hbelow⟩
    have hinside : L.cast f_pos ≤ port_size := by omega
    rw [cut_eq_available hsize hinside] at haligned hbelow
    exact ⟨hword, hinside, haligned, hbelow⟩

/-- All bytes that are asked for are in the window if the position is, and the window does not go
beyond the last address. -/
lemma addresses_iff (hstart : start < L.card) (hsize : port_size < L.card)
    (hn : 0 < cut L port_size count f_pos) :
    (∀ j < cut L port_size count f_pos, start ≤ L.cast ((start + f_pos : ℕ) + j) ∧
      L.cast ((start + f_pos : ℕ) + j) < start + port_size) ↔
    L.cast f_pos + cut L port_size count f_pos ≤ port_size ∧
      start + L.cast f_pos + cut L port_size count f_pos ≤ L.card := by
  have hlt : L.cast f_pos < L.card := cast_lt f_pos
  constructor
  · intro hall
    have hzero := hall 0 hn
    rw [cast_address hstart (by omega)] at hzero
    have hpos : L.cast f_pos < port_size := by
      split at hzero <;> omega
    have hcut : L.cast f_pos + cut L port_size count f_pos ≤ port_size := by
      rw [cut_eq_available hsize hpos.le, available]
      omega
    refine ⟨hcut, ?_⟩
    -- the first byte beyond the last address would be at `0`
    by_contra hbeyond
    have hwrap := hall (L.card - (start + L.cast f_pos)) (by omega)
    rw [cast_address hstart (by omega), if_neg (by omega)] at hwrap
    omega
  · rintro ⟨hcut, hbelow⟩ j hj
    rw [cast_address hstart (by omega), if_pos (by omega)]
    omega

end

/-! ### A call that gets to its loop -/

section

variable {L : Ulong} {m : Params L} {K : Answers} {portAt : ℕ → Option ℤ} {count f_pos : ℕ}
  {start first n : ℕ} {fill : ℕ → Kbuf → Kbuf} {b : Kbuf}

/-- The loops of a read visit the counters of one loop, in any number. -/
def Visits (L : Ulong) (K : Answers) (first : ℕ) (fill : ℕ → Kbuf → Kbuf) : Prop :=
  ∀ n b, ∃ is : List ℕ, (∀ i, i ∈ is ↔ 4 ∣ i ∧ i < n) ∧
    fill n b = is.foldl (Kbuf.assign L K first) b

lemma visits_once : Visits L K first fun n b => b.fill L K first n :=
  fun n _ => ⟨counters n, fun _ => mem_counters, rfl⟩

lemma visits_twice : Visits L K first fun n b => (b.fill L K first n).fill L K first n := by
  intro n b
  refine ⟨counters n ++ counters n, fun i => ?_, ?_⟩
  · rw [List.mem_append, or_self]
    exact mem_counters
  · rw [List.foldl_append]
    rfl

/-- The stores are in the buffer exactly if an `unsigned long` is as large as a register and the
buffer is aligned. -/
lemma stores_iff (h : Visits L K first fill) (hn : 0 < n) :
    (∀ s ∈ (fill n (Kbuf.kzalloc n)).stores, s.1 + s.2 ≤ (fill n (Kbuf.kzalloc n)).size) ↔
      L = .four ∧ 4 ∣ n := by
  obtain ⟨is, his, hfill⟩ := h n (Kbuf.kzalloc n)
  obtain ⟨hsize, hstores, -⟩ := foldl_assign L K first (Kbuf.kzalloc n) is
  rw [hfill, hsize, hstores]
  constructor
  · intro hall
    have hlast : (4 * ((n - 1) / 4)) ∈ is := (his _).mpr ⟨Nat.dvd_mul_right _ _, by omega⟩
    have hin := hall (L.size * (4 * ((n - 1) / 4) / 4), L.size)
      (List.mem_append_left _ (List.mem_reverse.mpr (List.mem_map_of_mem hlast)))
    cases L with
    | four =>
      simp only [Ulong.size, Kbuf.kzalloc] at hin
      exact ⟨rfl, by omega⟩
    | eight =>
      simp only [Ulong.size, Kbuf.kzalloc] at hin
      omega
  · rintro ⟨rfl, haligned⟩ s hs
    simp only [Kbuf.kzalloc, List.append_nil, List.mem_reverse, List.mem_map] at hs
    obtain ⟨i, hi, rfl⟩ := hs
    obtain ⟨hdvd, hlt⟩ := (his i).mp hi
    simp only [Ulong.size, Kbuf.kzalloc]
    omega

/-- The accesses touch the addresses of all bytes, up to the end of the last register. -/
lemma touches_iff (P : ℕ → Prop) (h : Visits L K first fill) (haligned : 4 ∣ n) :
    (∀ a ∈ (fill n (Kbuf.kzalloc n)).reads.map Prod.fst, ∀ k : ℕ, k < 4 → P (L.cast (a + k))) ↔
      ∀ j < n, P (L.cast (first + j)) := by
  obtain ⟨is, his, hfill⟩ := h n (Kbuf.kzalloc n)
  obtain ⟨-, -, hreads⟩ := foldl_assign L K first (Kbuf.kzalloc n) is
  rw [hfill, hreads]
  simp only [Kbuf.kzalloc, List.map_nil, List.append_nil, List.mem_reverse, List.forall_mem_map]
  constructor
  · intro hall j hj
    have hmem : 4 * (j / 4) ∈ is := (his _).mpr ⟨Nat.dvd_mul_right _ _, by omega⟩
    have hP := hall _ hmem (j % 4) (Nat.mod_lt j (by decide))
    have hsum : ((first : ℤ) + (4 * (j / 4) : ℕ)) + (j % 4 : ℕ) = first + j := by omega
    rwa [cast_cast_add, hsum] at hP
  · intro hall i hi k hk
    obtain ⟨hdvd, hlt⟩ := (his i).mp hi
    have hP := hall (i + k) (by omega)
    have hsum : (first : ℤ) + (i + k : ℕ) = first + i + k := by omega
    rwa [hsum, ← cast_cast_add] at hP

/-- Where all addresses are apart, the buffer holds the registers. -/
lemma shows_registers (h : Visits L K first fill)
    (hapart : ∀ i < n, ∀ j < n, L.cast (first + i) = L.cast (first + j) → i = j) {i : ℕ}
    (hdvd : 4 ∣ i) (hi : i < n) : (fill n b).Shows L first i := by
  obtain ⟨is, his, hfill⟩ := h n b
  rw [hfill]
  refine foldl_visits (P := fun i b => b.Shows L first i) ?_ ?_ b i ((his i).mpr ⟨hdvd, hi⟩)
  · intro b j _
    exact assign_own j
  · intro b j hj k hk hne hshows
    obtain ⟨hjdvd, hjlt⟩ := (his j).mp hj
    obtain ⟨hkdvd, hklt⟩ := (his k).mp hk
    apply assign_keep
    · omega
    · exact fun heq => hne (hapart j hjlt k hklt heq)
    · exact hshows

/-- Within the window and the buffer, the buffer holds the registers byte by byte. -/
lemma bytes_of_registers (h : Visits L K (start + f_pos) fill) (hstart : start < L.card)
    (hword : L = .four) (hbelow : start + L.cast f_pos + n ≤ L.card) {j : ℕ} (hj : j < n) :
    ∃ v, (fill n b).reads.lookup (L.cast ((start + f_pos : ℕ) + (4 * (j / 4) : ℕ))) = some v ∧
      (fill n b).mem j = byte v (j % 4) := by
  have hapart : ∀ i < n, ∀ k < n,
      L.cast ((start + f_pos : ℕ) + i) = L.cast ((start + f_pos : ℕ) + k) → i = k := by
    intro i hi k hk heq
    rw [cast_address hstart (by omega), cast_address hstart (by omega), if_pos (by omega),
      if_pos (by omega)] at heq
    omega
  have hshows := shows_registers (b := b) h hapart (Nat.dvd_mul_right 4 (j / 4)) (by omega)
  obtain ⟨v, hlook, hbyte⟩ := hshows.byte
  refine ⟨v, hlook, ?_⟩
  subst hword
  have hsum : 4 * (4 * (j / 4) / 4) + j % 4 = j := by omega
  have hget := hbyte (j % 4) (Nat.mod_lt j (by decide))
  rwa [Ulong.size, hsum] at hget

/-- A call that returns before its loop is exact: it touches nothing. -/
lemma Idle.exact (h : Idle L K m.port_size count f_pos) :
    (readWith L K fill m.port_size count f_pos).Exact m portAt first := by
  have hreply : ∃ ret : ℤ, (0 ≤ ret → ret = 0) ∧
      readWith L K fill m.port_size count f_pos = ⟨ret, [], f_pos, Kbuf.none⟩ := by
    by_cases hcount : count &&& 0x3 ≠ 0
    · exact ⟨-1, by decide, by rw [readWith, if_pos hcount]⟩
    by_cases hcut : cut L m.port_size count f_pos = 0
    · exact ⟨0, fun _ => rfl, by simp [readWith, hcount, hcut]⟩
    · have hmem : K.kzalloc = false := by
        rcases h with h | h | h | h
        · exact absurd h hcount
        · exact absurd ((cut_eq_zero m.port_size_lt).mpr (Or.inl h)) hcut
        · exact absurd ((cut_eq_zero m.port_size_lt).mpr (Or.inr h)) hcut
        · exact h
      exact ⟨-ENOMEM, by decide, by simp [readWith, hcount, hcut, hmem]⟩
  obtain ⟨ret, hret, hreply⟩ := hreply
  rw [hreply]
  constructor
  · simp [Kbuf.none, Kbuf.kzalloc]
  · simp [Kbuf.none, Kbuf.kzalloc]
  · intro hok
    exact ⟨hret hok, fun j hj => absurd hj (Nat.not_lt_zero j)⟩

/-- A call that gets to its loop leaves the buffer as the loop does, and returns its bytes. -/
lemma readWith_busy (fill : ℕ → Kbuf → Kbuf)
    (h : ¬ Idle L K m.port_size count f_pos) :
    0 < cut L m.port_size count f_pos ∧
      (readWith L K fill m.port_size count f_pos).kbuf =
        fill (cut L m.port_size count f_pos) (Kbuf.kzalloc (cut L m.port_size count f_pos)) ∧
      (0 ≤ (readWith L K fill m.port_size count f_pos).ret →
        (readWith L K fill m.port_size count f_pos).ret = cut L m.port_size count f_pos ∧
        (readWith L K fill m.port_size count f_pos).bytes =
          (readWith L K fill m.port_size count f_pos).kbuf.mem.read 0
            (cut L m.port_size count f_pos)) := by
  obtain ⟨hcount, hzero, hend, hmem⟩ : ¬ count &&& 0x3 ≠ 0 ∧ ¬ count = 0 ∧
      ¬ L.cast f_pos = m.port_size ∧ ¬ K.kzalloc = false := by
    simpa only [Idle, not_or] using h
  have hcut : ¬ cut L m.port_size count f_pos = 0 :=
    fun heq => ((cut_eq_zero m.port_size_lt).mp heq).elim hzero hend
  have halloc : ¬ (!K.kzalloc) = true := by simpa using hmem
  rw [readWith, if_neg hcount]
  simp only [if_neg hcut, if_neg halloc]
  refine ⟨Nat.pos_of_ne_zero hcut, ?_⟩
  split
  · exact ⟨rfl, fun hok => absurd hok (show ¬ (0 : ℤ) ≤ -EFAULT by decide)⟩
  · exact ⟨rfl, fun _ => ⟨rfl, K.copy.copy_to_user_ok (not_not.mp ‹_›)⟩⟩

/-- A call that gets to its loop is exact if and only if it fits. -/
lemma exact_iff_fits (h : Visits L K (start + f_pos) fill) (hstart : start < L.card)
    (hport : ∀ a, m.InWindow portAt a ↔ start ≤ a ∧ a < start + m.port_size)
    (hbusy : ¬ Idle L K m.port_size count f_pos) :
    (readWith L K fill m.port_size count f_pos).Exact m portAt (start + f_pos) ↔
      Fits L start m.port_size count f_pos := by
  obtain ⟨hn, hkbuf, hok⟩ := readWith_busy fill hbusy
  rw [fits_iff m.port_size_lt, ← stores_iff h hn, ← addresses_iff hstart m.port_size_lt hn]
  constructor
  · intro hexact
    have hstores := hexact.stores
    have hports := hexact.ports
    rw [hkbuf] at hstores hports
    have haligned := ((stores_iff h hn).mp hstores).2
    have hall := (touches_iff (m.InWindow portAt) h haligned).mp hports
    exact ⟨hstores, fun j hj => (hport _).mp (hall j hj)⟩
  · rintro ⟨hstores, haddr⟩
    obtain ⟨hword, haligned⟩ := (stores_iff h hn).mp hstores
    obtain ⟨-, hbelow⟩ := (addresses_iff hstart m.port_size_lt hn).mp haddr
    constructor
    · rwa [hkbuf]
    · rw [hkbuf, touches_iff (m.InWindow portAt) h haligned]
      exact fun j hj => (hport _).mpr (haddr j hj)
    · intro hret
      obtain ⟨hlen, hbytes⟩ := hok hret
      refine ⟨by rw [hlen, hbytes, Memory.length_read], fun j hj => ?_⟩
      rw [hbytes, Memory.length_read] at hj
      obtain ⟨v, hlook, hbyte⟩ := bytes_of_registers
        (b := Kbuf.kzalloc (cut L m.port_size count f_pos)) h hstart hword hbelow hj
      rw [← hkbuf] at hlook hbyte
      refine ⟨v, by exact_mod_cast hlook, ?_⟩
      simp only [hbytes, Memory.getElem_read, Nat.zero_add]
      exact hbyte

end

/-! ### Both modules -/

section

variable {L : Ulong} (m : Params L) (d : Mydev L) (K : Answers) (count f_pos : ℕ)

lemma MyIoport.portAt_iff (a : ℕ) :
    m.InWindow portAt a ↔ m.port ≤ a ∧ a < m.port + m.port_size := by
  simp only [Params.InWindow, portAt, Option.some_inj, exists_eq_left']
  omega

lemma MyIoport2.portAt_iff (hmap : d.vir_addr ≠ 0) (a : ℕ) :
    m.InWindow (portAt m d) a ↔ d.vir_addr ≤ a ∧ a < d.vir_addr + m.port_size := by
  simp only [Params.InWindow, portAt, if_neg hmap, Option.some_inj, exists_eq_left']
  omega

/-- Where nothing is mapped, there is no port. -/
lemma MyIoport2.not_exact (hmap : d.vir_addr = 0) (hbusy : ¬ Idle L K m.port_size count f_pos) :
    ¬ (my_read m d K count f_pos).Exact m (portAt m d) (d.vir_addr + f_pos) := by
  intro hexact
  obtain ⟨hn, hkbuf, -⟩ := readWith_busy (fun count kbuf =>
    (kbuf.fill L K (d.vir_addr + f_pos) count).fill L K (d.vir_addr + f_pos) count) hbusy
  have hstores := hexact.stores
  have hports := hexact.ports
  rw [my_read, hkbuf] at hstores hports
  obtain ⟨-, haligned⟩ := (stores_iff visits_twice hn).mp hstores
  obtain ⟨q, hq, -⟩ := (touches_iff (m.InWindow (portAt m d)) visits_twice haligned).mp
    hports 0 hn
  rw [portAt, if_pos hmap] at hq
  cases hq

/-- The reads of both modules, for both sizes of an `unsigned long`: a call stays within its buffer
and the window and returns the registers exactly if it returns before its loop, or the loop fits
into both (and there is a mapping). -/
theorem my_read_exact_iff :
    ((MyIoport.my_read m K count f_pos).Exact m MyIoport.portAt (m.port + f_pos) ↔
        Idle L K m.port_size count f_pos ∨ Fits L m.port m.port_size count f_pos) ∧
      ((MyIoport2.my_read m d K count f_pos).Exact m (MyIoport2.portAt m d)
          (d.vir_addr + f_pos) ↔
        Idle L K m.port_size count f_pos ∨
          d.vir_addr ≠ 0 ∧ Fits L d.vir_addr m.port_size count f_pos) := by
  by_cases hidle : Idle L K m.port_size count f_pos
  · exact ⟨iff_of_true hidle.exact (Or.inl hidle), iff_of_true hidle.exact (Or.inl hidle)⟩
  · simp only [hidle, false_or]
    constructor
    · exact exact_iff_fits visits_once m.port_lt (MyIoport.portAt_iff m) hidle
    · by_cases hmap : d.vir_addr = 0
      · exact iff_of_false (MyIoport2.not_exact m d K count f_pos hmap hidle)
          fun hfits => hfits.1 hmap
      · simp only [ne_eq, hmap, not_false_eq_true, true_and]
        exact exact_iff_fits visits_twice d.vir_addr_lt (MyIoport2.portAt_iff m d hmap) hidle

end

/-- The parameters that the modules have by default. -/
def Params.default (L : Ulong) : Params L :=
  ⟨0xe400, 0x100, by cases L <;> decide, by cases L <;> decide⟩

def Mydev.default (L : Ulong) : Mydev L :=
  ⟨0x1e400, by cases L <;> decide⟩

/-- There is memory, all registers show the same value, and the user copy is complete. -/
def Answers.ok (count : ℕ) : Answers :=
  ⟨true, fun _ _ => 0x04030201, ⟨count, false⟩⟩

-- the zeros of the first element stand where the second register belongs
example : (MyIoport.my_read (Params.default .eight) (Answers.ok 8) 8 0).bytes =
    [1, 2, 3, 4, 0, 0, 0, 0] := by decide

/-- One register at position `0` with an `unsigned long` of eight bytes. -/
theorem one_register_overruns :
    ¬ (MyIoport.my_read (Params.default .eight) (Answers.ok 4) 4 0).Exact (Params.default .eight)
        MyIoport.portAt (0xe400 + 0) ∧
      ¬ (MyIoport2.my_read (Params.default .eight) (Mydev.default .eight) (Answers.ok 4) 4 0).Exact
        (Params.default .eight) (MyIoport2.portAt (Params.default .eight) (Mydev.default .eight))
        (0x1e400 + 0) := by
  constructor
  · intro hexact
    exact absurd (hexact.stores (0, 8) (List.mem_singleton_self _)) (by decide)
  · intro hexact
    exact absurd (hexact.stores (0, 8) (List.mem_cons_self)) (by decide)

end QuickDevSkeleton.IoPort
