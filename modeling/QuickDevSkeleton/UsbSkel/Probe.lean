import QuickDevSkeleton.UsbSkel.Device

/-!
# Probing an interface

`skel_probe` looks for the first bulk-in and the first bulk-out endpoint, and allocates a buffer and
an urb for the former. It has one error path for all failures, which drops the only reference, so
that `skel_delete` frees what there is.
-/

namespace QuickDevSkeleton.UsbSkel

open Foundations

/-- What `skel_probe` reads of a `struct usb_endpoint_descriptor`. -/
structure Endpoint where
  bEndpointAddress : UInt8
  bmAttributes : UInt8
  wMaxPacketSize : UInt16
  deriving DecidableEq

namespace Endpoint

/-- `usb_endpoint_xfer_bulk` -/
def isBulk (ep : Endpoint) : Bool := ep.bmAttributes &&& 3 == 2

/-- `usb_endpoint_is_bulk_in` -/
def isBulkIn (ep : Endpoint) : Bool := ep.isBulk && ep.bEndpointAddress &&& 0x80 != 0

/-- `usb_endpoint_is_bulk_out` -/
def isBulkOut (ep : Endpoint) : Bool := ep.isBulk && ep.bEndpointAddress &&& 0x80 == 0

end Endpoint

/-- What the driver has allocated and not given back, and the interface data. -/
structure Held where
  devs : ℕ
  udevs : ℕ
  buffers : ℕ
  urbs : ℕ
  intfdata : Bool
  deriving DecidableEq

/-- The fields of `struct usb_skel` that `skel_probe` fills in. The pointers are null or not. -/
structure Probed where
  bulk_in_urb : Bool
  bulk_in_buffer : Bool
  bulk_in_size : ℕ
  bulk_in_endpointAddr : UInt8
  bulk_out_endpointAddr : UInt8
  deriving DecidableEq

/-- How the calls of `skel_probe` come out; `usb_register_dev` returns 0 or an error. -/
structure Outcomes where
  kzalloc : Bool
  kmalloc : Bool
  usb_alloc_urb : Bool
  usb_register_dev : ℤ

/-- What a probe leaves: its value, and the device if it succeeded. -/
structure ProbeResult where
  retval : ℤ
  dev : Option Probed
  held : Held

/-- `kref_put(&dev->kref, skel_delete)` with the only reference. -/
def skel_delete (dev : Probed) (h : Held) : Held :=
  { h with
    urbs := if dev.bulk_in_urb then h.urbs - 1 else h.urbs
    udevs := h.udevs - 1
    buffers := if dev.bulk_in_buffer then h.buffers - 1 else h.buffers
    devs := h.devs - 1 }

/-- The first half of the body of the loop: a bulk-in endpoint, if there was none. No result: an
allocation failed. The device is returned in either case. -/
def bulkIn (K : Outcomes) (ep : Endpoint) (dev : Probed) (h : Held) : Bool × Probed × Held :=
  if dev.bulk_in_endpointAddr = 0 ∧ ep.isBulkIn then
    let dev := { dev with
      bulk_in_size := ep.wMaxPacketSize.toNat, bulk_in_endpointAddr := ep.bEndpointAddress }
    if K.kmalloc then
      let dev := { dev with bulk_in_buffer := true }
      let h := { h with buffers := h.buffers + 1 }
      if K.usb_alloc_urb then
        (true, { dev with bulk_in_urb := true }, { h with urbs := h.urbs + 1 })
      else (false, dev, h)
    else (false, dev, h)
  else (true, dev, h)

/-- The second half: a bulk-out endpoint, if there was none. -/
def bulkOut (ep : Endpoint) (dev : Probed) : Probed :=
  if dev.bulk_out_endpointAddr = 0 ∧ ep.isBulkOut then
    { dev with bulk_out_endpointAddr := ep.bEndpointAddress }
  else dev

/-- The loop over the endpoints, and whether it was left with `goto error`. -/
def scan (K : Outcomes) : List Endpoint → Probed → Held → Bool × Probed × Held
  | [], dev, h => (true, dev, h)
  | ep :: eps, dev, h =>
    match bulkIn K ep dev h with
    | (true, dev, h) => scan K eps (bulkOut ep dev) h
    | (false, dev, h) => (false, dev, h)

/-- `skel_probe` for an interface with the endpoints `eps`. -/
def skel_probe (K : Outcomes) (eps : List Endpoint) (h : Held) : ProbeResult :=
  if K.kzalloc then
    let h := { h with devs := h.devs + 1, udevs := h.udevs + 1 }
    match scan K eps ⟨false, false, 0, 0, 0⟩ h with
    | (false, dev, h) => ⟨-ENOMEM, none, skel_delete dev h⟩
    | (true, dev, h) =>
      if dev.bulk_in_endpointAddr = 0 ∨ dev.bulk_out_endpointAddr = 0 then
        ⟨-ENOMEM, none, skel_delete dev h⟩
      else if K.usb_register_dev = 0 then ⟨0, some dev, { h with intfdata := true }⟩
      else
        -- the interface data is set and cleared again
        ⟨K.usb_register_dev, none, skel_delete dev { h with intfdata := false }⟩
  else ⟨-ENOMEM, none, h⟩

/-! ### The loop -/

variable {K : Outcomes} {ep : Endpoint} {eps seen : List Endpoint} {dev : Probed} {h h₀ : Held}

/-- The first bulk-in endpoint. -/
def firstIn (eps : List Endpoint) : Option Endpoint := eps.find? Endpoint.isBulkIn

/-- The first bulk-out endpoint that has an address other than 0. -/
def firstOut (eps : List Endpoint) : Option Endpoint :=
  eps.find? fun ep => ep.isBulkOut && ep.bEndpointAddress != 0

/-- What is held when `dev` has its buffer and its urb, beside `h`. -/
def Probed.holding (dev : Probed) (h : Held) : Held :=
  { h with
    buffers := h.buffers + dev.bulk_in_buffer.toNat
    urbs := h.urbs + dev.bulk_in_urb.toNat }

/-- What the loop has settled on for reading after it has seen `eps`. -/
structure Probed.FoundIn (dev : Probed) (K : Outcomes) (eps : List Endpoint) : Prop where
  addr : dev.bulk_in_endpointAddr = (firstIn eps).elim 0 (·.bEndpointAddress)
  size : dev.bulk_in_size = (firstIn eps).elim 0 (·.wMaxPacketSize.toNat)
  buffer : dev.bulk_in_buffer = (firstIn eps).isSome
  urb : dev.bulk_in_urb = (firstIn eps).isSome
  allocated : (firstIn eps).isSome = true → K.kmalloc = true ∧ K.usb_alloc_urb = true

/-- And for writing. -/
def Probed.FoundOut (dev : Probed) (eps : List Endpoint) : Prop :=
  dev.bulk_out_endpointAddr = (firstOut eps).elim 0 (·.bEndpointAddress)

lemma Endpoint.address_ne_zero (hin : ep.isBulkIn = true) : ep.bEndpointAddress ≠ 0 := by
  intro hzero
  simp [Endpoint.isBulkIn, hzero] at hin

lemma address_of_firstIn (hin : firstIn eps = some ep) : ep.bEndpointAddress ≠ 0 :=
  Endpoint.address_ne_zero (List.find?_some hin)

lemma address_of_firstOut (hout : firstOut eps = some ep) : ep.bEndpointAddress ≠ 0 := by
  have hboth := List.find?_some hout
  simp only [Bool.and_eq_true, bne_iff_ne] at hboth
  exact hboth.2

lemma firstIn_append : firstIn (seen ++ [ep]) = (firstIn seen).or (firstIn [ep]) :=
  List.find?_append

lemma firstOut_append : firstOut (seen ++ [ep]) = (firstOut seen).or (firstOut [ep]) :=
  List.find?_append

/-- `skel_delete` gives back what is held for the device. -/
lemma skel_delete_holding :
    skel_delete dev (dev.holding { h with devs := h.devs + 1, udevs := h.udevs + 1 }) = h := by
  rcases dev with ⟨_ | _, _ | _, _⟩ <;> simp [skel_delete, Probed.holding]

/-- The second half of the body. -/
lemma Probed.FoundOut.bulkOut (hout : dev.FoundOut seen) :
    (bulkOut ep dev).FoundOut (seen ++ [ep]) := by
  rw [Probed.FoundOut, firstOut_append]
  cases hseen : firstOut seen with
  | some e =>
    rw [Probed.FoundOut, hseen] at hout
    have hne : dev.bulk_out_endpointAddr ≠ 0 := hout ▸ address_of_firstOut hseen
    rw [UsbSkel.bulkOut, if_neg fun hboth => hne hboth.1]
    exact hout
  | none =>
    rw [Probed.FoundOut, hseen] at hout
    have hzero : dev.bulk_out_endpointAddr = 0 := hout
    rw [UsbSkel.bulkOut, Option.none_or, firstOut, List.find?_singleton]
    by_cases hbulk : ep.isBulkOut = true
    · by_cases haddr : ep.bEndpointAddress = 0
      · simp [hzero, hbulk, haddr]
      · simp [hzero, hbulk, haddr]
    · simp [hzero, hbulk]

/-- The second half leaves the fields of the first alone. -/
lemma Probed.FoundIn.bulkOut (hin : dev.FoundIn K eps) : (bulkOut ep dev).FoundIn K eps := by
  rw [UsbSkel.bulkOut]
  split
  · exact { hin with }
  · exact hin

lemma holding_bulkOut : (bulkOut ep dev).holding h = dev.holding h := by
  rw [bulkOut]
  split <;> rfl

/-- The first half of the body. What is held is always the device's; it fails only if there is a
bulk-in endpoint and an allocation for it fails. -/
lemma Probed.FoundIn.bulkIn (hin : dev.FoundIn K seen) {ok : Bool} {dev' : Probed} {h' : Held}
    (hbody : bulkIn K ep dev (dev.holding h) = (ok, dev', h')) :
    h' = dev'.holding h ∧ dev'.bulk_out_endpointAddr = dev.bulk_out_endpointAddr ∧
      (ok = true → dev'.FoundIn K (seen ++ [ep])) ∧
      (ok = false → (firstIn (seen ++ [ep])).isSome = true ∧
        ¬ (K.kmalloc = true ∧ K.usb_alloc_urb = true)) := by
  obtain ⟨haddr, hsize, hbuffer, hurb, halloc⟩ := hin
  rw [firstIn_append]
  cases hseen : firstIn seen with
  | some e =>
    have hne : dev.bulk_in_endpointAddr ≠ 0 := by
      rw [haddr, hseen]
      exact address_of_firstIn hseen
    rw [UsbSkel.bulkIn, if_neg fun hboth => hne hboth.1] at hbody
    cases hbody
    refine ⟨rfl, rfl, fun _ => ?_, fun hno => by cases hno⟩
    have happend : firstIn (seen ++ [ep]) = firstIn seen := by
      rw [firstIn_append, hseen, Option.some_or]
    exact ⟨happend ▸ haddr, happend ▸ hsize, happend ▸ hbuffer, happend ▸ hurb, happend ▸ halloc⟩
  | none =>
    rw [hseen] at haddr hbuffer hurb
    have hzero : dev.bulk_in_endpointAddr = 0 := haddr
    have happend : firstIn (seen ++ [ep]) = firstIn [ep] := by
      rw [firstIn_append, hseen, Option.none_or]
    by_cases hbulk : ep.isBulkIn = true
    · have hfirst : firstIn [ep] = some ep := by simp [firstIn, hbulk]
      rw [UsbSkel.bulkIn, if_pos ⟨hzero, hbulk⟩] at hbody
      cases hkmalloc : K.kmalloc with
      | false =>
        simp only [hkmalloc, Bool.false_eq_true, if_false] at hbody
        cases hbody
        exact ⟨rfl, rfl, fun hno => (by cases hno), fun _ => ⟨by simp [hfirst], by simp⟩⟩
      | true =>
        cases hurbs : K.usb_alloc_urb with
        | false =>
          simp only [hkmalloc, hurbs, Bool.false_eq_true, if_false, if_true] at hbody
          cases hbody
          refine ⟨?_, rfl, fun hno => (by cases hno), fun _ => ⟨by simp [hfirst], by simp⟩⟩
          simp only [Option.isSome_none] at hbuffer
          simp [Probed.holding, hbuffer]
        | true =>
          simp only [hkmalloc, hurbs, if_true] at hbody
          cases hbody
          refine ⟨?_, rfl, fun _ => ?_, fun hno => by cases hno⟩
          · simp only [Option.isSome_none] at hbuffer hurb
            simp [Probed.holding, hbuffer, hurb]
          · refine ⟨?_, ?_, ?_, ?_, fun _ => ⟨hkmalloc, hurbs⟩⟩ <;> rw [happend, hfirst] <;> rfl
    · have hfirst : firstIn [ep] = none := by simp [firstIn, hbulk]
      rw [UsbSkel.bulkIn, if_neg fun hboth => hbulk hboth.2] at hbody
      cases hbody
      refine ⟨rfl, rfl, fun _ => ?_, fun hno => by cases hno⟩
      have hsame : firstIn (seen ++ [ep]) = firstIn seen := by rw [happend, hfirst, hseen]
      exact ⟨by rw [hsame, hseen]; exact haddr, hsame ▸ hsize, by rw [hsame, hseen]; exact hbuffer,
        by rw [hsame, hseen]; exact hurb, hsame ▸ halloc⟩

/-- The loop. -/
lemma scan_spec (hin : dev.FoundIn K seen) (hout : dev.FoundOut seen) {ok : Bool} {dev' : Probed}
    {h' : Held} (hscan : scan K eps dev (dev.holding h) = (ok, dev', h')) :
    h' = dev'.holding h ∧
      (ok = true → dev'.FoundIn K (seen ++ eps) ∧ dev'.FoundOut (seen ++ eps)) ∧
      (ok = false → (firstIn (seen ++ eps)).isSome = true ∧
        ¬ (K.kmalloc = true ∧ K.usb_alloc_urb = true)) := by
  induction eps generalizing dev seen with
  | nil =>
    cases hscan
    rw [List.append_nil]
    exact ⟨rfl, fun _ => ⟨hin, hout⟩, fun hno => by cases hno⟩
  | cons ep eps ih =>
    rw [scan] at hscan
    obtain ⟨⟨ok₁, dev₁, h₁⟩, hbody⟩ : ∃ r, bulkIn K ep dev (dev.holding h) = r := ⟨_, rfl⟩
    obtain ⟨hheld, haddr, hfound, hfailed⟩ := hin.bulkIn hbody
    rw [hbody] at hscan
    have hseen : seen ++ ep :: eps = seen ++ [ep] ++ eps := by simp
    rw [hseen]
    cases ok₁ with
    | true =>
      have hout₁ : dev₁.FoundOut seen := haddr.trans hout
      have hscan₁ : scan K eps (bulkOut ep dev₁) ((bulkOut ep dev₁).holding h) = (ok, dev', h') := by
        rw [holding_bulkOut, ← hheld]
        exact hscan
      exact ih (hfound rfl).bulkOut hout₁.bulkOut hscan₁
    | false =>
      cases hscan
      refine ⟨hheld, fun hno => (by cases hno), fun _ => ⟨?_, (hfailed rfl).2⟩⟩
      rw [firstIn, List.find?_append, Option.isSome_or]
      simp only [Bool.or_eq_true]
      exact Or.inl (hfailed rfl).1

lemma foundIn_isSome (hin : dev.FoundIn K eps) :
    dev.bulk_in_endpointAddr ≠ 0 ↔ (firstIn eps).isSome = true := by
  rw [hin.addr]
  cases hfirst : firstIn eps with
  | none => simp
  | some e => simpa using address_of_firstIn hfirst

lemma foundOut_isSome (hout : dev.FoundOut eps) :
    dev.bulk_out_endpointAddr ≠ 0 ↔ (firstOut eps).isSome = true := by
  rw [show dev.bulk_out_endpointAddr = _ from hout]
  cases hfirst : firstOut eps with
  | none => simp
  | some e => simpa using address_of_firstOut hfirst

/-- When `skel_probe` succeeds. -/
def ProbeOk (K : Outcomes) (eps : List Endpoint) : Prop :=
  K.kzalloc = true ∧ (firstIn eps).isSome = true ∧ (firstOut eps).isSome = true ∧
    K.kmalloc = true ∧ K.usb_alloc_urb = true ∧ K.usb_register_dev = 0

/-- For every interface and every outcome of its calls, `skel_probe` succeeds exactly if there are a
bulk-in and a bulk-out endpoint and no call fails. It has then taken the first of each, and holds
one device, one reference, one buffer and one urb more. If it fails it holds nothing more than
before. -/
theorem skel_probe_spec (K : Outcomes) (eps : List Endpoint) (h : Held) :
    ((skel_probe K eps h).retval = 0 ↔ ProbeOk K eps) ∧
    ((skel_probe K eps h).retval = 0 → ∃ i o, firstIn eps = some i ∧ firstOut eps = some o ∧
      (skel_probe K eps h).dev =
        some ⟨true, true, i.wMaxPacketSize.toNat, i.bEndpointAddress, o.bEndpointAddress⟩ ∧
      (skel_probe K eps h).held = ⟨h.devs + 1, h.udevs + 1, h.buffers + 1, h.urbs + 1, true⟩) ∧
    ((skel_probe K eps h).retval ≠ 0 → (skel_probe K eps h).dev = none ∧
      ((skel_probe K eps h).held = h ∨
        (skel_probe K eps h).held = { h with intfdata := false })) := by
  have hnomem : -ENOMEM ≠ 0 := by decide
  rw [skel_probe, ProbeOk]
  cases hkzalloc : K.kzalloc with
  | false => simp [hnomem]
  | true =>
    simp only [if_true, true_and]
    obtain ⟨⟨ok, dev, h'⟩, hscan⟩ : ∃ r, scan K eps ⟨false, false, 0, 0, 0⟩
        { h with devs := h.devs + 1, udevs := h.udevs + 1 } = r := ⟨_, rfl⟩
    have hin : Probed.FoundIn ⟨false, false, 0, 0, 0⟩ K [] :=
      ⟨rfl, rfl, rfl, rfl, fun hno => by cases hno⟩
    obtain ⟨hheld, hfound, hfailed⟩ :=
      scan_spec (h := { h with devs := h.devs + 1, udevs := h.udevs + 1 }) hin rfl hscan
    rw [List.nil_append] at hfound hfailed
    rw [hscan, hheld]
    cases ok with
    | false =>
      obtain ⟨hsome, hno⟩ := hfailed rfl
      refine ⟨⟨fun hzero => absurd hzero hnomem, fun hall => absurd ⟨hall.2.2.1, hall.2.2.2.1⟩ hno⟩,
        fun hzero => absurd hzero hnomem, fun _ => ⟨rfl, Or.inl skel_delete_holding⟩⟩
    | true =>
      obtain ⟨hfoundIn, hfoundOut⟩ := hfound rfl
      have hinIff := foundIn_isSome hfoundIn
      have houtIff := foundOut_isSome hfoundOut
      by_cases hmissing : dev.bulk_in_endpointAddr = 0 ∨ dev.bulk_out_endpointAddr = 0
      · simp only [if_pos hmissing]
        refine ⟨⟨fun hzero => absurd hzero hnomem, fun hall => ?_⟩,
          fun hzero => absurd hzero hnomem, fun _ => ⟨trivial, Or.inl skel_delete_holding⟩⟩
        rcases hmissing with hmissing | hmissing
        · exact absurd hmissing (hinIff.mpr hall.1)
        · exact absurd hmissing (houtIff.mpr hall.2.1)
      · obtain ⟨hinNe, houtNe⟩ := not_or.mp hmissing
        obtain ⟨i, hi⟩ := Option.isSome_iff_exists.mp (hinIff.mp hinNe)
        obtain ⟨o, ho⟩ := Option.isSome_iff_exists.mp (houtIff.mp houtNe)
        have hdev : dev =
            ⟨true, true, i.wMaxPacketSize.toNat, i.bEndpointAddress, o.bEndpointAddress⟩ := by
          have haddr := hfoundIn.addr
          have hsize := hfoundIn.size
          have hbuffer := hfoundIn.buffer
          have hurb := hfoundIn.urb
          have hout : dev.bulk_out_endpointAddr = _ := hfoundOut
          rw [hi] at haddr hsize hbuffer hurb
          rw [ho] at hout
          cases dev
          simp only [Probed.mk.injEq]
          exact ⟨hurb, hbuffer, hsize, haddr, hout⟩
        have halloc := hfoundIn.allocated (hinIff.mp hinNe)
        simp only [if_neg hmissing]
        by_cases hreg : K.usb_register_dev = 0
        · simp only [hi, ho, halloc, hreg, hdev]
          simp [Probed.holding]
        · simp only [if_neg hreg]
          refine ⟨⟨fun hzero => absurd hzero hreg, fun hall => absurd hall.2.2.2.2 hreg⟩,
            fun hzero => absurd hzero hreg, fun _ => ⟨trivial, Or.inr ?_⟩⟩
          exact skel_delete_holding (h := { h with intfdata := false })

end QuickDevSkeleton.UsbSkel
