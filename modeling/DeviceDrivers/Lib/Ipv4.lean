import DeviceDrivers.Lib.OnesComplement

/-!
# Ethernet frames with an IPv4 header

The wire format, on the byte string of a frame that starts at the destination
address. A field that lies past the end of the frame reads as 0, so what a frame
holds is said together with its length.

* `HoldsHeader`: an IPv4 header of a legal length lies in the frame.
* `Verifies`: the checksum of the header; `verifies_set_ttl` says that it covers
  the TTL.
* `tcpPayload`: the payload behind the IPv4 and TCP headers, up to the total
  length.
-/

namespace DeviceDrivers.Ipv4

/-! ## Fields -/

def ETH_P_IP : Nat := 0x0800

def etherType (frame : List Byte) : Nat := beValue (slice frame 12 2)

def version (frame : List Byte) : Nat := (byteAt frame 14).toNat / 16

/-- The length of the header in units of four bytes. -/
def ihl (frame : List Byte) : Nat := (byteAt frame 14).toNat % 16

def totalLength (frame : List Byte) : Nat := beValue (slice frame 16 2)

def ttl (frame : List Byte) : Nat := (byteAt frame 22).toNat

def protocol (frame : List Byte) : Byte := byteAt frame 23

/-- Where the IPv4 header ends. -/
def headerEnd (frame : List Byte) : Nat := 14 + 4 * ihl frame

def header (frame : List Byte) : List Byte := slice frame 14 (4 * ihl frame)

/-- After the Ethernet header the frame holds an IPv4 header of a legal length. -/
structure HoldsHeader (frame : List Byte) : Prop where
  isV4 : version frame = 4
  legal : 5 ≤ ihl frame
  inside : headerEnd frame ≤ frame.length

instance (frame : List Byte) : Decidable (HoldsHeader frame) :=
  decidable_of_iff (version frame = 4 ∧ 5 ≤ ihl frame ∧ headerEnd frame ≤ frame.length)
    ⟨fun h => ⟨h.1, h.2.1, h.2.2⟩, fun h => ⟨h.isV4, h.legal, h.inside⟩⟩

theorem HoldsHeader.length {frame : List Byte} (h : HoldsHeader frame) : 34 ≤ frame.length := by
  have hlegal := h.legal
  have hinside := h.inside
  unfold headerEnd at hinside
  omega

theorem HoldsHeader.length_header {frame : List Byte} (h : HoldsHeader frame) :
    (header frame).length = 4 * ihl frame := by
  have hinside := h.inside
  unfold headerEnd at hinside
  simp only [header, slice, List.length_take, List.length_drop]
  omega

/-! ## The header checksum -/

/-- The one's complement sum of the header is the word of all ones. -/
def Verifies (frame : List Byte) : Prop := onesSum 0xFFFF (words (header frame)) = 0xFFFF

instance (frame : List Byte) : Decidable (Verifies frame) := by
  unfold Verifies; infer_instance

@[simp] theorem ihl_set_ttl (frame : List Byte) (t : Byte) : ihl (frame.set 22 t) = ihl frame := by
  unfold ihl
  rw [byteAt_set (by decide)]

theorem header_set_ttl (frame : List Byte) (t : Byte) :
    header (frame.set 22 t) = (header frame).set 8 t := by
  unfold header slice
  rw [ihl_set_ttl, List.drop_set, if_neg (by decide), List.take_set]

theorem HoldsHeader.set_ttl {frame : List Byte} (h : HoldsHeader frame) (t : Byte) :
    HoldsHeader (frame.set 22 t) where
  isV4 := by
    unfold version
    rw [byteAt_set (by decide)]
    exact h.isV4
  legal := by
    rw [ihl_set_ttl]
    exact h.legal
  inside := by
    unfold headerEnd
    rw [ihl_set_ttl, List.length_set]
    exact h.inside

/-- Frames with the same bytes from the IPv4 header on. -/
theorem byteAt_of_drop_eq {frame frame' : List Byte} (h : frame'.drop 14 = frame.drop 14) {i : Nat}
    (hi : 14 ≤ i) : byteAt frame' i = byteAt frame i := by
  have hget : frame'[14 + (i - 14)]? = frame[14 + (i - 14)]? := by
    rw [← List.getElem?_drop, ← List.getElem?_drop, h]
  rw [Nat.add_sub_cancel' hi] at hget
  unfold byteAt
  rw [List.getD_eq_getElem?_getD, List.getD_eq_getElem?_getD, hget]

theorem ihl_of_drop_eq {frame frame' : List Byte} (h : frame'.drop 14 = frame.drop 14) :
    ihl frame' = ihl frame := by
  unfold ihl
  rw [byteAt_of_drop_eq h (by decide)]

theorem HoldsHeader.of_drop_eq {frame frame' : List Byte} (hf : HoldsHeader frame)
    (h : frame'.drop 14 = frame.drop 14) (hlen : frame'.length = frame.length) :
    HoldsHeader frame' where
  isV4 := by
    unfold version
    rw [byteAt_of_drop_eq h (by decide)]
    exact hf.isV4
  legal := by
    rw [ihl_of_drop_eq h]
    exact hf.legal
  inside := by
    unfold headerEnd
    rw [ihl_of_drop_eq h, hlen]
    exact hf.inside

theorem verifies_of_drop_eq {frame frame' : List Byte} (h : frame'.drop 14 = frame.drop 14) :
    Verifies frame' ↔ Verifies frame := by
  unfold Verifies header slice
  rw [h, ihl_of_drop_eq h]

/-- The checksum holds the TTL: it does not verify with another one. -/
theorem verifies_set_ttl {frame : List Byte} (h : HoldsHeader frame) (hv : Verifies frame)
    (t : Byte) : Verifies (frame.set 22 t) ↔ t = byteAt frame 22 := by
  have hlen : 9 < (header frame).length := by
    have hlegal := h.legal
    rw [h.length_header]
    omega
  obtain ⟨pre, x, y, post, hsplit, hpre⟩ := exists_split (i := 8) hlen
  have hx : byteAt frame 22 = x := by
    have hbyte : byteAt (header frame) 8 = byteAt frame 22 :=
      byteAt_slice (Nat.lt_of_succ_lt (h.length_header ▸ hlen))
    rw [← hbyte, hsplit]
    simp [byteAt, ← hpre]
  have hset : header (frame.set 22 t) = pre ++ t :: y :: post := by
    rw [header_set_ttl, hsplit, List.set_append_right _ _ (by omega), hpre]
    rfl
  unfold Verifies at hv ⊢
  rw [hsplit] at hv
  rw [hset, hx]
  constructor
  · intro hv'
    exact eq_of_onesSum_words_eq (n := 4) hpre (hv'.trans hv.symm)
  · rintro rfl
    exact hv

/-! ## The payload of a TCP segment -/

def IPPROTO_TCP : Byte := 6

/-- The length of the TCP header in units of four bytes. -/
def doff (frame : List Byte) : Nat := (byteAt frame (headerEnd frame + 12)).toNat / 16

def payloadStart (frame : List Byte) : Nat := headerEnd frame + 4 * doff frame

/-- Where the packet ends. What follows in the frame is padding. -/
def packetEnd (frame : List Byte) : Nat := 14 + totalLength frame

/-- The frame holds a complete TCP segment. -/
structure HoldsTcp (frame : List Byte) : Prop where
  isIp : etherType frame = ETH_P_IP
  holds : HoldsHeader frame
  isTcp : protocol frame = IPPROTO_TCP
  legal : 5 ≤ doff frame
  headers : payloadStart frame ≤ packetEnd frame
  complete : packetEnd frame ≤ frame.length

instance (frame : List Byte) : Decidable (HoldsTcp frame) :=
  decidable_of_iff (etherType frame = ETH_P_IP ∧ HoldsHeader frame ∧
      protocol frame = IPPROTO_TCP ∧ 5 ≤ doff frame ∧ payloadStart frame ≤ packetEnd frame ∧
      packetEnd frame ≤ frame.length)
    ⟨fun ⟨h1, h2, h3, h4, h5, h6⟩ => ⟨h1, h2, h3, h4, h5, h6⟩,
      fun h => ⟨h.isIp, h.holds, h.isTcp, h.legal, h.headers, h.complete⟩⟩

/-- The payload behind the two headers, up to the total length. -/
def tcpPayload (frame : List Byte) : Option (List Byte) :=
  if HoldsTcp frame then
    some (slice frame (payloadStart frame) (packetEnd frame - payloadStart frame))
  else none

end DeviceDrivers.Ipv4
