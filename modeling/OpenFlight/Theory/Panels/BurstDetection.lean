import OpenFlight.Lib.Crc
import OpenFlight.Theory.Panels.WireRoundTrip

/-!
# Errors in a Panel Frame

A frame in which a short run of bits was changed on the wire is not accepted.

The checksum is a division by a polynomial of degree 16 (`crc16Ccitt_eq`). A
frame that is read passes the division of the bytes before its checksum, and
the flipped bits change the remainder when they lie within 16 bits that follow
each other. The length and the checksum are taken to arrive as they were sent:
another length has other bytes divided.

The run is one on the wire. The length stands between the type and the payload,
so no run of 16 bits has flipped ones on both sides of it.

## Main definitions

* `Covered`: The bits of the identifier, the type and the payload.

## Theorems

* `decode_burst`: A burst of flipped bits is noticed.
-/

namespace OpenFlight.Panels

/-- The polynomial of the checksum, without its leading term. -/
def crcPoly : BitVec 16 := 0x1021#16

theorem toBitVec_crcShift (crc : UInt16) :
    (crcShift crc).toBitVec = Crc.shift crcPoly crc.toBitVec := by
  -- The mask singles out the leading bit.
  have hmask : (crc &&& 0x8000).toBitVec =
      if crc.toBitVec.getLsbD 15 then BitVec.twoPow 16 15 else 0#16 :=
    BitVec.and_twoPow crc.toBitVec 15
  have htop : crc &&& 0x8000 ≠ 0 ↔ crc.toBitVec.msb = true := by
    rw [BitVec.msb_eq_getLsbD_last, ne_eq, ← UInt16.toBitVec_inj, hmask]
    cases crc.toBitVec.getLsbD 15 <;> decide
  unfold crcShift Crc.shift
  by_cases hset : crc.toBitVec.msb = true
  · rw [if_pos (htop.mpr hset), if_pos hset]
    rfl
  · rw [if_neg (fun h => hset (htop.mp h)), if_neg hset]
    rfl

theorem toBitVec_crcShift_iterate (n : Nat) (crc : UInt16) :
    (crcShift^[n] crc).toBitVec = (Crc.shift crcPoly)^[n] crc.toBitVec := by
  induction n generalizing crc with
  | zero => rfl
  | succ n ih => rw [Function.iterate_succ_apply, ih, toBitVec_crcShift]; rfl

/-- A byte is divided as its bits are. -/
theorem toBitVec_crcByte (crc : UInt16) (byte : UInt8) : (crcByte crc byte).toBitVec =
      Crc.remainder crcPoly crc.toBitVec (Crc.wordBits byte.toBitVec) := by
  rw [crcByte, toBitVec_crcShift_iterate, Crc.remainder_wordBits _ _ _ (by decide)]
  rfl

/-- The checksum is a remainder. -/
theorem crc16Ccitt_eq (data : List UInt8) :
    (crc16Ccitt data).toBitVec = Crc.remainder crcPoly 0xFFFF#16 (Crc.bitsOf data) := by
  induction data using List.reverseRecOn with
  | nil => rfl
  | append_singleton data byte ih =>
      have hbyte : crc16Ccitt (data ++ [byte]) = crcByte (crc16Ccitt data) byte := by
        rw [crc16Ccitt, List.foldl_append]
        rfl
      rw [hbyte, toBitVec_crcByte, ih, Crc.bitsOf, Crc.bitsOf, List.flatMap_append,
        Crc.remainder_append, List.flatMap_singleton]

namespace MessageFrame

/-- The checksum is that of the bytes that are sent before it. -/
theorem computeChecksum_eq (frame : MessageFrame) (h : frame.payloadLen.toNat ≤ maxPayload) :
    frame.computeChecksum =
      crc16Ccitt (frame.wire.take (frameHeaderSize + frame.payloadLen.toNat)) := by
  -- The buffer for the checksum is filled in the order of the wire.
  have hused := length_used frame h
  generalize hpayload : frame.payload.bytes.take frame.payloadLen.toNat = payload at hused
  generalize hzeros : List.replicate (frameHeaderSize + maxPayload) (0 : UInt8) = zeros
  have hid := writeAt_end [] zeros (toLe 2 frame.frameId.toNat) 0 rfl
  have htype := writeAt_end (toLe 2 frame.frameId.toNat) zeros [frame.messageType] 2 rfl
  have hlen := writeAt_end (toLe 2 frame.frameId.toNat ++ [frame.messageType]) zeros
    (toLe 2 frame.payloadLen.toNat) 3 rfl
  have hrest := writeAt_end (toLe 2 frame.frameId.toNat ++ [frame.messageType]
    ++ toLe 2 frame.payloadLen.toNat) zeros payload 5 rfl
  rw [List.nil_append, List.drop_zero, List.nil_append, length_toLe] at hid
  rw [List.length_singleton] at htype
  rw [length_toLe] at hlen
  have hfront : (toLe 2 frame.frameId.toNat ++ [frame.messageType]
      ++ toLe 2 frame.payloadLen.toNat ++ payload).length =
        frameHeaderSize + frame.payloadLen.toNat := by
    rw [List.length_append, hused]
    rfl
  unfold computeChecksum wire
  simp only [if_neg (Nat.not_lt.mpr h), hpayload, hzeros]
  rw [hid, htype, hlen, hrest, List.take_left' hfront, List.take_left' hfront]

theorem computeChecksum_of_readFrom (data : List UInt8) (frame : MessageFrame)
    (h : ReadFrom data frame) :
    frame.computeChecksum = crc16Ccitt (data.take (frameHeaderSize + frame.payloadLen.toNat)) := by
  rw [computeChecksum_eq frame h.fits, wire_of_readFrom data frame h, List.take_take,
    Nat.min_eq_left (Nat.le_add_right _ _)]

/-- What is accepted, by the fields that were read. -/
theorem decode_eq_of_readFrom (data : List UInt8) (frame : MessageFrame) (h : ReadFrom data frame) :
    decode data =
      if crc16Ccitt (data.take (frameHeaderSize + frame.payloadLen.toNat)) ≠ frame.checksum then
        .error .invalidChecksum
      else .ok frame := by
  have hfits := h.fits
  have hlong := h.long
  rw [← computeChecksum_of_readFrom data frame h, decode]
  simp only [← h.frameId, ← h.messageType, ← h.payloadLen, ← h.payload, ← h.checksum]
  rw [if_neg (by omega), if_neg (by omega), if_neg (by omega)]

/-- The bits of the identifier and the type, and those of the payload. -/
def Covered (frame : MessageFrame) (p : Nat) : Prop :=
  p < 8 * 3 ∨ 8 * frameHeaderSize ≤ p ∧ p < 8 * (frameHeaderSize + frame.payloadLen.toNat)

/-- Bytes without flipped bits. -/
theorem slice_flipBits (flipped : Finset Nat) (data : List UInt8) (offset n : Nat)
    (h : ∀ p ∈ flipped, p < 8 * offset ∨ 8 * (offset + n) ≤ p) :
    slice (Crc.flipBits flipped data) offset n = slice data offset n := by
  refine List.ext_getElem? fun i => ?_
  rw [slice, slice, List.getElem?_take, List.getElem?_take, List.getElem?_drop, List.getElem?_drop,
    Crc.getElem?_flipBits]
  split
  · rename_i hi
    rw [Crc.flipMask_eq_zero flipped (offset + i) fun p hp => by have := h p hp; omega]
    simp
  · rfl

/-- A frame that was accepted is not accepted with bits flipped in a run of 16,
    other than bits of its length and its checksum. -/
theorem decode_burst (data : List UInt8) (frame : MessageFrame) (hdecode : decode data = .ok frame)
    (flipped : Finset Nat) (hsome : flipped.Nonempty)
    (hcovered : ∀ p ∈ flipped, Covered frame p) (k : Nat)
    (hburst : ∀ p ∈ flipped, k ≤ p ∧ p < k + 16) :
    decode (Crc.flipBits flipped data) = .error .invalidChecksum := by
  have hread := readFrom_of_decode data frame hdecode
  have hlong := hread.long
  -- The frame was accepted, so its checksum was that of its bytes.
  have haccepted : crc16Ccitt (data.take (frameHeaderSize + frame.payloadLen.toNat)) =
      frame.checksum := by
    by_contra hdiffers
    rw [decode_eq_of_readFrom data frame hread, if_pos hdiffers] at hdecode
    cases hdecode
  -- The length and the checksum are read as they were.
  have hlen : slice (Crc.flipBits flipped data) 3 2 = slice data 3 2 := by
    refine slice_flipBits flipped data 3 2 fun p hp => ?_
    rcases hcovered p hp with hheader | hpayload
    · exact .inl hheader
    · exact .inr hpayload.1
  have hsum : slice (Crc.flipBits flipped data) (frameHeaderSize + frame.payloadLen.toNat) 2 =
      slice data (frameHeaderSize + frame.payloadLen.toNat) 2 := by
    refine slice_flipBits flipped data _ 2 fun p hp => ?_
    rcases hcovered p hp with hheader | hpayload
    · exact .inl (by rw [frameHeaderSize]; omega)
    · exact .inl hpayload.2
  -- So the flipped bytes read as a frame of the same length with the same checksum.
  have hreadFlipped : ReadFrom (Crc.flipBits flipped data)
      { frameId := u16FromLe (slice (Crc.flipBits flipped data) 0 2)
        messageType := (Crc.flipBits flipped data).getD 2 0
        payloadLen := frame.payloadLen
        payload := Payload.zero.write 0
          (slice (Crc.flipBits flipped data) frameHeaderSize frame.payloadLen.toNat)
        checksum := frame.checksum } :=
    { fits := hread.fits
      long := by rw [Crc.length_flipBits]; exact hlong
      frameId := rfl
      messageType := rfl
      payloadLen := by rw [hlen]; exact hread.payloadLen
      payload := rfl
      checksum := by rw [hsum]; exact hread.checksum }
  rw [decode_eq_of_readFrom _ _ hreadFlipped]
  refine if_pos ?_
  rw [← haccepted, Crc.take_flipBits]
  intro hsame
  have hconstant : crcPoly.getLsbD 0 = true := by decide
  refine Crc.remainder_flipBits_ne hconstant 0xFFFF#16
    (data.take (frameHeaderSize + frame.payloadLen.toNat)) hsome (fun p hp => ?_) k hburst ?_
  · rw [List.length_take, Nat.min_eq_left (by omega)]
    rcases hcovered p hp with hheader | hpayload
    · rw [frameHeaderSize]
      omega
    · exact hpayload.2
  · rw [← crc16Ccitt_eq, ← crc16Ccitt_eq, hsame]

/-- A heartbeat with its sequence number and its panel garbled. -/
theorem decode_burst_heartbeat :
    decode (Crc.flipBits {41, 47, 56} [7, 0, 6, 3, 0, 1, 3, 2, 52, 215]) =
      .error .invalidChecksum := by
  have hdecode : decode [7, 0, 6, 3, 0, 1, 3, 2, 52, 215] =
      .ok (fromMessage 7 (.heartbeat 1 0x0203)) := by
    decide +kernel
  exact decode_burst _ _ hdecode {41, 47, 56} (by decide)
    (fun p hp => .inr (by revert p; decide +kernel)) 41 (by decide)

-- Flips on both sides of the length, further apart than that, can cancel each other.
example : crc16Ccitt [7, 0, 6 ^^^ 0xEF, 3, 0, 1 ^^^ 0x8C, 3, 2] =
    crc16Ccitt [7, 0, 6, 3, 0, 1, 3, 2] := by
  decide +kernel

end MessageFrame

end OpenFlight.Panels
