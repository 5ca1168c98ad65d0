import OpenFlight.Core.Panels.MessageEngine

/-!
# The Wire Format of Panel Messages

A message that is framed and sent is received as it was, and a frame that is
received is the bytes it was read from.

Encoder and decoder agree on a layout, which `layout` lists field by field. The
encoder writes it at the front of the buffer; the decoder reads each field at its
offset. The buffer is zero past the bytes in use, on both sides, so a frame that
is sent and received is the same frame, and the checksum over it is the same.

## Main definitions

* `Padded`: The payload is zero past the bytes in use.
* `ReadFrom`: The fields of a frame at their places in the data.

## Theorems

* `panel_wire_round_trip`: Both directions.
-/

namespace OpenFlight.Panels

/-- The fields of a message, one after the other. -/
def PanelMessage.layout : PanelMessage → List UInt8
  | .ledUpdate panelId ledId state color => [panelId, ledId, u8OfBool state, color.asU8]
  | .displayUpdate panelId displayId value format =>
      [panelId, displayId] ++ value.toList ++ [format.encode.1, format.encode.2]
  | .buttonEvent panelId buttonId pressed timestamp =>
      [panelId, buttonId, u8OfBool pressed] ++ toLe 4 timestamp.toNat
  | .encoderEvent panelId encoderId delta timestamp =>
      [panelId, encoderId] ++ toLe 2 delta.toUInt16.toNat ++ toLe 4 timestamp.toNat
  | .switchEvent panelId switchId position timestamp =>
      [panelId, switchId, position] ++ toLe 4 timestamp.toNat
  | .heartbeat panelId sequence => [panelId] ++ toLe 2 sequence.toNat

theorem Payload.write_bytes (p : Payload) (offset : Nat) (data : List UInt8)
    (h : offset + data.length ≤ maxPayload) :
    (p.write offset data).bytes = writeAt p.bytes offset data := by
  rw [Payload.write, dif_pos h]

/-- Writing right after what was written. -/
theorem Payload.write_end (p buf : Payload) (front data : List UInt8) (offset : Nat)
    (hp : p.bytes = front ++ buf.bytes.drop offset) (hfront : front.length = offset)
    (hfits : offset + data.length ≤ maxPayload) :
    (p.write offset data).bytes = front ++ data ++ buf.bytes.drop (offset + data.length) := by
  rw [Payload.write_bytes p offset data hfits, hp]
  exact writeAt_end front buf.bytes data offset hfront

/-- The encoder writes the layout at the front of the buffer and returns its length. -/
theorem encodePayload_eq (m : PanelMessage) (buf : Payload) :
    (m.encodePayload buf).1.toNat = m.layout.length ∧
    (m.encodePayload buf).2.bytes = m.layout ++ buf.bytes.drop m.layout.length := by
  have hfirst (b : UInt8) : (buf.write 0 [b]).bytes = [b] ++ buf.bytes.drop 1 :=
    Payload.write_end buf buf [] [b] 0 rfl rfl (by simp [maxPayload])
  have hsecond (b c : UInt8) :
      ((buf.write 0 [b]).write 1 [c]).bytes = [b, c] ++ buf.bytes.drop 2 :=
    Payload.write_end _ buf [b] [c] 1 (hfirst b) rfl (by simp [maxPayload])
  have hthird (b c d : UInt8) :
      (((buf.write 0 [b]).write 1 [c]).write 2 [d]).bytes = [b, c, d] ++ buf.bytes.drop 3 :=
    Payload.write_end _ buf [b, c] [d] 2 (hsecond b c) rfl (by simp [maxPayload])
  cases m with
  | ledUpdate panelId ledId state color =>
      exact ⟨rfl, Payload.write_end _ buf _ _ 3 (hthird _ _ _) rfl (by simp [maxPayload])⟩
  | displayUpdate panelId displayId value format =>
      have hlength : (PanelMessage.layout (.displayUpdate panelId displayId value format)).length
          = 12 := by
        simp [PanelMessage.layout]
      have hvalue := Payload.write_end _ buf _ value.toList 2 (hsecond panelId displayId) rfl
        (by rw [Vector.length_toList]; decide)
      rw [Vector.length_toList] at hvalue
      have htype := Payload.write_end _ buf _ [format.encode.1] 10 hvalue (by simp)
        (by simp [maxPayload])
      have hparam := Payload.write_end _ buf _ [format.encode.2] 11 htype (by simp)
        (by simp [maxPayload])
      rw [hlength]
      refine ⟨rfl, hparam.trans ?_⟩
      simp [PanelMessage.layout]
  | buttonEvent panelId buttonId pressed timestamp =>
      exact ⟨rfl, Payload.write_end _ buf _ _ 3 (hthird _ _ _) rfl (by rw [length_toLe]; decide)⟩
  | encoderEvent panelId encoderId delta timestamp =>
      have hdelta := Payload.write_end _ buf _ (toLe 2 delta.toUInt16.toNat) 2
        (hsecond panelId encoderId) rfl (by rw [length_toLe]; decide)
      exact ⟨rfl, Payload.write_end _ buf _ _ 4 hdelta rfl (by rw [length_toLe]; decide)⟩
  | switchEvent panelId switchId position timestamp =>
      exact ⟨rfl, Payload.write_end _ buf _ _ 3 (hthird _ _ _) rfl (by rw [length_toLe]; decide)⟩
  | heartbeat panelId sequence =>
      exact ⟨rfl, Payload.write_end _ buf _ _ 1 (hfirst _) rfl (by rw [length_toLe]; decide)⟩

theorem u8OfBool_ne_zero (b : Bool) : decide (u8OfBool b ≠ 0) = b := by
  cases b with
  | false => rfl
  | true => rfl

theorem LedColor.fromU8_asU8 (c : LedColor) : LedColor.fromU8 c.asU8 = .ok c := by
  cases c with
  | off => rfl
  | green => rfl
  | amber => rfl
  | red => rfl

theorem DisplayFormat.decode_encode (f : DisplayFormat) :
    DisplayFormat.decode f.encode.1 f.encode.2 = .ok f := by
  cases f with
  | raw => rfl
  | numeric decimalPos => rfl
  | frequency => rfl

theorem eightBytes_toList (v : Vector UInt8 8) : eightBytes v.toList = v := by
  refine Vector.ext fun i hi => ?_
  simp [eightBytes]

/-- The decoder reads every message back from its layout. -/
theorem decodePayload_layout (m : PanelMessage) (rest : List UInt8) (len : UInt16)
    (hlen : len.toNat = m.layout.length) :
    PanelMessage.decodePayload m.messageTypeId (m.layout ++ rest) len = .ok m := by
  have hlong : ¬ (m.layout ++ rest).length < len.toNat := by
    rw [List.length_append, hlen]
    omega
  unfold PanelMessage.decodePayload
  simp only []
  rw [if_neg hlong, hlen]
  cases m with
  | ledUpdate panelId ledId state color =>
      have hcolor : LedColor.fromU8 ((PanelMessage.layout (.ledUpdate panelId ledId state color)
          ++ rest).getD 3 0) = .ok color := LedColor.fromU8_asU8 color
      have hstate : decide ((PanelMessage.layout (.ledUpdate panelId ledId state color)
          ++ rest).getD 2 0 ≠ 0) = state := u8OfBool_ne_zero state
      simp only [PanelMessage.messageTypeId, if_true]
      rw [if_neg (by simp [PanelMessage.layout]), hcolor, hstate]
      rfl
  | displayUpdate panelId displayId value format =>
      have hlength : (PanelMessage.layout (.displayUpdate panelId displayId value format)).length
          = 12 := by
        simp [PanelMessage.layout]
      -- The value has no fixed bytes to compute with, so the row is cut at its fields.
      generalize hbuf : PanelMessage.layout (.displayUpdate panelId displayId value format)
        ++ rest = buf
      have hrow : buf = [panelId, displayId] ++ value.toList ++
          ([format.encode.1, format.encode.2] ++ rest) := by
        rw [← hbuf, PanelMessage.layout, List.append_assoc]
      have hvalue : slice buf 2 8 = value.toList :=
        slice_of_row buf [panelId, displayId] _ ([format.encode.1, format.encode.2] ++ rest) 2 8
          (by rw [hrow, List.append_assoc]) rfl (by simp)
      have htype : buf.getD 10 0 = format.encode.1 := by
        rw [hrow, List.getD_append_right _ _ _ _ (by simp)]
        simp
      have hparam : buf.getD 11 0 = format.encode.2 := by
        rw [hrow, List.getD_append_right _ _ _ _ (by simp)]
        simp
      simp only [PanelMessage.messageTypeId]
      rw [if_neg (by decide), if_pos trivial, if_neg (by rw [hlength]; decide), htype, hparam,
        DisplayFormat.decode_encode, hvalue, eightBytes_toList, ← hbuf]
      rfl
  | buttonEvent panelId buttonId pressed timestamp =>
      have hpressed : decide ((PanelMessage.layout (.buttonEvent panelId buttonId pressed timestamp)
          ++ rest).getD 2 0 ≠ 0) = pressed := u8OfBool_ne_zero pressed
      have hstamp : u32FromLe (slice (PanelMessage.layout
          (.buttonEvent panelId buttonId pressed timestamp) ++ rest) 3 4) = timestamp :=
        u32FromLe_toLe timestamp
      simp only [PanelMessage.messageTypeId]
      rw [if_neg (by decide), if_neg (by decide), if_pos trivial,
        if_neg (by simp [PanelMessage.layout]), hpressed, hstamp]
      rfl
  | encoderEvent panelId encoderId delta timestamp =>
      have hdelta : (u16FromLe (slice (PanelMessage.layout
          (.encoderEvent panelId encoderId delta timestamp) ++ rest) 2 2)).toInt16 = delta :=
        congrArg UInt16.toInt16 (u16FromLe_toLe delta.toUInt16)
      have hstamp : u32FromLe (slice (PanelMessage.layout
          (.encoderEvent panelId encoderId delta timestamp) ++ rest) 4 4) = timestamp :=
        u32FromLe_toLe timestamp
      simp only [PanelMessage.messageTypeId]
      rw [if_neg (by decide), if_neg (by decide), if_neg (by decide), if_pos trivial,
        if_neg (by simp [PanelMessage.layout]), hdelta, hstamp]
      rfl
  | switchEvent panelId switchId position timestamp =>
      have hstamp : u32FromLe (slice (PanelMessage.layout
          (.switchEvent panelId switchId position timestamp) ++ rest) 3 4) = timestamp :=
        u32FromLe_toLe timestamp
      simp only [PanelMessage.messageTypeId]
      rw [if_neg (by decide), if_neg (by decide), if_neg (by decide), if_neg (by decide),
        if_pos trivial, if_neg (by simp [PanelMessage.layout]), hstamp]
      rfl
  | heartbeat panelId sequence =>
      have hsequence : u16FromLe (slice (PanelMessage.layout (.heartbeat panelId sequence)
          ++ rest) 1 2) = sequence := u16FromLe_toLe sequence
      simp only [PanelMessage.messageTypeId]
      rw [if_neg (by decide), if_neg (by decide), if_neg (by decide), if_neg (by decide),
        if_neg (by decide), if_pos trivial, if_neg (by simp [PanelMessage.layout]), hsequence]
      rfl

section

namespace MessageFrame

/-- The bytes that a frame is sent as. -/
def wire (frame : MessageFrame) : List UInt8 :=
  toLe 2 frame.frameId.toNat ++ [frame.messageType] ++ toLe 2 frame.payloadLen.toNat
    ++ frame.payload.bytes.take frame.payloadLen.toNat ++ toLe 2 frame.checksum.toNat

/-- The bytes in use fit, and the rest of the payload is zero. -/
structure Padded (frame : MessageFrame) : Prop where
  fits : frame.payloadLen.toNat ≤ maxPayload
  zeros : frame.payload.bytes.drop frame.payloadLen.toNat =
    Payload.zero.bytes.drop frame.payloadLen.toNat

variable (frame : MessageFrame)

section

variable (h : frame.payloadLen.toNat ≤ maxPayload)

include h

theorem encode_of_fits : frame.encode = .ok frame.wire := by
  rw [encode, if_neg (Nat.not_lt.mpr h)]
  rfl

theorem length_used :
    (frame.payload.bytes.take frame.payloadLen.toNat).length = frame.payloadLen.toNat := by
  rw [List.length_take, frame.payload.sized]
  exact Nat.min_eq_left h

theorem length_wire :
    frame.wire.length = frameHeaderSize + frame.payloadLen.toNat + checksumSize := by
  simp only [wire, List.length_append, length_toLe, List.length_singleton, length_used frame h]
  rfl

end

variable (data : List UInt8)

/-- A copy into a buffer of zeros. -/
theorem zero_write (h : data.length ≤ maxPayload) :
    (Payload.zero.write 0 data).bytes = data ++ Payload.zero.bytes.drop data.length := by
  have hwrite := Payload.write_end Payload.zero Payload.zero [] data 0 rfl rfl (by omega)
  rw [List.nil_append, Nat.zero_add] at hwrite
  exact hwrite

theorem payload_ext (p q : Payload) (h : p.bytes = q.bytes) : p = q := by
  cases p with
  | mk bytes sized =>
      cases q with
      | mk bytes' sized' =>
          cases h
          rfl

/-- A padded frame with its checksum is received as it was sent. -/
theorem decode_wire (hpadded : frame.Padded) (hchecksum : frame.computeChecksum = frame.checksum)
    (tail : List UInt8) : decode (frame.wire ++ tail) = .ok frame := by
  have hfits := hpadded.fits
  have hused := length_used frame hfits
  have hlength := length_wire frame hfits
  generalize hdata : frame.wire ++ tail = data
  have hlong : data.length = frameHeaderSize + frame.payloadLen.toNat + checksumSize
      + tail.length := by
    rw [← hdata, List.length_append, hlength]
  have hid : u16FromLe (slice data 0 2) = frame.frameId := by
    rw [← hdata]
    exact u16FromLe_toLe frame.frameId
  have htype : data.getD 2 0 = frame.messageType := by
    rw [← hdata]
    rfl
  have hlen : u16FromLe (slice data 3 2) = frame.payloadLen := by
    rw [← hdata]
    exact u16FromLe_toLe frame.payloadLen
  have hpayload : slice data frameHeaderSize frame.payloadLen.toNat =
      frame.payload.bytes.take frame.payloadLen.toNat :=
    slice_of_row data
      (toLe 2 frame.frameId.toNat ++ [frame.messageType] ++ toLe 2 frame.payloadLen.toNat) _
      (toLe 2 frame.checksum.toNat ++ tail) _ _ (by rw [← hdata, wire]; simp) rfl hused
  have hsum : u16FromLe (slice data (frameHeaderSize + frame.payloadLen.toNat) 2) =
      frame.checksum := by
    have hfront : (toLe 2 frame.frameId.toNat ++ [frame.messageType]
        ++ toLe 2 frame.payloadLen.toNat ++ frame.payload.bytes.take frame.payloadLen.toNat).length
          = frameHeaderSize + frame.payloadLen.toNat := by
      rw [List.length_append, hused]
      rfl
    rw [slice_of_row data _ (toLe 2 frame.checksum.toNat) tail _ _
      (by rw [← hdata, wire, List.append_assoc _ _ tail]) hfront (length_toLe _ _)]
    exact u16FromLe_toLe frame.checksum
  have hbuffer : Payload.zero.write 0 (frame.payload.bytes.take frame.payloadLen.toNat) =
      frame.payload := by
    refine payload_ext _ _ ?_
    rw [zero_write _ (by rw [hused]; exact hfits), hused, ← hpadded.zeros, List.take_append_drop]
  unfold decode
  simp only [hid, htype, hlen, hpayload, hsum, hbuffer]
  rw [if_neg (by omega), if_neg (Nat.not_lt.mpr hfits), if_neg (by omega)]
  exact if_neg (not_not.mpr hchecksum)

/-- The frame of a message is padded. -/
theorem fromMessage_padded (frameId : UInt16) (m : PanelMessage) :
    (fromMessage frameId m).Padded := by
  rcases encodePayload_eq m Payload.zero with ⟨hlen, hbytes⟩
  have hpayloadLen : (fromMessage frameId m).payloadLen.toNat = m.layout.length := hlen
  have hpayload : (fromMessage frameId m).payload.bytes =
      m.layout ++ Payload.zero.bytes.drop m.layout.length := hbytes
  have hsized := (fromMessage frameId m).payload.sized
  constructor
  · rw [hpayload, List.length_append] at hsized
    rw [hpayloadLen]
    omega
  · rw [hpayloadLen, hpayload, List.drop_left]

theorem toMessage_fromMessage (frameId : UInt16) (m : PanelMessage) :
    (fromMessage frameId m).toMessage = .ok m := by
  rcases encodePayload_eq m Payload.zero with ⟨hlen, hbytes⟩
  have hpayload : (fromMessage frameId m).payload.bytes =
      m.layout ++ Payload.zero.bytes.drop m.layout.length := hbytes
  rw [toMessage, hpayload]
  exact decodePayload_layout m _ _ hlen

/-- The fields of a frame that is received. -/
structure ReadFrom (data : List UInt8) (frame : MessageFrame) : Prop where
  fits : frame.payloadLen.toNat ≤ maxPayload
  long : frameHeaderSize + frame.payloadLen.toNat + checksumSize ≤ data.length
  frameId : frame.frameId = u16FromLe (slice data 0 2)
  messageType : frame.messageType = data.getD 2 0
  payloadLen : frame.payloadLen = u16FromLe (slice data 3 2)
  payload : frame.payload =
    Payload.zero.write 0 (slice data frameHeaderSize frame.payloadLen.toNat)
  checksum : frame.checksum =
    u16FromLe (slice data (frameHeaderSize + frame.payloadLen.toNat) 2)

theorem readFrom_of_decode (frame : MessageFrame) (h : decode data = .ok frame) :
    ReadFrom data frame := by
  unfold decode at h
  simp only [] at h
  split at h
  · exact nomatch h
  split at h
  · exact nomatch h
  split at h
  · exact nomatch h
  split at h
  · exact nomatch h
  rename_i _ hfits hlong _
  rw [Except.ok.injEq] at h
  subst h
  exact ⟨Nat.le_of_not_lt hfits, Nat.le_of_not_lt hlong, rfl, rfl, rfl, rfl, rfl⟩

/-- The bytes that are accepted are those of the frame, and perhaps more. -/
theorem wire_of_readFrom (frame : MessageFrame) (h : ReadFrom data frame) :
    frame.wire = data.take (frameHeaderSize + frame.payloadLen.toNat + checksumSize) := by
  have hfits := h.fits
  have hlong := h.long
  have hseven : 7 ≤ data.length := by
    rw [frameHeaderSize, checksumSize] at hlong
    omega
  have hused : (slice data frameHeaderSize frame.payloadLen.toNat).length =
      frame.payloadLen.toNat := length_slice data _ _ (by omega)
  have hpayload : frame.payload.bytes.take frame.payloadLen.toNat =
      slice data frameHeaderSize frame.payloadLen.toNat := by
    rw [h.payload, zero_write _ (by omega)]
    exact List.take_left' hused
  have hid : toLe 2 frame.frameId.toNat = slice data 0 2 := by
    rw [h.frameId]
    exact toLe_u16FromLe _ (length_slice data 0 2 (by omega))
  have hlen : toLe 2 frame.payloadLen.toNat = slice data 3 2 := by
    rw [h.payloadLen]
    exact toLe_u16FromLe _ (length_slice data 3 2 (by omega))
  have hsum : toLe 2 frame.checksum.toNat =
      slice data (frameHeaderSize + frame.payloadLen.toNat) 2 := by
    rw [h.checksum]
    exact toLe_u16FromLe _ (length_slice data _ 2 hlong)
  have hheader : data.take frameHeaderSize =
      slice data 0 2 ++ slice data 2 1 ++ slice data 3 2 := by
    rw [frameHeaderSize, take_add_slice data 3 2, take_add_slice data 2 1,
      take_add_slice data 0 2, List.take_zero, List.nil_append]
  rw [wire, hid, h.messageType, ← slice_one data 0 2 (by omega), hlen, hpayload, hsum, ← hheader,
    ← take_add_slice, ← take_add_slice]
  rfl

/-- A message is received as it was sent, whatever comes after it, and a frame
    that is received is sent as the bytes it was read from. -/
theorem panel_wire_round_trip :
    (∀ (frameId : UInt16) (m : PanelMessage) (tail : List UInt8), ∃ bytes frame,
      (fromMessage frameId m).encode = .ok bytes ∧ decode (bytes ++ tail) = .ok frame ∧
        frame.frameId = frameId ∧ frame.toMessage = .ok m) ∧
    (∀ (data : List UInt8) (frame : MessageFrame), decode data = .ok frame →
      7 + frame.payloadLen.toNat ≤ data.length ∧
        frame.encode = .ok (data.take (7 + frame.payloadLen.toNat))) := by
  constructor
  · intro frameId m tail
    have hpadded := fromMessage_padded frameId m
    refine ⟨_, fromMessage frameId m, encode_of_fits _ hpadded.fits, ?_, rfl,
      toMessage_fromMessage frameId m⟩
    exact decode_wire _ hpadded rfl tail
  · intro data frame h
    have hread := readFrom_of_decode data frame h
    have hseven : frameHeaderSize + frame.payloadLen.toNat + checksumSize =
        7 + frame.payloadLen.toNat := by
      rw [frameHeaderSize, checksumSize]
      omega
    have hlong := hread.long
    have hwire := wire_of_readFrom data frame hread
    rw [hseven] at hlong hwire
    exact ⟨hlong, by rw [encode_of_fits frame hread.fits, hwire]⟩

/-- A heartbeat on the wire, followed by the first byte of another frame. -/
theorem panel_wire_heartbeat :
    decode [7, 0, 6, 3, 0, 1, 3, 2, 52, 215, 8] = .ok (fromMessage 7 (.heartbeat 1 0x0203)) ∧
    (fromMessage 7 (.heartbeat 1 0x0203)).encode = .ok [7, 0, 6, 3, 0, 1, 3, 2, 52, 215] := by
  have hdecode : decode [7, 0, 6, 3, 0, 1, 3, 2, 52, 215, 8] =
      .ok (fromMessage 7 (.heartbeat 1 0x0203)) := by
    decide +kernel
  exact ⟨hdecode, (panel_wire_round_trip.2 _ _ hdecode).2⟩

end MessageFrame

end

end OpenFlight.Panels
