import OpenFlight.Lib.ByteBuffer

/-!
# Panel Messages on the Wire

The messages between the host and a panel, and the frames that carry them.

A frame has an identifier, the type of its message, a payload in a buffer of
fixed size of which the first bytes are used, and a checksum over all of it. On
the wire only the bytes in use are sent.

The buffer is a list that carries its length. Copying into it past the end would
panic in the source; no function does that, and here it would leave the buffer as
it is.

## Main definitions

* `PanelMessage`, `encodePayload`, `decodePayload`: The messages and their bytes.
* `Payload`, `MessageFrame`: The frames.
-/

namespace OpenFlight.Panels

/-- The longest payload. -/
def maxPayload : Nat := 256

/-- The types of the messages. -/
def msgLedUpdate : UInt8 := 0x01

def msgDisplayUpdate : UInt8 := 0x02

def msgButtonEvent : UInt8 := 0x03

def msgEncoderEvent : UInt8 := 0x04

def msgSwitchEvent : UInt8 := 0x05

def msgHeartbeat : UInt8 := 0x06

/-- The bytes before a payload. -/
def frameHeaderSize : Nat := 5

def checksumSize : Nat := 2

/-- Why a frame is refused. -/
inductive FrameError
  | payloadTooLarge
  | invalidChecksum
  | invalidMessageType (messageType : UInt8)
  | insufficientData
  | invalidPayload
deriving DecidableEq

/-- The colors of a light. -/
inductive LedColor
  | off
  | green
  | amber
  | red
deriving DecidableEq

/-- The byte of a color. -/
def LedColor.asU8 : LedColor → UInt8
  | .off => 0
  | .green => 1
  | .amber => 2
  | .red => 3

/-- The color of a byte. -/
def LedColor.fromU8 (val : UInt8) : Except FrameError LedColor :=
  if val = 0 then .ok .off
  else if val = 1 then .ok .green
  else if val = 2 then .ok .amber
  else if val = 3 then .ok .red
  else .error .invalidPayload

/-- How a value is displayed. -/
inductive DisplayFormat
  | raw
  | numeric (decimalPos : UInt8)
  | frequency

/-- Type and parameter of a format. -/
def DisplayFormat.encode : DisplayFormat → UInt8 × UInt8
  | .raw => (0x00, 0x00)
  | .numeric decimalPos => (0x01, decimalPos)
  | .frequency => (0x02, 0x00)

/-- The format of a type and a parameter. -/
def DisplayFormat.decode (fmtType fmtParam : UInt8) : Except FrameError DisplayFormat :=
  if fmtType = 0x00 then .ok .raw
  else if fmtType = 0x01 then .ok (.numeric fmtParam)
  else if fmtType = 0x02 then .ok .frequency
  else .error .invalidPayload

/-- The messages. -/
inductive PanelMessage
  | ledUpdate (panelId ledId : UInt8) (state : Bool) (color : LedColor)
  | displayUpdate (panelId displayId : UInt8) (value : Vector UInt8 8) (format : DisplayFormat)
  | buttonEvent (panelId buttonId : UInt8) (pressed : Bool) (timestamp : UInt32)
  | encoderEvent (panelId encoderId : UInt8) (delta : Int16) (timestamp : UInt32)
  | switchEvent (panelId switchId position : UInt8) (timestamp : UInt32)
  | heartbeat (panelId : UInt8) (sequence : UInt16)

/-- The type byte of a message. -/
def PanelMessage.messageTypeId : PanelMessage → UInt8
  | .ledUpdate .. => msgLedUpdate
  | .displayUpdate .. => msgDisplayUpdate
  | .buttonEvent .. => msgButtonEvent
  | .encoderEvent .. => msgEncoderEvent
  | .switchEvent .. => msgSwitchEvent
  | .heartbeat .. => msgHeartbeat

/-- `[u8; MAX_PAYLOAD]`. -/
structure Payload where
  bytes : List UInt8
  sized : bytes.length = maxPayload
deriving DecidableEq

/-- `[0u8; MAX_PAYLOAD]`. -/
def Payload.zero : Payload :=
  { bytes := List.replicate maxPayload 0, sized := List.length_replicate }

/-- `copy_from_slice` into the buffer from an offset on. -/
def Payload.write (p : Payload) (offset : Nat) (data : List UInt8) : Payload :=
  if h : offset + data.length ≤ maxPayload then
    { bytes := writeAt p.bytes offset data
      sized := (length_writeAt p.bytes data offset (p.sized.symm ▸ h)).trans p.sized }
  else p

/-- `u8::from`. -/
def u8OfBool (b : Bool) : UInt8 :=
  if b then 1 else 0

/-- `encode_payload`, with the buffer it leaves. -/
def PanelMessage.encodePayload (buf : Payload) : PanelMessage → UInt16 × Payload
  | .ledUpdate panelId ledId state color =>
      let buf := buf.write 0 [panelId]
      let buf := buf.write 1 [ledId]
      let buf := buf.write 2 [u8OfBool state]
      let buf := buf.write 3 [color.asU8]
      (4, buf)
  | .displayUpdate panelId displayId value format =>
      let buf := buf.write 0 [panelId]
      let buf := buf.write 1 [displayId]
      let buf := buf.write 2 value.toList
      let buf := buf.write 10 [format.encode.1]
      let buf := buf.write 11 [format.encode.2]
      (12, buf)
  | .buttonEvent panelId buttonId pressed timestamp =>
      let buf := buf.write 0 [panelId]
      let buf := buf.write 1 [buttonId]
      let buf := buf.write 2 [u8OfBool pressed]
      let buf := buf.write 3 (toLe 4 timestamp.toNat)
      (7, buf)
  | .encoderEvent panelId encoderId delta timestamp =>
      let buf := buf.write 0 [panelId]
      let buf := buf.write 1 [encoderId]
      let buf := buf.write 2 (toLe 2 delta.toUInt16.toNat)
      let buf := buf.write 4 (toLe 4 timestamp.toNat)
      (8, buf)
  | .switchEvent panelId switchId position timestamp =>
      let buf := buf.write 0 [panelId]
      let buf := buf.write 1 [switchId]
      let buf := buf.write 2 [position]
      let buf := buf.write 3 (toLe 4 timestamp.toNat)
      (7, buf)
  | .heartbeat panelId sequence =>
      let buf := buf.write 0 [panelId]
      let buf := buf.write 1 (toLe 2 sequence.toNat)
      (3, buf)

/-- `copy_from_slice` of eight bytes into an array of zeros. -/
def eightBytes (bytes : List UInt8) : Vector UInt8 8 :=
  Vector.ofFn fun i => bytes.getD i 0

/-- The message that a payload holds. -/
def PanelMessage.decodePayload (messageType : UInt8) (payload : List UInt8) (len : UInt16) :
    Except FrameError PanelMessage :=
  let len := len.toNat
  if payload.length < len then .error .invalidPayload
  else if messageType = msgLedUpdate then
    if len < 4 then .error .invalidPayload
    else
      match LedColor.fromU8 (payload.getD 3 0) with
      | .error e => .error e
      | .ok color =>
          .ok (.ledUpdate (payload.getD 0 0) (payload.getD 1 0) (payload.getD 2 0 ≠ 0) color)
  else if messageType = msgDisplayUpdate then
    if len < 12 then .error .invalidPayload
    else
      match DisplayFormat.decode (payload.getD 10 0) (payload.getD 11 0) with
      | .error e => .error e
      | .ok format =>
          .ok (.displayUpdate (payload.getD 0 0) (payload.getD 1 0)
            (eightBytes (slice payload 2 8)) format)
  else if messageType = msgButtonEvent then
    if len < 7 then .error .invalidPayload
    else
      .ok (.buttonEvent (payload.getD 0 0) (payload.getD 1 0) (payload.getD 2 0 ≠ 0)
        (u32FromLe (slice payload 3 4)))
  else if messageType = msgEncoderEvent then
    if len < 8 then .error .invalidPayload
    else
      .ok (.encoderEvent (payload.getD 0 0) (payload.getD 1 0)
        (u16FromLe (slice payload 2 2)).toInt16 (u32FromLe (slice payload 4 4)))
  else if messageType = msgSwitchEvent then
    if len < 7 then .error .invalidPayload
    else
      .ok (.switchEvent (payload.getD 0 0) (payload.getD 1 0) (payload.getD 2 0)
        (u32FromLe (slice payload 3 4)))
  else if messageType = msgHeartbeat then
    if len < 3 then .error .invalidPayload
    else .ok (.heartbeat (payload.getD 0 0) (u16FromLe (slice payload 1 2)))
  else .error (.invalidMessageType messageType)

/-- One turn of the inner loop of `crc16_ccitt`. -/
def crcShift (crc : UInt16) : UInt16 :=
  if crc &&& 0x8000 ≠ 0 then (crc <<< 1) ^^^ 0x1021 else crc <<< 1

/-- The body of the outer loop of `crc16_ccitt`. -/
def crcByte (crc : UInt16) (byte : UInt8) : UInt16 :=
  crcShift^[8] (crc ^^^ (byte.toUInt16 <<< 8))

/-- The checksum of some bytes. -/
def crc16Ccitt (data : List UInt8) : UInt16 :=
  data.foldl crcByte 0xFFFF

-- The check value of CRC-16/CCITT-FALSE.
example : crc16Ccitt [0x31, 0x32, 0x33, 0x34, 0x35, 0x36, 0x37, 0x38, 0x39] = 0x29B1 := by
  decide +kernel

/-- A message on the wire. -/
structure MessageFrame where
  frameId : UInt16
  messageType : UInt8
  payloadLen : UInt16
  payload : Payload
  checksum : UInt16
deriving DecidableEq

namespace MessageFrame

/-- The checksum of a frame. -/
def computeChecksum (frame : MessageFrame) : UInt16 :=
  let plen := frame.payloadLen.toNat
  let plen := if maxPayload < plen then maxPayload else plen
  let total := frameHeaderSize + plen
  let buf : List UInt8 := List.replicate (frameHeaderSize + maxPayload) 0
  let buf := writeAt buf 0 (toLe 2 frame.frameId.toNat)
  let buf := writeAt buf 2 [frame.messageType]
  let buf := writeAt buf 3 (toLe 2 frame.payloadLen.toNat)
  let buf := writeAt buf 5 (frame.payload.bytes.take plen)
  crc16Ccitt (buf.take total)

/-- The frame of a message. -/
def fromMessage (frameId : UInt16) (msg : PanelMessage) : MessageFrame :=
  let payload := msg.encodePayload Payload.zero
  let frame : MessageFrame :=
    { frameId := frameId
      messageType := msg.messageTypeId
      payloadLen := payload.1
      payload := payload.2
      checksum := 0 }
  { frame with checksum := frame.computeChecksum }

/-- A frame as bytes. -/
def encode (frame : MessageFrame) : Except FrameError (List UInt8) :=
  if maxPayload < frame.payloadLen.toNat then .error .payloadTooLarge
  else
    .ok (toLe 2 frame.frameId.toNat ++ [frame.messageType] ++ toLe 2 frame.payloadLen.toNat
      ++ frame.payload.bytes.take frame.payloadLen.toNat ++ toLe 2 frame.checksum.toNat)

/-- A frame from bytes. -/
def decode (data : List UInt8) : Except FrameError MessageFrame :=
  if data.length < frameHeaderSize + checksumSize then .error .insufficientData
  else
    let frameId := u16FromLe (slice data 0 2)
    let messageType := data.getD 2 0
    let payloadLen := u16FromLe (slice data 3 2)
    let plen := payloadLen.toNat
    if maxPayload < plen then .error .payloadTooLarge
    else if data.length < frameHeaderSize + plen + checksumSize then .error .insufficientData
    else
      let payload := Payload.zero.write 0 (slice data frameHeaderSize plen)
      let checksum := u16FromLe (slice data (frameHeaderSize + plen) 2)
      let frame : MessageFrame :=
        { frameId := frameId
          messageType := messageType
          payloadLen := payloadLen
          payload := payload
          checksum := checksum }
      if frame.computeChecksum ≠ checksum then .error .invalidChecksum else .ok frame

/-- The message of a frame. -/
def toMessage (frame : MessageFrame) : Except FrameError PanelMessage :=
  PanelMessage.decodePayload frame.messageType frame.payload.bytes frame.payloadLen

end MessageFrame

end OpenFlight.Panels
