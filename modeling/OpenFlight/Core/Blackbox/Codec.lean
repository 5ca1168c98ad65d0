import OpenFlight.Lib.ByteBuffer

/-!
# The Record Codec

The compact binary codec of the flight recorder: `Record` values, their
encoding into a buffer, and the decoding from one.

A floating-point field is its bit pattern, which is all that the codec moves.
An array of bytes is a vector of its length. The encoder writes each field at
an offset of the buffer it is given and leaves the rest of the buffer alone; it
returns the number of bytes and, here, the buffer.

## Main definitions

* `AxisFrame`, `BusEvent`, `TimingMark`, `Annotation`, `Record`: The records.
* `encodeAxisFrame`, …, `encode`: The encoder.
-/

namespace OpenFlight.Blackbox

/-- The first byte of every record. -/
def codecVersion : UInt8 := 1

/-- The tags of the records. -/
def tagAxisFrame : UInt8 := 0x01

def tagBusEvent : UInt8 := 0x02

def tagTimingMark : UInt8 := 0x03

def tagAnnotation : UInt8 := 0x04

def annotationMax : Nat := 64

/-- An axis frame; the two values are bit patterns. -/
structure AxisFrame where
  timestampNs : UInt64
  axisId : UInt16
  raw : UInt64
  processed : UInt64
deriving DecidableEq

/-- An event with at most eight bytes of payload. -/
structure BusEvent where
  timestampNs : UInt64
  eventCode : UInt16
  payload : Vector UInt8 8
  payloadLen : UInt8
deriving DecidableEq

/-- A mark of the clock. -/
structure TimingMark where
  timestampNs : UInt64
  sequence : UInt32
  deltaNs : UInt32
deriving DecidableEq

/-- A message in a fixed array. -/
structure Annotation where
  timestampNs : UInt64
  msg : Vector UInt8 annotationMax
  msgLen : UInt8
deriving DecidableEq

/-- The kinds of records. -/
inductive Record
  | axisFrame (r : AxisFrame)
  | busEvent (r : BusEvent)
  | timingMark (r : TimingMark)
  | annotationRecord (r : Annotation)
deriving DecidableEq

/-- The errors of the codec. -/
inductive CodecError
  | bufferTooSmall
  | unexpectedEof
  | unknownTag (tag : UInt8)
  | unsupportedVersion (version : UInt8)
  | invalidFieldLength (field : String) (value max : UInt8)
deriving DecidableEq

/-- `to_le_bytes`. -/
def u64Bytes (x : UInt64) : List UInt8 := toLe 8 x.toNat

def u32Bytes (x : UInt32) : List UInt8 := toLe 4 x.toNat

def u16Bytes (x : UInt16) : List UInt8 := toLe 2 x.toNat

/-- The version and the tag. -/
def writeHeader (buf : List UInt8) (tag : UInt8) : List UInt8 :=
  writeAt (writeAt buf 0 [codecVersion]) 1 [tag]

/-- An axis frame written at the front of a buffer. -/
def encodeAxisFrame (r : AxisFrame) (buf : List UInt8) : Except CodecError (Nat × List UInt8) :=
  let size := 2 + 8 + 2 + 8 + 8
  if buf.length < size then .error .bufferTooSmall
  else
    let buf := writeHeader buf tagAxisFrame
    let buf := writeAt buf 2 (u64Bytes r.timestampNs)
    let buf := writeAt buf 10 (u16Bytes r.axisId)
    let buf := writeAt buf 12 (u64Bytes r.raw)
    let buf := writeAt buf 20 (u64Bytes r.processed)
    .ok (size, buf)

/-- A bus event, with all eight bytes of its payload. -/
def encodeBusEvent (r : BusEvent) (buf : List UInt8) : Except CodecError (Nat × List UInt8) :=
  let size := 2 + 8 + 2 + 1 + 8
  if buf.length < size then .error .bufferTooSmall
  else
    let buf := writeHeader buf tagBusEvent
    let buf := writeAt buf 2 (u64Bytes r.timestampNs)
    let buf := writeAt buf 10 (u16Bytes r.eventCode)
    -- The length is written as it is.
    let buf := writeAt buf 12 [r.payloadLen]
    let buf := writeAt buf 13 r.payload.toList
    .ok (size, buf)

/-- A timing mark. -/
def encodeTimingMark (r : TimingMark) (buf : List UInt8) : Except CodecError (Nat × List UInt8) :=
  let size := 2 + 8 + 4 + 4
  if buf.length < size then .error .bufferTooSmall
  else
    let buf := writeHeader buf tagTimingMark
    let buf := writeAt buf 2 (u64Bytes r.timestampNs)
    let buf := writeAt buf 10 (u32Bytes r.sequence)
    let buf := writeAt buf 14 (u32Bytes r.deltaNs)
    .ok (size, buf)

/-- An annotation, with its whole message buffer. -/
def encodeAnnotation (r : Annotation) (buf : List UInt8) : Except CodecError (Nat × List UInt8) :=
  let size := 2 + 8 + 1 + annotationMax
  if buf.length < size then .error .bufferTooSmall
  else
    let buf := writeHeader buf tagAnnotation
    let buf := writeAt buf 2 (u64Bytes r.timestampNs)
    let buf := writeAt buf 10 [r.msgLen]
    let buf := writeAt buf 11 r.msg.toList
    .ok (size, buf)

/-- `encode`, with the buffer it leaves. -/
def encode (record : Record) (buf : List UInt8) : Except CodecError (Nat × List UInt8) :=
  match record with
  | .axisFrame r => encodeAxisFrame r buf
  | .busEvent r => encodeBusEvent r buf
  | .timingMark r => encodeTimingMark r buf
  | .annotationRecord r => encodeAnnotation r buf

/-- `copy_from_slice` into an array of zeros; the source panics when the lengths
    differ, which the size checks rule out. -/
def arrayOf (n : Nat) (bytes : List UInt8) : Vector UInt8 n :=
  Vector.ofFn fun i => bytes.getD i 0

/-- An axis frame, and the bytes it took. -/
def decodeAxisFrame (buf : List UInt8) : Except CodecError (Record × Nat) :=
  let size := 28
  if buf.length < size then .error .unexpectedEof
  else
    .ok (.axisFrame
      { timestampNs := u64FromLe (slice buf 2 8)
        axisId := u16FromLe (slice buf 10 2)
        raw := u64FromLe (slice buf 12 8)
        processed := u64FromLe (slice buf 20 8) }, size)

/-- A bus event whose stated length fits its payload. -/
def decodeBusEvent (buf : List UInt8) : Except CodecError (Record × Nat) :=
  let size := 21
  if buf.length < size then .error .unexpectedEof
  else
    let payloadLen := buf.getD 12 0
    if 8 < payloadLen then .error (.invalidFieldLength "payload_len" payloadLen 8)
    else
      .ok (.busEvent
        { timestampNs := u64FromLe (slice buf 2 8)
          eventCode := u16FromLe (slice buf 10 2)
          payload := arrayOf 8 (slice buf 13 8)
          payloadLen := payloadLen }, size)

/-- A timing mark. -/
def decodeTimingMark (buf : List UInt8) : Except CodecError (Record × Nat) :=
  let size := 18
  if buf.length < size then .error .unexpectedEof
  else
    .ok (.timingMark
      { timestampNs := u64FromLe (slice buf 2 8)
        sequence := u32FromLe (slice buf 10 4)
        deltaNs := u32FromLe (slice buf 14 4) }, size)

/-- An annotation whose stated length fits its buffer. -/
def decodeAnnotation (buf : List UInt8) : Except CodecError (Record × Nat) :=
  let size := 2 + 8 + 1 + annotationMax
  if buf.length < size then .error .unexpectedEof
  else
    let msgLen := buf.getD 10 0
    if annotationMax < msgLen.toNat then
      .error (.invalidFieldLength "msg_len" msgLen (UInt8.ofNat annotationMax))
    else
      .ok (.annotationRecord
        { timestampNs := u64FromLe (slice buf 2 8)
          msg := arrayOf annotationMax (slice buf 11 annotationMax)
          msgLen := msgLen }, size)

/-- A record from the front of a buffer. -/
def decode (buf : List UInt8) : Except CodecError (Record × Nat) :=
  match buf with
  | version :: tag :: _ =>
      if version ≠ codecVersion then .error (.unsupportedVersion version)
      else if tag = tagAxisFrame then decodeAxisFrame buf
      else if tag = tagBusEvent then decodeBusEvent buf
      else if tag = tagTimingMark then decodeTimingMark buf
      else if tag = tagAnnotation then decodeAnnotation buf
      else .error (.unknownTag tag)
  | _ => .error .unexpectedEof

/-- Decode one record after the other until nothing is left; each takes at least
    one byte, so the length of the buffer bounds their number. -/
def decodeAllFuel : Nat → List UInt8 → Except CodecError (List Record)
  | _, [] => .ok []
  | 0, _ :: _ => .error .unexpectedEof
  | fuel + 1, buf@(_ :: _) => do
      let (record, n) ← decode buf
      let rest ← decodeAllFuel fuel (buf.drop n)
      pure (record :: rest)

/-- The decoder, over and over until the buffer is used up. -/
def decodeAll (buf : List UInt8) : Except CodecError (List Record) :=
  decodeAllFuel buf.length buf

end OpenFlight.Blackbox
