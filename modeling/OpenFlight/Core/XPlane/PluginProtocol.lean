import OpenFlight.Core.Prim
import OpenFlight.Lib.ByteBuffer
import OpenFlight.Lib.Ledger

/-!
# The X-Plane Plugin Protocol

The messages between the service and its X-Plane plugin, and their form on the
wire: a header of eight bytes and a payload by the type of the message.

The encoder casts the length of a string and the number of elements of a list
to the width of their field without a look, and checks the length of the whole
payload at the end. `toLe` keeps the lowest bytes, which is what the cast does.
A decoder reads fields at offsets, after checking that they are there.

Single-precision values are their bit patterns, since nothing but their bytes
is used.

The decoder is there once more with what it does to memory. Each byte is indexed by
itself, and an index out of bounds halts the decoder. Wherever the source reserves room
for a number of elements before it reads them, the number is put down, along with the
bytes of the payload that are left there.

## Main definitions

* `MessageType`, `PluginProtoMessage`, `ProtocolError`: The data.
* `encode`, `encodePayload`, `writeString`: The encoder.
-/

namespace OpenFlight.XPlane

/-- `MAGIC`, the letters `OFXP`. -/
def magic : List UInt8 := [0x4F, 0x46, 0x58, 0x50]

/-- The only version that is read. -/
def protocolVersion : UInt8 := 1

/-- The bytes before a payload. -/
def headerLen : Nat := 8

/-- The longest payload. -/
def maxPayload : Nat := 65527

/-- The types of messages. -/
inductive MessageType
  | handshake
  | handshakeAck
  | datarefBatch
  | subscribe
  | unsubscribe
  | setDataref
  | executeCommand
  | heartbeat
  | error
deriving DecidableEq

namespace MessageType

/-- `msg_type as u8`. -/
def toU8 : MessageType → UInt8
  | .handshake => 0x01
  | .handshakeAck => 0x02
  | .datarefBatch => 0x10
  | .subscribe => 0x11
  | .unsubscribe => 0x12
  | .setDataref => 0x20
  | .executeCommand => 0x21
  | .heartbeat => 0x30
  | .error => 0xFF

/-- The message type of a byte. -/
def fromU8 (v : UInt8) : Option MessageType :=
  if v = 0x01 then some .handshake
  else if v = 0x02 then some .handshakeAck
  else if v = 0x10 then some .datarefBatch
  else if v = 0x11 then some .subscribe
  else if v = 0x12 then some .unsubscribe
  else if v = 0x20 then some .setDataref
  else if v = 0x21 then some .executeCommand
  else if v = 0x30 then some .heartbeat
  else if v = 0xFF then some .error
  else none

theorem fromU8_toU8 (t : MessageType) : fromU8 t.toU8 = some t := by
  cases t <;> rfl

end MessageType

/-- A value of a batch. -/
structure DatarefEntry where
  id : UInt32
  /-- The bits of the value. -/
  value : UInt32

/-- What a client asks to be told. -/
structure SubscriptionRequest where
  id : UInt32
  path : String
  frequencyHz : UInt16

/-- The messages. -/
inductive PluginProtoMessage
  | handshake (clientVersion : String) (requestedFrequencyHz : UInt16)
  | handshakeAck (pluginVersion : String) (grantedFrequencyHz : UInt16)
      (capabilities : List String)
  | datarefBatch (sequence : UInt32) (timestampUs : UInt64) (entries : List DatarefEntry)
  | subscribe (datarefs : List SubscriptionRequest)
  | unsubscribe (datarefIds : List UInt32)
  | setDataref (path : String) (value : UInt32)
  | executeCommand (path : String)
  | heartbeat (timestampUs : UInt64)
  | error (code : UInt16) (message : String)

/-- Why a message is refused. -/
inductive ProtocolError
  | badMagic (got : List UInt8)
  | unsupportedVersion (version : UInt8)
  | unknownMessageType (typeByte : UInt8)
  | bufferTooShort (need available : Nat)
  | payloadTooLarge (size : Nat)
  | invalidUtf8 (offset : Nat)
  | truncatedPayload (expected actual : Nat)
deriving DecidableEq

/-- `as_bytes`. -/
def utf8 (s : String) : List UInt8 :=
  s.toUTF8.data.toList

/-- `write_string`: the two low bytes of the length, and the bytes. -/
def writeString (s : String) : List UInt8 :=
  toLe 2 (utf8 s).length ++ utf8 s

/-- One entry of a batch. -/
def writeEntry (e : DatarefEntry) : List UInt8 :=
  toLe 4 e.id.toNat ++ toLe 4 e.value.toNat

/-- One request of a subscription. -/
def writeSubscription (sub : SubscriptionRequest) : List UInt8 :=
  toLe 4 sub.id.toNat ++ (writeString sub.path ++ toLe 2 sub.frequencyHz.toNat)

/-- `encode_payload`, which does not fail. -/
def encodePayload : PluginProtoMessage → MessageType × List UInt8
  | .handshake clientVersion requestedFrequencyHz =>
      (.handshake, writeString clientVersion ++ toLe 2 requestedFrequencyHz.toNat)
  | .handshakeAck pluginVersion grantedFrequencyHz capabilities =>
      (.handshakeAck, writeString pluginVersion ++ (toLe 2 grantedFrequencyHz.toNat ++
        (toLe 2 capabilities.length ++ capabilities.flatMap writeString)))
  | .datarefBatch sequence timestampUs entries =>
      (.datarefBatch, toLe 4 sequence.toNat ++ (toLe 8 timestampUs.toNat ++
        (toLe 4 entries.length ++ entries.flatMap writeEntry)))
  | .subscribe datarefs =>
      (.subscribe, toLe 2 datarefs.length ++ datarefs.flatMap writeSubscription)
  | .unsubscribe datarefIds =>
      (.unsubscribe, toLe 2 datarefIds.length ++ datarefIds.flatMap fun id => toLe 4 id.toNat)
  | .setDataref path value => (.setDataref, writeString path ++ toLe 4 value.toNat)
  | .executeCommand path => (.executeCommand, writeString path)
  | .heartbeat timestampUs => (.heartbeat, toLe 8 timestampUs.toNat)
  | .error code message => (.error, toLe 2 code.toNat ++ writeString message)

/-- A message as bytes. -/
def encode (msg : PluginProtoMessage) : Except ProtocolError (List UInt8) :=
  let payload := (encodePayload msg).2
  if maxPayload < payload.length then .error (.payloadTooLarge payload.length)
  else .ok (magic ++ (protocolVersion :: (encodePayload msg).1.toU8 ::
    (toLe 2 payload.length ++ payload)))

/-- `std::str::from_utf8`. -/
def fromUtf8 (bytes : List UInt8) : Option String :=
  String.fromUTF8? ⟨bytes.toArray⟩

/-- `u16::from_le_bytes` of the bytes at an offset. -/
def u16At (buf : List UInt8) (offset : Nat) : UInt16 :=
  UInt16.ofNat (ofLe (slice buf offset 2))

/-- `u32::from_le_bytes` of the bytes at an offset. -/
def u32At (buf : List UInt8) (offset : Nat) : UInt32 :=
  UInt32.ofNat (ofLe (slice buf offset 4))

/-- `u64::from_le_bytes` of the bytes at an offset. -/
def u64At (buf : List UInt8) (offset : Nat) : UInt64 :=
  UInt64.ofNat (ofLe (slice buf offset 8))

/-- There are enough bytes left. -/
def ensureRemaining (buf : List UInt8) (offset need : Nat) : Except ProtocolError Unit :=
  if buf.length < offset + need then .error (.truncatedPayload need (buf.length - offset))
  else .ok ()

/-- A text with its length in two bytes before it. -/
def readString : OffsetReader ProtocolError UInt8 String := fun buf offset => do
  ensureRemaining buf offset 2
  let len := (u16At buf offset).toNat
  let start := offset + 2
  ensureRemaining buf start len
  match fromUtf8 (slice buf start len) with
  | some s => .ok (s, start + len)
  | none => .error (.invalidUtf8 start)

/-- The body of the loop over the entries of a batch. -/
def readEntry : OffsetReader ProtocolError UInt8 DatarefEntry := fun buf offset => do
  ensureRemaining buf offset 8
  .ok (⟨u32At buf offset, u32At buf (offset + 4)⟩, offset + 8)

/-- The body of the loop over the requests of a subscription. -/
def readSubscription : OffsetReader ProtocolError UInt8 SubscriptionRequest := fun buf offset => do
  ensureRemaining buf offset 4
  let path ← readString buf (offset + 4)
  ensureRemaining buf path.2 2
  .ok (⟨u32At buf offset, path.1, u16At buf path.2⟩, path.2 + 2)

/-- The body of the loop over identifiers. -/
def readId : OffsetReader ProtocolError UInt8 UInt32 := fun buf offset => do
  ensureRemaining buf offset 4
  .ok (u32At buf offset, offset + 4)

/-- The message that a payload holds. -/
def decodePayload (msgType : MessageType) (payload : List UInt8) :
    Except ProtocolError PluginProtoMessage :=
  match msgType with
  | .handshake => do
      let clientVersion ← readString payload 0
      ensureRemaining payload clientVersion.2 2
      .ok (.handshake clientVersion.1 (u16At payload clientVersion.2))
  | .handshakeAck => do
      let pluginVersion ← readString payload 0
      let offset := pluginVersion.2
      ensureRemaining payload offset 2
      let freq := u16At payload offset
      ensureRemaining payload (offset + 2) 2
      let capCount := (u16At payload (offset + 2)).toNat
      let capabilities ← readMany readString capCount payload (offset + 4)
      .ok (.handshakeAck pluginVersion.1 freq capabilities.1)
  | .datarefBatch => do
      ensureRemaining payload 0 (4 + 8 + 4)
      let count := (u32At payload 12).toNat
      let entries ← readMany readEntry count payload 16
      .ok (.datarefBatch (u32At payload 0) (u64At payload 4) entries.1)
  | .subscribe => do
      ensureRemaining payload 0 2
      let count := (u16At payload 0).toNat
      let datarefs ← readMany readSubscription count payload 2
      .ok (.subscribe datarefs.1)
  | .unsubscribe => do
      ensureRemaining payload 0 2
      let count := (u16At payload 0).toNat
      let ids ← readMany readId count payload 2
      .ok (.unsubscribe ids.1)
  | .setDataref => do
      let path ← readString payload 0
      ensureRemaining payload path.2 4
      .ok (.setDataref path.1 (u32At payload path.2))
  | .executeCommand => do
      let path ← readString payload 0
      .ok (.executeCommand path.1)
  | .heartbeat => do
      ensureRemaining payload 0 8
      .ok (.heartbeat (u64At payload 0))
  | .error => do
      ensureRemaining payload 0 2
      let message ← readString payload 2
      .ok (.error (u16At payload 0) message.1)

/-- A frame: header, length and payload. -/
def decode (buf : List UInt8) : Except ProtocolError PluginProtoMessage :=
  if buf.length < headerLen then .error (.bufferTooShort headerLen buf.length)
  else if slice buf 0 4 ≠ magic then .error (.badMagic (slice buf 0 4))
  else
    let version := buf.getD 4 0
    if version ≠ protocolVersion then .error (.unsupportedVersion version)
    else match MessageType.fromU8 (buf.getD 5 0) with
      | none => .error (.unknownMessageType (buf.getD 5 0))
      | some msgType =>
          let payloadLen := (u16At buf 6).toNat
          let total := headerLen + payloadLen
          if buf.length < total then .error (.bufferTooShort total buf.length)
          else decodePayload msgType (slice buf headerLen payloadLen)

/-- How the decoder ends when it does not return a message. -/
inductive Halt
  | err (e : ProtocolError)
  | outOfBounds (index length : Nat)

/-- The vectors that room is reserved in. -/
inductive Element
  | capabilities
  | entries
  | datarefs
  | ids
deriving DecidableEq

/-- `Vec::with_capacity`, where some bytes of the payload are left. -/
structure Reservation where
  element : Element
  capacity : Nat
  remaining : Nat

/-- A computation of the decoder. -/
abbrev Decoding := Ledger Reservation Halt

namespace Checked

/-- A part that neither indexes nor reserves. -/
abbrev returned {α : Type} (x : Except ProtocolError α) : Decoding α :=
  .lift Halt.err x

/-- `buf[index]`. -/
def byteAt (buf : List UInt8) (index : Nat) : Decoding UInt8 :=
  match buf[index]? with
  | some b => pure b
  | none => .fail (.outOfBounds index buf.length)

/-- The bytes from an offset on, each indexed by itself. -/
def bytesAt (buf : List UInt8) (offset : Nat) : Nat → Decoding (List UInt8)
  | 0 => pure []
  | n + 1 => do
      let first ← byteAt buf offset
      let rest ← bytesAt buf (offset + 1) n
      pure (first :: rest)

/-- `&buf[start..start + len]`. -/
def sliceAt (buf : List UInt8) (start len : Nat) : Decoding (List UInt8) :=
  if start + len ≤ buf.length then pure (slice buf start len)
  else .fail (.outOfBounds (start + len) buf.length)

def u16At (buf : List UInt8) (offset : Nat) : Decoding UInt16 := do
  let bytes ← bytesAt buf offset 2
  pure (UInt16.ofNat (ofLe bytes))

def u32At (buf : List UInt8) (offset : Nat) : Decoding UInt32 := do
  let bytes ← bytesAt buf offset 4
  pure (UInt32.ofNat (ofLe bytes))

def u64At (buf : List UInt8) (offset : Nat) : Decoding UInt64 := do
  let bytes ← bytesAt buf offset 8
  pure (UInt64.ofNat (ofLe bytes))

/-- `Vec::with_capacity(capacity)`, with the payload read up to an offset. -/
def withCapacity (element : Element) (capacity : Nat) (payload : List UInt8) (offset : Nat) :
    Decoding Unit :=
  .record
    { element := element
      capacity := capacity
      remaining := payload.length - offset }

/-- A loop over a number of elements. -/
def readMany {α : Type} (read : List UInt8 → Nat → Decoding (α × Nat)) :
    Nat → List UInt8 → Nat → Decoding (List α × Nat)
  | 0, _, offset => pure ([], offset)
  | n + 1, buf, offset => do
      let first ← read buf offset
      let rest ← readMany read n buf first.2
      pure (first.1 :: rest.1, rest.2)

/-- `readString`, with its reads checked. -/
def readString (buf : List UInt8) (offset : Nat) : Decoding (String × Nat) := do
  returned (ensureRemaining buf offset 2)
  let len ← u16At buf offset
  let start := offset + 2
  returned (ensureRemaining buf start len.toNat)
  let bytes ← sliceAt buf start len.toNat
  match fromUtf8 bytes with
  | some s => pure (s, start + len.toNat)
  | none => .fail (.err (.invalidUtf8 start))

/-- The body of the loop over the entries of a batch. -/
def readEntry (buf : List UInt8) (offset : Nat) : Decoding (DatarefEntry × Nat) := do
  returned (ensureRemaining buf offset 8)
  let id ← u32At buf offset
  let value ← u32At buf (offset + 4)
  pure (⟨id, value⟩, offset + 8)

/-- The body of the loop over the requests of a subscription. -/
def readSubscription (buf : List UInt8) (offset : Nat) : Decoding (SubscriptionRequest × Nat) := do
  returned (ensureRemaining buf offset 4)
  let id ← u32At buf offset
  let path ← readString buf (offset + 4)
  returned (ensureRemaining buf path.2 2)
  let freq ← u16At buf path.2
  pure (⟨id, path.1, freq⟩, path.2 + 2)

/-- The body of the loop over identifiers. -/
def readId (buf : List UInt8) (offset : Nat) : Decoding (UInt32 × Nat) := do
  returned (ensureRemaining buf offset 4)
  let id ← u32At buf offset
  pure (id, offset + 4)

/-- `decodePayload`, with its reservations noted. -/
def decodePayload (msgType : MessageType) (payload : List UInt8) : Decoding PluginProtoMessage :=
  match msgType with
  | .handshake => do
      let clientVersion ← readString payload 0
      returned (ensureRemaining payload clientVersion.2 2)
      let freq ← u16At payload clientVersion.2
      pure (.handshake clientVersion.1 freq)
  | .handshakeAck => do
      let pluginVersion ← readString payload 0
      let offset := pluginVersion.2
      returned (ensureRemaining payload offset 2)
      let freq ← u16At payload offset
      returned (ensureRemaining payload (offset + 2) 2)
      let capCount ← u16At payload (offset + 2)
      withCapacity .capabilities capCount.toNat payload (offset + 4)
      let capabilities ← readMany readString capCount.toNat payload (offset + 4)
      pure (.handshakeAck pluginVersion.1 freq capabilities.1)
  | .datarefBatch => do
      returned (ensureRemaining payload 0 (4 + 8 + 4))
      let sequence ← u32At payload 0
      let timestampUs ← u64At payload 4
      let count ← u32At payload 12
      withCapacity .entries count.toNat payload 16
      let entries ← readMany readEntry count.toNat payload 16
      pure (.datarefBatch sequence timestampUs entries.1)
  | .subscribe => do
      returned (ensureRemaining payload 0 2)
      let count ← u16At payload 0
      withCapacity .datarefs count.toNat payload 2
      let datarefs ← readMany readSubscription count.toNat payload 2
      pure (.subscribe datarefs.1)
  | .unsubscribe => do
      returned (ensureRemaining payload 0 2)
      let count ← u16At payload 0
      withCapacity .ids count.toNat payload 2
      let ids ← readMany readId count.toNat payload 2
      pure (.unsubscribe ids.1)
  | .setDataref => do
      let path ← readString payload 0
      returned (ensureRemaining payload path.2 4)
      let value ← u32At payload path.2
      pure (.setDataref path.1 value)
  | .executeCommand => do
      let path ← readString payload 0
      pure (.executeCommand path.1)
  | .heartbeat => do
      returned (ensureRemaining payload 0 8)
      let timestampUs ← u64At payload 0
      pure (.heartbeat timestampUs)
  | .error => do
      returned (ensureRemaining payload 0 2)
      let code ← u16At payload 0
      let message ← readString payload 2
      pure (.error code message.1)

/-- The part of `decode` in front of the payload. -/
def readHeader (buf : List UInt8) : Decoding (MessageType × List UInt8) :=
  if buf.length < headerLen then .fail (.err (.bufferTooShort headerLen buf.length))
  else do
    let got ← bytesAt buf 0 4
    if got ≠ magic then .fail (.err (.badMagic got))
    else do
      let version ← byteAt buf 4
      if version ≠ protocolVersion then .fail (.err (.unsupportedVersion version))
      else do
        let typeByte ← byteAt buf 5
        match MessageType.fromU8 typeByte with
        | none => .fail (.err (.unknownMessageType typeByte))
        | some msgType => do
            let payloadLen ← u16At buf 6
            let total := headerLen + payloadLen.toNat
            if buf.length < total then .fail (.err (.bufferTooShort total buf.length))
            else do
              let payload ← sliceAt buf headerLen payloadLen.toNat
              pure (msgType, payload)

/-- `decode`, with its reservations noted. -/
def decode (buf : List UInt8) : Decoding PluginProtoMessage := do
  let header ← readHeader buf
  decodePayload header.1 header.2

end Checked

/-- The states of the connection. -/
inductive PluginDiscoveryState
  | notDetected
  | discovering
  | connected (pluginVersion : String) (frequencyHz : UInt16) (capabilities : List String)
  | disconnected (reason : String)

/-- The connection to the plugin. -/
structure PluginDiscovery where
  state : PluginDiscoveryState := .notDetected
  lastHeartbeatSent : Option Instant := none
  lastHeartbeatRecv : Option Instant := none

namespace PluginDiscovery

/-- Set by `new` and never changed. -/
def heartbeatInterval : Duration := fromSecs 2

def heartbeatTimeout : Duration := fromSecs 10

/-- The plugin is connected. -/
def isConnected (self : PluginDiscovery) : Bool :=
  match self.state with
  | .connected .. => true
  | _ => false

/-- The first message of a connection. -/
def buildHandshake (self : PluginDiscovery) (version : String) (frequencyHz : UInt16) :
    PluginDiscovery × PluginProtoMessage :=
  ({ self with state := .discovering }, .handshake version frequencyHz)

/-- `process_message`, which reads the clock at `now`. -/
def processMessage (self : PluginDiscovery) (now : Instant) : PluginProtoMessage → PluginDiscovery
  | .handshakeAck pluginVersion grantedFrequencyHz capabilities =>
      { self with
        state := .connected pluginVersion grantedFrequencyHz capabilities
        lastHeartbeatRecv := some now }
  | .heartbeat _ => { self with lastHeartbeatRecv := some now }
  | .error code message =>
      if 0x8000 ≤ code then { self with state := .disconnected message } else self
  | _ => self

/-- A heartbeat, if it is due. -/
def maybeHeartbeat (self : PluginDiscovery) (now : Instant) (timestampUs : UInt64) :
    PluginDiscovery × Option PluginProtoMessage :=
  if !self.isConnected then (self, none)
  else
    let shouldSend := match self.lastHeartbeatSent with
      | some t => decide (heartbeatInterval ≤ durationSince now t)
      | none => true
    if shouldSend then
      ({ self with lastHeartbeatSent := some now }, some (.heartbeat timestampUs))
    else (self, none)

/-- A connection that is silent for too long is lost. -/
def checkTimeout (self : PluginDiscovery) (now : Instant) : PluginDiscovery :=
  if !self.isConnected then self
  else
    match self.lastHeartbeatRecv with
    | some last =>
        if heartbeatTimeout < durationSince now last then
          { self with state := .disconnected "heartbeat timeout" }
        else self
    | none => self

/-- Start to look for the plugin again. -/
def reset (self : PluginDiscovery) : PluginDiscovery :=
  { self with state := .notDetected, lastHeartbeatSent := none, lastHeartbeatRecv := none }

end PluginDiscovery

end OpenFlight.XPlane
