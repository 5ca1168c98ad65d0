import OpenFlight.Core.XPlane.PluginProtocol
import OpenFlight.Lib.Run

/-!
# Round Trip of the Plugin Protocol

Whatever the encoder returns, the decoder reads back, whatever follows it in
the buffer.

Three casts of the encoder could lose something: the length of a string, the
number of elements of a list and the length of the payload, each written in two
bytes, and a number of entries in four. The one check that the encoder makes,
on the length of the payload, is enough for all of them, since a string and
each element of a list take part in that length with at least as much as they
count. So a payload that fits has no field that was cut, and the fields are
read back in the order they were written.

The messages drive a connection, which is given up after ten seconds of silence.

## Main definitions

* `Fits`: The payload of a message passes the check.
* `Link`: The connection, with what was sent and heard.

## Theorems

* `readString_readsAs`, `readEntry_readsAs`, `readSubscription_readsAs`,
  `readId_readsAs`: The readers of single elements.
* `decode_encode_append`: The messages.
-/

namespace OpenFlight.XPlane

section

variable (buf front back : List UInt8) (offset : Nat)

/-- The bytes of a field are there. -/
theorem ensureRemaining_row (field : List UInt8) (need : Nat)
    (hbuf : buf = front ++ (field ++ back)) (hfront : front.length = offset)
    (hfield : field.length = need) : ensureRemaining buf offset need = .ok () := by
  have hlength : buf.length = offset + (need + back.length) := by
    rw [hbuf, List.length_append, List.length_append, hfront, hfield]
  rw [ensureRemaining, if_neg (by omega)]

/-- A word of two bytes in a row of fields. -/
theorem u16At_row (n : Nat) (hn : n < 2 ^ 16)
    (hbuf : buf = front ++ (toLe 2 n ++ back)) (hfront : front.length = offset) :
    (u16At buf offset).toNat = n := by
  have hslice := slice_of_row buf front (toLe 2 n) back offset 2 hbuf hfront (length_toLe 2 n)
  rw [u16At, hslice, ofLe_toLe 2 n hn, UInt16.toNat_ofNat_of_lt' hn]

/-- A word of four bytes in a row of fields. -/
theorem u32At_row (n : Nat) (hn : n < 2 ^ 32)
    (hbuf : buf = front ++ (toLe 4 n ++ back)) (hfront : front.length = offset) :
    (u32At buf offset).toNat = n := by
  have hslice := slice_of_row buf front (toLe 4 n) back offset 4 hbuf hfront (length_toLe 4 n)
  rw [u32At, hslice, ofLe_toLe 4 n hn, UInt32.toNat_ofNat_of_lt' hn]

/-- A word of eight bytes in a row of fields. -/
theorem u64At_row (n : Nat) (hn : n < 2 ^ 64)
    (hbuf : buf = front ++ (toLe 8 n ++ back)) (hfront : front.length = offset) :
    (u64At buf offset).toNat = n := by
  have hslice := slice_of_row buf front (toLe 8 n) back offset 8 hbuf hfront (length_toLe 8 n)
  rw [u64At, hslice, ofLe_toLe 8 n hn, UInt64.toNat_ofNat_of_lt' hn]

theorem u16At_eq (x : UInt16) (hbuf : buf = front ++ (toLe 2 x.toNat ++ back))
    (hfront : front.length = offset) : u16At buf offset = x :=
  UInt16.toNat_inj.mp (u16At_row buf front back offset x.toNat x.toNat_lt hbuf hfront)

theorem u32At_eq (x : UInt32) (hbuf : buf = front ++ (toLe 4 x.toNat ++ back))
    (hfront : front.length = offset) : u32At buf offset = x :=
  UInt32.toNat_inj.mp (u32At_row buf front back offset x.toNat x.toNat_lt hbuf hfront)

theorem u64At_eq (x : UInt64) (hbuf : buf = front ++ (toLe 8 x.toNat ++ back))
    (hfront : front.length = offset) : u64At buf offset = x :=
  UInt64.toNat_inj.mp (u64At_row buf front back offset x.toNat x.toNat_lt hbuf hfront)

end

theorem fromUtf8_utf8 (s : String) : fromUtf8 (utf8 s) = some s := by
  unfold fromUtf8 utf8
  simpa [String.fromUTF8?] using ⟨s.isValidUTF8, rfl⟩

theorem length_writeString (s : String) : (writeString s).length = 2 + (utf8 s).length := by
  rw [writeString, List.length_append, length_toLe]

/-- A string whose length fits its field is read back. -/
theorem readString_readsAs (s : String) (h : (utf8 s).length < 2 ^ 16) :
    ReadsAs readString (writeString s) s := by
  intro buf front back offset hbuf hfront
  rw [writeString, List.append_assoc] at hbuf
  -- The buffer once more, cut behind the length field.
  have hstart : (front ++ toLe 2 (utf8 s).length).length = offset + 2 := by
    rw [List.length_append, hfront, length_toLe]
  have hrow : buf = (front ++ toLe 2 (utf8 s).length) ++ (utf8 s ++ back) := by
    rw [hbuf, List.append_assoc]
  have hlen := u16At_row buf front _ offset _ h hbuf hfront
  rw [readString, ensureRemaining_row buf front _ offset _ 2 hbuf hfront (length_toLe 2 _), hlen]
  simp only [bind, Except.bind]
  rw [ensureRemaining_row buf _ back (offset + 2) (utf8 s) _ hrow hstart rfl,
    slice_of_row buf _ (utf8 s) back (offset + 2) _ hrow hstart rfl, fromUtf8_utf8,
    length_writeString, ← Nat.add_assoc]

theorem readEntry_readsAs (e : DatarefEntry) : ReadsAs readEntry (writeEntry e) e := by
  intro buf front back offset hbuf hfront
  have hlength : (writeEntry e).length = 8 := by
    rw [writeEntry, List.length_append, length_toLe, length_toLe]
  have hid : buf = front ++ (toLe 4 e.id.toNat ++ (toLe 4 e.value.toNat ++ back)) := by
    rw [hbuf, writeEntry, List.append_assoc]
  have hvalue : buf = (front ++ toLe 4 e.id.toNat) ++ (toLe 4 e.value.toNat ++ back) := by
    rw [hid, List.append_assoc]
  rw [readEntry, ensureRemaining_row buf front back offset _ 8 hbuf hfront hlength,
    u32At_eq buf front _ offset e.id hid hfront,
    u32At_eq buf _ back (offset + 4) e.value hvalue (by simp [hfront]), hlength]
  rfl

theorem readId_readsAs (id : UInt32) : ReadsAs readId (toLe 4 id.toNat) id := by
  intro buf front back offset hbuf hfront
  rw [readId, ensureRemaining_row buf front back offset _ 4 hbuf hfront (length_toLe 4 _),
    u32At_eq buf front back offset id hbuf hfront, length_toLe]
  rfl

theorem readSubscription_readsAs (sub : SubscriptionRequest) (h : (utf8 sub.path).length < 2 ^ 16) :
    ReadsAs readSubscription (writeSubscription sub) sub := by
  intro buf front back offset hbuf hfront
  rw [writeSubscription, List.append_assoc, List.append_assoc] at hbuf
  -- The same buffer, cut in front of the path and behind it.
  have hpath : buf = (front ++ toLe 4 sub.id.toNat) ++
      (writeString sub.path ++ (toLe 2 sub.frequencyHz.toNat ++ back)) := by
    rw [hbuf, List.append_assoc]
  have hfreq : buf = ((front ++ toLe 4 sub.id.toNat) ++ writeString sub.path) ++
      (toLe 2 sub.frequencyHz.toNat ++ back) := by
    simp only [hbuf, List.append_assoc]
  have hat : (front ++ toLe 4 sub.id.toNat).length = offset + 4 := by
    rw [List.length_append, hfront, length_toLe]
  have hend : ((front ++ toLe 4 sub.id.toNat) ++ writeString sub.path).length
      = offset + 4 + (writeString sub.path).length := by
    rw [List.length_append, hat]
  rw [readSubscription, ensureRemaining_row buf front _ offset _ 4 hbuf hfront (length_toLe 4 _),
    readString_readsAs sub.path h buf _ _ _ hpath hat]
  simp only [bind, Except.bind]
  rw [ensureRemaining_row buf _ back _ _ 2 hfreq hend (length_toLe 2 _),
    u32At_eq buf front _ offset sub.id hbuf hfront,
    u16At_eq buf _ back _ sub.frequencyHz hfreq hend]
  simp only [writeSubscription, List.length_append, length_toLe]
  congr 2
  omega

/-- The payload of a message passes the check of the encoder. -/
def Fits (msg : PluginProtoMessage) : Prop :=
  (encodePayload msg).2.length ≤ maxPayload

theorem decodePayload_handshake (clientVersion : String) (freq : UInt16)
    (h : Fits (.handshake clientVersion freq)) :
    decodePayload .handshake (encodePayload (.handshake clientVersion freq)).2 =
      .ok (.handshake clientVersion freq) := by
  -- The payload fits, so the length of the string was not cut off.
  simp only [Fits, encodePayload, List.length_append, length_writeString, maxPayload] at h
  simp only [decodePayload, encodePayload]
  rw [readString_readsAs clientVersion (by omega) _ [] (toLe 2 freq.toNat) 0
      (List.nil_append _).symm rfl]
  simp only [bind, Except.bind]
  rw [ensureRemaining_row _ (writeString clientVersion) [] _ (toLe 2 freq.toNat) 2 (by simp)
      (by simp) (by simp),
    u16At_eq _ (writeString clientVersion) [] _ freq (by simp) (by simp)]

theorem decodePayload_setDataref (path : String) (value : UInt32)
    (h : Fits (.setDataref path value)) :
    decodePayload .setDataref (encodePayload (.setDataref path value)).2 =
      .ok (.setDataref path value) := by
  simp only [Fits, encodePayload, List.length_append, length_writeString, maxPayload] at h
  simp only [decodePayload, encodePayload]
  rw [readString_readsAs path (by omega) _ [] (toLe 4 value.toNat) 0 (List.nil_append _).symm rfl]
  simp only [bind, Except.bind]
  rw [ensureRemaining_row _ (writeString path) [] _ (toLe 4 value.toNat) 4 (by simp) (by simp)
      (by simp),
    u32At_eq _ (writeString path) [] _ value (by simp) (by simp)]

theorem decodePayload_executeCommand (path : String) (h : Fits (.executeCommand path)) :
    decodePayload .executeCommand (encodePayload (.executeCommand path)).2 =
      .ok (.executeCommand path) := by
  simp only [Fits, encodePayload, length_writeString, maxPayload] at h
  simp only [decodePayload, encodePayload]
  rw [readString_readsAs path (by omega) _ [] [] 0 (by simp) rfl]
  rfl

theorem decodePayload_heartbeat (timestampUs : UInt64) :
    decodePayload .heartbeat (encodePayload (.heartbeat timestampUs)).2 =
      .ok (.heartbeat timestampUs) := by
  simp only [decodePayload, encodePayload]
  rw [ensureRemaining_row _ [] [] 0 (toLe 8 timestampUs.toNat) 8 (by simp) rfl (by simp),
    u64At_eq _ [] [] 0 timestampUs (by simp) rfl]
  rfl

theorem decodePayload_error (code : UInt16) (message : String) (h : Fits (.error code message)) :
    decodePayload .error (encodePayload (.error code message)).2 = .ok (.error code message) := by
  simp only [Fits, encodePayload, List.length_append, length_writeString, maxPayload] at h
  simp only [decodePayload, encodePayload]
  rw [ensureRemaining_row _ [] (writeString message) 0 (toLe 2 code.toNat) 2
      (List.nil_append _).symm rfl (by simp),
    u16At_eq _ [] (writeString message) 0 code (List.nil_append _).symm rfl,
    readString_readsAs message (by omega) _ (toLe 2 code.toNat) [] 2 (by simp) (by simp)]
  rfl

theorem decodePayload_unsubscribe (datarefIds : List UInt32) (h : Fits (.unsubscribe datarefIds)) :
    decodePayload .unsubscribe (encodePayload (.unsubscribe datarefIds)).2 =
      .ok (.unsubscribe datarefIds) := by
  -- Each identifier takes four bytes, so there are fewer than the count can hold.
  have hcount := le_length_flatMap (fun id : UInt32 => toLe 4 id.toNat) 4 (by simp) datarefIds
  simp only [Fits, encodePayload, List.length_append, length_toLe, maxPayload] at h
  have hmany := ReadsAs.many readId (fun id => toLe 4 id.toNat) datarefIds
    fun id _ => readId_readsAs id
  simp only [decodePayload, encodePayload]
  rw [ensureRemaining_row _ [] _ 0 (toLe 2 datarefIds.length) 2 (List.nil_append _).symm rfl
      (by simp),
    u16At_row _ [] _ 0 datarefIds.length (by omega) (List.nil_append _).symm rfl,
    hmany _ (toLe 2 datarefIds.length) [] 2 (by simp) (by simp)]
  rfl

theorem decodePayload_datarefBatch (sequence : UInt32) (timestampUs : UInt64)
    (entries : List DatarefEntry) (h : Fits (.datarefBatch sequence timestampUs entries)) :
    decodePayload .datarefBatch (encodePayload (.datarefBatch sequence timestampUs entries)).2 =
      .ok (.datarefBatch sequence timestampUs entries) := by
  -- An entry takes eight bytes, which bounds how many fit.
  have hcount := le_length_flatMap writeEntry 8 (by simp [writeEntry]) entries
  simp only [Fits, encodePayload, List.length_append, length_toLe, maxPayload] at h
  have hmany := ReadsAs.many readEntry writeEntry entries fun e _ => readEntry_readsAs e
  simp only [decodePayload, encodePayload]
  -- The fields before the entries, one after another.
  rw [ensureRemaining_row _ [] (entries.flatMap writeEntry) 0
      (toLe 4 sequence.toNat ++ (toLe 8 timestampUs.toNat ++ toLe 4 entries.length)) 16
      (by simp) rfl (by simp),
    u32At_eq _ [] _ 0 sequence (List.nil_append _).symm rfl,
    u64At_eq _ (toLe 4 sequence.toNat) _ 4 timestampUs rfl (by simp),
    u32At_row _ (toLe 4 sequence.toNat ++ toLe 8 timestampUs.toNat) (entries.flatMap writeEntry) 12
      entries.length (by omega) (by simp) (by simp),
    hmany _ (toLe 4 sequence.toNat ++ (toLe 8 timestampUs.toNat ++ toLe 4 entries.length)) [] 16
      (by simp) (by simp)]
  rfl

theorem length_writeSubscription (sub : SubscriptionRequest) :
    (writeSubscription sub).length = 8 + (utf8 sub.path).length := by
  simp only [writeSubscription, List.length_append, length_toLe, length_writeString]
  omega

theorem decodePayload_subscribe (datarefs : List SubscriptionRequest)
    (h : Fits (.subscribe datarefs)) :
    decodePayload .subscribe (encodePayload (.subscribe datarefs)).2 =
      .ok (.subscribe datarefs) := by
  have hcount := le_length_flatMap writeSubscription 8
    (fun sub => by rw [length_writeSubscription]; omega) datarefs
  simp only [Fits, encodePayload, List.length_append, length_toLe, maxPayload] at h
  have hmany := ReadsAs.many readSubscription writeSubscription datarefs fun sub hsub => by
    -- A path is part of its request, and that of the payload.
    have hpart := length_le_flatMap_of_mem writeSubscription datarefs sub hsub
    rw [length_writeSubscription] at hpart
    exact readSubscription_readsAs sub (by omega)
  simp only [decodePayload, encodePayload]
  rw [ensureRemaining_row _ [] _ 0 (toLe 2 datarefs.length) 2 (List.nil_append _).symm rfl
      (by simp),
    u16At_row _ [] _ 0 datarefs.length (by omega) (List.nil_append _).symm rfl,
    hmany _ (toLe 2 datarefs.length) [] 2 (by simp) (by simp)]
  rfl

theorem decodePayload_handshakeAck (pluginVersion : String) (freq : UInt16)
    (capabilities : List String) (h : Fits (.handshakeAck pluginVersion freq capabilities)) :
    decodePayload .handshakeAck (encodePayload (.handshakeAck pluginVersion freq capabilities)).2 =
      .ok (.handshakeAck pluginVersion freq capabilities) := by
  have hcount := le_length_flatMap writeString 2
    (fun s => by rw [length_writeString]; omega) capabilities
  simp only [Fits, encodePayload, List.length_append, length_toLe, length_writeString,
    maxPayload] at h
  -- Every name is part of the payload, so its length fits its field.
  have hmany := ReadsAs.many readString writeString capabilities fun cap hcap => by
    have hpart := length_le_flatMap_of_mem writeString capabilities cap hcap
    rw [length_writeString] at hpart
    exact readString_readsAs cap (by omega)
  simp only [decodePayload, encodePayload]
  rw [readString_readsAs pluginVersion (by omega) _ [] _ 0 (List.nil_append _).symm rfl]
  simp only [bind, Except.bind, Nat.zero_add]
  -- The two words behind the version, and the names behind them.
  rw [ensureRemaining_row _ (writeString pluginVersion) _ _ (toLe 2 freq.toNat) 2 rfl rfl (by simp),
    u16At_eq _ (writeString pluginVersion) _ _ freq rfl rfl]
  simp only
  rw [ensureRemaining_row _ (writeString pluginVersion ++ toLe 2 freq.toNat)
      (capabilities.flatMap writeString) _ (toLe 2 capabilities.length) 2 (by simp) (by simp)
      (by simp),
    u16At_row _ (writeString pluginVersion ++ toLe 2 freq.toNat)
      (capabilities.flatMap writeString) _ capabilities.length (by omega) (by simp) (by simp)]
  simp only
  rw [hmany _ (writeString pluginVersion ++ (toLe 2 freq.toNat ++ toLe 2 capabilities.length)) [] _
    (by simp) (by simp)]

/-- Every payload that passes the check is read back. -/
theorem decodePayload_encodePayload (msg : PluginProtoMessage) (h : Fits msg) :
    decodePayload (encodePayload msg).1 (encodePayload msg).2 = .ok msg := by
  cases msg with
  | handshake clientVersion freq => exact decodePayload_handshake clientVersion freq h
  | handshakeAck pluginVersion freq capabilities =>
      exact decodePayload_handshakeAck pluginVersion freq capabilities h
  | datarefBatch sequence timestampUs entries =>
      exact decodePayload_datarefBatch sequence timestampUs entries h
  | subscribe datarefs => exact decodePayload_subscribe datarefs h
  | unsubscribe datarefIds => exact decodePayload_unsubscribe datarefIds h
  | setDataref path value => exact decodePayload_setDataref path value h
  | executeCommand path => exact decodePayload_executeCommand path h
  | heartbeat timestampUs => exact decodePayload_heartbeat timestampUs
  | error code message => exact decodePayload_error code message h

/-- The encoder returns the header and the payload, if the payload fits. -/
theorem encode_eq_ok_iff (msg : PluginProtoMessage) (bytes : List UInt8) :
    encode msg = .ok bytes ↔ Fits msg ∧
      bytes = magic ++ (protocolVersion :: (encodePayload msg).1.toU8 ::
        (toLe 2 (encodePayload msg).2.length ++ (encodePayload msg).2)) := by
  unfold encode Fits
  dsimp only
  by_cases h : maxPayload < (encodePayload msg).2.length
  · rw [if_pos h]
    exact ⟨fun herror => absurd herror (by simp), fun hfits => absurd hfits.1 (by omega)⟩
  · rw [if_neg h, Except.ok.injEq]
    exact ⟨fun hbytes => ⟨by omega, hbytes.symm⟩, fun hfits => hfits.2.symm⟩

/-- A header in front of a payload of its length, and anything behind that. -/
theorem decode_header (t : MessageType) (payload rest : List UInt8)
    (h : payload.length ≤ maxPayload) :
    decode (magic ++ (protocolVersion :: t.toU8 :: (toLe 2 payload.length ++ payload)) ++ rest) =
      decodePayload t payload := by
  -- The largest payload is shorter than what the length field can say.
  have hlen : payload.length < 2 ^ 16 := by
    unfold maxPayload at h
    omega
  -- The buffer as the header, the payload and the rest.
  have hrow : magic ++ (protocolVersion :: t.toU8 :: (toLe 2 payload.length ++ payload)) ++ rest
      = (magic ++ [protocolVersion, t.toU8]) ++
        (toLe 2 payload.length ++ (payload ++ rest)) := by
    simp
  have hword := u16At_row _ (magic ++ [protocolVersion, t.toU8]) (payload ++ rest) 6
    payload.length hlen hrow rfl
  have hpayload := slice_of_row _ (magic ++ ([protocolVersion, t.toU8] ++ toLe 2 payload.length))
    payload rest headerLen payload.length
    (hrow.trans (by simp)) (by simp [magic, headerLen]) rfl
  have hlength : (magic ++ (protocolVersion :: t.toU8 ::
      (toLe 2 payload.length ++ payload)) ++ rest).length
        = headerLen + payload.length + rest.length := by
    simp [magic, headerLen]
    omega
  have hbyte : (magic ++ (protocolVersion :: t.toU8 ::
      (toLe 2 payload.length ++ payload)) ++ rest).getD 5 0 = t.toU8 := rfl
  unfold decode
  -- The buffer is long enough for the header, and the magic is there.
  rw [if_neg (by omega), if_neg (by rw [not_not]; rfl)]
  dsimp only
  -- The version is the right one, and the type is known.
  rw [if_neg (by rw [not_not]; rfl), hbyte, t.fromU8_toU8]
  dsimp only
  -- The whole payload is there.
  rw [hword, if_neg (by omega), hpayload]

/-- Whatever the encoder returns is decoded to the message it was given, with
    anything behind it in the buffer. -/
theorem decode_encode_append (msg : PluginProtoMessage) (bytes rest : List UInt8)
    (h : encode msg = .ok bytes) : decode (bytes ++ rest) = .ok msg := by
  rcases (encode_eq_ok_iff msg bytes).mp h with ⟨hfits, rfl⟩
  rw [decode_header _ _ rest hfits]
  exact decodePayload_encodePayload msg hfits

/-- An acknowledgement with two capabilities, and two more bytes behind it. -/
theorem decode_encode_handshakeAck :
    decode ([0x4F, 0x46, 0x58, 0x50, 1, 2, 18, 0, 2, 0, 49, 50, 60, 0, 2, 0, 3, 0, 103, 101, 116,
        3, 0, 115, 101, 116] ++ [1, 2]) =
      .ok (.handshakeAck "12" 60 ["get", "set"]) :=
  decode_encode_append (.handshakeAck "12" 60 ["get", "set"]) _ [1, 2] (by decide +kernel)

/-- The calls that drive the connection. -/
inductive DiscoveryCall
  | buildHandshake (version : String) (frequencyHz : UInt16)
  | processMessage (now : Instant) (msg : PluginProtoMessage)
  | maybeHeartbeat (now : Instant) (timestampUs : UInt64)
  | checkTimeout (now : Instant)
  | reset

/-- The connection, when heartbeats were sent since the last reset, the newest first, and when an
    acknowledgement or a heartbeat was heard last. -/
structure Link where
  discovery : PluginDiscovery := {}
  sent : List Instant := []
  heard : Option Instant := none

def Link.step (l : Link) : DiscoveryCall → Link
  | .buildHandshake version hz => { l with discovery := (l.discovery.buildHandshake version hz).1 }
  | .processMessage now msg =>
      { l with
        discovery := l.discovery.processMessage now msg
        heard := match msg with
          | .handshakeAck .. | .heartbeat _ => some now
          | _ => l.heard }
  | .maybeHeartbeat now timestampUs =>
      { l with
        discovery := (l.discovery.maybeHeartbeat now timestampUs).1
        sent := (l.discovery.maybeHeartbeat now timestampUs).2.elim l.sent fun _ => now :: l.sent }
  | .checkTimeout now => { l with discovery := l.discovery.checkTimeout now }
  | .reset => { discovery := l.discovery.reset }

/-- The connection remembers what was sent and heard. -/
structure Link.Kept (l : Link) : Prop where
  sent : l.discovery.lastHeartbeatSent = l.sent.head?
  spaced : l.sent.IsChain fun later earlier => earlier + fromSecs 2 ≤ later
  heard : l.discovery.lastHeartbeatRecv = l.heard
  connected : l.discovery.isConnected = true → l.heard.isSome

theorem Link.step_kept (l : Link) (call : DiscoveryCall) (h : l.Kept) : (l.step call).Kept := by
  cases call with
  | buildHandshake version hz => exact ⟨h.sent, h.spaced, h.heard, nofun⟩
  | reset => exact ⟨rfl, .nil, rfl, nofun⟩
  | checkTimeout now =>
      simp only [step, PluginDiscovery.checkTimeout]
      split_ifs
      · exact h
      split
      · split_ifs
        · exact ⟨h.sent, h.spaced, h.heard, nofun⟩
        · exact h
      · exact h
  | processMessage now msg =>
      cases msg with
      | handshakeAck version hz capabilities => exact ⟨h.sent, h.spaced, rfl, fun _ => rfl⟩
      | heartbeat timestampUs => exact ⟨h.sent, h.spaced, rfl, fun _ => rfl⟩
      | error code message =>
          simp only [step, PluginDiscovery.processMessage]
          split_ifs
          · exact ⟨h.sent, h.spaced, h.heard, nofun⟩
          · exact h
      | _ => exact h
  | maybeHeartbeat now timestampUs =>
      simp only [step, PluginDiscovery.maybeHeartbeat]
      split_ifs with _ hsend
      · exact h
      · refine ⟨rfl, ?_, h.heard, h.connected⟩
        rw [h.sent] at hsend
        cases hlast : l.sent with
        | nil => exact .singleton _
        | cons t rest =>
            rw [hlast] at hsend
            have hgap := of_decide_eq_true hsend
            have hspaced := h.spaced
            rw [hlast] at hspaced
            have hlt := Nat.lt_of_sub_pos (Nat.lt_of_lt_of_le (by decide) hgap)
            exact .cons_cons (Nat.add_le_of_le_sub' hlt.le hgap) hspaced
      · exact h

/-- In every run, the heartbeats since the last reset are sent at least two seconds apart, and a
    check leaves a plugin connected exactly if it was heard of in the ten seconds before. -/
theorem discovery_heartbeats (calls : List DiscoveryCall) :
    let l := run Link.step {} calls
    (l.sent.IsChain fun later earlier => earlier + fromSecs 2 ≤ later) ∧
      ∀ now, (l.discovery.checkTimeout now).isConnected = true ↔
        l.discovery.isConnected = true ∧ ∃ t, l.heard = some t ∧ now ≤ t + fromSecs 10 := by
  have h := run_invariant Link.step Link.Kept Link.step_kept {} calls ⟨rfl, .nil, rfl, nofun⟩
  generalize run Link.step {} calls = l at h ⊢
  refine ⟨h.spaced, fun now => ?_⟩
  unfold PluginDiscovery.checkTimeout PluginDiscovery.heartbeatTimeout durationSince
  cases hon : l.discovery.isConnected with
  | false => simp [hon]
  | true =>
      rcases Option.isSome_iff_exists.mp (h.connected hon) with ⟨t, ht⟩
      rw [h.heard, ht]
      by_cases hlate : fromSecs 10 < now - t
      · simpa [hlate, PluginDiscovery.isConnected] using Nat.add_lt_of_lt_sub' hlate
      · simpa [hlate, hon] using Nat.sub_le_iff_le_add'.mp (not_lt.mp hlate)

end OpenFlight.XPlane
