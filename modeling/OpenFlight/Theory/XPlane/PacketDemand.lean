import OpenFlight.Core.XPlane.PluginProtocol

/-!
# What a Packet Makes the Decoder Reserve

Every access of the decoder is behind a check that the bytes are there. So the
decoder with its accesses returns what the decoder returns without them, and no
index is out of bounds.

The number of elements that a payload states is used before any of them is read.
Room is reserved for that many, whether or not the rest of the payload could hold
them: a batch of sixteen bytes can ask for 2^32 - 1 entries. The loop behind it
then finds the end of the payload, but the room has been reserved by then.

## Main definitions

* `StaysWithin`: No index out of bounds, and no reservation beyond the payload.
* `CountFits`: The stated number fits into the rest of the payload.

## Theorems

* `staysWithin_iff`: They stay within the payload if the stated number fits.
-/

namespace OpenFlight.XPlane

section

variable {buf : List UInt8} {offset : Nat}

theorem ensureRemaining_eq_ok_iff (need : Nat) (u : Unit) :
    ensureRemaining buf offset need = .ok u ↔ offset + need ≤ buf.length := by
  unfold ensureRemaining
  split_ifs with hshort
  · exact ⟨nofun, fun h => absurd hshort (Nat.not_lt.mpr h)⟩
  · exact ⟨fun _ => Nat.le_of_not_lt hshort, fun _ => rfl⟩

namespace Checked

/-- Bytes that are there are read. -/
theorem bytesAt_of_le {n : Nat} (h : offset + n ≤ buf.length) :
    bytesAt buf offset n = pure (slice buf offset n) := by
  induction n generalizing offset with
  | zero => rfl
  | succ n ih =>
      have hlt : offset < buf.length := by omega
      have hslice : slice buf offset (n + 1) = buf[offset] :: slice buf (offset + 1) n := by
        rw [slice, List.drop_eq_getElem_cons hlt, List.take_succ_cons, slice]
      rw [bytesAt, byteAt, List.getElem?_eq_getElem hlt, Ledger.pure_bind, ih (by omega),
        Ledger.pure_bind, hslice]

theorem byteAt_of_lt {index : Nat} (h : index < buf.length) :
    byteAt buf index = pure (buf.getD index 0) := by
  rw [byteAt, List.getD_eq_getElem?_getD, List.getElem?_eq_getElem h]
  rfl

theorem sliceAt_of_le {len : Nat} (h : offset + len ≤ buf.length) :
    sliceAt buf offset len = pure (slice buf offset len) :=
  if_pos h

theorem u16At_of_le (h : offset + 2 ≤ buf.length) :
    u16At buf offset = pure (XPlane.u16At buf offset) := by
  rw [u16At, bytesAt_of_le h, Ledger.pure_bind, XPlane.u16At]

theorem u32At_of_le (h : offset + 4 ≤ buf.length) :
    u32At buf offset = pure (XPlane.u32At buf offset) := by
  rw [u32At, bytesAt_of_le h, Ledger.pure_bind, XPlane.u32At]

theorem u64At_of_le (h : offset + 8 ≤ buf.length) :
    u64At buf offset = pure (XPlane.u64At buf offset) := by
  rw [u64At, bytesAt_of_le h, Ledger.pure_bind, XPlane.u64At]

end Checked

end

section

namespace Checked

/-- Go on where the bytes are there. -/
theorem bind_ensureRemaining {α : Type} {buf : List UInt8} {offset need : Nat}
    {f : Unit → Decoding α} {g : Unit → Except ProtocolError α}
    (h : offset + need ≤ buf.length → f () = returned (g ())) :
    (returned (ensureRemaining buf offset need) >>= f) =
      returned (ensureRemaining buf offset need >>= g) :=
  Ledger.bind_lift Halt.err fun u hok => h ((ensureRemaining_eq_ok_iff need u).mp hok)

variable (buf : List UInt8) (offset : Nat)

theorem readString_eq : readString buf offset = returned (XPlane.readString buf offset) := by
  unfold readString XPlane.readString
  refine bind_ensureRemaining fun hlen => ?_
  rw [u16At_of_le hlen, Ledger.pure_bind]
  refine bind_ensureRemaining fun hbytes => ?_
  rw [sliceAt_of_le hbytes, Ledger.pure_bind]
  cases fromUtf8 (slice buf (offset + 2) (XPlane.u16At buf offset).toNat) with
  | none => rfl
  | some s => rfl

theorem readEntry_eq : readEntry buf offset = returned (XPlane.readEntry buf offset) := by
  unfold readEntry XPlane.readEntry
  refine bind_ensureRemaining fun h => ?_
  rw [u32At_of_le (by omega), Ledger.pure_bind, u32At_of_le (by omega), Ledger.pure_bind]
  rfl

theorem readId_eq : readId buf offset = returned (XPlane.readId buf offset) := by
  unfold readId XPlane.readId
  refine bind_ensureRemaining fun h => ?_
  rw [u32At_of_le h, Ledger.pure_bind]
  rfl

theorem readSubscription_eq :
    readSubscription buf offset = returned (XPlane.readSubscription buf offset) := by
  unfold readSubscription XPlane.readSubscription
  refine bind_ensureRemaining fun hid => ?_
  rw [u32At_of_le hid, Ledger.pure_bind, readString_eq]
  refine Ledger.bind_lift Halt.err fun path _ => bind_ensureRemaining fun hfreq => ?_
  rw [u16At_of_le hfreq, Ledger.pure_bind]
  rfl

/-- A loop whose body neither indexes out of bounds nor reserves. -/
theorem readMany_eq {α : Type} {read : List UInt8 → Nat → Decoding (α × Nat)}
    {read' : OffsetReader ProtocolError UInt8 α}
    (h : ∀ buf offset, read buf offset = returned (read' buf offset)) (n : Nat)
    (buf : List UInt8) (offset : Nat) :
    readMany read n buf offset = returned (OpenFlight.readMany read' n buf offset) := by
  induction n generalizing offset with
  | zero => rfl
  | succ n ih =>
      rw [readMany, OpenFlight.readMany, h buf offset]
      refine Ledger.bind_lift Halt.err fun first _ => ?_
      rw [ih first.2]
      exact Ledger.bind_lift Halt.err fun rest _ => rfl

end Checked

end

section

/-- A number of elements that a payload states, and the offset behind it. -/
structure Stated where
  element : Element
  count : Nat
  offset : Nat

/-- The reservation for a number of elements. -/
def Stated.reservation (payload : List UInt8) (stated : Stated) : Reservation where
  element := stated.element
  capacity := stated.count
  remaining := payload.length - stated.offset

/-- The number of elements that a payload states, where it is long enough to have
    one. In an acknowledgement it comes after a text of a stated length. -/
def statedCount (msgType : MessageType) (payload : List UInt8) : Option Stated :=
  match msgType with
  | .handshakeAck =>
      let len := (u16At payload 0).toNat
      if 2 + len + 4 ≤ payload.length ∧ (fromUtf8 (slice payload 2 len)).isSome then
        some ⟨.capabilities, (u16At payload (2 + len + 2)).toNat, 2 + len + 4⟩
      else none
  | .datarefBatch =>
      if 16 ≤ payload.length then some ⟨.entries, (u32At payload 12).toNat, 16⟩ else none
  | .subscribe =>
      if 2 ≤ payload.length then some ⟨.datarefs, (u16At payload 0).toNat, 2⟩ else none
  | .unsubscribe =>
      if 2 ≤ payload.length then some ⟨.ids, (u16At payload 0).toNat, 2⟩ else none
  | _ => none

theorem readString_eq_ok_iff (buf : List UInt8) (offset : Nat) (read : String × Nat) :
    readString buf offset = .ok read ↔
      offset + 2 + (u16At buf offset).toNat ≤ buf.length ∧
      fromUtf8 (slice buf (offset + 2) (u16At buf offset).toNat) = some read.1 ∧
      read.2 = offset + 2 + (u16At buf offset).toNat := by
  unfold readString
  by_cases hlong : offset + 2 + (u16At buf offset).toNat ≤ buf.length
  · have hlen : ensureRemaining buf offset 2 = .ok () :=
      (ensureRemaining_eq_ok_iff 2 ()).mpr (by omega)
    have hbytes : ensureRemaining buf (offset + 2) (u16At buf offset).toNat = .ok () :=
      (ensureRemaining_eq_ok_iff _ ()).mpr hlong
    rw [hlen]
    simp only [bind, Except.bind, hbytes]
    cases fromUtf8 (slice buf (offset + 2) (u16At buf offset).toNat) with
    | none => exact ⟨nofun, fun h => nomatch h.2.1⟩
    | some s =>
        rw [Except.ok.injEq, Option.some.injEq, Prod.ext_iff]
        exact ⟨fun h => ⟨hlong, h.1, h.2.symm⟩, fun h => ⟨h.2.1, h.2.2.symm⟩⟩
  · refine ⟨fun h => absurd ?_ hlong, fun h => absurd h.1 hlong⟩
    cases hlen : ensureRemaining buf offset 2 with
    | error e =>
        rw [hlen] at h
        exact nomatch h
    | ok _ =>
        cases hbytes : ensureRemaining buf (offset + 2) (u16At buf offset).toNat with
        | error e =>
            rw [hlen] at h
            simp only [bind, Except.bind, hbytes] at h
            exact nomatch h
        | ok u => exact (ensureRemaining_eq_ok_iff _ u).mp hbytes

namespace Checked

/-- What a payload makes the decoder do. -/
def Demands (msgType : MessageType) (payload : List UInt8) : Prop :=
  decodePayload msgType payload =
    { entries := ((statedCount msgType payload).map (·.reservation payload)).toList
      outcome := (XPlane.decodePayload msgType payload).mapError Halt.err }

variable (payload : List UInt8)

theorem demands_handshake : Demands .handshake payload := by
  change decodePayload .handshake payload = returned (XPlane.decodePayload .handshake payload)
  unfold decodePayload XPlane.decodePayload
  dsimp only
  rw [readString_eq]
  refine Ledger.bind_lift Halt.err fun path _ => bind_ensureRemaining fun hfreq => ?_
  rw [u16At_of_le hfreq, Ledger.pure_bind]
  rfl

/-- The loop over the elements that room was reserved for. -/
theorem reserve_readMany {α : Type} {read : List UInt8 → Nat → Decoding (α × Nat)}
    {read' : OffsetReader ProtocolError UInt8 α}
    (h : ∀ buf offset, read buf offset = returned (read' buf offset)) (stated : Stated)
    (payload : List UInt8) (build : List α → PluginProtoMessage) :
    (do
      withCapacity stated.element stated.count payload stated.offset
      let elements ← readMany read stated.count payload stated.offset
      pure (build elements.1)) =
    ({ entries := [stated.reservation payload]
       outcome := (do
         let elements ← OpenFlight.readMany read' stated.count payload stated.offset
         .ok (build elements.1) : Except ProtocolError PluginProtoMessage).mapError Halt.err } :
      Decoding PluginProtoMessage) := by
  rw [readMany_eq h]
  cases OpenFlight.readMany read' stated.count payload stated.offset with
  | error e => rfl
  | ok elements => rfl

/-- A payload that ends before its number of elements. -/
theorem bind_ensureRemaining_short {α : Type} {payload : List UInt8} {offset need : Nat}
    {f : Unit → Decoding α} {g : Unit → Except ProtocolError α}
    (h : ¬ offset + need ≤ payload.length) :
    (returned (ensureRemaining payload offset need) >>= f) =
      returned (ensureRemaining payload offset need >>= g) :=
  bind_ensureRemaining fun hlong => absurd hlong h

theorem demands_datarefBatch : Demands .datarefBatch payload := by
  unfold Demands statedCount decodePayload XPlane.decodePayload
  dsimp only
  by_cases hlong : 16 ≤ payload.length
  · have hcheck : ensureRemaining payload 0 (4 + 8 + 4) = .ok () :=
      (ensureRemaining_eq_ok_iff _ _).mpr (by omega)
    rw [if_pos hlong, hcheck, Ledger.bind_lift_ok Halt.err rfl, u32At_of_le (by omega),
      Ledger.pure_bind, u64At_of_le (by omega), Ledger.pure_bind, u32At_of_le (by omega),
      Ledger.pure_bind]
    exact reserve_readMany readEntry_eq ⟨.entries, (XPlane.u32At payload 12).toNat, 16⟩ payload
      (PluginProtoMessage.datarefBatch _ _)
  · rw [if_neg hlong]
    exact bind_ensureRemaining_short (by omega)

theorem demands_subscribe : Demands .subscribe payload := by
  unfold Demands statedCount decodePayload XPlane.decodePayload
  dsimp only
  by_cases hlong : 2 ≤ payload.length
  · have hcheck : ensureRemaining payload 0 2 = .ok () :=
      (ensureRemaining_eq_ok_iff _ _).mpr (by omega)
    rw [if_pos hlong, hcheck, Ledger.bind_lift_ok Halt.err rfl, u16At_of_le (by omega),
      Ledger.pure_bind]
    exact reserve_readMany readSubscription_eq ⟨.datarefs, (XPlane.u16At payload 0).toNat, 2⟩
      payload PluginProtoMessage.subscribe
  · rw [if_neg hlong]
    exact bind_ensureRemaining_short (by omega)

theorem demands_unsubscribe : Demands .unsubscribe payload := by
  unfold Demands statedCount decodePayload XPlane.decodePayload
  dsimp only
  by_cases hlong : 2 ≤ payload.length
  · have hcheck : ensureRemaining payload 0 2 = .ok () :=
      (ensureRemaining_eq_ok_iff _ _).mpr (by omega)
    rw [if_pos hlong, hcheck, Ledger.bind_lift_ok Halt.err rfl, u16At_of_le (by omega),
      Ledger.pure_bind]
    exact reserve_readMany readId_eq ⟨.ids, (XPlane.u16At payload 0).toNat, 2⟩
      payload PluginProtoMessage.unsubscribe
  · rw [if_neg hlong]
    exact bind_ensureRemaining_short (by omega)

theorem demands_handshakeAck : Demands .handshakeAck payload := by
  unfold Demands statedCount
  dsimp only
  split_ifs with hcount
  · -- The text and both words behind it are there.
    rcases Option.isSome_iff_exists.mp hcount.2 with ⟨version, hversion⟩
    have hread : XPlane.readString payload 0 =
        .ok (version, 2 + (XPlane.u16At payload 0).toNat) :=
      (readString_eq_ok_iff payload 0 _).mpr ⟨by omega, by simpa using hversion, by simp⟩
    have hfreq : ensureRemaining payload (2 + (XPlane.u16At payload 0).toNat) 2 = .ok () :=
      (ensureRemaining_eq_ok_iff 2 ()).mpr (by omega)
    have hword : ensureRemaining payload (2 + (XPlane.u16At payload 0).toNat + 2) 2 = .ok () :=
      (ensureRemaining_eq_ok_iff 2 ()).mpr (by omega)
    unfold decodePayload XPlane.decodePayload
    dsimp only
    rw [readString_eq, hread, Ledger.bind_lift_ok Halt.err rfl]
    have hpure : ∀ next : String × Nat → Except ProtocolError PluginProtoMessage,
        (Except.ok (version, 2 + (XPlane.u16At payload 0).toNat) >>= next) =
          next (version, 2 + (XPlane.u16At payload 0).toNat) := fun _ => rfl
    rw [hpure]
    dsimp only
    rw [hfreq, Ledger.bind_lift_ok Halt.err rfl, u16At_of_le (by omega), Ledger.pure_bind, hword,
      Ledger.bind_lift_ok Halt.err rfl, u16At_of_le (by omega), Ledger.pure_bind]
    exact reserve_readMany readString_eq
      ⟨.capabilities, (XPlane.u16At payload (2 + (XPlane.u16At payload 0).toNat + 2)).toNat,
        2 + (XPlane.u16At payload 0).toNat + 4⟩ payload (PluginProtoMessage.handshakeAck _ _)
  · unfold decodePayload XPlane.decodePayload
    dsimp only
    rw [readString_eq]
    refine Ledger.bind_lift Halt.err fun read hread => bind_ensureRemaining fun hfreq => ?_
    rcases (readString_eq_ok_iff payload 0 read).mp hread with ⟨-, htext, hoffset⟩
    have htext' : (fromUtf8 (slice payload 2 (XPlane.u16At payload 0).toNat)).isSome :=
      Option.isSome_iff_exists.mpr ⟨read.1, by simpa using htext⟩
    rw [u16At_of_le hfreq, Ledger.pure_bind]
    refine bind_ensureRemaining_short fun hword => hcount ⟨?_, htext'⟩
    omega

theorem demands_setDataref : Demands .setDataref payload := by
  change decodePayload .setDataref payload = returned (XPlane.decodePayload .setDataref payload)
  unfold decodePayload XPlane.decodePayload
  dsimp only
  rw [readString_eq]
  refine Ledger.bind_lift Halt.err fun path _ => bind_ensureRemaining fun hvalue => ?_
  rw [u32At_of_le hvalue, Ledger.pure_bind]
  rfl

theorem demands_executeCommand : Demands .executeCommand payload := by
  change decodePayload .executeCommand payload =
    returned (XPlane.decodePayload .executeCommand payload)
  unfold decodePayload XPlane.decodePayload
  dsimp only
  rw [readString_eq]
  exact Ledger.bind_lift Halt.err fun path _ => rfl

theorem demands_heartbeat : Demands .heartbeat payload := by
  change decodePayload .heartbeat payload = returned (XPlane.decodePayload .heartbeat payload)
  unfold decodePayload XPlane.decodePayload
  dsimp only
  refine bind_ensureRemaining fun hlong => ?_
  rw [u64At_of_le hlong, Ledger.pure_bind]
  rfl

theorem demands_error : Demands .error payload := by
  change decodePayload .error payload = returned (XPlane.decodePayload .error payload)
  unfold decodePayload XPlane.decodePayload
  dsimp only
  refine bind_ensureRemaining fun hcode => ?_
  rw [u16At_of_le hcode, Ledger.pure_bind, readString_eq]
  exact Ledger.bind_lift Halt.err fun message _ => rfl

/-- A payload makes the decoder reserve room for the number it states, and the
    decoder returns what it returns without its accesses. -/
theorem demands (msgType : MessageType) (payload : List UInt8) : Demands msgType payload := by
  cases msgType with
  | handshake => exact demands_handshake payload
  | handshakeAck => exact demands_handshakeAck payload
  | datarefBatch => exact demands_datarefBatch payload
  | subscribe => exact demands_subscribe payload
  | unsubscribe => exact demands_unsubscribe payload
  | setDataref => exact demands_setDataref payload
  | executeCommand => exact demands_executeCommand payload
  | heartbeat => exact demands_heartbeat payload
  | error => exact demands_error payload

end Checked

end

section

/-- The fields in front of the payload are in order, and the payload is there. -/
structure Framed (buf : List UInt8) (msgType : MessageType) (payload : List UInt8) : Prop where
  long : headerLen ≤ buf.length
  magic : slice buf 0 4 = magic
  version : buf.getD 4 0 = protocolVersion
  type : MessageType.fromU8 (buf.getD 5 0) = some msgType
  whole : headerLen + (u16At buf 6).toNat ≤ buf.length
  payload : payload = slice buf headerLen (u16At buf 6).toNat

variable (buf : List UInt8)

/-- What the two decoders do with the fields in front of the payload. -/
theorem framed_or_refused : (∃ msgType payload, Framed buf msgType payload ∧
      Checked.readHeader buf = pure (msgType, payload) ∧
      decode buf = decodePayload msgType payload) ∨
    ((∀ msgType payload, ¬ Framed buf msgType payload) ∧
      ∃ e, Checked.readHeader buf = .fail (.err e) ∧ decode buf = .error e) := by
  unfold Checked.readHeader decode
  by_cases hshort : buf.length < headerLen
  · rw [if_pos hshort, if_pos hshort]
    exact Or.inr ⟨fun t payload h => absurd hshort (Nat.not_lt.mpr h.long), _, rfl, rfl⟩
  have hlong := Nat.le_of_not_lt hshort
  have hlength : 8 ≤ buf.length := hlong
  rw [if_neg hshort, if_neg hshort, Checked.bytesAt_of_le (by omega), Ledger.pure_bind]
  by_cases hmagic : slice buf 0 4 ≠ magic
  · rw [if_pos hmagic, if_pos hmagic]
    exact Or.inr ⟨fun t payload h => hmagic h.magic, _, rfl, rfl⟩
  rw [if_neg hmagic, if_neg hmagic, Checked.byteAt_of_lt (by omega), Ledger.pure_bind]
  by_cases hversion : buf.getD 4 0 ≠ protocolVersion
  · rw [if_pos hversion]
    dsimp only
    rw [if_pos hversion]
    exact Or.inr ⟨fun t payload h => hversion h.version, _, rfl, rfl⟩
  rw [if_neg hversion, Checked.byteAt_of_lt (by omega), Ledger.pure_bind]
  dsimp only
  rw [if_neg hversion]
  cases htype : MessageType.fromU8 (buf.getD 5 0) with
  | none =>
      refine Or.inr ⟨fun t payload h => ?_, _, rfl, rfl⟩
      exact absurd (htype.symm.trans h.type) (Option.some_ne_none t).symm
  | some msgType =>
      dsimp only
      rw [Checked.u16At_of_le (by omega), Ledger.pure_bind]
      by_cases hpart : buf.length < headerLen + (u16At buf 6).toNat
      · rw [if_pos hpart, if_pos hpart]
        exact Or.inr ⟨fun t payload h => absurd hpart (Nat.not_lt.mpr h.whole), _, rfl, rfl⟩
      · have hwhole := Nat.le_of_not_lt hpart
        rw [if_neg hpart, if_neg hpart, Checked.sliceAt_of_le hwhole, Ledger.pure_bind]
        rw [not_not] at hmagic hversion
        exact Or.inl ⟨msgType, _, ⟨hlong, hmagic, hversion, htype, hwhole, rfl⟩, rfl, rfl⟩

theorem Framed.unique {buf payload payload' : List UInt8} {t t' : MessageType}
    (h : Framed buf t payload) (h' : Framed buf t' payload') : t = t' ∧ payload = payload' :=
  ⟨Option.some.inj (h.type.symm.trans h'.type), h.payload.trans h'.payload.symm⟩

/-- The decoder with its accesses returns what the decoder returns. -/
theorem decode_outcome : (Checked.decode buf).outcome = (decode buf).mapError Halt.err := by
  unfold Checked.decode
  rcases framed_or_refused buf with ⟨t, payload, -, hread, hdecode⟩ | ⟨-, e, hread, hdecode⟩
  · rw [hread, hdecode, Ledger.pure_bind, Checked.demands t payload]
  · rw [hread, hdecode]
    rfl

/-- Room is reserved for the number of elements that the payload states. -/
theorem mem_entries_decode_iff (r : Reservation) :
    r ∈ (Checked.decode buf).entries ↔ ∃ t payload stated, Framed buf t payload ∧
      statedCount t payload = some stated ∧ r = stated.reservation payload := by
  unfold Checked.decode
  rcases framed_or_refused buf with ⟨t, payload, hframed, hread, -⟩ | ⟨hnone, e, hread, -⟩
  · rw [hread, Ledger.pure_bind, Checked.demands t payload]
    simp only [Option.mem_toList, Option.map_eq_some_iff]
    constructor
    · rintro ⟨stated, hstated, rfl⟩
      exact ⟨t, payload, stated, hframed, hstated, rfl⟩
    · rintro ⟨t', payload', stated, hframed', hstated, rfl⟩
      rcases hframed.unique hframed' with ⟨rfl, rfl⟩
      exact ⟨stated, hstated, rfl⟩
  · rw [hread]
    refine ⟨fun h => absurd h List.not_mem_nil, ?_⟩
    rintro ⟨t, payload, stated, hframed, -, -⟩
    exact absurd hframed (hnone t payload)

/-- The least number of bytes that an element takes. -/
def Element.leastBytes : Element → Nat
  | .capabilities => 2
  | .entries => 8
  | .datarefs => 4 + 2 + 2
  | .ids => 4

/-- No index is out of bounds, and no room is reserved for more elements than the
    bytes that are left could hold. -/
def StaysWithin (buf : List UInt8) : Prop :=
  (∀ index length, (Checked.decode buf).outcome ≠ .error (.outOfBounds index length)) ∧
  ∀ r ∈ (Checked.decode buf).entries, r.capacity ≤ r.remaining / r.element.leastBytes

/-- The number of elements that a packet states fits into the rest of its payload. -/
def CountFits (buf : List UInt8) : Prop :=
  ∀ msgType payload stated, Framed buf msgType payload →
    statedCount msgType payload = some stated →
    stated.count ≤ (payload.length - stated.offset) / stated.element.leastBytes

theorem outcome_ne_outOfBounds (index length : Nat) :
    (Checked.decode buf).outcome ≠ .error (.outOfBounds index length) := by
  rw [decode_outcome]
  cases decode buf with
  | ok msg => exact nofun
  | error e => exact nofun

/-- A packet makes the decoder reserve no more than it carries exactly if the number
    of elements that it states fits. -/
theorem staysWithin_iff (buf : List UInt8) : StaysWithin buf ↔ CountFits buf := by
  constructor
  · rintro ⟨-, hreserved⟩ msgType payload stated hframed hstated
    have hmem : stated.reservation payload ∈ (Checked.decode buf).entries :=
      (mem_entries_decode_iff buf _).mpr ⟨msgType, payload, stated, hframed, hstated, rfl⟩
    exact hreserved _ hmem
  · intro hfits
    refine ⟨outcome_ne_outOfBounds buf, fun r hr => ?_⟩
    rcases (mem_entries_decode_iff buf r).mp hr with
      ⟨msgType, payload, stated, hframed, hstated, rfl⟩
    exact hfits msgType payload stated hframed hstated

/-- A batch of sixteen bytes that states 2^32 - 1 entries. -/
theorem batch_reserves_beyond : ¬ StaysWithin ([0x4F, 0x46, 0x58, 0x50, 1, 0x10, 16, 0] ++
      [0, 0, 0, 0, 0, 0, 0, 0, 0, 0, 0, 0, 0xFF, 0xFF, 0xFF, 0xFF]) := by
  intro h
  have hframed : Framed ([0x4F, 0x46, 0x58, 0x50, 1, 0x10, 16, 0] ++
      [0, 0, 0, 0, 0, 0, 0, 0, 0, 0, 0, 0, 0xFF, 0xFF, 0xFF, 0xFF]) .datarefBatch
      [0, 0, 0, 0, 0, 0, 0, 0, 0, 0, 0, 0, 0xFF, 0xFF, 0xFF, 0xFF] :=
    ⟨by decide, by decide, by decide, by decide, by decide, by decide⟩
  have hmem := (mem_entries_decode_iff _ _).mpr
    ⟨.datarefBatch, _, ⟨.entries, 4294967295, 16⟩, hframed, rfl, rfl⟩
  exact absurd (h.2 _ hmem) (by decide)

end

end OpenFlight.XPlane
