import OpenFlight.Core.Blackbox.Codec

/-!
# The Codec Reads What It Writes

When decoding gives back the records that were encoded.

Each record has a layout, the row of its fields. The encoder puts the layout at
the front of the buffer, whatever the record; the decoder reads the same fields
at the same offsets, so it gives the record back. It also checks the two length
fields, which the encoder does not: a bus event that claims more than its eight
bytes of payload, or an annotation longer than its array, is written and then
rejected, and with it everything that stands behind it in the recording.

The other direction has no exception. What the decoder accepts is the layout of
the record it returns.

## Main definitions

* `Record.LengthsFit`: The length fields are within their arrays.
* `Encodes`: The bytes that the encoder writes.

## Theorems

* `codec_roundTrip_iff`: A list of records survives exactly if all lengths fit.
-/

namespace OpenFlight.Blackbox

/-- The row of fields of a record. -/
def Record.layout : Record → List UInt8
  | .axisFrame r =>
      [codecVersion] ++ [tagAxisFrame] ++ u64Bytes r.timestampNs ++ u16Bytes r.axisId
        ++ u64Bytes r.raw ++ u64Bytes r.processed
  | .busEvent r =>
      [codecVersion] ++ [tagBusEvent] ++ u64Bytes r.timestampNs ++ u16Bytes r.eventCode
        ++ [r.payloadLen] ++ r.payload.toList
  | .timingMark r =>
      [codecVersion] ++ [tagTimingMark] ++ u64Bytes r.timestampNs ++ u32Bytes r.sequence
        ++ u32Bytes r.deltaNs
  | .annotationRecord r =>
      [codecVersion] ++ [ tagAnnotation] ++ u64Bytes r.timestampNs ++ [r.msgLen] ++ r.msg.toList

/-- The length fields are within their arrays. -/
def Record.LengthsFit : Record → Prop
  | .axisFrame _ => True
  | .busEvent r => r.payloadLen ≤ 8
  | .timingMark _ => True
  | .annotationRecord r => r.msgLen.toNat ≤ annotationMax

section

@[simp]
theorem length_u64Bytes (x : UInt64) : (u64Bytes x).length = 8 := length_toLe 8 _

@[simp]
theorem length_u32Bytes (x : UInt32) : (u32Bytes x).length = 4 := length_toLe 4 _

@[simp]
theorem length_u16Bytes (x : UInt16) : (u16Bytes x).length = 2 := length_toLe 2 _

@[simp]
theorem u64FromLe_u64Bytes (x : UInt64) : u64FromLe (u64Bytes x) = x := u64FromLe_toLe x

@[simp]
theorem u32FromLe_u32Bytes (x : UInt32) : u32FromLe (u32Bytes x) = x := u32FromLe_toLe x

@[simp]
theorem u16FromLe_u16Bytes (x : UInt16) : u16FromLe (u16Bytes x) = x := u16FromLe_toLe x

variable (bytes : List UInt8)

theorem u64Bytes_u64FromLe (h : bytes.length = 8) : u64Bytes (u64FromLe bytes) = bytes :=
  toLe_u64FromLe bytes h

theorem u32Bytes_u32FromLe (h : bytes.length = 4) : u32Bytes (u32FromLe bytes) = bytes :=
  toLe_u32FromLe bytes h

theorem u16Bytes_u16FromLe (h : bytes.length = 2) : u16Bytes (u16FromLe bytes) = bytes :=
  toLe_u16FromLe bytes h

theorem toList_arrayOf (n : Nat) (bytes : List UInt8) (h : bytes.length = n) :
    (arrayOf n bytes).toList = bytes := by
  subst h
  refine List.ext_getElem (by simp) fun i hi hi' => ?_
  simp [arrayOf]

@[simp]
theorem arrayOf_toList (n : Nat) (v : Vector UInt8 n) : arrayOf n v.toList = v := by
  refine Vector.toList_inj.mp ?_
  exact toList_arrayOf n v.toList (by simp)

end

theorem writeHeader_eq (buf : List UInt8) (tag : UInt8) :
    writeHeader buf tag = [codecVersion] ++ [tag] ++ buf.drop 2 := by
  -- The version byte, and behind it the tag.
  have hfirst : writeAt buf 0 [codecVersion] = [codecVersion] ++ buf.drop 1 := rfl
  rw [writeHeader, hfirst, writeAt_end [codecVersion] buf [tag] 1 rfl]
  rfl

theorem length_layout_axisFrame (r : AxisFrame) : (Record.axisFrame r).layout.length = 28 := by
  simp [Record.layout]

theorem length_layout_busEvent (r : BusEvent) : (Record.busEvent r).layout.length = 21 := by
  simp [Record.layout]

theorem length_layout_timingMark (r : TimingMark) : (Record.timingMark r).layout.length = 18 := by
  simp [Record.layout]

theorem length_layout_annotationRecord (r : Annotation) :
    (Record.annotationRecord r).layout.length = 2 + 8 + 1 + annotationMax := by
  simp only [Record.layout, List.length_append, List.length_singleton, length_u64Bytes,
    Vector.length_toList]

theorem length_layout_pos (record : Record) : 0 < record.layout.length := by
  cases record with
  | axisFrame r => rw [length_layout_axisFrame]; decide
  | busEvent r => rw [length_layout_busEvent]; decide
  | timingMark r => rw [length_layout_timingMark]; decide
  | annotationRecord r => rw [length_layout_annotationRecord]; decide

/-- The encoder writes the layout at the front of the buffer. -/
theorem encode_eq (record : Record) (buf : List UInt8) : encode record buf =
      if buf.length < record.layout.length then .error .bufferTooSmall
      else .ok (record.layout.length, record.layout ++ buf.drop record.layout.length) := by
  cases record with
  | axisFrame r =>
      rw [length_layout_axisFrame]
      simp only [encode, encodeAxisFrame, writeHeader_eq, Record.layout]
      -- Each field is written where the one before it ends.
      rw [writeAt_end _ buf _ 2 (by simp), length_u64Bytes, writeAt_end _ buf _ (2 + 8) (by simp),
        length_u16Bytes, writeAt_end _ buf _ (2 + 8 + 2) (by simp), length_u64Bytes,
        writeAt_end _ buf _ (2 + 8 + 2 + 8) (by simp), length_u64Bytes]
  | busEvent r =>
      rw [length_layout_busEvent]
      simp only [encode, encodeBusEvent, writeHeader_eq, Record.layout]
      rw [writeAt_end _ buf _ 2 (by simp), length_u64Bytes, writeAt_end _ buf _ (2 + 8) (by simp),
        length_u16Bytes, writeAt_end _ buf _ (2 + 8 + 2) (by simp), List.length_singleton,
        writeAt_end _ buf _ (2 + 8 + 2 + 1) (by simp), Vector.length_toList]
  | timingMark r =>
      rw [length_layout_timingMark]
      simp only [encode, encodeTimingMark, writeHeader_eq, Record.layout]
      rw [writeAt_end _ buf _ 2 (by simp), length_u64Bytes, writeAt_end _ buf _ (2 + 8) (by simp),
        length_u32Bytes, writeAt_end _ buf _ (2 + 8 + 4) (by simp), length_u32Bytes]
  | annotationRecord r =>
      rw [length_layout_annotationRecord]
      simp only [encode, encodeAnnotation, writeHeader_eq, Record.layout]
      rw [writeAt_end _ buf _ 2 (by simp), length_u64Bytes, writeAt_end _ buf _ (2 + 8) (by simp),
        List.length_singleton, writeAt_end _ buf _ (2 + 8 + 1) (by simp), Vector.length_toList]

section

theorem decodeAxisFrame_layout (r : AxisFrame) (tail : List UInt8) :
    decodeAxisFrame ((Record.axisFrame r).layout ++ tail) = .ok (.axisFrame r, 28) := by
  have hlong : ¬ ((Record.axisFrame r).layout ++ tail).length < 28 := by
    rw [List.length_append, length_layout_axisFrame]
    omega
  simp only [decodeAxisFrame, if_neg hlong]
  -- Each field is a slice of the row, behind the fields before it.
  simp [Record.layout, slice_cons, slice_skip, slice_front]

theorem decodeBusEvent_layout (r : BusEvent) (tail : List UInt8) :
    decodeBusEvent ((Record.busEvent r).layout ++ tail) =
      if 8 < r.payloadLen then .error (.invalidFieldLength "payload_len" r.payloadLen 8)
      else .ok (.busEvent r, 21) := by
  have hlong : ¬ ((Record.busEvent r).layout ++ tail).length < 21 := by
    rw [List.length_append, length_layout_busEvent]
    omega
  have hlen : ((Record.busEvent r).layout ++ tail).getD 12 0 = r.payloadLen := by
    simp [Record.layout, List.getElem?_append_right]
  simp only [decodeBusEvent, if_neg hlong, hlen]
  simp [Record.layout, slice_cons, slice_skip, slice_front]

theorem decodeTimingMark_layout (r : TimingMark) (tail : List UInt8) :
    decodeTimingMark ((Record.timingMark r).layout ++ tail) = .ok (.timingMark r, 18) := by
  have hlong : ¬ ((Record.timingMark r).layout ++ tail).length < 18 := by
    rw [List.length_append, length_layout_timingMark]
    omega
  simp only [decodeTimingMark, if_neg hlong]
  simp [Record.layout, slice_cons, slice_skip, slice_front]

theorem decodeAnnotation_layout (r : Annotation) (tail : List UInt8) :
    decodeAnnotation ((Record.annotationRecord r).layout ++ tail) =
      if annotationMax < r.msgLen.toNat then
        .error (.invalidFieldLength "msg_len" r.msgLen (UInt8.ofNat annotationMax))
      else .ok (.annotationRecord r, 2 + 8 + 1 + annotationMax) := by
  have hlong : ¬ ((Record.annotationRecord r).layout ++ tail).length
      < 2 + 8 + 1 + annotationMax := by
    rw [List.length_append, length_layout_annotationRecord]
    omega
  have hlen : ((Record.annotationRecord r).layout ++ tail).getD 10 0 = r.msgLen := by
    simp [Record.layout]
  simp only [ decodeAnnotation, if_neg hlong, hlen]
  simp [Record.layout, slice_cons, slice_skip, slice_front]

/-- The decoder reads a layout back if the lengths fit. -/
theorem decode_layout (record : Record) (tail : List UInt8) (hfits : record.LengthsFit) :
    decode (record.layout ++ tail) = .ok (record, record.layout.length) := by
  cases record with
  | axisFrame r =>
      rw [length_layout_axisFrame]
      exact decodeAxisFrame_layout r tail
  | busEvent r =>
      -- The length is within the array, so the check passes.
      have hlen : ¬ 8 < r.payloadLen := UInt8.not_lt.mpr hfits
      have hdecode := decodeBusEvent_layout r tail
      rw [if_neg hlen] at hdecode
      rw [length_layout_busEvent]
      exact hdecode
  | timingMark r =>
      rw [length_layout_timingMark]
      exact decodeTimingMark_layout r tail
  | annotationRecord r =>
      have hdecode := decodeAnnotation_layout r tail
      rw [if_neg (not_lt.mpr hfits)] at hdecode
      rw [length_layout_annotationRecord]
      exact hdecode

/-- The decoder rejects a layout whose lengths do not fit. -/
theorem decode_layout_rejected (record : Record) (tail : List UInt8)
    (hfits : ¬ record.LengthsFit) : ∃ e, decode (record.layout ++ tail) = .error e := by
  cases record with
  | axisFrame r => exact absurd trivial hfits
  | busEvent r =>
      have hlen : 8 < r.payloadLen := UInt8.not_le.mp hfits
      have hdecode := decodeBusEvent_layout r tail
      rw [if_pos hlen] at hdecode
      exact ⟨_, hdecode⟩
  | timingMark r => exact absurd trivial hfits
  | annotationRecord r =>
      have hdecode := decodeAnnotation_layout r tail
      rw [if_pos (not_le.mp hfits)] at hdecode
      exact ⟨_, hdecode⟩

variable (buf : List UInt8) (record : Record)

theorem layout_of_decodeAxisFrame (n : Nat) (hhead : buf.take 2 = [codecVersion] ++ [tagAxisFrame])
    (h : decodeAxisFrame buf = .ok (record, n)) :
    n = record.layout.length ∧ n ≤ buf.length ∧ buf.take n = record.layout := by
  simp only [decodeAxisFrame] at h
  split_ifs at h with hlong
  rcases Prod.mk.inj (Except.ok.inj h) with ⟨rfl, rfl⟩
  refine ⟨(length_layout_axisFrame _).symm, not_lt.mp hlong, ?_⟩
  -- The slices that the decoder reads cover the record without a gap.
  have hrow : buf.take 28 = buf.take 2 ++ slice buf 2 8 ++ slice buf 10 2 ++ slice buf 12 8
      ++ slice buf 20 8 := by
    rw [← take_add_slice, ← take_add_slice, ← take_add_slice, ← take_add_slice]
  rw [hrow, hhead, Record.layout, u64Bytes_u64FromLe _ (length_slice _ _ _ (by omega)),
    u16Bytes_u16FromLe _ (length_slice _ _ _ (by omega)),
    u64Bytes_u64FromLe _ (length_slice _ _ _ (by omega)),
    u64Bytes_u64FromLe _ (length_slice _ _ _ (by omega))]

theorem layout_of_decodeBusEvent (n : Nat) (hhead : buf.take 2 = [codecVersion] ++ [tagBusEvent])
    (h : decodeBusEvent buf = .ok (record, n)) :
    n = record.layout.length ∧ n ≤ buf.length ∧ buf.take n = record.layout := by
  simp only [decodeBusEvent] at h
  split_ifs at h with hlong hlen
  rcases Prod.mk.inj (Except.ok.inj h) with ⟨rfl, rfl⟩
  refine ⟨(length_layout_busEvent _).symm, not_lt.mp hlong, ?_⟩
  have hrow : buf.take 21 = buf.take 2 ++ slice buf 2 8 ++ slice buf 10 2 ++ slice buf 12 1
      ++ slice buf 13 8 := by
    rw [← take_add_slice, ← take_add_slice, ← take_add_slice, ← take_add_slice]
  rw [hrow, hhead, Record.layout, u64Bytes_u64FromLe _ (length_slice _ _ _ (by omega)),
    u16Bytes_u16FromLe _ (length_slice _ _ _ (by omega)), slice_one buf 0 12 (by omega),
    toList_arrayOf 8 _ (length_slice _ _ _ (by omega))]

theorem layout_of_decodeTimingMark (n : Nat)
    (hhead : buf.take 2 = [codecVersion] ++ [tagTimingMark])
    (h : decodeTimingMark buf = .ok (record, n)) :
    n = record.layout.length ∧ n ≤ buf.length ∧ buf.take n = record.layout := by
  simp only [decodeTimingMark] at h
  split_ifs at h with hlong
  rcases Prod.mk.inj (Except.ok.inj h) with ⟨rfl, rfl⟩
  refine ⟨(length_layout_timingMark _).symm, not_lt.mp hlong, ?_⟩
  have hrow : buf.take 18 = buf.take 2 ++ slice buf 2 8 ++ slice buf 10 4 ++ slice buf 14 4 := by
    rw [← take_add_slice, ← take_add_slice, ← take_add_slice]
  rw [hrow, hhead, Record.layout, u64Bytes_u64FromLe _ (length_slice _ _ _ (by omega)),
    u32Bytes_u32FromLe _ (length_slice _ _ _ (by omega)),
    u32Bytes_u32FromLe _ (length_slice _ _ _ (by omega))]

theorem layout_of_decodeAnnotation (n : Nat)
    (hhead : buf.take 2 = [codecVersion] ++ [ tagAnnotation])
    (h : decodeAnnotation buf = .ok (record, n)) :
    n = record.layout.length ∧ n ≤ buf.length ∧ buf.take n = record.layout := by
  simp only [ decodeAnnotation] at h
  split_ifs at h with hlong hlen
  rcases Prod.mk.inj (Except.ok.inj h) with ⟨rfl, rfl⟩
  refine ⟨(length_layout_annotationRecord _).symm, not_lt.mp hlong, ?_⟩
  have hrow : buf.take (2 + 8 + 1 + annotationMax) = buf.take 2 ++ slice buf 2 8
      ++ slice buf 10 1 ++ slice buf 11 annotationMax := by
    rw [← take_add_slice, ← take_add_slice, ← take_add_slice]
  rw [hrow, hhead, Record.layout, u64Bytes_u64FromLe _ (length_slice _ _ _ (by omega)),
    slice_one buf 0 10 (by omega),
    toList_arrayOf annotationMax _ (length_slice _ _ _ (by omega))]

/-- What the decoder accepts is the layout of the record it returns. -/
theorem layout_of_decode (n : Nat) (h : decode buf = .ok (record, n)) :
    n = record.layout.length ∧ n ≤ buf.length ∧ buf.take n = record.layout := by
  unfold decode at h
  split at h
  · next version tag rest =>
      split_ifs at h with hversion hframe hevent hmark hnote
      · -- The version and the tag are the first two bytes of the buffer.
        rw [not_ne_iff] at hversion
        exact layout_of_decodeAxisFrame _ record n (by rw [hversion, hframe]; rfl) h
      · rw [not_ne_iff] at hversion
        exact layout_of_decodeBusEvent _ record n (by rw [hversion, hevent]; rfl) h
      · rw [not_ne_iff] at hversion
        exact layout_of_decodeTimingMark _ record n (by rw [hversion, hmark]; rfl) h
      · rw [not_ne_iff] at hversion
        exact layout_of_decodeAnnotation _ record n (by rw [hversion, hnote]; rfl) h
  · exact absurd h (by simp)

end

/-- The bytes that the encoder writes for a record, into any buffer that it accepts. -/
def Encodes (record : Record) (bytes : List UInt8) : Prop :=
  ∃ buf n after, encode record buf = .ok (n, after) ∧ bytes = after.take n

theorem encodes_iff (record : Record) (bytes : List UInt8) :
    Encodes record bytes ↔ bytes = record.layout := by
  constructor
  · rintro ⟨buf, n, after, hencode, rfl⟩
    rw [encode_eq] at hencode
    split_ifs at hencode
    -- The encoder puts the layout at the front of whatever buffer it is given.
    rcases Prod.mk.inj (Except.ok.inj hencode) with ⟨rfl, rfl⟩
    exact List.take_left
  · rintro rfl
    refine ⟨record.layout, record.layout.length, record.layout, ?_, by simp⟩
    rw [encode_eq, if_neg (lt_irrefl _)]
    simp

section

variable {buf : List UInt8} (fuel : Nat)

theorem decodeAllFuel_of_ok {record : Record} {n : Nat} (hne : buf ≠ [])
    (h : decode buf = .ok (record, n)) :
    decodeAllFuel (fuel + 1) buf = (decodeAllFuel fuel (buf.drop n)).map (record :: ·) := by
  cases buf with
  | nil => exact absurd rfl hne
  | cons b more =>
      simp only [decodeAllFuel, h, bind, Except.bind]
      cases decodeAllFuel fuel ((b :: more).drop n) with
      | error e => rfl
      | ok records => rfl

theorem decodeAllFuel_of_error {e : CodecError} (hne : buf ≠ []) (h : decode buf = .error e) :
    decodeAllFuel (fuel + 1) buf = .error e := by
  cases buf with
  | nil => exact absurd rfl hne
  | cons b more => simp only [decodeAllFuel, h, bind, Except.bind]

end

/-- A row of layouts, decoded with enough turns. -/
theorem decodeAllFuel_iff (records : List Record) (fuel : Nat)
    (hfuel : (records.flatMap Record.layout).length ≤ fuel) :
    decodeAllFuel fuel (records.flatMap Record.layout) = .ok records ↔
      ∀ record ∈ records, record.LengthsFit := by
  induction records generalizing fuel with
  | nil =>
      cases fuel with
      | zero => simp [decodeAllFuel]
      | succ fuel => simp [decodeAllFuel]
  | cons record rest ih =>
      -- The first layout is decoded, and the induction hypothesis is about the rest.
      rw [List.flatMap_cons] at hfuel ⊢
      have hpos := length_layout_pos record
      rw [List.length_append] at hfuel
      cases fuel with
      | zero => omega
      | succ fuel =>
          -- The layout is not empty, so the loop takes a turn.
          have hne : record.layout ++ rest.flatMap Record.layout ≠ [] := by
            rw [Ne, ← List.length_eq_zero_iff, List.length_append]
            omega
          rw [List.forall_mem_cons]
          by_cases hfits : record.LengthsFit
          · have hrest := ih fuel (by omega)
            rw [decodeAllFuel_of_ok _ hne (decode_layout record _ hfits), List.drop_left]
            simp only [hfits, true_and, ← hrest]
            cases decodeAllFuel fuel (rest.flatMap Record.layout) with
            | error e => simp [Except.map]
            | ok records => simp [Except.map]
          · -- The loop stops with the error of this record.
            rcases decode_layout_rejected record (rest.flatMap Record.layout) hfits with ⟨e, he⟩
            rw [decodeAllFuel_of_error _ hne he]
            simp [hfits]

/-- Decoding the encodings of a list of records gives the list back, and what is
    decoded is written back by the encoder, exactly if all length fields fit. -/
theorem codec_roundTrip_iff (records : List Record) (encodings : List (List UInt8))
    (hencodes : List.Forall₂ Encodes records encodings) :
    (decodeAll encodings.flatten = .ok records ∧
        ∀ bytes record n, decode bytes = .ok (record, n) → ∀ buf, n ≤ buf.length →
          encode record buf = .ok (n, bytes.take n ++ buf.drop n)) ↔
      ∀ record ∈ records, record.LengthsFit := by
  -- Whatever buffers were used, the encodings are the layouts.
  have hflat : encodings.flatten = records.flatMap Record.layout := by
    induction hencodes with
    | nil => rfl
    | cons hfirst _ ih =>
        rw [List.flatten_cons, List.flatMap_cons, ih, (encodes_iff _ _).mp hfirst]
  -- What was decoded is a layout, and the encoder writes layouts.
  have hback : ∀ bytes record n, decode bytes = .ok (record, n) → ∀ buf, n ≤ buf.length →
      encode record buf = .ok (n, bytes.take n ++ buf.drop n) := by
    intro bytes record n hdecode buf hlength
    rcases layout_of_decode bytes record n hdecode with ⟨hn, -, htake⟩
    rw [encode_eq, htake, ← hn, if_neg (not_lt.mpr hlength)]
  rw [hflat, decodeAll, decodeAllFuel_iff records _ (le_refl _)]
  exact and_iff_left hback

/-- A timing mark and a bus event with two bytes of payload. -/
def fittingRecords : List Record :=
  [.timingMark { timestampNs := 1000, sequence := 7, deltaNs := 4000000 },
    .busEvent
      { timestampNs := 2000, eventCode := 3, payload := #v[1, 2, 0, 0, 0, 0, 0, 0]
        payloadLen := 2 }]

theorem codec_roundTrip_fitting : ∃ encodings, List.Forall₂ Encodes fittingRecords encodings ∧
      decodeAll encodings.flatten = .ok fittingRecords := by
  have hencodes : List.Forall₂ Encodes fittingRecords (fittingRecords.map Record.layout) :=
    .cons ((encodes_iff _ _).mpr rfl) (.cons ((encodes_iff _ _).mpr rfl) .nil)
  have hfit : ∀ record ∈ fittingRecords, record.LengthsFit := by
    intro record hrecord
    simp only [fittingRecords, List.mem_cons, List.not_mem_nil, or_false] at hrecord
    rcases hrecord with rfl | rfl
    · exact trivial
    · change (2 : UInt8) ≤ 8
      decide
  exact ⟨_, hencodes, ((codec_roundTrip_iff _ _ hencodes).mpr hfit).1⟩

/-- A bus event that claims nine bytes of payload. -/
def oversizedEvent : Record :=
  .busEvent
    { timestampNs := 2000, eventCode := 3, payload := #v[1, 2, 3, 4, 5, 6, 7, 8], payloadLen := 9 }

/-- The encoder accepts the event and the decoder does not. -/
theorem oversizedEvent_lost : ¬ ∀ (records : List Record) (encodings : List (List UInt8)),
      List.Forall₂ Encodes records encodings → decodeAll encodings.flatten = .ok records := by
  intro hall
  have hencodes : Encodes oversizedEvent oversizedEvent.layout :=
    (encodes_iff oversizedEvent oversizedEvent.layout).mpr rfl
  have hdecode := hall [oversizedEvent] [oversizedEvent.layout] (.cons hencodes .nil)
  exact absurd hdecode (by decide +kernel)

end OpenFlight.Blackbox
