import OpenFlight.Core.DcsBios.Protocol

/-!
# The Grammar of Export Frames

The byte strings that `parse_frame` accepts, and what it makes of them.

A frame is a sync sequence and one or more updates, up to the end or to another
sync sequence. Data may contain sync bytes. They are recognised only in the place
of a header, and there a sync sequence is no header: its address is odd. So the
updates of a frame are determined by its bytes.

The length of an update is a word, so an update of 65536 bytes, which would fill
the address space, has no encoding.

## Main definitions

* `DcsBiosUpdate.encode`, `encodeAll`: Updates as bytes.
* `FrameOf`: A byte string is a frame of updates, and a rest.

## Theorems

* `frame_grammar`: The frames that are accepted, their uniqueness, and the round
  trip.
-/

namespace OpenFlight.DcsBios

/-- The bytes of an update: its address, the length of its data, and the data. -/
def DcsBiosUpdate.encode (u : DcsBiosUpdate) : List UInt8 :=
  toLe 2 u.address.toNat ++ toLe 2 u.data.length ++ u.data

def encodeAll (updates : List DcsBiosUpdate) : List UInt8 :=
  (updates.map DcsBiosUpdate.encode).flatten

/-- The update has an even address and an even length, and ends inside the address space. -/
def DcsBiosUpdate.InSpace (u : DcsBiosUpdate) : Prop :=
  u.address.toNat % 2 = 0 ∧ u.data.length % 2 = 0 ∧
    u.address.toNat + u.data.length ≤ addressSpaceSize

instance (u : DcsBiosUpdate) : Decidable u.InSpace :=
  inferInstanceAs (Decidable (_ ∧ _ ∧ _))

/-- The update is in the address space and its length is a word. -/
def DcsBiosUpdate.WellFormed (u : DcsBiosUpdate) : Prop :=
  u.InSpace ∧ u.data.length < 2 ^ 16

/-- A sync sequence, the updates, and a rest that is empty or starts another frame. -/
structure FrameOf (data : List UInt8) (updates : List DcsBiosUpdate) (rest : List UInt8) :
    Prop where
  bytes : data = syncBytes ++ encodeAll updates ++ rest
  nonempty : updates ≠ []
  wellFormed : ∀ u ∈ updates, u.WellFormed
  ends : rest = [] ∨ syncBytes <+: rest

section

variable (u : DcsBiosUpdate)

theorem length_encode : u.encode.length = 4 + u.data.length := by
  rw [DcsBiosUpdate.encode, List.length_append, List.length_append, length_toLe, length_toLe]

/-- The address and the length of an update that was encoded. -/
theorem header_encode (h : u.data.length < 2 ^ 16) (rest : List UInt8) :
    u16FromLe (slice (u.encode ++ rest) 0 2) = u.address ∧
    (u16FromLe (slice (u.encode ++ rest) 2 2)).toNat = u.data.length := by
  have haddress : slice (u.encode ++ rest) 0 2 = toLe 2 u.address.toNat := by
    refine slice_of_row _ [] _ (toLe 2 u.data.length ++ u.data ++ rest) 0 2 ?_ rfl (length_toLe _ _)
    simp [DcsBiosUpdate.encode]
  have hlength : slice (u.encode ++ rest) 2 2 = toLe 2 u.data.length := by
    refine slice_of_row _ (toLe 2 u.address.toNat) _ (u.data ++ rest) 2 2 ?_ (length_toLe _ _)
      (length_toLe _ _)
    simp [DcsBiosUpdate.encode]
  have hword : u.address.toNat < 256 ^ 2 := u.address.toNat_lt
  constructor
  · refine UInt16.toNat_inj.mp ?_
    rw [haddress, toNat_u16FromLe _ (length_toLe _ _), ofLe_toLe 2 _ hword]
  · rw [hlength, toNat_u16FromLe _ (length_toLe _ _), ofLe_toLe 2 _ h]

/-- A header and what comes after it. -/
theorem eq_header_append (bytes : List UInt8) :
    bytes = slice bytes 0 2 ++ slice bytes 2 2 ++ bytes.drop 4 := by
  have hfront : slice bytes 0 2 ++ slice bytes 2 2 = bytes.take 4 := by
    rw [take_add_slice bytes 2 2]
    rfl
  rw [hfront, List.take_append_drop]

/-- What the body of the loop accepts is the encoding of a well-formed update. -/
theorem eq_encode_of_parseUpdate (offset : Nat) (rest rest' : List UInt8) (u : DcsBiosUpdate)
    (h : parseUpdate offset rest = .ok (u, rest')) :
    u.WellFormed ∧ rest = u.encode ++ rest' := by
  unfold parseUpdate at h
  by_cases hheader : rest.length < 4
  · rw [if_pos hheader] at h
    exact nomatch h
  rw [if_neg hheader] at h
  have haddress : toLe 2 (u16FromLe (slice rest 0 2)).toNat = slice rest 0 2 :=
    toLe_u16FromLe _ (length_slice rest 0 2 (by omega))
  have hlength : toLe 2 (u16FromLe (slice rest 2 2)).toNat = slice rest 2 2 :=
    toLe_u16FromLe _ (length_slice rest 2 2 (by omega))
  have hlt := (u16FromLe (slice rest 2 2)).toNat_lt
  simp only [] at h
  -- None of the checks failed.
  split at h
  · exact nomatch h
  split at h
  · exact nomatch h
  split at h
  · exact nomatch h
  split at h
  · exact nomatch h
  split at h
  · exact nomatch h
  rename_i haligned heven _ hspace havailable
  rw [Except.ok.injEq, Prod.mk.injEq] at h
  rcases h with ⟨rfl, rfl⟩
  have hdata : ((rest.drop 4).take (u16FromLe (slice rest 2 2)).toNat).length =
      (u16FromLe (slice rest 2 2)).toNat := by
    rw [List.length_take]
    omega
  refine ⟨⟨⟨not_not.mp haligned, ?_, ?_⟩, ?_⟩, ?_⟩
  · rw [hdata]
    exact not_not.mp heven
  · rw [hdata]
    exact Nat.le_of_not_lt hspace
  · rw [hdata]
    exact hlt
  · rw [DcsBiosUpdate.encode]
    simp only [hdata, haddress, hlength]
    rw [List.append_assoc, List.take_append_drop]
    exact eq_header_append rest

/-- The body of the loop reads a well-formed update back from its encoding. -/
theorem parseUpdate_encode (offset : Nat) (rest : List UInt8) (u : DcsBiosUpdate)
    (h : u.WellFormed) : parseUpdate offset (u.encode ++ rest) = .ok (u, rest) := by
  rcases h with ⟨⟨haligned, heven, hspace⟩, hlt⟩
  rcases header_encode u hlt rest with ⟨haddress, hlength⟩
  have hlong : ¬ (u.encode ++ rest).length < 4 := by
    rw [List.length_append, length_encode]
    omega
  have hdrop : (u.encode ++ rest).drop 4 = u.data ++ rest := by
    have hheader : (toLe 2 u.address.toNat ++ toLe 2 u.data.length).length = 4 := by
      rw [List.length_append, length_toLe, length_toLe]
    rw [DcsBiosUpdate.encode, List.append_assoc]
    exact List.drop_left' hheader
  have hmax : ¬ maxUpdateLength < u16FromLe (slice (u.encode ++ rest) 2 2) := by
    rw [UInt16.lt_iff_toNat_lt, hlength]
    have hword : maxUpdateLength.toNat = 65534 := rfl
    omega
  unfold parseUpdate
  rw [if_neg hlong]
  simp only [hlength, hdrop, if_neg hmax]
  rw [haddress, if_neg (by simpa using haligned), if_neg (by simpa using heven),
    if_neg (Nat.not_lt.mpr hspace), if_neg (by simp), List.take_left, List.drop_left]

/-- The body of the loop reads exactly the encodings of well-formed updates. -/
theorem parseUpdate_iff (offset : Nat) (rest rest' : List UInt8) (u : DcsBiosUpdate) :
    parseUpdate offset rest = .ok (u, rest') ↔ u.WellFormed ∧ rest = u.encode ++ rest' := by
  constructor
  · exact eq_encode_of_parseUpdate offset rest rest' u
  · rintro ⟨hwell, rfl⟩
    exact parseUpdate_encode offset rest' u hwell

/-- A sync sequence is no header. -/
theorem not_sync_prefix_encode (h : u.WellFormed) (rest : List UInt8) :
    ¬ syncBytes <+: u.encode ++ rest := by
  rintro ⟨after, hafter⟩
  have haddress := (header_encode u h.2 rest).1
  have hfront : slice (syncBytes ++ after) 0 2 = [0x55, 0x55] := rfl
  rw [← hafter, hfront] at haddress
  have haligned := h.1.1
  rw [← haddress] at haligned
  exact absurd haligned (by decide)

end

/-- Where the loop does not stop it reads an update. -/
theorem parseUpdates_succ (fuel offset : Nat) (rest : List UInt8)
    (hends : ¬ (rest = [] ∨ syncBytes <+: rest)) (updates : List DcsBiosUpdate) :
    parseUpdates (fuel + 1) offset rest = .ok updates ↔
      ∃ u rest' updates', updates = u :: updates' ∧ parseUpdate offset rest = .ok (u, rest') ∧
        parseUpdates fuel (offset + 4 + u.data.length) rest' = .ok updates' := by
  rw [not_or] at hends
  rw [parseUpdates, if_neg (by simpa using hends.1), if_neg (by simpa using hends.2)]
  cases parseUpdate offset rest with
  | error e =>
      constructor
      · exact fun h => nomatch h
      · exact fun ⟨_, _, _, _, h, _⟩ => nomatch h
  | ok result =>
      rcases result with ⟨u, rest'⟩
      cases hrest : parseUpdates fuel (offset + 4 + u.data.length) rest' with
      | error e =>
          simp only [hrest, Except.ok.injEq, Prod.mk.injEq]
          constructor
          · exact fun h => nomatch h
          · rintro ⟨_, _, _, -, ⟨rfl, rfl⟩, h⟩
            rw [hrest] at h
            exact nomatch h
      | ok updates' =>
          simp only [hrest, Except.ok.injEq, Prod.mk.injEq]
          constructor
          · rintro rfl
            exact ⟨u, rest', updates', rfl, ⟨rfl, rfl⟩, hrest⟩
          · rintro ⟨_, _, _, hupdates, ⟨rfl, rfl⟩, h⟩
            rw [hrest, Except.ok.injEq] at h
            rw [hupdates, h]

/-- The loop reads updates up to the end or a sync sequence. -/
theorem parseUpdates_iff (fuel offset : Nat) (rest : List UInt8) (hfuel : rest.length < fuel)
    (updates : List DcsBiosUpdate) :
    parseUpdates fuel offset rest = .ok updates ↔
      (∀ u ∈ updates, u.WellFormed) ∧
      ∃ tail, rest = encodeAll updates ++ tail ∧ (tail = [] ∨ syncBytes <+: tail) := by
  induction fuel generalizing offset rest updates with
  | zero => exact absurd hfuel (Nat.not_lt_zero _)
  | succ fuel ih =>
      by_cases hends : rest = [] ∨ syncBytes <+: rest
      · -- The loop stops here, and no update starts with the sync sequence.
        have hstop : parseUpdates (fuel + 1) offset rest = .ok [] := by
          rcases hends with hempty | hsync
          · rw [parseUpdates, if_pos (by simpa using hempty)]
          · have hsync' : syncBytes.isPrefixOf rest = true := List.isPrefixOf_iff_prefix.mpr hsync
            rw [parseUpdates, if_pos hsync', ite_self]
        rw [hstop, Except.ok.injEq]
        constructor
        · rintro rfl
          exact ⟨by simp, rest, rfl, hends⟩
        · rintro ⟨hwell, tail, hrest, -⟩
          cases updates with
          | nil => rfl
          | cons u updates =>
              have hu := hwell u List.mem_cons_self
              have hsplit : rest = u.encode ++ (encodeAll updates ++ tail) := by
                rw [hrest]
                simp [encodeAll]
              rcases hends with hempty | hsync
              · have hlength := congrArg List.length hsplit
                rw [hempty, List.length_append, length_encode, List.length_nil] at hlength
                omega
              · rw [hsplit] at hsync
                exact absurd hsync (not_sync_prefix_encode u hu _)
      · rw [parseUpdates_succ fuel offset rest hends]
        constructor
        · -- Every update takes bytes away, so the fuel is enough for the rest.
          rintro ⟨u, rest', updates', rfl, hu, hupdates⟩
          rcases (parseUpdate_iff offset rest rest' u).mp hu with ⟨hwell, hrest⟩
          have hshorter : rest'.length < fuel := by
            rw [hrest, List.length_append, length_encode] at hfuel
            omega
          rcases (ih _ rest' hshorter updates').mp hupdates with ⟨hwells, tail, hrest', htail⟩
          refine ⟨List.forall_mem_cons.mpr ⟨hwell, hwells⟩, tail, ?_, htail⟩
          rw [hrest, hrest']
          simp [encodeAll]
        · rintro ⟨hwells, tail, hrest, htail⟩
          cases updates with
          | nil =>
              have hsame : rest = tail := hrest
              rw [hsame] at hends
              exact absurd htail hends
          | cons u updates' =>
              rcases List.forall_mem_cons.mp hwells with ⟨hwell, hwells'⟩
              have hsplit : rest = u.encode ++ (encodeAll updates' ++ tail) := by
                rw [hrest]
                simp [encodeAll]
              have hshorter : (encodeAll updates' ++ tail).length < fuel := by
                rw [hsplit, List.length_append, length_encode] at hfuel
                omega
              have hparsed := (parseUpdate_iff offset rest _ u).mpr ⟨hwell, hsplit⟩
              refine ⟨u, _, updates', rfl, hparsed, ?_⟩
              exact (ih _ _ hshorter updates').mpr ⟨hwells', tail, rfl, htail⟩

theorem parseFrame_iff (data : List UInt8) (updates : List DcsBiosUpdate) :
    parseFrame data = .ok updates ↔ ∃ rest, FrameOf data updates rest := by
  unfold parseFrame
  by_cases hsync : data.length < 4 ∨ data.take 4 ≠ syncBytes
  · rw [if_pos hsync]
    constructor
    · exact fun h => nomatch h
    · rintro ⟨rest, hframe⟩
      rw [hframe.bytes] at hsync
      rcases hsync with hshort | hother
      · rw [List.length_append, List.length_append] at hshort
        have hfour : syncBytes.length = 4 := rfl
        omega
      · exact absurd rfl hother
  · rw [if_neg hsync]
    rw [not_or, not_not] at hsync
    have hdata : data = syncBytes ++ data.drop 4 := by
      rw [← hsync.2, List.take_append_drop]
    have hloop := parseUpdates_iff data.length 4 (data.drop 4)
      (by rw [List.length_drop]; omega)
    have hframe : (∃ rest, FrameOf data updates rest) ↔
        updates ≠ [] ∧ parseUpdates data.length 4 (data.drop 4) = .ok updates := by
      rw [hloop]
      constructor
      · rintro ⟨rest, hframe⟩
        refine ⟨hframe.nonempty, hframe.wellFormed, rest, ?_, hframe.ends⟩
        rw [hframe.bytes, List.append_assoc]
        rfl
      · rintro ⟨hnonempty, hwells, rest, hrest, hends⟩
        refine ⟨rest, ?_, hnonempty, hwells, hends⟩
        rw [List.append_assoc, ← hrest]
        exact hdata
    rw [hframe]
    cases parseUpdates data.length 4 (data.drop 4) with
    | error e => simp
    | ok found =>
        cases found with
        | nil => simp
        | cons u found =>
            simp only [Except.ok.injEq]
            constructor
            · rintro rfl
              exact ⟨List.cons_ne_nil _ _, rfl⟩
            · exact fun h => h.2

/-- A byte string is a frame in one way. -/
theorem frameOf_unique (data rest rest' : List UInt8) (updates updates' : List DcsBiosUpdate)
    (h : FrameOf data updates rest) (h' : FrameOf data updates' rest') :
    updates = updates' ∧ rest = rest' := by
  have hparse := (parseFrame_iff data updates).mpr ⟨rest, h⟩
  have hparse' := (parseFrame_iff data updates').mpr ⟨rest', h'⟩
  rw [hparse, Except.ok.injEq] at hparse'
  subst hparse'
  refine ⟨rfl, ?_⟩
  have hbytes := h.bytes
  rw [h'.bytes] at hbytes
  exact (List.append_cancel_left hbytes).symm

theorem parseFrame_encodeAll (updates : List DcsBiosUpdate) (hnonempty : updates ≠ [])
    (hwell : ∀ u ∈ updates, u.WellFormed) :
    parseFrame (syncBytes ++ encodeAll updates) = .ok updates := by
  refine (parseFrame_iff _ _).mpr ⟨[], ?_, hnonempty, hwell, .inl rfl⟩
  rw [List.append_nil]

/-- The frames that are accepted are the encodings of one or more well-formed
    updates, up to the end or to another sync sequence. A byte string is such an
    encoding in one way only, and updates that are encoded are read back. -/
theorem frame_grammar :
    (∀ data updates, parseFrame data = .ok updates ↔ ∃ rest, FrameOf data updates rest) ∧
    (∀ data updates updates' rest rest', FrameOf data updates rest →
      FrameOf data updates' rest' → updates = updates' ∧ rest = rest') ∧
    (∀ updates, updates ≠ [] → (∀ u ∈ updates, u.WellFormed) →
      parseFrame (syncBytes ++ encodeAll updates) = .ok updates) := by
  refine ⟨parseFrame_iff, ?_, parseFrame_encodeAll⟩
  intro data updates updates' rest rest' h h'
  exact frameOf_unique data rest rest' updates updates' h h'

/-- An update whose data are sync bytes, before the start of another frame. -/
theorem frame_grammar_sync : (DcsBiosUpdate.mk 0x1000 syncBytes).WellFormed ∧
    parseFrame (syncBytes ++ encodeAll [⟨0x1000, syncBytes⟩]) = .ok [⟨0x1000, syncBytes⟩] := by
  have hwell : (DcsBiosUpdate.mk 0x1000 syncBytes).WellFormed := ⟨by decide, by decide⟩
  refine ⟨hwell, frame_grammar.2.2 _ (List.cons_ne_nil _ _) ?_⟩
  rintro u hu
  rw [List.mem_singleton.mp hu]
  exact hwell

/-- The update that fills the address space. -/
def wholeSpace : DcsBiosUpdate :=
  { address := 0, data := List.replicate 65536 0 }

/-- Zero bytes are headers of updates without data. -/
theorem encodeAll_replicate (n : Nat) :
    encodeAll (List.replicate n ⟨0, []⟩) = List.replicate (n * 4) 0 := by
  induction n with
  | zero => rfl
  | succ n ih =>
      have hhead : DcsBiosUpdate.encode ⟨0, []⟩ = List.replicate 4 0 := rfl
      rw [encodeAll] at ih ⊢
      rw [List.replicate_succ, List.map_cons, List.flatten_cons, ih, hhead,
        List.replicate_append_replicate, Nat.succ_mul, Nat.add_comm]

/-- Where the length is cut to zero all the bytes of zero data are zero. -/
theorem encode_replicate (n : Nat) (h : toLe 2 n = [0, 0]) :
    DcsBiosUpdate.encode ⟨0, List.replicate n 0⟩ = List.replicate (4 + n) 0 := by
  have hhead : toLe 2 (0 : UInt16).toNat ++ [0, 0] = List.replicate 4 0 := rfl
  rw [DcsBiosUpdate.encode, List.length_replicate, h, hhead, List.replicate_append_replicate]

/-- Updates without data are read back. -/
theorem parseFrame_replicate (n : Nat) (h : 0 < n) :
    parseFrame (syncBytes ++ encodeAll (List.replicate n ⟨0, []⟩)) =
      .ok (List.replicate n ⟨0, []⟩) := by
  refine parseFrame_encodeAll _ ?_ ?_
  · intro hempty
    rw [List.replicate_eq_nil_iff] at hempty
    omega
  · intro u hu
    rw [List.eq_of_mem_replicate hu]
    exact ⟨by decide, by decide⟩

theorem replicate_ne_singleton (n : Nat) (h : n ≠ 1) (u v : DcsBiosUpdate) :
    List.replicate n u ≠ [v] := by
  intro hsame
  have hlength := congrArg List.length hsame
  rw [List.length_replicate, List.length_singleton] at hlength
  exact h hlength

/-- The update that fills the address space is in the space. Its length is
    written as zero, and its bytes are read as updates without data. -/
theorem parseFrame_wholeSpace : wholeSpace.InSpace ∧
    parseFrame (syncBytes ++ encodeAll [wholeSpace]) = .ok (List.replicate 16385 ⟨0, []⟩) ∧
    parseFrame (syncBytes ++ encodeAll [wholeSpace]) ≠ .ok [wholeSpace] := by
  have hlength : wholeSpace.data.length = 65536 := List.length_replicate
  have hspace : wholeSpace.InSpace := by
    rw [DcsBiosUpdate.InSpace, hlength]
    exact ⟨rfl, rfl, le_refl _⟩
  have hbytes : encodeAll [wholeSpace] = encodeAll (List.replicate 16385 ⟨0, []⟩) := by
    rw [encodeAll_replicate, encodeAll, List.map_singleton, List.flatten_singleton]
    exact encode_replicate 65536 rfl
  rw [hbytes, parseFrame_replicate 16385 (by decide)]
  refine ⟨hspace, rfl, fun h => ?_⟩
  exact replicate_ne_singleton 16385 (by decide) _ _ (Except.ok.inj h)

end OpenFlight.DcsBios
