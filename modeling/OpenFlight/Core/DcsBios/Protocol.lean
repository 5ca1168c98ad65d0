import OpenFlight.Lib.ByteBuffer
import OpenFlight.Lib.Overlay
import OpenFlight.Lib.Utf8
import Mathlib.Data.List.DropRight

/-!
# The Export Protocol of the Cockpit

Frames of updates to the memory map of a cockpit, and the map itself.

A frame starts with four sync bytes, followed by updates: an address and a
length, each a little-endian word, and as many bytes of data. The frame ends
with its bytes or where the sync bytes of the next frame stand in the place of a
header.

The loop of the source goes by an offset into the data. Here it goes by what is
left of the data, and the offset is kept for the errors, which name it. The loop
takes a bound on its turns. A turn consumes a header at least, so the number of
bytes is bound enough.

The memory is a byte for each address. An update that does not fit in the
address space is ignored, so no other address is written. A change is recorded
for the word that the byte belongs to, until the changes are cleared. The
controls of an aircraft are read from the memory. An assertion of the source that
fails is `none` here, outside the optional value that the function returns.

## Main definitions

* `DcsBiosUpdate`, `ParseError`: An update, and what can be wrong with a frame.
* `applyUpdate`, `clearChanges`, `reset`: The calls that change a state.
-/

namespace OpenFlight.DcsBios

def syncBytes : List UInt8 := [0x55, 0x55, 0x55, 0x55]

def addressSpaceSize : Nat := 65536

def maxUpdateLength : UInt16 := 0xFFFE

/-- Why a frame is refused. -/
inductive ParseError
  | missingSync
  | incompleteHeader (offset : Nat)
  | incompleteData (offset : Nat) (expected : UInt16) (available : Nat)
  | misalignedAddress (address : UInt16) (offset : Nat)
  | oddLength (length : UInt16) (offset : Nat)
  | addressOverflow (address : UInt16) (length : UInt16)
  | emptyFrame
deriving DecidableEq

/-- Bytes at an address. -/
structure DcsBiosUpdate where
  address : UInt16
  data : List UInt8
deriving DecidableEq

/-- The update at an offset and what comes after it. -/
def parseUpdate (offset : Nat) (rest : List UInt8) :
    Except ParseError (DcsBiosUpdate × List UInt8) :=
  if rest.length < 4 then .error (.incompleteHeader offset)
  else
    let address := u16FromLe (slice rest 0 2)
    let length := u16FromLe (slice rest 2 2)
    let rest := rest.drop 4
    if address.toNat % 2 ≠ 0 then .error (.misalignedAddress address offset)
    else if length.toNat % 2 ≠ 0 then .error (.oddLength length offset)
    else if maxUpdateLength < length then .error (.addressOverflow address length)
    else if addressSpaceSize < address.toNat + length.toNat then
      .error (.addressOverflow address length)
    else if rest.length < length.toNat then
      .error (.incompleteData (offset + 4) length rest.length)
    else
      .ok ({ address := address, data := rest.take length.toNat }, rest.drop length.toNat)

/-- The loop of `parse_frame`, for at most `fuel` turns. -/
def parseUpdates : Nat → Nat → List UInt8 → Except ParseError (List DcsBiosUpdate)
  | 0, _, _ => .ok []
  | fuel + 1, offset, rest =>
      if rest.isEmpty then .ok []
      -- The next frame starts here.
      else if syncBytes.isPrefixOf rest then .ok []
      else
        match parseUpdate offset rest with
        | .error e => .error e
        | .ok (update, rest) =>
            match parseUpdates fuel (offset + 4 + update.data.length) rest with
            | .error e => .error e
            | .ok updates => .ok (update :: updates)

/-- A frame. -/
def parseFrame (data : List UInt8) : Except ParseError (List DcsBiosUpdate) :=
  if data.length < 4 ∨ data.take 4 ≠ syncBytes then .error .missingSync
  else
    match parseUpdates data.length 4 (data.drop 4) with
    | .error e => .error e
    | .ok [] => .error .emptyFrame
    | .ok updates => .ok updates

/-- `find_sync_positions`, which looks at every position. -/
def findSyncPositions (data : List UInt8) : List Nat :=
  if data.length < 4 then []
  else (List.range (data.length - 4 + 1)).filter fun i => slice data i 4 == syncBytes

/-- Some bits of a word. -/
structure DcsBiosAddress where
  address : UInt16
  mask : UInt16
  shift : UInt8

/-- `DcsBiosAddress::decode`, `none` where the shift is asserted to be below 16 and is not. -/
def DcsBiosAddress.decode (a : DcsBiosAddress) (word : UInt16) : Option UInt16 :=
  if a.shift < 16 then some ((word &&& a.mask) >>> a.shift.toUInt16) else none

/-- How an output is stored. -/
inductive OutputType
  | integer (a : DcsBiosAddress)
  | string (address maxLength : UInt16)

/-- The outputs of a control. -/
structure DcsBiosControl where
  outputs : List OutputType

/-- The controls of an aircraft and their outputs. -/
structure DcsBiosModule where
  controls : HashMap String DcsBiosControl

/-- A control by its identifier. -/
def DcsBiosModule.getControl (module : DcsBiosModule) (identifier : String) :
    Option DcsBiosControl :=
  module.controls.lookup identifier

/-- The address of an integer output. -/
def OutputType.integer? : OutputType → Option DcsBiosAddress
  | .integer a => some a
  | .string _ _ => none

/-- Address and length of a string output. -/
def OutputType.string? : OutputType → Option (UInt16 × UInt16)
  | .integer _ => none
  | .string address maxLength => some (address, maxLength)

/-- The first integer output of a control. -/
def DcsBiosModule.integerOutput (module : DcsBiosModule) (identifier : String) :
    Option DcsBiosAddress :=
  (module.getControl identifier).bind fun c => c.outputs.findSome? OutputType.integer?

/-- The first string output of a control. -/
def DcsBiosModule.stringOutput (module : DcsBiosModule) (identifier : String) :
    Option (UInt16 × UInt16) :=
  (module.getControl identifier).bind fun c => c.outputs.findSome? OutputType.string?

/-- `trim_end_matches('\0')`. -/
def trimEndNul (s : List Char) : List Char :=
  s.rdropWhile (· = '\x00')

/-- The memory and its changed words. -/
structure DcsBiosState where
  memory : Nat → UInt8
  changedAddresses : Finset UInt16
  updateCount : Nat

namespace DcsBiosState

/-- A memory of zeros. -/
def new : DcsBiosState :=
  { memory := fun _ => 0, changedAddresses := ∅, updateCount := 0 }

/-- `(addr & !1) as u16`. -/
def wordAddress (addr : Nat) : UInt16 :=
  UInt16.ofNat (addr / 2 * 2)

/-- The body of the loop of `apply_update`. -/
def writeByte (s : DcsBiosState) (addr : Nat) (byte : UInt8) : DcsBiosState :=
  if s.memory addr ≠ byte then
    { s with
      memory := Function.update s.memory addr byte
      changedAddresses := insert (wordAddress addr) s.changedAddresses }
  else s

/-- The loop of `apply_update`. -/
def writeBytes (s : DcsBiosState) : Nat → List UInt8 → DcsBiosState
  | _, [] => s
  | addr, byte :: rest => writeBytes (s.writeByte addr byte) (addr + 1) rest

/-- The bytes of an update in the memory. -/
def applyUpdate (s : DcsBiosState) (update : DcsBiosUpdate) : DcsBiosState :=
  let start := update.address.toNat
  let stop := start + update.data.length
  if addressSpaceSize < stop then s
  else
    let s := s.writeBytes start update.data
    { s with updateCount := s.updateCount + 1 }

/-- Updates in a row. -/
def applyUpdates (s : DcsBiosState) (updates : List DcsBiosUpdate) : DcsBiosState :=
  updates.foldl applyUpdate s

/-- No word counts as changed. -/
def clearChanges (s : DcsBiosState) : DcsBiosState :=
  { s with changedAddresses := ∅ }

/-- Clear the memory and the counts. -/
def reset (s : DcsBiosState) : DcsBiosState :=
  { s with memory := fun _ => 0, changedAddresses := ∅, updateCount := 0 }

/-- A word of the memory. -/
def readU16 (s : DcsBiosState) (address : UInt16) : Option UInt16 :=
  let addr := address.toNat
  if addressSpaceSize < addr + 2 ∨ addr % 2 ≠ 0 then none
  else some (u16FromLe [s.memory addr, s.memory (addr + 1)])

/-- `read_integer`; the outer `none` is a failed assertion of `decode`. -/
def readInteger (s : DcsBiosState) (module : DcsBiosModule) (identifier : String) :
    Option (Option UInt16) :=
  match module.integerOutput identifier with
  | none => some none
  | some a =>
      match s.readU16 a.address with
      | none => some none
      | some word => (a.decode word).map some

/-- `&self.memory[start..end]`. -/
def bytes (s : DcsBiosState) (start length : Nat) : List UInt8 :=
  (List.range' start length).map s.memory

/-- The text of a control. -/
def readString (s : DcsBiosState) (module : DcsBiosModule) (identifier : String) : Option String :=
  match module.stringOutput identifier with
  | none => none
  | some (address, maxLength) =>
      let start := address.toNat
      let stop := start + maxLength.toNat
      if addressSpaceSize < stop then none
      else some (String.ofList (trimEndNul (fromUtf8Lossy (s.bytes start maxLength.toNat))))

end DcsBiosState

/-- `u16::saturating_add`. -/
def saturatingAdd (a b : UInt16) : UInt16 :=
  UInt16.ofNat (min (a.toNat + b.toNat) 65535)

/-- The loop of `changed_controls` over the words of a string, for at most `fuel` turns. -/
def scanWords (changed : Finset UInt16) (stop : UInt16) : Nat → UInt16 → Bool
  | 0, _ => false
  | fuel + 1, addr =>
      if addr < stop then
        if addr ∈ changed then true
        else scanWords changed stop fuel (saturatingAdd addr 2)
      else false

/-- Whether an output has a changed word. The words of a string start at the word
    of its first byte, and a turn of the loop goes to the next one, so it has no
    more turns than there are addresses. -/
def DcsBiosState.outputChanged (s : DcsBiosState) : OutputType → Bool
  | .integer a => a.address ∈ s.changedAddresses
  | .string address maxLength =>
      scanWords s.changedAddresses (saturatingAdd address maxLength) addressSpaceSize
        (DcsBiosState.wordAddress address.toNat)

/-- `changed_controls`, for an order of going through the controls. -/
def DcsBiosState.changedControls (s : DcsBiosState) (order : Iteration String DcsBiosControl)
    (module : DcsBiosModule) : List String :=
  ((order.entries module.controls).filter fun entry =>
    entry.2.outputs.any s.outputChanged).map Sigma.fst

end OpenFlight.DcsBios
