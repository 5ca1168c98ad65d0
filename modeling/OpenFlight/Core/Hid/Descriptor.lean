import OpenFlight.Lib.ByteBuffer

/-!
# Report Descriptors and Reports

The parser of HID report descriptors, and the values of fields in raw reports.

A descriptor is a row of items. A short item has a prefix, which holds a size
code, a type and a tag, and up to four bytes of data. Main items open and close
collections or declare a field; global and local items change what the fields
that follow will say. Global state can be pushed and popped, whatever the
collections do, and local state lasts until the next main item. A long item is
skipped.

The fields of a collection that ends go to the collection around it, so only the
outermost collections are in the result.

The loop of the source goes on while there are bytes. Here it takes a bound on
its turns. A turn consumes a byte at least, so the number of bytes is bound
enough.

A report is a row of bits, the lowest bit of the first byte first. A value has up
to 32 bits and may lie anywhere in the row. All indices are 32 bits wide, and so
is the length of the report when it is compared with them. A value that is not
inside the report is not read, so that an index is never out of bounds.

## Main definitions

* `ReportField`, `HidCollection`, `ReportDescriptor`, `DescriptorError`: What the
  parser returns.
* `ReportDescriptor.allFields`, `ReportDescriptor.axisRanges`: The fields of all
  collections, and the ranges of their axes.
-/

namespace OpenFlight.Hid

/-- `u32::saturating_add`. -/
def saturatingAdd (a b : UInt32) : UInt32 :=
  UInt32.ofNat (min (a.toNat + b.toNat) (2 ^ 32 - 1))

/-- `u32::saturating_mul`. -/
def saturatingMul (a b : UInt32) : UInt32 :=
  UInt32.ofNat (min (a.toNat * b.toNat) (2 ^ 32 - 1))

/-- Why a descriptor is refused. -/
inductive DescriptorError
  | empty
  | truncated (offset : Nat)
  | unmatchedEnd (offset : Nat)
  | unclosedCollection (count : Nat)
deriving DecidableEq

/-- The kinds of reports. -/
inductive ReportType
  | input
  | output
  | feature
deriving DecidableEq

/-- The kinds of collections. -/
inductive CollectionType
  | physical
  | application
  | logical
  | report
  | namedArray
  | usageSwitch
  | usageModifier
  | other (value : UInt32)
deriving DecidableEq

/-- `CollectionType::from_value`. -/
def CollectionType.fromValue (v : UInt32) : CollectionType :=
  match v.toNat with
  | 0x00 => .physical
  | 0x01 => .application
  | 0x02 => .logical
  | 0x03 => .report
  | 0x04 => .namedArray
  | 0x05 => .usageSwitch
  | 0x06 => .usageModifier
  | _ => .other v

/-- The flags of a field. -/
structure MainItemFlags where
  bits : UInt32
deriving DecidableEq

/-- `MainItemFlags::is_constant`. -/
def MainItemFlags.isConstant (flags : MainItemFlags) : Bool :=
  flags.bits &&& 0x01 != 0

/-- A field of a report. -/
structure ReportField where
  reportType : ReportType
  flags : MainItemFlags
  usagePage : UInt16
  usage : UInt16
  logicalMin : Int32
  logicalMax : Int32
  physicalMin : Int32
  physicalMax : Int32
  reportSize : UInt32
  reportCount : UInt32
  reportId : Option UInt8
deriving DecidableEq

namespace ReportField

/-- `usage_page::GENERIC_DESKTOP`. -/
def genericDesktop : UInt16 := 0x01

/-- `usage_page::BUTTON`. -/
def button : UInt16 := 0x09

/-- `usage_desktop::HAT_SWITCH`. -/
def hatSwitch : UInt16 := 0x39

/-- `ReportField::is_button`. -/
def isButton (field : ReportField) : Bool :=
  field.usagePage == button

/-- `ReportField::is_hat`. -/
def isHat (field : ReportField) : Bool :=
  field.usagePage == genericDesktop && field.usage == hatSwitch

/-- `ReportField::is_axis`. -/
def isAxis (field : ReportField) : Bool :=
  if field.isButton || field.isHat then false
  else decide (1 < field.reportSize)

end ReportField

/-- A collection of fields. -/
structure HidCollection where
  usagePage : UInt16
  usage : UInt16
  collectionType : CollectionType
  fields : List ReportField
deriving DecidableEq

/-- What a descriptor declares. -/
structure ReportDescriptor where
  collections : List HidCollection
  totalAxes : UInt32
  totalButtons : UInt32
  totalHats : UInt32
  reportSizeBits : UInt32
deriving DecidableEq

namespace ReportDescriptor

/-- How many axes there are. -/
def axisCount (d : ReportDescriptor) : UInt32 :=
  d.totalAxes

/-- How many buttons there are. -/
def buttonCount (d : ReportDescriptor) : UInt32 :=
  d.totalButtons

/-- How many hats there are. -/
def hatCount (d : ReportDescriptor) : UInt32 :=
  d.totalHats

/-- The logical ranges of all axes. -/
def axisRanges (d : ReportDescriptor) : List (Int32 × Int32) :=
  d.collections.flatMap fun col => col.fields.flatMap fun field =>
    if field.reportType = .input ∧ field.isAxis then
      List.replicate field.reportCount.toNat (field.logicalMin, field.logicalMax)
    else []

/-- The fields of all collections. -/
def allFields (d : ReportDescriptor) : List ReportField :=
  d.collections.flatMap HidCollection.fields

end ReportDescriptor

/-- The tags of the main items. -/
def mainInput : UInt8 := 0x08

def mainOutput : UInt8 := 0x09

def mainFeature : UInt8 := 0x0B

def mainCollection : UInt8 := 0x0A

def mainEndCollection : UInt8 := 0x0C

/-- The tags of the global items. -/
def globalUsagePage : UInt8 := 0x00

def globalLogicalMin : UInt8 := 0x01

def globalLogicalMax : UInt8 := 0x02

def globalPhysicalMin : UInt8 := 0x03

def globalPhysicalMax : UInt8 := 0x04

def globalReportSize : UInt8 := 0x07

def globalReportCount : UInt8 := 0x09

def globalReportId : UInt8 := 0x08

/-- The tag of Push, which the source writes as a literal. -/
def globalPush : UInt8 := 0x0A

/-- The tag of Pop, which the source writes as a literal. -/
def globalPop : UInt8 := 0x0B

/-- The tags of the local items. -/
def localUsage : UInt8 := 0x00

def localUsageMin : UInt8 := 0x01

def localUsageMax : UInt8 := 0x02

/-- The prefix of a long item. -/
def hidItemLong : UInt8 := 0xFE

/-- The kinds of items. -/
inductive ItemType
  | main
  | global
  | local
  | reserved
deriving DecidableEq

/-- An item with its data. -/
structure ShortItem where
  itemType : ItemType
  tag : UInt8
  data : List UInt8
  offset : Nat

/-- The length of an item's data. -/
def itemSize (sizeCode : UInt8) : Nat :=
  if sizeCode = 0 then 0
  else if sizeCode = 1 then 1
  else if sizeCode = 2 then 2
  else 4

/-- The kind of an item. -/
def itemType (typeCode : UInt8) : ItemType :=
  if typeCode = 0x00 then .main
  else if typeCode = 0x01 then .global
  else if typeCode = 0x02 then .local
  else .reserved

/-- `skip_long_item`, which returns the index after the item. -/
def skipLongItem (bytes : List UInt8) (idx offset : Nat) : Except DescriptorError Nat :=
  if bytes.length ≤ idx then .error (.truncated offset)
  else
    let dataLen := (bytes.getD idx 0).toNat
    -- The tag after the length is skipped.
    let idx := idx + 2
    if bytes.length < idx + dataLen then .error (.truncated offset)
    else .ok (idx + dataLen)

/-- `next_short_item`, at an index inside the bytes: the item, or nothing for a
    long item, and the index after it. -/
def nextShortItem (bytes : List UInt8) (idx : Nat) :
    Except DescriptorError (Option ShortItem × Nat) :=
  let header := bytes.getD idx 0
  let offset := idx
  let idx := idx + 1
  if header = hidItemLong then
    match skipLongItem bytes idx offset with
    | .error e => .error e
    | .ok idx => .ok (none, idx)
  else
    let size := itemSize (header &&& 0x03)
    if bytes.length < idx + size then .error (.truncated offset)
    else
      .ok (some
        { itemType := itemType ((header >>> 2) &&& 0x03)
          tag := (header >>> 4) &&& 0x0F
          data := slice bytes idx size
          offset := offset }, idx + size)

/-- The data as a number. -/
def readUnsigned (data : List UInt8) : UInt32 :=
  data.zipIdx.foldl (fun v b => v ||| (b.1.toUInt32 <<< UInt32.ofNat (b.2 * 8))) 0

/-- The data as a number with a sign. -/
def readSigned (data : List UInt8) : Int32 :=
  if data.isEmpty then 0
  else
    let unsigned := readUnsigned data
    let bits := data.length * 8
    if bits < 32 ∧ (unsigned >>> UInt32.ofNat (bits - 1)) &&& 1 = 1 then
      (unsigned ||| (0xFFFFFFFF <<< UInt32.ofNat bits)).toInt32
    else unsigned.toInt32

/-- What holds until it is set again. -/
structure GlobalState where
  usagePage : UInt16 := 0
  logicalMin : Int32 := 0
  logicalMax : Int32 := 0
  physicalMin : Int32 := 0
  physicalMax : Int32 := 0
  reportSize : UInt32 := 0
  reportCount : UInt32 := 0
  reportId : Option UInt8 := none
deriving DecidableEq

/-- What holds up to the next main item. -/
structure LocalState where
  usages : List UInt16 := []
  usageMin : Option UInt16 := none
  usageMax : Option UInt16 := none
deriving DecidableEq

/-- `LocalState::clear`. -/
def LocalState.clear (_ : LocalState) : LocalState :=
  { usages := [], usageMin := none, usageMax := none }

/-- `LocalState::expanded_usages`. -/
def LocalState.expandedUsages (s : LocalState) : List UInt16 :=
  match s.usageMin, s.usageMax with
  | some min, some max =>
      let (lo, hi) := if min ≤ max then (min, max) else (max, min)
      (List.range' lo.toNat (hi.toNat + 1 - lo.toNat)).map UInt16.ofNat
  | _, _ => s.usages

/-- The counts of what was declared. -/
structure DescriptorStats where
  totalAxes : UInt32 := 0
  totalButtons : UInt32 := 0
  totalHats : UInt32 := 0
  reportBits : UInt32 := 0
deriving DecidableEq

/-- The counts of `account_field`. -/
def DescriptorStats.accountKind (s : DescriptorStats) (field : ReportField) : DescriptorStats :=
  if field.flags.isConstant then s
  else if field.isButton then
    { s with totalButtons := saturatingAdd s.totalButtons field.reportCount }
  else if field.isHat then { s with totalHats := saturatingAdd s.totalHats field.reportCount }
  else if field.isAxis then { s with totalAxes := saturatingAdd s.totalAxes field.reportCount }
  else s

/-- `DescriptorStats::account_field`. -/
def DescriptorStats.accountField (s : DescriptorStats) (field : ReportField) : DescriptorStats :=
  if field.reportType ≠ .input then s
  else
    let s := s.accountKind field
    { s with
      reportBits :=
        saturatingAdd s.reportBits (saturatingMul field.reportSize field.reportCount) }

/-- `ParserState`. The last element of a stack is its top. -/
structure ParserState where
  global : GlobalState := {}
  locals : LocalState := {}
  globalStack : List GlobalState := []
  collectionStack : List HidCollection := []
  finishedCollections : List HidCollection := []
  stats : DescriptorStats := {}
deriving DecidableEq

namespace ParserState

/-- A field with the state in force at its item. -/
def fieldFromCurrentState (s : ParserState) (reportType : ReportType) (data : List UInt8) :
    ReportField :=
  { reportType := reportType
    flags := ⟨readUnsigned data⟩
    usagePage := s.global.usagePage
    usage := s.locals.expandedUsages.head?.getD 0
    logicalMin := s.global.logicalMin
    logicalMax := s.global.logicalMax
    physicalMin := s.global.physicalMin
    physicalMax := s.global.physicalMax
    reportSize := s.global.reportSize
    reportCount := s.global.reportCount
    reportId := s.global.reportId }

/-- `collection_stack.last_mut()`, and a push or an extension of its fields. -/
def extendLast (stack : List HidCollection) (fields : List ReportField) : List HidCollection :=
  match stack.getLast? with
  | none => stack
  | some collection =>
      stack.dropLast ++ [{ collection with fields := collection.fields ++ fields }]

/-- A field is declared. -/
def handleFieldItem (s : ParserState) (item : ShortItem) : ParserState :=
  let reportType :=
    if item.tag = mainInput then .input
    else if item.tag = mainOutput then .output
    else .feature
  let field := s.fieldFromCurrentState reportType item.data
  -- The statistics count the field also where no collection takes it.
  { s with
    stats := s.stats.accountField field
    collectionStack := extendLast s.collectionStack [field]
    locals := s.locals.clear }

/-- A collection is opened. -/
def startCollection (s : ParserState) (data : List UInt8) : ParserState :=
  let collection : HidCollection :=
    { usagePage := s.global.usagePage
      usage := s.locals.expandedUsages.head?.getD 0
      collectionType := CollectionType.fromValue (readUnsigned data)
      fields := [] }
  { s with
    collectionStack := s.collectionStack ++ [collection]
    locals := s.locals.clear }

/-- The innermost collection is closed. -/
def endCollection (s : ParserState) (offset : Nat) : Except DescriptorError ParserState :=
  match s.collectionStack.getLast? with
  | none => .error (.unmatchedEnd offset)
  | some collection =>
      let stack := s.collectionStack.dropLast
      if stack.isEmpty then
        .ok { s with
          collectionStack := stack
          finishedCollections := s.finishedCollections ++ [collection]
          locals := s.locals.clear }
      else
        -- Of an inner collection only the fields are kept.
        .ok { s with
          collectionStack := extendLast stack collection.fields
          locals := s.locals.clear }

/-- A field, or one end of a collection. -/
def handleMainItem (s : ParserState) (item : ShortItem) : Except DescriptorError ParserState :=
  if item.tag = mainInput ∨ item.tag = mainOutput ∨ item.tag = mainFeature then
    .ok (s.handleFieldItem item)
  else if item.tag = mainCollection then .ok (s.startCollection item.data)
  else if item.tag = mainEndCollection then s.endCollection item.offset
  else .ok { s with locals := s.locals.clear }

/-- What holds from here on. -/
def handleGlobalItem (s : ParserState) (item : ShortItem) : ParserState :=
  if item.tag = globalUsagePage then
    { s with global.usagePage := (readUnsigned item.data).toUInt16 }
  else if item.tag = globalLogicalMin then
    { s with global.logicalMin := readSigned item.data }
  else if item.tag = globalLogicalMax then
    { s with global.logicalMax := readSigned item.data }
  else if item.tag = globalPhysicalMin then
    { s with global.physicalMin := readSigned item.data }
  else if item.tag = globalPhysicalMax then
    { s with global.physicalMax := readSigned item.data }
  else if item.tag = globalReportSize then
    { s with global.reportSize := readUnsigned item.data }
  else if item.tag = globalReportCount then
    { s with global.reportCount := readUnsigned item.data }
  else if item.tag = globalReportId then
    { s with global.reportId := some (readUnsigned item.data).toUInt8 }
  else if item.tag = globalPush then { s with globalStack := s.globalStack ++ [s.global] }
  else if item.tag = globalPop then
    match s.globalStack.getLast? with
    | none => s
    | some global => { s with globalStack := s.globalStack.dropLast, global := global }
  else s

/-- What holds for the next field. -/
def handleLocalItem (s : ParserState) (item : ShortItem) : ParserState :=
  if item.tag = localUsage then
    { s with locals.usages := s.locals.usages ++ [(readUnsigned item.data).toUInt16] }
  else if item.tag = localUsageMin then
    { s with locals.usageMin := some (readUnsigned item.data).toUInt16 }
  else if item.tag = localUsageMax then
    { s with locals.usageMax := some (readUnsigned item.data).toUInt16 }
  else s

/-- The effect of an item. -/
def handleItem (s : ParserState) (item : ShortItem) : Except DescriptorError ParserState :=
  match item.itemType with
  | .main => s.handleMainItem item
  | .global => .ok (s.handleGlobalItem item)
  | .local => .ok (s.handleLocalItem item)
  | .reserved => .ok s

/-- All collections have to be closed. -/
def finish (s : ParserState) : Except DescriptorError ReportDescriptor :=
  if ¬ s.collectionStack.isEmpty then .error (.unclosedCollection s.collectionStack.length)
  else
    .ok
      { collections := s.finishedCollections
        totalAxes := s.stats.totalAxes
        totalButtons := s.stats.totalButtons
        totalHats := s.stats.totalHats
        reportSizeBits := s.stats.reportBits }

end ParserState

/-- The loop of `parse_descriptor`, for at most `fuel` turns. -/
def parseItems (bytes : List UInt8) : Nat → Nat → ParserState → Except DescriptorError ParserState
  -- A turn takes a byte at least, so as many turns as bytes are enough.
  | 0, _, parser => .ok parser
  | fuel + 1, idx, parser =>
      if bytes.length ≤ idx then .ok parser
      else
        match nextShortItem bytes idx with
        | .error e => .error e
        | .ok (none, idx) => parseItems bytes fuel idx parser
        | .ok (some item, idx) =>
            match parser.handleItem item with
            | .error e => .error e
            | .ok parser => parseItems bytes fuel idx parser

/-- A descriptor. -/
def parseDescriptor (bytes : List UInt8) : Except DescriptorError ReportDescriptor :=
  if bytes.isEmpty then .error .empty
  else
    match parseItems bytes bytes.length 0 {} with
    | .error e => .error e
    | .ok parser => parser.finish

/-- `u32::checked_add`. -/
def checkedAdd (a b : UInt32) : Option UInt32 :=
  if a.toNat + b.toNat < 2 ^ 32 then some (a + b) else none

/-- `u32::div_ceil`. -/
def divCeil (a b : UInt32) : UInt32 :=
  if a % b > 0 then a / b + 1 else a / b

/-- The body of the loop of `extract_bits`. -/
def extractBit (report : List UInt8) (bitOffset value i : UInt32) : UInt32 :=
  let absBit := bitOffset + i
  let byteIdx := (absBit / 8).toNat
  let bitIdx := absBit % 8
  if (report.getD byteIdx 0 >>> bitIdx.toUInt8) &&& 1 = 1 then value ||| (1 <<< i) else value

/-- The bits of a field in a report. -/
def extractBits (report : List UInt8) (bitOffset bitSize : UInt32) : Option UInt32 :=
  if bitSize = 0 ∨ bitSize > 32 then none
  else
    match checkedAdd bitOffset bitSize with
    | none => none
    | some endBit =>
        let neededBytes := divCeil endBit 8
        if UInt32.ofNat report.length < neededBytes then none
        else
          some ((List.range bitSize.toNat).foldl
            (fun value i => extractBit report bitOffset value (UInt32.ofNat i)) 0)

/-- The same, with a sign. -/
def extractBitsSigned (report : List UInt8) (bitOffset bitSize : UInt32) : Option Int32 :=
  match extractBits report bitOffset bitSize with
  | none => none
  | some raw =>
      if bitSize ≥ 32 then some raw.toInt32
      else if (raw >>> (bitSize - 1)) &&& 1 = 1 then
        some (raw ||| (0xFFFFFFFF <<< bitSize)).toInt32
      else some raw.toInt32

end OpenFlight.Hid
