import OpenFlight.Lib.ByteBuffer
import OpenFlight.Lib.Run

/-!
# The Recording Task

The blackbox writer as a machine: a handle that submits records to a bounded
channel, the task that takes them out and writes them to the file, and the
reader that reads the file back.

The handle and the task run side by side and share the channel and the flag
`running`. A step of the machine is one action of either: a call of the handle,
or one thing the task does between two points at which the other side can act.
In the loop these are the check of the flag and the choice that `select!` makes,
a record when there is one or a tick of the flush interval at any time. A step
that cannot be taken where it stands changes nothing. The `else` of the choice is
left out: a tick is never ruled out, so it is not reached.

`stop` has the handle to itself until it returns, so while it waits for the task
nothing is submitted. The records that are still in the channel when the task
ends go with it; no step looks at them again, and they stay in `queue`.

Operations of the file system succeed. The encodings of a header and of a record
are parameters.

## Main definitions

* `Task`, `BlackboxWriter`: The task, and the whole recorder.
* `Event`, `BlackboxWriter.step`: The actions of both sides.
-/

namespace OpenFlight.Blackbox

/-- The streams of a file. -/
inductive StreamType
  | axisFrames
  | busSnapshots
  | events
deriving DecidableEq

/-- The header of a file. -/
structure BlackboxHeader where
  magic : UInt8 × UInt8 × UInt8 × UInt8
  endianMarker : UInt32
  formatVersion : UInt32
  appVersion : String
  timebaseNs : UInt64
  simId : String
  aircraftId : String
  recordingMode : String
  startTimestamp : UInt64
deriving DecidableEq

/-- An entry of a stream. -/
structure BlackboxRecord where
  timestampNs : UInt64
  streamType : StreamType
  data : List UInt8
deriving DecidableEq

/-- What the calls of the writer return. -/
inductive BlackboxError
  | alreadyStarted
  | notStarted
  | bufferOverflow
deriving DecidableEq

/-- `record_queue_capacity`, with `RECORD_QUEUE_DIVISOR` and `RECORD_QUEUE_MAX`. -/
def recordQueueCapacity (bufferSize : Nat) : Nat :=
  max 1 (min (bufferSize / 128) 8192)

/-- A file, and the bytes in front of it that are not written yet. -/
structure BufWriter where
  file : List UInt8
  buffer : List UInt8
deriving DecidableEq

/-- `BufWriter::new`, over a file that was just created. -/
def BufWriter.new : BufWriter where
  file := []
  buffer := []

/-- The size of the buffer. -/
def BufWriter.capacity : Nat := 8192

/-- What is buffered goes to the file. -/
def BufWriter.flush (w : BufWriter) : BufWriter where
  file := w.file ++ w.buffer
  buffer := []

/-- `write_all`: the buffer is flushed if the data does not fit behind what is
    in it, and passed by if the data does not fit at all. -/
def BufWriter.writeAll (w : BufWriter) (data : List UInt8) : BufWriter :=
  let w := if BufWriter.capacity - w.buffer.length < data.length then w.flush else w
  if BufWriter.capacity ≤ data.length then { w with file := w.file ++ data }
  else { w with buffer := w.buffer ++ data }

/-- A length in four bytes and then the payload, as two writes. -/
def BufWriter.writeFrame (w : BufWriter) (payload : List UInt8) : BufWriter :=
  (w.writeAll (toLe 4 payload.length)).writeAll payload

/-- How far the writer task is. -/
inductive Task
  /-- Not spawned; the receiver is still with the handle. -/
  | unspawned
  /-- Spawned, and has not run yet. -/
  | spawned (header : BlackboxHeader)
  /-- At the head of the loop. -/
  | checking (writer : BufWriter)
  /-- In `select!`. -/
  | selecting (writer : BufWriter)
  /-- Behind the loop. -/
  | closing (writer : BufWriter)
  | finished (file : List UInt8)
deriving DecidableEq

/-- How far a call of `stop` that found a running task is. -/
inductive Stop
  | notCalled
  | awaiting
  | returned
deriving DecidableEq

/-- The handle with everything it shares with the task. -/
structure BlackboxWriter where
  /-- The capacity of the channel. -/
  capacity : Nat
  /-- The records in the channel, the oldest first. -/
  queue : List BlackboxRecord
  running : Bool
  dropCounter : UInt64
  task : Task
  stopping : Stop

/-- What `start` is called with, and what it reads from the clocks. -/
structure StartArgs where
  appVersion : String
  simId : String
  aircraftId : String
  mode : String
  timebaseNs : UInt64
  startTimestamp : UInt64

/-- `BlackboxWriter::new`. -/
def BlackboxWriter.new (bufferSize : Nat) : BlackboxWriter where
  capacity := recordQueueCapacity bufferSize
  queue := []
  running := false
  dropCounter := 0
  task := .unspawned
  stopping := .notCalled

/-- The header that `start_internal` puts together: `FBB_MAGIC`,
    `FBB_ENDIAN_MARKER`, `FBB_FORMAT_VERSION` and the arguments. -/
def StartArgs.header (args : StartArgs) : BlackboxHeader where
  magic := (0x46, 0x42, 0x42, 0x31)
  endianMarker := 0x12345678
  formatVersion := 2
  appVersion := args.appVersion
  timebaseNs := args.timebaseNs
  simId := args.simId
  aircraftId := args.aircraftId
  recordingMode := args.mode
  startTimestamp := args.startTimestamp

/-- `start_internal`. The receiver is taken by the first call that gets to it. -/
def BlackboxWriter.start (self : BlackboxWriter) (args : StartArgs) :
    Except BlackboxError Unit × BlackboxWriter :=
  if self.running then (.error .alreadyStarted, self)
  else
    match self.task with
    | .unspawned => (.ok (), { self with running := true, task := .spawned args.header })
    | _ => (.error .alreadyStarted, self)

/-- `try_send` fails if the channel is full, or closed because the task that had
    the receiver is over. -/
def BlackboxWriter.trySendFails (self : BlackboxWriter) : Bool :=
  match self.task with
  | .finished _ => true
  | _ => self.capacity ≤ self.queue.length

/-- A record is put into the channel. -/
def BlackboxWriter.submit (self : BlackboxWriter) (record : BlackboxRecord) :
    Except BlackboxError Unit × BlackboxWriter :=
  if self.trySendFails then
    (.error .bufferOverflow, { self with dropCounter := self.dropCounter + 1 })
  else (.ok (), { self with queue := self.queue ++ [record] })

/-- `stop`, up to the point at which it waits for the task. -/
def BlackboxWriter.stop (self : BlackboxWriter) : Except BlackboxError Unit × BlackboxWriter :=
  if !self.running then (.error .notStarted, self)
  else (.ok (), { self with running := false, stopping := .awaiting })

/-- One action, of the handle or of the task. -/
inductive Event
  | start (args : StartArgs)
  | submit (record : BlackboxRecord)
  | stop
  /-- The task is over and `stop` returns. -/
  | stopReturns
  /-- The task creates the file and writes the header. -/
  | opens
  /-- The task checks `running`. -/
  | checks
  /-- The task receives a record and writes it. -/
  | receives
  /-- The flush interval ticks. -/
  | ticks
  /-- The task flushes the file for the last time and ends. -/
  | closes

section

variable (headerCodec : Codec BlackboxHeader) (recordCodec : Codec BlackboxRecord)

/-- `WriterState::write_record`. -/
def writeRecord (writer : BufWriter) (record : BlackboxRecord) : BufWriter :=
  writer.writeFrame (recordCodec.encode record)

/-- A call of the handle, which is only possible while `stop` has not taken it. -/
def BlackboxWriter.call (self : BlackboxWriter) (after : BlackboxWriter) : BlackboxWriter :=
  if self.stopping = .awaiting then self else after

/-- An action of the machine; one that is not possible changes nothing. -/
def BlackboxWriter.step (self : BlackboxWriter) : Event → BlackboxWriter
  | .start args => self.call (self.start args).2
  | .submit record => self.call (self.submit record).2
  | .stop => self.call self.stop.2
  | .stopReturns =>
      match self.stopping, self.task with
      | .awaiting, .finished _ => { self with stopping := .returned }
      | _, _ => self
  | .opens =>
      match self.task with
      | .spawned header =>
          { self with task := .checking (BufWriter.new.writeFrame (headerCodec.encode header)) }
      | _ => self
  | .checks =>
      match self.task with
      | .checking writer =>
          { self with task := if self.running then .selecting writer else .closing writer }
      | _ => self
  | .receives =>
      match self.task, self.queue with
      | .selecting writer, record :: rest =>
          { self with queue := rest, task := .checking (writeRecord recordCodec writer record) }
      | _, _ => self
  | .ticks =>
      match self.task with
      | .selecting writer => { self with task := .checking writer.flush }
      | _ => self
  | .closes =>
      match self.task with
      | .closing writer => { self with task := .finished writer.flush.file }
      | _ => self

/-- The record that an action has accepted, before `stop` was called. -/
def acceptedBy (self : BlackboxWriter) : Event → List BlackboxRecord
  | .submit record =>
      if self.stopping = .notCalled ∧ (self.submit record).1 = .ok () then [record] else []
  | _ => []

/-- The records for which `submit` returned `Ok` before `stop` was called. -/
def accepted : BlackboxWriter → List Event → List BlackboxRecord
  | _, [] => []
  | self, e :: rest =>
      acceptedBy self e ++ accepted (self.step headerCodec recordCodec e) rest

end

section

/-- What reading a file may fail with. -/
inductive ReadError
  /-- The file ends within a payload. -/
  | unexpectedEof
  /-- `postcard::from_bytes` fails. -/
  | postcard
deriving DecidableEq

variable {α : Type} (headerCodec : Codec BlackboxHeader) (recordCodec : Codec BlackboxRecord)

/-- `postcard::from_bytes`, which does not mind what follows the value. -/
def fromBytes (codec : Codec α) (payload : List UInt8) : Except ReadError α :=
  match codec.decode payload with
  | some (value, _) => .ok value
  | none => .error .postcard

/-- A payload behind its length, and the rest of the file. -/
def readPayload (codec : Codec α) (file : List UInt8) : Except ReadError (α × List UInt8) :=
  let len := ofLe (file.take 4)
  let rest := file.drop 4
  if rest.length < len then .error .unexpectedEof
  else (fromBytes codec (rest.take len)).map fun value => (value, rest.drop len)

/-- `next_record`: the end of the file within a length counts as its end. -/
def nextRecord (file : List UInt8) : Except ReadError (Option (BlackboxRecord × List UInt8)) :=
  if file.length < 4 then .ok none
  else (readPayload recordCodec file).map some

/-- The header of a file, and what follows. -/
def readHeader (file : List UInt8) : Except ReadError (BlackboxHeader × List UInt8) :=
  if file.length < 4 then .error .unexpectedEof else readPayload headerCodec file

/-- `next_record` until it returns `Ok(None)`. Each call but the last uses up
    four bytes, so a limit above the length of the file is never reached. -/
def readRecords : Nat → List UInt8 → Except ReadError (List BlackboxRecord)
  | 0, _ => .error .unexpectedEof
  | fuel + 1, file =>
      match nextRecord recordCodec file with
      | .error e => .error e
      | .ok none => .ok []
      | .ok (some (record, rest)) => (readRecords fuel rest).map (record :: ·)

/-- A file opened and read to its end. -/
def readBack (file : List UInt8) : Except ReadError (List BlackboxRecord) :=
  match readHeader headerCodec file with
  | .error e => .error e
  | .ok (_, rest) => readRecords recordCodec (rest.length + 1) rest

end

end OpenFlight.Blackbox
