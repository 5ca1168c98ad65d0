import OpenFlight.Core.Blackbox.Writer

/-!
# What a Recording Holds

When `stop` has returned, the file holds what the task had written by the time
it left its loop. The task leaves it at the first check that finds the flag
cleared, whatever is in the channel, and the records in the channel are lost
then. So a recording is complete exactly if the channel is empty at that check.

Up to the check no record is lost, repeated or moved: the records accepted so
far are those in the file followed by those in the channel, after every action
of either side. Reading a file that holds a header and a row of records gives
the records back.

## Main definitions

* `Sound`, `Tracks`: The invariants of the machine.
* `Drained`: A check that leaves the loop finds the channel empty.

## Theorems

* `recording_complete_iff`: The file has the accepted records exactly if the
  channel was empty when the task left its loop.
* `recording_loses_record`: A recording that is stopped with a record queued.
-/

namespace OpenFlight.Blackbox

/-- A payload behind its length. -/
def frame (payload : List UInt8) : List UInt8 :=
  toLe 4 payload.length ++ payload

/-- What has been written to a file, the buffer included. -/
def BufWriter.contents (w : BufWriter) : List UInt8 :=
  w.file ++ w.buffer

theorem contents_flush (w : BufWriter) : w.flush.contents = w.contents := by
  simp [BufWriter.contents, BufWriter.flush]

theorem contents_writeAll (w : BufWriter) (data : List UInt8) :
    (w.writeAll data).contents = w.contents ++ data := by
  unfold BufWriter.writeAll
  by_cases hflush : BufWriter.capacity - w.buffer.length < data.length
  · rw [if_pos hflush]
    split <;> simp [BufWriter.contents, BufWriter.flush]
  · rw [if_neg hflush]
    split
    · -- The data fits behind the buffer and fills it, so the buffer is empty.
      have hempty : w.buffer = [] := List.length_eq_zero_iff.mp (by
        have hcap : BufWriter.capacity = 8192 := rfl
        omega)
      simp [BufWriter.contents, hempty]
    · simp [BufWriter.contents]

theorem contents_writeFrame (w : BufWriter) (payload : List UInt8) :
    (w.writeFrame payload).contents = w.contents ++ frame payload := by
  unfold BufWriter.writeFrame frame
  rw [contents_writeAll, contents_writeAll, List.append_assoc]

section

variable (headerCodec : Codec BlackboxHeader) (recordCodec : Codec BlackboxRecord)

/-- The actions that do something, each with where it can be taken. -/
inductive Moves (s : BlackboxWriter) : Event → BlackboxWriter → Prop
  | started (args : StartArgs) (htask : s.task = .unspawned) :
      Moves s (.start args) { s with running := true, task := .spawned args.header }
  | accepted (record : BlackboxRecord) (hcall : s.stopping ≠ .awaiting)
      (hroom : s.trySendFails = false) :
      Moves s (.submit record) { s with queue := s.queue ++ [record] }
  | dropped (record : BlackboxRecord) (hfull : s.trySendFails = true) :
      Moves s (.submit record) { s with dropCounter := s.dropCounter + 1 }
  | stopCalled (hcall : s.stopping ≠ .awaiting) (hrunning : s.running = true) :
      Moves s .stop { s with running := false, stopping := .awaiting }
  | stopReturned (file : List UInt8) (htask : s.task = .finished file)
      (hstop : s.stopping = .awaiting) :
      Moves s .stopReturns { s with stopping := .returned }
  | opened (header : BlackboxHeader) (htask : s.task = .spawned header) :
      Moves s .opens
        { s with task := .checking (BufWriter.new.writeFrame (headerCodec.encode header)) }
  | entered (writer : BufWriter) (htask : s.task = .checking writer) (hrunning : s.running = true) :
      Moves s .checks { s with task := .selecting writer }
  | left (writer : BufWriter) (htask : s.task = .checking writer) (hrunning : s.running = false) :
      Moves s .checks { s with task := .closing writer }
  | received (writer : BufWriter) (record : BlackboxRecord) (rest : List BlackboxRecord)
      (htask : s.task = .selecting writer) (hqueue : s.queue = record :: rest) :
      Moves s .receives
        { s with queue := rest, task := .checking (writeRecord recordCodec writer record) }
  | ticked (writer : BufWriter) (htask : s.task = .selecting writer) :
      Moves s .ticks { s with task := .checking writer.flush }
  | closed (writer : BufWriter) (htask : s.task = .closing writer) :
      Moves s .closes { s with task := .finished writer.flush.file }

variable (s : BlackboxWriter)

/-- Every action that does something is one of `Moves`. -/
theorem step_moves (e : Event) : s.step headerCodec recordCodec e = s ∧ acceptedBy s e = [] ∨
    Moves headerCodec recordCodec s e (s.step headerCodec recordCodec e) := by
  -- The calls do nothing while one is awaited, and the events of the task nothing out of turn.
  cases e with
  | start args =>
      simp only [BlackboxWriter.step, BlackboxWriter.call, BlackboxWriter.start]
      by_cases hcall : s.stopping = .awaiting
      · rw [if_pos hcall]
        exact Or.inl ⟨rfl, rfl⟩
      · rw [if_neg hcall]
        by_cases hrunning : s.running = true
        · rw [if_pos hrunning]
          exact Or.inl ⟨rfl, rfl⟩
        · rw [if_neg hrunning]
          cases htask : s.task with
          | unspawned => exact Or.inr (.started args htask)
          | _ => exact Or.inl ⟨rfl, rfl⟩
  | submit record =>
      simp only [BlackboxWriter.step, BlackboxWriter.call, BlackboxWriter.submit]
      by_cases hcall : s.stopping = .awaiting
      · rw [if_pos hcall]
        exact Or.inl ⟨rfl, by simp [acceptedBy, hcall]⟩
      · rw [if_neg hcall]
        cases hfull : s.trySendFails with
        | true => exact Or.inr (.dropped record hfull)
        | false => exact Or.inr (.accepted record hcall hfull)
  | stop =>
      simp only [BlackboxWriter.step, BlackboxWriter.call, BlackboxWriter.stop]
      by_cases hcall : s.stopping = .awaiting
      · rw [if_pos hcall]
        exact Or.inl ⟨rfl, rfl⟩
      · rw [if_neg hcall]
        cases hrunning : s.running with
        | true => exact Or.inr (.stopCalled hcall hrunning)
        | false => exact Or.inl ⟨rfl, rfl⟩
  | stopReturns =>
      simp only [BlackboxWriter.step]
      split
      · rename_i file hstop htask
        exact Or.inr (.stopReturned file htask hstop)
      · exact Or.inl ⟨rfl, rfl⟩
  | opens =>
      simp only [BlackboxWriter.step]
      split
      · rename_i header htask
        exact Or.inr (.opened header htask)
      · exact Or.inl ⟨rfl, rfl⟩
  | checks =>
      simp only [BlackboxWriter.step]
      split
      · rename_i writer htask
        by_cases hrunning : s.running = true
        · rw [if_pos hrunning]
          exact Or.inr (.entered writer htask hrunning)
        · rw [if_neg hrunning]
          exact Or.inr (.left writer htask (Bool.eq_false_of_not_eq_true hrunning))
      · exact Or.inl ⟨rfl, rfl⟩
  | receives =>
      simp only [BlackboxWriter.step]
      split
      · rename_i writer record rest htask hqueue
        exact Or.inr (.received writer record rest htask hqueue)
      · exact Or.inl ⟨rfl, rfl⟩
  | ticks =>
      simp only [BlackboxWriter.step]
      split
      · rename_i writer htask
        exact Or.inr (.ticked writer htask)
      · exact Or.inl ⟨rfl, rfl⟩
  | closes =>
      simp only [BlackboxWriter.step]
      split
      · rename_i writer htask
        exact Or.inr (.closed writer htask)
      · exact Or.inl ⟨rfl, rfl⟩

/-- The task is behind its loop. -/
def Task.Exited : Task → Prop
  | .closing _ => True
  | .finished _ => True
  | _ => False

/-- The flag is cleared by `stop` only, and `stop` returns after the task. -/
structure Sound (s : BlackboxWriter) : Prop where
  cleared : s.running = false → s.task ≠ .unspawned → s.stopping ≠ .notCalled
  exited : s.task.Exited → s.stopping ≠ .notCalled
  returned : s.stopping = .returned → ∃ file, s.task = .finished file

theorem sound_new (bufferSize : Nat) : Sound (.new bufferSize) where
  cleared := fun _ h => absurd rfl h
  exited := fun h => h.elim
  returned := fun h => nomatch h

/-- An action of a task that is not over yet. -/
theorem Sound.of_task {s : BlackboxWriter} (hs : Sound s) (task : Task)
    (queue : List BlackboxRecord) (hspawned : s.task ≠ .unspawned)
    (hover : ∀ file, s.task ≠ .finished file)
    (hexit : task.Exited → s.stopping ≠ .notCalled) :
    Sound { s with queue := queue, task := task } where
  cleared := fun h _ => hs.cleared h hspawned
  exited := hexit
  returned := fun h => by
    rcases hs.returned h with ⟨file, hfile⟩
    exact absurd hfile (hover file)

theorem sound_step (e : Event) (hs : Sound s) : Sound (s.step headerCodec recordCodec e) := by
  rcases step_moves headerCodec recordCodec s e with ⟨hsame, -⟩ | hmoves
  · rw [hsame]
    exact hs
  · generalize s.step headerCodec recordCodec e = s' at hmoves
    cases hmoves with
    | started args htask =>
        refine ⟨fun h => (nomatch h), fun h => h.elim, fun h => ?_⟩
        rcases hs.returned h with ⟨file, hfile⟩
        rw [htask] at hfile
        exact nomatch hfile
    | accepted record hcall hroom => exact ⟨hs.cleared, hs.exited, hs.returned⟩
    | dropped record hfull => exact ⟨hs.cleared, hs.exited, hs.returned⟩
    | stopCalled hcall hrunning =>
        exact ⟨fun _ _ h => (nomatch h), fun _ h => (nomatch h), fun h => (nomatch h)⟩
    | stopReturned file htask hstop =>
        exact ⟨fun _ _ h => (nomatch h), fun _ h => (nomatch h), fun _ => ⟨file, htask⟩⟩
    | opened header htask =>
        exact hs.of_task _ _ (by simp [htask]) (by simp [htask]) (fun h => h.elim)
    | entered writer htask hrunning =>
        exact hs.of_task _ _ (by simp [htask]) (by simp [htask]) (fun h => h.elim)
    | left writer htask hrunning =>
        have hstopped := hs.cleared hrunning (by simp [htask])
        exact hs.of_task _ _ (by simp [htask]) (by simp [htask]) (fun _ => hstopped)
    | received writer record rest htask hqueue =>
        exact hs.of_task _ _ (by simp [htask]) (by simp [htask]) (fun h => h.elim)
    | ticked writer htask =>
        exact hs.of_task _ _ (by simp [htask]) (by simp [htask]) (fun h => h.elim)
    | closed writer htask =>
        have hstopped : s.stopping ≠ .notCalled := hs.exited (by simp [htask, Task.Exited])
        exact hs.of_task _ _ (by simp [htask]) (by simp [htask]) (fun _ => hstopped)

/-- Behind its loop the task takes nothing from the channel, and nothing is put into it. -/
theorem exited_step (e : Event) (hs : Sound s) (hexited : s.task.Exited) :
    (s.step headerCodec recordCodec e).task.Exited ∧
    (s.step headerCodec recordCodec e).queue = s.queue := by
  rcases step_moves headerCodec recordCodec s e with ⟨hsame, -⟩ | hmoves
  · rw [hsame]
    exact ⟨hexited, rfl⟩
  · generalize s.step headerCodec recordCodec e = s' at hmoves
    cases hmoves with
    | accepted record hcall hroom =>
        -- `stop` has returned, so the task is over and the channel closed.
        have hreturned : s.stopping = .returned := by
          cases hstop : s.stopping with
          | notCalled => exact absurd hstop (hs.exited hexited)
          | awaiting => exact absurd hstop hcall
          | returned => rfl
        rcases hs.returned hreturned with ⟨file, htask⟩
        simp [BlackboxWriter.trySendFails, htask] at hroom
    | closed writer htask => exact ⟨trivial, rfl⟩
    | started args htask => simp [htask, Task.Exited] at hexited
    | opened header htask => simp [htask, Task.Exited] at hexited
    | entered writer htask hrunning => simp [htask, Task.Exited] at hexited
    | left writer htask hrunning => simp [htask, Task.Exited] at hexited
    | received writer record rest htask hqueue => simp [htask, Task.Exited] at hexited
    | ticked writer htask => simp [htask, Task.Exited] at hexited
    | _ => exact ⟨hexited, rfl⟩

theorem queue_run_of_exited (events : List Event) (s : BlackboxWriter) (hs : Sound s)
    (hexited : s.task.Exited) :
    (run (BlackboxWriter.step headerCodec recordCodec) s events).queue = s.queue := by
  induction events generalizing s with
  | nil => rfl
  | cons e rest ih =>
      have hstep := exited_step headerCodec recordCodec s e hs hexited
      rw [run_cons, ih _ (sound_step headerCodec recordCodec s e hs) hstep.1, hstep.2]

/-- A frame whose length the four bytes in front of it can hold. -/
def Fits (payload : List UInt8) : Prop :=
  payload.length < 2 ^ 32

/-- What an action brings in is short enough for its frame. -/
def Event.Fits : Event → Prop
  | .start args => Blackbox.Fits (headerCodec.encode args.header)
  | .submit record => Blackbox.Fits (recordCodec.encode record)
  | _ => True

/-- The bytes of a header and of the records after it. -/
def recording (header : BlackboxHeader) (records : List BlackboxRecord) : List UInt8 :=
  frame (headerCodec.encode header) ++
    records.flatMap fun record => frame (recordCodec.encode record)

/-- What the task has written to its file. -/
def Task.output : Task → Option (List UInt8)
  | .unspawned => none
  | .spawned _ => none
  | .checking writer => some writer.contents
  | .selecting writer => some writer.contents
  | .closing writer => some writer.contents
  | .finished file => some file

/-- The task has written the records, behind a header. -/
inductive Wrote : Task → List BlackboxRecord → Prop
  | unspawned : Wrote .unspawned []
  | spawned (header : BlackboxHeader) (hfits : Fits (headerCodec.encode header)) :
      Wrote (.spawned header) []
  | opened (task : Task) (header : BlackboxHeader) (records : List BlackboxRecord)
      (hfits : Fits (headerCodec.encode header))
      (houtput : task.output = some (recording headerCodec recordCodec header records)) :
      Wrote task records

/-- The accepted records are the written ones and then the queued ones. -/
structure Tracks (records : List BlackboxRecord) (s : BlackboxWriter) : Prop where
  fits : ∀ record ∈ records, Fits (recordCodec.encode record)
  split : ∃ written, records = written ++ s.queue ∧ Wrote headerCodec recordCodec s.task written

variable {headerCodec recordCodec}

/-- A task that is past its opening has a header and records in its output. -/
theorem Wrote.exists_recording {task : Task} {records : List BlackboxRecord} {bytes : List UInt8}
    (h : Wrote headerCodec recordCodec task records) (hbytes : task.output = some bytes) :
    ∃ header, Fits (headerCodec.encode header) ∧
      bytes = recording headerCodec recordCodec header records := by
  cases h with
  | unspawned => exact nomatch hbytes
  | spawned header hfits => exact nomatch hbytes
  | opened task header records hfits houtput =>
      rw [hbytes] at houtput
      exact ⟨header, hfits, Option.some.inj houtput⟩

/-- The task moved on without writing a record. -/
theorem Wrote.of_output {task task' : Task} {records : List BlackboxRecord} {bytes : List UInt8}
    (h : Wrote headerCodec recordCodec task records) (hbefore : task.output = some bytes)
    (hafter : task'.output = some bytes) : Wrote headerCodec recordCodec task' records := by
  rcases h.exists_recording hbefore with ⟨header, hfits, hbytes⟩
  exact .opened task' header records hfits (by rw [hafter, hbytes])

variable (headerCodec recordCodec)

/-- An action that accepts no record, given what the task has written after it. -/
theorem Tracks.of_wrote {records written : List BlackboxRecord} {s s' : BlackboxWriter} {e : Event}
    (h : Tracks headerCodec recordCodec records s) (hnone : acceptedBy s e = [])
    (hsplit : records = written ++ s'.queue)
    (hwrote : Wrote headerCodec recordCodec s'.task written) :
    Tracks headerCodec recordCodec (records ++ acceptedBy s e) s' := by
  rw [hnone, List.append_nil]
  exact ⟨h.fits, written, hsplit, hwrote⟩

theorem tracks_step (records : List BlackboxRecord) (s : BlackboxWriter) (e : Event)
    (hs : Sound s) (hfits : e.Fits headerCodec recordCodec)
    (h : Tracks headerCodec recordCodec records s) :
    Tracks headerCodec recordCodec (records ++ acceptedBy s e)
      (s.step headerCodec recordCodec e) := by
  rcases h.split with ⟨written, hsplit, hwrote⟩
  rcases step_moves headerCodec recordCodec s e with ⟨hsame, hnone⟩ | hmoves
  · rw [hsame]
    exact h.of_wrote _ _ hnone hsplit hwrote
  · generalize s.step headerCodec recordCodec e = s' at hmoves
    cases hmoves with
    | accepted record hcall hroom =>
        have hnotReturned : s.stopping ≠ .returned := by
          intro hreturned
          rcases hs.returned hreturned with ⟨file, htask⟩
          simp [BlackboxWriter.trySendFails, htask] at hroom
        have hnotCalled : s.stopping = .notCalled := by
          cases hstop : s.stopping with
          | notCalled => rfl
          | awaiting => exact absurd hstop hcall
          | returned => exact absurd hstop hnotReturned
        have haccepted : acceptedBy s (.submit record) = [record] := by
          simp [acceptedBy, hnotCalled, BlackboxWriter.submit, hroom]
        rw [haccepted]
        refine ⟨?_, written, by rw [hsplit, List.append_assoc], hwrote⟩
        rw [List.forall_mem_append, List.forall_mem_singleton]
        exact ⟨h.fits, hfits⟩
    | dropped record hfull =>
        refine h.of_wrote _ _ ?_ hsplit hwrote
        simp [acceptedBy, BlackboxWriter.submit, hfull]
    | started args htask =>
        rw [htask] at hwrote
        cases hwrote with
        | unspawned => exact h.of_wrote _ _ rfl hsplit (.spawned _ hfits)
        | opened task header records hheader houtput => exact nomatch houtput
    | stopCalled hcall hrunning => exact h.of_wrote _ _ rfl hsplit hwrote
    | stopReturned file htask hstop => exact h.of_wrote _ _ rfl hsplit hwrote
    | opened header htask =>
        rw [htask] at hwrote
        cases hwrote with
        | opened task header records hheader houtput => exact nomatch houtput
        | spawned header hheader =>
            refine h.of_wrote _ _ rfl hsplit (.opened _ header [] hheader ?_)
            rw [Task.output, contents_writeFrame]
            simp [BufWriter.contents, BufWriter.new, recording]
    | entered writer htask hrunning =>
        exact h.of_wrote _ _ rfl hsplit (hwrote.of_output (by rw [htask]; rfl) rfl)
    | left writer htask hrunning =>
        exact h.of_wrote _ _ rfl hsplit (hwrote.of_output (by rw [htask]; rfl) rfl)
    | ticked writer htask =>
        refine h.of_wrote _ _ rfl hsplit (hwrote.of_output (by rw [htask]; rfl) ?_)
        rw [Task.output, contents_flush]
    | closed writer htask =>
        exact h.of_wrote _ _ rfl hsplit (hwrote.of_output (by rw [htask]; rfl) rfl)
    | received writer record rest htask hqueue =>
        -- The record moves from the front of the channel to the end of the file.
        rcases hwrote.exists_recording (by rw [htask]; rfl) with ⟨header, hheader, hcontents⟩
        have hmoved : records = (written ++ [record]) ++ rest := by
          rw [hsplit, hqueue, List.append_assoc, List.singleton_append]
        refine h.of_wrote _ _ rfl hmoved (.opened _ header _ hheader ?_)
        rw [Task.output, writeRecord, contents_writeFrame, hcontents]
        simp [recording]

/-- Accepted records are in the file or in the channel. -/
theorem tracks_run (events : List Event) (records : List BlackboxRecord) (s : BlackboxWriter)
    (hs : Sound s) (hfits : ∀ e ∈ events, e.Fits headerCodec recordCodec)
    (h : Tracks headerCodec recordCodec records s) :
    Tracks headerCodec recordCodec (records ++ accepted headerCodec recordCodec s events)
      (run (BlackboxWriter.step headerCodec recordCodec) s events) := by
  induction events generalizing records s with
  | nil =>
      rw [accepted, List.append_nil]
      exact h
  | cons e rest ih =>
      rw [List.forall_mem_cons] at hfits
      rw [accepted, ← List.append_assoc, run_cons]
      exact ih _ _ (sound_step headerCodec recordCodec s e hs) hfits.2
        (tracks_step headerCodec recordCodec records s e hs hfits.1 h)

end

section

variable {α : Type} (headerCodec : Codec BlackboxHeader) (recordCodec : Codec BlackboxRecord)

theorem length_frame (payload : List UInt8) : (frame payload).length = 4 + payload.length := by
  rw [frame, List.length_append, length_toLe]

theorem readPayload_frame (codec : Codec α) (value : α) (rest : List UInt8)
    (hfits : Fits (codec.encode value)) :
    readPayload codec (frame (codec.encode value) ++ rest) = .ok (value, rest) := by
  have hlen : ofLe (toLe 4 (codec.encode value).length) = (codec.encode value).length :=
    ofLe_toLe 4 _ hfits
  have htake : (frame (codec.encode value) ++ rest).take 4 =
      toLe 4 (codec.encode value).length := by
    rw [frame, List.append_assoc]
    exact List.take_left' (length_toLe 4 _)
  have hdrop : (frame (codec.encode value) ++ rest).drop 4 = codec.encode value ++ rest := by
    rw [frame, List.append_assoc]
    exact List.drop_left' (length_toLe 4 _)
  have hdecode := codec.decode_encode value []
  rw [List.append_nil] at hdecode
  simp [readPayload, htake, hlen, hdrop, fromBytes, hdecode, Except.map]

theorem nextRecord_frame (record : BlackboxRecord) (rest : List UInt8)
    (hfits : Fits (recordCodec.encode record)) :
    nextRecord recordCodec (frame (recordCodec.encode record) ++ rest) =
      .ok (some (record, rest)) := by
  have hlong : ¬ (frame (recordCodec.encode record) ++ rest).length < 4 := by
    rw [List.length_append, length_frame]
    omega
  rw [nextRecord, if_neg hlong, readPayload_frame recordCodec record rest hfits]
  rfl

theorem readRecords_frames (records : List BlackboxRecord) (fuel : Nat)
    (hfuel : records.length < fuel)
    (hfits : ∀ record ∈ records, Fits (recordCodec.encode record)) :
    readRecords recordCodec fuel (records.flatMap fun r => frame (recordCodec.encode r)) =
      .ok records := by
  induction records generalizing fuel with
  | nil =>
      cases fuel with
      | zero => exact absurd hfuel (Nat.lt_irrefl 0)
      | succ fuel => rfl
  | cons record rest ih =>
      rw [List.forall_mem_cons] at hfits
      rw [List.length_cons] at hfuel
      cases fuel with
      | zero => omega
      | succ fuel =>
          rw [List.flatMap_cons, readRecords, nextRecord_frame recordCodec record _ hfits.1]
          simp only [ih fuel (by omega) hfits.2]
          rfl

/-- Every record takes up four bytes and more. -/
theorem length_le_length_frames (records : List BlackboxRecord) :
    records.length ≤ (records.flatMap fun r => frame (recordCodec.encode r)).length := by
  induction records with
  | nil => exact Nat.le_refl 0
  | cons record rest ih =>
      rw [List.flatMap_cons, List.length_append, List.length_cons, length_frame]
      omega

/-- A recording is read back. -/
theorem readBack_recording (header : BlackboxHeader) (records : List BlackboxRecord)
    (hheader : Fits (headerCodec.encode header))
    (hfits : ∀ record ∈ records, Fits (recordCodec.encode record)) :
    readBack headerCodec recordCodec (recording headerCodec recordCodec header records) =
      .ok records := by
  have hlong : ¬ (recording headerCodec recordCodec header records).length < 4 := by
    rw [recording, List.length_append, length_frame]
    omega
  rw [readBack, readHeader, if_neg hlong, recording, readPayload_frame headerCodec _ _ hheader]
  refine readRecords_frames recordCodec records _ ?_ hfits
  exact Nat.lt_succ_of_le (length_le_length_frames recordCodec records)

end

section

variable (headerCodec : Codec BlackboxHeader) (recordCodec : Codec BlackboxRecord)

/-- A check that finds the flag cleared finds the channel empty. -/
def Drained (s : BlackboxWriter) (e : Event) : Prop :=
  e = .checks → (∃ writer, s.task = .checking writer) → s.running = false → s.queue = []

/-- Once the task is behind its loop, nothing is in the channel. -/
def NothingLeft (s : BlackboxWriter) : Prop :=
  s.task.Exited → s.queue = []

theorem nothingLeft_step (s : BlackboxWriter) (e : Event) (hs : Sound s) (h : NothingLeft s)
    (hdrained : Drained s e) : NothingLeft (s.step headerCodec recordCodec e) := by
  by_cases hexited : s.task.Exited
  · intro _
    rw [(exited_step headerCodec recordCodec s e hs hexited).2]
    exact h hexited
  · rcases step_moves headerCodec recordCodec s e with ⟨hsame, -⟩ | hmoves
    · rw [hsame]
      exact h
    · generalize s.step headerCodec recordCodec e = s' at hmoves
      cases hmoves with
      | left writer htask hrunning => exact fun _ => hdrained rfl ⟨writer, htask⟩ hrunning
      | closed writer htask => simp [htask, Task.Exited] at hexited
      | stopReturned file htask hstop => simp [htask, Task.Exited] at hexited
      | accepted record hcall hroom => exact fun h => absurd h hexited
      | dropped record hfull => exact fun h => absurd h hexited
      | stopCalled hcall hrunning => exact fun h => absurd h hexited
      | _ => exact fun h => h.elim

theorem not_nothingLeft_step (s : BlackboxWriter) (e : Event) (hnot : ¬ Drained s e) :
    ¬ NothingLeft (s.step headerCodec recordCodec e) := by
  unfold Drained at hnot
  push Not at hnot
  rcases hnot with ⟨rfl, ⟨writer, htask⟩, hrunning, hqueue⟩
  intro hleft
  simp only [BlackboxWriter.step, htask, hrunning, NothingLeft] at hleft
  exact hqueue (hleft trivial)

/-- The channel is empty at the end of a run that ends behind the loop exactly
    if it was empty when the loop was left. -/
theorem queue_eq_nil_iff (events : List Event) (s : BlackboxWriter) (hs : Sound s)
    (h : NothingLeft s)
    (hexited : (run (BlackboxWriter.step headerCodec recordCodec) s events).task.Exited) :
    (run (BlackboxWriter.step headerCodec recordCodec) s events).queue = [] ↔
      StepsMeet (BlackboxWriter.step headerCodec recordCodec) Drained s events := by
  rw [← always_iff_stepsMeet (BlackboxWriter.step headerCodec recordCodec) Sound NothingLeft
    Drained (sound_step headerCodec recordCodec)
    (fun s e => nothingLeft_step headerCodec recordCodec s e)
    (fun s e _ _ => not_nothingLeft_step headerCodec recordCodec s e) s events hs h,
    always_iff_states]
  constructor
  · intro hqueue pre post hsplit hpre
    have hsound := run_invariant (BlackboxWriter.step headerCodec recordCodec) Sound
      (sound_step headerCodec recordCodec) s pre hs
    have hrun : run (BlackboxWriter.step headerCodec recordCodec) s events =
        run (BlackboxWriter.step headerCodec recordCodec)
          (run (BlackboxWriter.step headerCodec recordCodec) s pre) post := by
      rw [hsplit, run_append]
    rw [← queue_run_of_exited headerCodec recordCodec post _ hsound hpre, ← hrun]
    exact hqueue
  · intro halways
    exact halways events [] (List.append_nil events).symm hexited

/-- When `stop` has returned, the file is read back as the records that were accepted before it was
    called exactly if the task found the channel empty at the check that ended its loop. -/
theorem recording_complete_iff (bufferSize : Nat) (events : List Event)
    (hfits : ∀ e ∈ events, e.Fits headerCodec recordCodec)
    (hreturned : (run (BlackboxWriter.step headerCodec recordCodec)
      (.new bufferSize) events).stopping = .returned) :
    (∃ file,
      (run (BlackboxWriter.step headerCodec recordCodec) (.new bufferSize) events).task =
        .finished file ∧
      readBack headerCodec recordCodec file =
        .ok (accepted headerCodec recordCodec (.new bufferSize) events)) ↔
    StepsMeet (BlackboxWriter.step headerCodec recordCodec) Drained (.new bufferSize) events := by
  have hsound := run_invariant (BlackboxWriter.step headerCodec recordCodec) Sound
    (sound_step headerCodec recordCodec) _ events (sound_new bufferSize)
  have htracks := tracks_run headerCodec recordCodec events [] (.new bufferSize)
    (sound_new bufferSize) hfits ⟨fun _ h => (nomatch h), [], rfl, .unspawned⟩
  rw [List.nil_append] at htracks
  have hqueue := queue_eq_nil_iff headerCodec recordCodec events (.new bufferSize)
    (sound_new bufferSize) (fun h => h.elim)
  generalize run (BlackboxWriter.step headerCodec recordCodec) (.new bufferSize) events = final
    at *
  rcases hsound.returned hreturned with ⟨file, htask⟩
  rcases htracks.split with ⟨written, hsplit, hwrote⟩
  rcases hwrote.exists_recording (by rw [htask]; rfl) with ⟨header, hheader, hfile⟩
  have hfitting : ∀ record ∈ written, Fits (recordCodec.encode record) := by
    intro record hrecord
    exact htracks.fits record (by rw [hsplit]; exact List.mem_append_left _ hrecord)
  rw [← hqueue (by rw [htask]; trivial), hsplit]
  constructor
  · rintro ⟨file', htask', hread⟩
    rw [htask, Task.finished.injEq] at htask'
    rw [← htask', hfile, readBack_recording headerCodec recordCodec header written hheader
      hfitting, Except.ok.injEq, List.self_eq_append_right] at hread
    exact hread
  · intro hempty
    refine ⟨file, htask, ?_⟩
    rw [hfile, readBack_recording headerCodec recordCodec header written hheader hfitting, hempty,
      List.append_nil]

/-- The variant of a stream, as `postcard` numbers it. -/
def streamCodec : Codec StreamType :=
  Codec.varint.translate
    (fun | .axisFrames => 0 | .busSnapshots => 1 | .events => 2)
    (fun | 0 => some .axisFrames | 1 => some .busSnapshots | 2 => some .events | _ => none)
    (fun stream => by cases stream <;> rfl)

/-- The fields of a record in their order, as `postcard` writes them. -/
def postcardRecord : Codec BlackboxRecord :=
  (Codec.u64.seq (streamCodec.seq .bytes)).translate
    (fun r => (r.timestampNs, r.streamType, r.data))
    (fun (timestampNs, streamType, data) => some ⟨timestampNs, streamType, data⟩)
    (fun _ => rfl)

/-- The fields of a header in their order, as `postcard` writes them. -/
def postcardHeader : Codec BlackboxHeader :=
  ((Codec.byte.seq (.seq .byte (.seq .byte .byte))).seq
    (.seq .u32 (.seq .u32 (.seq .string (.seq .u64
      (.seq .string (.seq .string (.seq .string .u64)))))))).translate
    (fun h => (h.magic, h.endianMarker, h.formatVersion, h.appVersion, h.timebaseNs, h.simId,
      h.aircraftId, h.recordingMode, h.startTimestamp))
    (fun (magic, endianMarker, formatVersion, appVersion, timebaseNs, simId, aircraftId,
        recordingMode, startTimestamp) =>
      some ⟨magic, endianMarker, formatVersion, appVersion, timebaseNs, simId, aircraftId,
        recordingMode, startTimestamp⟩)
    (fun _ => rfl)

def sampleArgs : StartArgs where
  appVersion := "v1"
  simId := "MSFS"
  aircraftId := "C172"
  mode := "default"
  timebaseNs := 0
  startTimestamp := 0

def sampleRecord : BlackboxRecord where
  timestampNs := 3
  streamType := .events
  data := [0xFF]

/-- The task opens its file and waits, a record is submitted and taken, and the
    recording is stopped: the next tick and check end the loop. -/
def completeRun : List Event :=
  [.start sampleArgs, .opens, .checks, .submit sampleRecord, .receives, .checks, .stop, .ticks,
    .checks, .closes, .stopReturns]

/-- The same, stopped before the task has taken the record; the tick is chosen. -/
def cutRun : List Event :=
  [.start sampleArgs, .opens, .checks, .submit sampleRecord, .stop, .ticks, .checks, .closes,
    .stopReturns]

theorem fits_sampleArgs : Fits (postcardHeader.encode sampleArgs.header) := by
  unfold Fits
  decide +kernel

theorem fits_sampleRecord : Fits (postcardRecord.encode sampleRecord) := by
  unfold Fits
  decide +kernel

theorem fits_completeRun : ∀ e ∈ completeRun, e.Fits postcardHeader postcardRecord := by
  simp [completeRun, Event.Fits, fits_sampleArgs, fits_sampleRecord]

theorem recording_complete_sample :
    (run (BlackboxWriter.step postcardHeader postcardRecord) (.new 1024) completeRun).stopping =
      .returned ∧
    ∃ file,
      (run (BlackboxWriter.step postcardHeader postcardRecord) (.new 1024) completeRun).task =
        .finished file ∧
      readBack postcardHeader postcardRecord file = .ok [sampleRecord] := by
  have hreturned : (run (BlackboxWriter.step postcardHeader postcardRecord) (.new 1024)
      completeRun).stopping = .returned := rfl
  have hmeets : StepsMeet (BlackboxWriter.step postcardHeader postcardRecord) Drained
      (.new 1024) completeRun :=
    ⟨fun h => (nomatch h), fun h => (nomatch h), fun _ _ _ => rfl, fun h => (nomatch h),
      fun h => (nomatch h), fun _ _ _ => rfl, fun h => (nomatch h), fun h => (nomatch h),
      fun _ _ _ => rfl, fun h => (nomatch h), fun h => (nomatch h), trivial⟩
  exact ⟨hreturned, (recording_complete_iff postcardHeader postcardRecord 1024 completeRun
    fits_completeRun hreturned).mpr hmeets⟩

/-- `submit` and `stop` return `Ok`, and the file has no record. -/
theorem recording_loses_record :
    (run (BlackboxWriter.step postcardHeader postcardRecord) (.new 1024) cutRun).stopping =
      .returned ∧
    accepted postcardHeader postcardRecord (.new 1024) cutRun = [sampleRecord] ∧
    ∃ file,
      (run (BlackboxWriter.step postcardHeader postcardRecord) (.new 1024) cutRun).task =
        .finished file ∧
      readBack postcardHeader postcardRecord file = .ok [] := by
  refine ⟨rfl, rfl, recording postcardHeader postcardRecord sampleArgs.header [], ?_, ?_⟩
  · decide +kernel
  · exact readBack_recording postcardHeader postcardRecord sampleArgs.header [] fits_sampleArgs
      (fun _ h => (nomatch h))

end

end OpenFlight.Blackbox
