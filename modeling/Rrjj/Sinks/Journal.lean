import Rrjj.Library.Proc
import Rrjj.Sinks.Spool

/-! The journal in which events are accepted: a spool behind a buffered writer, whose calls
may fail after any part of their work. -/

namespace Rrjj
open Library Library.Proc

/-- How a call of the writer or of the file ends. One that fails has taken some bytes of its
argument into the writer's buffer and moved some buffered bytes into the file; `write_all`
may move any number of them when it succeeds. -/
structure FileAnswer where
  error : Option String := none
  taken : ℕ := 0
  moved : ℕ := 0
  deriving DecidableEq, Repr

/-- The answers to `write_all`, `flush` and `sync_data` (or `sync_all`). -/
structure WriteAnswers where
  write : FileAnswer := {}
  flush : FileAnswer := {}
  sync : FileAnswer := {}
  deriving DecidableEq, Repr

/-- `file` is what the spool holds, `buffer` what its writer still does. -/
structure NdjsonSink where
  path : String
  file : Bytes
  buffer : Bytes
  bytes : ℕ
  maxSpoolBytes : ℕ
  sessionId : Option String
  schemaVersion : Option ℕ
  accepted : List Event

abbrev JournalTask := Proc NdjsonSink SinkError

namespace NdjsonSink

def createForSession (serde : Serde) (path : String) (maxSpoolBytes : ℕ)
    (sessionId : Option String) (schemaVersion : Option ℕ) (existing : Bytes) :
    Except SinkError NdjsonSink := do
  let accepted ←
    match sessionId, schemaVersion with
    | some sessionId, some schemaVersion =>
      parseEventSpool serde existing path sessionId schemaVersion "journal"
    | _, _ => .ok []
  if maxSpoolBytes < existing.length then .error (.spoolFull existing.length 0 maxSpoolBytes)
  else
    .ok
      { path := path
        file := existing
        buffer := []
        bytes := existing.length
        maxSpoolBytes := maxSpoolBytes
        sessionId := sessionId
        schemaVersion := schemaVersion
        accepted := accepted }

def nextSeq (sink : NdjsonSink) : ℕ := sink.accepted.length

def eventsThrough (sink : NdjsonSink) (lastSeq : ℕ) : Except SinkError (List Event) :=
  if sink.accepted.getLast?.map Event.seq = some lastSeq then .ok sink.accepted
  else .error (.invalidFlush s!"journal does not end at requested sequence {lastSeq}")

def checkSession (sink : NdjsonSink) (event : Event) : Except SinkError Unit :=
  match sink.sessionId with
  | none => .ok ()
  | some sessionId =>
    if event.sessionId = sessionId then .ok ()
    else .error (.failed s!"journal belongs to session {sessionId}, got {event.sessionId}")

def checkSchema (sink : NdjsonSink) (event : Event) : Except SinkError Unit :=
  match sink.schemaVersion with
  | none => .ok ()
  | some version =>
    if event.v = version then .ok ()
    else .error (.failed (s!"journal schema {version} is incompatible with " ++
      s!"event schema {event.v}"))

def checkSeq (sink : NdjsonSink) (event : Event) : Except SinkError Unit :=
  if event.seq = sink.nextSeq then .ok ()
  else .error (.failed s!"journal sequence mismatch: expected {sink.nextSeq}, got {event.seq}")

def serialize (serde : Serde) (event : Event) : Except SinkError Bytes :=
  match serde.toVec event with
  | .error message => .error (.serialize message)
  | .ok text => .ok (text ++ [newline])

def checkSpool (sink : NdjsonSink) (line : Bytes) : Except SinkError Unit :=
  if sink.bytes + line.length ≤ sink.maxSpoolBytes then .ok ()
  else .error (.spoolFull sink.bytes line.length sink.maxSpoolBytes)

def lineFor (serde : Serde) (sink : NdjsonSink) (event : Event) : Except SinkError Bytes := do
  sink.checkSession event
  sink.checkSchema event
  sink.checkSeq event
  let line ← serialize serde event
  sink.checkSpool line
  return line

def move (sink : NdjsonSink) (count : ℕ) : NdjsonSink :=
  { sink with
    file := sink.file ++ sink.buffer.take count
    buffer := sink.buffer.drop count }

def take (sink : NdjsonSink) (bytes : Bytes) : NdjsonSink :=
  { sink with buffer := sink.buffer ++ bytes }

def writeAll (answer : FileAnswer) (line : Bytes) : JournalTask Unit :=
  match answer.error with
  | none => modify fun sink => (sink.take line).move answer.moved
  | some message => do
    modify fun sink => (sink.take (line.take answer.taken)).move answer.moved
    throw (.io message)

def flushWriter (answer : FileAnswer) : JournalTask Unit :=
  match answer.error with
  | none => modify fun sink => sink.move sink.buffer.length
  | some message => do
    modify fun sink => sink.move answer.moved
    throw (.io message)

def syncFile (answer : FileAnswer) : JournalTask Unit :=
  match answer.error with
  | none => pure ()
  | some message => throw (.io message)

def accept (sink : NdjsonSink) (line : Bytes) (event : Event) : NdjsonSink :=
  { sink with
    bytes := sink.bytes + line.length
    accepted := sink.accepted ++ [event] }

def emit (serde : Serde) (answers : WriteAnswers) (event : Event) : JournalTask Unit := do
  let sink ← get
  let line ← Proc.ofExcept (sink.lineFor serde event)
  writeAll answers.write line
  flushWriter answers.flush
  syncFile answers.sync
  modify fun sink => sink.accept line event

def flush (answers : WriteAnswers) : JournalTask Unit := do
  flushWriter answers.flush
  syncFile answers.sync

inductive SinkCall where
  | emit (answers : WriteAnswers) (event : Event)
  | flush (answers : WriteAnswers)

def call (serde : Serde) (sink : NdjsonSink) : SinkCall → Outcome SinkError Unit × NdjsonSink
  | .emit answers event => (emit serde answers event).run sink
  | .flush answers => (flush answers).run sink

/-- The states a sink reaches by calls that meet a condition, whatever each of them answers. -/
inductive Run (serde : Serde) (meets : NdjsonSink → SinkCall → Prop) (first : NdjsonSink) :
    NdjsonSink → Prop
  | start : Run serde meets first first
  | call {sink : NdjsonSink} (call : SinkCall) (run : Run serde meets first sink)
      (meet : meets sink call) : Run serde meets first (sink.call serde call).2

def Intact (serde : Serde) (sessionId : String) (schemaVersion : ℕ) (sink : NdjsonSink) : Prop :=
  parseEventSpool serde sink.file sink.path sessionId schemaVersion "journal" = .ok sink.accepted

structure Clean (answers : WriteAnswers) : Prop where
  written : answers.write.error = none → answers.flush.error = none ∧ answers.sync.error = none
  failed : answers.write.error ≠ none → answers.write.taken = 0

/-- The call does not fail in a write step with bytes of its line in the buffer or the file, and the
event that it writes is read back. -/
def Harmless (serde : Serde) (sink : NdjsonSink) : SinkCall → Prop
  | .emit answers event => ∀ line, sink.lineFor serde event = .ok line →
      Clean answers ∧ (answers.write.error = none → serde.ReadsBack event)
  | .flush _ => True

variable {serde : Serde} {sink sink' : NdjsonSink} {event : Event} {line : Bytes}
  {sessionId : String} {version : ℕ} {answers : WriteAnswers}

structure Fits (serde : Serde) (sink : NdjsonSink) (event : Event) (line : Bytes) : Prop where
  session : ∀ id, sink.sessionId = some id → event.sessionId = id
  schema : ∀ version, sink.schemaVersion = some version → event.v = version
  seq : event.seq = sink.accepted.length
  text : ∃ text, serde.toVec event = .ok text ∧ line = text ++ [newline]
  room : sink.bytes + line.length ≤ sink.maxSpoolBytes

theorem lineFor_ok (h : sink.lineFor serde event = .ok line) : Fits serde sink event line := by
  unfold lineFor at h
  obtain ⟨⟨⟩, hsession, h⟩ := bind_ok_iff.mp h
  obtain ⟨⟨⟩, hschema, h⟩ := bind_ok_iff.mp h
  obtain ⟨⟨⟩, hseq, h⟩ := bind_ok_iff.mp h
  obtain ⟨written, hwritten, h⟩ := bind_ok_iff.mp h
  obtain ⟨⟨⟩, hroom, h⟩ := bind_ok_iff.mp h
  rw [Except.ok.inj h] at hwritten hroom
  refine ⟨?_, ?_, (ite_ok_iff.mp hseq).1, ?_, (ite_ok_iff.mp hroom).1⟩
  · intro id hid
    simp only [checkSession, hid] at hsession
    exact (ite_ok_iff.mp hsession).1
  · intro version hversion
    simp only [checkSchema, hversion] at hschema
    exact (ite_ok_iff.mp hschema).1
  · unfold serialize at hwritten
    split at hwritten
    · exact absurd hwritten (by simp)
    · next text htext => exact ⟨text, htext, (Except.ok.inj hwritten).symm⟩

theorem Fits.lineFor (h : Fits serde sink event line) : sink.lineFor serde event = .ok line := by
  obtain ⟨text, htext, hline⟩ := h.text
  refine bind_ok_iff.mpr ⟨(), ?_, bind_ok_iff.mpr ⟨(), ?_, bind_ok_iff.mpr ⟨(), ?_, ?_⟩⟩⟩
  · unfold checkSession
    rcases hid : sink.sessionId with _ | id
    · rfl
    · exact if_pos (h.session id hid)
  · unfold checkSchema
    rcases hversion : sink.schemaVersion with _ | version
    · rfl
    · exact if_pos (h.schema version hversion)
  · exact if_pos h.seq
  · refine bind_ok_iff.mpr ⟨line, ?_, bind_ok_iff.mpr ⟨(), if_pos h.room, rfl⟩⟩
    rw [serialize, htext, hline]

@[simp] theorem move_buffered (count : ℕ) :
    (sink.move count).file ++ (sink.move count).buffer = sink.file ++ sink.buffer := by
  rw [move, List.append_assoc, List.take_append_drop]

theorem move_all (count : ℕ) : (sink.move count).move (sink.move count).buffer.length =
    { sink with file := sink.file ++ sink.buffer, buffer := [] } := by
  have hfile := @move_buffered sink count
  generalize hmoved : sink.move count = moved at hfile
  have hframe : moved = { sink with file := moved.file, buffer := moved.buffer } := by
    rw [← hmoved]
    rfl
  rw [hframe, move]
  simp only [List.take_length, List.drop_length, hfile]

theorem move_empty (h : sink.buffer = []) (count : ℕ) : sink.move count = sink := by
  rw [move, h, List.take_nil, List.drop_nil, List.append_nil, ← h]

theorem emit_written (fits : sink.lineFor serde event = .ok line)
    (write : answers.write.error = none) (flush : answers.flush.error = none)
    (sync : answers.sync.error = none) :
    (emit serde answers event).run sink = (.ok (), ({ sink with
      file := sink.file ++ (sink.buffer ++ line)
      buffer := [] }).accept line event) := by
  simp only [emit, writeAll, flushWriter, syncFile, run_bind, run_get, fits, run_ofExcept_ok, write,
    flush, sync, run_modify, run_pure, move_all]
  rfl

theorem emit_unwritten {message : String} (clean : sink.buffer = [])
    (fits : sink.lineFor serde event = .ok line) (write : answers.write.error = some message)
    (taken : answers.write.taken = 0) :
    (emit serde answers event).run sink = (.error (.io message), sink) := by
  have hnothing : (sink.take []).move answers.write.moved = sink := by
    have hsame : sink.take [] = sink := by rw [take, List.append_nil]
    rw [hsame, move_empty clean]
  simp only [emit, writeAll, run_bind, run_get, fits, run_ofExcept_ok, write, taken,
    List.take_zero, run_modify, run_throw, hnothing]

theorem emit_refused {failure : SinkError} (refused : sink.lineFor serde event = .error failure) :
    (emit serde answers event).run sink = (.error failure, sink) := by
  simp only [emit, run_bind, run_get, refused, run_ofExcept_error]

theorem eventsThrough_ok {lastSeq : ℕ} {events : List Event}
    (h : sink.eventsThrough lastSeq = .ok events) : sink.accepted = events :=
  (ite_ok_iff.mp h).2

theorem writeAll_accepted (answer : FileAnswer) (bytes : Bytes) (events : List Event) :
    Keeps (fun sink => sink.accepted = events) (writeAll answer bytes) := by
  unfold writeAll
  split
  · exact Keeps.modify fun _ h => h
  · exact Keeps.bind (Keeps.modify fun _ h => h) fun _ => Keeps.throw _

theorem flushWriter_accepted (answer : FileAnswer) (events : List Event) :
    Keeps (fun sink => sink.accepted = events) (flushWriter answer) := by
  unfold flushWriter
  split
  · exact Keeps.modify fun _ h => h
  · exact Keeps.bind (Keeps.modify fun _ h => h) fun _ => Keeps.throw _

theorem syncFile_accepted (answer : FileAnswer) (events : List Event) :
    Keeps (fun sink => sink.accepted = events) (syncFile answer) := by
  unfold syncFile
  split
  · exact Keeps.pure _
  · exact Keeps.throw _

theorem flush_accepted (answers : WriteAnswers) (events : List Event) :
    Keeps (fun sink => sink.accepted = events) (flush answers) :=
  (flushWriter_accepted _ _).bind fun _ => syncFile_accepted _ _

theorem emit_accepted (serde : Serde) (answers : WriteAnswers) (event : Event)
    (events : List Event) :
    Triple (fun sink => sink.accepted = events) (emit serde answers event)
      (fun _ sink => sink.accepted = events ++ [event] ∧ event.seq = events.length)
      (fun sink => sink.accepted = events) := by
  refine Triple.get fun u hu => ?_
  refine Triple.bind (Q := fun _ sink => sink.accepted = events ∧ event.seq = events.length)
    (Triple.ofExcept ?_ ?_) fun line => ?_
  · rintro line hline s rfl
    exact ⟨hu, hu ▸ (lineFor_ok hline).seq⟩
  · rintro _ _ s rfl
    exact hu
  refine Triple.of_start fun v hv => ?_
  obtain ⟨haccepted, hseq⟩ := hv
  refine ((writeAll_accepted _ _ events).pre fun s hs => ?_).bind fun _ => ?_
  · rw [hs]
    exact haccepted
  refine Triple.bind (flushWriter_accepted _ events) fun _ => ?_
  refine Triple.bind (syncFile_accepted _ events) fun _ => ?_
  apply Triple.modify
  intro s hs
  refine ⟨?_, hseq⟩
  rw [← hs]
  rfl

/-- Nothing is buffered, and the spool holds what was accepted. -/
structure Sound (serde : Serde) (sessionId : String) (version : ℕ) (sink : NdjsonSink) : Prop where
  session : sink.sessionId = some sessionId
  schema : sink.schemaVersion = some version
  clean : sink.buffer = []
  intact : sink.Intact serde sessionId version

theorem Sound.accept (h : Sound serde sessionId version sink)
    (fits : sink.lineFor serde event = .ok line) (reads : serde.ReadsBack event) :
    Sound serde sessionId version (({ sink with
      file := sink.file ++ ([] ++ line)
      buffer := [] }).accept line event) := by
  have hfits := lineFor_ok fits
  obtain ⟨text, htext, rfl⟩ := hfits.text
  refine ⟨h.session, h.schema, rfl, ?_⟩
  exact parseEventSpool_append h.intact htext reads hfits.seq (hfits.session _ h.session)
    (hfits.schema _ h.schema)

theorem Sound.call (h : Sound serde sessionId version sink) {call : SinkCall}
    (harmless : sink.Harmless serde call) : Sound serde sessionId version (sink.call serde call).2 := by
  cases call with
  | emit answers event =>
    rw [NdjsonSink.call]
    rcases hline : sink.lineFor serde event with failure | line
    · rw [emit_refused hline]
      exact h
    obtain ⟨hclean, hreads⟩ := harmless line hline
    rcases hwrite : answers.write.error with _ | message
    · obtain ⟨hflush, hsync⟩ := hclean.written hwrite
      rw [emit_written hline hwrite hflush hsync, h.clean]
      exact h.accept hline (hreads hwrite)
    · rw [emit_unwritten h.clean hline hwrite (hclean.failed (by simp [hwrite]))]
      exact h
  | flush answers =>
    have hmove : ∀ count, sink.move count = sink := move_empty h.clean
    have hsame : ((flush answers).run sink).2 = sink := by
      unfold flush flushWriter syncFile
      rcases answers.flush.error with _ | message
      · rcases answers.sync.error with _ | message
        · simp only [run_bind, run_modify, hmove, run_pure]
        · simp only [run_bind, run_modify, hmove, run_throw]
      · simp only [run_bind, run_modify, hmove, run_throw]
    rw [NdjsonSink.call, hsame]
    exact h

theorem Run.sound {first : NdjsonSink} (run : Run serde (Harmless serde) first sink)
    (h : Sound serde sessionId version first) : Sound serde sessionId version sink := by
  induction run with
  | start => exact h
  | call call _ meet ih => exact ih.call meet

theorem createForSession_sound {path : String} {maxSpoolBytes : ℕ} {existing : Bytes}
    (created : createForSession serde path maxSpoolBytes (some sessionId) (some version) existing =
      .ok sink) : Sound serde sessionId version sink := by
  obtain ⟨accepted, hparsed, h⟩ := bind_ok_iff.mp created
  obtain ⟨-, h⟩ := ite_error_iff.mp h
  rw [← Except.ok.inj h]
  exact ⟨rfl, rfl, rfl, hparsed⟩

/-- The spool of a journal holds exactly its accepted events, on whatever it was opened, as
long as no emit fails in a write step that leaves bytes of its line behind, and what is written is
read back. -/
theorem journal_holds_accepted (serde : Serde) (path sessionId : String)
    (maxSpoolBytes version : ℕ) (existing : Bytes) {created sink : NdjsonSink}
    (opened : createForSession serde path maxSpoolBytes (some sessionId) (some version) existing =
      .ok created)
    (run : Run serde (Harmless serde) created sink) : sink.Intact serde sessionId version :=
  (run.sound (createForSession_sound opened)).intact

def exampleJournal : NdjsonSink where
  path := "spool.ndjson"
  file := []
  buffer := []
  bytes := 0
  maxSpoolBytes := 1000
  sessionId := some "s"
  schemaVersion := some 0
  accepted := []

theorem exampleJournal_created : createForSession exampleSerde "spool.ndjson" 1000 (some "s") (some 0)
    [] = .ok exampleJournal := rfl

theorem spooledEvent_fits : Fits exampleSerde exampleJournal spooledEvent (spooledText ++ [newline]) where
  session id h := by rw [← Option.some.inj h]; rfl
  schema version h := by rw [← Option.some.inj h]; rfl
  seq := rfl
  text := ⟨spooledText, exampleSerde_writes, rfl⟩
  room := by
    rw [List.length_append, spooledText_length]
    decide

/-- The example event is written by a retry, after an emit that failed before it wrote. -/
theorem journal_holds_accepted_retried : ∃ sink,
    Run exampleSerde (Harmless exampleSerde) exampleJournal sink ∧
      sink.accepted = [spooledEvent] ∧ sink.Intact exampleSerde "s" 0 := by
  have hfails : exampleJournal.call exampleSerde
      (.emit { write := { error := some "EIO" } } spooledEvent) = (.error (.io "EIO"), exampleJournal) :=
    emit_unwritten rfl spooledEvent_fits.lineFor rfl rfl
  have hwrites : exampleJournal.call exampleSerde (.emit {} spooledEvent) = (.ok (), _) :=
    emit_written spooledEvent_fits.lineFor rfl rfl rfl
  have hrefused : Run exampleSerde (Harmless exampleSerde) exampleJournal _ :=
    Run.start.call (.emit { write := { error := some "EIO" } } spooledEvent)
      fun _ _ => ⟨⟨fun h => absurd h (by decide), fun _ => rfl⟩, fun h => absurd h (by decide)⟩
  rw [hfails] at hrefused
  have hretried := hrefused.call (.emit {} spooledEvent)
    fun _ _ => ⟨⟨fun _ => ⟨rfl, rfl⟩, fun h => absurd rfl h⟩, fun _ => exampleSerde_readsBack spooledEvent⟩
  rw [hwrites] at hretried
  exact ⟨_, hretried, rfl, journal_holds_accepted exampleSerde _ _ _ _ _ exampleJournal_created hretried⟩

/-- A line that could not be synced is written once more by the retry. -/
theorem retried_line_is_duplicated :
    ¬ ∀ serde path sessionId maxSpoolBytes version existing created sink answers event,
      createForSession serde path maxSpoolBytes (some sessionId) (some version) existing =
        .ok created →
      Run serde (fun _ _ => True) created sink →
      ((emit serde answers event).run sink).1 = .ok () →
      ((emit serde answers event).run sink).2.Intact serde sessionId version := by
  intro h
  -- the first emit writes its line and does not get it synced
  set unsynced : NdjsonSink := { exampleJournal with file := spooledText ++ [newline] } with hunsynced
  have hfails : (exampleJournal.call exampleSerde
      (.emit { sync := { error := some "EIO" } } spooledEvent)).2 = unsynced := by
    simp only [call, emit, writeAll, flushWriter, syncFile, run_bind, run_get,
      spooledEvent_fits.lineFor, run_ofExcept_ok, run_modify, run_throw, move_all]
    simp only [take, hunsynced, exampleJournal, List.nil_append]
  have hrun : Run exampleSerde (fun _ _ => True) exampleJournal _ :=
    Run.start.call (.emit { sync := { error := some "EIO" } } spooledEvent) trivial
  rw [hfails] at hrun
  have hfits : Fits exampleSerde unsynced spooledEvent (spooledText ++ [newline]) :=
    ⟨spooledEvent_fits.session, spooledEvent_fits.schema, rfl, spooledEvent_fits.text,
      spooledEvent_fits.room⟩
  have hretried : (emit exampleSerde {} spooledEvent).run unsynced = (.ok (), _) :=
    emit_written hfits.lineFor rfl rfl rfl
  have hintact := h exampleSerde _ _ _ _ _ _ _ {} spooledEvent exampleJournal_created hrun
    (by rw [hretried])
  rw [hretried] at hintact
  have hone := exampleSerde.one_line exampleSerde_writes
  have hnonempty := exampleSerde.nonempty exampleSerde_writes
  have hfirst : spoolLines (spooledText ++ [newline]) = [spooledText] := by
    have hline := @spoolLines_line [] spooledText (Or.inl rfl) hone hnonempty
    rw [List.nil_append] at hline
    exact hline
  have hcomplete : Complete (spooledText ++ [newline]) := Or.inr List.getLast?_concat
  have htwo := spoolLines_line hcomplete hone hnonempty
  rw [hfirst] at htwo
  have hlength := parseEventSpool_length hintact
  rw [hunsynced] at hlength
  change 1 = (spoolLines (spooledText ++ [newline] ++ ([] ++ (spooledText ++ [newline])))).length at hlength
  rw [List.nil_append, htwo] at hlength
  exact absurd hlength (by simp)

end NdjsonSink
end Rrjj
