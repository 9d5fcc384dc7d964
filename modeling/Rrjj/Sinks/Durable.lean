import Rrjj.Sinks.Journal

/-! The durable session sink: a journal, a checkpoint sink and an event sink. A flush
publishes the checkpoint first and the journal's events then. -/

namespace Rrjj
open Library Library.Proc

structure CheckpointRequest where
  shadowRoot : String
  sessionId : String
  commit : String
  lastSeq : ℕ
  lastOp : String
  deriving DecidableEq, Repr

structure CheckpointPublication where
  checkpoint : String
  deriving DecidableEq, Repr

def Char.isHexDigit (c : Char) : Bool :=
  c.isDigit || ('a' ≤ c && c ≤ 'f') || ('A' ≤ c && c ≤ 'F')

def stripCommitPrefix (commit : String) : List Char :=
  match commit.toList with
  | 'c' :: ':' :: hex => hex
  | hex => hex

def normalizeCommitOid (commit : String) : Except SinkError String :=
  let hex := stripCommitPrefix commit
  let bytes := (String.ofList hex).utf8ByteSize
  if bytes ≠ 40 ∧ bytes ≠ 64 then
    .error (.invalidFlush s!"checkpoint commit OID must be 40 or 64 hex digits: {commit.quote}")
  else if !hex.all Char.isHexDigit then
    .error (.invalidFlush s!"checkpoint commit OID is not hex: {commit.quote}")
  else .ok (String.ofList (hex.map Char.toLower))

inductive DurableLabel where
  | flushing (request : FlushRequest)
  | checkpointed (request : CheckpointRequest) (publication : CheckpointPublication)
  | publishing (request : EventPublishRequest)

/-- The sinks behind the journal, which answer as their own state tells them. -/
structure DurableSessionSink (κ : Type) where
  sessionId : String
  publishCheckpoint : CheckpointRequest → Proc κ SinkError CheckpointPublication
  publishEvents : EventPublishRequest → Proc κ SinkError EventAcknowledgement

structure DurableState (κ : Type) where
  journal : NdjsonSink
  behind : κ
  trace : List DurableLabel := []

abbrev DurableTask (κ α : Type) := Proc (DurableState κ) SinkError α

namespace DurableSessionSink
variable {κ : Type} (sink : DurableSessionSink κ)

def onJournal {α : Type} (m : JournalTask α) : DurableTask κ α :=
  zoom DurableState.journal (fun journal state => { state with journal := journal }) m

def onBehind {α : Type} (m : Proc κ SinkError α) : DurableTask κ α :=
  zoom DurableState.behind (fun behind state => { state with behind := behind }) m

def logDurable (label : DurableLabel) : DurableTask κ Unit :=
  modify fun state => { state with trace := state.trace ++ [label] }

def emit (serde : Serde) (answers : WriteAnswers) (event : Event) : DurableTask κ Unit :=
  onJournal (NdjsonSink.emit serde answers event)

def commitFor (request : FlushRequest) (events : List Event) : Except SinkError String :=
  match request.checkpoint.or (latestSnapshotCommit events) with
  | some commit => .ok commit
  | none => .error (.invalidFlush
      "flush requires a checkpoint commit OID from the recorder or a snapshot event")

def checkpoint (request : CheckpointRequest) : DurableTask κ CheckpointPublication := do
  let publication ← onBehind (sink.publishCheckpoint request)
  logDurable (.checkpointed request publication)
  return publication

def publish (request : EventPublishRequest) : DurableTask κ EventAcknowledgement := do
  logDurable (.publishing request)
  onBehind (sink.publishEvents request)

def checkAcknowledged (request : FlushRequest) (ack : EventAcknowledgement) :
    Except SinkError Unit :=
  if ack.acceptedThroughSeq < request.lastSeq then
    .error (.failed (s!"event sink acknowledged only through {ack.acceptedThroughSeq}, " ++
      s!"flush required {request.lastSeq}"))
  else if ack.durableThroughSeq.any fun seq => seq < request.lastSeq then
    .error (.failed (s!"event sink durable watermark {repr ack.durableThroughSeq} is before " ++
      s!"flush target {request.lastSeq}"))
  else .ok ()

def publishThrough (request : FlushRequest) (events : List Event) (checkpoint : String) :
    DurableTask κ Unit := do
  let ack ← sink.publish
    { sessionId := sink.sessionId
      schemaVersion := schemaVersion
      events := events
      durable := some ⟨request.lastSeq, request.lastOp, checkpoint⟩ }
  Proc.ofExcept (checkAcknowledged request ack)

def flushSession (answers : WriteAnswers) (request : FlushRequest) : DurableTask κ Unit := do
  logDurable (.flushing request)
  onJournal (NdjsonSink.flush answers)
  let state ← get
  let events ← Proc.ofExcept (state.journal.eventsThrough request.lastSeq)
  let commit ← Proc.ofExcept (commitFor request events)
  let publication ← sink.checkpoint
    { shadowRoot := request.shadowRoot
      sessionId := sink.sessionId
      commit := commit
      lastSeq := request.lastSeq
      lastOp := request.lastOp }
  let checkpoint ← Proc.ofExcept (normalizeCommitOid publication.checkpoint)
  sink.publishThrough request events checkpoint

end DurableSessionSink
end Rrjj
