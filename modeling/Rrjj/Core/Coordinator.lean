import Rrjj.Library.Proc
import Rrjj.Sinks.Traits
import Rrjj.Core.Audit
import Rrjj.Core.Recorder

/-! The coordinator: the commands it serves and the events it hands to the sink.
The watcher records into the shared accumulator whenever the coordinator waits or takes
the accumulator's lock; the sink and jj answer as they please. -/

namespace Rrjj
open Library Library.Proc

structure Config where
  sessionId : String
  watchedRoot : String
  shadowRoot : String
  ignore : List String
  maxChangesPerEvent : ℕ
  rrjjVersion : String
  jjLibVersion : String := "0.43.0"
  jjStoreVersion : String := "jj-lib-0.43.0/git"

structure Status where
  sessionId : String
  seq : ℕ
  snapshots : ℕ
  lastOp : String
  pendingSnapshot : Bool
  paused : Bool
  deriving DecidableEq, Repr

inductive Command where
  | status
  | snap
  | mark (label : String) («meta» : List (String × String))
  | flush
  | pause
  | resume
  | shutdown (reason : String)
  deriving DecidableEq, Repr

inductive Failure where
  | sink (error : SinkError)
  | capture (message : String)
  | sequenceChanged
  | unreachable
  deriving DecidableEq, Repr

inductive Reply where
  | status (status : Status)
  | snapshot (snapshot : Snapshot)
  | done
  | failed (failure : Failure)
  deriving DecidableEq, Repr

def Reply.isOk : Reply → Bool
  | .failed _ => false
  | _ => true

structure Coordinator where
  config : Config
  recorder : JjRecorder
  seq : ℕ := 0
  snapshots : ℕ := 0
  touchedPaths : AuditPaths := ∅
  rawEvents : ℕ := 0
  auditStartedAt : Option String := none
  pendingSnapshot : Bool := false
  forceFullScan : Bool := false
  paused : Bool := false
  pendingSnapshotEvent : Option Event := none
  pendingOverflows : List OverflowNotice := []
  pathLimitReported : Bool := false

/-- What happened in a run, in the order in which it happened. -/
inductive Label where
  | observed (paths : List TouchedPath) (rawEvents : ℕ)
  | overflowed (source : String) (rawEvents : ℕ)
  | began (command : Command) (coordinator : Coordinator) (audit : AuditState)
  | replied (command : Command) (reply : Reply)
  | drained
  | capturing (fullScan : Bool)
  | captured (snapshot : Snapshot)
  | captureFailed
  | emitting (event : Event)
  | accepted (event : Event)
  | refused (event : Event)
  | sequenceChanged
  | flushing (request : FlushRequest)
  | flushed (request : FlushRequest)
  | flushFailed (request : FlushRequest)

structure World where
  coordinator : Coordinator
  audit : AuditState := {}
  clock : ℕ := 0
  trace : List Label := []

/-- The environment's part in one wait of the coordinator: what the watcher records
meanwhile, the time, and the answer of the sink or of jj if that is what is awaited. -/
structure Turn where
  arrivals : List WatcherCall := []
  now : String := ""
  sink : Except SinkError Unit := .ok ()
  checkpoint : Except String Checkpoint := .error ""

abbrev Environment := Oracle Turn
abbrev Task := Proc World Failure

def WatcherCall.label : WatcherCall → Label
  | .observe paths rawEvents _ _ => .observed paths rawEvents
  | .reportOverflow source rawEvents _ => .overflowed source rawEvents

namespace World

def log (w : World) (label : Label) : World := { w with trace := w.trace ++ [label] }

def record (w : World) (call : WatcherCall) : World :=
  { w with audit := w.audit.apply call, trace := w.trace ++ [call.label] }

def recordAll (w : World) (calls : List WatcherCall) : World := calls.foldl record w

def update (w : World) (f : Coordinator → Coordinator) : World :=
  { w with coordinator := f w.coordinator }

end World

namespace Coordinator

def status (coordinator : Coordinator) (audit : AuditState) : Status where
  sessionId := coordinator.config.sessionId
  seq := coordinator.seq
  snapshots := coordinator.snapshots
  lastOp := coordinator.recorder.opId
  pendingSnapshot := coordinator.pendingSnapshot || audit.isDirty
  paused := coordinator.paused

def mergePath (batchEvents : ℕ) (coordinator : Coordinator) (entry : String × Operations) :
    Coordinator :=
  match coordinator.touchedPaths[entry.1]? with
  | some existing =>
    { coordinator with
      touchedPaths := coordinator.touchedPaths.insert entry.1
        (existing.insertMany entry.2.toList) }
  | none =>
    if coordinator.touchedPaths.size < maxAuditPaths then
      { coordinator with touchedPaths := coordinator.touchedPaths.insert entry.1 entry.2 }
    else if !coordinator.pathLimitReported then
      { coordinator with
        pathLimitReported := true
        pendingOverflows := coordinator.pendingOverflows ++
          [⟨auditPathLimit, saturatingAdd coordinator.rawEvents batchEvents⟩] }
    else coordinator

def mergeOverflows (overflows : List OverflowNotice) (coordinator : Coordinator) : Coordinator :=
  if overflows.isEmpty then coordinator
  else
    { coordinator with
      pendingOverflows := coordinator.pendingOverflows ++ overflows
      forceFullScan := true }

def markPending (coordinator : Coordinator) : Coordinator :=
  if !coordinator.touchedPaths.isEmpty || !coordinator.pendingOverflows.isEmpty then
    { coordinator with pendingSnapshot := true }
  else coordinator

def absorb (coordinator : Coordinator) (batch : AuditBatch) : Coordinator :=
  let started := { coordinator with
    auditStartedAt := coordinator.auditStartedAt.or batch.startedAt }
  let merged := batch.paths.toList.foldl (mergePath batch.rawEvents) started
  let counted := { merged with rawEvents := saturatingAdd merged.rawEvents batch.rawEvents }
  (counted.mergeOverflows batch.overflows).markPending

def touchedPathsBody (coordinator : Coordinator) (startedAt now : String) : EventBody :=
  .touchedPaths
    { paths := coordinator.touchedPaths.toList.map fun entry =>
        { path := entry.1, operations := entry.2.toList }
      rawEvents := coordinator.rawEvents
      windowStartedAt := startedAt
      windowEndedAt := now }

def auditEmitted (coordinator : Coordinator) : Coordinator :=
  { coordinator with
    touchedPaths := ∅
    rawEvents := 0
    auditStartedAt := none
    pathLimitReported := false }

def retainedDelivered (coordinator : Coordinator) : Coordinator :=
  { coordinator with
    pendingSnapshotEvent := none
    forceFullScan := !coordinator.pendingOverflows.isEmpty
    pendingSnapshot :=
      coordinator.auditStartedAt.isSome || !coordinator.pendingOverflows.isEmpty
    snapshots := coordinator.snapshots + 1 }

def snapshotDelivered (coordinator : Coordinator) : Coordinator :=
  { coordinator with
    pendingSnapshotEvent := none
    forceFullScan := false
    pendingSnapshot := false
    snapshots := coordinator.snapshots + 1 }

end Coordinator

def World.drainAudit (w : World) : World :=
  { w with
    coordinator := w.coordinator.absorb w.audit.drain
    audit := {}
    trace := w.trace ++ [.drained] }

def log (label : Label) : Task Unit := modify fun w => w.log label

def update (f : Coordinator → Coordinator) : Task Unit := modify fun w => w.update f

def await (env : Environment) : Task Turn where
  run w :=
    let turn := env.answers w.clock
    let recorded := w.recordAll turn.arrivals
    if w.clock < env.horizon then (.ok turn, { recorded with clock := w.clock + 1 })
    else (.cut, recorded)

def interleave (env : Environment) : Task Unit := do
  let _ ← await env

def now (env : Environment) : Task String := do
  let w ← get
  pure (env.answers w.clock).now

def drainAudit : Task Unit := modify World.drainAudit

def emitExact (env : Environment) (event : Event) : Task Unit := do
  let w ← get
  if event.seq = w.coordinator.seq then do
    log (.emitting event)
    let turn ← await env
    match turn.sink with
    | .ok () => do
      log (.accepted event)
      update fun coordinator => { coordinator with seq := coordinator.seq + 1 }
    | .error error => do
      log (.refused event)
      throw (.sink error)
  else do
    log .sequenceChanged
    throw .sequenceChanged

def emit (env : Environment) (body : EventBody) : Task Unit := do
  let w ← get
  let time ← now env
  emitExact env (Event.new w.coordinator.config.sessionId w.coordinator.seq time body)

/-- `JjRecorder::capture`; a capture that fails leaves the recorder as it was. -/
def capture (env : Environment) (fullScan : Bool) : Task Snapshot := do
  log (.capturing fullScan)
  let turn ← await env
  match turn.checkpoint with
  | .ok checkpoint => do
    let w ← get
    let snapshot := w.coordinator.recorder.snapshotOf checkpoint
      w.coordinator.config.maxChangesPerEvent
    update fun coordinator => { coordinator with recorder := .captured checkpoint }
    log (.captured snapshot)
    pure snapshot
  | .error message => do
    log .captureFailed
    throw (.capture message)

def overflowBody (notice : OverflowNotice) : EventBody :=
  .overflow { source := notice.source, rawEvents := notice.rawEvents, recovery := .fullScanSnapshot }

def emitOverflowsFrom (env : Environment) : List OverflowNotice → Task Unit
  | [] => pure ()
  | notice :: _rest => do
    emit env (overflowBody notice)
    update fun coordinator =>
      { coordinator with pendingOverflows := coordinator.pendingOverflows.tail }
    emitOverflowsFrom env _rest

def emitOverflows (env : Environment) : Task Unit := do
  let w ← get
  emitOverflowsFrom env w.coordinator.pendingOverflows

def emitAudit (env : Environment) : Task Unit := do
  let w ← get
  match w.coordinator.auditStartedAt with
  | none => pure ()
  | some startedAt => do
    let time ← now env
    emit env (w.coordinator.touchedPathsBody startedAt time)
    update Coordinator.auditEmitted

def captureSnapshot (env : Environment) : Task Snapshot := do
  let w ← get
  let snapshot ← capture env w.coordinator.forceFullScan
  let time ← now env
  let event := Event.new w.coordinator.config.sessionId w.coordinator.seq time (.snapshot snapshot)
  update fun coordinator => { coordinator with pendingSnapshotEvent := some event }
  emitExact env event
  update Coordinator.snapshotDelivered
  pure snapshot

def deliverRetained (env : Environment) (event : Event) : Task Snapshot :=
  match event.body with
  | .snapshot snapshot => do
    emitExact env event
    update Coordinator.retainedDelivered
    pure snapshot
  | _ => throw .unreachable

def snapshot (env : Environment) : Task Snapshot := do
  let w ← get
  match w.coordinator.pendingSnapshotEvent with
  | some event => deliverRetained env event
  | none => do
    interleave env
    drainAudit
    emitOverflows env
    emitAudit env
    captureSnapshot env

/-- The loop `while self.pending_snapshot` of `mark`, `flush`, `finish` and `Resume`.
Every turn waits for the environment, so a run seen up to the horizon makes at most as many. -/
def settleFrom (env : Environment) : ℕ → Task Unit
  | 0 => cut
  | turns + 1 => do
    let w ← get
    if w.coordinator.pendingSnapshot then do
      let _ ← snapshot env
      interleave env
      drainAudit
      settleFrom env turns
    else pure ()

def settle (env : Environment) : Task Unit := settleFrom env (env.horizon + 1)

def mark (env : Environment) (label : String) («meta» : List (String × String)) : Task Unit := do
  drainAudit
  settle env
  let w ← get
  emit env (.mark { label := label, «meta» := «meta», refOp := w.coordinator.recorder.opId })

def flushDurable (env : Environment) : Task Unit := do
  let w ← get
  emit env (.flush { op := w.coordinator.recorder.opId, throughSeq := w.coordinator.seq })
  let w' ← get
  let request : FlushRequest :=
    { shadowRoot := w.coordinator.config.shadowRoot
      lastSeq := w'.coordinator.seq - 1
      lastOp := w.coordinator.recorder.opId
      checkpoint := w.coordinator.recorder.commitId }
  log (.flushing request)
  let turn ← await env
  match turn.sink with
  | .ok () => log (.flushed request)
  | .error error => do
    log (.flushFailed request)
    throw (.sink error)

def finish (env : Environment) (reason : String) : Task Unit := do
  drainAudit
  settle env
  let w ← get
  emit env (.sessionEnd
    { finalOp := w.coordinator.recorder.opId
      reason := reason
      snapshots := w.coordinator.snapshots
      events := w.coordinator.seq })
  flushDurable env

def currentStatus (env : Environment) : Task Status := do
  interleave env
  let w ← get
  pure (w.coordinator.status w.audit)

def flush (env : Environment) : Task Status := do
  drainAudit
  settle env
  flushDurable env
  currentStatus env

def resume (env : Environment) : Task Status := do
  drainAudit
  update fun coordinator => { coordinator with paused := false }
  settle env
  currentStatus env

def perform (env : Environment) : Command → Task Reply
  | .status => Reply.status <$> currentStatus env
  | .snap => Reply.snapshot <$> snapshot env
  | .mark label «meta» => (fun _ => Reply.done) <$> mark env label «meta»
  | .flush => Reply.status <$> flush env
  | .pause => do
    update fun coordinator => { coordinator with paused := true }
    Reply.status <$> currentStatus env
  | .resume => Reply.status <$> resume env
  | .shutdown reason => (fun _ => Reply.done) <$> finish env reason

def beginCommand (command : Command) : Task Unit :=
  modify fun w => w.log (.began command w.coordinator w.audit)

def serve (env : Environment) (command : Command) : Task Unit := do
  beginCommand command
  let result ← attempt (perform env command)
  match result with
  | .ok reply => log (.replied command reply)
  | .error failure => log (.replied command (.failed failure))

/-- `Coordinator::run`: the commands in the order in which they are received. A shutdown
ends the loop; when the senders are gone the session is finished all the same. -/
def run (env : Environment) : List Command → Task Unit
  | [] => do
    interleave env
    beginCommand (.shutdown "control_channel_closed")
    finish env "control_channel_closed"
  | .shutdown reason :: _ => do
    interleave env
    serve env (.shutdown reason)
  | command :: commands => do
    interleave env
    serve env command
    run env commands

def initializeCoordinator (env : Environment) : Task Unit := do
  let baseline ← capture env true
  let w ← get
  emit env (.sessionStart
    { roots := [w.coordinator.config.watchedRoot]
      baselineOp := baseline.op
      baselineTree := baseline.tree
      ignore := w.coordinator.config.ignore
      rrjjVersion := w.coordinator.config.rrjjVersion
      jjLibVersion := w.coordinator.config.jjLibVersion
      jjStoreVersion := w.coordinator.config.jjStoreVersion })

def World.start (config : Config) (recorder : JjRecorder) : World where
  coordinator := { config := config, recorder := recorder }

def session (env : Environment) (commands : List Command) : Task Unit := do
  initializeCoordinator env
  run env commands

/-- The state in which a session is found when it is seen up to the horizon. -/
def reached (env : Environment) (config : Config) (recorder : JjRecorder)
    (commands : List Command) : World :=
  ((session env commands).run (World.start config recorder)).2

end Rrjj
