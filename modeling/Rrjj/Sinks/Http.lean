import Rrjj.Library.Proc
import Rrjj.Sinks.Traits

/-! The HTTP event sink: batches, attempts, acknowledgements and the cursor file. The state
of everything outside the sink (the server, the network, the disk under the cursor) is a
type `ρ` that the sink's requests change and its replies depend on. -/

namespace Rrjj
open Library Library.Proc

structure HttpEventConfig where
  url : String
  authorization : Option String
  maxEventsPerBatch : ℕ
  maxBytesPerBatch : ℕ
  cursorPath : String
  maxRetries : ℕ
  deriving DecidableEq, Repr

structure HttpEventBatch where
  schemaVersion : ℕ
  sessionId : String
  events : List Event
  durable : Option DurableWatermark
  deriving DecidableEq, Repr

structure HttpPost where
  url : String
  authorization : Option String
  body : HttpEventBatch
  deriving DecidableEq, Repr

structure HttpStatus where
  code : ℕ
  text : String
  deriving DecidableEq, Repr

/-- What `send` and then `text` answer to a POST; the body is what serde makes of it. -/
inductive HttpReply where
  | sendError (message : String)
  | bodyError (status : HttpStatus) (message : String)
  | response (status : HttpStatus) (body : Except String EventAcknowledgement)

inductive HttpClass where
  | success
  | conflict
  | retryable
  | permanent
  deriving DecidableEq, Repr

def classifyHttpStatus (code : ℕ) : HttpClass :=
  if 200 ≤ code ∧ code < 300 then .success
  else if code = 409 then .conflict
  else if code = 429 ∨ (500 ≤ code ∧ code < 600) then .retryable
  else .permanent

inductive CursorFile where
  | missing
  | unreadable (message : String)
  | malformed (message : String)
  | cursor (value : SinkCursor)
  deriving DecidableEq, Repr

def CursorFile.readDeliveredSeq : CursorFile → Except SinkError (Option ℕ)
  | .cursor value => .ok value.deliveredSeq
  | .malformed message => .error (.serialize message)
  | .missing => .ok none
  | .unreadable message => .error (.io message)

/-- How `write_cursor_atomic` ends. The rename may have happened before a failure, and
before the process is killed. -/
inductive CursorWrite where
  | done
  | failed (stored : Bool) (message : String)
  | killed (stored : Bool)
  deriving DecidableEq, Repr

def CursorWrite.stored : CursorWrite → Bool
  | .done => true
  | .failed stored _ => stored
  | .killed stored => stored

structure Network (ρ : Type) where
  post : ρ → HttpPost → Option HttpReply × ρ
  writeCursor : ρ → SinkCursor → CursorWrite × ρ

/-- `encodedLen` is the length of what `serde_json::to_vec` makes of an event. -/
structure HttpEventSink (ρ : Type) where
  config : HttpEventConfig
  encodedLen : Event → Except String ℕ
  network : Network ρ

inductive HttpLabel where
  | called (request : EventPublishRequest) (delivered : Option ℕ)
  | posted (post : HttpPost) (reply : Option HttpReply)

structure HttpState (ρ : Type) where
  deliveredSeq : Option ℕ
  cursor : CursorFile
  network : ρ
  trace : List HttpLabel

abbrev HttpTask (ρ α : Type) := Proc (HttpState ρ) SinkError α

/-- `HttpEventSink::create`: the sequence delivered according to the cursor file. `client` is
what the client builder answers. -/
def HttpEventConfig.create (config : HttpEventConfig) (file : CursorFile)
    (client : Except String Unit) : Except SinkError (Option ℕ) :=
  if config.maxEventsPerBatch = 0 then
    .error (.invalidConfig "event HTTP max batch events must be greater than zero")
  else if config.maxBytesPerBatch = 0 then
    .error (.invalidConfig "event HTTP max batch bytes must be greater than zero")
  else
    match file.readDeliveredSeq with
    | .error failure => .error failure
    | .ok delivered =>
      match client with
      | .error message => .error (.invalidConfig s!"build HTTP client: {message}")
      | .ok () => .ok delivered

def redactSecrets (message : String) (secrets : List String) : String :=
  secrets.foldl (fun redacted secret =>
    if secret.isEmpty then redacted else redacted.replace secret "***") message

def HttpEventConfig.sanitized (config : HttpEventConfig) (message : String) : String :=
  redactSecrets message config.authorization.toList

def validateContiguous : List Event → Except SinkError Unit
  | first :: second :: rest =>
    if second.seq = first.seq + 1 then validateContiguous (second :: rest)
    else .error (.eventConflict
      s!"HTTP event batch is not contiguous: {first.seq} then {second.seq}")
  | _ => .ok ()

/-- The number of the last event. The source panics on an empty batch, which it never posts. -/
def lastSeq (events : List Event) : ℕ := (events.getLast?.map Event.seq).getD 0

def validateAck (ack : EventAcknowledgement) (events : List Event)
    (durable : Option DurableWatermark) : Except SinkError Unit :=
  if ack.acceptedThroughSeq < lastSeq events then
    .error (.failed (s!"HTTP acknowledgement accepted_through_seq {ack.acceptedThroughSeq} " ++
      s!"is before batch end {lastSeq events}"))
  else
    match durable with
    | none => .ok ()
    | some durable =>
      match ack.durableThroughSeq with
      | some seq =>
        if durable.seq ≤ seq then .ok ()
        else .error (.failed (s!"HTTP acknowledgement durable_through_seq {seq} " ++
          s!"is before requested {durable.seq}"))
      | none => .error
        (.failed "HTTP acknowledgement missing durable_through_seq for final durable batch")

def batchCount (encodedLen : Event → Except String ℕ) (maxBytes : ℕ) :
    List Event → ℕ → ℕ → Except SinkError ℕ
  | [], _, count => .ok count
  | event :: rest, bytes, count =>
    match encodedLen event with
    | .error message => .error (.serialize message)
    | .ok encoded =>
      let extra := encoded + if count = 0 then 0 else 1
      if 0 < count ∧ maxBytes < bytes + extra then .ok count
      else if count = 0 ∧ maxBytes < encoded + 2 then
        .error (.invalidFlush (s!"single event at seq {event.seq} exceeds HTTP batch byte limit " ++
          s!"{maxBytes}"))
      else batchCount encodedLen maxBytes rest (bytes + extra) (count + 1)

def takeBatch (encodedLen : Event → Except String ℕ) (events : List Event)
    (maxEvents maxBytes : ℕ) : Except SinkError (List Event) := do
  let count ← batchCount encodedLen maxBytes (events.take maxEvents) 2 0
  return events.take (min (max count 1) events.length)

namespace HttpEventSink
variable {ρ : Type} (sink : HttpEventSink ρ)

/-- What the sink makes of one reply: an acknowledgement, a failure, or another attempt with
the failure that it ends in when no attempt is left. -/
inductive Verdict where
  | accept (ack : EventAcknowledgement)
  | fail (failure : SinkError)
  | retry (exhausted : SinkError)

def judge (body : HttpEventBatch) : HttpReply → Verdict
  | .sendError message => .retry (.transient (sink.config.sanitized message))
  | .bodyError _ message => .fail (.transient (sink.config.sanitized message))
  | .response status answer =>
    match classifyHttpStatus status.code with
    | .success =>
      match answer with
      | .error message => .fail (.failed (sink.config.sanitized
          s!"HTTP event sink returned malformed acknowledgement: {message}"))
      | .ok ack =>
        match validateAck ack body.events body.durable with
        | .error failure => .fail failure
        | .ok () => .accept ack
    | .conflict =>
      match answer with
      | .error message => .fail (.eventConflict (sink.config.sanitized
          s!"HTTP 409 without identical acknowledgement: {message}; body redacted"))
      | .ok ack =>
        match validateAck ack body.events body.durable with
        | .error failure => .fail (.eventConflict (sink.config.sanitized failure.toString))
        | .ok () => .accept ack
    | .retryable => .retry (.transient (sink.config.sanitized
        s!"HTTP event sink failed with {status.text}"))
    | .permanent => .fail (.failed (sink.config.sanitized
        s!"HTTP event sink permanently rejected batch with {status.text}"))

def send (post : HttpPost) : HttpTask ρ HttpReply := do
  let state ← get
  let answer := sink.network.post state.network post
  modify fun state =>
    { state with network := answer.2, trace := state.trace ++ [.posted post answer.1] }
  match answer.1 with
  | none => cut
  | some reply => pure reply

def tryPost (post : HttpPost) : HttpTask ρ (Except SinkError EventAcknowledgement) := do
  let reply ← sink.send post
  match sink.judge post.body reply with
  | .accept ack => pure (.ok ack)
  | .fail failure => throw failure
  | .retry exhausted => pure (.error exhausted)

def postLoop (post : HttpPost) : ℕ → HttpTask ρ EventAcknowledgement
  | 0 => do Proc.ofExcept (← sink.tryPost post)
  | retries + 1 => do
    match ← sink.tryPost post with
    | .ok ack => pure ack
    | .error _ => postLoop post retries

def postBatch (request : EventPublishRequest) (events : List Event)
    (durable : Option DurableWatermark) : HttpTask ρ EventAcknowledgement :=
  sink.postLoop
    { url := sink.config.url
      authorization := sink.config.authorization
      body :=
        { schemaVersion := request.schemaVersion
          sessionId := request.sessionId
          events := events
          durable := durable } }
    sink.config.maxRetries

def writeCursorAtomic (cursor : SinkCursor) : HttpTask ρ Unit := do
  let state ← get
  let answer := sink.network.writeCursor state.network cursor
  modify fun state =>
    { state with
      network := answer.2
      cursor := if answer.1.stored then .cursor cursor else state.cursor }
  match answer.1 with
  | .done => pure ()
  | .failed _ message => throw (.io message)
  | .killed _ => cut

def publishBatch (request : EventPublishRequest) (batch : List Event) (isFinal : Bool) :
    HttpTask ρ EventAcknowledgement := do
  let ack ← sink.postBatch request batch (if isFinal then request.durable else none)
  modify fun state => { state with deliveredSeq := some ack.acceptedThroughSeq }
  sink.writeCursorAtomic
    { deliveredSeq := some ack.acceptedThroughSeq
      deliveredOp := none
      checkpoint := request.durable.map DurableWatermark.checkpoint }
  return ack

def publishLoop (request : EventPublishRequest) :
    ℕ → List Event → EventAcknowledgement → HttpTask ρ EventAcknowledgement
  | 0, _, lastAck => pure lastAck
  | _ + 1, [], lastAck => pure lastAck
  | fuel + 1, event :: rest, _ => do
    let remaining := event :: rest
    let batch ← Proc.ofExcept (takeBatch sink.encodedLen remaining sink.config.maxEventsPerBatch
      sink.config.maxBytesPerBatch)
    let left := remaining.drop batch.length
    let ack ← sink.publishBatch request batch left.isEmpty
    publishLoop request fuel left ack

def publishFrom (request : EventPublishRequest) (already : Option ℕ) (remaining : List Event) :
    HttpTask ρ EventAcknowledgement :=
  sink.publishLoop request remaining.length remaining
    { acceptedThroughSeq := already.getD 0 - 1, durableThroughSeq := none }

def publishEvents (request : EventPublishRequest) : HttpTask ρ EventAcknowledgement := do
  let already := (← get).deliveredSeq
  modify fun state => { state with trace := state.trace ++ [.called request already] }
  match request.events with
  | [] => throw (.invalidFlush "HTTP event sink requires a contiguous non-empty event batch")
  | first :: _ => do
    Proc.ofExcept (validateContiguous request.events)
    match already with
    | some delivered =>
      match request.events.dropWhile fun event => event.seq ≤ delivered with
      | [] =>
        pure
          { acceptedThroughSeq := delivered
            durableThroughSeq := request.durable.map DurableWatermark.seq }
      | next :: rest =>
        if next.seq = delivered + 1 then sink.publishFrom request already (next :: rest)
        else throw (.eventConflict (s!"HTTP event sink sequence gap after delivered {delivered}: " ++
          s!"next is {next.seq}"))
    | none =>
      if first.seq = 0 then sink.publishFrom request already request.events
      else throw (.eventConflict
        s!"HTTP event sink requires batches to start at seq 0, got {first.seq}")

/-- Calls one after the other; the caller goes on after a failure. -/
def publishAll : List EventPublishRequest → HttpTask ρ Unit
  | [] => pure ()
  | request :: rest => do
    let _ ← attempt (sink.publishEvents request)
    publishAll rest

end HttpEventSink

def HttpState.created {ρ : Type} (delivered : Option ℕ) (file : CursorFile) (network : ρ) :
    HttpState ρ where
  deliveredSeq := delivered
  cursor := file
  network := network
  trace := []

end Rrjj
