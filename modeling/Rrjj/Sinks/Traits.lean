import Rrjj.Schema

/-! What sinks are asked, what they answer, and how they fail. -/

namespace Rrjj

inductive SinkError where
  | serialize (message : String)
  | io (message : String)
  | spoolFull (used attempted limit : ℕ)
  | diskExhausted (path : String)
  | failed (message : String)
  | invalidFlush (message : String)
  | invalidConfig (message : String)
  | checkpointConflict (message : String)
  | eventConflict (message : String)
  | transient (message : String)
  deriving DecidableEq, Repr

def SinkError.toString : SinkError → String
  | .serialize message => s!"serialize event: {message}"
  | .io message => s!"write event stream: {message}"
  | .spoolFull used attempted limit =>
    s!"local spool is full ({used} + {attempted} > {limit} bytes)"
  | .diskExhausted path => s!"disk exhausted while writing {path}"
  | .failed message => s!"sink has failed permanently: {message}"
  | .invalidFlush message => s!"invalid flush request: {message}"
  | .invalidConfig message => s!"invalid sink configuration: {message}"
  | .checkpointConflict message => s!"checkpoint conflict: {message}"
  | .eventConflict message => s!"event publication conflict: {message}"
  | .transient message => s!"transient sink failure: {message}"

structure FlushRequest where
  shadowRoot : String
  lastSeq : ℕ
  lastOp : String
  checkpoint : Option String
  deriving DecidableEq, Repr

structure SinkCursor where
  deliveredSeq : Option ℕ
  deliveredOp : Option String
  checkpoint : Option String
  deriving DecidableEq, Repr

structure DurableWatermark where
  seq : ℕ
  op : String
  checkpoint : String
  deriving DecidableEq, Repr

structure EventPublishRequest where
  sessionId : String
  schemaVersion : ℕ
  events : List Event
  durable : Option DurableWatermark
  deriving DecidableEq, Repr

structure EventAcknowledgement where
  acceptedThroughSeq : ℕ
  durableThroughSeq : Option ℕ
  deriving DecidableEq, Repr

end Rrjj
