import Mathlib.Data.List.DropRight
import Rrjj.Sinks.Durable
import Rrjj.Sinks.Http

/-! The Git checkpoint sink: a compare-and-swap of the session ref on a remote, against the
commit that the sink pushed last. -/

namespace Rrjj
open Library Library.Proc

structure GitCheckpointConfig where
  remoteUrl : String
  authorization : Option String
  refPrefix : String
  sessionId : String
  cursorPath : String
  deriving DecidableEq, Repr

inductive PushedFile where
  | missing
  | unreadable (message : String)
  | malformed (message : String)
  | pushed (checkpoint : Option String)
  deriving DecidableEq, Repr

def PushedFile.readPushedOid : PushedFile → Except SinkError (Option String)
  | .pushed checkpoint => .ok checkpoint
  | .malformed message => .error (.serialize message)
  | .missing => .ok none
  | .unreadable message => .error (.io message)

@[irreducible] def startsWith (text start : String) : Bool := start.toList.isPrefixOf text.toList

def endsWith (text finish : String) : Bool := finish.toList.isSuffixOf text.toList

def mentions (text part : String) : Bool := decide (part.toList <:+: text.toList)

def validateRefPrefix (refPrefix : String) : Except SinkError Unit :=
  if !startsWith refPrefix "refs/" || startsWith refPrefix "refs/heads" then
    .error (.invalidConfig
      s!"git ref prefix must be under refs/ and outside refs/heads: {refPrefix.quote}")
  else if mentions refPrefix "//" || endsWith refPrefix "/" then
    .error (.invalidConfig
      s!"git ref prefix must not end with '/' or contain '//': {refPrefix.quote}")
  else .ok ()

def validateSessionId (sessionId : String) : Except SinkError Unit :=
  if sessionId.isEmpty || mentions sessionId "/" || mentions sessionId "\\" ||
      mentions sessionId "\x00" || mentions sessionId ".." then
    .error (.invalidConfig s!"session id is not safe for a git ref name: {sessionId.quote}")
  else .ok ()

namespace GitCheckpointConfig

/-- `GitCheckpointSink::create`: the commit pushed last according to the cursor file. -/
def create (config : GitCheckpointConfig) (file : PushedFile) : Except SinkError (Option String) := do
  validateRefPrefix config.refPrefix
  validateSessionId config.sessionId
  file.readPushedOid

def sessionRef (config : GitCheckpointConfig) : String :=
  String.ofList (config.refPrefix.toList.rdropWhile (· = '/')) ++ "/" ++ config.sessionId

def sanitized (config : GitCheckpointConfig) (message : String) : String :=
  redactSecrets message config.authorization.toList

def sanitizedError (config : GitCheckpointConfig) : SinkError → SinkError
  | .checkpointConflict message => .checkpointConflict (config.sanitized message)
  | .failed message => .failed (config.sanitized message)
  | .transient message => .transient (config.sanitized message)
  | .invalidConfig message => .invalidConfig (config.sanitized message)
  | .invalidFlush message => .invalidFlush (config.sanitized message)
  | other => other

end GitCheckpointConfig

structure CommitGraph where
  descends : String → String → Bool
  trans : ∀ {a b c}, descends a b = true → descends b c = true → descends a c = true

/-- How the tip of the remote's ref is looked up: in the repository at a path, or by a
fetch into a cached ref, which may not be readable afterwards. -/
inductive TipLookup where
  | path (read : Bool)
  | fetched (read : Bool)
  | unfetched (message : String)
  | unopened (message : String)
  deriving DecidableEq, Repr

inductive PushReport where
  | updated
  | rejected (status : String)
  | failed (message : String)
  deriving DecidableEq, Repr

/-- How a push ends. One that fails may have `landed`; one that is not a fast-forward is
rejected with the status `refusal`. -/
structure PushAnswer where
  report : PushReport := .updated
  landed : Bool := false
  refusal : String := "non-fast-forward"
  deriving DecidableEq, Repr

/-- The answers to the steps of one call. `others` is what another party sets the remote's
ref to between the lookup of its tip and the push. -/
structure GitAnswers where
  opened : Except String Unit := .ok ()
  parsed : Except String Unit := .ok ()
  found : Except String Unit := .ok ()
  referenced : Except String Unit := .ok ()
  lookup : TipLookup := .path true
  others : Option (Option String) := none
  connected : Except String Unit := .ok ()
  push : PushAnswer := {}
  cursor : CursorWrite := .done

/-- `lastPushed` is in memory; `localRef` and `cache` are refs of the shadow repository and
`remote` is the session ref on the remote. -/
structure GitState where
  lastPushed : Option String
  cursor : PushedFile
  localRef : Option String
  cache : Option String
  remote : Option String
  deriving DecidableEq, Repr

abbrev GitTask := Proc GitState SinkError

structure GitCheckpointSink where
  config : GitCheckpointConfig
  graph : CommitGraph

def orFail (answer : Except String Unit) (failure : String → SinkError) : GitTask Unit :=
  match answer with
  | .ok () => pure ()
  | .error message => throw (failure message)

def fetchFailure (message : String) : Except SinkError (Option String) :=
  if mentions message "not found" || mentions message "couldn't find remote ref" ||
      mentions message "does not exist" then .ok none
  else if mentions message "timed out" || mentions message "Could not connect" ||
      mentions message "Failed to connect" then .error (.transient message)
  else .error (.failed message)

def pushFailure (message : String) : SinkError :=
  if mentions message "non-fast-forward" || mentions message "cannot lock ref" ||
      mentions message "rejected" then .checkpointConflict message
  else if mentions message "timed out" || mentions message "Could not connect" ||
      mentions message "Failed to connect" then .transient message
  else .failed message

def lookUpTip : TipLookup → GitTask (Option String)
  | .path read => do
    let state ← get
    return if read then state.remote else none
  | .fetched read => do
    -- a ref that the remote does not have leaves the cached ref as it was
    modify fun state => { state with cache := state.remote.or state.cache }
    let state ← get
    return if read then state.cache else none
  | .unfetched message => Proc.ofExcept (fetchFailure message)
  | .unopened message => throw (.failed s!"open git remote: {message}")

def alreadyAt (sessionRef commit : String) (remoteTip expectedPrior : Option String) :
    Except SinkError Bool :=
  match remoteTip with
  | none => .ok false
  | some tip =>
    if tip = commit then .ok true
    else
      match expectedPrior with
      | some expected =>
        if tip = expected then .ok false
        else .error (.checkpointConflict
          s!"remote {sessionRef} is at {tip}, expected {expected} before advancing to {commit}")
      | none => .error (.checkpointConflict
        s!"remote {sessionRef} already exists at {tip}; refusing unconditional create of {commit}")

namespace GitCheckpointSink
variable (sink : GitCheckpointSink)

def fastForwards (commit : String) (tip : Option String) : Bool :=
  tip.all fun tip => tip = commit || sink.graph.descends commit tip

def land : GitTask Unit := modify fun state => { state with remote := state.localRef }

def push (answers : GitAnswers) (commit : String) : GitTask Unit := do
  modify fun state => { state with remote := answers.others.getD state.remote }
  let state ← get
  if sink.fastForwards commit state.remote then
    match answers.push.report with
    | .updated => land
    | .rejected status => throw (.checkpointConflict s!"{sink.config.sessionRef}: {status}")
    | .failed message => do
      (if answers.push.landed then land else pure ())
      throw (pushFailure message)
  else
    match answers.push.report with
    | .failed message => throw (pushFailure message)
    | .rejected status => throw (.checkpointConflict s!"{sink.config.sessionRef}: {status}")
    | .updated => throw (.checkpointConflict s!"{sink.config.sessionRef}: {answers.push.refusal}")

def checkSessionRef (sessionRef : String) : Except SinkError Unit :=
  if startsWith sessionRef "refs/heads/" || !startsWith sessionRef "refs/" then
    .error (.invalidConfig (s!"recorder ref must be fully qualified under refs/ and outside " ++
      s!"refs/heads: {sessionRef}"))
  else .ok ()

def prepare (answers : GitAnswers) (shadowRoot commit : String) : GitTask Unit := do
  Proc.ofExcept (checkSessionRef sink.config.sessionRef)
  orFail answers.opened fun message =>
    .failed s!"open shadow git repository {shadowRoot}/repo/store/git: {message}"
  orFail answers.parsed fun message => .invalidFlush s!"invalid commit OID {commit}: {message}"
  orFail answers.found fun message => .invalidFlush (s!"checkpoint commit {commit} is missing " ++
    s!"from the local Git object store: {message}")
  orFail answers.referenced fun message => .failed s!"update local recorder ref: {message}"
  modify fun state => { state with localRef := some commit }

def pushCheckpointFromShadow (answers : GitAnswers) (shadowRoot commit : String)
    (expectedPrior : Option String) : GitTask CheckpointPublication := do
  sink.prepare answers shadowRoot commit
  let remoteTip ← lookUpTip answers.lookup
  match ← Proc.ofExcept (alreadyAt sink.config.sessionRef commit remoteTip expectedPrior) with
  | true => return ⟨commit⟩
  | false => do
    orFail answers.connected fun message => .failed s!"open git remote: {message}"
    sink.push answers commit
    return ⟨commit⟩

def writePushedOid (answer : CursorWrite) (checkpoint : String) : GitTask Unit := do
  modify fun state =>
    { state with cursor := if answer.stored then .pushed (some checkpoint) else state.cursor }
  match answer with
  | .done => pure ()
  | .failed _ message => throw (.io message)
  | .killed _ => cut

def publishCommit (answers : GitAnswers) (shadowRoot commit : String) :
    GitTask CheckpointPublication := do
  let state ← get
  match ← attempt (sink.pushCheckpointFromShadow answers shadowRoot commit state.lastPushed) with
  | .error failure => throw (sink.config.sanitizedError failure)
  | .ok result => do
    modify fun state => { state with lastPushed := some result.checkpoint }
    writePushedOid answers.cursor result.checkpoint
    return result

def publishCheckpoint (answers : GitAnswers) (request : CheckpointRequest) :
    GitTask CheckpointPublication := do
  let commit ← Proc.ofExcept (normalizeCommitOid request.commit)
  sink.publishCommit answers request.shadowRoot commit

end GitCheckpointSink
end Rrjj
