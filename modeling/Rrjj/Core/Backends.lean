import Rrjj.Library.Fallible

/-! The options of a daemon that decide where it keeps its session, and the sink that is made of them. -/

namespace Rrjj
open Library

inductive CheckpointBackend where
  | «local»
  | git
  deriving DecidableEq

inductive EventBackend where
  | «local»
  | http
  | none
  deriving DecidableEq

structure BackendOptions where
  maxChanges : ℕ
  quiescenceMs : ℕ
  maxDelayMs : ℕ
  eventMaxBatchEvents : ℕ
  eventMaxBatchBytes : ℕ
  sessionDir : Option String
  checkpointBackend : Option CheckpointBackend
  eventBackend : Option EventBackend
  gitRemoteUrl : Option String
  eventHttpUrl : Option String

namespace BackendOptions

def checkpoints (options : BackendOptions) : Option CheckpointBackend :=
  options.checkpointBackend.or
    (if options.sessionDir.isSome then some .local
    else if options.gitRemoteUrl.isSome then some .git
    else none)

def events (options : BackendOptions) : EventBackend :=
  options.eventBackend.getD
    (if options.sessionDir.isSome then .local
    else if options.eventHttpUrl.isSome then .http
    else .none)

def ensure (condition : Bool) (message : String) : Except String Unit :=
  if condition then .ok () else .error message

def checkBackends (options : BackendOptions) : Except String Unit :=
  match options.checkpoints, options.events with
  | some .local, .local =>
    ensure options.sessionDir.isSome "--session-dir is required for local checkpoint/event backends"
  | some .git, .http => do
    ensure options.gitRemoteUrl.isSome
      "--git-remote-url or RRJJ_GIT_REMOTE_URL is required for the git checkpoint backend"
    ensure options.eventHttpUrl.isSome
      "--event-http-url or RRJJ_EVENT_HTTP_URL is required for the http event backend"
  | none, .none => .ok ()
  | some .local, .none | none, .local =>
    .error "local backends must be used together via --session-dir"
  | _, _ => .error "supported durable modes are: local (--session-dir), git+http, or spool-only"

def validate (options : BackendOptions) : Except String Unit := do
  ensure (0 < options.maxChanges) "--max-changes must be greater than zero"
  ensure (0 < options.quiescenceMs && 0 < options.maxDelayMs) "watch delays must be greater than zero"
  ensure (0 < options.eventMaxBatchEvents) "--event-max-batch-events must be greater than zero"
  ensure (0 < options.eventMaxBatchBytes) "--event-max-batch-bytes must be greater than zero"
  options.checkBackends

/-- The sink under the broadcast. -/
inductive Durable where
  | directory (sessionDir : String)
  | remote (gitRemoteUrl eventHttpUrl : String)
  | spool

/-- The sink that `run_daemon` makes, which panics where it has none to make. -/
def durable (options : BackendOptions) : Option Durable :=
  match options.checkpoints, options.events with
  | some .local, .local => options.sessionDir.map .directory
  | some .git, .http => do
    let remote ← options.gitRemoteUrl
    let url ← options.eventHttpUrl
    return .remote remote url
  | none, .none => some .spool
  | _, _ => none

theorem ensure_ok {condition : Bool} {message : String} (h : ensure condition message = .ok ()) :
    condition = true := by
  unfold ensure at h
  by_contra hfalse
  rw [if_neg hfalse] at h
  exact absurd h (by simp)

/-- What was validated is there: the daemon never panics for want of a sink. -/
theorem durable_of_validated {options : BackendOptions} (validated : options.validate = .ok ()) :
    options.durable.isSome = true := by
  obtain ⟨-, -, validated⟩ := bind_ok_iff.mp validated
  obtain ⟨-, -, validated⟩ := bind_ok_iff.mp validated
  obtain ⟨-, -, validated⟩ := bind_ok_iff.mp validated
  obtain ⟨-, -, validated⟩ := bind_ok_iff.mp validated
  unfold checkBackends at validated
  unfold durable
  generalize options.checkpoints = checkpoints at validated ⊢
  generalize options.events = events at validated ⊢
  rcases checkpoints with _ | _ | _ <;> rcases events with _ | _ | _
  case some.local.local =>
    rw [Option.isSome_map]
    exact ensure_ok validated
  case some.git.http =>
    obtain ⟨⟨⟩, hremote, hurl⟩ := bind_ok_iff.mp validated
    obtain ⟨remote, hremote⟩ := Option.isSome_iff_exists.mp (ensure_ok hremote)
    obtain ⟨url, hurl⟩ := Option.isSome_iff_exists.mp (ensure_ok hurl)
    simp [hremote, hurl]
  case none.none => rfl
  all_goals exact absurd validated (by simp)

end BackendOptions

end Rrjj
