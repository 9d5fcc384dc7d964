import Rrjj.Core.Commands

/-! The coordinator among its callers: any number of clients of the handle, whose calls are
made step by step, and the watcher task, which asks for a snapshot when its deadline has
passed. The two share the watch channel that says whether the session is paused. -/

namespace Rrjj
open Library Library.Proc

structure WatchDelays where
  quiescence : ℕ
  maxDelay : ℕ

inductive Caller where
  | client (id : ℕ)
  | watcher
  deriving DecidableEq

/-- How far a call of the handle has come: before `tx.send`, in the channel, taken up by the
coordinator, or answered. -/
inductive Phase where
  | entered
  | queued
  | serving
  | answered (reply : Reply)
  deriving DecidableEq

structure Call where
  command : Command
  phase : Phase
  deriving DecidableEq

structure InService where
  caller : Caller
  command : Command
  answers : ℕ → Turn
  start : World
  horizon : ℕ

def InService.seen (serving : InService) : Outcome Failure Unit × World :=
  (serve ⟨serving.answers, serving.horizon⟩ serving.command).run serving.start

/-- `flag` is what the watch channel holds; `due` and `retryDue` are the watcher's own. -/
structure Daemon where
  world : World
  running : Bool := true
  flag : Bool := false
  calls : Caller → Option Call := fun _ => none
  queue : List Caller := []
  serving : Option InService := none
  instant : ℕ := 0
  due : Option ℕ := none
  retryDue : Option ℕ := none
  stopped : Bool := false

inductive Move where
  | observe (call : WatcherCall)
  | pass (duration : ℕ)
  | call (id : ℕ) (command : Command)
  | send (caller : Caller)
  | receive (answers : ℕ → Turn)
  | proceed
  | leave (id : ℕ)
  | turn
  | fire
  | wake
  | abandon (caller : Caller)

def Command.isShutdown : Command → Bool
  | .shutdown _ => true
  | _ => false

def fatalCaptureError : Failure → Bool
  | .sink (.spoolFull _ _ _) | .sink (.diskExhausted _) | .sink (.failed _) => true
  | _ => false

def channelCapacity : ℕ := 64

def computeDue (delays : WatchDelays) (paused : Bool) (audit : AuditState)
    (retryDue : Option ℕ) : Option ℕ :=
  let auditDue := if paused then none else audit.deadline delays.quiescence delays.maxDelay
  match auditDue, retryDue with
  | some audit, some retry => some (min audit retry)
  | some audit, none => some audit
  | none, some retry => if !paused then some retry else none
  | none, none => none

namespace Daemon

def start (world : World) : Daemon where
  world := world

def setCall (s : Daemon) (caller : Caller) (call : Option Call) : Daemon :=
  { s with calls := Function.update s.calls caller call }

def computedDue (delays : WatchDelays) (s : Daemon) : Option ℕ :=
  computeDue delays s.flag s.world.audit s.retryDue

def watcherIdle (s : Daemon) : Bool := !s.stopped && (s.calls .watcher).isNone

def retrying (delays : WatchDelays) (s : Daemon) (retryDue : Option ℕ) : Daemon :=
  { s with retryDue := retryDue, due := computeDue delays s.flag s.world.audit retryDue }

def proceed (s : Daemon) (serving : InService) : Option Daemon :=
  match serving.seen with
  | (.cut, world) =>
    some { s with
      world := world
      serving := some { serving with horizon := serving.horizon + 1 } }
  | (.ok (), world) =>
    match world.trace.getLast? with
    | some (.replied _ reply) =>
      some { s.setCall serving.caller (some ⟨serving.command, .answered reply⟩) with
        world := world
        serving := none
        running := !serving.command.isShutdown }
    | _ => none
  | (.error _, _) => none

/-- What is left of a client's call when its reply has come; `resume` writes the flag then. -/
def left (s : Daemon) (id : ℕ) (command : Command) (reply : Reply) : Daemon :=
  { s.setCall (.client id) none with
    flag := if command = .resume ∧ reply.isOk = true then false else s.flag }

def woken (delays : WatchDelays) (s : Daemon) : Reply → Daemon
  | .failed failure =>
    if fatalCaptureError failure then { s.setCall .watcher none with stopped := true }
    else (s.setCall .watcher none).retrying delays (some (s.instant + delays.quiescence))
  | _ => (s.setCall .watcher none).retrying delays none

def step (delays : WatchDelays) (s : Daemon) : Move → Option Daemon
  | .observe call =>
    if s.serving.isNone then some { s with world := s.world.record call } else none
  | .pass duration => some { s with instant := s.instant + duration }
  | .call id command =>
    if (s.calls (.client id)).isNone then
      some { s.setCall (.client id) (some ⟨command, .entered⟩) with
        flag := if command = .pause then true else s.flag }
    else none
  | .send caller =>
    match s.calls caller with
    | some ⟨command, .entered⟩ =>
      if s.running ∧ s.queue.length < channelCapacity then
        some { s.setCall caller (some ⟨command, .queued⟩) with queue := s.queue ++ [caller] }
      else none
    | _ => none
  | .receive answers =>
    match s.running, s.serving, s.queue with
    | true, none, caller :: rest =>
      match s.calls caller with
      | some ⟨command, .queued⟩ =>
        some { s.setCall caller (some ⟨command, .serving⟩) with
          queue := rest
          serving := some ⟨caller, command, answers, s.world, s.world.clock⟩ }
      | _ => none
    | _, _, _ => none
  | .proceed =>
    match s.serving with
    | some serving => s.proceed serving
    | none => none
  | .leave id =>
    match s.calls (.client id) with
    | some ⟨command, .answered reply⟩ => some (s.left id command reply)
    | _ => none
  | .turn => if s.watcherIdle then some { s with due := s.computedDue delays } else none
  | .fire =>
    match s.due with
    | some due =>
      if s.watcherIdle ∧ due ≤ s.instant then some (s.setCall .watcher (some ⟨.snap, .entered⟩))
      else none
    | none => none
  | .wake =>
    match s.calls .watcher with
    | some ⟨.snap, .answered reply⟩ => some (s.woken delays reply)
    | _ => none
  | .abandon caller =>
    if s.running then none
    else
      match s.calls caller, caller with
      | some _, .client id => some (s.setCall (.client id) none)
      | some _, .watcher =>
        some ((s.setCall .watcher none).retrying delays (some (s.instant + delays.quiescence)))
      | none, _ => none

/-- A run all of whose moves meet a condition on the state in which they are made. -/
inductive Run (delays : WatchDelays) (meets : Daemon → Move → Prop) (first : Daemon) :
    Daemon → Prop
  | start : Run delays meets first first
  | step {s s' : Daemon} (move : Move) (run : Run delays meets first s) (meet : meets s move)
      (made : s.step delays move = some s') : Run delays meets first s'

def moves (delays : WatchDelays) (check : Daemon → Move → Bool) (s : Daemon) :
    List Move → Option Daemon
  | [] => some s
  | move :: rest =>
    if check s move then (s.step delays move).bind fun next => next.moves delays check rest
    else none

variable {delays : WatchDelays} {meets : Daemon → Move → Prop} {first s s' : Daemon}

theorem Run.moves {check : Daemon → Move → Bool} (run : Run delays meets first s)
    (sound : ∀ s move, check s move = true → meets s move) {list : List Move}
    (made : s.moves delays check list = some s') : Run delays meets first s' := by
  induction list generalizing s with
  | nil => exact Option.some.inj made ▸ run
  | cons move rest ih =>
    unfold Daemon.moves at made
    split_ifs at made with hcheck
    obtain ⟨next, hnext, hrest⟩ := Option.bind_eq_some_iff.mp made
    exact ih (run.step move (sound s move hcheck) hnext) hrest

theorem Run.invariant {I : Daemon → Prop} (run : Run delays meets first s) (h : I first)
    (keeps : ∀ {s s' move}, I s → meets s move → s.step delays move = some s' → I s') : I s := by
  induction run with
  | start => exact h
  | step move _ meet made ih => exact keeps ih meet made

def AnyCall (kind : Call → Prop) (calls : Caller → Option Call) : Prop :=
  ∃ caller call, calls caller = some call ∧ kind call

theorem anyCall_update {kind : Call → Prop} {calls : Caller → Option Call} {caller : Caller}
    {call : Option Call} (h : AnyCall kind (Function.update calls caller call)) :
    (∃ new, call = some new ∧ kind new) ∨ AnyCall kind calls := by
  obtain ⟨other, found, hfound, hkind⟩ := h
  by_cases hsame : other = caller
  · rw [hsame, Function.update_self] at hfound
    exact Or.inl ⟨found, hfound, hkind⟩
  · rw [Function.update_of_ne hsame] at hfound
    exact Or.inr ⟨other, found, hfound, hkind⟩

theorem AnyCall.update {kind : Call → Prop} {calls : Caller → Option Call}
    (h : AnyCall kind calls) (caller : Caller) (call : Option Call) :
    (∃ old, calls caller = some old ∧ kind old) ∨ AnyCall kind (Function.update calls caller call) := by
  obtain ⟨other, found, hfound, hkind⟩ := h
  by_cases hsame : other = caller
  · exact Or.inl ⟨found, hsame ▸ hfound, hkind⟩
  · exact Or.inr ⟨other, found, by rwa [Function.update_of_ne hsame], hkind⟩

theorem AnyCall.self {kind : Call → Prop} (calls : Caller → Option Call) (caller : Caller)
    {call : Call} (h : kind call) : AnyCall kind (Function.update calls caller (some call)) :=
  ⟨caller, call, Function.update_self _ _ _, h⟩

theorem AnyCall.setCall {kind : Call → Prop} {calls : Caller → Option Call} {caller : Caller}
    {call : Option Call} (h : AnyCall kind calls)
    (keeps : ∀ old, calls caller = some old → kind old → ∃ new, call = some new ∧ kind new) :
    AnyCall kind (Function.update calls caller call) := by
  rcases h.update caller call with ⟨old, hold, hkind⟩ | h
  · obtain ⟨new, rfl, hnew⟩ := keeps old hold hkind
    exact .self calls caller hnew
  · exact h

theorem AnyCall.setCall_of {kind : Call → Prop} {calls : Caller → Option Call} {caller : Caller}
    {old : Call} {call : Option Call} (h : AnyCall kind calls) (found : calls caller = some old)
    (keeps : kind old → ∃ new, call = some new ∧ kind new) :
    AnyCall kind (Function.update calls caller call) := by
  refine h.setCall fun other hother hkind => keeps ?_
  rw [Option.some.inj (found.symm.trans hother)]
  exact hkind

@[simp] theorem setCall_calls (s : Daemon) (caller : Caller) (call : Option Call) :
    (s.setCall caller call).calls = Function.update s.calls caller call := rfl

@[simp] theorem setCall_world (s : Daemon) (caller : Caller) (call : Option Call) :
    (s.setCall caller call).world = s.world := rfl

@[simp] theorem setCall_flag (s : Daemon) (caller : Caller) (call : Option Call) :
    (s.setCall caller call).flag = s.flag := rfl

@[simp] theorem setCall_serving (s : Daemon) (caller : Caller) (call : Option Call) :
    (s.setCall caller call).serving = s.serving := rfl

theorem woken_eq (delays : WatchDelays) (s : Daemon) (reply : Reply) :
    ∃ retryDue due stopped, s.woken delays reply =
      { s.setCall .watcher none with retryDue := retryDue, due := due, stopped := stopped } := by
  unfold woken
  split
  · split_ifs
    · exact ⟨_, _, _, rfl⟩
    · exact ⟨_, _, _, rfl⟩
  · exact ⟨_, _, _, rfl⟩

inductive Moved (delays : WatchDelays) (s : Daemon) : Move → Daemon → Prop
  | observe (call : WatcherCall) (idle : s.serving = none) :
      Moved delays s (.observe call) { s with world := s.world.record call }
  | pass (duration : ℕ) : Moved delays s (.pass duration) { s with instant := s.instant + duration }
  | call (id : ℕ) (command : Command) (free : s.calls (.client id) = none) :
      Moved delays s (.call id command)
        { s.setCall (.client id) (some ⟨command, .entered⟩) with
          flag := if command = .pause then true else s.flag }
  | send (caller : Caller) (command : Command)
      (entered : s.calls caller = some ⟨command, .entered⟩) (running : s.running = true) :
      Moved delays s (.send caller)
        { s.setCall caller (some ⟨command, .queued⟩) with queue := s.queue ++ [caller] }
  | receive (answers : ℕ → Turn) (caller : Caller) (rest : List Caller) (command : Command)
      (running : s.running = true) (idle : s.serving = none) (queue : s.queue = caller :: rest)
      (queued : s.calls caller = some ⟨command, .queued⟩) :
      Moved delays s (.receive answers)
        { s.setCall caller (some ⟨command, .serving⟩) with
          queue := rest
          serving := some ⟨caller, command, answers, s.world, s.world.clock⟩ }
  | waits (serving : InService) (busy : s.serving = some serving) (cut : serving.seen.1 = .cut) :
      Moved delays s .proceed
        { s with
          world := serving.seen.2
          serving := some { serving with horizon := serving.horizon + 1 } }
  | replies (serving : InService) (command : Command) (reply : Reply)
      (busy : s.serving = some serving) (ended : serving.seen.1 = .ok ())
      (last : serving.seen.2.trace.getLast? = some (.replied command reply)) :
      Moved delays s .proceed
        { s.setCall serving.caller (some ⟨serving.command, .answered reply⟩) with
          world := serving.seen.2
          serving := none
          running := !serving.command.isShutdown }
  | leave (id : ℕ) (command : Command) (reply : Reply)
      (answered : s.calls (.client id) = some ⟨command, .answered reply⟩) :
      Moved delays s (.leave id) (s.left id command reply)
  | turn (idle : s.watcherIdle = true) :
      Moved delays s .turn { s with due := s.computedDue delays }
  | fire (idle : s.watcherIdle = true) :
      Moved delays s .fire (s.setCall .watcher (some ⟨.snap, .entered⟩))
  | wake (reply : Reply) (answered : s.calls .watcher = some ⟨.snap, .answered reply⟩) :
      Moved delays s .wake (s.woken delays reply)
  | abandon (caller : Caller) (s' : Daemon) (closed : s.running = false)
      (running : s'.running = s.running) (serving : s'.serving = s.serving)
      (world : s'.world = s.world) :
      Moved delays s (.abandon caller) s'

theorem proceed_moved {serving : InService} (busy : s.serving = some serving)
    (made : s.proceed serving = some s') : Moved delays s .proceed s' := by
  unfold proceed at made
  split at made
  · next world hseen =>
    rw [← Option.some.inj made]
    have hmoved : Moved delays s .proceed _ := .waits serving busy (by rw [hseen])
    rwa [hseen] at hmoved
  · next world hseen =>
    split at made
    · next command reply hlast =>
      rw [← Option.some.inj made]
      have hmoved : Moved delays s .proceed _ :=
        .replies serving command reply busy (by rw [hseen]) (by rw [hseen]; exact hlast)
      rwa [hseen] at hmoved
    · exact absurd made (by simp)
  · exact absurd made (by simp)

/-- A move that can be made does what `Moved` says. -/
theorem step_moved {move : Move} (made : s.step delays move = some s') :
    Moved delays s move s' := by
  cases move with
  | observe call =>
    simp only [step] at made
    split at made
    · next hidle =>
      rw [← Option.some.inj made]
      exact .observe call (Option.isNone_iff_eq_none.mp hidle)
    · exact absurd made (by simp)
  | pass duration =>
    rw [← Option.some.inj made]
    exact .pass duration
  | call id command =>
    simp only [step] at made
    split at made
    · -- a client calls once at a time
      next hfree =>
      rw [← Option.some.inj made]
      exact .call id command (Option.isNone_iff_eq_none.mp hfree)
    · exact absurd made (by simp)
  | send caller =>
    simp only [step] at made
    split at made
    · next command hentered =>
      split at made
      · next hopen =>
        rw [← Option.some.inj made]
        exact .send caller command hentered hopen.1
      · exact absurd made (by simp)
    · exact absurd made (by simp)
  | receive answers =>
    simp only [step] at made
    split at made
    · -- the coordinator takes the first of the queue
      next caller rest hrunning hidle hqueue =>
      split at made
      · next command hqueued =>
        rw [← Option.some.inj made]
        exact .receive answers caller rest command hrunning hidle hqueue hqueued
      · exact absurd made (by simp)
    · exact absurd made (by simp)
  | proceed =>
    simp only [step] at made
    split at made
    · next serving hbusy => exact proceed_moved hbusy made
    · exact absurd made (by simp)
  | leave id =>
    simp only [step] at made
    split at made
    · next command reply hanswered =>
      rw [← Option.some.inj made]
      exact .leave id command reply hanswered
    · exact absurd made (by simp)
  | turn =>
    simp only [step] at made
    split at made
    · next hidle =>
      rw [← Option.some.inj made]
      exact .turn hidle
    · exact absurd made (by simp)
  | fire =>
    simp only [step] at made
    split at made
    · split at made
      · next hready =>
        rw [← Option.some.inj made]
        exact .fire hready.1
      · exact absurd made (by simp)
    · exact absurd made (by simp)
  | wake =>
    simp only [step] at made
    split at made
    · next reply hanswered =>
      rw [← Option.some.inj made]
      exact .wake reply hanswered
    · exact absurd made (by simp)
  | abandon caller =>
    simp only [step] at made
    split at made
    · exact absurd made (by simp)
    · next hclosed =>
      -- whoever is sent, queued or served when the coordinator is gone
      have hclosed' : s.running = false := by simpa using hclosed
      split at made
      · rw [← Option.some.inj made]
        exact .abandon _ _ hclosed' rfl rfl rfl
      · rw [← Option.some.inj made]
        exact .abandon _ _ hclosed' rfl rfl rfl
      · exact absurd made (by simp)

end Daemon
end Rrjj
