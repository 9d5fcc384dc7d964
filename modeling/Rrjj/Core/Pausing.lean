import Rrjj.Core.Daemon
import Rrjj.Core.Retention

/-! Pausing: the flag that the watcher reads against the coordinator's own. They agree
whenever no pause or resume is under way, unless a resume fails or a pause overtakes the
end of a resume. -/

namespace Rrjj
open Library Library.Proc

def CoordinatorIs (P : Coordinator → Prop) (w : World) : Prop := P w.coordinator

section
variable {env : Environment} {P : Coordinator → Prop}

theorem log_keeps (label : Label) : Keeps (CoordinatorIs P) (log label) :=
  Keeps.modify fun _ h => h

theorem update_keeps {f : Coordinator → Coordinator} (h : ∀ c, P c → P (f c)) :
    Keeps (CoordinatorIs P) (update f) := Keeps.modify fun w hw => h w.coordinator hw

theorem await_keeps : Keeps (CoordinatorIs P) (await env) := by
  intro w hw
  have hrecorded : CoordinatorIs P (w.recordAll (env.answers w.clock).arrivals) := by
    unfold CoordinatorIs
    rw [World.recordAll_coordinator]
    exact hw
  unfold await
  by_cases hclock : w.clock < env.horizon
  · simp only [hclock, if_true]
    exact hrecorded
  · simp only [hclock, if_false]
    exact hrecorded

theorem interleave_keeps : Keeps (CoordinatorIs P) (interleave env) :=
  await_keeps.bind fun _ => Keeps.pure ()

theorem now_keeps : Keeps (CoordinatorIs P) (now env) := Keeps.get fun _ _ => Keeps.pure _

theorem currentStatus_keeps : Keeps (CoordinatorIs P) (currentStatus env) :=
  interleave_keeps.bind fun _ => Keeps.get fun _ _ => Keeps.pure _

theorem capture_keeps (captured : ∀ c checkpoint, P c →
    P { c with recorder := .captured checkpoint }) (fullScan : Bool) :
    Keeps (CoordinatorIs P) (capture env fullScan) := by
  refine (log_keeps _).bind fun _ => await_keeps.bind fun turn => ?_
  rcases turn.checkpoint with message | checkpoint
  · exact (log_keeps _).bind fun _ => Keeps.throw _
  · refine Keeps.get fun _ _ => (update_keeps fun c => captured c checkpoint).bind fun _ => ?_
    exact (log_keeps _).bind fun _ => Keeps.pure _

variable (next : ∀ c, P c → P { c with seq := c.seq + 1 })
include next

theorem emitExact_keeps (event : Event) : Keeps (CoordinatorIs P) (emitExact env event) := by
  refine Keeps.get fun u _ => ?_
  split_ifs
  · refine (log_keeps _).bind fun _ => await_keeps.bind fun turn => ?_
    rcases turn.sink with error | _
    · exact (log_keeps _).bind fun _ => Keeps.throw _
    · exact (log_keeps _).bind fun _ => update_keeps next
  · exact (log_keeps _).bind fun _ => Keeps.throw _

theorem emit_keeps (body : EventBody) : Keeps (CoordinatorIs P) (emit env body) :=
  Keeps.get fun _ _ => now_keeps.bind fun _ => emitExact_keeps next _

theorem flushDurable_keeps : Keeps (CoordinatorIs P) (flushDurable env) := by
  refine Keeps.get fun _ _ => (emit_keeps next _).bind fun _ => Keeps.get fun _ _ => ?_
  refine (log_keeps _).bind fun _ => await_keeps.bind fun turn => ?_
  rcases turn.sink with error | _
  · exact (log_keeps _).bind fun _ => Keeps.throw _
  · exact log_keeps _

end

abbrev PausedIs (paused : Bool) : World → Prop := CoordinatorIs fun c => c.paused = paused

variable {env : Environment} {b : Bool}

theorem update_paused {f : Coordinator → Coordinator} (h : ∀ c, (f c).paused = c.paused) :
    Keeps (PausedIs b) (update f) := update_keeps fun c hc => (h c).trans hc

theorem emit_paused (body : EventBody) : Keeps (PausedIs b) (emit env body) :=
  emit_keeps (fun _ h => h) body

theorem emitExact_paused (event : Event) : Keeps (PausedIs b) (emitExact env event) :=
  emitExact_keeps (fun _ h => h) event

theorem drainAudit_paused : Keeps (PausedIs b) drainAudit := by
  apply Keeps.modify
  intro w hw
  exact (Coordinator.absorb_paused w.coordinator w.audit.drain).trans hw

theorem capture_paused (fullScan : Bool) : Keeps (PausedIs b) (capture env fullScan) :=
  capture_keeps (fun _ _ h => h) fullScan

theorem emitOverflowsFrom_paused (notices : List OverflowNotice) :
    Keeps (PausedIs b) (emitOverflowsFrom env notices) := by
  induction notices with
  | nil => exact Keeps.pure ()
  | cons notice rest ih =>
    exact (emit_paused _).bind fun _ => (update_paused (by intro _; rfl)).bind fun _ => ih

theorem emitAudit_paused : Keeps (PausedIs b) (emitAudit env) := by
  refine Keeps.get fun u _ => ?_
  rcases u.coordinator.auditStartedAt with _ | startedAt
  · exact Keeps.pure ()
  · exact now_keeps.bind fun _ => (emit_paused _).bind fun _ => update_paused (by intro _; rfl)

theorem captureSnapshot_paused : Keeps (PausedIs b) (captureSnapshot env) := by
  refine Keeps.get fun _ _ => (capture_paused _).bind fun _ => now_keeps.bind fun _ => ?_
  refine (update_paused (by intro _; rfl)).bind fun _ => (emitExact_paused _).bind fun _ => ?_
  exact (update_paused (by intro _; rfl)).bind fun _ => Keeps.pure _

theorem deliverRetained_paused (event : Event) : Keeps (PausedIs b) (deliverRetained env event) := by
  unfold deliverRetained
  split
  · refine (emitExact_paused _).bind fun _ => ?_
    exact (update_paused (by intro _; rfl)).bind fun _ => Keeps.pure _
  · exact Keeps.throw _

theorem snapshot_paused : Keeps (PausedIs b) (snapshot env) := by
  refine Keeps.get fun u _ => ?_
  rcases u.coordinator.pendingSnapshotEvent with _ | event
  · refine interleave_keeps.bind fun _ => drainAudit_paused.bind fun _ => ?_
    refine Keeps.bind (Keeps.get fun _ _ => emitOverflowsFrom_paused _) fun _ => ?_
    exact emitAudit_paused.bind fun _ => captureSnapshot_paused
  · exact deliverRetained_paused event

theorem settleFrom_paused (turns : ℕ) : Keeps (PausedIs b) (settleFrom env turns) := by
  induction turns with
  | zero => exact Keeps.cut
  | succ turns ih =>
    refine Keeps.get fun u _ => ?_
    split_ifs
    · refine snapshot_paused.bind fun _ => interleave_keeps.bind fun _ => ?_
      exact drainAudit_paused.bind fun _ => ih
    · exact Keeps.pure ()

theorem finish_paused (reason : String) : Keeps (PausedIs b) (finish env reason) := by
  refine drainAudit_paused.bind fun _ => (settleFrom_paused _).bind fun _ => ?_
  exact Keeps.get fun _ _ => (emit_paused _).bind fun _ => (flushDurable_keeps fun _ h => h)

theorem perform_paused {command : Command} (notPause : command ≠ .pause)
    (notResume : command ≠ .resume) : Keeps (PausedIs b) (perform env command) := by
  cases command with
  | status => exact Triple.map currentStatus_keeps
  | snap => exact Triple.map snapshot_paused
  | mark label «meta» =>
    refine Triple.map (drainAudit_paused.bind fun _ => (settleFrom_paused _).bind fun _ => ?_)
    exact Keeps.get fun _ _ => emit_paused _
  | flush =>
    refine Triple.map (drainAudit_paused.bind fun _ => (settleFrom_paused _).bind fun _ => ?_)
    exact (flushDurable_keeps fun _ h => h).bind fun _ => currentStatus_keeps
  | pause => exact absurd rfl notPause
  | resume => exact absurd rfl notResume
  | shutdown reason => exact Triple.map (finish_paused reason)

theorem perform_pausing {command : Command} (h : command = .pause ∧ b = true ∨
    command = .resume ∧ b = false) :
    Triple (fun _ => True) (perform env command) (fun _ => PausedIs b) (PausedIs b) := by
  rcases h with ⟨rfl, rfl⟩ | ⟨rfl, rfl⟩
  · refine Triple.bind (Q := fun _ => PausedIs true) (Triple.modify fun _ _ => rfl) fun _ => ?_
    exact Triple.map currentStatus_keeps
  · refine Triple.map (Triple.bind (Q := fun _ _ => True) (Triple.modify fun _ _ => trivial)
      fun _ => ?_)
    refine Triple.bind (Q := fun _ => PausedIs false) (Triple.modify fun _ _ => rfl) fun _ => ?_
    exact (settleFrom_paused _).bind fun _ => currentStatus_keeps

theorem serve_reply_paused (result : Except Failure Reply) (command : Command) :
    Keeps (PausedIs b) (match result with
      | .ok reply => log (.replied command reply)
      | .error failure => log (.replied command (.failed failure))) := by
  cases result <;> exact log_keeps _

theorem serve_paused {command : Command} (notPause : command ≠ .pause)
    (notResume : command ≠ .resume) : Keeps (PausedIs b) (serve env command) :=
  Keeps.bind (Keeps.modify fun _ h => h) fun _ =>
    (perform_paused notPause notResume).attempt.bind fun _ => serve_reply_paused _ command

theorem serve_pausing {command : Command} (h : command = .pause ∧ b = true ∨
    command = .resume ∧ b = false) :
    Triple (fun _ => True) (serve env command) (fun _ => PausedIs b) (PausedIs b) := by
  refine Triple.bind (Q := fun _ _ => True) (Triple.modify fun _ _ => trivial) fun _ => ?_
  refine (perform_pausing h).attempt.bind fun result => ?_
  refine (serve_reply_paused result command).pre fun w hw => ?_
  cases result <;> exact hw

theorem InService.seen_paused (serving : InService) (notPause : serving.command ≠ .pause)
    (notResume : serving.command ≠ .resume) :
    serving.seen.2.coordinator.paused = serving.start.coordinator.paused := by
  have hkeeps := @serve_paused ⟨serving.answers, serving.horizon⟩
    serving.start.coordinator.paused _ notPause notResume
  exact hkeeps.final (s := serving.start) rfl

theorem InService.replied_paused (serving : InService) (ended : serving.seen.1 = .ok ()) :
    (serving.command = .pause → serving.seen.2.coordinator.paused = true) ∧
      (serving.command = .resume → serving.seen.2.coordinator.paused = false) ∧
      (serving.command ≠ .pause → serving.command ≠ .resume →
        serving.seen.2.coordinator.paused = serving.start.coordinator.paused) := by
  have hpausing : ∀ b, serving.command = .pause ∧ b = true ∨ serving.command = .resume ∧ b = false →
      serving.seen.2.coordinator.paused = b := by
    intro b h
    have hends := @serve_pausing ⟨serving.answers, serving.horizon⟩ b _ h serving.start trivial
    change Ends _ _ serving.seen at hends
    rcases hseen : serving.seen with ⟨outcome, w⟩
    rw [hseen] at hends ended
    obtain rfl : outcome = .ok () := ended
    exact hends
  exact ⟨fun h => hpausing true (Or.inl ⟨h, rfl⟩), fun h => hpausing false (Or.inr ⟨h, rfl⟩),
    serving.seen_paused⟩

namespace Daemon

def settled (s : Daemon) : World :=
  match s.serving with
  | some serving => serving.start
  | none => s.world

theorem settled_serving {s : Daemon} {serving : InService} (busy : s.serving = some serving) :
    s.settled = serving.start := by
  unfold settled
  rw [busy]

theorem settled_idle {s : Daemon} (idle : s.serving = none) : s.settled = s.world := by
  unfold settled
  rw [idle]

def Pauses (call : Call) : Prop := call.command = .pause ∧ ∀ reply, call.phase ≠ .answered reply

def Resumes (call : Call) : Prop :=
  call.command = .resume ∧ ∃ reply, call.phase = .answered reply ∧ reply.isOk = true

def PausePending (s : Daemon) : Prop := AnyCall Pauses s.calls

def Resuming (s : Daemon) : Prop := AnyCall Resumes s.calls

def FailsResume (s : Daemon) : Move → Prop
  | .proceed => ∃ serving command failure, s.serving = some serving ∧ serving.command = .resume ∧
      serving.seen.2.trace.getLast? = some (.replied command (.failed failure)) ∧
      s.flag = true ∧ ¬ s.PausePending ∧ ¬ s.Resuming
  | _ => False

def Overtaken (s : Daemon) : Move → Prop
  | .leave id => ∃ reply, s.calls (.client id) = some ⟨.resume, .answered reply⟩ ∧
      reply.isOk = true ∧ (s.PausePending ∨ s.settled.coordinator.paused = true)
  | _ => False

/-- No pause or resume is under way. -/
def Undisturbed (s : Daemon) : Prop :=
  ∀ caller call, s.calls caller = some call → call.command ≠ .pause ∧ call.command ≠ .resume

/-- The watcher's flag says what the coordinator's status says. -/
def Agrees (s : Daemon) : Prop :=
  s.running = true → s.Undisturbed →
    s.flag = (s.world.coordinator.status s.world.audit).paused

def Tracked (s : Daemon) : Prop :=
  ∀ serving, s.serving = some serving → s.running = true ∧
    s.calls serving.caller = some ⟨serving.command, .serving⟩ ∧
    (serving.command ≠ .pause → serving.command ≠ .resume →
      s.world.coordinator.paused = serving.start.coordinator.paused)

def FlagFounded (s : Daemon) : Prop :=
  s.running = true → s.flag = true →
    s.settled.coordinator.paused = true ∨ s.PausePending ∨ s.Resuming

def FlagKept (s : Daemon) : Prop :=
  s.running = true → s.PausePending ∨ s.settled.coordinator.paused = true → s.flag = true

variable {delays : WatchDelays} {s s' : Daemon} {move : Move}

theorem calls_of_watcherIdle (idle : s.watcherIdle = true) : s.calls .watcher = none := by
  simp only [watcherIdle, Bool.and_eq_true, Option.isNone_iff_eq_none] at idle
  exact idle.2

theorem serving_update {calls : Caller → Option Call} {caller other : Caller} {command : Command}
    (h : calls other = some ⟨command, .serving⟩) (call : Option Call)
    (hne : ∀ c, calls caller ≠ some ⟨c, .serving⟩) :
    Function.update calls caller call other = some ⟨command, .serving⟩ := by
  have hother : other ≠ caller := by
    rintro rfl
    exact hne command h
  rw [Function.update_of_ne hother]
  exact h

theorem Tracked.setCall (h : s.Tracked) {caller : Caller} (call : Option Call)
    (hne : ∀ c, s.calls caller ≠ some ⟨c, .serving⟩) : (s.setCall caller call).Tracked := by
  intro serving hserving
  obtain ⟨hrunning, hcall, hpaused⟩ := h serving hserving
  exact ⟨hrunning, serving_update hcall call hne, hpaused⟩

theorem Tracked.step (h : s.Tracked) (moved : Moved delays s move s') : s'.Tracked := by
  cases moved with
  | observe call idle =>
    intro serving hserving
    exact absurd (idle.symm.trans hserving) (by simp)
  | pass duration => exact h
  | call id command free => exact h.setCall _ (by simp [free])
  | send caller command entered => exact h.setCall _ (by simp [entered])
  | receive answers caller rest command running idle =>
    intro serving hserving
    rw [← Option.some.inj hserving]
    exact ⟨running, Function.update_self _ _ _, fun _ _ => rfl⟩
  | waits serving busy cut =>
    intro serving' hserving
    rw [← Option.some.inj hserving]
    obtain ⟨hrunning, hcall, -⟩ := h serving busy
    exact ⟨hrunning, hcall, fun notPause notResume => serving.seen_paused notPause notResume⟩
  | replies serving =>
    intro serving' hserving
    exact absurd hserving (by simp)
  | leave id command reply answered =>
    unfold left
    exact h.setCall _ (by simp [answered])
  | turn => exact h
  | fire idle =>
    refine h.setCall _ ?_
    have hnone := calls_of_watcherIdle idle
    simp [hnone]
  | wake reply answered =>
    have hnext : (s.setCall .watcher none).Tracked := h.setCall _ (by simp [answered])
    obtain ⟨retryDue, due, stopped, hwoken⟩ := s.woken_eq delays reply
    rw [hwoken]
    exact hnext
  | abandon caller _ closed _ same =>
    intro serving hserving
    have hrunning := (h serving (same ▸ hserving)).1
    rw [closed] at hrunning
    exact absurd hrunning (by decide)

theorem FlagFounded.setCall (h : s.FlagFounded) {caller : Caller} (call : Option Call)
    (pauses : ∀ old, s.calls caller = some old → Pauses old → ∃ new, call = some new ∧ Pauses new)
    (resumes : ∀ old, s.calls caller = some old → ¬ Resumes old) :
    (s.setCall caller call).FlagFounded := by
  intro hrunning hflag
  refine (h hrunning hflag).imp_right fun hcalls => ?_
  refine hcalls.imp (fun hpauses => hpauses.setCall pauses) fun hresumes => ?_
  exact AnyCall.setCall hresumes fun old hold hkind => absurd hkind (resumes old hold)

theorem FlagFounded.setCall_of (h : s.FlagFounded) {caller : Caller} {old : Call}
    (found : s.calls caller = some old) (call : Option Call)
    (pauses : Pauses old → ∃ new, call = some new ∧ Pauses new) (resumes : ¬ Resumes old) :
    (s.setCall caller call).FlagFounded := by
  refine h.setCall call (fun other hother => ?_) fun other hother => ?_
  · rwa [← Option.some.inj (found.symm.trans hother)]
  · rwa [← Option.some.inj (found.symm.trans hother)]

theorem FlagFounded.replied (h : s.FlagFounded) (tracked : s.Tracked) {serving : InService}
    {command : Command} {reply : Reply} (busy : s.serving = some serving)
    (ended : serving.seen.1 = .ok ())
    (last : serving.seen.2.trace.getLast? = some (.replied command reply))
    (safe : ¬ s.FailsResume .proceed) (flag : s.flag = true) :
    serving.seen.2.coordinator.paused = true ∨
      (AnyCall Pauses (Function.update s.calls serving.caller
          (some ⟨serving.command, .answered reply⟩)) ∨
        AnyCall Resumes (Function.update s.calls serving.caller
          (some ⟨serving.command, .answered reply⟩))) := by
  obtain ⟨hrunning, hcall, -⟩ := tracked serving busy
  have hserved := serving.replied_paused ended
  have hold := h hrunning flag
  rw [settled_serving busy] at hold
  have hkept : serving.command ≠ .pause → s.PausePending ∨ s.Resuming →
      AnyCall Pauses (Function.update s.calls serving.caller
        (some ⟨serving.command, .answered reply⟩)) ∨
      AnyCall Resumes (Function.update s.calls serving.caller
        (some ⟨serving.command, .answered reply⟩)) := by
    intro hother hcalls
    refine hcalls.imp (fun hpauses => ?_) fun hresumes => ?_
    · exact AnyCall.setCall_of hpauses hcall fun hkind => absurd hkind.1 hother
    · exact AnyCall.setCall_of hresumes hcall fun hkind => absurd hkind.2 (by simp)
  by_cases hpause : serving.command = .pause
  · exact Or.inl (hserved.1 hpause)
  by_cases hresume : serving.command = .resume
  · rcases hreply : reply.isOk with _ | _
    · cases reply with
      | failed failure =>
        by_contra hnot
        refine safe ⟨serving, command, failure, busy, hresume, last, flag, ?_, ?_⟩
        · exact fun hpending => hnot (Or.inr (hkept hpause (Or.inl hpending)))
        · exact fun hresuming => hnot (Or.inr (hkept hpause (Or.inr hresuming)))
      | _ => exact absurd hreply (by simp [Reply.isOk])
    · exact Or.inr (Or.inr (AnyCall.self _ _ ⟨hresume, reply, rfl, hreply⟩))
  · refine hold.imp (fun hstart => ?_) (hkept hpause)
    exact (hserved.2.2 hpause hresume).trans hstart

theorem FlagFounded.step (h : s.FlagFounded) (tracked : s.Tracked)
    (moved : Moved delays s move s') (safe : ¬ s.FailsResume move) : s'.FlagFounded := by
  cases moved with
  | observe call idle =>
    intro hrunning hflag
    have hold := h hrunning hflag
    unfold settled at hold ⊢
    simp only [idle] at hold ⊢
    exact hold
  | pass duration => exact h
  | call id command free =>
    have hnext : (s.setCall (.client id) (some ⟨command, .entered⟩)).FlagFounded :=
      h.setCall _ (by simp [free]) (by simp [free])
    intro hrunning hflag
    by_cases hpause : command = .pause
    · -- the pause that has set the flag is pending
      refine Or.inr (Or.inl (AnyCall.self _ _ ⟨hpause, ?_⟩))
      simp
    · refine hnext hrunning ?_
      simpa [hpause] using hflag
  | send caller command entered =>
    exact h.setCall_of entered _ (fun hpauses => ⟨_, rfl, hpauses.1, by simp⟩) (by simp [Resumes])
  | receive answers caller rest command running idle queue queued =>
    have hnext : (s.setCall caller (some ⟨command, .serving⟩)).FlagFounded :=
      h.setCall_of queued _ (fun hpauses => ⟨_, rfl, hpauses.1, by simp⟩) (by simp [Resumes])
    intro hrunning hflag
    have hold := hnext hrunning hflag
    unfold settled at hold
    simp only [setCall_serving, idle] at hold
    exact hold
  | waits serving busy cut =>
    intro hrunning hflag
    have hold := h hrunning hflag
    rw [settled_serving busy] at hold
    exact hold
  | replies serving command reply busy ended last =>
    intro _ hflag
    exact h.replied tracked busy ended last safe hflag
  | leave id command reply answered =>
    intro hrunning hflag
    unfold left at hflag
    -- a resume that succeeded has cleared the flag
    split_ifs at hflag with hresume
    have hnext : (s.setCall (.client id) none).FlagFounded := by
      refine h.setCall_of answered _ (fun hpauses => absurd rfl (hpauses.2 reply)) ?_
      rintro ⟨hcommand, reply', hphase, hok⟩
      exact hresume ⟨hcommand, (Phase.answered.inj hphase) ▸ hok⟩
    exact hnext hrunning hflag
  | turn => exact h
  | fire idle =>
    have hnone := calls_of_watcherIdle idle
    exact h.setCall _ (by simp [hnone]) (by simp [hnone])
  | wake reply answered =>
    have hnext : (s.setCall .watcher none).FlagFounded :=
      h.setCall_of answered _ (fun hpauses => absurd hpauses.1 (by simp)) fun hresumes =>
        absurd hresumes.1 (by simp)
    obtain ⟨retryDue, due, stopped, hwoken⟩ := s.woken_eq delays reply
    rw [hwoken]
    exact hnext
  | abandon caller _ closed same =>
    intro hrunning
    rw [same, closed] at hrunning
    exact absurd hrunning (by decide)

theorem FlagKept.setCall (h : s.FlagKept) {caller : Caller} (call : Option Call)
    (pauses : ∀ new, call = some new → Pauses new → ∃ old, s.calls caller = some old ∧ Pauses old) :
    (s.setCall caller call).FlagKept := by
  intro hrunning hset
  refine h hrunning (hset.imp_left fun hpending => ?_)
  rcases anyCall_update hpending with ⟨new, hnew, hkind⟩ | hpending
  · obtain ⟨old, hold, hkind⟩ := pauses new hnew hkind
    exact ⟨caller, old, hold, hkind⟩
  · exact hpending

theorem FlagKept.step (h : s.FlagKept) (tracked : s.Tracked)
    (moved : Moved delays s move s') (safe : ¬ s.Overtaken move) : s'.FlagKept := by
  cases moved with
  | observe call idle =>
    intro hrunning hset
    refine h hrunning ?_
    unfold settled at hset ⊢
    simp only [idle] at hset ⊢
    exact hset
  | pass duration => exact h
  | call id command free =>
    intro hrunning hset
    -- a pause sets the flag before it is sent
    by_cases hpause : command = .pause
    · simp [hpause]
    · have hnext : (s.setCall (.client id) (some ⟨command, .entered⟩)).FlagKept := by
        refine h.setCall _ fun new hnew hpauses => ?_
        rw [← Option.some.inj hnew] at hpauses
        exact absurd hpauses.1 hpause
      simpa [hpause] using hnext hrunning hset
  | send caller command entered =>
    refine h.setCall _ fun new hnew hpauses => ⟨_, entered, ?_, by simp⟩
    rw [← Option.some.inj hnew] at hpauses
    exact hpauses.1
  | receive answers caller rest command running idle queue queued =>
    have hnext : (s.setCall caller (some ⟨command, .serving⟩)).FlagKept := by
      refine h.setCall _ fun new hnew hpauses => ⟨_, queued, ?_, by simp⟩
      rw [← Option.some.inj hnew] at hpauses
      exact hpauses.1
    intro hrunning hset
    refine hnext hrunning ?_
    unfold settled
    simp only [setCall_serving, idle]
    exact hset
  | waits serving busy cut =>
    intro hrunning hset
    refine h hrunning ?_
    rw [settled_serving busy]
    exact hset
  | replies serving command reply busy ended last =>
    -- the answer to a pause or a resume is what the coordinator has settled
    intro _ hset
    obtain ⟨hrunning, hcall, -⟩ := tracked serving busy
    have hserved := serving.replied_paused ended
    rcases hset with hpending | hpaused
    · rcases anyCall_update hpending with ⟨new, hnew, hkind⟩ | hpending
      · rw [← Option.some.inj hnew] at hkind
        exact absurd rfl (hkind.2 reply)
      · exact h hrunning (Or.inl hpending)
    change serving.seen.2.coordinator.paused = true at hpaused
    by_cases hpause : serving.command = .pause
    · exact h hrunning (Or.inl ⟨serving.caller, _, hcall, hpause, by simp⟩)
    by_cases hresume : serving.command = .resume
    · rw [hserved.2.1 hresume] at hpaused
      exact absurd hpaused (by decide)
    · refine h hrunning (Or.inr ?_)
      rw [settled_serving busy]
      exact (hserved.2.2 hpause hresume).symm.trans hpaused
  | leave id command reply answered =>
    have hnext : (s.setCall (.client id) none).FlagKept := h.setCall _ (by simp)
    intro hrunning hset
    unfold left
    -- only a resume clears the flag, and none overtakes a pause here
    split_ifs with hresume
    · exfalso
      obtain ⟨rfl, hok⟩ := hresume
      refine safe ⟨reply, answered, hok, hset.imp_left fun hpending => ?_⟩
      exact (anyCall_update hpending).resolve_left (by simp)
    · exact hnext hrunning hset
  | turn => exact h
  | fire idle =>
    refine h.setCall _ fun new hnew hpauses => ?_
    rw [← Option.some.inj hnew] at hpauses
    exact absurd hpauses.1 (by simp)
  | wake reply answered =>
    have hnext : (s.setCall .watcher none).FlagKept := h.setCall _ (by simp)
    obtain ⟨retryDue, due, stopped, hwoken⟩ := s.woken_eq delays reply
    rw [hwoken]
    exact hnext
  | abandon caller _ closed same =>
    intro hrunning
    rw [same, closed] at hrunning
    exact absurd hrunning (by decide)

/-- No move of the run is a resume that fails with the flag set, or one that a pause has
overtaken. -/
def InTurn (s : Daemon) (move : Move) : Prop := ¬ s.FailsResume move ∧ ¬ s.Overtaken move

theorem Run.flags {first : Daemon} (run : Run delays InTurn first s)
    (tracked : first.Tracked) (founded : first.FlagFounded) (kept : first.FlagKept) :
    s.Tracked ∧ s.FlagFounded ∧ s.FlagKept := by
  refine run.invariant (I := fun s => s.Tracked ∧ s.FlagFounded ∧ s.FlagKept)
    ⟨tracked, founded, kept⟩ ?_
  intro s s' move h meet made
  have hmoved := step_moved made
  exact ⟨h.1.step hmoved, h.2.1.step h.1 hmoved meet.1, h.2.2.step h.1 hmoved meet.2⟩

theorem undisturbed_not {s : Daemon} (h : s.Undisturbed) : ¬ s.PausePending ∧ ¬ s.Resuming := by
  refine ⟨?_, ?_⟩
  · rintro ⟨caller, call, hcall, hpause, -⟩
    exact (h caller call hcall).1 hpause
  · rintro ⟨caller, call, hcall, hresume, -⟩
    exact (h caller call hcall).2 hresume

/-- `world` is the coordinator's when `start` hands out the handle. -/
def Initialized (config : Config) (recorder : JjRecorder) (world : World) : Prop :=
  ∃ env, (initializeCoordinator env).run (World.start config recorder) = (.ok (), world)

theorem Initialized.coordinator {config : Config} {recorder : JjRecorder} {world : World}
    (h : Initialized config recorder world) {P : Coordinator → Prop}
    (next : ∀ c, P c → P { c with seq := c.seq + 1 })
    (captured : ∀ c checkpoint, P c → P { c with recorder := .captured checkpoint })
    (first : P { config := config, recorder := recorder }) : P world.coordinator := by
  obtain ⟨env, hrun⟩ := h
  have hkeeps : Keeps (CoordinatorIs P) (initializeCoordinator env) :=
    (capture_keeps captured true).bind fun _ => Keeps.get fun _ _ => emit_keeps next _
  have hfinal := hkeeps.final (s := World.start config recorder) first
  rw [hrun] at hfinal
  exact hfinal

theorem Initialized.unpaused {config : Config} {recorder : JjRecorder} {world : World}
    (h : Initialized config recorder world) : world.coordinator.paused = false :=
  h.coordinator (P := fun c => c.paused = false) (fun _ h => h) (fun _ _ h => h) rfl

/-- What the watcher and the status say of a pause agrees whenever no pause or resume is
under way, in every run in which no resume fails and none is overtaken. -/
theorem pause_agrees (delays : WatchDelays) (config : Config) (recorder : JjRecorder)
    (world : World) (initialized : Initialized config recorder world) {s : Daemon}
    (run : Run delays InTurn (.start world) s) : s.Agrees := by
  have hflags := run.flags (fun serving h => nomatch h) (fun _ hflag => nomatch hflag)
    (fun _ hset => ?_)
  · obtain ⟨htracked, hfounded, hkept⟩ := hflags
    intro hrunning hundisturbed
    obtain ⟨hpending, hresuming⟩ := undisturbed_not hundisturbed
    -- whatever is being served leaves the coordinator's flag alone
    have hsettled : s.settled.coordinator.paused = s.world.coordinator.paused := by
      unfold settled
      split
      · next serving hserving =>
        obtain ⟨-, hcall, hpaused⟩ := htracked serving hserving
        obtain ⟨hpause, hresume⟩ := hundisturbed _ _ hcall
        exact (hpaused hpause hresume).symm
      · rfl
    rw [Bool.eq_iff_iff]
    constructor
    · intro hflag
      have h := hfounded hrunning hflag
      rw [hsettled] at h
      exact h.resolve_right (by simp [hpending, hresuming])
    · intro hpaused
      exact hkept hrunning (Or.inr (hsettled.trans hpaused))
  · rcases hset with ⟨caller, call, hcall, -⟩ | hpaused
    · exact absurd hcall (by simp [Daemon.start])
    · change world.coordinator.paused = true at hpaused
      rw [initialized.unpaused] at hpaused
      exact absurd hpaused (by decide)

def exampleWorld : World :=
  ((initializeCoordinator ⟨fun _ => { checkpoint := .ok ⟨"a0", "c0", "t0", []⟩ }, 2⟩).run
    (World.start exampleConfig exampleRecorder)).2

theorem exampleWorld_initialized : Initialized exampleConfig exampleRecorder exampleWorld :=
  ⟨⟨fun _ => { checkpoint := .ok ⟨"a0", "c0", "t0", []⟩ }, 2⟩, rfl⟩

def oneCaller (changes : List (Option Call)) (calls : Caller → Option Call) : Caller → Option Call :=
  changes.foldl (fun calls change => Function.update calls (.client 0) change) calls

theorem oneCaller_other {caller : Caller} (hne : caller ≠ .client 0)
    (changes : List (Option Call)) (calls : Caller → Option Call) :
    oneCaller changes calls caller = calls caller := by
  induction changes generalizing calls with
  | nil => rfl
  | cons change changes ih =>
    have hrest := ih (Function.update calls (.client 0) change)
    rw [Function.update_of_ne hne] at hrest
    exact hrest

theorem oneCaller_last (changes : List (Option Call)) (last : Option Call)
    (calls : Caller → Option Call) : oneCaller (changes ++ [last]) calls (.client 0) = last := by
  rw [oneCaller, List.foldl_append]
  exact @Function.update_self Caller (fun _ => Option Call) _ (.client 0) last
    (oneCaller changes calls)

def pauseAndResume (sink : Except SinkError Unit) : List Move :=
  [.call 0 .pause, .send (.client 0), .receive fun _ => {}, .proceed, .proceed, .leave 0,
    .observe (.observe [⟨"a", [.create]⟩] 1 0 ""), .call 0 .resume, .send (.client 0),
    .receive fun _ => { sink := sink, checkpoint := .ok ⟨"a1", "c1", "t1", []⟩ }] ++
    List.replicate (if sink.isOk then 7 else 3) .proceed

def exampleDelays : WatchDelays := ⟨100, 1000⟩

/-- A move that is neither the failure nor the end of a resume. -/
def calm (s : Daemon) : Move → Bool
  | .proceed =>
    match s.serving with
    | some serving => serving.command ≠ .resume ||
      match serving.seen.2.trace.getLast? with
      | some (.replied _ reply) => reply.isOk
      | _ => true
    | none => true
  | .leave id =>
    match s.calls (.client id) with
    | some ⟨.resume, _⟩ => false
    | _ => true
  | _ => true

theorem inTurn_of_calm (s : Daemon) (move : Move) (h : calm s move = true) : s.InTurn move := by
  cases move with
  | proceed =>
    refine ⟨?_, fun h => h⟩
    rintro ⟨serving, command, failure, hbusy, hresume, hlast, -⟩
    simp [calm, hbusy, hresume, hlast, Reply.isOk] at h
  | leave id =>
    refine ⟨fun h => h, ?_⟩
    rintro ⟨reply, hcall, -⟩
    simp [calm, hcall] at h
  | _ => exact ⟨fun h => h, fun h => h⟩

/-- A pause and a resume whose snapshot the sink takes. -/
theorem pause_agrees_resumed : ∃ s s', (Daemon.start exampleWorld).moves exampleDelays calm
    (pauseAndResume (.ok ())) = some s ∧ s.step exampleDelays (.leave 0) = some s' ∧ s'.Agrees := by
  set resumed := (Daemon.start exampleWorld).moves exampleDelays calm (pauseAndResume (.ok ()))
    with hresumed
  have hvalues : resumed.map (fun s => (s.settled.coordinator.paused,
      (s.calls (.client 0)).map Call.command, (s.step exampleDelays (.leave 0)).isSome)) =
        some (false, some .resume, true) := by
    rw [hresumed]
    decide
  obtain ⟨changes, last, hcalls⟩ : ∃ changes last, resumed.map (fun s => s.calls) =
      some (oneCaller (changes ++ [last]) fun _ => none) := by
    rw [hresumed]
    exact ⟨[_, _, _, _, _, _, _, _], _, rfl⟩
  obtain ⟨s, hs, hvalues⟩ := Option.map_eq_some_iff.mp hvalues
  obtain ⟨hpaused, hcommand, hleaves⟩ : s.settled.coordinator.paused = false ∧
      (s.calls (.client 0)).map Call.command = some .resume ∧
      (s.step exampleDelays (.leave 0)).isSome = true := by
    simpa only [Prod.mk.injEq] using hvalues
  rw [hs, Option.map_some] at hcalls
  obtain ⟨s', hs'⟩ := Option.isSome_iff_exists.mp hleaves
  have hrun := Run.start.moves inTurn_of_calm hs
  refine ⟨s, s', hs, hs', ?_⟩
  refine pause_agrees exampleDelays _ _ _ exampleWorld_initialized
    (hrun.step (.leave 0) ⟨fun h => h, ?_⟩ hs')
  rintro ⟨reply, hcall, hok, hpending | hset⟩
  · obtain ⟨caller, call, hother, hpause, -⟩ := hpending
    by_cases hcaller : caller = .client 0
    · rw [hcaller] at hother
      rw [hother, Option.map_some, hpause] at hcommand
      exact absurd hcommand (by decide)
    · rw [Option.some.inj hcalls, oneCaller_other hcaller] at hother
      exact absurd hother (by simp)
  · rw [hpaused] at hset
    exact absurd hset (by decide)

/-- A resume that fails leaves the watcher's flag set and the coordinator's cleared. -/
theorem failed_resume_disagrees :
    ¬ ∀ delays config recorder world, Initialized config recorder world →
      ∀ s, Run delays (fun _ _ => True) (.start world) s → s.Agrees := by
  intro h
  set refused := (Daemon.start exampleWorld).moves exampleDelays (fun _ _ => true)
    (pauseAndResume (.error (.transient "down")) ++ [.leave 0]) with hrefused
  have hflags : refused.map (fun s => (s.flag, s.running, s.world.coordinator.paused)) =
      some (true, true, false) := by
    rw [hrefused]
    decide
  obtain ⟨changes, hcalls⟩ : ∃ changes, refused.map (fun s => s.calls) =
      some (oneCaller (changes ++ [none]) fun _ => none) := by
    rw [hrefused]
    exact ⟨[_, _, _, _, _, _, _, _, _], rfl⟩
  obtain ⟨s, hs, hvalues⟩ := Option.map_eq_some_iff.mp hflags
  obtain ⟨hflag, hrunning, hpaused⟩ : s.flag = true ∧ s.running = true ∧
      s.world.coordinator.paused = false := by simpa using hvalues
  rw [hs, Option.map_some] at hcalls
  have hagrees := h exampleDelays _ _ _ exampleWorld_initialized s
    (Run.start.moves (fun _ _ _ => trivial) hs)
  have hundisturbed : s.Undisturbed := by
    intro caller call hcall
    rw [Option.some.inj hcalls] at hcall
    by_cases hcaller : caller = .client 0
    · rw [hcaller, oneCaller_last] at hcall
      exact absurd hcall (by simp)
    · rw [oneCaller_other hcaller] at hcall
      exact absurd hcall (by simp)
  have hsame : s.flag = s.world.coordinator.paused := hagrees hrunning hundisturbed
  rw [hflag, hpaused] at hsame
  exact absurd hsame (by decide)

end Daemon
end Rrjj
