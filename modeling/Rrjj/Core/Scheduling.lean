import Rrjj.Core.Pausing

/-! The watcher's schedule. Work that is left in the coordinator, with nothing in the
accumulator, is scheduled by the watcher's retry timer alone, which knows only of the
watcher's own snapshots. -/

namespace Rrjj
open Library Library.Proc

structure AuditState.Timed (state : AuditState) : Prop where
  dated : state.isDirty = true → ∃ first last, state.first = some first ∧ state.last = some last
  dirty : state.startedAt.isSome = true → state.isDirty = true

theorem AuditState.timed_empty : AuditState.Timed {} where
  dated h := absurd h (by simp [AuditState.isDirty])
  dirty h := absurd h (by simp)

theorem AuditState.apply_timed {state : AuditState} (h : state.Timed) (call : WatcherCall) :
    (state.apply call).Timed := by
  rcases hactive : call.isActive with _ | _
  · rw [apply_inactive state hactive]
    exact h
  have hdirty := state.apply_active hactive
  refine ⟨fun _ => ?_, fun _ => hdirty⟩
  have hfirst : ∀ instant, ∃ first, state.first.or (some instant) = some first := by
    intro instant
    cases state.first with
    | none => exact ⟨instant, rfl⟩
    | some first => exact ⟨first, rfl⟩
  cases call with
  | observe paths rawEvents instant now =>
    have hpaths : ¬ paths.isEmpty = true := by simpa [WatcherCall.isActive] using hactive
    rw [apply, observe, if_neg hpaths]
    obtain ⟨touched, limit, hfold⟩ := foldl_touch_frame paths
      { state with
        startedAt := state.startedAt.or (some now)
        first := state.first.or (some instant)
        last := some instant
        rawEvents := saturatingAdd state.rawEvents rawEvents }
    obtain ⟨first, hfirst⟩ := hfirst instant
    rw [hfold]
    exact ⟨first, instant, hfirst, rfl⟩
  | reportOverflow source rawEvents instant =>
    rw [apply, reportOverflow]
    obtain ⟨notices, limited, hpush⟩ := pushOverflow_frame
      { state with first := state.first.or (some instant), last := some instant } source rawEvents
    obtain ⟨first, hfirst⟩ := hfirst instant
    rw [hpush]
    exact ⟨first, instant, hfirst, rfl⟩

theorem AuditState.Timed.deadline {state : AuditState} (h : state.Timed)
    (dirty : state.isDirty = true) (quiescence maxDelay : ℕ) :
    (state.deadline quiescence maxDelay).isSome = true := by
  obtain ⟨first, last, hfirst, hlast⟩ := h.dated dirty
  rw [AuditState.deadline, hfirst, hlast]
  rfl

def Coordinator.Owing (c : Coordinator) : Prop :=
  c.auditStartedAt.isSome = true ∨ c.pendingOverflows ≠ [] → c.pendingSnapshot = true

theorem Coordinator.absorb_owing {c : Coordinator} (h : c.Owing) {audit : AuditState}
    (timed : audit.Timed) : (c.absorb audit.drain).Owing := by
  rintro (hstarted | hoverflows)
  · rw [absorb_auditStartedAt, Option.isSome_or, Bool.or_eq_true] at hstarted
    rcases hstarted with hstarted | hstarted
    · rw [absorb_pendingSnapshot, h (Or.inl hstarted), Bool.true_or]
    · exact c.absorb_dirty audit (timed.dirty hstarted)
  · rw [absorb_pendingSnapshot]
    simp [hoverflows]

structure Tidy (w : World) : Prop where
  audit : w.audit.Timed
  coordinator : w.coordinator.Owing

theorem Emission.owing {w : World} {event : Event} {f : Coordinator → Coordinator}
    (emission : Emission w event f) (h : w.coordinator.Owing) :
    (f { w.coordinator with seq := w.coordinator.seq + 1 }).Owing := by
  cases emission with
  | retained =>
    intro howed
    simpa [Coordinator.retainedDelivered] using howed
  | overflow _ _ _ _ first =>
    intro _
    exact h (Or.inr (by simp [first]))
  | audit _ _ _ _ overflows =>
    intro howed
    have hnone : ¬ ((none : Option String).isSome = true ∨ w.coordinator.pendingOverflows ≠ []) := by
      simp [overflows]
    exact absurd howed hnone
  | snapshot _ _ _ _ overflows audit =>
    intro howed
    have hnone : ¬ (w.coordinator.auditStartedAt.isSome = true ∨
        w.coordinator.pendingOverflows ≠ []) := by
      simp [overflows, audit]
    exact absurd howed hnone
  | _ => exact h

theorem Step.tidy {w w' : World} (step : Step w w') (h : Tidy w) : Tidy w' := by
  cases step with
  | arrival call => exact ⟨AuditState.apply_timed h.audit call, h.coordinator⟩
  | drained => exact ⟨AuditState.timed_empty, Coordinator.absorb_owing h.coordinator h.audit⟩
  | accepted event f _ _ emission => exact ⟨h.audit, emission.owing h.coordinator⟩
  | _ => exact ⟨h.audit, h.coordinator⟩

theorem Steps.tidy {w w' : World} (steps : Steps w w') (h : Tidy w) : Tidy w' := by
  induction steps with
  | refl => exact h
  | tail _ step ih => exact step.tidy ih

theorem tidy_start (config : Config) (recorder : JjRecorder) : Tidy (.start config recorder) where
  audit := AuditState.timed_empty
  coordinator h := absurd h (by simp [World.start])

def Unfinished (w : World) : Prop := w.coordinator.pendingSnapshot = true ∧ w.audit.isDirty = false

structure Since (u w : World) : Prop where
  pending : w.coordinator.pendingSnapshot = true → u.coordinator.pendingSnapshot = true
  dirty : u.audit.isDirty = true → w.audit.isDirty = true
  owing : w.coordinator.Owing

theorem Since.unfinished {u w : World} (h : Since u w) (unfinished : Unfinished w) :
    Unfinished u := by
  refine ⟨h.pending unfinished.1, ?_⟩
  rw [Bool.eq_false_iff]
  intro hdirty
  have hstill := h.dirty hdirty
  rw [unfinished.2] at hstill
  exact absurd hstill (by decide)

theorem Since.recordAll {u w : World} (h : Since u w) (calls : List WatcherCall) :
    Since u (w.recordAll calls) := by
  induction calls generalizing w with
  | nil => exact h
  | cons call calls ih =>
    have hrecorded : Since u (w.record call) :=
      ⟨h.pending, fun hdirty => w.audit.apply_dirty call (h.dirty hdirty), h.owing⟩
    exact ih hrecorded

variable {env : Environment} {u : World}

theorem await_since : Keeps (Since u) (await env) := by
  intro w hw
  have hrecorded := hw.recordAll (env.answers w.clock).arrivals
  unfold await
  by_cases hclock : w.clock < env.horizon
  · simp only [hclock, if_true]
    exact ⟨hrecorded.pending, hrecorded.dirty, hrecorded.owing⟩
  · simp only [hclock, if_false]
    exact hrecorded

theorem currentStatus_since : Keeps (Since u) (currentStatus env) := by
  have hwait : Keeps (Since u) (interleave env) := await_since.bind fun _ => Keeps.pure ()
  exact hwait.bind fun _ => Keeps.get fun _ _ => Keeps.pure _

theorem log_since (label : Label) : Keeps (Since u) (log label) :=
  Keeps.modify fun _ h => ⟨h.pending, h.dirty, h.owing⟩

theorem emitExact_since (event : Event) : Keeps (Since u) (emitExact env event) := by
  refine Keeps.get fun v _ => ?_
  split_ifs
  · refine (log_since _).bind fun _ => await_since.bind fun turn => ?_
    rcases turn.sink with error | _
    · exact (log_since _).bind fun _ => Keeps.throw _
    · exact (log_since _).bind fun _ => Keeps.modify fun _ h => ⟨h.pending, h.dirty, h.owing⟩
  · exact (log_since _).bind fun _ => Keeps.throw _

theorem deliverRetained_since (event : Event) : Keeps (Since u) (deliverRetained env event) := by
  unfold deliverRetained
  split
  · refine (emitExact_since event).bind fun _ => ?_
    have hdelivered : Keeps (ε := Failure) (Since u) (update Coordinator.retainedDelivered) := by
      apply Keeps.modify
      intro w hw
      have howed : (w.coordinator.auditStartedAt.isSome || !w.coordinator.pendingOverflows.isEmpty) =
          true → w.coordinator.pendingSnapshot = true := by
        intro h
        exact hw.owing (by simpa using h)
      refine ⟨fun h => hw.pending (howed h), hw.dirty, ?_⟩
      intro h
      simpa [World.update, Coordinator.retainedDelivered] using h
    exact hdelivered.bind fun _ => Keeps.pure _
  · exact Keeps.throw _

abbrev Cleared : World → Prop := CoordinatorIs fun c => c.pendingSnapshot = false

theorem captureSnapshot_cleared :
    Triple (fun _ => True) (captureSnapshot env) (fun _ => Cleared) (fun _ => True) := by
  apply Triple.get
  intro _ _
  refine Triple.after fun _ => Triple.after fun _ => Triple.after fun _ => Triple.after fun _ => ?_
  have hdelivered : Triple (ε := Failure) (fun _ => True) (update Coordinator.snapshotDelivered)
      (fun _ => Cleared) (fun _ => True) := Triple.modify fun _ _ => rfl
  exact hdelivered.bind fun _ => Triple.pure fun _ h => h

/-- A fresh snapshot leaves nothing pending, and a retained one no more than there was. -/
theorem snapshot_leaves :
    Triple (Since u) (snapshot env) (fun _ w => Cleared w ∨ Since u w) (fun _ => True) := by
  apply Triple.get
  intro v hv
  rcases v.coordinator.pendingSnapshotEvent with _ | event
  · refine Triple.after fun _ => Triple.after fun _ => Triple.after fun _ => Triple.after fun _ => ?_
    exact captureSnapshot_cleared.post fun _ _ h => Or.inl h
  · refine (deliverRetained_since event).conseq (fun s hs => ?_) (fun _ _ h => Or.inr h) fun _ _ =>
      trivial
    rw [hs]
    exact hv

theorem settleFrom_cleared (turns : ℕ) :
    Triple (fun _ => True) (settleFrom env turns) (fun _ => Cleared) (fun _ => True) := by
  induction turns with
  | zero => exact Triple.cut fun _ _ => trivial
  | succ turns ih =>
    apply Triple.get
    intro v _
    rcases hpending : v.coordinator.pendingSnapshot with _ | _
    · apply Triple.pure
      rintro s rfl
      exact hpending
    · exact Triple.after fun _ => Triple.after fun _ => Triple.after fun _ => ih

theorem settle_cleared {α : Type} {m : Task α} (keeps : Keeps Cleared m) :
    Triple (fun _ => True) (settle env >>= fun _ => m) (fun _ => Cleared) (fun _ => True) := by
  refine (settleFrom_cleared _).bind fun _ => ?_
  exact keeps.conseq (fun _ h => h) (fun _ _ h => h) fun _ _ => trivial

theorem finish_cleared (reason : String) :
    Triple (fun _ => True) (finish env reason) (fun _ => Cleared) (fun _ => True) := by
  refine Triple.after fun _ => settle_cleared (Keeps.get fun _ _ => ?_)
  exact (emit_keeps (fun _ h => h) _).bind fun _ => flushDurable_keeps fun _ h => h

theorem perform_leaves (command : Command) :
    Triple (Since u) (perform env command) (fun _ w => Cleared w ∨ Since u w) (fun _ => True) := by
  have hstatus : Triple (Since u) (currentStatus env) (fun _ w => Cleared w ∨ Since u w)
      (fun _ => True) :=
    currentStatus_since.conseq (fun _ h => h) (fun _ _ h => Or.inr h) fun _ _ => trivial
  have hcleared : ∀ {α : Type} {m : Task α} {f : α → Reply},
      Triple (fun _ => True) m (fun _ => Cleared) (fun _ => True) →
      Triple (Since u) (f <$> m) (fun _ w => Cleared w ∨ Since u w) (fun _ => True) := by
    intro α m f h
    exact Triple.map (h.conseq (fun _ _ => trivial) (fun _ _ h => Or.inl h) fun _ h => h)
  cases command with
  | status => exact Triple.map hstatus
  | snap => exact Triple.map snapshot_leaves
  | mark label «meta» =>
    refine hcleared (Triple.after fun _ => settle_cleared (Keeps.get fun _ _ => ?_))
    exact emit_keeps (fun _ h => h) _
  | flush =>
    refine hcleared (Triple.after fun _ => settle_cleared ?_)
    exact (flushDurable_keeps fun _ h => h).bind fun _ => currentStatus_keeps
  | pause =>
    have hpaused : Keeps (ε := Failure) (Since u)
        (update fun coordinator => { coordinator with paused := true }) :=
      Keeps.modify fun _ h => ⟨h.pending, h.dirty, h.owing⟩
    refine Triple.bind (Q := fun _ => Since u) (R := fun _ => True) ?_ fun _ => Triple.map hstatus
    exact hpaused.conseq (fun _ h => h) (fun _ _ h => h) fun _ _ => trivial
  | resume => exact hcleared (Triple.after fun _ => Triple.after fun _ => settle_cleared currentStatus_keeps)
  | shutdown reason => exact hcleared (finish_cleared reason)

theorem log_last {label label' : Label} {w : World} (last : (w.log label).trace.getLast? = some label') :
    label = label' := by
  rw [World.log, List.getLast?_concat] at last
  exact Option.some.inj last

theorem serve_leaves (command : Command) :
    Triple (Since u) (serve env command)
      (fun _ w => ∀ asked reply, w.trace.getLast? = some (.replied asked reply) →
        reply.isOk = true → Cleared w ∨ Since u w) (fun _ => True) := by
  have hbegin : Keeps (Since u) (beginCommand command) :=
    Keeps.modify fun _ h => ⟨h.pending, h.dirty, h.owing⟩
  refine Triple.bind (Q := fun _ => Since u) (R := fun _ => True)
    (hbegin.conseq (fun _ h => h) (fun _ _ h => h) fun _ _ => trivial) fun _ => ?_
  refine (perform_leaves command).attempt.bind fun result => ?_
  rcases result with failure | given
  · apply Triple.modify
    intro w _ asked reply hlast hok
    have hfailed := log_last hlast
    rw [← (Label.replied.inj hfailed).2] at hok
    exact absurd hok (by simp [Reply.isOk])
  · apply Triple.modify
    intro w hw asked reply _ _
    exact hw.imp_right fun h => ⟨h.pending, h.dirty, h.owing⟩

theorem InService.finishes (serving : InService) (tidy : Tidy serving.start)
    (ended : serving.seen.1 = .ok ()) {command : Command} {reply : Reply}
    (last : serving.seen.2.trace.getLast? = some (.replied command reply)) (ok : reply.isOk = true)
    (unfinished : Unfinished serving.seen.2) : Unfinished serving.start := by
  have hends := @serve_leaves ⟨serving.answers, serving.horizon⟩ serving.start serving.command
    serving.start ⟨fun h => h, fun h => h, tidy.coordinator⟩
  change Ends _ _ serving.seen at hends
  rcases hseen : serving.seen with ⟨outcome, w⟩
  rw [hseen] at hends ended last unfinished
  obtain rfl : outcome = .ok () := ended
  rcases hends command reply last ok with hcleared | hsince
  · exact absurd (hcleared.symm.trans unfinished.1) (by decide)
  · exact hsince.unfinished unfinished

namespace Daemon

structure Idle (s : Daemon) : Prop where
  running : s.running = true
  watching : s.stopped = false
  queue : s.queue = []
  serving : s.serving = none
  watcher : s.calls .watcher = none
  undisturbed : s.Undisturbed
  unpaused : s.world.coordinator.paused = false

/-- A pending snapshot has a time at which the watcher will ask for it. -/
def Scheduled (delays : WatchDelays) (s : Daemon) : Prop :=
  s.Idle → (s.world.coordinator.status s.world.audit).pendingSnapshot = true →
    (s.computedDue delays).isSome = true

def FailsUnwatched (s : Daemon) : Move → Prop
  | .proceed => ∃ serving id command failure, s.serving = some serving ∧
      serving.caller = .client id ∧ serving.command.isShutdown = false ∧
      serving.seen.2.trace.getLast? = some (.replied command (.failed failure)) ∧
      Unfinished serving.seen.2 ∧ s.retryDue = none ∧ s.calls .watcher = none
  | _ => False

def ForgetsRetry (s : Daemon) : Move → Prop
  | .wake => ∃ reply, s.calls .watcher = some ⟨.snap, .answered reply⟩ ∧ reply.isOk = true ∧
      Unfinished s.settled
  | _ => False

def Watchful (s : Daemon) (move : Move) : Prop :=
  ¬ s.FailsResume move ∧ ¬ s.FailsUnwatched move ∧ ¬ s.ForgetsRetry move

def Retries (s : Daemon) : Prop :=
  s.running = true → s.stopped = false → s.calls .watcher = none → Unfinished s.settled →
    s.retryDue.isSome = true

structure Acted (first : World) (s : Daemon) : Prop where
  world : Started first s.world
  serving : ∀ serving, s.serving = some serving → Started first serving.start

variable {delays : WatchDelays} {s s' : Daemon} {move : Move} {first : World}

theorem InService.seen_started {serving : InService} (h : Started first serving.start) :
    Started first serving.seen.2 := by
  have hends := @serve_spec first ⟨serving.answers, serving.horizon⟩ serving.command
    serving.start h
  exact hends.final

theorem Acted.settled (h : s.Acted first) : Started first s.settled := by
  unfold Daemon.settled
  split
  · next serving hserving => exact h.serving serving hserving
  · exact h.world

theorem Acted.step (h : s.Acted first) (moved : Moved delays s move s') : s'.Acted first := by
  cases moved with
  | observe call idle =>
    have hrecorded : Started first (s.world.record call) :=
      ⟨h.world.1.tail (.arrival s.world call), h.world.2.snoc _⟩
    exact ⟨hrecorded, h.serving⟩
  | receive answers caller rest command =>
    refine ⟨h.world, fun serving hserving => ?_⟩
    rw [← Option.some.inj hserving]
    exact h.world
  | waits serving busy cut =>
    refine ⟨InService.seen_started (h.serving serving busy), fun serving' hserving => ?_⟩
    rw [← Option.some.inj hserving]
    exact h.serving serving busy
  | replies serving command reply busy =>
    refine ⟨InService.seen_started (h.serving serving busy), fun serving' hserving => ?_⟩
    exact absurd hserving (by simp)
  | wake reply answered =>
    obtain ⟨retryDue, due, stopped, hwoken⟩ := s.woken_eq delays reply
    rw [hwoken]
    exact ⟨h.world, h.serving⟩
  | abandon caller s' closed running same world =>
    refine ⟨?_, fun serving hserving => h.serving serving (same ▸ hserving)⟩
    rw [world]
    exact h.world
  | _ => exact ⟨h.world, h.serving⟩

theorem tidy_of_started {config : Config} {recorder : JjRecorder} {w : World}
    (h : Started (World.start config recorder) w) : Tidy w := h.1.tidy (tidy_start config recorder)

theorem Retries.setCall (h : s.Retries) {caller : Caller} (call : Option Call)
    (watcher : caller = .watcher → call ≠ none) : (s.setCall caller call).Retries := by
  intro hrunning hwatching hnone hunfinished
  apply h hrunning hwatching ?_ hunfinished
  by_cases hcaller : caller = .watcher
  · rw [setCall_calls, hcaller, Function.update_self] at hnone
    exact absurd hnone (watcher hcaller)
  · rwa [setCall_calls, Function.update_of_ne (Ne.symm hcaller)] at hnone

theorem Retries.step (h : s.Retries) (tracked : s.Tracked) (tidy : Tidy s.settled)
    (moved : Moved delays s move s') (unwatched : ¬ s.FailsUnwatched move)
    (forgets : ¬ s.ForgetsRetry move) : s'.Retries := by
  cases moved with
  | observe call idle =>
    intro hrunning hwatching hnone hunfinished
    apply h hrunning hwatching hnone
    unfold settled at hunfinished ⊢
    simp only [idle] at hunfinished ⊢
    have hsince : Since s.world (s.world.record call) := by
      refine ⟨fun h => h, s.world.audit.apply_dirty call, ?_⟩
      rw [settled_idle idle] at tidy
      exact tidy.coordinator
    exact hsince.unfinished hunfinished
  | pass duration => exact h
  | call id command free =>
    have hnext : (s.setCall (.client id) (some ⟨command, .entered⟩)).Retries :=
      h.setCall _ (by simp)
    exact hnext
  | send caller command entered running => exact h.setCall _ (by simp)
  | receive answers caller rest command running idle =>
    have hnext : (s.setCall caller (some ⟨command, .serving⟩)).Retries := h.setCall _ (by simp)
    intro hrunning hwatching hnone hunfinished
    apply hnext hrunning hwatching hnone
    unfold settled
    simp only [setCall_serving, idle]
    exact hunfinished
  | waits serving busy cut =>
    intro hrunning hwatching hnone hunfinished
    apply h hrunning hwatching hnone
    rw [settled_serving busy]
    exact hunfinished
  | replies serving command reply busy ended last =>
    intro hrunning hwatching hnone hunfinished
    change Unfinished serving.seen.2 at hunfinished
    have hkeeps : serving.command.isShutdown = false := by simpa using hrunning
    -- the watcher's own snapshots are for it to follow up
    rcases hcaller : serving.caller with id | _
    · have hnobody : s.calls .watcher = none := by
        rw [setCall_calls, hcaller, Function.update_of_ne (by simp)] at hnone
        exact hnone
      rcases hreply : reply.isOk with _ | _
      · cases reply with
        | failed failure =>
          by_contra hunscheduled
          have hforgotten : s.retryDue = none := Option.not_isSome_iff_eq_none.mp hunscheduled
          exact unwatched ⟨serving, id, command, failure, busy, hcaller, hkeeps, last,
            hunfinished, hforgotten, hnobody⟩
        | _ => exact absurd hreply (by simp [Reply.isOk])
      · rw [settled_serving busy] at tidy
        have hbefore := serving.finishes tidy ended last hreply hunfinished
        apply h (tracked serving busy).1 hwatching hnobody
        rw [settled_serving busy]
        exact hbefore
    · rw [setCall_calls, hcaller, Function.update_self] at hnone
      exact absurd hnone (by simp)
  | leave id command reply answered =>
    have hnext : (s.setCall (.client id) none).Retries := h.setCall _ (by simp)
    exact hnext
  | turn => exact h
  | fire idle => exact h.setCall _ (by simp)
  | wake reply answered =>
    unfold woken
    split
    · next failure =>
      split_ifs with hfatal
      · intro _ hwatching
        exact absurd hwatching (by simp)
      · exact fun _ _ _ _ => rfl
    · next hok =>
      intro _ _ _ hunfinished
      refine absurd ⟨reply, answered, ?_, hunfinished⟩ forgets
      cases reply with
      | failed failure => exact absurd rfl (hok failure)
      | _ => rfl
  | abandon caller s' closed same =>
    intro hrunning
    rw [same, closed] at hrunning
    exact absurd hrunning (by decide)

theorem Acted.start (h : Opened first.trace) : (Daemon.start first).Acted first where
  world := ⟨.refl, h⟩
  serving _ hserving := nomatch hserving

theorem Initialized.started {config : Config} {recorder : JjRecorder} {world : World}
    (h : Initialized config recorder world) : Started (World.start config recorder) world := by
  obtain ⟨env, hrun⟩ := h
  have hends := @initializeCoordinator_spec env config recorder _ rfl
  rw [hrun] at hends
  exact hends

theorem Run.watched {config : Config} {recorder : JjRecorder} {world : World}
    (initialized : Initialized config recorder world)
    (run : Run delays Watchful (.start world) s) :
    s.Tracked ∧ s.FlagFounded ∧ s.Acted (World.start config recorder) ∧ s.Retries := by
  have hstarted := initialized.started
  have hfirst : (Daemon.start world).Retries := by
    intro _ _ _ hunfinished
    have hcleared := initialized.coordinator (P := fun c => c.pendingSnapshot = false)
      (fun _ h => h) (fun _ _ h => h) rfl
    exact absurd (hcleared.symm.trans hunfinished.1) (by decide)
  refine run.invariant (I := fun s => s.Tracked ∧ s.FlagFounded ∧
      s.Acted (World.start config recorder) ∧ s.Retries)
    ⟨?_, ?_, ⟨hstarted, ?_⟩, hfirst⟩ ?_
  · exact fun _ hserving => nomatch hserving
  · exact fun _ hflag => nomatch hflag
  · exact fun _ hserving => nomatch hserving
  rintro s s' move ⟨htracked, hfounded, hacted, hretries⟩ meet made
  have hmoved := step_moved made
  exact ⟨htracked.step hmoved, hfounded.step htracked hmoved meet.1, hacted.step hmoved,
    hretries.step htracked (tidy_of_started hacted.settled) hmoved meet.2.1 meet.2.2⟩

/-- A pending snapshot stays scheduled in every run in which no resume fails with the
watcher's flag set, no client's command fails with work unfinished while no retry is under
way, and no snapshot of the watcher succeeds over work that stays unfinished. -/
theorem pending_snapshot_is_scheduled (delays : WatchDelays) (config : Config)
    (recorder : JjRecorder) (world : World) (initialized : Initialized config recorder world)
    {s : Daemon} (run : Run delays Watchful (.start world) s) : s.Scheduled delays := by
  obtain ⟨-, hfounded, hacted, hretries⟩ := run.watched initialized
  intro hidle hpending
  have hsettled : s.settled = s.world := by
    unfold settled
    simp only [hidle.serving]
  have hflag : s.flag = false := by
    rw [Bool.eq_false_iff]
    intro hset
    obtain ⟨hpauses, hresumes⟩ := undisturbed_not hidle.undisturbed
    rcases hfounded hidle.running hset with hpaused | hpausing | hresuming
    · rw [hsettled, hidle.unpaused] at hpaused
      exact absurd hpaused (by decide)
    · exact hpauses hpausing
    · exact hresumes hresuming
  have htidy := tidy_of_started hacted.world
  rw [computedDue, hflag]
  unfold computeDue
  rcases hdirty : s.world.audit.isDirty with _ | _
  · have hleft : Unfinished s.settled := by
      rw [hsettled]
      refine ⟨?_, hdirty⟩
      simpa [Coordinator.status, hdirty] using hpending
    have hretry := hretries hidle.running hidle.watching hidle.watcher hleft
    obtain ⟨retry, hretry⟩ := Option.isSome_iff_exists.mp hretry
    rw [hretry]
    rcases s.world.audit.deadline delays.quiescence delays.maxDelay with _ | deadline
    · rfl
    · rfl
  · have hdeadline := htidy.audit.deadline hdirty delays.quiescence delays.maxDelay
    obtain ⟨deadline, hdeadline⟩ := Option.isSome_iff_exists.mp hdeadline
    rw [hdeadline]
    cases s.retryDue with
    | none => rfl
    | some retry => rfl

def watcherFails (s : Daemon) : Move → Bool
  | .proceed =>
    match s.serving with
    | some serving => serving.caller = .watcher && serving.command = .snap
    | none => true
  | .wake =>
    match s.calls .watcher with
    | some ⟨_, .answered reply⟩ => !reply.isOk
    | _ => true
  | _ => true

theorem watchful_of_watcherFails (s : Daemon) (move : Move) (h : watcherFails s move = true) :
    s.Watchful move := by
  cases move with
  | proceed =>
    refine ⟨?_, ?_, fun h => h⟩
    · rintro ⟨serving, command, failure, hbusy, hresume, -⟩
      simp [watcherFails, hbusy, hresume] at h
    · rintro ⟨serving, id, command, failure, hbusy, hclient, -⟩
      simp [watcherFails, hbusy, hclient] at h
  | wake =>
    refine ⟨fun h => h, fun h => h, ?_⟩
    rintro ⟨reply, hanswered, hok, -⟩
    simp [watcherFails, hanswered, hok] at h
  | _ => exact ⟨fun h => h, fun h => h, fun h => h⟩

def refusedSnapshot : List Move :=
  [.observe (.observe [⟨"a", [.create]⟩] 1 0 ""), .turn, .pass 100, .fire, .send .watcher,
    .receive fun _ => { sink := .error (.transient "down") }, .proceed, .proceed, .proceed, .wake]

theorem pending_snapshot_is_scheduled_refused :
    ∃ s, (Daemon.start exampleWorld).moves exampleDelays watcherFails refusedSnapshot = some s ∧
      (s.world.coordinator.status s.world.audit).pendingSnapshot = true ∧
      s.Scheduled exampleDelays := by
  have hpending : ((Daemon.start exampleWorld).moves exampleDelays watcherFails
      refusedSnapshot).map (fun s => (s.world.coordinator.status s.world.audit).pendingSnapshot) =
        some true := by
    decide
  obtain ⟨s, hs, hpending⟩ := Option.map_eq_some_iff.mp hpending
  exact ⟨s, hs, hpending, pending_snapshot_is_scheduled exampleDelays _ _ _
    exampleWorld_initialized (Run.start.moves watchful_of_watcherFails hs)⟩

def failedMark : List Move :=
  [.observe (.observe [⟨"a", [.create]⟩] 1 0 ""), .call 0 (.mark "m" []), .send (.client 0),
    .receive fun _ => { sink := .error (.transient "down") }, .proceed, .turn, .proceed, .proceed,
    .leave 0]

/-- The work of a mark that failed is pending, and nothing is scheduled for it. -/
theorem failed_mark_is_unscheduled :
    ¬ ∀ delays config recorder world, Initialized config recorder world →
      ∀ s, Run delays (fun _ _ => True) (.start world) s → s.Scheduled delays := by
  intro h
  set failed := (Daemon.start exampleWorld).moves exampleDelays (fun _ _ => true) failedMark
    with hfailed
  have hidle : failed.map (fun s => (s.running, s.stopped, s.queue, s.serving.isNone)) =
      some (true, false, [], true) := by
    rw [hfailed]
    decide
  have hpending : failed.map (fun s => (s.world.coordinator.paused,
      (s.world.coordinator.status s.world.audit).pendingSnapshot,
      s.due, s.computedDue exampleDelays)) = some (false, true, none, none) := by
    rw [hfailed]
    decide
  obtain ⟨changes, hcalls⟩ : ∃ changes, failed.map (fun s => s.calls) =
      some (oneCaller (changes ++ [none]) fun _ => none) := by
    rw [hfailed]
    exact ⟨[_, _, _, _], rfl⟩
  obtain ⟨s, hs, hidle⟩ := Option.map_eq_some_iff.mp hidle
  rw [hs, Option.map_some, Option.some.injEq] at hpending hcalls
  simp only [Prod.mk.injEq] at hidle hpending
  obtain ⟨hrunning, hwatching, hqueue, hserving⟩ := hidle
  obtain ⟨hunpaused, hpending, -, hdue⟩ := hpending
  have hnone : ∀ caller, s.calls caller = none := by
    intro caller
    rw [hcalls]
    by_cases hcaller : caller = .client 0
    · rw [hcaller, oneCaller_last]
    · rw [oneCaller_other hcaller]
  have hscheduled := h exampleDelays _ _ _ exampleWorld_initialized s
    (Run.start.moves (fun _ _ _ => trivial) hs)
  have hsome := hscheduled ⟨hrunning, hwatching, hqueue, Option.isNone_iff_eq_none.mp hserving,
    hnone _, fun caller call hcall => absurd hcall (by simp [hnone]), hunpaused⟩ hpending
  rw [hdue] at hsome
  exact absurd hsome (by decide)

end Daemon
end Rrjj
