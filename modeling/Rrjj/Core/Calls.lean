import Rrjj.Core.Grammar

/-! What the coordinator says when it calls its sink: an event carries the next number, the
schema version and the session, and a flush names the flush event that was accepted last. -/

namespace Rrjj
open Library Library.Proc

def Stamped (sessionId : String) (event : Event) : Prop :=
  event.v = schemaVersion ∧ event.sessionId = sessionId

def FlushEvent (request : FlushRequest) (event : Event) : Prop :=
  event.seq = request.lastSeq ∧ event.body = .flush ⟨request.lastOp, request.lastSeq⟩

structure Announces (config : Config) (w : World) : Prop where
  configured : w.coordinator.config = config
  seq : w.coordinator.seq = (acceptedEvents w.trace).length
  retained : ∀ event, w.coordinator.pendingSnapshotEvent = some event →
    Stamped config.sessionId event
  emitting : AtEvery (fun before label => ∀ event, label = .emitting event →
    Stamped config.sessionId event ∧ event.seq = (acceptedEvents before).length) w.trace
  flushing : AtEvery (fun before label => ∀ request, label = .flushing request →
    ∃ event, (acceptedEvents before).getLast? = some event ∧ FlushEvent request event) w.trace

section
variable {config : Config} {env : Environment} {w : World} {event : Event}

theorem Announces.log {label : Label} (h : Announces config w)
    (accepts : ∀ event, label ≠ .accepted event)
    (emitting : ∀ event, label = .emitting event →
      Stamped config.sessionId event ∧ event.seq = (acceptedEvents w.trace).length)
    (flushing : ∀ request, label = .flushing request →
      ∃ event, (acceptedEvents w.trace).getLast? = some event ∧ FlushEvent request event) :
    Announces config (w.log label) := by
  refine ⟨h.configured, ?_, h.retained, h.emitting.snoc emitting, h.flushing.snoc flushing⟩
  show w.coordinator.seq = (acceptedEvents (w.trace ++ [label])).length
  rw [acceptedEvents_snoc accepts]
  exact h.seq

theorem Announces.update (h : Announces config w) {f : Coordinator → Coordinator}
    (configured : (f w.coordinator).config = w.coordinator.config)
    (seq : (f w.coordinator).seq = w.coordinator.seq)
    (retained : ∀ event, (f w.coordinator).pendingSnapshotEvent = some event →
      w.coordinator.pendingSnapshotEvent = some event ∨ Stamped config.sessionId event) :
    Announces config (w.update f) := by
  refine ⟨configured.trans h.configured, seq.trans h.seq, ?_, h.emitting, h.flushing⟩
  intro event hevent
  exact (retained event hevent).elim (h.retained event) id

theorem Announces.accept (h : Announces config w) :
    Announces config ((w.log (.accepted event)).update fun coordinator =>
      { coordinator with seq := coordinator.seq + 1 }) := by
  refine ⟨h.configured, ?_, h.retained, h.emitting.snoc (by simp), h.flushing.snoc (by simp)⟩
  show w.coordinator.seq + 1 = (acceptedEvents (w.trace ++ [.accepted event])).length
  rw [acceptedEvents_append, List.length_append, h.seq]
  rfl

theorem log_announces {label : Label} (plain : ∀ event request,
    label ≠ .accepted event ∧ label ≠ .emitting event ∧ label ≠ .flushing request) :
    Keeps (Announces config) (log label) := by
  apply Keeps.modify
  intro w hw
  apply hw.log
  · exact fun event => (plain event ⟨"", 0, "", none⟩).1
  · exact fun event hevent => absurd hevent (plain event ⟨"", 0, "", none⟩).2.1
  · intro request hrequest
    exact absurd hrequest (plain (.new "" 0 "" (.flush ⟨"", 0⟩)) request).2.2

theorem Announces.recordAll (calls : List WatcherCall) (h : Announces config w) :
    Announces config (w.recordAll calls) ∧ (w.recordAll calls).coordinator = w.coordinator ∧
      acceptedEvents (w.recordAll calls).trace = acceptedEvents w.trace := by
  induction calls generalizing w with
  | nil => exact ⟨h, rfl, rfl⟩
  | cons call calls ih =>
    have hplain : (∀ event, call.label ≠ .accepted event) ∧ (∀ event, call.label ≠ .emitting event) ∧
        ∀ request, call.label ≠ .flushing request := by
      cases call <;> simp [WatcherCall.label]
    have hlogged : Announces config (w.record call) := by
      have hlog : Announces config (w.log call.label) := h.log hplain.1
        (fun event h => absurd h (hplain.2.1 event)) fun request h => absurd h (hplain.2.2 request)
      exact ⟨hlog.configured, hlog.seq, hlog.retained, hlog.emitting, hlog.flushing⟩
    obtain ⟨hrest, hcoordinator, haccepted⟩ := ih hlogged
    refine ⟨hrest, hcoordinator, haccepted.trans ?_⟩
    show acceptedEvents (w.trace ++ [call.label]) = _
    exact acceptedEvents_snoc hplain.1

theorem await_announces {c : Coordinator} {events : List Event} :
    Keeps (fun w => Announces config w ∧ w.coordinator = c ∧ acceptedEvents w.trace = events)
      (await env) := by
  rintro w ⟨hw, hcoordinator, hevents⟩
  obtain ⟨hrecorded, hsame, haccepted⟩ := hw.recordAll (env.answers w.clock).arrivals
  have hdone := And.intro hrecorded
    (And.intro (hsame.trans hcoordinator) (haccepted.trans hevents))
  unfold await
  by_cases hclock : w.clock < env.horizon
  · simp only [hclock, if_true]
    obtain ⟨hannounces, hrest⟩ := hdone
    refine ⟨⟨hannounces.configured, hannounces.seq, hannounces.retained, hannounces.emitting,
      hannounces.flushing⟩, hrest⟩
  · simp only [hclock, if_false]
    exact hdone

theorem await_keeps_announces : Keeps (Announces config) (await env) := by
  refine Triple.of_start fun u hu => ?_
  exact await_announces.conseq (fun s hs => by rw [hs]; exact ⟨hu, rfl, rfl⟩) (fun _ _ h => h.1)
    fun _ h => h.1

theorem interleave_announces : Keeps (Announces config) (interleave env) :=
  await_keeps_announces.bind fun _ => Keeps.pure ()

theorem now_announces {P : World → Prop} : Keeps P (now env) :=
  Keeps.get fun _ _ => Keeps.pure _

theorem drainAudit_announces : Keeps (Announces config) drainAudit := by
  apply Keeps.modify
  intro w hw
  have hlog : Announces config (w.log .drained) := hw.log (by simp) (by simp) (by simp)
  refine ⟨?_, ?_, ?_, hlog.emitting, hlog.flushing⟩
  · show (w.coordinator.absorb w.audit.drain).config = config
    rw [Coordinator.absorb_config]
    exact hw.configured
  · show (w.coordinator.absorb w.audit.drain).seq = _
    rw [Coordinator.absorb_seq]
    exact hlog.seq
  · intro event hevent
    change (w.coordinator.absorb w.audit.drain).pendingSnapshotEvent = some event at hevent
    rw [Coordinator.absorb_pendingSnapshotEvent] at hevent
    exact hw.retained event hevent

def AcceptedLast (config : Config) (event : Event) (w : World) : Prop :=
  Announces config w ∧ (acceptedEvents w.trace).getLast? = some event ∧
    w.coordinator.seq = event.seq + 1

theorem emitExact_announces (stamped : Stamped config.sessionId event) :
    Triple (Announces config) (emitExact env event) (fun _ => AcceptedLast config event)
      (Announces config) := by
  refine Triple.get fun u hu => ?_
  by_cases hseq : event.seq = u.coordinator.seq
  · simp only [hseq, if_true]
    refine Triple.bind (Q := fun _ w => Announces config w ∧ w.coordinator = u.coordinator ∧
      acceptedEvents w.trace = acceptedEvents u.trace) (Triple.modify ?_) fun _ => ?_
    · rintro s rfl
      refine ⟨hu.log (by simp) ?_ (by simp), rfl, acceptedEvents_snoc (by simp)⟩
      intro other hother
      rw [← Label.emitting.inj hother]
      exact ⟨stamped, hseq.trans hu.seq⟩
    refine (await_announces.conseq (fun _ h => h) (fun _ _ h => h) fun _ h => h.1).bind fun turn => ?_
    rcases turn.sink with error | _
    · refine Triple.bind (Q := fun _ => Announces config) (Triple.modify ?_) fun _ =>
        Triple.throw fun _ h => h
      exact fun s hs => hs.1.log (by simp) (by simp) (by simp)
    · refine Triple.bind (Q := fun _ w => ∃ v, (Announces config v ∧ v.coordinator = u.coordinator) ∧
        w = v.log (.accepted event)) (Triple.modify fun v hv => ⟨v, ⟨hv.1, hv.2.1⟩, rfl⟩) fun _ => ?_
      apply Triple.modify
      rintro _ ⟨v, ⟨hv, hcoordinator⟩, rfl⟩
      have hnext : v.coordinator.seq = event.seq := by rw [hcoordinator, hseq]
      refine ⟨hv.accept, ?_, congrArg (· + 1) hnext⟩
      show (acceptedEvents (v.trace ++ [.accepted event])).getLast? = some event
      rw [acceptedEvents_append]
      exact List.getLast?_concat
  · simp only [hseq, if_false]
    refine Triple.bind (Q := fun _ => Announces config) (Triple.modify ?_) fun _ =>
      Triple.throw fun _ h => h
    rintro s rfl
    exact hu.log (by simp) (by simp) (by simp)

theorem emitExact_keeps_announces (stamped : Stamped config.sessionId event) :
    Keeps (Announces config) (emitExact env event) :=
  (emitExact_announces stamped).post fun _ _ h => h.1

theorem emit_announces {u : World} (hu : Announces config u) (body : EventBody) :
    Triple (fun w => w = u) (emit env body) (fun _ w => ∃ time, AcceptedLast config
      (.new config.sessionId u.coordinator.seq time body) w) (Announces config) := by
  refine Triple.get fun v hv => ?_
  rw [hv]
  refine Triple.bind (Q := fun _ => Announces config) ?_ fun time => ?_
  · refine now_announces.conseq ?_ (fun _ _ h => h) fun _ h => h
    rintro s rfl
    exact hu
  · rw [hu.configured]
    exact (emitExact_announces ⟨rfl, rfl⟩).post fun _ w hw => ⟨time, hw⟩

theorem emit_keeps_announces (body : EventBody) : Keeps (Announces config) (emit env body) := by
  refine Triple.of_start fun u hu => (emit_announces hu body).post ?_
  rintro _ w ⟨time, hw⟩
  exact hw.1

theorem update_announces {f : Coordinator → Coordinator} (configured : ∀ c, (f c).config = c.config)
    (seq : ∀ c, (f c).seq = c.seq) (retained : ∀ c event, (f c).pendingSnapshotEvent = some event →
      c.pendingSnapshotEvent = some event) : Keeps (Announces config) (update f) := by
  apply Keeps.modify
  intro w hw
  exact hw.update (configured _) (seq _) fun event hevent => Or.inl (retained _ event hevent)

theorem capture_announces (fullScan : Bool) : Keeps (Announces config) (capture env fullScan) := by
  refine (log_announces (by simp)).bind fun _ => await_keeps_announces.bind fun turn => ?_
  rcases turn.checkpoint with message | checkpoint
  · exact (log_announces (by simp)).bind fun _ => Keeps.throw _
  · refine Keeps.get fun v _ => Keeps.bind ?_ fun _ => (log_announces (by simp)).bind fun _ =>
      Keeps.pure _
    exact update_announces (fun _ => rfl) (fun _ => rfl) fun _ _ h => h

theorem emitOverflowsFrom_announces (notices : List OverflowNotice) :
    Keeps (Announces config) (emitOverflowsFrom env notices) := by
  induction notices with
  | nil => exact Keeps.pure ()
  | cons notice rest ih =>
    refine (emit_keeps_announces _).bind fun _ => Keeps.bind ?_ fun _ => ih
    exact update_announces (fun _ => rfl) (fun _ => rfl) fun _ _ h => h

theorem emitAudit_announces : Keeps (Announces config) (emitAudit env) := by
  refine Keeps.get fun v _ => ?_
  rcases v.coordinator.auditStartedAt with _ | startedAt
  · exact Keeps.pure ()
  · refine now_announces.bind fun _ => (emit_keeps_announces _).bind fun _ => ?_
    exact update_announces (fun _ => rfl) (fun _ => rfl) fun _ _ h => h

theorem captureSnapshot_announces : Keeps (Announces config) (captureSnapshot env) := by
  refine Keeps.get fun u hu => (capture_announces _).bind fun snapshot => ?_
  refine now_announces.bind fun time => Keeps.bind ?_ fun _ => ?_
  · apply Keeps.modify
    intro w hw
    refine hw.update rfl rfl fun event hevent => Or.inr ?_
    rw [← Option.some.inj hevent]
    exact ⟨rfl, congrArg Config.sessionId hu.configured⟩
  · refine (emitExact_keeps_announces ⟨rfl, congrArg Config.sessionId hu.configured⟩).bind fun _ => ?_
    refine Keeps.bind ?_ fun _ => Keeps.pure _
    exact update_announces (fun _ => rfl) (fun _ => rfl) fun _ _ h => absurd h (by simp [
      Coordinator.snapshotDelivered])

theorem snapshot_announces : Keeps (Announces config) (snapshot env) := by
  refine Keeps.get fun u hu => ?_
  rcases hretained : u.coordinator.pendingSnapshotEvent with _ | event
  · refine interleave_announces.bind fun _ => drainAudit_announces.bind fun _ => ?_
    refine Keeps.bind (Keeps.get fun v _ => emitOverflowsFrom_announces _) fun _ => ?_
    exact emitAudit_announces.bind fun _ => captureSnapshot_announces
  · show Keeps (Announces config) (deliverRetained env event)
    unfold deliverRetained
    split
    · refine (emitExact_keeps_announces (hu.retained event hretained)).bind fun _ => ?_
      refine Keeps.bind ?_ fun _ => Keeps.pure _
      exact update_announces (fun _ => rfl) (fun _ => rfl) fun _ _ h => absurd h (by simp [
        Coordinator.retainedDelivered])
    · exact Keeps.throw _

theorem settleFrom_announces (turns : ℕ) : Keeps (Announces config) (settleFrom env turns) := by
  induction turns with
  | zero => exact Keeps.cut
  | succ turns ih =>
    refine Keeps.get fun v _ => ?_
    split_ifs
    · refine snapshot_announces.bind fun _ => ?_
      exact interleave_announces.bind fun _ => drainAudit_announces.bind fun _ => ih
    · exact Keeps.pure ()

theorem flushDurable_announces : Keeps (Announces config) (flushDurable env) := by
  refine Triple.get fun u hu => ?_
  refine Triple.bind (Q := fun _ w => ∃ time, AcceptedLast config (.new config.sessionId
    u.coordinator.seq time (.flush ⟨u.coordinator.recorder.opId, u.coordinator.seq⟩)) w) ?_ fun _ => ?_
  · exact emit_announces hu (.flush ⟨u.coordinator.recorder.opId, u.coordinator.seq⟩)
  refine Triple.get fun v hv => ?_
  obtain ⟨time, hv, hlast, hnext⟩ := hv
  refine Triple.bind (Q := fun _ => Announces config) (Triple.modify ?_) fun _ => ?_
  · rintro s rfl
    apply hv.log
    · simp
    · simp
    · intro request hrequest
      rw [← Label.flushing.inj hrequest, hnext]
      exact ⟨_, hlast, rfl, rfl⟩
  refine await_keeps_announces.bind fun turn => ?_
  rcases turn.sink with error | _
  · exact Keeps.bind (log_announces (by simp)) fun _ => Keeps.throw _
  · exact log_announces (by simp)

theorem currentStatus_announces : Keeps (Announces config) (currentStatus env) :=
  interleave_announces.bind fun _ => Keeps.get fun _ _ => Keeps.pure _

theorem finish_announces (reason : String) : Keeps (Announces config) (finish env reason) := by
  refine drainAudit_announces.bind fun _ => (settleFrom_announces _).bind fun _ => ?_
  refine Keeps.get fun v _ => (emit_keeps_announces _).bind fun _ => flushDurable_announces

theorem perform_announces (command : Command) : Keeps (Announces config) (perform env command) := by
  have hmap : ∀ {α : Type} {m : Task α} {f : α → Reply},
      Keeps (Announces config) m → Keeps (Announces config) (f <$> m) :=
    fun h => h.bind fun _ => Keeps.pure _
  have hpaused : ∀ paused, Keeps (Announces config)
      (update fun coordinator => { coordinator with paused := paused }) :=
    fun paused => update_announces (fun _ => rfl) (fun _ => rfl) fun _ _ h => h
  cases command with
  | status => exact hmap currentStatus_announces
  | snap => exact hmap snapshot_announces
  | mark label «meta» =>
    refine hmap (drainAudit_announces.bind fun _ => (settleFrom_announces _).bind fun _ => ?_)
    exact Keeps.get fun _ _ => emit_keeps_announces _
  | flush =>
    refine hmap (drainAudit_announces.bind fun _ => (settleFrom_announces _).bind fun _ => ?_)
    exact flushDurable_announces.bind fun _ => currentStatus_announces
  | pause => exact (hpaused true).bind fun _ => hmap currentStatus_announces
  | resume =>
    refine hmap (drainAudit_announces.bind fun _ => (hpaused false).bind fun _ => ?_)
    exact (settleFrom_announces _).bind fun _ => currentStatus_announces
  | shutdown reason => exact hmap (finish_announces reason)

theorem beginCommand_announces (command : Command) :
    Keeps (Announces config) (beginCommand command) := by
  apply Keeps.modify
  intro w hw
  exact hw.log (by simp) (by simp) (by simp)

end

def Command.flushes : Command → Bool
  | .flush | .shutdown _ => true
  | _ => false

/-- `command` was taken up after `earlier`, and no other one since. -/
def TakenUp (earlier : List Label) (command : Command) (trace : List Label) : Prop :=
  ∃ coordinator audit since, trace = earlier ++ .began command coordinator audit :: since ∧
    ∀ l ∈ since, l.isBegan = false

def FlushedSince (command : Command) (trace : List Label) : Prop :=
  ∃ earlier request, TakenUp earlier command trace ∧ .flushed request ∈ trace ∧
    (acceptedEvents earlier).length ≤ request.lastSeq

def FlushesAnswered (trace : List Label) : Prop :=
  AtEvery (fun before label => ∀ command reply, label = .replied command reply →
    reply.isOk = true → command.flushes = true → FlushedSince command before) trace

section
variable {config : Config} {env : Environment} {command : Command} {earlier : List Label}

theorem tolerates_takenUp : Tolerates anything (TakenUp earlier command) := by
  rintro trace label within ⟨coordinator, audit, since, rfl, hsince⟩
  refine ⟨coordinator, audit, since ++ [label], by simp, fun l hl => ?_⟩
  rcases List.mem_append.mp hl with hold | hnew
  · exact hsince l hold
  · rw [List.mem_singleton.mp hnew]
    cases label with
    | began => exact absurd within (by simp [Label.within])
    | _ => rfl

theorem tolerates_flushedSince : Tolerates anything (FlushedSince command) := by
  rintro trace label within ⟨earlier, request, htaken, hflushed, hle⟩
  exact ⟨earlier, request, tolerates_takenUp _ _ within htaken, List.mem_append_left _ hflushed, hle⟩

theorem tolerates_flushesAnswered : Tolerates anything FlushesAnswered := by
  intro trace label within h
  apply h.snoc
  rintro command reply rfl
  exact absurd within (by simp [Label.within])

theorem TakenUp.accepted {trace : List Label} (h : TakenUp earlier command trace) :
    (acceptedEvents earlier).length ≤ (acceptedEvents trace).length := by
  obtain ⟨coordinator, audit, since, rfl, -⟩ := h
  rw [acceptedEvents_append, List.length_append]
  exact Nat.le_add_right _ _

theorem flushDurable_answered :
    Triple (fun w => Announces config w ∧ TakenUp earlier command w.trace) (flushDurable env)
      (fun _ w => FlushedSince command w.trace) fun _ => True := by
  refine Triple.get fun u hu => ?_
  obtain ⟨hannounces, htaken⟩ := hu
  have hle : (acceptedEvents earlier).length ≤ u.coordinator.seq := by
    rw [hannounces.seq]
    exact htaken.accepted
  have hkeeps : Keeps (Shows (TakenUp earlier command))
      (emit env (.flush ⟨u.coordinator.recorder.opId, u.coordinator.seq⟩)) :=
    emit_writes tolerates_takenUp rfl
  refine Triple.bind (Q := fun _ w => TakenUp earlier command w.trace ∧
    w.coordinator.seq = u.coordinator.seq + 1) ?_ fun _ => ?_
  · refine (((emit_announces hannounces _).and (hkeeps.pre ?_)).post ?_).conseq (fun _ h => h)
      (fun _ _ h => h) fun _ _ => trivial
    · rintro s rfl
      exact htaken
    · rintro _ w ⟨⟨time, hlast⟩, htaken⟩
      exact ⟨htaken, hlast.2.2⟩
  refine Triple.get fun v hv => ?_
  obtain ⟨htaken, hnext⟩ := hv
  have hwritten : ∀ label : Label, label.within anything = true →
      Keeps (Shows (TakenUp earlier command)) (log label) :=
    fun label within => log_writes tolerates_takenUp label within
  refine Triple.bind (Q := fun _ => Shows (TakenUp earlier command))
    ((hwritten _ rfl).conseq ?_ (fun _ _ h => h) fun _ _ => trivial) fun _ => ?_
  · rintro s rfl
    exact htaken
  refine Triple.bind (await_writes tolerates_takenUp).returns fun turn => ?_
  rcases turn.sink with error | _
  · exact Triple.bind Triple.trivial fun _ => Triple.throw fun _ _ => trivial
  · apply Triple.modify
    intro w hw
    refine ⟨earlier, _, tolerates_takenUp _ _ rfl hw, List.mem_append_right _ (List.mem_singleton.mpr rfl), ?_⟩
    show _ ≤ v.coordinator.seq - 1
    rw [hnext]
    exact hle

theorem perform_answered (flushes : command.flushes = true) :
    Triple (fun w => Announces config w ∧ TakenUp earlier command w.trace) (perform env command)
      (fun _ w => FlushedSince command w.trace) fun _ => True := by
  have hboth : ∀ {α : Type} {m : Task α}, Keeps (Announces config) m →
      Keeps (Shows (TakenUp earlier command)) m →
      Triple (fun w => Announces config w ∧ TakenUp earlier command w.trace) m
        (fun _ w => Announces config w ∧ TakenUp earlier command w.trace) fun _ => True := by
    intro α m hannounces htaken
    refine (Triple.and (hannounces.pre fun _ h => h.1) (htaken.pre fun _ h => h.2)).conseq
      (fun _ h => h) (fun _ _ h => h) fun _ _ => trivial
  have htolerates : Tolerates anything (TakenUp earlier command) := tolerates_takenUp
  have hdrain := hboth drainAudit_announces (drainAudit_writes htolerates)
  have hloop : Keeps (Announces config) (settleFrom env (env.horizon + 1)) := settleFrom_announces _
  have hsettle := hboth hloop (settleFrom_writes htolerates (fun _ _ => rfl) rfl _)
  cases command with
  | flush =>
    refine Triple.map ?_
    refine hdrain.bind fun _ => hsettle.bind fun _ => flushDurable_answered.bind fun _ => ?_
    exact (currentStatus_writes tolerates_flushedSince).returns
  | shutdown reason =>
    refine Triple.map (hdrain.bind fun _ => hsettle.bind fun _ => Triple.get fun v hv => ?_)
    refine Triple.bind ((hboth (emit_keeps_announces _) (emit_writes tolerates_takenUp rfl)).pre ?_)
      fun _ => flushDurable_answered
    rintro s rfl
    exact hv
  | _ => exact absurd flushes (by simp [Command.flushes])

def Informs (config : Config) (w : World) : Prop := Announces config w ∧ FlushesAnswered w.trace

theorem informs_of_announces {α : Type} {m : Task α} (announces : Keeps (Announces config) m)
    (writes : Keeps (Shows FlushesAnswered) m) : Keeps (Informs config) m :=
  ((announces.pre fun _ h => h.1).and (writes.pre fun _ h => h.2)).conseq (fun _ h => h)
    (fun _ _ h => h) fun _ h => h

theorem Informs.log_replied {reply : Reply} {w : World} (h : Informs config w)
    (flushed : reply.isOk = true → command.flushes = true → FlushedSince command w.trace) :
    Informs config (w.log (.replied command reply)) := by
  refine ⟨h.1.log (by simp) (by simp) (by simp), h.2.snoc ?_⟩
  intro other answer hother
  obtain ⟨rfl, rfl⟩ := Label.replied.inj hother
  exact flushed

theorem serve_informs : Keeps (Informs config) (serve env command) := by
  refine Triple.of_start fun u hu => ?_
  refine Triple.bind (Q := fun _ w => Informs config w ∧ TakenUp u.trace command w.trace)
    (Triple.modify ?_) fun _ => ?_
  · rintro s rfl
    refine ⟨⟨hu.1.log (by simp) (by simp) (by simp), hu.2.snoc (by simp)⟩, ?_⟩
    exact ⟨s.coordinator, s.audit, [], rfl, by simp⟩
  have hinforms : Keeps (Informs config) (perform env command) :=
    informs_of_announces (perform_announces command) (performs_anything tolerates_flushesAnswered command)
  have hperform : Triple (fun w => Informs config w ∧ TakenUp u.trace command w.trace)
      (perform env command) (fun _ w => Informs config w ∧
        (command.flushes = true → FlushedSince command w.trace)) (Informs config) := by
    by_cases hflushes : command.flushes = true
    · have hanswered := @perform_answered config env command u.trace hflushes
      refine ((hinforms.pre fun _ h => h.1).and (hanswered.pre fun _ h => ⟨h.1.1, h.2⟩)).conseq
        (fun _ h => h) (fun _ _ h => ⟨h.1, fun _ => h.2⟩) fun _ h => h.1
    · exact (hinforms.pre fun _ h => h.1).post fun _ _ h => ⟨h, fun hflush => absurd hflush hflushes⟩
  refine hperform.attempt.bind fun result => ?_
  cases result with
  | ok reply => exact Triple.modify fun w hw => hw.1.log_replied fun _ => hw.2
  | error failure =>
    exact Triple.modify fun w hw => Informs.log_replied hw fun hok => absurd hok (by simp [Reply.isOk])

theorem run_informs (commands : List Command) : Keeps (Informs config) (run env commands) := by
  have hwait : Keeps (Informs config) (interleave env) :=
    informs_of_announces interleave_announces (interleave_writes tolerates_flushesAnswered)
  induction commands with
  | nil =>
    refine hwait.bind fun _ => Keeps.bind (informs_of_announces (beginCommand_announces _) ?_) fun _ =>
      informs_of_announces (finish_announces _) (finish_writes tolerates_flushesAnswered _)
    exact Keeps.modify fun w hw => AtEvery.snoc hw (by simp)
  | cons command commands ih =>
    cases command with
    | shutdown reason => exact hwait.bind fun _ => serve_informs
    | _ => exact hwait.bind fun _ => serve_informs.bind fun _ => ih

/-- In every run the coordinator's calls say what they should, and a flush is reported as done only
after the sink has answered it. -/
theorem reached_informs (env : Environment) (config : Config) (recorder : JjRecorder)
    (commands : List Command) : Informs config (reached env config recorder commands) := by
  have hinitialize : Keeps (Informs config) (initializeCoordinator env) := by
    refine informs_of_announces ?_ (initializeCoordinator_writes tolerates_flushesAnswered)
    exact (capture_announces true).bind fun _ => Keeps.get fun _ _ => emit_keeps_announces _
  have hsession : Keeps (Informs config) (session env commands) :=
    hinitialize.bind fun _ => run_informs commands
  apply hsession.final
  exact ⟨⟨rfl, rfl, by simp [World.start], atEvery_nil, atEvery_nil⟩, atEvery_nil⟩

end

theorem Framed.starts {events : List Event} (h : Framed events) (nonempty : events ≠ []) :
    ∃ event, events.head? = some event ∧ event.body.isStart = true := by
  have hrunning : ∀ {stream : List Event}, Running stream →
      ∃ event, stream.head? = some event ∧ event.body.isStart = true := by
    rintro stream ⟨first, rest, rfl, hstart, -⟩
    exact ⟨first, rfl, hstart⟩
  rcases h with hnil | h | ⟨running, last, after, rfl, h, -⟩
  · exact absurd hnil nonempty
  · exact hrunning h
  · obtain ⟨event, hhead, hstart⟩ := hrunning h
    refine ⟨event, ?_, hstart⟩
    rw [List.head?_append, hhead]
    rfl

theorem accepted_at {trace : List Label} {i : ℕ} {event : Event}
    (h : (acceptedEvents trace)[i]? = some event) : ∃ earlier later,
      trace = earlier ++ .accepted event :: later ∧
        acceptedEvents earlier = (acceptedEvents trace).take i := by
  obtain ⟨hi, hget⟩ := List.getElem?_eq_some_iff.mp h
  apply accepted_split
  rw [← hget, List.cons_getElem_drop_succ, List.take_append_drop]

theorem accepted_numbers (env : Environment) (config : Config) (recorder : JjRecorder)
    (commands : List Command) {i : ℕ} {event : Event}
    (h : (acceptedEvents (reached env config recorder commands).trace)[i]? = some event) :
    event.seq = i ∧ event.sessionId = config.sessionId := by
  have hcounters := (reached_steps env config recorder commands).counters (counters_start config recorder)
  generalize reached env config recorder commands = w at h hcounters
  obtain ⟨hi, -⟩ := List.getElem?_eq_some_iff.mp h
  obtain ⟨earlier, later, htrace, hearlier⟩ := accepted_at h
  have hsaid := hcounters.accepted earlier _ later htrace event rfl
  refine ⟨?_, hsaid.session⟩
  rw [hsaid.seq, hearlier, List.length_take]
  exact Nat.min_eq_left hi.le

def Answered (trace : List Label) : Prop :=
  AtEvery (fun before label => ∀ event, label = .accepted event ∨ label = .refused event →
    Awaiting (.emitting event) before) trace

theorem Step.answered {w w' : World} (step : Step w w') (h : Answered w.trace) :
    Answered w'.trace := by
  cases step with
  | arrival call => exact h.snoc (by cases call <;> simp [WatcherCall.label])
  | tick => exact h
  | paused => exact h
  | accepted event f awaiting next emission =>
    apply h.snoc
    intro other hother
    rw [← Label.accepted.inj (hother.resolve_right (by simp))]
    exact awaiting
  | refused event awaiting =>
    apply h.snoc
    intro other hother
    rw [← Label.refused.inj (hother.resolve_left (by simp))]
    exact awaiting
  | _ => exact h.snoc (by simp)

theorem Steps.answered {w w' : World} (steps : Steps w w') (h : Answered w.trace) :
    Answered w'.trace := by
  induction steps with
  | refl => exact h
  | tail _ step ih => exact step.answered ih

end Rrjj
