import Rrjj.Sinks.Durable
import Rrjj.Sinks.Numbering

/-! What a flush of the durable sink asks of the checkpoint sink and the event sink, whatever
these answer. -/

namespace Rrjj
open Library Library.Proc

namespace NdjsonSink
variable {sink : NdjsonSink}

theorem eventsThrough_numbered {lastSeq : ℕ} {events : List Event} (numbered : Numbered 0 sink.accepted)
    (h : sink.eventsThrough lastSeq = .ok events) : events.map Event.seq = List.range (lastSeq + 1) := by
  have hlast : sink.accepted.getLast?.map Event.seq = some lastSeq := (ite_ok_iff.mp h).1
  have hseqs : sink.accepted.map Event.seq = List.range sink.accepted.length := by
    rw [numbered, List.range_eq_range']
  rw [← List.getLast?_map, hseqs, List.getLast?_range] at hlast
  split_ifs at hlast with hempty
  have hlength : sink.accepted.length = lastSeq + 1 := by
    have hpred := Option.some.inj hlast
    omega
  rw [← eventsThrough_ok h, hseqs, hlength]

end NdjsonSink

inductive PartyCall where
  | checkpoint (request : CheckpointRequest) (answer : Outcome SinkError CheckpointPublication)
  | events (request : EventPublishRequest) (answer : Outcome SinkError EventAcknowledgement)

namespace DurableSessionSink
variable {κ : Type} (sink : DurableSessionSink κ)

def recording : DurableSessionSink (κ × List PartyCall) where
  sessionId := sink.sessionId
  publishCheckpoint request :=
    ⟨fun s =>
      let (answer, behind) := (sink.publishCheckpoint request).run s.1
      (answer, behind, s.2 ++ [.checkpoint request answer])⟩
  publishEvents request :=
    ⟨fun s =>
      let (answer, behind) := (sink.publishEvents request).run s.1
      (answer, behind, s.2 ++ [.events request answer])⟩

def notes (s : DurableState κ) : DurableState (κ × List PartyCall) where
  journal := s.journal
  behind := (s.behind, [])
  trace := s.trace

def unnoted (s : DurableState (κ × List PartyCall)) : DurableState κ where
  journal := s.journal
  behind := s.behind.1
  trace := s.trace

def notedFlush (answers : WriteAnswers) (request : FlushRequest) (s : DurableState κ) :
    Outcome SinkError Unit × DurableState (κ × List PartyCall) :=
  (sink.recording.flushSession answers request).run (notes s)

def checkpointFor (request : FlushRequest) (commit : String) : CheckpointRequest where
  shadowRoot := request.shadowRoot
  sessionId := sink.sessionId
  commit := commit
  lastSeq := request.lastSeq
  lastOp := request.lastOp

def eventsFor (request : FlushRequest) (events : List Event) (checkpoint : String) :
    EventPublishRequest where
  sessionId := sink.sessionId
  schemaVersion := schemaVersion
  events := events
  durable := some ⟨request.lastSeq, request.lastOp, checkpoint⟩

structure Delivered (request : FlushRequest) (accepted : List Event) (calls : List PartyCall)
    (commit checkpoint : String) (publication : CheckpointPublication) (ack : EventAcknowledgement) :
    Prop where
  named : commitFor request accepted = .ok commit
  normalized : normalizeCommitOid publication.checkpoint = .ok checkpoint
  asked : calls = [.checkpoint (sink.checkpointFor request commit) (.ok publication),
    .events (sink.eventsFor request accepted checkpoint) (.ok ack)]
  through : accepted.map Event.seq = List.range (request.lastSeq + 1)
  accepts : request.lastSeq ≤ ack.acceptedThroughSeq
  durable : ∃ seq, ack.durableThroughSeq = some seq ∧ request.lastSeq ≤ seq

inductive Halted (answers : WriteAnswers) (request : FlushRequest) (journal : NdjsonSink) :
    List PartyCall → SinkError → Prop
  | journal {failure : SinkError}
      (failed : ((NdjsonSink.flush answers).run journal).1 = .error failure) :
      Halted answers request journal [] failure
  | through {failure : SinkError} (failed : journal.eventsThrough request.lastSeq = .error failure) :
      Halted answers request journal [] failure
  | commit {failure : SinkError} (failed : commitFor request journal.accepted = .error failure) :
      Halted answers request journal [] failure
  | checkpoint {failure : SinkError} {commit : String}
      (named : commitFor request journal.accepted = .ok commit) :
      Halted answers request journal
        [.checkpoint (sink.checkpointFor request commit) (.error failure)] failure
  | normalized {failure : SinkError} {commit : String} {publication : CheckpointPublication}
      (named : commitFor request journal.accepted = .ok commit)
      (failed : normalizeCommitOid publication.checkpoint = .error failure) :
      Halted answers request journal
        [.checkpoint (sink.checkpointFor request commit) (.ok publication)] failure
  | events {failure : SinkError} {commit checkpoint : String} {publication : CheckpointPublication}
      (named : commitFor request journal.accepted = .ok commit)
      (normalized : normalizeCommitOid publication.checkpoint = .ok checkpoint) :
      Halted answers request journal
        [.checkpoint (sink.checkpointFor request commit) (.ok publication),
          .events (sink.eventsFor request journal.accepted checkpoint) (.error failure)] failure
  | acknowledged {failure : SinkError} {commit checkpoint : String}
      {publication : CheckpointPublication} {ack : EventAcknowledgement}
      (named : commitFor request journal.accepted = .ok commit)
      (normalized : normalizeCommitOid publication.checkpoint = .ok checkpoint)
      (failed : checkAcknowledged request ack = .error failure) :
      Halted answers request journal
        [.checkpoint (sink.checkpointFor request commit) (.ok publication),
          .events (sink.eventsFor request journal.accepted checkpoint) (.ok ack)] failure

/-- What a flush promises: if it returns, everything was published and acknowledged as durable;
if a step fails it is the last; and the accepted events stay. -/
structure KeepsPromise (answers : WriteAnswers) (request : FlushRequest) (s : DurableState κ) : Prop where
  delivered : (sink.notedFlush answers request s).1 = .ok () →
    ∃ commit checkpoint publication ack, sink.Delivered request s.journal.accepted
      (sink.notedFlush answers request s).2.behind.2 commit checkpoint publication ack
  halted : ∀ failure, (sink.notedFlush answers request s).1 = .error failure →
    sink.Halted answers request s.journal (sink.notedFlush answers request s).2.behind.2 failure
  accepted : (sink.notedFlush answers request s).2.journal.accepted = s.journal.accepted

/-- The event sink does not acknowledge the events of the flush without saying through where
they are durable. -/
def SaysDurable (answers : WriteAnswers) (request : FlushRequest) (s : DurableState κ) : Prop :=
  ∀ commit publication checkpoint ack behind,
    ((NdjsonSink.flush answers).run s.journal).1 = .ok () →
    s.journal.eventsThrough request.lastSeq = .ok s.journal.accepted →
    commitFor request s.journal.accepted = .ok commit →
    (sink.publishCheckpoint (sink.checkpointFor request commit)).run s.behind =
      (.ok publication, behind) →
    normalizeCommitOid publication.checkpoint = .ok checkpoint →
    ((sink.publishEvents (sink.eventsFor request s.journal.accepted checkpoint)).run behind).1 =
      .ok ack →
    request.lastSeq ≤ ack.acceptedThroughSeq → ack.durableThroughSeq.isSome

variable {sink} {answers : WriteAnswers} {request : FlushRequest} {s : DurableState κ}

structure Answered (sink : DurableSessionSink κ) (answers : WriteAnswers) (request : FlushRequest)
    (s : DurableState κ) (commit checkpoint : String) (publication : CheckpointPublication)
    (ack : EventAcknowledgement) : Prop where
  flushed : ((NdjsonSink.flush answers).run s.journal).1 = .ok ()
  through : s.journal.eventsThrough request.lastSeq = .ok s.journal.accepted
  named : commitFor request s.journal.accepted = .ok commit
  normalized : normalizeCommitOid publication.checkpoint = .ok checkpoint
  answers : ∃ behind, (sink.publishCheckpoint (sink.checkpointFor request commit)).run s.behind =
      (.ok publication, behind) ∧
    ((sink.publishEvents (sink.eventsFor request s.journal.accepted checkpoint)).run behind).1 =
      .ok ack
  acknowledged : checkAcknowledged request ack = .ok ()

theorem notedFlush_ends :
    (∃ failure, (sink.notedFlush answers request s).1 = .error failure ∧
      sink.Halted answers request s.journal (sink.notedFlush answers request s).2.behind.2 failure) ∨
    (sink.notedFlush answers request s).1 = .cut ∨
    (sink.notedFlush answers request s).1 = .ok () ∧ ∃ commit checkpoint publication ack,
      Answered sink answers request s commit checkpoint publication ack ∧
      (sink.notedFlush answers request s).2.behind.2 =
        [.checkpoint (sink.checkpointFor request commit) (.ok publication),
          .events (sink.eventsFor request s.journal.accepted checkpoint) (.ok ack)] := by
  have haccepted := (NdjsonSink.flush_accepted answers s.journal.accepted).final rfl
  unfold notedFlush flushSession
  simp only [logDurable, onJournal, notes, run_bind, run_modify, zoom]
  rcases hflush : (NdjsonSink.flush answers).run s.journal with ⟨_ | failure | _, journal⟩
  rotate_left
  · exact Or.inl ⟨failure, rfl, .journal (by rw [hflush])⟩
  · exact Or.inr (Or.inl rfl)
  rw [hflush] at haccepted
  have hsame : journal.eventsThrough request.lastSeq = s.journal.eventsThrough request.lastSeq := by
    rw [NdjsonSink.eventsThrough, NdjsonSink.eventsThrough, haccepted]
  simp only [run_get, hsame]
  rcases hthrough : s.journal.eventsThrough request.lastSeq with failure | events
  · exact Or.inl ⟨failure, rfl, .through hthrough⟩
  have hevents := NdjsonSink.eventsThrough_ok hthrough
  subst hevents
  simp only [run_ofExcept_ok]
  rcases hnamed : commitFor request s.journal.accepted with failure | commit
  · exact Or.inl ⟨failure, rfl, .commit hnamed⟩
  simp only [run_ofExcept_ok, checkpoint, recording, onBehind, logDurable, zoom, run_bind]
  -- the checkpoint sink answers
  rcases hpublished : (sink.publishCheckpoint (sink.checkpointFor request commit)).run s.behind with
    ⟨publication | failure | _, behind⟩
  all_goals
    simp only [checkpointFor] at hpublished
    simp only [hpublished, run_modify, run_pure]
  rotate_left
  · exact Or.inl ⟨failure, rfl, .checkpoint hnamed⟩
  · exact Or.inr (Or.inl trivial)
  rcases hnormalized : normalizeCommitOid publication.checkpoint with failure | checkpoint
  · exact Or.inl ⟨failure, rfl, .normalized hnamed hnormalized⟩
  simp only [run_ofExcept_ok, publishThrough, publish, logDurable, onBehind, zoom, run_bind,
    run_modify]
  -- the event sink answers
  rcases hacknowledged :
    (sink.publishEvents (sink.eventsFor request s.journal.accepted checkpoint)).run behind with
    ⟨ack | failure | _, behind'⟩
  all_goals
    simp only [eventsFor] at hacknowledged
    simp only [hacknowledged]
  rotate_left
  · exact Or.inl ⟨failure, rfl, .events hnamed hnormalized⟩
  · exact Or.inr (Or.inl trivial)
  rcases hack : checkAcknowledged request ack with failure | _
  · exact Or.inl ⟨failure, rfl, .acknowledged hnamed hnormalized hack⟩
  refine Or.inr (Or.inr ⟨rfl, commit, checkpoint, publication, ack, ?_, rfl⟩)
  refine ⟨by rw [hflush], hthrough, hnamed, hnormalized, ⟨behind, hpublished, ?_⟩, hack⟩
  exact congrArg Prod.fst hacknowledged

theorem Answered.returns {commit checkpoint : String} {publication : CheckpointPublication}
    {ack : EventAcknowledgement}
    (h : Answered sink answers request s commit checkpoint publication ack) :
    (sink.notedFlush answers request s).1 = .ok () ∧ (sink.notedFlush answers request s).2.behind.2 =
      [.checkpoint (sink.checkpointFor request commit) (.ok publication),
        .events (sink.eventsFor request s.journal.accepted checkpoint) (.ok ack)] := by
  obtain ⟨behind, hpublished, hack⟩ := h.answers
  have haccepted := (NdjsonSink.flush_accepted answers s.journal.accepted).final rfl
  rcases hflush : (NdjsonSink.flush answers).run s.journal with ⟨outcome, journal⟩
  have hok := h.flushed
  rw [hflush] at haccepted hok
  change outcome = .ok () at hok
  have hthrough : journal.eventsThrough request.lastSeq = .ok s.journal.accepted := by
    rw [← h.through, NdjsonSink.eventsThrough, NdjsonSink.eventsThrough, haccepted]
  rcases hacknowledged :
    (sink.publishEvents (sink.eventsFor request s.journal.accepted checkpoint)).run behind with
    ⟨acknowledged, behind'⟩
  rw [hacknowledged] at hack
  change acknowledged = .ok ack at hack
  simp only [checkpointFor] at hpublished
  simp only [eventsFor, hack] at hacknowledged
  simp only [notedFlush, flushSession, logDurable, onJournal, notes, run_bind, run_modify, zoom,
    hflush, hok, run_get, hthrough, run_ofExcept_ok, h.named, DurableSessionSink.checkpoint,
    recording, onBehind, hpublished, run_pure, h.normalized, publishThrough, publish, hacknowledged, h.acknowledged,
    checkpointFor, eventsFor, List.nil_append, List.cons_append, true_and]

theorem checkAcknowledged_ok {ack : EventAcknowledgement}
    (h : checkAcknowledged request ack = .ok ()) : request.lastSeq ≤ ack.acceptedThroughSeq ∧
      ∀ seq, ack.durableThroughSeq = some seq → request.lastSeq ≤ seq := by
  obtain ⟨haccepts, h⟩ := ite_error_iff.mp h
  obtain ⟨hdurable, -⟩ := ite_error_iff.mp h
  refine ⟨not_lt.mp haccepts, fun seq hseq => ?_⟩
  rw [hseq, Option.any_some, decide_eq_true_eq] at hdurable
  exact not_lt.mp hdurable

theorem flushSession_accepted {events : List Event} :
    Keeps (fun s : DurableState κ => s.journal.accepted = events)
      (sink.flushSession answers request) := by
  have hbehind : ∀ {α : Type} (m : Proc κ SinkError α),
      Keeps (fun s : DurableState κ => s.journal.accepted = events) (onBehind m) :=
    fun _ => Keeps.zoom fun _ _ h => h
  have hexcept : ∀ {α : Type} (result : Except SinkError α),
      Keeps (fun s : DurableState κ => s.journal.accepted = events) (Proc.ofExcept result) :=
    fun _ => Triple.ofExcept (fun _ _ _ h => h) fun _ _ _ h => h
  have hjournal : Keeps (fun s : DurableState κ => s.journal.accepted = events)
      (onJournal (NdjsonSink.flush answers)) :=
    Triple.zoom (NdjsonSink.flush_accepted answers events) (fun _ h => h) (fun _ _ _ _ h => h)
      fun _ _ _ h => h
  unfold flushSession
  refine Keeps.bind (Keeps.modify fun _ h => h) fun _ => Keeps.bind hjournal fun _ => ?_
  refine Keeps.get fun _ _ => Keeps.bind (hexcept _) fun _ => Keeps.bind (hexcept _) fun _ => ?_
  refine Keeps.bind ?_ fun _ => Keeps.bind (hexcept _) fun _ => ?_
  · exact Keeps.bind (hbehind _) fun _ => Keeps.bind (Keeps.modify fun _ h => h) fun _ =>
      Keeps.pure _
  · refine Keeps.bind ?_ fun _ => hexcept _
    exact Keeps.bind (Keeps.modify fun _ h => h) fun _ => hbehind _

/-- Noting the calls changes nothing else. -/
theorem recording_projects :
    Projects unnoted (sink.recording.flushSession answers request)
      (sink.flushSession answers request) := by
  have hlog : ∀ label, Projects unnoted
      (logDurable label : DurableTask (κ × List PartyCall) Unit) (logDurable label) :=
    fun _ => Projects.modify fun _ => rfl
  have hjournal : Projects unnoted (onJournal (NdjsonSink.flush answers) :
      DurableTask (κ × List PartyCall) Unit) (onJournal (NdjsonSink.flush answers)) := fun _ => rfl
  unfold flushSession
  refine (hlog _).bind fun _ => hjournal.bind fun _ => Projects.get fun s => ?_
  refine (Projects.ofExcept _).bind fun events => (Projects.ofExcept _).bind fun commit => ?_
  have hcheckpoint : Projects unnoted
      (sink.recording.checkpoint (sink.checkpointFor request commit))
      (sink.checkpoint (sink.checkpointFor request commit)) := by
    have hcall : Projects unnoted
        (onBehind (sink.recording.publishCheckpoint (sink.checkpointFor request commit)))
        (onBehind (sink.publishCheckpoint (sink.checkpointFor request commit))) := fun _ => rfl
    exact hcall.bind fun _ => (hlog _).bind fun _ => fun _ => rfl
  refine hcheckpoint.bind fun publication => (Projects.ofExcept _).bind fun checkpoint => ?_
  have hpublish : Projects unnoted
      (sink.recording.publish (sink.eventsFor request events checkpoint))
      (sink.publish (sink.eventsFor request events checkpoint)) := by
    have hcall : Projects unnoted
        (onBehind (sink.recording.publishEvents (sink.eventsFor request events checkpoint)))
        (onBehind (sink.publishEvents (sink.eventsFor request events checkpoint))) := fun _ => rfl
    exact (hlog _).bind fun _ => hcall
  exact hpublish.bind fun _ => Projects.ofExcept _

/-- A flush keeps its promise exactly when the event sink's answer to it says through where the
events are durable: the answer may leave that out and the flush returns all the same. -/
theorem flush_keeps_promise_iff {serde : Serde} {path : String} {maxSpoolBytes : ℕ}
    {sessionId : Option String} {version : Option ℕ} {existing : Bytes} {created : NdjsonSink}
    (sink : DurableSessionSink κ) (answers : WriteAnswers) (request : FlushRequest)
    (s : DurableState κ)
    (opened : NdjsonSink.createForSession serde path maxSpoolBytes sessionId version existing =
      .ok created)
    (run : NdjsonSink.Run serde (fun _ _ => True) created s.journal) :
    sink.KeepsPromise answers request s ↔ sink.SaysDurable answers request s := by
  have hnumbered := run.numbered (NdjsonSink.createForSession_numbered opened)
  constructor
  · intro promise commit publication checkpoint ack behind hflush hthrough hnamed hpublished
      hnormalized hack haccepts
    rcases hdurable : ack.durableThroughSeq with _ | seq
    · exfalso
      -- without the field, the checks pass and the flush returns
      have hchecked : checkAcknowledged request ack = .ok () := by
        unfold checkAcknowledged
        rw [if_neg (not_lt.mpr haccepts), hdurable]
        rfl
      have answered : Answered sink answers request s commit checkpoint publication ack :=
        ⟨hflush, hthrough, hnamed, hnormalized, ⟨behind, hpublished, hack⟩, hchecked⟩
      obtain ⟨hok, hcalls⟩ := answered.returns
      obtain ⟨_, _, _, other, delivered⟩ := promise.delivered hok
      have hasked := hcalls.symm.trans delivered.asked
      simp only [List.cons.injEq, PartyCall.events.injEq, Outcome.ok.injEq, and_true] at hasked
      obtain ⟨seq, hseq, -⟩ := delivered.durable
      rw [← hasked.2.2, hdurable] at hseq
      exact absurd hseq (by simp)
    · rfl
  · intro hpromise
    refine ⟨fun hok => ?_, fun failure hfails => ?_, flushSession_accepted.final rfl⟩
    · rcases @notedFlush_ends _ sink answers request s with ⟨failure, herror, -⟩ | hcut | ⟨-, h⟩
      · exact absurd (hok.symm.trans herror) (by simp)
      · exact absurd (hok.symm.trans hcut) (by simp)
      obtain ⟨commit, checkpoint, publication, ack, answered, hcalls⟩ := h
      obtain ⟨behind, hpublished, hack⟩ := answered.answers
      obtain ⟨haccepts, hdurable⟩ := checkAcknowledged_ok answered.acknowledged
      have hsome := hpromise commit publication checkpoint ack behind answered.flushed answered.through
        answered.named hpublished answered.normalized hack haccepts
      obtain ⟨seq, hseq⟩ := Option.isSome_iff_exists.mp hsome
      have hthrough := NdjsonSink.eventsThrough_numbered hnumbered answered.through
      exact ⟨commit, checkpoint, publication, ack, answered.named, answered.normalized, hcalls,
        hthrough, haccepts, seq, hseq, hdurable seq hseq⟩
    · rcases @notedFlush_ends _ sink answers request s with ⟨other, herror, halted⟩ | hcut | ⟨hok, -⟩
      · have hsame : other = failure := by
          injection (herror.symm.trans hfails)
        rw [← hsame]
        exact halted
      · exact absurd (hfails.symm.trans hcut) (by simp)
      · exact absurd (hfails.symm.trans hok) (by simp)

def exampleParties (durable : Option ℕ) : DurableSessionSink Unit where
  sessionId := "s"
  publishCheckpoint _ := pure ⟨"bbbbbbbbbbbbbbbbbbbbbbbbbbbbbbbbbbbbbbbb"⟩
  publishEvents _ := pure ⟨0, durable⟩

def exampleFlush : FlushRequest :=
  ⟨"shadow", 0, "op:a", some "c:bbbbbbbbbbbbbbbbbbbbbbbbbbbbbbbbbbbbbbbb"⟩

def exampleState : DurableState Unit := ⟨NdjsonSink.spooledJournal, (), []⟩

theorem exampleParties_answered (durable : Option ℕ) :
    Answered (exampleParties durable) {} exampleFlush exampleState
      "c:bbbbbbbbbbbbbbbbbbbbbbbbbbbbbbbbbbbbbbbb" "bbbbbbbbbbbbbbbbbbbbbbbbbbbbbbbbbbbbbbbb"
      ⟨"bbbbbbbbbbbbbbbbbbbbbbbbbbbbbbbbbbbbbbbb"⟩ ⟨0, durable⟩ where
  flushed := rfl
  through := rfl
  named := rfl
  normalized := by decide +kernel
  answers := ⟨(), rfl, rfl⟩
  acknowledged := by
    cases durable with
    | none => rfl
    | some seq => rfl

/-- A receiver that acknowledges an event as durable. -/
theorem flush_keeps_promise_acknowledged :
    (exampleParties (some 0)).KeepsPromise {} exampleFlush exampleState ∧
      ((exampleParties (some 0)).notedFlush {} exampleFlush exampleState).1 = .ok () := by
  refine ⟨?_, (exampleParties_answered (some 0)).returns.1⟩
  refine (flush_keeps_promise_iff (exampleParties (some 0)) {} exampleFlush exampleState
    NdjsonSink.exampleJournal_created NdjsonSink.spooledJournal_run).mpr ?_
  intro commit publication checkpoint ack behind _ _ _ _ _ hack _
  have hack : (.ok ⟨0, some 0⟩ : Outcome SinkError EventAcknowledgement) = .ok ack := hack
  rw [← Outcome.ok.inj hack]
  rfl

/-- A receiver that does not mention what is durable: the flush returns. -/
theorem unmentioned_durability_passes :
    ¬ ∀ (κ : Type) (sink : DurableSessionSink κ) (answers : WriteAnswers) (request : FlushRequest)
      (s : DurableState κ) (serde : Serde) (path : String) (maxSpoolBytes : ℕ)
      (sessionId : Option String) (version : Option ℕ) (existing : Bytes) (created : NdjsonSink),
      NdjsonSink.createForSession serde path maxSpoolBytes sessionId version existing = .ok created →
      NdjsonSink.Run serde (fun _ _ => True) created s.journal →
      sink.KeepsPromise answers request s := by
  intro h
  have answered := exampleParties_answered none
  obtain ⟨hok, hcalls⟩ := answered.returns
  have promise := h Unit (exampleParties none) {} exampleFlush exampleState _ _ _ _ _ _ _
    NdjsonSink.exampleJournal_created NdjsonSink.spooledJournal_run
  obtain ⟨_, _, _, ack, delivered⟩ := promise.delivered hok
  have hasked := hcalls.symm.trans delivered.asked
  simp only [List.cons.injEq, PartyCall.events.injEq, Outcome.ok.injEq, and_true] at hasked
  obtain ⟨seq, hseq, -⟩ := delivered.durable
  rw [← hasked.2.2] at hseq
  exact absurd hseq (by simp)

end DurableSessionSink
end Rrjj
