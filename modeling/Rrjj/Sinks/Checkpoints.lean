import Rrjj.Core.Chain
import Rrjj.Sinks.Durable

/-! The coordinator over a durable session sink: no list of events is handed over before the
checkpoint of the same flush is published, and that covers every snapshot of the list. -/

namespace Rrjj
open Library Library.Proc

variable {parent : String → String → Prop} {recorder : JjRecorder} {w w' : World}

/-- Accepted events are numbered from 0, and a flush is answered after it was asked for, in a
session that has accepted something. -/
structure Ordered (w : World) : Prop where
  seq : w.coordinator.seq = (acceptedEvents w.trace).length
  begun : ∀ label ∈ w.trace, label.isBegan → acceptedEvents w.trace ≠ []
  numbered : AtEvery (fun before label => ∀ event, label = .accepted event →
    event.seq = (acceptedEvents before).length) w.trace
  opened : AtEvery (fun before label => ∀ request, label = .flushing request →
    acceptedEvents before ≠ []) w.trace
  awaited : AtEvery (fun before label => ∀ request,
    label = .flushed request ∨ label = .flushFailed request → Awaiting (.flushing request) before)
    w.trace

theorem Ordered.log {label : Label} (h : Ordered w) (trace : w'.trace = w.trace ++ [label])
    (seq : w'.coordinator.seq = w.coordinator.seq) (accepts : acceptedEvents [label] = [])
    (began : label.isBegan → acceptedEvents w.trace ≠ [])
    (flushes : ∀ request, label = .flushing request → acceptedEvents w.trace ≠ [])
    (answers : ∀ request, label = .flushed request ∨ label = .flushFailed request →
      Awaiting (.flushing request) w.trace) : Ordered w' := by
  have haccepted : acceptedEvents w'.trace = acceptedEvents w.trace := by
    rw [trace, acceptedEvents_append, accepts, List.append_nil]
  refine ⟨?_, ?_, ?_, ?_, ?_⟩
  · rw [seq, haccepted, h.seq]
  · intro l hl hbegan
    rw [haccepted]
    rw [trace, List.mem_append, List.mem_singleton] at hl
    rcases hl with hl | rfl
    · exact h.begun l hl hbegan
    · exact began hbegan
  · rw [trace]
    apply h.numbered.snoc
    intro event hevent
    rw [hevent] at accepts
    exact absurd accepts (by simp [acceptedEvents])
  · rw [trace]
    exact h.opened.snoc flushes
  · rw [trace]
    exact h.awaited.snoc answers

theorem Step.ordered (step : Step w w') (h : Ordered w) : Ordered w' := by
  cases step with
  | arrival call =>
    have hl : acceptedEvents [call.label] = [] ∧ call.label.isBegan = false ∧
        (∀ request, call.label ≠ .flushing request) ∧ (∀ request, call.label ≠ .flushed request) ∧
        ∀ request, call.label ≠ .flushFailed request := by
      cases call <;> simp [WatcherCall.label, acceptedEvents, Label.isBegan]
    obtain ⟨haccepts, hbegan, hflushing, hflushed, hfailed⟩ := hl
    refine h.log rfl rfl haccepts (by simp [hbegan]) (by simp [hflushing]) ?_
    intro request hanswer
    exact (hanswer.elim (hflushed request) (hfailed request)).elim
  | tick => exact ⟨h.seq, h.begun, h.numbered, h.opened, h.awaited⟩
  | began command opened =>
    exact h.log rfl rfl rfl (fun _ => opened.accepted) (by simp) (by simp)
  | drained =>
    refine @Ordered.log w _ .drained h rfl ?_ rfl (by simp [Label.isBegan]) (by simp) (by simp)
    exact w.coordinator.absorb_seq _
  | accepted event f _ next emission =>
    have haccepted : acceptedEvents (w.accept event f).trace = acceptedEvents w.trace ++ [event] :=
      acceptedEvents_append _ _
    refine ⟨?_, ?_, ?_, ?_, ?_⟩
    · rw [haccepted, List.length_append, List.length_singleton, ← h.seq]
      exact emission.seq _
    · intro l _ _
      rw [haccepted]
      simp
    · apply h.numbered.snoc
      intro other hother
      rw [← Label.accepted.inj hother, next, h.seq]
    · exact h.opened.snoc fun request hrequest => absurd hrequest (by simp)
    · exact h.awaited.snoc fun request hrequest => absurd hrequest (by simp)
  | flushing command publishes settled =>
    -- a flush belongs to a command, which begins after the session start
    have hopened : acceptedEvents w.trace ≠ [] := by
      obtain ⟨before, coordinator, audit, since, htrace, -, -⟩ := settled.underway
      exact h.begun (.began command coordinator audit) (by simp [htrace]) rfl
    exact h.log rfl rfl rfl (by simp [Label.isBegan]) (fun _ _ => hopened) (by simp)
  | flushed request awaiting =>
    refine h.log rfl rfl rfl (by simp [Label.isBegan]) (by simp) fun other hother => ?_
    rw [← Label.flushed.inj (hother.resolve_right (by simp))]
    exact awaiting
  | flushFailed request awaiting =>
    refine h.log rfl rfl rfl (by simp [Label.isBegan]) (by simp) fun other hother => ?_
    rw [← Label.flushFailed.inj (hother.resolve_left (by simp))]
    exact awaiting
  | paused => exact ⟨h.seq, h.begun, h.numbered, h.opened, h.awaited⟩
  | _ => exact h.log rfl rfl rfl (by simp [Label.isBegan]) (by simp) (by simp)

theorem Steps.ordered {config : Config} (steps : Steps (World.start config recorder) w) :
    Ordered w := by
  induction steps with
  | refl =>
    refine ⟨rfl, ?_, atEvery_nil, atEvery_nil, atEvery_nil⟩
    exact fun label hlabel => absurd hlabel (by simp [World.start])
  | tail _ step ih => exact step.ordered ih

def Label.isAnswer : Label → Bool
  | .accepted _ | .refused _ | .flushed _ | .flushFailed _ => true
  | _ => false

theorem Label.silent_accepts {label : Label} (silent : label.isAnswer = false) (event : Event) :
    label ≠ .accepted event := by
  rintro rfl
  exact absurd silent (by simp [isAnswer])

theorem Label.silent_flushes {label : Label} (silent : label.isAnswer = false) (request : FlushRequest) :
    label ≠ .flushed request := by
  rintro rfl
  exact absurd silent (by simp [isAnswer])

namespace DurableSessionSink
variable {κ : Type} {sink : DurableSessionSink κ} {serde : Serde} {answers : WriteAnswers}
  {events : List Event} {request : FlushRequest}

/-- Events are handed over right after a checkpoint that covers all their snapshots. -/
def AfterCheckpoint (parent : String → String → Prop) (before : List DurableLabel) (label : DurableLabel) :
    Prop :=
  ∀ request, label = .publishing request → ∃ earlier checkpoint publication,
    before = earlier ++ [.checkpointed checkpoint publication] ∧
      ∀ commit ∈ snapshotCommits request.events,
        Relation.ReflTransGen parent checkpoint.commit commit

structure Orderly (parent : String → String → Prop) (events : List Event) (s : DurableState κ) :
    Prop where
  accepted : s.journal.accepted = events
  follows : AtEvery (AfterCheckpoint parent) s.trace

theorem logDurable_orderly {label : DurableLabel} (h : ∀ request, label ≠ .publishing request) :
    Keeps (Orderly parent events) (logDurable label : DurableTask κ Unit) := by
  apply Keeps.modify
  intro s hs
  exact ⟨hs.accepted, hs.follows.snoc fun request hrequest => absurd hrequest (h request)⟩

theorem onBehind_keeps {α : Type} {I : DurableState κ → Prop} {m : Proc κ SinkError α}
    (h : ∀ behind s, I s → I { s with behind := behind }) : Keeps I (onBehind m) := Keeps.zoom h

theorem flushJournal_orderly : Keeps (Orderly parent events)
    (onJournal (NdjsonSink.flush answers) : DurableTask κ Unit) := by
  refine Triple.zoom (NdjsonSink.flush_accepted answers events) (fun s hs => hs.accepted) ?_ ?_
  · exact fun s _ journal hs hjournal => ⟨hjournal, hs.follows⟩
  · exact fun s journal hs hjournal => ⟨hjournal, hs.follows⟩

def Checkpointed (parent : String → String → Prop) (events : List Event) (commit : String)
    (s : DurableState κ) : Prop :=
  Orderly parent events s ∧ ∃ earlier checkpoint publication,
    s.trace = earlier ++ [.checkpointed checkpoint publication] ∧ checkpoint.commit = commit

theorem checkpoint_spec (checkpoint : CheckpointRequest) :
    Triple (Orderly parent events) (sink.checkpoint checkpoint)
      (fun _ => Checkpointed parent events checkpoint.commit) (Orderly parent events) := by
  have hbehind : Keeps (Orderly parent events) (onBehind (sink.publishCheckpoint checkpoint)) :=
    onBehind_keeps fun _ _ h => ⟨h.accepted, h.follows⟩
  refine Triple.bind hbehind fun publication => ?_
  refine Triple.bind (Q := fun _ => Checkpointed parent events checkpoint.commit) ?_ fun _ =>
    Triple.pure fun _ h => h
  apply Triple.modify
  intro s hs
  refine ⟨⟨hs.accepted, hs.follows.snoc fun request hrequest => absurd hrequest (by simp)⟩, ?_⟩
  exact ⟨s.trace, checkpoint, publication, rfl, rfl⟩

theorem publishThrough_orderly {commit checkpoint : String}
    (covers : ∀ older ∈ snapshotCommits events, Relation.ReflTransGen parent commit older) :
    Triple (Checkpointed parent events commit) (sink.publishThrough request events checkpoint)
      (fun _ => Orderly parent events) (Orderly parent events) := by
  have hpublish : Triple (Checkpointed parent events commit) (sink.publish
      { sessionId := sink.sessionId
        schemaVersion := schemaVersion
        events := events
        durable := some ⟨request.lastSeq, request.lastOp, checkpoint⟩ })
      (fun _ => Orderly parent events) (Orderly parent events) := by
    refine Triple.bind (Q := fun _ => Orderly parent events) ?_ fun _ =>
      onBehind_keeps fun _ _ h => ⟨h.accepted, h.follows⟩
    apply Triple.modify
    rintro s ⟨hs, earlier, published, publication, htrace, hcommit⟩
    refine ⟨hs.accepted, hs.follows.snoc fun handed hhanded => ?_⟩
    rw [← DurableLabel.publishing.inj hhanded]
    refine ⟨earlier, published, publication, htrace, ?_⟩
    rw [hcommit]
    exact covers
  exact hpublish.bind fun ack => Triple.ofExcept (fun _ _ _ h => h) fun _ _ _ h => h

theorem flushSession_orderly (covers : ∀ commit, commitFor request events = .ok commit →
      ∀ older ∈ snapshotCommits events, Relation.ReflTransGen parent commit older) :
    Keeps (Orderly parent events) (sink.flushSession answers request) := by
  refine (logDurable_orderly (by simp)).bind fun _ => flushJournal_orderly.bind fun _ => ?_
  refine Triple.get fun u hu => ?_
  refine Triple.bind (Q := fun found s => found = events ∧ Orderly parent events s)
    (Triple.ofExcept ?_ ?_) fun found => ?_
  · intro found hfound s hs
    rw [hs]
    refine ⟨?_, hu⟩
    rw [← hu.accepted]
    exact (NdjsonSink.eventsThrough_ok hfound).symm
  · intro _ _ s hs
    rw [hs]
    exact hu
  refine Triple.of_start fun v hv => ?_
  obtain ⟨rfl, hv⟩ := hv
  refine Triple.bind (Q := fun commit s => commitFor request found = .ok commit ∧
      Orderly parent found s) (Triple.ofExcept ?_ ?_) fun commit => ?_
  · rintro commit hcommit s rfl
    exact ⟨hcommit, hv⟩
  · rintro _ _ s rfl
    exact hv
  refine Triple.of_start fun u' hu' => ?_
  refine ((checkpoint_spec _).pre fun s (hs : s = u') => hs ▸ hu'.2).bind fun publication => ?_
  refine Triple.bind (Q := fun _ => Checkpointed parent found commit)
    (Triple.ofExcept (fun _ _ _ h => h) fun _ _ _ h => h.1) fun checkpoint => ?_
  exact publishThrough_orderly (covers commit hu'.1)

theorem emit_orderly (event : Event) :
    Triple (Orderly parent events) (emit serde answers event : DurableTask κ Unit)
      (fun _ s => Orderly parent (events ++ [event]) s ∧ event.seq = events.length)
      (Orderly parent events) := by
  unfold emit onJournal
  refine Triple.zoom (NdjsonSink.emit_accepted serde answers event events)
    (fun s hs => hs.accepted) ?_ ?_
  · exact fun s _ journal hs hjournal => ⟨⟨hjournal.1, hs.follows⟩, hjournal.2⟩
  · exact fun s journal hs hjournal => ⟨hjournal, hs.follows⟩

/-- The sink behind the coordinator whose trace it is: every answer in the trace is the
sink's own. A flush during which the process is killed is not answered. -/
inductive Drives (serde : Serde) (sink : DurableSessionSink κ) (first : DurableState κ) :
    List Label → DurableState κ → Prop
  | start : Drives serde sink first [] first
  | accepted {trace : List Label} {s s' : DurableState κ} (answers : WriteAnswers) (event : Event)
      (driven : Drives serde sink first trace s)
      (ran : (emit serde answers event).run s = (.ok (), s')) :
      Drives serde sink first (trace ++ [.accepted event]) s'
  | refused {trace : List Label} {s s' : DurableState κ} (answers : WriteAnswers) (event : Event)
      (failure : SinkError) (driven : Drives serde sink first trace s)
      (ran : (emit serde answers event).run s = (.error failure, s')) :
      Drives serde sink first (trace ++ [.refused event]) s'
  | flushed {trace : List Label} {s s' : DurableState κ} (answers : WriteAnswers)
      (request : FlushRequest) (driven : Drives serde sink first trace s)
      (ran : (sink.flushSession answers request).run s = (.ok (), s')) :
      Drives serde sink first (trace ++ [.flushed request]) s'
  | flushFailed {trace : List Label} {s s' : DurableState κ} (answers : WriteAnswers)
      (request : FlushRequest) (failure : SinkError) (driven : Drives serde sink first trace s)
      (ran : (sink.flushSession answers request).run s = (.error failure, s')) :
      Drives serde sink first (trace ++ [.flushFailed request]) s'
  | killed {trace : List Label} {s s' : DurableState κ} (answers : WriteAnswers)
      (request : FlushRequest) (awaiting : Awaiting (.flushing request) trace)
      (driven : Drives serde sink first trace s)
      (ran : (sink.flushSession answers request).run s = (.cut, s')) :
      Drives serde sink first trace s'
  | silent {trace : List Label} {s : DurableState κ} (label : Label)
      (silent : label.isAnswer = false) (driven : Drives serde sink first trace s) :
      Drives serde sink first (trace ++ [label]) s

structure Told (parent : String → String → Prop) (trace : List Label) : Prop where
  numbered : AtEvery (fun before label => ∀ event, label = .accepted event →
    event.seq = (acceptedEvents before).length) trace
  opened : AtEvery (fun before label => ∀ request, label = .flushing request →
    acceptedEvents before ≠ []) trace
  awaited : AtEvery (fun before label => ∀ request,
    label = .flushed request ∨ label = .flushFailed request → Awaiting (.flushing request) before)
    trace
  flushes : AtEvery (fun before label => ∀ request, label = .flushing request →
    ∀ commit ∈ snapshotCommits (acceptedEvents before), ∃ head, request.checkpoint = some head ∧
      Relation.ReflTransGen parent head commit) trace

theorem Told.of_prefix {trace later : List Label} (h : Told parent later) (earlier : trace <+: later) :
    Told parent trace :=
  ⟨h.numbered.of_prefix earlier, h.opened.of_prefix earlier, h.awaited.of_prefix earlier,
    h.flushes.of_prefix earlier⟩

structure Journaled (parent : String → String → Prop) (first : DurableState κ) (trace : List Label)
    (s : DurableState κ) : Prop where
  orderly : Orderly parent (first.journal.accepted ++ acceptedEvents trace) s
  fresh : acceptedEvents trace ≠ [] → first.journal.accepted = []

variable {first s s' : DurableState κ} {trace : List Label}

theorem Journaled.flush (h : Journaled parent first trace s) (told : Told parent trace)
    (awaiting : Awaiting (.flushing request) trace) :
    Journaled parent first trace ((sink.flushSession answers request).run s).2 := by
  obtain ⟨before, since, htrace, hsince⟩ := awaiting
  have hopened := told.opened before (.flushing request) since htrace request rfl
  have hflushes := told.flushes before (.flushing request) since htrace request rfl
  have haccepted : acceptedEvents trace = acceptedEvents before := by
    have hrest : acceptedEvents (.flushing request :: since) = [] := by
      rw [acceptedEvents, List.filterMap_cons_none rfl]
      exact acceptedEvents_arrivals hsince
    rw [htrace, acceptedEvents_append, hrest, List.append_nil]
  have hfresh := h.fresh (haccepted ▸ hopened)
  refine ⟨?_, h.fresh⟩
  refine Keeps.final (flushSession_orderly fun commit hcommit older holder => ?_) h.orderly
  rw [hfresh, List.nil_append, haccepted] at holder
  obtain ⟨head, hhead, hchain⟩ := hflushes older holder
  simp only [commitFor, hhead, Option.some_or] at hcommit
  rwa [← Except.ok.inj hcommit]

theorem Drives.journaled (driven : Drives serde sink first trace s) (told : Told parent trace)
    (first_trace : first.trace = []) : Journaled parent first trace s := by
  induction driven with
  | start =>
    refine ⟨⟨(List.append_nil _).symm, ?_⟩, fun h => absurd rfl h⟩
    rw [first_trace]
    exact atEvery_nil
  | @accepted trace s s' answers event driven ran ih =>
    have hbefore := ih (told.of_prefix (List.prefix_append _ _))
    have hnumber := told.numbered trace (.accepted event) [] rfl event rfl
    have hends := @emit_orderly parent κ serde answers _ event s hbefore.orderly
    rw [ran] at hends
    obtain ⟨horderly, hseq⟩ := hends
    rw [List.length_append, hnumber] at hseq
    -- numbers start at zero, so nothing was accepted before
    have hfresh : first.journal.accepted = [] := List.eq_nil_of_length_eq_zero (by omega)
    refine ⟨?_, fun _ => hfresh⟩
    rw [acceptedEvents_append, ← List.append_assoc]
    exact horderly
  | @refused trace s s' answers event failure driven ran ih =>
    have hbefore := ih (told.of_prefix (List.prefix_append _ _))
    have hends := @emit_orderly parent κ serde answers _ event s hbefore.orderly
    rw [ran] at hends
    have hsame : acceptedEvents (trace ++ [.refused event]) = acceptedEvents trace :=
      acceptedEvents_snoc (by simp)
    exact ⟨hsame ▸ hends, hsame ▸ hbefore.fresh⟩
  | @flushed trace s s' answers request driven ran ih =>
    have htold := told.of_prefix (List.prefix_append _ _)
    have hawaiting := told.awaited trace (.flushed request) [] rfl request (Or.inl rfl)
    have hflush := @Journaled.flush parent κ sink answers _ first s trace (ih htold) htold hawaiting
    rw [ran] at hflush
    have hsame : acceptedEvents (trace ++ [.flushed request]) = acceptedEvents trace :=
      acceptedEvents_snoc (by simp)
    exact ⟨hsame ▸ hflush.orderly, hsame ▸ hflush.fresh⟩
  | @flushFailed trace s s' answers request failure driven ran ih =>
    have htold := told.of_prefix (List.prefix_append _ _)
    have hawaiting := told.awaited trace (.flushFailed request) [] rfl request (Or.inr rfl)
    have hflush := @Journaled.flush parent κ sink answers _ first s trace (ih htold) htold hawaiting
    rw [ran] at hflush
    have hsame : acceptedEvents (trace ++ [.flushFailed request]) = acceptedEvents trace :=
      acceptedEvents_snoc (by simp)
    exact ⟨hsame ▸ hflush.orderly, hsame ▸ hflush.fresh⟩
  | @killed trace s s' answers request awaiting driven ran ih =>
    have hflush := @Journaled.flush parent κ sink answers _ first s trace (ih told) told awaiting
    rwa [ran] at hflush
  | @silent trace s label silent driven ih =>
    have hbefore := ih (told.of_prefix (List.prefix_append _ _))
    have hsame : acceptedEvents (trace ++ [label]) = acceptedEvents trace :=
      acceptedEvents_snoc (Label.silent_accepts silent)
    exact ⟨hsame ▸ hbefore.orderly, hsame ▸ hbefore.fresh⟩

/-- In every run of a coordinator over a durable session sink, whatever fails, events are
handed over right after the checkpoint of their flush was published, and every snapshot
among them names that checkpoint's commit or one of its ancestors. -/
theorem events_follow_their_checkpoint (serde : Serde) (sink : DurableSessionSink κ)
    (env : Environment) (config : Config) (recorder : JjRecorder) (commands : List Command)
    (parent : String → String → Prop)
    (records : RecordsParents parent recorder (reached env config recorder commands).trace)
    (journal : NdjsonSink) (behind : κ) {s : DurableState κ}
    (driven : Drives serde sink { journal := journal, behind := behind }
      (reached env config recorder commands).trace s) :
    AtEvery (AfterCheckpoint parent) s.trace := by
  have hsteps := reached_steps env config recorder commands
  have hordered := hsteps.ordered
  have hchained := hsteps.chained records
  have htold : Told parent (reached env config recorder commands).trace :=
    ⟨hordered.numbered, hordered.opened, hordered.awaited, hchained.flushes⟩
  exact (driven.journaled htold rfl).orderly.follows

def follow (serde : Serde) (sink : DurableSessionSink κ) (s : DurableState κ) :
    Label → Option (DurableState κ)
  | .accepted event =>
    match (emit serde {} event).run s with
    | (.ok (), s') => some s'
    | _ => none
  | .flushed request =>
    match (sink.flushSession {} request).run s with
    | (.ok (), s') => some s'
    | _ => none
  | .refused event =>
    match (emit serde {} event).run s with
    | (.error _, s') => some s'
    | _ => none
  | .flushFailed _ => none
  | _ => some s

theorem Drives.next {label : Label} (driven : Drives serde sink first trace s)
    (h : follow serde sink s label = some s') : Drives serde sink first (trace ++ [label]) s' := by
  unfold DurableSessionSink.follow at h
  split at h
  · next event =>
    split at h
    · next s' hran =>
      rw [← Option.some.inj h]
      exact driven.accepted {} event hran
    · exact absurd h (by simp)
  · next request =>
    split at h
    · next s' hran =>
      rw [← Option.some.inj h]
      exact driven.flushed {} request hran
    · exact absurd h (by simp)
  · next event =>
    split at h
    · next failure s' hran =>
      rw [← Option.some.inj h]
      exact driven.refused {} event failure hran
    · exact absurd h (by simp)
  · exact absurd h (by simp)
  · next haccepted hflushed hrefused hfailed =>
    rw [← Option.some.inj h]
    refine driven.silent label ?_
    cases label with
    | accepted event => exact absurd rfl (haccepted event)
    | flushed request => exact absurd rfl (hflushed request)
    | refused event => exact absurd rfl (hrefused event)
    | flushFailed request => exact absurd rfl (hfailed request)
    | _ => rfl

theorem Drives.all {labels : List Label} (driven : Drives serde sink first trace s)
    (h : labels.foldlM (follow serde sink) s = some s') :
    Drives serde sink first (trace ++ labels) s' := by
  induction labels generalizing trace s with
  | nil =>
    rw [← Option.some.inj h, List.append_nil]
    exact driven
  | cons label rest ih =>
    rw [List.foldlM_cons] at h
    obtain ⟨next, hnext, hrest⟩ := Option.bind_eq_some_iff.mp h
    have hall := ih (driven.next hnext) hrest
    rwa [List.append_assoc, List.singleton_append] at hall

def GivenParents (recorder : JjRecorder) (trace : List Label) (commit older : String) : Prop :=
  ∃ before snapshot after, trace = before ++ .captured snapshot :: after ∧
    snapshot.commit = commit ∧ givenParent recorder before = some older

theorem recordsParents_given (recorder : JjRecorder) (trace : List Label) :
    RecordsParents (GivenParents recorder trace) recorder trace := by
  rintro before label after htrace snapshot older rfl hgiven
  exact ⟨before, snapshot, after, htrace, rfl, hgiven⟩

def firstCommit : String := "1111111111111111111111111111111111111111"
def secondCommit : String := "2222222222222222222222222222222222222222"

def flushedTurn (tick : ℕ) : Turn where
  now := "2026-01-01T00:00:00.000Z"
  checkpoint :=
    if tick = 0 then .ok ⟨"a0", firstCommit, "t0", []⟩
    else if tick = 4 then .ok ⟨"a1", secondCommit, "t1", []⟩
    else .error "unreachable"

def flushedRun : World := reached ⟨flushedTurn, 9⟩ exampleConfig exampleRecorder [.snap, .flush]

def flushedText (seq kind data : String) : Bytes :=
  utf8 ("\x7b\"v\":0,\"seq\":" ++ seq ++ ",\"session_id\":\"s\"," ++
    "\"ts\":\"2026-01-01T00:00:00.000Z\",\"type\":\"" ++ kind ++ "\",\"data\":\x7b" ++ data ++
    "\x7d\x7d")

def flushedEvents : List (Event × Bytes) :=
  [(.new "s" 0 "2026-01-01T00:00:00.000Z" (.sessionStart
      ⟨["/work"], "op:a0", "t:t0", [], "0.1.0", "0.43.0", "jj-lib-0.43.0/git"⟩),
    flushedText "0" "session_start" ("\"roots\":[\"/work\"],\"baseline_op\":\"op:a0\"," ++
      "\"baseline_tree\":\"t:t0\",\"ignore\":[],\"rrjj_version\":\"0.1.0\"," ++
      "\"jj_lib_version\":\"0.43.0\",\"jj_store_version\":\"jj-lib-0.43.0/git\"")),
    (.new "s" 1 "2026-01-01T00:00:00.000Z" (.snapshot
      ⟨"op:a1", "op:a0", "c:" ++ secondCommit, "t:t1", [], {}, false⟩),
    flushedText "1" "snapshot" ("\"op\":\"op:a1\",\"parent_op\":\"op:a0\",\"commit\":\"c:" ++
      secondCommit ++ "\",\"tree\":\"t:t1\",\"changes\":[],\"stats\":\x7b\"added\":0," ++
      "\"removed\":0,\"modified\":0,\"renamed\":0,\"mode_changed\":0\x7d,\"truncated\":false")),
    (.new "s" 2 "2026-01-01T00:00:00.000Z" (.flush ⟨"op:a1", 2⟩),
    flushedText "2" "flush" "\"op\":\"op:a1\",\"through_seq\":2")]

def flushedSerde : Serde := .ofTable flushedEvents (by decide +kernel)

def flushedSink : DurableSessionSink Unit where
  sessionId := "s"
  publishCheckpoint request := do
    let checkpoint ← Proc.ofExcept (normalizeCommitOid request.commit)
    return ⟨checkpoint⟩
  publishEvents request := pure
    { acceptedThroughSeq := (request.events.getLast?.map Event.seq).getD 0
      durableThroughSeq := request.durable.map DurableWatermark.seq }

def emptyJournal : NdjsonSink where
  path := "spool.ndjson"
  file := []
  buffer := []
  bytes := 0
  maxSpoolBytes := 10000
  sessionId := some "s"
  schemaVersion := some 0
  accepted := []

theorem events_follow_their_checkpoint_flushed : ∃ (s : DurableState Unit) (request : EventPublishRequest),
    s.trace.getLast? = some (.publishing request) ∧
      snapshotCommits request.events = ["c:" ++ secondCommit] ∧
      AtEvery (AfterCheckpoint (GivenParents exampleRecorder flushedRun.trace)) s.trace := by
  have hfollowed : (flushedRun.trace.foldlM (follow flushedSerde flushedSink)
      { journal := emptyJournal, behind := () }).map (fun s => s.trace.getLast?.bind fun label =>
        match label with
        | .publishing request => some (snapshotCommits request.events)
        | _ => none) = some (some ["c:" ++ secondCommit]) := by
    decide +kernel
  obtain ⟨s, hs, hlast⟩ := Option.map_eq_some_iff.mp hfollowed
  obtain ⟨label, hlabel, hcommits⟩ := Option.bind_eq_some_iff.mp hlast
  have hdriven := Drives.start.all hs
  have hfollows := events_follow_their_checkpoint flushedSerde flushedSink _ _ _ _ _
    (recordsParents_given exampleRecorder flushedRun.trace) emptyJournal () hdriven
  cases label with
  | publishing request => exact ⟨s, request, hlabel, Option.some.inj hcommits, hfollows⟩
  | _ => exact absurd hcommits (by simp)

end DurableSessionSink
end Rrjj
