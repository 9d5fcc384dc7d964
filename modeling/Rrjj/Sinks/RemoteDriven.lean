import Rrjj.Sinks.HonestReceiver
import Rrjj.Sinks.LocalDriven

/-! A session that is kept elsewhere: processes that record it one after another, each a coordinator
over the durable sink, and the honest receiver behind the sink. The receiver has a beginning of what
one of the processes has recorded. -/

namespace Rrjj
open Library Library.Proc

def Inscribed (spool : Bytes) : Prop := ∃ byte ∈ spool, byte ≠ newline

theorem Inscribed.mono {spool later : Bytes} (h : Inscribed spool) (grown : spool ⊆ later) :
    Inscribed later := by
  obtain ⟨byte, hbyte, hne⟩ := h
  exact ⟨byte, grown hbyte, hne⟩

theorem spoolLines_nil {spool : Bytes} (h : spoolLines spool = []) : ¬ Inscribed spool := by
  intro hinscribed
  induction spool with
  | nil =>
    obtain ⟨byte, hbyte, -⟩ := hinscribed
    exact absurd hbyte List.not_mem_nil
  | cons first rest ih =>
    unfold spoolLines at h ih
    rw [List.splitOn_cons_eq_if_modifyHead] at h
    by_cases hfirst : first = newline
    · rw [if_pos (by simpa using hfirst)] at h
      obtain ⟨byte, hbyte, hne⟩ := hinscribed
      have hrest := (List.mem_cons.mp hbyte).resolve_left fun heq => hne (heq.trans hfirst)
      exact ih (by simpa using h) ⟨byte, hrest, hne⟩
    · -- the byte is the first of a line
      rw [if_neg (by simpa using hfirst)] at h
      rcases hlines : rest.splitOn newline with _ | ⟨line, lines⟩
      · exact absurd hlines (List.splitOn_ne_nil _ _)
      · rw [hlines] at h
        exact absurd h (by simp)

theorem parseEventSpool_inscribed {serde : Serde} {spool : Bytes} {path sessionId sinkName : String}
    {version : ℕ} {events : List Event}
    (parsed : parseEventSpool serde spool path sessionId version sinkName = .ok events)
    (inscribed : Inscribed spool) : events ≠ [] := by
  rintro rfl
  unfold parseEventSpool at parsed
  split_ifs at parsed
  rcases hlines : spoolLines spool with _ | ⟨line, lines⟩
  · exact spoolLines_nil hlines inscribed
  · rw [hlines, List.zipIdx_cons, List.mapM_cons] at parsed
    obtain ⟨event, -, hrest⟩ := bind_ok_iff.mp parsed
    obtain ⟨more, -, hdone⟩ := bind_ok_iff.mp hrest
    exact absurd (Except.ok.inj hdone) (List.cons_ne_nil _ _)

namespace NdjsonSink
variable {serde : Serde} {answers : WriteAnswers} {event : Event} {base : Bytes}

theorem writeAll_grows (answer : FileAnswer) (line : Bytes) :
    Triple (fun sink => base <+: sink.file) (writeAll answer line)
      (fun _ sink => base <+: sink.file ∧ line ⊆ sink.file ++ sink.buffer)
      (fun sink => base <+: sink.file) := by
  unfold writeAll
  split
  · apply Triple.modify
    intro sink hbase
    refine ⟨hbase.trans (List.prefix_append _ _), ?_⟩
    rw [move_buffered]
    show line ⊆ sink.file ++ (sink.buffer ++ line)
    rw [← List.append_assoc]
    exact List.subset_append_right _ _
  · refine Triple.bind (Q := fun _ sink => base <+: sink.file) (Triple.modify fun sink hbase => ?_)
      fun _ => Triple.throw fun _ h => h
    exact hbase.trans (List.prefix_append _ _)

theorem flushWriter_grows (answer : FileAnswer) (line : Bytes) :
    Triple (fun sink => base <+: sink.file ∧ line ⊆ sink.file ++ sink.buffer) (flushWriter answer)
      (fun _ sink => base <+: sink.file ∧ line ⊆ sink.file) (fun sink => base <+: sink.file) := by
  unfold flushWriter
  split
  · apply Triple.modify
    rintro sink ⟨hbase, hline⟩
    refine ⟨hbase.trans (List.prefix_append _ _), ?_⟩
    show line ⊆ sink.file ++ sink.buffer.take sink.buffer.length
    rw [List.take_length]
    exact hline
  · refine Triple.bind (Q := fun _ sink => base <+: sink.file) (Triple.modify fun sink hbase => ?_)
      fun _ => Triple.throw fun _ h => h
    exact hbase.1.trans (List.prefix_append _ _)

theorem syncFile_keeps {I : NdjsonSink → Prop} (answer : FileAnswer) : Keeps I (syncFile answer) := by
  unfold syncFile
  split
  · exact Keeps.pure _
  · exact Keeps.throw _

theorem flush_grows : Keeps (fun sink => base <+: sink.file) (flush answers) := by
  have hflush : Keeps (fun sink : NdjsonSink => base <+: sink.file) (flushWriter answers.flush) :=
    (flushWriter_grows answers.flush []).conseq (fun _ h => ⟨h, List.nil_subset _⟩) (fun _ _ h => h.1)
      fun _ h => h
  exact hflush.bind fun _ => syncFile_keeps _

theorem emit_grows : Triple (fun sink => base <+: sink.file) (emit serde answers event)
    (fun _ sink => base <+: sink.file ∧ Inscribed sink.file) (fun sink => base <+: sink.file) := by
  refine Triple.get fun u hu => ?_
  refine Triple.bind (Q := fun line sink => base <+: sink.file ∧ Inscribed line)
    (Triple.ofExcept ?_ fun _ _ sink h => h ▸ hu) fun line => ?_
  · rintro line hline sink rfl
    obtain ⟨text, htext, rfl⟩ := (lineFor_ok hline).text
    refine ⟨hu, ?_⟩
    obtain ⟨byte, hbyte⟩ := List.exists_mem_of_ne_nil _ (serde.nonempty htext)
    exact ⟨byte, List.mem_append_left _ hbyte, fun heq => serde.one_line htext (heq ▸ hbyte)⟩
  apply Triple.of_start
  rintro v ⟨hbase, hline⟩
  have hwrite := (@writeAll_grows base answers.write line).pre fun sink (h : sink = v) => h ▸ hbase
  refine hwrite.bind fun _ => (flushWriter_grows answers.flush line).bind fun _ => ?_
  have hsync : Triple (fun sink => base <+: sink.file ∧ line ⊆ sink.file) (syncFile answers.sync)
      (fun _ sink => base <+: sink.file ∧ line ⊆ sink.file) (fun sink => base <+: sink.file) :=
    (syncFile_keeps answers.sync).conseq (fun _ h => h) (fun _ _ h => h) fun _ h => h.1
  refine hsync.bind fun _ => Triple.modify fun sink hsink => ⟨hsink.1, ?_⟩
  exact hline.mono hsink.2

end NdjsonSink

def continued (sessionId : String) (recorded : List Event)
    (numbered : ∀ (i : ℕ) (event : Event), recorded[i]? = some event → event.seq = i) (op : String) :
    Journal where
  sessionId := sessionId
  event n := (recorded[n]?).getD (.new sessionId n "" (.flush ⟨op, n⟩))
  seq_event n := by
    cases hn : recorded[n]? with
    | none => rfl
    | some event => exact numbered n event hn

section
variable {before later : Receiver} {journal : Journal} {least last : ℕ} {s : HttpState Wire}

theorem Grows.trans {third : Receiver} (h : Grows before later) (next : Grows later third) :
    Grows before third := by
  refine ⟨h.events.trans next.events, fun watermark hwatermark => ?_⟩
  obtain ⟨risen, hrisen, hle⟩ := h.watermark watermark hwatermark
  obtain ⟨top, htop, hlast⟩ := next.watermark risen hrisen
  exact ⟨top, htop, hle.trans hlast⟩

theorem Holds.grow (h : Holds before last) (grows : Grows before later) : Holds later last := by
  obtain ⟨hevents, watermark, hwatermark, hle⟩ := h
  obtain ⟨risen, hrisen, hrise⟩ := grows.watermark watermark hwatermark
  exact ⟨hevents.trans_le grows.events, risen, hrisen, hle.trans hrise⟩

theorem HttpEventSink.publishEvents_grows {sink : HttpEventSink Wire} {fates : ℕ → Fate}
    {writes : ℕ → CursorWrite} (honestly : sink.network = honest fates writes)
    (request : EventPublishRequest) :
    Keeps (fun s => Grows before s.network.receiver) (sink.publishEvents request) := by
  apply publishEvents_keeps
  · exact fun _ h => h
  · intro post s h
    apply h.trans
    rw [answered_receiver honestly]
    split_ifs
    · exact s.network.receiver.process_grows post.body
    · exact .refl _
  · exact fun _ _ h => h
  · intro through checkpoint s h
    unfold written
    rw [honestly]
    exact h

theorem InSync.created {config : HttpEventConfig} {client : Except String Unit} {delivered : Option ℕ}
    (h : InSync journal least last s) (created : config.create s.cursor client = .ok delivered) :
    InSync journal least last { s with deliveredSeq := delivered } where
  accepting := h.accepting
  isPrefix := h.isPrefix
  kept := h.kept
  delivered through hthrough := by
    have hread := HttpEventConfig.create_ok created
    rcases h.stored with hmissing | ⟨stored, checkpoint, hcursor, hbacked⟩
    · rw [hmissing] at hread
      rw [← Except.ok.inj hread] at hthrough
      exact absurd hthrough (by simp)
    · rw [hcursor] at hread
      rw [← Except.ok.inj hread] at hthrough
      exact Option.some.inj hthrough ▸ hbacked
  stored := h.stored

def InStep (sessionId : String) (recorded : List Event) (http : HttpState Wire) : Prop :=
  ∀ journal : Journal, journal.sessionId = sessionId → journal.take recorded.length = recorded →
    InSync journal 0 (recorded.length - 1) http

theorem Journal.take_length (journal : Journal) (count : ℕ) : (journal.take count).length = count := by
  unfold Journal.take
  rw [List.length_map, List.length_range]

theorem Journal.take_take (journal : Journal) {few many : ℕ} (h : few ≤ many) :
    (journal.take many).take few = journal.take few := by
  have hpre := journal.take_prefix h
  rw [List.prefix_iff_eq_take.mp hpre, journal.take_length]

theorem continued_take {sessionId : String} {recorded : List Event}
    (numbered : ∀ (i : ℕ) (event : Event), recorded[i]? = some event → event.seq = i) (op : String) :
    (continued sessionId recorded numbered op).take recorded.length = recorded := by
  apply List.ext_getElem?
  intro i
  unfold Journal.take continued
  rw [List.getElem?_map]
  rcases Nat.lt_or_ge i recorded.length with hi | hi
  · rw [List.getElem?_range hi, List.getElem?_eq_getElem hi]
    simp [List.getElem?_eq_getElem hi]
  · rw [List.getElem?_eq_none (by simpa using hi), List.getElem?_eq_none hi]
    rfl

variable {sessionId : String} {recorded : List Event}

theorem InStep.more (h : InStep sessionId recorded s) (more : List Event) :
    InStep sessionId (recorded ++ more) s := by
  intro journal hsession htake
  have hlength : recorded.length ≤ (recorded ++ more).length := by simp
  have hrecorded : journal.take recorded.length = recorded := by
    rw [← journal.take_take hlength, htake, List.take_left]
  exact (h journal hsession hrecorded).later (by omega)

/-- The receiver has a beginning of what was recorded, since it is in step with every continuation. -/
theorem InStep.receiver (h : InStep sessionId recorded s)
    (numbered : ∀ (i : ℕ) (event : Event), recorded[i]? = some event → event.seq = i) :
    s.network.receiver.refused = false ∧ s.network.receiver.events <+: recorded := by
  have hfirst := h _ rfl (continued_take numbered "op:a")
  have hsecond := h _ rfl (continued_take numbered "op:b")
  refine ⟨hfirst.accepting, ?_⟩
  have hlength : s.network.receiver.events.length ≤ recorded.length := by
    by_contra hlonger
    -- the two continuations differ in the first event that was not recorded
    have hsame := hfirst.isPrefix.symm.trans hsecond.isPrefix
    have hnext := congrArg (fun events => events[recorded.length]?) hsame
    unfold Journal.take continued at hnext
    simp [List.getElem?_range (Nat.lt_of_not_le hlonger), Event.new] at hnext
  rw [hfirst.isPrefix, ← Journal.take_take _ hlength, continued_take]
  exact List.take_prefix _ _

end

structure RemoteSession (γ : Type) where
  sessionId : String
  serde : Serde
  path : String
  maxSpoolBytes : ℕ
  publishCheckpoint : CheckpointRequest → Proc γ SinkError CheckpointPublication
  config : HttpEventConfig
  encodedLen : Event → Except String ℕ
  fates : ℕ → Fate
  writes : ℕ → CursorWrite

structure Remains where
  spool : Bytes
  http : HttpState Wire

namespace RemoteSession
variable {γ : Type} (session : RemoteSession γ)

def http : HttpEventSink Wire :=
  ⟨session.config, session.encodedLen, honest session.fates session.writes⟩

def sink : DurableSessionSink (γ × HttpState Wire) where
  sessionId := session.sessionId
  publishCheckpoint request :=
    zoom Prod.fst (fun checkpoints behind => (checkpoints, behind.2)) (session.publishCheckpoint request)
  publishEvents request :=
    zoom Prod.snd (fun http behind => (behind.1, http)) (session.http.publishEvents request)

structure Opens (left : Remains) (first : DurableState (γ × HttpState Wire)) : Prop where
  journal : NdjsonSink.createForSession session.serde session.path session.maxSpoolBytes
    (some session.sessionId) (some schemaVersion) left.spool = .ok first.journal
  http : ∃ client delivered, session.config.create left.http.cursor client = .ok delivered ∧
    first.behind.2 = { left.http with deliveredSeq := delivered }
  trace : first.trace = []

/-- Processes that have recorded the session one after another, each until it ended or was killed;
one that cannot create its sinks changes nothing. What a process has written of a line that was never
accepted may stand at the end of the spool. -/
inductive Lives : List Event → Remains → Prop
  | installed : Lives [] ⟨[], Host.start.http⟩
  | process {recorded : List Event} {left : Remains} {first s : DurableState (γ × HttpState Wire)}
      {spool : Bytes} (env : Environment) (config : Config) (recorder : JjRecorder)
      (commands : List Command) (lives : Lives recorded left) (opens : session.Opens left first)
      (named : config.sessionId = session.sessionId)
      (driven : DurableSessionSink.Drives session.serde session.sink first
        (reached env config recorder commands).trace s)
      (kept : s.journal.file <+: spool) :
      Lives (recorded ++ acceptedEvents (reached env config recorder commands).trace)
        ⟨spool, s.behind.2⟩

variable {session} {journal : Journal} {last : ℕ} {answers : WriteAnswers} {request : FlushRequest}
  {recorded : List Event} {left : Remains} {first s : DurableState (γ × HttpState Wire)}
  {trace : List Label} {parent : String → String → Prop}

theorem publishCheckpoint_keeps {I : HttpState Wire → Prop} (checkpoint : CheckpointRequest) :
    Keeps (fun behind => I behind.2) (session.sink.publishCheckpoint checkpoint) := by
  show Keeps _ (zoom Prod.fst (fun checkpoints behind => (checkpoints, behind.2)) _)
  exact Keeps.zoom fun _ _ h => h

theorem publishEvents_sends {P R : HttpState Wire → Prop} {Q : EventAcknowledgement → HttpState Wire → Prop}
    {publication : EventPublishRequest} (h : Triple P (session.http.publishEvents publication) Q R) :
    Triple (fun behind => P behind.2) (session.sink.publishEvents publication)
      (fun ack behind => Q ack behind.2) fun behind => R behind.2 := by
  show Triple _ (zoom Prod.snd (fun http behind => (behind.1, http)) _) _ _
  exact h.zoom (fun _ h => h) (fun _ _ _ _ h => h) fun _ _ _ h => h

theorem checkpoint_keeps {I : DurableState (γ × HttpState Wire) → Prop}
    (ignores : ∀ s behind trace, I s → behind.2 = s.behind.2 → I ⟨s.journal, behind, trace⟩)
    (checkpoint : CheckpointRequest) : Keeps I (session.sink.checkpoint checkpoint) := by
  refine Triple.of_start fun u hu => ?_
  have hbehind : Keeps (fun behind : γ × HttpState Wire => behind.2 = u.behind.2)
      (session.sink.publishCheckpoint checkpoint) :=
    @publishCheckpoint_keeps γ session (fun http => http = u.behind.2) checkpoint
  have hkept : Triple (fun s => s = u) (DurableSessionSink.onBehind
      (session.sink.publishCheckpoint checkpoint)) (fun _ => I) I := by
    apply Triple.zoom hbehind
    · rintro s rfl
      rfl
    · rintro s _ behind rfl hsame
      exact ignores s behind s.trace hu hsame
    · rintro s behind rfl hsame
      exact ignores s behind s.trace hu hsame
  refine hkept.bind fun publication => Keeps.bind (Keeps.modify fun s h => ?_) fun _ => Keeps.pure _
  exact ignores s s.behind _ h rfl

theorem flushSession_inSync (named : journal.sessionId = session.sessionId) :
    Triple (fun s => s.journal.accepted = journal.take (last + 1) ∧ InSync journal 0 last s.behind.2)
      (session.sink.flushSession answers request)
      (fun _ s => InSync journal 0 last s.behind.2 ∧ request.lastSeq = last ∧
        Holds s.behind.2.network.receiver last)
      (fun s => InSync journal 0 last s.behind.2) := by
  let I : DurableState (γ × HttpState Wire) → Prop := fun s =>
    s.journal.accepted = journal.take (last + 1) ∧ InSync journal 0 last s.behind.2
  have hlog : ∀ label, Triple I (DurableSessionSink.logDurable label) (fun _ => I)
      (fun s => InSync journal 0 last s.behind.2) := fun label => Triple.modify fun _ h => h
  refine (hlog _).bind fun _ => ?_
  -- the journal is flushed, the receiver does not change
  have hflush : Triple I (DurableSessionSink.onJournal (NdjsonSink.flush answers)) (fun _ => I)
      (fun s => InSync journal 0 last s.behind.2) :=
    Triple.zoom (NdjsonSink.flush_accepted answers _) (fun s h => h.1) (fun s _ _ h hj => ⟨hj, h.2⟩)
      fun s _ h _ => h.2
  refine hflush.bind fun _ => Triple.get fun u hu => ?_
  -- the events sent are all those of the journal
  refine Triple.bind (Q := fun events s => (events = journal.take (last + 1) ∧
      request.lastSeq = last) ∧ I s) (Triple.ofExcept ?_ fun _ _ s h => h ▸ hu.2) fun events => ?_
  · rintro events hevents s rfl
    have haccepted := NdjsonSink.eventsThrough_ok hevents
    obtain ⟨hlast, -⟩ := ite_ok_iff.mp hevents
    refine ⟨⟨haccepted.symm.trans hu.1, ?_⟩, hu⟩
    rw [hu.1, Journal.take, List.range_succ, List.map_append, List.map_singleton,
      List.getLast?_append, List.getLast?_singleton, Option.some_or, Option.map_some,
      journal.seq_event] at hlast
    exact (Option.some.inj hlast).symm
  refine Triple.of_start fun v hv => ?_
  obtain ⟨⟨rfl, hlast⟩, hv⟩ := hv
  have hpure : ∀ {α : Type} (result : Except SinkError α), Triple I (Proc.ofExcept result)
      (fun _ => I) (fun s => InSync journal 0 last s.behind.2) := fun result =>
    Triple.ofExcept (fun _ _ _ h => h) fun _ _ _ h => h.2
  refine ((hpure _).bind fun commit => ?_).pre fun s (h : s = v) => h ▸ hv
  have hcheckpoint : ∀ checkpoint, Triple I (session.sink.checkpoint checkpoint) (fun _ => I)
      (fun s => InSync journal 0 last s.behind.2) := by
    intro checkpoint
    have hkeeps : Keeps I (session.sink.checkpoint checkpoint) := by
      apply checkpoint_keeps
      intro s behind trace h hsame
      exact ⟨h.1, hsame ▸ h.2⟩
    exact hkeeps.conseq (fun _ h => h) (fun _ _ h => h) fun _ h => h.2
  refine (hcheckpoint _).bind fun publication => (hpure _).bind fun checkpoint => ?_
  -- the request is one of the journal, and so the receiver holds it afterwards
  have hpublish : Triple I (session.sink.publish
      { sessionId := session.sink.sessionId
        schemaVersion := schemaVersion
        events := journal.take (last + 1)
        durable := some ⟨request.lastSeq, request.lastOp, checkpoint⟩ })
      (fun _ s => InSync journal 0 last s.behind.2 ∧ Holds s.behind.2.network.receiver last)
      (fun s => InSync journal 0 last s.behind.2) := by
    refine (hlog _).bind fun _ => ?_
    have hcall := @publishEvents_inSync journal 0 last _ _ session.http request.lastOp checkpoint rfl
    have hsame : journal.request last request.lastOp checkpoint =
        { sessionId := session.sink.sessionId
          schemaVersion := schemaVersion
          events := journal.take (last + 1)
          durable := some ⟨request.lastSeq, request.lastOp, checkpoint⟩ } := by
      unfold Journal.request
      rw [named, hlast]
      rfl
    rw [hsame] at hcall
    exact (publishEvents_sends hcall).zoom (fun s h => h.2) (fun _ _ _ _ h => h) fun _ _ _ h => h
  refine hpublish.bind fun ack => Triple.ofExcept (fun _ _ s h => ⟨h.1, hlast, h.2⟩) ?_
  exact fun _ _ s h => h.1

theorem flushSession_keeps {I : HttpState Wire → Prop}
    (publishes : ∀ publication, Keeps I (session.http.publishEvents publication)) :
    Keeps (fun s : DurableState (γ × HttpState Wire) => I s.behind.2)
      (session.sink.flushSession answers request) := by
  have hlog : ∀ label, Keeps (fun s : DurableState (γ × HttpState Wire) => I s.behind.2)
      (DurableSessionSink.logDurable label) := fun label => Keeps.modify fun _ h => h
  have hpure : ∀ {α : Type} (result : Except SinkError α),
      Keeps (fun s : DurableState (γ × HttpState Wire) => I s.behind.2) (Proc.ofExcept result) :=
    fun result => Triple.ofExcept (fun _ _ _ h => h) fun _ _ _ h => h
  refine (hlog _).bind fun _ => ?_
  refine Keeps.bind (Keeps.zoom fun _ _ h => h) fun _ => Keeps.get fun _ _ => ?_
  refine (hpure _).bind fun events => (hpure _).bind fun commit => ?_
  have hcheckpoint : ∀ checkpoint, Keeps (fun s : DurableState (γ × HttpState Wire) => I s.behind.2)
      (session.sink.checkpoint checkpoint) := by
    apply checkpoint_keeps
    intro s behind trace h hsame
    show I behind.2
    rw [hsame]
    exact h
  refine (hcheckpoint _).bind fun publication => (hpure _).bind fun checkpoint => ?_
  have hpublish : ∀ publication, Keeps (fun s : DurableState (γ × HttpState Wire) => I s.behind.2)
      (session.sink.publish publication) := by
    intro publication
    refine (hlog _).bind fun _ => ?_
    exact (publishEvents_sends (publishes publication)).zoom (fun _ h => h) (fun _ _ _ _ h => h)
      fun _ _ _ h => h
  exact (hpublish _).bind fun ack => hpure _

/-- What a process has sent is in step with what was recorded before and what it records, and what it
has flushed is held. -/
structure Published (session : RemoteSession γ) (recorded : List Event) (trace : List Label)
    (s : DurableState (γ × HttpState Wire)) : Prop where
  inStep : InStep session.sessionId (recorded ++ acceptedEvents trace) s.behind.2
  flushed : ∀ request, .flushed request ∈ trace → Holds s.behind.2.network.receiver request.lastSeq

theorem Published.log (h : session.Published recorded trace s) {label : Label}
    (accepts : ∀ event, label ≠ .accepted event) (flushes : ∀ request, label ≠ .flushed request) :
    session.Published recorded (trace ++ [label]) s := by
  refine ⟨?_, fun request hrequest => ?_⟩
  · rw [acceptedEvents_snoc accepts]
    exact h.inStep
  · rw [List.mem_append, List.mem_singleton] at hrequest
    exact h.flushed request (hrequest.resolve_right fun heq => flushes request heq.symm)

theorem emit_behind (event : Event) :
    ((DurableSessionSink.emit session.serde answers event).run s).2.behind = s.behind := rfl

theorem Published.flush (h : session.Published recorded trace s)
    (journaled : DurableSessionSink.Journaled parent first trace s)
    (once : first.journal.accepted = [] → recorded = [])
    (told : DurableSessionSink.Told parent trace) (awaiting : Awaiting (.flushing request) trace) :
    session.Published recorded trace ((session.sink.flushSession answers request).run s).2 ∧
      (((session.sink.flushSession answers request).run s).1 = .ok () →
        Holds ((session.sink.flushSession answers request).run s).2.behind.2.network.receiver
          request.lastSeq) := by
  obtain ⟨before, since, htrace, haccepted⟩ := awaiting.accepted (by simp)
  have hopened : acceptedEvents trace ≠ [] := by
    rw [haccepted]
    exact told.opened before _ since htrace request rfl
  have hfresh := journaled.fresh hopened
  have hempty : recorded = [] := once hfresh
  have hjournal : s.journal.accepted = acceptedEvents trace := by
    rw [journaled.orderly.accepted, hfresh, List.nil_append]
  have hlength : (acceptedEvents trace).length - 1 + 1 = (acceptedEvents trace).length :=
    Nat.sub_add_cancel (List.length_pos_of_ne_nil hopened)
  subst hempty
  have hstep := h.inStep
  rw [List.nil_append] at hstep
  -- the call, for whatever will be recorded next
  have hcall : ∀ journal : Journal, journal.sessionId = session.sessionId →
      journal.take (acceptedEvents trace).length = acceptedEvents trace →
      Ends (fun _ s => InSync journal 0 ((acceptedEvents trace).length - 1) s.behind.2 ∧
        request.lastSeq = (acceptedEvents trace).length - 1 ∧
          Holds s.behind.2.network.receiver ((acceptedEvents trace).length - 1))
        (fun s => InSync journal 0 ((acceptedEvents trace).length - 1) s.behind.2)
        ((session.sink.flushSession answers request).run s) := by
    intro journal hnamed htake
    apply flushSession_inSync hnamed
    rw [hlength]
    exact ⟨hjournal.trans htake.symm, hstep journal hnamed htake⟩
  have hgrows : Grows s.behind.2.network.receiver
      ((session.sink.flushSession answers request).run s).2.behind.2.network.receiver := by
    have hkeeps := @flushSession_keeps γ session answers request
      (fun http => Grows s.behind.2.network.receiver http.network.receiver)
      fun publication => HttpEventSink.publishEvents_grows rfl publication
    exact hkeeps.final (.refl _)
  refine ⟨⟨?_, fun other hother => (h.flushed other hother).grow hgrows⟩, fun hok => ?_⟩
  · rw [List.nil_append]
    intro journal hnamed htake
    exact ((hcall journal hnamed htake).mono (fun _ _ hs => hs.1) fun _ hs => hs).final
  · have hnumbered : ∀ (i : ℕ) (event : Event), (acceptedEvents trace)[i]? = some event → event.seq = i := by
      intro i event hevent
      obtain ⟨hi, -⟩ := List.getElem?_eq_some_iff.mp hevent
      obtain ⟨earlier, later, hsplit, hearlier⟩ := accepted_at hevent
      rw [told.numbered earlier _ later hsplit event rfl, hearlier, List.length_take]
      exact Nat.min_eq_left hi.le
    have hends := hcall _ rfl (continued_take hnumbered "op:a")
    rcases hrun : (session.sink.flushSession answers request).run s with ⟨outcome, t⟩
    rw [hrun] at hends hok
    obtain rfl : outcome = .ok () := hok
    obtain ⟨-, hlast, hholds⟩ := hends
    rw [hlast]
    exact hholds

theorem published (driven : DurableSessionSink.Drives session.serde session.sink first trace s)
    (told : DurableSessionSink.Told parent trace) (first_trace : first.trace = [])
    (once : first.journal.accepted = [] → recorded = [])
    (inStep : InStep session.sessionId recorded first.behind.2) :
    session.Published recorded trace s := by
  -- the answers to emits leave the receiver as it is, a flush moves it
  induction driven with
  | start =>
    refine ⟨?_, fun _ h => absurd h List.not_mem_nil⟩
    rw [show acceptedEvents [] = [] from rfl, List.append_nil]
    exact inStep
  | @accepted trace s s' answers event driven ran ih =>
    have hbefore := ih (told.of_prefix (List.prefix_append _ _))
    have hbehind := @emit_behind γ session answers s event
    rw [ran] at hbehind
    refine ⟨?_, fun request hrequest => ?_⟩
    · rw [hbehind, acceptedEvents_append, ← List.append_assoc]
      exact hbefore.inStep.more _
    · rw [hbehind]
      exact hbefore.flushed request (by simpa using hrequest)
  | @refused trace s s' answers event failure driven ran ih =>
    have hbefore := ih (told.of_prefix (List.prefix_append _ _))
    have hbehind := @emit_behind γ session answers s event
    rw [ran] at hbehind
    have hlogged : session.Published recorded (trace ++ [.refused event]) s :=
      hbefore.log (by simp) (by simp)
    exact ⟨hbehind ▸ hlogged.inStep, hbehind ▸ hlogged.flushed⟩
  | @flushed trace s s' answers request driven ran ih =>
    have htold := told.of_prefix (List.prefix_append _ _)
    have hawaiting := told.awaited trace (.flushed request) [] rfl request (Or.inl rfl)
    have hflush := @Published.flush γ session answers request recorded first s trace parent (ih htold)
      (driven.journaled htold first_trace) once htold hawaiting
    rw [ran] at hflush
    obtain ⟨hpublished, hholds⟩ := hflush
    refine ⟨?_, fun other hother => ?_⟩
    · rw [acceptedEvents_snoc (by simp)]
      exact hpublished.inStep
    · rw [List.mem_append, List.mem_singleton] at hother
      rcases hother with hother | heq
      · exact hpublished.flushed other hother
      · rw [Label.flushed.inj heq]
        exact hholds rfl
  | @flushFailed trace s s' answers request failure driven ran ih =>
    have htold := told.of_prefix (List.prefix_append _ _)
    have hawaiting := told.awaited trace (.flushFailed request) [] rfl request (Or.inr rfl)
    have hflush := @Published.flush γ session answers request recorded first s trace parent (ih htold)
      (driven.journaled htold first_trace) once htold hawaiting
    rw [ran] at hflush
    exact hflush.1.log (by simp) (by simp)
  | @killed trace s s' answers request awaiting driven ran ih =>
    have hflush := @Published.flush γ session answers request recorded first s trace parent (ih told)
      (driven.journaled told first_trace) once told awaiting
    rw [ran] at hflush
    exact hflush.1
  | @silent trace s label silent driven ih =>
    have hbefore := ih (told.of_prefix (List.prefix_append _ _))
    exact hbefore.log (Label.silent_accepts silent) (Label.silent_flushes silent)

end RemoteSession

namespace DurableSessionSink
variable {κ : Type} {sink : DurableSessionSink κ} {answers : WriteAnswers} {request : FlushRequest}
  {serde : Serde} {first s : DurableState κ} {trace : List Label}

theorem flushSession_journal {I : NdjsonSink → Prop} (keeps : Keeps I (NdjsonSink.flush answers)) :
    Keeps (fun s => I s.journal) (sink.flushSession answers request) := by
  have hlog : ∀ label, Keeps (fun s : DurableState κ => I s.journal) (logDurable label) := fun label =>
    Keeps.modify fun _ h => h
  have hpure : ∀ {α : Type} (result : Except SinkError α),
      Keeps (fun s : DurableState κ => I s.journal) (Proc.ofExcept result) :=
    fun result => Triple.ofExcept (fun _ _ _ h => h) fun _ _ _ h => h
  have hbehind : ∀ {α : Type} (m : Proc κ SinkError α),
      Keeps (fun s : DurableState κ => I s.journal) (onBehind m) := fun m => Keeps.zoom fun _ _ h => h
  refine (hlog _).bind fun _ => ?_
  refine Keeps.bind (Triple.zoom keeps (fun _ h => h) (fun _ _ _ _ h => h) fun _ _ _ h => h)
    fun _ => Keeps.get fun _ _ => ?_
  refine (hpure _).bind fun events => (hpure _).bind fun commit => ?_
  refine Keeps.bind ((hbehind _).bind fun publication => (hlog _).bind fun _ => Keeps.pure _)
    fun publication => (hpure _).bind fun checkpoint => ?_
  exact Keeps.bind ((hlog _).bind fun _ => hbehind _) fun ack => hpure _

theorem Drives.spooled (driven : Drives serde sink first trace s) :
    first.journal.file <+: s.journal.file ∧ (acceptedEvents trace ≠ [] → Inscribed s.journal.file) := by
  have hflush : ∀ {s : DurableState κ} {answers : WriteAnswers} {request : FlushRequest},
      s.journal.file <+: ((sink.flushSession answers request).run s).2.journal.file := fun {s answers _} =>
    Keeps.final (flushSession_journal (@NdjsonSink.flush_grows answers s.journal.file)) (List.prefix_refl _)
  have hemit : ∀ {s : DurableState κ} (answers : WriteAnswers) (event : Event),
      Ends (fun (_ : Unit) t => s.journal.file <+: t.journal.file ∧ Inscribed t.journal.file)
        (fun t => s.journal.file <+: t.journal.file)
        ((emit serde answers event : DurableTask κ Unit).run s) := by
    intro s answers event
    have hjournal := @NdjsonSink.emit_grows serde answers event s.journal.file
    have hzoomed : Triple (fun t : DurableState κ => s.journal.file <+: t.journal.file)
        (emit serde answers event : DurableTask κ Unit)
        (fun _ t => s.journal.file <+: t.journal.file ∧ Inscribed t.journal.file)
        (fun t => s.journal.file <+: t.journal.file) := by
      unfold emit onJournal
      exact hjournal.zoom (fun _ h => h) (fun _ _ _ _ h => h) fun _ _ _ h => h
    exact hzoomed s (List.prefix_refl _)
  -- the journal only grows, and an accepted event leaves its line there
  induction driven with
  | start => exact ⟨List.prefix_refl _, fun h => absurd rfl h⟩
  | @accepted trace s s' answers event driven ran ih =>
    have hends := @hemit s answers event
    rw [ran] at hends
    exact ⟨ih.1.trans hends.1, fun _ => hends.2⟩
  | @refused trace s s' answers event failure driven ran ih =>
    have hends := @hemit s answers event
    rw [ran] at hends
    have hgrown : s.journal.file <+: s'.journal.file := hends
    rw [acceptedEvents_snoc (by simp)]
    exact ⟨ih.1.trans hgrown, fun h => (ih.2 h).mono hgrown.subset⟩
  | @flushed trace s s' answers request driven ran ih =>
    have hgrown := @hflush s answers request
    rw [ran] at hgrown
    rw [acceptedEvents_snoc (by simp)]
    exact ⟨ih.1.trans hgrown, fun h => (ih.2 h).mono hgrown.subset⟩
  | @flushFailed trace s s' answers request failure driven ran ih =>
    have hgrown := @hflush s answers request
    rw [ran] at hgrown
    rw [acceptedEvents_snoc (by simp)]
    exact ⟨ih.1.trans hgrown, fun h => (ih.2 h).mono hgrown.subset⟩
  | @killed trace s s' answers request awaiting driven ran ih =>
    have hgrown := @hflush s answers request
    rw [ran] at hgrown
    exact ⟨ih.1.trans hgrown, fun h => (ih.2 h).mono hgrown.subset⟩
  | @silent trace s label silent driven ih =>
    rw [acceptedEvents_snoc (Label.silent_accepts silent)]
    exact ih

end DurableSessionSink

namespace RemoteSession
variable {γ : Type} {session : RemoteSession γ} {recorded : List Event} {left : Remains}
  {first s : DurableState (γ × HttpState Wire)} {trace : List Label}

theorem reached_told (env : Environment) (config : Config) (recorder : JjRecorder)
    (commands : List Command) : DurableSessionSink.Told
      (DurableSessionSink.GivenParents recorder (reached env config recorder commands).trace)
      (reached env config recorder commands).trace := by
  have hsteps := reached_steps env config recorder commands
  have hordered := hsteps.ordered
  have hchained := hsteps.chained (DurableSessionSink.recordsParents_given recorder _)
  exact ⟨hordered.numbered, hordered.opened, hordered.awaited, hchained.flushes⟩

/-- What is left of a session: the receiver is in step with what was recorded, which one process has
recorded and the spool shows. -/
structure Kept (session : RemoteSession γ) (recorded : List Event) (left : Remains) : Prop where
  inStep : InStep session.sessionId recorded left.http
  inscribed : recorded ≠ [] → Inscribed left.spool
  once : recorded = [] ∨ ∃ env config recorder commands, config.sessionId = session.sessionId ∧
    recorded = acceptedEvents (reached env config recorder commands).trace

theorem Kept.numbered (h : session.Kept recorded left) {i : ℕ} {event : Event}
    (held : recorded[i]? = some event) : event.seq = i := by
  rcases h.once with hnil | ⟨env, config, recorder, commands, -, hrecorded⟩
  · rw [hnil] at held
    exact absurd held (by simp)
  · rw [hrecorded] at held
    exact (accepted_numbers env config recorder commands held).1

theorem Kept.opened (h : session.Kept recorded left) (opens : session.Opens left first)
    (empty : first.journal.accepted = []) : recorded = [] := by
  by_contra hrecorded
  obtain ⟨events, hparsed, hdone⟩ := bind_ok_iff.mp opens.journal
  obtain ⟨-, hjournal⟩ := ite_error_iff.mp hdone
  apply parseEventSpool_inscribed hparsed (h.inscribed hrecorded)
  rw [← empty, ← Except.ok.inj hjournal]

theorem Kept.published (h : session.Kept recorded left) (opens : session.Opens left first)
    (env : Environment) (config : Config) (recorder : JjRecorder) (commands : List Command)
    (driven : DurableSessionSink.Drives session.serde session.sink first
      (reached env config recorder commands).trace s) :
    session.Published recorded (reached env config recorder commands).trace s := by
  apply RemoteSession.published driven (reached_told env config recorder commands) opens.trace
    (h.opened opens)
  obtain ⟨client, delivered, hcreated, hbehind⟩ := opens.http
  rw [hbehind]
  exact fun journal hnamed htake => (h.inStep journal hnamed htake).created hcreated

theorem Lives.kept (lives : session.Lives recorded left) : session.Kept recorded left := by
  induction lives with
  | installed =>
    refine ⟨fun journal _ _ => ?_, fun h => absurd rfl h, Or.inl rfl⟩
    exact Host.start_inSync
  | @process recorded left first s spool env config recorder commands lives opens named driven kept ih =>
    have hpublished := ih.published opens env config recorder commands driven
    have hspooled := driven.spooled
    have hjournaled := driven.journaled (reached_told env config recorder commands) opens.trace
    by_cases hnothing : acceptedEvents (reached env config recorder commands).trace = []
    · rw [hnothing, List.append_nil]
      refine ⟨?_, fun hrecorded => ?_, ih.once⟩
      · rw [← List.append_nil recorded, ← hnothing]
        exact hpublished.inStep
      · -- what the spool shows, it showed to this process
        have hsame : left.spool = first.journal.file := by
          obtain ⟨events, -, hdone⟩ := bind_ok_iff.mp opens.journal
          obtain ⟨-, hjournal⟩ := ite_error_iff.mp hdone
          rw [← Except.ok.inj hjournal]
        have hinscribed := ih.inscribed hrecorded
        rw [hsame] at hinscribed
        exact hinscribed.mono (hspooled.1.trans kept).subset
    · have hfirst := ih.opened opens (hjournaled.fresh hnothing)
      subst hfirst
      rw [List.nil_append]
      refine ⟨hpublished.inStep, fun _ => (hspooled.2 hnothing).mono kept.subset, Or.inr ?_⟩
      exact ⟨env, config, recorder, commands, named, rfl⟩

/-- However often the daemon is killed and started again on what it left, and whatever becomes of
attempts and writes, the receiver has refused nothing and has a beginning of what was recorded, all of
which one process has recorded. -/
theorem receiver_across_processes (lives : session.Lives recorded left) :
    left.http.network.receiver.refused = false ∧
      left.http.network.receiver.events <+: recorded ∧
      (recorded = [] ∨ ∃ env config recorder commands, config.sessionId = session.sessionId ∧
        recorded = acceptedEvents (reached env config recorder commands).trace) := by
  have hkept := lives.kept
  obtain ⟨haccepting, hbegins⟩ := hkept.inStep.receiver fun _ _ => hkept.numbered
  exact ⟨haccepting, hbegins, hkept.once⟩

/-- From the moment in which a process answers a flush or a shutdown as done, the receiver has all that
was recorded before it was asked for, and a watermark that covers it. -/
theorem flushed_is_received (lives : session.Lives recorded left) (opens : session.Opens left first)
    (env : Environment) (config : Config) (recorder : JjRecorder) (commands : List Command)
    (driven : DurableSessionSink.Drives session.serde session.sink first
      (reached env config recorder commands).trace s) {before after : List Label} {command : Command}
    {reply : Reply} (answered : (reached env config recorder commands).trace =
      before ++ .replied command reply :: after)
    (done : reply.isOk = true) (flushes : command.flushes = true) :
    ∃ earlier, TakenUp earlier command before ∧
      acceptedEvents earlier <+: s.behind.2.network.receiver.events ∧
      ∃ watermark ∈ s.behind.2.network.receiver.watermark,
        (acceptedEvents earlier).length ≤ watermark := by
  have hkept := lives.kept
  have hpublished := hkept.published opens env config recorder commands driven
  have hjournaled := driven.journaled (reached_told env config recorder commands) opens.trace
  have hanswers := (reached_informs env config recorder commands).2
  obtain ⟨earlier, request, htaken, hflushed, hcovers⟩ :=
    hanswers before _ after answered command reply rfl done flushes
  have hmem : .flushed request ∈ (reached env config recorder commands).trace := by
    rw [answered]
    exact List.mem_append_left _ hflushed
  obtain ⟨hholds, watermark, hwatermark, hlast⟩ := hpublished.flushed request hmem
  refine ⟨earlier, htaken, ?_, watermark, hwatermark, hcovers.trans hlast⟩
  obtain ⟨coordinator, audit, since, hbefore, -⟩ := htaken
  have hstarts : acceptedEvents earlier <+: acceptedEvents (reached env config recorder commands).trace := by
    rw [answered, hbefore, List.append_assoc, acceptedEvents_append]
    exact List.prefix_append _ _
  by_cases hnothing : acceptedEvents (reached env config recorder commands).trace = []
  · rw [hnothing, List.prefix_nil] at hstarts
    rw [hstarts]
    exact List.nil_prefix
  · have hfirst := hkept.opened opens (hjournaled.fresh hnothing)
    subst hfirst
    have hinStep := hpublished.inStep
    rw [List.nil_append] at hinStep
    obtain ⟨-, hbegins⟩ := hinStep.receiver fun i event hevent =>
      (accepted_numbers env config recorder commands hevent).1
    apply List.prefix_of_prefix_length_le hstarts hbegins
    omega

def exampleRemote : RemoteSession Unit where
  sessionId := "s"
  serde := DurableSessionSink.flushedSerde
  path := "spool.ndjson"
  maxSpoolBytes := 10000
  publishCheckpoint request := do
    let checkpoint ← Proc.ofExcept (normalizeCommitOid request.commit)
    return ⟨checkpoint⟩
  config := ⟨"http://localhost/events", none, 10, 10000, "http-cursor.json", 3⟩
  encodedLen _ := .ok 150
  fates attempt := if attempt = 0 then .lost true "reset" else .answered ⟨200, "200 OK"⟩ (Or.inl rfl)
  writes _ := .done

def exampleFirst : DurableState (Unit × HttpState Wire) where
  journal := DurableSessionSink.emptyJournal
  behind := ((), Host.start.http)

theorem exampleFirst_opened : exampleRemote.Opens ⟨[], Host.start.http⟩ exampleFirst where
  journal := rfl
  http := ⟨.ok (), none, rfl, rfl⟩
  trace := rfl

theorem answeredRun_sent : (DirectorySessionSink.answeredRun.trace.foldlM
    (DurableSessionSink.follow exampleRemote.serde exampleRemote.sink) exampleFirst).map
      (fun s => s.behind.2.network.receiver.events.length) = some 3 := by
  decide +kernel

def restarted (s : DurableState (Unit × HttpState Wire)) :
    Except SinkError (DurableState (Unit × HttpState Wire)) := do
  let journal ← NdjsonSink.createForSession exampleRemote.serde exampleRemote.path
    exampleRemote.maxSpoolBytes (some "s") (some schemaVersion) s.journal.file
  let delivered ← exampleRemote.config.create s.behind.2.cursor (.ok ())
  return { journal, behind := ((), { s.behind.2 with deliveredSeq := delivered }) }

theorem restarted_opens {s next : DurableState (Unit × HttpState Wire)} (h : restarted s = .ok next) :
    exampleRemote.Opens ⟨s.journal.file, s.behind.2⟩ next := by
  obtain ⟨journal, hjournal, h⟩ := bind_ok_iff.mp h
  obtain ⟨delivered, hdelivered, h⟩ := bind_ok_iff.mp h
  rw [← Except.ok.inj h]
  exact ⟨hjournal, ⟨_, _, hdelivered, rfl⟩, rfl⟩

def refusedRun : World :=
  reached ⟨fun tick => { DurableSessionSink.flushedTurn tick with
    sink := .error (.failed "sequence mismatch") }, 10⟩ exampleConfig exampleRecorder [.snap]

theorem refusedRun_accepted : acceptedEvents refusedRun.trace = [] := by decide +kernel

theorem answeredRun_restarted : ((DirectorySessionSink.answeredRun.trace.foldlM
    (DurableSessionSink.follow exampleRemote.serde exampleRemote.sink) exampleFirst).bind fun s =>
      (restarted s).toOption.bind fun next => refusedRun.trace.foldlM
        (DurableSessionSink.follow exampleRemote.serde exampleRemote.sink) next).map
          (fun s => s.behind.2.network.receiver.events.length) = some 3 := by
  decide +kernel

/-- The first process flushes, and the second one is refused its first event. -/
theorem receiver_across_processes_flushed : ∃ recorded left, exampleRemote.Lives recorded left ∧
    recorded.length = 3 ∧ left.http.network.receiver.events.length = 3 ∧
      left.http.network.receiver.refused = false ∧ left.http.network.receiver.events <+: recorded := by
  obtain ⟨last, hlast, hcount⟩ := Option.map_eq_some_iff.mp answeredRun_restarted
  obtain ⟨s, hs, hlast⟩ := Option.bind_eq_some_iff.mp hlast
  obtain ⟨next, hnext, hlast⟩ := Option.bind_eq_some_iff.mp hlast
  have hopens : restarted s = .ok next := by
    rcases hresult : restarted s with failure | opened
    · rw [hresult] at hnext
      cases hnext
    · rw [hresult] at hnext
      rw [Option.some.inj hnext]
  have flushed := Lives.process _ exampleConfig exampleRecorder _ .installed exampleFirst_opened rfl
    (DurableSessionSink.Drives.start.all hs) (List.prefix_refl _)
  have refused := Lives.process _ exampleConfig exampleRecorder _ flushed
    (restarted_opens hopens) rfl
    (DurableSessionSink.Drives.start.all hlast) (List.prefix_refl _)
  rw [List.nil_append, show acceptedEvents (reached _ exampleConfig exampleRecorder [.snap]).trace = []
    from refusedRun_accepted, List.append_nil] at refused
  have hacross := receiver_across_processes refused
  exact ⟨_, _, refused, DirectorySessionSink.answeredRun_accepted, hcount, hacross.1, hacross.2.1⟩

theorem flushed_is_received_flushed : ∃ (s : DurableState (Unit × HttpState Wire)) (earlier : List Label),
    s.behind.2.network.receiver.events.length = 3 ∧
      acceptedEvents earlier <+: s.behind.2.network.receiver.events ∧
      ∃ watermark ∈ s.behind.2.network.receiver.watermark,
        (acceptedEvents earlier).length ≤ watermark := by
  obtain ⟨s, hs, hcount⟩ := Option.map_eq_some_iff.mp answeredRun_sent
  have hdriven : DurableSessionSink.Drives exampleRemote.serde exampleRemote.sink exampleFirst
      DirectorySessionSink.answeredRun.trace s := DurableSessionSink.Drives.start.all hs
  obtain ⟨before, reply, htrace, hok⟩ := DirectorySessionSink.answeredRun_replied
  obtain ⟨earlier, -, hreceived, hwatermark⟩ := flushed_is_received .installed exampleFirst_opened _ _ _ _
    hdriven htrace hok rfl
  exact ⟨s, earlier, hcount, hreceived, hwatermark⟩

end RemoteSession

end Rrjj
