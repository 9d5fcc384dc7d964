import Rrjj.Core.Writes
import Rrjj.Core.Chain
import Rrjj.Core.Recovery

/-! The grammar of the stream: how its events are numbered and counted, how it starts, and how
it ends. -/

namespace Rrjj
open Library Library.Proc

def snapshotsIn (events : List Event) : ℕ := (events.filter Event.isSnapshot).length

theorem snapshotsIn_snoc (events : List Event) (event : Event) :
    snapshotsIn (events ++ [event]) = snapshotsIn events + if event.isSnapshot then 1 else 0 := by
  unfold snapshotsIn
  rw [List.filter_append, List.length_append]
  cases h : event.isSnapshot <;> simp [h]

theorem accepted_split {trace : List Label} {before after : List Event} {event : Event}
    (h : acceptedEvents trace = before ++ event :: after) :
    ∃ earlier later, trace = earlier ++ .accepted event :: later ∧ acceptedEvents earlier = before := by
  obtain ⟨earlier, rest, rfl, hbefore, hrest⟩ := List.filterMap_eq_append_iff.mp h
  obtain ⟨skipped, label, later, rfl, hskipped, hlabel, -⟩ := List.filterMap_eq_cons_iff.mp hrest
  have haccepted : label = .accepted event := by
    cases label with
    | accepted other => exact congrArg Label.accepted (Option.some.inj hlabel)
    | _ => exact absurd hlabel (by simp)
  have hnone : acceptedEvents skipped = [] := List.filterMap_eq_nil_iff.mpr hskipped
  refine ⟨earlier ++ skipped, later, ?_, ?_⟩
  · rw [haccepted, List.append_assoc]
  · rw [acceptedEvents_append, hnone, List.append_nil]
    exact hbefore

structure SaysNumbers (sessionId : String) (before : List Event) (event : Event) : Prop where
  seq : event.seq = before.length
  session : event.sessionId = sessionId
  flush : ∀ value, event.body = .flush value → value.throughSeq = event.seq
  ended : ∀ value, event.body = .sessionEnd value →
    value.events = event.seq ∧ value.snapshots = snapshotsIn before

structure Counters (config : Config) (w : World) : Prop where
  configured : w.coordinator.config = config
  seq : w.coordinator.seq = (acceptedEvents w.trace).length
  snapshots : w.coordinator.snapshots = snapshotsIn (acceptedEvents w.trace)
  retained : ∀ event, w.coordinator.pendingSnapshotEvent = some event →
    event.sessionId = config.sessionId ∧ event.isSnapshot = true
  accepted : AtEvery (fun before label => ∀ event, label = .accepted event →
    SaysNumbers config.sessionId (acceptedEvents before) event) w.trace
  begun : ∀ label ∈ w.trace, label.isBegan → acceptedEvents w.trace ≠ []
  flushing : AtEvery (fun before label => ∀ request, label = .flushing request →
    ∃ last, (acceptedEvents before).getLast? = some last ∧ request.lastSeq = last.seq) w.trace

theorem Counters.log {config : Config} {w w' : World} {label : Label} (h : Counters config w)
    (trace : w'.trace = w.trace ++ [label]) (same : w'.coordinator.config = w.coordinator.config)
    (seq : w'.coordinator.seq = w.coordinator.seq)
    (snapshots : w'.coordinator.snapshots = w.coordinator.snapshots)
    (retained : w'.coordinator.pendingSnapshotEvent = w.coordinator.pendingSnapshotEvent)
    (accepts : acceptedEvents [label] = [])
    (began : label.isBegan → acceptedEvents w.trace ≠ [])
    (flushing : ∀ request, label = .flushing request →
      ∃ last, (acceptedEvents w.trace).getLast? = some last ∧ request.lastSeq = last.seq) :
    Counters config w' := by
  have haccepted : acceptedEvents w'.trace = acceptedEvents w.trace := by
    rw [trace, acceptedEvents_append, accepts, List.append_nil]
  refine ⟨same.trans h.configured, ?_, ?_, ?_, ?_, ?_, ?_⟩
  · rw [seq, haccepted, h.seq]
  · rw [snapshots, haccepted, h.snapshots]
  · rw [retained]
    exact h.retained
  · rw [trace]
    apply h.accepted.snoc
    intro event hevent
    rw [hevent] at accepts
    exact absurd accepts (by simp [acceptedEvents])
  · intro l hl hbegan
    rw [haccepted]
    rw [trace, List.mem_append, List.mem_singleton] at hl
    rcases hl with hl | rfl
    · exact h.begun l hl hbegan
    · exact began hbegan
  · rw [trace]
    exact h.flushing.snoc flushing

theorem Counters.says {config : Config} {w : World} (h : Counters config w) {event : Event}
    {f : Coordinator → Coordinator} (next : event.seq = w.coordinator.seq)
    (emission : Emission w event f) :
    SaysNumbers config.sessionId (acceptedEvents w.trace) event := by
  have hseq : event.seq = (acceptedEvents w.trace).length := next.trans h.seq
  have hsession : w.coordinator.config.sessionId = config.sessionId := by rw [h.configured]
  have hplain : ∀ {body : EventBody}, event.body = body → (∀ value, body ≠ .flush value) →
      (∀ value, body ≠ .sessionEnd value) → event.sessionId = config.sessionId →
      SaysNumbers config.sessionId (acceptedEvents w.trace) event := by
    intro body hbody hflush hend hid
    refine ⟨hseq, hid, fun value hvalue => ?_, fun value hvalue => ?_⟩
    · exact absurd (hbody.symm.trans hvalue) (hflush value)
    · exact absurd (hbody.symm.trans hvalue) (hend value)
  cases emission with
  | retained _ snapshot retained body =>
    exact hplain body (by simp) (by simp) (h.retained _ retained).1
  | snapshot _ snapshot retained body =>
    exact hplain body (by simp) (by simp) (h.retained _ retained).1
  | sessionStart => exact hplain rfl (by simp) (by simp) hsession
  | overflow => exact hplain rfl (by simp [overflowBody]) (by simp [overflowBody]) hsession
  | audit =>
    exact hplain rfl (by simp [Coordinator.touchedPathsBody]) (by simp [Coordinator.touchedPathsBody])
      hsession
  | mark => exact hplain rfl (by simp) (by simp) hsession
  | sessionEnd =>
    refine ⟨hseq, hsession, fun value hvalue => absurd hvalue (by simp), fun value hvalue => ?_⟩
    rw [← EventBody.sessionEnd.inj hvalue]
    exact ⟨rfl, h.snapshots⟩
  | flush =>
    refine ⟨hseq, hsession, fun value hvalue => ?_, fun value hvalue => absurd hvalue (by simp)⟩
    rw [← EventBody.flush.inj hvalue]
    rfl

theorem Emission.counts {w : World} {event : Event} {f : Coordinator → Coordinator}
    (emission : Emission w event f)
    (retained : ∀ kept, w.coordinator.pendingSnapshotEvent = some kept → kept.isSnapshot = true)
    (c : Coordinator) : (f c).config = c.config ∧ (f c).seq = c.seq ∧
      (f c).snapshots = c.snapshots + if event.isSnapshot then 1 else 0 := by
  cases emission with
  | retained _ snapshot kept body =>
    rw [retained _ kept]
    exact ⟨rfl, rfl, rfl⟩
  | snapshot _ snapshot kept body =>
    rw [retained _ kept]
    exact ⟨rfl, rfl, rfl⟩
  | _ => exact ⟨rfl, rfl, rfl⟩

theorem Counters.accept {config : Config} {w : World} (h : Counters config w) {event : Event}
    {f : Coordinator → Coordinator} (next : event.seq = w.coordinator.seq)
    (emission : Emission w event f) : Counters config (w.accept event f) := by
  have haccepted : acceptedEvents (w.accept event f).trace = acceptedEvents w.trace ++ [event] :=
    acceptedEvents_append _ _
  obtain ⟨hconfig, hseq, hsnapshots⟩ := emission.counts (fun kept hkept => (h.retained kept hkept).2)
    { w.coordinator with seq := w.coordinator.seq + 1 }
  refine ⟨hconfig.trans h.configured, ?_, ?_, ?_, ?_, ?_, ?_⟩
  · rw [haccepted, List.length_append, List.length_singleton, ← h.seq]
    exact hseq
  · rw [haccepted, snapshotsIn_snoc, ← h.snapshots]
    exact hsnapshots
  · intro kept hkept
    exact h.retained kept (emission.retains hkept)
  · apply h.accepted.snoc
    intro other hother
    rw [← Label.accepted.inj hother]
    exact h.says next emission
  · intro l _ _
    rw [haccepted]
    simp
  · exact h.flushing.snoc fun request hrequest => absurd hrequest (by simp)

theorem Step.counters {config : Config} {w w' : World} (step : Step w w') (h : Counters config w) :
    Counters config w' := by
  cases step with
  | arrival call =>
    have hcall : acceptedEvents [call.label] = [] ∧ call.label.isBegan = false ∧
        ∀ request, call.label ≠ .flushing request := by
      cases call <;> simp [WatcherCall.label, acceptedEvents, Label.isBegan]
    exact h.log rfl rfl rfl rfl rfl hcall.1 (by simp [hcall.2.1]) fun request hrequest =>
      absurd hrequest (hcall.2.2 request)
  | tick => exact ⟨h.configured, h.seq, h.snapshots, h.retained, h.accepted, h.begun, h.flushing⟩
  | paused => exact ⟨h.configured, h.seq, h.snapshots, h.retained, h.accepted, h.begun, h.flushing⟩
  | began command opened =>
    exact h.log rfl rfl rfl rfl rfl rfl (fun _ => opened.accepted) (by simp)
  | drained =>
    refine @Counters.log config w w.drainAudit .drained h rfl ?_ ?_ ?_ ?_ rfl (by simp [Label.isBegan])
      (by simp)
    · exact w.coordinator.absorb_config _
    · exact w.coordinator.absorb_seq _
    · exact w.coordinator.absorb_snapshots _
    · exact w.coordinator.absorb_pendingSnapshotEvent _
  | captured fullScan checkpoint time =>
    refine ⟨h.configured, ?_, ?_, ?_, h.accepted.snoc (by simp), ?_, h.flushing.snoc (by simp)⟩
    · rw [World.retain, World.update, World.capture, acceptedEvents_append]
      exact h.seq.trans (congrArg List.length (List.append_nil _).symm)
    · rw [World.retain, World.update, World.capture, acceptedEvents_append]
      exact h.snapshots.trans (congrArg snapshotsIn (List.append_nil _).symm)
    · intro event hevent
      rw [← Option.some.inj hevent]
      exact ⟨congrArg Config.sessionId h.configured, rfl⟩
    · intro l hl hbegan
      rw [World.retain, World.update, World.capture, List.mem_append, List.mem_singleton] at hl
      rw [World.retain, World.update, World.capture, acceptedEvents_append]
      rcases hl with hl | rfl
      · exact List.append_ne_nil_of_left_ne_nil (h.begun l hl hbegan) _
      · exact absurd hbegan (by simp [Label.isBegan])
  | accepted event f _ next emission => exact h.accept next emission
  | flushing command publishes settled =>
    refine h.log rfl rfl rfl rfl rfl rfl (by simp [Label.isBegan]) fun request hrequest => ?_
    -- a command has begun, so something was accepted, and the last of it is named
    obtain ⟨before, coordinator, audit, since, htrace, -, -⟩ := settled.underway
    have hnonempty := h.begun (.began command coordinator audit) (by simp [htrace]) rfl
    obtain ⟨events, last, haccepted⟩ := (List.eq_nil_or_concat _).resolve_left hnonempty
    rw [List.concat_eq_append] at haccepted
    obtain ⟨earlier, later, htrace', hevents⟩ := accepted_split haccepted
    have hlast := (h.accepted earlier _ later htrace' last rfl).seq
    refine ⟨last, by rw [haccepted, List.getLast?_concat], ?_⟩
    rw [← Label.flushing.inj hrequest, hlast, hevents, h.seq, haccepted, List.length_append]
    rfl
  | _ => exact h.log rfl rfl rfl rfl rfl rfl (by simp [Label.isBegan]) (by simp)

theorem Steps.counters {config : Config} {w w' : World} (steps : Steps w w') (h : Counters config w) :
    Counters config w' := by
  induction steps with
  | refl => exact h
  | tail _ step ih => exact step.counters ih

theorem counters_start (config : Config) (recorder : JjRecorder) :
    Counters config (.start config recorder) where
  configured := rfl
  seq := rfl
  snapshots := rfl
  retained event h := absurd h (by simp [World.start])
  accepted := atEvery_nil
  begun label h := absurd h (by simp [World.start])
  flushing := atEvery_nil

def EventBody.isStart : EventBody → Bool
  | .sessionStart _ => true
  | _ => false

def EventBody.isEnd : EventBody → Bool
  | .sessionEnd _ => true
  | _ => false

def EventBody.isFlush : EventBody → Bool
  | .flush _ => true
  | _ => false

def Inside (events : List Event) : Prop :=
  ∀ event ∈ events, event.body.isStart = false ∧ event.body.isEnd = false

def Running (events : List Event) : Prop :=
  ∃ first rest, events = first :: rest ∧ first.body.isStart = true ∧ Inside rest

def Ended (events : List Event) : Prop :=
  ∃ running last after, events = running ++ last :: after ∧ Running running ∧
    last.body.isEnd = true ∧ (after = [] ∨ ∃ flush, after = [flush] ∧ flush.body.isFlush = true)

def Framed (events : List Event) : Prop := events = [] ∨ Running events ∨ Ended events

abbrev Streams (P : List Event → Prop) (w : World) : Prop := P (acceptedEvents w.trace)

variable {P Q : List Event → Prop} {env : Environment}

theorem tolerates_stream {allowed : Allowed}
    (adds : ∀ events event, allowed.bodies event.body = true → P events → P (events ++ [event])) :
    Tolerates allowed fun trace => P (acceptedEvents trace) := by
  intro trace label within h
  cases label with
  | accepted event =>
    rw [acceptedEvents_append]
    exact adds _ event within h
  | _ =>
    rw [acceptedEvents_snoc (by simp)]
    exact h

def silent : Allowed := ⟨fun _ => false, true, true⟩

theorem tolerates_silent : Tolerates silent fun trace => P (acceptedEvents trace) :=
  tolerates_stream fun _ _ h => nomatch h

theorem log_silent {label : Label} (h : ∀ event, label ≠ .accepted event) :
    Keeps (Streams P) (log label) := by
  apply Keeps.modify
  intro w hw
  change P (acceptedEvents (w.trace ++ [label]))
  rw [acceptedEvents_snoc h]
  exact hw

theorem emit_adds {body : EventBody}
    (adds : ∀ events event, event.body = body → P events → Q (events ++ [event])) :
    Triple (Streams P) (emit env body) (fun _ => Streams Q) (Streams P) := by
  refine Triple.get fun u hu => ?_
  refine Triple.bind (Q := fun _ => Streams P) ?_ fun time => ?_
  · exact (now_writes (K := fun trace => P (acceptedEvents trace))).pre fun s hs => hs ▸ hu
  refine Triple.get fun v hv => ?_
  split_ifs
  · refine Triple.bind ((log_silent (by simp)).pre fun s hs => hs ▸ hv) fun _ => ?_
    refine Triple.bind (await_writes tolerates_silent) fun turn => ?_
    rcases turn.sink with error | _
    · exact Triple.bind (log_silent (by simp)) fun _ => Triple.throw fun _ h => h
    · refine Triple.bind (Q := fun _ => Streams Q) ?_ fun _ => ?_
      · apply Triple.modify
        intro w hw
        change Q (acceptedEvents (w.trace ++ [_]))
        rw [acceptedEvents_append]
        exact adds _ _ rfl hw
      · exact Triple.modify fun _ h => h
  · refine Triple.bind ((log_silent (by simp)).pre fun s hs => hs ▸ hv) fun _ => ?_
    exact Triple.throw fun _ h => h

theorem Running.ordinary {events : List Event} (h : Running events) {event : Event}
    (body : ordinary.bodies event.body = true) : Running (events ++ [event]) := by
  obtain ⟨first, rest, rfl, hfirst, hrest⟩ := h
  refine ⟨first, rest ++ [event], rfl, hfirst, fun other hother => ?_⟩
  rcases List.mem_append.mp hother with hother | hother
  · exact hrest other hother
  · rw [List.mem_singleton.mp hother]
    cases hbody : event.body with
    | sessionStart => rw [hbody] at body; exact absurd body Bool.false_ne_true
    | sessionEnd => rw [hbody] at body; exact absurd body Bool.false_ne_true
    | _ => exact ⟨rfl, rfl⟩

theorem tolerates_running : Tolerates ordinary fun trace => Running (acceptedEvents trace) :=
  tolerates_stream fun _ _ body h => h.ordinary body

def JustEnded (events : List Event) : Prop :=
  ∃ running last, events = running ++ [last] ∧ Running running ∧ last.body.isEnd = true

theorem JustEnded.ended {events : List Event} (h : JustEnded events) : Ended events := by
  obtain ⟨running, last, hevents, hrunning, hlast⟩ := h
  exact ⟨running, last, [], hevents, hrunning, hlast, Or.inl rfl⟩

theorem initializeCoordinator_frames :
    Triple (Streams fun events => events = []) (initializeCoordinator env)
      (fun _ => Streams Running) (Streams Framed) := by
  have hcapture : Keeps (Streams fun events => events = []) (capture env true) :=
    capture_writes (@tolerates_silent fun events => events = []) rfl true
  have hframed : ∀ w : World, Streams (fun events => events = []) w → Streams Framed w :=
    fun _ h => Or.inl h
  refine Triple.bind (hcapture.conseq (fun _ h => h) (fun _ _ h => h) hframed) fun baseline => ?_
  refine Triple.get fun u hu => ?_
  refine (emit_adds (P := fun events => events = []) (Q := Running) ?_).conseq ?_ (fun _ _ h => h)
    hframed
  · intro events event hbody hempty
    refine ⟨event, [], by rw [hempty]; rfl, by rw [hbody]; rfl, fun other hother => ?_⟩
    exact absurd hother (by simp)
  · rintro s rfl
    exact hu

theorem flushDurable_frames : Triple (Streams JustEnded) (flushDurable env)
    (fun _ => Streams Framed) (Streams Framed) := by
  have hframed : ∀ w : World, Streams JustEnded w → Streams Framed w :=
    fun _ h => Or.inr (Or.inr h.ended)
  refine Triple.get fun u hu => ?_
  refine Triple.bind (Q := fun _ => Streams Framed) ?_ fun _ => Keeps.get fun v _ => ?_
  · refine (emit_adds (P := JustEnded) (Q := Framed) ?_).conseq ?_ (fun _ _ h => h) hframed
    · rintro events event hbody ⟨running, last, rfl, hrunning, hlast⟩
      refine Or.inr (Or.inr ⟨running, last, [event], List.append_assoc _ _ _, hrunning, hlast,
        Or.inr ⟨event, rfl, ?_⟩⟩)
      rw [hbody]
      rfl
    · rintro s rfl
      exact hu
  · refine (log_silent (by simp)).bind fun _ => (await_writes tolerates_silent).bind fun turn => ?_
    rcases turn.sink with error | _
    · exact (log_silent (by simp)).bind fun _ => Keeps.throw _
    · exact log_silent (by simp)

theorem finish_frames (reason : String) :
    Triple (Streams Running) (finish env reason) (fun _ => Streams Framed) (Streams Framed) := by
  have hframed : ∀ w : World, Streams Running w → Streams Framed w := fun _ h => Or.inr (Or.inl h)
  have hdrain : Keeps (Streams Running) drainAudit := drainAudit_writes tolerates_running
  have hsettle : Keeps (Streams Running) (settle env) :=
    settle_writes tolerates_running (fun _ => ordinary_snapshot) rfl
  refine Triple.bind (hdrain.conseq (fun _ h => h) (fun _ _ h => h) hframed) fun _ => ?_
  refine Triple.bind (hsettle.conseq (fun _ h => h) (fun _ _ h => h) hframed) fun _ => ?_
  refine Triple.get fun u hu => ?_
  refine Triple.bind (Q := fun _ => Streams JustEnded) ?_ fun _ => flushDurable_frames
  refine (emit_adds (P := Running) (Q := JustEnded) ?_).conseq ?_ (fun _ _ h => h) hframed
  · intro events event hbody hrunning
    refine ⟨events, event, rfl, hrunning, ?_⟩
    rw [hbody]
    rfl
  · rintro s rfl
    exact hu

theorem serve_running {command : Command} (other : ∀ reason, command ≠ .shutdown reason) :
    Keeps (Streams Running) (serve env command) := by
  have hbegin : Keeps (Streams Running) (beginCommand command) := by
    apply Keeps.modify
    intro w hw
    change Running (acceptedEvents (w.trace ++ [_]))
    rw [acceptedEvents_snoc (by simp)]
    exact hw
  refine hbegin.bind fun _ => (perform_writes tolerates_running other).attempt.bind fun result => ?_
  rcases result with failure | reply
  · exact log_silent (by simp)
  · exact log_silent (by simp)

theorem serve_frames (reason : String) :
    Triple (Streams Running) (serve env (.shutdown reason)) (fun _ => Streams Framed)
      (Streams Framed) := by
  have hbegin : Triple (ε := Failure) (Streams Running) (beginCommand (.shutdown reason))
      (fun _ => Streams Running) (Streams Framed) := by
    apply Triple.modify
    intro w hw
    change Running (acceptedEvents (w.trace ++ [_]))
    rw [acceptedEvents_snoc (by simp)]
    exact hw
  have hperform : Triple (Streams Running) (perform env (.shutdown reason))
      (fun _ => Streams Framed) (Streams Framed) := Triple.map (finish_frames reason)
  refine hbegin.bind fun _ => hperform.attempt.bind fun result => ?_
  rcases result with failure | reply
  · exact log_silent (by simp)
  · exact log_silent (by simp)

theorem run_frames (commands : List Command) :
    Triple (Streams Running) (run env commands) (fun _ => Streams Framed) (Streams Framed) := by
  have hframed : ∀ w : World, Streams Running w → Streams Framed w := fun _ h => Or.inr (Or.inl h)
  have hwait : Triple (Streams Running) (interleave env) (fun _ => Streams Running)
      (Streams Framed) := by
    have hkeeps : Keeps (Streams Running) (interleave env) := interleave_writes tolerates_running
    exact hkeeps.conseq (fun _ h => h) (fun _ _ h => h) hframed
  induction commands with
  | nil =>
    refine hwait.bind fun _ => Triple.bind (Q := fun _ => Streams Running) ?_ fun _ => finish_frames _
    apply Triple.modify
    intro w hw
    change Running (acceptedEvents (w.trace ++ [_]))
    rw [acceptedEvents_snoc (by simp)]
    exact hw
  | cons command commands ih =>
    have hserve : (∀ reason, command ≠ .shutdown reason) →
        Triple (Streams Running) (serve env command) (fun _ => Streams Running) (Streams Framed) :=
      fun other => (serve_running other).conseq (fun _ h => h) (fun _ _ h => h) hframed
    cases command with
    | shutdown reason => exact hwait.bind fun _ => serve_frames reason
    | _ => exact hwait.bind fun _ => (hserve nofun).bind fun _ => ih

theorem session_framed (config : Config) (recorder : JjRecorder) (commands : List Command) :
    Framed (acceptedEvents (reached env config recorder commands).trace) :=
  ((initializeCoordinator_frames.bind fun _ => run_frames commands) (World.start config recorder)
    rfl).final

/-- The grammar of a session's stream, and the counters that its status shows. -/
structure StreamGrammar (config : Config) (w : World) : Prop where
  numbered : (acceptedEvents w.trace).map Event.seq = List.range (acceptedEvents w.trace).length
  session : ∀ event ∈ acceptedEvents w.trace, event.sessionId = config.sessionId
  framed : Framed (acceptedEvents w.trace)
  flushed : ∀ event ∈ acceptedEvents w.trace, ∀ value, event.body = .flush value →
    value.throughSeq = event.seq
  flushing : AtEvery (fun before label => ∀ request, label = .flushing request →
    ∃ last, (acceptedEvents before).getLast? = some last ∧ request.lastSeq = last.seq) w.trace
  ended : AtEvery (fun before event => ∀ value, event.body = .sessionEnd value →
    value.events = event.seq ∧ value.snapshots = snapshotsIn before) (acceptedEvents w.trace)
  seq : (w.coordinator.status w.audit).seq = (acceptedEvents w.trace).length
  snapshots : (w.coordinator.status w.audit).snapshots = snapshotsIn (acceptedEvents w.trace)

/-- Whatever is asked of a session and whatever fails in it, its stream keeps to the grammar at
every moment. -/
theorem stream_keeps_grammar (env : Environment) (config : Config) (recorder : JjRecorder)
    (commands : List Command) : StreamGrammar config (reached env config recorder commands) := by
  have h := (reached_steps env config recorder commands).counters (counters_start config recorder)
  have hframed := @session_framed env config recorder commands
  generalize reached env config recorder commands = w at h hframed
  have hnumbers : AtEvery (SaysNumbers config.sessionId) (acceptedEvents w.trace) := by
    intro before event after hsplit
    obtain ⟨earlier, later, htrace, rfl⟩ := accepted_split hsplit
    exact h.accepted earlier _ later htrace event rfl
  have hmem : ∀ event ∈ acceptedEvents w.trace, ∃ before, SaysNumbers config.sessionId before event := by
    intro event hevent
    obtain ⟨before, after, -, hsaid⟩ := hnumbers.mem hevent
    exact ⟨before, hsaid⟩
  refine ⟨?_, fun event hevent => ?_, hframed, fun event hevent value hvalue => ?_, h.flushing, ?_,
    h.seq, h.snapshots⟩
  · apply List.ext_getElem
    · rw [List.length_map, List.length_range]
    intro i hi _
    have hlength : i < (acceptedEvents w.trace).length := by simpa using hi
    rw [List.getElem_map, List.getElem_range]
    have hsplit : acceptedEvents w.trace = (acceptedEvents w.trace).take i ++
        (acceptedEvents w.trace)[i] :: (acceptedEvents w.trace).drop (i + 1) := by
      rw [List.cons_getElem_drop_succ, List.take_append_drop]
    rw [(hnumbers _ _ _ hsplit).seq, List.length_take]
    exact Nat.min_eq_left hlength.le
  · obtain ⟨before, hsaid⟩ := hmem event hevent
    exact hsaid.session
  · obtain ⟨before, hsaid⟩ := hmem event hevent
    exact hsaid.flush value hvalue
  · exact hnumbers.mono fun _ _ hsaid => hsaid.ended

end Rrjj
