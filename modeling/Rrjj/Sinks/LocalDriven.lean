import Rrjj.Core.Calls
import Rrjj.Reader.Soundness
import Rrjj.Sinks.Checkpoints
import Rrjj.Sinks.CrashSafety
import Rrjj.Sinks.Watermarks

/-! The local sink behind the coordinator: the calls of a session are such as the sink counts on,
and a reader of the session directory never loses what a flush has been answered for. -/

namespace Rrjj
open Library Library.Proc

structure Spoken (sessionId : String) (trace : List Label) : Prop where
  emitting : AtEvery (fun before label => ∀ event, label = .emitting event →
    Stamped sessionId event ∧ event.seq = (acceptedEvents before).length) trace
  flushing : AtEvery (fun before label => ∀ request, label = .flushing request →
    ∃ event, (acceptedEvents before).getLast? = some event ∧ FlushEvent request event) trace
  answered : Answered trace
  awaited : AtEvery (fun before label => ∀ request,
    label = .flushed request ∨ label = .flushFailed request → Awaiting (.flushing request) before)
    trace

section
variable {sessionId : String} {trace later : List Label} {event : Event} {request : FlushRequest}

theorem Spoken.of_prefix (h : Spoken sessionId later) (earlier : trace <+: later) :
    Spoken sessionId trace :=
  ⟨h.emitting.of_prefix earlier, h.flushing.of_prefix earlier, h.answered.of_prefix earlier,
    h.awaited.of_prefix earlier⟩

theorem reached_spoken (env : Environment) (config : Config) (recorder : JjRecorder)
    (commands : List Command) :
    Spoken config.sessionId (reached env config recorder commands).trace := by
  have hannounces := (reached_informs env config recorder commands).1
  have hsteps := reached_steps env config recorder commands
  exact ⟨hannounces.emitting, hannounces.flushing, hsteps.answered atEvery_nil, hsteps.ordered.awaited⟩

theorem Awaiting.accepted {label : Label} (awaiting : Awaiting label trace)
    (call : ∀ event, label ≠ .accepted event) : ∃ before since, trace = before ++ label :: since ∧
      acceptedEvents trace = acceptedEvents before := by
  obtain ⟨before, since, htrace, hsince⟩ := awaiting
  refine ⟨before, since, htrace, ?_⟩
  have hcall : acceptedEvents [label] = [] := by
    have hsnoc : acceptedEvents ([] ++ [label]) = acceptedEvents [] := acceptedEvents_snoc call
    rwa [List.nil_append] at hsnoc
  rw [htrace, ← List.singleton_append, acceptedEvents_append, acceptedEvents_append, hcall,
    acceptedEvents_arrivals hsince, List.append_nil, List.append_nil]

theorem Spoken.emits (spoken : Spoken sessionId trace) (awaiting : Awaiting (.emitting event) trace) :
    Stamped sessionId event ∧ event.seq = (acceptedEvents trace).length := by
  obtain ⟨before, since, htrace, haccepted⟩ := awaiting.accepted (by simp)
  rw [haccepted]
  exact spoken.emitting before _ since htrace event rfl

theorem Spoken.flushes (spoken : Spoken sessionId trace)
    (awaiting : Awaiting (.flushing request) trace) : .flushing request ∈ trace ∧
      ∃ event, (acceptedEvents trace).getLast? = some event ∧ FlushEvent request event := by
  obtain ⟨before, since, htrace, haccepted⟩ := awaiting.accepted (by simp)
  refine ⟨by simp [htrace], ?_⟩
  rw [haccepted]
  exact spoken.flushing before _ since htrace request rfl

end

def Label.answersFlush : Label → Bool
  | .replied .flush reply => reply.isOk
  | _ => false

section
variable {serde : Serde} {error : ReadError}

end

namespace DirectorySessionSink
variable {oracle seen : IoOracle} {sink : DirectorySessionSink} {first s s' u : LocalSession}
  {event : Event} {source : Listing} {request : FlushRequest} {sessionId : String}
  {format : FormatMetadata} {trace : List Label}

structure EmitMoves (sink : DirectorySessionSink) (event : Event) (s u : LocalSession) : Prop where
  copies : ∀ seq, .copied seq ∈ u.disk.trace → .copied seq ∈ s.disk.trace
  durable : u.state.manifest.durableSeq = s.state.manifest.durableSeq
  accepted : u.accepted = s.accepted ∨ u.accepted = s.accepted ++ [event]
  published : sink.published u = sink.published s ∨ sink.published u = some u.state.manifest

theorem emit_moves (run : ((sink.emit seen event).run s).2 = u) : sink.EmitMoves event s u := by
  have hguards : ∀ line, sink.lineOf event = .ok line → Guards
      (fun σ => (∀ seq, .copied seq ∈ σ.trace → .copied seq ∈ s.disk.trace) ∧
        (readManifest sink.serde.manifests σ.entry = sink.published s ∨
          ∃ line, sink.lineOf event = .ok line ∧
            readManifest sink.serde.manifests σ.entry = some (s.accept event line).state.manifest))
      (ManifestWrites sink.serde.manifests (s.accept event line).state.manifest) := by
    rintro line hline σ path e ⟨hcopies, hreads⟩ hwrites
    refine ⟨hcopies, ?_⟩
    cases hwrites with
    | temporary e =>
      rw [readManifest_update_ne (by simp)]
      exact hreads
    | manifest bytes written => exact Or.inr ⟨line, hline, readManifest_write written⟩
  rcases emit_ends run hguards fun _ _ => ⟨fun _ h => h, Or.inl rfl⟩ with
    huntouched | ⟨haccepts, hcopies, hreads⟩
  · refine ⟨?_, ?_, Or.inl huntouched.accepted, Or.inl huntouched.published⟩
    · rw [huntouched.tree.2]
      exact fun _ h => h
    · rw [huntouched.manifest]
  obtain ⟨line, hline, -, -, hstate⟩ := haccepts.line
  refine ⟨hcopies, ?_, Or.inr haccepts.accepted, hreads.imp_right ?_⟩
  · rw [hstate]
    rfl
  · rintro ⟨other, hother, hnew⟩
    have hsame : other = line := Except.ok.inj (hother.symm.trans hline)
    rw [hsame, ← hstate] at hnew
    exact hnew

structure FlushMoves (sink : DirectorySessionSink) (request : FlushRequest) (s u : LocalSession) :
    Prop where
  copies : ∀ seq, .copied seq ∈ u.disk.trace →
    .copied seq ∈ s.disk.trace ∨ seq = s.state.manifest.lastSeq
  accepted : u.accepted = s.accepted
  durable : u.state.manifest.durableSeq = s.state.manifest.durableSeq ∨
    u.state.manifest.durableSeq = some s.state.manifest.lastSeq ∧
      sink.published u = some (flushManifest request s.state.manifest).durableAt
  published : sink.published u = sink.published s ∨
    sink.published u = some (flushManifest request s.state.manifest).durableAt

def FlushSees (sink : DirectorySessionSink) (request : FlushRequest) (s : LocalSession) (σ : Shape) :
    Prop :=
  (∀ seq, .copied seq ∈ σ.trace → .copied seq ∈ s.disk.trace ∨ seq = s.state.manifest.lastSeq) ∧
    (readManifest sink.serde.manifests σ.entry = sink.published s ∨
      readManifest sink.serde.manifests σ.entry =
        some (flushManifest request s.state.manifest).durableAt)

theorem flush_moves (buffer : s.state.failed = none → s.disk.buffer = [])
    (run : ((sink.flushSession seen source request).run s).2 = u) : sink.FlushMoves request s u := by
  have hguards : Guards (sink.FlushSees request s)
      (FlushWrites sink.serde.manifests (flushManifest request s.state.manifest)) := by
    rintro σ path e ⟨hcopies, hreads⟩ hwrites
    exact ⟨hcopies, flushWrites_reads σ path e hreads hwrites⟩
  have hcopy : ∀ σ, sink.FlushSees request s σ →
      sink.FlushSees request s (σ.log (.copied s.state.manifest.lastSeq)) := by
    rintro σ ⟨hcopies, hreads⟩
    refine ⟨fun seq hseq => ?_, hreads⟩
    rcases List.mem_append.mp hseq with hold | hnew
    · exact hcopies seq hold
    · exact Or.inr (DiskLabel.copied.inj (List.mem_singleton.mp hnew))
  have hpublish : ∀ σ volume, sink.FlushSees request s σ →
      sink.FlushSees request s (σ.log (.published s.state.manifest.lastSeq volume)) := by
    rintro σ volume ⟨hcopies, hreads⟩
    refine ⟨fun seq hseq => ?_, hreads⟩
    rcases List.mem_append.mp hseq with hold | hnew
    · exact hcopies seq hold
    · exact absurd (List.mem_singleton.mp hnew) (by simp)
  obtain ⟨⟨⟨hcopies, hreads⟩, -⟩, haccepted, hstate⟩ := flushSession_ends run buffer hguards
    (fun σ h _ _ => hcopy σ h) (fun σ volume h _ => hpublish σ volume h)
    ⟨fun _ h => Or.inl h, Or.inl rfl⟩
  refine ⟨hcopies, haccepted, ?_, hreads⟩
  rcases hstate with hsame | hpublishes
  · rw [hsame]
    exact Or.inl rfl
  · obtain ⟨stats, hpublished⟩ := hpublishes.state
    obtain ⟨bytes, hwritten, hentry⟩ := hpublishes.manifest
    right
    rw [hpublished]
    refine ⟨congrArg some hpublishes.seq, ?_⟩
    show readManifest sink.serde.manifests u.disk.shape.entry = _
    unfold readManifest
    rw [hentry]
    simp only [sink.serde.manifests.round_trip hwritten, Except.toOption]

/-- The sink behind the coordinator whose trace it is: every answer in the trace is the
sink's own. -/
inductive Drives (sink : DirectorySessionSink) (oracle : IoOracle) (first : LocalSession) :
    List Label → LocalSession → Prop
  | start : Drives sink oracle first [] first
  | accepted {trace : List Label} {s s' : LocalSession} (event : Event)
      (driven : Drives sink oracle first trace s)
      (ran : (sink.emit oracle event).run s = (.ok (), s')) :
      Drives sink oracle first (trace ++ [.accepted event]) s'
  | refused {trace : List Label} {s s' : LocalSession} (event : Event) (failure : SinkError)
      (driven : Drives sink oracle first trace s)
      (ran : (sink.emit oracle event).run s = (.error failure, s')) :
      Drives sink oracle first (trace ++ [.refused event]) s'
  | flushed {trace : List Label} {s s' : LocalSession} (source : Listing) (request : FlushRequest)
      (driven : Drives sink oracle first trace s)
      (ran : (sink.flushSession oracle source request).run s = (.ok (), s')) :
      Drives sink oracle first (trace ++ [.flushed request]) s'
  | flushFailed {trace : List Label} {s s' : LocalSession} (source : Listing)
      (request : FlushRequest) (failure : SinkError) (driven : Drives sink oracle first trace s)
      (ran : (sink.flushSession oracle source request).run s = (.error failure, s')) :
      Drives sink oracle first (trace ++ [.flushFailed request]) s'
  | silent {trace : List Label} {s : LocalSession} (label : Label)
      (silent : label.isAnswer = false) (driven : Drives sink oracle first trace s) :
      Drives sink oracle first (trace ++ [label]) s

/-- The sink as it is found at the end of a trace: between two calls, or anywhere within the call
that the coordinator waits for. -/
inductive Seen (sink : DirectorySessionSink) (seen : IoOracle) (trace : List Label)
    (s : LocalSession) : LocalSession → Prop
  | still : Seen sink seen trace s s
  | emitting (event : Event) (awaiting : Awaiting (.emitting event) trace) :
      Seen sink seen trace s ((sink.emit seen event).run s).2
  | flushing (source : Listing) (request : FlushRequest)
      (awaiting : Awaiting (.flushing request) trace) :
      Seen sink seen trace s ((sink.flushSession seen source request).run s).2

/-- What readers can rely on: only flushes are published, and the watermark that the sink counts on
is in the directory and not past the events. -/
structure Backed (sink : DirectorySessionSink) (trace : List Label) (s : LocalSession) : Prop where
  copies : ∀ seq, .copied seq ∈ s.disk.trace → ∃ event request,
    (acceptedEvents trace)[seq]? = some event ∧ .flushing request ∈ trace ∧ FlushEvent request event
  memory : ∀ seq, s.state.manifest.durableSeq = some seq → seq < (acceptedEvents trace).length
  acknowledged : Advances (some s.state.manifest) (sink.published s)
  flushed : ∀ request, .flushed request ∈ trace → ∃ seq,
    s.state.manifest.durableSeq = some seq ∧ request.lastSeq ≤ seq

structure Led (sink : DirectorySessionSink) (oracle : IoOracle) (sessionId : String)
    (first : LocalSession) (trace : List Label) (s : LocalSession) : Prop where
  reached : Reached sink oracle (Coordinated sessionId) first s
  accepted : s.accepted = acceptedEvents trace
  backed : sink.Backed trace s

theorem Backed.log {label : Label} (h : sink.Backed trace s)
    (accepts : ∀ event, label ≠ .accepted event) (flushes : ∀ request, label = .flushed request →
      ∃ seq, s.state.manifest.durableSeq = some seq ∧ request.lastSeq ≤ seq) :
    sink.Backed (trace ++ [label]) s := by
  have hsame : acceptedEvents (trace ++ [label]) = acceptedEvents trace := acceptedEvents_snoc accepts
  refine ⟨fun seq hseq => ?_, ?_, h.acknowledged, fun request hrequest => ?_⟩
  · obtain ⟨event, request, hevent, hmem, hflush⟩ := h.copies seq hseq
    exact ⟨event, request, hsame ▸ hevent, List.mem_append_left _ hmem, hflush⟩
  · rw [hsame]
    exact h.memory
  · rcases List.mem_append.mp hrequest with hold | hnew
    · exact h.flushed request hold
    · exact flushes request (List.mem_singleton.mp hnew).symm

theorem Backed.accept (h : sink.Backed trace s) : sink.Backed (trace ++ [.accepted event]) s := by
  have haccepted : acceptedEvents (trace ++ [.accepted event]) = acceptedEvents trace ++ [event] :=
    acceptedEvents_append _ _
  refine ⟨fun seq hseq => ?_, fun seq hseq => ?_, h.acknowledged, fun request hrequest => ?_⟩
  · obtain ⟨found, request, hfound, hmem, hflush⟩ := h.copies seq hseq
    refine ⟨found, request, ?_, List.mem_append_left _ hmem, hflush⟩
    rw [haccepted, List.getElem?_append_left (List.getElem?_eq_some_iff.mp hfound).1]
    exact hfound
  · rw [haccepted, List.length_append]
    exact Nat.lt_add_right _ (h.memory seq hseq)
  · rcases List.mem_append.mp hrequest with hold | hnew
    · exact h.flushed request hold
    · exact absurd (List.mem_singleton.mp hnew) (by simp)

theorem Backed.emit (h : sink.Backed trace s) (moves : sink.EmitMoves event s u) :
    sink.Backed trace u := by
  refine ⟨fun seq hseq => h.copies seq (moves.copies seq hseq), ?_, ?_, ?_⟩
  · rw [moves.durable]
    exact h.memory
  · intro manifest seq hmanifest hseq
    rcases moves.published with hsame | hnew
    · rw [← Option.some.inj hmanifest, moves.durable] at hseq
      rw [hsame]
      exact h.acknowledged _ seq rfl hseq
    · rw [hnew]
      exact ⟨manifest, seq, hmanifest, hseq, Nat.le_refl _⟩
  · rw [moves.durable]
    exact h.flushed

theorem Backed.flush (h : sink.Backed trace s) (moves : sink.FlushMoves request s u)
    (last : s.state.manifest.lastSeq + 1 = (acceptedEvents trace).length)
    (asked : .flushing request ∈ trace ∧
      ∃ event, (acceptedEvents trace).getLast? = some event ∧ FlushEvent request event) :
    sink.Backed trace u := by
  obtain ⟨hmem, event, hevent, hflush⟩ := asked
  have hlast : (acceptedEvents trace)[s.state.manifest.lastSeq]? = some event := by
    rw [← hevent, List.getLast?_eq_getElem?, ← last, Nat.add_sub_cancel]
  have hbelow : ∀ seq, seq ≤ s.state.manifest.lastSeq → seq < (acceptedEvents trace).length := by
    intro seq hle
    omega
  refine ⟨fun seq hseq => ?_, fun seq hseq => ?_, ?_, fun other hother => ?_⟩
  · rcases moves.copies seq hseq with hold | hnew
    · exact h.copies seq hold
    · rw [hnew]
      exact ⟨event, request, hlast, hmem, hflush⟩
  · rcases moves.durable with hsame | ⟨hnew, -⟩
    · exact h.memory seq (hsame ▸ hseq)
    · rw [hnew] at hseq
      rw [← Option.some.inj hseq]
      exact hbelow s.state.manifest.lastSeq (Nat.le_refl _)
  · intro manifest seq hmanifest hseq
    rw [← Option.some.inj hmanifest] at hseq
    rcases moves.durable with hsame | ⟨hnew, hpublished⟩
    · rw [hsame] at hseq
      rcases moves.published with hkept | hpublished
      · rw [hkept]
        exact h.acknowledged _ seq rfl hseq
      · have hlt := h.memory seq hseq
        exact ⟨_, s.state.manifest.lastSeq, hpublished, rfl, by omega⟩
    · rw [hnew] at hseq
      rw [← Option.some.inj hseq]
      exact ⟨_, s.state.manifest.lastSeq, hpublished, rfl, Nat.le_refl _⟩
  · obtain ⟨seq, hseq, hle⟩ := h.flushed other hother
    rcases moves.durable with hsame | ⟨hnew, -⟩
    · exact ⟨seq, hsame.trans hseq, hle⟩
    · have hlt := h.memory seq hseq
      exact ⟨s.state.manifest.lastSeq, hnew, by omega⟩

theorem create_backed {base : Bytes} {volume : Volume}
    (created : sink.create sessionId format base volume = .ok first) : sink.Backed [] first := by
  have hbegun := create_begun created
  refine ⟨fun seq hseq => ?_, fun seq hseq => ?_, fun manifest seq hmanifest hseq => ?_, ?_⟩
  · rw [hbegun.disk] at hseq
    exact absurd hseq (List.not_mem_nil)
  · rw [hbegun.undurable] at hseq
    exact absurd hseq (by simp)
  · rw [← Option.some.inj hmanifest, hbegun.undurable] at hseq
    exact absurd hseq (by simp)
  · exact fun request h => absurd h (List.not_mem_nil)

theorem emit_run_ok
    (ran : (sink.emit oracle event).run s = (.ok (), s')) : s'.accepted = s.accepted ++ [event] := by
  have hemit : Triple (fun v => v = s) (sink.emit oracle event) _
      (EmitFails oracle sink event (fun _ => True) s) :=
    emit_triple (fun _ _ => guards_true) fun _ _ => trivial
  have hends := hemit s rfl
  rw [ran] at hends
  exact hends.1.accepted

theorem emit_run_error (never : oracle.horizon = none) {failure : SinkError}
    (ran : (sink.emit oracle event).run s = (.error failure, s')) : s'.accepted = s.accepted := by
  have hemit : Triple (fun v => v = s) (sink.emit oracle event) _
      (EmitFails oracle sink event (fun _ => True) s) :=
    emit_triple (fun _ _ => guards_true) fun _ _ => trivial
  have hends := hemit s rfl
  rw [ran] at hends
  change EmitFails oracle sink event (fun _ => True) s s' at hends
  cases hends with
  | refused => rfl
  | broken untouched failed => exact untouched.accepted
  | seen accepts holds cut => exact absurd never cut

theorem Led.coordinated_emit (led : sink.Led oracle sessionId first trace s)
    (spoken : Spoken sessionId trace) (awaiting : Awaiting (.emitting event) trace) :
    Coordinated sessionId s (.emit event) := by
  obtain ⟨⟨hversion, hsession⟩, hseq⟩ := spoken.emits awaiting
  rw [← led.accepted] at hseq
  exact ⟨hseq, hversion, hsession⟩

theorem Led.coordinated_flush (led : sink.Led oracle sessionId first trace s)
    (spoken : Spoken sessionId trace) (awaiting : Awaiting (.flushing request) trace) :
    Coordinated sessionId s (.flushSession source request) := by
  obtain ⟨-, event, hevent, -⟩ := spoken.flushes awaiting
  show s.accepted ≠ []
  rw [led.accepted]
  intro hnil
  rw [hnil] at hevent
  exact absurd hevent (by simp)

section
variable {base : Bytes} {volume : Volume} (never : oracle.horizon = none)
  (created : sink.create sessionId format base volume = .ok first)
include never created

theorem Led.kept (led : sink.Led oracle sessionId first trace s) :
    sink.Kept sessionId format first s := led.reached.kept never created fun _ _ h => h

theorem Led.buffer (led : sink.Led oracle sessionId first trace s) :
    s.state.failed = none → s.disk.buffer = [] :=
  fun h => ((led.kept never created).holds h).buffer

theorem Led.flush_backed (led : sink.Led oracle sessionId first trace s)
    (spoken : Spoken sessionId trace) (awaiting : Awaiting (.flushing request) trace)
    (run : ((sink.flushSession seen source request).run s).2 = u) : sink.Backed trace u := by
  have hmoves := flush_moves (led.buffer never created) run
  refine led.backed.flush hmoves ?_ (spoken.flushes awaiting)
  rw [← led.accepted]
  have hcoordinated : Coordinated sessionId s (.flushSession source request) :=
    led.coordinated_flush spoken awaiting
  exact (led.kept never created).numbering.last hcoordinated

theorem Led.flushed (led : sink.Led oracle sessionId first trace s) (spoken : Spoken sessionId trace)
    (awaiting : Awaiting (.flushing request) trace)
    (run : ((sink.flushSession oracle source request).run s).2 = u) :
    sink.Led oracle sessionId first trace u := by
  have hcoordinated : Coordinated sessionId s (.flushSession source request) :=
    led.coordinated_flush spoken awaiting
  have hmoves := flush_moves (led.buffer never created) run
  refine ⟨?_, hmoves.accepted.trans led.accepted, led.flush_backed never created spoken awaiting run⟩
  rw [← run]
  exact .called (.flushSession source request) led.reached hcoordinated

theorem Drives.led (driven : Drives sink oracle first trace s) (spoken : Spoken sessionId trace) :
    sink.Led oracle sessionId first trace s := by
  induction driven with
  | start => exact ⟨.created, (create_begun created).accepted, create_backed created⟩
  | @accepted trace s s' event driven ran ih =>
    have hspoken := spoken.of_prefix (List.prefix_append _ _)
    have hled := ih hspoken
    have hawaiting := spoken.answered trace (.accepted event) [] rfl event (Or.inl rfl)
    have hrun : ((sink.emit oracle event).run s).2 = s' := congrArg Prod.snd ran
    refine ⟨?_, ?_, (hled.backed.emit (emit_moves hrun)).accept⟩
    · rw [← hrun]
      exact .called (.emit event) hled.reached (hled.coordinated_emit hspoken hawaiting)
    · rw [emit_run_ok ran, hled.accepted]
      exact (acceptedEvents_append trace [.accepted event]).symm
  | @refused trace s s' event failure driven ran ih =>
    have hspoken := spoken.of_prefix (List.prefix_append _ _)
    have hled := ih hspoken
    have hawaiting := spoken.answered trace (.refused event) [] rfl event (Or.inr rfl)
    have hrun : ((sink.emit oracle event).run s).2 = s' := congrArg Prod.snd ran
    refine ⟨?_, ?_, (hled.backed.emit (emit_moves hrun)).log (by simp) (by simp)⟩
    · rw [← hrun]
      exact .called (.emit event) hled.reached (hled.coordinated_emit hspoken hawaiting)
    · -- a refused event is not accepted
      rw [emit_run_error never ran, hled.accepted]
      exact (acceptedEvents_snoc (by simp)).symm
  | @flushed trace s s' source request driven ran ih =>
    have hspoken := spoken.of_prefix (List.prefix_append _ _)
    have hawaiting := spoken.awaited trace (.flushed request) [] rfl request (Or.inl rfl)
    have hrun : ((sink.flushSession oracle source request).run s).2 = s' := congrArg Prod.snd ran
    have hled := (ih hspoken).flushed never created hspoken hawaiting hrun
    refine ⟨hled.reached, hled.accepted.trans ?_, hled.backed.log (by simp) ?_⟩
    · exact (acceptedEvents_snoc (by simp)).symm
    · intro other hother
      have hreturned : ((sink.flushSession oracle source request).run s).1 = .ok () :=
        congrArg Prod.fst ran
      -- the watermark is the last number of the request
      obtain ⟨stats, hstate⟩ := (flush_publishes ((ih hspoken).buffer never created) hreturned).state
      rw [hrun] at hstate
      rw [hstate, Label.flushed.inj hother]
      exact ⟨other.lastSeq, rfl, Nat.le_refl _⟩
  | @flushFailed trace s s' source request failure driven ran ih =>
    have hspoken := spoken.of_prefix (List.prefix_append _ _)
    have hawaiting := spoken.awaited trace (.flushFailed request) [] rfl request (Or.inr rfl)
    have hrun : ((sink.flushSession oracle source request).run s).2 = s' := congrArg Prod.snd ran
    have hled := (ih hspoken).flushed never created hspoken hawaiting hrun
    refine ⟨hled.reached, hled.accepted.trans ?_, hled.backed.log (by simp) (by simp)⟩
    exact (acceptedEvents_snoc (by simp)).symm
  | @silent trace s label silent driven ih =>
    have hled := ih (spoken.of_prefix (List.prefix_append _ _))
    refine ⟨hled.reached, hled.accepted.trans ?_, ?_⟩
    · exact (acceptedEvents_snoc (Label.silent_accepts silent)).symm
    · exact hled.backed.log (Label.silent_accepts silent) fun request hrequest =>
        absurd hrequest (Label.silent_flushes silent request)

end

/-- In every run of a coordinator over the local sink, the sink is only called as it counts on:
events come with the next number, the schema version and the session, no flush comes before the
first event, and the number that a flush names is always the one that the spool has last. -/
theorem coordinator_calls_as_counted_on (sink : DirectorySessionSink) (oracle : IoOracle)
    (env : Environment) (config : Config) (recorder : JjRecorder) (commands : List Command)
    (format : FormatMetadata) (base : Bytes) (volume : Volume) (first s : LocalSession)
    (never : oracle.horizon = none)
    (created : sink.create config.sessionId format base volume = .ok first)
    (driven : Drives sink oracle first (reached env config recorder commands).trace s) :
    let trace := (reached env config recorder commands).trace
    Reached sink oracle (Coordinated config.sessionId) first s ∧ s.accepted = acceptedEvents trace ∧
      (∀ event, Awaiting (.emitting event) trace → Coordinated config.sessionId s (.emit event)) ∧
      ∀ source request, Awaiting (.flushing request) trace →
        Coordinated config.sessionId s (.flushSession source request) ∧
          checkLastSeq request s.state.manifest = .ok () := by
  intro trace
  have hspoken := reached_spoken env config recorder commands
  have hled := driven.led never created hspoken
  refine ⟨hled.reached, hled.accepted, fun event => hled.coordinated_emit hspoken, ?_⟩
  intro source request hawaiting
  have hcoordinated : Coordinated config.sessionId s (.flushSession source request) :=
    hled.coordinated_flush hspoken hawaiting
  refine ⟨hcoordinated, ?_⟩
  obtain ⟨-, event, hevent, hseq, -⟩ := hspoken.flushes hawaiting
  have hlast := (hled.kept never created).numbering.last hcoordinated
  rw [← hled.accepted, List.getLast?_eq_getElem?] at hevent
  have hnumber := (hled.kept never created).numbering.recorded _ event hevent
  apply if_pos
  omega

theorem open_published {session : Session}
    (opened : Session.open sink.serde.events sink.serde.manifests s.disk.volume.tree [] = .ok session) :
    sink.published s = some session.manifest := by
  obtain ⟨bytes, hentry, hread⟩ := (Session.open_opened opened).manifest
  unfold published readManifest
  rw [List.nil_append] at hentry
  simp only [hentry, hread, Except.toOption]

structure Shown (sink : DirectorySessionSink) (sessionId : String) (first : LocalSession)
    (trace : List Label) (u : LocalSession) : Prop where
  visible : Visible sink.serde.manifests u.disk.shape
  objects : sink.Objects first u.accepted u.disk.shape
  recorded : Recorded sessionId u.accepted
  backed : sink.Backed trace u
  accepted : acceptedEvents trace <+: u.accepted

theorem create_sound
    (compatible : format.sessionFormat = sessionFormatVersion ∧ format.schemaVersion = schemaVersion)
    {base : Bytes} (created : sink.create sessionId format base .empty = .ok first) :
    Sound sink.serde.manifests first.state.manifest first.disk.shape := by
  have hbegun := create_begun created
  have hvolume : first.disk.volume = .empty := by rw [hbegun.disk]
  refine ⟨?_, ?_, ?_, ?_⟩
  · intro e he
    have hnone : first.disk.volume.tree.entry ["manifest.json"] = none := by
      rw [hvolume]
      exact FileTree.entry_empty.trans (if_neg (by simp))
    exact absurd (he.symm.trans hnone) (by simp)
  · intro seq volume hmem
    change _ ∈ first.disk.trace at hmem
    rw [hbegun.disk] at hmem
    exact absurd hmem List.not_mem_nil
  · unfold SessionManifest.isCompatible
    rw [hbegun.format, compatible.1, compatible.2]
    rfl
  · intro seq hseq
    rw [hbegun.undurable] at hseq
    exact absurd hseq (by simp)

section
variable (never : oracle.horizon = none)
  (compatible : format.sessionFormat = sessionFormatVersion ∧ format.schemaVersion = schemaVersion)
  (created : sink.create sessionId format [] .empty = .ok first)
include never compatible created

theorem Led.shown_call (led : sink.Led oracle sessionId first trace s) {call : SessionCall}
    (coordinated : Coordinated sessionId s call) (run : ((sink.call seen call).run s).2 = u)
    (backed : sink.Backed trace u) (accepted : acceptedEvents trace <+: u.accepted) :
    sink.Shown sessionId first trace u := by
  have hkept := led.kept never created
  have hbuffer := led.buffer never created
  have hsound := led.reached.sound never (create_holds created) (create_sound compatible created)
  subst run
  exact ⟨(call_sound call hbuffer hsound).visible,
    call_objects_hold call coordinated hkept.holds hkept.numbering hkept.objects,
    (call_numbering call coordinated hbuffer hkept.numbering).recorded, backed, accepted⟩

theorem Seen.shown (sees : sink.Seen seen trace s u) (led : sink.Led oracle sessionId first trace s)
    (spoken : Spoken sessionId trace) : sink.Shown sessionId first trace u := by
  cases sees with
  | still =>
    have hkept := led.kept never created
    have hsound := led.reached.sound never (create_holds created) (create_sound compatible created)
    refine ⟨hsound.visible, hkept.objects, hkept.numbering.recorded, led.backed, ?_⟩
    rw [led.accepted]
  | emitting event awaiting =>
    have hmoves := @emit_moves seen sink s _ event rfl
    refine led.shown_call never compatible created (led.coordinated_emit spoken awaiting) rfl
      (led.backed.emit hmoves) ?_
    rw [← led.accepted]
    rcases hmoves.accepted with hsame | hmore
    · rw [hsame]
    · rw [hmore]
      exact List.prefix_append _ _
  | flushing source request awaiting =>
    have hcoordinated : Coordinated sessionId s (.flushSession source request) :=
      led.coordinated_flush spoken awaiting
    refine led.shown_call never compatible created hcoordinated rfl
      (led.flush_backed never created spoken awaiting rfl) ?_
    rw [← led.accepted, (flush_moves (led.buffer never created) rfl).accepted]

end

/-- What is read of a running session: a beginning of its stream that ends with a flush. -/
structure Readable (trace : List Label) (session : Session) : Prop where
  events : session.timeline.events <+: acceptedEvents trace
  starts : ∃ event, session.timeline.events.head? = some event ∧ event.body.isStart = true
  ends : ∃ event request, session.timeline.events.getLast? = some event ∧
    .flushing request ∈ trace ∧ FlushEvent request event

theorem Shown.read (shown : sink.Shown sessionId first trace u)
    (objects : sink.serde.events.WritesObjects)
    (fresh : first.disk.volume = .empty ∧ first.disk.spool = []) (framed : Framed (acceptedEvents trace))
    (reads : ∀ event ∈ acceptedEvents trace, sink.serde.events.ReadsBack event) :
    let opened := Session.open sink.serde.events sink.serde.manifests u.disk.volume.tree []
    opened = .error .missingManifest ∨ opened = .error .notDurable ∨ ∃ session seq,
      opened = .ok session ∧ Readable trace session ∧ sink.published u = some session.manifest ∧
        session.manifest.durableSeq = some seq ∧
          session.timeline.events = (acceptedEvents trace).take (seq + 1) := by
  intro opened
  -- what is published was accepted in the trace
  have htake : ∀ seq, .copied seq ∈ u.disk.trace →
      u.accepted.take (seq + 1) = (acceptedEvents trace).take (seq + 1) := by
    intro seq hcopied
    obtain ⟨event, request, hevent, -⟩ := shown.backed.copies seq hcopied
    obtain ⟨hlt, -⟩ := List.getElem?_eq_some_iff.mp hevent
    obtain ⟨rest, hrest⟩ := shown.accepted
    rw [← hrest, List.take_append_of_le_length hlt]
  have hreads : ∀ seq, .copied seq ∈ u.disk.trace →
      ∀ event ∈ u.accepted.take (seq + 1), sink.serde.events.ReadsBack event := by
    intro seq hcopied event hevent
    rw [htake seq hcopied] at hevent
    exact reads event (List.mem_of_mem_take hevent)
  have hopen := open_sound objects shown.objects fresh shown.recorded hreads shown.visible
  refine hopen.imp_right (Or.imp_right ?_)
  rintro ⟨manifest, seq, hopened, hdurable, -, hcopied⟩
  obtain ⟨event, request, hevent, hmem, hflush⟩ := shown.backed.copies seq hcopied
  obtain ⟨hlt, -⟩ := List.getElem?_eq_some_iff.mp hevent
  rw [htake seq hcopied] at hopened
  refine ⟨_, seq, hopened, ⟨List.take_prefix _ _, ?_, ?_⟩, open_published hopened, hdurable, rfl⟩
  · have hne : acceptedEvents trace ≠ [] := by
      intro hnil
      rw [hnil] at hlt
      exact absurd hlt (by simp)
    obtain ⟨start, hhead, hstart⟩ := framed.starts hne
    refine ⟨start, ?_, hstart⟩
    rw [List.head?_take, if_neg (by simp), hhead]
  · refine ⟨event, request, ?_, hmem, hflush⟩
    rw [List.getLast?_take, if_neg (by simp), Nat.add_sub_cancel, hevent]
    rfl

def follow (sink : DirectorySessionSink) (oracle : IoOracle) (s : LocalSession) :
    Label → Option LocalSession
  | .accepted event =>
    match (sink.emit oracle event).run s with
    | (.ok (), s') => some s'
    | _ => none
  | .flushed request =>
    match (sink.flushSession oracle .done request).run s with
    | (.ok (), s') => some s'
    | _ => none
  | .refused _ | .flushFailed _ => none
  | _ => some s

theorem Drives.next {label : Label} (driven : Drives sink oracle first trace s)
    (h : follow sink oracle s label = some s') : Drives sink oracle first (trace ++ [label]) s' := by
  unfold DirectorySessionSink.follow at h
  split at h
  · next event =>
    split at h
    · next s' hran =>
      rw [← Option.some.inj h]
      exact driven.accepted event hran
    · exact absurd h (by simp)
  · next request =>
    split at h
    · next s' hran =>
      rw [← Option.some.inj h]
      exact driven.flushed .done request hran
    · exact absurd h (by simp)
  · exact absurd h (by simp)
  · exact absurd h (by simp)
  · next haccepted hflushed hrefused hfailed =>
    rw [← Option.some.inj h]
    refine driven.silent label ?_
    cases label with
    | accepted event => exact absurd rfl (haccepted event)
    | flushed request => exact absurd rfl (hflushed request)
    | refused event => exact absurd rfl (hrefused event)
    | flushFailed request => exact absurd rfl (hfailed request)
    | _ => rfl

theorem Drives.all {labels : List Label} (driven : Drives sink oracle first trace s)
    (h : labels.foldlM (follow sink oracle) s = some s') :
    Drives sink oracle first (trace ++ labels) s' := by
  induction labels generalizing trace s with
  | nil =>
    rw [← Option.some.inj h, List.append_nil]
    exact driven
  | cons label rest ih =>
    rw [List.foldlM_cons] at h
    obtain ⟨next, hnext, hrest⟩ := Option.bind_eq_some_iff.mp h
    have hall := ih (driven.next hnext) hrest
    rwa [List.append_assoc, List.singleton_append] at hall

def answeredRun : World :=
  reached ⟨DurableSessionSink.flushedTurn, 10⟩ exampleConfig exampleRecorder [.snap, .flush]

def flushedManifest : SessionManifest where
  sessionId := "s"
  format := exampleFormat
  lastSeq := 2
  lastOp := "op:a1"
  eventsObject := some "events/00000000000000000002.ndjson"
  durableSeq := some 2
  durableOp := some "op:a1"
  storage := none

def flushedManifestText : String := "\x7b\n  \"session_id\": \"s\",\n  \"format\": \x7b\n" ++
  "    \"session_format\": 1,\n    \"schema_version\": 0,\n    \"rrjj_version\": \"0.1.0\",\n" ++
  "    \"jj_lib_version\": \"0.43.0\",\n    \"jj_store_version\": \"jj-lib-0.43.0/git\"\n  \x7d,\n" ++
  "  \"last_seq\": 2,\n  \"last_op\": \"op:a1\",\n" ++
  "  \"events_object\": \"events/00000000000000000002.ndjson\",\n" ++
  "  \"durable_seq\": 2,\n  \"durable_op\": \"op:a1\"\n\x7d"

def flushedCursorText : String := "\x7b\n  \"delivered_seq\": 2,\n  \"delivered_op\": \"op:a1\",\n" ++
  "  \"checkpoint\": \"2222222222222222222222222222222222222222\"\n\x7d"

def drivenSink : DirectorySessionSink := ⟨"spool.ndjson", 1000, {
  events := DurableSessionSink.flushedSerde
  manifests := .ofTable [(flushedManifest, utf8 flushedManifestText)] (by simp)
  cursor := fun _ => .ok (utf8 flushedCursorText) }⟩

theorem drivenSink_created :
    drivenSink.create "s" exampleFormat [] .empty = .ok createdSession := rfl

def readCount (sink : DirectorySessionSink) (s : LocalSession) : ℕ :=
  match Session.open sink.serde.events sink.serde.manifests s.disk.volume.tree [] with
  | .ok session => session.timeline.events.length
  | .error _ => 0

theorem answeredRun_driven : (answeredRun.trace.foldlM (follow drivenSink calmDisk) createdSession).map
    (readCount drivenSink) = some 3 := by
  decide +kernel

theorem answeredRun_accepted : (acceptedEvents answeredRun.trace).length = 3 := by decide +kernel

theorem answeredRun_replied : ∃ before reply, answeredRun.trace = before ++ [.replied .flush reply] ∧
    reply.isOk = true := by
  have hlast : answeredRun.trace.getLast?.any Label.answersFlush = true := by decide +kernel
  rcases hlabel : answeredRun.trace.getLast? with _ | label
  · rw [hlabel] at hlast
    exact absurd hlast (by simp)
  rw [hlabel] at hlast
  obtain ⟨before, htrace⟩ := List.getLast?_eq_some_iff.mp hlabel
  cases label with
  | replied command reply =>
    cases command with
    | flush => exact ⟨before, reply, htrace, hlast⟩
    | _ => exact absurd hlast (by simp [Label.answersFlush])
  | _ => exact absurd hlast (by simp [Label.answersFlush])

theorem coordinator_calls_as_counted_on_flushed : ∃ s,
    Drives drivenSink calmDisk createdSession answeredRun.trace s ∧ s.accepted.length = 3 ∧
      Reached drivenSink calmDisk (Coordinated "s") createdSession s := by
  obtain ⟨s, hs, -⟩ := Option.map_eq_some_iff.mp answeredRun_driven
  have hdriven : Drives drivenSink calmDisk createdSession answeredRun.trace s := Drives.start.all hs
  obtain ⟨hreached, haccepted, -⟩ := coordinator_calls_as_counted_on drivenSink calmDisk _ exampleConfig
    exampleRecorder _ exampleFormat [] .empty createdSession s rfl drivenSink_created hdriven
  refine ⟨s, hdriven, ?_, hreached⟩
  rw [haccepted]
  exact answeredRun_accepted

end DirectorySessionSink
end Rrjj
