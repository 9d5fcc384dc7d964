import Rrjj.Core.Retention

/-! The operations that marks, flushes and the end of a session name are published: an
event accepted before says what they are. -/

namespace Rrjj
open Library Library.Proc

def acceptedEvents (trace : List Label) : List Event :=
  trace.filterMap fun label =>
    match label with
    | .accepted event => some event
    | _ => none

def publishedOps (trace : List Label) : List String :=
  (acceptedEvents trace).filterMap Event.published

def Label.namedOp : Label → Option String
  | .accepted event =>
    match event.body with
    | .mark value => some value.refOp
    | .flush value => some value.op
    | .sessionEnd value => some value.finalOp
    | _ => none
  | .flushing request => some request.lastOp
  | _ => none

def flushedTimeline (trace : List Label) (request : FlushRequest) : Timeline where
  events := (acceptedEvents trace).filter fun event => event.seq ≤ request.lastSeq

/-- Every operation that is named was published before, and each flush that succeeds leaves
a timeline in which its operation, the manifest's `durable_op`, can be inspected. -/
structure OperationsPublished (trace : List Label) : Prop where
  named : AtEvery (fun before label => ∀ op, label.namedOp = some op → op ∈ publishedOps before) trace
  inspectable : AtEvery (fun before label => ∀ request, label = .flushed request →
    ∃ info, (flushedTimeline before request).inspectOperation request.lastOp = .ok info ∧
      info.op = request.lastOp) trace

@[simp] theorem acceptedEvents_append (trace after : List Label) :
    acceptedEvents (trace ++ after) = acceptedEvents trace ++ acceptedEvents after := by
  rw [acceptedEvents, List.filterMap_append]
  rfl

theorem acceptedEvents_snoc {trace : List Label} {label : Label}
    (h : ∀ event, label ≠ .accepted event) : acceptedEvents (trace ++ [label]) = acceptedEvents trace := by
  rw [acceptedEvents_append]
  cases label with
  | accepted event => exact absurd rfl (h event)
  | _ => exact List.append_nil _

theorem mem_publishedOps {trace : List Label} {op : String} :
    op ∈ publishedOps trace ↔ ∃ event ∈ acceptedEvents trace, event.published = some op := by
  rw [publishedOps, List.mem_filterMap]

theorem publishedOps_subset {trace after : List Label} {op : String} (h : op ∈ publishedOps trace) :
    op ∈ publishedOps (trace ++ after) := by
  obtain ⟨event, hmem, hop⟩ := mem_publishedOps.mp h
  exact mem_publishedOps.mpr ⟨event, by simp [hmem], hop⟩

theorem acceptedEvents_arrivals {since : List Label} (h : ∀ l ∈ since, l.isArrival) :
    acceptedEvents since = [] := by
  rw [acceptedEvents, List.filterMap_eq_nil_iff]
  intro label hmem
  have hl := h label hmem
  cases label <;> first | rfl | exact absurd hl (by simp [Label.isArrival])

structure PublicationState (w : World) : Prop where
  begun : ∀ label ∈ w.trace, label.isBegan → Opened w.trace
  delivered : Opened w.trace → w.coordinator.pendingSnapshotEvent = none →
    w.coordinator.recorder.opId ∈ publishedOps w.trace
  retained : ∀ event, w.coordinator.pendingSnapshotEvent = some event →
    event.published = some w.coordinator.recorder.opId
  before : ∀ event ∈ acceptedEvents w.trace, event.seq < w.coordinator.seq
  through : AtEvery (fun before label => ∀ request, label = .flushing request →
    ∀ event ∈ acceptedEvents before, event.seq ≤ request.lastSeq) w.trace
  published : OperationsPublished w.trace

theorem PublicationState.settled {w : World} {command : Command} (h : PublicationState w)
    (settled : Settled command w) (publishes : command.publishes = true) :
    w.coordinator.recorder.opId ∈ publishedOps w.trace ∨ Stranding w.trace := by
  refine (settled.delivered publishes).imp_left fun hnone => h.delivered ?_ hnone
  obtain ⟨before, coordinator, audit, since, htrace, -, -⟩ := settled.underway
  exact h.begun (.began command coordinator audit) (by simp [htrace]) rfl

theorem PublicationState.frame {w w' : World} {label : Label} (h : PublicationState w)
    (trace : w'.trace = w.trace ++ [label]) (plain : acceptedEvents [label] = [])
    (seq : w'.coordinator.seq = w.coordinator.seq)
    (delivered : Opened w.trace → w'.coordinator.pendingSnapshotEvent = none →
      w'.coordinator.recorder.opId ∈ publishedOps w.trace)
    (retained : ∀ event, w'.coordinator.pendingSnapshotEvent = some event →
      event.published = some w'.coordinator.recorder.opId)
    (begun : label.isBegan → Opened w.trace)
    (named : ∀ op, label.namedOp = some op → op ∈ publishedOps w.trace)
    (through : ∀ request, label = .flushing request →
      ∀ event ∈ acceptedEvents w.trace, event.seq ≤ request.lastSeq)
    (inspectable : ∀ request, label = .flushed request →
      ∃ info, (flushedTimeline w.trace request).inspectOperation request.lastOp = .ok info ∧
        info.op = request.lastOp) : PublicationState w' where
  begun l hl hbegan := by
    rw [trace] at hl ⊢
    rcases List.mem_append.mp hl with hl | hl
    · exact (h.begun l hl hbegan).snoc _
    · rw [List.mem_singleton.mp hl] at hbegan
      exact (begun hbegan).snoc _
  delivered hopened hnone := by
    rw [trace] at hopened ⊢
    refine publishedOps_subset (delivered ?_ hnone)
    obtain ⟨event, value, hmem, hbody⟩ := hopened
    rcases List.mem_append.mp hmem with hmem | hmem
    · exact ⟨event, value, hmem, hbody⟩
    · rw [← List.mem_singleton.mp hmem] at plain
      exact absurd plain (by simp [acceptedEvents])
  retained := retained
  before event hevent := by
    rw [trace, acceptedEvents_append, plain, List.append_nil] at hevent
    rw [seq]
    exact h.before event hevent
  through := trace ▸ h.through.snoc through
  published := ⟨trace ▸ h.published.named.snoc named, trace ▸ h.published.inspectable.snoc inspectable⟩

theorem PublicationState.log {w w' : World} {label : Label} (h : PublicationState w)
    (trace : w'.trace = w.trace ++ [label]) (coordinator : w'.coordinator = w.coordinator)
    (plain : acceptedEvents [label] = []) (began : label.isBegan = false)
    (named : label.namedOp = none) (flushed : ∀ request, label ≠ .flushed request) :
    PublicationState w' := by
  refine h.frame trace plain (by rw [coordinator]) ?_ ?_ ?_ ?_ ?_ ?_
  · rw [coordinator]
    exact h.delivered
  · rw [coordinator]
    exact h.retained
  · intro hbegan
    exact absurd hbegan (by simp [began])
  · intro op hop
    exact absurd (named.symm.trans hop) (by simp)
  · rintro request rfl
    exact absurd named (by simp [Label.namedOp])
  · intro request hrequest
    exact absurd hrequest (flushed request)

theorem opened_snoc_accepted {trace : List Label} {event : Event}
    (h : Opened (trace ++ [.accepted event])) (other : ∀ value, event.body ≠ .sessionStart value) :
    Opened trace := by
  obtain ⟨first, value, hmem, hbody⟩ := h
  rcases List.mem_append.mp hmem with hmem | hmem
  · exact ⟨first, value, hmem, hbody⟩
  · obtain rfl := Label.accepted.inj (List.mem_singleton.mp hmem)
    exact absurd hbody (other value)

theorem PublicationState.operation {w : World} {event : Event} {f : Coordinator → Coordinator}
    (h : PublicationState w) (emission : Emission w event f)
    (opened : Opened (w.trace ++ [.accepted event])) :
    w.coordinator.recorder.opId ∈ publishedOps (w.trace ++ [.accepted event]) ∨
      Stranding w.trace := by
  have hpublished : event.published = some w.coordinator.recorder.opId →
      w.coordinator.recorder.opId ∈ publishedOps (w.trace ++ [.accepted event]) := by
    intro hop
    exact mem_publishedOps.mpr ⟨event, by simp [acceptedEvents], hop⟩
  cases emission with
  | sessionStart _ value _ baseline => exact Or.inl (hpublished (congrArg some baseline))
  | retained _ _ retained => exact Or.inl (hpublished (h.retained _ retained))
  | snapshot _ _ retained => exact Or.inl (hpublished (h.retained _ retained))
  | overflow _ _ _ delivered =>
    have hbefore := opened_snoc_accepted opened (by simp [overflowBody])
    exact Or.inl (publishedOps_subset (h.delivered hbefore delivered))
  | audit _ _ _ delivered =>
    have hbefore := opened_snoc_accepted opened (by simp [Coordinator.touchedPathsBody])
    exact Or.inl (publishedOps_subset (h.delivered hbefore delivered))
  | mark _ _ _ settled => exact (h.settled settled rfl).imp_left publishedOps_subset
  | sessionEnd _ _ settled => exact (h.settled settled rfl).imp_left publishedOps_subset
  | flush _ _ publishes settled => exact (h.settled settled publishes).imp_left publishedOps_subset

theorem PublicationState.named {w : World} {event : Event} {f : Coordinator → Coordinator}
    (h : PublicationState w) (emission : Emission w event f) :
    (∀ op, (Label.accepted event).namedOp = some op → op ∈ publishedOps w.trace) ∨
      Stranding w.trace := by
  have hnone : (Label.accepted event).namedOp = none →
      ∀ op, (Label.accepted event).namedOp = some op → op ∈ publishedOps w.trace := by
    intro hnone op hop
    exact absurd (hnone.symm.trans hop) (by simp)
  cases emission with
  | sessionStart => exact Or.inl (hnone rfl)
  | retained _ _ _ body => exact Or.inl (hnone (by simp only [Label.namedOp, body]))
  | snapshot _ _ _ body => exact Or.inl (hnone (by simp only [Label.namedOp, body]))
  | overflow => exact Or.inl (hnone rfl)
  | audit => exact Or.inl (hnone rfl)
  | mark _ _ _ settled =>
    refine (h.settled settled rfl).imp_left fun hop op heq => ?_
    exact Option.some.inj heq ▸ hop
  | sessionEnd _ _ settled =>
    refine (h.settled settled rfl).imp_left fun hop op heq => ?_
    exact Option.some.inj heq ▸ hop
  | flush _ _ publishes settled =>
    refine (h.settled settled publishes).imp_left fun hop op heq => ?_
    exact Option.some.inj heq ▸ hop

theorem PublicationState.accepted {w : World} {event : Event} {f : Coordinator → Coordinator}
    (h : PublicationState w) (next : event.seq = w.coordinator.seq)
    (emission : Emission w event f) :
    PublicationState (w.accept event f) ∨ Stranding (w.accept event f).trace := by
  by_cases hstranding : Stranding w.trace
  · exact Or.inr (hstranding.snoc _)
  have hnone := emission.delivered.resolve_right hstranding
  refine Or.inl ⟨?_, ?_, ?_, ?_, ?_, ?_, ?_⟩
  · intro label hmem hbegan
    rcases List.mem_append.mp hmem with hmem | hmem
    · exact (h.begun label hmem hbegan).snoc _
    · rw [List.mem_singleton.mp hmem] at hbegan
      exact absurd hbegan (by simp [Label.isBegan])
  · intro hopened _
    have hop := (h.operation emission hopened).resolve_right hstranding
    change (f _).recorder.opId ∈ _
    rw [emission.recorder]
    exact hop
  · intro retained hretained
    exact absurd (hnone.symm.trans hretained) (by simp)
  · intro earlier hmem
    change earlier.seq < (f _).seq
    rw [emission.seq]
    change earlier ∈ acceptedEvents (w.trace ++ [.accepted event]) at hmem
    rw [acceptedEvents_append, List.mem_append] at hmem
    rcases hmem with hmem | hmem
    · exact Nat.lt_succ_of_lt (h.before earlier hmem)
    · rw [List.mem_singleton.mp hmem, next]
      exact Nat.lt_succ_self _
  · exact h.through.snoc (by simp)
  · exact h.published.named.snoc ((h.named emission).resolve_right hstranding)
  · exact h.published.inspectable.snoc (by simp)

theorem PublicationState.inspectable {w : World} {request : FlushRequest} (h : PublicationState w)
    (awaiting : Awaiting (.flushing request) w.trace) :
    ∃ info, (flushedTimeline w.trace request).inspectOperation request.lastOp = .ok info ∧
      info.op = request.lastOp := by
  obtain ⟨before, since, htrace, hsince⟩ := awaiting
  rw [Timeline.inspectOperation_ok_iff]
  have hop := h.published.named before _ since htrace request.lastOp rfl
  have hthrough := h.through before _ since htrace request rfl
  obtain ⟨event, hmem, hpublished⟩ := mem_publishedOps.mp hop
  refine ⟨event, ?_, hpublished⟩
  rw [flushedTimeline, List.mem_filter, htrace]
  exact ⟨by simp [hmem], by simpa using hthrough event hmem⟩

theorem Step.publicationState {w w' : World} (h : PublicationState w) (step : Step w w') :
    PublicationState w' ∨ Stranding w'.trace := by
  cases step with
  | arrival call =>
    cases call <;> exact Or.inl (h.log rfl rfl rfl rfl rfl (by simp [WatcherCall.label]))
  | tick => exact Or.inl ⟨h.begun, h.delivered, h.retained, h.before, h.through, h.published⟩
  | paused => exact Or.inl ⟨h.begun, h.delivered, h.retained, h.before, h.through, h.published⟩
  | began command opened =>
    exact Or.inl (h.frame rfl rfl rfl h.delivered h.retained (fun _ => opened)
      (by simp [Label.namedOp]) (by simp) (by simp))
  | drained =>
    refine Or.inl (h.frame (show _ = w.trace ++ [.drained] from rfl) rfl ?_ ?_ ?_ (by simp [Label.isBegan])
      (by simp [Label.namedOp]) (by simp) (by simp))
    · simp [World.drainAudit]
    · simpa [World.drainAudit] using h.delivered
    · simpa [World.drainAudit] using h.retained
  | baseline fullScan checkpoint awaiting quiet closed =>
    refine Or.inl (h.frame rfl rfl rfl ?_ ?_ (by simp [Label.isBegan])
      (by simp [Label.namedOp]) (by simp) (by simp))
    · intro hopened
      exact absurd hopened closed
    · intro event hevent
      exact absurd (quiet.delivered.symm.trans hevent) (by simp)
  | captured fullScan checkpoint time awaiting quiet opened =>
    -- the captured event is retained until it is accepted
    refine Or.inl (h.frame rfl rfl rfl ?_ ?_ (by simp [Label.isBegan])
      (by simp [Label.namedOp]) (by simp) (by simp))
    · intro _ hnone
      exact absurd hnone (by simp [World.retain, World.update])
    · intro event hevent
      rw [← Option.some.inj hevent]
      rfl
  | accepted event f _ next emission => exact h.accepted next emission
  | flushing command publishes settled =>
    rcases h.settled settled publishes with hop | hstranding
    · refine Or.inl (h.frame rfl rfl rfl h.delivered h.retained (by simp [Label.isBegan])
        ?_ ?_ (by simp))
      · intro op heq
        exact Option.some.inj heq ▸ hop
      · intro request hrequest event hevent
        rw [← Label.flushing.inj hrequest]
        exact Nat.le_sub_one_of_lt (h.before event hevent)
    · -- the retained event was left behind
      exact Or.inr (hstranding.snoc _)
  | flushed request awaiting =>
    refine Or.inl (h.frame rfl rfl rfl h.delivered h.retained (by simp [Label.isBegan])
      (by simp [Label.namedOp]) (by simp) ?_)
    intro request' hrequest
    rw [← Label.flushed.inj hrequest]
    exact h.inspectable awaiting
  | _ => exact Or.inl (h.log rfl rfl rfl rfl rfl (by simp))

theorem Steps.publicationState {w w' : World} (steps : Steps w w') (h : PublicationState w) :
    PublicationState w' ∨ Stranding w'.trace := by
  induction steps with
  | refl => exact Or.inl h
  | tail _ step ih =>
    rcases ih with hpublication | hstranding
    · exact step.publicationState hpublication
    · exact Or.inr (step.stranding hstranding)

theorem publicationState_start (config : Config) (recorder : JjRecorder) :
    PublicationState (.start config recorder) where
  begun label h := absurd h (by simp [World.start])
  delivered h := absurd h (by simp [World.start, Opened])
  retained event h := absurd h (by simp [World.start])
  before event h := absurd h (by simp [World.start, acceptedEvents])
  through := atEvery_nil
  published := ⟨atEvery_nil, atEvery_nil⟩

/-- While no command finds a snapshot event stranded, the stream says what every operation
is that a mark, a flush or the end of the session names. -/
theorem named_operations_are_published (env : Environment) (config : Config)
    (recorder : JjRecorder) (commands : List Command)
    (safe : ¬ Stranding (reached env config recorder commands).trace) :
    OperationsPublished (reached env config recorder commands).trace := by
  have hsteps := reached_steps env config recorder commands
  exact ((hsteps.publicationState (publicationState_start config recorder)).resolve_right
    safe).published

/-- A run with a flush and the end of the session in which every call succeeds. -/
theorem named_operations_are_published_answered :
    OperationsPublished (reached ⟨fun _ => { checkpoint := .ok ⟨"a0", "c0", "t0", []⟩ }, 20⟩
      exampleConfig exampleRecorder [.flush, .shutdown "done"]).trace :=
  named_operations_are_published _ _ _ _ (by decide)

/-- A mark taken up while the refused event is retained names an operation that no event
published. -/
theorem mark_names_unpublished_operation :
    ¬ ∀ env config recorder commands,
      OperationsPublished (reached env config recorder commands).trace := by
  intro h
  have hnamed := (h ⟨refusingTurn, 8⟩ exampleConfig exampleRecorder [.snap, .mark "m" []]).named
  have hlast : ((reached ⟨refusingTurn, 8⟩ exampleConfig exampleRecorder
      [.snap, .mark "m" []]).trace.filterMap Label.namedOp) = ["op:a1"] := by decide
  have hops : publishedOps (reached ⟨refusingTurn, 8⟩ exampleConfig exampleRecorder
      [.snap, .mark "m" []]).trace = ["op:a0"] := by decide
  obtain ⟨label, hmem, hop⟩ : ∃ label ∈ (reached ⟨refusingTurn, 8⟩ exampleConfig exampleRecorder
      [.snap, .mark "m" []]).trace, label.namedOp = some "op:a1" := by
    rw [← List.mem_filterMap, hlast]
    exact List.mem_singleton_self _
  obtain ⟨before, after, htrace, hpublished⟩ := hnamed.mem hmem
  have := @publishedOps_subset _ (label :: after) _ (hpublished _ hop)
  rw [← htrace, hops] at this
  exact absurd this (by decide)

end Rrjj
