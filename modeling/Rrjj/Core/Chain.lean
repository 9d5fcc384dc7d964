import Rrjj.Core.Publication

/-! The chain of checkpoints: what each capture was given by the one before it, and that the
stream reports them all in their order. -/

namespace Rrjj
open Library Library.Proc

theorem Opened.accepted {trace : List Label} (h : Opened trace) : acceptedEvents trace ≠ [] := by
  obtain ⟨event, value, hmem, -⟩ := h
  have haccepted : event ∈ acceptedEvents trace := List.mem_filterMap.mpr ⟨_, hmem, rfl⟩
  exact List.ne_nil_of_mem haccepted

def capturedCommits (trace : List Label) : List String :=
  trace.filterMap fun label =>
    match label with
    | .captured snapshot => some snapshot.commit
    | _ => none

def snapshotCommits (events : List Event) : List String :=
  events.filterMap fun event =>
    match event.body with
    | .snapshot snapshot => some snapshot.commit
    | _ => none

def givenParent (recorder : JjRecorder) (trace : List Label) : Option String :=
  (capturedCommits trace).getLast?.or recorder.commitId

/-- jj's `new_commit` records the parent that it is given: `parent commit older` says that
`older` is a parent of `commit`. -/
def RecordsParents (parent : String → String → Prop) (recorder : JjRecorder)
    (trace : List Label) : Prop :=
  AtEvery (fun before label => ∀ snapshot older, label = .captured snapshot →
    givenParent recorder before = some older → parent snapshot.commit older) trace

section
variable {trace after : List Label} {parent : String → String → Prop} {recorder : JjRecorder}

@[simp] theorem capturedCommits_append :
    capturedCommits (trace ++ after) = capturedCommits trace ++ capturedCommits after :=
  List.filterMap_append

theorem capturedCommits_snoc {label : Label} (h : ∀ snapshot, label ≠ .captured snapshot) :
    capturedCommits (trace ++ [label]) = capturedCommits trace := by
  have hnone : capturedCommits [label] = [] := by
    cases label with
    | captured snapshot => exact absurd rfl (h snapshot)
    | _ => rfl
  rw [capturedCommits_append, hnone, List.append_nil]

theorem snapshotCommits_append (events later : List Event) :
    snapshotCommits (events ++ later) = snapshotCommits events ++ snapshotCommits later :=
  List.filterMap_append

end

structure Chained (parent : String → String → Prop) (recorder : JjRecorder) (w : World) : Prop where
  current : w.coordinator.recorder.commitId = givenParent recorder w.trace
  chain : ∀ commit ∈ capturedCommits w.trace, ∃ head, w.coordinator.recorder.commitId = some head ∧
    Relation.ReflTransGen parent head commit
  retained : ∀ event, w.coordinator.pendingSnapshotEvent = some event →
    snapshotCommits [event] ⊆ capturedCommits w.trace
  accepted : snapshotCommits (acceptedEvents w.trace) ⊆ capturedCommits w.trace
  flushes : AtEvery (fun before label => ∀ request, label = .flushing request →
    ∀ commit ∈ snapshotCommits (acceptedEvents before), ∃ head, request.checkpoint = some head ∧
      Relation.ReflTransGen parent head commit) w.trace

variable {parent : String → String → Prop} {recorder : JjRecorder} {w w' : World}

theorem Chained.log {label : Label} (h : Chained parent recorder w)
    (trace : w'.trace = w.trace ++ [label]) (same : w'.coordinator.recorder = w.coordinator.recorder)
    (retained : w'.coordinator.pendingSnapshotEvent = w.coordinator.pendingSnapshotEvent)
    (captures : ∀ snapshot, label ≠ .captured snapshot) (accepts : acceptedEvents [label] = [])
    (flushes : ∀ request, label = .flushing request →
      request.checkpoint = w.coordinator.recorder.commitId) : Chained parent recorder w' := by
  have hcaptured : capturedCommits w'.trace = capturedCommits w.trace := by
    rw [trace, capturedCommits_snoc captures]
  have haccepted : acceptedEvents w'.trace = acceptedEvents w.trace := by
    rw [trace, acceptedEvents_append, accepts, List.append_nil]
  refine ⟨?_, ?_, ?_, ?_, ?_⟩
  · rw [same, h.current, givenParent, givenParent, hcaptured]
  · rw [same, hcaptured]
    exact h.chain
  · rw [retained, hcaptured]
    exact h.retained
  · rw [haccepted, hcaptured]
    exact h.accepted
  · rw [trace]
    apply h.flushes.snoc
    intro request hrequest commit hcommit
    obtain ⟨head, hhead, hchain⟩ := h.chain commit (h.accepted hcommit)
    exact ⟨head, (flushes request hrequest).trans hhead, hchain⟩

theorem Chained.capture (h : Chained parent recorder w) {checkpoint : Checkpoint}
    (records : RecordsParents parent recorder (w.capture checkpoint).trace) :
    Chained parent recorder (w.capture checkpoint) := by
  have hcaptured : capturedCommits (w.capture checkpoint).trace =
      capturedCommits w.trace ++ ["c:" ++ checkpoint.commit] := by
    rw [World.capture, capturedCommits_append]
    rfl
  have haccepted : acceptedEvents (w.capture checkpoint).trace = acceptedEvents w.trace := by
    rw [World.capture, acceptedEvents_append]
    exact List.append_nil _
  have hsubset : capturedCommits w.trace ⊆ capturedCommits (w.capture checkpoint).trace := by
    rw [hcaptured]
    exact List.subset_append_left _ _
  refine ⟨?_, ?_, ?_, ?_, ?_⟩
  · rw [givenParent, hcaptured, List.getLast?_concat]
    rfl
  · intro commit hcommit
    refine ⟨"c:" ++ checkpoint.commit, rfl, ?_⟩
    rw [hcaptured, List.mem_append, List.mem_singleton] at hcommit
    rcases hcommit with hcommit | rfl
    · -- an older commit is reached through the parent that was given
      obtain ⟨head, hhead, hchain⟩ := h.chain commit hcommit
      have hparent := records w.trace _ [] rfl _ head rfl (h.current.symm.trans hhead)
      exact .head hparent hchain
    · exact .refl
  · intro event hevent
    exact List.Subset.trans (h.retained event hevent) hsubset
  · rw [haccepted]
    exact List.Subset.trans h.accepted hsubset
  · exact h.flushes.snoc fun request hrequest => absurd hrequest (by simp)

theorem Emission.snapshotCommits_subset {event : Event} {f : Coordinator → Coordinator}
    (emission : Emission w event f) (h : Chained parent recorder w) :
    snapshotCommits [event] ⊆ capturedCommits w.trace := by
  cases emission with
  | retained event snapshot retained => exact h.retained event retained
  | snapshot event snapshot retained => exact h.retained event retained
  | _ => exact List.nil_subset _

theorem Emission.retains {event : Event} {f : Coordinator → Coordinator}
    (emission : Emission w event f) {kept : Event}
    (h : (f { w.coordinator with seq := w.coordinator.seq + 1 }).pendingSnapshotEvent = some kept) :
    w.coordinator.pendingSnapshotEvent = some kept := by
  cases emission with
  | retained => exact absurd h (by simp [Coordinator.retainedDelivered])
  | snapshot => exact absurd h (by simp [Coordinator.snapshotDelivered])
  | _ => exact h

theorem Chained.accept (h : Chained parent recorder w) {event : Event}
    {f : Coordinator → Coordinator} (emission : Emission w event f) :
    Chained parent recorder (w.accept event f) := by
  have hcaptured : capturedCommits (w.accept event f).trace = capturedCommits w.trace :=
    capturedCommits_snoc (by simp)
  have hrecorder : (w.accept event f).coordinator.recorder = w.coordinator.recorder :=
    emission.recorder _
  have haccepted : acceptedEvents (w.accept event f).trace = acceptedEvents w.trace ++ [event] :=
    acceptedEvents_append _ _
  refine ⟨?_, ?_, ?_, ?_, ?_⟩
  · rw [hrecorder, h.current, givenParent, givenParent, hcaptured]
  · rw [hrecorder, hcaptured]
    exact h.chain
  · intro kept hkept
    rw [hcaptured]
    exact h.retained kept (emission.retains hkept)
  · rw [haccepted, snapshotCommits_append, hcaptured]
    exact List.append_subset.mpr ⟨h.accepted, emission.snapshotCommits_subset h⟩
  · exact h.flushes.snoc fun request hrequest => absurd hrequest (by simp)

theorem Step.chained (step : Step w w') (h : Chained parent recorder w)
    (records : RecordsParents parent recorder w'.trace) : Chained parent recorder w' := by
  cases step with
  | arrival call =>
    have hl : acceptedEvents [call.label] = [] ∧ (∀ snapshot, call.label ≠ .captured snapshot) ∧
        ∀ request, call.label ≠ .flushing request := by
      cases call <;> simp [WatcherCall.label, acceptedEvents]
    exact h.log rfl rfl rfl hl.2.1 hl.1 fun request hrequest => absurd hrequest (hl.2.2 request)
  | tick => exact ⟨h.current, h.chain, h.retained, h.accepted, h.flushes⟩
  | drained =>
    refine @Chained.log parent recorder w _ .drained h rfl ?_ ?_ (by simp) rfl (by simp)
    · exact w.coordinator.absorb_recorder _
    · exact w.coordinator.absorb_pendingSnapshotEvent _
  | baseline fullScan checkpoint => exact h.capture records
  | captured fullScan checkpoint time =>
    have hcaptured := h.capture records
    refine ⟨hcaptured.current, hcaptured.chain, ?_, hcaptured.accepted, hcaptured.flushes⟩
    intro event hevent
    rw [← Option.some.inj hevent]
    have hmem : "c:" ++ checkpoint.commit ∈ capturedCommits (w.capture checkpoint).trace := by
      rw [World.capture, capturedCommits_append]
      exact List.mem_append_right _ (List.mem_singleton_self _)
    exact List.cons_subset.mpr ⟨hmem, List.nil_subset _⟩
  | accepted event f _ _ emission => exact h.accept emission
  | flushing command publishes settled =>
    refine h.log rfl rfl rfl (by simp) rfl fun request hrequest => ?_
    rw [← Label.flushing.inj hrequest]
  | paused => exact ⟨h.current, h.chain, h.retained, h.accepted, h.flushes⟩
  | _ => exact h.log rfl rfl rfl (by simp) rfl (by simp)

theorem Steps.chained {config : Config} (steps : Steps (World.start config recorder) w)
    (records : RecordsParents parent recorder w.trace) : Chained parent recorder w := by
  induction steps with
  | refl =>
    refine ⟨?_, ?_, ?_, ?_, atEvery_nil⟩
    · rfl
    · exact fun commit hcommit => absurd hcommit (by simp [World.start, capturedCommits])
    · exact fun event hevent => absurd hevent (by simp [World.start])
    · exact List.nil_subset _
  | tail _ step ih => exact step.chained (ih (AtEvery.of_prefix records step.trace_prefix)) records

end Rrjj
