import Rrjj.Library.Trace
import Rrjj.Reader
import Rrjj.Core.Commands
import Rrjj.Core.Success

/-! The snapshot event retained after a failure: its sequence number, and the operation
that it publishes. A command that publishes an event of its own takes that number when it
finds the event retained with nothing pending; in every other run both are safe. -/

namespace Rrjj
open Library Library.Proc

theorem Emission.recorder {w : World} {event : Event} {f : Coordinator → Coordinator}
    (h : Emission w event f) (c : Coordinator) : (f c).recorder = c.recorder := by
  cases h <;> rfl

theorem Emission.seq {w : World} {event : Event} {f : Coordinator → Coordinator}
    (h : Emission w event f) (c : Coordinator) : (f c).seq = c.seq := by
  cases h <;> rfl

theorem Emission.delivered {w : World} {event : Event} {f : Coordinator → Coordinator}
    (h : Emission w event f) :
    (f { w.coordinator with seq := w.coordinator.seq + 1 }).pendingSnapshotEvent = none ∨
      Stranding w.trace := by
  cases h with
  | sessionStart _ _ _ _ quiet => exact Or.inl quiet.delivered
  | retained => exact Or.inl rfl
  | overflow _ _ _ delivered => exact Or.inl delivered
  | audit _ _ _ delivered => exact Or.inl delivered
  | snapshot => exact Or.inl rfl
  | mark _ _ _ settled => exact settled.delivered rfl
  | sessionEnd _ _ settled => exact settled.delivered rfl
  | flush _ _ publishes settled => exact settled.delivered publishes

theorem Step.stranding {w w' : World} (step : Step w w') (h : Stranding w.trace) :
    Stranding w'.trace := by
  obtain ⟨command, coordinator, audit, hmem, hrest⟩ := h
  exact ⟨command, coordinator, audit, step.trace_prefix.subset hmem, hrest⟩

/-- A retained event is a snapshot that carries the next sequence number, and no check of
sequence numbers has failed. -/
structure RetainsNext (w : World) : Prop where
  body : ∀ event, w.coordinator.pendingSnapshotEvent = some event →
    ∃ value, event.body = .snapshot value
  next : ∀ event, w.coordinator.pendingSnapshotEvent = some event → event.seq = w.coordinator.seq
  unchanged : .sequenceChanged ∉ w.trace

theorem RetainsNext.log {w : World} {label : Label} (h : RetainsNext w)
    (hl : label ≠ .sequenceChanged) : RetainsNext (w.log label) where
  body := h.body
  next := h.next
  unchanged := by
    intro hmem
    rcases List.mem_append.mp hmem with hmem | hmem
    · exact h.unchanged hmem
    · exact hl (List.mem_singleton.mp hmem).symm

theorem RetainsNext.of_none {w w' : World} {label : Label} (h : RetainsNext w)
    (hl : label ≠ .sequenceChanged) (trace : w'.trace = w.trace ++ [label])
    (none : w'.coordinator.pendingSnapshotEvent = none) : RetainsNext w' where
  body event hevent := absurd (none.symm.trans hevent) (by simp)
  next event hevent := absurd (none.symm.trans hevent) (by simp)
  unchanged := trace ▸ (h.log hl).unchanged

theorem Step.retainsNext {w w' : World} (h : RetainsNext w) (step : Step w w') :
    RetainsNext w' ∨ Stranding w'.trace := by
  cases step with
  | arrival call =>
    have hl : call.label ≠ .sequenceChanged := by cases call <;> simp [WatcherCall.label]
    exact Or.inl ⟨h.body, h.next, (h.log hl).unchanged⟩
  | tick => exact Or.inl ⟨h.body, h.next, h.unchanged⟩
  | drained =>
    refine Or.inl ⟨?_, ?_, (@RetainsNext.log w .drained h (by simp)).unchanged⟩
    · intro event hevent
      rw [World.drainAudit, Coordinator.absorb_pendingSnapshotEvent] at hevent
      exact h.body event hevent
    · intro event hevent
      rw [World.drainAudit, Coordinator.absorb_pendingSnapshotEvent] at hevent
      rw [World.drainAudit, Coordinator.absorb_seq]
      exact h.next event hevent
  | baseline fullScan checkpoint _ quiet =>
    exact Or.inl (h.of_none (by simp) rfl quiet.delivered)
  | captured fullScan checkpoint time =>
    refine Or.inl ⟨?_, ?_, (h.log (by simp)).unchanged⟩
    · intro event hevent
      rw [← Option.some.inj hevent]
      exact ⟨_, rfl⟩
    · intro event hevent
      rw [← Option.some.inj hevent]
      rfl
  | accepted event f _ _ emission =>
    rcases emission.delivered with hnone | hstranding
    · exact Or.inl (h.of_none (by simp) rfl hnone)
    · exact Or.inr (hstranding.snoc _)
  | sequenceChanged event retained changed => exact absurd (h.next event retained) changed
  | paused paused => exact Or.inl ⟨h.body, h.next, h.unchanged⟩
  | _ => exact Or.inl (h.log (by simp))

theorem Steps.retainsNext {w w' : World} (steps : Steps w w') (h : RetainsNext w) :
    RetainsNext w' ∨ Stranding w'.trace := by
  induction steps with
  | refl => exact Or.inl h
  | tail _ step ih =>
    rcases ih with hnext | hstranding
    · exact step.retainsNext hnext
    · exact Or.inr (step.stranding hstranding)

theorem retainsNext_start (config : Config) (recorder : JjRecorder) :
    RetainsNext (.start config recorder) where
  body event h := absurd h (by simp [World.start])
  next event h := absurd h (by simp [World.start])
  unchanged h := absurd h (by simp [World.start])

/-- From `w`, the next snapshot delivers `event` when the sink accepts it. -/
def DeliversRetained (w : World) (event : Event) : Prop :=
  ∀ env : Environment, w.clock < env.horizon → (env.answers w.clock).sink = .ok () →
    ∃ value w', event.body = .snapshot value ∧ (snapshot env).run w = (.ok value, w') ∧
      w'.trace.getLast? = some (.accepted event) ∧ w'.coordinator.pendingSnapshotEvent = none

theorem RetainsNext.delivers {w : World} {event : Event} (h : RetainsNext w)
    (retained : w.coordinator.pendingSnapshotEvent = some event) : DeliversRetained w event := by
  intro env hclock hsink
  obtain ⟨value, hbody⟩ := h.body event retained
  refine ⟨value, (w.sent env event).update Coordinator.retainedDelivered, hbody, ?_, ?_, rfl⟩
  · have hsent := emitExact_run (h.next event retained) hclock hsink
    unfold snapshot deliverRetained
    simp only [run_bind, run_get, retained, hbody, hsent]
    rfl
  · simp [World.sent, World.update, World.log]

/-- While no command finds a snapshot event stranded, a retained event keeps its sequence
number: the check of sequence numbers never fails, and the next snapshot delivers it. -/
theorem retained_event_is_delivered (env : Environment) (config : Config) (recorder : JjRecorder)
    (commands : List Command)
    (safe : ¬ Stranding (reached env config recorder commands).trace) :
    .sequenceChanged ∉ (reached env config recorder commands).trace ∧
      ∀ event, (reached env config recorder commands).coordinator.pendingSnapshotEvent = some event →
        event.seq = (reached env config recorder commands).coordinator.seq ∧
          DeliversRetained (reached env config recorder commands) event := by
  have hsteps := reached_steps env config recorder commands
  have h := (hsteps.retainsNext (retainsNext_start config recorder)).resolve_right safe
  exact ⟨h.unchanged, fun event hevent => ⟨h.next event hevent, h.delivers hevent⟩⟩

def refusingTurn : ℕ → Turn
  | 0 => { checkpoint := .ok ⟨"a0", "c0", "t0", []⟩ }
  | 4 => { checkpoint := .ok ⟨"a1", "c1", "t1", []⟩ }
  | 5 => { sink := .error (.failed "down") }
  | _ => {}

def exampleConfig : Config where
  sessionId := "s"
  watchedRoot := "/work"
  shadowRoot := "/shadow"
  ignore := []
  maxChangesPerEvent := 10
  rrjjVersion := "0.1.0"

def exampleRecorder : JjRecorder := ⟨"00", "t", none⟩

theorem retained_event_is_delivered_refused :
    .sequenceChanged ∉ (reached ⟨refusingTurn, 6⟩ exampleConfig exampleRecorder [.snap]).trace ∧
      ∀ event, (reached ⟨refusingTurn, 6⟩ exampleConfig exampleRecorder
          [.snap]).coordinator.pendingSnapshotEvent = some event →
        event.seq = (reached ⟨refusingTurn, 6⟩ exampleConfig exampleRecorder
            [.snap]).coordinator.seq ∧
          DeliversRetained (reached ⟨refusingTurn, 6⟩ exampleConfig exampleRecorder [.snap]) event :=
  retained_event_is_delivered _ _ _ _ (by decide)

/-- A mark taken up while the refused event is retained takes its sequence number. -/
theorem retained_event_overtaken :
    ¬ ∀ env config recorder commands event,
      (reached env config recorder commands).coordinator.pendingSnapshotEvent = some event →
        event.seq = (reached env config recorder commands).coordinator.seq := by
  intro h
  have hrun := h ⟨refusingTurn, 8⟩ exampleConfig exampleRecorder [.snap, .mark "m" []]
  have hretained : ((reached ⟨refusingTurn, 8⟩ exampleConfig exampleRecorder
      [.snap, .mark "m" []]).coordinator.pendingSnapshotEvent.map Event.seq) = some 1 := by decide
  have hseq : (reached ⟨refusingTurn, 8⟩ exampleConfig exampleRecorder
      [.snap, .mark "m" []]).coordinator.seq = 2 := by decide
  obtain ⟨event, hevent, hone⟩ := Option.map_eq_some_iff.mp hretained
  have := hrun event hevent
  omega

end Rrjj
