import Rrjj.Core.Coordinator

/-! The atomic actions a coordinator's run is made of. Each constructor of `Step` says what
one action does and all that the coordinator's control flow guarantees when it happens, so
that an invariant of every run is checked against these actions alone. -/

namespace Rrjj

def Label.isArrival : Label → Bool
  | .observed _ _ | .overflowed _ _ => true
  | _ => false

def Label.isCall : Label → Bool
  | .emitting _ | .capturing _ => true
  | label => label.isArrival

def Label.isBegan : Label → Bool
  | .began _ _ _ => true
  | _ => false

/-- The call `label` has been made and nothing but the watcher has acted since. -/
def Awaiting (label : Label) (trace : List Label) : Prop :=
  ∃ before since, trace = before ++ label :: since ∧ ∀ l ∈ since, l.isArrival

def Underway (command : Command) (trace : List Label) : Prop :=
  ∃ before coordinator audit since,
    trace = before ++ .began command coordinator audit :: since ∧
      .drained ∈ since ∧ ∀ l ∈ since, l.isBegan = false

def Opened (trace : List Label) : Prop :=
  ∃ event value, .accepted event ∈ trace ∧ event.body = .sessionStart value

def Command.publishes : Command → Bool
  | .mark _ _ | .flush | .shutdown _ => true
  | _ => false

def OwnEvent : Command → EventBody → Prop
  | .mark label «meta», body => ∃ op, body = .mark ⟨label, «meta», op⟩
  | .flush, body => ∃ value, body = .flush value
  | .shutdown reason, body => ∃ op snapshots events, body = .sessionEnd ⟨op, reason, snapshots, events⟩
  | _, _ => False

def Strands (coordinator : Coordinator) (audit : AuditState) : Prop :=
  coordinator.pendingSnapshotEvent ≠ none ∧ (coordinator.status audit).pendingSnapshot = false

/-- Some command that publishes was taken up while a snapshot event was stranded. -/
def Stranding (trace : List Label) : Prop :=
  ∃ command coordinator audit, .began command coordinator audit ∈ trace ∧
    command.publishes = true ∧ Strands coordinator audit

def Label.stranding : Label → Bool
  | .began command coordinator audit => command.publishes &&
      (coordinator.pendingSnapshotEvent.isSome && !(coordinator.status audit).pendingSnapshot)
  | _ => false

theorem stranding_iff {trace : List Label} :
    Stranding trace ↔ trace.any Label.stranding = true := by
  rw [List.any_eq_true]
  constructor
  · rintro ⟨command, coordinator, audit, hmem, hpublishes, hretained, hidle⟩
    refine ⟨_, hmem, ?_⟩
    simp [Label.stranding, hpublishes, hidle, Option.isSome_iff_ne_none, hretained]
  · rintro ⟨label, hmem, h⟩
    cases label with
    | began command coordinator audit =>
      simp only [Label.stranding, Bool.and_eq_true, Bool.not_eq_true'] at h
      exact ⟨command, coordinator, audit, hmem, h.1, Option.isSome_iff_ne_none.mp h.2.1, h.2.2⟩
    | _ => exact absurd h (by simp [Label.stranding])

instance (trace : List Label) : Decidable (Stranding trace) :=
  decidable_of_iff _ stranding_iff.symm

def OwnAccepted (command : Command) (trace : List Label) : Prop :=
  ∃ before coordinator audit served event since,
    trace = before ++ .began command coordinator audit :: (served ++ .accepted event :: since) ∧
      OwnEvent command event.body ∧
      (∀ l ∈ served, l.isBegan = false) ∧ ∀ l ∈ since, l.isBegan = false

structure Settled (command : Command) (w : World) : Prop where
  idle : w.coordinator.pendingSnapshot = false
  underway : Underway command w.trace
  delivered : command.publishes = true →
    w.coordinator.pendingSnapshotEvent = none ∨ Stranding w.trace

structure Quiet (coordinator : Coordinator) : Prop where
  delivered : coordinator.pendingSnapshotEvent = none
  overflows : coordinator.pendingOverflows = []
  audit : coordinator.auditStartedAt = none

inductive Emission (w : World) : Event → (Coordinator → Coordinator) → Prop
  | sessionStart (time : String) (value : SessionStart) (closed : ¬ Opened w.trace)
      (baseline : value.baselineOp = w.coordinator.recorder.opId)
      (quiet : Quiet w.coordinator) :
      Emission w (.new w.coordinator.config.sessionId w.coordinator.seq time (.sessionStart value))
        id
  | retained (event : Event) (snapshot : Snapshot)
      (retained : w.coordinator.pendingSnapshotEvent = some event)
      (body : event.body = .snapshot snapshot) :
      Emission w event Coordinator.retainedDelivered
  | overflow (time : String) (notice : OverflowNotice) (rest : List OverflowNotice)
      (delivered : w.coordinator.pendingSnapshotEvent = none)
      (first : w.coordinator.pendingOverflows = notice :: rest) :
      Emission w (.new w.coordinator.config.sessionId w.coordinator.seq time (overflowBody notice))
        fun coordinator =>
          { coordinator with pendingOverflows := coordinator.pendingOverflows.tail }
  | audit (time startedAt ended : String)
      (delivered : w.coordinator.pendingSnapshotEvent = none)
      (overflows : w.coordinator.pendingOverflows = [])
      (started : w.coordinator.auditStartedAt = some startedAt) :
      Emission w (.new w.coordinator.config.sessionId w.coordinator.seq time
        (w.coordinator.touchedPathsBody startedAt ended)) Coordinator.auditEmitted
  | snapshot (event : Event) (snapshot : Snapshot)
      (retained : w.coordinator.pendingSnapshotEvent = some event)
      (body : event.body = .snapshot snapshot)
      (overflows : w.coordinator.pendingOverflows = [])
      (audit : w.coordinator.auditStartedAt = none) :
      Emission w event Coordinator.snapshotDelivered
  | mark (time label : String) («meta» : List (String × String))
      (settled : Settled (.mark label «meta») w) :
      Emission w (.new w.coordinator.config.sessionId w.coordinator.seq time
        (.mark ⟨label, «meta», w.coordinator.recorder.opId⟩)) id
  | sessionEnd (time reason : String) (settled : Settled (.shutdown reason) w) :
      Emission w (.new w.coordinator.config.sessionId w.coordinator.seq time
        (.sessionEnd ⟨w.coordinator.recorder.opId, reason, w.coordinator.snapshots,
          w.coordinator.seq⟩)) id
  | flush (time : String) (command : Command) (publishes : command.publishes = true)
      (settled : Settled command w) :
      Emission w (.new w.coordinator.config.sessionId w.coordinator.seq time
        (.flush ⟨w.coordinator.recorder.opId, w.coordinator.seq⟩)) id

namespace World

def accept (w : World) (event : Event) (f : Coordinator → Coordinator) : World where
  coordinator := f { w.coordinator with seq := w.coordinator.seq + 1 }
  audit := w.audit
  clock := w.clock
  trace := w.trace ++ [.accepted event]

/-- The recorder has moved on to `checkpoint`. -/
def capture (w : World) (checkpoint : Checkpoint) : World where
  coordinator := { w.coordinator with recorder := .captured checkpoint }
  audit := w.audit
  clock := w.clock
  trace := w.trace ++ [.captured (w.coordinator.recorder.snapshotOf checkpoint
    w.coordinator.config.maxChangesPerEvent)]

def retain (w : World) (event : Event) : World :=
  w.update fun coordinator => { coordinator with pendingSnapshotEvent := some event }

def snapshotEvent (w : World) (checkpoint : Checkpoint) (time : String) : Event :=
  .new w.coordinator.config.sessionId w.coordinator.seq time
    (.snapshot (w.coordinator.recorder.snapshotOf checkpoint
      w.coordinator.config.maxChangesPerEvent))

end World

inductive Step : World → World → Prop
  | arrival (w : World) (call : WatcherCall) : Step w (w.record call)
  | tick (w : World) : Step w { w with clock := w.clock + 1 }
  | began (w : World) (command : Command) (opened : Opened w.trace) :
      Step w (w.log (.began command w.coordinator w.audit))
  | replied (w : World) (command : Command) (reply : Reply)
      (served : reply.isOk = true → command.publishes = true → OwnAccepted command w.trace)
      (resumed : reply.isOk = true → command = .resume → Settled command w) :
      Step w (w.log (.replied command reply))
  | drained (w : World) : Step w w.drainAudit
  | capturing (w : World) (fullScan : Bool) (quiet : Quiet w.coordinator)
      (scan : Opened w.trace → fullScan = w.coordinator.forceFullScan) :
      Step w (w.log (.capturing fullScan))
  | captureFailed (w : World) (fullScan : Bool) (awaiting : Awaiting (.capturing fullScan) w.trace) :
      Step w (w.log .captureFailed)
  | baseline (w : World) (fullScan : Bool) (checkpoint : Checkpoint)
      (awaiting : Awaiting (.capturing fullScan) w.trace) (quiet : Quiet w.coordinator)
      (closed : ¬ Opened w.trace) : Step w (w.capture checkpoint)
  | captured (w : World) (fullScan : Bool) (checkpoint : Checkpoint) (time : String)
      (awaiting : Awaiting (.capturing fullScan) w.trace) (quiet : Quiet w.coordinator)
      (opened : Opened w.trace) :
      Step w ((w.capture checkpoint).retain (w.snapshotEvent checkpoint time))
  | emitting (w : World) (event : Event) (next : event.seq = w.coordinator.seq) :
      Step w (w.log (.emitting event))
  | accepted (w : World) (event : Event) (f : Coordinator → Coordinator)
      (awaiting : Awaiting (.emitting event) w.trace) (next : event.seq = w.coordinator.seq)
      (emission : Emission w event f) : Step w (w.accept event f)
  | refused (w : World) (event : Event) (awaiting : Awaiting (.emitting event) w.trace) :
      Step w (w.log (.refused event))
  | sequenceChanged (w : World) (event : Event)
      (retained : w.coordinator.pendingSnapshotEvent = some event)
      (changed : event.seq ≠ w.coordinator.seq) : Step w (w.log .sequenceChanged)
  | flushing (w : World) (command : Command) (publishes : command.publishes = true)
      (settled : Settled command w) :
      Step w (w.log (.flushing
        { shadowRoot := w.coordinator.config.shadowRoot
          lastSeq := w.coordinator.seq - 1
          lastOp := w.coordinator.recorder.opId
          checkpoint := w.coordinator.recorder.commitId }))
  | flushed (w : World) (request : FlushRequest) (awaiting : Awaiting (.flushing request) w.trace) :
      Step w (w.log (.flushed request))
  | flushFailed (w : World) (request : FlushRequest)
      (awaiting : Awaiting (.flushing request) w.trace) :
      Step w (w.log (.flushFailed request))
  | paused (w : World) (paused : Bool) :
      Step w (w.update fun coordinator => { coordinator with paused := paused })

abbrev Steps : World → World → Prop := Relation.ReflTransGen Step

theorem awaiting_self (trace : List Label) (label : Label) :
    Awaiting label (trace ++ [label]) :=
  ⟨trace, [], rfl, by simp⟩

theorem Awaiting.snoc {label next : Label} {trace : List Label} (h : Awaiting label trace)
    (arrival : next.isArrival) : Awaiting label (trace ++ [next]) := by
  obtain ⟨before, since, rfl, hsince⟩ := h
  refine ⟨before, since ++ [next], by simp, ?_⟩
  intro l hl
  rcases List.mem_append.mp hl with hl | hl
  · exact hsince l hl
  · rw [List.mem_singleton.mp hl]
    exact arrival

theorem Underway.snoc {command : Command} {next : Label} {trace : List Label}
    (h : Underway command trace) (hn : next.isBegan = false) :
    Underway command (trace ++ [next]) := by
  obtain ⟨before, coordinator, audit, since, rfl, hdrained, hsince⟩ := h
  refine ⟨before, coordinator, audit, since ++ [next], by simp, by simp [hdrained], ?_⟩
  intro l hl
  rcases List.mem_append.mp hl with hl | hl
  · exact hsince l hl
  · rw [List.mem_singleton.mp hl]
    exact hn

theorem OwnAccepted.snoc {command : Command} {next : Label} {trace : List Label}
    (h : OwnAccepted command trace) (hn : next.isBegan = false) :
    OwnAccepted command (trace ++ [next]) := by
  obtain ⟨before, coordinator, audit, served, event, since, rfl, hown, hserved, hsince⟩ := h
  refine ⟨before, coordinator, audit, served, event, since ++ [next], by simp, hown, hserved, ?_⟩
  intro l hl
  rcases List.mem_append.mp hl with hl | hl
  · exact hsince l hl
  · rw [List.mem_singleton.mp hl]
    exact hn

theorem Underway.accepted {command : Command} {event : Event} {trace : List Label}
    (h : Underway command trace) (own : OwnEvent command event.body) :
    OwnAccepted command (trace ++ [.accepted event]) := by
  obtain ⟨before, coordinator, audit, since, rfl, _, hsince⟩ := h
  exact ⟨before, coordinator, audit, since, event, [], by simp, own, hsince, by simp⟩

theorem Opened.snoc {trace : List Label} (h : Opened trace) (next : Label) :
    Opened (trace ++ [next]) := by
  obtain ⟨event, value, hmem, hbody⟩ := h
  exact ⟨event, value, List.mem_append_left _ hmem, hbody⟩

theorem Stranding.snoc {trace : List Label} (h : Stranding trace) (next : Label) :
    Stranding (trace ++ [next]) := by
  obtain ⟨command, coordinator, audit, hmem, hrest⟩ := h
  exact ⟨command, coordinator, audit, List.mem_append_left _ hmem, hrest⟩

end Rrjj
