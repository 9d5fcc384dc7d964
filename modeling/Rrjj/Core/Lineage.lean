import Rrjj.Core.Grammar
import Rrjj.Core.Capture

/-! The checkpoint events of the stream: they report captures that followed one another, and
each capture is made on the one before. -/

namespace Rrjj
open Library Library.Proc

def capturedSnapshots (trace : List Label) : List Snapshot :=
  trace.filterMap fun label =>
    match label with
    | .captured snapshot => some snapshot
    | _ => none

@[simp] theorem capturedSnapshots_append (trace after : List Label) :
    capturedSnapshots (trace ++ after) = capturedSnapshots trace ++ capturedSnapshots after :=
  List.filterMap_append

theorem capturedSnapshots_snoc {trace : List Label} {label : Label}
    (h : ∀ snapshot, label ≠ .captured snapshot) :
    capturedSnapshots (trace ++ [label]) = capturedSnapshots trace := by
  rw [capturedSnapshots_append]
  cases label with
  | captured snapshot => exact absurd rfl (h snapshot)
  | _ => exact List.append_nil _

/-- What jj keeps: the parents and the tree of a commit, and the streams from tree to tree. -/
structure JjStore where
  commit : String → List String → MergedTree → Prop
  diff : MergedTree → MergedTree → List StreamEntry → Prop

structure Jj.Faithful (jj : Jj) (store : JjStore) : Prop where
  commit : ∀ parents tree commit, jj.writeCommit parents tree = .ok commit →
    store.commit commit parents tree
  diff : ∀ before after, store.diff before after (jj.diffStream before after)

def Label.endsCapture : Label → Bool
  | .captured _ | .captureFailed => true
  | _ => false

/-- The captures of a trace are those of a recorder that was at `first` before it and is at
the last state after it. None failed late. -/
inductive Replays (store : JjStore) (maxChanges : ℕ) (first : RecorderState) :
    List Label → RecorderState → Prop
  | start : Replays store maxChanges first [] first
  | captured {trace : List Label} {state ended : RecorderState} {jj : Jj} {fullScan : Bool}
      {snapshot : Snapshot} (replays : Replays store maxChanges first trace state)
      (faithful : jj.Faithful store)
      (run : (RecorderState.capture jj fullScan maxChanges).run state = (.ok snapshot, ended)) :
      Replays store maxChanges first (trace ++ [.captured snapshot]) ended
  | failed {trace : List Label} {state ended : RecorderState} {jj : Jj} {fullScan : Bool}
      {message : String} (replays : Replays store maxChanges first trace state)
      (early : ¬ RecorderState.FailsLate jj fullScan maxChanges state)
      (run : (RecorderState.capture jj fullScan maxChanges).run state = (.error message, ended)) :
      Replays store maxChanges first (trace ++ [.captureFailed]) ended
  | other {trace : List Label} {state : RecorderState} {label : Label}
      (replays : Replays store maxChanges first trace state) (other : label.endsCapture = false) :
      Replays store maxChanges first (trace ++ [label]) state

structure Linked (store : JjStore) (maxChanges : ℕ) (older newer : Snapshot) : Prop where
  op : newer.parentOp = older.op
  commit : ∃ parent commit tree, older.commit = "c:" ++ parent ∧ newer.commit = "c:" ++ commit ∧
    newer.tree = "t:" ++ tree ∧ store.commit commit [parent] ⟨[tree]⟩
  diff : ∃ before after stream, older.tree = "t:" ++ before ∧ newer.tree = "t:" ++ after ∧
    store.diff ⟨[before]⟩ ⟨[after]⟩ stream ∧
      projectStream stream maxChanges = .ok (newer.changes, newer.stats, newer.truncated)

namespace RecorderState

structure RefersTo (snapshot : Snapshot) (state : RecorderState) : Prop where
  op : snapshot.op = state.opId
  commit : ∃ commit, state.previousCommit = some commit ∧ snapshot.commit = "c:" ++ commit
  tree : ∃ tree, state.previousTree = ⟨[tree]⟩ ∧ snapshot.tree = "t:" ++ tree

theorem RefersTo.same {snapshot : Snapshot} {before after : RecorderState}
    (h : RefersTo snapshot before) (same : SameCheckpoint before after) :
    RefersTo snapshot after where
  op := h.op.trans (congrArg ("op:" ++ ·) same.repo).symm
  commit := by rw [same.commit]; exact h.commit
  tree := by rw [same.tree]; exact h.tree

theorem asResolved_ok {tree : MergedTree} {id : String} (h : tree.asResolved = .ok id) :
    tree = ⟨[id]⟩ := by
  unfold MergedTree.asResolved at h
  split at h
  · next other hids =>
    rw [← Except.ok.inj h, ← hids]
  · exact absurd h (by simp)

theorem capture_links {store : JjStore} {jj : Jj} {fullScan : Bool} {maxChanges : ℕ}
    {state ended : RecorderState} {snapshot : Snapshot} (faithful : jj.Faithful store)
    (run : (capture jj fullScan maxChanges).run state = (.ok snapshot, ended)) :
    RefersTo snapshot ended ∧
      ∀ older, RefersTo older state → Linked store maxChanges older snapshot := by
  rcases @capture_cases jj fullScan maxChanges state with ⟨message, herror, -⟩ | hcommitted
  · rw [run] at herror
    exact nomatch herror
  obtain ⟨tree, projection, commit, repo, treeId, committed, hended⟩ := hcommitted
  rw [run] at hended
  rcases hmove : moveOn jj repo with message | ⟨⟩
  · exact nomatch (hended.failed message hmove).1
  obtain ⟨hok, htree, hcommit⟩ := hended.returned hmove
  have hsnapshot : snapshot = snapshotFor state projection commit repo treeId := Outcome.ok.inj hok
  have hresolved := asResolved_ok committed.resolved
  subst hsnapshot
  constructor
  · have hop : "op:" ++ repo = ended.opId := congrArg ("op:" ++ ·) hended.moved.symm
    exact ⟨hop, ⟨commit, hcommit, rfl⟩, treeId, htree.trans hresolved, rfl⟩
  · intro older holder
    obtain ⟨parent, hparent, holderCommit⟩ := holder.commit
    obtain ⟨before, hbefore, holderTree⟩ := holder.tree
    have hgiven : state.parentCommit jj = parent := by
      rw [parentCommit, hparent, Option.getD_some]
    have hwritten := faithful.commit _ _ _ committed.written
    rw [hgiven, hresolved] at hwritten
    have hstream := faithful.diff state.previousTree tree
    have hprojected := committed.projected
    refine ⟨holder.op.symm, ?_, ?_⟩
    · exact ⟨parent, commit, treeId, holderCommit, rfl, rfl, hwritten⟩
    · refine ⟨before, treeId, _, holderTree, rfl, ?_, hprojected⟩
      rw [hbefore, hresolved] at hstream ⊢
      exact hstream

end RecorderState

theorem Replays.chained {store : JjStore} {maxChanges : ℕ} {first state : RecorderState}
    {trace : List Label} (h : Replays store maxChanges first trace state) :
    (capturedSnapshots trace).IsChain (Linked store maxChanges) ∧
      ∀ last ∈ (capturedSnapshots trace).getLast?, RecorderState.RefersTo last state := by
  induction h with
  | start => exact ⟨List.IsChain.nil, fun last hlast => nomatch hlast⟩
  | @captured trace state ended jj fullScan snapshot _ faithful run ih =>
    obtain ⟨hchain, hlast⟩ := ih
    obtain ⟨hrefers, hlinks⟩ := RecorderState.capture_links faithful run
    have hcaptured : capturedSnapshots (trace ++ [.captured snapshot]) =
        capturedSnapshots trace ++ [snapshot] := capturedSnapshots_append _ _
    rw [hcaptured]
    constructor
    · apply hchain.append (List.IsChain.singleton _)
      intro older holder newer hnewer
      obtain rfl := Option.some.inj hnewer
      exact hlinks older (hlast older holder)
    · intro last hlast
      rw [List.getLast?_concat] at hlast
      obtain rfl := Option.some.inj hlast
      exact hrefers
  | @failed trace state ended jj fullScan message _ early run ih =>
    have herror : ((RecorderState.capture jj fullScan maxChanges).run state).1 = .error message := by
      rw [run]
    have hsame := RecorderState.failed_same herror early
    rw [run] at hsame
    rw [capturedSnapshots_snoc (by simp)]
    exact ⟨ih.1, fun last hlast => (ih.2 last hlast).same hsame⟩
  | @other trace state label _ other ih =>
    have hcaptures : ∀ snapshot, label ≠ .captured snapshot := by
      rintro snapshot rfl
      exact nomatch other
    rw [capturedSnapshots_snoc hcaptures]
    exact ih

theorem Replays.others {store : JjStore} {maxChanges : ℕ} {first state : RecorderState}
    {trace after : List Label} (h : Replays store maxChanges first trace state)
    (others : ∀ label ∈ after, label.endsCapture = false) :
    Replays store maxChanges first (trace ++ after) state := by
  induction after generalizing trace with
  | nil => rwa [List.append_nil]
  | cons label after ih =>
    have hlabel := others label List.mem_cons_self
    rw [List.append_cons]
    exact ih (h.other hlabel) fun l hl => others l (List.mem_cons_of_mem label hl)

def checkpointEvents (events : List Event) : List Event :=
  events.filter fun event => event.body.isStart || event.isSnapshot

def snapshotsOf (events : List Event) : List Snapshot :=
  events.filterMap fun event =>
    match event.body with
    | .snapshot snapshot => some snapshot
    | _ => none

theorem checkpointEvents_append (events later : List Event) :
    checkpointEvents (events ++ later) = checkpointEvents events ++ checkpointEvents later :=
  List.filter_append events later

def Reports (baseline : Snapshot) (snapshots : List Snapshot) (events : List Event) : Prop :=
  ∃ start rest value, events = start :: rest ∧ start.body = .sessionStart value ∧
    value.baselineOp = baseline.op ∧ value.baselineTree = baseline.tree ∧
    rest.map Event.body = snapshots.map EventBody.snapshot

theorem Reports.snoc {baseline : Snapshot} {snapshots : List Snapshot} {events : List Event}
    (h : Reports baseline snapshots events) {event : Event} {snapshot : Snapshot}
    (body : event.body = .snapshot snapshot) :
    Reports baseline (snapshots ++ [snapshot]) (events ++ [event]) := by
  obtain ⟨start, rest, value, rfl, hstart, hop, htree, hrest⟩ := h
  refine ⟨start, rest ++ [event], value, rfl, hstart, hop, htree, ?_⟩
  rw [List.map_append, List.map_append, hrest, List.map_singleton, List.map_singleton, body]

/-- The checkpoint events report captures that follow one another, each made on the one before;
there is none that is missing and none that is reported twice. -/
def CheckpointChain (store : JjStore) (maxChanges : ℕ) (trace : List Label) : Prop :=
  checkpointEvents (acceptedEvents trace) = [] ∨
    ∃ baseline snapshots, Reports baseline snapshots (checkpointEvents (acceptedEvents trace)) ∧
      (baseline :: snapshots) <:+: capturedSnapshots trace ∧
      (baseline :: snapshots).IsChain (Linked store maxChanges)

def SaysBaseline (before : List Label) (label : Label) : Prop :=
  ¬ Opened before → ∀ event value, label = .accepted event → event.body = .sessionStart value →
    ∃ baseline ∈ (capturedSnapshots before).getLast?,
      value.baselineOp = baseline.op ∧ value.baselineTree = baseline.tree

structure Reported (w : World) : Prop where
  closed : ¬ Opened w.trace → checkpointEvents (acceptedEvents w.trace) = [] ∧
    w.coordinator.pendingSnapshotEvent = none
  opened : Opened w.trace → ∃ early baseline snapshots,
    capturedSnapshots w.trace = early ++ baseline :: snapshots ++
      snapshotsOf w.coordinator.pendingSnapshotEvent.toList ∧
    Reports baseline snapshots (checkpointEvents (acceptedEvents w.trace))

section
variable {w w' : World}

theorem Reported.frame (h : Reported w) (opened : Opened w'.trace ↔ Opened w.trace)
    (captured : capturedSnapshots w'.trace = capturedSnapshots w.trace)
    (accepted : checkpointEvents (acceptedEvents w'.trace) = checkpointEvents (acceptedEvents w.trace))
    (retained : w'.coordinator.pendingSnapshotEvent = w.coordinator.pendingSnapshotEvent) :
    Reported w' where
  closed hclosed := by
    rw [accepted, retained]
    exact h.closed fun hopened => hclosed (opened.mpr hopened)
  opened hopened := by
    rw [captured, accepted, retained]
    exact h.opened (opened.mp hopened)

theorem opened_log_iff {trace : List Label} {label : Label} (h : ∀ event, label ≠ .accepted event) :
    Opened (trace ++ [label]) ↔ Opened trace :=
  ⟨fun hopened => opened_of_snoc hopened h, fun hopened => hopened.snoc label⟩

theorem Reported.log {label : Label} (h : Reported w) (trace : w'.trace = w.trace ++ [label])
    (captures : ∀ snapshot, label ≠ .captured snapshot) (accepts : ∀ event, label ≠ .accepted event)
    (retained : w'.coordinator.pendingSnapshotEvent = w.coordinator.pendingSnapshotEvent) :
    Reported w' := by
  apply h.frame _ _ _ retained
  · rw [trace]
    exact opened_log_iff accepts
  · rw [trace, capturedSnapshots_snoc captures]
  · rw [trace, acceptedEvents_snoc accepts]

theorem Reported.plain (h : Reported w) {event : Event} {f : Coordinator → Coordinator}
    (start : ∀ value, event.body ≠ .sessionStart value)
    (plain : (event.body.isStart || event.isSnapshot) = false)
    (retained : (w.accept event f).coordinator.pendingSnapshotEvent =
      w.coordinator.pendingSnapshotEvent) : Reported (w.accept event f) := by
  apply h.frame _ _ _ retained
  · exact ⟨fun hopened => opened_snoc_accepted hopened start, fun hopened => hopened.snoc _⟩
  · exact capturedSnapshots_snoc (by simp)
  · have hevents : acceptedEvents (w.trace ++ [.accepted event]) = acceptedEvents w.trace ++ [event] :=
      acceptedEvents_append _ _
    have hnone : checkpointEvents [event] = [] := by
      unfold checkpointEvents
      rw [List.filter_singleton, plain]
      rfl
    rw [World.accept, hevents, checkpointEvents_append, hnone, List.append_nil]

theorem Reported.deliver (h : Reported w) {event : Event} {snapshot : Snapshot}
    {f : Coordinator → Coordinator} (retained : w.coordinator.pendingSnapshotEvent = some event)
    (body : event.body = .snapshot snapshot)
    (cleared : (w.accept event f).coordinator.pendingSnapshotEvent = none) :
    Reported (w.accept event f) := by
  have hopened : Opened w.trace := by
    by_contra hclosed
    exact nomatch retained.symm.trans (h.closed hclosed).2
  obtain ⟨early, baseline, snapshots, hcaptured, hreports⟩ := h.opened hopened
  have hpending : snapshotsOf w.coordinator.pendingSnapshotEvent.toList = [snapshot] := by
    rw [retained]
    simp only [snapshotsOf, Option.toList_some, List.filterMap_cons, body, List.filterMap_nil]
  have hevents : acceptedEvents (w.accept event f).trace = acceptedEvents w.trace ++ [event] :=
    acceptedEvents_append _ _
  have hcheckpoint : checkpointEvents [event] = [event] := by
    simp [checkpointEvents, Event.isSnapshot, body]
  constructor
  · exact fun hclosed => absurd (hopened.snoc _) hclosed
  · intro _
    refine ⟨early, baseline, snapshots ++ [snapshot], ?_, ?_⟩
    · have hsame : capturedSnapshots (w.accept event f).trace = capturedSnapshots w.trace :=
        capturedSnapshots_snoc (by simp)
      rw [hsame, hcaptured, hpending, cleared]
      simp [snapshotsOf]
    · rw [hevents, checkpointEvents_append, hcheckpoint]
      exact hreports.snoc body

theorem Reported.start (h : Reported w) {event : Event} {value : SessionStart}
    (body : event.body = .sessionStart value) (closed : ¬ Opened w.trace)
    (named : SaysBaseline w.trace (.accepted event)) : Reported (w.accept event id) := by
  obtain ⟨baseline, hbaseline, hop, htree⟩ := named closed event value rfl body
  obtain ⟨hnone, hretained⟩ := h.closed closed
  obtain ⟨early, hearly⟩ := List.getLast?_eq_some_iff.mp hbaseline
  have hevents : acceptedEvents (w.accept event id).trace = acceptedEvents w.trace ++ [event] :=
    acceptedEvents_append _ _
  have hcheckpoint : checkpointEvents [event] = [event] := by
    simp [checkpointEvents, EventBody.isStart, body]
  constructor
  · intro hclosed
    exact absurd ⟨event, value, List.mem_append_right _ (List.mem_singleton_self _), body⟩ hclosed
  · intro _
    refine ⟨early, baseline, [], ?_, event, [], value, ?_, body, hop, htree, rfl⟩
    · have hsame : capturedSnapshots (w.accept event id).trace = capturedSnapshots w.trace :=
        capturedSnapshots_snoc (by simp)
      have hpending : (w.accept event id).coordinator.pendingSnapshotEvent = none := hretained
      rw [hsame, hearly, hpending]
      simp [snapshotsOf]
    · rw [hevents, checkpointEvents_append, hnone, hcheckpoint, List.nil_append]

theorem Reported.accept (h : Reported w) {event : Event} {f : Coordinator → Coordinator}
    (emission : Emission w event f) (named : SaysBaseline w.trace (.accepted event)) :
    Reported (w.accept event f) := by
  cases emission with
  | sessionStart time value closed => exact h.start rfl closed named
  | retained event snapshot retained body => exact h.deliver retained body rfl
  | snapshot event snapshot retained body => exact h.deliver retained body rfl
  | _ => exact h.plain (by simp [Event.new, overflowBody, Coordinator.touchedPathsBody]) rfl rfl

theorem Step.reported (step : Step w w') (h : Reported w) (named : AtEvery SaysBaseline w'.trace) :
    Reported w' := by
  cases step with
  | arrival call =>
    have hplain : (∀ snapshot, call.label ≠ .captured snapshot) ∧
        ∀ event, call.label ≠ .accepted event := by
      cases call <;> simp [WatcherCall.label]
    exact h.log rfl hplain.1 hplain.2 rfl
  | tick => exact ⟨h.closed, h.opened⟩
  | drained =>
    exact h.log rfl (by simp) (by simp) (w.coordinator.absorb_pendingSnapshotEvent _)
  | baseline fullScan checkpoint _ _ closed =>
    have hsame := @opened_log_iff w.trace (.captured (w.coordinator.recorder.snapshotOf checkpoint
      w.coordinator.config.maxChangesPerEvent)) (by simp)
    constructor
    · intro hclosed
      rw [World.capture, acceptedEvents_snoc (by simp)]
      exact h.closed closed
    · exact fun hopened => absurd (hsame.mp hopened) closed
  | captured fullScan checkpoint time _ quiet opened =>
    constructor
    · exact fun hclosed => absurd (opened.snoc _) hclosed
    · intro _
      obtain ⟨early, baseline, snapshots, hcaptured, hreports⟩ := h.opened opened
      refine ⟨early, baseline, snapshots, ?_, ?_⟩
      · rw [quiet.delivered] at hcaptured
        rw [World.retain, World.update, World.capture, capturedSnapshots_append, hcaptured]
        simp [snapshotsOf, capturedSnapshots, World.snapshotEvent, Event.new]
      · rw [World.retain, World.update, World.capture, acceptedEvents_snoc (by simp)]
        exact hreports
  | accepted event f _ _ emission => exact h.accept emission (named _ _ [] rfl)
  | paused => exact ⟨h.closed, h.opened⟩
  | _ => exact h.log rfl (by simp) (by simp) rfl

theorem Steps.reported {config : Config} {recorder : JjRecorder}
    (steps : Steps (World.start config recorder) w) (named : AtEvery SaysBaseline w.trace) :
    Reported w := by
  induction steps with
  | refl =>
    constructor
    · exact fun _ => ⟨rfl, rfl⟩
    · exact fun ⟨_, _, hmem, _⟩ => absurd hmem (by simp [World.start])
  | tail _ step ih => exact step.reported (ih (named.of_prefix step.trace_prefix)) named

end

section
variable {env : Environment}

def opening (baseline : Snapshot) : Allowed where
  bodies
    | .sessionStart value => value.baselineOp == baseline.op && value.baselineTree == baseline.tree
    | _ => false
  captures := false
  flushes := false

theorem saysBaseline_other {before : List Label} {label : Label}
    (h : ∀ event, label ≠ .accepted event) : SaysBaseline before label :=
  fun _ event _ heq _ => absurd heq (h event)

theorem tolerates_opening (baseline : Snapshot) :
    Tolerates (opening baseline) fun trace => AtEvery SaysBaseline trace ∧
      (capturedSnapshots trace).getLast? = some baseline := by
  rintro trace label within ⟨hevery, hlast⟩
  have hcaptures : ∀ snapshot, label ≠ .captured snapshot := by
    rintro snapshot rfl
    exact nomatch within
  refine ⟨hevery.snoc ?_, ?_⟩
  · rintro - event value rfl hbody
    have hsame : (opening baseline).bodies event.body = true := within
    rw [hbody] at hsame
    obtain ⟨hop, htree⟩ := Bool.and_eq_true_iff.mp hsame
    exact ⟨baseline, hlast, eq_of_beq hop, eq_of_beq htree⟩
  · rw [capturedSnapshots_snoc hcaptures]
    exact hlast

theorem capture_last (fullScan : Bool) : Triple (fun _ => True) (capture env fullScan)
    (fun snapshot w => (capturedSnapshots w.trace).getLast? = some snapshot) fun _ => True := by
  refine Triple.after fun _ => Triple.after fun turn => ?_
  rcases turn.checkpoint with message | checkpoint
  · exact Triple.after fun _ => Triple.throw fun _ _ => True.intro
  · refine Triple.get fun u _ => Triple.after fun _ => ?_
    apply Triple.bind (Q := fun _ w => (capturedSnapshots w.trace).getLast? =
      some (u.coordinator.recorder.snapshotOf checkpoint u.coordinator.config.maxChangesPerEvent))
    · apply Triple.modify
      intro w _
      rw [World.log, capturedSnapshots_append]
      exact List.getLast?_concat
    · exact fun _ => Triple.pure fun _ h => h

theorem initializeCoordinator_baseline : Keeps (Shows (AtEvery SaysBaseline)) (initializeCoordinator env) := by
  have hquiet : Tolerates ⟨fun _ => false, true, false⟩ (AtEvery SaysBaseline) := by
    intro trace label within h
    refine h.snoc (saysBaseline_other ?_)
    rintro event rfl
    exact nomatch within
  have hcapture : Triple (Shows (AtEvery SaysBaseline)) (capture env true)
      (fun baseline w => AtEvery SaysBaseline w.trace ∧
        (capturedSnapshots w.trace).getLast? = some baseline) (Shows (AtEvery SaysBaseline)) := by
    have hkept := @capture_writes _ _ env hquiet rfl true
    have hlast := (@capture_last env true).pre fun (w : World) (_ : Shows (AtEvery SaysBaseline) w) =>
      True.intro
    exact (hkept.and hlast).conseq (fun _ h => h) (fun _ _ h => h) fun _ h => h.1
  refine hcapture.bind fun baseline => Triple.get fun u hu => ?_
  have hallows : ∀ value : SessionStart, value.baselineOp = baseline.op →
      value.baselineTree = baseline.tree → (opening baseline).bodies (.sessionStart value) = true := by
    intro value hop htree
    simp [opening, hop, htree]
  refine (emit_writes (tolerates_opening baseline) (hallows _ rfl rfl)).conseq ?_
    (fun _ _ h => h.1) fun _ h => h.1
  rintro s rfl
  exact hu

theorem reached_baseline (config : Config) (recorder : JjRecorder) (commands : List Command) :
    AtEvery SaysBaseline (reached env config recorder commands).trace := by
  set K : List Label → Prop := fun trace => Opened trace ∧ AtEvery SaysBaseline trace with hK
  have hsnoc : ∀ trace label, K trace → K (trace ++ [label]) := by
    rintro trace label ⟨hopened, hevery⟩
    exact ⟨hopened.snoc label, hevery.snoc fun hclosed => absurd hopened hclosed⟩
  have hopens : Triple (fun w => w = World.start config recorder) (initializeCoordinator env)
      (fun _ => Shows K) (Shows (AtEvery SaysBaseline)) := by
    have hsaid := (@initializeCoordinator_baseline env).pre
      fun (w : World) (hw : w = World.start config recorder) => by
        rw [hw]
        exact atEvery_nil
    have hstarted := @initializeCoordinator_spec env config recorder
    exact (hsaid.and hstarted).conseq (fun _ h => h) (fun _ _ h => ⟨h.2.2, h.1⟩) fun _ h => h.1
  have htolerates : Tolerates anything K := fun trace label _ h => hsnoc trace label h
  have hserves : ∀ command, Keeps (Shows K) (serve env command) := fun command =>
    serve_keeps htolerates command (fun _ _ trace => hsnoc trace _) fun _ trace => hsnoc trace _
  have hrun := run_keeps htolerates (fun _ _ _ trace => hsnoc trace _) hserves commands
  have hsession : Triple (fun w => w = World.start config recorder) (session env commands)
      (fun _ => Shows (AtEvery SaysBaseline)) (Shows (AtEvery SaysBaseline)) := by
    refine hopens.bind fun _ => ?_
    exact hrun.conseq (fun _ h => h) (fun _ _ h => h.2) fun _ h => h.2
  exact (hsession _ rfl).final

end

/-- Whatever the sink answers, the checkpoints of the stream are a chain. -/
theorem checkpoints_are_chained {store : JjStore} {env : Environment} {config : Config}
    {recorder : JjRecorder} {commands : List Command} {first last : RecorderState}
    (replays : Replays store config.maxChangesPerEvent first
      (reached env config recorder commands).trace last) :
    CheckpointChain store config.maxChangesPerEvent (reached env config recorder commands).trace := by
  have hsteps := reached_steps env config recorder commands
  have hreported := hsteps.reported (reached_baseline config recorder commands)
  by_cases hopened : Opened (reached env config recorder commands).trace
  · obtain ⟨early, baseline, snapshots, hcaptured, hreports⟩ := hreported.opened hopened
    have hinfix : (baseline :: snapshots) <:+:
        capturedSnapshots (reached env config recorder commands).trace := ⟨early, _, hcaptured.symm⟩
    have hchain := replays.chained.1
    rw [hcaptured] at hchain
    exact Or.inr ⟨baseline, snapshots, hreports, hinfix, hchain.left_of_append.right_of_append⟩
  · exact Or.inl (hreported.closed hopened).1

def retriedTurn : ℕ → Turn
  | 0 => { checkpoint := .ok ⟨"a0", "c0", "t0", [⟨"a", none, some (.file "x" false), some 1⟩]⟩ }
  | 4 =>
    let edited : DiffEntry := ⟨"a", some (.file "x" false), some (.file "y" false), some 2⟩
    { checkpoint := .ok ⟨"a1", "c1", "t1", [edited]⟩ }
  | 5 => { sink := .error (.failed "down") }
  | _ => {}

def historyCommit : List String → MergedTree → Except String String
  | ["00"], ⟨["t0"]⟩ => .ok "c0"
  | ["c0"], ⟨["t1"]⟩ => .ok "c1"
  | _, _ => .error "unknown tree"

def historyDiff : MergedTree → MergedTree → List StreamEntry
  | ⟨["t"]⟩, ⟨["t0"]⟩ =>
    [⟨"a", .ok (.resolved none, .resolved (some (.file "x" false))), some 1⟩]
  | ⟨["t0"]⟩, ⟨["t1"]⟩ =>
    [⟨"a", .ok (.resolved (some (.file "x" false)), .resolved (some (.file "y" false))), some 2⟩]
  | _, _ => []

def history : JjStore where
  commit commit parents tree := historyCommit parents tree = .ok commit
  diff before after stream := stream = historyDiff before after

def historyJj (operation tree : String) : Jj where
  rootCommitId := "00"
  newWorkingCopy _ _ := .ok ()
  startSnapshot := .ok ()
  snapshot := .ok ⟨[tree]⟩
  finishSnapshot _ := .ok ()
  diffStream := historyDiff
  writeCommit := historyCommit
  setWcCommit _ := .ok ()
  commitTransaction _ _ := .ok operation
  startMutation := .ok ()
  finishMutation _ := .ok ()

theorem historyJj_faithful (operation tree : String) : (historyJj operation tree).Faithful history :=
  ⟨fun _ _ _ h => h, fun _ _ => rfl⟩

def newRecorder : RecorderState := ⟨"00", ⟨0, "00"⟩, 0, ⟨["t"]⟩, none⟩

abbrev retriedRun : World := reached ⟨retriedTurn, 8⟩ exampleConfig exampleRecorder [.snap, .snap]

theorem retriedRun_replays : Replays history 10 newRecorder retriedRun.trace
    ⟨"a1", ⟨1, "a1"⟩, 1, ⟨["t1"]⟩, some "c1"⟩ := by
  have hbaseline : (RecorderState.capture (historyJj "a0" "t0") true 10).run newRecorder =
      (.ok (exampleRecorder.snapshotOf ⟨"a0", "c0", "t0",
        [⟨"a", none, some (.file "x" false), some 1⟩]⟩ 10),
        ⟨"a0", ⟨1, "a0"⟩, 1, ⟨["t0"]⟩, some "c0"⟩) := rfl
  have hedited : (RecorderState.capture (historyJj "a1" "t1") false 10).run
      ⟨"a0", ⟨1, "a0"⟩, 1, ⟨["t0"]⟩, some "c0"⟩ =
      (.ok (JjRecorder.snapshotOf ⟨"a0", "t0", some "c0"⟩ ⟨"a1", "c1", "t1",
        [⟨"a", some (.file "x" false), some (.file "y" false), some 2⟩]⟩ 10),
        ⟨"a1", ⟨1, "a1"⟩, 1, ⟨["t1"]⟩, some "c1"⟩) := rfl
  have hstart : Replays history 10 newRecorder [.capturing true] newRecorder :=
    @Replays.others _ _ _ _ [] [.capturing true] .start (by decide)
  have hfirst := hstart.captured (historyJj_faithful "a0" "t0") hbaseline
  have hbetween := @Replays.others _ _ _ _ _ ((retriedRun.trace.drop 2).take 5) hfirst (by decide +kernel)
  have hsecond := hbetween.captured (historyJj_faithful "a1" "t1") hedited
  exact @Replays.others _ _ _ _ _ (retriedRun.trace.drop 8) hsecond (by decide +kernel)

/-- The refused event is retried, and reported once. -/
theorem retried_checkpoints_are_chained : CheckpointChain history 10 retriedRun.trace :=
  checkpoints_are_chained retriedRun_replays

end Rrjj
