import Rrjj.Core.Recovery
import Rrjj.Core.Success
import Rrjj.Core.Retention

/-! How much audit is retained: paths are limited once and for all, overflow notices by the
window, and windows add up while the sink refuses them. -/

namespace Rrjj
open Library Library.Proc Std

def windows (trace : List Label) : ℕ :=
  trace.foldl (fun count label =>
    if label.isCaptured then 0 else if label.isDrained then count + 1 else count) 0

theorem windows_snoc (trace : List Label) (label : Label) : windows (trace ++ [label]) =
    if label.isCaptured then 0 else if label.isDrained then windows trace + 1 else windows trace := by
  unfold windows
  rw [List.foldl_append]
  rfl

theorem size_insert_found {map : AuditPaths} {path : String} {operations : Operations}
    (found : map[path]? = some operations) (new : Operations) :
    (map.insert path new).size = map.size := by
  have hmem : path ∈ map := by
    rw [TreeMap.mem_iff_isSome_getElem?, found]
    rfl
  rw [TreeMap.size_insert]
  exact if_pos hmem

structure AuditState.Limited (state : AuditState) : Prop where
  paths : state.paths.size ≤ maxAuditPaths
  overflows : state.overflows.length ≤ maxOverflowReports
  room : state.overflowReportsLimited = false → state.overflows.length < maxOverflowReports

theorem AuditState.touch_paths {state : AuditState} (touched : TouchedPath)
    (h : state.paths.size ≤ maxAuditPaths) : (state.touch touched).paths.size ≤ maxAuditPaths := by
  unfold AuditState.touch
  split
  · next operations hfound =>
    exact (size_insert_found hfound _).trans_le h
  split_ifs with hroom
  · exact TreeMap.size_insert_le.trans hroom
  · exact h
  · exact h

theorem AuditState.foldl_touch_paths (paths : List TouchedPath) {state : AuditState}
    (h : state.paths.size ≤ maxAuditPaths) :
    (paths.foldl AuditState.touch state).paths.size ≤ maxAuditPaths := by
  induction paths generalizing state with
  | nil => exact h
  | cons touched paths ih => exact ih (AuditState.touch_paths touched h)

theorem AuditState.limited_empty : AuditState.Limited {} where
  paths := Nat.zero_le _
  overflows := Nat.zero_le _
  room _ := by decide

theorem AuditState.Limited.pushOverflow {state : AuditState} (h : state.Limited) (source : String)
    (rawEvents : ℕ) : (state.pushOverflow source rawEvents).Limited := by
  unfold AuditState.pushOverflow
  split_ifs with hroom hlimited
  · have hlength : (state.overflows ++ [OverflowNotice.mk source rawEvents]).length <
        maxOverflowReports := by
      rw [List.length_append, List.length_singleton]
      omega
    exact ⟨h.paths, hlength.le, fun _ => hlength⟩
  · have hfree := h.room (by simpa using hlimited)
    refine ⟨h.paths, ?_, fun hlimit => absurd hlimit (by simp)⟩
    change (state.overflows ++ [_]).length ≤ _
    rw [List.length_append, List.length_singleton]
    exact hfree
  · exact h

theorem AuditState.Limited.apply {state : AuditState} (h : state.Limited) (call : WatcherCall) :
    (state.apply call).Limited := by
  cases call with
  | observe paths rawEvents instant now =>
    rw [AuditState.apply, AuditState.observe]
    split_ifs
    · exact h
    · have hpaths := @AuditState.foldl_touch_paths paths { state with
        startedAt := state.startedAt.or (some now)
        first := state.first.or (some instant)
        last := some instant
        rawEvents := saturatingAdd state.rawEvents rawEvents } h.paths
      obtain ⟨touched, limit, hfold⟩ := AuditState.foldl_touch_frame paths { state with
        startedAt := state.startedAt.or (some now)
        first := state.first.or (some instant)
        last := some instant
        rawEvents := saturatingAdd state.rawEvents rawEvents }
      rw [hfold] at hpaths ⊢
      exact ⟨hpaths, h.overflows, h.room⟩
  | reportOverflow source rawEvents instant =>
    rw [AuditState.apply, AuditState.reportOverflow]
    have htimed : AuditState.Limited
        { state with first := state.first.or (some instant), last := some instant } :=
      ⟨h.paths, h.overflows, h.room⟩
    exact htimed.pushOverflow source rawEvents

theorem AuditState.Limited.drain {state : AuditState} (h : state.Limited) :
    state.drain.overflows.length ≤ maxOverflowReports + 1 := by
  have hlength := h.overflows
  unfold AuditState.drain
  dsimp only
  split_ifs
  · rw [List.length_append, List.length_singleton]
    omega
  · omega

theorem Coordinator.mergePath_paths (batchEvents : ℕ) {c : Coordinator} (entry : String × Operations)
    (h : c.touchedPaths.size ≤ maxAuditPaths) :
    (c.mergePath batchEvents entry).touchedPaths.size ≤ maxAuditPaths := by
  unfold Coordinator.mergePath
  split
  · next existing hfound =>
    exact (size_insert_found hfound _).trans_le h
  split_ifs with hroom
  · exact TreeMap.size_insert_le.trans hroom
  · exact h
  · exact h

theorem Coordinator.mergePaths_paths (batchEvents : ℕ) (entries : List (String × Operations))
    {c : Coordinator} (h : c.touchedPaths.size ≤ maxAuditPaths) :
    (entries.foldl (Coordinator.mergePath batchEvents) c).touchedPaths.size ≤ maxAuditPaths := by
  induction entries generalizing c with
  | nil => exact h
  | cons entry entries ih => exact ih (Coordinator.mergePath_paths batchEvents entry h)

def Coordinator.unreported (c : Coordinator) : ℕ := if c.pathLimitReported then 0 else 1

theorem Coordinator.mergePath_overflows (batchEvents : ℕ) (c : Coordinator)
    (entry : String × Operations) : (c.mergePath batchEvents entry).pendingOverflows.length +
      (c.mergePath batchEvents entry).unreported ≤ c.pendingOverflows.length + c.unreported := by
  unfold Coordinator.mergePath
  split
  · exact le_rfl
  split_ifs with hroom hlimited
  · exact le_rfl
  · have hfree : c.pathLimitReported = false := by simpa using hlimited
    simp [Coordinator.unreported, hfree]
  · exact le_rfl

theorem Coordinator.mergePaths_overflows (batchEvents : ℕ) (entries : List (String × Operations))
    (c : Coordinator) : (entries.foldl (Coordinator.mergePath batchEvents) c).pendingOverflows.length +
      (entries.foldl (Coordinator.mergePath batchEvents) c).unreported ≤
      c.pendingOverflows.length + c.unreported := by
  induction entries generalizing c with
  | nil => exact le_rfl
  | cons entry entries ih => exact (ih _).trans (c.mergePath_overflows batchEvents entry)

theorem Coordinator.absorb_overflows (c : Coordinator) {audit : AuditState} (h : audit.Limited) :
    (c.absorb audit.drain).pendingOverflows.length ≤
      c.pendingOverflows.length + (maxOverflowReports + 2) := by
  have hmerged := Coordinator.mergePaths_overflows audit.drain.rawEvents audit.drain.paths.toList
    { c with auditStartedAt := c.auditStartedAt.or audit.drain.startedAt }
  have hone : ({ c with auditStartedAt := c.auditStartedAt.or audit.drain.startedAt } :
      Coordinator).unreported ≤ 1 := by
    unfold Coordinator.unreported
    split_ifs <;> omega
  have hbatch := h.drain
  rw [Coordinator.absorb_pendingOverflows, List.length_append]
  change (c.mergedPaths audit.drain).pendingOverflows.length + _ ≤ c.pendingOverflows.length + _ at hmerged
  omega

/-- The audit that is retained: the notices are limited by the windows that were drained. -/
structure AuditBounded (w : World) : Prop where
  accumulator : w.audit.Limited
  touched : w.coordinator.touchedPaths.size ≤ maxAuditPaths
  pending : w.coordinator.pendingOverflows.length ≤ windows w.trace * (maxOverflowReports + 2)

theorem AuditBounded.log {w w' : World} {label : Label} (h : AuditBounded w)
    (trace : w'.trace = w.trace ++ [label]) (captured : label.isCaptured = false)
    (audit : w'.audit = w.audit) (touched : w'.coordinator.touchedPaths.size ≤ w.coordinator.touchedPaths.size)
    (pending : w'.coordinator.pendingOverflows.length ≤ w.coordinator.pendingOverflows.length) :
    AuditBounded w' := by
  refine ⟨audit ▸ h.accumulator, touched.trans h.touched, pending.trans (h.pending.trans ?_)⟩
  apply Nat.mul_le_mul_right
  rw [trace, windows_snoc, if_neg (by simp [captured])]
  split_ifs
  · exact Nat.le_succ _
  · exact le_rfl

theorem Emission.retains_less {w : World} {event : Event} {f : Coordinator → Coordinator}
    (emission : Emission w event f) :
    (f { w.coordinator with seq := w.coordinator.seq + 1 }).touchedPaths.size ≤
        w.coordinator.touchedPaths.size ∧
      (f { w.coordinator with seq := w.coordinator.seq + 1 }).pendingOverflows.length ≤
        w.coordinator.pendingOverflows.length := by
  cases emission with
  | audit => exact ⟨Nat.zero_le _, le_rfl⟩
  | overflow => exact ⟨le_rfl, by simp⟩
  | _ => exact ⟨le_rfl, le_rfl⟩

theorem Step.auditBounded {w w' : World} (step : Step w w') (h : AuditBounded w) :
    AuditBounded w' := by
  cases step with
  | arrival call =>
    have hcall : call.label.isCaptured = false ∧ call.label.isDrained = false := by
      cases call <;> exact ⟨rfl, rfl⟩
    refine ⟨h.accumulator.apply call, h.touched, h.pending.trans_eq ?_⟩
    rw [World.record, windows_snoc, hcall.1, hcall.2]
    rfl
  | tick => exact ⟨h.accumulator, h.touched, h.pending⟩
  | paused => exact ⟨h.accumulator, h.touched, h.pending⟩
  | drained =>
    refine ⟨AuditState.limited_empty, ?_, ?_⟩
    · change (w.coordinator.absorb w.audit.drain).touchedPaths.size ≤ _
      rw [Coordinator.absorb_touchedPaths]
      exact Coordinator.mergePaths_paths _ _ h.touched
    · have hmore := w.coordinator.absorb_overflows h.accumulator
      have hwindows : windows (w.trace ++ [.drained]) = windows w.trace + 1 := windows_snoc _ _
      change (w.coordinator.absorb w.audit.drain).pendingOverflows.length ≤
        windows (w.trace ++ [.drained]) * _
      rw [hwindows, Nat.succ_mul]
      exact hmore.trans (Nat.add_le_add_right h.pending _)
  | baseline fullScan checkpoint awaiting quiet closed =>
    refine ⟨h.accumulator, h.touched, ?_⟩
    change w.coordinator.pendingOverflows.length ≤ _
    rw [quiet.overflows]
    exact Nat.zero_le _
  | captured fullScan checkpoint time awaiting quiet opened =>
    refine ⟨h.accumulator, h.touched, ?_⟩
    change w.coordinator.pendingOverflows.length ≤ _
    rw [quiet.overflows]
    exact Nat.zero_le _
  | accepted event f _ _ emission =>
    obtain ⟨htouched, hpending⟩ := emission.retains_less
    exact h.log rfl rfl rfl htouched hpending
  | _ => exact h.log rfl rfl rfl le_rfl le_rfl

theorem Steps.auditBounded {w w' : World} (steps : Steps w w') (h : AuditBounded w) :
    AuditBounded w' := by
  induction steps with
  | refl => exact h
  | tail _ step ih => exact step.auditBounded ih

theorem auditBounded_start (config : Config) (recorder : JjRecorder) :
    AuditBounded (.start config recorder) where
  accumulator := AuditState.limited_empty
  touched := Nat.zero_le _
  pending := Nat.zero_le _

/-- Paths and the notices of one window are limited in every state; the notices that are
retained are limited by the number of windows drained since the last capture. -/
theorem audit_is_bounded_by_windows (env : Environment) (config : Config) (recorder : JjRecorder)
    (commands : List Command) : AuditBounded (reached env config recorder commands) :=
  (reached_steps env config recorder commands).auditBounded (auditBounded_start config recorder)

def deafTurn : ℕ → Turn
  | 0 => { checkpoint := .ok ⟨"a0", "c0", "t0", []⟩ }
  | 1 => {}
  | _ => { arrivals := [.reportOverflow "inotify" 1 0], sink := .error (.failed "down") }

def deaf (horizon : ℕ) : Environment := ⟨deafTurn, horizon⟩

structure Piling (count : ℕ) (w : World) : Prop where
  clock : 2 ≤ w.clock
  delivered : w.coordinator.pendingSnapshotEvent = none
  piled : count ≤ w.coordinator.pendingOverflows.length

theorem deafTurn_later {n : ℕ} (h : 2 ≤ n) : deafTurn n =
    { arrivals := [.reportOverflow "inotify" 1 0], sink := .error (.failed "down") } := by
  obtain ⟨m, rfl⟩ := Nat.exists_eq_add_of_le' h
  rfl

section
variable {env : Environment} {w : World}

theorem emitOverflows_refused {failure : SinkError} (h : w.clock < env.horizon)
    (refuses : (env.answers w.clock).sink = .error failure)
    (pending : w.coordinator.pendingOverflows ≠ []) :
    ∃ w', (emitOverflows env).run w = (.error (.sink failure), w') ∧
      w'.coordinator = w.coordinator ∧ w'.clock = w.clock + 1 := by
  obtain ⟨notice, rest, hnotices⟩ := List.exists_cons_of_ne_nil pending
  have hwait := fun event => @await_run env (w.log (.emitting event)) h
  have hclock : ∀ event, (w.log (.emitting event)).clock = w.clock := fun _ => rfl
  set event := Event.new w.coordinator.config.sessionId w.coordinator.seq (env.answers w.clock).now
    (overflowBody notice) with hevent
  refine ⟨((w.log (.emitting event)).waited env).log (.refused event), ?_, ?_, rfl⟩
  · simp only [emitOverflows, hnotices, emitOverflowsFrom, emit, now, emitExact, log, run_bind,
      run_get, run_pure, Event.new_seq, if_true, run_modify, hwait, hclock, refuses, run_throw, ← hevent]
  · simp [World.log]

theorem Coordinator.absorb_reported (c : Coordinator) (audit : AuditState) (source : String)
    (rawEvents instant : ℕ) :
    c.pendingOverflows.length + 1 ≤
      (c.absorb (audit.apply (.reportOverflow source rawEvents instant)).drain).pendingOverflows.length := by
  have hreported : (audit.apply (.reportOverflow source rawEvents instant)).overflows ≠ [] := by
    rw [← List.isEmpty_eq_false_iff]
    exact AuditState.pushOverflow_nonempty _ _ _
  have hlength := List.length_pos_of_ne_nil hreported
  have hbatch : 1 ≤ (audit.apply (.reportOverflow source rawEvents instant)).drain.overflows.length := by
    unfold AuditState.drain
    dsimp only
    split_ifs
    · rw [List.length_append]
      omega
    · exact hlength
  obtain ⟨notices, hmerged⟩ := c.mergedPaths_overflows
    (audit.apply (.reportOverflow source rawEvents instant)).drain
  rw [Coordinator.absorb_pendingOverflows, hmerged, List.length_append, List.length_append]
  omega

theorem serve_piles {count horizon : ℕ} (h : Piling count w) (room : w.clock + 2 ≤ horizon) :
    ∃ w', (serve (deaf horizon) .snap).run w = (.ok (), w') ∧ Piling (count + 1) w' ∧
      w'.clock = w.clock + 2 := by
  have hclock : w.clock < (deaf horizon).horizon := by
    change w.clock < horizon
    omega
  set began := w.log (.began .snap w.coordinator w.audit) with hbegan
  have hwait : (await (deaf horizon)).run began = (.ok (deafTurn w.clock), began.waited (deaf horizon)) :=
    await_run hclock
  -- the overflow reported meanwhile is drained
  set drained := (began.waited (deaf horizon)).drainAudit with hdrained
  have hpiled : count + 1 ≤ drained.coordinator.pendingOverflows.length := by
    have hcoordinator : drained.coordinator =
        w.coordinator.absorb (began.waited (deaf horizon)).audit.drain := by
      rw [hdrained, World.drainAudit, World.waited_coordinator]
      rfl
    have haudit : (began.waited (deaf horizon)).audit =
        w.audit.apply (.reportOverflow "inotify" 1 0) := by
      change (began.recordAll (deafTurn w.clock).arrivals).audit = _
      rw [deafTurn_later h.clock]
      rfl
    have hgrown := w.coordinator.absorb_reported w.audit "inotify" 1 0
    have hpiled := h.piled
    rw [hcoordinator, haudit]
    omega
  have hnext : drained.clock = w.clock + 1 := rfl
  have hlater := h.clock
  have hturn : ((deaf horizon).answers drained.clock).sink = .error (.failed "down") := by
    rw [hnext]
    exact congrArg Turn.sink (deafTurn_later (Nat.le_succ_of_le hlater))
  have hdelivered : drained.coordinator.pendingSnapshotEvent = none := by
    rw [hdrained, World.drainAudit, Coordinator.absorb_pendingSnapshotEvent, World.waited_coordinator]
    exact h.delivered
  obtain ⟨failed, hfailed, hcoordinator, hfailedClock⟩ := @emitOverflows_refused
    (deaf horizon) drained _ (by change w.clock + 1 < horizon; omega) hturn
    (by intro hnil; rw [hnil] at hpiled; exact absurd hpiled (by simp))
  have hretained : began.coordinator.pendingSnapshotEvent = none := h.delivered
  refine ⟨failed.log (.replied .snap (.failed (.sink (.failed "down")))), ?_, ⟨?_, ?_, ?_⟩, ?_⟩
  · have hbegin : (beginCommand .snap).run w = (.ok (), began) := rfl
    have hdrain : drainAudit.run (began.waited (deaf horizon)) = (.ok (), drained) := rfl
    have hsnapshot : (snapshot (deaf horizon)).run began =
        (.error (.sink (.failed "down")), failed) := by
      simp only [snapshot, interleave, run_bind, run_get, hretained, hwait, run_pure, hdrain, hfailed]
    have hperform : (perform (deaf horizon) .snap).run began =
        (.error (.sink (.failed "down")), failed) := by
      change (Reply.snapshot <$> snapshot (deaf horizon)).run began = _
      rw [map_eq_pure_bind, run_bind, hsnapshot]
    simp only [serve, attempt, run_bind, hbegin, hperform]
    rfl
  · change 2 ≤ failed.clock
    omega
  · change failed.coordinator.pendingSnapshotEvent = none
    rw [hcoordinator]
    exact hdelivered
  · change count + 1 ≤ failed.coordinator.pendingOverflows.length
    rw [hcoordinator]
    exact hpiled
  · change failed.clock = w.clock + 2
    omega

theorem run_piles (commands : ℕ) {count : ℕ} (h : Piling count w) :
    count + commands ≤ ((run (deaf (w.clock + 3 * commands))
      (List.replicate commands .snap)).run w).2.coordinator.pendingOverflows.length := by
  induction commands generalizing count w with
  | zero =>
    -- the run is seen up to here
    have hcut : (await (deaf w.clock)).run w = (.cut, w.recordAll (deafTurn w.clock).arrivals) := by
      simp [await, deaf]
    simp only [List.replicate_zero, run, interleave, run_bind, Nat.mul_zero, Nat.add_zero, hcut]
    rw [World.recordAll_coordinator]
    exact h.piled
  | succ commands ih =>
    generalize hhorizon : w.clock + 3 * (commands + 1) = horizon
    have hwait : (await (deaf horizon)).run w = (.ok (deafTurn w.clock), w.waited (deaf horizon)) :=
      await_run (by change w.clock < horizon; omega)
    have hwaited : Piling count (w.waited (deaf horizon)) := by
      refine ⟨Nat.le_succ_of_le h.clock, ?_, ?_⟩
      · rw [World.waited_coordinator]
        exact h.delivered
      · rw [World.waited_coordinator]
        exact h.piled
    obtain ⟨w', hserve, hpiles, hclock⟩ := @serve_piles _ _ horizon hwaited
      (by rw [World.waited_clock]; omega)
    rw [World.waited_clock] at hclock
    have hlater := ih hpiles
    have hsame : w'.clock + 3 * commands = horizon := by omega
    rw [hsame] at hlater
    have hrun : run (deaf horizon) (List.replicate (commands + 1) .snap) =
        (interleave (deaf horizon) >>= fun _ => serve (deaf horizon) .snap >>= fun _ =>
          run (deaf horizon) (List.replicate commands .snap)) := rfl
    rw [hrun]
    simp only [interleave, run_bind, hwait, run_pure, hserve]
    omega

end

theorem deaf_initialized (more : ℕ) :
    ∃ w, (initializeCoordinator (deaf (more + 2))).run (World.start exampleConfig exampleRecorder) =
      (.ok (), w) ∧ Piling 0 w ∧ w.clock = 2 :=
  ⟨_, rfl, ⟨le_rfl, rfl, Nat.zero_le _⟩, rfl⟩

theorem reached_of_initialized {env : Environment} {config : Config} {recorder : JjRecorder}
    {commands : List Command} {w : World}
    (initialized : (initializeCoordinator env).run (World.start config recorder) = (.ok (), w)) :
    reached env config recorder commands = ((run env commands).run w).2 := by
  unfold reached session
  rw [run_bind, initialized]

/-- No bound holds of every run: a sink that refuses lets as many windows pile up as there are
commands. -/
theorem notices_pile_up :
    ¬ ∃ bound, ∀ env config recorder commands,
      (reached env config recorder commands).audit.paths.size ≤ bound ∧
      (reached env config recorder commands).audit.overflows.length ≤ bound ∧
      (reached env config recorder commands).coordinator.touchedPaths.size ≤ bound ∧
      (reached env config recorder commands).coordinator.pendingOverflows.length ≤ bound := by
  rintro ⟨bound, h⟩
  obtain ⟨w, hrun, hpiling, hclock⟩ := deaf_initialized (3 * (bound + 1))
  have hpiled := run_piles (bound + 1) hpiling
  have hhorizon : w.clock + 3 * (bound + 1) = 3 * (bound + 1) + 2 := by omega
  rw [hhorizon] at hpiled
  have hbound := (h (deaf (3 * (bound + 1) + 2)) exampleConfig exampleRecorder
    (List.replicate (bound + 1) .snap)).2.2.2
  rw [reached_of_initialized hrun] at hbound
  have hless : 0 + (bound + 1) ≤ bound := hpiled.trans hbound
  rw [Nat.zero_add] at hless
  exact Nat.not_succ_le_self bound hless

end Rrjj
