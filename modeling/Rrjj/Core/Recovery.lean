import Rrjj.Core.Conservation
import Rrjj.Core.Publication

/-! Recovery from overflows: after an overflow event the next snapshot event comes from a
full scan, and no mark goes before it. The one drain that breaks this reports the limit on
retained paths without asking for a full scan. -/

namespace Rrjj
open Std Library Library.Proc Library.CappedMap

def Event.isOverflow (event : Event) : Bool :=
  match event.body with
  | .overflow _ => true
  | _ => false

def Event.isSnapshot (event : Event) : Bool :=
  match event.body with
  | .snapshot _ => true
  | _ => false

def Event.isMark (event : Event) : Bool :=
  match event.body with
  | .mark _ => true
  | _ => false

def Label.isCaptured : Label → Bool
  | .captured _ => true
  | _ => false

def Unrecovered (trace : List Label) : Prop :=
  ∃ before event since, trace = before ++ .accepted event :: since ∧ event.isOverflow = true ∧
    ∀ later, .accepted later ∈ since → later.isSnapshot = false

def ProducedBy (fullScan : Bool) (event : Event) (trace : List Label) : Prop :=
  ∃ before awaited snapshot since,
    trace = before ++ .capturing fullScan :: (awaited ++ .captured snapshot :: since) ∧
      (∀ l ∈ awaited, l.isArrival) ∧ event.body = .snapshot snapshot ∧
      ∀ l ∈ since, l.isCaptured = false

/-- After every overflow event the next snapshot event was produced by a full scan, and no
mark was accepted before it. -/
def OverflowsRecovered (trace : List Label) : Prop :=
  AtEvery (fun before label => ∀ event, label = .accepted event → Unrecovered before →
    (event.isSnapshot = true → ProducedBy true event before) ∧ event.isMark = false) trace

/-- A drain makes the coordinator report the limit on the paths it retains, while neither
the batch nor anything earlier asks for a full scan. -/
structure ReportsUnforced (w : World) : Prop where
  reported : (w.coordinator.mergedPaths w.audit.drain).pendingOverflows ≠
    w.coordinator.pendingOverflows
  batch : w.audit.drain.overflows = []
  unforced : w.coordinator.forceFullScan = false

/-- On the way from `start` to `final` there is such a drain. -/
def UnforcedDrain (start final : World) : Prop :=
  ∃ w, Steps start w ∧ Steps w.drainAudit final ∧ ReportsUnforced w

theorem not_unrecovered_nil : ¬ Unrecovered [] := by
  rintro ⟨before, event, since, htrace, -⟩
  exact absurd htrace.symm (by simp)

theorem Unrecovered.of_snoc {trace : List Label} {label : Label}
    (h : Unrecovered (trace ++ [label])) :
    (∃ event, label = .accepted event ∧ event.isOverflow = true) ∨
      (Unrecovered trace ∧ ∀ event, label = .accepted event → event.isSnapshot = false) := by
  obtain ⟨before, event, since, htrace, hoverflow, hsince⟩ := h
  rcases split_snoc htrace with ⟨-, hlabel, -⟩ | ⟨rest, rfl, htrace'⟩
  · exact Or.inl ⟨event, hlabel, hoverflow⟩
  · refine Or.inr ⟨⟨before, event, rest, htrace', hoverflow, fun later hlater => ?_⟩, ?_⟩
    · exact hsince later (List.mem_append_left _ hlater)
    · intro later hlabel
      exact hsince later (List.mem_append_right _ (by rw [hlabel]; exact List.mem_singleton_self _))

theorem ProducedBy.snoc {fullScan : Bool} {event : Event} {trace : List Label} {label : Label}
    (h : ProducedBy fullScan event trace) (hl : label.isCaptured = false) :
    ProducedBy fullScan event (trace ++ [label]) := by
  obtain ⟨before, awaited, snapshot, since, rfl, hawaited, hbody, hsince⟩ := h
  refine ⟨before, awaited, snapshot, since ++ [label], by simp, hawaited, hbody, ?_⟩
  intro l hl'
  rcases List.mem_append.mp hl' with hl' | hl'
  · exact hsince l hl'
  · rw [List.mem_singleton.mp hl']
    exact hl

theorem Awaiting.produced {fullScan : Bool} {trace : List Label}
    (h : Awaiting (.capturing fullScan) trace) {event : Event} {snapshot : Snapshot}
    (body : event.body = .snapshot snapshot) :
    ProducedBy fullScan event (trace ++ [.captured snapshot]) := by
  obtain ⟨before, since, rfl, hsince⟩ := h
  exact ⟨before, since, snapshot, [], by simp, hsince, body, by simp⟩

theorem Awaiting.of_snoc {label next : Label} {trace : List Label}
    (h : Awaiting label (trace ++ [next])) :
    next = label ∨ (Awaiting label trace ∧ next.isArrival = true) := by
  obtain ⟨before, since, htrace, hsince⟩ := h
  rcases split_snoc htrace with ⟨-, hnext, -⟩ | ⟨rest, rfl, htrace'⟩
  · exact Or.inl hnext
  · refine Or.inr ⟨⟨before, rest, htrace', fun l hl => ?_⟩, ?_⟩
    · exact hsince l (List.mem_append_left _ hl)
    · exact hsince next (List.mem_append_right _ (List.mem_singleton_self _))

structure RecoveryState (w : World) : Prop where
  pending : w.coordinator.pendingOverflows ≠ [] →
    w.coordinator.pendingSnapshot = true ∧ w.coordinator.forceFullScan = true
  owed : Unrecovered w.trace → w.coordinator.pendingSnapshot = true ∧
    (w.coordinator.pendingSnapshotEvent = none → w.coordinator.forceFullScan = true) ∧
    ∀ event, w.coordinator.pendingSnapshotEvent = some event → ProducedBy true event w.trace
  scanning : ∀ fullScan, Awaiting (.capturing fullScan) w.trace → Opened w.trace →
    fullScan = w.coordinator.forceFullScan
  recovered : OverflowsRecovered w.trace

theorem RecoveryState.frame {w w' : World} {label : Label} (h : RecoveryState w)
    (trace : w'.trace = w.trace ++ [label]) (other : ∀ event, label ≠ .accepted event)
    (uncaptured : label.isCaptured = false)
    (pending : w.coordinator.pendingSnapshot = true → w'.coordinator.pendingSnapshot = true)
    (force : w.coordinator.forceFullScan = true → w'.coordinator.forceFullScan = true)
    (retained : w'.coordinator.pendingSnapshotEvent = w.coordinator.pendingSnapshotEvent)
    (overflows : w'.coordinator.pendingOverflows ≠ [] →
      w'.coordinator.pendingSnapshot = true ∧ w'.coordinator.forceFullScan = true)
    (scanning : ∀ fullScan, Awaiting (.capturing fullScan) w'.trace → Opened w'.trace →
      fullScan = w'.coordinator.forceFullScan) : RecoveryState w' where
  pending := overflows
  owed howed := by
    rw [trace] at howed ⊢
    rcases howed.of_snoc with ⟨event, hlabel, -⟩ | ⟨howed, -⟩
    · exact absurd hlabel (other event)
    obtain ⟨hpending, hforce, hproduced⟩ := h.owed howed
    rw [retained]
    exact ⟨pending hpending, fun hnone => force (hforce hnone),
      fun event hevent => (hproduced event hevent).snoc uncaptured⟩
  scanning := scanning
  recovered := trace ▸ h.recovered.snoc fun event hlabel => absurd hlabel (other event)

theorem opened_of_snoc {trace : List Label} {label : Label} (h : Opened (trace ++ [label]))
    (other : ∀ event, label ≠ .accepted event) : Opened trace := by
  obtain ⟨event, value, hmem, hbody⟩ := h
  rcases List.mem_append.mp hmem with hmem | hmem
  · exact ⟨event, value, hmem, hbody⟩
  · exact absurd (List.mem_singleton.mp hmem).symm (other event)

theorem RecoveryState.log {w w' : World} {label : Label} (h : RecoveryState w)
    (trace : w'.trace = w.trace ++ [label]) (coordinator : w'.coordinator = w.coordinator)
    (other : ∀ event, label ≠ .accepted event) (uncaptured : label.isCaptured = false)
    (scan : ∀ fullScan, label = .capturing fullScan → Opened w.trace →
      fullScan = w.coordinator.forceFullScan) : RecoveryState w' := by
  refine h.frame trace other uncaptured ?_ ?_ ?_ ?_ ?_
  · rw [coordinator]
    exact fun hp => hp
  · rw [coordinator]
    exact fun hf => hf
  · rw [coordinator]
  · rw [coordinator]
    exact h.pending
  · intro fullScan hawait hopened
    rw [trace] at hawait hopened
    rw [coordinator]
    rcases hawait.of_snoc with hlabel | ⟨hawait, -⟩
    · exact scan fullScan hlabel (opened_of_snoc hopened other)
    · exact h.scanning fullScan hawait (opened_of_snoc hopened other)

theorem not_awaiting_snoc {label next : Label} {trace : List Label} (hne : next ≠ label)
    (harrival : next.isArrival = false) : ¬ Awaiting label (trace ++ [next]) := by
  intro h
  rcases h.of_snoc with hsame | ⟨-, hnext⟩
  · exact hne hsame
  · rw [harrival] at hnext
    exact absurd hnext (by decide)

theorem RecoveryState.drained {w : World} (h : RecoveryState w) (safe : ¬ ReportsUnforced w) :
    RecoveryState w.drainAudit := by
  have hforce : (w.coordinator.absorb w.audit.drain).forceFullScan =
      (w.coordinator.forceFullScan || !w.audit.drain.overflows.isEmpty) := by
    rw [Coordinator.absorb_eq]
  refine h.frame (show _ = w.trace ++ [.drained] from rfl) (by simp) rfl ?_ ?_ ?_ ?_ ?_
  · intro hpending
    show (w.coordinator.absorb w.audit.drain).pendingSnapshot = true
    rw [Coordinator.absorb_pendingSnapshot, hpending, Bool.true_or]
  · intro hforced
    show (w.coordinator.absorb w.audit.drain).forceFullScan = true
    rw [hforce, hforced, Bool.true_or]
  · exact Coordinator.absorb_pendingSnapshotEvent _ _
  · intro hoverflows
    change (w.coordinator.absorb w.audit.drain).pendingOverflows ≠ [] at hoverflows
    show (w.coordinator.absorb w.audit.drain).pendingSnapshot = true ∧
      (w.coordinator.absorb w.audit.drain).forceFullScan = true
    refine ⟨?_, ?_⟩
    · have hnonempty : (w.coordinator.absorb w.audit.drain).pendingOverflows.isEmpty = false := by
        rwa [List.isEmpty_eq_false_iff]
      rw [Coordinator.absorb_pendingSnapshot, hnonempty]
      simp
    · rw [hforce]
      by_contra hnot
      rw [Bool.or_eq_true, not_or, Bool.not_eq_true, Bool.not_eq_true, Bool.not_eq_false'] at hnot
      obtain ⟨hunforced, hbatch⟩ := hnot
      rw [List.isEmpty_iff] at hbatch
      have hnone : w.coordinator.pendingOverflows = [] := by
        by_contra hsome
        have hforced := (h.pending hsome).2
        rw [hunforced] at hforced
        exact absurd hforced (by decide)
      refine safe ⟨?_, hbatch, hunforced⟩
      rw [Coordinator.absorb_pendingOverflows, hbatch, List.append_nil] at hoverflows
      rw [hnone]
      exact hoverflows
  · intro fullScan hawait
    exact absurd hawait (not_awaiting_snoc (by simp) rfl)

theorem RecoveryState.accept_plain {w : World} {event : Event} {f : Coordinator → Coordinator}
    (h : RecoveryState w) (overflow : event.isOverflow = false) (snapshot : event.isSnapshot = false)
    (mark : Unrecovered w.trace → event.isMark = false) {c : Coordinator}
    (left : f { w.coordinator with seq := w.coordinator.seq + 1 } = c)
    (overflows : c.pendingOverflows = w.coordinator.pendingOverflows)
    (pending : c.pendingSnapshot = w.coordinator.pendingSnapshot)
    (force : c.forceFullScan = w.coordinator.forceFullScan)
    (retained : c.pendingSnapshotEvent = w.coordinator.pendingSnapshotEvent) :
    RecoveryState (w.accept event f) := by
  subst left
  refine ⟨?_, ?_, fun fullScan hawait => absurd hawait (not_awaiting_snoc (by simp) rfl), ?_⟩
  · intro hsome
    change (f _).pendingSnapshot = true ∧ (f _).forceFullScan = true
    rw [pending, force]
    exact h.pending (overflows ▸ hsome)
  · intro howed
    rcases howed.of_snoc with ⟨event', hlabel, hover⟩ | ⟨howed, -⟩
    · rw [← Label.accepted.inj hlabel, overflow] at hover
      exact absurd hover (by decide)
    obtain ⟨hp, hf, hproduced⟩ := h.owed howed
    change (f _).pendingSnapshot = true ∧ ((f _).pendingSnapshotEvent = none →
      (f _).forceFullScan = true) ∧ ∀ e, (f _).pendingSnapshotEvent = some e → _
    rw [pending, force, retained]
    exact ⟨hp, hf, fun e he => (hproduced e he).snoc rfl⟩
  · refine h.recovered.snoc fun event' hlabel howed => ?_
    obtain rfl := Label.accepted.inj hlabel
    refine ⟨fun hs => ?_, mark howed⟩
    rw [snapshot] at hs
    exact absurd hs (by decide)

theorem RecoveryState.accept_snapshot {w : World} {event : Event} {f : Coordinator → Coordinator}
    (h : RecoveryState w) {snapshot : Snapshot} (retained : w.coordinator.pendingSnapshotEvent = some event)
    (body : event.body = .snapshot snapshot)
    (overflows : (f { w.coordinator with seq := w.coordinator.seq + 1 }).pendingOverflows ≠ [] →
      (f { w.coordinator with seq := w.coordinator.seq + 1 }).pendingSnapshot = true ∧
      (f { w.coordinator with seq := w.coordinator.seq + 1 }).forceFullScan = true) :
    RecoveryState (w.accept event f) := by
  have hsnapshot : event.isSnapshot = true := by simp only [Event.isSnapshot, body]
  refine ⟨overflows, ?_, fun fullScan hawait => absurd hawait (not_awaiting_snoc (by simp) rfl), ?_⟩
  · intro howed
    rcases howed.of_snoc with ⟨event', hlabel, hover⟩ | ⟨-, hnot⟩
    · rw [← Label.accepted.inj hlabel] at hover
      exact absurd hover (by simp [Event.isOverflow, body])
    · rw [hnot event rfl] at hsnapshot
      exact absurd hsnapshot (by decide)
  · refine h.recovered.snoc fun event' hlabel howed => ?_
    obtain rfl := Label.accepted.inj hlabel
    refine ⟨fun _ => (h.owed howed).2.2 event retained, ?_⟩
    simp only [Event.isMark, body]

theorem RecoveryState.accepted {w : World} {event : Event} {f : Coordinator → Coordinator}
    (h : RecoveryState w) (emission : Emission w event f) : RecoveryState (w.accept event f) := by
  have hunmarked : ∀ {command : Command}, Settled command w → ¬ Unrecovered w.trace := by
    intro command settled howed
    have hpending := (h.owed howed).1
    rw [settled.idle] at hpending
    exact absurd hpending (by decide)
  cases emission with
  | sessionStart => exact h.accept_plain rfl rfl (fun _ => rfl) rfl rfl rfl rfl rfl
  | audit => exact h.accept_plain rfl rfl (fun _ => rfl) rfl rfl rfl rfl rfl
  | sessionEnd => exact h.accept_plain rfl rfl (fun _ => rfl) rfl rfl rfl rfl rfl
  | flush => exact h.accept_plain rfl rfl (fun _ => rfl) rfl rfl rfl rfl rfl
  | mark _ _ _ settled =>
    exact h.accept_plain rfl rfl (fun howed => absurd howed (hunmarked settled)) rfl rfl rfl rfl rfl
  | snapshot _ snapshot retained body overflows =>
    exact h.accept_snapshot retained body fun hsome => absurd overflows hsome
  | retained _ snapshot retained body =>
    refine h.accept_snapshot retained body fun hsome => ?_
    change w.coordinator.pendingOverflows ≠ [] at hsome
    simp [Coordinator.retainedDelivered, hsome]
  | overflow time notice rest delivered first =>
    -- the demand of the overflow is already there when it is announced
    have hdemand := h.pending (by rw [first]; exact List.cons_ne_nil _ _)
    refine ⟨fun _ => hdemand, fun _ => ⟨hdemand.1, fun _ => hdemand.2, ?_⟩,
      fun fullScan hawait => absurd hawait (not_awaiting_snoc (by simp) rfl), ?_⟩
    · intro event hevent
      exact absurd (delivered.symm.trans hevent) (by simp)
    · refine h.recovered.snoc fun event' hlabel _ => ?_
      obtain rfl := Label.accepted.inj hlabel
      exact ⟨fun hs => absurd hs (by simp [Event.isSnapshot, overflowBody]), rfl⟩

theorem Step.recoveryState {w w' : World} (h : RecoveryState w) (step : Step w w')
    (safe : w' = w.drainAudit → ¬ ReportsUnforced w) : RecoveryState w' := by
  cases step with
  | arrival call =>
    have hother : ∀ event, call.label ≠ .accepted event := by
      intro event
      cases call <;> simp [WatcherCall.label]
    refine h.log rfl rfl hother (by cases call <;> rfl) fun fullScan hlabel => ?_
    cases call <;> exact absurd hlabel (by simp [WatcherCall.label])
  | tick => exact ⟨h.pending, h.owed, h.scanning, h.recovered⟩
  | paused => exact ⟨h.pending, h.owed, h.scanning, h.recovered⟩
  | drained => exact h.drained (safe rfl)
  | capturing fullScan quiet scan =>
    refine h.log rfl rfl (by simp) rfl fun fullScan' hlabel hopened => ?_
    rw [← Label.capturing.inj hlabel]
    exact scan hopened
  | baseline fullScan checkpoint awaiting quiet closed =>
    refine ⟨h.pending, fun howed => ?_, fun fullScan' hawait => ?_, ?_⟩
    · rcases howed.of_snoc with ⟨event, hlabel, -⟩ | ⟨howed, -⟩
      · exact absurd hlabel (by simp)
      obtain ⟨hp, hf, -⟩ := h.owed howed
      refine ⟨hp, hf, fun event hevent => ?_⟩
      exact absurd (quiet.delivered.symm.trans hevent) (by simp)
    · exact absurd hawait (not_awaiting_snoc (by simp) rfl)
    · exact h.recovered.snoc fun event hlabel => absurd hlabel (by simp)
  | captured fullScan checkpoint time awaiting quiet opened =>
    refine ⟨h.pending, ?_, ?_, ?_⟩
    · intro howed
      rcases howed.of_snoc with ⟨event, hlabel, -⟩ | ⟨howed, -⟩
      · exact absurd hlabel (by simp)
      obtain ⟨hp, hf, -⟩ := h.owed howed
      refine ⟨hp, fun hnone => absurd hnone (by simp [World.retain, World.update]), ?_⟩
      intro event hevent
      obtain rfl := Option.some.inj hevent
      -- the flag has forced a full scan
      have hscan := h.scanning fullScan awaiting opened
      rw [hf quiet.delivered] at hscan
      rw [hscan] at awaiting
      exact awaiting.produced rfl
    · intro fullScan' hawait
      exact absurd hawait (not_awaiting_snoc (by simp) rfl)
    · exact h.recovered.snoc fun event hlabel => absurd hlabel (by simp)
  | accepted event f _ _ emission => exact h.accepted emission
  | _ => exact h.log rfl rfl (by simp) rfl (by simp)

theorem Steps.recoveryState {start w : World} (steps : Steps start w) (h : RecoveryState start)
    (safe : ¬ UnforcedDrain start w) : RecoveryState w := by
  induction steps with
  | refl => exact h
  | tail steps step ih =>
    refine step.recoveryState (ih fun hdrain => ?_) fun hdrained hreports => ?_
    · obtain ⟨v, hv, hafter, hreports⟩ := hdrain
      exact safe ⟨v, hv, hafter.tail step, hreports⟩
    · exact safe ⟨_, steps, by rw [hdrained], hreports⟩

theorem recoveryState_start (config : Config) (recorder : JjRecorder) :
    RecoveryState (.start config recorder) where
  pending h := absurd rfl h
  owed h := absurd h not_unrecovered_nil
  scanning fullScan h := absurd h.choose_spec.choose_spec.1 (by simp [World.start])
  recovered := atEvery_nil

/-- Unless a drain reports the limit unforced, every overflow event is followed by a
snapshot from a full scan before any mark. -/
theorem overflows_are_recovered (env : Environment) (config : Config) (recorder : JjRecorder)
    (commands : List Command)
    (safe : ¬ UnforcedDrain (World.start config recorder)
      (reached env config recorder commands)) :
    OverflowsRecovered (reached env config recorder commands).trace := by
  have hsteps := reached_steps env config recorder commands
  exact (hsteps.recoveryState (recoveryState_start config recorder) safe).recovered

def observedPaths (trace : List Label) : ℕ :=
  (trace.map fun label =>
    match label with
    | .observed paths _ => paths.length
    | _ => 0).sum

theorem observedPaths_append (trace after : List Label) :
    observedPaths (trace ++ after) = observedPaths trace + observedPaths after := by
  rw [observedPaths, List.map_append, List.sum_append]
  rfl

theorem AuditState.touch_size (state : AuditState) (touched : TouchedPath) :
    (state.touch touched).paths.size ≤ state.paths.size + 1 := by
  unfold AuditState.touch
  split
  · exact TreeMap.size_insert_le
  split_ifs
  · exact TreeMap.size_insert_le
  · exact Nat.le_succ _
  · exact Nat.le_succ _

theorem AuditState.foldl_touch_size (paths : List TouchedPath) (state : AuditState) :
    (paths.foldl AuditState.touch state).paths.size ≤ state.paths.size + paths.length := by
  induction paths generalizing state with
  | nil => exact le_rfl
  | cons touched paths ih =>
    have hfirst := state.touch_size touched
    have hrest := ih (state.touch touched)
    rw [List.foldl_cons, List.length_cons]
    omega

theorem AuditState.apply_size (state : AuditState) (call : WatcherCall) :
    (state.apply call).paths.size ≤ state.paths.size + observedPaths [call.label] := by
  cases call with
  | observe paths rawEvents instant now =>
    rw [AuditState.apply, AuditState.observe]
    split_ifs
    · exact Nat.le_add_right _ _
    · exact AuditState.foldl_touch_size paths _
  | reportOverflow source rawEvents instant =>
    rw [AuditState.apply, AuditState.reportOverflow]
    obtain ⟨notices, limited, hpush⟩ := AuditState.pushOverflow_frame
      { state with first := state.first.or (some instant), last := some instant } source rawEvents
    rw [hpush]
    exact Nat.le_add_right _ _

theorem Coordinator.mergePath_size (batchEvents : ℕ) (c : Coordinator)
    (entry : String × Operations) :
    (c.mergePath batchEvents entry).touchedPaths.size ≤ c.touchedPaths.size + 1 := by
  unfold Coordinator.mergePath
  split
  · exact TreeMap.size_insert_le
  split_ifs
  · exact TreeMap.size_insert_le
  · exact Nat.le_succ _
  · exact Nat.le_succ _

theorem Coordinator.mergePaths_size (batchEvents : ℕ) (entries : List (String × Operations))
    (c : Coordinator) :
    (entries.foldl (Coordinator.mergePath batchEvents) c).touchedPaths.size ≤
      c.touchedPaths.size + entries.length := by
  induction entries generalizing c with
  | nil => exact le_rfl
  | cons entry entries ih =>
    have hfirst := c.mergePath_size batchEvents entry
    have hrest := ih (c.mergePath batchEvents entry)
    rw [List.foldl_cons, List.length_cons]
    omega

theorem Coordinator.mergePath_reports (batchEvents : ℕ) (c : Coordinator)
    (entry : String × Operations)
    (h : (c.mergePath batchEvents entry).pendingOverflows ≠ c.pendingOverflows) :
    maxAuditPaths ≤ c.touchedPaths.size := by
  unfold Coordinator.mergePath at h
  split at h
  · exact absurd rfl h
  split_ifs at h with hroom
  · exact absurd rfl h
  · exact Nat.le_of_not_lt hroom
  · exact absurd rfl h

theorem Coordinator.mergePaths_reports (batchEvents : ℕ) (entries : List (String × Operations))
    (c : Coordinator)
    (h : (entries.foldl (Coordinator.mergePath batchEvents) c).pendingOverflows ≠
      c.pendingOverflows) :
    maxAuditPaths < c.touchedPaths.size + entries.length := by
  induction entries generalizing c with
  | nil => exact absurd rfl h
  | cons entry entries ih =>
    rw [List.length_cons]
    by_cases hfirst : (c.mergePath batchEvents entry).pendingOverflows = c.pendingOverflows
    · have hrest := ih (c.mergePath batchEvents entry) (by rwa [hfirst])
      have hsize := c.mergePath_size batchEvents entry
      omega
    · have hsize := c.mergePath_reports batchEvents entry hfirst
      omega

def RetainedPaths (w : World) : ℕ := w.coordinator.touchedPaths.size + w.audit.paths.size

theorem Step.retainedPaths {w w' : World} (step : Step w w')
    (h : RetainedPaths w ≤ observedPaths w.trace) :
    RetainedPaths w' ≤ observedPaths w'.trace := by
  have hlonger := observedPaths_append w.trace
  unfold RetainedPaths at h ⊢
  cases step with
  | arrival call =>
    have hsize := w.audit.apply_size call
    have htrace : observedPaths (w.record call).trace =
        observedPaths w.trace + observedPaths [call.label] := hlonger _
    rw [htrace]
    change w.coordinator.touchedPaths.size + (w.audit.apply call).paths.size ≤ _
    omega
  | drained =>
    have hsize := Coordinator.mergePaths_size w.audit.drain.rawEvents w.audit.drain.paths.toList
      { w.coordinator with auditStartedAt := w.coordinator.auditStartedAt.or w.audit.drain.startedAt }
    rw [TreeMap.length_toList] at hsize
    change (w.coordinator.absorb w.audit.drain).touchedPaths.size + 0 ≤
      observedPaths (w.trace ++ [.drained])
    rw [Coordinator.absorb_touchedPaths, hlonger]
    exact (hsize.trans h).trans (Nat.le_add_right _ _)
  | accepted event f _ _ emission =>
    have htouched : (f { w.coordinator with seq := w.coordinator.seq + 1 }).touchedPaths.size ≤
        w.coordinator.touchedPaths.size := by
      cases emission with
      | audit => exact Nat.zero_le _
      | _ => exact le_rfl
    have htrace : observedPaths (w.accept event f).trace = observedPaths w.trace + 0 := hlonger _
    rw [htrace]
    exact (Nat.add_le_add_right htouched _).trans h
  | tick => exact h
  | paused => exact h
  | _ => exact h.trans ((Nat.le_add_right _ _).trans (hlonger _).ge)

theorem Steps.retainedPaths {start w : World} (steps : Steps start w)
    (h : RetainedPaths start ≤ observedPaths start.trace) :
    RetainedPaths w ≤ observedPaths w.trace := by
  induction steps with
  | refl => exact h
  | tail _ step ih => exact step.retainedPaths ih

theorem not_unforcedDrain {config : Config} {recorder : JjRecorder} {final : World}
    (few : observedPaths final.trace < maxAuditPaths) :
    ¬ UnforcedDrain (World.start config recorder) final := by
  rintro ⟨w, hsteps, hafter, hreports⟩
  have hretained := hsteps.retainedPaths (by simp [RetainedPaths, World.start])
  have hfull := Coordinator.mergePaths_reports _ _ _ hreports.reported
  rw [TreeMap.length_toList] at hfull
  obtain ⟨after, htrace⟩ := hafter.trace_prefix
  have hlonger := observedPaths_append (w.trace ++ [.drained]) after
  rw [show w.trace ++ [.drained] ++ after = final.trace from htrace, observedPaths_append] at hlonger
  change w.coordinator.touchedPaths.size + w.audit.paths.size ≤ _ at hretained
  have : maxAuditPaths < w.coordinator.touchedPaths.size + w.audit.paths.size := hfull
  omega

def rescanningTurn : ℕ → Turn
  | 3 => { arrivals := [.reportOverflow "notify:rescan" 1 0] }
  | 5 => { checkpoint := .error "busy" }
  | 8 => { checkpoint := .ok ⟨"a1", "c1", "t1", []⟩ }
  | _ => { checkpoint := .ok ⟨"a0", "c0", "t0", []⟩ }

theorem overflows_are_recovered_rescanned :
    OverflowsRecovered (reached ⟨rescanningTurn, 12⟩ exampleConfig exampleRecorder
      [.snap, .mark "m" []]).trace :=
  overflows_are_recovered _ _ _ _ (not_unforcedDrain (by decide))

theorem AuditState.touch_limited (state : AuditState) (touched : TouchedPath)
    (h : (state.touch touched).pathLimitReported = true) :
    state.pathLimitReported = true ∨ maxAuditPaths ≤ state.paths.size := by
  unfold AuditState.touch at h
  split at h
  · exact Or.inl h
  split_ifs at h with hroom
  · exact Or.inl h
  · exact Or.inr (Nat.le_of_not_lt hroom)
  · exact Or.inl h

theorem AuditState.foldl_touch_limited (paths : List TouchedPath) (state : AuditState)
    (h : (paths.foldl AuditState.touch state).pathLimitReported = true) :
    state.pathLimitReported = true ∨ maxAuditPaths < state.paths.size + paths.length := by
  induction paths generalizing state with
  | nil => exact Or.inl h
  | cons touched paths ih =>
    have hsize := state.touch_size touched
    rw [List.length_cons]
    rcases ih (state.touch touched) h with hlimited | hmore
    · exact (state.touch_limited touched hlimited).imp_right fun hfull => by omega
    · exact Or.inr (by omega)

def manyPaths : List TouchedPath :=
  (List.range maxAuditPaths).map fun i => ⟨String.ofList (List.replicate i 'x'), [.create]⟩

theorem manyPaths_length : manyPaths.length = maxAuditPaths := by
  rw [manyPaths, List.length_map, List.length_range]

theorem manyPaths_nodup : (manyPaths.map fun touched => touched.path).Nodup := by
  unfold manyPaths
  rw [List.map_map]
  refine List.nodup_range.map_on fun i _ j _ h => ?_
  have hlength := congrArg List.length (String.ofList_injective h)
  simpa using hlength

theorem manyPaths_other : ∀ touched ∈ manyPaths, touched.path ≠ "y" := by
  intro touched hmem hpath
  obtain ⟨i, -, rfl⟩ := List.mem_map.mp hmem
  have hchars := congrArg String.toList hpath
  rw [String.toList_ofList] at hchars
  have hy : 'y' ∈ List.replicate i 'x' := by
    rw [hchars]
    exact List.mem_singleton_self _
  exact absurd (List.eq_of_mem_replicate hy) (by decide)

def crowded (names : List TouchedPath) : AuditState := ({} : AuditState).observe names 1 0 "early"

theorem crowded_frame {names : List TouchedPath} (h : names ≠ []) :
    (crowded names).overflows = [] ∧ (crowded names).startedAt = some "early" ∧
      ((crowded names).pathLimitReported = true → maxAuditPaths < names.length) := by
  set started : AuditState :=
    { startedAt := some "early", first := some 0, last := some 0, rawEvents := saturatingAdd 0 1 }
    with hstarted
  have hobserved : crowded names = names.foldl AuditState.touch started := by
    unfold crowded AuditState.observe
    rw [if_neg (by simpa using h)]
    rfl
  obtain ⟨paths, limit, hfold⟩ := AuditState.foldl_touch_frame names started
  have hlimited := AuditState.foldl_touch_limited names started
  rw [hfold] at hlimited
  rw [hobserved, hfold]
  refine ⟨rfl, rfl, fun hlimit => ?_⟩
  have hmore := (hlimited hlimit).resolve_left (by rw [hstarted]; decide)
  rwa [show started.paths.size = 0 from rfl, Nat.zero_add] at hmore

structure Crowded (batch : AuditBatch) : Prop where
  full : batch.paths.size = maxAuditPaths
  overflows : batch.overflows = []
  other : batch.paths["y"]? = none
  started : batch.startedAt = some "early"

theorem crowded_of {names : List TouchedPath} (hlength : names.length = maxAuditPaths)
    (hnodup : (names.map fun touched => touched.path).Nodup)
    (hother : ∀ touched ∈ names, touched.path ≠ "y") : Crowded (crowded names).drain := by
  have hne : names ≠ [] := by
    rintro rfl
    exact absurd hlength (by decide)
  obtain ⟨hoverflows, hstarted, hlimit⟩ := crowded_frame hne
  obtain ⟨hmerge, -⟩ := observe_merge {} 1 0 "early" hne
  have hkeys : (names.map fun touched => (touched.path, touched.operations)).map Prod.fst =
      names.map fun touched => touched.path := by
    rw [List.map_map]
    rfl
  have hfull := hmerge.full_of_nodup (hkeys ▸ hnodup) (by rw [List.length_map, hlength])
  refine ⟨Nat.le_antisymm (hmerge.bounded (Nat.zero_le _)) hfull, ?_, ?_, hstarted⟩
  · have hunlimited : (crowded names).pathLimitReported = false := by
      by_contra hlimited
      have hmore := hlimit (by simpa using hlimited)
      rw [hlength] at hmore
      exact absurd hmore (lt_irrefl _)
    rw [AuditState.drain, hunlimited]
    exact hoverflows
  · rcases hfound : (crowded names).drain.paths["y"]? with _ | set
    · rfl
    · rcases (hmerge.sound "y" set hfound).1 with ⟨old, hold⟩ | ⟨entry, hmem, hentry⟩
      · exact absurd hold (by simp [AuditState.capped])
      · obtain ⟨touched, htouched, rfl⟩ := List.mem_map.mp hmem
        exact absurd hentry (hother touched htouched)

theorem Crowded.absorb {batch : AuditBatch} (h : Crowded batch) {c : Coordinator}
    (touched : c.touchedPaths = ∅) (overflows : c.pendingOverflows = [])
    (limit : c.pathLimitReported = false) (started : c.auditStartedAt = none) :
    ∃ paths raw, c.absorb batch =
      { c with
        touchedPaths := paths
        rawEvents := raw
        auditStartedAt := some "early"
        pendingSnapshot := true } ∧
      maxAuditPaths ≤ paths.size ∧ paths["y"]? = none := by
  have hmerge := c.absorb_merge batch
  have hkeys : batch.paths.keys =
      (batch.paths.toList.map fun entry => (entry.1, entry.2.toList)).map Prod.fst := by
    rw [List.map_map, ← TreeMap.map_fst_toList_eq_keys]
    rfl
  have hfull : maxAuditPaths ≤ (c.absorb batch).touchedPaths.size := hmerge.full hkeys h.full.ge
  -- the batch fills the window and no more, so nothing is reported
  have hquiet : (c.mergedPaths batch).pendingOverflows = [] := by
    by_contra hsome
    have hmore := Coordinator.mergePaths_reports _ _ _ (overflows.symm ▸ hsome)
    rw [TreeMap.length_toList, h.full] at hmore
    change maxAuditPaths < c.touchedPaths.size + maxAuditPaths at hmore
    rw [touched] at hmore
    exact absurd hmore (by simp)
  have hlimit : (c.absorb batch).pathLimitReported = false := by
    by_contra hlimited
    rcases c.absorb_limit batch (by simpa using hlimited) with hold | ⟨notice, hmem, -⟩
    · rw [limit] at hold
      exact absurd hold (by decide)
    · rw [Coordinator.absorb_pendingOverflows, hquiet, h.overflows] at hmem
      exact absurd hmem (by simp)
  rw [Coordinator.absorb_touchedPaths] at hfull
  rw [Coordinator.absorb_pathLimitReported] at hlimit
  have hnonempty : (c.mergedPaths batch).touchedPaths.isEmpty = false := by
    rw [TreeMap.isEmpty_eq_size_eq_zero, beq_eq_false_iff_ne]
    unfold maxAuditPaths at hfull
    omega
  refine ⟨(c.mergedPaths batch).touchedPaths, saturatingAdd c.rawEvents batch.rawEvents,
    ?_, hfull, ?_⟩
  · rw [Coordinator.absorb_eq, hquiet, hlimit, hnonempty, h.overflows, h.started, started, ← limit,
      ← overflows]
    simp [limit, overflows]
  · -- the path that is left out comes from neither side
    rcases hfound : (c.mergedPaths batch).touchedPaths["y"]? with _ | set
    · rfl
    · rw [← Coordinator.absorb_touchedPaths] at hfound
      rcases (hmerge.sound "y" set hfound).1 with ⟨old, hold⟩ | ⟨entry, hmem, hentry⟩
      · exact absurd hold (by simp [Coordinator.capped, touched])
      · obtain ⟨⟨path, operations⟩, hin, rfl⟩ := List.mem_map.mp hmem
        obtain rfl : path = "y" := hentry
        rw [TreeMap.mem_toList_iff_getElem?_eq_some, h.other] at hin
        exact absurd hin (by simp)

theorem absorb_one_more {c : Coordinator} (full : maxAuditPaths ≤ c.touchedPaths.size)
    (fresh : c.touchedPaths["y"]? = none) (limit : c.pathLimitReported = false)
    (overflows : c.pendingOverflows = []) (pending : c.pendingSnapshot = true)
    (started : c.auditStartedAt = some "early") :
    ∃ raw notice,
      c.absorb (({} : AuditState).observe [⟨"y", [.create]⟩] 1 1 "late").drain =
        { c with
          rawEvents := raw
          pendingOverflows := [notice]
          pathLimitReported := true } := by
  set batch := (({} : AuditState).observe [⟨"y", [.create]⟩] 1 1 "late").drain with hbatch
  have hpaths : batch.paths.toList = [("y", TreeSet.ofList [TouchOperation.create])] := rfl
  have hroom : ¬ c.touchedPaths.size < maxAuditPaths := Nat.not_lt.mpr full
  have hmerged : c.mergedPaths batch =
      { c with
        pendingOverflows := [⟨auditPathLimit, saturatingAdd c.rawEvents batch.rawEvents⟩]
        pathLimitReported := true } := by
    rw [Coordinator.mergedPaths, hpaths, started, Option.some_or, ← started]
    simp only [List.foldl_cons, List.foldl_nil, Coordinator.mergePath, fresh, hroom, limit,
      overflows, if_false, Bool.not_false, if_true, List.nil_append]
  refine ⟨saturatingAdd c.rawEvents batch.rawEvents,
    ⟨auditPathLimit, saturatingAdd c.rawEvents batch.rawEvents⟩, ?_⟩
  rw [Coordinator.absorb_eq, hmerged, show batch.overflows = [] from rfl, started,
    Option.some_or, ← started, pending]
  simp

def floodedTurn (names : List TouchedPath) : ℕ → Turn
  | 2 => { arrivals := [.observe names 1 0 "early"] }
  | 3 => { arrivals := [.observe [⟨"y", [.create]⟩] 1 1 "late"] }
  | _ => { checkpoint := .ok ⟨"a0", "c0", "t0", []⟩ }

def floodedStart : World :=
  ((initializeCoordinator ⟨floodedTurn [], 8⟩).run (World.start exampleConfig exampleRecorder)).2

def Label.scanMark : Label → Option ℕ
  | .capturing fullScan => if fullScan then some 0 else some 1
  | .captured _ => some 2
  | .accepted event =>
    if event.isOverflow then some 3 else if event.isSnapshot then some 4 else none
  | _ => none

/-- A flush that drains twice before its snapshot: the second drain reports the limit, and
the snapshot is taken without a full scan. -/
theorem flooded_marks (names : List TouchedPath) {c c' : Coordinator} {paths : AuditPaths}
    {raw raw' : ℕ} {notice : OverflowNotice}
    (hfirst : floodedStart.coordinator.absorb (crowded names).drain = c)
    (hc : c = { floodedStart.coordinator with
      touchedPaths := paths, rawEvents := raw, auditStartedAt := some "early"
      pendingSnapshot := true })
    (hsecond : c.absorb (({} : AuditState).observe [⟨"y", [.create]⟩] 1 1 "late").drain = c')
    (hc' : c' = { c with
      rawEvents := raw', pendingOverflows := [notice], pathLimitReported := true }) :
    (reached ⟨floodedTurn names, 8⟩ exampleConfig exampleRecorder
      [.flush]).trace.filterMap Label.scanMark = [0, 2, 3, 1, 2, 4] := by
  set env : Environment := ⟨floodedTurn names, 8⟩
  -- the first batch holds as many paths as it may
  have hopen : (initializeCoordinator env).run (World.start exampleConfig exampleRecorder) =
      (.ok (), floodedStart) := rfl
  have hobserved : (interleave env).run floodedStart =
      (.ok (), { floodedStart.record (.observe names 1 0 "early") with clock := 3 }) := rfl
  set idle : World := { floodedStart.record (.observe names 1 0 "early") with clock := 3 }
  have hbegin : (beginCommand .flush).run idle =
      (.ok (), idle.log (.began .flush idle.coordinator idle.audit)) := rfl
  set begun : World := idle.log (.began .flush idle.coordinator idle.audit)
  have hdrain : drainAudit.run begun = (.ok (),
      { begun with coordinator := c, audit := {}, trace := begun.trace ++ [.drained] }) := by
    rw [← hfirst]
    rfl
  set drained : World :=
    { begun with coordinator := c, audit := {}, trace := begun.trace ++ [.drained] } with hdrained
  -- one path more is observed while the snapshot is taken
  have hwaited : (interleave env).run drained = (.ok (),
      { drained.record (.observe [⟨"y", [.create]⟩] 1 1 "late") with clock := 4 }) := rfl
  set late : World := { drained.record (.observe [⟨"y", [.create]⟩] 1 1 "late") with clock := 4 }
  have hagain : drainAudit.run late = (.ok (),
      { late with coordinator := c', audit := {}, trace := late.trace ++ [.drained] }) := by
    rw [← hsecond]
    rfl
  have hnone : drained.coordinator.pendingSnapshotEvent = none := by
    rw [hdrained, hc]
    rfl
  have hpending : drained.coordinator.pendingSnapshot = true := by rw [hdrained, hc]
  subst hc
  subst hc'
  obtain ⟨taken, w, hsnapshot, hcut, hmarks⟩ : ∃ taken w, (snapshot env).run drained = (.ok taken, w) ∧
      (interleave env).run w = (.cut, w) ∧
      w.trace.filterMap Label.scanMark = [0, 2, 3, 1, 2, 4] := by
    unfold snapshot
    simp only [run_bind, run_get, hnone, hwaited, hagain]
    exact ⟨_, _, rfl, rfl, rfl⟩
  -- and the horizon ends the flush there
  have hflush : (flush env).run begun = (.cut, w) := by
    unfold flush settle settleFrom
    simp only [run_bind, run_get, hdrain, hpending, if_true, hsnapshot, hcut]
  have hserved : (serve env .flush).run idle = (.cut, w) := by
    have hperform : (perform env .flush).run begun = (.cut, w) := by
      show (flush env >>= fun status => pure (Reply.status status)).run begun = _
      rw [run_bind, hflush]
    unfold serve
    simp only [run_bind, hbegin, attempt, hperform]
  have hrun : (run env [.flush]).run floodedStart = (.cut, w) := by
    unfold run
    simp only [run_bind, hobserved, hserved]
  unfold reached session
  simp only [run_bind, hopen, hrun]
  exact hmarks

theorem scanMark_snapshot {event : Event} (h : event.isSnapshot = true) :
    (Label.accepted event).scanMark = some 4 := by
  have hother : event.isOverflow = false := by
    unfold Event.isSnapshot at h
    unfold Event.isOverflow
    cases hbody : event.body <;> simp_all
  simp [Label.scanMark, h, hother]

theorem accepted_of_scanMark {label : Label} {mark : ℕ} (h : label.scanMark = some mark)
    (hmark : 2 < mark) : ∃ event, label = .accepted event ∧
      ((mark = 3 ∧ event.isOverflow = true) ∨ (mark = 4 ∧ event.isSnapshot = true)) := by
  unfold Label.scanMark at h
  split at h
  · split_ifs at h <;> simp at h <;> omega
  · simp at h
    omega
  · next event =>
    refine ⟨event, rfl, ?_⟩
    split_ifs at h with hoverflow hsnapshot
    · exact Or.inl ⟨(Option.some.inj h).symm, hoverflow⟩
    · exact Or.inr ⟨(Option.some.inj h).symm, hsnapshot⟩
  · exact absurd h (by simp)

theorem scanMarks_arrivals {awaited : List Label} (h : ∀ l ∈ awaited, l.isArrival) :
    awaited.filterMap Label.scanMark = [] := by
  rw [List.filterMap_eq_nil_iff]
  intro label hmem
  have hl := h label hmem
  cases label <;> first | rfl | exact absurd hl (by simp [Label.isArrival])

theorem split_scanMarks {trace : List Label} {first last : List ℕ} {mark : ℕ}
    (h : trace.filterMap Label.scanMark = first ++ mark :: last) :
    ∃ before label after, trace = before ++ label :: after ∧ label.scanMark = some mark ∧
      before.filterMap Label.scanMark = first ∧ after.filterMap Label.scanMark = last := by
  obtain ⟨before, rest, rfl, hbefore, hrest⟩ := List.filterMap_eq_append_iff.mp h
  obtain ⟨quiet, label, after, rfl, hquiet, hlabel, hafter⟩ :=
    List.filterMap_eq_cons_iff.mp hrest
  refine ⟨before ++ quiet, label, after, by simp, hlabel, ?_, hafter⟩
  rw [List.filterMap_append, hbefore, List.filterMap_eq_nil_iff.mpr hquiet, List.append_nil]

/-- The last snapshot of such a trace does not come from a full scan although an overflow
event announced one. -/
theorem not_recovered_of_marks {trace : List Label}
    (h : trace.filterMap Label.scanMark = [0, 2, 3, 1, 2, 4]) : ¬ OverflowsRecovered trace := by
  intro hrecovered
  obtain ⟨before, label, after, rfl, hlabel, hbefore, -⟩ :=
    split_scanMarks (show _ = [0, 2, 3, 1, 2] ++ 4 :: [] from h)
  obtain ⟨event, rfl, ⟨hthree, -⟩ | ⟨-, hsnapshot⟩⟩ := accepted_of_scanMark hlabel (by decide)
  · exact absurd hthree (by decide)
  -- an overflow was accepted, and no snapshot since
  have howed : Unrecovered before := by
    obtain ⟨earlier, label, since, rfl, hlabel, -, hsince⟩ :=
      split_scanMarks (show _ = [0, 2] ++ 3 :: [1, 2] from hbefore)
    obtain ⟨overflow, rfl, ⟨-, hoverflow⟩ | ⟨hfour, -⟩⟩ := accepted_of_scanMark hlabel (by decide)
    · refine ⟨earlier, overflow, since, rfl, hoverflow, fun later hlater => ?_⟩
      by_contra hsome
      have hmem : 4 ∈ since.filterMap Label.scanMark :=
        List.mem_filterMap.mpr ⟨_, hlater, scanMark_snapshot (by simpa using hsome)⟩
      rw [hsince] at hmem
      exact absurd hmem (by decide)
    · exact absurd hfour (by decide)
  obtain ⟨earlier, awaited, snapshot, since, rfl, hawaited, -, hsince⟩ :=
    (hrecovered before _ after rfl event rfl howed).1 hsnapshot
  -- the full scan would have to be the last capture before it
  have hnone : 2 ∉ since.filterMap Label.scanMark := by
    intro hmem
    obtain ⟨label, hlabel, hmark⟩ := List.mem_filterMap.mp hmem
    have huncaptured := hsince label hlabel
    cases label with
    | captured => exact absurd huncaptured (by simp [Label.isCaptured])
    | capturing fullScan => cases fullScan <;> simp [Label.scanMark] at hmark
    | accepted event =>
      simp only [Label.scanMark] at hmark
      split_ifs at hmark <;> simp at hmark
    | _ => simp [Label.scanMark] at hmark
  have hcapturing : (Label.capturing true).scanMark = some 0 := rfl
  have hcaptured : (Label.captured snapshot).scanMark = some 2 := rfl
  rw [List.filterMap_append, List.filterMap_cons_some hcapturing, List.filterMap_append,
    scanMarks_arrivals hawaited, List.nil_append, List.filterMap_cons_some hcaptured] at hbefore
  rcases hearlier : earlier.filterMap Label.scanMark with _ | ⟨mark, marks⟩ <;>
    rw [hearlier] at hbefore
  · rw [List.nil_append, List.cons.injEq, List.cons.injEq] at hbefore
    rw [hbefore.2.2] at hnone
    exact absurd hnone (by decide)
  · rw [List.cons_append, List.cons.injEq] at hbefore
    have hzero : 0 ∈ [2, 3, 1, 2] := by
      rw [← hbefore.2]
      simp
    exact absurd hzero (by decide)

/-- The limit on retained paths is announced by an overflow event, but the next snapshot
does not come from a full scan. -/
theorem overflow_without_full_scan :
    ¬ ∀ env config recorder commands,
      OverflowsRecovered (reached env config recorder commands).trace := by
  intro h
  obtain ⟨paths, raw, hfirst, hfull, hfresh⟩ :=
    (crowded_of manyPaths_length manyPaths_nodup manyPaths_other).absorb
      (c := floodedStart.coordinator) rfl rfl rfl rfl
  obtain ⟨raw', notice, hsecond⟩ := absorb_one_more
    (c := { floodedStart.coordinator with
      touchedPaths := paths, rawEvents := raw, auditStartedAt := some "early"
      pendingSnapshot := true }) hfull hfresh rfl rfl rfl rfl
  exact not_recovered_of_marks (flooded_marks manyPaths hfirst rfl hsecond rfl) (h _ _ _ _)

end Rrjj
