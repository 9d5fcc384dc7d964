import Rrjj.Library.Trace
import Rrjj.Core.Commands

/-! The barrier: what was recorded before a command is covered, when the command succeeds,
by a snapshot captured after it; and while anything is uncovered the status says so. -/

namespace Rrjj
open Library Library.Proc

def Label.isNotice : Label → Bool
  | .observed paths _ => !paths.isEmpty
  | .overflowed _ _ => true
  | _ => false

def Label.isCapturing : Label → Bool
  | .capturing _ => true
  | _ => false

def Taken (snapshot : Snapshot) (since : List Label) : Prop :=
  ∃ before fullScan waiting after,
    since = before ++ .capturing fullScan :: (waiting ++ .captured snapshot :: after) ∧
      (∀ l ∈ waiting, l.isArrival) ∧ ∀ l ∈ after, l.isCapturing = false

def CoveredIn (since : List Label) : Prop :=
  ∃ taken event snapshot after, since = taken ++ .accepted event :: after ∧
    event.body = .snapshot snapshot ∧ Taken snapshot taken

/-- `since` is what followed something that was recorded. -/
def Follows (trace since : List Label) : Prop :=
  ∃ before notice, trace = before ++ notice :: since ∧ notice.isNotice = true

def Command.settles : Command → Bool
  | .mark _ _ | .flush | .resume | .shutdown _ => true
  | _ => false

/-- `command` is the last one taken up, and what was recorded before is covered: by the time
of the command's own event, or by now when it has none. -/
def Guarded (command : Command) (trace : List Label) : Prop :=
  ∃ before coordinator audit served rest,
    trace = before ++ .began command coordinator audit :: (served ++ rest) ∧
      (∀ l ∈ served ++ rest, l.isBegan = false) ∧
      (command.publishes = true →
        ∃ event after, rest = .accepted event :: after ∧ OwnEvent command event.body) ∧
      ∀ since, Follows before since →
        CoveredIn (since ++ .began command coordinator audit :: served)

def Barrier (trace : List Label) : Prop :=
  AtEvery (fun before label => ∀ command reply, label = .replied command reply →
    command.settles = true → reply.isOk = true → Guarded command before) trace

def Honest (w : World) : Prop :=
  ∀ since, Follows w.trace since → ¬ CoveredIn since →
    (w.coordinator.status w.audit).pendingSnapshot = true

theorem WatcherCall.isNotice_label (call : WatcherCall) : call.label.isNotice = call.isActive := by
  cases call <;> rfl

theorem Follows.of_snoc {trace since : List Label} {label : Label}
    (h : Follows (trace ++ [label]) since) :
    (since = [] ∧ label.isNotice = true) ∨ ∃ rest, since = rest ++ [label] ∧ Follows trace rest := by
  obtain ⟨before, notice, htrace, hnotice⟩ := h
  rcases split_snoc htrace with ⟨-, rfl, hnil⟩ | ⟨rest, hrest, htrace'⟩
  · exact Or.inl ⟨hnil, hnotice⟩
  · exact Or.inr ⟨rest, hrest, before, notice, htrace', hnotice⟩

theorem Follows.append {trace since : List Label} (h : Follows trace since) (after : List Label) :
    Follows (trace ++ after) (since ++ after) := by
  obtain ⟨before, notice, rfl, hnotice⟩ := h
  exact ⟨before, notice, by simp, hnotice⟩

theorem CoveredIn.snoc {since : List Label} (h : CoveredIn since) (label : Label) :
    CoveredIn (since ++ [label]) := by
  obtain ⟨taken, event, snapshot, after, rfl, hbody, htaken⟩ := h
  exact ⟨taken, event, snapshot, after ++ [label], by simp, hbody, htaken⟩

theorem Taken.snoc {snapshot : Snapshot} {since : List Label} (h : Taken snapshot since)
    {label : Label} (hl : label.isCapturing = false) : Taken snapshot (since ++ [label]) := by
  obtain ⟨before, fullScan, waiting, after, rfl, hwaiting, hafter⟩ := h
  refine ⟨before, fullScan, waiting, after ++ [label], by simp, hwaiting, ?_⟩
  intro l hmem
  rcases List.mem_append.mp hmem with hmem | hmem
  · exact hafter l hmem
  · rw [List.mem_singleton.mp hmem]
    exact hl

theorem Taken.covered {snapshot : Snapshot} {since : List Label} {event : Event}
    (h : Taken snapshot since) (body : event.body = .snapshot snapshot) :
    CoveredIn (since ++ [.accepted event]) :=
  ⟨since, event, snapshot, [], rfl, body, h⟩

theorem taken_of_awaiting {trace since : List Label} {fullScan : Bool} (snapshot : Snapshot)
    (awaiting : Awaiting (.capturing fullScan) trace) (follows : Follows trace since)
    (drained : .drained ∈ since) : Taken snapshot (since ++ [.captured snapshot]) := by
  obtain ⟨before, waiting, htrace, hwaiting⟩ := awaiting
  obtain ⟨before', notice, htrace', hnotice⟩ := follows
  rw [htrace] at htrace'
  rcases List.append_eq_append_iff.mp htrace' with ⟨mid, hbefore, hmid⟩ | ⟨mid, hbefore, hmid⟩
  · -- the notice arrived while the capture was awaited, and nothing was drained since
    rcases mid with _ | ⟨first, mid⟩
    · rw [List.nil_append, List.cons.injEq] at hmid
      rw [← hmid.1] at hnotice
      exact absurd hnotice (by simp [Label.isNotice])
    · rw [List.cons_append, List.cons.injEq] at hmid
      have := hwaiting .drained (by rw [hmid.2]; simp [drained])
      exact absurd this (by simp [Label.isArrival])
  · rcases mid with _ | ⟨first, mid⟩
    · rw [List.nil_append, List.cons.injEq] at hmid
      rw [hmid.1] at hnotice
      exact absurd hnotice (by simp [Label.isNotice])
    · rw [List.cons_append, List.cons.injEq] at hmid
      exact ⟨mid, fullScan, waiting, [], by rw [hmid.2]; simp, hwaiting, by simp⟩

structure BarrierState (w : World) : Prop where
  window : w.coordinator.Windowed
  accumulator : w.audit.Windowed
  recorded : ∀ since, Follows w.trace since → .drained ∉ since → w.audit.isDirty = true
  pending : ∀ since, Follows w.trace since → .drained ∈ since → ¬ CoveredIn since →
    w.coordinator.pendingSnapshot = true
  retained : ∀ event, w.coordinator.pendingSnapshotEvent = some event →
    ∃ snapshot, event.body = .snapshot snapshot ∧
      ∀ since, Follows w.trace since → .drained ∈ since → ¬ CoveredIn since →
        Taken snapshot since ∨ w.coordinator.auditStartedAt.isSome = true ∨
          w.coordinator.pendingOverflows ≠ []

theorem BarrierState.settled {w : World} {command command' : Command} {coordinator : Coordinator}
    {audit : AuditState} {before served since : List Label} (h : BarrierState w)
    (settled : Settled command w)
    (htrace : w.trace = before ++ .began command' coordinator audit :: served)
    (hserved : ∀ l ∈ served, l.isBegan = false) (follows : Follows before since) :
    CoveredIn (since ++ .began command' coordinator audit :: served) := by
  obtain ⟨before', coordinator', audit', served', htrace', hdrained, hserved'⟩ := settled.underway
  rw [htrace'] at htrace
  obtain ⟨-, -, rfl⟩ := last_unique htrace rfl rfl hserved' hserved
  by_contra huncovered
  have hfollows : Follows w.trace (since ++ .began command' coordinator audit :: served') := by
    rw [htrace', htrace]
    exact follows.append _
  have hpending := h.pending _ hfollows (by simp [hdrained]) huncovered
  rw [settled.idle] at hpending
  exact absurd hpending (by decide)

structure SameAudit (c c' : Coordinator) : Prop where
  touchedPaths : c'.touchedPaths = c.touchedPaths
  auditStartedAt : c'.auditStartedAt = c.auditStartedAt
  pendingSnapshot : c'.pendingSnapshot = c.pendingSnapshot
  pendingSnapshotEvent : c'.pendingSnapshotEvent = c.pendingSnapshotEvent
  pendingOverflows : c'.pendingOverflows = c.pendingOverflows

theorem SameAudit.refl (c : Coordinator) : SameAudit c c := ⟨rfl, rfl, rfl, rfl, rfl⟩

theorem BarrierState.frame {w w' : World} {label : Label} (h : BarrierState w)
    (trace : w'.trace = w.trace ++ [label]) (audit : w'.audit = w.audit)
    (quiet : label.isNotice = false) (undrained : label ≠ .drained)
    (window : w'.coordinator.Windowed)
    (pending : ∀ since, Follows w.trace since → .drained ∈ since →
      ¬ CoveredIn (since ++ [label]) → w'.coordinator.pendingSnapshot = true)
    (retained : ∀ event, w'.coordinator.pendingSnapshotEvent = some event →
      ∃ snapshot, event.body = .snapshot snapshot ∧
        ∀ since, Follows w.trace since → .drained ∈ since → ¬ CoveredIn (since ++ [label]) →
          Taken snapshot (since ++ [label]) ∨ w'.coordinator.auditStartedAt.isSome = true ∨
            w'.coordinator.pendingOverflows ≠ []) : BarrierState w' := by
  have hback : ∀ since, Follows w'.trace since →
      ∃ rest, since = rest ++ [label] ∧ Follows w.trace rest := by
    intro since hfollows
    rw [trace] at hfollows
    refine hfollows.of_snoc.resolve_left fun hnotice => ?_
    rw [quiet] at hnotice
    exact absurd hnotice.2 (by decide)
  have hdrained : ∀ rest, Label.drained ∈ rest ++ [label] → Label.drained ∈ rest := by
    intro rest hmem
    exact (List.mem_append.mp hmem).resolve_right fun hlast =>
      undrained (List.mem_singleton.mp hlast).symm
  refine ⟨window, audit ▸ h.accumulator, ?_, ?_, ?_⟩
  · intro since hfollows hnot
    obtain ⟨rest, rfl, hrest⟩ := hback since hfollows
    rw [audit]
    exact h.recorded rest hrest fun hmem => hnot (List.mem_append_left _ hmem)
  · intro since hfollows hmem huncovered
    obtain ⟨rest, rfl, hrest⟩ := hback since hfollows
    exact pending rest hrest (hdrained rest hmem) huncovered
  · intro event hevent
    obtain ⟨snapshot, hbody, hkept⟩ := retained event hevent
    refine ⟨snapshot, hbody, fun since hfollows hmem huncovered => ?_⟩
    obtain ⟨rest, rfl, hrest⟩ := hback since hfollows
    exact hkept rest hrest (hdrained rest hmem) huncovered

theorem BarrierState.log {w w' : World} {label : Label} (h : BarrierState w)
    (trace : w'.trace = w.trace ++ [label]) (audit : w'.audit = w.audit)
    (same : SameAudit w.coordinator w'.coordinator)
    (quiet : label.isNotice = false) (undrained : label ≠ .drained)
    (uncaptured : label.isCapturing = false ∨ w.coordinator.pendingSnapshotEvent = none) :
    BarrierState w' := by
  refine h.frame trace audit quiet undrained ?_ ?_ ?_
  · intro htouched
    rw [same.touchedPaths] at htouched
    rw [same.auditStartedAt]
    exact h.window htouched
  · intro since hfollows hmem huncovered
    rw [same.pendingSnapshot]
    exact h.pending since hfollows hmem fun hcovered => huncovered (hcovered.snoc label)
  · intro event hevent
    rw [same.pendingSnapshotEvent] at hevent
    obtain ⟨snapshot, hbody, hkept⟩ := h.retained event hevent
    refine ⟨snapshot, hbody, fun since hfollows hmem huncovered => ?_⟩
    rw [same.auditStartedAt, same.pendingOverflows]
    have huncaptured := uncaptured.resolve_right (by rw [hevent]; simp)
    exact (hkept since hfollows hmem fun hcovered => huncovered (hcovered.snoc label)).imp_left
      fun htaken => htaken.snoc huncaptured

theorem BarrierState.delivered {w w' : World} {event : Event} (h : BarrierState w)
    (trace : w'.trace = w.trace ++ [.accepted event]) (audit : w'.audit = w.audit)
    (window : w'.coordinator.Windowed)
    (none : w'.coordinator.pendingSnapshotEvent = none)
    (pending : ∀ since, Follows w.trace since → .drained ∈ since →
      ¬ CoveredIn (since ++ [.accepted event]) → w'.coordinator.pendingSnapshot = true) :
    BarrierState w' := by
  refine h.frame trace audit rfl (by simp) window pending ?_
  intro retained hretained
  exact absurd (none.symm.trans hretained) (by simp)

theorem BarrierState.accepted {w : World} {event : Event} {f : Coordinator → Coordinator}
    (h : BarrierState w) (emission : Emission w event f) : BarrierState (w.accept event f) := by
  have hkept : ∀ since, Follows w.trace since → .drained ∈ since →
      ¬ CoveredIn (since ++ [.accepted event]) → w.coordinator.pendingSnapshot = true :=
    fun since hfollows hmem huncovered =>
      h.pending since hfollows hmem fun hcovered => huncovered (hcovered.snoc _)
  have hsame : BarrierState (w.accept event id) :=
    h.log rfl rfl ⟨rfl, rfl, rfl, rfl, rfl⟩ rfl (by simp) (Or.inl rfl)
  cases emission with
  | sessionStart => exact hsame
  | mark => exact hsame
  | sessionEnd => exact hsame
  | flush => exact hsame
  | overflow time notice rest delivered => exact h.delivered rfl rfl h.window delivered hkept
  | audit time startedAt ended delivered =>
    refine h.delivered rfl rfl ?_ delivered hkept
    intro htouched
    exact absurd htouched (by simp [World.accept, Coordinator.auditEmitted])
  | retained event snapshot retained body =>
    refine h.delivered rfl rfl h.window rfl fun since hfollows hmem huncovered => ?_
    obtain ⟨value, hvalue, hcases⟩ := h.retained event retained
    rw [body] at hvalue
    obtain rfl := EventBody.snapshot.inj hvalue
    have hopen := (hcases since hfollows hmem fun hcovered => huncovered (hcovered.snoc _)).resolve_left
      fun htaken => huncovered (htaken.covered body)
    show (w.coordinator.auditStartedAt.isSome || !w.coordinator.pendingOverflows.isEmpty) = true
    rw [Bool.or_eq_true, Bool.not_eq_true', List.isEmpty_eq_false_iff]
    exact hopen
  | snapshot event snapshot retained body overflows audit =>
    refine h.delivered rfl rfl h.window rfl fun since hfollows hmem huncovered => ?_
    obtain ⟨value, hvalue, hcases⟩ := h.retained event retained
    rw [body] at hvalue
    obtain rfl := EventBody.snapshot.inj hvalue
    have hopen := (hcases since hfollows hmem fun hcovered => huncovered (hcovered.snoc _)).resolve_left
      fun htaken => huncovered (htaken.covered body)
    -- a snapshot is sent when no audit is open and no overflow is left
    rcases hopen with hstarted | hoverflows
    · rw [audit] at hstarted
      exact absurd hstarted (by simp)
    · exact absurd overflows hoverflows

theorem BarrierState.arrival {w : World} (h : BarrierState w) (call : WatcherCall) :
    BarrierState (w.record call) := by
  have hundrained : call.label ≠ .drained := by cases call <;> simp [WatcherCall.label]
  have hdrained : ∀ rest, Label.drained ∈ rest ++ [call.label] → Label.drained ∈ rest := by
    intro rest hmem
    exact (List.mem_append.mp hmem).resolve_right fun hlast =>
      hundrained (List.mem_singleton.mp hlast).symm
  refine ⟨h.window, AuditState.apply_windowed h.accumulator call, ?_, ?_, ?_⟩
  · intro since hfollows hnot
    rcases hfollows.of_snoc with ⟨-, hnotice⟩ | ⟨rest, rfl, hrest⟩
    · rw [call.isNotice_label] at hnotice
      exact AuditState.apply_active w.audit hnotice
    · exact AuditState.apply_dirty w.audit call
        (h.recorded rest hrest fun hmem => hnot (List.mem_append_left _ hmem))
  · intro since hfollows hmem huncovered
    rcases hfollows.of_snoc with ⟨rfl, -⟩ | ⟨rest, rfl, hrest⟩
    · exact absurd hmem (by simp)
    · exact h.pending rest hrest (hdrained rest hmem) fun hcovered => huncovered (hcovered.snoc _)
  · intro event hevent
    obtain ⟨snapshot, hbody, hkept⟩ := h.retained event hevent
    refine ⟨snapshot, hbody, fun since hfollows hmem huncovered => ?_⟩
    rcases hfollows.of_snoc with ⟨rfl, -⟩ | ⟨rest, rfl, hrest⟩
    · exact absurd hmem (by simp)
    · refine (hkept rest hrest (hdrained rest hmem) fun hcovered =>
        huncovered (hcovered.snoc _)).imp_left fun htaken => htaken.snoc ?_
      cases call <;> rfl

theorem BarrierState.drained {w : World} (h : BarrierState w) : BarrierState w.drainAudit := by
  have hback : ∀ since, Follows w.drainAudit.trace since →
      ∃ rest, since = rest ++ [.drained] ∧ Follows w.trace rest := by
    intro since hfollows
    refine hfollows.of_snoc.resolve_left fun hnotice => ?_
    exact absurd hnotice.2 (by decide)
  refine ⟨Coordinator.absorb_windowed h.window h.accumulator, AuditState.windowed_empty, ?_, ?_, ?_⟩
  · intro since hfollows hnot
    obtain ⟨rest, rfl, -⟩ := hback since hfollows
    exact absurd (List.mem_append_right _ (List.mem_singleton_self _)) hnot
  · intro since hfollows _ huncovered
    obtain ⟨rest, rfl, hrest⟩ := hback since hfollows
    by_cases hmem : .drained ∈ rest
    · have hpending := h.pending rest hrest hmem fun hcovered => huncovered (hcovered.snoc _)
      show (w.coordinator.absorb w.audit.drain).pendingSnapshot = true
      rw [Coordinator.absorb_pendingSnapshot, hpending, Bool.true_or]
    · exact Coordinator.absorb_dirty _ _ (h.recorded rest hrest hmem)
  · intro event hevent
    have hevent' : w.coordinator.pendingSnapshotEvent = some event := by
      rw [← hevent]
      exact (Coordinator.absorb_pendingSnapshotEvent _ _).symm
    obtain ⟨snapshot, hbody, hkept⟩ := h.retained event hevent'
    refine ⟨snapshot, hbody, fun since hfollows _ huncovered => ?_⟩
    obtain ⟨rest, rfl, hrest⟩ := hback since hfollows
    by_cases hmem : .drained ∈ rest
    · rcases hkept rest hrest hmem fun hcovered => huncovered (hcovered.snoc _) with
        htaken | hstarted | hoverflows
      · exact Or.inl (htaken.snoc rfl)
      · refine Or.inr (Or.inl ?_)
        show (w.coordinator.absorb w.audit.drain).auditStartedAt.isSome = true
        rw [Coordinator.absorb_auditStartedAt, Option.isSome_or, hstarted, Bool.true_or]
      · refine Or.inr (Or.inr ?_)
        show (w.coordinator.absorb w.audit.drain).pendingOverflows ≠ []
        obtain ⟨notices, hmerged⟩ := Coordinator.mergedPaths_overflows w.coordinator w.audit.drain
        rw [Coordinator.absorb_pendingOverflows, hmerged]
        simp [hoverflows]
    · exact Or.inr (Coordinator.absorb_opens _ h.accumulator (h.recorded rest hrest hmem))

theorem Step.barrierState {w w' : World} (h : BarrierState w) (step : Step w w') :
    BarrierState w' := by
  cases step with
  | arrival call => exact h.arrival call
  | tick => exact ⟨h.window, h.accumulator, h.recorded, h.pending, h.retained⟩
  | paused => exact ⟨h.window, h.accumulator, h.recorded, h.pending, h.retained⟩
  | drained => exact h.drained
  | capturing fullScan quiet =>
    exact h.log rfl rfl (.refl _) rfl (by simp) (Or.inr quiet.delivered)
  | baseline fullScan checkpoint =>
    exact h.log rfl rfl ⟨rfl, rfl, rfl, rfl, rfl⟩ rfl (by simp) (Or.inl rfl)
  | captured fullScan checkpoint time awaiting =>
    refine h.frame rfl rfl rfl (by simp) h.window ?_ ?_
    · intro since hfollows hmem huncovered
      exact h.pending since hfollows hmem fun hcovered => huncovered (hcovered.snoc _)
    · intro event hevent
      refine ⟨_, by rw [← Option.some.inj hevent]; rfl, fun since hfollows hmem _ => ?_⟩
      exact Or.inl (taken_of_awaiting _ awaiting hfollows hmem)
  | accepted event f _ _ emission => exact h.accepted emission
  | _ => exact h.log rfl rfl (.refl _) rfl (by simp) (Or.inl rfl)

def OwnCovered (trace : List Label) : Prop :=
  AtEvery (fun before label => ∀ event, label = .accepted event →
    ∀ earlier command coordinator audit served,
      before = earlier ++ .began command coordinator audit :: served →
      (∀ l ∈ served, l.isBegan = false) → OwnEvent command event.body →
      ∀ since, Follows earlier since →
        CoveredIn (since ++ .began command coordinator audit :: served)) trace

theorem Emission.settled {w : World} {event : Event} {f : Coordinator → Coordinator}
    {command : Command} (h : Emission w event f) (own : OwnEvent command event.body) :
    ∃ command', Settled command' w := by
  cases h with
  | mark _ _ _ settled => exact ⟨_, settled⟩
  | sessionEnd _ _ settled => exact ⟨_, settled⟩
  | flush _ command' _ settled => exact ⟨command', settled⟩
  | retained _ snapshot _ body =>
    rw [body] at own
    cases command <;> simp [OwnEvent] at own
  | snapshot _ snapshot _ body =>
    rw [body] at own
    cases command <;> simp [OwnEvent] at own
  | sessionStart => cases command <;> simp [OwnEvent] at own
  | overflow => cases command <;> simp [OwnEvent, overflowBody] at own
  | audit => cases command <;> simp [OwnEvent, Coordinator.touchedPathsBody] at own

theorem guarded_of_served {w : World} {command : Command} (h : BarrierState w)
    (owns : OwnCovered w.trace) (settles : command.settles = true)
    (served : command.publishes = true → OwnAccepted command w.trace)
    (resumed : command = .resume → Settled command w) : Guarded command w.trace := by
  by_cases hpublishes : command.publishes = true
  · obtain ⟨before, coordinator, audit, first, event, since, htrace, hown, hfirst, hsince⟩ :=
      served hpublishes
    refine ⟨before, coordinator, audit, first, .accepted event :: since, htrace, ?_,
      fun _ => ⟨event, since, rfl, hown⟩, fun later hlater => ?_⟩
    · intro l hl
      rcases List.mem_append.mp hl with hl | hl
      · exact hfirst l hl
      · rcases List.mem_cons.mp hl with rfl | hl
        · rfl
        · exact hsince l hl
    · have hsplit : w.trace = (before ++ .began command coordinator audit :: first) ++
          .accepted event :: since := by rw [htrace]; simp
      exact owns _ _ _ hsplit event rfl before command coordinator audit first rfl hfirst hown
        later hlater
  · have hresume : command = .resume := by
      cases command <;> simp_all [Command.settles, Command.publishes]
    have hsettled := resumed hresume
    obtain ⟨before, coordinator, audit, since, htrace, -, hsince⟩ := hsettled.underway
    refine ⟨before, coordinator, audit, since, [], by rw [htrace]; simp, by simpa using hsince,
      fun h => absurd h hpublishes, fun later hlater => ?_⟩
    exact h.settled hsettled htrace hsince hlater

structure BarrierKept (w : World) : Prop where
  state : BarrierState w
  owns : OwnCovered w.trace
  barrier : Barrier w.trace

theorem Step.barrierKept {w w' : World} (h : BarrierKept w) (step : Step w w') :
    BarrierKept w' := by
  have hstate := step.barrierState h.state
  have hlog : ∀ label, w'.trace = w.trace ++ [label] → (∀ event, label ≠ .accepted event) →
      (∀ command reply, label ≠ .replied command reply) → BarrierKept w' := by
    intro label htrace haccepted hreplied
    refine ⟨hstate, ?_, ?_⟩
    · rw [htrace]
      exact h.owns.snoc fun event heq => absurd heq (haccepted event)
    · rw [htrace]
      exact h.barrier.snoc fun command reply heq => absurd heq (hreplied command reply)
  cases step with
  | tick => exact ⟨hstate, h.owns, h.barrier⟩
  | paused => exact ⟨hstate, h.owns, h.barrier⟩
  | arrival call =>
    exact hlog call.label rfl (by cases call <;> simp [WatcherCall.label])
      (by cases call <;> simp [WatcherCall.label])
  | accepted event f _ _ emission =>
    refine ⟨hstate, h.owns.snoc ?_, h.barrier.snoc (by simp)⟩
    rintro event' heq earlier command coordinator audit served htrace hserved hown since hsince
    obtain rfl := Label.accepted.inj heq
    obtain ⟨command', hsettled⟩ := emission.settled hown
    exact h.state.settled hsettled htrace hserved hsince
  | replied command reply served resumed =>
    refine ⟨hstate, h.owns.snoc (by simp), h.barrier.snoc ?_⟩
    intro command' reply' heq hsettles hok
    obtain ⟨rfl, rfl⟩ := Label.replied.inj heq
    exact guarded_of_served h.state h.owns hsettles (served hok) (resumed hok)
  | _ => exact hlog _ rfl (by simp) (by simp)

theorem Steps.barrierKept {w w' : World} (steps : Steps w w') (h : BarrierKept w) :
    BarrierKept w' := by
  induction steps with
  | refl => exact h
  | tail _ step ih => exact step.barrierKept ih

theorem barrierKept_start (config : Config) (recorder : JjRecorder) :
    BarrierKept (.start config recorder) := by
  have hnone : ∀ since, ¬ Follows (World.start config recorder).trace since := by
    rintro since ⟨before, notice, htrace, -⟩
    exact absurd htrace (by simp [World.start])
  refine ⟨⟨?_, AuditState.windowed_empty, ?_, ?_, ?_⟩, atEvery_nil, atEvery_nil⟩
  · intro htouched
    exact absurd htouched (by simp [World.start])
  · intro since hfollows
    exact absurd hfollows (hnone since)
  · intro since hfollows
    exact absurd hfollows (hnone since)
  · intro event hevent
    exact absurd hevent (by simp [World.start])

theorem BarrierState.honest {w : World} (h : BarrierState w) : Honest w := by
  intro since hfollows huncovered
  by_cases hmem : .drained ∈ since
  · rw [Coordinator.status, h.pending since hfollows hmem huncovered, Bool.true_or]
  · rw [Coordinator.status, h.recorded since hfollows hmem, Bool.or_true]

/-- Every mark, flush, resume and shutdown that succeeds is a barrier, and whatever is not
covered by an accepted snapshot shows as pending in the status. -/
theorem commands_are_barriers (env : Environment) (config : Config) (recorder : JjRecorder)
    (commands : List Command) :
    Barrier (reached env config recorder commands).trace ∧
      Honest (reached env config recorder commands) := by
  have hsteps := reached_steps env config recorder commands
  have h := hsteps.barrierKept (barrierKept_start config recorder)
  exact ⟨h.barrier, h.state.honest⟩

end Rrjj
