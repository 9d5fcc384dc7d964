import Rrjj.Core.Barrier
import Rrjj.Core.Retention

/-! When the loop over pending snapshots ends, given that the sink and jj never fail: one
of its turns must see nothing recorded between the drain of its snapshot and the next. -/

namespace Rrjj
open Std Library Library.Proc

def Stormed (s : Schedule) (first last : ℕ) : Prop :=
  ∃ t, first ≤ t ∧ t < last ∧ ∃ call ∈ s.arrivals t, call.isActive = true

/-- One turn of the loop in `mark`, `flush`, `finish` and `Resume`. -/
def turn (env : Environment) : Task Unit := do
  let _ ← snapshot env
  interleave env
  drainAudit

def turnLength (s : Schedule) (w : World) : ℕ :=
  match w.coordinator.pendingSnapshotEvent with
  | some _ => 2
  | none =>
    let drained := (w.awaited s).drainAudit.coordinator
    4 + drained.pendingOverflows.length + (if drained.auditStartedAt.isSome then 1 else 0)

def afterTurn (s : Schedule) (w : World) : World :=
  ((turn (s.environment (w.clock + turnLength s w))).run w).2

/-- The turn that begins in `w` is the last: nothing is recorded from the drain of its
snapshot to the drain that ends it. A turn that delivers a retained event drains only at
its end, and must find no window open; it fails when the event is out of sequence. -/
def QuietTurn (s : Schedule) (w : World) : Prop :=
  match w.coordinator.pendingSnapshotEvent with
  | some event => event.seq ≠ w.coordinator.seq ∨
      (w.coordinator.auditStartedAt = none ∧ w.coordinator.pendingOverflows = [] ∧
        ¬ Stormed s w.clock (w.clock + turnLength s w))
  | none => ¬ Stormed s (w.clock + 1) (w.clock + turnLength s w)

/-- The loop that begins in `w` has nothing to do, or a quiet turn. -/
def Settles (s : Schedule) (w : World) : Prop :=
  w.coordinator.pendingSnapshot = false ∨ ∃ k, QuietTurn s ((afterTurn s)^[k] w)

theorem recordAll_audit (w : World) (calls : List WatcherCall) :
    (w.recordAll calls).audit = calls.foldl AuditState.apply w.audit := by
  induction calls generalizing w with
  | nil => rfl
  | cons call calls ih => exact ih (w.record call)

theorem foldl_apply_inactive (calls : List WatcherCall) (audit : AuditState)
    (h : ∀ call ∈ calls, call.isActive = false) : calls.foldl AuditState.apply audit = audit := by
  induction calls with
  | nil => rfl
  | cons call calls ih =>
    rw [List.foldl_cons, AuditState.apply_inactive audit (h call (by simp))]
    exact ih fun next hnext => h next (by simp [hnext])

theorem foldl_apply_dirty (calls : List WatcherCall) (audit : AuditState)
    (h : audit.isDirty = true ∨ ∃ call ∈ calls, call.isActive = true) :
    (calls.foldl AuditState.apply audit).isDirty = true := by
  induction calls generalizing audit with
  | nil => exact h.resolve_right (by simp)
  | cons call calls ih =>
    refine ih (audit.apply call) ?_
    rcases h with hdirty | ⟨active, hmem, hactive⟩
    · exact Or.inl (audit.apply_dirty call hdirty)
    · rcases List.mem_cons.mp hmem with rfl | hmem
      · exact Or.inl (audit.apply_active hactive)
      · exact Or.inr ⟨active, hmem, hactive⟩

theorem foldl_apply_windowed (calls : List WatcherCall) (audit : AuditState)
    (h : audit.Windowed) : (calls.foldl AuditState.apply audit).Windowed := by
  induction calls generalizing audit with
  | nil => exact h
  | cons call calls ih => exact ih _ (AuditState.apply_windowed h call)

structure Tracks (s : Schedule) (first : ℕ) (w : World) : Prop where
  begun : first ≤ w.clock
  clean : ¬ Stormed s first w.clock → w.audit = {}
  dirty : Stormed s first w.clock → w.audit.isDirty = true
  windowed : w.audit.Windowed

variable {s : Schedule} {first : ℕ} {w w' : World}

theorem not_stormed_self (s : Schedule) (t : ℕ) : ¬ Stormed s t t := by
  rintro ⟨t', hle, hlt, -⟩
  omega

theorem tracks_drained (s : Schedule) (w : World) : Tracks s w.clock w.drainAudit where
  begun := le_rfl
  clean _ := rfl
  dirty h := absurd h (not_stormed_self s w.clock)
  windowed := AuditState.windowed_empty

theorem Tracks.congr (h : Tracks s first w) (audit : w'.audit = w.audit)
    (clock : w'.clock = w.clock) : Tracks s first w' := by
  obtain ⟨hbegun, hclean, hdirty, hwindowed⟩ := h
  rw [← clock] at hbegun hclean hdirty
  rw [← audit] at hclean hdirty hwindowed
  exact ⟨hbegun, hclean, hdirty, hwindowed⟩

theorem Tracks.awaited (h : Tracks s first w) : Tracks s first (w.awaited s) := by
  have haudit : (w.awaited s).audit = (s.arrivals w.clock).foldl AuditState.apply w.audit :=
    recordAll_audit w _
  have hgrow : ∀ t, Stormed s first t → Stormed s first (t + 1) :=
    fun t ⟨tick, hle, hlt, hcall⟩ => ⟨tick, hle, by omega, hcall⟩
  refine ⟨Nat.le_succ_of_le h.begun, ?_, ?_, ?_⟩
  · intro hquiet
    rw [haudit, foldl_apply_inactive, h.clean fun hstorm => hquiet (hgrow _ hstorm)]
    intro call hmem
    rw [Bool.eq_false_iff]
    exact fun hactive => hquiet ⟨w.clock, h.begun, Nat.lt_succ_self _, call, hmem, hactive⟩
  · rintro ⟨tick, hle, hlt, call, hmem, hactive⟩
    rw [haudit]
    refine foldl_apply_dirty _ _ ?_
    rcases Nat.lt_succ_iff_lt_or_eq.mp hlt with hbefore | rfl
    · exact Or.inl (h.dirty ⟨tick, hle, hbefore, call, hmem, hactive⟩)
    · exact Or.inr ⟨call, hmem, hactive⟩
  · rw [haudit]
    exact foldl_apply_windowed _ _ h.windowed

theorem Tracks.emitted (h : Tracks s first w) (event : Event) : Tracks s first (w.emitted s event) := by
  have hlogged : Tracks s first (w.log (.emitting event)) := h.congr rfl rfl
  exact hlogged.awaited.congr rfl rfl

theorem emitted_coordinator (s : Schedule) (event : Event) (w : World) :
    (w.emitted s event).coordinator = { w.coordinator with seq := w.coordinator.seq + 1 } :=
  World.sent_coordinator _ _ _

theorem emitOverflowsFrom_reaches (notices : List OverflowNotice)
    (first_notices : w.coordinator.pendingOverflows = notices) (tracks : Tracks s first w) :
    ∃ w', Reaches s (fun env => emitOverflowsFrom env notices) w () w' ∧ Tracks s first w' ∧
      w'.clock = w.clock + notices.length ∧ w'.coordinator =
        { w.coordinator with
          seq := w.coordinator.seq + notices.length
          pendingOverflows := [] } := by
  induction notices generalizing w with
  | nil => exact ⟨w, .pure, tracks, rfl, by rw [List.length_nil, Nat.add_zero, ← first_notices]⟩
  | cons notice rest ih =>
    have hemit := emit_reaches s w (overflowBody notice)
    generalize hevent : Event.new w.coordinator.config.sessionId w.coordinator.seq (s.now w.clock)
      (overflowBody notice) = event at hemit
    set sent := (w.emitted s event).update fun coordinator =>
      { coordinator with pendingOverflows := coordinator.pendingOverflows.tail } with hsent
    have hcoordinator : sent.coordinator =
        { w.coordinator with seq := w.coordinator.seq + 1, pendingOverflows := rest } := by
      rw [hsent, World.update, emitted_coordinator, first_notices]
      rfl
    obtain ⟨w', hrest, htracks, hclock, hfinal⟩ := ih (w := sent) (by rw [hcoordinator])
      ((tracks.emitted event).congr rfl rfl)
    refine ⟨w', hemit.bind ((Reaches.modify rfl).bind hrest), htracks, ?_, ?_⟩
    · have hstep : sent.clock = w.clock + 1 := rfl
      rw [hclock, hstep, List.length_cons]
      omega
    · rw [hfinal, hcoordinator, List.length_cons]
      simp only [Nat.add_assoc, Nat.add_comm 1]

theorem emitAudit_reaches (tracks : Tracks s first w) (windowed : w.coordinator.Windowed) :
    ∃ w', Reaches s emitAudit w () w' ∧ Tracks s first w' ∧
      w'.clock = w.clock + (if w.coordinator.auditStartedAt.isSome then 1 else 0) ∧
      w'.coordinator.auditStartedAt = none ∧ w'.coordinator.touchedPaths.isEmpty = true ∧
      w'.coordinator.pendingOverflows = w.coordinator.pendingOverflows ∧
      w'.coordinator.pendingSnapshotEvent = w.coordinator.pendingSnapshotEvent := by
  rcases hstarted : w.coordinator.auditStartedAt with _ | startedAt
  · refine ⟨w, ?_, tracks, rfl, hstarted, ?_, rfl, rfl⟩
    · refine Reaches.get ?_
      simp only [hstarted]
      exact .pure
    · rw [← Bool.not_eq_false]
      intro htouched
      have hopen := windowed htouched
      rw [hstarted] at hopen
      exact absurd hopen (by decide)
  · have hemit := emit_reaches s w (w.coordinator.touchedPathsBody startedAt (s.now w.clock))
    generalize Event.new w.coordinator.config.sessionId w.coordinator.seq (s.now w.clock)
      (w.coordinator.touchedPathsBody startedAt (s.now w.clock)) = event at hemit
    refine ⟨(w.emitted s event).update Coordinator.auditEmitted, ?_,
      (tracks.emitted event).congr rfl rfl, rfl, rfl, ?_, ?_, ?_⟩
    · refine Reaches.get ?_
      simp only [hstarted]
      exact (now_reaches s w).bind (hemit.bind (Reaches.modify (f := fun v =>
        v.update Coordinator.auditEmitted) rfl))
    · simp [World.update, Coordinator.auditEmitted]
    · simp [World.update, Coordinator.auditEmitted, emitted_coordinator]
    · simp [World.update, Coordinator.auditEmitted, emitted_coordinator]

theorem captureSnapshot_reaches (tracks : Tracks s first w) :
    ∃ snapshot w', Reaches s captureSnapshot w snapshot w' ∧ Tracks s first w' ∧
      w'.clock = w.clock + 2 ∧ w'.coordinator.pendingSnapshot = false ∧
      w'.coordinator.pendingSnapshotEvent = none ∧
      w'.coordinator.auditStartedAt = w.coordinator.auditStartedAt ∧
      w'.coordinator.touchedPaths = w.coordinator.touchedPaths ∧
      w'.coordinator.pendingOverflows = w.coordinator.pendingOverflows := by
  have hcapture := capture_reaches s w w.coordinator.forceFullScan
  generalize hsnapshot : w.coordinator.recorder.snapshotOf (s.checkpoint w.clock)
    w.coordinator.config.maxChangesPerEvent = snapshot at hcapture
  generalize hcaptured : w.recaptured s w.coordinator.forceFullScan = captured at hcapture
  have htracks : Tracks s first captured := by
    have hlogged : Tracks s first (w.log (.capturing w.coordinator.forceFullScan)) :=
      tracks.congr rfl rfl
    rw [← hcaptured]
    exact hlogged.awaited.congr rfl rfl
  have hclock : captured.clock = w.clock + 1 := by
    rw [← hcaptured]
    rfl
  have hcoordinator : captured.coordinator =
      { w.coordinator with recorder := .captured (s.checkpoint w.clock) } := by
    rw [← hcaptured]
    simp [World.recaptured, World.log, World.update, World.awaited]
  generalize hevent : Event.new w.coordinator.config.sessionId w.coordinator.seq
    (s.now captured.clock) (.snapshot snapshot) = event
  set retained := captured.update fun coordinator =>
    { coordinator with pendingSnapshotEvent := some event } with hretained
  have hnext : event.seq = retained.coordinator.seq := by
    rw [hretained, World.update, hcoordinator, ← hevent]
    rfl
  refine ⟨snapshot, (retained.emitted s event).update Coordinator.snapshotDelivered, ?_, ?_, ?_,
    rfl, rfl, ?_, ?_, ?_⟩
  · refine Reaches.get (hcapture.bind ((now_reaches s captured).bind ?_))
    rw [hevent]
    refine Reaches.bind (Reaches.modify rfl) ?_
    exact Reaches.bind (emitExact_reaches hnext) (Reaches.bind (Reaches.modify rfl) .pure)
  · have hretainedTracks : Tracks s first retained := htracks.congr rfl rfl
    exact (hretainedTracks.emitted event).congr rfl rfl
  · have hsent : (retained.emitted s event).clock = captured.clock + 1 := rfl
    change (retained.emitted s event).clock = _
    rw [hsent, hclock]
  all_goals
    simp [World.update, Coordinator.snapshotDelivered, emitted_coordinator, hretained, hcoordinator]

structure TurnStart (w : World) : Prop where
  clean : w.audit = {}
  windowed : w.coordinator.Windowed
  retained : ∀ event, w.coordinator.pendingSnapshotEvent = some event →
    ∃ value, event.body = .snapshot value

theorem TurnStart.tracks (h : TurnStart w) : Tracks s w.clock w where
  begun := le_rfl
  clean _ := h.clean
  dirty hstorm := absurd hstorm (not_stormed_self s w.clock)
  windowed := by
    rw [h.clean]
    exact AuditState.windowed_empty

/-- The wait and the drain that end a turn leave a snapshot pending just when there is
something left to record, or something was recorded. -/
theorem endTurn_reaches (tracks : Tracks s first w) (windowed : w.coordinator.Windowed)
    (delivered : w.coordinator.pendingSnapshotEvent = none) :
    ∃ w', Reaches s (fun env => do interleave env; drainAudit) w () w' ∧
      w'.clock = w.clock + 1 ∧ TurnStart w' ∧ w'.coordinator.pendingSnapshotEvent = none ∧
      (w'.coordinator.pendingSnapshot = false ↔
        (w.coordinator.pendingSnapshot || (!w.coordinator.touchedPaths.isEmpty ||
          !w.coordinator.pendingOverflows.isEmpty)) = false ∧
        ¬ Stormed s first (w.clock + 1)) := by
  have hcoordinator : (w.awaited s).coordinator = w.coordinator := World.waited_coordinator _ _
  have hwaited := tracks.awaited
  have hnone : (w.awaited s).drainAudit.coordinator.pendingSnapshotEvent = none := by
    rw [World.drainAudit, Coordinator.absorb_pendingSnapshotEvent, hcoordinator, delivered]
  refine ⟨(w.awaited s).drainAudit, (interleave_reaches s w).bind (Reaches.modify rfl), rfl, ?_,
    hnone, ?_⟩
  · refine ⟨rfl, ?_, ?_⟩
    · exact Coordinator.absorb_windowed (hcoordinator ▸ windowed) hwaited.windowed
    · intro event hevent
      exact absurd (hnone.symm.trans hevent) (by simp)
  · change ((w.awaited s).coordinator.absorb (w.awaited s).audit.drain).pendingSnapshot = false ↔ _
    by_cases hstorm : Stormed s first (w.clock + 1)
    · rw [Coordinator.absorb_dirty _ _ (hwaited.dirty hstorm)]
      simp [hstorm]
    · rw [hwaited.clean hstorm, Coordinator.absorb_clean, hcoordinator]
      exact ⟨fun h => ⟨h, hstorm⟩, fun h => h.1⟩

theorem snapshot_reaches (start : TurnStart w)
    (delivered : w.coordinator.pendingSnapshotEvent = none) :
    ∃ value w', Reaches s snapshot w value w' ∧ Tracks s (w.clock + 1) w' ∧
      w'.clock + 1 = w.clock + turnLength s w ∧ w'.coordinator.pendingSnapshot = false ∧
      w'.coordinator.pendingSnapshotEvent = none ∧ w'.coordinator.Windowed ∧
      w'.coordinator.touchedPaths.isEmpty = true ∧ w'.coordinator.pendingOverflows = [] := by
  have hcoordinator : (w.awaited s).coordinator = w.coordinator := World.waited_coordinator _ _
  generalize hdrained : (w.awaited s).drainAudit = drained
  have hclock : drained.clock = w.clock + 1 := by
    rw [← hdrained]
    rfl
  have htracks : Tracks s (w.clock + 1) drained := by
    rw [← hdrained]
    exact tracks_drained s (w.awaited s)
  have hwindowed : drained.coordinator.Windowed := by
    rw [← hdrained]
    have hwaited := (start.tracks (s := s)).awaited
    exact Coordinator.absorb_windowed (hcoordinator ▸ start.windowed) hwaited.windowed
  -- the overflows are sent, the audit, and then the snapshot
  obtain ⟨sent, hsent, hsentTracks, hsentClock, hsentCoordinator⟩ :=
    emitOverflowsFrom_reaches drained.coordinator.pendingOverflows rfl htracks
  obtain ⟨audited, haudited, hauditedTracks, hauditedClock, -, htouched, hoverflows, -⟩ :=
    emitAudit_reaches hsentTracks (by rw [hsentCoordinator]; exact hwindowed)
  obtain ⟨value, w', hcaptured, hfinalTracks, hfinalClock, hpending, hevent', -, htouched',
    hoverflows'⟩ := captureSnapshot_reaches hauditedTracks
  refine ⟨value, w', ?_, hfinalTracks, ?_, hpending, hevent', ?_, ?_, ?_⟩
  · refine Reaches.get ?_
    simp only [delivered]
    have hdrain : Reaches s (fun _ => drainAudit) (w.awaited s) () drained := by
      rw [← hdrained]
      exact Reaches.modify rfl
    have hemitted : Reaches s emitOverflows drained () sent := Reaches.get hsent
    exact (interleave_reaches s w).bind (hdrain.bind (hemitted.bind (haudited.bind hcaptured)))
  · rw [hfinalClock, hauditedClock, hsentClock, hclock, hsentCoordinator]
    simp only [turnLength, delivered, hdrained]
    omega
  · intro htouchedAgain
    rw [htouched', htouched] at htouchedAgain
    exact absurd htouchedAgain (by decide)
  · rw [htouched', htouched]
  · rw [hoverflows', hoverflows, hsentCoordinator]

theorem turn_fails {event : Event} (start : TurnStart w)
    (retained : w.coordinator.pendingSnapshotEvent = some event)
    (changed : event.seq ≠ w.coordinator.seq) (env : Environment) :
    (turn env).run w = (.error .sequenceChanged, w.log .sequenceChanged) := by
  obtain ⟨value, hbody⟩ := start.retained event retained
  simp only [turn, snapshot, deliverRetained, emitExact, log, run_bind, run_get, retained, hbody,
    changed, if_false, run_modify, run_throw]

theorem turn_reaches (start : TurnStart w)
    (next : ∀ event, w.coordinator.pendingSnapshotEvent = some event →
      event.seq = w.coordinator.seq) :
    ∃ w', Reaches s turn w () w' ∧ w'.clock = w.clock + turnLength s w ∧ TurnStart w' ∧
      w'.coordinator.pendingSnapshotEvent = none ∧
      (w'.coordinator.pendingSnapshot = false ↔ QuietTurn s w) := by
  rcases hevent : w.coordinator.pendingSnapshotEvent with _ | event
  · obtain ⟨value, sent, hsent, htracks, hclock, hpending, hnone, hwindowed, htouched, hoverflows⟩ :=
      snapshot_reaches (s := s) start hevent
    obtain ⟨w', hend, hclock', hstart, hnone', hquiet⟩ := endTurn_reaches htracks hwindowed hnone
    refine ⟨w', hsent.bind hend, by rw [hclock', hclock], hstart, hnone', ?_⟩
    rw [hquiet, hpending, htouched, hoverflows, QuietTurn, hevent, hclock]
    simp
  · -- the retained event is sent again, and nothing is captured
    obtain ⟨value, hbody⟩ := start.retained event hevent
    have hseq := next event hevent
    have hlength : turnLength s w = 2 := by
      rw [turnLength, hevent]
    set sent := (w.emitted s event).update Coordinator.retainedDelivered with hsent
    have hreaches : Reaches s snapshot w value sent := by
      refine Reaches.get ?_
      simp only [hevent, deliverRetained, hbody]
      exact (emitExact_reaches hseq).bind (Reaches.bind (Reaches.modify rfl) .pure)
    have htracks : Tracks s w.clock sent := (start.tracks.emitted event).congr rfl rfl
    have hwindowed : sent.coordinator.Windowed := by
      intro htouched
      rw [hsent] at htouched ⊢
      simp only [World.update, Coordinator.retainedDelivered, emitted_coordinator] at htouched ⊢
      exact start.windowed htouched
    obtain ⟨w', hend, hclock', hstart, hnone', hquiet⟩ := endTurn_reaches htracks hwindowed rfl
    have hclock : sent.clock = w.clock + 1 := rfl
    refine ⟨w', hreaches.bind hend, by rw [hclock', hclock, hlength], hstart, hnone', ?_⟩
    rw [hquiet, QuietTurn, hevent, hclock, hlength]
    simp only [hsent, World.update, Coordinator.retainedDelivered, emitted_coordinator, hseq,
      ne_eq, not_true_eq_false, false_or, Bool.or_eq_false_iff, Bool.not_eq_false',
      List.isEmpty_iff, Option.isSome_eq_false_iff, Option.isNone_iff_eq_none]
    constructor
    · rintro ⟨⟨⟨hstarted, hoverflows⟩, -, -⟩, hstorm⟩
      exact ⟨hstarted, hoverflows, hstorm⟩
    · rintro ⟨hstarted, hoverflows, hstorm⟩
      refine ⟨⟨⟨hstarted, hoverflows⟩, ?_, hoverflows⟩, hstorm⟩
      rw [← Bool.not_eq_false]
      intro htouched
      have hopen := start.windowed htouched
      rw [hstarted] at hopen
      exact absurd hopen (by decide)

theorem afterTurn_eq (h : Reaches s turn w () w') (hclock : w'.clock = w.clock + turnLength s w) :
    afterTurn s w = w' := by
  rw [afterTurn, ← hclock, h.returns _ le_rfl]

theorem settleFrom_idle {env : Environment} {turns : ℕ} (h : w.coordinator.pendingSnapshot = false) :
    (settleFrom env (turns + 1)).run w = (.ok (), w) := by
  simp only [settleFrom, run_bind, run_get, h, Bool.false_eq_true, if_false, run_pure]

theorem settleFrom_pending {env : Environment} {turns : ℕ}
    (h : w.coordinator.pendingSnapshot = true) :
    (settleFrom env (turns + 1)).run w = (turn env >>= fun _ => settleFrom env turns).run w := by
  simp only [settleFrom, turn, run_bind, run_get, h, if_true]
  rcases (snapshot env).run w with ⟨_ | _ | _, t⟩
  · simp only
    rcases (interleave env).run t with ⟨_ | _ | _, t'⟩ <;> rfl
  · rfl
  · rfl

theorem Settles.of_not_next {event : Event} (retained : w.coordinator.pendingSnapshotEvent = some event)
    (changed : event.seq ≠ w.coordinator.seq) : Settles s w := by
  refine Or.inr ⟨0, ?_⟩
  simp only [Function.iterate_zero, id_eq, QuietTurn, retained]
  exact Or.inl changed

theorem settleFrom_cut (start : TurnStart w) (stormy : ¬ Settles s w) (turns : ℕ) {horizon : ℕ}
    (hhorizon : w.clock ≤ horizon) :
    ((settleFrom (s.environment horizon) turns).run w).1 = .cut := by
  induction turns generalizing w with
  | zero => rfl
  | succ turns ih =>
    have hpending : w.coordinator.pendingSnapshot = true := by
      rw [← Bool.not_eq_false]
      exact fun hidle => stormy (Or.inl hidle)
    have hnext : ∀ event, w.coordinator.pendingSnapshotEvent = some event →
        event.seq = w.coordinator.seq := by
      intro event hevent
      by_contra hchanged
      exact stormy (.of_not_next hevent hchanged)
    obtain ⟨w', hturn, hclock, hstart, -, hquiet⟩ := turn_reaches (s := s) start hnext
    have hafter := afterTurn_eq hturn hclock
    rw [settleFrom_pending hpending, run_bind]
    by_cases hseen : horizon < w'.clock
    · have hcut := hturn.cut horizon hhorizon hseen
      rcases hrun : (turn (s.environment horizon)).run w with ⟨outcome, t⟩
      rw [hrun] at hcut
      obtain rfl : outcome = .cut := hcut
      rfl
    · rw [hturn.returns horizon (Nat.le_of_not_lt hseen)]
      refine ih hstart ?_ (Nat.le_of_not_lt hseen)
      rintro (hidle | ⟨k, hk⟩)
      · exact stormy (Or.inr ⟨0, hquiet.mp hidle⟩)
      · refine stormy (Or.inr ⟨k + 1, ?_⟩)
        rw [Function.iterate_succ_apply, hafter]
        exact hk

def LoopEnds (s : Schedule) (w : World) (k last : ℕ) (outcome : Outcome Failure Unit) (w' : World) :
    Prop :=
  w'.clock ≤ last ∧ outcome ≠ .cut ∧ ∀ horizon turns, last ≤ horizon → k < turns →
    (settleFrom (s.environment horizon) turns).run w = (outcome, w')

theorem LoopEnds.idle (h : w.coordinator.pendingSnapshot = false) :
    LoopEnds s w 0 w.clock (.ok ()) w := by
  refine ⟨le_rfl, by simp, fun horizon turns _ hturns => ?_⟩
  obtain ⟨turns, rfl⟩ := Nat.exists_eq_succ_of_ne_zero hturns.ne'
  exact settleFrom_idle h

theorem LoopEnds.turn {outcome : Outcome Failure Unit} {w'' : World} {k last : ℕ}
    (pending : w.coordinator.pendingSnapshot = true) (hturn : Reaches s Rrjj.turn w () w')
    (h : LoopEnds s w' k last outcome w'') :
    LoopEnds s w (k + 1) (max last w'.clock) outcome w'' := by
  obtain ⟨hlast, houtcome, hrun⟩ := h
  refine ⟨hlast.trans (le_max_left _ _), houtcome, fun horizon turns hhorizon hturns => ?_⟩
  obtain ⟨turns, rfl⟩ := Nat.exists_eq_succ_of_ne_zero (Nat.zero_lt_of_lt hturns).ne'
  rw [settleFrom_pending pending, run_bind, hturn.returns horizon ((le_max_right _ _).trans hhorizon)]
  exact hrun horizon turns ((le_max_left _ _).trans hhorizon) (Nat.lt_of_succ_lt_succ hturns)

theorem LoopEnds.fails {event : Event} (pending : w.coordinator.pendingSnapshot = true)
    (start : TurnStart w) (retained : w.coordinator.pendingSnapshotEvent = some event)
    (changed : event.seq ≠ w.coordinator.seq) :
    LoopEnds s w 0 w.clock (.error .sequenceChanged) (w.log .sequenceChanged) := by
  refine ⟨le_rfl, by simp, fun horizon turns _ hturns => ?_⟩
  obtain ⟨turns, rfl⟩ := Nat.exists_eq_succ_of_ne_zero hturns.ne'
  rw [settleFrom_pending pending, run_bind, turn_fails start retained changed]

theorem loopEnds_of_settles (start : TurnStart w) (h : Settles s w) :
    ∃ k last outcome w', LoopEnds s w k last outcome w' := by
  rcases h with hidle | ⟨k, hk⟩
  · exact ⟨0, w.clock, .ok (), w, .idle hidle⟩
  induction k generalizing w with
  | zero =>
    rcases hpending : w.coordinator.pendingSnapshot with _ | _
    · exact ⟨0, w.clock, .ok (), w, .idle hpending⟩
    by_cases hnext : ∀ event, w.coordinator.pendingSnapshotEvent = some event →
        event.seq = w.coordinator.seq
    · obtain ⟨w', hturn, -, -, -, hquiet⟩ := turn_reaches (s := s) start hnext
      exact ⟨_, _, _, _, (LoopEnds.idle (hquiet.mpr hk)).turn hpending hturn⟩
    · push Not at hnext
      obtain ⟨event, hevent, hchanged⟩ := hnext
      exact ⟨_, _, _, _, .fails hpending start hevent hchanged⟩
  | succ k ih =>
    rcases hpending : w.coordinator.pendingSnapshot with _ | _
    · exact ⟨0, w.clock, .ok (), w, .idle hpending⟩
    by_cases hnext : ∀ event, w.coordinator.pendingSnapshotEvent = some event →
        event.seq = w.coordinator.seq
    · obtain ⟨w', hturn, hclock, hstart, -, -⟩ := turn_reaches (s := s) start hnext
      rw [Function.iterate_succ_apply, afterTurn_eq hturn hclock] at hk
      obtain ⟨k', last, outcome, w'', hends⟩ := ih hstart hk
      exact ⟨_, _, _, _, hends.turn hpending hturn⟩
    · push Not at hnext
      obtain ⟨event, hevent, hchanged⟩ := hnext
      exact ⟨_, _, _, _, .fails hpending start hevent hchanged⟩

def entered (command : Command) (w : World) : World :=
  match command with
  | .resume => w.drainAudit.update fun coordinator => { coordinator with paused := false }
  | _ => w.drainAudit

def afterLoop (env : Environment) : Command → Task Reply
  | .mark label «meta» => do
    let w ← get
    emit env (.mark { label := label, «meta» := «meta», refOp := w.coordinator.recorder.opId })
    pure .done
  | .flush => do
    flushDurable env
    Reply.status <$> currentStatus env
  | .resume => Reply.status <$> currentStatus env
  | .shutdown reason => do
    let w ← get
    emit env (.sessionEnd
      { finalOp := w.coordinator.recorder.opId
        reason := reason
        snapshots := w.coordinator.snapshots
        events := w.coordinator.seq })
    flushDurable env
    pure .done
  | _ => pure .done

theorem perform_run {command : Command} (settles : command.settles = true) (env : Environment)
    (w : World) : (perform env command).run w =
      (settle env >>= fun _ => afterLoop env command).run (entered command w) := by
  have hdrain : ∀ {α : Type} (m : Task α), (drainAudit >>= fun _ => m).run w = m.run w.drainAudit :=
    fun _ => rfl
  cases command with
  | mark label «meta» =>
    simp only [perform, mark, afterLoop, entered, map_eq_pure_bind, bind_assoc, hdrain]
  | flush => simp only [perform, flush, afterLoop, entered, map_eq_pure_bind, bind_assoc, hdrain]
  | resume =>
    simp only [perform, resume, afterLoop, entered, map_eq_pure_bind, bind_assoc, hdrain]
    rfl
  | shutdown reason =>
    simp only [perform, finish, afterLoop, entered, map_eq_pure_bind, bind_assoc, hdrain]
  | _ => exact absurd settles (by decide)

theorem currentStatus_reaches (s : Schedule) (w : World) :
    ∃ status w', Reaches s currentStatus w status w' :=
  ⟨_, _, (interleave_reaches s w).bind (.get .pure)⟩

theorem flushDurable_reaches (s : Schedule) (w : World) : ∃ w', Reaches s flushDurable w () w' := by
  have hemit := emit_reaches s w
    (.flush { op := w.coordinator.recorder.opId, throughSeq := w.coordinator.seq })
  set sent := w.emitted s _
  let request : FlushRequest :=
    { shadowRoot := w.coordinator.config.shadowRoot
      lastSeq := sent.coordinator.seq - 1
      lastOp := w.coordinator.recorder.opId
      checkpoint := w.coordinator.recorder.commitId }
  refine ⟨((sent.log (.flushing request)).awaited s).log (.flushed request),
    Reaches.get (hemit.bind (Reaches.get ?_))⟩
  exact Reaches.bind (Reaches.modify rfl) ((await_reaches s _).bind (Reaches.modify rfl))

theorem afterLoop_reaches (s : Schedule) (command : Command) (w : World) :
    ∃ reply w', Reaches s (fun env => afterLoop env command) w reply w' := by
  have hstatus : ∀ w, ∃ reply w', Reaches s (fun env => Reply.status <$> currentStatus env) w
      reply w' := by
    intro w
    obtain ⟨status, w', h⟩ := currentStatus_reaches s w
    exact ⟨_, _, h.bind .pure⟩
  cases command with
  | mark label «meta» => exact ⟨_, _, Reaches.get ((emit_reaches s w _).bind .pure)⟩
  | flush =>
    obtain ⟨flushed, hflush⟩ := flushDurable_reaches s w
    obtain ⟨reply, w', h⟩ := hstatus flushed
    exact ⟨reply, w', hflush.bind h⟩
  | resume => exact hstatus w
  | shutdown reason =>
    have hemit := emit_reaches s w (.sessionEnd
      { finalOp := w.coordinator.recorder.opId
        reason := reason
        snapshots := w.coordinator.snapshots
        events := w.coordinator.seq })
    obtain ⟨flushed, hflush⟩ := flushDurable_reaches s (w.emitted s _)
    exact ⟨_, _, Reaches.get (hemit.bind (hflush.bind .pure))⟩
  | _ => exact ⟨_, _, .pure⟩

/-- Seen far enough beyond `w`, `command` is answered. -/
def Completes (s : Schedule) (command : Command) (w : World) : Prop :=
  ∃ horizon, w.clock ≤ horizon ∧ ((perform (s.environment horizon) command).run w).1 ≠ .cut

theorem entered_clock (command : Command) (w : World) : (entered command w).clock = w.clock := by
  cases command <;> rfl

theorem turnStart_entered (h : BarrierState w) (command : Command) :
    TurnStart (entered command w) := by
  have hdrained := h.drained
  have hretained : ∀ event, w.drainAudit.coordinator.pendingSnapshotEvent = some event →
      ∃ value, event.body = .snapshot value := by
    intro event hevent
    obtain ⟨value, hbody, -⟩ := hdrained.retained event hevent
    exact ⟨value, hbody⟩
  cases command with
  | resume => exact ⟨rfl, hdrained.window, hretained⟩
  | _ => exact ⟨rfl, hdrained.window, hretained⟩

theorem completes_of_settles {command : Command} (settling : command.settles = true)
    (start : TurnStart (entered command w)) (h : Settles s (entered command w)) :
    Completes s command w := by
  obtain ⟨k, last, outcome, w', hclock, houtcome, hrun⟩ := loopEnds_of_settles start h
  obtain ⟨reply, w'', hafter⟩ := afterLoop_reaches s command w'
  obtain ⟨horizon, hw, hk, hlast, hw''⟩ : ∃ horizon, w.clock ≤ horizon ∧ k ≤ horizon ∧
      last ≤ horizon ∧ w''.clock ≤ horizon :=
    ⟨max w.clock (max k (max last w''.clock)), by omega, by omega, by omega, by omega⟩
  refine ⟨horizon, hw, ?_⟩
  have hloop := hrun horizon (horizon + 1) hlast (Nat.lt_succ_of_le hk)
  have hrest := hafter.returns horizon hw''
  rw [perform_run settling, run_bind, settle]
  simp only [Schedule.environment] at hloop hrest ⊢
  rw [hloop]
  rcases outcome with _ | failure | _
  · simp [hrest]
  · simp
  · exact absurd rfl houtcome

theorem not_completes {command : Command} (settling : command.settles = true)
    (start : TurnStart (entered command w)) (h : ¬ Settles s (entered command w)) :
    ¬ Completes s command w := by
  rintro ⟨horizon, hhorizon, hanswered⟩
  rw [← entered_clock command] at hhorizon
  have hcut := settleFrom_cut start h (horizon + 1) hhorizon
  rw [perform_run settling, run_bind] at hanswered
  rcases hrun : (settle (s.environment horizon)).run (entered command w) with ⟨outcome, t⟩
  have houtcome : outcome = .cut := by
    rw [← hcut, ← show (settle (s.environment horizon)).run (entered command w) =
      (settleFrom (s.environment horizon) (horizon + 1)).run (entered command w) from rfl, hrun]
  rw [hrun, houtcome] at hanswered
  exact hanswered rfl

/-- With a sink and a recorder that never fail, a mark, a flush, a resume or a shutdown is
answered if and only if its loop has nothing to do or a quiet turn. -/
theorem settling_command_completes_iff (env : Environment) (config : Config)
    (recorder : JjRecorder) (commands : List Command) (s : Schedule) (command : Command)
    (settling : command.settles = true) :
    Completes s command (reached env config recorder commands) ↔
      Settles s (entered command (reached env config recorder commands)) := by
  have hsteps := reached_steps env config recorder commands
  have hstate := (hsteps.barrierKept (barrierKept_start config recorder)).state
  have hstart := turnStart_entered hstate command
  constructor
  · intro hcompletes
    by_contra hstormy
    exact not_completes settling hstart hstormy hcompletes
  · exact completes_of_settles settling hstart

/-- While something is recorded at every tick, the loop never ends. -/
theorem not_settles_of_storm (storm : ∀ t, ∃ call ∈ s.arrivals t, call.isActive = true)
    (start : TurnStart w) (delivered : w.coordinator.pendingSnapshotEvent = none)
    (pending : w.coordinator.pendingSnapshot = true) : ¬ Settles s w := by
  have hstormy : ∀ w, w.coordinator.pendingSnapshotEvent = none → ¬ QuietTurn s w := by
    intro w hnone hquiet
    rw [QuietTurn, hnone] at hquiet
    refine hquiet ⟨w.clock + 1, le_rfl, ?_, storm _⟩
    simp only [turnLength, hnone]
    omega
  rintro (hidle | ⟨k, hquiet⟩)
  · rw [pending] at hidle
    exact absurd hidle (by decide)
  induction k generalizing w with
  | zero => exact hstormy w delivered hquiet
  | succ k ih =>
    obtain ⟨w', hturn, hclock, hstart, hnone, hend⟩ := turn_reaches (s := s) start
      fun event hevent => absurd (delivered.symm.trans hevent) (by simp)
    rw [Function.iterate_succ_apply, afterTurn_eq hturn hclock] at hquiet
    refine ih hstart hnone ?_ hquiet
    rw [← Bool.not_eq_false, hend]
    exact hstormy w delivered

def stormySchedule : Schedule where
  arrivals _ := [.observe [⟨"a", [.modify]⟩] 1 0 ""]
  now _ := ""
  checkpoint _ := ⟨"a", "c", "t", []⟩

theorem settling_command_completes_iff_stormy :
    Completes stormySchedule .flush
        (reached (stormySchedule.environment 2) exampleConfig exampleRecorder []) ↔
      Settles stormySchedule (entered .flush
        (reached (stormySchedule.environment 2) exampleConfig exampleRecorder [])) :=
  settling_command_completes_iff _ _ _ _ _ _ rfl

/-- A flush is not answered while something is recorded at every tick. -/
theorem flush_starved_by_storm :
    ¬ ∀ env config recorder commands s command, command.settles = true →
      Completes s command (reached env config recorder commands) := by
  intro h
  have hcompletes := h (stormySchedule.environment 2) exampleConfig exampleRecorder []
    stormySchedule .flush rfl
  have hsteps := reached_steps (stormySchedule.environment 2) exampleConfig exampleRecorder []
  have hstate := (hsteps.barrierKept (barrierKept_start exampleConfig exampleRecorder)).state
  have hstart := turnStart_entered hstate .flush
  refine not_completes rfl hstart (not_settles_of_storm ?_ hstart (by decide) (by decide)) hcompletes
  exact fun t => ⟨_, List.mem_singleton_self _, rfl⟩

end Rrjj
