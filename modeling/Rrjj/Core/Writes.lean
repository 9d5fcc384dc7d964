import Rrjj.Core.Refinement

/-! What each operation of the coordinator may write to the trace: properties of traces that
these labels keep are kept by the operation, however it ends. -/

namespace Rrjj
open Library Library.Proc

/-- What an operation is allowed to do: events whose bodies are in `bodies`, captures, and
flushes of the sink. No command is taken up or answered. -/
structure Allowed where
  bodies : EventBody → Bool
  captures : Bool
  flushes : Bool

def Label.within (allowed : Allowed) : Label → Bool
  | .emitting event | .accepted event | .refused event => allowed.bodies event.body
  | .capturing _ | .captured _ | .captureFailed => allowed.captures
  | .flushing _ | .flushed _ | .flushFailed _ => allowed.flushes
  | .began _ _ _ | .replied _ _ => false
  | .observed _ _ | .overflowed _ _ | .drained | .sequenceChanged => true

def EventBody.ofSnapshot : EventBody → Bool
  | .snapshot _ | .touchedPaths _ | .overflow _ => true
  | _ => false

abbrev Tolerates (allowed : Allowed) (K : List Label → Prop) : Prop :=
  KeptBy (fun label => label.within allowed = true) K

variable {allowed : Allowed} {K : List Label → Prop} {env : Environment}

abbrev Shows (K : List Label → Prop) (w : World) : Prop := K w.trace

theorem WatcherCall.label_within (call : WatcherCall) : call.label.within allowed = true := by
  cases call <;> rfl

theorem log_writes (hK : Tolerates allowed K) (label : Label)
    (within : label.within allowed = true) : Keeps (Shows K) (log label) :=
  Keeps.modify fun _ h => hK _ _ within h

theorem update_writes (f : Coordinator → Coordinator) : Keeps (Shows K) (update f) :=
  Keeps.modify fun _ h => h

theorem drainAudit_writes (hK : Tolerates allowed K) : Keeps (Shows K) drainAudit :=
  Keeps.modify fun _ h => hK _ _ rfl h

theorem recordAll_writes (hK : Tolerates allowed K) (calls : List WatcherCall) {w : World}
    (h : Shows K w) : Shows K (w.recordAll calls) := by
  induction calls generalizing w with
  | nil => exact h
  | cons call calls ih => exact ih (w := w.record call) (hK _ _ call.label_within h)

theorem await_writes (hK : Tolerates allowed K) : Keeps (Shows K) (await env) := by
  intro w hw
  have hrecorded := recordAll_writes hK (env.answers w.clock).arrivals hw
  unfold await
  by_cases hclock : w.clock < env.horizon
  · simp only [hclock, if_true]
    exact hrecorded
  · simp only [hclock, if_false]
    exact hrecorded

theorem interleave_writes (hK : Tolerates allowed K) : Keeps (Shows K) (interleave env) :=
  (await_writes hK).bind fun _ => Keeps.pure ()

theorem now_writes : Keeps (Shows K) (now env) := Keeps.get fun _ _ => Keeps.pure _

theorem emitExact_writes (hK : Tolerates allowed K) {event : Event}
    (body : allowed.bodies event.body = true) : Keeps (Shows K) (emitExact env event) := by
  refine Keeps.get fun v _ => ?_
  split_ifs
  · refine (log_writes hK (.emitting event) body).bind fun _ => (await_writes hK).bind fun turn => ?_
    rcases turn.sink with error | _
    · exact (log_writes hK (.refused event) body).bind fun _ => Keeps.throw _
    · exact (log_writes hK (.accepted event) body).bind fun _ => update_writes _
  · exact (log_writes hK .sequenceChanged rfl).bind fun _ => Keeps.throw _

theorem emit_writes (hK : Tolerates allowed K) {body : EventBody}
    (allows : allowed.bodies body = true) : Keeps (Shows K) (emit env body) :=
  Keeps.get fun _ _ => now_writes.bind fun _ => emitExact_writes hK allows

theorem capture_writes (hK : Tolerates allowed K) (captures : allowed.captures = true)
    (fullScan : Bool) : Keeps (Shows K) (capture env fullScan) := by
  refine (log_writes hK (.capturing fullScan) captures).bind fun _ => ?_
  refine (await_writes hK).bind fun turn => ?_
  rcases turn.checkpoint with message | checkpoint
  · exact (log_writes hK .captureFailed captures).bind fun _ => Keeps.throw _
  · refine Keeps.get fun v _ => (update_writes _).bind fun _ => ?_
    exact (log_writes hK (.captured _) captures).bind fun _ => Keeps.pure _

section
variable (hK : Tolerates allowed K) (bodies : ∀ body, body.ofSnapshot = true → allowed.bodies body = true)
include hK bodies

theorem emitOverflowsFrom_writes (notices : List OverflowNotice) :
    Keeps (Shows K) (emitOverflowsFrom env notices) := by
  induction notices with
  | nil => exact Keeps.pure ()
  | cons notice rest ih =>
    exact (emit_writes hK (bodies _ rfl)).bind fun _ => (update_writes _).bind fun _ => ih

theorem emitOverflows_writes : Keeps (Shows K) (emitOverflows env) :=
  Keeps.get fun _ _ => emitOverflowsFrom_writes hK bodies _

theorem emitAudit_writes : Keeps (Shows K) (emitAudit env) := by
  refine Keeps.get fun v _ => ?_
  rcases v.coordinator.auditStartedAt with _ | startedAt
  · exact Keeps.pure ()
  · exact now_writes.bind fun _ => (emit_writes hK (bodies _ rfl)).bind fun _ => update_writes _

theorem captureSnapshot_writes (captures : allowed.captures = true) :
    Keeps (Shows K) (captureSnapshot env) := by
  refine Keeps.get fun v _ => (capture_writes hK captures _).bind fun snapshot => ?_
  refine now_writes.bind fun _ => (update_writes _).bind fun _ => ?_
  refine (emitExact_writes hK (bodies _ rfl)).bind fun _ => ?_
  exact (update_writes _).bind fun _ => Keeps.pure _

theorem deliverRetained_writes (event : Event) : Keeps (Shows K) (deliverRetained env event) := by
  unfold deliverRetained
  split
  · next snapshot hbody =>
    refine (emitExact_writes hK (bodies _ ?_)).bind fun _ => ?_
    · rw [hbody]
      rfl
    · exact (update_writes _).bind fun _ => Keeps.pure _
  · exact Keeps.throw _

theorem snapshot_writes (captures : allowed.captures = true) : Keeps (Shows K) (snapshot env) := by
  refine Keeps.get fun v _ => ?_
  rcases v.coordinator.pendingSnapshotEvent with _ | event
  · refine (interleave_writes hK).bind fun _ => (drainAudit_writes hK).bind fun _ => ?_
    refine (emitOverflows_writes hK bodies).bind fun _ => (emitAudit_writes hK bodies).bind fun _ => ?_
    exact captureSnapshot_writes hK bodies captures
  · exact deliverRetained_writes hK bodies event

theorem settleFrom_writes (captures : allowed.captures = true) (turns : ℕ) :
    Keeps (Shows K) (settleFrom env turns) := by
  induction turns with
  | zero => exact Keeps.cut
  | succ turns ih =>
    refine Keeps.get fun v _ => ?_
    split_ifs
    · refine (snapshot_writes hK bodies captures).bind fun _ => ?_
      exact (interleave_writes hK).bind fun _ => (drainAudit_writes hK).bind fun _ => ih
    · exact Keeps.pure ()

theorem settle_writes (captures : allowed.captures = true) : Keeps (Shows K) (settle env) :=
  settleFrom_writes hK bodies captures _

end

theorem currentStatus_writes (hK : Tolerates allowed K) : Keeps (Shows K) (currentStatus env) :=
  (interleave_writes hK).bind fun _ => Keeps.get fun _ _ => Keeps.pure _

theorem flushDurable_writes (hK : Tolerates allowed K)
    (body : ∀ value, allowed.bodies (.flush value) = true) (flushes : allowed.flushes = true) :
    Keeps (Shows K) (flushDurable env) := by
  refine Keeps.get fun v _ => (emit_writes hK (body _)).bind fun _ => Keeps.get fun v' _ => ?_
  refine (log_writes hK (.flushing _) flushes).bind fun _ => (await_writes hK).bind fun turn => ?_
  rcases turn.sink with error | _
  · exact (log_writes hK (.flushFailed _) flushes).bind fun _ => Keeps.throw _
  · exact log_writes hK (.flushed _) flushes

def ordinary : Allowed where
  bodies
    | .mark _ | .flush _ => true
    | body => body.ofSnapshot
  captures := true
  flushes := true

theorem ordinary_snapshot {body : EventBody} (h : body.ofSnapshot = true) :
    ordinary.bodies body = true := by
  cases body with
  | sessionStart => exact h
  | sessionEnd => exact h
  | error => exact h
  | _ => rfl

theorem perform_writes (hK : Tolerates ordinary K) {command : Command}
    (other : ∀ reason, command ≠ .shutdown reason) : Keeps (Shows K) (perform env command) := by
  have hsnapshot : ∀ body : EventBody, body.ofSnapshot = true → ordinary.bodies body = true :=
    fun _ => ordinary_snapshot
  have hmap : ∀ {α : Type} {m : Task α} {f : α → Reply},
      Keeps (Shows K) m → Keeps (Shows K) (f <$> m) := fun h => h.bind fun _ => Keeps.pure _
  have hsettle : Keeps (Shows K) (settle env) := settle_writes hK hsnapshot rfl
  cases command with
  | status => exact hmap (currentStatus_writes hK)
  | snap => exact hmap (snapshot_writes hK hsnapshot rfl)
  | mark label «meta» =>
    refine hmap ((drainAudit_writes hK).bind fun _ => hsettle.bind fun _ => Keeps.get fun _ _ => ?_)
    exact emit_writes hK rfl
  | flush =>
    refine hmap ((drainAudit_writes hK).bind fun _ => hsettle.bind fun _ => ?_)
    exact (flushDurable_writes hK (fun _ => rfl) rfl).bind fun _ => currentStatus_writes hK
  | pause => exact (update_writes _).bind fun _ => hmap (currentStatus_writes hK)
  | resume =>
    refine hmap ((drainAudit_writes hK).bind fun _ => (update_writes _).bind fun _ => ?_)
    exact hsettle.bind fun _ => currentStatus_writes hK
  | shutdown reason => exact absurd rfl (other reason)

theorem Tolerates.mono {more : Allowed} (hK : Tolerates more K)
    (less : ∀ label : Label, label.within allowed = true → label.within more = true) :
    Tolerates allowed K := fun trace label within h => hK trace label (less label within) h

def anything : Allowed := ⟨fun _ => true, true, true⟩

theorem within_anything {label : Label} (h : label.within allowed = true) :
    label.within anything = true := by
  cases label with
  | began => exact h
  | replied => exact h
  | _ => rfl

theorem finish_writes (hK : Tolerates anything K) (reason : String) :
    Keeps (Shows K) (finish env reason) := by
  refine (drainAudit_writes hK).bind fun _ => ?_
  refine (settle_writes hK (fun _ _ => rfl) rfl).bind fun _ => Keeps.get fun _ _ => ?_
  exact (emit_writes hK rfl).bind fun _ => flushDurable_writes hK (fun _ => rfl) rfl

theorem performs_anything (hK : Tolerates anything K) (command : Command) :
    Keeps (Shows K) (perform env command) := by
  have hordinary : Tolerates ordinary K := hK.mono fun _ => within_anything
  cases command with
  | shutdown reason => exact (finish_writes hK reason).bind fun _ => Keeps.pure _
  | _ => exact perform_writes hordinary fun _ h => nomatch h

theorem serve_keeps (hK : Tolerates anything K) (command : Command)
    (began : ∀ coordinator audit trace, K trace → K (trace ++ [.began command coordinator audit]))
    (replied : ∀ reply trace, K trace → K (trace ++ [.replied command reply])) :
    Keeps (Shows K) (serve env command) := by
  have hbegin : Keeps (Shows K) (beginCommand command) := Keeps.modify fun w h => began _ _ _ h
  refine hbegin.bind fun _ => (performs_anything hK command).attempt.bind fun result => ?_
  rcases result with failure | reply
  · exact Keeps.modify fun w h => replied _ _ h
  · exact Keeps.modify fun w h => replied _ _ h

theorem initializeCoordinator_writes (hK : Tolerates anything K) :
    Keeps (Shows K) (initializeCoordinator env) :=
  (capture_writes hK rfl _).bind fun _ => Keeps.get fun _ _ => emit_writes hK rfl

theorem run_keeps (hK : Tolerates anything K)
    (began : ∀ command coordinator audit trace, K trace →
      K (trace ++ [.began command coordinator audit]))
    (serves : ∀ command, Keeps (Shows K) (serve env command)) (commands : List Command) :
    Keeps (Shows K) (run env commands) := by
  induction commands with
  | nil =>
    refine (interleave_writes hK).bind fun _ => Keeps.bind ?_ fun _ => finish_writes hK _
    exact Keeps.modify fun w h => began _ _ _ _ h
  | cons command commands ih =>
    cases command with
    | shutdown reason => exact (interleave_writes hK).bind fun _ => serves _
    | _ => exact (interleave_writes hK).bind fun _ => (serves _).bind fun _ => ih

theorem session_keeps (hK : Tolerates anything K)
    (began : ∀ command coordinator audit trace, K trace →
      K (trace ++ [.began command coordinator audit]))
    (serves : ∀ command, Keeps (Shows K) (serve env command)) (commands : List Command) :
    Keeps (Shows K) (session env commands) :=
  (initializeCoordinator_writes hK).bind fun _ => run_keeps hK began serves commands

end Rrjj
