import Rrjj.Core.Coordinator

/-! What the operations do when the sink or jj answers as is hoped for. -/

namespace Rrjj
open Library Library.Proc

namespace World

def waited (env : Environment) (w : World) : World :=
  { w.recordAll (env.answers w.clock).arrivals with clock := w.clock + 1 }

/-- The state once the sink has accepted `event`. -/
def sent (env : Environment) (event : Event) (w : World) : World :=
  (((w.log (.emitting event)).waited env).log (.accepted event)).update
    fun coordinator => { coordinator with seq := coordinator.seq + 1 }

@[simp] theorem recordAll_coordinator (w : World) (calls : List WatcherCall) :
    (w.recordAll calls).coordinator = w.coordinator := by
  induction calls generalizing w with
  | nil => rfl
  | cons call calls ih => exact ih (w.record call)

@[simp] theorem waited_coordinator (env : Environment) (w : World) :
    (w.waited env).coordinator = w.coordinator := w.recordAll_coordinator _

@[simp] theorem waited_clock (env : Environment) (w : World) :
    (w.waited env).clock = w.clock + 1 := rfl

@[simp] theorem sent_clock (env : Environment) (event : Event) (w : World) :
    (w.sent env event).clock = w.clock + 1 := rfl

@[simp] theorem sent_coordinator (env : Environment) (event : Event) (w : World) :
    (w.sent env event).coordinator = { w.coordinator with seq := w.coordinator.seq + 1 } := by
  simp [sent, update, log]

end World

variable {env : Environment} {w : World} {event : Event}

theorem await_run (h : w.clock < env.horizon) :
    (await env).run w = (.ok (env.answers w.clock), w.waited env) := by
  simp [await, h, World.waited]

theorem emitExact_run (next : event.seq = w.coordinator.seq) (h : w.clock < env.horizon)
    (accepts : (env.answers w.clock).sink = .ok ()) :
    (emitExact env event).run w = (.ok (), w.sent env event) := by
  have hwait := await_run (w := w.log (.emitting event)) h
  have hclock : (w.log (.emitting event)).clock = w.clock := rfl
  unfold emitExact log
  simp only [run_bind, run_get, next, if_true, run_modify, hwait, hclock, accepts]
  rfl

/-- What the watcher records and jj answers, when neither the sink nor jj ever fails. -/
structure Schedule where
  arrivals : ℕ → List WatcherCall
  now : ℕ → String
  checkpoint : ℕ → Checkpoint

def Schedule.answer (s : Schedule) (t : ℕ) : Turn where
  arrivals := s.arrivals t
  now := s.now t
  sink := .ok ()
  checkpoint := .ok (s.checkpoint t)

/-- The environment that follows the schedule and is seen up to the horizon. -/
def Schedule.environment (s : Schedule) (horizon : ℕ) : Environment := ⟨s.answer, horizon⟩

def World.awaited (s : Schedule) (w : World) : World := w.waited (s.environment 0)

/-- The state once the sink has accepted `event`, by the schedule. -/
def World.emitted (s : Schedule) (event : Event) (w : World) : World :=
  w.sent (s.environment 0) event

structure Reaches {α : Type} (s : Schedule) (m : Environment → Task α) (w : World) (a : α)
    (w' : World) : Prop where
  later : w.clock ≤ w'.clock
  returns : ∀ horizon, w'.clock ≤ horizon → (m (s.environment horizon)).run w = (.ok a, w')
  cut : ∀ horizon, w.clock ≤ horizon → horizon < w'.clock →
    ((m (s.environment horizon)).run w).1 = .cut

section
variable {α β : Type} {s : Schedule} {w w' w'' : World} {a : α} {b : β}

theorem Reaches.pure : Reaches s (fun _ => Pure.pure a) w a w where
  later := le_rfl
  returns _ _ := rfl
  cut _ hle hlt := absurd hle (Nat.not_le_of_lt hlt)

theorem Reaches.modify {f : World → World} (hclock : (f w).clock = w.clock) :
    Reaches s (fun _ => Proc.modify f) w () (f w) where
  later := hclock.ge
  returns _ _ := rfl
  cut _ hle hlt := absurd hle (Nat.not_le_of_lt (hclock ▸ hlt))

theorem Reaches.get {f : Environment → World → Task α} (h : Reaches s (fun env => f env w) w a w') :
    Reaches s (fun env => Proc.get >>= f env) w a w' := ⟨h.later, h.returns, h.cut⟩

theorem Reaches.bind {m : Environment → Task α} {f : Environment → α → Task β}
    (hm : Reaches s m w a w') (hf : Reaches s (fun env => f env a) w' b w'') :
    Reaches s (fun env => m env >>= f env) w b w'' where
  later := hm.later.trans hf.later
  returns horizon hle := by
    rw [run_bind, hm.returns horizon (hf.later.trans hle)]
    exact hf.returns horizon hle
  cut horizon hle hlt := by
    rw [run_bind]
    by_cases hfirst : horizon < w'.clock
    · have hcut := hm.cut horizon hle hfirst
      rcases hrun : (m (s.environment horizon)).run w with ⟨outcome, t⟩
      rw [hrun] at hcut
      obtain rfl : outcome = .cut := hcut
      rfl
    · rw [hm.returns horizon (Nat.le_of_not_lt hfirst)]
      exact hf.cut horizon (Nat.le_of_not_lt hfirst) hlt

theorem await_reaches (s : Schedule) (w : World) :
    Reaches s await w (s.answer w.clock) (w.awaited s) where
  later := Nat.le_succ _
  returns horizon hle := @await_run (s.environment horizon) w hle
  cut horizon hle hlt := by
    have hclock : ¬ w.clock < horizon := Nat.not_lt.mpr (Nat.le_of_lt_succ hlt)
    simp [await, Schedule.environment, hclock]

theorem interleave_reaches (s : Schedule) (w : World) :
    Reaches s interleave w () (w.awaited s) := (await_reaches s w).bind .pure

theorem now_reaches (s : Schedule) (w : World) : Reaches s now w (s.now w.clock) w where
  later := le_rfl
  returns _ _ := rfl
  cut _ hle hlt := absurd hle (Nat.not_le_of_lt hlt)

theorem emitExact_reaches {event : Event} (next : event.seq = w.coordinator.seq) :
    Reaches s (fun env => emitExact env event) w () (w.emitted s event) where
  later := Nat.le_succ _
  returns horizon hle := @emitExact_run (s.environment horizon) w event next hle rfl
  cut horizon hle hlt := by
    have hclock : ¬ w.clock < horizon := Nat.not_lt.mpr (Nat.le_of_lt_succ hlt)
    have hcut : ((await (s.environment horizon)).run (w.log (.emitting event))) =
        (.cut, (w.log (.emitting event)).recordAll (s.answer w.clock).arrivals) := by
      simp [await, Schedule.environment, World.log, hclock]
    unfold emitExact log
    simp only [run_bind, run_get, next, if_true, run_modify, hcut]

theorem emit_reaches (s : Schedule) (w : World) (body : EventBody) :
    Reaches s (fun env => emit env body) w ()
      (w.emitted s (.new w.coordinator.config.sessionId w.coordinator.seq (s.now w.clock) body)) :=
  .get ((now_reaches s w).bind (emitExact_reaches rfl))

def World.recaptured (s : Schedule) (fullScan : Bool) (w : World) : World :=
  let answered := (w.log (.capturing fullScan)).awaited s
  (answered.update fun coordinator =>
      { coordinator with recorder := .captured (s.checkpoint w.clock) }).log
    (.captured (w.coordinator.recorder.snapshotOf (s.checkpoint w.clock)
      w.coordinator.config.maxChangesPerEvent))

theorem capture_reaches (s : Schedule) (w : World) (fullScan : Bool) :
    Reaches s (fun env => capture env fullScan) w
      (w.coordinator.recorder.snapshotOf (s.checkpoint w.clock)
        w.coordinator.config.maxChangesPerEvent) (w.recaptured s fullScan) := by
  refine Reaches.bind (Reaches.modify (f := fun w => w.log (.capturing fullScan)) rfl) ?_
  refine Reaches.bind (await_reaches s _) (Reaches.get ?_)
  have hcoordinator : ((w.log (.capturing fullScan)).awaited s).coordinator = w.coordinator :=
    World.waited_coordinator _ _
  rw [hcoordinator]
  refine Reaches.bind (Reaches.modify rfl) ?_
  exact Reaches.bind (Reaches.modify rfl) .pure

end
end Rrjj
