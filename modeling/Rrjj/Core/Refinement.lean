import Rrjj.Core.Absorb
import Rrjj.Core.Steps

/-! The operations of the coordinator are made of the actions of `Step`. Each has a rule
that says what it leaves behind when it returns; however it ends, only actions were made. -/

namespace Rrjj
open Library Library.Proc

variable {start : World} {K : List Label → Prop} {c : Coordinator} {env : Environment}

def KeptBy (kind : Label → Prop) (K : List Label → Prop) : Prop :=
  ∀ trace label, kind label → K trace → K (trace ++ [label])

abbrev Steady (K : List Label → Prop) : Prop := KeptBy (fun label => label.isBegan = false) K

abbrev Patient (K : List Label → Prop) : Prop := KeptBy (fun label => label.isCall = true) K

theorem Patient.arrivals (hK : Patient K) : KeptBy (fun label => label.isArrival = true) K := by
  intro trace label hl
  exact hK trace label (by cases label <;> simp_all [Label.isArrival, Label.isCall])

theorem Steady.patient (hK : Steady K) : Patient K := by
  intro trace label hl
  exact hK trace label (by cases label <;> simp_all [Label.isBegan, Label.isCall, Label.isArrival])

theorem Steady.arrivals (hK : Steady K) : KeptBy (fun label => label.isArrival = true) K :=
  hK.patient.arrivals

theorem Steady.and {K' : List Label → Prop} (hK : Steady K) (hK' : Steady K') :
    Steady (fun trace => K trace ∧ K' trace) :=
  fun trace label hl h => ⟨hK trace label hl h.1, hK' trace label hl h.2⟩

theorem steady_underway (command : Command) : Steady (Underway command) :=
  fun _ _ hl h => h.snoc hl

theorem steady_ownAccepted (command : Command) : Steady (OwnAccepted command) :=
  fun _ _ hl h => h.snoc hl

theorem steady_opened : Steady Opened := fun _ label _ h => h.snoc label

structure At (start : World) (K : List Label → Prop) (c : Coordinator) (w : World) : Prop where
  steps : Steps start w
  trace : K w.trace
  coordinator : w.coordinator = c

theorem At.log {w : World} {label : Label} (h : At start K c w) (hK : K (w.trace ++ [label]))
    (step : Step w (w.log label)) : At start K c (w.log label) :=
  ⟨h.steps.tail step, hK, h.coordinator⟩

theorem WatcherCall.isArrival_label (call : WatcherCall) : call.label.isArrival := by
  cases call <;> rfl

theorem At.recordAll {w : World} (calls : List WatcherCall)
    (hK : KeptBy (fun label => label.isArrival = true) K) (h : At start K c w) :
    At start K c (w.recordAll calls) := by
  induction calls generalizing w with
  | nil => exact h
  | cons call calls ih =>
    exact ih ⟨h.steps.tail (.arrival w call), hK _ _ call.isArrival_label h.trace, h.coordinator⟩

@[simp] theorem World.recordAll_clock (w : World) (calls : List WatcherCall) :
    (w.recordAll calls).clock = w.clock := by
  induction calls generalizing w with
  | nil => rfl
  | cons call calls ih => exact ih (w.record call)

theorem await_spec (hK : KeptBy (fun label => label.isArrival = true) K) :
    Triple (At start K c) (await env) (fun _ => At start K c) (Steps start) := by
  intro w hw
  have hrec := hw.recordAll (env.answers w.clock).arrivals hK
  unfold await
  by_cases hclock : w.clock < env.horizon
  · simp only [hclock, if_true]
    have hstep := Step.tick (w.recordAll (env.answers w.clock).arrivals)
    rw [World.recordAll_clock] at hstep
    exact ⟨hrec.steps.tail hstep, hrec.trace, hrec.coordinator⟩
  · simp only [hclock, if_false]
    exact hrec.steps

theorem interleave_spec (hK : Steady K) :
    Triple (At start K c) (interleave env) (fun _ => At start K c) (Steps start) :=
  (await_spec hK.arrivals).bind fun _ => Triple.pure fun _ h => h

theorem now_spec {P R : World → Prop} : Triple P (now env) (fun _ => P) R :=
  Triple.get fun _ hu => Triple.pure fun _ hs => hs ▸ hu

def JustAccepted (start : World) (K : List Label → Prop) (c : Coordinator) (event : Event)
    (w : World) : Prop :=
  ∃ v, At start K c v ∧ Awaiting (.emitting event) v.trace ∧ event.seq = c.seq ∧
    w = v.accept event id

theorem emitExact_spec (hK : Patient K) (event : Event)
    (hretained : event.seq ≠ c.seq → c.pendingSnapshotEvent = some event) :
    Triple (At start K c) (emitExact env event)
      (fun _ => JustAccepted start K c event) (Steps start) := by
  refine Triple.get fun u hu => ?_
  by_cases hseq : event.seq = u.coordinator.seq
  · simp only [hseq, if_true]
    refine Triple.bind (Q := fun _ => At start (fun t => K t ∧ Awaiting (.emitting event) t) c)
      (Triple.modify ?_) fun _ => ?_
    · rintro s rfl
      exact ⟨hu.steps.tail (.emitting s event hseq),
        ⟨hK _ _ rfl hu.trace, awaiting_self _ _⟩, hu.coordinator⟩
    have hwait : KeptBy (fun label => label.isArrival = true)
        (fun t => K t ∧ Awaiting (.emitting event) t) :=
      fun t l hl h => ⟨hK.arrivals t l hl h.1, h.2.snoc hl⟩
    refine (await_spec hwait).bind fun turn => ?_
    rcases turn.sink with error | _
    · exact Triple.bind (Q := fun _ => Steps start)
        (Triple.modify fun v hv => hv.steps.tail (.refused v event hv.trace.2))
        fun _ => Triple.throw fun _ h => h
    · refine Triple.bind (Q := fun _ w => ∃ v,
          At start (fun t => K t ∧ Awaiting (.emitting event) t) c v ∧ w = v.log (.accepted event))
        (Triple.modify fun v hv => ⟨v, hv, rfl⟩) fun _ => Triple.modify ?_
      rintro _ ⟨v, hv, rfl⟩
      exact ⟨v, ⟨hv.steps, hv.trace.1, hv.coordinator⟩, hv.trace.2, hu.coordinator ▸ hseq, rfl⟩
  · simp only [hseq, if_false]
    have hne : event.seq ≠ c.seq := hu.coordinator ▸ hseq
    refine Triple.bind (Q := fun _ => Steps start) (Triple.modify ?_)
      fun _ => Triple.throw fun _ h => h
    rintro s rfl
    exact hu.steps.tail
      (.sequenceChanged s event (hu.coordinator ▸ hretained hne) hseq)

theorem emit_spec (hK : Patient K) (body : EventBody) :
    Triple (At start K c) (emit env body)
      (fun _ w => ∃ time, JustAccepted start K c (.new c.config.sessionId c.seq time body) w)
      (Steps start) := by
  refine Triple.get fun u hu => ?_
  refine Triple.bind (now_spec.pre fun s hs => hs ▸ hu) fun time => ?_
  rw [hu.coordinator]
  exact (emitExact_spec hK _ fun h => absurd rfl h).post fun _ w hw => ⟨time, hw⟩

/-- The assignments made once `event` is accepted complete the action. -/
theorem JustAccepted.complete {event : Event} {f : Coordinator → Coordinator} {w : World}
    (h : JustAccepted start K c event w)
    (emission : ∀ v, At start K c v → Emission v event f) :
    Steps start (w.update f) ∧ ∃ v, At start K c v ∧ w.update f = v.accept event f := by
  obtain ⟨v, hv, hawait, hseq, rfl⟩ := h
  have hstep := Step.accepted v event f hawait (hseq.trans (hv.coordinator ▸ rfl))
    (emission v hv)
  exact ⟨hv.steps.tail hstep, v, hv, rfl⟩

theorem JustAccepted.at {event : Event} {f : Coordinator → Coordinator} {w : World}
    (hK : Steady K) (h : JustAccepted start K c event w)
    (emission : ∀ v, At start K c v → Emission v event f) :
    At start K (f { c with seq := c.seq + 1 }) (w.update f) := by
  obtain ⟨hsteps, v, hv, heq⟩ := h.complete emission
  refine ⟨hsteps, ?_, ?_⟩
  · rw [heq]
    exact hK _ _ rfl hv.trace
  · rw [heq, ← hv.coordinator]
    rfl

def JustCaptured (start : World) (K : List Label → Prop) (c : Coordinator) (fullScan : Bool)
    (snapshot : Snapshot) (w : World) : Prop :=
  ∃ v checkpoint, At start K c v ∧ Awaiting (.capturing fullScan) v.trace ∧
    snapshot = c.recorder.snapshotOf checkpoint c.config.maxChangesPerEvent ∧
    w = v.capture checkpoint

theorem capture_spec (hK : Patient K) (fullScan : Bool) (quiet : Quiet c)
    (scan : ∀ t, K t → Opened t → fullScan = c.forceFullScan) :
    Triple (At start K c) (capture env fullScan)
      (fun snapshot => JustCaptured start K c fullScan snapshot) (Steps start) := by
  have hwait : KeptBy (fun label => label.isArrival = true)
      (fun t => K t ∧ Awaiting (.capturing fullScan) t) :=
    fun t l hl h => ⟨hK.arrivals t l hl h.1, h.2.snoc hl⟩
  refine Triple.bind
    (Q := fun _ => At start (fun t => K t ∧ Awaiting (.capturing fullScan) t) c)
    (Triple.modify fun w hw => ?_) fun _ => (await_spec hwait).bind fun turn => ?_
  · exact ⟨hw.steps.tail (.capturing w fullScan (hw.coordinator ▸ quiet)
      fun h => hw.coordinator ▸ scan _ hw.trace h), ⟨hK _ _ rfl hw.trace, awaiting_self _ _⟩,
      hw.coordinator⟩
  rcases turn.checkpoint with message | checkpoint
  · exact Triple.bind (Q := fun _ => Steps start)
      (Triple.modify fun v hv => hv.steps.tail (.captureFailed v fullScan hv.trace.2))
      fun _ => Triple.throw fun _ h => h
  · refine Triple.get fun v hv => ?_
    refine Triple.bind (Q := fun _ w => w = v.update fun coordinator =>
        { coordinator with recorder := .captured checkpoint })
      (Triple.modify fun w hw => by rw [hw]) fun _ => ?_
    refine Triple.bind (Q := fun _ w => w = v.capture checkpoint)
      (Triple.modify fun w hw => by rw [hw]; rfl) fun _ => Triple.pure fun w hw => ?_
    exact ⟨v, checkpoint, ⟨hv.steps, hv.trace.1, hv.coordinator⟩, hv.trace.2,
      by rw [hv.coordinator], hw⟩

theorem captureSnapshot_spec (hK : Steady K) (opened : ∀ t, K t → Opened t) (quiet : Quiet c) :
    Triple (At start K c) (captureSnapshot env)
      (fun _ w => Steps start w ∧ K w.trace ∧ w.coordinator.pendingSnapshotEvent = none)
      (Steps start) := by
  refine Triple.get fun u hu => ?_
  rw [hu.coordinator]
  refine Triple.bind ((capture_spec hK.patient c.forceFullScan quiet fun _ _ _ => rfl).pre
    fun s hs => hs ▸ hu) fun snapshot => now_spec.bind fun time => ?_
  refine Triple.of_start fun w hw => ?_
  obtain ⟨v, checkpoint, hv, hawait, rfl, rfl⟩ := hw
  -- the retained event belongs to the same action as the capture
  have hcaptured := Step.captured v c.forceFullScan checkpoint time hawait
    (hv.coordinator ▸ quiet) (opened _ hv.trace)
  rw [World.snapshotEvent, hv.coordinator] at hcaptured
  generalize hevent : Event.new c.config.sessionId c.seq time
    (.snapshot (c.recorder.snapshotOf checkpoint c.config.maxChangesPerEvent)) = event
    at hcaptured ⊢
  refine Triple.bind (Q := fun _ => At start K
      { c with recorder := .captured checkpoint, pendingSnapshotEvent := some event })
    (Triple.modify ?_) fun _ => ?_
  · rintro s rfl
    exact ⟨hv.steps.tail hcaptured, hK _ _ rfl hv.trace, by rw [← hv.coordinator]; rfl⟩
  refine (emitExact_spec hK.patient event fun _ => rfl).bind fun _ => ?_
  refine Triple.bind (Q := fun _ w => Steps start w ∧ K w.trace ∧
    w.coordinator.pendingSnapshotEvent = none) (Triple.modify fun s hs => ?_)
    fun _ => Triple.pure fun _ h => h
  have hdone := hs.at hK (f := Coordinator.snapshotDelivered) fun x hx =>
    .snapshot event _ (by rw [hx.coordinator]) (by rw [← hevent]; rfl)
      (by rw [hx.coordinator]; exact quiet.overflows) (by rw [hx.coordinator]; exact quiet.audit)
  exact ⟨hdone.steps, hdone.trace, by rw [hdone.coordinator]; rfl⟩

theorem emitOverflowsFrom_spec (hK : Steady K) (notices : List OverflowNotice)
    (hnotices : c.pendingOverflows = notices) (delivered : c.pendingSnapshotEvent = none) :
    Triple (At start K c) (emitOverflowsFrom env notices)
      (fun _ w => ∃ c', At start K c' w ∧ c'.pendingOverflows = [] ∧
        c'.pendingSnapshotEvent = none) (Steps start) := by
  induction notices generalizing c with
  | nil => exact Triple.pure fun w hw => ⟨c, hw, hnotices, delivered⟩
  | cons notice rest ih =>
    refine (emit_spec hK.patient _).bind fun _ => ?_
    refine Triple.bind (Q := fun _ => At start K
        { c with seq := c.seq + 1, pendingOverflows := rest }) (Triple.modify ?_) fun _ =>
      ih rfl delivered
    rintro w ⟨time, hw⟩
    have hdone := hw.at hK (f := fun coordinator =>
        { coordinator with pendingOverflows := coordinator.pendingOverflows.tail })
      fun x hx => by
        have h := Emission.overflow (w := x) time notice rest (hx.coordinator ▸ delivered)
          (hx.coordinator ▸ hnotices)
        rwa [hx.coordinator] at h
    simpa only [hnotices, List.tail_cons] using hdone

theorem emitAudit_spec (hK : Steady K) (overflows : c.pendingOverflows = [])
    (delivered : c.pendingSnapshotEvent = none) :
    Triple (At start K c) (emitAudit env)
      (fun _ w => ∃ c', At start K c' w ∧ Quiet c') (Steps start) := by
  refine Triple.get fun u hu => ?_
  rw [hu.coordinator]
  rcases hstarted : c.auditStartedAt with _ | startedAt
  · exact Triple.pure fun w hw => ⟨c, hw ▸ hu, delivered, overflows, hstarted⟩
  · refine Triple.bind (now_spec.pre fun s hs => show At start K c s from hs ▸ hu) fun ended => ?_
    refine (emit_spec hK.patient _).bind fun _ => Triple.modify ?_
    rintro w ⟨time, hw⟩
    refine ⟨_, hw.at hK (f := Coordinator.auditEmitted) fun x hx => ?_, delivered, overflows, rfl⟩
    have h := Emission.audit (w := x) time startedAt ended (hx.coordinator ▸ delivered)
      (hx.coordinator ▸ overflows) (hx.coordinator ▸ hstarted)
    rwa [hx.coordinator] at h

theorem deliverRetained_spec (hK : Steady K) (event : Event)
    (retained : c.pendingSnapshotEvent = some event) :
    Triple (At start K c) (deliverRetained env event)
      (fun _ w => Steps start w ∧ K w.trace ∧ w.coordinator.pendingSnapshotEvent = none)
      (Steps start) := by
  unfold deliverRetained
  split
  · next snapshot hbody =>
    refine (emitExact_spec hK.patient event fun _ => retained).bind fun _ => ?_
    refine Triple.bind (Q := fun _ w => Steps start w ∧ K w.trace ∧
      w.coordinator.pendingSnapshotEvent = none) (Triple.modify fun s hs => ?_)
      fun _ => Triple.pure fun _ h => h
    have hdone := hs.at hK (f := Coordinator.retainedDelivered) fun x hx =>
      .retained event snapshot (hx.coordinator ▸ retained) hbody
    exact ⟨hdone.steps, hdone.trace, by rw [hdone.coordinator]; rfl⟩
  · exact Triple.throw fun _ h => h.steps

theorem snapshot_spec (hK : Steady K) (opened : ∀ t, K t → Opened t) :
    Triple (fun w => Steps start w ∧ K w.trace) (snapshot env)
      (fun _ w => Steps start w ∧ K w.trace ∧ w.coordinator.pendingSnapshotEvent = none)
      (Steps start) := by
  refine Triple.get fun u hu => ?_
  have hat : At start K u.coordinator u := ⟨hu.1, hu.2, rfl⟩
  rcases hretained : u.coordinator.pendingSnapshotEvent with _ | event
  · refine ((interleave_spec hK (c := u.coordinator)).pre fun s hs => by rw [hs]; exact hat).bind
      fun _ => ?_
    refine Triple.bind (Q := fun _ w => Steps start w ∧ K w.trace ∧
        w.coordinator.pendingSnapshotEvent = none) (Triple.modify fun w hw => ?_) fun _ => ?_
    · refine ⟨hw.steps.tail (.drained w), hK _ _ rfl hw.trace, ?_⟩
      change (w.coordinator.absorb w.audit.drain).pendingSnapshotEvent = none
      rw [Coordinator.absorb_pendingSnapshotEvent, hw.coordinator, hretained]
    refine Triple.of_start fun v hv => ?_
    have hv' : At start K v.coordinator v := ⟨hv.1, hv.2.1, rfl⟩
    refine Triple.bind (Q := fun _ w => ∃ c', At start K c' w ∧ c'.pendingOverflows = [] ∧
      c'.pendingSnapshotEvent = none) ?_ fun _ => ?_
    · refine Triple.get fun x hx => ?_
      rw [hx]
      exact (emitOverflowsFrom_spec hK _ rfl hv.2.2).pre fun s hs => hs ▸ hv'
    refine Triple.bind (Q := fun _ w => ∃ c', At start K c' w ∧ Quiet c')
      (Triple.of_start ?_) fun _ => Triple.of_start ?_
    · rintro w ⟨c', hw, hoverflows, hdelivered⟩
      exact (emitAudit_spec hK hoverflows hdelivered).pre fun s hs => hs ▸ hw
    · rintro w ⟨c', hw, hquiet⟩
      exact (captureSnapshot_spec hK opened hquiet).pre fun s hs => hs ▸ hw
  · exact (deliverRetained_spec hK event hretained).pre fun s hs => hs ▸ hat

end Rrjj
