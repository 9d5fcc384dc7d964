import Rrjj.Core.Refinement

/-! Commands and whole sessions are made of the actions of `Step`: what holds of every
sequence of actions from the start holds of every state a session reaches. -/

namespace Rrjj
open Library Library.Proc

variable {start : World} {K : List Label → Prop} {c : Coordinator} {env : Environment}

def Excused (command : Command) (trace : List Label) : Prop :=
  command.publishes = true → Stranding trace

theorem steady_excused (command : Command) : Steady (Excused command) :=
  fun _ label _ h hp => (h hp).snoc label

def Loose (S : List Label → Prop) (w : World) : Prop :=
  w.coordinator.pendingSnapshotEvent = none ∨ S w.trace

theorem settleFrom_spec {S : List Label → Prop} (hK : Steady K)
    (opened : ∀ t, K t → Opened t) (turns : ℕ) :
    Triple (fun w => Steps start w ∧ K w.trace ∧
        (w.coordinator.pendingSnapshot = false → Loose S w))
      (settleFrom env turns)
      (fun _ w => Steps start w ∧ K w.trace ∧ w.coordinator.pendingSnapshot = false ∧ Loose S w)
      (Steps start) := by
  induction turns with
  | zero => exact Triple.cut fun _ h => h.1
  | succ turns ih =>
    refine Triple.get fun u hu => ?_
    rcases hpending : u.coordinator.pendingSnapshot with _ | _
    · exact Triple.pure fun w hw => hw ▸ ⟨hu.1, hu.2.1, hpending, hu.2.2 hpending⟩
    · refine ((snapshot_spec hK opened).pre fun s hs => hs ▸ ⟨hu.1, hu.2.1⟩).bind fun _ => ?_
      refine Triple.of_start fun v hv => ?_
      have hat : At start K v.coordinator v := ⟨hv.1, hv.2.1, rfl⟩
      refine ((interleave_spec hK (c := v.coordinator)).pre fun s hs => by rw [hs]; exact hat).bind
        fun _ => ?_
      refine Triple.bind (Triple.modify fun w hw => ⟨hw.steps.tail (.drained w),
        hK _ _ rfl hw.trace, fun _ => Or.inl ?_⟩) fun _ => ih
      change (w.coordinator.absorb w.audit.drain).pendingSnapshotEvent = none
      rw [Coordinator.absorb_pendingSnapshotEvent, hw.coordinator, hv.2.2]

def JustBegun (start : World) (command : Command) (w : World) : Prop :=
  ∃ v, Steps start v ∧ Opened v.trace ∧ w = v.log (.began command v.coordinator v.audit)

theorem JustBegun.steps {command : Command} {w : World} (h : JustBegun start command w) :
    Steps start w := by
  obtain ⟨v, hv, hopened, rfl⟩ := h
  exact hv.tail (.began v command hopened)

theorem JustBegun.opened {command : Command} {w : World} (h : JustBegun start command w) :
    Opened w.trace := by
  obtain ⟨v, hv, hopened, rfl⟩ := h
  exact hopened.snoc _

def Serving (command : Command) (trace : List Label) : Prop :=
  Opened trace ∧ Underway command trace

theorem steady_serving (command : Command) : Steady (Serving command) :=
  steady_opened.and (steady_underway command)

theorem drainBegun_spec (command : Command) :
    Triple (JustBegun start command) drainAudit
      (fun _ w => Steps start w ∧ Serving command w.trace ∧
        (w.coordinator.pendingSnapshot = false → Loose (Excused command) w)) (Steps start) := by
  refine Triple.modify fun w hw => ⟨hw.steps.tail (.drained w), ⟨hw.opened.snoc _, ?_⟩, ?_⟩
  · obtain ⟨v, -, -, rfl⟩ := hw
    exact ⟨v.trace, v.coordinator, v.audit, [.drained], by simp [World.drainAudit, World.log],
      by simp, by simp [Label.isBegan]⟩
  · obtain ⟨v, -, -, rfl⟩ := hw
    intro hidle
    change (v.coordinator.absorb v.audit.drain).pendingSnapshot = false at hidle
    by_cases hnone : v.coordinator.pendingSnapshotEvent = none
    · refine Or.inl ?_
      change (v.coordinator.absorb v.audit.drain).pendingSnapshotEvent = none
      rw [Coordinator.absorb_pendingSnapshotEvent, hnone]
    refine Or.inr fun hpublishes => ⟨command, v.coordinator, v.audit, ?_, hpublishes, hnone, ?_⟩
    · simp [World.drainAudit, World.log]
    have hclean : v.audit.isDirty = false := by
      by_contra hdirty
      rw [Coordinator.absorb_dirty _ _ (by simpa using hdirty)] at hidle
      exact absurd hidle (by decide)
    rw [Coordinator.absorb_pendingSnapshot, Bool.or_eq_false_iff] at hidle
    simp [Coordinator.status, hidle.1, hclean]

abbrev Free (command : Command) (c : Coordinator) (trace : List Label) : Prop :=
  Serving command trace ∧ (c.pendingSnapshotEvent = none ∨ Excused command trace)

theorem steady_free (command : Command) (c : Coordinator) : Steady (Free command c) := by
  intro trace label hl h
  refine ⟨steady_serving command trace label hl h.1, h.2.imp_right fun he => ?_⟩
  exact steady_excused command trace label hl he

theorem settled_of_free {command : Command} {w : World}
    (idle : w.coordinator.pendingSnapshot = false)
    (free : Free command w.coordinator w.trace) : Settled command w where
  idle := idle
  underway := free.1.2
  delivered hp := free.2.imp_right fun excused => excused hp

theorem At.settled {command : Command} {w : World} (h : At start K c w)
    (idle : c.pendingSnapshot = false) (free : Free command c w.trace) : Settled command w := by
  rw [← h.coordinator] at idle free
  exact settled_of_free idle free

/-- The loop over pending snapshots, and what a command does once it is left. -/
theorem settle_spec {α : Type} {command : Command} {m : Task α} {Q : α → World → Prop}
    (hm : ∀ c, c.pendingSnapshot = false →
      Triple (At start (Free command c) c) m Q (Steps start)) :
    Triple (fun w => Steps start w ∧ Serving command w.trace ∧
        (w.coordinator.pendingSnapshot = false → Loose (Excused command) w))
      (settle env >>= fun _ => m) Q (Steps start) := by
  refine (settleFrom_spec (steady_serving command) (fun _ h => h.1) _).bind fun _ => ?_
  refine Triple.of_start fun w hw => ?_
  obtain ⟨hsteps, hserving, hidle, hloose⟩ := hw
  refine (hm w.coordinator hidle).pre fun s hs => ?_
  rw [hs]
  exact ⟨hsteps, ⟨hserving, hloose⟩, rfl⟩

theorem emitOwn_spec {command : Command} (body : EventBody) (own : OwnEvent command body)
    (emission : ∀ w time, At start (Free command c) c w →
      Emission w (.new c.config.sessionId c.seq time body) id) :
    Triple (At start (Free command c) c) (emit env body)
      (fun _ => At start (fun t => Free command c t ∧ OwnAccepted command t)
        { c with seq := c.seq + 1 }) (Steps start) := by
  refine (emit_spec (steady_free command c).patient body).post fun _ w hw => ?_
  obtain ⟨time, hw⟩ := hw
  have hdone := hw.at (steady_free command c) (f := id) fun v hv => emission v time hv
  obtain ⟨v, hv, -, -, rfl⟩ := hw
  exact ⟨hdone.steps, ⟨hdone.trace, hv.trace.1.2.accepted own⟩, hdone.coordinator⟩

structure Served (command : Command) (w : World) : Prop where
  own : command.publishes = true → OwnAccepted command w.trace
  settled : command = .resume → Settled command w

theorem currentStatus_spec (hK : Steady K) :
    Triple (At start K c) (currentStatus env) (fun _ => At start K c) (Steps start) :=
  (interleave_spec hK).bind fun _ => Triple.get fun _ hu => Triple.pure fun _ hs => hs ▸ hu

theorem mark_spec (label : String) («meta» : List (String × String)) :
    Triple (JustBegun start (.mark label «meta»)) (mark env label «meta»)
      (fun _ w => Steps start w ∧ Served (.mark label «meta») w) (Steps start) := by
  refine (drainBegun_spec _).bind fun _ => settle_spec fun c hidle => Triple.get fun u hu => ?_
  rw [hu.coordinator]
  have hown := @emitOwn_spec start c env (.mark label «meta»)
    (.mark ⟨label, «meta», c.recorder.opId⟩) ⟨_, rfl⟩ fun w time hw => by
      have h := Emission.mark time label «meta» (hw.settled hidle hw.trace)
      rwa [hw.coordinator] at h
  refine hown.conseq (fun s hs => hs ▸ hu) (fun _ w hw => ⟨hw.steps, ?_, ?_⟩) fun _ h => h
  · exact fun _ => hw.trace.2
  · exact fun h => nomatch h

theorem flushDurable_spec {command : Command} (publishes : command.publishes = true)
    (idle : c.pendingSnapshot = false)
    (own : ∀ trace event value, Free command c trace → K trace → event.body = .flush value →
      OwnAccepted command (trace ++ [.accepted event]))
    (hK : Steady K) :
    Triple (At start (fun t => Free command c t ∧ K t) c) (flushDurable env)
      (fun _ w => At start (fun t => Free command c t ∧ OwnAccepted command t)
        { c with seq := c.seq + 1 } w) (Steps start) := by
  have hboth : Steady fun t => Free command c t ∧ K t := (steady_free command c).and hK
  have hdone : Steady fun t => Free command c t ∧ OwnAccepted command t :=
    (steady_free command c).and (steady_ownAccepted command)
  refine Triple.get fun u hu => ?_
  rw [hu.coordinator]
  refine Triple.bind (Q := fun _ => At start (fun t => Free command c t ∧ OwnAccepted command t)
    { c with seq := c.seq + 1 }) ?_ fun _ => ?_
  · refine ((emit_spec hboth.patient _).pre fun s hs => hs ▸ hu).post fun _ w hw => ?_
    obtain ⟨time, hw⟩ := hw
    have hat := hw.at hboth (f := id) fun v hv => by
      have h := Emission.flush (w := v) time command publishes (hv.settled idle hv.trace.1)
      rwa [hv.coordinator] at h
    obtain ⟨v, hv, -, -, rfl⟩ := hw
    exact ⟨hat.steps, ⟨hat.trace.1, own _ _ _ hv.trace.1 hv.trace.2 rfl⟩, hat.coordinator⟩
  refine Triple.get fun u' hu' => ?_
  rw [hu'.coordinator]
  generalize hrequest : FlushRequest.mk c.config.shadowRoot (c.seq + 1 - 1) c.recorder.opId
    c.recorder.commitId = request
  refine Triple.bind (Q := fun _ => At start (fun t =>
      (Free command c t ∧ OwnAccepted command t) ∧ Awaiting (.flushing request) t)
    { c with seq := c.seq + 1 }) (Triple.modify ?_) fun _ => ?_
  · rintro s rfl
    refine ⟨hu'.steps.tail ?_, ⟨hdone _ _ rfl hu'.trace, awaiting_self _ _⟩, hu'.coordinator⟩
    have h := Step.flushing s command publishes (hu'.settled idle hu'.trace.1)
    rw [hu'.coordinator] at h
    rwa [← hrequest]
  -- while the sink works only arrivals are logged
  have hwait : KeptBy (fun label => label.isArrival = true) (fun t =>
      (Free command c t ∧ OwnAccepted command t) ∧ Awaiting (.flushing request) t) :=
    fun t l hl h => ⟨hdone.arrivals t l hl h.1, h.2.snoc hl⟩
  refine (await_spec hwait).bind fun turn => ?_
  rcases turn.sink with error | _
  · exact Triple.bind (Q := fun _ => Steps start)
      (Triple.modify fun v hv => hv.steps.tail (.flushFailed v request hv.trace.2))
      fun _ => Triple.throw fun _ h => h
  · refine Triple.modify fun v hv => ?_
    exact ⟨hv.steps.tail (.flushed v request hv.trace.2), hdone _ _ rfl hv.trace.1, hv.coordinator⟩

theorem finish_spec (reason : String) :
    Triple (JustBegun start (.shutdown reason)) (finish env reason)
      (fun _ w => Steps start w ∧ Served (.shutdown reason) w) (Steps start) := by
  refine (drainBegun_spec _).bind fun _ => settle_spec fun c hidle => Triple.get fun u hu => ?_
  rw [hu.coordinator]
  have hown := @emitOwn_spec start c env (.shutdown reason)
    (.sessionEnd ⟨c.recorder.opId, reason, c.snapshots, c.seq⟩) ⟨_, _, _, rfl⟩ fun w time hw => by
      have h := Emission.sessionEnd time reason (hw.settled hidle hw.trace)
      rwa [hw.coordinator] at h
  have hflush := @flushDurable_spec start (OwnAccepted (.shutdown reason)) { c with seq := c.seq + 1 } env
    (.shutdown reason) rfl hidle
    (fun _ _ _ _ h _ => h.snoc rfl) (steady_ownAccepted _)
  refine Triple.bind (hown.pre fun s (hs : s = u) => hs ▸ hu) fun _ => ?_
  refine hflush.post fun _ w hw => ⟨hw.steps, fun _ => hw.trace.2, ?_⟩
  exact fun h => nomatch h

theorem flush_spec :
    Triple (JustBegun start .flush) (flush env)
      (fun _ w => Steps start w ∧ Served .flush w) (Steps start) := by
  refine (drainBegun_spec _).bind fun _ => settle_spec fun c hidle => ?_
  have hflush := @flushDurable_spec start (fun _ => True) c env .flush rfl hidle
    (fun _ _ value hfree _ hbody => hfree.1.2.accepted ⟨value, hbody⟩) fun _ _ _ h => h
  refine (hflush.pre fun w hw => ⟨hw.steps, ⟨hw.trace, trivial⟩, hw.coordinator⟩).bind fun _ => ?_
  refine (currentStatus_spec ((steady_free _ _).and (steady_ownAccepted _))).post fun _ w hw => ?_
  exact ⟨hw.steps, fun _ => hw.trace.2, fun h => nomatch h⟩

theorem resume_spec :
    Triple (JustBegun start .resume) (resume env)
      (fun _ w => Steps start w ∧ Served .resume w) (Steps start) := by
  refine (drainBegun_spec _).bind fun _ => ?_
  refine Triple.bind (Q := fun _ w => Steps start w ∧ Serving .resume w.trace ∧
      (w.coordinator.pendingSnapshot = false → Loose (Excused .resume) w))
    (Triple.modify fun w hw => ⟨hw.1.tail (.paused w false), hw.2.1, hw.2.2⟩) fun _ => ?_
  refine settle_spec fun c hidle => ?_
  refine (currentStatus_spec (steady_free _ _)).post fun _ w hw => ⟨hw.steps, ?_, fun _ => ?_⟩
  · exact fun h => nomatch h
  · exact hw.settled hidle hw.trace

theorem statusReply_spec {command : Command} (publishes : command.publishes = false)
    (other : command ≠ .resume) :
    Triple (Steps start) (Reply.status <$> currentStatus env)
      (fun _ w => Steps start w ∧ Served command w) (Steps start) := by
  refine Triple.map (Triple.of_start fun u hu => ?_)
  refine (currentStatus_spec (K := fun _ => True) (c := u.coordinator)
    fun _ _ _ h => h).conseq (fun s hs => ?_) (fun _ w hw => ?_) fun _ h => h
  · rw [hs]
    exact ⟨hu, trivial, rfl⟩
  · refine ⟨hw.steps, fun h => ?_, fun h => absurd h other⟩
    rw [publishes] at h
    exact absurd h (by decide)

theorem perform_spec (command : Command) :
    Triple (JustBegun start command) (perform env command)
      (fun _ w => Steps start w ∧ Served command w) (Steps start) := by
  cases command with
  | status => exact (statusReply_spec rfl (by simp)).pre fun _ h => h.steps
  | snap =>
    refine Triple.map ?_
    refine (snapshot_spec (K := Opened) steady_opened fun _ h => h).conseq
      (fun _ h => ⟨h.steps, h.opened⟩) (fun _ w hw => ⟨hw.1, ?_, ?_⟩) fun _ h => h
    · exact fun h => nomatch h
    · exact fun h => nomatch h
  | mark label «meta» => exact Triple.map (mark_spec label «meta»)
  | flush => exact Triple.map flush_spec
  | pause =>
    refine Triple.bind (Q := fun _ => Steps start) (Triple.modify fun w hw => ?_) fun _ =>
      statusReply_spec rfl (by simp)
    exact hw.steps.tail (.paused w true)
  | resume => exact Triple.map resume_spec
  | shutdown reason => exact Triple.map (finish_spec reason)

theorem Step.trace_prefix {w w' : World} (h : Step w w') : w.trace <+: w'.trace := by
  cases h with
  | tick => exact List.prefix_rfl
  | paused => exact List.prefix_rfl
  | _ => exact List.prefix_append _ _

theorem Steps.trace_prefix {w w' : World} (h : Steps w w') : w.trace <+: w'.trace := by
  induction h with
  | refl => exact List.prefix_rfl
  | tail _ step ih => exact ih.trans step.trace_prefix

theorem Steps.opened {w w' : World} (h : Steps w w') (opened : Opened w.trace) :
    Opened w'.trace := by
  obtain ⟨event, value, hmem, hbody⟩ := opened
  exact ⟨event, value, h.trace_prefix.subset hmem, hbody⟩

def Started (start w : World) : Prop := Steps start w ∧ Opened w.trace

theorem serve_spec (command : Command) :
    Triple (Started start) (serve env command) (fun _ => Started start) (Started start) := by
  refine Triple.of_start fun u hu => ?_
  -- seen from the state in which the command is taken up, so that it stays opened
  have hbegin : Triple (ε := Failure) (fun s => s = u) (beginCommand command)
      (fun _ => JustBegun u command) (Started start) :=
    Triple.modify fun s hs => ⟨u, .refl, hu.2, by rw [hs]⟩
  have hstarted : ∀ w, Steps u w → Started start w :=
    fun w hw => ⟨hu.1.trans hw, hw.opened hu.2⟩
  refine hbegin.bind fun _ => Triple.bind
    ((perform_spec command).attempt.conseq (fun _ h => h) (fun _ _ h => h) hstarted) fun result => ?_
  rcases result with failure | reply
  · refine Triple.modify fun w hw => hstarted _ (Relation.ReflTransGen.tail hw ?_)
    exact .replied w command _ (fun h => nomatch h) (fun h => nomatch h)
  · refine Triple.modify fun w hw => hstarted _ (hw.1.tail ?_)
    exact .replied w command reply (fun _ => hw.2.own) (fun _ => hw.2.settled)

theorem interleave_started :
    Triple (Started start) (interleave env) (fun _ => Started start) (Started start) := by
  refine Triple.of_start fun u hu => ?_
  refine (@interleave_spec u (fun _ => True) u.coordinator env
    fun _ _ _ h => h).conseq (fun s hs => ?_) (fun _ w hw => ?_) fun w hw => ?_
  · rw [hs]
    exact ⟨.refl, trivial, rfl⟩
  · exact ⟨hu.1.trans hw.steps, hw.steps.opened hu.2⟩
  · exact ⟨hu.1.trans hw, hw.opened hu.2⟩

theorem run_spec (commands : List Command) :
    Triple (Started start) (run env commands) (fun _ => Started start) (Started start) := by
  induction commands with
  | nil =>
    refine interleave_started.bind fun _ => Triple.of_start fun u hu => ?_
    refine Triple.bind (Q := fun _ => JustBegun u (.shutdown "control_channel_closed"))
      (Triple.modify fun s hs => ⟨u, .refl, hu.2, by rw [hs]⟩) fun _ => ?_
    refine (finish_spec _).conseq (fun _ h => h) (fun _ w hw => ?_) fun w hw => ?_
    · exact ⟨hu.1.trans hw.1, hw.1.opened hu.2⟩
    · exact ⟨hu.1.trans hw, hw.opened hu.2⟩
  | cons command commands ih =>
    cases command with
    | shutdown reason => exact interleave_started.bind fun _ => serve_spec _
    | _ => exact interleave_started.bind fun _ => (serve_spec _).bind fun _ => ih

def Unopened (trace : List Label) : Prop := ∀ event, .accepted event ∉ trace

theorem Unopened.closed {trace : List Label} (h : Unopened trace) : ¬ Opened trace :=
  fun ⟨event, _, hmem, _⟩ => h event hmem

theorem Unopened.snoc {trace : List Label} {next : Label} (h : Unopened trace)
    (hn : ∀ event, next ≠ .accepted event) : Unopened (trace ++ [next]) := by
  intro event hmem
  rcases List.mem_append.mp hmem with hmem | hmem
  · exact h event hmem
  · exact hn event (List.mem_singleton.mp hmem).symm

theorem patient_unopened : Patient Unopened := by
  intro trace label hl h
  exact h.snoc fun event heq => by simp [heq, Label.isCall, Label.isArrival] at hl

theorem initializeCoordinator_spec (config : Config) (recorder : JjRecorder) :
    Triple (fun w => w = World.start config recorder) (initializeCoordinator env)
      (fun _ => Started (World.start config recorder))
      (Steps (World.start config recorder)) := by
  set c : Coordinator := { config := config, recorder := recorder }
  have hquiet : Quiet c := ⟨rfl, rfl, rfl⟩
  refine ((@capture_spec (World.start config recorder) Unopened c env patient_unopened true
    hquiet fun t ht hopened => absurd hopened ht.closed).pre ?_).bind fun baseline => ?_
  · rintro s rfl
    exact ⟨.refl, fun event hmem => by simp [World.start] at hmem, rfl⟩
  refine Triple.get fun u hu => ?_
  obtain ⟨v, checkpoint, hv, hawait, rfl, rfl⟩ := hu
  have hat : At (World.start config recorder) Unopened
      { c with recorder := .captured checkpoint } (v.capture checkpoint) := by
    refine ⟨hv.steps.tail (.baseline v true checkpoint hawait ?_ hv.trace.closed),
      hv.trace.snoc (by simp), ?_⟩
    · rw [hv.coordinator]
      exact hquiet
    · rw [World.capture, hv.coordinator]
  refine (emit_spec patient_unopened _).conseq (fun s hs => hs ▸ hat) (fun _ w hw => ?_) fun _ h => h
  obtain ⟨time, v', hv', hawait', hseq, rfl⟩ := hw
  have hemission : ∀ value : SessionStart,
      value.baselineOp = (JjRecorder.captured checkpoint).opId →
      Emission v' (.new c.config.sessionId c.seq time (.sessionStart value)) id := by
    intro value hvalue
    have hrecorder : v'.coordinator.recorder = .captured checkpoint := by rw [hv'.coordinator]
    have h := Emission.sessionStart (w := v') time value hv'.trace.closed
      (by rw [hvalue, hrecorder]) (by rw [hv'.coordinator]; exact ⟨rfl, rfl, rfl⟩)
    rwa [hv'.coordinator] at h
  have hstep := Step.accepted v' _ id hawait' (by rw [hv'.coordinator, hseq]) (hemission _ rfl)
  refine ⟨hv'.steps.tail hstep, ?_⟩
  exact ⟨_, _, List.mem_append_right _ (List.mem_singleton_self _), rfl⟩

theorem session_spec (config : Config) (recorder : JjRecorder) (commands : List Command) :
    Triple (fun w => w = World.start config recorder) (session env commands)
      (fun _ => Steps (World.start config recorder)) (Steps (World.start config recorder)) := by
  refine (initializeCoordinator_spec config recorder).bind fun _ => ?_
  exact (run_spec commands).conseq (fun _ h => h) (fun _ _ h => h.1) fun _ h => h.1

theorem reached_steps (env : Environment) (config : Config) (recorder : JjRecorder)
    (commands : List Command) :
    Steps (World.start config recorder) (reached env config recorder commands) :=
  (session_spec config recorder commands _ rfl).final

end Rrjj
