import Rrjj.Core.Writes
import Rrjj.Core.Chain
import Rrjj.Core.Recovery

/-! The answers to `snap`: the snapshot is captured after the command was taken up, unless an
event is retained from before, which is delivered instead. -/

namespace Rrjj
open Library Library.Proc

/-- Whatever a `snap` answers, `P` holds of it: `P` sees the coordinator that takes the command
up, the labels before that, the labels since, and the snapshot. -/
def SnapsAnswer (P : Coordinator → List Label → List Label → Snapshot → Prop)
    (trace : List Label) : Prop :=
  AtEvery (fun before label => ∀ snapshot, label = .replied .snap (.snapshot snapshot) →
    ∃ earlier coordinator audit since, before = earlier ++ .began .snap coordinator audit :: since ∧
      (∀ l ∈ since, l.isBegan = false) ∧ P coordinator earlier since snapshot) trace

def CapturedSince (_ : Coordinator) (_earlier since : List Label) (snapshot : Snapshot) : Prop :=
  .captured snapshot ∈ since

/-- The snapshot was captured since, or it is that of the retained event, captured earlier, and
the command has delivered that event and captured nothing. -/
def CapturedOrRetained (coordinator : Coordinator) (earlier since : List Label)
    (snapshot : Snapshot) : Prop :=
  (coordinator.pendingSnapshotEvent = none ∧ .captured snapshot ∈ since) ∨
    ∃ event, coordinator.pendingSnapshotEvent = some event ∧ event.body = .snapshot snapshot ∧
      .captured snapshot ∈ earlier ∧ .accepted event ∈ since ∧ ∀ l ∈ since, l.isCaptured = false

structure RetainsCaptured (w : World) : Prop where
  retained : ∀ event, w.coordinator.pendingSnapshotEvent = some event →
    ∃ snapshot, event.body = .snapshot snapshot ∧ .captured snapshot ∈ w.trace
  begun : AtEvery (fun before label => ∀ command coordinator audit, label = .began command coordinator audit →
    ∀ event, coordinator.pendingSnapshotEvent = some event →
      ∃ snapshot, event.body = .snapshot snapshot ∧ .captured snapshot ∈ before) w.trace

theorem RetainsCaptured.log {w w' : World} {label : Label} (h : RetainsCaptured w)
    (trace : w'.trace = w.trace ++ [label]) (began : label.isBegan = false)
    (retained : ∀ event, w'.coordinator.pendingSnapshotEvent = some event →
      w.coordinator.pendingSnapshotEvent = some event) : RetainsCaptured w' := by
  refine ⟨fun event hevent => ?_, ?_⟩
  · obtain ⟨snapshot, hbody, hcaptured⟩ := h.retained event (retained event hevent)
    refine ⟨snapshot, hbody, ?_⟩
    rw [trace]
    exact List.mem_append_left _ hcaptured
  · rw [trace]
    apply h.begun.snoc
    intro command coordinator audit hlabel
    rw [hlabel] at began
    exact absurd began (by simp [Label.isBegan])

theorem Step.retainsCaptured {w w' : World} (step : Step w w') (h : RetainsCaptured w) :
    RetainsCaptured w' := by
  cases step with
  | arrival call => exact h.log rfl (by cases call <;> rfl) fun _ h => h
  | tick => exact ⟨h.retained, h.begun⟩
  | paused => exact ⟨h.retained, h.begun⟩
  | began command opened =>
    refine ⟨fun event hevent => ?_, h.begun.snoc ?_⟩
    · obtain ⟨snapshot, hbody, hcaptured⟩ := h.retained event hevent
      exact ⟨snapshot, hbody, List.mem_append_left _ hcaptured⟩
    · intro command' coordinator audit hlabel event hevent
      rw [← (Label.began.inj hlabel).2.1] at hevent
      exact h.retained event hevent
  | drained =>
    refine @RetainsCaptured.log w w.drainAudit .drained h rfl rfl fun event hevent => ?_
    rw [World.drainAudit, Coordinator.absorb_pendingSnapshotEvent] at hevent
    exact hevent
  | captured fullScan checkpoint time =>
    refine ⟨fun event hevent => ?_, h.begun.snoc (by simp)⟩
    rw [← Option.some.inj hevent]
    exact ⟨_, rfl, List.mem_append_right _ (List.mem_singleton_self _)⟩
  | accepted event f _ _ emission => exact h.log rfl rfl fun _ hkept => emission.retains hkept
  | _ => exact h.log rfl rfl fun _ h => h

theorem Steps.retainsCaptured {w w' : World} (steps : Steps w w') (h : RetainsCaptured w) :
    RetainsCaptured w' := by
  induction steps with
  | refl => exact h
  | tail _ step ih => exact step.retainsCaptured ih

theorem retainsCaptured_start (config : Config) (recorder : JjRecorder) :
    RetainsCaptured (.start config recorder) where
  retained event h := absurd h (by simp [World.start])
  begun := atEvery_nil

def Grown (allowed : Allowed) (u : World) (trace : List Label) : Prop :=
  ∃ since, trace = u.trace ++ since ∧ ∀ l ∈ since, l.within allowed = true

def GrownWith (allowed : Allowed) (u : World) (label : Label) (trace : List Label) : Prop :=
  ∃ since, trace = u.trace ++ since ∧ (∀ l ∈ since, l.within allowed = true) ∧ label ∈ since

variable {allowed : Allowed} {u : World} {env : Environment}

theorem within_snoc {since : List Label} {label : Label}
    (h : ∀ l ∈ since, l.within allowed = true) (within : label.within allowed = true) :
    ∀ l ∈ since ++ [label], l.within allowed = true := by
  intro l hl
  rcases List.mem_append.mp hl with hl | hl
  · exact h l hl
  · rw [List.mem_singleton.mp hl]
    exact within

theorem tolerates_grown : Tolerates allowed (Grown allowed u) := by
  intro trace label within h
  obtain ⟨since, rfl, hsince⟩ := h
  exact ⟨since ++ [label], List.append_assoc _ _ _, within_snoc hsince within⟩

theorem tolerates_grownWith {label : Label} : Tolerates allowed (GrownWith allowed u label) := by
  intro trace next within h
  obtain ⟨since, rfl, hsince, hmem⟩ := h
  exact ⟨since ++ [next], List.append_assoc _ _ _, within_snoc hsince within,
    List.mem_append_left _ hmem⟩

theorem Grown.add {label : Label} {trace : List Label} (h : Grown allowed u trace)
    (within : label.within allowed = true) : GrownWith allowed u label (trace ++ [label]) := by
  obtain ⟨since, rfl, hsince⟩ := h
  exact ⟨since ++ [label], List.append_assoc _ _ _, within_snoc hsince within,
    List.mem_append_right _ (List.mem_singleton_self _)⟩

def snapshotting : Allowed := ⟨EventBody.ofSnapshot, true, false⟩

def delivering (body : EventBody) : Allowed := ⟨fun other => other = body, false, false⟩

theorem capture_caught (fullScan : Bool) :
    Triple (Shows (Grown snapshotting u)) (capture env fullScan)
      (fun snapshot => Shows (GrownWith snapshotting u (.captured snapshot))) fun _ => True := by
  have hgrown := @tolerates_grown snapshotting u
  have hstart : Keeps (Shows (Grown snapshotting u)) (log (.capturing fullScan)) :=
    log_writes hgrown _ rfl
  refine hstart.returns.bind fun _ => (await_writes hgrown).returns.bind fun turn => ?_
  rcases turn.checkpoint with message | checkpoint
  · exact Triple.after fun _ => Triple.throw fun _ h => h
  · refine Triple.get fun v hv => ?_
    refine Triple.bind (Q := fun _ => Shows (Grown snapshotting u)) ?_ fun _ => ?_
    · apply Triple.modify
      rintro s rfl
      exact hv
    refine Triple.bind (Q := fun _ => Shows (GrownWith snapshotting u (.captured _))) ?_ fun _ =>
      Triple.pure fun _ h => h
    apply Triple.modify
    intro s hs
    exact Grown.add hs rfl

theorem captureSnapshot_caught :
    Triple (Shows (Grown snapshotting u)) (captureSnapshot env)
      (fun snapshot => Shows (GrownWith snapshotting u (.captured snapshot))) fun _ => True := by
  refine Triple.get fun v hv => ?_
  refine Triple.bind ((capture_caught _).pre fun s hs => hs ▸ hv) fun snapshot => ?_
  have hcaught : Tolerates snapshotting (GrownWith snapshotting u (.captured snapshot)) :=
    tolerates_grownWith
  refine now_writes.returns.bind fun time => (update_writes _).returns.bind fun _ => ?_
  refine (emitExact_writes hcaught rfl).returns.bind fun _ => ?_
  exact (update_writes _).returns.bind fun _ => Triple.pure fun _ h => h

theorem deliverRetained_delivers (event : Event) :
    Triple (fun w => w = u) (deliverRetained env event)
      (fun snapshot w => event.body = .snapshot snapshot ∧
        GrownWith (delivering event.body) u (.accepted event) w.trace) fun _ => True := by
  have hgrown := @tolerates_grown (delivering event.body) u
  have hbody : (delivering event.body).bodies event.body = true := decide_eq_true rfl
  have hsent : Triple (fun w => w = u) (emitExact env event)
      (fun _ => Shows (GrownWith (delivering event.body) u (.accepted event))) fun _ => True := by
    refine Triple.get fun v hv => ?_
    have hstart : Grown (delivering event.body) u v.trace :=
      ⟨[], by rw [hv, List.append_nil], fun l hl => absurd hl (by simp)⟩
    split_ifs
    · refine ((log_writes hgrown (.emitting event) hbody).returns.pre ?_).bind fun _ => ?_
      · rintro s rfl
        exact hstart
      refine (await_writes hgrown).returns.bind fun turn => ?_
      rcases turn.sink with error | _
      · exact Triple.after fun _ => Triple.throw fun _ h => h
      · refine Triple.bind (Q := fun _ => Shows (GrownWith (delivering event.body) u (.accepted event)))
          ?_ fun _ => (update_writes _).returns
        apply Triple.modify
        intro s hs
        exact Grown.add hs hbody
    · exact Triple.after fun _ => Triple.throw fun _ h => h
  unfold deliverRetained
  split
  · next snapshot hsnapshot =>
    refine hsent.bind fun _ => (update_writes _).returns.bind fun _ => ?_
    exact Triple.pure fun _ h => ⟨hsnapshot, h⟩
  · exact Triple.throw fun _ _ => trivial

def Answers (coordinator : Coordinator) (since : List Label) (snapshot : Snapshot) : Prop :=
  (coordinator.pendingSnapshotEvent = none ∧ .captured snapshot ∈ since) ∨
    ∃ event, coordinator.pendingSnapshotEvent = some event ∧ event.body = .snapshot snapshot ∧
      .accepted event ∈ since ∧ ∀ l ∈ since, l.isCaptured = false

theorem within_delivering {body : EventBody} {label : Label}
    (h : label.within (delivering body) = true) :
    label.isBegan = false ∧ label.isCaptured = false := by
  cases label with
  | began => exact absurd h (by simp [Label.within])
  | captured => exact absurd h (by simp [Label.within, delivering])
  | _ => exact ⟨rfl, rfl⟩

theorem within_not_began {label : Label} (h : label.within allowed = true) :
    label.isBegan = false := by
  cases label with
  | began => exact absurd h (by simp [Label.within])
  | _ => rfl

theorem snapshot_answers :
    Triple (fun w => w = u) (snapshot env)
      (fun snapshot w => ∃ since, w.trace = u.trace ++ since ∧ (∀ l ∈ since, l.isBegan = false) ∧
        Answers u.coordinator since snapshot) fun _ => True := by
  refine Triple.get fun v hv => ?_
  rcases hretained : v.coordinator.pendingSnapshotEvent with _ | event
  · have hgrown := @tolerates_grown snapshotting u
    have hbodies : ∀ body : EventBody, body.ofSnapshot = true → snapshotting.bodies body = true :=
      fun _ h => h
    refine ((interleave_writes hgrown).returns.pre ?_).bind fun _ => ?_
    · rintro s rfl
      exact ⟨[], by rw [hv, List.append_nil], fun l hl => absurd hl (by simp)⟩
    refine (drainAudit_writes hgrown).returns.bind fun _ => ?_
    refine (emitOverflows_writes hgrown hbodies).returns.bind fun _ => ?_
    refine (emitAudit_writes hgrown hbodies).returns.bind fun _ => ?_
    refine captureSnapshot_caught.post fun snapshot w hw => ?_
    obtain ⟨since, htrace, hsince, hmem⟩ := hw
    refine ⟨since, htrace, fun l hl => within_not_began (hsince l hl), Or.inl ⟨?_, hmem⟩⟩
    rw [← hv]
    exact hretained
  · refine ((deliverRetained_delivers event).pre fun s hs => hs.trans hv).post fun snapshot w hw => ?_
    obtain ⟨hbody, since, htrace, hsince, hmem⟩ := hw
    refine ⟨since, htrace, fun l hl => (within_delivering (hsince l hl)).1, Or.inr ⟨event, ?_, hbody,
      hmem, fun l hl => (within_delivering (hsince l hl)).2⟩⟩
    rw [← hv]
    exact hretained

abbrev SnapsAnswered (trace : List Label) : Prop :=
  SnapsAnswer (fun coordinator _ since snapshot => Answers coordinator since snapshot) trace

theorem tolerates_snapsAnswered : Tolerates anything SnapsAnswered := by
  intro trace label within h
  apply h.snoc
  rintro snapshot rfl
  exact absurd within (by simp [Label.within])

theorem serve_snapsAnswered (command : Command) : Keeps (Shows SnapsAnswered) (serve env command) := by
  have hother : ∀ reply : Reply, (∀ snapshot, (command, reply) ≠ (.snap, .snapshot snapshot)) →
      Keeps (ε := Failure) (Shows SnapsAnswered) (log (.replied command reply)) := by
    intro reply hreply
    apply Keeps.modify
    intro w hw
    refine AtEvery.snoc hw fun snapshot hlabel => ?_
    obtain ⟨rfl, rfl⟩ := Label.replied.inj hlabel
    exact absurd rfl (hreply snapshot)
  refine Triple.of_start fun u hu => ?_
  set w₁ : World := u.log (.began command u.coordinator u.audit) with hw₁
  have hbegan : SnapsAnswered w₁.trace := AtEvery.snoc hu fun _ hlabel => nomatch hlabel
  have hbegin : Triple (ε := Failure) (fun s => s = u) (beginCommand command) (fun _ w => w = w₁)
      (Shows SnapsAnswered) := by
    apply Triple.modify
    rintro s rfl
    rfl
  have hkeeps : Triple (fun w => w = w₁) (perform env command) (fun _ => Shows SnapsAnswered)
      (Shows SnapsAnswered) :=
    (performs_anything tolerates_snapsAnswered command).pre fun w hw => hw ▸ hbegan
  -- only a snap is answered with a snapshot
  by_cases hsnap : command = .snap
  · subst hsnap
    have hanswers : Triple (fun w => w = w₁) (perform env .snap) (fun reply w => ∃ snapshot since,
        reply = .snapshot snapshot ∧ w.trace = w₁.trace ++ since ∧
          (∀ l ∈ since, l.isBegan = false) ∧ Answers w₁.coordinator since snapshot)
        fun _ => True := by
      refine Triple.map (snapshot_answers.post fun snapshot w hw => ?_)
      obtain ⟨since, hsince⟩ := hw
      exact ⟨snapshot, since, rfl, hsince⟩
    refine hbegin.bind fun _ => ?_
    refine ((hkeeps.and hanswers).conseq (fun _ h => h) (fun _ _ h => h) fun _ h => h.1).attempt.bind
      fun result => ?_
    rcases result with failure | reply
    · exact (hother _ fun _ h => by simp at h).pre fun _ h => h
    · apply Triple.modify
      rintro w ⟨hw, snapshot, since, rfl, htrace, hbegans, hanswer⟩
      refine AtEvery.snoc hw fun other hlabel => ?_
      rw [← Reply.snapshot.inj (Label.replied.inj hlabel).2]
      refine ⟨u.trace, u.coordinator, u.audit, since, ?_, hbegans, hanswer⟩
      rw [htrace, hw₁]
      simp [World.log]
  · refine hbegin.bind fun _ => hkeeps.attempt.bind fun result => ?_
    rcases result with failure | reply
    · exact (hother _ fun _ h => hsnap (congrArg Prod.fst h)).pre fun _ h => h
    · exact (hother _ fun _ h => hsnap (congrArg Prod.fst h)).pre fun _ h => h

theorem session_snapsAnswered (config : Config) (recorder : JjRecorder) (commands : List Command) :
    SnapsAnswered (reached env config recorder commands).trace :=
  (session_keeps tolerates_snapsAnswered
    (fun _ _ _ _ h => h.snoc fun _ hlabel => nomatch hlabel) serve_snapsAnswered commands).final
    atEvery_nil

/-- A snap that answers with a snapshot has captured it since it was taken up, unless a snapshot
event was retained then: in that case it delivers that event and answers with its snapshot,
which an earlier command captured. -/
theorem snap_captures_or_delivers (env : Environment) (config : Config) (recorder : JjRecorder)
    (commands : List Command) :
    SnapsAnswer CapturedOrRetained (reached env config recorder commands).trace := by
  have hanswered := @session_snapsAnswered env config recorder commands
  have hretained := (reached_steps env config recorder commands).retainsCaptured
    (retainsCaptured_start config recorder)
  intro before label after htrace snapshot hlabel
  obtain ⟨earlier, coordinator, audit, since, hbefore, hbegans, hanswer⟩ :=
    hanswered before label after htrace snapshot hlabel
  refine ⟨earlier, coordinator, audit, since, hbefore, hbegans, ?_⟩
  rcases hanswer with hfresh | ⟨event, hevent, hbody, haccepted, hnone⟩
  · exact Or.inl hfresh
  · refine Or.inr ⟨event, hevent, hbody, ?_, haccepted, hnone⟩
    rw [hbefore, List.append_assoc, List.cons_append] at htrace
    obtain ⟨captured, hcaptured, hmem⟩ :=
      hretained.begun earlier _ (since ++ label :: after) htrace .snap coordinator audit rfl event hevent
    rw [← EventBody.snapshot.inj (hbody.symm.trans hcaptured)] at hmem
    exact hmem

def sinceBegan (trace : List Label) : List Label :=
  (trace.reverse.takeWhile fun label => !label.isBegan).reverse

theorem sinceBegan_eq {earlier since : List Label} {command : Command} {coordinator : Coordinator}
    {audit : AuditState} (h : ∀ l ∈ since, l.isBegan = false) :
    sinceBegan (earlier ++ .began command coordinator audit :: since) = since := by
  have hsince : ∀ l ∈ since.reverse, (!l.isBegan) = true := by
    intro l hl
    rw [h l (List.mem_reverse.mp hl)]
    rfl
  rw [sinceBegan, List.reverse_append, List.reverse_cons, List.append_assoc,
    List.takeWhile_append_of_pos hsince]
  simp [Label.isBegan]

def Label.snapAnswer : Label → Option Snapshot
  | .replied .snap (.snapshot snapshot) => some snapshot
  | _ => none

/-- The second of two snaps, when the sink refused the event of the first: it answers with what
the first captured. -/
theorem retained_snapshot_is_answered :
    ¬ ∀ env config recorder commands,
      SnapsAnswer CapturedSince (reached env config recorder commands).trace := by
  intro h
  have hfresh := h ⟨refusingTurn, 8⟩ exampleConfig exampleRecorder [.snap, .snap]
  have hlast : ((reached ⟨refusingTurn, 8⟩ exampleConfig exampleRecorder
      [.snap, .snap]).trace.getLast?.bind Label.snapAnswer).isSome = true := by decide +kernel
  have hnone : (sinceBegan (reached ⟨refusingTurn, 8⟩ exampleConfig exampleRecorder
      [.snap, .snap]).trace.dropLast).all (fun l => !l.isCaptured) = true := by decide +kernel
  generalize (reached ⟨refusingTurn, 8⟩ exampleConfig exampleRecorder [.snap, .snap]).trace = trace
    at hfresh hlast hnone
  obtain ⟨snapshot, hfound⟩ := Option.isSome_iff_exists.mp hlast
  obtain ⟨label, hlabel, hanswer⟩ := Option.bind_eq_some_iff.mp hfound
  obtain ⟨before, rfl⟩ := List.getLast?_eq_some_iff.mp hlabel
  have hreply : label = .replied .snap (.snapshot snapshot) := by
    unfold Label.snapAnswer at hanswer
    split at hanswer
    · rw [Option.some.inj hanswer]
    · exact absurd hanswer (by simp)
  obtain ⟨earlier, coordinator, audit, since, rfl, hbegans, hmem⟩ :=
    hfresh before label [] rfl snapshot hreply
  rw [List.dropLast_concat, sinceBegan_eq hbegans, List.all_eq_true] at hnone
  exact absurd (hnone _ hmem) (by simp [Label.isCaptured])

end Rrjj
