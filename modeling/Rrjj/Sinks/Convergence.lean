import Rrjj.Sinks.SessionRefs

/-! Publication of a single recorder's checkpoints after pushes whose outcome was lost: a call
over a working network succeeds exactly when the sink knows the tip that it finds. -/

namespace Rrjj
open Library Library.Proc

def CommitGraph.Follows (graph : CommitGraph) (newer older : String) : Prop :=
  newer = older ∨ graph.descends newer older = true

theorem CommitGraph.Follows.trans {graph : CommitGraph} {a b c : String}
    (hab : graph.Follows a b) (hbc : graph.Follows b c) : graph.Follows a c := by
  rcases hab with rfl | hab
  · exact hbc
  rcases hbc with rfl | hbc
  · exact Or.inr hab
  · exact Or.inr (graph.trans hab hbc)

namespace GitCheckpointSink
variable {sink : GitCheckpointSink} {s s' start : GitState} {answers : GitAnswers}
  {request : CheckpointRequest} {commit : String} {last : Option String}

/-- The states that a sink reaches, and the commit that was to be published last: by calls
whose commits descend from one another and whose steps answer in any way, and by new sinks
on the cursor file. Nobody else moves the ref. -/
inductive Reached (sink : GitCheckpointSink) (start : GitState) : Option String → GitState → Prop
  | created : Reached sink start start.remote start
  | refused {last : Option String} {s : GitState} {request : CheckpointRequest} {failure : SinkError}
      (answers : GitAnswers) (run : Reached sink start last s)
      (scattered : normalizeCommitOid request.commit = .error failure) :
      Reached sink start last ((sink.publishCheckpoint answers request).run s).2
  | published {last : Option String} {s : GitState} {request : CheckpointRequest} {commit : String}
      (answers : GitAnswers) (run : Reached sink start last s)
      (normal : normalizeCommitOid request.commit = .ok commit)
      (follows : ∀ prior ∈ last, sink.graph.Follows commit prior)
      (alone : answers.others = none) :
      Reached sink start (some commit) ((sink.publishCheckpoint answers request).run s).2
  | restarted {last : Option String} {s : GitState} {pushed : Option String}
      (run : Reached sink start last s) (created : sink.config.create s.cursor = .ok pushed) :
      Reached sink start last { s with lastPushed := pushed }

structure Working (answers : GitAnswers) : Prop where
  opened : answers.opened = .ok ()
  parsed : answers.parsed = .ok ()
  found : answers.found = .ok ()
  referenced : answers.referenced = .ok ()
  lookup : answers.lookup = .path true ∨ answers.lookup = .fetched true
  alone : answers.others = none
  connected : answers.connected = .ok ()
  pushed : answers.push.report = .updated
  cursor : answers.cursor = .done

/-- The tip of the remote, if there is one, is the commit itself or what the sink pushed
last, so that no push is unknown to the sink. -/
def Aware (s : GitState) (commit : String) : Prop :=
  ∀ tip ∈ s.remote, tip = commit ∨ s.lastPushed = some tip

structure Ahead (sink : GitCheckpointSink) (last : Option String) (s : GitState) : Prop where
  follows : ∀ tip ∈ s.remote, ∃ commit ∈ last, sink.graph.Follows commit tip
  cached : s.remote = none → s.cache = none

theorem Ahead.advance (h : Ahead sink last s)
    (follows : ∀ prior ∈ last, sink.graph.Follows commit prior) : Ahead sink (some commit) s := by
  refine ⟨?_, h.cached⟩
  intro tip htip
  obtain ⟨prior, hprior, hfollows⟩ := h.follows tip htip
  exact ⟨commit, rfl, (follows prior hprior).trans hfollows⟩

theorem orFail_keeps {I : GitState → Prop} (answer : Except String Unit)
    (failure : String → SinkError) : Keeps I (orFail answer failure) := by
  rcases answer with message | ⟨⟩
  · exact Keeps.throw _
  · exact Keeps.pure _

theorem ofExcept_keeps {α : Type} {I : GitState → Prop} (result : Except SinkError α) :
    Keeps I (Proc.ofExcept result : GitTask α) := by
  rcases result with failure | value
  · exact Keeps.throw failure
  · exact Keeps.pure value

def Prepared (sink : GitCheckpointSink) (commit : String) (s : GitState) : Prop :=
  Ahead sink (some commit) s ∧ s.localRef = some commit

theorem prepare_ahead (shadowRoot : String) :
    Triple (Ahead sink (some commit)) (sink.prepare answers shadowRoot commit)
      (fun _ => Prepared sink commit) (Ahead sink (some commit)) := by
  unfold prepare
  generalize checkSessionRef sink.config.sessionRef = checked
  refine Triple.bind (ofExcept_keeps _) fun _ => ?_
  refine Triple.bind (orFail_keeps _ _) fun _ => ?_
  refine Triple.bind (orFail_keeps _ _) fun _ => ?_
  refine Triple.bind (orFail_keeps _ _) fun _ => ?_
  refine Triple.bind (orFail_keeps _ _) fun _ => ?_
  exact Triple.modify fun s hs => ⟨⟨hs.follows, hs.cached⟩, rfl⟩

theorem lookUpTip_keeps (lookup : TipLookup) : Keeps (Prepared sink commit) (lookUpTip lookup) := by
  rcases lookup with read | read | message | message
  · exact Keeps.get fun _ _ => Keeps.pure _
  · refine Keeps.bind (Keeps.modify ?_) fun _ => Keeps.get fun _ _ => Keeps.pure _
    rintro s ⟨hs, hlocal⟩
    refine ⟨⟨hs.follows, ?_⟩, hlocal⟩
    intro hnone
    have hcache : s.cache = none := hs.cached hnone
    have hremote : s.remote = none := hnone
    simp only [hremote, hcache, Option.or_none]
  · exact ofExcept_keeps _
  · exact Keeps.throw _

theorem land_keeps : Keeps (Prepared sink commit) land := by
  refine Keeps.modify ?_
  rintro s ⟨-, hlocal⟩
  refine ⟨⟨?_, ?_⟩, hlocal⟩
  · intro tip htip
    have hsame : some commit = some tip := hlocal.symm.trans htip
    exact ⟨commit, rfl, Or.inl (Option.some.inj hsame)⟩
  · intro hnone
    exact absurd (hlocal.symm.trans hnone) (by simp)

theorem push_keeps (alone : answers.others = none) :
    Keeps (Prepared sink commit) (sink.push answers commit) := by
  unfold push
  refine Keeps.bind (Keeps.modify ?_) fun _ => ?_
  · intro s hs
    rw [alone]
    exact hs
  refine Keeps.get fun u _ => ?_
  split
  · split
    · exact land_keeps
    · exact Keeps.throw _
    · refine Keeps.bind ?_ fun _ => Keeps.throw _
      split
      · exact land_keeps
      · exact Keeps.pure _
  · split <;> exact Keeps.throw _

theorem pushCheckpointFromShadow_keeps (alone : answers.others = none) (shadowRoot : String)
    (expectedPrior : Option String) :
    Keeps (Ahead sink (some commit))
      (sink.pushCheckpointFromShadow answers shadowRoot commit expectedPrior) := by
  unfold pushCheckpointFromShadow
  refine Triple.bind (prepare_ahead shadowRoot) fun _ => ?_
  refine Triple.conseq (?_ : Keeps (Prepared sink commit) _) (fun _ h => h) (fun _ _ h => h.1)
    fun _ h => h.1
  refine Keeps.bind (lookUpTip_keeps _) fun remoteTip => ?_
  generalize alreadyAt sink.config.sessionRef commit remoteTip expectedPrior = found
  refine Keeps.bind (ofExcept_keeps _) fun published => ?_
  cases published with
  | true => exact Keeps.pure _
  | false =>
    refine Keeps.bind (orFail_keeps _ _) fun _ => ?_
    refine Keeps.bind (push_keeps alone) fun _ => ?_
    exact Keeps.pure _

theorem publishCommit_keeps (alone : answers.others = none) (shadowRoot : String) :
    Keeps (Ahead sink (some commit)) (sink.publishCommit answers shadowRoot commit) := by
  refine Keeps.get fun u _ => ?_
  refine Keeps.bind (Keeps.attempt (pushCheckpointFromShadow_keeps alone _ _)) fun result => ?_
  rcases result with failure | publication
  · exact Keeps.throw _
  refine Keeps.bind (Keeps.modify fun s hs => ⟨hs.follows, hs.cached⟩) fun _ => ?_
  refine Keeps.bind (Keeps.bind (Keeps.modify fun s hs => ⟨hs.follows, hs.cached⟩) fun _ => ?_)
    fun _ => Keeps.pure _
  rcases answers.cursor with _ | ⟨stored, message⟩ | stored
  · exact Keeps.pure _
  · exact Keeps.throw _
  · exact Keeps.cut

theorem publishCheckpoint_run (normal : normalizeCommitOid request.commit = .ok commit) :
    (sink.publishCheckpoint answers request).run s =
      (sink.publishCommit answers request.shadowRoot commit).run s := by
  rw [publishCheckpoint, run_bind, normal]
  rfl

theorem publishCheckpoint_refused {failure : SinkError}
    (scattered : normalizeCommitOid request.commit = .error failure) :
    (sink.publishCheckpoint answers request).run s = (.error failure, s) := by
  rw [publishCheckpoint, run_bind, scattered]
  rfl

theorem Reached.ahead (reached : Reached sink start last s) (fresh : start.remote = none →
    start.cache = none) : Ahead sink last s := by
  induction reached with
  | created => exact ⟨fun tip htip => ⟨tip, htip, Or.inl rfl⟩, fresh⟩
  | refused answers _ scattered ih =>
    rw [publishCheckpoint_refused scattered]
    exact ih
  | published answers _ normal follows alone ih =>
    rw [publishCheckpoint_run normal]
    exact (publishCommit_keeps alone _).final (ih.advance follows)
  | restarted _ _ ih => exact ⟨ih.follows, ih.cached⟩

theorem lookUpTip_working (h : Ahead sink last s) {lookup : TipLookup}
    (working : lookup = .path true ∨ lookup = .fetched true) :
    ∃ cache, (lookUpTip lookup).run s = (.ok s.remote, { s with cache := cache }) := by
  rcases working with rfl | rfl
  · exact ⟨s.cache, rfl⟩
  · have hcache : s.remote.or s.cache = s.remote := by
      rcases hremote : s.remote with _ | tip
      · rw [h.cached hremote, Option.or_none]
      · rw [Option.some_or]
    refine ⟨s.remote, ?_⟩
    simp only [lookUpTip, run_bind, run_modify, run_get, run_pure, hcache, if_true]

theorem prepare_working (working : Working answers) (shadowRoot : String)
    (valid : checkSessionRef sink.config.sessionRef = .ok ()) :
    (sink.prepare answers shadowRoot commit).run s = (.ok (), { s with localRef := some commit }) := by
  simp only [prepare, orFail, run_bind, valid, working.opened, working.parsed, working.found,
    working.referenced, run_ofExcept_ok, run_pure, run_modify]

theorem push_working (working : Working answers)
    (follows : sink.fastForwards commit s.remote = true) :
    (sink.push answers commit).run s = (.ok (), { s with remote := s.localRef }) := by
  have hothers : (answers.others.getD s.remote) = s.remote := by
    rw [working.alone]
    rfl
  simp only [push, run_bind, run_modify, run_get, hothers, follows, if_true, working.pushed, land]

theorem Ahead.fastForwards (h : Ahead sink (some commit) s) :
    sink.fastForwards commit s.remote = true := by
  rw [GitCheckpointSink.fastForwards]
  rcases hremote : s.remote with _ | tip
  · rfl
  · obtain ⟨newest, hnewest, hfollows⟩ := h.follows tip hremote
    rw [← Option.some.inj hnewest] at hfollows
    rw [Option.all_some, Bool.or_eq_true, decide_eq_true_eq]
    rcases hfollows with hsame | hdescends
    · exact Or.inl hsame.symm
    · exact Or.inr hdescends

theorem alreadyAt_returns_iff {sessionRef : String} {tip prior : Option String} :
    (∃ published, alreadyAt sessionRef commit tip prior = .ok published) ↔
      ∀ found ∈ tip, found = commit ∨ prior = some found := by
  rcases tip with _ | found
  · exact ⟨fun _ found hfound => absurd hfound (by simp), fun _ => ⟨false, rfl⟩⟩
  simp only [alreadyAt]
  by_cases hcommit : found = commit
  · rw [if_pos hcommit]
    refine ⟨fun _ other hother => ?_, fun _ => ⟨true, rfl⟩⟩
    exact Or.inl ((Option.some.inj hother).symm.trans hcommit)
  rw [if_neg hcommit]
  rcases prior with _ | expected
  · refine ⟨fun ⟨published, hpublished⟩ => absurd hpublished (by simp), fun h => ?_⟩
    rcases h found rfl with hsame | hprior
    · exact absurd hsame hcommit
    · exact absurd hprior (by simp)
  · refine ⟨fun ⟨published, hpublished⟩ other hother => ?_, fun h => ⟨false, if_pos ?_⟩⟩
    · have hexpected : found = expected := (ite_ok_iff.mp hpublished).1
      rw [← Option.some.inj hother, hexpected]
      exact Or.inr rfl
    · rcases h found rfl with hsame | hprior
      · exact absurd hsame hcommit
      · exact (Option.some.inj hprior).symm

theorem pushCheckpointFromShadow_working (working : Working answers) (shadowRoot : String)
    (valid : checkSessionRef sink.config.sessionRef = .ok ()) (ahead : Ahead sink (some commit) s)
    {prior : Option String} :
    ((sink.pushCheckpointFromShadow answers shadowRoot commit prior).run s).1 = .ok ⟨commit⟩ ↔
      ∀ tip ∈ s.remote, tip = commit ∨ prior = some tip := by
  have hmatch : (∃ published, alreadyAt sink.config.sessionRef commit s.remote prior = .ok published) ↔
      ∀ tip ∈ s.remote, tip = commit ∨ prior = some tip := alreadyAt_returns_iff
  rw [← hmatch]
  have hprepared : (sink.prepare answers shadowRoot commit).run s =
      (.ok (), { s with localRef := some commit }) := prepare_working working shadowRoot valid
  have hmoved : Ahead sink (some commit) { s with localRef := some commit } :=
    ⟨ahead.follows, ahead.cached⟩
  obtain ⟨cache, hlooked⟩ := lookUpTip_working hmoved working.lookup
  rcases hfound : alreadyAt sink.config.sessionRef commit s.remote prior with failure | published
  · simp only [pushCheckpointFromShadow, run_bind, hprepared, hlooked, hfound, run_ofExcept_error]
    simp
  rcases published with _ | _
  · have hfollows := ahead.fastForwards
    have hpushed : (sink.push answers commit).run { s with localRef := some commit, cache := cache } =
        (.ok (), { s with localRef := some commit, cache := cache, remote := some commit }) :=
      push_working working hfollows
    simp only [pushCheckpointFromShadow, run_bind, hprepared, hlooked, hfound, run_ofExcept_ok, orFail,
      working.connected, run_pure, hpushed]
    simp
  · simp only [pushCheckpointFromShadow, run_bind, hprepared, hlooked, hfound, run_ofExcept_ok, run_pure]
    simp

theorem publishCommit_working (working : Working answers) (shadowRoot : String)
    (valid : checkSessionRef sink.config.sessionRef = .ok ()) (ahead : Ahead sink (some commit) s) :
    ((sink.publishCommit answers shadowRoot commit).run s).1 = .ok ⟨commit⟩ ↔ Aware s commit := by
  rw [Aware, ← pushCheckpointFromShadow_working working shadowRoot valid ahead]
  unfold publishCommit
  rw [run_bind, run_get]
  simp only [run_bind, attempt]
  rcases (sink.pushCheckpointFromShadow answers shadowRoot commit s.lastPushed).run s with
    ⟨⟨publication⟩ | failure | _, t⟩
  · simp only [writePushedOid, run_bind, run_modify, working.cursor, run_pure]
  · simp only [run_throw]
    simp
  · simp

/-- In every state that a single recorder reaches, whatever its calls answered, a call over a
working network publishes the commit exactly when the remote's tip, if there is one, is that
commit or what the sink pushed last. -/
theorem working_publish_iff_aware (config : GitCheckpointConfig) (graph : CommitGraph)
    (file : PushedFile) {pushed : Option String} {start s : GitState} {last : Option String}
    (created : config.create file = .ok pushed)
    (fresh : start.remote = none → start.cache = none)
    (reached : Reached ⟨config, graph⟩ start last s) {request : CheckpointRequest} {commit : String}
    (normal : normalizeCommitOid request.commit = .ok commit)
    (follows : ∀ prior ∈ last, graph.Follows commit prior) {answers : GitAnswers}
    (working : Working answers) :
    (((⟨config, graph⟩ : GitCheckpointSink).publishCheckpoint answers request).run s).1 =
      .ok ⟨commit⟩ ↔ Aware s commit := by
  have hvalid : checkSessionRef config.sessionRef = .ok () :=
    GitCheckpointConfig.sessionRef_checked (GitCheckpointConfig.create_ok created).1
  have hahead : Ahead ⟨config, graph⟩ (some commit) s := (reached.ahead fresh).advance follows
  rw [publishCheckpoint_run normal]
  exact publishCommit_working working request.shadowRoot hvalid hahead

def gitConfig : GitCheckpointConfig where
  remoteUrl := "https://git/session"
  authorization := none
  refPrefix := "refs/rrjj"
  sessionId := "s"
  cursorPath := "cursor.json"

def olderCommit : String := "1111111111111111111111111111111111111111"
def newerCommit : String := "2222222222222222222222222222222222222222"

def twoCommits : CommitGraph where
  descends newer older := newer = newerCommit && older = olderCommit
  trans := by
    intro a b c hab hbc
    rw [Bool.and_eq_true, decide_eq_true_eq, decide_eq_true_eq] at hab hbc
    exact absurd (hab.2.symm.trans hbc.1) (by decide)

def gitSink : GitCheckpointSink := ⟨gitConfig, twoCommits⟩

def unpublished : GitState := ⟨none, .missing, none, none, none⟩

def commitRequest (commit : String) : CheckpointRequest := ⟨"shadow", "s", "c:" ++ commit, 0, "op:a"⟩

def lostReply : GitAnswers := { push := { report := .failed "operation timed out", landed := true } }

def lostState : GitState := ⟨none, .missing, some olderCommit, none, some olderCommit⟩

theorem olderCommit_normal : normalizeCommitOid (commitRequest olderCommit).commit = .ok olderCommit := by
  decide

theorem newerCommit_normal : normalizeCommitOid (commitRequest newerCommit).commit = .ok newerCommit := by
  decide

theorem gitConfig_created : gitConfig.create .missing = .ok none := by decide +kernel

theorem lostState_reached : Reached gitSink unpublished (some olderCommit) lostState := by
  have hlost : ((gitSink.publishCheckpoint lostReply (commitRequest olderCommit)).run unpublished).2 =
      lostState := by decide +kernel
  rw [← hlost]
  exact Reached.created.published lostReply olderCommit_normal (fun prior hprior => nomatch hprior) rfl

theorem working_default : Working {} := ⟨rfl, rfl, rfl, rfl, Or.inl rfl, rfl, rfl, rfl, rfl⟩

/-- The commit of the lost push is published by a retry. -/
theorem working_publish_iff_aware_retried :
    ((gitSink.publishCheckpoint {} (commitRequest olderCommit)).run lostState).1 = .ok ⟨olderCommit⟩ := by
  refine (working_publish_iff_aware gitConfig twoCommits .missing gitConfig_created (fun _ => rfl)
    lostState_reached olderCommit_normal ?_ working_default).mpr ?_
  · intro prior hprior
    exact Or.inl (Option.some.inj hprior)
  · intro tip htip
    exact Or.inl (Option.some.inj htip).symm

/-- Once the recorder has moved on, the commit of a lost push is a conflict. -/
theorem lost_push_never_converges :
    ¬ ∀ (config : GitCheckpointConfig) (graph : CommitGraph) (file : PushedFile)
      (pushed : Option String) (start s : GitState) (last : Option String)
      (request : CheckpointRequest) (commit : String) (answers : GitAnswers),
      config.create file = .ok pushed →
      (start.remote = none → start.cache = none) →
      Reached ⟨config, graph⟩ start last s →
      normalizeCommitOid request.commit = .ok commit →
      (∀ prior ∈ last, graph.Follows commit prior) →
      Working answers →
      (((⟨config, graph⟩ : GitCheckpointSink).publishCheckpoint answers request).run s).1 =
        .ok ⟨commit⟩ := by
  intro h
  have hpublished := h gitConfig twoCommits .missing none unpublished lostState (some olderCommit)
    (commitRequest newerCommit) newerCommit {} gitConfig_created (fun _ => rfl) lostState_reached
    newerCommit_normal ?_ working_default
  · have hconflict : ((gitSink.publishCheckpoint {} (commitRequest newerCommit)).run lostState).1 =
        .error (.checkpointConflict ("remote refs/rrjj/s already exists at " ++ olderCommit ++
          "; refusing unconditional create of " ++ newerCommit)) := by decide +kernel
    have hsame : ((gitSink.publishCheckpoint {} (commitRequest newerCommit)).run lostState).1 =
        .ok ⟨newerCommit⟩ := hpublished
    exact absurd (hsame.symm.trans hconflict) (by simp)
  · intro prior hprior
    rw [← Option.some.inj hprior]
    exact Or.inr (by decide)

end GitCheckpointSink
end Rrjj
