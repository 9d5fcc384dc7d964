import Rrjj.Library.Proc
import Rrjj.Library.Fallible
import Rrjj.Core.Recorder

/-! `JjRecorder::capture` step by step: what jj answers to each of its calls, and the fields
that the recorder assigns between them. -/

namespace Rrjj
open Library Library.Proc

/-- `MergedTree`, by the ids of its root trees: one, unless the tree is conflicted. -/
structure MergedTree where
  treeIds : List String
  deriving DecidableEq, Repr

def MergedTree.asResolved (tree : MergedTree) : Except String String :=
  match tree.treeIds with
  | [id] => .ok id
  | _ => .error "snapshot produced a conflicted root tree"

inductive MergedTreeValue where
  | resolved (value : Option TreeValue)
  | conflicted
  deriving DecidableEq, Repr

def resolvedValue : MergedTreeValue → Except String (Option TreeValue)
  | .resolved value => .ok value
  | .conflicted => .error "conflicted tree value cannot be projected in schema v0"

/-- What the diff stream yields; `size` is what the live file system says of the path. -/
structure StreamEntry where
  path : String
  values : Except String (MergedTreeValue × MergedTreeValue)
  size : Option ℕ

def StreamEntry.resolve (entry : StreamEntry) : Except String DiffEntry := do
  let (before, after) ← entry.values
  let beforeValue ← resolvedValue before
  let afterValue ← resolvedValue after
  return { path := entry.path, before := beforeValue, after := afterValue, size := entry.size }

/-- `project_diff`, on the stream. -/
def projectStream (stream : List StreamEntry) (maxChanges : ℕ) :
    Except String (List Change × ChangeStats × Bool) := do
  let entries ← stream.mapM StreamEntry.resolve
  return projectDiff entries maxChanges

structure WorkingCopy where
  generation : ℕ
  operation : String
  deriving DecidableEq, Repr

/-- `JjRecorder`, with the operation that `repo` is at. -/
structure RecorderState where
  repo : String
  workingCopy : WorkingCopy
  stateGeneration : ℕ
  previousTree : MergedTree
  previousCommit : Option String
  deriving DecidableEq, Repr

structure Jj where
  rootCommitId : String
  newWorkingCopy : String → ℕ → Except String Unit
  startSnapshot : Except String Unit
  snapshot : Except String MergedTree
  finishSnapshot : String → Except String Unit
  diffStream : MergedTree → MergedTree → List StreamEntry
  writeCommit : List String → MergedTree → Except String String
  setWcCommit : String → Except String Unit
  commitTransaction : String → String → Except String String
  startMutation : Except String Unit
  finishMutation : String → Except String Unit

abbrev RecorderTask := Proc RecorderState String

namespace RecorderState

def opId (state : RecorderState) : String := "op:" ++ state.repo

def commitId (state : RecorderState) : Option String :=
  state.previousCommit.map fun commit => "c:" ++ commit

def newWorkingCopy (jj : Jj) : RecorderTask Unit := do
  modify fun state => { state with stateGeneration := state.stateGeneration + 1 }
  let state ← get
  Proc.ofExcept (jj.newWorkingCopy state.repo state.stateGeneration)
  modify fun state => { state with workingCopy := ⟨state.stateGeneration, state.repo⟩ }

def finishedAt (operation : String) (state : RecorderState) : RecorderState :=
  { state with workingCopy := { state.workingCopy with operation := operation } }

def snapshotTree (jj : Jj) : RecorderTask MergedTree := do
  Proc.ofExcept jj.startSnapshot
  let tree ← Proc.ofExcept jj.snapshot
  let state ← get
  Proc.ofExcept (jj.finishSnapshot state.repo)
  modify (finishedAt state.repo)
  return tree

def refresh (jj : Jj) (fullScan : Bool) : RecorderTask Unit :=
  if fullScan then newWorkingCopy jj else pure ()

def parentCommit (jj : Jj) (state : RecorderState) : String :=
  state.previousCommit.getD jj.rootCommitId

def capture (jj : Jj) (fullScan : Bool) (maxChanges : ℕ) : RecorderTask Snapshot := do
  refresh jj fullScan
  let tree ← snapshotTree jj
  let state ← get
  let (changes, stats, truncated) ←
    Proc.ofExcept (projectStream (jj.diffStream state.previousTree tree) maxChanges)
  let commit ← Proc.ofExcept (jj.writeCommit [state.parentCommit jj] tree)
  Proc.ofExcept (jj.setWcCommit commit)
  let repo ← Proc.ofExcept (jj.commitTransaction state.repo commit)
  let treeId ← Proc.ofExcept tree.asResolved
  let snapshot : Snapshot :=
    { op := "op:" ++ repo
      parentOp := state.opId
      commit := "c:" ++ commit
      tree := "t:" ++ treeId
      changes := changes
      stats := stats
      truncated := truncated }
  modify fun state => { state with repo := repo }
  Proc.ofExcept jj.startMutation
  Proc.ofExcept (jj.finishMutation repo)
  modify (finishedAt repo)
  modify fun state => { state with previousTree := tree, previousCommit := some commit }
  return snapshot

structure Committed (jj : Jj) (fullScan : Bool) (maxChanges : ℕ) (state : RecorderState)
    (tree : MergedTree) (projection : List Change × ChangeStats × Bool)
    (commit repo treeId : String) : Prop where
  refreshed : fullScan = true → jj.newWorkingCopy state.repo (state.stateGeneration + 1) = .ok ()
  started : jj.startSnapshot = .ok ()
  snapshot : jj.snapshot = .ok tree
  finished : jj.finishSnapshot state.repo = .ok ()
  projected : projectStream (jj.diffStream state.previousTree tree) maxChanges = .ok projection
  written : jj.writeCommit [state.parentCommit jj] tree = .ok commit
  set : jj.setWcCommit commit = .ok ()
  committed : jj.commitTransaction state.repo commit = .ok repo
  resolved : tree.asResolved = .ok treeId

def moveOn (jj : Jj) (repo : String) : Except String Unit := do
  jj.startMutation
  jj.finishMutation repo

/-- The transaction is committed, and the working copy does not follow. -/
def FailsLate (jj : Jj) (fullScan : Bool) (maxChanges : ℕ) (state : RecorderState) : Prop :=
  ∃ tree projection commit repo treeId,
    Committed jj fullScan maxChanges state tree projection commit repo treeId ∧
      repo ≠ state.repo ∧ moveOn jj repo ≠ .ok ()

structure SameCheckpoint (before after : RecorderState) : Prop where
  repo : after.repo = before.repo
  tree : after.previousTree = before.previousTree
  commit : after.previousCommit = before.previousCommit

variable {jj : Jj} {fullScan : Bool} {maxChanges : ℕ} {state : RecorderState}

def snapshotFor (state : RecorderState) (projection : List Change × ChangeStats × Bool)
    (commit repo treeId : String) : Snapshot where
  op := "op:" ++ repo
  parentOp := state.opId
  commit := "c:" ++ commit
  tree := "t:" ++ treeId
  changes := projection.1
  stats := projection.2.1
  truncated := projection.2.2

def refreshAnswer (jj : Jj) (fullScan : Bool) (state : RecorderState) : Except String Unit :=
  if fullScan then jj.newWorkingCopy state.repo (state.stateGeneration + 1) else .ok ()

theorem refreshAnswer_ok_iff : refreshAnswer jj fullScan state = .ok () ↔
    (fullScan = true → jj.newWorkingCopy state.repo (state.stateGeneration + 1) = .ok ()) := by
  unfold refreshAnswer
  cases fullScan <;> simp

theorem refresh_run : ∃ refreshed : RecorderState, SameCheckpoint state refreshed ∧
    (refresh jj fullScan).run state = (Proc.ofExcept (refreshAnswer jj fullScan state)).run refreshed := by
  unfold refresh refreshAnswer
  rcases fullScan with _ | _
  · exact ⟨state, ⟨rfl, rfl, rfl⟩, rfl⟩
  simp only [if_true]
  rcases hcopy : jj.newWorkingCopy state.repo (state.stateGeneration + 1) with message | ⟨⟩
  · refine ⟨{ state with stateGeneration := state.stateGeneration + 1 }, ⟨rfl, rfl, rfl⟩, ?_⟩
    simp [newWorkingCopy, run_bind, hcopy]
  · refine ⟨{ state with
      stateGeneration := state.stateGeneration + 1
      workingCopy := ⟨state.stateGeneration + 1, state.repo⟩ }, ⟨rfl, rfl, rfl⟩, ?_⟩
    simp [newWorkingCopy, run_bind, hcopy]

structure EndsCommitted (jj : Jj) (state : RecorderState) (tree : MergedTree)
    (projection : List Change × ChangeStats × Bool) (commit repo treeId : String)
    (ended : Outcome String Snapshot × RecorderState) : Prop where
  moved : ended.2.repo = repo
  failed : ∀ message, moveOn jj repo = .error message → ended.1 = .error message ∧
    ended.2.previousTree = state.previousTree ∧ ended.2.previousCommit = state.previousCommit
  returned : moveOn jj repo = .ok () → ended.1 = .ok (snapshotFor state projection commit repo treeId) ∧
    ended.2.previousTree = tree ∧ ended.2.previousCommit = some commit

def transaction (jj : Jj) (fullScan : Bool) (maxChanges : ℕ) (state : RecorderState) :
    Except String (MergedTree × (List Change × ChangeStats × Bool) × String × String × String) := do
  refreshAnswer jj fullScan state
  jj.startSnapshot
  let tree ← jj.snapshot
  jj.finishSnapshot state.repo
  let projection ← projectStream (jj.diffStream state.previousTree tree) maxChanges
  let commit ← jj.writeCommit [state.parentCommit jj] tree
  jj.setWcCommit commit
  let repo ← jj.commitTransaction state.repo commit
  let treeId ← tree.asResolved
  return (tree, projection, commit, repo, treeId)

theorem transaction_ok_iff {tree : MergedTree} {projection : List Change × ChangeStats × Bool}
    {commit repo treeId : String} :
    transaction jj fullScan maxChanges state = .ok (tree, projection, commit, repo, treeId) ↔
      Committed jj fullScan maxChanges state tree projection commit repo treeId := by
  unfold transaction
  simp only [bind_ok_iff]
  constructor
  · rintro ⟨⟨⟩, hrefreshed, ⟨⟩, hstarted, tree', hsnapshot, ⟨⟩, hfinished, projection', hprojected,
      commit', hwritten, ⟨⟩, hset, repo', hcommitted, treeId', hresolved, h⟩
    cases Except.ok.inj h
    exact ⟨refreshAnswer_ok_iff.1 hrefreshed, hstarted, hsnapshot, hfinished, hprojected, hwritten, hset,
      hcommitted, hresolved⟩
  · intro h
    exact ⟨(), refreshAnswer_ok_iff.2 h.refreshed, (), h.started, tree, h.snapshot, (), h.finished,
      projection, h.projected, commit, h.written, (), h.set, repo, h.committed, treeId, h.resolved, rfl⟩

def conclude (jj : Jj) (state : RecorderState) :
    MergedTree × (List Change × ChangeStats × Bool) × String × String × String → RecorderTask Snapshot
  | (tree, projection, commit, repo, treeId) => do
    modify fun state => { state with repo := repo }
    Proc.ofExcept (moveOn jj repo)
    modify (finishedAt repo)
    modify fun state => { state with previousTree := tree, previousCommit := some commit }
    return snapshotFor state projection commit repo treeId

theorem conclude_ends {ready : RecorderState} (same : SameCheckpoint state ready) {tree : MergedTree}
    {projection : List Change × ChangeStats × Bool} {commit repo treeId : String} :
    EndsCommitted jj state tree projection commit repo treeId
      ((conclude jj state (tree, projection, commit, repo, treeId)).run ready) := by
  unfold conclude
  simp only [run_bind, run_modify]
  rcases hmove : moveOn jj repo with message | ⟨⟩
  · refine ⟨rfl, fun other hother => ?_, fun hmoved => absurd (hmove.symm.trans hmoved) (by simp)⟩
    rw [← Except.error.inj (hmove.symm.trans hother)]
    exact ⟨rfl, same.tree, same.commit⟩
  · exact ⟨rfl, fun other hother => absurd (hmove.symm.trans hother) (by simp), fun _ => ⟨rfl, rfl, rfl⟩⟩

theorem capture_run : ∃ ready, SameCheckpoint state ready ∧
    (capture jj fullScan maxChanges).run state =
      (Proc.ofExcept (transaction jj fullScan maxChanges state) >>= conclude jj state).run ready := by
  obtain ⟨refreshed, hsame, hrefresh⟩ := @refresh_run jj fullScan state
  unfold capture transaction snapshotTree
  simp only [ofExcept_bind, ofExcept_pure, bind_assoc, pure_bind]
  rw [run_bind, hrefresh, ← run_bind]
  rcases refreshAnswer jj fullScan state with message | ⟨⟩
  · exact ⟨refreshed, hsame, rfl⟩
  rcases jj.startSnapshot with message | ⟨⟩
  · exact ⟨refreshed, hsame, rfl⟩
  rcases jj.snapshot with message | tree
  · exact ⟨refreshed, hsame, rfl⟩
  simp only [run_ofExcept_ok_bind, run_get_bind, hsame.repo]
  rcases jj.finishSnapshot state.repo with message | ⟨⟩
  · exact ⟨refreshed, hsame, rfl⟩
  -- the working copy is at the recorder's operation, and nothing else has changed
  refine ⟨finishedAt state.repo refreshed, ⟨hsame.repo, hsame.tree, hsame.commit⟩, ?_⟩
  have hparent : (finishedAt state.repo refreshed).parentCommit jj = state.parentCommit jj :=
    congrArg (fun commit => Option.getD commit jj.rootCommitId) hsame.commit
  have hop : (finishedAt state.repo refreshed).opId = state.opId := congrArg ("op:" ++ ·) hsame.repo
  have htree : (finishedAt state.repo refreshed).previousTree = state.previousTree := hsame.tree
  have hrepo : (finishedAt state.repo refreshed).repo = state.repo := hsame.repo
  simp only [run_ofExcept_ok_bind, run_modify_bind, run_get_bind, hparent, hop, htree, hrepo, conclude,
    moveOn, ofExcept_bind, bind_assoc]
  rfl

theorem capture_cases :
    (∃ message, ((capture jj fullScan maxChanges).run state).1 = .error message ∧
      SameCheckpoint state ((capture jj fullScan maxChanges).run state).2 ∧
      ∀ tree projection commit repo treeId,
        ¬ Committed jj fullScan maxChanges state tree projection commit repo treeId) ∨
    ∃ tree projection commit repo treeId,
      Committed jj fullScan maxChanges state tree projection commit repo treeId ∧
      EndsCommitted jj state tree projection commit repo treeId
        ((capture jj fullScan maxChanges).run state) := by
  obtain ⟨ready, hsame, hrun⟩ := @capture_run jj fullScan maxChanges state
  rw [hrun]
  rcases htransaction : transaction jj fullScan maxChanges state with
    message | ⟨tree, projection, commit, repo, treeId⟩
  · left
    refine ⟨message, rfl, hsame, fun tree projection commit repo treeId committed => ?_⟩
    exact absurd (htransaction.symm.trans (transaction_ok_iff.2 committed)) (by simp)
  · right
    exact ⟨tree, projection, commit, repo, treeId, transaction_ok_iff.1 htransaction, conclude_ends hsame⟩

theorem capture_returned {snapshot : Snapshot}
    (h : ((capture jj fullScan maxChanges).run state).1 = .ok snapshot) :
    ∃ tree projection commit repo treeId,
      Committed jj fullScan maxChanges state tree projection commit repo treeId ∧
      snapshot = snapshotFor state projection commit repo treeId ∧
      ((capture jj fullScan maxChanges).run state).2.repo = repo ∧
      ((capture jj fullScan maxChanges).run state).2.previousTree = tree ∧
      ((capture jj fullScan maxChanges).run state).2.previousCommit = some commit := by
  rcases @capture_cases jj fullScan maxChanges state with ⟨message, herror, -⟩ | hcommitted
  · exact nomatch h.symm.trans herror
  obtain ⟨tree, projection, commit, repo, treeId, committed, ended⟩ := hcommitted
  rcases hmove : moveOn jj repo with message | ⟨⟩
  · exact nomatch h.symm.trans (ended.failed message hmove).1
  obtain ⟨hok, htree, hcommit⟩ := ended.returned hmove
  have hsnapshot := Outcome.ok.inj (h.symm.trans hok)
  exact ⟨tree, projection, commit, repo, treeId, committed, hsnapshot, ended.moved, htree, hcommit⟩

/-- The recorder still refers to the checkpoint it referred to, and so does the next capture
that succeeds: it names that operation, its commit is given that commit as parent and its
changes are those since that tree. -/
structure FailsCleanly (before after : RecorderState) : Prop where
  op : after.opId = before.opId
  commit : after.commitId = before.commitId
  tree : after.previousTree = before.previousTree
  next : ∀ jj fullScan maxChanges snapshot,
    ((capture jj fullScan maxChanges).run after).1 = .ok snapshot →
      snapshot.parentOp = before.opId ∧ ∃ tree commit, snapshot.commit = "c:" ++ commit ∧
        jj.writeCommit [before.parentCommit jj] tree = .ok commit ∧
        projectStream (jj.diffStream before.previousTree tree) maxChanges =
          .ok (snapshot.changes, snapshot.stats, snapshot.truncated)

theorem opId_inj {before after : RecorderState} (h : after.opId = before.opId) :
    after.repo = before.repo := (String.append_right_inj "op:").mp h

theorem SameCheckpoint.failsCleanly {before after : RecorderState} (same : SameCheckpoint before after) :
    FailsCleanly before after where
  op := congrArg ("op:" ++ ·) same.repo
  commit := congrArg (Option.map fun commit => "c:" ++ commit) same.commit
  tree := same.tree
  next jj fullScan maxChanges snapshot h := by
    obtain ⟨tree, projection, commit, repo, treeId, committed, hsnapshot, -⟩ := capture_returned h
    have hparent : after.parentCommit jj = before.parentCommit jj :=
      congrArg (fun commit => Option.getD commit jj.rootCommitId) same.commit
    rw [hsnapshot]
    refine ⟨congrArg ("op:" ++ ·) same.repo, tree, commit, rfl, ?_, ?_⟩
    · rw [← hparent]
      exact committed.written
    · rw [← same.tree]
      exact committed.projected

def toRecorder (state : RecorderState) : JjRecorder where
  operation := state.repo
  previousTree := state.previousTree.treeIds.headD ""
  previousCommit := state.previousCommit

theorem SameCheckpoint.toRecorder {before after : RecorderState} (same : SameCheckpoint before after) :
    after.toRecorder = before.toRecorder := by
  unfold RecorderState.toRecorder
  rw [same.repo, same.tree, same.commit]

/-- A capture that succeeds is the coordinator's capture, of what jj committed. -/
theorem capture_refines {snapshot : Snapshot}
    (h : ((capture jj fullScan maxChanges).run state).1 = .ok snapshot) :
    ∃ checkpoint, snapshot = state.toRecorder.snapshotOf checkpoint maxChanges ∧
      ((capture jj fullScan maxChanges).run state).2.toRecorder = .captured checkpoint := by
  obtain ⟨tree, projection, commit, repo, treeId, committed, hsnapshot, hrepo, htree, hcommit⟩ :=
    capture_returned h
  obtain ⟨entries, hentries, hprojection⟩ := bind_ok_iff.mp committed.projected
  have hids : tree.treeIds = [treeId] := by
    have hresolved := committed.resolved
    unfold MergedTree.asResolved at hresolved
    split at hresolved
    · next id hid => rw [hid, Except.ok.inj hresolved]
    · exact absurd hresolved (by simp)
  refine ⟨⟨repo, commit, treeId, entries⟩, ?_, ?_⟩
  · rw [hsnapshot, ← Except.ok.inj hprojection]
    rfl
  · unfold RecorderState.toRecorder
    rw [hrepo, htree, hcommit, hids]
    rfl

theorem failed_same {message : String}
    (h : ((capture jj fullScan maxChanges).run state).1 = .error message)
    (early : ¬ FailsLate jj fullScan maxChanges state) :
    SameCheckpoint state ((capture jj fullScan maxChanges).run state).2 := by
  rcases @capture_cases jj fullScan maxChanges state with ⟨_, -, same, -⟩ | hcommitted
  · exact same
  obtain ⟨tree, projection, commit, repo, treeId, committed, ended⟩ := hcommitted
  rcases hmove : moveOn jj repo with failure | ⟨⟩
  · obtain ⟨-, htree, hcommit⟩ := ended.failed failure hmove
    have hsame : repo = state.repo := by
      by_contra hnew
      exact early ⟨tree, projection, commit, repo, treeId, committed, hnew, by rw [hmove]; nofun⟩
    exact ⟨ended.moved.trans hsame, htree, hcommit⟩
  · exact nomatch h.symm.trans (ended.returned hmove).1

theorem failed_capture_refines {message : String}
    (h : ((capture jj fullScan maxChanges).run state).1 = .error message)
    (early : ¬ FailsLate jj fullScan maxChanges state) :
    ((capture jj fullScan maxChanges).run state).2.toRecorder = state.toRecorder :=
  (failed_same h early).toRecorder

/-- A capture that fails leaves the recorder at its checkpoint, except when jj's transaction was
committed and the working copy could not be moved on to the new operation. -/
theorem capture_fails_cleanly_iff (jj : Jj) (fullScan : Bool) (maxChanges : ℕ) (state : RecorderState) :
    (∀ message, ((capture jj fullScan maxChanges).run state).1 = .error message →
      FailsCleanly state ((capture jj fullScan maxChanges).run state).2) ↔
      ¬ FailsLate jj fullScan maxChanges state := by
  constructor
  · rintro cleanly ⟨tree, projection, commit, repo, treeId, committed, hnew, hmove⟩
    rcases @capture_cases jj fullScan maxChanges state with ⟨_, -, -, hnone⟩ | hcommitted
    · exact hnone _ _ _ _ _ committed
    obtain ⟨tree', _, commit', repo', _, committed', ended⟩ := hcommitted
    obtain rfl := Except.ok.inj (committed.snapshot.symm.trans committed'.snapshot)
    obtain rfl := Except.ok.inj (committed.written.symm.trans committed'.written)
    obtain rfl := Except.ok.inj (committed.committed.symm.trans committed'.committed)
    rcases hmoved : moveOn jj repo with message | ⟨⟩
    · have hop := opId_inj (cleanly message (ended.failed message hmoved).1).op
      exact hnew (ended.moved.symm.trans hop)
    · exact hmove hmoved
  · intro early message herror
    exact (failed_same herror early).failsCleanly

def exampleState : RecorderState where
  repo := "a0"
  workingCopy := ⟨0, "a0"⟩
  stateGeneration := 0
  previousTree := ⟨["t0"]⟩
  previousCommit := some "c0"

def lockedJj : Jj where
  rootCommitId := "00"
  newWorkingCopy _ _ := .ok ()
  startSnapshot := .ok ()
  snapshot := .ok ⟨["t1"]⟩
  finishSnapshot _ := .ok ()
  diffStream _ _ := []
  writeCommit _ _ := .ok "c1"
  setWcCommit _ := .ok ()
  commitTransaction _ _ := .ok "a1"
  startMutation := .error "working copy is locked"
  finishMutation _ := .ok ()

/-- The recorder is at the new operation, with the commit of the one before. -/
theorem committed_capture_fails_halfway :
    ¬ ∀ jj fullScan maxChanges state message,
      ((capture jj fullScan maxChanges).run state).1 = .error message →
        FailsCleanly state ((capture jj fullScan maxChanges).run state).2 := by
  intro h
  have hcleanly := h lockedJj false 10 exampleState "working copy is locked" rfl
  have hop : "op:a1" = "op:a0" := hcleanly.op
  exact absurd hop (by decide)

end RecorderState
end Rrjj
