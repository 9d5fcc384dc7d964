import Rrjj.Core.Projection
import Rrjj.Reader.ObjectId
import Rrjj.Reader.Soundness

/-! The diff of two operations, as the reader lists it and as the recorder projects it. -/

namespace Rrjj

/-- What jj answers to the reader; the ids of operations are bytes. -/
structure RepoLoader where
  initFromFileSystem : Except String Unit
  loadOperation : Bytes → Except String String
  loadAt : String → Except String String
  wcCommitId : String → Option String
  getCommit : String → Except String MergedTree
  diffStream : MergedTree → MergedTree →
    List (String × Except String (MergedTreeValue × MergedTreeValue))

namespace ReadTask

def ofExcept {α : Type} (result : Except ReadError α) : ReadTask α := ExceptT.mk (some result)

def repository {α : Type} : Except String α → ReadTask α
  | .ok value => pure value
  | .error message => throw (.repository message)

end ReadTask

namespace RepoLoader
variable (loader : RepoLoader)

def loadRepoAt (op : String) : ReadTask String := do
  let id ← decodeId op
  let operation ← ReadTask.repository (loader.loadOperation id)
  ReadTask.repository (loader.loadAt operation)

def wcCommit (repo : String) : ReadTask MergedTree :=
  match loader.wcCommitId repo with
  | none => throw (.repository "operation has no rrjj working-copy commit")
  | some id => ReadTask.repository (loader.getCommit id)

end RepoLoader

def valueId : Option TreeValue → Option String
  | some (.file id _) => some id
  | some (.symlink id) => some id
  | some (.tree id) => some id
  | some (.gitSubmodule id) => some id
  | none => none

def resolvedForReader : MergedTreeValue → ReadTask (Option TreeValue)
  | .resolved value => pure value
  | .conflicted => throw (.repository "conflicted tree cannot be diffed")

structure TreeDiff where
  path : String
  before : Option String
  after : Option String
  deriving DecidableEq, Repr

def treeDiff (path : String) (values : Except String (MergedTreeValue × MergedTreeValue)) :
    ReadTask TreeDiff := do
  let (before, after) ← ReadTask.repository values
  let beforeValue ← resolvedForReader before
  let afterValue ← resolvedForReader after
  return ⟨path, valueId beforeValue, valueId afterValue⟩

def Session.diff (session : Session) (loader : RepoLoader) (beforeOp afterOp : String) :
    ReadTask (List TreeDiff) := do
  let _ ← ReadTask.ofExcept (session.timeline.inspectOperation beforeOp)
  let _ ← ReadTask.ofExcept (session.timeline.inspectOperation afterOp)
  ReadTask.repository loader.initFromFileSystem
  let before ← loader.loadRepoAt beforeOp
  let after ← loader.loadRepoAt afterOp
  let beforeTree ← loader.wcCommit before
  let afterTree ← loader.wcCommit after
  (loader.diffStream beforeTree afterTree).mapM fun entry => treeDiff entry.1 entry.2

/-- The session has the operation, and jj its commit with that tree. -/
structure Session.HasTree (session : Session) (loader : RepoLoader) (op : String)
    (tree : MergedTree) : Prop where
  published : ∃ info, session.timeline.inspectOperation op = .ok info
  loaded : ∃ repo, loader.loadRepoAt op = pure repo ∧ loader.wcCommit repo = pure tree

def DiffEntry.treeDiff (entry : DiffEntry) : TreeDiff where
  path := entry.path
  before := valueId entry.before
  after := valueId entry.after

section
variable {stream : List StreamEntry} {entries : List DiffEntry}

theorem StreamEntry.treeDiff_resolved {entry : StreamEntry} {value : DiffEntry}
    (h : entry.resolve = .ok value) : Rrjj.treeDiff entry.path entry.values = pure value.treeDiff := by
  have hresolved : ∀ {merged : MergedTreeValue} {result : Option TreeValue},
      resolvedValue merged = .ok result → resolvedForReader merged = pure result := by
    intro merged result hmerged
    cases merged with
    | resolved found =>
      rw [← Except.ok.inj hmerged]
      rfl
    | conflicted => exact nomatch hmerged
  obtain ⟨⟨before, after⟩, hvalues, h⟩ := Library.bind_ok_iff.mp h
  obtain ⟨beforeValue, hbefore, h⟩ := Library.bind_ok_iff.mp h
  obtain ⟨afterValue, hafter, h⟩ := Library.bind_ok_iff.mp h
  rw [← Except.ok.inj h]
  unfold Rrjj.treeDiff
  rw [hvalues]
  show (resolvedForReader before >>= fun beforeValue => resolvedForReader after >>= fun afterValue =>
    pure (TreeDiff.mk entry.path (valueId beforeValue) (valueId afterValue))) = _
  rw [hresolved hbefore, hresolved hafter]
  rfl

theorem mapM_treeDiff (h : stream.mapM StreamEntry.resolve = .ok entries) :
    (stream.map fun entry => (entry.path, entry.values)).mapM
        (fun entry => treeDiff entry.1 entry.2) = (pure (entries.map DiffEntry.treeDiff) : ReadTask _) := by
  have hall := Library.mapM_ok_iff.mp h
  clear h
  induction hall with
  | nil => rfl
  | cons hentry hrest ih =>
    rw [List.map_cons, List.mapM_cons, ih, StreamEntry.treeDiff_resolved hentry]
    rfl

theorem Session.diff_lists {session : Session} {loader : RepoLoader} {beforeOp afterOp : String}
    {before after : MergedTree} (init : loader.initFromFileSystem = .ok ())
    (hbefore : session.HasTree loader beforeOp before) (hafter : session.HasTree loader afterOp after)
    (same : loader.diffStream before after = stream.map fun entry => (entry.path, entry.values))
    (resolves : stream.mapM StreamEntry.resolve = .ok entries) :
    session.diff loader beforeOp afterOp = pure (entries.map DiffEntry.treeDiff) := by
  obtain ⟨⟨beforeInfo, hbeforeInfo⟩, beforeRepo, hbeforeRepo, hbeforeTree⟩ := hbefore
  obtain ⟨⟨afterInfo, hafterInfo⟩, afterRepo, hafterRepo, hafterTree⟩ := hafter
  have hok : ∀ {α : Type} (value : α), ReadTask.ofExcept (.ok value) = pure value := fun _ => rfl
  unfold Session.diff
  rw [hbeforeInfo, hafterInfo, init, hok, hok, pure_bind, pure_bind]
  -- every check of the reader passes, and the stream is the one that the recorder has projected
  show (loader.loadRepoAt beforeOp >>= _) = _
  rw [hbeforeRepo, pure_bind, hafterRepo, pure_bind, hbeforeTree, pure_bind, hafterTree, pure_bind, same]
  exact mapM_treeDiff resolves

def HasBlob : Option TreeValue → Prop
  | none | some (.file _ _) | some (.symlink _) => True
  | some (.tree _) | some (.gitSubmodule _) => False

theorem blobId_valueId {value : Option TreeValue} (h : HasBlob value) :
    blobId value = (valueId value).map ("b:" ++ ·) := by
  rcases value with _ | _ | _ | _ | _
  · rfl
  · rfl
  · rfl
  · exact h.elim
  · exact h.elim

theorem valueId_none_iff {value : Option TreeValue} : valueId value = none ↔ value = none := by
  rcases value with _ | _ | _ | _ | _ <;> simp [valueId]

theorem classify_iff {before after : Option TreeValue} (differ : before ≠ none ∨ after ≠ none) :
    (classify before after = .added ↔ before = none) ∧
      (classify before after = .removed ↔ after = none) := by
  rcases before with _ | before
  · rcases after with _ | after
    · simp at differ
    · simp [classify]
  · rcases after with _ | after
    · simp [classify]
    · have hneither : classify (some before) (some after) = .modeChanged ∨
          classify (some before) (some after) = .modified := by
        cases before with
        | file beforeId beforeExecutable =>
          cases after with
          | file afterId afterExecutable => exact ite_eq_or_eq _ _ _
          | _ => exact Or.inr rfl
        | _ => cases after <;> exact Or.inr rfl
      rcases hneither with hkind | hkind <;> simp [hkind]

/-- A listed change, next to what the reader lists of the same entry. -/
structure ChangeAgrees (entry : DiffEntry) (change : Change) (diff : TreeDiff) : Prop where
  path : change.path = diff.path ∧ diff.path = entry.path
  blobs : HasBlob entry.before → HasBlob entry.after →
    change.prevBlob = diff.before.map ("b:" ++ ·) ∧ change.blob = diff.after.map ("b:" ++ ·)
  added : (change.kind = .added ↔ entry.before = none) ∧ (diff.before = none ↔ entry.before = none)
  removed : (change.kind = .removed ↔ entry.after = none) ∧ (diff.after = none ↔ entry.after = none)

theorem DiffEntry.agrees {entry : DiffEntry} (differ : entry.before ≠ none ∨ entry.after ≠ none) :
    ChangeAgrees entry entry.change entry.treeDiff where
  path := ⟨rfl, rfl⟩
  blobs := fun hbefore hafter => ⟨blobId_valueId hbefore, blobId_valueId hafter⟩
  added := ⟨(classify_iff differ).1, valueId_none_iff⟩
  removed := ⟨(classify_iff differ).2, valueId_none_iff⟩

theorem ProjectionOf.agrees {maxChanges : ℕ} {changes : List Change} {stats : ChangeStats} {truncated : Bool}
    (h : ProjectionOf entries maxChanges changes stats truncated)
    (differ : ∀ entry ∈ entries, entry.before ≠ none ∨ entry.after ≠ none)
    (k : ℕ) (hk : k < changes.length) :
    ∃ entry diff, entries[k]? = some entry ∧ (entries.map DiffEntry.treeDiff)[k]? = some diff ∧
      ChangeAgrees entry changes[k] diff := by
  have hlength := h.length
  have hlt : k < entries.length := by omega
  have hmax : k < maxChanges := by omega
  have hentry := List.getElem?_eq_getElem hlt
  have hchange : changes[k]? = some entries[k].change := by
    rw [h.first, List.getElem?_map, List.getElem?_take_of_lt hmax, hentry]
    rfl
  rw [List.getElem?_eq_getElem hk, Option.some_inj] at hchange
  refine ⟨entries[k], entries[k].treeDiff, hentry, ?_, ?_⟩
  · rw [List.getElem?_map, hentry]
    rfl
  · rw [hchange]
    exact DiffEntry.agrees (differ entries[k] (List.getElem_mem hlt))

end

/-- The recorder and the reader list the same diff. No entry is absent on both sides, since its values
are distinct. -/
theorem writer_and_reader_diffs_agree (jj : Jj) (session : Session) (loader : RepoLoader)
    (beforeOp afterOp : String) (before after : MergedTree) (entries : List DiffEntry) (maxChanges : ℕ)
    (init : loader.initFromFileSystem = .ok ()) (hbefore : session.HasTree loader beforeOp before)
    (hafter : session.HasTree loader afterOp after)
    (same : loader.diffStream before after =
      (jj.diffStream before after).map fun entry => (entry.path, entry.values))
    (resolves : (jj.diffStream before after).mapM StreamEntry.resolve = .ok entries)
    (differ : ∀ entry ∈ entries, entry.before ≠ none ∨ entry.after ≠ none) :
    ∃ changes stats truncated diffs,
      projectStream (jj.diffStream before after) maxChanges = .ok (changes, stats, truncated) ∧
        (session.diff loader beforeOp afterOp).run = some (.ok diffs) ∧
        ProjectionOf entries maxChanges changes stats truncated ∧
        diffs.map TreeDiff.path = entries.map DiffEntry.path ∧
        ∀ k (hk : k < changes.length), ∃ entry diff, entries[k]? = some entry ∧
          diffs[k]? = some diff ∧ ChangeAgrees entry changes[k] diff := by
  have hprojects := projectDiff_projects entries maxChanges
  have hstream : projectStream (jj.diffStream before after) maxChanges =
      .ok (projectDiff entries maxChanges) := by
    unfold projectStream
    rw [resolves]
    rfl
  have hdiff := Session.diff_lists init hbefore hafter same resolves
  refine ⟨_, _, _, entries.map DiffEntry.treeDiff, hstream, ?_, hprojects, ?_, ?_⟩
  · rw [hdiff]
    rfl
  · rw [List.map_map]
    rfl
  · exact hprojects.agrees differ

def mixedStream : List StreamEntry :=
  [⟨"a", .ok (.resolved none, .resolved (some (.file "0a" false))), some 3⟩,
    ⟨"b", .ok (.resolved (some (.symlink "0b")), .resolved none), none⟩,
    ⟨"c", .ok (.resolved (some (.file "0c" false)), .resolved (some (.file "0c" true))), some 5⟩]

def mixedEntries : List DiffEntry :=
  [⟨"a", none, some (.file "0a" false), some 3⟩, ⟨"b", some (.symlink "0b"), none, none⟩,
    ⟨"c", some (.file "0c" false), some (.file "0c" true), some 5⟩]

def mixedJj : Jj := { RecorderState.lockedJj with diffStream := fun _ _ => mixedStream }

def mixedLoader : RepoLoader where
  initFromFileSystem := .ok ()
  loadOperation id :=
    if id = [160] then .ok "a0" else if id = [161] then .ok "a1" else .error "no such operation"
  loadAt operation := .ok operation
  wcCommitId repo := some repo
  getCommit id := .ok ⟨[id]⟩
  diffStream _ _ := mixedStream.map fun entry => (entry.path, entry.values)

def mixedSession : Session where
  manifest := pairManifest
  timeline := ⟨[Event.new "s" 0 "" (.sessionStart ⟨[], "op:a0", "t:a0", [], "", "", ""⟩),
    Event.new "s" 1 "" (.snapshot ⟨"op:a1", "op:a0", "c:a1", "t:a1", [], {}, false⟩)]⟩

theorem mixedSession_hasTree :
    mixedSession.HasTree mixedLoader "op:a0" ⟨["a0"]⟩ ∧
      mixedSession.HasTree mixedLoader "op:a1" ⟨["a1"]⟩ := by
  have hbefore : decodeId "op:a0" = pure [160] := decodeId_digits (by decide +kernel)
  have hafter : decodeId "op:a1" = pure [161] := decodeId_digits (by decide +kernel)
  refine ⟨⟨⟨_, rfl⟩, "a0", ?_, rfl⟩, ⟨⟨_, rfl⟩, "a1", ?_, rfl⟩⟩
  · unfold RepoLoader.loadRepoAt
    rw [hbefore]
    rfl
  · unfold RepoLoader.loadRepoAt
    rw [hafter]
    rfl

theorem writer_and_reader_diffs_agree_mixed :
    ∃ changes stats truncated diffs,
      projectStream (mixedJj.diffStream ⟨["a0"]⟩ ⟨["a1"]⟩) 2 = .ok (changes, stats, truncated) ∧
        (mixedSession.diff mixedLoader "op:a0" "op:a1").run = some (.ok diffs) ∧
        ProjectionOf mixedEntries 2 changes stats truncated ∧
        diffs.map TreeDiff.path = mixedEntries.map DiffEntry.path ∧
        ∀ k (hk : k < changes.length), ∃ entry diff, mixedEntries[k]? = some entry ∧
          diffs[k]? = some diff ∧ ChangeAgrees entry changes[k] diff :=
  writer_and_reader_diffs_agree mixedJj mixedSession mixedLoader "op:a0" "op:a1" ⟨["a0"]⟩ ⟨["a1"]⟩
    mixedEntries 2 rfl mixedSession_hasTree.1 mixedSession_hasTree.2 rfl rfl (by decide)

end Rrjj
