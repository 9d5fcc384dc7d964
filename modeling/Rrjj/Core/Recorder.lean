import Rrjj.Schema

/-! The recorder: the diff a checkpoint carries, and the jj state it moves on.
What jj itself answers (the operation, commit, tree and diff stream of a transaction)
comes from the environment. -/

namespace Rrjj

inductive TreeValue where
  | file (id : String) (executable : Bool)
  | symlink (id : String)
  | tree (id : String)
  | gitSubmodule (id : String)
  deriving DecidableEq, Repr

/-- An entry of the diff stream; `size` is what the live file system says of the path. -/
structure DiffEntry where
  path : String
  before : Option TreeValue
  after : Option TreeValue
  size : Option ℕ
  deriving DecidableEq, Repr

def classify : Option TreeValue → Option TreeValue → ChangeKind
  | none, some _ => .added
  | some _, none => .removed
  | some (.file beforeId beforeExecutable), some (.file afterId afterExecutable) =>
    if beforeId == afterId && beforeExecutable != afterExecutable then .modeChanged
    else .modified
  | _, _ => .modified

def blobId : Option TreeValue → Option String
  | some (.file id _) => some ("b:" ++ id)
  | some (.symlink id) => some ("b:" ++ id)
  | _ => none

structure Projection where
  changes : List Change := []
  stats : ChangeStats := {}
  total : ℕ := 0

def Projection.push (maxChanges : ℕ) (projection : Projection) (entry : DiffEntry) :
    Projection where
  changes :=
    if projection.changes.length < maxChanges then
      projection.changes ++
        [{ path := entry.path
           kind := classify entry.before entry.after
           blob := blobId entry.after
           prevBlob := blobId entry.before
           «from» := none
           bytes := entry.after.bind fun _ => entry.size }]
    else projection.changes
  stats := projection.stats.record (classify entry.before entry.after)
  total := projection.total + 1

def projectDiff (entries : List DiffEntry) (maxChanges : ℕ) :
    List Change × ChangeStats × Bool :=
  let projection := entries.foldl (Projection.push maxChanges) {}
  (projection.changes, projection.stats, maxChanges < projection.total)

structure Checkpoint where
  operation : String
  commit : String
  tree : String
  diff : List DiffEntry
  deriving DecidableEq, Repr

structure JjRecorder where
  operation : String
  previousTree : String
  previousCommit : Option String
  deriving DecidableEq, Repr

namespace JjRecorder

def opId (recorder : JjRecorder) : String := "op:" ++ recorder.operation

def commitId (recorder : JjRecorder) : Option String :=
  recorder.previousCommit.map fun commit => "c:" ++ commit

def snapshotOf (recorder : JjRecorder) (checkpoint : Checkpoint) (maxChanges : ℕ) : Snapshot :=
  let (changes, stats, truncated) := projectDiff checkpoint.diff maxChanges
  { op := "op:" ++ checkpoint.operation
    parentOp := recorder.opId
    commit := "c:" ++ checkpoint.commit
    tree := "t:" ++ checkpoint.tree
    changes := changes
    stats := stats
    truncated := truncated }

def captured (checkpoint : Checkpoint) : JjRecorder where
  operation := checkpoint.operation
  previousTree := checkpoint.tree
  previousCommit := some checkpoint.commit

@[simp] theorem snapshotOf_op (recorder : JjRecorder) (checkpoint : Checkpoint) (maxChanges : ℕ) :
    (recorder.snapshotOf checkpoint maxChanges).op = (captured checkpoint).opId := rfl

end JjRecorder
end Rrjj
