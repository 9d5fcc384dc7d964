import Mathlib.Tactic

/-! The event schema: the records a session is made of. -/

namespace Rrjj

abbrev Bytes := List UInt8

def schemaVersion : ℕ := 0
def sessionFormatVersion : ℕ := 1

structure FormatMetadata where
  sessionFormat : ℕ
  schemaVersion : ℕ
  rrjjVersion : String
  jjLibVersion : String
  jjStoreVersion : String
  deriving DecidableEq, Repr

structure StoragePointers where
  provider : String
  sessionUri : String
  manifestUri : String
  repositoryUri : String
  eventsUri : Option String
  deriving DecidableEq, Repr

inductive TouchOperation where
  | create
  | modify
  | remove
  | rename
  | other
  deriving DecidableEq, Repr

instance : Ord TouchOperation := ⟨fun a b => compare a.ctorIdx b.ctorIdx⟩

theorem TouchOperation.compare_eq (a b : TouchOperation) :
    compare a b = compare a.ctorIdx b.ctorIdx := rfl

theorem TouchOperation.ctorIdx_injective : Function.Injective TouchOperation.ctorIdx := by
  intro a b h
  cases a <;> cases b <;> first | rfl | exact absurd h (by decide)

instance : Std.TransOrd TouchOperation where
  eq_swap := by
    intro a b
    simp only [TouchOperation.compare_eq]
    exact Std.OrientedCmp.eq_swap
  isLE_trans := by
    intro a b c
    simp only [TouchOperation.compare_eq]
    exact Std.TransCmp.isLE_trans

theorem TouchOperation.eq_of_compare {a b : TouchOperation} (h : compare a b = .eq) : a = b :=
  TouchOperation.ctorIdx_injective (Nat.compare_eq_eq.mp h)

instance : Std.LawfulEqOrd TouchOperation where
  compare_self := Nat.compare_eq_eq.mpr rfl
  eq_of_compare := TouchOperation.eq_of_compare

structure TouchedPath where
  path : String
  operations : List TouchOperation
  deriving DecidableEq, Repr

structure TouchedPaths where
  paths : List TouchedPath
  rawEvents : ℕ
  windowStartedAt : String
  windowEndedAt : String
  deriving DecidableEq, Repr

structure SessionStart where
  roots : List String
  baselineOp : String
  baselineTree : String
  ignore : List String
  rrjjVersion : String
  jjLibVersion : String
  jjStoreVersion : String
  deriving DecidableEq, Repr

inductive ChangeKind where
  | added
  | removed
  | modified
  | renamed
  | modeChanged
  deriving DecidableEq, Repr

structure Change where
  path : String
  kind : ChangeKind
  blob : Option String
  prevBlob : Option String
  «from» : Option String
  bytes : Option ℕ
  deriving DecidableEq, Repr

structure ChangeStats where
  added : ℕ := 0
  removed : ℕ := 0
  modified : ℕ := 0
  renamed : ℕ := 0
  modeChanged : ℕ := 0
  deriving DecidableEq, Repr

def ChangeStats.record (stats : ChangeStats) : ChangeKind → ChangeStats
  | .added => { stats with added := stats.added + 1 }
  | .removed => { stats with removed := stats.removed + 1 }
  | .modified => { stats with modified := stats.modified + 1 }
  | .renamed => { stats with renamed := stats.renamed + 1 }
  | .modeChanged => { stats with modeChanged := stats.modeChanged + 1 }

structure Snapshot where
  op : String
  parentOp : String
  commit : String
  tree : String
  changes : List Change
  stats : ChangeStats
  truncated : Bool
  deriving DecidableEq, Repr

structure Mark where
  label : String
  «meta» : List (String × String)
  refOp : String
  deriving DecidableEq, Repr

structure Flush where
  op : String
  throughSeq : ℕ
  deriving DecidableEq, Repr

structure SessionEnd where
  finalOp : String
  reason : String
  snapshots : ℕ
  events : ℕ
  deriving DecidableEq, Repr

structure ErrorEvent where
  scope : String
  message : String
  fatal : Bool
  retrying : Bool
  deriving DecidableEq, Repr

inductive OverflowRecovery where
  | fullScanSnapshot
  deriving DecidableEq, Repr

structure Overflow where
  source : String
  rawEvents : ℕ
  recovery : OverflowRecovery
  deriving DecidableEq, Repr

inductive EventBody where
  | sessionStart (value : SessionStart)
  | snapshot (value : Snapshot)
  | touchedPaths (value : TouchedPaths)
  | mark (value : Mark)
  | flush (value : Flush)
  | sessionEnd (value : SessionEnd)
  | error (value : ErrorEvent)
  | overflow (value : Overflow)
  deriving DecidableEq, Repr

structure Event where
  v : ℕ
  seq : ℕ
  sessionId : String
  ts : String
  body : EventBody
  deriving DecidableEq, Repr

def Event.new (sessionId : String) (seq : ℕ) (now : String) (body : EventBody) : Event where
  v := Rrjj.schemaVersion
  seq := seq
  sessionId := sessionId
  ts := now
  body := body

@[simp] theorem Event.new_seq (sessionId : String) (seq : ℕ) (now : String) (body : EventBody) :
    (Event.new sessionId seq now body).seq = seq := rfl

@[simp] theorem Event.new_body (sessionId : String) (seq : ℕ) (now : String) (body : EventBody) :
    (Event.new sessionId seq now body).body = body := rfl

def eventOp (event : Event) : Option String :=
  match event.body with
  | .sessionStart value => some value.baselineOp
  | .snapshot value => some value.op
  | .sessionEnd value => some value.finalOp
  | .flush value => some value.op
  | _ => none

structure SessionManifest where
  sessionId : String
  format : FormatMetadata
  lastSeq : ℕ
  lastOp : String
  eventsObject : Option String
  durableSeq : Option ℕ
  durableOp : Option String
  storage : Option StoragePointers
  deriving DecidableEq, Repr

def SessionManifest.isCompatible (manifest : SessionManifest) : Bool :=
  manifest.format.sessionFormat == sessionFormatVersion
    && manifest.format.schemaVersion == schemaVersion

end Rrjj
