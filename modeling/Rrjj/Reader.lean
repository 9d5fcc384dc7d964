import Rrjj.Schema

/-! The reader of a published session. -/

namespace Rrjj

inductive ReadError where
  | io
  | json (line : ℕ)
  | version (line version : ℕ)
  | sequence (line expected actual : ℕ)
  | session (line : ℕ) (expected actual : String)
  | missingManifest
  | incompatible (sessionFormat schemaVersion : ℕ)
  | notDurable
  | beyondWatermark (requested durable : ℕ)
  | unknownOperation (op : String)
  | unknownTree (tree : String)
  | invalidObjectId (value : String)
  | repository (message : String)
  | destinationInsideSession
  | destinationNotEmpty (destination : String)
  deriving DecidableEq, Repr

structure OperationInfo where
  seq : ℕ
  op : String
  parentOp : Option String
  commit : Option String
  tree : String
  deriving DecidableEq, Repr

structure Timeline where
  events : List Event
  deriving DecidableEq, Repr

def Event.operationInfo (op : String) (event : Event) : Option OperationInfo :=
  match event.body with
  | .sessionStart value =>
    if value.baselineOp = op then
      some ⟨event.seq, value.baselineOp, none, none, value.baselineTree⟩
    else none
  | .snapshot value =>
    if value.op = op then
      some ⟨event.seq, value.op, some value.parentOp, some value.commit, value.tree⟩
    else none
  | _ => none

/-- `Session::inspect_operation`; all it reads of a session is its timeline. -/
def Timeline.inspectOperation (timeline : Timeline) (op : String) :
    Except ReadError OperationInfo :=
  match timeline.events.findSome? (Event.operationInfo op) with
  | some info => .ok info
  | none => .error (.unknownOperation op)

def Event.published (event : Event) : Option String :=
  match event.body with
  | .sessionStart value => some value.baselineOp
  | .snapshot value => some value.op
  | _ => none

theorem Event.operationInfo_op {op : String} {event : Event} {info : OperationInfo}
    (h : event.operationInfo op = some info) : info.op = op := by
  unfold Event.operationInfo at h
  split at h
  · split_ifs at h with hop
    rw [← Option.some.inj h]
    exact hop
  · split_ifs at h with hop
    rw [← Option.some.inj h]
    exact hop
  · exact absurd h (by simp)

theorem Event.operationInfo_isSome {op : String} {event : Event} :
    (event.operationInfo op).isSome ↔ event.published = some op := by
  unfold Event.operationInfo Event.published
  rcases event.body <;> simp only [Option.isSome_none, Bool.false_eq_true, reduceCtorEq]
  all_goals
    rw [Option.some_inj]
    split_ifs with hop <;> simp [hop]

theorem Timeline.inspectOperation_ok_iff (timeline : Timeline) (op : String) :
    (∃ info, timeline.inspectOperation op = .ok info ∧ info.op = op) ↔
      ∃ event ∈ timeline.events, event.published = some op := by
  unfold Timeline.inspectOperation
  rcases hfind : timeline.events.findSome? (Event.operationInfo op) with _ | info
  · rw [List.findSome?_eq_none_iff] at hfind
    constructor
    · rintro ⟨info, h, -⟩
      exact absurd h (by simp)
    · rintro ⟨event, hmem, hop⟩
      have h := Event.operationInfo_isSome.mpr hop
      rw [hfind event hmem] at h
      exact absurd h (by simp)
  · obtain ⟨event, hmem, hinfo⟩ := List.exists_of_findSome?_eq_some hfind
    constructor
    · intro _
      exact ⟨event, hmem, Event.operationInfo_isSome.mp (by rw [hinfo]; rfl)⟩
    · intro _
      exact ⟨info, rfl, Event.operationInfo_op hinfo⟩

end Rrjj
