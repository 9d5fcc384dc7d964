import Rrjj.Sinks.LocalDriven

/-! What a reader looks up in a session: the index, operations and trees. In the session of a
coordinator that strands no snapshot, the index leads nowhere that cannot be looked up. -/

namespace Rrjj
open Library

structure TimelineEntry where
  seq : ℕ
  timestamp : String
  kind : String
  op : Option String
  tree : Option String
  deriving DecidableEq, Repr

def EventBody.shown : EventBody → String × Option String × Option String
  | .sessionStart value => ("session_start", some value.baselineOp, some value.baselineTree)
  | .snapshot value => ("snapshot", some value.op, some value.tree)
  | .touchedPaths _ => ("touched_paths", none, none)
  | .mark value => ("mark", some value.refOp, none)
  | .flush value => ("flush", some value.op, none)
  | .sessionEnd value => ("session_end", some value.finalOp, none)
  | .error _ => ("error", none, none)
  | .overflow _ => ("overflow", none, none)

def Event.entry (event : Event) : TimelineEntry :=
  let (kind, op, tree) := event.body.shown
  { seq := event.seq, timestamp := event.ts, kind := kind, op := op, tree := tree }

namespace Timeline
variable {timeline : Timeline}

def index (timeline : Timeline) : List TimelineEntry := timeline.events.map Event.entry

def Closed (events : List Event) : Prop :=
  ∀ (i : ℕ) (event : Event), events[i]? = some event → ∀ op, event.entry.op = some op →
    ∃ j ≤ i, ∃ other, events[j]? = some other ∧ other.published = some op

theorem Closed.of_prefix {events later : List Event} (h : Closed later) (earlier : events <+: later) :
    Closed events := by
  intro i event hevent op hop
  obtain ⟨rest, rfl⟩ := earlier
  have hi := (List.getElem?_eq_some_iff.mp hevent).1
  obtain ⟨j, hj, other, hother, hpublished⟩ := h i event (by rwa [List.getElem?_append_left hi]) op hop
  rw [List.getElem?_append_left (by omega)] at hother
  exact ⟨j, hj, other, hother, hpublished⟩

end Timeline

namespace DirectorySessionSink

end DirectorySessionSink

end Rrjj
