import Rrjj.Schema

/-! The audit accumulator the watcher records into and the coordinator drains. -/

namespace Rrjj

def maxAuditPaths : ℕ := 100000
def maxOverflowReports : ℕ := 64

def saturatingAdd (a b : ℕ) : ℕ := min (a + b) (2 ^ 64 - 1)

theorem saturatingAdd_eq {a b : ℕ} (h : a + b < 2 ^ 64) : saturatingAdd a b = a + b := by
  unfold saturatingAdd
  omega

abbrev Operations := Std.TreeSet TouchOperation
abbrev AuditPaths := Std.TreeMap String Operations

structure OverflowNotice where
  source : String
  rawEvents : ℕ
  deriving DecidableEq, Repr

def auditPathLimit : String := s!"rrjj:audit_path_limit:{maxAuditPaths}"
def overflowReportLimit : String := s!"rrjj:overflow_report_limit:{maxOverflowReports}"

structure AuditState where
  paths : AuditPaths := ∅
  rawEvents : ℕ := 0
  startedAt : Option String := none
  first : Option ℕ := none
  last : Option ℕ := none
  overflows : List OverflowNotice := []
  overflowReportsLimited : Bool := false
  pathLimitReported : Bool := false

structure AuditBatch where
  paths : AuditPaths
  rawEvents : ℕ
  startedAt : Option String
  overflows : List OverflowNotice

namespace AuditState

def touch (state : AuditState) (touched : TouchedPath) : AuditState :=
  match state.paths[touched.path]? with
  | some operations =>
    { state with
      paths := state.paths.insert touched.path (operations.insertMany touched.operations) }
  | none =>
    if state.paths.size < maxAuditPaths then
      { state with
        paths := state.paths.insert touched.path (Std.TreeSet.ofList touched.operations) }
    else if !state.pathLimitReported then
      { state with pathLimitReported := true }
    else state

def observe (state : AuditState) (paths : List TouchedPath) (rawEvents instant : ℕ)
    (now : String) : AuditState :=
  if paths.isEmpty then state
  else
    paths.foldl touch
      { state with
        startedAt := state.startedAt.or (some now)
        first := state.first.or (some instant)
        last := some instant
        rawEvents := saturatingAdd state.rawEvents rawEvents }

def pushOverflow (state : AuditState) (source : String) (rawEvents : ℕ) : AuditState :=
  if state.overflows.length < maxOverflowReports - 1 then
    { state with overflows := state.overflows ++ [⟨source, rawEvents⟩] }
  else if !state.overflowReportsLimited then
    { state with
      overflowReportsLimited := true
      overflows := state.overflows ++ [⟨overflowReportLimit, rawEvents⟩] }
  else state

def reportOverflow (state : AuditState) (source : String) (rawEvents instant : ℕ) : AuditState :=
  pushOverflow { state with first := state.first.or (some instant), last := some instant }
    source rawEvents

def deadline (state : AuditState) (quiescence maxDelay : ℕ) : Option ℕ :=
  match state.first, state.last with
  | some first, some last => some (min (first + maxDelay) (last + quiescence))
  | _, _ => none

def drain (state : AuditState) : AuditBatch where
  paths := state.paths
  rawEvents := state.rawEvents
  startedAt := state.startedAt
  overflows :=
    if state.pathLimitReported then
      state.overflows ++ [⟨auditPathLimit, state.rawEvents⟩]
    else state.overflows

def isDirty (state : AuditState) : Bool := !state.paths.isEmpty || !state.overflows.isEmpty

end AuditState

inductive WatcherCall where
  | observe (paths : List TouchedPath) (rawEvents instant : ℕ) (now : String)
  | reportOverflow (source : String) (rawEvents instant : ℕ)
  deriving DecidableEq, Repr

def AuditState.apply (state : AuditState) : WatcherCall → AuditState
  | .observe paths rawEvents instant now => state.observe paths rawEvents instant now
  | .reportOverflow source rawEvents instant => state.reportOverflow source rawEvents instant

def WatcherCall.isActive : WatcherCall → Bool
  | .observe paths _ _ _ => !paths.isEmpty
  | .reportOverflow _ _ _ => true

namespace AuditState

theorem touch_frame (state : AuditState) (touched : TouchedPath) :
    ∃ paths limit, state.touch touched =
      { state with paths := paths, pathLimitReported := limit } := by
  unfold touch
  split
  · exact ⟨_, state.pathLimitReported, rfl⟩
  split_ifs
  · exact ⟨_, state.pathLimitReported, rfl⟩
  · exact ⟨state.paths, true, rfl⟩
  · exact ⟨state.paths, state.pathLimitReported, rfl⟩

theorem foldl_touch_frame (paths : List TouchedPath) (state : AuditState) :
    ∃ touched limit, paths.foldl touch state =
      { state with paths := touched, pathLimitReported := limit } := by
  induction paths generalizing state with
  | nil => exact ⟨state.paths, state.pathLimitReported, rfl⟩
  | cons path paths ih =>
    obtain ⟨touched, limit, h⟩ := touch_frame state path
    obtain ⟨touched', limit', h'⟩ := ih (state.touch path)
    refine ⟨touched', limit', ?_⟩
    rw [List.foldl_cons, h', h]

theorem touch_nonempty (state : AuditState) (touched : TouchedPath) :
    (state.touch touched).paths.isEmpty = false := by
  unfold touch
  split
  · simp
  split_ifs with hsize hlimit
  · simp
  all_goals
    rw [Std.TreeMap.isEmpty_eq_size_eq_zero, beq_eq_false_iff_ne]
    unfold maxAuditPaths at hsize
    show state.paths.size ≠ 0
    omega

theorem foldl_touch_nonempty (paths : List TouchedPath) (state : AuditState)
    (h : paths ≠ [] ∨ state.paths.isEmpty = false) :
    (paths.foldl touch state).paths.isEmpty = false := by
  induction paths generalizing state with
  | nil => exact h.resolve_left fun hnil => hnil rfl
  | cons path paths ih => exact ih (state.touch path) (Or.inr (touch_nonempty state path))

theorem pushOverflow_frame (state : AuditState) (source : String) (rawEvents : ℕ) :
    ∃ notices limited, state.pushOverflow source rawEvents =
      { state with
        overflows := state.overflows ++ notices
        overflowReportsLimited := limited } := by
  unfold pushOverflow
  split_ifs
  · exact ⟨_, state.overflowReportsLimited, rfl⟩
  · exact ⟨_, true, rfl⟩
  · exact ⟨[], state.overflowReportsLimited, by simp⟩

theorem pushOverflow_nonempty (state : AuditState) (source : String) (rawEvents : ℕ) :
    (state.pushOverflow source rawEvents).overflows.isEmpty = false := by
  unfold pushOverflow
  split_ifs with hlength hlimited
  · simp
  · simp
  · rw [List.isEmpty_eq_false_iff]
    intro hnil
    rw [hnil, maxOverflowReports] at hlength
    exact hlength (by simp)

theorem apply_inactive (state : AuditState) {call : WatcherCall} (h : call.isActive = false) :
    state.apply call = state := by
  cases call with
  | observe paths rawEvents instant now =>
    have hempty : paths.isEmpty = true := by simpa [WatcherCall.isActive] using h
    rw [apply, observe, if_pos hempty]
  | reportOverflow => exact absurd h (by simp [WatcherCall.isActive])

theorem apply_active (state : AuditState) {call : WatcherCall} (h : call.isActive = true) :
    (state.apply call).isDirty = true := by
  cases call with
  | observe paths rawEvents instant now =>
    have hpaths : paths ≠ [] := by simpa [WatcherCall.isActive] using h
    rw [apply, observe, if_neg (by simpa using hpaths), isDirty,
      foldl_touch_nonempty paths _ (Or.inl hpaths)]
    rfl
  | reportOverflow source rawEvents instant =>
    rw [apply, reportOverflow, isDirty, pushOverflow_nonempty]
    simp

theorem apply_dirty (state : AuditState) (call : WatcherCall) (h : state.isDirty = true) :
    (state.apply call).isDirty = true := by
  rcases hactive : call.isActive with _ | _
  · rw [apply_inactive state hactive]
    exact h
  · exact apply_active state hactive

def Windowed (state : AuditState) : Prop :=
  state.paths.isEmpty = false → state.startedAt.isSome = true

theorem windowed_empty : Windowed {} := by
  intro h
  exact absurd h (by simp)

theorem apply_windowed {state : AuditState} (h : state.Windowed) (call : WatcherCall) :
    (state.apply call).Windowed := by
  cases call with
  | observe paths rawEvents instant now =>
    rw [apply, observe]
    split_ifs with hempty
    · exact h
    obtain ⟨touched, limit, hfold⟩ := foldl_touch_frame paths
      { state with
        startedAt := state.startedAt.or (some now)
        first := state.first.or (some instant)
        last := some instant
        rawEvents := saturatingAdd state.rawEvents rawEvents }
    rw [hfold]
    intro _
    cases state.startedAt <;> rfl
  | reportOverflow source rawEvents instant =>
    rw [apply, reportOverflow]
    obtain ⟨notices, limited, hpush⟩ := pushOverflow_frame
      { state with first := state.first.or (some instant), last := some instant } source rawEvents
    rw [hpush]
    exact h

end AuditState
end Rrjj
