import Rrjj.Core.Coordinator

/-! What draining does to the coordinator: only the audit it retains changes, nothing it
retains is dropped, and whatever the batch holds leaves a snapshot pending. -/

namespace Rrjj
open Std

namespace Coordinator

theorem mergePath_frame (batchEvents : ℕ) (c : Coordinator) (entry : String × Operations) :
    ∃ touched limit notices, c.mergePath batchEvents entry =
      { c with
        touchedPaths := touched
        pathLimitReported := limit
        pendingOverflows := c.pendingOverflows ++ notices } := by
  unfold mergePath
  split
  · next existing _ =>
    exact ⟨c.touchedPaths.insert entry.1 (existing.insertMany entry.2.toList),
      c.pathLimitReported, [], by simp⟩
  split_ifs
  · exact ⟨c.touchedPaths.insert entry.1 entry.2, c.pathLimitReported, [], by simp⟩
  · exact ⟨c.touchedPaths, true, _, rfl⟩
  · exact ⟨c.touchedPaths, c.pathLimitReported, [], by simp⟩

theorem mergePaths_frame (batchEvents : ℕ) (entries : List (String × Operations))
    (c : Coordinator) :
    ∃ touched limit notices, entries.foldl (mergePath batchEvents) c =
      { c with
        touchedPaths := touched
        pathLimitReported := limit
        pendingOverflows := c.pendingOverflows ++ notices } := by
  induction entries generalizing c with
  | nil => exact ⟨c.touchedPaths, c.pathLimitReported, [], by simp⟩
  | cons entry entries ih =>
    obtain ⟨touched, limit, notices, h⟩ := mergePath_frame batchEvents c entry
    obtain ⟨touched', limit', notices', h'⟩ := ih (c.mergePath batchEvents entry)
    refine ⟨touched', limit', notices ++ notices', ?_⟩
    rw [List.foldl_cons, h', h]
    simp [List.append_assoc]

theorem markPending_eq (c : Coordinator) : c.markPending =
    { c with pendingSnapshot :=
        c.pendingSnapshot || (!c.touchedPaths.isEmpty || !c.pendingOverflows.isEmpty) } := by
  unfold markPending
  split_ifs with h
  · simp [h]
  · simp [Bool.eq_false_iff.mpr h]

def mergedPaths (c : Coordinator) (batch : AuditBatch) : Coordinator :=
  batch.paths.toList.foldl (mergePath batch.rawEvents)
    { c with auditStartedAt := c.auditStartedAt.or batch.startedAt }

theorem absorb_eq (c : Coordinator) (batch : AuditBatch) : c.absorb batch =
    { c with
      touchedPaths := (c.mergedPaths batch).touchedPaths
      pathLimitReported := (c.mergedPaths batch).pathLimitReported
      pendingOverflows := (c.mergedPaths batch).pendingOverflows ++ batch.overflows
      auditStartedAt := c.auditStartedAt.or batch.startedAt
      rawEvents := saturatingAdd c.rawEvents batch.rawEvents
      forceFullScan := c.forceFullScan || !batch.overflows.isEmpty
      pendingSnapshot := c.pendingSnapshot ||
        (!(c.mergedPaths batch).touchedPaths.isEmpty ||
          !((c.mergedPaths batch).pendingOverflows ++ batch.overflows).isEmpty) } := by
  obtain ⟨touched, limit, notices, h⟩ := mergePaths_frame batch.rawEvents batch.paths.toList
    { c with auditStartedAt := c.auditStartedAt.or batch.startedAt }
  simp only [absorb, markPending_eq, mergeOverflows, mergedPaths, h]
  rcases hempty : batch.overflows with _ | ⟨notice, rest⟩ <;> simp

variable (c : Coordinator) (batch : AuditBatch)

@[simp] theorem absorb_config : (c.absorb batch).config = c.config := by rw [absorb_eq]

@[simp] theorem absorb_recorder : (c.absorb batch).recorder = c.recorder := by rw [absorb_eq]

@[simp] theorem absorb_seq : (c.absorb batch).seq = c.seq := by rw [absorb_eq]

@[simp] theorem absorb_snapshots : (c.absorb batch).snapshots = c.snapshots := by rw [absorb_eq]

@[simp] theorem absorb_paused : (c.absorb batch).paused = c.paused := by rw [absorb_eq]

@[simp] theorem absorb_pendingSnapshotEvent :
    (c.absorb batch).pendingSnapshotEvent = c.pendingSnapshotEvent := by rw [absorb_eq]

@[simp] theorem absorb_auditStartedAt :
    (c.absorb batch).auditStartedAt = c.auditStartedAt.or batch.startedAt := by rw [absorb_eq]

@[simp] theorem absorb_rawEvents :
    (c.absorb batch).rawEvents = saturatingAdd c.rawEvents batch.rawEvents := by rw [absorb_eq]

theorem absorb_touchedPaths :
    (c.absorb batch).touchedPaths = (c.mergedPaths batch).touchedPaths := by rw [absorb_eq]

theorem absorb_pathLimitReported :
    (c.absorb batch).pathLimitReported = (c.mergedPaths batch).pathLimitReported := by
  rw [absorb_eq]

theorem absorb_pendingOverflows : (c.absorb batch).pendingOverflows =
    (c.mergedPaths batch).pendingOverflows ++ batch.overflows := by rw [absorb_eq]

theorem mergedPaths_overflows :
    ∃ notices, (c.mergedPaths batch).pendingOverflows = c.pendingOverflows ++ notices := by
  obtain ⟨_, _, notices, h⟩ := mergePaths_frame batch.rawEvents batch.paths.toList
    { c with auditStartedAt := c.auditStartedAt.or batch.startedAt }
  exact ⟨notices, by rw [mergedPaths, h]⟩

theorem absorb_pendingSnapshot : (c.absorb batch).pendingSnapshot =
    (c.pendingSnapshot || (!(c.absorb batch).touchedPaths.isEmpty ||
      !(c.absorb batch).pendingOverflows.isEmpty)) := by rw [absorb_eq]

theorem mergePath_nonempty (batchEvents : ℕ) (c : Coordinator) (entry : String × Operations) :
    (c.mergePath batchEvents entry).touchedPaths.isEmpty = false := by
  unfold mergePath
  split
  · simp
  split_ifs with hsize hlimit
  · simp
  all_goals
    rw [TreeMap.isEmpty_eq_size_eq_zero, beq_eq_false_iff_ne]
    unfold maxAuditPaths at hsize
    show c.touchedPaths.size ≠ 0
    omega

theorem mergePaths_nonempty (batchEvents : ℕ) (entries : List (String × Operations))
    (c : Coordinator) (h : entries ≠ []) :
    (entries.foldl (mergePath batchEvents) c).touchedPaths.isEmpty = false := by
  induction entries generalizing c with
  | nil => exact absurd rfl h
  | cons entry entries ih =>
    rcases entries with _ | ⟨next, rest⟩
    · exact mergePath_nonempty batchEvents c entry
    · exact ih (c.mergePath batchEvents entry) (by simp)

theorem absorb_nonempty (c : Coordinator) (audit : AuditState) (h : audit.paths.isEmpty = false) :
    (c.absorb audit.drain).touchedPaths.isEmpty = false := by
  have hne : audit.drain.paths.toList ≠ [] := by
    rw [← List.isEmpty_eq_false_iff, TreeMap.isEmpty_toList]
    exact h
  rw [absorb_touchedPaths]
  exact mergePaths_nonempty _ _ _ hne

theorem absorb_dirty (c : Coordinator) (audit : AuditState) (h : audit.isDirty = true) :
    (c.absorb audit.drain).pendingSnapshot = true := by
  rw [absorb_pendingSnapshot]
  rcases hpaths : audit.paths.isEmpty with _ | _
  · rw [absorb_nonempty c audit hpaths]
    simp
  · have hover : audit.overflows ≠ [] := by
      simpa [AuditState.isDirty, hpaths] using h
    have : audit.drain.overflows ≠ [] := by
      simp only [AuditState.drain]
      split <;> simp [hover]
    rw [absorb_pendingOverflows]
    simp [this]

theorem mergePaths_empty (batchEvents : ℕ) (entries : List (String × Operations))
    (c : Coordinator)
    (h : (entries.foldl (mergePath batchEvents) c).touchedPaths.isEmpty = false) :
    entries ≠ [] ∨ c.touchedPaths.isEmpty = false := by
  cases entries with
  | nil => exact Or.inr h
  | cons entry entries => exact Or.inl (by simp)

def Windowed (c : Coordinator) : Prop :=
  c.touchedPaths.isEmpty = false → c.auditStartedAt.isSome = true

theorem absorb_windowed {c : Coordinator} {audit : AuditState} (hc : c.Windowed)
    (haudit : audit.Windowed) : (c.absorb audit.drain).Windowed := by
  intro h
  rw [absorb_touchedPaths] at h
  rw [absorb_auditStartedAt]
  rcases mergePaths_empty _ _ _ h with hpaths | htouched
  · have hne : audit.paths.isEmpty = false := by
      rw [← TreeMap.isEmpty_toList, List.isEmpty_eq_false_iff]
      exact hpaths
    have hstarted : audit.drain.startedAt.isSome = true := haudit hne
    rw [Option.isSome_or, hstarted, Bool.or_true]
  · rw [Option.isSome_or, hc htouched, Bool.true_or]

theorem absorb_opens (c : Coordinator) {audit : AuditState} (haudit : audit.Windowed)
    (h : audit.isDirty = true) :
    (c.absorb audit.drain).auditStartedAt.isSome = true ∨
      (c.absorb audit.drain).pendingOverflows ≠ [] := by
  rcases hpaths : audit.paths.isEmpty with _ | _
  · have hstarted : audit.drain.startedAt.isSome = true := haudit hpaths
    rw [absorb_auditStartedAt, Option.isSome_or, hstarted, Bool.or_true]
    exact Or.inl rfl
  · refine Or.inr ?_
    rw [absorb_pendingOverflows]
    have hoverflows : audit.overflows ≠ [] := by simpa [AuditState.isDirty, hpaths] using h
    simp only [AuditState.drain]
    split <;> simp [hoverflows]

theorem absorb_clean (c : Coordinator) : (c.absorb ({} : AuditState).drain).pendingSnapshot =
    (c.pendingSnapshot || (!c.touchedPaths.isEmpty || !c.pendingOverflows.isEmpty)) := by
  have htouched : (c.absorb ({} : AuditState).drain).touchedPaths = c.touchedPaths := by
    rw [absorb_touchedPaths]
    rfl
  have hoverflows : (c.absorb ({} : AuditState).drain).pendingOverflows = c.pendingOverflows := by
    rw [absorb_pendingOverflows]
    exact List.append_nil _
  rw [absorb_pendingSnapshot, htouched, hoverflows]

end Coordinator
end Rrjj
