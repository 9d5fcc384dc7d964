import Rrjj.Core.Capture

/-! What `project_diff` lists of a diff, and what it counts. -/

namespace Rrjj

def DiffEntry.change (entry : DiffEntry) : Change where
  path := entry.path
  kind := classify entry.before entry.after
  blob := blobId entry.after
  prevBlob := blobId entry.before
  «from» := none
  bytes := entry.after.bind fun _ => entry.size

def ChangeStats.count (stats : ChangeStats) : ChangeKind → ℕ
  | .added => stats.added
  | .removed => stats.removed
  | .modified => stats.modified
  | .renamed => stats.renamed
  | .modeChanged => stats.modeChanged

def ChangeStats.total (stats : ChangeStats) : ℕ :=
  stats.added + stats.removed + stats.modified + stats.renamed + stats.modeChanged

theorem ChangeStats.record_count (stats : ChangeStats) (kind other : ChangeKind) :
    (stats.record kind).count other = stats.count other + if kind = other then 1 else 0 := by
  cases kind <;> cases other <;> rfl

theorem ChangeStats.record_total (stats : ChangeStats) (kind : ChangeKind) :
    (stats.record kind).total = stats.total + 1 := by
  unfold ChangeStats.total
  cases kind <;> simp only [ChangeStats.record] <;> ring

section
variable {maxChanges : ℕ}

theorem foldl_push_changes (entries : List DiffEntry) (projection : Projection) :
    (entries.foldl (Projection.push maxChanges) projection).changes = projection.changes ++
      (entries.take (maxChanges - projection.changes.length)).map DiffEntry.change := by
  induction entries generalizing projection with
  | nil => rw [List.foldl_nil, List.take_nil, List.map_nil, List.append_nil]
  | cons entry entries ih =>
    rw [List.foldl_cons, ih]
    by_cases hroom : projection.changes.length < maxChanges
    · have hpush : (projection.push maxChanges entry).changes = projection.changes ++ [entry.change] := by
        show (if _ then _ else _) = _
        rw [if_pos hroom]
        rfl
      have hleft : maxChanges - projection.changes.length =
          maxChanges - (projection.changes.length + 1) + 1 := by omega
      rw [hpush, List.length_append, List.length_singleton, hleft, List.take_succ_cons,
        List.map_cons, List.append_assoc, List.singleton_append]
    · have hpush : (projection.push maxChanges entry).changes = projection.changes := by
        show (if _ then _ else _) = _
        rw [if_neg hroom]
      have hleft : maxChanges - projection.changes.length = 0 := by omega
      rw [hpush, hleft, List.take_zero, List.take_zero]

theorem foldl_push_count (entries : List DiffEntry) (projection : Projection) (kind : ChangeKind) :
    (entries.foldl (Projection.push maxChanges) projection).stats.count kind =
      projection.stats.count kind +
        (entries.map fun entry => classify entry.before entry.after).count kind := by
  induction entries generalizing projection with
  | nil => rfl
  | cons entry entries ih =>
    have hpush : (projection.push maxChanges entry).stats =
        projection.stats.record (classify entry.before entry.after) := rfl
    rw [List.foldl_cons, ih, hpush, ChangeStats.record_count, List.map_cons, List.count_cons]
    simp only [beq_iff_eq]
    omega

theorem foldl_push_total (entries : List DiffEntry) (projection : Projection) :
    (entries.foldl (Projection.push maxChanges) projection).stats.total =
        projection.stats.total + entries.length ∧
      (entries.foldl (Projection.push maxChanges) projection).total =
        projection.total + entries.length := by
  induction entries generalizing projection with
  | nil => exact ⟨rfl, rfl⟩
  | cons entry entries ih =>
    have hstats : (projection.push maxChanges entry).stats.total = projection.stats.total + 1 :=
      ChangeStats.record_total _ _
    have htotal : (projection.push maxChanges entry).total = projection.total + 1 := rfl
    obtain ⟨hsum, hcount⟩ := ih (projection.push maxChanges entry)
    rw [List.foldl_cons, hsum, hcount, hstats, htotal, List.length_cons]
    omega

end

structure ProjectionOf (entries : List DiffEntry) (maxChanges : ℕ) (changes : List Change)
    (stats : ChangeStats) (truncated : Bool) : Prop where
  length : changes.length = min entries.length maxChanges
  first : changes = (entries.take maxChanges).map DiffEntry.change
  truncated : truncated = true ↔ maxChanges < entries.length
  counted : ∀ kind, stats.count kind =
    (entries.map fun entry => classify entry.before entry.after).count kind
  total : stats.total = entries.length

theorem projectDiff_projects (entries : List DiffEntry) (maxChanges : ℕ) :
    ProjectionOf entries maxChanges (projectDiff entries maxChanges).1
      (projectDiff entries maxChanges).2.1 (projectDiff entries maxChanges).2.2 := by
  have hfirst : (projectDiff entries maxChanges).1 = (entries.take maxChanges).map DiffEntry.change :=
    foldl_push_changes entries {}
  obtain ⟨htotal, hcount⟩ := @foldl_push_total maxChanges entries {}
  have hnone : ({} : ChangeStats).total = 0 := rfl
  refine ⟨?_, hfirst, ?_, ?_, ?_⟩
  · rw [hfirst, List.length_map, List.length_take, Nat.min_comm]
  · show decide (maxChanges < _) = true ↔ _
    rw [decide_eq_true_iff, hcount, Nat.zero_add]
  · intro kind
    have hzero : ({} : ChangeStats).count kind = 0 := by cases kind <;> rfl
    show (entries.foldl (Projection.push maxChanges) {}).stats.count kind = _
    rw [foldl_push_count, hzero, Nat.zero_add]
  · show (entries.foldl (Projection.push maxChanges) {}).stats.total = _
    rw [htotal, hnone, Nat.zero_add]

end Rrjj
