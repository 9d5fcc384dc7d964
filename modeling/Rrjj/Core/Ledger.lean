import Rrjj.Library.CappedMap
import Rrjj.Library.Trace
import Rrjj.Core.Commands

/-! The audit ledger: each observation is counted once, and is listed in the event of its
window unless its path was dropped at the cap, which the stream then says. -/

namespace Rrjj
open Std Library Library.CappedMap

def AuditState.capped (state : AuditState) : CappedMap String TouchOperation :=
  ⟨state.paths, state.pathLimitReported⟩

def Coordinator.capped (c : Coordinator) : CappedMap String TouchOperation :=
  ⟨c.touchedPaths, c.pathLimitReported⟩

theorem mem_insertMany {set : Operations} {operations : List TouchOperation} {op : TouchOperation} :
    op ∈ set.insertMany operations ↔ op ∈ set ∨ op ∈ operations := by
  rw [TreeSet.mem_insertMany_list]
  simp

theorem AuditState.touch_merge (state : AuditState) (touched : TouchedPath) :
    Merge maxAuditPaths state.capped [(touched.path, touched.operations)]
      (state.touch touched).capped := by
  unfold AuditState.touch
  split
  · next operations hold =>
    refine Merge.store (s := state.capped) (fun v => ?_) (Or.inl ⟨operations, hold⟩)
    rw [mem_insertMany]
    exact or_congr_left ⟨fun hv => ⟨operations, hold, hv⟩, fun ⟨old, hsame, hv⟩ => by
      rwa [Option.some.inj (hold.symm.trans hsame)]⟩
  · next hnone =>
    split_ifs with hroom hlimited
    · refine Merge.store (s := state.capped) (fun v => ?_) (Or.inr hroom)
      rw [TreeSet.mem_ofList, List.contains_iff_mem]
      refine ⟨Or.inr, fun hv => hv.resolve_left ?_⟩
      rintro ⟨old, hold, -⟩
      exact absurd (hnone.symm.trans hold) (by simp)
    · exact Merge.drop (s := state.capped) _ (Nat.le_of_not_lt hroom)
    · have hsame : state.capped = ⟨state.paths, true⟩ := by
        rw [AuditState.capped, show state.pathLimitReported = true by simpa using hlimited]
      rw [hsame]
      exact Merge.drop (s := ⟨state.paths, true⟩) _ (Nat.le_of_not_lt hroom)

theorem AuditState.foldl_touch_merge (paths : List TouchedPath) (state : AuditState) :
    Merge maxAuditPaths state.capped (paths.map fun touched => (touched.path, touched.operations))
      (paths.foldl AuditState.touch state).capped := by
  induction paths generalizing state with
  | nil => exact .refl _
  | cons touched paths ih => exact (state.touch_merge touched).trans (ih (state.touch touched))

theorem Coordinator.mergePath_merge (batchEvents : ℕ) (c : Coordinator)
    (entry : String × Operations) :
    Merge maxAuditPaths c.capped [(entry.1, entry.2.toList)]
      (c.mergePath batchEvents entry).capped := by
  unfold Coordinator.mergePath
  split
  · next existing hold =>
    refine Merge.store (s := c.capped) (fun v => ?_) (Or.inl ⟨existing, hold⟩)
    rw [mem_insertMany]
    exact or_congr_left ⟨fun hv => ⟨existing, hold, hv⟩, fun ⟨old, hsame, hv⟩ => by
      rwa [Option.some.inj (hold.symm.trans hsame)]⟩
  · next hnone =>
    split_ifs with hroom hlimited
    · refine Merge.store (s := c.capped) (fun v => ?_) (Or.inr hroom)
      rw [TreeSet.mem_toList]
      refine ⟨Or.inr, fun hv => hv.resolve_left ?_⟩
      rintro ⟨old, hold, -⟩
      exact absurd (hnone.symm.trans hold) (by simp)
    · exact Merge.drop (s := c.capped) _ (Nat.le_of_not_lt hroom)
    · have hsame : c.capped = ⟨c.touchedPaths, true⟩ := by
        rw [Coordinator.capped, show c.pathLimitReported = true by simpa using hlimited]
      rw [hsame]
      exact Merge.drop (s := ⟨c.touchedPaths, true⟩) _ (Nat.le_of_not_lt hroom)

theorem Coordinator.mergePaths_merge (batchEvents : ℕ) (entries : List (String × Operations))
    (c : Coordinator) :
    Merge maxAuditPaths c.capped (entries.map fun entry => (entry.1, entry.2.toList))
      (entries.foldl (Coordinator.mergePath batchEvents) c).capped := by
  induction entries generalizing c with
  | nil => exact .refl _
  | cons entry entries ih =>
    exact (c.mergePath_merge batchEvents entry).trans (ih (c.mergePath batchEvents entry))

theorem Coordinator.absorb_merge (c : Coordinator) (batch : AuditBatch) :
    Merge maxAuditPaths c.capped (batch.paths.toList.map fun entry => (entry.1, entry.2.toList))
      (c.absorb batch).capped := by
  have h := Coordinator.mergePaths_merge batch.rawEvents batch.paths.toList
    { c with auditStartedAt := c.auditStartedAt.or batch.startedAt }
  have hcapped : (c.absorb batch).capped = (c.mergedPaths batch).capped := by
    simp only [Coordinator.capped, Coordinator.absorb_touchedPaths,
      Coordinator.absorb_pathLimitReported]
  rw [hcapped]
  exact h

def LimitPending (c : Coordinator) : Prop :=
  ∃ notice ∈ c.pendingOverflows, notice.source = auditPathLimit

theorem Coordinator.mergePath_limit (batchEvents : ℕ) (c : Coordinator)
    (entry : String × Operations) (h : (c.mergePath batchEvents entry).pathLimitReported = true) :
    c.pathLimitReported = true ∨ LimitPending (c.mergePath batchEvents entry) := by
  unfold Coordinator.mergePath at h ⊢
  split at h
  · exact Or.inl h
  split_ifs at h ⊢ with hroom hlimited
  · exact Or.inl h
  · refine Or.inr ⟨_, List.mem_append_right _ (List.mem_singleton_self _), rfl⟩
  · exact Or.inl h

theorem Coordinator.mergePaths_limit (batchEvents : ℕ) (entries : List (String × Operations))
    (c : Coordinator)
    (h : (entries.foldl (Coordinator.mergePath batchEvents) c).pathLimitReported = true) :
    c.pathLimitReported = true ∨
      LimitPending (entries.foldl (Coordinator.mergePath batchEvents) c) := by
  induction entries generalizing c with
  | nil => exact Or.inl h
  | cons entry entries ih =>
    refine (ih (c.mergePath batchEvents entry) h).elim (fun hlimit => ?_) Or.inr
    refine (c.mergePath_limit batchEvents entry hlimit).imp_right ?_
    rintro ⟨notice, hmem, hsource⟩
    obtain ⟨_, _, notices, hfold⟩ :=
      Coordinator.mergePaths_frame batchEvents entries (c.mergePath batchEvents entry)
    refine ⟨notice, ?_, hsource⟩
    rw [List.foldl_cons, hfold]
    exact List.mem_append_left _ hmem

theorem Coordinator.absorb_limit (c : Coordinator) (batch : AuditBatch)
    (h : (c.absorb batch).pathLimitReported = true) :
    c.pathLimitReported = true ∨ LimitPending (c.absorb batch) := by
  rw [Coordinator.absorb_pathLimitReported] at h
  refine (Coordinator.mergePaths_limit _ _ _ h).imp_right ?_
  rintro ⟨notice, hmem, hsource⟩
  refine ⟨notice, ?_, hsource⟩
  rw [Coordinator.absorb_pendingOverflows]
  exact List.mem_append_left _ hmem

theorem Coordinator.absorb_limitPending {c : Coordinator} (batch : AuditBatch)
    (h : LimitPending c) : LimitPending (c.absorb batch) := by
  obtain ⟨notice, hmem, hsource⟩ := h
  obtain ⟨notices, hmerged⟩ := Coordinator.mergedPaths_overflows c batch
  refine ⟨notice, ?_, hsource⟩
  rw [Coordinator.absorb_pendingOverflows, hmerged]
  exact List.mem_append_left _ (List.mem_append_left _ hmem)

theorem Coordinator.absorb_drained_limit (c : Coordinator) {audit : AuditState}
    (h : audit.pathLimitReported = true) : LimitPending (c.absorb audit.drain) := by
  refine ⟨⟨auditPathLimit, audit.rawEvents⟩, ?_, rfl⟩
  rw [Coordinator.absorb_pendingOverflows, AuditState.drain, if_pos h]
  simp

def Label.isTouched : Label → Bool
  | .accepted event =>
    match event.body with
    | .touchedPaths _ => true
    | _ => false
  | _ => false

def Label.isDrained : Label → Bool
  | .drained => true
  | _ => false

/-- `touched` was part of an observation, and `since` is what followed it. -/
def Observed (trace : List Label) (touched : TouchedPath) (since : List Label) : Prop :=
  ∃ before paths rawEvents, trace = before ++ .observed paths rawEvents :: since ∧ touched ∈ paths

def Fresh (since : List Label) : Prop := ∀ l ∈ since, l.isDrained = false

/-- Drained, into a window whose touched_paths event is still to be accepted. -/
def InWindow (since : List Label) : Prop :=
  ∃ waiting window, since = waiting ++ .drained :: window ∧
    (∀ l ∈ waiting, l.isDrained = false) ∧ ∀ l ∈ window, l.isTouched = false

def LimitReported (trace : List Label) : Prop :=
  ∃ before event rawEvents window, trace = before ++ .accepted event :: window ∧
    event.body = .overflow ⟨auditPathLimit, rawEvents, .fullScanSnapshot⟩ ∧
    ∀ l ∈ window, l.isTouched = false

def observedRaw (trace : List Label) : ℕ :=
  (trace.map fun label =>
    match label with
    | .observed paths rawEvents => if paths.isEmpty then 0 else rawEvents
    | _ => 0).sum

/-- The raw events of the touched_paths events that were accepted. -/
def emittedRaw (trace : List Label) : ℕ :=
  (trace.map fun label =>
    match label with
    | .accepted event =>
      match event.body with
      | .touchedPaths value => value.rawEvents
      | _ => 0
    | _ => 0).sum

/-- Some observation followed by a trace of the kind has `path`, and `op` with it. -/
def Seen (kind : List Label → Prop) (trace : List Label) (path : String)
    (ops : List TouchOperation) : Prop :=
  ∃ touched since, Observed trace touched since ∧ kind since ∧ touched.path = path ∧
    ∀ op ∈ ops, op ∈ touched.operations

def AllSeen (kind : List Label → Prop) (trace : List Label) (map : AuditPaths) : Prop :=
  ∀ path set, map[path]? = some set →
    Seen kind trace path [] ∧ ∀ op ∈ set, Seen kind trace path [op]

theorem Observed.of_snoc {trace since : List Label} {touched : TouchedPath} {label : Label}
    (h : Observed (trace ++ [label]) touched since) :
    (since = [] ∧ ∃ paths rawEvents, label = .observed paths rawEvents ∧ touched ∈ paths) ∨
      ∃ rest, since = rest ++ [label] ∧ Observed trace touched rest := by
  obtain ⟨before, paths, rawEvents, htrace, hmem⟩ := h
  rcases split_snoc htrace with ⟨-, hlabel, hnil⟩ | ⟨rest, hrest, htrace'⟩
  · exact Or.inl ⟨hnil, paths, rawEvents, hlabel, hmem⟩
  · exact Or.inr ⟨rest, hrest, before, paths, rawEvents, htrace', hmem⟩

theorem Observed.snoc {trace since : List Label} {touched : TouchedPath}
    (h : Observed trace touched since) (label : Label) :
    Observed (trace ++ [label]) touched (since ++ [label]) := by
  obtain ⟨before, paths, rawEvents, rfl, hmem⟩ := h
  exact ⟨before, paths, rawEvents, by simp, hmem⟩

theorem fresh_snoc {since : List Label} {label : Label} :
    Fresh (since ++ [label]) ↔ Fresh since ∧ label.isDrained = false := by
  simp only [Fresh, List.mem_append, List.mem_singleton]
  constructor
  · exact fun h => ⟨fun l hl => h l (Or.inl hl), h label (Or.inr rfl)⟩
  · rintro ⟨h, hl⟩ l (hmem | rfl)
    · exact h l hmem
    · exact hl

theorem InWindow.snoc {since : List Label} {label : Label} (h : InWindow since)
    (hl : label.isTouched = false) : InWindow (since ++ [label]) := by
  obtain ⟨waiting, window, rfl, hwaiting, hwindow⟩ := h
  refine ⟨waiting, window ++ [label], by simp, hwaiting, ?_⟩
  intro l hmem
  rcases List.mem_append.mp hmem with hmem | hmem
  · exact hwindow l hmem
  · rw [List.mem_singleton.mp hmem]
    exact hl

theorem Fresh.inWindow {since : List Label} (h : Fresh since) : InWindow (since ++ [.drained]) :=
  ⟨since, [], rfl, h, by simp⟩

theorem InWindow.of_snoc {since : List Label} {label : Label} (h : InWindow (since ++ [label])) :
    (InWindow since ∧ label.isTouched = false) ∨ (label = .drained ∧ Fresh since) := by
  obtain ⟨waiting, window, htrace, hwaiting, hwindow⟩ := h
  rcases split_snoc htrace with ⟨rfl, hlabel, -⟩ | ⟨rest, rfl, htrace'⟩
  · exact Or.inr ⟨hlabel, hwaiting⟩
  · refine Or.inl ⟨⟨waiting, rest, htrace', hwaiting, fun l hl => ?_⟩, ?_⟩
    · exact hwindow l (List.mem_append_left _ hl)
    · exact hwindow label (List.mem_append_right _ (List.mem_singleton_self _))

theorem LimitReported.snoc {trace : List Label} {label : Label} (h : LimitReported trace)
    (hl : label.isTouched = false) : LimitReported (trace ++ [label]) := by
  obtain ⟨before, event, rawEvents, window, rfl, hbody, hwindow⟩ := h
  refine ⟨before, event, rawEvents, window ++ [label], by simp, hbody, ?_⟩
  intro l hmem
  rcases List.mem_append.mp hmem with hmem | hmem
  · exact hwindow l hmem
  · rw [List.mem_singleton.mp hmem]
    exact hl

theorem Seen.snoc {kind kind' : List Label → Prop} {trace : List Label} {path : String}
    {ops : List TouchOperation} {label : Label} (h : Seen kind trace path ops)
    (hkind : ∀ since, kind since → kind' (since ++ [label])) :
    Seen kind' (trace ++ [label]) path ops := by
  obtain ⟨touched, since, hobserved, hsince, hpath, hops⟩ := h
  exact ⟨touched, since ++ [label], hobserved.snoc label, hkind since hsince, hpath, hops⟩

theorem AllSeen.snoc {kind kind' : List Label → Prop} {trace : List Label} {map : AuditPaths}
    {label : Label} (h : AllSeen kind trace map)
    (hkind : ∀ since, kind since → kind' (since ++ [label])) :
    AllSeen kind' (trace ++ [label]) map := by
  intro path set hset
  obtain ⟨hpath, hops⟩ := h path set hset
  exact ⟨hpath.snoc hkind, fun op hop => (hops op hop).snoc hkind⟩

end Rrjj
