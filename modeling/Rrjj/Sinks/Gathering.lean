import Rrjj.Library.Footprint
import Rrjj.Sinks.Mirror

/-! What the sync of a repository has gathered to be synced, and what it leaves once the gathered
directories are. -/

namespace Rrjj
open Library Library.Proc

/-- Nothing is published, and what is unsynced or changed is in its place. -/
def Undisturbed (τ : List DiskLabel) (d : Disk) : Prop := d.trace = τ ∧ d.volume.Sound

section
variable {oracle : IoOracle} {τ : List DiskLabel} {v : Volume} {T : Set Path} {path : Path} {data : Bytes}

structure SyncedFile (path : Path) (v w : Volume) : Prop where
  within : Volume.Within {path, temporaryPath path} v w
  synced : ∀ p ∈ ({path, temporaryPath path} : Set Path), p ∉ w.unsynced
  there : w.tree.entry path ≠ none

end

/-- A sync that began on `v` has left no data unsynced, and has gathered every directory in which it
changed anything. -/
structure Gathered (v : Volume) (s : Publishing) : Prop where
  unsynced : ∀ p ∈ s.disk.volume.unsynced, p ∈ v.unsynced
  changed : ∀ change ∈ s.disk.volume.changed, change ∈ v.changed ∨ change.1 ∈ s.dirty
  entries : ∀ p, s.disk.volume.tree.entry p ≠ v.tree.entry p → storePath <+: p ∧ p.dropLast ∈ s.dirty
  present : ∀ relative, isImmutableRepositoryFile relative = true →
    v.tree.entry (repoPath ++ relative) ≠ none → s.disk.volume.tree.entry (repoPath ++ relative) ≠ none

structure Syncing (τ : List DiskLabel) (v : Volume) (destination : Path) (s : Publishing) : Prop where
  steady : Undisturbed τ s.disk
  gathered : Gathered v s
  there : s.disk.volume.tree.entry destination ≠ none

def Listing.AllThere (there : Path → Prop) : Path → Listing → Prop
  | _, .done => True
  | relative, .file name _ rest =>
    (isImmutableRepositoryFile (relative ++ [name]) = true → there (relative ++ [name])) ∧
      rest.AllThere there relative
  | relative, .dir name entries rest =>
    entries.AllThere there (relative ++ [name]) ∧ rest.AllThere there relative
  | _, .symlink _ _ => True
  | relative, .other _ rest => rest.AllThere there relative

section
variable {oracle : IoOracle} {τ : List DiskLabel} {v w : Volume} {T : Set Path} {s u : Publishing}
  {path destination relative directory : Path} {name : String} {data : Bytes}

theorem Gathered.start (disk : Disk) (stats : DirectorySyncStats) :
    Gathered disk.volume { disk := disk, stats := stats } :=
  ⟨fun _ h => h, fun _ h => Or.inl h, fun _ h => absurd rfl h, fun _ _ h => h⟩

theorem Gathered.mark (h : Gathered v s) (within : Volume.Within T s.disk.volume u.disk.volume)
    (dirty : directory ∈ u.dirty ∧ ∀ d ∈ s.dirty, d ∈ u.dirty)
    (places : ∀ p ∈ T, storePath <+: p ∧ p.dropLast = directory)
    (synced : ∀ p ∈ T, p ∉ u.disk.volume.unsynced)
    (present : ∀ relative, isImmutableRepositoryFile relative = true → repoPath ++ relative ∈ T →
      u.disk.volume.tree.entry (repoPath ++ relative) ≠ none) : Gathered v u := by
  obtain ⟨hself, hmore⟩ := dirty
  constructor
  · intro p hp
    rcases within.unsynced p hp with hold | hT
    · exact h.unsynced p hold
    · exact absurd hp (synced p hT)
  · intro change hchange
    rcases within.changed change hchange with hold | ⟨p, hp, rfl⟩
    · exact (h.changed change hold).imp id fun hd => hmore _ hd
    · apply Or.inr
      change p.dropLast ∈ u.dirty
      rw [(places p hp).2]
      exact hself
  · intro p hp
    by_cases hT : p ∈ T
    · refine ⟨(places p hT).1, ?_⟩
      rw [(places p hT).2]
      exact hself
    · rw [within.entry p hT] at hp
      obtain ⟨hstore, hdirty⟩ := h.entries p hp
      exact ⟨hstore, hmore _ hdirty⟩
  · intro relative himmutable hthere
    by_cases hT : repoPath ++ relative ∈ T
    · exact present relative himmutable hT
    · rw [within.entry _ hT]
      exact h.present relative himmutable hthere

theorem Gathered.counted (h : Gathered v s) (disk : u.disk = s.disk) (dirty : u.dirty = s.dirty) :
    Gathered v u := by
  obtain ⟨hunsynced, hchanged, hentries, hpresent⟩ := h
  constructor
  · rwa [disk]
  · rwa [disk, dirty]
  · rwa [disk, dirty]
  · rwa [disk]

theorem Syncing.ticks (s : Publishing) (clock : ℕ) (h : Syncing τ v destination s) :
    Syncing τ v destination { s with disk := { s.disk with clock := clock } } :=
  ⟨h.steady, ⟨h.gathered.unsynced, h.gathered.changed, h.gathered.entries, h.gathered.present⟩, h.there⟩

theorem store_below (relative : Path) : storePath <+: repoPath ++ relative := ⟨"repo" :: relative, rfl⟩

theorem temporary_not_immutable {other : Path} (immutable : isImmutableRepositoryFile other = true) :
    repoPath ++ other ≠ temporaryPath (repoPath ++ relative ++ [name]) := by
  intro hsame
  rw [temporaryPath_concat, List.append_assoc] at hsame
  rw [List.append_cancel_left hsame, temporary_mutable] at immutable
  exact absurd immutable (by decide)

theorem Syncing.synced (h : Syncing τ v (repoPath ++ relative) s)
    (synced : SyncedFile (repoPath ++ relative ++ [name]) s.disk.volume u.disk.volume)
    (steady : Undisturbed τ u.disk) (dirty : u.dirty = s.dirty.insert (repoPath ++ relative)) :
    Syncing τ v (repoPath ++ relative) u := by
  have hdirty : repoPath ++ relative ∈ u.dirty ∧ ∀ d ∈ s.dirty, d ∈ u.dirty := by
    rw [dirty]
    exact ⟨List.mem_insert_self, fun d hd => List.mem_insert_of_mem hd⟩
  have hplaces : ∀ p ∈ ({repoPath ++ relative ++ [name], temporaryPath (repoPath ++ relative ++ [name])} :
      Set Path), storePath <+: p ∧ p.dropLast = repoPath ++ relative := by
    rintro p (rfl | rfl)
    · exact ⟨(store_below relative).trans (List.prefix_append _ _), List.dropLast_concat⟩
    · rw [temporaryPath_concat]
      exact ⟨(store_below relative).trans (List.prefix_append _ _), List.dropLast_concat⟩
  refine ⟨steady, h.gathered.mark synced.within hdirty hplaces synced.synced ?_, ?_⟩
  · rintro other himmutable (hpath | hpath)
    · rw [hpath]
      exact synced.there
    · exact absurd hpath (temporary_not_immutable himmutable)
  · rw [synced.within.entry (repoPath ++ relative) ?_]
    · exact h.there
    · rintro (hself | hself)
      · exact absurd hself (by simp)
      · rw [temporaryPath_concat] at hself
        exact absurd hself (by simp)

theorem Syncing.counted (h : Syncing τ v destination s) (stats : DirectorySyncStats) :
    Syncing τ v destination { s with stats := stats } :=
  ⟨h.steady, h.gathered.counted rfl rfl, h.there⟩

structure PathsSynced (paths : List Path) (v w : Volume) : Prop where
  tree : w.tree = v.tree
  unsynced : ∀ p ∈ w.unsynced, p ∈ v.unsynced
  changed : ∀ change ∈ w.changed, change ∈ v.changed ∧ change.1 ∉ paths

structure RepositorySynced (source : Listing) (v w : Volume) : Prop where
  unsynced : ∀ p ∈ w.unsynced, p ∈ v.unsynced
  changed : ∀ change ∈ w.changed, change ∈ v.changed ∧
    ∀ p, p.dropLast = change.1 → w.tree.entry p = v.tree.entry p
  outside : ∀ p, ¬ storePath <+: p → w.tree.entry p = v.tree.entry p
  mirrored : source.Regular → ∀ path,
    w.tree.entry (repoPath ++ path) = source.mirrored [] path (v.tree.entry (repoPath ++ path))
  there : w.tree.entry repoPath ≠ none

end
end Rrjj
