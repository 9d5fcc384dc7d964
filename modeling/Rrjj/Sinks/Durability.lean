import Rrjj.Sinks.Gathering
import Rrjj.Sinks.SpoolIntegrity

/-! What of a session directory has reached the disk when a flush publishes its manifest. -/

namespace Rrjj
open Library Library.Proc

def OnlyChanged (D : Path × String → Prop) (v : Volume) : Prop :=
  (∀ p ∈ v.unsynced, ¬ repoPath <+: p) ∧ ∀ change ∈ v.changed, D change

/-- Everything but the temporary file of the manifest has reached the disk. -/
def Durable (v : Volume) : Prop := OnlyChanged (fun change => change = ([], "manifest.json.tmp")) v

def PublishedDurable (trace : List DiskLabel) : Prop :=
  ∀ seq volume, .published seq volume ∈ trace → Durable volume

def Fenced (d : Disk) : Prop := PublishedDurable d.trace ∧ d.volume.Sound

section
variable {oracle : IoOracle} {τ : List DiskLabel} {v w : Volume} {T : Set Path} {path : Path}
  {D D' : Path × String → Prop} {data : Bytes} {manifests : ManifestSerde} {manifest : SessionManifest}

theorem OnlyChanged.within (h : OnlyChanged D v) (within : Volume.Within T v w)
    (places : ∀ p ∈ T, ¬ repoPath <+: p ∧ D (Volume.slot p)) : OnlyChanged D w := by
  constructor
  · intro p hp
    rcases within.unsynced p hp with hold | hT
    · exact h.1 p hold
    · exact (places p hT).1
  · intro change hchange
    rcases within.changed change hchange with hold | ⟨p, hp, rfl⟩
    · exact h.2 change hold
    · exact (places p hp).2

theorem OnlyChanged.mono (h : OnlyChanged D v) (weaker : ∀ change, D change → D' change) : OnlyChanged D' v :=
  ⟨h.1, fun change hchange => weaker change (h.2 change hchange)⟩

theorem OnlyChanged.paths {paths : List Path} (h : OnlyChanged D v) (synced : PathsSynced paths v w) :
    OnlyChanged (fun change => D change ∧ change.1 ∉ paths) w := by
  constructor
  · exact fun p hp => h.1 p (synced.unsynced p hp)
  · intro change hchange
    obtain ⟨hold, hne⟩ := synced.changed change hchange
    exact ⟨h.2 change hold, hne⟩

theorem Undisturbed.barrier {d : Disk} (published : PublishedDurable τ) (h : Undisturbed τ d) : Fenced d := by
  obtain ⟨rfl, hsound⟩ := h
  exact ⟨published, hsound⟩

def EventsPending (seq : ℕ) (v : Volume) : Prop :=
  OnlyChanged (fun change => change.1 = [] ∨ change.1 = ["events"]) v ∧
    (v.tree.entry (eventsPath seq) ≠ none → OnlyChanged (fun change => change.1 = []) v)

end

/-- A flush makes good what earlier ones left to be synced: it makes no hard link, it removes the files
that are unsynced, and it changes each directory again that has changed. -/
structure MakesGood (oracle : IoOracle) (source : Listing) (seq : ℕ) (v : Volume) : Prop where
  links : oracle.sameDevice = true →
    source.AllThere (fun path => v.tree.entry (repoPath ++ path) ≠ none) []
  files : ∀ path, repoPath ++ path ∈ v.unsynced → source.Regular ∧
    isImmutableRepositoryFile path = false ∧ source.entry path = none ∧
      source.entry path.dropLast = some .dir
  directories : ∀ change ∈ v.changed, change.1 = [] ∨
    (change.1 = ["events"] ∧ v.tree.entry (eventsPath seq) = none) ∨
    (change.1 = storePath ∧ v.tree.entry repoPath = none) ∨
    ∃ path name, change.1 = repoPath ++ path ∧ source.Regular ∧
      source.mirrored [] (path ++ [name]) (v.tree.entry (repoPath ++ (path ++ [name]))) ≠
        v.tree.entry (repoPath ++ (path ++ [name]))

section
variable {oracle : IoOracle} {τ : List DiskLabel} {v w : Volume} {source : Listing} {seq : ℕ}
  {disk : Disk} {manifest : SessionManifest} {checkpoint : Option String} {serde : SessionSerde}

theorem MakesGood.pending (good : MakesGood oracle source seq v) (sound : v.Sound) (sound' : w.Sound)
    (synced : RepositorySynced source v w) : EventsPending seq w := by
  have hfiles : ∀ p ∈ w.unsynced, ¬ repoPath <+: p := by
    rintro p hp ⟨path, rfl⟩
    obtain ⟨hregular, hmutable, hentry, hparent⟩ := good.files path (synced.unsynced _ hp)
    obtain ⟨old, hold⟩ := sound.unsynced _ (synced.unsynced _ hp)
    obtain ⟨data, hdata⟩ := sound'.unsynced _ hp
    have hgone : source.mirrored [] path (some (.file old)) = none := by
      rw [Listing.mirrored_of_gone hentry hparent]
      exact dropped_mutable hmutable
    rw [synced.mirrored hregular path, hold, hgone] at hdata
    exact absurd hdata (by simp)
  have hchanged : ∀ change ∈ w.changed, change.1 = [] ∨
      change.1 = ["events"] ∧ v.tree.entry (eventsPath seq) = none := by
    intro change hchange
    obtain ⟨hold, hsame⟩ := synced.changed change hchange
    rcases good.directories change hold with
      hroot | hevents | ⟨hstore, hnone⟩ | ⟨path, name, hpath, hregular, hne⟩
    · exact Or.inl hroot
    · exact Or.inr hevents
    · have hrepo := hsame repoPath (by rw [hstore]; rfl)
      rw [hnone] at hrepo
      exact absurd hrepo synced.there
    · have hentry := hsame (repoPath ++ (path ++ [name])) (by
        rw [hpath, ← List.append_assoc, List.dropLast_concat])
      rw [synced.mirrored hregular] at hentry
      exact absurd hentry hne
  have hobject : w.tree.entry (eventsPath seq) = v.tree.entry (eventsPath seq) := by
    apply synced.outside
    intro hstore
    exact absurd (List.cons_prefix_cons.mp hstore).1 (by decide)
  refine ⟨⟨hfiles, fun change hchange => (hchanged change hchange).imp id And.left⟩, fun hthere => ?_⟩
  refine ⟨hfiles, fun change hchange => (hchanged change hchange).resolve_right ?_⟩
  rintro ⟨-, hnone⟩
  rw [hobject] at hthere
  exact hthere hnone

end

theorem Fenced.same {disk now : Disk} (h : Fenced disk) (same : disk.SameTree now) : Fenced now := by
  obtain ⟨hvolume, htrace⟩ := same
  obtain ⟨hpublished, hsound⟩ := h
  refine ⟨?_, ?_⟩
  · rw [htrace]
    exact hpublished
  · rw [hvolume]
    exact hsound

namespace DirectorySessionSink
variable {oracle : IoOracle} {sink : DirectorySessionSink} {s : LocalSession}

def publishes : DiskLabel → Bool
  | .published _ _ => true
  | .copied _ => false

end DirectorySessionSink
end Rrjj
