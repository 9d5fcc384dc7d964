import Rrjj.Sinks.LocalRules

/-! What a flush of the local sink writes, one path at a time, and what it has published when
it returns. -/

namespace Rrjj
open Library Library.Proc

def Shape.log (σ : Shape) (label : DiskLabel) : Shape := { σ with trace := σ.trace ++ [label] }

def Copied (seq : ℕ) (σ : Shape) : Prop :=
  .copied seq ∈ σ.trace ∧ (σ.entry (eventsPath seq)).isSome

inductive ManifestWrites (manifests : ManifestSerde) (manifest : SessionManifest) (σ : Shape) :
    Path → Option Entry → Prop
  | temporary (e : Option Entry) : ManifestWrites manifests manifest σ ["manifest.json.tmp"] e
  | manifest (bytes : Bytes) (written : manifests.toVecPretty manifest = .ok bytes) :
      ManifestWrites manifests manifest σ ["manifest.json"] (some (.file bytes))

inductive FlushWrites (manifests : ManifestSerde) (manifest : SessionManifest) (σ : Shape) :
    Path → Option Entry → Prop
  | mutable (relative : Path) (e : Option Entry)
      (free : isImmutableRepositoryFile relative = false) :
      FlushWrites manifests manifest σ (repoPath ++ relative) e
  | immutable (relative : Path) (data : Bytes) (none : σ.entry (repoPath ++ relative) = none) :
      FlushWrites manifests manifest σ (repoPath ++ relative) (some (.file data))
  | storeDir (path : Path) (none : σ.entry ("store" :: path) = none) :
      FlushWrites manifests manifest σ ("store" :: path) (some .dir)
  | eventsDir (none : σ.entry ["events"] = none) :
      FlushWrites manifests manifest σ ["events"] (some .dir)
  | copying (e : Option Entry) :
      FlushWrites manifests manifest σ (temporaryPath (eventsPath manifest.lastSeq)) e
  | object (none : σ.entry (eventsPath manifest.lastSeq) = none) :
      FlushWrites manifests manifest σ (eventsPath manifest.lastSeq) (some (.file σ.spool))
  | cursor (e : Option Entry) : FlushWrites manifests manifest σ ["cursor.json"] e
  | cursorTemporary (e : Option Entry) :
      FlushWrites manifests manifest σ (temporaryPath ["cursor.json"]) e
  | publish (path : Path) (e : Option Entry) (copied : Copied manifest.lastSeq σ)
      (writes : ManifestWrites manifests manifest.durableAt σ path e) :
      FlushWrites manifests manifest σ path e

section
variable {oracle : IoOracle} {I : Shape → Prop} {A : Shape → Path → Option Entry → Prop}
  {manifests : ManifestSerde} {manifest : SessionManifest} {flushed : Option ℕ}

theorem serialized_triple {P R : Disk → Prop} (json : Except String Bytes) (stop : ∀ d, P d → R d) :
    Triple P (serialized json) (fun bytes d => P d ∧ json = .ok bytes) R := by
  cases json with
  | ok bytes => exact Triple.pure fun _ h => ⟨h, rfl⟩
  | error message => exact Triple.throw stop

theorem renameManifest_triple {bytes : Bytes} (guards : Guards I (ManifestWrites manifests manifest))
    (written : manifests.toVecPretty manifest = .ok bytes)
    (publishes : ∀ σ seq volume, flushed = some seq → I σ → volume.tree.entry = σ.entry →
      I (σ.log (.published seq volume))) :
    Triple (Has fun σ => I σ ∧ σ.entry ["manifest.json.tmp"] = some (.file bytes))
      (renameManifest oracle flushed)
      (fun _ => Has fun σ => I σ ∧ σ.entry ["manifest.json"] = some (.file bytes)) (Has I) := by
  refine ioStep_triple (fun _ h => h) (fun _ h => h.1) (fun _ _ h => h.1) ?_
  intro disk answer value next hdisk hact
  split at hact
  · next volume hrename =>
    obtain ⟨data, hfound, -, hentry, -⟩ := Volume.renameFile_ok hrename
    have hdata : data = bytes := Entry.file.inj (Option.some.inj (hfound.symm.trans hdisk.2))
    have hlabelled : I { disk.shape with
        trace := disk.trace ++ (flushed.map fun seq => .published seq disk.volume).toList } := by
      rcases hflushed : flushed with _ | seq
      · simpa [Disk.shape] using hdisk.1
      · exact publishes disk.shape seq disk.volume hflushed hdisk.1 rfl
    have hshape : next.shape = (Shape.update { disk.shape with
        trace := disk.trace ++ (flushed.map fun seq => .published seq disk.volume).toList }
          ["manifest.json.tmp"] none).update ["manifest.json"] (some (.file bytes)) := by
      rw [← (Prod.mk.inj (Except.ok.inj hact)).2]
      unfold Disk.shape Disk.setVolume Shape.update
      rw [hentry, hdata]
    rw [Has, hshape]
    refine ⟨guards _ _ _ (guards _ _ _ hlabelled (.temporary none)) (.manifest bytes written), ?_⟩
    exact Shape.entry_update ..
  · exact absurd hact (by simp)

theorem writeManifestAtomic_triple (guards : Guards I (ManifestWrites manifests manifest))
    (publishes : ∀ σ seq volume, flushed = some seq → I σ → volume.tree.entry = σ.entry →
      I (σ.log (.published seq volume))) :
    Triple (Has I) (writeManifestAtomic oracle manifests manifest flushed)
      (fun _ => Has fun σ => I σ ∧ ∃ bytes, manifests.toVecPretty manifest = .ok bytes ∧
        σ.entry ["manifest.json"] = some (.file bytes)) (Has I) := by
  have hfree : FreeFile (ManifestWrites manifests manifest) ["manifest.json.tmp"] := fun _ e => .temporary e
  refine Triple.bind (Keeps.pure _) fun _ => ?_
  refine Triple.bind (serialized_triple _ fun _ h => h) fun bytes => Triple.of_start fun u hu => ?_
  obtain ⟨hstart, hwritten⟩ := hu
  refine Triple.bind ((fsWrite_triple guards hfree).pre fun s hs => hs ▸ hstart) fun _ => ?_
  refine Triple.bind (syncPath_keeps.conseq (fun _ h => h) (fun _ _ h => h) fun _ h => h.1) fun _ => ?_
  refine Triple.bind (renameManifest_triple guards hwritten publishes) fun _ => ?_
  refine (syncPath_keeps (I := fun σ => I σ ∧ σ.entry ["manifest.json"] = some (.file bytes))).conseq
    (fun _ h => h) ?_ fun _ h => h.1
  exact fun _ _ h => ⟨h.1, bytes, hwritten, h.2⟩

theorem repoFree_flushWrites : RepoFree (FlushWrites manifests manifest) where
  mutable relative free _ e := .mutable relative e free
  immutable relative data _ hnone := .immutable relative data hnone
  dirs path _ hnone := .storeDir path hnone

theorem eventsPath_ne_repo (seq : ℕ) (path : Path) : eventsPath seq ≠ "store" :: path := by
  unfold eventsPath
  simp

theorem eventsPath_ne_temporary (seq other : ℕ) : eventsPath seq ≠ temporaryPath (eventsPath other) := by
  intro hsame
  have hpath : eventsPath seq = ["events", eventsName other ++ ".rrjj-sync-tmp"] := hsame
  unfold eventsPath at hpath
  rw [List.cons_inj_right, List.singleton_inj] at hpath
  have hlast : (eventsName seq).toList.getLast? = some 'n' := by
    unfold eventsName
    rw [String.toList_append, List.getLast?_append]
    rfl
  have htemporary : (eventsName other ++ ".rrjj-sync-tmp").toList.getLast? = some 'p' := by
    rw [String.toList_append, List.getLast?_append]
    rfl
  rw [hpath, htemporary] at hlast
  exact absurd hlast (by decide)

theorem FlushWrites.object_inv {σ : Shape} {seq : ℕ} {e : Option Entry}
    (h : FlushWrites manifests manifest σ (eventsPath seq) e) :
    eventsPath seq = eventsPath manifest.lastSeq ∧ σ.entry (eventsPath seq) = none ∧
      e = some (.file σ.spool) := by
  generalize hpath : eventsPath seq = path at h
  cases h with
  | mutable relative e free => exact absurd hpath (eventsPath_ne_repo seq _)
  | immutable relative data none => exact absurd hpath (eventsPath_ne_repo seq _)
  | storeDir path none => exact absurd hpath (eventsPath_ne_repo seq _)
  | eventsDir none => exact absurd hpath (by unfold eventsPath; simp)
  | copying e => exact absurd hpath (eventsPath_ne_temporary seq _)
  | object none => exact ⟨rfl, none, rfl⟩
  | cursor e => exact absurd hpath (by unfold eventsPath; simp)
  | cursorTemporary e => exact absurd hpath (by unfold eventsPath temporaryPath; simp)
  | publish path e copied writes =>
    cases writes with
    | temporary e => exact absurd hpath (by unfold eventsPath; simp)
    | manifest bytes written => exact absurd hpath (by unfold eventsPath; simp)

theorem FlushWrites.immutable_inv {σ : Shape} {relative : Path} {e : Option Entry}
    (immutable : isImmutableRepositoryFile relative = true)
    (h : FlushWrites manifests manifest σ (repoPath ++ relative) e) :
    σ.entry (repoPath ++ relative) = none := by
  generalize hpath : repoPath ++ relative = path at h
  cases h with
  | mutable other e free =>
    have hsame := List.append_cancel_left hpath
    rw [hsame, free] at immutable
    exact absurd immutable (by decide)
  | immutable other data none => exact none
  | storeDir path none => exact none
  | eventsDir none => exact absurd hpath (by simp [repoPath])
  | copying e => exact absurd hpath (by simp [repoPath, temporaryPath, eventsPath])
  | object none => exact none
  | cursor e => exact absurd hpath (by simp [repoPath])
  | cursorTemporary e => exact absurd hpath (by simp [repoPath, temporaryPath])
  | publish path e copied writes =>
    cases writes with
    | temporary e => exact absurd hpath (by simp [repoPath])
    | manifest bytes written => exact absurd hpath (by simp [repoPath])

theorem FlushWrites.manifest_inv {σ : Shape} {e : Option Entry}
    (h : FlushWrites manifests manifest σ ["manifest.json"] e) :
    Copied manifest.lastSeq σ ∧
      ∃ bytes, manifests.toVecPretty manifest.durableAt = .ok bytes ∧ e = some (.file bytes) := by
  generalize hpath : ["manifest.json"] = path at h
  cases h with
  | mutable relative e free => exact absurd hpath (by simp [repoPath])
  | immutable relative data none => exact absurd hpath (by simp [repoPath])
  | storeDir path none => exact absurd hpath (by simp)
  | eventsDir none => exact absurd hpath (by simp)
  | copying e => exact absurd hpath (by simp [temporaryPath, eventsPath])
  | object none => exact absurd hpath (by simp [eventsPath])
  | cursor e => exact absurd hpath (by simp)
  | cursorTemporary e => exact absurd hpath (by simp [temporaryPath])
  | publish path e copied writes =>
    cases writes with
    | temporary e => exact absurd hpath (by simp)
    | manifest bytes written => exact ⟨copied, bytes, written, rfl⟩

theorem copied_update {σ : Shape} {path : Path} {e : Option Entry} {seq : ℕ}
    (copied : Copied seq σ) (writes : FlushWrites manifests manifest σ path e) :
    Copied seq (σ.update path e) := by
  refine ⟨copied.1, ?_⟩
  by_cases hpath : eventsPath seq = path
  · subst hpath
    have hnone := writes.object_inv.2.1
    exact absurd hnone (Option.isSome_iff_ne_none.mp copied.2)
  · rw [Shape.entry_update_ne σ e hpath]
    exact copied.2

theorem spool_update (data : Bytes) (σ : Shape) (path : Path) (e : Option Entry)
    (h : σ.spool = data) : (σ.update path e).spool = data := h

theorem publishEventsObject_triple (guards : Guards I (FlushWrites manifests manifest)) :
    Triple (Holding I) (publishEventsObject oracle manifest.lastSeq)
      (fun _ => Holding fun σ => I σ ∧ (σ.entry (eventsPath manifest.lastSeq)).isSome) (Holding I) := by
  have hdir : Keeps (Has I) (createDirAll oracle [] ["events"]) := by
    have hfree : FreeDir (FlushWrites manifests manifest) ([] ++ ["events"]) :=
      fun _ hnone => .eventsDir hnone
    exact Keeps.bind (ensureDir_keeps guards hfree) fun _ => Keeps.pure _
  refine Triple.bind (onDisk_keeps hdir) fun _ => ?_
  refine Triple.bind (pathExists_triple _) fun found => ?_
  cases found with
  | true => exact Triple.pure fun _ h => h
  | false =>
    refine Triple.get fun s hs => ?_
    -- the spool stays as it is while it is copied
    have hguards := guards.also fun σ path e _ h _ => spool_update s.disk.spool σ path e h
    have htakes : ∀ σ, I σ ∧ σ.spool = s.disk.spool → σ.entry (eventsPath manifest.lastSeq) = none →
        FlushWrites manifests manifest σ (eventsPath manifest.lastSeq) (some (.file s.disk.spool)) := by
      rintro σ ⟨-, hspool⟩ hnone
      rw [← hspool]
      exact .object hnone
    have hcopy : Triple _ (copyFileAtomic oracle s.disk.spool (eventsPath manifest.lastSeq)) _ _ :=
      copyFileAtomic_new hguards (fun _ e => .copying e) (by simp [eventsPath]) htakes
    have hstart : (I s.disk.shape ∧ s.disk.shape.spool = s.disk.spool) ∧
        s.disk.shape.entry (eventsPath manifest.lastSeq) = none :=
      ⟨⟨hs.1, rfl⟩, Option.isNone_iff_eq_none.mp (by simpa using hs.2)⟩
    have hdone : ∀ path, Keeps
        (Holding fun σ => I σ ∧ (σ.entry (eventsPath manifest.lastSeq)).isSome)
        (onDisk (syncPath oracle path)) := fun path => onDisk_keeps syncPath_keeps
    refine Triple.bind (Q := fun _ => Holding fun σ =>
      I σ ∧ (σ.entry (eventsPath manifest.lastSeq)).isSome) ?_ fun _ => ?_
    · refine (onDisk_triple hcopy).conseq ?_ ?_ fun _ h => h.1
      · rintro u rfl
        exact hstart
      · exact fun _ _ h => ⟨h.1.1, by rw [h.2]; rfl⟩
    refine Triple.bind ((hdone _).conseq (fun _ h => h) (fun _ _ h => h) fun _ h => h.1) fun _ => ?_
    exact (hdone _).conseq (fun _ h => h) (fun _ _ h => h) fun _ h => h.1

theorem writeJsonAtomic_keeps {path : Path} {json : Except String Bytes} (guards : Guards I A)
    (free : FreeFile A path) (freeTemporary : FreeFile A (temporaryPath path)) :
    Keeps (Has I) (writeJsonAtomic oracle path json) := by
  refine Triple.bind (serialized_triple (P := Has I) _ fun _ h => h) fun bytes => ?_
  refine Triple.bind ((fsWrite_triple guards freeTemporary).pre fun _ h => h.1) fun _ => ?_
  refine Triple.bind (syncPath_keeps.conseq (fun _ h => h) (fun _ _ h => h) fun _ h => h.1) fun _ => ?_
  refine Triple.bind (renamePath_triple guards freeTemporary (fun _ h => h) fun σ _ _ => free _ _)
    fun _ => ?_
  exact syncPath_keeps.conseq (fun _ h => h.1) (fun _ _ h => h) fun _ h => h

/-- A flush that returns has published its manifest; however it ends, its writes are those of
a flush, one after the other. -/
theorem syncDirectorySession_triple {serde : SessionSerde} {source : Listing}
    {checkpoint : Option String} (guards : Guards I (FlushWrites serde.manifests manifest))
    (copies : ∀ σ, I σ → (σ.entry (eventsPath manifest.lastSeq)).isSome →
      I (σ.log (.copied manifest.lastSeq)))
    (publishes : ∀ σ volume, I σ → volume.tree.entry = σ.entry →
      I (σ.log (.published manifest.lastSeq volume))) :
    Triple (Holding I) (syncDirectorySession oracle serde source manifest checkpoint)
      (fun _ => Holding fun σ => (I σ ∧ Copied manifest.lastSeq σ) ∧
        ∃ bytes, serde.manifests.toVecPretty manifest.durableAt = .ok bytes ∧
          σ.entry ["manifest.json"] = some (.file bytes)) (Holding I) := by
  have hcopied : Guards (fun σ => I σ ∧ Copied manifest.lastSeq σ) _ :=
    guards.also fun σ path e _ h hwrites => copied_update h hwrites
  have hmanifest : Guards (fun σ => I σ ∧ Copied manifest.lastSeq σ)
      (ManifestWrites serde.manifests manifest.durableAt) :=
    fun σ path e h hwrites => hcopied σ path e h (.publish path e h.2 hwrites)
  refine Triple.bind (publishRepository_keeps guards repoFree_flushWrites source) fun _ => ?_
  refine Triple.bind (publishEventsObject_triple guards) fun _ => ?_
  refine Triple.bind (Q := fun _ => Holding fun σ => I σ ∧ Copied manifest.lastSeq σ) ?_ fun _ => ?_
  · refine onDisk_triple (Triple.modify fun disk h => ?_)
    exact ⟨copies _ h.1 h.2, List.mem_append_right _ (List.mem_singleton_self _), h.2⟩
  have hcursor : Keeps (Has fun σ => I σ ∧ Copied manifest.lastSeq σ)
      (writeJsonAtomic oracle ["cursor.json"] (serde.cursor
        { deliveredSeq := some manifest.lastSeq
          deliveredOp := some manifest.lastOp
          checkpoint := checkpoint })) :=
    writeJsonAtomic_keeps hcopied (fun _ e => .cursor e) fun _ e => .cursorTemporary e
  refine Triple.bind ((onDisk_keeps hcursor).conseq (fun _ h => h) (fun _ _ h => h) fun _ h => h.1)
    fun _ => ?_
  have hpublishes : ∀ σ seq volume, some manifest.lastSeq = some seq →
      (I σ ∧ Copied manifest.lastSeq σ) → volume.tree.entry = σ.entry →
        I (σ.log (.published seq volume)) ∧ Copied manifest.lastSeq (σ.log (.published seq volume)) := by
    intro σ seq volume hseq h hvolume
    rw [← Option.some.inj hseq]
    exact ⟨publishes σ volume h.1 hvolume, List.mem_append_left _ h.2.1, h.2.2⟩
  refine Triple.bind ((onDisk_triple (writeManifestAtomic_triple hmanifest hpublishes)).conseq
    (fun _ h => h) (fun _ _ h => h) fun _ h => h.1) fun _ => ?_
  exact Triple.get fun s hs => Triple.pure fun u hu => hu ▸ hs

end
end Rrjj
