import Rrjj.Sinks.Local

/-! What the steps of the local sink keep: a condition on the disk, of which each step says
only what may come to lie at which path. -/

namespace Rrjj
open Library Library.Proc

structure Shape where
  entry : Path → Option Entry
  spool : Bytes
  buffer : Bytes
  trace : List DiskLabel

def Disk.shape (disk : Disk) : Shape :=
  ⟨disk.volume.tree.entry, disk.spool, disk.buffer, disk.trace⟩

def Shape.update (σ : Shape) (path : Path) (e : Option Entry) : Shape :=
  { σ with entry := Function.update σ.entry path e }

theorem Shape.entry_update (σ : Shape) (path : Path) (e : Option Entry) :
    (σ.update path e).entry path = e := Function.update_self ..

theorem Shape.entry_update_ne (σ : Shape) {path other : Path} (e : Option Entry) (ne : other ≠ path) :
    (σ.update path e).entry other = σ.entry other := Function.update_of_ne ne ..

def Guards (I : Shape → Prop) (A : Shape → Path → Option Entry → Prop) : Prop :=
  ∀ σ path e, I σ → A σ path e → I (σ.update path e)

def FreeFile (A : Shape → Path → Option Entry → Prop) (path : Path) : Prop := ∀ σ e, A σ path e

def FreeDir (A : Shape → Path → Option Entry → Prop) (path : Path) : Prop :=
  ∀ σ, σ.entry path = none → A σ path (some .dir)

abbrev Has (I : Shape → Prop) (disk : Disk) : Prop := I disk.shape

section
variable {oracle : IoOracle} {I : Shape → Prop} {A : Shape → Path → Option Entry → Prop}
  {path target : Path} {data : Bytes}

theorem Guards.also {K : Shape → Prop} (guards : Guards I A)
    (keeps : ∀ σ path e, I σ → K σ → A σ path e → K (σ.update path e)) :
    Guards (fun σ => I σ ∧ K σ) A :=
  fun σ path e hσ hallowed => ⟨guards σ path e hσ.1 hallowed, keeps σ path e hσ.1 hσ.2 hallowed⟩

theorem Guards.except {e : Option Entry} (guards : Guards I A) :
    Guards (fun σ => I σ ∧ σ.entry target = e) fun σ path e => A σ path e ∧ path ≠ target := by
  intro σ path e' hσ hallowed
  refine ⟨guards σ path e' hσ.1 hallowed.1, ?_⟩
  rw [Shape.entry_update_ne σ e' hallowed.2.symm]
  exact hσ.2

theorem FreeFile.except (free : FreeFile A path) (ne : path ≠ target) :
    FreeFile (fun σ p e => A σ p e ∧ p ≠ target) path := fun σ e => ⟨free σ e, ne⟩

theorem ioStep_triple {α : Type} {act : IoAnswer → Disk → Except IoError (α × Disk)}
    {broken : IoAnswer → Disk → Disk} {P R : Disk → Prop} {Q : α → Disk → Prop}
    (ticks : ∀ disk, P disk → P { disk with clock := disk.clock + 1 })
    (stop : ∀ disk, P disk → R disk) (breaks : ∀ disk answer, P disk → R (broken answer disk))
    (done : ∀ disk answer value next, P disk → act answer disk = .ok (value, next) → Q value next) :
    Triple P (ioStep oracle act broken) Q R := by
  intro disk hdisk
  have hticked := ticks disk hdisk
  unfold ioStep
  simp only
  split_ifs
  · exact stop disk hdisk
  split
  · exact breaks _ _ hticked
  · split
    · next value next hact => exact done _ _ value next hticked hact
    · exact stop _ hticked

theorem volumeStep_triple {act : Volume → Except FsError Volume} {P R : Disk → Prop}
    {Q : Unit → Disk → Prop} (ticks : ∀ disk, P disk → P { disk with clock := disk.clock + 1 })
    (stop : ∀ disk, P disk → R disk)
    (done : ∀ disk volume, P disk → act disk.volume = .ok volume → Q () (disk.setVolume volume)) :
    Triple P (volumeStep oracle act) Q R := by
  refine ioStep_triple ticks stop (fun disk _ h => stop disk h) ?_
  intro disk answer value next hdisk hact
  split at hact
  · next volume hvolume =>
    rw [← (Prod.mk.inj (Except.ok.inj hact)).2]
    exact done disk volume hdisk hvolume
  · exact absurd hact (by simp)

theorem readStep_triple {α : Type} {look : IoAnswer → FileTree → Except FsError α} {P : Disk → Prop}
    {Q : α → Disk → Prop} (ticks : ∀ disk, P disk → P { disk with clock := disk.clock + 1 })
    (done : ∀ disk answer value, P disk → look answer disk.volume.tree = .ok value → Q value disk) :
    Triple P (readStep oracle look) Q P := by
  refine ioStep_triple ticks (fun _ h => h) (fun _ _ h => h) ?_
  intro disk answer value next hdisk hact
  split at hact
  · next found hfound =>
    obtain ⟨hvalue, hnext⟩ := Prod.mk.inj (Except.ok.inj hact)
    rw [← hvalue, ← hnext]
    exact done disk answer found hdisk hfound
  · exact absurd hact (by simp)

theorem syncPath_keeps : Keeps (Has I) (syncPath oracle path) := by
  refine volumeStep_triple (fun _ h => h) (fun _ h => h) ?_
  intro disk volume hdisk hsync
  have hshape : (disk.setVolume volume).shape = disk.shape := by
    unfold Disk.shape Disk.setVolume
    rw [(Volume.sync_ok hsync).1]
  rw [Has, hshape]
  exact hdisk

theorem setVolume_update {disk : Disk} {volume : Volume} {e : Option Entry}
    (h : volume.tree.entry = Function.update disk.volume.tree.entry path e) :
    (disk.setVolume volume).shape = disk.shape.update path e := by
  unfold Disk.shape Disk.setVolume Shape.update
  rw [h]

theorem createFile_triple (guards : Guards I A) (free : FreeFile A path) :
    Triple (Has I) (volumeStep oracle fun volume => volume.createFile path)
      (fun _ => Has fun σ => I σ ∧ ∃ old, σ.entry path = some (.file old)) (Has I) := by
  refine volumeStep_triple (fun _ h => h) (fun _ h => h) ?_
  intro disk volume hdisk hcreate
  have hshape := setVolume_update (Volume.createFile_ok hcreate).2.1
  rw [Has, hshape]
  exact ⟨guards _ _ _ hdisk (free _ _), [], Function.update_self ..⟩

theorem writeStep_triple (guards : Guards I A) (free : FreeFile A path) :
    Triple (Has I) (writeStep oracle path data)
      (fun _ => Has fun σ => I σ ∧ σ.entry path = some (.file data)) (Has I) := by
  refine ioStep_triple (fun _ h => h) (fun _ h => h) ?_ ?_
  · intro disk answer hdisk
    split
    · next volume hwrite =>
      rw [Has, setVolume_update (Volume.writeFile_ok hwrite).2.1]
      exact guards _ _ _ hdisk (free _ _)
    · exact hdisk
  · intro disk answer value next hdisk hact
    split at hact
    · next volume hwrite =>
      rw [← (Prod.mk.inj (Except.ok.inj hact)).2, Has,
        setVolume_update (Volume.writeFile_ok hwrite).2.1]
      exact ⟨guards _ _ _ hdisk (free _ _), Function.update_self ..⟩
    · exact absurd hact (by simp)

theorem fsWrite_triple (guards : Guards I A) (free : FreeFile A path) :
    Triple (Has I) (fsWrite oracle path data)
      (fun _ => Has fun σ => I σ ∧ σ.entry path = some (.file data)) (Has I) := by
  refine Triple.bind ((createFile_triple guards free).post fun _ _ h => h.1) fun _ => ?_
  exact writeStep_triple guards free

theorem removeFile_keeps (guards : Guards I A) (free : FreeFile A path) :
    Keeps (Has I) (removeFile oracle path) := by
  refine volumeStep_triple (fun _ h => h) (fun _ h => h) ?_
  intro disk volume hdisk hremove
  rw [Has, setVolume_update (Volume.removeFile_ok hremove).2.1]
  exact guards _ _ _ hdisk (free _ _)

theorem removeTemporary_keeps (guards : Guards I A) (free : FreeFile A path) :
    Keeps (Has I) (removeTemporary oracle path) := by
  refine Keeps.bind (Keeps.attempt (removeFile_keeps guards free)) fun result => ?_
  rcases result with failure | ⟨⟩
  · simp only
    split_ifs
    · exact Keeps.pure _
    · exact Keeps.throw _
  · exact Keeps.pure _

theorem renamePath_triple {P : Shape → Prop} (guards : Guards I A) (free : FreeFile A path)
    (start : ∀ σ, P σ → I σ ∧ σ.entry path = some (.file data))
    (takes : ∀ σ, P σ → σ.entry target ≠ some .dir →
      A (σ.update path none) target (some (.file data))) :
    Triple (Has P) (renamePath oracle path target)
      (fun _ => Has fun σ => I σ ∧ σ.entry target = some (.file data)) (Has I) := by
  refine volumeStep_triple (fun _ h => h) (fun _ h => (start _ h).1) ?_
  intro disk volume hdisk hrename
  obtain ⟨hkept, hwritten⟩ := start _ hdisk
  obtain ⟨found, hfound, hdir, hentry, -⟩ := Volume.renameFile_ok hrename
  have hdata : found = data := by
    have hsame := hfound.symm.trans hwritten
    exact Entry.file.inj (Option.some.inj hsame)
  have hshape : (disk.setVolume volume).shape =
      (disk.shape.update path none).update target (some (.file data)) := by
    unfold Disk.shape Disk.setVolume Shape.update
    rw [hentry, hdata]
  have hremoved : I (disk.shape.update path none) := guards _ _ _ hkept (free _ _)
  rw [Has, hshape]
  exact ⟨guards _ _ _ hremoved (takes _ hdisk hdir), Function.update_self ..⟩

theorem ensureDir_keeps (guards : Guards I A) (free : FreeDir A path) :
    Keeps (Has I) (ensureDir oracle path) := by
  refine volumeStep_triple (fun _ h => h) (fun _ h => h) ?_
  intro disk volume hdisk hmake
  split_ifs at hmake with hdir
  · rw [← Except.ok.inj hmake]
    exact hdisk
  · obtain ⟨hnone, hentry, -⟩ := Volume.makeDir_ok hmake
    rw [Has, setVolume_update hentry]
    exact guards _ _ _ hdisk (free _ hnone)

theorem createDirAll_keeps (guards : Guards I A) {parent rest : Path}
    (free : ∀ later, later ≠ [] → later <+: rest → FreeDir A (parent ++ later)) :
    Keeps (Has I) (createDirAll oracle parent rest) := by
  induction rest generalizing parent with
  | nil => exact Keeps.pure _
  | cons name rest ih =>
    have hfirst : FreeDir A (parent ++ [name]) := free [name] (by simp) ⟨rest, rfl⟩
    refine Keeps.bind (ensureDir_keeps guards hfirst) fun _ => ih ?_
    intro later hne hlater
    have hdeeper := free (name :: later) (by simp) (List.cons_prefix_cons.mpr ⟨rfl, hlater⟩)
    rw [List.append_assoc, List.singleton_append]
    exact hdeeper

theorem temporaryPath_ne (hne : path ≠ []) : temporaryPath path ≠ path := by
  intro hsame
  unfold temporaryPath at hsame
  rw [List.getLast?_eq_some_getLast hne, Option.getD_some] at hsame
  have hlast := congrArg List.getLast? hsame
  rw [List.getLast?_concat, List.getLast?_eq_some_getLast hne, Option.some_inj] at hlast
  have hlength := congrArg String.length hlast
  rw [String.length_append] at hlength
  exact absurd hlength (by simp)

theorem copyFileAtomic_triple (guards : Guards I A) (free : FreeFile A (temporaryPath target))
    (takes : ∀ σ, I σ → A σ target (some (.file data))) :
    Triple (Has I) (copyFileAtomic oracle data target)
      (fun _ => Has fun σ => I σ ∧ σ.entry target = some (.file data)) (Has I) := by
  refine Triple.bind (removeTemporary_keeps guards free) fun _ => ?_
  refine Triple.bind (fsWrite_triple guards free) fun _ => ?_
  refine Triple.bind (Triple.conseq syncPath_keeps (fun _ h => h) (fun _ _ h => h) fun _ h => h.1)
    fun _ => ?_
  refine Triple.bind (renamePath_triple guards free (fun _ h => h) ?_)
    fun _ => Triple.pure fun _ h => h
  exact fun σ h _ => takes _ (guards _ _ _ h.1 (free _ _))

theorem copyFileAtomic_new (guards : Guards I A) (free : FreeFile A (temporaryPath target))
    (hne : target ≠ [])
    (takes : ∀ σ, I σ → σ.entry target = none → A σ target (some (.file data))) :
    Triple (Has fun σ => I σ ∧ σ.entry target = none) (copyFileAtomic oracle data target)
      (fun _ => Has fun σ => I σ ∧ σ.entry target = some (.file data)) (Has I) := by
  have htemporary := temporaryPath_ne hne
  have hfree := FreeFile.except free htemporary
  have hguards : Guards (fun σ => I σ ∧ σ.entry target = none) _ := guards.except
  refine Triple.bind (Triple.conseq (removeTemporary_keeps hguards hfree) (fun _ h => h)
    (fun _ _ h => h) fun _ h => h.1) fun _ => ?_
  refine Triple.bind (Triple.conseq (fsWrite_triple hguards hfree) (fun _ h => h)
    (fun _ _ h => h) fun _ h => h.1) fun _ => ?_
  refine Triple.bind (Triple.conseq syncPath_keeps (fun _ h => h) (fun _ _ h => h)
    fun _ h => h.1.1) fun _ => ?_
  refine Triple.bind (renamePath_triple guards free (fun σ h => ⟨h.1.1, h.2⟩) ?_)
    fun _ => Triple.pure fun _ h => h
  intro σ h _
  refine takes _ (guards _ _ _ h.1.1 (free _ _)) ?_
  rw [Shape.entry_update_ne σ none htemporary.symm]
  exact h.1.2

end

theorem temporaryPath_concat (path : Path) (name : String) :
    temporaryPath (path ++ [name]) = path ++ [name ++ ".rrjj-sync-tmp"] := by
  unfold temporaryPath
  rw [List.dropLast_concat, List.getLast?_concat, Option.getD_some]

theorem isHex_temporary (name : String) : isHex (name ++ ".rrjj-sync-tmp") = false := by
  unfold isHex
  rw [Bool.and_eq_false_iff]
  apply Or.inr
  rw [List.all_eq_false]
  refine ⟨'.', ?_, by decide⟩
  rw [String.toList_append]
  exact List.mem_append_right _ (by decide)

theorem rsplitDot_temporary (name : String) :
    ∃ stem, rsplitDot (name ++ ".rrjj-sync-tmp") = some (stem, "rrjj-sync-tmp") := by
  have hsuffix : (".rrjj-sync-tmp".toList) = '.' :: "rrjj-sync-tmp".toList := by decide
  have hone : "rrjj-sync-tmp".toList.splitOn '.' = ["rrjj-sync-tmp".toList] :=
    List.splitOn_eq_singleton (by decide)
  have hsplit : (name ++ ".rrjj-sync-tmp").toList.splitOn '.' =
      name.toList.splitOn '.' ++ ["rrjj-sync-tmp".toList] := by
    rw [String.toList_append, hsuffix, List.splitOn_append_cons_self, hone]
  unfold rsplitDot
  rw [hsplit, List.reverse_append, List.reverse_singleton, List.singleton_append]
  rcases hstems : (name.toList.splitOn '.').reverse with _ | ⟨stem, stems⟩
  · exact absurd (List.reverse_eq_nil_iff.mp hstems) (List.splitOn_ne_nil _ _)
  · refine ⟨String.ofList ((stem :: stems).reverse.intersperse ['.']).flatten, ?_⟩
    simp only [String.ofList_toList]

theorem temporary_mutable (relative : Path) (name : String) :
    isImmutableRepositoryFile (relative ++ [name ++ ".rrjj-sync-tmp"]) = false := by
  generalize hpath : relative ++ [name ++ ".rrjj-sync-tmp"] = path
  have hlast : path.getLast? = some (name ++ ".rrjj-sync-tmp") := by
    rw [← hpath, List.getLast?_concat]
  have hhex := isHex_temporary name
  unfold isImmutableRepositoryFile
  split
  · next kind object =>
    have hobject : object = name ++ ".rrjj-sync-tmp" := Option.some.inj hlast
    rw [hobject, hhex, Bool.and_false]
  · next kind object =>
    have hobject : object = name ++ ".rrjj-sync-tmp" := Option.some.inj hlast
    rw [hobject, hhex, Bool.and_false]
  · next fanout object =>
    have hobject : object = name ++ ".rrjj-sync-tmp" := Option.some.inj hlast
    obtain ⟨stem, hsplit⟩ := rsplitDot_temporary name
    have hpack : isImmutableGitPackFile (name ++ ".rrjj-sync-tmp") = false := by
      unfold isImmutableGitPackFile
      rw [hsplit]
      simp only
      split
      · simp
      · rfl
    rw [hobject, hhex, hpack, Bool.and_false, Bool.and_false, Bool.or_false]
  · rfl

structure RepoFree (A : Shape → Path → Option Entry → Prop) : Prop where
  mutable : ∀ relative, isImmutableRepositoryFile relative = false → FreeFile A (repoPath ++ relative)
  immutable : ∀ relative data σ, σ.entry (repoPath ++ relative) = none →
    A σ (repoPath ++ relative) (some (.file data))
  dirs : ∀ path, FreeDir A ("store" :: path)

section
variable {oracle : IoOracle} {I : Shape → Prop} {A : Shape → Path → Option Entry → Prop}
  {relative path : Path} {data : Bytes} {name : String}

abbrev Holding (I : Shape → Prop) (s : Publishing) : Prop := I s.disk.shape

theorem onDisk_triple {α : Type} {m : DiskTask α} {J : α → Shape → Prop} {K : Shape → Prop}
    (h : Triple (Has I) m (fun a => Has (J a)) (Has K)) :
    Triple (Holding I) (onDisk m) (fun a => Holding (J a)) (Holding K) :=
  h.zoom (fun _ hs => hs) (fun _ _ _ _ hj => hj) fun _ _ _ hk => hk

theorem onDisk_keeps {α : Type} {m : DiskTask α} (h : Keeps (Has I) m) :
    Keeps (Holding I) (onDisk m) :=
  onDisk_triple (J := fun _ => I) h

theorem count_keeps (f : DirectorySyncStats → DirectorySyncStats) : Keeps (Holding I) (count f) :=
  Keeps.modify fun _ h => h

theorem markDirty_keeps (path : Path) : Keeps (Holding I) (markDirty path) :=
  Keeps.modify fun _ h => h

theorem pathExists_keeps (path : Path) : Keeps (Holding I) (pathExists path) :=
  Keeps.get fun _ _ => Keeps.pure _

theorem readStep_keeps {α : Type} {look : IoAnswer → FileTree → Except FsError α} :
    Keeps (Has I) (readStep oracle look) :=
  readStep_triple (fun _ h => h) fun _ _ _ h _ => h

theorem temporary_free (free : RepoFree A) :
    FreeFile A (temporaryPath (repoPath ++ (relative ++ [name]))) := by
  rw [← List.append_assoc, temporaryPath_concat, List.append_assoc]
  exact free.mutable _ (temporary_mutable relative name)

theorem linkOrCopy_triple (guards : Guards I A) (free : FreeFile A path) :
    Triple (Holding I) (linkOrCopy oracle data path)
      (fun _ => Holding fun σ => I σ ∧ σ.entry path = some (.file data)) (Holding I) := by
  have hlink : Triple (Has I) (hardLink oracle data path)
      (fun _ => Has fun σ => I σ ∧ σ.entry path = some (.file data)) (Has I) := by
    unfold hardLink
    split
    · refine volumeStep_triple (fun _ h => h) (fun _ h => h) ?_
      intro disk volume hdisk hlinked
      rw [Has, setVolume_update (Volume.linkFile_ok hlinked).2.1]
      exact ⟨guards _ _ _ hdisk (free _ _), Function.update_self ..⟩
    · exact Triple.throw fun _ h => h
  refine Triple.bind (Triple.attempt (onDisk_triple hlink)) fun result => ?_
  rcases result with failure | ⟨⟩
  · refine Triple.bind (onDisk_triple (fsWrite_triple guards free)) fun _ => ?_
    have hwritten : ∀ f, Triple
        (Holding fun σ => I σ ∧ σ.entry path = some (.file data)) (count f)
        (fun _ => Holding fun σ => I σ ∧ σ.entry path = some (.file data)) (Holding I) :=
      fun f => Triple.modify fun _ h => h
    refine Triple.bind (hwritten _) fun _ => ?_
    refine Triple.bind (Triple.conseq (onDisk_keeps syncPath_keeps) (fun _ h => h) (fun _ _ h => h)
      fun _ h => h.1) fun _ => hwritten _
  · exact Triple.modify fun _ h => h

theorem pathExists_triple (path : Path) : Triple (Holding I) (pathExists path)
    (fun found => Holding fun σ => I σ ∧ (σ.entry path).isSome = found) (Holding I) := by
  refine Triple.get fun s hs => Triple.pure ?_
  rintro u rfl
  exact ⟨hs, rfl⟩

theorem syncImmutableFile_keeps (guards : Guards I A) (free : RepoFree A) :
    Keeps (Holding I) (syncImmutableFile oracle data (repoPath ++ (relative ++ [name]))) := by
  refine Triple.bind (pathExists_triple _) fun found => ?_
  cases found with
  | true => exact (count_keeps _).conseq (fun _ h => h.1) (fun _ _ h => h) fun _ h => h
  | false =>
    have hfree : FreeFile A (temporaryPath (repoPath ++ (relative ++ [name]))) := temporary_free free
    have hne : temporaryPath (repoPath ++ (relative ++ [name])) ≠ repoPath ++ (relative ++ [name]) :=
      temporaryPath_ne (by simp)
    have hguards : Guards (fun σ => I σ ∧ σ.entry (repoPath ++ (relative ++ [name])) = none) _ :=
      guards.except
    have hexcept := FreeFile.except hfree hne
    refine Triple.bind (Q := fun _ => Holding fun σ =>
      I σ ∧ σ.entry (repoPath ++ (relative ++ [name])) = none) ?_ fun _ => ?_
    · refine (onDisk_keeps (removeTemporary_keeps hguards hexcept)).conseq ?_ (fun _ _ h => h)
        fun _ h => h.1
      exact fun _ h => ⟨h.1, Option.isNone_iff_eq_none.mp (by simpa using h.2)⟩
    refine Triple.bind ((linkOrCopy_triple hguards hexcept).conseq (fun _ h => h) (fun _ _ h => h)
      fun _ h => h.1) fun _ => ?_
    refine Triple.bind (Q := fun _ => Holding I) ?_ fun _ => markDirty_keeps _
    refine Triple.post (onDisk_triple (renamePath_triple guards hfree
      (fun σ h => ⟨h.1.1, h.2⟩) ?_)) fun _ _ h => h.1
    intro σ h _
    refine free.immutable _ data _ ?_
    rw [Shape.entry_update_ne σ none hne.symm]
    exact h.1.2

theorem syncMutableFile_keeps (guards : Guards I A) (free : RepoFree A)
    (mutable : isImmutableRepositoryFile (relative ++ [name]) = false) :
    Keeps (Holding I) (syncMutableFile oracle data (repoPath ++ (relative ++ [name]))) := by
  have hcompare : Keeps (Holding I) (upToDate oracle data (repoPath ++ (relative ++ [name]))) := by
    refine Keeps.bind (pathExists_keeps _) fun found => ?_
    cases found with
    | true => exact onDisk_keeps readStep_keeps
    | false => exact Keeps.pure _
  refine Keeps.bind hcompare fun same => ?_
  cases same with
  | true => exact count_keeps _
  | false =>
    refine Keeps.bind (pathExists_keeps _) fun replacing => ?_
    have hcopy : Triple (Has I) (copyFileAtomic oracle data (repoPath ++ (relative ++ [name])))
        (fun _ => Has fun σ => I σ ∧ σ.entry (repoPath ++ (relative ++ [name])) = some (.file data))
        (Has I) :=
      copyFileAtomic_triple guards (temporary_free free)
        fun σ _ => free.mutable _ mutable σ _
    refine Triple.bind (Triple.post (onDisk_triple hcopy) fun _ _ h => h.1) fun _ => ?_
    exact Keeps.bind (count_keeps _) fun _ => markDirty_keeps _

theorem createDestination_keeps (guards : Guards I A) (free : RepoFree A) :
    Keeps (Holding I) (createDestination oracle (repoPath ++ relative)) := by
  refine Keeps.bind (pathExists_keeps _) fun found => ?_
  cases found with
  | true => exact Keeps.pure _
  | false =>
    have hmake : Keeps (Has I) (createDirAll oracle [] (repoPath ++ relative)) := by
      refine createDirAll_keeps guards ?_
      intro later hne hlater
      obtain ⟨first, later, rfl⟩ := List.exists_cons_of_ne_nil hne
      have hstore : first = "store" := (List.cons_prefix_cons.mp hlater).1
      rw [List.nil_append, hstore]
      exact free.dirs later
    refine Keeps.bind (onDisk_keeps hmake) fun _ => ?_
    exact Keeps.bind (markDirty_keeps _) fun _ => markDirty_keeps _

theorem removeLoop_keeps (guards : Guards I A) (free : RepoFree A) (sourceNames names : List String) :
    Keeps (Holding I) (removeLoop oracle (repoPath ++ relative) relative sourceNames names) := by
  induction names with
  | nil => exact Keeps.pure _
  | cons name rest ih =>
    refine Keeps.bind (onDisk_keeps readStep_keeps) fun _ => ?_
    split
    · exact ih
    refine Keeps.bind (onDisk_keeps readStep_keeps) fun isFile => ?_
    split
    · next hdropped =>
      have hmutable : isImmutableRepositoryFile (relative ++ [name]) = false := by
        rw [Bool.and_eq_true, Bool.not_eq_true'] at hdropped
        exact hdropped.2
      have hfree : FreeFile A (repoPath ++ relative ++ [name]) := by
        rw [List.append_assoc]
        exact free.mutable _ hmutable
      refine Keeps.bind (onDisk_keeps (removeFile_keeps guards hfree)) fun _ => ?_
      exact Keeps.bind (count_keeps _) fun _ => Keeps.bind (markDirty_keeps _) fun _ => ih
    · exact ih

theorem syncDirectoryWith_keeps (guards : Guards I A) (free : RepoFree A) {entries : SyncTask Unit}
    (sourceNames : List String) (synced : Keeps (Holding I) entries) :
    Keeps (Holding I)
      (syncDirectoryWith oracle (repoPath ++ relative) relative sourceNames entries) := by
  refine Keeps.bind (createDestination_keeps guards free) fun _ => ?_
  refine Keeps.bind (onDisk_keeps readStep_keeps) fun _ => ?_
  refine Keeps.bind synced fun _ => ?_
  exact Keeps.bind (onDisk_keeps readStep_keeps) fun names => removeLoop_keeps guards free _ names

theorem syncEntries_keeps (guards : Guards I A) (free : RepoFree A) (source : Listing) :
    Keeps (Holding I) (syncEntries oracle (repoPath ++ relative) relative source) := by
  induction source generalizing relative with
  | done => exact Keeps.pure _
  | file name data rest ih =>
    refine Keeps.bind (onDisk_keeps readStep_keeps) fun _ => ?_
    refine Keeps.bind ?_ fun _ => ih
    rw [List.append_assoc]
    unfold syncRepositoryFile
    split
    · exact syncImmutableFile_keeps guards free
    · next hmutable => exact syncMutableFile_keeps guards free (Bool.not_eq_true _ ▸ hmutable)
  | dir name entries rest ihEntries ihRest =>
    refine Keeps.bind (onDisk_keeps readStep_keeps) fun _ => ?_
    refine Keeps.bind ?_ fun _ => ihRest
    rw [List.append_assoc]
    exact syncDirectoryWith_keeps guards free _ ihEntries
  | symlink name rest =>
    exact Keeps.bind (onDisk_keeps readStep_keeps) fun _ => Keeps.throw _
  | other name rest ih =>
    exact Keeps.bind (onDisk_keeps readStep_keeps) fun _ => ih

theorem syncDirectories_keeps (paths : List Path) : Keeps (Has I) (syncDirectories oracle paths) := by
  induction paths with
  | nil => exact Keeps.pure _
  | cons path rest ih => exact Keeps.bind syncPath_keeps fun _ => ih

theorem publishRepository_keeps (guards : Guards I A) (free : RepoFree A) (source : Listing) :
    Keeps (Holding I) (publishRepository oracle source) := by
  have hstore : Keeps (Holding I) (createStore oracle) := by
    refine Keeps.bind (pathExists_keeps _) fun found => ?_
    cases found with
    | true => exact Keeps.pure _
    | false =>
      have hfree : FreeDir A ([] ++ ["store"]) := free.dirs []
      have hmake : Keeps (Has I) (createDirAll oracle [] storePath) :=
        Keeps.bind (ensureDir_keeps guards hfree) fun _ => Keeps.pure _
      refine Keeps.bind (onDisk_keeps hmake) fun _ => ?_
      exact Keeps.bind (markDirty_keeps _) fun _ => markDirty_keeps _
  refine Keeps.bind hstore fun _ => ?_
  have hentries : Keeps (Holding I) (syncEntries oracle (repoPath ++ []) [] source) :=
    syncEntries_keeps guards free source
  refine Keeps.bind (syncDirectoryWith_keeps guards free _ hentries) fun _ => ?_
  exact Keeps.get fun _ _ => onDisk_keeps (syncDirectories_keeps _)

end

end Rrjj
