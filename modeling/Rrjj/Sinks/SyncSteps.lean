import Rrjj.Sinks.Shadow

/-! What the steps of a sync leave at every path, and when they do not fail: a temporary file, a
file, the directory of a destination and what is removed from it. -/

namespace Rrjj
open Library Library.Proc

def IoOracle.Calm (oracle : IoOracle) : Prop :=
  oracle.horizon = none ∧ ∀ n, (oracle.answers n).error = none

def Lies (E : Path → Option Entry) (disk : Disk) : Prop := disk.volume.tree.entry = E

section
variable {oracle : IoOracle} {E : Path → Option Entry} {path target : Path} {data : Bytes} {X : Prop}
  {value : Option Entry}

theorem ioStep_fits {α : Type} {act : IoAnswer → Disk → Except IoError (α × Disk)}
    {broken : IoAnswer → Disk → Disk} {P : Disk → Prop} {Q : α → Disk → Prop} (calm : X → oracle.Calm)
    (ticks : ∀ disk, P disk → P { disk with clock := disk.clock + 1 })
    (done : ∀ disk answer value next, P disk → act answer disk = .ok (value, next) → Q value next)
    (stop : ∀ disk answer failure, P disk → act answer disk = .error failure → ¬ X) :
    Triple P (ioStep oracle act broken) Q fun _ => ¬ X := by
  intro disk hdisk
  have hticked := ticks disk hdisk
  unfold ioStep
  simp only
  split_ifs with hcut
  · intro hX
    rw [(calm hX).1] at hcut
    exact absurd hcut (by simp)
  split
  · next failure hfailure =>
    intro hX
    rw [(calm hX).2] at hfailure
    exact nomatch hfailure
  · split
    · next value next hact => exact done _ _ value next hticked hact
    · next failure hact => exact stop _ _ failure hticked hact

theorem volumeStep_lies {act : Volume → Except FsError Volume} {E' : Path → Option Entry} {K : Prop}
    (calm : X → oracle.Calm)
    (done : ∀ v v', v.tree.entry = E → act v = .ok v' → v'.tree.entry = E' ∧ K)
    (returns : ∀ v, v.tree.entry = E → X → ∃ v', act v = .ok v') :
    Triple (Lies E) (volumeStep oracle act) (fun _ disk => Lies E' disk ∧ K) fun _ => ¬ X := by
  refine ioStep_fits calm (fun _ h => h) ?_ ?_
  · intro disk answer value next hdisk hact
    split at hact
    · next volume hvolume =>
      rw [← (Prod.mk.inj (Except.ok.inj hact)).2]
      exact done disk.volume volume hdisk hvolume
    · exact absurd hact (by simp)
  · intro disk answer failure hdisk hact hX
    obtain ⟨volume, hvolume⟩ := returns disk.volume hdisk hX
    rw [hvolume] at hact
    exact absurd hact (by simp)

theorem readStep_lies {α : Type} {look : IoAnswer → FileTree → Except FsError α} {Q : α → Prop}
    (calm : X → oracle.Calm)
    (done : ∀ answer t value, t.entry = E → look answer t = .ok value → Q value)
    (returns : ∀ answer t, t.entry = E → X → ∃ value, look answer t = .ok value) :
    Triple (Lies E) (readStep oracle look) (fun value disk => Lies E disk ∧ Q value) fun _ => ¬ X := by
  refine ioStep_fits calm (fun _ h => h) ?_ ?_
  · intro disk answer value next hdisk hact
    split at hact
    · next found hfound =>
      obtain ⟨hvalue, hnext⟩ := Prod.mk.inj (Except.ok.inj hact)
      rw [← hvalue, ← hnext]
      exact ⟨hdisk, done answer _ found hdisk hfound⟩
    · exact absurd hact (by simp)
  · intro disk answer failure hdisk hact hX
    obtain ⟨value, hvalue⟩ := returns answer disk.volume.tree hdisk hX
    rw [hvalue] at hact
    exact absurd hact (by simp)

theorem syncPath_lies (fits : X → oracle.Calm ∧ E path ≠ none) :
    Triple (Lies E) (syncPath oracle path) (fun _ => Lies E) fun _ => ¬ X := by
  have hstep : Triple (Lies E) (syncPath oracle path) (fun _ disk => Lies E disk ∧ True)
      fun _ => ¬ X := by
    refine volumeStep_lies (fun hX => (fits hX).1) ?_ ?_
    · intro v v' hv hsync
      rw [(Volume.sync_ok hsync).1]
      exact ⟨hv, trivial⟩
    · intro v hv hX
      apply Volume.sync_returns
      rw [hv]
      exact (fits hX).2
  exact hstep.post fun _ _ h => h.1

theorem removeFile_lies (fits : X → oracle.Calm ∧ ∃ old, E path = some (.file old)) :
    Triple (Lies E) (removeFile oracle path)
      (fun _ disk => Lies (Function.update E path none) disk ∧ E path ≠ some .dir) fun _ => ¬ X := by
  refine volumeStep_lies (fun hX => (fits hX).1) ?_ ?_
  · intro v v' hv hremove
    obtain ⟨⟨old, hold⟩, hentry, -⟩ := Volume.removeFile_ok hremove
    rw [hv] at hold hentry
    exact ⟨hentry, by rw [hold]; simp⟩
  · intro v hv hX
    obtain ⟨old, hold⟩ := (fits hX).2
    rw [← hv] at hold
    exact Volume.removeFile_returns hold

theorem renamePath_lies (fits : X → oracle.Calm ∧ E target.dropLast = some .dir ∧ E target ≠ some .dir)
    (hfile : E path = some (.file data)) :
    Triple (Lies E) (renamePath oracle path target)
      (fun _ disk =>
        Lies (Function.update (Function.update E path none) target (some (.file data))) disk ∧
          E target ≠ some .dir) fun _ => ¬ X := by
  refine volumeStep_lies (fun hX => (fits hX).1) ?_ ?_
  · intro v v' hv hrename
    obtain ⟨found, hfound, hdir, hentry, -⟩ := Volume.renameFile_ok hrename
    rw [hv] at hfound hdir hentry
    rw [← Entry.file.inj (Option.some.inj (hfile.symm.trans hfound))] at hentry
    exact ⟨hentry, hdir⟩
  · intro v hv hX
    obtain ⟨-, hparent, hdir⟩ := fits hX
    rw [← hv] at hparent hdir hfile
    exact Volume.renameFile_returns hfile hparent hdir

theorem fsWrite_lies (fits : X → oracle.Calm ∧ E path.dropLast = some .dir ∧ E path ≠ some .dir) :
    Triple (Lies E) (fsWrite oracle path data)
      (fun _ disk => Lies (Function.update E path (some (.file data))) disk ∧ E path ≠ some .dir)
      fun _ => ¬ X := by
  have hcreate : Triple (Lies E) (volumeStep oracle fun volume => volume.createFile path)
      (fun _ disk => Lies (Function.update E path (some (.file []))) disk ∧ E path ≠ some .dir)
      fun _ => ¬ X := by
    refine volumeStep_lies (fun hX => (fits hX).1) ?_ ?_
    · intro v v' hv hcreate
      obtain ⟨hdir, hentry, -⟩ := Volume.createFile_ok hcreate
      rw [hv] at hdir hentry
      exact ⟨hentry, hdir⟩
    · intro v hv hX
      obtain ⟨-, hparent, hdir⟩ := fits hX
      rw [← hv] at hparent hdir
      exact Volume.createFile_returns hparent hdir
  refine Triple.bind hcreate fun _ => ?_
  refine ioStep_fits (fun hX => (fits hX).1) (fun _ h => h) ?_ ?_
  · intro disk answer value next hdisk hact
    split at hact
    · next volume hwrite =>
      have hentry := (Volume.writeFile_ok hwrite).2.1
      rw [← (Prod.mk.inj (Except.ok.inj hact)).2]
      refine ⟨?_, hdisk.2⟩
      rw [hdisk.1, Function.update_idem] at hentry
      exact hentry
    · exact absurd hact (by simp)
  · intro disk answer failure hdisk hact _
    have hfile : disk.volume.tree.entry path = some (.file []) := by
      rw [hdisk.1, Function.update_self]
    have hreturns : ∃ v', disk.volume.writeFile path data = .ok v' := Volume.writeFile_returns hfile
    obtain ⟨volume, hvolume⟩ := hreturns
    rw [hvolume] at hact
    exact absurd hact (by simp)

def TemporaryGone (E : Path → Option Entry) (path : Path) (E' : Path → Option Entry) : Prop :=
  E' = E ∨ E' = Function.update E path none ∧ E path ≠ some .dir

theorem attempt_volumeStep_lies {act : Volume → Except FsError Volume} {Q : Disk → Prop}
    (calm : X → oracle.Calm)
    (done : ∀ disk volume, Lies E disk → act disk.volume = .ok volume → Q (disk.setVolume volume)) :
    Triple (Lies E) (attempt (volumeStep oracle act))
      (fun result disk => match result with
        | .ok () => Q disk
        | .error failure => Lies E disk ∧
            (X → ∃ reason, act disk.volume = .error reason ∧ failure = ioError reason))
      fun _ => ¬ X := by
  intro disk hdisk
  unfold volumeStep ioStep attempt
  simp only
  split_ifs with hcut
  · intro hX
    rw [(calm hX).1] at hcut
    exact absurd hcut (by simp)
  rcases hfailure : (oracle.answers disk.clock).error with _ | failure
  · simp only
    rcases hact : act disk.volume with reason | volume
    · exact ⟨hdisk, fun _ => ⟨reason, hact, rfl⟩⟩
    · exact done { disk with clock := disk.clock + 1 } volume hdisk hact
  · refine ⟨hdisk, fun hX => ?_⟩
    rw [(calm hX).2] at hfailure
    cases hfailure

theorem removeTemporary_lies
    (fits : X → oracle.Calm ∧ E path.dropLast = some .dir ∧ E path ≠ some .dir) :
    Triple (Lies E) (removeTemporary oracle path)
      (fun _ disk => TemporaryGone E path disk.volume.tree.entry) fun _ => ¬ X := by
  have hremove : Triple (Lies E) (attempt (removeFile oracle path)) _ fun _ => ¬ X :=
    attempt_volumeStep_lies (Q := fun disk => TemporaryGone E path disk.volume.tree.entry)
      (fun hX => (fits hX).1) (by
        intro disk volume hdisk hremoved
        obtain ⟨⟨old, hold⟩, hentry, -⟩ := Volume.removeFile_ok hremoved
        rw [hdisk] at hold hentry
        exact Or.inr ⟨hentry, by rw [hold]; simp⟩)
  refine Triple.bind hremove fun result => ?_
  cases result with
  | ok done => exact Triple.pure fun _ h => h
  | error failure =>
    simp only
    split_ifs with hcode
    · exact Triple.pure fun _ h => Or.inl h.1
    · refine Triple.throw fun disk h hX => ?_
      obtain ⟨hdisk, hreason⟩ := h
      obtain ⟨reason, hremoved, rfl⟩ := hreason hX
      obtain ⟨-, hparent, hdir⟩ := fits hX
      rw [← hdisk] at hparent hdir
      rcases hentry : disk.volume.tree.entry path with _ | ⟨old⟩ | _
      · rw [Volume.removeFile_notFound hparent hentry] at hremoved
        rw [← Except.error.inj hremoved] at hcode
        exact hcode rfl
      · obtain ⟨volume, hvolume⟩ := Volume.removeFile_returns hentry
        rw [hvolume] at hremoved
        exact absurd hremoved (by simp)
      · exact hdir hentry

structure FilePut (destination : Path) (value : Option Entry) (E E' : Path → Option Entry) : Prop where
  here : E' destination = value
  elsewhere : ∀ path, path ≠ destination →
    E' path = E path ∨ path = temporaryPath destination ∧ E path ≠ some .dir ∧ E' path = none

theorem FilePut.same (h : E path = value) : FilePut path value E E := ⟨h, fun _ _ => Or.inl rfl⟩

theorem FilePut.of_rename {F : Path → Option Entry} (cleared : TemporaryGone E (temporaryPath path) F)
    (hdir : F (temporaryPath path) ≠ some .dir) :
    FilePut path value E (Function.update (Function.update
      (Function.update F (temporaryPath path) (some (.file data))) (temporaryPath path) none)
      path value) := by
  refine ⟨Function.update_self .., fun other hother => ?_⟩
  rw [Function.update_of_ne hother]
  by_cases hpath : other = temporaryPath path
  · apply Or.inr
    rw [hpath, Function.update_self]
    refine ⟨rfl, ?_, rfl⟩
    rcases cleared with rfl | ⟨-, hne⟩
    · exact hdir
    · exact hne
  · apply Or.inl
    rw [Function.update_of_ne hpath, Function.update_of_ne hpath]
    rcases cleared with rfl | ⟨rfl, -⟩
    · rfl
    · exact Function.update_of_ne hpath _ _

structure Room (oracle : IoOracle) (E : Path → Option Entry) (path : Path) : Prop where
  calm : oracle.Calm
  parent : E path.dropLast = some .dir
  temporary : E (temporaryPath path) ≠ some .dir
  place : E path ≠ some .dir

theorem temporaryPath_dropLast (path : Path) : (temporaryPath path).dropLast = path.dropLast := by
  unfold temporaryPath
  rw [List.dropLast_concat]

theorem temporaryPath_ne_dropLast (path : Path) : temporaryPath path ≠ path.dropLast := by
  intro hsame
  have hlength := congrArg List.length hsame
  unfold temporaryPath at hlength
  simp at hlength

theorem Room.cleared {F : Path → Option Entry} (room : Room oracle E path) (hne : path ≠ [])
    (cleared : TemporaryGone E (temporaryPath path) F) : Room oracle F path := by
  rcases cleared with rfl | ⟨rfl, -⟩
  · exact room
  · refine ⟨room.calm, ?_, ?_, ?_⟩
    · rw [Function.update_of_ne (temporaryPath_ne_dropLast path).symm]
      exact room.parent
    · rw [Function.update_self]
      simp
    · rw [Function.update_of_ne (temporaryPath_ne hne).symm]
      exact room.place

theorem renameTemporary_lies {F : Path → Option Entry} (hne : path ≠ [])
    (cleared : TemporaryGone E (temporaryPath path) F) (hdir : F (temporaryPath path) ≠ some .dir)
    (room : X → Room oracle E path) :
    Triple (Lies (Function.update F (temporaryPath path) (some (.file data))))
      (renamePath oracle (temporaryPath path) path)
      (fun _ disk => FilePut path (some (.file data)) E disk.volume.tree.entry ∧ E path ≠ some .dir)
      fun _ => ¬ X := by
  refine (renamePath_lies ?_ (Function.update_self ..)).post ?_
  · intro hX
    have hroom := (room hX).cleared hne cleared
    rw [Function.update_of_ne (temporaryPath_ne_dropLast path).symm,
      Function.update_of_ne (temporaryPath_ne hne).symm]
    exact ⟨hroom.calm, hroom.parent, hroom.place⟩
  rintro _ disk ⟨hdisk, hplace⟩
  rw [Function.update_of_ne (temporaryPath_ne hne).symm] at hplace
  rw [hdisk]
  refine ⟨FilePut.of_rename cleared hdir, ?_⟩
  rcases cleared with rfl | ⟨rfl, -⟩
  · exact hplace
  · rw [Function.update_of_ne (temporaryPath_ne hne).symm] at hplace
    exact hplace

theorem copyFileAtomic_lies (hne : path ≠ []) (room : X → Room oracle E path) :
    Triple (Lies E) (copyFileAtomic oracle data path)
      (fun _ disk => FilePut path (some (.file data)) E disk.volume.tree.entry ∧ E path ≠ some .dir)
      fun _ => ¬ X := by
  refine Triple.bind (removeTemporary_lies ?_) fun _ => Triple.of_start fun disk hcleared => ?_
  · intro hX
    rw [temporaryPath_dropLast]
    exact ⟨(room hX).calm, (room hX).parent, (room hX).temporary⟩
  generalize hF : disk.volume.tree.entry = F at hcleared
  have hwrite : Triple (fun d => d = disk) (fsWrite oracle (temporaryPath path) data)
      (fun _ d => Lies (Function.update F (temporaryPath path) (some (.file data))) d ∧
        F (temporaryPath path) ≠ some .dir) fun _ => ¬ X := by
    refine (fsWrite_lies ?_).pre (by rintro d rfl; exact hF)
    intro hX
    have hroom := (room hX).cleared hne hcleared
    rw [temporaryPath_dropLast]
    exact ⟨hroom.calm, hroom.parent, hroom.temporary⟩
  refine Triple.bind hwrite fun _ => Triple.of_start fun written hwritten => ?_
  obtain ⟨hwritten, hdir⟩ := hwritten
  refine Triple.bind (Q := fun _ => Lies (Function.update F (temporaryPath path) (some (.file data))))
    ((syncPath_lies ?_).pre (by rintro d rfl; exact hwritten)) fun _ => ?_
  · intro hX
    rw [Function.update_self]
    exact ⟨(room hX).calm, by simp⟩
  exact Triple.bind (renameTemporary_lies hne hcleared hdir room) fun _ => Triple.pure fun _ h => h

abbrev Lying (E : Path → Option Entry) (s : Publishing) : Prop := Lies E s.disk

theorem onDisk_lies {α : Type} {m : DiskTask α} {P : Disk → Prop} {Q : α → Disk → Prop}
    (h : Triple P m Q fun _ => ¬ X) :
    Triple (fun s => P s.disk) (onDisk m) (fun a s => Q a s.disk) fun _ => ¬ X :=
  h.zoom (fun _ hs => hs) (fun _ _ _ _ hq => hq) fun _ _ _ hr => hr

theorem attempt_onDisk {α : Type} (m : DiskTask α) : attempt (onDisk m) = onDisk (attempt m) := by
  refine ext_run fun s => ?_
  unfold attempt onDisk zoom
  simp only
  rcases m.run s.disk with ⟨a | failure | _, disk⟩ <;> rfl

theorem hardLink_lies (calm : X → oracle.Calm) :
    Triple (Lies E) (attempt (hardLink oracle data path))
      (fun result disk => match result with
        | .ok () => Lies (Function.update E path (some (.file data))) disk ∧ E path ≠ some .dir
        | .error _ => Lies E disk)
      fun _ => ¬ X := by
  unfold hardLink
  split
  · have hlink : Triple (Lies E) (attempt (volumeStep oracle fun volume => volume.linkFile data path))
        _ fun _ => ¬ X :=
      attempt_volumeStep_lies (Q := fun disk =>
        Lies (Function.update E path (some (.file data))) disk ∧ E path ≠ some .dir) calm (by
          intro disk volume hdisk hlinked
          obtain ⟨hnone, hentry, -⟩ := Volume.linkFile_ok hlinked
          rw [hdisk] at hnone hentry
          exact ⟨hentry, by rw [hnone]; simp⟩)
    refine hlink.post fun result disk h => ?_
    cases result with
    | ok done => exact h
    | error failure => exact h.1
  · exact fun _ h => h

theorem linkOrCopy_lies (fits : X → oracle.Calm ∧ E path.dropLast = some .dir ∧ E path ≠ some .dir) :
    Triple (Lying E) (linkOrCopy oracle data path)
      (fun _ s => Lying (Function.update E path (some (.file data))) s ∧ E path ≠ some .dir)
      fun _ => ¬ X := by
  unfold linkOrCopy
  rw [attempt_onDisk]
  refine Triple.bind (onDisk_lies (hardLink_lies fun hX => (fits hX).1)) fun result => ?_
  cases result with
  | ok done => exact Triple.modify fun _ h => h
  | error failure =>
    have hcount : ∀ f, Triple
        (fun s => Lying (Function.update E path (some (.file data))) s ∧ E path ≠ some .dir) (count f)
        (fun _ s => Lying (Function.update E path (some (.file data))) s ∧ E path ≠ some .dir)
        fun _ => ¬ X := fun f => Triple.modify fun _ h => h
    refine Triple.bind (onDisk_lies (fsWrite_lies fits)) fun _ => ?_
    refine Triple.bind (hcount _) fun _ => ?_
    refine Triple.bind ?_ fun _ => hcount _
    refine Triple.of_start fun written hwritten => ?_
    refine (onDisk_lies (syncPath_lies ?_)).conseq ?_ (fun _ _ h => ⟨h, hwritten.2⟩) fun _ h => h
    · intro hX
      rw [Function.update_self]
      exact ⟨(fits hX).1, by simp⟩
    · rintro s rfl
      exact hwritten.1

theorem pathExists_lies (path : Path) : Triple (Lying E) (pathExists path)
    (fun found s => Lying E s ∧ found = (E path).isSome) fun _ => ¬ X := by
  refine Triple.get fun s hs => Triple.pure ?_
  rintro u rfl
  exact ⟨hs, by rw [hs]⟩

theorem syncImmutableFile_lies (hne : path ≠ []) (room : X → E path = none → Room oracle E path) :
    Triple (Lying E) (syncImmutableFile oracle data path)
      (fun _ s => FilePut path (if (E path).isSome then E path else some (.file data)) E
        s.disk.volume.tree.entry) fun _ => ¬ X := by
  refine Triple.bind (pathExists_lies path) fun found => Triple.of_start fun s hs => ?_
  obtain ⟨hs, rfl⟩ := hs
  rcases hentry : E path with _ | e
  · rw [Option.isSome_none, if_neg (by simp)]
    refine Triple.bind (Q := fun _ u => TemporaryGone E (temporaryPath path) u.disk.volume.tree.entry)
      ((onDisk_lies (removeTemporary_lies ?_)).pre (by rintro u rfl; exact hs))
      fun _ => Triple.of_start fun u hcleared => ?_
    · intro hX
      rw [temporaryPath_dropLast]
      exact ⟨(room hX hentry).calm, (room hX hentry).parent, (room hX hentry).temporary⟩
    generalize hF : u.disk.volume.tree.entry = F at hcleared
    refine Triple.bind ((linkOrCopy_lies ?_).pre (by rintro v rfl; exact hF))
      fun _ => Triple.of_start fun v hwritten => ?_
    · intro hX
      have hroom := (room hX hentry).cleared hne hcleared
      rw [temporaryPath_dropLast]
      exact ⟨hroom.calm, hroom.parent, hroom.temporary⟩
    obtain ⟨hwritten, hdir⟩ := hwritten
    have hrename : Triple (Lies (Function.update F (temporaryPath path) (some (.file data)))) _ _ _ :=
      renameTemporary_lies hne hcleared hdir fun hX => room hX hentry
    refine Triple.bind ((onDisk_lies hrename).pre (by rintro w rfl; exact hwritten)) fun _ => ?_
    exact Triple.modify fun _ h => h.1
  · rw [Option.isSome_some, if_pos rfl]
    refine Triple.modify ?_
    rintro u rfl
    rw [hs]
    exact FilePut.same hentry

theorem upToDate_lies (fits : X → oracle.Calm ∧ E path ≠ some .dir) :
    Triple (Lying E) (upToDate oracle data path)
      (fun same s => Lying E s ∧ (same = true → E path = some (.file data)) ∧ E path ≠ some .dir)
      fun _ => ¬ X := by
  refine Triple.bind (pathExists_lies path) fun found => Triple.of_start fun s hs => ?_
  obtain ⟨hs, rfl⟩ := hs
  rcases hentry : E path with _ | e
  · refine Triple.pure ?_
    rintro u rfl
    exact ⟨hs, fun h => absurd h (by decide), by simp⟩
  · have hread : Triple (Lies E) (filesEqual oracle data path)
        (fun same disk => Lies E disk ∧
          ((same = true → some e = some (.file data)) ∧ some e ≠ some .dir)) fun _ => ¬ X := by
      refine readStep_lies (fun hX => (fits hX).1) ?_ ?_
      · intro answer t same ht hlook
        rw [ht, hentry] at hlook
        rcases e with ⟨other⟩ | _
        · refine ⟨fun hsame => ?_, by simp⟩
          rw [← Except.ok.inj hlook, decide_eq_true_eq] at hsame
          rw [hsame]
        · exact absurd hlook (by simp)
      · intro answer t ht hX
        rw [ht, hentry]
        rcases e with ⟨other⟩ | _
        · exact ⟨_, rfl⟩
        · exact absurd hentry (fits hX).2
    refine (onDisk_lies hread).pre ?_
    rintro u rfl
    exact hs

theorem syncMutableFile_lies (hne : path ≠ []) (room : X → Room oracle E path) :
    Triple (Lying E) (syncMutableFile oracle data path)
      (fun _ s => FilePut path (some (.file data)) E s.disk.volume.tree.entry ∧ E path ≠ some .dir)
      fun _ => ¬ X := by
  refine Triple.bind (upToDate_lies fun hX => ⟨(room hX).calm, (room hX).place⟩)
    fun same => Triple.of_start fun s hs => ?_
  obtain ⟨hs, hsame, hdir⟩ := hs
  cases same with
  | true =>
    refine Triple.modify ?_
    rintro u rfl
    refine ⟨?_, hdir⟩
    rw [hs]
    exact FilePut.same (hsame rfl)
  | false =>
    refine Triple.bind ((pathExists_lies path).pre (by rintro u rfl; exact hs)) fun replacing => ?_
    refine Triple.bind (Triple.pre (onDisk_lies (copyFileAtomic_lies hne room)) fun _ h => h.1)
      fun bytes => ?_
    refine Triple.bind (Q := fun _ u => FilePut path (some (.file data)) E u.disk.volume.tree.entry ∧
      E path ≠ some .dir) (Triple.modify fun _ h => h) fun _ => ?_
    exact Triple.modify fun _ h => h

theorem syncRepositoryFile_lies {relative : Path} (hne : path ≠ [])
    (calm : X → oracle.Calm ∧ E path.dropLast = some .dir ∧ E (temporaryPath path) ≠ some .dir)
    (place : X → isImmutableRepositoryFile relative = false → E path ≠ some .dir) :
    Triple (Lying E) (syncRepositoryFile oracle data path relative)
      (fun _ s => FilePut path (replaced relative data (E path)) E s.disk.volume.tree.entry ∧
        (isImmutableRepositoryFile relative = false → E path ≠ some .dir)) fun _ => ¬ X := by
  unfold syncRepositoryFile replaced
  split
  · next himmutable =>
    refine (syncImmutableFile_lies hne ?_).post ?_
    · intro hX hnone
      obtain ⟨hcalm, hparent, htemporary⟩ := calm hX
      exact ⟨hcalm, hparent, htemporary, by rw [hnone]; simp⟩
    · intro _ s h
      rw [himmutable, Bool.true_and]
      exact ⟨h, fun hmutable => absurd hmutable (by simp)⟩
  · next hmutable =>
    have hfalse : isImmutableRepositoryFile relative = false := Bool.not_eq_true _ ▸ hmutable
    refine (syncMutableFile_lies hne ?_).post ?_
    · intro hX
      obtain ⟨hcalm, hparent, htemporary⟩ := calm hX
      exact ⟨hcalm, hparent, htemporary, place hX hfalse⟩
    · intro _ s h
      rw [hfalse, Bool.false_and, if_neg (by simp)]
      exact ⟨h.1, fun _ => h.2⟩

theorem ensureDir_lies (calm : X → oracle.Calm) (parent : E path.dropLast = some .dir)
    (place : E path = none ∨ E path = some .dir) :
    Triple (Lies E) (ensureDir oracle path)
      (fun _ => Lies (Function.update E path (some .dir))) fun _ => ¬ X := by
  have hstep : Triple (Lies E) (ensureDir oracle path)
      (fun _ disk => Lies (Function.update E path (some .dir)) disk ∧ True) fun _ => ¬ X := by
    refine volumeStep_lies calm ?_ ?_
    · intro v v' hv hmake
      refine ⟨?_, trivial⟩
      rw [hv] at hmake
      split_ifs at hmake with hdir
      · rw [← hdir, Function.update_eq_self, ← Except.ok.inj hmake]
        exact hv
      · rw [(Volume.makeDir_ok hmake).2.1, hv]
    · intro v hv _
      rw [hv]
      split_ifs with hdir
      · exact ⟨_, rfl⟩
      · rw [← hv] at parent place hdir
        exact Volume.makeDir_returns parent (place.resolve_right hdir)
  exact hstep.post fun _ _ h => h.1

theorem createDirAll_lies {parent rest : Path} {name : String} (calm : X → oracle.Calm)
    (way : ∀ q, q <+: rest → E (parent ++ q) = some .dir) (place : E (parent ++ rest ++ [name]) = none) :
    Triple (Lies E) (createDirAll oracle parent (rest ++ [name]))
      (fun _ => Lies (Function.update E (parent ++ rest ++ [name]) (some .dir))) fun _ => ¬ X := by
  induction rest generalizing parent with
  | nil =>
    rw [List.append_nil] at place ⊢
    refine Triple.bind (ensureDir_lies calm ?_ (Or.inl place)) fun _ => Triple.pure fun _ h => h
    rw [List.dropLast_concat, ← List.append_nil parent]
    exact way [] List.nil_prefix
  | cons first rest ih =>
    have hfirst : E (parent ++ [first]) = some .dir :=
      way [first] (List.cons_prefix_cons.mpr ⟨rfl, List.nil_prefix⟩)
    have hpath : parent ++ first :: rest ++ [name] = parent ++ [first] ++ rest ++ [name] := by simp
    rw [hpath] at place ⊢
    refine Triple.bind (Q := fun _ => Lies E) ((ensureDir_lies calm ?_ (Or.inr hfirst)).post ?_)
      fun _ => ih ?_ place
    · rw [List.dropLast_concat, ← List.append_nil parent]
      exact way [] List.nil_prefix
    · intro _ disk h
      rw [← hfirst, Function.update_eq_self] at h
      exact h
    · intro q hq
      rw [List.append_assoc]
      exact way (first :: q) (List.cons_prefix_cons.mpr ⟨rfl, hq⟩)

theorem createDestination_lies (calm : X → oracle.Calm) (hne : path ≠ [])
    (way : ∀ q, q <+: path.dropLast → E q = some .dir) :
    Triple (Lying E) (createDestination oracle path)
      (fun _ => Lying (if E path = none then Function.update E path (some .dir) else E))
      fun _ => ¬ X := by
  refine Triple.bind (pathExists_lies path) fun found => Triple.of_start fun s hs => ?_
  obtain ⟨hs, rfl⟩ := hs
  have hpath := List.dropLast_append_getLast hne
  rcases hentry : E path with _ | e
  · rw [if_pos rfl]
    have hplace : E ([] ++ path.dropLast ++ [path.getLast hne]) = none := by
      rw [List.nil_append, hpath]
      exact hentry
    have hmake : Triple (Lies E) (createDirAll oracle [] (path.dropLast ++ [path.getLast hne])) _
        fun _ => ¬ X := createDirAll_lies calm (fun q hq => way q hq) hplace
    rw [List.nil_append, hpath] at hmake
    refine Triple.bind ((onDisk_lies hmake).pre (by rintro u rfl; exact hs)) fun _ => ?_
    refine Triple.bind (Q := fun _ => Lying (Function.update E path (some .dir)))
      (Triple.modify fun _ h => h) fun _ => Triple.modify fun _ h => h
  · rw [if_neg (by simp)]
    refine Triple.pure ?_
    rintro u rfl
    exact hs

structure Removed (relative destination : Path) (sourceNames names : List String)
    (E E' : Path → Option Entry) : Prop where
  inside : ∀ name ∈ names, name ∉ sourceNames →
    E' (destination ++ [name]) = dropped (relative ++ [name]) (E (destination ++ [name]))
  outside : ∀ path, (∀ name ∈ names, name ∉ sourceNames → path ≠ destination ++ [name]) →
    E' path = E path

theorem Removed.nothing {relative destination : Path} {sourceNames : List String} :
    Removed relative destination sourceNames [] E E :=
  ⟨fun _ h => absurd h List.not_mem_nil, fun _ _ => rfl⟩

theorem Removed.cons {relative destination : Path} {sourceNames names : List String} {name : String}
    {F E' : Path → Option Entry} (fresh : name ∉ names)
    (first : name ∉ sourceNames →
      F (destination ++ [name]) = dropped (relative ++ [name]) (E (destination ++ [name])))
    (others : ∀ path, (name ∉ sourceNames → path ≠ destination ++ [name]) → F path = E path)
    (rest : Removed relative destination sourceNames names F E') :
    Removed relative destination sourceNames (name :: names) E E' := by
  have hname : ∀ other ∈ names, destination ++ [other] ≠ destination ++ [name] := by
    intro other hother hsame
    have hlast := List.append_cancel_left hsame
    rw [List.singleton_inj.mp hlast] at hother
    exact fresh hother
  constructor
  · intro other hother hdropped
    rcases List.mem_cons.mp hother with rfl | hother
    · rw [rest.outside _ fun o ho _ => (hname o ho).symm]
      exact first hdropped
    · rw [rest.inside other hother hdropped, others _ fun _ => hname other hother]
  · intro path hpath
    rw [rest.outside path fun o ho => hpath o (List.mem_cons_of_mem _ ho)]
    exact others path fun h => hpath name (List.mem_cons.mpr (Or.inl rfl)) h

theorem readKind_lies (calm : X → oracle.Calm) (found : E path ≠ none) :
    Triple (Lies E) (readStep oracle fun _ tree =>
      match tree.entry path with
      | some (.file _) => .ok true
      | some .dir => .ok false
      | none => .error .notFound)
      (fun isFile disk => Lies E disk ∧ (isFile = true ↔ ∃ data, E path = some (.file data)))
      fun _ => ¬ X := by
  refine readStep_lies calm ?_ ?_
  · intro answer t isFile ht hlook
    rw [ht] at hlook
    rcases hentry : E path with _ | ⟨data⟩ | _ <;> rw [hentry] at hlook
    · exact absurd hlook (by simp)
    · rw [← Except.ok.inj hlook]
      exact ⟨fun _ => ⟨data, rfl⟩, fun _ => rfl⟩
    · rw [← Except.ok.inj hlook]
      simp
  · intro answer t ht _
    rw [ht]
    rcases hentry : E path with _ | ⟨data⟩ | _
    · exact absurd hentry found
    · exact ⟨_, rfl⟩
    · exact ⟨_, rfl⟩

theorem readEntry_lies (calm : X → oracle.Calm) :
    Triple (Lying E) (onDisk (readStep oracle fun _ _ => Except.ok ())) (fun _ => Lying E)
      fun _ => ¬ X := by
  have hlook : Triple (Lies E) (readStep oracle fun _ _ => Except.ok ())
      (fun _ disk => Lies E disk ∧ True) fun _ => ¬ X :=
    readStep_lies calm (fun _ _ _ _ _ => trivial) fun _ _ _ _ => ⟨_, rfl⟩
  exact Triple.post (onDisk_lies hlook) fun _ _ h => h.1

theorem removeLoop_lies {relative destination : Path} {sourceNames names : List String}
    (calm : X → oracle.Calm) (nodup : names.Nodup)
    (found : ∀ name ∈ names, E (destination ++ [name]) ≠ none) :
    Triple (Lying E) (removeLoop oracle destination relative sourceNames names)
      (fun _ s => Removed relative destination sourceNames names E s.disk.volume.tree.entry)
      fun _ => ¬ X := by
  induction names generalizing E with
  | nil =>
    refine Triple.pure fun s hs => ?_
    rw [hs]
    exact Removed.nothing
  | cons name names ih =>
    obtain ⟨hfresh, hnodup⟩ := List.nodup_cons.mp nodup
    have hfound : ∀ other ∈ names, E (destination ++ [other]) ≠ none :=
      fun other hother => found other (List.mem_cons_of_mem _ hother)
    -- a name of the source, or one that stays as it is
    have hskip : ∀ hskipped : name ∈ sourceNames ∨
        dropped (relative ++ [name]) (E (destination ++ [name])) = E (destination ++ [name]),
        Triple (Lying E) (removeLoop oracle destination relative sourceNames names)
          (fun _ s => Removed relative destination sourceNames (name :: names) E
            s.disk.volume.tree.entry) fun _ => ¬ X := by
      intro hskipped
      refine (ih hnodup hfound).post fun _ s h => Removed.cons hfresh ?_ (fun _ _ => rfl) h
      intro hdropped
      exact (hskipped.resolve_left hdropped).symm
    refine Triple.bind (readEntry_lies calm) fun _ => ?_
    split_ifs with hsource
    · exact hskip (Or.inl hsource)
    have hplace := found name (List.mem_cons.mpr (Or.inl rfl))
    refine Triple.bind (onDisk_lies (readKind_lies calm hplace)) fun isFile =>
      Triple.of_start fun s hs => ?_
    obtain ⟨hs, hfile⟩ := hs
    split_ifs with hremove
    · rw [Bool.and_eq_true, Bool.not_eq_true'] at hremove
      obtain ⟨data, hdata⟩ := hfile.mp hremove.1
      have hremoved : Triple (Lies E) (removeFile oracle (destination ++ [name])) _ fun _ => ¬ X :=
        removeFile_lies fun hX => ⟨calm hX, data, hdata⟩
      refine Triple.bind ((onDisk_lies hremoved).conseq (by rintro u rfl; exact hs)
        (fun _ _ h => h.1) fun _ h => h) fun _ => ?_
      refine Triple.bind (Q := fun _ => Lying (Function.update E (destination ++ [name]) none))
        (Triple.modify fun _ h => h) fun _ => ?_
      refine Triple.bind (Q := fun _ => Lying (Function.update E (destination ++ [name]) none))
        (Triple.modify fun _ h => h) fun _ => ?_
      -- the names are distinct, so the others are still there
      refine (ih hnodup ?_).post fun _ s h => Removed.cons hfresh ?_ ?_ h
      · intro other hother
        rw [Function.update_of_ne]
        · exact hfound other hother
        · intro hsame
          rw [List.singleton_inj.mp (List.append_cancel_left hsame)] at hother
          exact hfresh hother
      · intro _
        rw [Function.update_self, hdata, dropped_mutable hremove.2]
      · intro path hpath
        exact Function.update_of_ne (hpath hsource) _ _
    · refine Triple.pre (hskip (Or.inr ?_)) (by rintro u rfl; exact hs)
      rcases hentry : E (destination ++ [name]) with _ | ⟨data⟩ | _
      · rfl
      · have hisFile : isFile = true := hfile.mpr ⟨data, hentry⟩
        rw [hisFile, Bool.true_and, Bool.not_eq_true', Bool.not_eq_false] at hremove
        exact dropped_immutable hremove
      · rfl

theorem removeDropped_lies {relative destination : Path} {sourceNames : List String}
    (calm : X → oracle.Calm) (dir : E destination = some .dir) :
    Triple (Lying E) (removeDropped oracle destination relative sourceNames)
      (fun _ s => (∀ name, name ∉ sourceNames → s.disk.volume.tree.entry (destination ++ [name]) =
          dropped (relative ++ [name]) (E (destination ++ [name]))) ∧
        ∀ path, (∀ name, name ∉ sourceNames → path ≠ destination ++ [name]) →
          s.disk.volume.tree.entry path = E path)
      fun _ => ¬ X := by
  have hlist : Triple (Lies E) (readStep oracle fun answer tree => do
      let names ← tree.list destination
      return answer.order.apply names)
      (fun names disk => Lies E disk ∧
        (names.Nodup ∧ ∀ name, name ∈ names ↔ E (destination ++ [name]) ≠ none)) fun _ => ¬ X := by
    refine readStep_lies calm ?_ ?_
    · intro answer t names ht hlook
      obtain ⟨children, hchildren, hnames⟩ := Library.bind_ok_iff.mp hlook
      obtain ⟨-, rfl⟩ := FileTree.list_ok_iff.mp hchildren
      rw [← Except.ok.inj hnames, ← ht]
      have hperm := answer.order.perm (t.children destination)
      refine ⟨hperm.nodup_iff.mpr (t.children_nodup destination), fun name => ?_⟩
      rw [hperm.mem_iff]
      exact FileTree.mem_children
    · intro answer t ht _
      rw [← ht] at dir
      exact ⟨_, Library.bind_ok_iff.mpr ⟨_, FileTree.list_ok_iff.mpr ⟨dir, rfl⟩, rfl⟩⟩
  refine Triple.bind (onDisk_lies hlist) fun names => Triple.of_start fun s hs => ?_
  obtain ⟨hs, hnodup, hnames⟩ := hs
  have hloop : Triple (Lying E) (removeLoop oracle destination relative sourceNames names) _
      fun _ => ¬ X := removeLoop_lies calm hnodup fun name hname => (hnames name).mp hname
  refine (hloop.pre (by rintro u rfl; exact hs)).post fun _ u h => ⟨?_, ?_⟩
  · intro name hdropped
    by_cases hname : name ∈ names
    · exact h.inside name hname hdropped
    · have hnone : E (destination ++ [name]) = none := by
        by_contra hsome
        exact hname ((hnames name).mpr hsome)
      -- a name that was not listed was not there
      have hne : ∀ other ∈ names, other ∉ sourceNames →
          destination ++ [name] ≠ destination ++ [other] := by
        intro other hother _ hsame
        rw [List.singleton_inj.mp (List.append_cancel_left hsame)] at hname
        exact hname hother
      rw [h.outside _ hne, hnone]
      rfl
  · exact fun path hpath => h.outside path fun name _ => hpath name

end

end Rrjj
