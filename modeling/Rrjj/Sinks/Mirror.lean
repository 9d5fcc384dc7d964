import Rrjj.Library.Trace
import Rrjj.Sinks.Synced

/-! The sync of a shadow repository into a destination: what it leaves of what was there, and when
the destination mirrors the shadow afterwards. -/

namespace Rrjj
open Library Library.Proc

section
variable {oracle : IoOracle} {source : Listing} {E : Path → Option Entry} {destination relative : Path}
  {X : Prop}

structure Unhindered (oracle : IoOracle) (source : Listing) (destination relative : Path)
    (E : Path → Option Entry) : Prop where
  calm : oracle.Calm
  tidy : NoTemporaryDirs destination E
  fits : Fits source destination relative E

theorem EntrySynced.unhindered {rest : Listing} {name : String} {E₁ : Path → Option Entry}
    (begins : source.Begins name rest) (regular : source.Regular)
    (first : EntrySynced source name destination relative E E₁)
    (way : ∀ q, q <+: destination → E q = some .dir)
    (unhindered : Unhindered oracle source destination relative E) :
    Unhindered oracle rest destination relative E₁ := by
  have hdir : E destination = some .dir := way destination (List.prefix_refl _)
  have hrest : Fits rest destination relative E := ((Fits.cons_iff begins hdir).mp unhindered.fits).2
  exact ⟨unhindered.calm, first.tidy regular unhindered.tidy,
    (Fits.rest_iff begins regular first way).mpr hrest⟩

theorem Unhindered.entries {entries rest : Listing} {name : String}
    (unhindered : Unhindered oracle (.dir name entries rest) destination relative E) :
    Unhindered oracle entries (destination ++ [name]) (relative ++ [name]) E := by
  have hentry : ∀ path, (Listing.dir name entries rest).entry (name :: path) = entries.entry path :=
    fun path => if_pos rfl
  refine ⟨unhindered.calm, ?_, ?_, ?_⟩
  · intro path last hlast
    have htidy := unhindered.tidy (name :: path) last hlast
    rw [← List.append_cons]
    exact htidy
  · intro path data hfile hmutable
    rw [← hentry] at hfile
    rw [← List.append_cons] at hmutable ⊢
    exact unhindered.fits.files _ data hfile hmutable
  · intro path hdir
    rw [← hentry] at hdir
    rw [← List.append_cons]
    exact unhindered.fits.dirs _ hdir

theorem way_of_parent {q : Path} (hq : q <+: destination) (hne : q ≠ destination) :
    q <+: destination.dropLast := by
  rcases List.eq_nil_or_concat destination with rfl | ⟨parent, last, rfl⟩
  · exact absurd (List.prefix_nil.mp hq) hne
  · rw [List.concat_eq_append] at hq hne ⊢
    rw [List.dropLast_concat]
    exact (List.prefix_concat_iff.mp hq).resolve_left hne

theorem not_below_file {t : FileTree} {data : Bytes} {name : String}
    (file : t.entry destination = some (.file data)) : t.entry (destination ++ [name]) = none := by
  by_contra hsome
  have hdir : t.entry destination = some .dir := t.rooted _ _ hsome
  rw [file] at hdir
  exact absurd hdir (by simp)

theorem createDirAll_onFile {data : Bytes} {parent rest : Path} {name : String} :
    Triple (fun disk : Disk => disk.volume.tree.entry destination = some (.file data))
      (createDirAll oracle parent (rest ++ [name]))
      (fun _ disk => disk.volume.tree.entry destination = some (.file data) ∧
        disk.volume.tree.entry (parent ++ rest ++ [name]) = some .dir) fun _ => True := by
  have hmake : ∀ path, Triple (fun disk : Disk => disk.volume.tree.entry destination = some (.file data))
      (ensureDir oracle path)
      (fun _ disk => disk.volume.tree.entry destination = some (.file data) ∧
        disk.volume.tree.entry path = some .dir) fun _ => True := by
    intro path
    refine volumeStep_triple (fun _ h => h) (fun _ _ => trivial) ?_
    intro disk volume hfile hmade
    split_ifs at hmade with hdir
    · rw [← Except.ok.inj hmade]
      exact ⟨hfile, hdir⟩
    · obtain ⟨hnone, hentry, -⟩ := Volume.makeDir_ok hmade
      have hne : destination ≠ path := by
        rintro rfl
        rw [hnone] at hfile
        exact absurd hfile (by simp)
      change volume.tree.entry destination = _ ∧ volume.tree.entry path = _
      rw [hentry, Function.update_of_ne hne, Function.update_self]
      exact ⟨hfile, rfl⟩
  induction rest generalizing parent with
  | nil =>
    rw [List.append_nil]
    exact Triple.bind (hmake _) fun _ => Triple.pure fun _ h => h
  | cons first rest ih =>
    have hpath : parent ++ first :: rest ++ [name] = parent ++ [first] ++ rest ++ [name] := by simp
    rw [hpath]
    exact Triple.bind ((hmake _).post fun _ _ h => h.1) fun _ => ih

theorem createDestination_onFile {data : Bytes} {name : String}
    (file : E destination = some (.file data)) :
    Triple (Lying E) (createDestination oracle (destination ++ [name])) (fun _ _ => False)
      fun _ => True := by
  refine Triple.get fun s hs => ?_
  have hfile : s.disk.volume.tree.entry destination = some (.file data) := by
    rw [hs]
    exact file
  rw [not_below_file hfile]
  refine Triple.bind (Q := fun _ _ => False) ?_ fun _ _ h => h.elim
  have hmake : Triple (fun disk : Disk => disk.volume.tree.entry destination = some (.file data))
      (createDirAll oracle [] (destination ++ [name])) _ fun _ => True := createDirAll_onFile
  refine hmake.zoom ?_ ?_ fun _ _ _ _ => trivial
  · rintro u rfl
    exact hfile
  · rintro u _ disk - ⟨hfile, hdir⟩
    rw [List.nil_append, not_below_file hfile] at hdir
    exact absurd hdir (by simp)

theorem syncEntries_onFile {data : Bytes} (regular : source.Regular)
    (file : E destination = some (.file data)) :
    Triple (Lying E) (syncEntries oracle destination relative source) (fun _ => Lying E)
      fun _ => True := by
  have hread : Triple (Lying E) (onDisk (readStep oracle fun _ _ => Except.ok ())) (fun _ => Lying E)
      fun _ => True := (readEntry_lies (X := False) False.elim).conseq (fun _ h => h) (fun _ _ h => h)
        fun _ _ => trivial
  cases source with
  | done => exact Triple.pure fun _ h => h
  | file name data' rest =>
    refine Triple.bind hread fun _ => ?_
    refine Triple.bind (Q := fun _ _ => False) ?_ fun _ _ h => h.elim
    have hput : Triple (Lying E)
        (syncRepositoryFile oracle data' (destination ++ [name]) (relative ++ [name])) _
        fun _ => ¬ False :=
      syncRepositoryFile_lies (by simp) False.elim False.elim
    refine hput.conseq (fun _ h => h) ?_ fun _ _ => trivial
    rintro _ s ⟨put, -⟩
    have hfile : s.disk.volume.tree.entry destination = some (.file data) := by
      rcases put.elsewhere destination (by simp) with hsame | ⟨hpath, -⟩
      · exact hsame.trans file
      · rw [temporaryPath_concat] at hpath
        exact absurd hpath (by simp)
    have hnone := put.here
    rw [not_below_file hfile] at hnone
    unfold replaced at hnone
    split_ifs at hnone with hthere
    · rw [← hnone] at hthere
      simp at hthere
  | dir name entries rest =>
    refine Triple.bind hread fun _ => ?_
    refine Triple.bind (Q := fun _ _ => False) ?_ fun _ _ h => h.elim
    exact Triple.bind (createDestination_onFile file) fun _ _ h => h.elim
  | symlink name rest => exact absurd regular id
  | other name rest => exact absurd regular id

theorem syncDirectoryWith_onFile {entries : SyncTask Unit} {data : Bytes} (hne : destination ≠ [])
    (way : ∀ q, q <+: destination.dropLast → E q = some .dir) (file : E destination = some (.file data))
    (onFile : Triple (Lying E) entries (fun _ => Lying E) fun _ => True) :
    Triple (Lying E) (syncDirectoryWith oracle destination relative source.names entries)
      (fun _ _ => False) fun _ => True := by
  refine Triple.bind (Q := fun _ => Lying E) ?_ fun _ => ?_
  · refine (createDestination_lies (X := False) False.elim hne way).conseq (fun _ h => h) ?_
      fun _ _ => trivial
    intro _ s hs
    rw [file, if_neg (by simp)] at hs
    exact hs
  refine Triple.bind ((readEntry_lies (X := False) False.elim).conseq (fun _ h => h) (fun _ _ h => h)
    fun _ _ => trivial) fun _ => ?_
  refine Triple.bind onFile fun _ => ?_
  -- what was dropped is looked for in a listing of the destination
  have hlist : Triple (Lies E) (readStep oracle fun answer tree => do
      let names ← tree.list destination
      return answer.order.apply names) (fun _ disk => Lies E disk ∧ False) fun _ => ¬ False := by
    refine readStep_lies False.elim ?_ fun _ _ _ h => h.elim
    intro answer t names ht hlook
    obtain ⟨children, hchildren, -⟩ := Library.bind_ok_iff.mp hlook
    have hdir := (FileTree.list_ok_iff.mp hchildren).1
    rw [ht, file] at hdir
    exact absurd hdir (by simp)
  refine Triple.bind ((onDisk_lies hlist).conseq (fun _ h => h) (fun _ _ h => h) fun _ _ => trivial)
    fun names => ?_
  exact fun _ h => h.2.elim

theorem syncDirectoryWith_lies {entries : SyncTask Unit} (hne : destination ≠ [])
    (way : ∀ q, q <+: destination.dropLast → E q = some .dir)
    (unhindered : X → Unhindered oracle source destination relative E)
    (onFile : ∀ data, E destination = some (.file data) →
      Triple (Lying E) entries (fun _ => Lying E) fun _ => True)
    (synced : ∀ F : Path → Option Entry, (∀ q, q <+: destination → F q = some .dir) →
      (X → Unhindered oracle source destination relative F) →
        Triple (Lying F) entries
          (fun _ s => EntriesSynced source destination relative F s.disk.volume.tree.entry ∧
            Fits source destination relative F) fun _ => ¬ X) :
    Triple (Lying E) (syncDirectoryWith oracle destination relative source.names entries)
      (fun _ s => DirectorySynced source destination relative E s.disk.volume.tree.entry ∧
        Fits source destination relative E) fun _ => ¬ X := by
  have hcalm : X → oracle.Calm := fun hX => (unhindered hX).calm
  by_cases hfile : ∃ data, E destination = some (.file data)
  · -- a file is in the way
    obtain ⟨data, hdata⟩ := hfile
    have hnot : ¬ X := by
      intro hX
      have hdirs := (unhindered hX).fits.dirs [] (Listing.entry_nil source) data
      rw [List.append_nil] at hdirs
      exact hdirs hdata
    exact (syncDirectoryWith_onFile hne way hdata (onFile data hdata)).conseq (fun _ h => h)
      (fun _ _ h => h.elim) fun _ _ => hnot
  -- the destination is a directory from here on
  generalize hF : (if E destination = none then Function.update E destination (some .dir) else E) = F
  have hdir : F destination = some .dir := by
    rw [← hF]
    rcases hentry : E destination with _ | ⟨data⟩ | _
    · rw [if_pos rfl, Function.update_self]
    · exact absurd ⟨data, hentry⟩ hfile
    · rw [if_neg (by simp), hentry]
  have hsame : ∀ path, path ≠ destination → F path = E path := by
    intro path hpath
    rw [← hF]
    split_ifs
    · exact Function.update_of_ne hpath _ _
    · rfl
  have hway : ∀ q, q <+: destination → F q = some .dir := by
    intro q hq
    by_cases hself : q = destination
    · rw [hself]
      exact hdir
    · rw [hsame q hself]
      exact way q (way_of_parent hq hself)
  have hagree : ∀ name ∈ source.names, ∀ path,
      F (destination ++ name :: path) = E (destination ++ name :: path) :=
    fun name _ path => hsame _ (by simp)
  have hunhindered : X → Unhindered oracle source destination relative F := by
    intro hX
    obtain ⟨hcalm, htidy, hfits⟩ := unhindered hX
    refine ⟨hcalm, ?_, hfits.congr hagree (by rw [hdir]; simp)⟩
    intro path name hname
    rw [hsame _ (by simp)]
    exact htidy path name hname
  refine Triple.bind ((createDestination_lies hcalm hne way).post fun _ s hs => by
    rw [hF] at hs; exact hs) fun _ => ?_
  refine Triple.bind (readEntry_lies hcalm) fun _ => ?_
  refine Triple.bind (synced F hway hunhindered) fun _ => Triple.of_start fun s hs => ?_
  obtain ⟨hsynced, hfits⟩ := hs
  have hthere : s.disk.volume.tree.entry destination = some .dir := by
    rcases hsynced.outside destination fun name _ => below_short (List.prefix_refl _) with hs | hswept
    · exact hs.trans hdir
    · exact absurd hswept (Swept.not_short (List.prefix_refl _))
  refine ((removeDropped_lies hcalm hthere).pre (by rintro u rfl; rfl)).post fun _ u hu => ?_
  refine ⟨DirectorySynced.of_entries hdir hsame hsynced hu.1 hu.2, ?_⟩
  refine hfits.congr (fun name hname path => (hagree name hname path).symm) ?_
  exact fun data hdata => hfile ⟨data, hdata⟩

theorem syncEntries_rest {rest : Listing} {name : String} {E₁ : Path → Option Entry}
    (begins : source.Begins name rest) (regular : source.Regular)
    (way : ∀ q, q <+: destination → E q = some .dir)
    (first : EntrySynced source name destination relative E E₁)
    (files : ∀ path data, source.entry (name :: path) = some (.file data) →
      isImmutableRepositoryFile (relative ++ name :: path) = false →
        E (destination ++ name :: path) ≠ some .dir)
    (dirs : ∀ path, source.entry (name :: path) = some .dir →
      ∀ data, E (destination ++ name :: path) ≠ some (.file data))
    (later : Triple (Lying E₁) (syncEntries oracle destination relative rest)
      (fun _ s => EntriesSynced rest destination relative E₁ s.disk.volume.tree.entry ∧
        Fits rest destination relative E₁) fun _ => ¬ X) :
    Triple (Lying E₁) (syncEntries oracle destination relative rest)
      (fun _ s => EntriesSynced source destination relative E s.disk.volume.tree.entry ∧
        Fits source destination relative E) fun _ => ¬ X := by
  refine later.post fun _ u hu => ⟨EntriesSynced.cons begins regular first hu.1, ?_⟩
  have hrest : Fits rest destination relative E := (Fits.rest_iff begins regular first way).mp hu.2
  exact (Fits.cons_iff begins (way _ (List.prefix_refl _))).mpr ⟨⟨files, dirs⟩, hrest⟩

theorem syncEntries_lies (regular : source.Regular) (way : ∀ q, q <+: destination → E q = some .dir)
    (unhindered : X → Unhindered oracle source destination relative E) :
    Triple (Lying E) (syncEntries oracle destination relative source)
      (fun _ s => EntriesSynced source destination relative E s.disk.volume.tree.entry ∧
        Fits source destination relative E) fun _ => ¬ X := by
  have hdir : E destination = some .dir := way destination (List.prefix_refl _)
  have hcalm : X → oracle.Calm := fun hX => (unhindered hX).calm
  induction source generalizing destination relative E with
  | done =>
    refine Triple.pure fun s hs => ⟨⟨fun _ h => absurd h List.not_mem_nil, fun path _ => Or.inl ?_⟩, ?_⟩
    · rw [hs]
    · constructor
      · intro path data hentry
        cases path <;> exact absurd hentry (by simp [Listing.entry])
      · intro path hentry data
        cases path with
        | nil => rw [List.append_nil, hdir]; simp
        | cons first path => exact absurd hentry (by simp [Listing.entry])
  | file name data rest ih =>
    -- the file takes its place, and the rest is synced after it
    have hbegins := Listing.begins_file regular
    have hunhindered : X → _ := fun hX => (Fits.cons_iff hbegins hdir).mp (unhindered hX).fits
    refine Triple.bind (readEntry_lies hcalm) fun _ => ?_
    refine Triple.bind (syncRepositoryFile_lies (by simp) ?_ ?_) fun _ => Triple.of_start fun s hs => ?_
    · intro hX
      rw [List.dropLast_concat, temporaryPath_concat]
      have htidy := (unhindered hX).tidy [] _ (isTemporary_append name)
      rw [List.append_nil] at htidy
      exact ⟨hcalm hX, hdir, htidy⟩
    · intro hX hmutable
      have hself : (Listing.file name data rest).entry [name] = some (.file data) := by
        rw [Listing.entry, if_pos rfl, if_pos rfl]
      exact (hunhindered hX).1.1 [] data hself hmutable
    obtain ⟨hput, hplace⟩ := hs
    have hfirst : EntrySynced (.file name data rest) name destination relative E
        s.disk.volume.tree.entry := EntrySynced.of_file hput regular.2.1
    have hrest := ih regular.2.2 (hfirst.way way) (fun hX => hfirst.unhindered hbegins regular way
      (unhindered hX)) (hfirst.way way _ (List.prefix_refl _))
    refine (syncEntries_rest hbegins regular way hfirst ?_ ?_ hrest).pre (by rintro u rfl; rfl)
    · intro path found hentry hmutable
      rcases path with _ | ⟨second, path⟩
      · exact hplace hmutable
      · rw [Listing.entry, if_pos rfl, if_neg (by simp)] at hentry
        exact absurd hentry (by simp)
    · intro path hentry
      rw [Listing.entry, if_pos rfl] at hentry
      split_ifs at hentry
      exact absurd hentry (by simp)
  | dir name entries rest ihEntries ihRest =>
    -- one hypothesis of the induction is about what is below the directory, one about the rest
    have hbegins := Listing.begins_dir regular
    have hentry : ∀ path, (Listing.dir name entries rest).entry (name :: path) = entries.entry path :=
      fun path => if_pos rfl
    have hway : ∀ q, q <+: (destination ++ [name]).dropLast → E q = some .dir := by
      rw [List.dropLast_concat]
      exact way
    refine Triple.bind (readEntry_lies hcalm) fun _ => ?_
    have hentries : Triple (Lying E) (syncDirectoryWith oracle (destination ++ [name])
        (relative ++ [name]) entries.names
          (syncEntries oracle (destination ++ [name]) (relative ++ [name]) entries))
        (fun _ s => DirectorySynced entries (destination ++ [name]) (relative ++ [name]) E
          s.disk.volume.tree.entry ∧ Fits entries (destination ++ [name]) (relative ++ [name]) E)
        fun _ => ¬ X := by
      refine syncDirectoryWith_lies (by simp) hway ?_ ?_ ?_
      · intro hX
        exact (unhindered hX).entries
      · exact fun found hfound => syncEntries_onFile regular.2.2.1 hfound
      · exact fun F hF hunhindered => ihEntries regular.2.2.1 hF hunhindered (hF _ (List.prefix_refl _))
    refine Triple.bind hentries fun _ => Triple.of_start fun s hs => ?_
    obtain ⟨hsynced, hfits⟩ := hs
    have hfirst : EntrySynced (.dir name entries rest) name destination relative E
        s.disk.volume.tree.entry := EntrySynced.of_dir hsynced
    have hrest := ihRest regular.2.2.2 (hfirst.way way) (fun hX => hfirst.unhindered hbegins regular way
      (unhindered hX)) (hfirst.way way _ (List.prefix_refl _))
    refine (syncEntries_rest hbegins regular way hfirst ?_ ?_ hrest).pre (by rintro u rfl; rfl)
    · intro path data hfile hmutable
      rw [hentry] at hfile
      have hplace := hfits.files path data hfile
      rw [List.append_assoc, List.append_assoc] at hplace
      exact hplace hmutable
    · intro path hsub
      rw [hentry] at hsub
      have hplace := hfits.dirs path hsub
      rw [List.append_assoc] at hplace
      exact hplace
  | symlink name rest => exact absurd regular id
  | other name rest => exact absurd regular id

theorem syncRepositoryTree_lies (regular : source.Regular) (hne : destination ≠ [])
    (way : ∀ q, q <+: destination.dropLast → E q = some .dir)
    (unhindered : X → Unhindered oracle source destination relative E) :
    Triple (Lying E) (syncRepositoryTree oracle destination relative source)
      (fun _ s => DirectorySynced source destination relative E s.disk.volume.tree.entry ∧
        Fits source destination relative E) fun _ => ¬ X := by
  refine syncDirectoryWith_lies hne way unhindered ?_ ?_
  · exact fun data hdata => syncEntries_onFile regular hdata
  · exact fun F hF hunhindered => syncEntries_lies regular hF hunhindered

end

def mirrorRepository (oracle : IoOracle) (destination : Path) (disk : Disk) (source : Listing) : Disk :=
  ((syncRepositoryTree oracle destination [] source).run { disk := disk }).2.disk

/-- The sync succeeds, the files of the shadow are there with their bytes, and of others only
immutable ones. -/
def Mirrors (oracle : IoOracle) (destination : Path) (disk : Disk) (source : Listing) : Prop :=
  let E' := (mirrorRepository oracle destination disk source).volume.tree.entry
  ((syncRepositoryTree oracle destination [] source).run { disk := disk }).1 = .ok () ∧
    (∀ path data, source.entry path = some (.file data) →
      E' (destination ++ path) = some (.file data)) ∧
    ∀ path data, E' (destination ++ path) = some (.file data) →
      (∀ found, source.entry path ≠ some (.file found)) → isImmutableRepositoryFile path = true

structure Mirrorable (source : Listing) (destination : Path) (E : Path → Option Entry) : Prop where
  files : ∀ path data, source.entry path = some (.file data) → E (destination ++ path) ≠ some .dir
  dirs : ∀ path, source.entry path = some .dir → ∀ data, E (destination ++ path) ≠ some (.file data)
  unchanged : ∀ path data found, source.entry path = some (.file data) →
    isImmutableRepositoryFile path = true → E (destination ++ path) = some (.file found) → found = data
  vanished : ∀ path data, E (destination ++ path) = some (.file data) →
    isImmutableRepositoryFile path = false → source.entry path.dropLast = some .dir

structure Ready (destination : Path) (E : Path → Option Entry) : Prop where
  below : destination ≠ []
  way : ∀ q, q <+: destination.dropLast → E q = some .dir
  tidy : NoTemporaryDirs destination E

section
variable {oracle : IoOracle} {source : Listing} {destination : Path} {disk : Disk}
  {E E' : Path → Option Entry}

theorem DirectorySynced.ready (synced : DirectorySynced source destination [] E E')
    (regular : source.Regular) (ready : Ready destination E) : Ready destination E' := by
  refine ⟨ready.below, ?_, ?_⟩
  · intro q hq
    have hnot : ¬ destination <+: q := by
      intro hlonger
      have hlength := (hlonger.trans hq).length_le
      rw [List.length_dropLast] at hlength
      have hpos := List.length_pos_of_ne_nil ready.below
      omega
    rw [synced.outside q hnot]
    exact ready.way q hq
  · intro path name hname hdir
    rw [List.append_assoc, synced.inside] at hdir
    rcases Listing.mirrored_eq_dir hdir with hentry | hold
    · rw [regular.entry_temporary hname] at hentry
      exact absurd hentry (by simp)
    · rw [← List.append_assoc] at hold
      exact ready.tidy path name hname hold

/-- What the sync leaves mirrors the shadow if what was there let it. -/
theorem DirectorySynced.mirrors_iff (synced : DirectorySynced source destination [] E E')
    (fits : Fits source destination [] E) :
    ((∀ path data, source.entry path = some (.file data) →
        E' (destination ++ path) = some (.file data)) ∧
      ∀ path data, E' (destination ++ path) = some (.file data) →
        (∀ found, source.entry path ≠ some (.file found)) → isImmutableRepositoryFile path = true) ↔
      Mirrorable source destination E := by
  constructor
  · rintro ⟨hfiles, hothers⟩
    -- an immutable file is not written over
    have hreplaced : ∀ path data, source.entry path = some (.file data) →
        isImmutableRepositoryFile path = true →
          ∀ e, E (destination ++ path) = some e → e = .file data := by
      intro path data hentry
      have hsynced := (synced.inside path).symm.trans (hfiles path data hentry)
      rw [Listing.mirrored_of_file hentry, List.nil_append] at hsynced
      exact replaced_eq_file_iff.mp hsynced
    refine ⟨?_, fits.dirs, ?_, ?_⟩
    · intro path data hentry hdir
      by_cases himmutable : isImmutableRepositoryFile path = true
      · have hkind : Entry.dir = .file data := hreplaced path data hentry himmutable _ hdir
        exact absurd hkind (by simp)
      · exact fits.files path data hentry (Bool.not_eq_true _ ▸ himmutable) hdir
    · intro path data found hentry himmutable hfound
      exact Entry.file.inj (hreplaced path data hentry himmutable _ hfound)
    · intro path data hdata hmutable
      -- below a directory that is gone nothing was looked at
      by_contra hvanished
      have hne : path ≠ [] := by
        rintro rfl
        exact hvanished (Listing.entry_nil source)
      have hnone : source.entry path = none := by
        by_contra hsome
        exact hvanished (Listing.entry_parent hsome hne)
      have hsynced := synced.inside path
      rw [Listing.mirrored_of_lost hnone hvanished, hdata] at hsynced
      have himmutable := hothers path data hsynced fun found => by rw [hnone]; simp
      rw [hmutable] at himmutable
      exact absurd himmutable (by simp)
  · intro mirrorable
    constructor
    · intro path data hentry
      rw [synced.inside path, Listing.mirrored_of_file hentry, List.nil_append, replaced_eq_file_iff]
      intro himmutable e hold
      cases e with
      | file found => rw [mirrorable.unchanged path data found hentry himmutable hold]
      | dir => exact absurd hold (mirrorable.files path data hentry)
    · intro path data hdata hother
      have hsynced := (synced.inside path).symm.trans hdata
      rcases hentry : source.entry path with _ | ⟨found⟩ | _
      · by_cases hparent : source.entry path.dropLast = some .dir
        · rw [Listing.mirrored_of_gone hentry hparent, List.nil_append] at hsynced
          exact (dropped_eq_file hsynced).1
        · rw [Listing.mirrored_of_lost hentry hparent] at hsynced
          by_contra hmutable
          rw [Bool.not_eq_true] at hmutable
          exact hparent (mirrorable.vanished path data hsynced hmutable)
      · exact absurd hentry (hother found)
      · rw [Listing.mirrored_of_dir hentry] at hsynced
        exact absurd hsynced (by simp)

theorem mirrors_iff (regular : source.Regular) (calm : oracle.Calm)
    (ready : Ready destination disk.volume.tree.entry) :
    (Mirrors oracle destination disk source ↔ Mirrorable source destination disk.volume.tree.entry) ∧
      (Mirrors oracle destination disk source →
        Ready destination (mirrorRepository oracle destination disk source).volume.tree.entry) := by
  have htree : Triple (Lying disk.volume.tree.entry) (syncRepositoryTree oracle destination [] source) _
      fun _ => ¬ Fits source destination [] disk.volume.tree.entry :=
    syncRepositoryTree_lies regular ready.below ready.way fun fits => ⟨calm, ready.tidy, fits⟩
  have hends := (htree { disk := disk } rfl).outcome
  unfold Mirrors mirrorRepository
  rcases hends with ⟨⟨⟩, hok, hsynced, hfits⟩ | ⟨hfailed, hnot⟩
  · rw [← hsynced.mirrors_iff hfits]
    exact ⟨⟨fun h => h.2, fun h => ⟨hok, h⟩⟩, fun _ => hsynced.ready regular ready⟩
  · refine ⟨⟨fun h => absurd h.1 (hfailed ()), fun h => absurd ?_ hnot⟩,
      fun h => absurd h.1 (hfailed ())⟩
    exact ⟨fun path data hentry _ => h.files path data hentry, h.dirs⟩

theorem ready_after {sources : List Listing} (calm : oracle.Calm)
    (ready : Ready destination disk.volume.tree.entry) (regular : ∀ source ∈ sources, source.Regular)
    (mirrors : AtEvery (fun before source => Mirrors oracle destination
      (before.foldl (mirrorRepository oracle destination) disk) source) sources) :
    Ready destination (sources.foldl (mirrorRepository oracle destination) disk).volume.tree.entry := by
  induction sources using List.reverseRecOn with
  | nil => exact ready
  | append_singleton sources source ih =>
    have hbefore := ih (fun s hs => regular s (List.mem_append_left _ hs))
      (mirrors.of_prefix ⟨[source], rfl⟩)
    have hlast := mirrors sources source [] rfl
    rw [List.foldl_append]
    exact (mirrors_iff (regular source (by simp)) calm hbefore).2 hlast

/-- Of trees synced one after the other, each is mirrored if and only if nothing of another kind
or of other bytes lies in its way, and no directory that it does not have holds a mutable file. -/
theorem repository_mirrors_iff (oracle : IoOracle) (destination : Path) (disk : Disk)
    (sources : List Listing) (calm : oracle.Calm) (ready : Ready destination disk.volume.tree.entry)
    (regular : ∀ source ∈ sources, source.Regular) :
    AtEvery (fun before source => Mirrors oracle destination
        (before.foldl (mirrorRepository oracle destination) disk) source) sources ↔
      AtEvery (fun before source => Mirrorable source destination
        (before.foldl (mirrorRepository oracle destination) disk).volume.tree.entry) sources := by
  induction sources using List.reverseRecOn with
  | nil => exact ⟨fun _ => atEvery_nil, fun _ => atEvery_nil⟩
  | append_singleton sources source ih =>
    have hih := ih fun s hs => regular s (List.mem_append_left _ hs)
    have hregular : source.Regular := regular source (by simp)
    have hbefore : AtEvery (fun before source => Mirrors oracle destination
        (before.foldl (mirrorRepository oracle destination) disk) source) sources →
        Ready destination (sources.foldl (mirrorRepository oracle destination) disk).volume.tree.entry :=
      ready_after calm ready fun s hs => regular s (List.mem_append_left _ hs)
    constructor
    · intro h
      have hlonger := h.of_prefix ⟨[source], rfl⟩
      have hlast := (mirrors_iff hregular calm (hbefore hlonger)).1
      exact (hih.mp hlonger).snoc (hlast.mp (h sources source [] rfl))
    · intro h
      have hlonger := hih.mpr (h.of_prefix ⟨[source], rfl⟩)
      have hlast := (mirrors_iff hregular calm (hbefore hlonger)).1
      exact hlonger.snoc (hlast.mpr (h sources source [] rfl))

end

def storeDisk : Disk where
  volume := ⟨FileTree.empty.put storePath .dir, ∅, ∅⟩
  spool := []

theorem storeDisk_entry (path : Path) :
    storeDisk.volume.tree.entry path =
      if path = storePath then some .dir else if path = [] then some .dir else none := by
  have hadmits : FileTree.empty.Admits storePath .dir := by decide +kernel
  change (FileTree.empty.put storePath .dir).entry path = _
  rw [FileTree.entry_put hadmits, Function.update_apply, FileTree.entry_empty]

theorem storeDisk_ready : Ready repoPath storeDisk.volume.tree.entry := by
  refine ⟨by decide, ?_, ?_⟩
  · intro q hq
    have hcases : q = [] ∨ q = storePath := by
      rcases q with _ | ⟨first, q⟩
      · exact Or.inl rfl
      · have hq : first :: q <+: "store" :: [] := hq
        obtain ⟨rfl, hnil⟩ := List.cons_prefix_cons.mp hq
        rw [List.prefix_nil.mp hnil]
        exact Or.inr rfl
    rw [storeDisk_entry]
    rcases hcases with rfl | rfl <;> simp
  · intro path name _
    rw [storeDisk_entry, if_neg (by simp [repoPath, storePath]), if_neg (by simp)]
    simp

def calmOracle : IoOracle := ⟨fun _ => {}, true, none⟩

def pointerTree : Listing := .dir "refs" (.file "main" [1] .done) .done

theorem pointerTree_regular : pointerTree.Regular :=
  ⟨List.not_mem_nil, by decide, ⟨List.not_mem_nil, by decide, trivial⟩, trivial⟩

theorem repository_mirrors_iff_pointer :
    AtEvery (fun before source => Mirrors calmOracle repoPath
        (before.foldl (mirrorRepository calmOracle repoPath) storeDisk) source) [pointerTree, .done] ↔
      AtEvery (fun before source => Mirrorable source repoPath
        (before.foldl (mirrorRepository calmOracle repoPath) storeDisk).volume.tree.entry)
        [pointerTree, .done] := by
  refine repository_mirrors_iff calmOracle repoPath storeDisk [pointerTree, .done]
    ⟨rfl, fun _ => rfl⟩ storeDisk_ready ?_
  intro source hsource
  rcases List.mem_cons.mp hsource with rfl | hsource
  · exact pointerTree_regular
  · rw [List.mem_singleton.mp hsource]
    trivial

/-- A pointer in a directory that the shadow has removed stays published. -/
theorem vanished_pointer_survives :
    ¬ ∀ (oracle : IoOracle) (disk : Disk) (sources : List Listing), oracle.Calm →
      Ready repoPath disk.volume.tree.entry →
      (∀ path, disk.volume.tree.entry (repoPath ++ path) = none) →
      (∀ source ∈ sources, source.Regular) →
      (∀ source ∈ sources, ∀ source' ∈ sources, ∀ path data data',
        isImmutableRepositoryFile path = true → source.entry path = some (.file data) →
          source'.entry path = some (.file data') → data = data') →
        AtEvery (fun before source => Mirrors oracle repoPath
          (before.foldl (mirrorRepository oracle repoPath) disk) source) sources := by
  intro h
  have hmirrors : AtEvery (fun before source => Mirrors calmOracle repoPath
      (before.foldl (mirrorRepository calmOracle repoPath) storeDisk) source) [pointerTree, .done] := by
    refine h calmOracle storeDisk [pointerTree, .done] ⟨rfl, fun _ => rfl⟩ storeDisk_ready ?_ ?_ ?_
    · intro path
      rw [storeDisk_entry, if_neg (by simp [repoPath, storePath]), if_neg (by simp [repoPath])]
    · intro source hsource
      rcases List.mem_cons.mp hsource with rfl | hsource
      · exact pointerTree_regular
      · rw [List.mem_singleton.mp hsource]
        trivial
    · have hdone : ∀ path data, Listing.done.entry path ≠ some (.file data) := by
        intro path data
        cases path <;> simp [Listing.entry]
      intro source hsource source' hsource' path data data' _ hdata hdata'
      rcases List.mem_cons.mp hsource with rfl | hsource
      · rcases List.mem_cons.mp hsource' with rfl | hsource'
        · exact Entry.file.inj (Option.some.inj (hdata.symm.trans hdata'))
        · rw [List.mem_singleton.mp hsource'] at hdata'
          exact absurd hdata' (hdone path data')
      · rw [List.mem_singleton.mp hsource] at hdata
        exact absurd hdata (hdone path data)
  obtain ⟨-, -, hothers⟩ := hmirrors [pointerTree] .done [] rfl
  have hmutable : isImmutableRepositoryFile ["refs", "main"] = true := by
    refine hothers ["refs", "main"] [1] (by decide +kernel) ?_
    intro found
    simp [Listing.entry]
  exact absurd hmutable (by decide)

end Rrjj
