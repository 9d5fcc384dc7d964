import Rrjj.Sinks.SyncSteps

/-! What the syncs of files and directories come to for a tree of them. -/

namespace Rrjj
open Library

structure Fits (source : Listing) (destination relative : Path) (E : Path → Option Entry) : Prop where
  files : ∀ path data, source.entry path = some (.file data) →
    isImmutableRepositoryFile (relative ++ path) = false → E (destination ++ path) ≠ some .dir
  dirs : ∀ path, source.entry path = some .dir → ∀ data, E (destination ++ path) ≠ some (.file data)

def NoTemporaryDirs (destination : Path) (E : Path → Option Entry) : Prop :=
  ∀ path name, isTemporary name = true → E (destination ++ path ++ [name]) ≠ some .dir

def Swept (destination : Path) (E E' : Path → Option Entry) (path : Path) : Prop :=
  (∃ name, path = destination ++ [name ++ ".rrjj-sync-tmp"]) ∧ E path ≠ some .dir ∧ E' path = none

structure DirectorySynced (source : Listing) (destination relative : Path)
    (E E' : Path → Option Entry) : Prop where
  inside : ∀ path, E' (destination ++ path) = source.mirrored relative path (E (destination ++ path))
  outside : ∀ path, ¬ destination <+: path → E' path = E path

structure EntriesSynced (source : Listing) (destination relative : Path)
    (E E' : Path → Option Entry) : Prop where
  inside : ∀ name ∈ source.names, ∀ path, E' (destination ++ name :: path) =
    source.mirrored relative (name :: path) (E (destination ++ name :: path))
  outside : ∀ path, (∀ name ∈ source.names, ¬ destination ++ [name] <+: path) →
    E' path = E path ∨ Swept destination E E' path

structure EntrySynced (source : Listing) (name : String) (destination relative : Path)
    (E E' : Path → Option Entry) : Prop where
  inside : ∀ path, E' (destination ++ name :: path) =
    source.mirrored relative (name :: path) (E (destination ++ name :: path))
  outside : ∀ path, ¬ destination ++ [name] <+: path → E' path = E path ∨ Swept destination E E' path

section
variable {source rest entries : Listing} {destination relative path : Path} {name first : String}
  {data : Bytes} {old : Option Entry} {E E₁ E' : Path → Option Entry}

theorem below_ne {first name : String} (path : Path) (hne : first ≠ name) :
    ¬ destination ++ [name] <+: destination ++ first :: path := by
  intro hlonger
  have hcons := (List.prefix_append_right_inj destination).mp hlonger
  exact hne (List.cons_prefix_cons.mp hcons).1.symm

theorem below_short {q : Path} (hq : q <+: destination) : ¬ destination ++ [name] <+: q := by
  intro hlonger
  have hlength := (hlonger.trans hq).length_le
  simp at hlength

theorem Swept.temporary (swept : Swept destination E E' (destination ++ first :: path)) :
    isTemporary first = true := by
  obtain ⟨⟨other, hpath⟩, -⟩ := swept
  obtain ⟨rfl, -⟩ := List.cons.inj (List.append_cancel_left hpath)
  exact isTemporary_append other

theorem Swept.not_short {q : Path} (hq : q <+: destination) : ¬ Swept destination E E' q := by
  rintro ⟨⟨other, rfl⟩, -⟩
  have hlength := hq.length_le
  simp at hlength

theorem EntrySynced.other (synced : EntrySynced source name destination relative E E₁)
    (hne : first ≠ name) (hfirst : isTemporary first = false) :
    E₁ (destination ++ first :: path) = E (destination ++ first :: path) := by
  rcases synced.outside _ (below_ne path hne) with hsame | hswept
  · exact hsame
  · exact absurd hswept.temporary (by rw [hfirst]; simp)

theorem EntrySynced.way (synced : EntrySynced source name destination relative E E₁)
    (way : ∀ q, q <+: destination → E q = some .dir) : ∀ q, q <+: destination → E₁ q = some .dir := by
  intro q hq
  rcases synced.outside q (below_short hq) with hsame | hswept
  · rw [hsame]
    exact way q hq
  · exact absurd hswept (Swept.not_short hq)

theorem EntrySynced.tidy (synced : EntrySynced source name destination relative E E₁)
    (regular : source.Regular) (tidy : NoTemporaryDirs destination E) :
    NoTemporaryDirs destination E₁ := by
  intro path last hlast hdir
  by_cases hbelow : destination ++ [name] <+: destination ++ path ++ [last]
  · obtain ⟨below, hpath⟩ := hbelow
    rw [List.append_assoc, List.append_assoc] at hpath
    have hrest : path ++ [last] = name :: below := (List.append_cancel_left hpath).symm
    rw [List.append_assoc, hrest, synced.inside] at hdir
    rcases Listing.mirrored_eq_dir hdir with hentry | hold
    · rw [← hrest, regular.entry_temporary hlast] at hentry
      exact absurd hentry (by simp)
    · rw [← hrest, ← List.append_assoc] at hold
      exact tidy path last hlast hold
  · rcases synced.outside _ hbelow with hsame | hswept
    · rw [hsame] at hdir
      exact tidy path last hlast hdir
    · rw [hswept.2.2] at hdir
      exact absurd hdir (by simp)

theorem EntriesSynced.cons (begins : source.Begins name rest) (regular : source.Regular)
    (first : EntrySynced source name destination relative E E₁)
    (others : EntriesSynced rest destination relative E₁ E') :
    EntriesSynced source destination relative E E' := by
  have hlisted : ∀ other ∈ rest.names, isTemporary other = false := fun other hother =>
    regular.not_temporary (by rw [begins.names]; exact List.mem_cons_of_mem _ hother)
  have hname : isTemporary name = false :=
    regular.not_temporary (by rw [begins.names]; exact List.mem_cons.mpr (Or.inl rfl))
  constructor
  · intro other hother path
    rw [begins.names] at hother
    rcases List.mem_cons.mp hother with rfl | hother
    · have hothers : ∀ listed ∈ rest.names,
          ¬ destination ++ [listed] <+: destination ++ other :: path := by
        intro listed hlisted
        apply below_ne path
        rintro rfl
        exact begins.fresh hlisted
      rw [← first.inside path]
      rcases others.outside _ hothers with hsame | hswept
      · exact hsame
      · exact absurd hswept.temporary (by rw [hname]; simp)
    · have hne : other ≠ name := by
        intro hsame
        rw [hsame] at hother
        exact begins.fresh hother
      rw [others.inside other hother path, first.other hne (hlisted other hother), begins.mirrored hne]
  · intro path hpath
    rw [begins.names] at hpath
    have hfirst := first.outside path (hpath name (List.mem_cons.mpr (Or.inl rfl)))
    have hothers := others.outside path fun o ho => hpath o (List.mem_cons_of_mem _ ho)
    rcases hothers with hsame | ⟨hname, hdir, hnone⟩
    · rcases hfirst with hsame' | ⟨hname, hdir, hnone⟩
      · exact Or.inl (hsame.trans hsame')
      · exact Or.inr ⟨hname, hdir, hsame.trans hnone⟩
    · refine Or.inr ⟨hname, ?_, hnone⟩
      rcases hfirst with hsame' | ⟨-, hdir', -⟩
      · rw [← hsame']
        exact hdir
      · exact hdir'

theorem Fits.congr (fits : Fits source destination relative E)
    (agree : ∀ name ∈ source.names, ∀ path,
      E₁ (destination ++ name :: path) = E (destination ++ name :: path))
    (root : ∀ data, E₁ destination ≠ some (.file data)) : Fits source destination relative E₁ := by
  constructor
  · intro path data hentry hmutable
    rcases path with _ | ⟨name, path⟩
    · rw [Listing.entry_nil] at hentry
      exact absurd hentry (by simp)
    · rw [agree name (Listing.entry_names (by rw [hentry]; simp)) path]
      exact fits.files _ data hentry hmutable
  · intro path hentry data
    rcases path with _ | ⟨name, path⟩
    · rw [List.append_nil]
      exact root data
    · rw [agree name (Listing.entry_names (by rw [hentry]; simp)) path]
      exact fits.dirs _ hentry data

theorem Listing.Begins.entry_others {first : String} {path : Path} {e : Entry}
    (begins : source.Begins name rest) (h : rest.entry (first :: path) = some e) :
    source.entry (first :: path) = some e := by
  have hne : first ≠ name := by
    rintro rfl
    exact begins.fresh (Listing.entry_names (by rw [h]; simp))
  rw [begins.others first path hne]
  exact h

theorem Fits.cons_iff (begins : source.Begins name rest) (root : E destination = some .dir) :
    Fits source destination relative E ↔
      ((∀ path data, source.entry (name :: path) = some (.file data) →
          isImmutableRepositoryFile (relative ++ name :: path) = false →
            E (destination ++ name :: path) ≠ some .dir) ∧
        ∀ path, source.entry (name :: path) = some .dir →
          ∀ data, E (destination ++ name :: path) ≠ some (.file data)) ∧
      Fits rest destination relative E := by
  constructor
  · intro fits
    refine ⟨⟨fun path => fits.files _, fun path => fits.dirs _⟩, ?_, ?_⟩
    · intro path data hentry
      rcases path with _ | ⟨first, path⟩
      · rw [Listing.entry_nil] at hentry
        exact absurd hentry (by simp)
      · exact fits.files _ data (begins.entry_others hentry)
    · intro path hentry
      rcases path with _ | ⟨first, path⟩
      · exact fits.dirs [] (Listing.entry_nil source)
      · exact fits.dirs _ (begins.entry_others hentry)
  · -- a path is below the first entry or below one of the others
    rintro ⟨⟨hfiles, hdirs⟩, hrest⟩
    constructor
    · intro path data hentry
      rcases path with _ | ⟨first, path⟩
      · rw [Listing.entry_nil] at hentry
        exact absurd hentry (by simp)
      · by_cases hname : first = name
        · rw [hname] at hentry ⊢
          exact hfiles path data hentry
        · rw [begins.others first path hname] at hentry
          exact hrest.files _ data hentry
    · intro path hentry data
      rcases path with _ | ⟨first, path⟩
      · rw [List.append_nil, root]
        simp
      · by_cases hname : first = name
        · rw [hname] at hentry ⊢
          exact hdirs path hentry data
        · rw [begins.others first path hname] at hentry
          exact hrest.dirs _ hentry data

theorem Fits.rest_iff (begins : source.Begins name rest) (regular : source.Regular)
    (first : EntrySynced source name destination relative E E₁)
    (way : ∀ q, q <+: destination → E q = some .dir) :
    Fits rest destination relative E₁ ↔ Fits rest destination relative E := by
  have hagree : ∀ other ∈ rest.names, ∀ path,
      E₁ (destination ++ other :: path) = E (destination ++ other :: path) := by
    intro other hother path
    refine first.other ?_ (regular.not_temporary ?_)
    · rintro rfl
      exact begins.fresh hother
    · rw [begins.names]
      exact List.mem_cons_of_mem _ hother
  have hroot : E destination = some .dir := way destination (List.prefix_refl _)
  have hroot₁ : E₁ destination = some .dir := first.way way destination (List.prefix_refl _)
  constructor
  · intro fits
    exact fits.congr (fun other hother path => (hagree other hother path).symm) (by rw [hroot]; simp)
  · intro fits
    exact fits.congr hagree (by rw [hroot₁]; simp)

theorem EntrySynced.of_file {relative : Path}
    (put : FilePut (destination ++ [name])
      (replaced (relative ++ [name]) data (E (destination ++ [name]))) E E₁)
    (htemporary : isTemporary name = false) :
    EntrySynced (.file name data rest) name destination relative E E₁ := by
  have hswept : ∀ path, path = temporaryPath (destination ++ [name]) ∧ E path ≠ some .dir ∧
      E₁ path = none → Swept destination E E₁ path := by
    rintro path ⟨rfl, hdir, hnone⟩
    exact ⟨⟨name, temporaryPath_concat destination name⟩, hdir, hnone⟩
  constructor
  · intro path
    rcases path with _ | ⟨second, path⟩
    · rw [Listing.mirrored_file_self]
      exact put.here
    · rw [Listing.mirrored_file_below (by simp)]
      rcases put.elsewhere (destination ++ name :: second :: path) (by simp) with hsame | hcleared
      · exact hsame
      · have hname := (hswept _ hcleared).temporary
        rw [htemporary] at hname
        exact absurd hname (by decide)
  · intro path hpath
    have hne : path ≠ destination ++ [name] := by
      rintro rfl
      exact hpath (List.prefix_refl _)
    exact (put.elsewhere path hne).imp id (hswept path)

theorem EntrySynced.of_dir
    (synced : DirectorySynced entries (destination ++ [name]) (relative ++ [name]) E E₁) :
    EntrySynced (.dir name entries rest) name destination relative E E₁ := by
  constructor
  · intro path
    have hpath : destination ++ name :: path = destination ++ [name] ++ path := by simp
    rw [hpath, synced.inside path, Listing.mirrored_dir]
  · exact fun path hpath => Or.inl (synced.outside path hpath)

theorem DirectorySynced.of_entries {F E₂ : Path → Option Entry} (hF : F destination = some .dir)
    (same : ∀ path, path ≠ destination → F path = E path)
    (synced : EntriesSynced source destination relative F E₂)
    (removed : ∀ name, name ∉ source.names →
      E' (destination ++ [name]) = dropped (relative ++ [name]) (E₂ (destination ++ [name])))
    (kept : ∀ path, (∀ name, name ∉ source.names → path ≠ destination ++ [name]) → E' path = E₂ path) :
    DirectorySynced source destination relative E E' := by
  have hbelow : ∀ name path, F (destination ++ name :: path) = E (destination ++ name :: path) :=
    fun name path => same _ (by simp)
  constructor
  · intro path
    rcases path with _ | ⟨name, path⟩
    · have hkept : E' destination = E₂ destination := kept destination (by simp)
      have hdir : E₂ destination = some .dir := by
        rcases synced.outside destination fun name _ => below_short (List.prefix_refl _) with
          hsame | hswept
        · exact hsame.trans hF
        · exact absurd hswept (Swept.not_short (List.prefix_refl _))
      rw [List.append_nil, hkept, hdir, Listing.mirrored_of_dir (Listing.entry_nil source)]
    -- below a name of the source only its own synchronization has written
    by_cases hlisted : name ∈ source.names
    · have hkept : E' (destination ++ name :: path) = E₂ (destination ++ name :: path) := by
        refine kept _ fun other hother hsame => ?_
        obtain ⟨rfl, -⟩ := List.cons.inj (List.append_cancel_left hsame)
        exact hother hlisted
      rw [hkept, synced.inside name hlisted path, hbelow]
    have hsynced := synced.outside (destination ++ name :: path) fun other hother =>
      below_ne path fun hsame => hlisted (hsame ▸ hother)
    rw [hbelow] at hsynced
    rcases path with _ | ⟨second, path⟩
    · rw [removed name hlisted, Listing.mirrored_dropped hlisted]
      rcases hsynced with hsame | ⟨⟨other, hpath⟩, hdir, hnone⟩
      · rw [hsame]
      · -- a leftover of an earlier copy, removed before a new one
        have hname : name = other ++ ".rrjj-sync-tmp" :=
          List.singleton_inj.mp (List.append_cancel_left hpath)
        rw [hbelow] at hdir
        rw [hnone]
        rcases hentry : E (destination ++ [name]) with _ | ⟨data⟩ | _
        · rfl
        · rw [hname, dropped_mutable (temporary_mutable relative other)]
          rfl
        · exact absurd hentry hdir
    · have hkept : E' (destination ++ name :: second :: path) =
          E₂ (destination ++ name :: second :: path) := kept _ (by simp)
      rw [Listing.mirrored_unlisted hlisted (by simp), hkept]
      rcases hsynced with hsame | ⟨⟨other, hpath⟩, -⟩
      · exact hsame
      · exact absurd hpath (by simp)
  · intro path hpath
    have hkept : E' path = E₂ path := by
      refine kept path fun name _ hsame => hpath ?_
      rw [hsame]
      exact List.prefix_append _ _
    have hnot : ∀ name ∈ source.names, ¬ destination ++ [name] <+: path :=
      fun name _ hlonger => hpath ((List.prefix_append _ _).trans hlonger)
    have hne : path ≠ destination := by
      rintro rfl
      exact hpath (List.prefix_refl _)
    rw [hkept, ← same path hne]
    rcases synced.outside path hnot with hsame | ⟨⟨name, rfl⟩, -⟩
    · exact hsame
    · exact absurd (List.prefix_append _ _) hpath

end

end Rrjj
