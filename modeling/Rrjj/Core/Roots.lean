import Rrjj.Library.LinkTree
import Rrjj.Library.Fallible

/-! The watched root and the shadow: what is checked of the two paths, and where the metadata of jj goes
then. -/

namespace Rrjj
open Library LinkTree

abbrev RootTree := LinkTree String
abbrev RootPath := LinkPath String

def ioResult {α : Type} : Except LookupError α → Except String α
  | .ok value => .ok value
  | .error _ => .error "io"

def shadowEmpty (tree : RootTree) (shadow : RootPath) : Except String Unit :=
  if tree.pathExists shadow then do
    let names ← ioResult (tree.readDir shadow)
    if names.isEmpty then .ok () else .error "shadow root must be empty"
  else .ok ()

def rootsDiffer (watched shadow : List String) : Except String Unit :=
  if watched = shadow then .error "watched and shadow roots must differ"
  else if watched.isPrefixOf shadow ∨ shadow.isPrefixOf watched then
    .error "watched and shadow roots must not contain each other"
  else .ok ()

def validateRoots (tree : RootTree) (watched shadow : RootPath) : Except String Unit :=
  if !tree.isDir watched then .error "watched root must be an existing directory"
  else do
    shadowEmpty tree shadow
    let watched ← ioResult (tree.lookup watched)
    let parent ← shadow.parent.elim (.error "shadow root has no parent") .ok
    let parent ← ioResult (tree.lookup parent)
    let name ← shadow.fileName.elim (.error "shadow root has no name") .ok
    rootsDiffer watched (parent ++ [name])

def initDirectories (tree : RootTree) (shadow : RootPath) : Except String Unit × RootTree :=
  match tree.createDirAll shadow with
  | (.error _, left) => (.error "io", left)
  | (.ok (), created) =>
    if created.pathExists (shadow.join "repo") then (.error "shadow repository already exists", created)
    else
      match created.mkdir (shadow.join "repo") with
      | .ok made => (.ok (), made)
      | .error _ => (.error "io", created)

def DirsApart (watched shadow : List String) : Prop := ¬ watched <+: shadow ∧ ¬ shadow <+: watched

structure Validated (tree : RootTree) (watched shadow : RootPath) (watchedDir : List String)
    (parent : RootPath) (parentDir : List String) (name : String) : Prop where
  watched : tree.lookup watched = .ok watchedDir
  spelled : shadow = parent.join name
  parent : tree.lookup parent = .ok parentDir
  apart : DirsApart watchedDir (parentDir ++ [name])
  empty : ∀ place, tree.lookup shadow = .ok place → tree.node place = some .dir

section
variable {tree : RootTree} {watched shadow : RootPath}

theorem ioResult_ok_iff {α : Type} {result : Except LookupError α} {value : α} :
    ioResult result = .ok value ↔ result = .ok value := by
  cases result with
  | error failure => simp [ioResult]
  | ok found => simp [ioResult]

theorem elim_ok_iff {α : Type} {found : Option α} {message : String} {value : α} :
    (found.elim (.error message) .ok : Except String α) = .ok value ↔ found = some value := by
  cases found <;> simp

theorem rootsDiffer_apart {watched shadow : List String} (h : rootsDiffer watched shadow = .ok ()) :
    DirsApart watched shadow := by
  obtain ⟨-, h⟩ := ite_error_iff.mp h
  obtain ⟨hnot, -⟩ := ite_error_iff.mp h
  rw [not_or, List.isPrefixOf_iff_prefix, List.isPrefixOf_iff_prefix] at hnot
  exact hnot

theorem validateRoots_validated (h : validateRoots tree watched shadow = .ok ()) :
    ∃ watchedDir parent parentDir name,
      Validated tree watched shadow watchedDir parent parentDir name := by
  obtain ⟨-, h⟩ := ite_error_iff.mp h
  obtain ⟨⟨⟩, hempty, h⟩ := bind_ok_iff.mp h
  obtain ⟨watchedDir, hwatched, h⟩ := bind_ok_iff.mp h
  obtain ⟨parent, hparent, h⟩ := bind_ok_iff.mp h
  obtain ⟨parentDir, hparentDir, h⟩ := bind_ok_iff.mp h
  obtain ⟨name, hname, h⟩ := bind_ok_iff.mp h
  rw [elim_ok_iff] at hparent hname
  refine ⟨watchedDir, parent, parentDir, name, ioResult_ok_iff.mp hwatched,
    LinkPath.parts_of_fileName hparent hname, ioResult_ok_iff.mp hparentDir, rootsDiffer_apart h, ?_⟩
  intro place hplace
  have hexists : tree.pathExists shadow = true := by
    unfold LinkTree.pathExists
    rw [hplace]
    rfl
  unfold shadowEmpty at hempty
  rw [if_pos hexists] at hempty
  obtain ⟨names, hnames, -⟩ := bind_ok_iff.mp hempty
  rw [ioResult_ok_iff] at hnames
  unfold LinkTree.readDir at hnames
  rw [hplace] at hnames
  simp only at hnames
  split at hnames
  · next hdir => exact hdir
  · exact nomatch hnames

end

def ShadowLink (tree : RootTree) (shadow : RootPath) : Prop :=
  ∃ parent parentDir name target, shadow = parent.join name ∧ tree.lookup parent = .ok parentDir ∧
    tree.node (parentDir ++ [name]) = some (.link target)

def RootsApart (tree : RootTree) (watched shadow : RootPath) : Prop :=
  ∀ created watchedDir shadowDir, tree.createDirAll shadow = (.ok (), created) →
    created.lookup watched = .ok watchedDir → created.lookup shadow = .ok shadowDir →
      DirsApart watchedDir shadowDir

/-- The roots are apart, and nothing is made in the watched directory. -/
structure RootsSeparate (tree : RootTree) (watched shadow : RootPath) : Prop where
  apart : RootsApart tree watched shadow
  unwritten : ∀ watchedDir place, tree.lookup watched = .ok watchedDir →
    (initDirectories tree shadow).2.node place ≠ tree.node place → ¬ watchedDir <+: place

section
variable {tree created : RootTree} {watched shadow : RootPath} {watchedDir shadowDir : List String}

theorem createDirAll_link (accepted : validateRoots tree watched shadow = .ok ())
    (links : ShadowLink tree shadow) (h : tree.lookup shadow = .ok shadowDir) :
    tree.createDirAll shadow = (.ok (), tree) := by
  obtain ⟨_, _, _, _, hvalidated⟩ := validateRoots_validated accepted
  obtain ⟨parent, parentDir, name, target, rfl, hparent, hlink⟩ := links
  have hdir : tree.isDir (parent.join name) = true :=
    isDir_iff.mpr ⟨shadowDir, h, hvalidated.empty shadowDir h⟩
  exact createDirAll_present hparent (by rw [hlink]; simp) hdir

theorem rootsApart_of_link (accepted : validateRoots tree watched shadow = .ok ())
    (apart : ShadowLink tree shadow → ∀ watchedDir shadowDir, tree.lookup watched = .ok watchedDir →
      tree.lookup shadow = .ok shadowDir → DirsApart watchedDir shadowDir) :
    RootsApart tree watched shadow := by
  intro created watchedDir shadowDir done hwatched hshadow
  obtain ⟨validatedDir, parent, parentDir, name, hvalidated⟩ := validateRoots_validated accepted
  have hspelled := hvalidated.spelled
  subst hspelled
  have hparent := leads_of_lookup hvalidated.parent
  rcases createDirAll_cases hvalidated.parent done with ⟨directory, free, rfl⟩ | rfl
  · -- the shadow is made where the checks took it to be
    have hextends : tree.Extends (tree.makeEntry parentDir name .dir directory free) :=
      makeEntry_extends directory free
    have hsame : validatedDir = watchedDir :=
      Except.ok.inj ((hextends.lookup hvalidated.watched).symm.trans hwatched)
    have hnew : (tree.makeEntry parentDir name .dir directory free).node (parentDir ++ [name]) =
        some .dir := makeEntry_node directory free
    rcases (hparent.mono hextends).last (leads_of_lookup hshadow) with hplace | ⟨target, hlink⟩
    · rw [← hsame, hplace]
      exact hvalidated.apart
    · rw [hnew] at hlink
      exact nomatch hlink
  · -- nothing was made, so the shadow was there: where the checks took it to be, or behind a link
    have hsame : validatedDir = watchedDir := Except.ok.inj (hvalidated.watched.symm.trans hwatched)
    rcases hparent.last (leads_of_lookup hshadow) with hplace | ⟨target, hlink⟩
    · rw [← hsame, hplace]
      exact hvalidated.apart
    · exact apart ⟨parent, parentDir, name, target, rfl, hvalidated.parent, hlink⟩ _ _ hwatched hshadow

theorem DirsApart.below {watched shadow place : List String} (h : DirsApart watched shadow) {name : String}
    (new : watched ≠ shadow ++ [name]) (below : place = shadow ∨ place = shadow ++ [name]) :
    ¬ watched <+: place := by
  rintro hwatched
  rcases below with rfl | rfl
  · exact h.1 hwatched
  · rcases List.prefix_concat_iff.mp hwatched with hsame | hshadow
    · exact new hsame
    · exact h.1 hshadow

theorem createDirAll_outside (accepted : validateRoots tree watched shadow = .ok ())
    (h : tree.lookup watched = .ok watchedDir) {result : Except LookupError Unit}
    (done : tree.createDirAll shadow = (result, created)) :
    tree.Extends created ∧ ∀ place, created.node place ≠ tree.node place → ¬ watchedDir <+: place := by
  obtain ⟨validatedDir, parent, parentDir, name, hvalidated⟩ := validateRoots_validated accepted
  have hspelled := hvalidated.spelled
  subst hspelled
  have hsame : validatedDir = watchedDir := Except.ok.inj (hvalidated.watched.symm.trans h)
  rcases createDirAll_cases hvalidated.parent done with ⟨directory, free, rfl⟩ | rfl
  · refine ⟨makeEntry_extends directory free, fun place changed => ?_⟩
    rw [makeEntry_other directory free changed, ← hsame]
    exact hvalidated.apart.1
  · exact ⟨⟨fun _ _ h => h, rfl, rfl⟩, fun _ changed => absurd rfl changed⟩

theorem initDirectories_outside (accepted : validateRoots tree watched shadow = .ok ())
    (apart : RootsApart tree watched shadow) (h : tree.lookup watched = .ok watchedDir)
    {place : List String} (changed : (initDirectories tree shadow).2.node place ≠ tree.node place) :
    ¬ watchedDir <+: place := by
  rcases hdone : tree.createDirAll shadow with ⟨result, created⟩
  obtain ⟨hextends, hcreated⟩ := createDirAll_outside accepted h hdone
  unfold initDirectories at changed
  rw [hdone] at changed
  rcases result with failure | ⟨⟩
  · exact hcreated place changed
  · simp only at changed
    split_ifs at changed
    · exact hcreated place changed
    · rcases hrepo : created.mkdir (shadow.join "repo") with failure | made
      · rw [hrepo] at changed
        exact hcreated place changed
      · rw [hrepo] at changed
        obtain ⟨shadowDir, name, directory, free, hname, hwalk, rfl⟩ := mkdir_ok hrepo
        by_cases hold : created.node place = tree.node place
        · -- the repository is made in the shadow
          obtain ⟨_, parent, _, _, hvalidated⟩ := validateRoots_validated accepted
          have hshadow : created.lookup shadow = .ok shadowDir := by
            have hparts : (shadow.join "repo").parts.dropLast = shadow.parts := List.dropLast_concat
            rw [hparts] at hwalk
            unfold LinkTree.lookup
            rw [if_neg (by rw [hvalidated.spelled]; simp [LinkPath.join])]
            exact hwalk
          rw [← hold] at changed
          have hplace := makeEntry_other directory free changed
          have hthere := found_of_lookup (hextends.lookup h)
          refine (apart created watchedDir shadowDir hdone (hextends.lookup h) hshadow).below ?_
            (Or.inr hplace)
          rintro rfl
          exact hthere free
        · exact hcreated place hold

end

/-- Accepted roots are separate exactly when a shadow that is a link leads apart from the watched
directory. -/
theorem validated_roots_separate_iff (tree : RootTree) (watched shadow : RootPath)
    (accepted : validateRoots tree watched shadow = .ok ()) :
    RootsSeparate tree watched shadow ↔
      (ShadowLink tree shadow → ∀ watchedDir shadowDir, tree.lookup watched = .ok watchedDir →
        tree.lookup shadow = .ok shadowDir → DirsApart watchedDir shadowDir) := by
  constructor
  · intro h links watchedDir shadowDir hwatched hshadow
    exact h.apart tree watchedDir shadowDir (createDirAll_link accepted links hshadow) hwatched hshadow
  · intro apart
    have hroots := rootsApart_of_link accepted apart
    exact ⟨hroots, fun watchedDir place h changed => initDirectories_outside accepted hroots h changed⟩

def watchedTree : RootTree :=
  ((LinkTree.empty 40).makeEntry [] "w" .dir (by decide) (by decide)).makeEntry ["w"] "inner" .dir
    (by decide) (by decide)

def linkedTree : RootTree :=
  watchedTree.makeEntry [] "shadow" (.link ⟨true, [.name "w", .name "inner"]⟩) (by decide) (by decide)

def watchedPath : RootPath := ⟨true, [.name "w"]⟩
def shadowPath : RootPath := ⟨true, [.name "shadow"]⟩

theorem validated_roots_separate_iff_new :
    RootsSeparate watchedTree watchedPath shadowPath ↔
      (ShadowLink watchedTree shadowPath → ∀ watchedDir shadowDir,
        watchedTree.lookup watchedPath = .ok watchedDir →
          watchedTree.lookup shadowPath = .ok shadowDir → DirsApart watchedDir shadowDir) :=
  validated_roots_separate_iff watchedTree watchedPath shadowPath (by decide +kernel)

/-- A link to an empty directory in the watched tree is accepted for a shadow. -/
theorem linked_shadow_is_inside :
    ¬ ∀ tree watched shadow, validateRoots tree watched shadow = .ok () →
      RootsSeparate tree watched shadow := by
  intro h
  have hseparate := h linkedTree watchedPath shadowPath (by decide +kernel)
  have hlink : ShadowLink linkedTree shadowPath :=
    ⟨⟨true, []⟩, [], "shadow", ⟨true, [.name "w", .name "inner"]⟩, rfl, by decide +kernel,
      by decide +kernel⟩
  have hshadow : linkedTree.lookup shadowPath = .ok ["w", "inner"] := by decide +kernel
  have hwatched : linkedTree.lookup watchedPath = .ok ["w"] := by decide +kernel
  have hdone := createDirAll_link (by decide +kernel : validateRoots linkedTree watchedPath shadowPath = .ok ())
    hlink hshadow
  exact (hseparate.apart linkedTree ["w"] ["w", "inner"] hdone hwatched hshadow).1 (by simp)

end Rrjj
