import Rrjj.Sinks.LocalRules

/-! The trees of a shadow repository, and what a sync of one leaves at every path of what was
there. -/

namespace Rrjj
open Library

def Listing.entry : Listing → Path → Option Entry
  | _, [] => some .dir
  | .done, _ :: _ => none
  | .file name data rest, first :: path =>
    if first = name then if path = [] then some (.file data) else none
    else rest.entry (first :: path)
  | .dir name entries rest, first :: path =>
    if first = name then entries.entry path else rest.entry (first :: path)
  | .symlink _ rest, first :: path => rest.entry (first :: path)
  | .other _ rest, first :: path => rest.entry (first :: path)

def isTemporary (name : String) : Bool := ".rrjj-sync-tmp".toList.isSuffixOf name.toList

/-- Regular files and directories only, under names of their own. -/
def Listing.Regular : Listing → Prop
  | .done => True
  | .file name _ rest => name ∉ rest.names ∧ isTemporary name = false ∧ rest.Regular
  | .dir name entries rest =>
    name ∉ rest.names ∧ isTemporary name = false ∧ entries.Regular ∧ rest.Regular
  | .symlink _ _ => False
  | .other _ _ => False

def replaced (relative : Path) (data : Bytes) (old : Option Entry) : Option Entry :=
  if isImmutableRepositoryFile relative && old.isSome then old else some (.file data)

def dropped (relative : Path) : Option Entry → Option Entry
  | some (.file data) => if isImmutableRepositoryFile relative then some (.file data) else none
  | old => old

def Listing.mirrored (source : Listing) (relative path : Path) (old : Option Entry) : Option Entry :=
  match source.entry path with
  | some (.file data) => replaced (relative ++ path) data old
  | some .dir => some .dir
  | none => if source.entry path.dropLast = some .dir then dropped (relative ++ path) old else old

structure Listing.Begins (source : Listing) (name : String) (rest : Listing) : Prop where
  names : source.names = name :: rest.names
  fresh : name ∉ rest.names
  others : ∀ first path, first ≠ name → source.entry (first :: path) = rest.entry (first :: path)

section
variable {source rest entries : Listing} {relative path : Path} {name first : String} {data : Bytes}
  {old : Option Entry}

theorem dropped_immutable (h : isImmutableRepositoryFile relative = true) :
    dropped relative old = old := by
  unfold dropped
  split
  · rw [if_pos h]
  · rfl

theorem dropped_mutable (h : isImmutableRepositoryFile relative = false) :
    dropped relative (some (.file data)) = none := by
  unfold dropped
  rw [h]
  rfl

theorem dropped_eq_file (h : dropped relative old = some (.file data)) :
    isImmutableRepositoryFile relative = true ∧ old = some (.file data) := by
  unfold dropped at h
  split at h
  · split_ifs at h with himmutable
    exact ⟨himmutable, h⟩
  · next hkind => exact absurd h (hkind data)

theorem replaced_eq_file_iff :
    replaced relative data old = some (.file data) ↔
      (isImmutableRepositoryFile relative = true → ∀ e, old = some e → e = .file data) := by
  unfold replaced
  cases old with
  | none => simp
  | some e => cases isImmutableRepositoryFile relative <;> simp

theorem Listing.mirrored_of_file (h : source.entry path = some (.file data)) :
    source.mirrored relative path old = replaced (relative ++ path) data old := by
  unfold Listing.mirrored
  rw [h]

theorem Listing.mirrored_of_dir (h : source.entry path = some .dir) :
    source.mirrored relative path old = some .dir := by
  unfold Listing.mirrored
  rw [h]

theorem Listing.mirrored_of_gone (h : source.entry path = none)
    (parent : source.entry path.dropLast = some .dir) :
    source.mirrored relative path old = dropped (relative ++ path) old := by
  unfold Listing.mirrored
  rw [h]
  exact if_pos parent

theorem Listing.mirrored_of_lost (h : source.entry path = none)
    (parent : source.entry path.dropLast ≠ some .dir) : source.mirrored relative path old = old := by
  unfold Listing.mirrored
  rw [h]
  exact if_neg parent

theorem isTemporary_append (name : String) : isTemporary (name ++ ".rrjj-sync-tmp") = true := by
  unfold isTemporary
  rw [List.isSuffixOf_iff_suffix, String.toList_append]
  exact List.suffix_append _ _

theorem Listing.entry_nil (source : Listing) : source.entry [] = some .dir := by
  cases source <;> rfl

theorem Listing.entry_names (h : source.entry (first :: path) ≠ none) : first ∈ source.names := by
  induction source with
  | done => exact absurd rfl h
  | file name data rest ih =>
    by_cases hfirst : first = name
    · exact List.mem_cons.mpr (Or.inl hfirst)
    · rw [Listing.entry, if_neg hfirst] at h
      exact List.mem_cons_of_mem _ (ih h)
  | dir name entries rest _ ih =>
    by_cases hfirst : first = name
    · exact List.mem_cons.mpr (Or.inl hfirst)
    · rw [Listing.entry, if_neg hfirst] at h
      exact List.mem_cons_of_mem _ (ih h)
  | symlink name rest ih => exact List.mem_cons_of_mem _ (ih h)
  | other name rest ih => exact List.mem_cons_of_mem _ (ih h)

theorem Listing.entry_unlisted (h : first ∉ source.names) : source.entry (first :: path) = none := by
  by_contra hsome
  exact h (entry_names hsome)

theorem Listing.entry_parent (h : source.entry path ≠ none) (hne : path ≠ []) :
    source.entry path.dropLast = some .dir := by
  obtain ⟨first, path, rfl⟩ := List.exists_cons_of_ne_nil hne
  induction source generalizing first path with
  | done => exact absurd rfl h
  | file name data rest ih =>
    rcases path with _ | ⟨second, path⟩
    · exact Listing.entry_nil _
    by_cases hfirst : first = name
    · rw [Listing.entry, if_pos hfirst, if_neg (by simp)] at h
      exact absurd rfl h
    · rw [Listing.entry, if_neg hfirst] at h
      rw [List.dropLast_cons_of_ne_nil (by simp), Listing.entry, if_neg hfirst]
      exact ih first (second :: path) h (by simp)
  | dir name entries rest ihEntries ihRest =>
    rcases path with _ | ⟨second, path⟩
    · exact Listing.entry_nil _
    by_cases hfirst : first = name
    · rw [Listing.entry, if_pos hfirst] at h
      rw [List.dropLast_cons_of_ne_nil (by simp), Listing.entry, if_pos hfirst]
      exact ihEntries second path h (by simp)
    · rw [Listing.entry, if_neg hfirst] at h
      rw [List.dropLast_cons_of_ne_nil (by simp), Listing.entry, if_neg hfirst]
      exact ihRest first (second :: path) h (by simp)
  | symlink name rest ih =>
    rcases path with _ | ⟨second, path⟩
    · exact Listing.entry_nil _
    exact ih first (second :: path) h (by simp)
  | other name rest ih =>
    rcases path with _ | ⟨second, path⟩
    · exact Listing.entry_nil _
    exact ih first (second :: path) h (by simp)

theorem Listing.Regular.not_temporary (regular : source.Regular) (h : first ∈ source.names) :
    isTemporary first = false := by
  induction source with
  | done => exact absurd h List.not_mem_nil
  | file name data rest ih =>
    rcases List.mem_cons.mp h with rfl | h
    · exact regular.2.1
    · exact ih regular.2.2 h
  | dir name entries rest _ ih =>
    rcases List.mem_cons.mp h with rfl | h
    · exact regular.2.1
    · exact ih regular.2.2.2 h
  | symlink name rest => exact absurd regular id
  | other name rest => exact absurd regular id

theorem Listing.begins_file (regular : (Listing.file name data rest).Regular) :
    (Listing.file name data rest).Begins name rest :=
  ⟨rfl, regular.1, fun _ _ hne => if_neg hne⟩

theorem Listing.begins_dir (regular : (Listing.dir name entries rest).Regular) :
    (Listing.dir name entries rest).Begins name rest :=
  ⟨rfl, regular.1, fun _ _ hne => if_neg hne⟩

theorem Listing.Regular.entry_temporary (regular : source.Regular)
    (htemporary : isTemporary name = true) :
    source.entry (path ++ [name]) = none := by
  induction source generalizing path with
  | done => cases path <;> rfl
  | file other data rest ih =>
    obtain ⟨hfresh, hother, hrest⟩ := regular
    rcases path with _ | ⟨first, path⟩
    · have hne : name ≠ other := by
        rintro rfl
        rw [htemporary] at hother
        exact absurd hother (by decide)
      rw [List.nil_append, Listing.entry, if_neg hne]
      exact @ih [] hrest
    · rw [List.cons_append, Listing.entry]
      split_ifs with hfirst hpath
      · exact absurd hpath (by simp)
      · rfl
      · exact @ih (first :: path) hrest
  | dir other entries rest ihEntries ihRest =>
    obtain ⟨hfresh, hother, hentries, hrest⟩ := regular
    rcases path with _ | ⟨first, path⟩
    · have hne : name ≠ other := by
        rintro rfl
        rw [htemporary] at hother
        exact absurd hother (by decide)
      rw [List.nil_append, Listing.entry, if_neg hne]
      exact @ihRest [] hrest
    · rw [List.cons_append, Listing.entry]
      split_ifs with hfirst
      · exact ihEntries hentries
      · exact @ihRest (first :: path) hrest
  | symlink other rest => exact absurd regular id
  | other other rest => exact absurd regular id

theorem Listing.mirrored_unlisted (h : first ∉ source.names) (hne : path ≠ []) :
    source.mirrored relative (first :: path) old = old := by
  refine Listing.mirrored_of_lost (Listing.entry_unlisted h) ?_
  rw [List.dropLast_cons_of_ne_nil hne, Listing.entry_unlisted h]
  simp

theorem Listing.mirrored_dropped (h : first ∉ source.names) :
    source.mirrored relative [first] old = dropped (relative ++ [first]) old :=
  Listing.mirrored_of_gone (Listing.entry_unlisted h) (Listing.entry_nil source)

theorem Listing.Begins.mirrored (begins : source.Begins name rest) (hne : first ≠ name) :
    source.mirrored relative (first :: path) old = rest.mirrored relative (first :: path) old := by
  have hparent : source.entry (first :: path).dropLast = rest.entry (first :: path).dropLast := by
    rcases path with _ | ⟨second, path⟩
    · exact (Listing.entry_nil source).trans (Listing.entry_nil rest).symm
    · exact begins.others first _ hne
  unfold Listing.mirrored
  rw [begins.others first path hne, hparent]

theorem Listing.mirrored_file_self :
    (Listing.file name data rest).mirrored relative [name] old =
      replaced (relative ++ [name]) data old := by
  apply Listing.mirrored_of_file
  rw [Listing.entry, if_pos rfl, if_pos rfl]

theorem Listing.mirrored_file_below (hne : path ≠ []) :
    (Listing.file name data rest).mirrored relative (name :: path) old = old := by
  have hbelow : (Listing.file name data rest).entry (name :: path) = none := by
    rw [Listing.entry, if_pos rfl, if_neg hne]
  have hparent : (Listing.file name data rest).entry (name :: path).dropLast ≠ some .dir := by
    rw [List.dropLast_cons_of_ne_nil hne, Listing.entry, if_pos rfl]
    split_ifs <;> simp
  exact Listing.mirrored_of_lost hbelow hparent

theorem Listing.mirrored_dir : (Listing.dir name entries rest).mirrored relative (name :: path) old =
    entries.mirrored (relative ++ [name]) path old := by
  have hentry : ∀ path, (Listing.dir name entries rest).entry (name :: path) = entries.entry path :=
    fun path => if_pos rfl
  unfold Listing.mirrored
  rw [hentry, List.append_assoc, List.singleton_append]
  rcases path with _ | ⟨second, path⟩
  · rw [Listing.entry_nil]
  · rw [List.dropLast_cons_of_ne_nil (by simp), hentry]

theorem Listing.mirrored_eq_dir (h : source.mirrored relative path old = some .dir) :
    source.entry path = some .dir ∨ old = some .dir := by
  rcases hentry : source.entry path with _ | ⟨data⟩ | _
  · apply Or.inr
    by_cases hparent : source.entry path.dropLast = some .dir
    · rw [Listing.mirrored_of_gone hentry hparent] at h
      unfold dropped at h
      split at h
      · split_ifs at h
        exact absurd h (by simp)
      · exact h
    · rw [Listing.mirrored_of_lost hentry hparent] at h
      exact h
  · apply Or.inr
    rw [Listing.mirrored_of_file hentry] at h
    unfold replaced at h
    split_ifs at h
    · exact h
    · exact absurd h (by simp)
  · exact Or.inl rfl

end

end Rrjj
