import Rrjj.Core.Ignores

/-! The paths of the audit: what the watcher makes of a path as it is spelled, next to the path that
jj gives the same file. -/

namespace Rrjj

/-- A path by what is between its slashes: a part may be empty, or a dot. -/
structure SpelledPath where
  isAbsolute : Bool
  parts : List Text
  named : ∀ part ∈ parts, slash ∉ part

def isComponent (part : Text) : Bool := part ≠ [] ∧ part ≠ ['.']

def components (parts : List Text) : List Text := parts.filter isComponent

def asPath (parts : List Text) : List Text :=
  (parts.dropWhile fun part => !isComponent part).rdropWhile fun part => !isComponent part

def afterComponents : ℕ → List Text → List Text
  | 0, parts => parts
  | _, [] => []
  | count + 1, part :: parts =>
    if isComponent part then afterComponents count parts else afterComponents (count + 1) parts

def stripSpelled (root parts : List Text) : Option (List Text) :=
  if root.isPrefixOf (components parts) then some (asPath (afterComponents root.length parts)) else none

namespace SpelledPath

def absolute (currentDir : Option SpelledPath) (path : SpelledPath) : Option (List Text) :=
  if path.isAbsolute then some path.parts
  else currentDir.map fun directory => directory.parts ++ path.parts

def isIgnored (relative : List Text) (isMatch : Text → Bool) (literalIgnores : List Text) : Bool :=
  relative.isEmpty || isMatch (joined relative) ||
    (components relative).any fun component =>
      literalIgnores.any fun ignore => component = trimMatches ignore

def watcherPath (currentDir : Option SpelledPath) (root : List Text) (path : SpelledPath)
    (excluded : List (List Text)) (isMatch : Text → Bool) (literalIgnores : List Text) : Option Text := do
  let parts ← path.absolute currentDir
  if excluded.any fun excluded => excluded.isPrefixOf (components parts) then none
  else do
    let relative ← stripSpelled root parts
    if isIgnored relative isMatch literalIgnores then none
    else some ((joined relative).map fun c => if c = '\\' then slash else c)

end SpelledPath

/-- `as_internal_file_string`, from the components of a file below the root -/
def internalFileString (file : List Text) : Text := joined file

theorem components_dropWhile (parts : List Text) :
    components (parts.dropWhile fun part => !isComponent part) = components parts := by
  induction parts with
  | nil => rfl
  | cons part parts ih =>
    rcases hpart : isComponent part with _ | _
    · rw [List.dropWhile_cons_of_pos (by simp [hpart]), ih]
      show _ = List.filter _ _
      rw [List.filter_cons_of_neg (by simp [hpart])]
      rfl
    · rw [List.dropWhile_cons_of_neg (by simp [hpart])]

theorem components_asPath (parts : List Text) : components (asPath parts) = components parts := by
  have hreverse : ∀ list : List Text, components list.reverse = (components list).reverse :=
    fun list => List.filter_reverse
  unfold asPath List.rdropWhile
  rw [hreverse, components_dropWhile, hreverse, List.reverse_reverse, components_dropWhile]

theorem components_afterComponents (count : ℕ) (parts : List Text) :
    components (afterComponents count parts) = (components parts).drop count := by
  induction parts generalizing count with
  | nil => cases count <;> simp [afterComponents, components]
  | cons part parts ih =>
    cases count with
    | zero => rfl
    | succ count =>
      rcases hpart : isComponent part with _ | _
      · have hcomponents : components (part :: parts) = components parts :=
          List.filter_cons_of_neg (by simp [hpart])
        rw [afterComponents, if_neg (by simp [hpart]), ih, hcomponents]
      · have hcomponents : components (part :: parts) = part :: components parts :=
          List.filter_cons_of_pos hpart
        rw [afterComponents, if_pos hpart, ih, hcomponents, List.drop_succ_cons]

section
variable {root parts relative : List Text}

theorem stripSpelled_components (h : stripSpelled root parts = some relative) :
    components parts = root ++ components relative := by
  unfold stripSpelled at h
  split_ifs at h with hroot
  obtain ⟨rest, hrest⟩ := List.isPrefixOf_iff_prefix.mp hroot
  rw [← Option.some.inj h, components_asPath, components_afterComponents, ← hrest, List.drop_left]

theorem stripSpelled_named (named : ∀ part ∈ parts, slash ∉ part)
    (h : stripSpelled root parts = some relative) : ∀ part ∈ relative, slash ∉ part := by
  have hafter : ∀ count (list : List Text), afterComponents count list <:+ list := by
    intro count list
    induction list generalizing count with
    | nil => cases count <;> exact List.suffix_rfl
    | cons part list ih =>
      cases count with
      | zero => exact List.suffix_rfl
      | succ count =>
        unfold afterComponents
        split_ifs
        · exact (ih count).trans (List.suffix_cons part list)
        · exact (ih (count + 1)).trans (List.suffix_cons part list)
  unfold stripSpelled at h
  split_ifs at h
  intro part hpart
  rw [← Option.some.inj h] at hpart
  have htrimmed := (List.rdropWhile_prefix _ _).subset hpart
  have hdropped := (List.dropWhile_suffix _).subset htrimmed
  exact named part ((hafter _ _).subset hdropped)

end

section
variable {root list : List Text} (plain : ∀ part ∈ list, isComponent part = true)
include plain

theorem components_plain : components list = list := List.filter_eq_self.mpr plain

theorem afterComponents_plain (count : ℕ) : afterComponents count list = list.drop count := by
  induction list generalizing count with
  | nil => cases count <;> simp [afterComponents]
  | cons part list ih =>
    cases count with
    | zero => rfl
    | succ count =>
      have hrest : ∀ other ∈ list, isComponent other = true := fun other hother =>
        plain other (List.mem_cons_of_mem part hother)
      rw [afterComponents, if_pos (plain part List.mem_cons_self), ih hrest count, List.drop_succ_cons]

theorem asPath_plain : asPath list = list := by
  have hkept : ∀ part ∈ list, ¬ (!isComponent part) = true := by
    intro part hpart
    simp [plain part hpart]
  unfold asPath
  rw [List.dropWhile_eq_self_iff.mpr fun hpos => hkept _ (List.getElem_mem hpos),
    List.rdropWhile_eq_self_iff.mpr fun hne => hkept _ (List.getLast_mem hne)]

theorem stripSpelled_plain : stripSpelled root list = stripPrefix root list := by
  have hdropped : ∀ part ∈ list.drop root.length, isComponent part = true := fun part hpart =>
    plain part (List.mem_of_mem_drop hpart)
  unfold stripSpelled stripPrefix
  rw [components_plain plain, afterComponents_plain plain, asPath_plain hdropped]

end

theorem joined_length {names : List Text} (nonempty : names ≠ []) :
    (joined names).length + 1 = (names.map fun name => name.length + 1).sum := by
  induction names with
  | nil => exact absurd rfl nonempty
  | cons name names ih =>
    rcases names with _ | ⟨next, names⟩
    · simp [joined]
    · have hmore : next :: names ≠ [] := List.cons_ne_nil next names
      rw [joined_cons name hmore, List.map_cons, List.sum_cons, ← ih hmore, List.length_append,
        List.length_cons]
      omega

theorem components_room (parts : List Text) :
    ((components parts).map fun part => part.length + 1).sum ≤
        (parts.map fun part => part.length + 1).sum ∧
      (((components parts).map fun part => part.length + 1).sum =
        (parts.map fun part => part.length + 1).sum → ∀ part ∈ parts, isComponent part = true) := by
  induction parts with
  | nil => exact ⟨le_rfl, fun _ part hpart => nomatch hpart⟩
  | cons part parts ih =>
    obtain ⟨hle, hall⟩ := ih
    rcases hpart : isComponent part with _ | _
    · have hcomponents : components (part :: parts) = components parts :=
        List.filter_cons_of_neg (by simp [hpart])
      rw [hcomponents, List.map_cons, List.sum_cons]
      exact ⟨by omega, fun h => by omega⟩
    · have hcomponents : components (part :: parts) = part :: components parts :=
        List.filter_cons_of_pos hpart
      rw [hcomponents, List.map_cons, List.map_cons, List.sum_cons, List.sum_cons]
      refine ⟨by omega, fun h other hother => ?_⟩
      rcases List.mem_cons.mp hother with rfl | hmem
      · exact hpart
      · exact hall (by omega) other hmem

theorem map_replaced_iff (text : Text) :
    (text.map fun c => if c = '\\' then slash else c) = text ↔ '\\' ∉ text := by
  induction text with
  | nil => simp
  | cons c text ih =>
    rw [List.map_cons, List.cons.injEq, ih, List.mem_cons, not_or]
    refine and_congr_left fun _ => ?_
    split_ifs with hc
    · rw [hc]
      exact ⟨fun h => absurd h (by decide), fun h => absurd rfl h⟩
    · exact ⟨fun _ h => hc h.symm, fun _ => rfl⟩

namespace SpelledPath
variable {currentDir : Option SpelledPath} {path : SpelledPath} {root parts relative : List Text}

theorem absolute_named (h : path.absolute currentDir = some parts) : ∀ part ∈ parts, slash ∉ part := by
  unfold absolute at h
  split_ifs at h
  · rw [← Option.some.inj h]
    exact path.named
  · obtain ⟨directory, -, hparts⟩ := Option.map_eq_some_iff.mp h
    rw [← hparts]
    intro part hpart
    rcases List.mem_append.mp hpart with hmem | hmem
    · exact directory.named part hmem
    · exact path.named part hmem

/-- A path without other parts than components is read as the path of these components. -/
theorem watcherPath_components {excluded : List (List Text)} {isMatch : Text → Bool}
    {literalIgnores : List Text} (known : path.absolute currentDir = some parts)
    (plain : ∀ part ∈ parts, isComponent part = true) :
    path.watcherPath currentDir root excluded isMatch literalIgnores =
      Rrjj.watcherPath none root ⟨true, parts⟩ excluded isMatch literalIgnores := by
  have hignored : ∀ relative, stripPrefix root parts = some relative →
      isIgnored relative isMatch literalIgnores =
        Rrjj.isIgnored relative isMatch literalIgnores := by
    intro relative h
    unfold stripPrefix at h
    split_ifs at h
    unfold isIgnored Rrjj.isIgnored
    rw [components_plain fun part hpart => plain part ?_]
    rw [← Option.some.inj h] at hpart
    exact List.mem_of_mem_drop hpart
  unfold watcherPath Rrjj.watcherPath
  simp only [known, WatchedPath.absolute, if_true, Option.bind_eq_bind, Option.bind_some,
    components_plain plain, stripSpelled_plain plain]
  split_ifs
  · rfl
  · rcases hrelative : stripPrefix root parts with _ | relative
    · rfl
    · rw [Option.bind_some, Option.bind_some, hignored relative hrelative]

end SpelledPath

def Plain (relative : List Text) : Prop := ∀ part ∈ relative, isComponent part = true ∧ '\\' ∉ part

/-- The watcher is told of a file below the root that is neither excluded nor ignored. -/
structure Observes (currentDir : Option SpelledPath) (root : List Text) (excluded : List (List Text))
    (isMatch : Text → Bool) (literalIgnores : List Text) (path : SpelledPath)
    (relative : List Text) : Prop where
  below : ∃ parts, path.absolute currentDir = some parts ∧ stripSpelled root parts = some relative ∧
    ∀ directory ∈ excluded, ¬ directory <+: components parts
  watched : SpelledPath.isIgnored relative isMatch literalIgnores = false
  file : components relative ≠ [] ∧ ['.', '.'] ∉ components relative

section
variable {currentDir : Option SpelledPath} {root : List Text} {excluded : List (List Text)}
  {isMatch : Text → Bool} {literalIgnores : List Text} {path : SpelledPath} {relative : List Text}

theorem Observes.watcherPath_eq
    (h : Observes currentDir root excluded isMatch literalIgnores path relative) :
    path.watcherPath currentDir root excluded isMatch literalIgnores =
      some ((joined relative).map fun c => if c = '\\' then slash else c) := by
  obtain ⟨⟨parts, hparts, hrelative, hincluded⟩, hwatched, -⟩ := h
  have hexcluded : (excluded.any fun excluded => excluded.isPrefixOf (components parts)) = false := by
    rw [List.any_eq_false]
    intro directory hdirectory hprefix
    exact hincluded directory hdirectory (List.isPrefixOf_iff_prefix.mp hprefix)
  unfold SpelledPath.watcherPath
  rw [hparts, Option.bind_eq_bind, Option.bind_some, hexcluded, if_neg Bool.false_ne_true, hrelative,
    Option.bind_some, hwatched, if_neg Bool.false_ne_true]

theorem Plain.components_eq (h : Plain relative) : components relative = relative :=
  List.filter_eq_self.mpr fun part hpart => (h part hpart).1

theorem mem_joined_iff {names : List Text} {c : Char} (other : c ≠ slash) :
    c ∈ joined names ↔ ∃ name ∈ names, c ∈ name := by
  induction names with
  | nil => simp [joined]
  | cons name names ih =>
    rcases names with _ | ⟨next, names⟩
    · simp [joined]
    · rw [joined_cons name (List.cons_ne_nil next names), List.mem_append, List.mem_cons, ih]
      simp only [other, false_or, List.exists_mem_cons_iff]

theorem Observes.path_iff
    (h : Observes currentDir root excluded isMatch literalIgnores path relative) :
    path.watcherPath currentDir root excluded isMatch literalIgnores =
        some (internalFileString (components relative)) ↔ Plain relative := by
  have hne : relative ≠ [] := by
    rintro rfl
    exact h.file.1 rfl
  rw [h.watcherPath_eq, Option.some_inj, internalFileString]
  constructor
  · intro hsame
    -- the two texts are equally long, which leaves no room for a part that is no component
    have hlength := congrArg List.length hsame
    rw [List.length_map] at hlength
    have hraw := joined_length hne
    have hfile := joined_length h.file.1
    have hcomponents := (components_room relative).2 (by omega)
    have hself : components relative = relative := List.filter_eq_self.mpr hcomponents
    rw [hself, map_replaced_iff] at hsame
    intro part hpart
    refine ⟨hcomponents part hpart, fun hbackslash => hsame ?_⟩
    exact (mem_joined_iff (by decide)).mpr ⟨part, hpart, hbackslash⟩
  · intro hplain
    rw [hplain.components_eq, map_replaced_iff]
    intro hbackslash
    obtain ⟨part, hpart, hmem⟩ := (mem_joined_iff (by decide)).mp hbackslash
    exact (hplain part hpart).2 hmem

theorem Observes.components_eq
    (h : Observes currentDir root excluded isMatch literalIgnores path relative) :
    ∃ parts, path.absolute currentDir = some parts ∧ components parts = root ++ components relative := by
  obtain ⟨⟨parts, hparts, hrelative, -⟩, -, -⟩ := h
  exact ⟨parts, hparts, stripSpelled_components hrelative⟩

theorem Observes.isFile (h : Observes currentDir root excluded isMatch literalIgnores path relative) :
    IsFile (components relative) := by
  obtain ⟨⟨parts, hparts, hrelative, -⟩, -, hne, hparent⟩ := h
  have hdot : ['.'] ∉ components relative := by
    intro hmem
    exact absurd (List.mem_filter.mp hmem).2 (by decide)
  refine ⟨hne, fun name hname => ?_, hdot, hparent⟩
  obtain ⟨hmem, hcomponent⟩ := List.mem_filter.mp hname
  have hnonempty : name ≠ [] := by
    rintro rfl
    exact absurd hcomponent (by decide)
  exact ⟨hnonempty, stripSpelled_named (SpelledPath.absolute_named hparts) hrelative name hmem⟩

end

/-- The audit has the path that jj gives a file exactly for a plain path, and then for no other. -/
theorem audit_paths_faithful (currentDir : Option SpelledPath) (root : List Text)
    (excluded : List (List Text)) (isMatch : Text → Bool) (literalIgnores : List Text) :
    (∀ path relative, Observes currentDir root excluded isMatch literalIgnores path relative →
      (∃ parts, path.absolute currentDir = some parts ∧
        components parts = root ++ components relative) ∧
      (path.watcherPath currentDir root excluded isMatch literalIgnores =
        some (internalFileString (components relative)) ↔ Plain relative)) ∧
    ∀ path other relative otherRelative,
      Observes currentDir root excluded isMatch literalIgnores path relative →
      Observes currentDir root excluded isMatch literalIgnores other otherRelative →
      Plain relative → Plain otherRelative →
      path.watcherPath currentDir root excluded isMatch literalIgnores =
        other.watcherPath currentDir root excluded isMatch literalIgnores →
      components relative = components otherRelative := by
  constructor
  · intro path relative h
    exact ⟨h.components_eq, h.path_iff⟩
  · intro path other relative otherRelative h hother hplain hotherPlain hsame
    rw [h.path_iff.mpr hplain, hother.path_iff.mpr hotherPlain, Option.some_inj] at hsame
    exact joined_inj h.isFile hother.isFile.nonempty hother.isFile.named hsame

/-- `/work/a\b` -/
def backslashPath : SpelledPath := ⟨true, ["work".toList, "a\\b".toList], by decide⟩

/-- `/work/a/b` -/
def nestedPath : SpelledPath := ⟨true, ["work".toList, "a".toList, "b".toList], by decide⟩

/-- A file whose name has a backslash shares the entry of a file in a directory. -/
theorem backslash_shares_entry :
    (¬ ∀ path relative, Observes none ["work".toList] [] (fun _ => false) [] path relative →
      path.watcherPath none ["work".toList] [] (fun _ => false) [] =
        some (internalFileString (components relative))) ∧
    backslashPath.watcherPath none ["work".toList] [] (fun _ => false) [] = some "a/b".toList ∧
      nestedPath.watcherPath none ["work".toList] [] (fun _ => false) [] = some "a/b".toList := by
  refine ⟨fun h => ?_, by decide, by decide⟩
  have hobserves : Observes none ["work".toList] [] (fun _ => false) [] backslashPath
      ["a\\b".toList] := by
    refine ⟨⟨_, rfl, by decide, fun _ hmem => nomatch hmem⟩, by decide, by decide, by decide⟩
  exact absurd (h backslashPath _ hobserves) (by decide)

end Rrjj
