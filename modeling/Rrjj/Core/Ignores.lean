import Mathlib.Data.List.DropRight
import Mathlib.Tactic

/-! The patterns of ignored files, as the watcher and as a capture read them. -/

namespace Rrjj

abbrev Text := List Char

def slash : Char := '/'

def joined (names : List Text) : Text := [slash].intercalate names

def trimStart (pattern : Text) : Text := pattern.dropWhile (· = slash)

def trimMatches (pattern : Text) : Text := (trimStart pattern).rdropWhile (· = slash)

/-- The globset crate. -/
structure Globset where
  Glob : Type
  GlobSet : Type
  new : Text → Option Glob
  build : List Glob → Option GlobSet
  isMatch : GlobSet → Text → Bool

def Globset.buildGlobs (globset : Globset) : List Text → Option (List globset.Glob)
  | [] => some []
  | pattern :: patterns => do
    let path ← globset.new (trimStart pattern)
    let below ← globset.new (trimStart pattern ++ [slash, '*', '*'])
    let globs ← globset.buildGlobs patterns
    return path :: below :: globs

def Globset.buildIgnoreSet (globset : Globset) (patterns : List Text) : Option globset.GlobSet := do
  let globs ← globset.buildGlobs patterns
  globset.build globs

structure WatchedPath where
  isAbsolute : Bool
  components : List Text

def WatchedPath.absolute (currentDir : Option (List Text)) (path : WatchedPath) :
    Option (List Text) :=
  if path.isAbsolute then some path.components
  else currentDir.map fun directory => directory ++ path.components

def stripPrefix (root path : List Text) : Option (List Text) :=
  if root.isPrefixOf path then some (path.drop root.length) else none

def isIgnored (relative : List Text) (isMatch : Text → Bool) (literalIgnores : List Text) : Bool :=
  relative.isEmpty || isMatch (joined relative) ||
    relative.any fun component => literalIgnores.any fun ignore => component = trimMatches ignore

def watcherPath (currentDir : Option (List Text)) (root : List Text) (path : WatchedPath)
    (excluded : List (List Text)) (isMatch : Text → Bool) (literalIgnores : List Text) : Option Text := do
  let path ← path.absolute currentDir
  if excluded.any fun excluded => excluded.isPrefixOf path then none
  else do
    let relative ← stripPrefix root path
    if isIgnored relative isMatch literalIgnores then none
    else some ((joined relative).map fun c => if c = '\\' then slash else c)

structure GitRule where
  negated : Bool
  name : Text
  anchored : Bool
  directories : Bool
  deriving DecidableEq

section
variable (isBlank : Char → Bool)

/-- A line that begins with `#` is a comment, and blanks at the end are dropped. After a `!` that negates
it, a leading or inner slash anchors a rule at the root, and one at the end restricts it to
directories. -/
def GitRule.read (line : Text) : Option GitRule :=
  if line.head? = some '#' then none
  else
    let line := line.rdropWhile isBlank
    if line.isEmpty then none
    else
      let negated := line.head? = some '!'
      let rest := if negated then line.tail else line
      let leading := rest.head? = some slash
      let rest := if leading then rest.tail else rest
      let trailing := rest.getLast? = some slash
      let name := if trailing then rest.dropLast else rest
      some { negated, name, anchored := leading ∨ slash ∈ name, directories := trailing }

def baseIgnores (patterns : List Text) : List GitRule :=
  (['\n'].intercalate patterns |>.splitOn '\n').filterMap (GitRule.read isBlank)

end

def GitRule.applies (rule : GitRule) (path : List Text) (directory : Bool) : Bool :=
  (directory || !rule.directories) &&
    if rule.anchored then joined path = rule.name else path.getLast? = some rule.name

def lastIgnores (rules : List GitRule) (path : List Text) (directory : Bool) : Bool :=
  (rules.reverse.find? fun rule => rule.applies path directory).any fun rule => !rule.negated

def directories (file : List Text) : List (List Text) := file.dropLast.inits.tail

def hides (rules : List GitRule) (path : List Text) (directory : Bool) : Bool :=
  lastIgnores rules path directory ||
    (directories path).any fun above => lastIgnores rules above true

def captureIgnores (rules : List GitRule) (file : List Text) : Bool := hides rules file false

def IsName (name : Text) : Prop := name ≠ [] ∧ slash ∉ name

instance (name : Text) : Decidable (IsName name) := inferInstanceAs (Decidable (_ ∧ _))

def metacharacters : Text := ['*', '?', '[', ']', '{', '}', '\\']

def IsLiteral (text : Text) : Prop := ∀ c ∈ text, c ∉ metacharacters

/-- What globset documents of a glob without metacharacters, and of one that goes on with `/**`. -/
structure Globset.Literal (globset : Globset) (isGlob : globset.Glob → Text → Bool) : Prop where
  path : ∀ {text glob}, IsLiteral text → globset.new text = some glob →
    ∀ path, isGlob glob path = decide (path = text)
  below : ∀ {text glob}, IsLiteral text → globset.new (text ++ [slash, '*', '*']) = some glob →
    ∀ path, isGlob glob path = (text ++ [slash]).isPrefixOf path
  any : ∀ {globs set}, globset.build globs = some set →
    ∀ path, globset.isMatch set path = globs.any fun glob => isGlob glob path

/-- A pattern of names, with or without a slash before and after them. -/
structure LiteralPattern where
  leading : Bool
  names : List Text
  trailing : Bool
  nonempty : names ≠ []
  named : ∀ name ∈ names, IsName name
  literal : ∀ name ∈ names, IsLiteral name

def LiteralPattern.text (pattern : LiteralPattern) : Text :=
  (if pattern.leading then [slash] else []) ++ joined pattern.names ++
    if pattern.trailing then [slash] else []

structure IsFile (file : List Text) : Prop where
  nonempty : file ≠ []
  named : ∀ name ∈ file, IsName name
  proper : ['.'] ∉ file ∧ ['.', '.'] ∉ file

section
variable {names file rest : List Text}

theorem splitOn_joined (nonempty : names ≠ []) (named : ∀ name ∈ names, IsName name) :
    (joined names).splitOn slash = names :=
  List.splitOn_intercalate slash (fun name hname => (named name hname).2) nonempty

theorem joined_cons (name : Text) (h : names ≠ []) :
    joined (name :: names) = name ++ slash :: joined names := by
  unfold joined
  rw [List.intercalate_cons_of_ne_nil h, List.append_assoc]
  rfl

theorem joined_append (hnames : names ≠ []) (hrest : rest ≠ []) :
    joined (names ++ rest) = joined names ++ slash :: joined rest := by
  induction names with
  | nil => exact absurd rfl hnames
  | cons name names ih =>
    rcases names with _ | ⟨next, names⟩
    · rw [List.singleton_append, joined_cons name hrest]
      simp [joined]
    · have hmore : next :: names ≠ [] := List.cons_ne_nil next names
      have hall : next :: names ++ rest ≠ [] := List.cons_ne_nil next (names ++ rest)
      rw [List.cons_append, joined_cons name hall, ih hmore, joined_cons name hmore,
        List.append_assoc, List.cons_append]

theorem mem_joined {names : List Text} {c : Char} (h : c ∈ joined names) :
    c = slash ∨ ∃ name ∈ names, c ∈ name := by
  induction names with
  | nil => exact absurd h (by simp [joined])
  | cons name names ih =>
    rcases names with _ | ⟨next, names⟩
    · exact Or.inr ⟨name, List.mem_cons_self, by simpa [joined] using h⟩
    · rw [joined_cons name (List.cons_ne_nil next names), List.mem_append, List.mem_cons] at h
      rcases h with hname | hslash | hmore
      · exact Or.inr ⟨name, List.mem_cons_self, hname⟩
      · exact Or.inl hslash
      · exact (ih hmore).imp_right fun ⟨other, hother, hc⟩ => ⟨other, List.mem_cons_of_mem _ hother, hc⟩

theorem joined_inj (hfile : IsFile file) (nonempty : names ≠ [])
    (named : ∀ name ∈ names, IsName name) (h : joined file = joined names) : file = names := by
  rw [← splitOn_joined hfile.nonempty hfile.named, h, splitOn_joined nonempty named]

theorem joined_split (hfile : IsFile file) (nonempty : names ≠ [])
    (named : ∀ name ∈ names, IsName name) {text : Text}
    (h : joined file = joined names ++ slash :: text) : file = names ++ text.splitOn slash := by
  rw [← splitOn_joined hfile.nonempty hfile.named, h, List.splitOn_append_cons_self,
    splitOn_joined nonempty named]

theorem joined_head (nonempty : names ≠ []) (named : ∀ name ∈ names, IsName name) :
    ∃ first rest, joined names = first :: rest ∧ first ≠ slash := by
  obtain ⟨name, names, rfl⟩ := List.exists_cons_of_ne_nil nonempty
  obtain ⟨hne, hslash⟩ := named name List.mem_cons_self
  obtain ⟨first, rest, rfl⟩ := List.exists_cons_of_ne_nil hne
  have hfirst : first ≠ slash := by
    rintro rfl
    exact hslash List.mem_cons_self
  rcases names with _ | ⟨next, names⟩
  · exact ⟨first, rest, by simp [joined], hfirst⟩
  · refine ⟨first, rest ++ slash :: joined (next :: names), ?_, hfirst⟩
    exact joined_cons (first :: rest) (List.cons_ne_nil next names)

theorem joined_last (nonempty : names ≠ []) (named : ∀ name ∈ names, IsName name) :
    ∃ last, (joined names).getLast? = some last ∧ last ≠ slash := by
  obtain ⟨names, name, rfl⟩ := (List.eq_nil_or_concat names).resolve_left nonempty
  rw [List.concat_eq_append] at *
  obtain ⟨hne, hslash⟩ := named name (List.mem_append_right _ (List.mem_singleton_self _))
  obtain ⟨front, last, rfl⟩ := (List.eq_nil_or_concat name).resolve_left hne
  rw [List.concat_eq_append] at *
  have hlast : last ≠ slash := by
    rintro rfl
    exact hslash (List.mem_append_right _ (List.mem_singleton_self _))
  refine ⟨last, ?_, hlast⟩
  rcases names with _ | ⟨first, names⟩
  · simp [joined]
  · have hmore : first :: names ≠ [] := List.cons_ne_nil first names
    have hsplit : joined (first :: names ++ [front ++ [last]]) =
        (joined (first :: names) ++ slash :: front) ++ [last] := by
      rw [joined_append hmore (List.cons_ne_nil _ [])]
      simp [joined]
    rw [hsplit, List.getLast?_concat]

end
namespace LiteralPattern
variable {pattern : LiteralPattern} {file : List Text}

def ending (pattern : LiteralPattern) : Text := if pattern.trailing then [slash] else []

theorem text_eq : pattern.text = (if pattern.leading then [slash] else []) ++
    (joined pattern.names ++ pattern.ending) := List.append_assoc _ _ _

theorem trimStart_text : trimStart pattern.text = joined pattern.names ++ pattern.ending := by
  obtain ⟨first, rest, hjoined, hfirst⟩ := joined_head pattern.nonempty pattern.named
  have hstop : trimStart (joined pattern.names ++ pattern.ending) =
      joined pattern.names ++ pattern.ending := by
    rw [trimStart, hjoined, List.cons_append, List.dropWhile_cons_of_neg (by simpa using hfirst)]
  rw [text_eq]
  rcases pattern.leading with _ | _
  · exact hstop
  · exact hstop

theorem trimMatches_text : trimMatches pattern.text = joined pattern.names := by
  obtain ⟨last, hlast, hother⟩ := joined_last pattern.nonempty pattern.named
  have hstop : (joined pattern.names).rdropWhile (· = slash) = joined pattern.names := by
    rw [List.rdropWhile_eq_self_iff]
    intro hne
    rw [List.getLast?_eq_some_getLast hne] at hlast
    rw [Option.some.inj hlast]
    simpa using hother
  rw [trimMatches, trimStart_text, ending]
  rcases pattern.trailing with _ | _
  · simpa using hstop
  · rw [if_pos rfl, List.rdropWhile_concat_pos (fun c => decide (c = slash)) _ slash (by simp)]
    exact hstop

theorem no_empty_name (hfile : IsFile file) : [] ∉ file := fun h => (hfile.named [] h).1 rfl

theorem globs_match_iff (hfile : IsFile file) :
    (joined file = trimStart pattern.text ∨ trimStart pattern.text ++ [slash] <+: joined file) ↔
      pattern.trailing = false ∧ pattern.names <+: file := by
  have hvalid := pattern.named
  have hne := pattern.nonempty
  rw [trimStart_text]
  unfold ending
  rcases pattern.trailing with _ | _
  · simp only [Bool.false_eq_true, if_false, List.append_nil, true_and]
    constructor
    · rintro (hsame | ⟨text, htext⟩)
      · rw [joined_inj hfile hne hvalid hsame]
      · rw [List.append_assoc] at htext
        rw [joined_split hfile hne hvalid htext.symm]
        exact List.prefix_append _ _
    · rintro ⟨rest, rfl⟩
      rcases rest with _ | ⟨name, rest⟩
      · exact Or.inl (by rw [List.append_nil])
      · refine Or.inr ⟨joined (name :: rest), ?_⟩
        rw [joined_append hne (List.cons_ne_nil name rest), List.append_assoc]
        rfl
  · simp only [if_true, Bool.true_eq_false, false_and, iff_false]
    rintro (hsame | ⟨text, htext⟩)
    · have hsplit := joined_split hfile hne hvalid hsame
      apply no_empty_name hfile
      rw [hsplit]
      simp
    · have hsame : joined file = joined pattern.names ++ slash :: (slash :: text) := by
        rw [← htext]
        simp
      have hsplit := joined_split hfile hne hvalid hsame
      apply no_empty_name hfile
      rw [hsplit, List.splitOn_cons_eq_if_modifyHead]
      simp

theorem literal_trimStart : IsLiteral (trimStart pattern.text) := by
  have hslash : slash ∉ metacharacters := by decide
  intro c hc
  rw [trimStart_text, List.mem_append] at hc
  rcases hc with hjoined | hending
  · rcases mem_joined hjoined with rfl | ⟨name, hname, hmem⟩
    · exact hslash
    · exact pattern.literal name hname c hmem
  · unfold ending at hending
    split_ifs at hending
    · rw [List.mem_singleton.mp hending]
      exact hslash
    · exact absurd hending List.not_mem_nil

theorem component_iff {name : Text} (hname : IsName name) :
    name = trimMatches pattern.text ↔ pattern.names = [name] := by
  rw [trimMatches_text]
  constructor
  · intro h
    have hsplit := splitOn_joined pattern.nonempty pattern.named
    rw [← h, List.splitOn_eq_singleton hname.2] at hsplit
    exact hsplit.symm
  · intro h
    rw [h]
    simp [joined]

theorem slash_mem_joined {names : List Text} (nonempty : names ≠ [])
    (named : ∀ name ∈ names, IsName name) : slash ∈ joined names ↔ 1 < names.length := by
  obtain ⟨name, names, rfl⟩ := List.exists_cons_of_ne_nil nonempty
  rcases names with _ | ⟨next, names⟩
  · have hslash := (named name List.mem_cons_self).2
    simpa [joined] using hslash
  · rw [joined_cons name (List.cons_ne_nil next names)]
    simp

end LiteralPattern

section
variable {patterns : List LiteralPattern} {file : List Text}

theorem mem_directories {path : List Text} :
    path ∈ directories file ↔ path ≠ [] ∧ ∃ rest, rest ≠ [] ∧ file = path ++ rest := by
  have hinits : path ∈ directories file ↔ path ≠ [] ∧ path <+: file.dropLast := by
    unfold directories
    rcases file.dropLast with _ | ⟨name, front⟩
    · simp
    · simp only [List.inits_cons, List.tail_cons, List.mem_map, List.mem_inits]
      constructor
      · rintro ⟨rest, hrest, rfl⟩
        exact ⟨List.cons_ne_nil name rest, List.cons_prefix_cons.mpr ⟨rfl, hrest⟩⟩
      · rintro ⟨hne, hprefix⟩
        obtain ⟨first, rest, rfl⟩ := List.exists_cons_of_ne_nil hne
        obtain ⟨rfl, hrest⟩ := List.cons_prefix_cons.mp hprefix
        exact ⟨rest, hrest, rfl⟩
  rw [hinits]
  apply and_congr_right
  intro hne
  constructor
  · rintro ⟨rest, hrest⟩
    rcases List.eq_nil_or_concat file with rfl | ⟨front, last, rfl⟩
    · exact absurd (List.append_eq_nil_iff.mp hrest).1 hne
    · rw [List.concat_eq_append, List.dropLast_concat] at hrest
      refine ⟨rest ++ [last], by simp, ?_⟩
      rw [List.concat_eq_append, ← hrest, List.append_assoc]
  · rintro ⟨rest, hne, rfl⟩
    rw [List.dropLast_append_of_ne_nil hne]
    exact List.prefix_append _ _

section
variable {globset : Globset} {isGlob : globset.Glob → Text → Bool} {set : globset.GlobSet}

theorem buildGlobs_any (laws : globset.Literal isGlob) {globs : List globset.Glob}
    (built : globset.buildGlobs (patterns.map LiteralPattern.text) = some globs) (path : Text) :
    (globs.any fun glob => isGlob glob path) = true ↔ ∃ pattern ∈ patterns,
      path = trimStart pattern.text ∨ trimStart pattern.text ++ [slash] <+: path := by
  induction patterns generalizing globs with
  | nil =>
    rw [← Option.some.inj built]
    simp
  | cons pattern patterns ih =>
    rw [List.map_cons, Globset.buildGlobs] at built
    obtain ⟨first, hfirst, built⟩ := Option.bind_eq_some_iff.mp built
    obtain ⟨below, hbelow, built⟩ := Option.bind_eq_some_iff.mp built
    obtain ⟨rest, hrest, hglobs⟩ := Option.bind_eq_some_iff.mp built
    rw [← Option.some.inj hglobs, List.any_cons, List.any_cons, Bool.or_eq_true, Bool.or_eq_true, ih hrest,
      laws.path pattern.literal_trimStart hfirst, laws.below pattern.literal_trimStart hbelow,
      decide_eq_true_eq, List.isPrefixOf_iff_prefix, ← or_assoc]
    simp

/-- The watcher drops what is at the names of a pattern or below, and whatever has the name of a
pattern of one name among its components. -/
def LiteralPattern.Drops (pattern : LiteralPattern) (file : List Text) : Prop :=
  (pattern.trailing = false ∧ pattern.names <+: file) ∨ ∃ name ∈ file, pattern.names = [name]

theorem isIgnored_iff (laws : globset.Literal isGlob)
    (built : globset.buildIgnoreSet (patterns.map LiteralPattern.text) = some set) (hfile : IsFile file) :
    isIgnored file (globset.isMatch set) (patterns.map LiteralPattern.text) = true ↔
      ∃ pattern ∈ patterns, pattern.Drops file := by
  have hempty : file.isEmpty = false := by
    rw [List.isEmpty_eq_false_iff]
    exact hfile.nonempty
  have hglobs : globset.isMatch set (joined file) = true ↔
      ∃ pattern ∈ patterns, pattern.trailing = false ∧ pattern.names <+: file := by
    obtain ⟨globs, hglobs, hset⟩ := Option.bind_eq_some_iff.mp built
    rw [laws.any hset, buildGlobs_any laws hglobs]
    exact exists_congr fun pattern => and_congr_right fun _ => LiteralPattern.globs_match_iff hfile
  have hcomponents : (file.any fun component => (patterns.map LiteralPattern.text).any fun ignore =>
      component = trimMatches ignore) = true ↔
      ∃ pattern ∈ patterns, ∃ name ∈ file, pattern.names = [name] := by
    simp only [List.any_eq_true, List.any_map, Function.comp_apply, decide_eq_true_eq]
    constructor
    · rintro ⟨name, hname, pattern, hpattern, hsame⟩
      exact ⟨pattern, hpattern, name, hname, (LiteralPattern.component_iff (hfile.named name hname)).mp hsame⟩
    · rintro ⟨pattern, hpattern, name, hname, hsame⟩
      exact ⟨name, hname, pattern, hpattern, (LiteralPattern.component_iff (hfile.named name hname)).mpr hsame⟩
  unfold isIgnored
  rw [hempty, Bool.false_or, Bool.or_eq_true, hglobs, hcomponents]
  constructor
  · rintro (⟨pattern, hpattern, h⟩ | ⟨pattern, hpattern, h⟩)
    · exact ⟨pattern, hpattern, Or.inl h⟩
    · exact ⟨pattern, hpattern, Or.inr h⟩
  · rintro ⟨pattern, hpattern, h | h⟩
    · exact Or.inl ⟨pattern, hpattern, h⟩
    · exact Or.inr ⟨pattern, hpattern, h⟩

end

theorem watcherPath_none_iff {currentDir : Option (List Text)} {root : List Text} {path : WatchedPath}
    {excluded : List (List Text)} {isMatch : Text → Bool} {literalIgnores : List Text}
    (below : path.absolute currentDir = some (root ++ file))
    (included : ∀ directory ∈ excluded, ¬ directory <+: root ++ file) :
    watcherPath currentDir root path excluded isMatch literalIgnores = none ↔
      isIgnored file isMatch literalIgnores = true := by
  have hexcluded : (excluded.any fun excluded => excluded.isPrefixOf (root ++ file)) = false := by
    rw [List.any_eq_false]
    intro directory hdirectory hprefix
    exact included directory hdirectory (List.isPrefixOf_iff_prefix.mp hprefix)
  have hrelative : stripPrefix root (root ++ file) = some file := by
    have hroot : root.isPrefixOf (root ++ file) = true :=
      List.isPrefixOf_iff_prefix.mpr (List.prefix_append root file)
    rw [stripPrefix, if_pos hroot, List.drop_left]
  unfold watcherPath
  rw [below, Option.bind_eq_bind, Option.bind_some, hexcluded, if_neg Bool.false_ne_true, hrelative,
    Option.bind_some]
  split_ifs with hignored
  · simp [hignored]
  · simp [hignored]

variable {rules : List GitRule} {path : List Text} {directory : Bool}

theorem applies_joined {rule : GitRule} (applies : rule.applies path directory = true)
    (anchored : rule.anchored = true) : joined path = rule.name := by
  unfold GitRule.applies at applies
  rw [anchored, if_pos rfl, Bool.and_eq_true, decide_eq_true_eq] at applies
  exact applies.2

theorem applies_last {rule : GitRule} (applies : rule.applies path directory = true)
    (anywhere : rule.anchored = false) : path.getLast? = some rule.name := by
  unfold GitRule.applies at applies
  rw [anywhere, if_neg Bool.false_ne_true, Bool.and_eq_true, decide_eq_true_eq] at applies
  exact applies.2

theorem lastIgnores_long {name : Text} (ends : path.getLast? = some name)
    (long : ∀ rule ∈ rules, rule.name.length < name.length) : lastIgnores rules path directory = false := by
  have hnone : rules.reverse.find? (fun rule => rule.applies path directory) = none := by
    rw [List.find?_eq_none]
    intro rule hrule happlies
    have hlong := long rule (List.mem_reverse.mp hrule)
    rcases hanchored : rule.anchored with _ | _
    · have hlast := applies_last happlies hanchored
      rw [ends] at hlast
      rw [← Option.some.inj hlast] at hlong
      exact absurd hlong (lt_irrefl _)
    · obtain ⟨front, rfl⟩ := List.getLast?_eq_some_iff.mp ends
      have hname : name.length ≤ (joined (front ++ [name])).length := by
        rcases front with _ | ⟨first, front⟩
        · simp [joined]
        · rw [joined_append (List.cons_ne_nil first front) (List.cons_ne_nil name [])]
          simp [joined]
          omega
      rw [applies_joined happlies hanchored] at hname
      omega
  unfold lastIgnores
  rw [hnone]
  rfl

theorem hides_below {rest : List Text} (below : rest ≠ []) (hidden : hides rules path true = true)
    (nonempty : path ≠ []) : captureIgnores rules (path ++ rest) = true := by
  unfold hides at hidden
  unfold captureIgnores hides
  rw [Bool.or_eq_true] at hidden ⊢
  refine Or.inr (List.any_eq_true.mpr ?_)
  rcases hidden with hself | habove
  · exact ⟨path, mem_directories.mpr ⟨nonempty, rest, below, rfl⟩, hself⟩
  · obtain ⟨above, hmem, hignored⟩ := List.any_eq_true.mp habove
    obtain ⟨hne, more, -, hpath⟩ := mem_directories.mp hmem
    refine ⟨above, mem_directories.mpr ⟨hne, more ++ rest, by simp [below], ?_⟩, hignored⟩
    rw [hpath, List.append_assoc]

theorem hides_directory {name : Text}
    (long : ∀ rule ∈ rules, rule.name.length < name.length)
    (ignored : captureIgnores rules (path ++ [name]) = true) : hides rules path true = true := by
  have hlong : ∀ directory, lastIgnores rules (path ++ [name]) directory = false :=
    fun directory => lastIgnores_long List.getLast?_concat long
  unfold captureIgnores hides at ignored
  rw [hlong, Bool.false_or, List.any_eq_true] at ignored
  obtain ⟨above, hmem, hignored⟩ := ignored
  obtain ⟨hne, rest, hrest, hsplit⟩ := mem_directories.mp hmem
  unfold hides
  rw [Bool.or_eq_true]
  obtain ⟨front, last, rfl⟩ := (List.eq_nil_or_concat rest).resolve_left hrest
  rw [List.concat_eq_append, ← List.append_assoc] at hsplit
  obtain ⟨hpath, -⟩ := List.append_inj' hsplit rfl
  rcases front with _ | ⟨next, front⟩
  · rw [List.append_nil] at hpath
    exact Or.inl (hpath ▸ hignored)
  · exact Or.inr (List.any_eq_true.mpr
      ⟨above, mem_directories.mpr ⟨hne, next :: front, List.cons_ne_nil next front, hpath⟩, hignored⟩)

def bareRules (rules : List GitRule) : List GitRule := rules.filter fun rule => !rule.anchored

def Hidden (rules : List GitRule) (path : List Text) : Prop := ∀ directory, hides rules path directory = true

/-- The path of each pattern of several names without a slash after them is ignored. For each pattern of
one name, the last bare line about the name, as a file and as a directory, is no negation, and so the
path of each anchored negation that ends in the name is ignored nevertheless. -/
structure IgnoresCovered (rules : List GitRule) (patterns : List LiteralPattern) : Prop where
  paths : ∀ pattern ∈ patterns, IsFile pattern.names → pattern.trailing = false →
    1 < pattern.names.length → Hidden rules pattern.names
  names : ∀ pattern ∈ patterns, ∀ name, pattern.names = [name] → IsFile [name] →
    (∀ directory, lastIgnores (bareRules rules) [name] directory = true) ∧
      ∀ rule ∈ rules, rule.negated = true → rule.anchored = true → ∀ path, IsFile path →
        joined path = rule.name → path.getLast? = some name → Hidden rules path

theorem lastIgnores_bare {name : Text} (ends : path.getLast? = some name) {rule : GitRule}
    (last : rules.reverse.find? (fun rule => rule.applies path directory) = some rule)
    (anywhere : rule.anchored = false) :
    lastIgnores (bareRules rules) [name] directory = !rule.negated := by
  have hsame : ∀ other ∈ rules.reverse, (!other.anchored && other.applies [name] directory) =
      (!other.anchored && other.applies path directory) := by
    intro other _
    unfold GitRule.applies
    rcases hanchored : other.anchored with _ | _
    · simp [ends]
    · rfl
  have hfind : (bareRules rules).reverse.find? (fun rule => rule.applies [name] directory) = some rule := by
    unfold bareRules
    rw [← List.filter_reverse, List.find?_filter]
    simp only [Bool.decide_and, Bool.decide_eq_true]
    rw [List.find?_congr hsame]
    obtain ⟨happlies, before, after, hsplit, hnone⟩ := List.find?_eq_some_iff_append.mp last
    refine List.find?_eq_some_iff_append.mpr ⟨by simp [anywhere, happlies], before, after, hsplit, ?_⟩
    intro other hother
    have hother := hnone other hother
    rw [Bool.not_eq_true'] at hother ⊢
    rw [hother, Bool.and_false]
  unfold lastIgnores
  rw [hfind]
  rfl

/-- A path that ends in a name is ignored as the bare lines have it, or as an anchored line has it. -/
theorem hidden_named {name : Text} (ends : path.getLast? = some name)
    (bare : ∀ directory, lastIgnores (bareRules rules) [name] directory = true)
    (anchored : ∀ rule ∈ rules, rule.negated = true → rule.anchored = true → joined path = rule.name →
      Hidden rules path) : Hidden rules path := by
  intro directory
  by_cases hnegated : ∃ rule ∈ rules, rule.negated = true ∧ rule.anchored = true ∧ joined path = rule.name
  · obtain ⟨rule, hrule, hnegated, hanchored, hpath⟩ := hnegated
    exact anchored rule hrule hnegated hanchored hpath directory
  unfold hides
  rw [Bool.or_eq_true]
  apply Or.inl
  have hbare := bare directory
  rcases hlast : rules.reverse.find? (fun rule => rule.applies path directory) with _ | rule
  · -- the bare line about the name is about the path as well
    unfold lastIgnores at hbare
    rcases hfind : (bareRules rules).reverse.find? (fun rule => rule.applies [name] directory) with _ | rule
    · rw [hfind] at hbare
      exact absurd hbare Bool.false_ne_true
    have hmem := List.mem_reverse.mp (List.mem_of_find?_eq_some hfind)
    obtain ⟨hrule, hanywhere⟩ := List.mem_filter.mp hmem
    have happlies : rule.applies [name] directory = true := by simpa using List.find?_some hfind
    have hpath : rule.applies path directory = true := by
      unfold GitRule.applies at happlies ⊢
      rw [Bool.not_eq_true'] at hanywhere
      rw [hanywhere] at happlies ⊢
      simpa [ends] using happlies
    exact absurd hpath (List.find?_eq_none.mp hlast rule (List.mem_reverse.mpr hrule))
  · have happlies : rule.applies path directory = true := by simpa using List.find?_some hlast
    have hkept : rule.negated = false := by
      rcases hanchored : rule.anchored with _ | _
      · rw [lastIgnores_bare ends hlast hanchored] at hbare
        simpa using hbare
      · have hrule := List.mem_reverse.mp (List.mem_of_find?_eq_some hlast)
        rw [← Bool.not_eq_true]
        exact fun h => hnegated ⟨rule, hrule, h, hanchored, applies_joined happlies hanchored⟩
    unfold lastIgnores
    rw [hlast, Option.any_some, hkept]
    rfl

theorem exists_long (rules : List GitRule) :
    ∃ name, IsFile [name] ∧ ∀ rule ∈ rules, rule.name.length < name.length := by
  set longest := (rules.map fun rule => rule.name.length).sum with hlongest
  refine ⟨List.replicate (longest + 3) 'x', ⟨List.cons_ne_nil _ _, ?_, ?_⟩, fun rule hrule => ?_⟩
  · rw [List.forall_mem_singleton]
    refine ⟨by simp, fun hslash => ?_⟩
    exact absurd (List.eq_of_mem_replicate hslash) (by decide)
  · constructor
    · intro hdot
      have hlength := congrArg List.length (List.mem_singleton.mp hdot)
      rw [List.length_replicate] at hlength
      simp at hlength
    · intro hdots
      have hlength := congrArg List.length (List.mem_singleton.mp hdots)
      rw [List.length_replicate] at hlength
      simp at hlength
  · have hmem : rule.name.length ∈ rules.map fun rule => rule.name.length := List.mem_map_of_mem hrule
    have hle := List.le_sum_of_mem hmem
    rw [List.length_replicate]
    omega

theorem IsFile.append {rest : List Text} (hfile : IsFile file) (hrest : IsFile rest) :
    IsFile (file ++ rest) where
  nonempty := List.append_ne_nil_of_left_ne_nil hfile.nonempty rest
  named := List.forall_mem_append.mpr ⟨hfile.named, hrest.named⟩
  proper := by
    obtain ⟨hdot, hdots⟩ := hfile.proper
    obtain ⟨hother, hothers⟩ := hrest.proper
    exact ⟨by simp [hdot, hother], by simp [hdots, hothers]⟩

theorem IsFile.of_subset {names : List Text} (hfile : IsFile file) (hsubset : names ⊆ file)
    (hne : names ≠ []) : IsFile names where
  nonempty := hne
  named := fun name hname => hfile.named name (hsubset hname)
  proper := ⟨fun hmem => hfile.proper.1 (hsubset hmem), fun hmem => hfile.proper.2 (hsubset hmem)⟩

theorem bare_of_hides {fresh name : Text} (long : ∀ rule ∈ rules, rule.name.length < fresh.length)
    (hidden : hides rules [fresh, name] directory = true) :
    lastIgnores (bareRules rules) [name] directory = true := by
  have honly : directories [fresh, name] = [[fresh]] := rfl
  have hfresh : lastIgnores rules [fresh] true = false := lastIgnores_long rfl long
  unfold hides at hidden
  rw [honly, List.any_cons, hfresh, List.any_nil, Bool.or_false, Bool.or_false] at hidden
  have hignored := hidden
  unfold lastIgnores at hidden
  rcases hlast : rules.reverse.find? (fun rule => rule.applies [fresh, name] directory) with _ | rule
  · rw [hlast] at hidden
    exact absurd hidden Bool.false_ne_true
  have happlies : rule.applies [fresh, name] directory = true := by simpa using List.find?_some hlast
  have hanywhere : rule.anchored = false := by
    by_contra hanchored
    rw [Bool.not_eq_false] at hanchored
    have hname := congrArg List.length (applies_joined happlies hanchored)
    have hlong := long rule (List.mem_reverse.mp (List.mem_of_find?_eq_some hlast))
    rw [joined_cons fresh (List.cons_ne_nil name []), List.length_append] at hname
    omega
  have hends : [fresh, name].getLast? = some name := rfl
  rw [lastIgnores_bare hends hlast hanywhere]
  rw [hlast] at hidden
  exact hidden

section
variable (globset : Globset) {isGlob : globset.Glob → Text → Bool} (isBlank : Char → Bool)
  {set : globset.GlobSet}

/-- The watcher drops only what a capture ignores, whatever the root and the file. -/
def WatcherAgrees (set : globset.GlobSet) (patterns : List LiteralPattern) : Prop :=
  ∀ (currentDir : Option (List Text)) (root : List Text) (path : WatchedPath)
    (excluded : List (List Text)) (file : List Text), IsFile file →
    path.absolute currentDir = some (root ++ file) →
    (∀ directory ∈ excluded, ¬ directory <+: root ++ file) →
    watcherPath currentDir root path excluded (globset.isMatch set)
      (patterns.map LiteralPattern.text) = none →
    captureIgnores (baseIgnores isBlank (patterns.map LiteralPattern.text)) file = true

variable {globset isBlank}

theorem agree_iff (laws : globset.Literal isGlob)
    (built : globset.buildIgnoreSet (patterns.map LiteralPattern.text) = some set) :
    WatcherAgrees globset isBlank set patterns ↔
      ∀ file, IsFile file → (∃ pattern ∈ patterns, pattern.Drops file) →
        captureIgnores (baseIgnores isBlank (patterns.map LiteralPattern.text)) file = true := by
  constructor
  · intro h file hfile hdropped
    have hignored := (isIgnored_iff laws built hfile).mpr hdropped
    apply h none [] ⟨true, file⟩ [] file hfile rfl fun _ hmem => absurd hmem List.not_mem_nil
    exact (watcherPath_none_iff rfl fun _ hmem => absurd hmem List.not_mem_nil).mpr hignored
  · intro h currentDir root path excluded file hfile below included hnone
    apply h file hfile
    exact (isIgnored_iff laws built hfile).mp ((watcherPath_none_iff below included).mp hnone)

theorem hidden_of_drops {fresh : Text} (hfresh : IsFile [fresh])
    (long : ∀ rule ∈ rules, rule.name.length < fresh.length)
    (agrees : ∀ file, IsFile file → (∃ pattern ∈ patterns, pattern.Drops file) →
      captureIgnores rules file = true) (hfile : IsFile file)
    (drops : ∀ rest, ∃ pattern ∈ patterns, pattern.Drops (file ++ rest)) : Hidden rules file := by
  intro directory
  cases directory with
  | false =>
    have hself := drops []
    rw [List.append_nil] at hself
    exact agrees file hfile hself
  | true =>
    -- no rule is as long as the name of this file below it
    have hbelow := agrees _ (hfile.append hfresh) (drops [fresh])
    exact hides_directory long hbelow

theorem covered_of_agrees (agrees : ∀ file, IsFile file → (∃ pattern ∈ patterns, pattern.Drops file) →
    captureIgnores rules file = true) : IgnoresCovered rules patterns := by
  obtain ⟨fresh, hfresh, hlong⟩ := exists_long rules
  constructor
  · intro pattern hpattern hfile htrailing _
    apply hidden_of_drops hfresh hlong agrees hfile
    intro rest
    exact ⟨pattern, hpattern, Or.inl ⟨htrailing, List.prefix_append _ _⟩⟩
  · intro pattern hpattern name hone hname
    have hends : ∀ {path : List Text}, IsFile path → path.getLast? = some name → Hidden rules path := by
      intro path hpath hlast
      apply hidden_of_drops hfresh hlong agrees hpath
      intro rest
      have hmem : name ∈ path ++ rest := List.mem_append_left rest (List.mem_of_getLast? hlast)
      exact ⟨pattern, hpattern, Or.inr ⟨name, hmem, hone⟩⟩
    constructor
    · intro directory
      have hhidden := hends (hfresh.append hname) rfl directory
      exact bare_of_hides hlong hhidden
    · intro rule _ _ _ path hpath _ hlast
      exact hends hpath hlast

theorem ignored_of_hidden {names : List Text} (hne : names ≠ []) (hstarts : names <+: file)
    (hidden : Hidden rules names) : captureIgnores rules file = true := by
  obtain ⟨rest, rfl⟩ := hstarts
  cases rest with
  | nil =>
    rw [List.append_nil]
    exact hidden false
  | cons next rest => exact hides_below (List.cons_ne_nil next rest) (hidden true) hne

theorem ignored_of_named {name : Text} (covered : IgnoresCovered rules patterns) (hfile : IsFile file)
    {pattern : LiteralPattern} (hpattern : pattern ∈ patterns) (hname : name ∈ file)
    (hone : pattern.names = [name]) : captureIgnores rules file = true := by
  have hnamed : IsFile [name] :=
    hfile.of_subset (List.cons_subset.mpr ⟨hname, List.nil_subset _⟩) (List.cons_ne_nil name [])
  obtain ⟨hbare, hanchored⟩ := covered.names pattern hpattern name hone hnamed
  -- the file or a directory above it ends in the name
  obtain ⟨before, after, rfl⟩ := List.append_of_mem hname
  have hstarts : before ++ [name] <+: before ++ name :: after := ⟨after, by simp⟩
  have hne : before ++ [name] ≠ [] := by simp
  apply ignored_of_hidden hne hstarts
  apply hidden_named List.getLast?_concat hbare
  intro rule hrule hnegated hrooted hsame
  exact hanchored rule hrule hnegated hrooted _ (hfile.of_subset hstarts.subset hne) hsame
    List.getLast?_concat

theorem agrees_of_covered (covered : IgnoresCovered rules patterns) (hfile : IsFile file)
    {pattern : LiteralPattern} (hpattern : pattern ∈ patterns) (drops : pattern.Drops file) :
    captureIgnores rules file = true := by
  rcases drops with ⟨htrailing, hstarts⟩ | ⟨name, hname, hone⟩
  · by_cases hmany : 1 < pattern.names.length
    · have hnames := hfile.of_subset hstarts.subset pattern.nonempty
      apply ignored_of_hidden pattern.nonempty hstarts
      exact covered.paths pattern hpattern hnames htrailing hmany
    · have hlength : pattern.names.length = 1 := by
        have hpositive := List.length_pos_iff.mpr pattern.nonempty
        omega
      obtain ⟨name, hone⟩ := List.length_eq_one_iff.mp hlength
      apply ignored_of_named covered hfile hpattern _ hone
      rw [hone] at hstarts
      exact hstarts.subset (List.mem_singleton_self name)
  · exact ignored_of_named covered hfile hpattern hname hone

theorem agree_covered (laws : globset.Literal isGlob)
    (built : globset.buildIgnoreSet (patterns.map LiteralPattern.text) = some set) :
    WatcherAgrees globset isBlank set patterns ↔
      IgnoresCovered (baseIgnores isBlank (patterns.map LiteralPattern.text)) patterns := by
  rw [agree_iff laws built]
  constructor
  · exact covered_of_agrees
  · intro covered file hfile ⟨pattern, hpattern, drops⟩
    exact agrees_of_covered covered hfile hpattern drops

end

/-- Not a comment, a negation, a line with blanks at its end, or more than a line. -/
structure LiteralPattern.Plain (isBlank : Char → Bool) (pattern : LiteralPattern) : Prop where
  begins : ∀ first ∈ pattern.text.head?, first ≠ '#' ∧ first ≠ '!'
  ends : ∀ last ∈ pattern.text.getLast?, isBlank last = false
  line : '\n' ∉ pattern.text

def LiteralPattern.Slashed (pattern : LiteralPattern) (name : Text) : Prop :=
  pattern.names = [name] ∧ (pattern.leading = true ∨ pattern.trailing = true)

def LiteralPattern.Bare (pattern : LiteralPattern) (name : Text) : Prop :=
  pattern.names = [name] ∧ pattern.leading = false ∧ pattern.trailing = false

def LiteralPattern.rule (pattern : LiteralPattern) : GitRule where
  negated := false
  name := joined pattern.names
  anchored := pattern.leading || decide (1 < pattern.names.length)
  directories := pattern.trailing

variable {isBlank : Char → Bool}

theorem LiteralPattern.head_iff (pattern : LiteralPattern) :
    pattern.text.head? = some slash ↔ pattern.leading = true := by
  obtain ⟨first, rest, hjoined, hfirst⟩ := joined_head pattern.nonempty pattern.named
  rw [text_eq]
  rcases pattern.leading with _ | _
  · rw [hjoined]
    apply iff_of_false
    · exact fun hhead => hfirst (Option.some.inj hhead)
    · exact Bool.false_ne_true
  · exact iff_of_true rfl rfl

theorem LiteralPattern.last_iff (pattern : LiteralPattern) :
    (joined pattern.names ++ pattern.ending).getLast? = some slash ↔ pattern.trailing = true := by
  obtain ⟨last, hlast, hother⟩ := joined_last pattern.nonempty pattern.named
  unfold ending
  rcases pattern.trailing with _ | _
  · rw [if_neg Bool.false_ne_true, List.append_nil, hlast]
    apply iff_of_false
    · exact fun hend => hother (Option.some.inj hend)
    · exact Bool.false_ne_true
  · rw [if_pos rfl, List.getLast?_concat]
    exact iff_of_true rfl rfl

theorem LiteralPattern.read_text {pattern : LiteralPattern} (plain : pattern.Plain isBlank) :
    GitRule.read isBlank pattern.text = some pattern.rule := by
  obtain ⟨first, rest, hjoined, hfirst⟩ := joined_head pattern.nonempty pattern.named
  have hmany := slash_mem_joined pattern.nonempty pattern.named
  have hbegins : ∀ c, pattern.text.head? = some c → c ≠ '#' ∧ c ≠ '!' := plain.begins
  have hcomment : pattern.text.head? ≠ some '#' := fun h => (hbegins _ h).1 rfl
  have hnegation : pattern.text.head? ≠ some '!' := fun h => (hbegins _ h).2 rfl
  have hkept : pattern.text.rdropWhile isBlank = pattern.text := by
    rw [List.rdropWhile_eq_self_iff]
    intro hne
    rw [plain.ends _ (List.getLast?_eq_some_getLast hne)]
    exact Bool.false_ne_true
  -- what is left when the slash before it is gone
  have hrest : (if pattern.leading = true then pattern.text.tail else pattern.text) =
      joined pattern.names ++ pattern.ending := by
    rw [text_eq]
    rcases pattern.leading with _ | _
    · rfl
    · rfl
  -- and when the slash after it is gone
  have hname : (if pattern.trailing = true then (joined pattern.names ++ pattern.ending).dropLast
      else joined pattern.names ++ pattern.ending) = joined pattern.names := by
    unfold ending
    rcases pattern.trailing with _ | _
    · exact List.append_nil _
    · exact List.dropLast_concat
  have hempty : pattern.text.isEmpty = false := by
    rw [text_eq, hjoined]
    rcases pattern.leading with _ | _ <;> rfl
  unfold GitRule.read LiteralPattern.rule
  simp only [hcomment, if_false, hkept, hempty, Bool.false_eq_true, hnegation, decide_false,
    pattern.head_iff, hrest, pattern.last_iff, hname, hmany, Bool.decide_or, Bool.decide_eq_true]

theorem mem_baseIgnores {rule : GitRule} (plain : ∀ pattern ∈ patterns, pattern.Plain isBlank) :
    rule ∈ baseIgnores isBlank (patterns.map LiteralPattern.text) ↔
      ∃ pattern ∈ patterns, rule = pattern.rule := by
  rcases patterns with _ | ⟨first, patterns⟩
  · have hnone : baseIgnores isBlank [] = [] := by
      simp [baseIgnores, GitRule.read]
    simp [hnone]
  have hwhole : ∀ line ∈ (first :: patterns).map LiteralPattern.text, '\n' ∉ line := by
    intro line hline
    obtain ⟨pattern, hpattern, rfl⟩ := List.mem_map.mp hline
    exact (plain pattern hpattern).line
  have hsplit := List.splitOn_intercalate '\n' hwhole (List.cons_ne_nil _ _)
  unfold baseIgnores
  rw [hsplit, List.mem_filterMap]
  constructor
  · rintro ⟨line, hline, hread⟩
    obtain ⟨pattern, hpattern, rfl⟩ := List.mem_map.mp hline
    rw [LiteralPattern.read_text (plain pattern hpattern)] at hread
    exact ⟨pattern, hpattern, (Option.some.inj hread).symm⟩
  · rintro ⟨pattern, hpattern, rfl⟩
    exact ⟨_, List.mem_map_of_mem hpattern, LiteralPattern.read_text (plain pattern hpattern)⟩

theorem lastIgnores_iff (kept : ∀ rule ∈ rules, rule.negated = false) :
    lastIgnores rules path directory = true ↔ ∃ rule ∈ rules, rule.applies path directory = true := by
  unfold lastIgnores
  rcases hfind : rules.reverse.find? (fun rule => rule.applies path directory) with _ | rule
  · rw [hfind]
    rw [List.find?_eq_none] at hfind
    refine iff_of_false Bool.false_ne_true ?_
    rintro ⟨rule, hrule, happlies⟩
    exact hfind rule (List.mem_reverse.mpr hrule) happlies
  · have hrule := List.mem_reverse.mp (List.mem_of_find?_eq_some hfind)
    rw [hfind, Option.any_some, kept rule hrule]
    exact iff_of_true rfl ⟨rule, hrule, by simpa using List.find?_some hfind⟩

theorem joined_one (name : Text) : joined [name] = name := by simp [joined]

theorem bare_iff {name : Text} (hname : IsName name)
    (read : ∀ rule, rule ∈ rules ↔ ∃ pattern ∈ patterns, rule = pattern.rule) (directory : Bool) :
    lastIgnores (bareRules rules) [name] directory = true ↔ ∃ other ∈ patterns, other.names = [name] ∧
      other.leading = false ∧ (other.trailing = true → directory = true) := by
  have hkept : ∀ rule ∈ bareRules rules, rule.negated = false := by
    intro rule hrule
    obtain ⟨pattern, -, rfl⟩ := (read rule).mp (List.mem_of_mem_filter hrule)
    rfl
  rw [lastIgnores_iff hkept]
  constructor
  · rintro ⟨rule, hrule, happlies⟩
    obtain ⟨hmem, hanywhere⟩ := List.mem_filter.mp hrule
    obtain ⟨other, hother, rfl⟩ := (read rule).mp hmem
    rw [Bool.not_eq_true'] at hanywhere
    have hlast : name = joined other.names := Option.some.inj (applies_last happlies hanywhere)
    obtain ⟨hleading, -⟩ := Bool.or_eq_false_iff.mp hanywhere
    have hsplit := splitOn_joined other.nonempty other.named
    rw [← hlast, List.splitOn_eq_singleton hname.2] at hsplit
    refine ⟨other, hother, hsplit.symm, hleading, fun htrailing => ?_⟩
    unfold GitRule.applies LiteralPattern.rule at happlies
    rw [htrailing] at happlies
    simpa using (Bool.and_eq_true_iff.mp happlies).1
  · rintro ⟨other, hother, hone, hleading, htrailing⟩
    have hanywhere : other.rule.anchored = false := by
      simp [LiteralPattern.rule, hleading, hone]
    have hrule : other.rule ∈ bareRules rules :=
      List.mem_filter.mpr ⟨(read _).mpr ⟨other, hother, rfl⟩, by simp [hanywhere]⟩
    have hdirectory : (directory || !other.trailing) = true := by
      rcases htrail : other.trailing with _ | _
      · simp
      · simp [htrailing htrail]
    refine ⟨other.rule, hrule, ?_⟩
    unfold GitRule.applies
    rw [hanywhere, if_neg Bool.false_ne_true]
    simp [LiteralPattern.rule, hdirectory, hone, joined_one]

theorem covered_plain (plain : ∀ pattern ∈ patterns, pattern.Plain isBlank) :
    IgnoresCovered (baseIgnores isBlank (patterns.map LiteralPattern.text)) patterns ↔
      ∀ pattern ∈ patterns, ∀ name, pattern.Slashed name → IsFile [name] →
        ∃ other ∈ patterns, other.Bare name := by
  have hrules : ∀ rule, rule ∈ baseIgnores isBlank (patterns.map LiteralPattern.text) ↔ _ :=
    fun rule => mem_baseIgnores plain
  generalize baseIgnores isBlank (patterns.map LiteralPattern.text) = rules at hrules ⊢
  -- none of the lines is a negation
  have hkept : ∀ rule ∈ rules, rule.negated = false := by
    intro rule hrule
    obtain ⟨pattern, -, rfl⟩ := (hrules rule).mp hrule
    rfl
  constructor
  · rintro h pattern hpattern name ⟨hone, -⟩ hfile
    have hname := hfile.named name (List.mem_singleton_self name)
    have hbare := (h.names pattern hpattern name hone hfile).1 false
    obtain ⟨other, hother, hsame, hleading, htrailing⟩ := (bare_iff hname hrules false).mp hbare
    refine ⟨other, hother, hsame, hleading, ?_⟩
    rw [← Bool.not_eq_true]
    exact fun h => Bool.false_ne_true (htrailing h)
  · intro h
    constructor
    · intro pattern hpattern hfile htrailing hmany directory
      unfold hides
      rw [Bool.or_eq_true, lastIgnores_iff hkept]
      apply Or.inl
      have happlies : pattern.rule.applies pattern.names directory = true := by
        simp [GitRule.applies, LiteralPattern.rule, htrailing, hmany]
      exact ⟨pattern.rule, (hrules _).mpr ⟨pattern, hpattern, rfl⟩, happlies⟩
    · intro pattern hpattern name hone hfile
      have hname := hfile.named name (List.mem_singleton_self name)
      obtain ⟨other, hother, hsame, hleading, htrailing⟩ : ∃ other ∈ patterns, other.Bare name := by
        by_cases hslashed : pattern.leading = true ∨ pattern.trailing = true
        · exact h pattern hpattern name ⟨hone, hslashed⟩ hfile
        · exact ⟨pattern, hpattern, hone, by simpa using hslashed⟩
      constructor
      · intro directory
        apply (bare_iff hname hrules directory).mpr
        refine ⟨other, hother, hsame, hleading, fun h => ?_⟩
        exact absurd (htrailing.symm.trans h) Bool.false_ne_true
      · intro rule hrule hnegated
        rw [hkept rule hrule] at hnegated
        exact absurd hnegated Bool.false_ne_true

end

/-- The watcher drops only what a capture ignores exactly when the lines of the list cover its patterns;
for patterns that are read literally, when each name with a slash before or after it is also there as a
bare name. -/
theorem watcher_agrees_iff (globset : Globset) (isGlob : globset.Glob → Text → Bool)
    (isBlank : Char → Bool) (patterns : List LiteralPattern) (set : globset.GlobSet)
    (laws : globset.Literal isGlob)
    (built : globset.buildIgnoreSet (patterns.map LiteralPattern.text) = some set) :
    (WatcherAgrees globset isBlank set patterns ↔
      IgnoresCovered (baseIgnores isBlank (patterns.map LiteralPattern.text)) patterns) ∧
    ((∀ pattern ∈ patterns, pattern.Plain isBlank) → (WatcherAgrees globset isBlank set patterns ↔
      ∀ pattern ∈ patterns, ∀ name, pattern.Slashed name → IsFile [name] →
        ∃ other ∈ patterns, other.Bare name)) := by
  refine ⟨agree_covered laws built, fun plain => ?_⟩
  rw [agree_covered laws built, covered_plain plain]

inductive PlainGlob where
  | path (text : Text)
  | below (text : Text)

def PlainGlob.isMatch (path : Text) : PlainGlob → Bool
  | .path text => path = text
  | .below text => (text ++ [slash]).isPrefixOf path

def plainGlobset : Globset where
  Glob := PlainGlob
  GlobSet := List PlainGlob
  new text :=
    if [slash, '*', '*'] <:+ text then some (.below (text.take (text.length - 3)))
    else some (.path text)
  build globs := some globs
  isMatch globs path := globs.any (PlainGlob.isMatch path)

def plainMatch (glob : plainGlobset.Glob) (path : Text) : Bool := PlainGlob.isMatch path glob

theorem plainGlobset_literal : plainGlobset.Literal plainMatch where
  path := by
    intro text glob literal h path
    have hplain : ¬ [slash, '*', '*'] <:+ text := fun hends =>
      literal '*' (hends.subset (by simp)) (by decide)
    have hnew : plainGlobset.new text = some (PlainGlob.path text) := if_neg hplain
    rw [← Option.some.inj (hnew.symm.trans h)]
    rfl
  below := by
    intro text glob _ h path
    have hnew : plainGlobset.new (text ++ [slash, '*', '*']) = some (PlainGlob.below text) := by
      simp [plainGlobset]
    rw [← Option.some.inj (hnew.symm.trans h)]
    rfl
  any := by
    intro globs set h path
    rw [← Option.some.inj h]
    rfl

theorem plainGlobset_builds (patterns : List LiteralPattern) : ∃ set,
    plainGlobset.buildIgnoreSet (patterns.map LiteralPattern.text) = some set := by
  have hnew : ∀ text, ∃ glob, plainGlobset.new text = some glob := by
    intro text
    unfold plainGlobset
    dsimp only
    split_ifs <;> exact ⟨_, rfl⟩
  have hglobs : ∀ texts, ∃ globs, plainGlobset.buildGlobs texts = some globs := by
    intro texts
    induction texts with
    | nil => exact ⟨[], rfl⟩
    | cons text texts ih =>
      obtain ⟨path, hpath⟩ := hnew (trimStart text)
      obtain ⟨below, hbelow⟩ := hnew (trimStart text ++ [slash, '*', '*'])
      obtain ⟨globs, hglobs⟩ := ih
      exact ⟨path :: below :: globs, by simp [Globset.buildGlobs, hpath, hbelow, hglobs]⟩
  obtain ⟨globs, hglobs⟩ := hglobs (patterns.map LiteralPattern.text)
  refine ⟨globs, ?_⟩
  unfold Globset.buildIgnoreSet
  rw [hglobs]
  rfl

def onePattern (leading : Bool) (name : Text) (named : IsName name) (literal : IsLiteral name) :
    LiteralPattern where
  leading := leading
  names := [name]
  trailing := false
  nonempty := List.cons_ne_nil name []
  named := List.forall_mem_singleton.mpr named
  literal := List.forall_mem_singleton.mpr literal

def anchoredBuild : LiteralPattern :=
  onePattern true "build".toList (by decide) (by simp [IsLiteral, metacharacters])

def bareBuild : LiteralPattern :=
  onePattern false "build".toList (by decide) (by simp [IsLiteral, metacharacters])

def notes : LiteralPattern :=
  onePattern false "#notes".toList (by decide) (by simp [IsLiteral, metacharacters])

theorem build_plain : ∀ pattern ∈ [anchoredBuild, bareBuild], pattern.Plain (· = ' ') := by
  have hplain : ∀ leading, (onePattern leading "build".toList (by decide)
      (by simp [IsLiteral, metacharacters])).Plain (· = ' ') := by
    intro leading
    have hline : ∀ c ∈ (onePattern leading "build".toList (by decide)
        (by simp [IsLiteral, metacharacters])).text, c = slash ∨ c ∈ "build".toList := by
      intro c hc
      unfold LiteralPattern.text onePattern at hc
      cases leading with
      | false => exact Or.inr (by simpa [joined_one] using hc)
      | true => simpa [joined_one] using hc
    have hpart : ∀ c, c = slash ∨ c ∈ "build".toList → (c ≠ '#' ∧ c ≠ '!') ∧ c ≠ ' ' ∧ c ≠ '\n' := by
      rintro c (rfl | hc)
      · decide
      · fin_cases hc <;> decide
    constructor
    · exact fun first hfirst => (hpart first (hline first (List.mem_of_head? hfirst))).1
    · exact fun last hlast => decide_eq_false (hpart last (hline last (List.mem_of_getLast? hlast))).2.1
    · exact fun hmem => (hpart '\n' (hline '\n' hmem)).2.2 rfl
  intro pattern hpattern
  rcases List.mem_pair.mp hpattern with rfl | rfl
  · exact hplain true
  · exact hplain false

/-- With the bare name in the list the two agree; on the list of a comment they do not. -/
theorem watcher_agrees_iff_listed :
    (∃ set, WatcherAgrees plainGlobset (· = ' ') set [anchoredBuild, bareBuild]) ∧
      ∃ set, ¬ WatcherAgrees plainGlobset (· = ' ') set [notes] := by
  constructor
  · obtain ⟨set, hset⟩ := plainGlobset_builds [anchoredBuild, bareBuild]
    refine ⟨set, ((watcher_agrees_iff plainGlobset plainMatch (· = ' ') _ set plainGlobset_literal
      hset).2 build_plain).mpr ?_⟩
    intro pattern hpattern name hslashed _
    refine ⟨bareBuild, by simp, ?_, rfl, rfl⟩
    rw [← hslashed.1]
    rcases List.mem_pair.mp hpattern with rfl | rfl <;> rfl
  · obtain ⟨set, hset⟩ := plainGlobset_builds [notes]
    refine ⟨set, fun hagrees => ?_⟩
    have hcovered := (watcher_agrees_iff plainGlobset plainMatch (· = ' ') _ set
      plainGlobset_literal hset).1.mp hagrees
    have hfile : IsFile ["#notes".toList] := ⟨List.cons_ne_nil _ _, by decide, by decide⟩
    have hnames := (hcovered.names notes (List.mem_singleton_self notes) "#notes".toList rfl hfile).1 false
    exact absurd hnames (by decide)

/-- An edit below a nested directory of the name of an anchored pattern is captured, and its
notification is dropped. -/
theorem nested_edit_is_dropped :
    ¬ ∀ (globset : Globset) (isGlob : globset.Glob → Text → Bool) (isBlank : Char → Bool)
      (patterns : List LiteralPattern) (set : globset.GlobSet), globset.Literal isGlob →
      globset.buildIgnoreSet (patterns.map LiteralPattern.text) = some set →
      WatcherAgrees globset isBlank set patterns := by
  intro h
  have hfile : IsFile ["src".toList, "build".toList, "main.rs".toList] :=
    ⟨List.cons_ne_nil _ _, by decide, by decide⟩
  have hignored := h plainGlobset plainMatch (· = ' ') [anchoredBuild]
    [.path "build".toList, .below "build".toList] plainGlobset_literal rfl none ["work".toList]
    ⟨true, ["work".toList, "src".toList, "build".toList, "main.rs".toList]⟩ [] _ hfile rfl
    (fun _ hmem => absurd hmem List.not_mem_nil) (by decide)
  exact absurd hignored (by decide)

end Rrjj
