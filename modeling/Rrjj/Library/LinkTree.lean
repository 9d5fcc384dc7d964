import Mathlib.Data.List.Basic
import Mathlib.Tactic

/-! Directory trees with symbolic links: where a path leads, and what makes a directory. -/

namespace Library

inductive PathPart (ν : Type) where
  | current
  | parent
  | name (name : ν)
  deriving DecidableEq

structure LinkPath (ν : Type) where
  isAbsolute : Bool
  parts : List (PathPart ν)
  deriving DecidableEq

namespace LinkPath
variable {ν : Type}

def parent (path : LinkPath ν) : Option (LinkPath ν) :=
  if path.parts.isEmpty then none else some { path with parts := path.parts.dropLast }

def fileName (path : LinkPath ν) : Option ν :=
  match path.parts.getLast? with
  | some (.name name) => some name
  | _ => none

def join (path : LinkPath ν) (name : ν) : LinkPath ν := { path with parts := path.parts ++ [.name name] }

theorem parts_of_fileName {path parent : LinkPath ν} {name : ν} (h : path.parent = some parent)
    (named : path.fileName = some name) : path = parent.join name := by
  unfold LinkPath.parent at h
  split_ifs at h
  unfold fileName at named
  split at named
  · next last hlast =>
    rw [← Option.some.inj h, ← Option.some.inj named]
    unfold join
    have hne : path.parts ≠ [] := by
      intro hnil
      rw [hnil] at hlast
      exact nomatch hlast
    rw [List.getLast?_eq_some_getLast hne, Option.some_inj] at hlast
    rw [← hlast, List.dropLast_concat_getLast]
  · exact nomatch named

end LinkPath

inductive LinkNode (ν : Type) where
  | dir
  | file
  | link (target : LinkPath ν)
  deriving DecidableEq

inductive LookupError where
  | notFound
  | notDirectory
  | alreadyExists
  | tooManyLinks
  deriving DecidableEq, Repr

/-- Every entry lies in a directory, and the names in a directory are those of its entries. -/
structure LinkTree (ν : Type) where
  node : List ν → Option (LinkNode ν)
  names : List ν → List ν
  root : node [] = some .dir
  rooted : ∀ place name, node (place ++ [name]) ≠ none → node place = some .dir
  listed : ∀ place name, name ∈ names place ↔ node (place ++ [name]) ≠ none
  currentDir : List ν
  current : node currentDir = some .dir
  maxLinks : ℕ

namespace LinkTree
variable {ν : Type}

section
variable (tree : LinkTree ν)

def start (place : List ν) (path : LinkPath ν) : List ν := if path.isAbsolute then [] else place

def walk (follow : List ν → List (PathPart ν) → Except LookupError (List ν)) :
    List ν → List (PathPart ν) → Except LookupError (List ν)
  | place, [] => .ok place
  | place, .current :: rest => walk follow place rest
  | place, .parent :: rest => walk follow place.dropLast rest
  | place, .name name :: rest =>
    match tree.node (place ++ [name]) with
    | none => .error .notFound
    | some .dir => walk follow (place ++ [name]) rest
    | some .file => if rest.isEmpty then .ok (place ++ [name]) else .error .notDirectory
    | some (.link target) => follow (start place target) (target.parts ++ rest)

def walkWithin : ℕ → List ν → List (PathPart ν) → Except LookupError (List ν)
  | 0 => tree.walk fun _ _ => .error .tooManyLinks
  | links + 1 => tree.walk (walkWithin links)

/-- `realpath`; an empty path is none. -/
def lookup (path : LinkPath ν) : Except LookupError (List ν) :=
  if !path.isAbsolute && path.parts.isEmpty then .error .notFound
  else tree.walkWithin tree.maxLinks (start tree.currentDir path) path.parts

def pathExists (path : LinkPath ν) : Bool := (tree.lookup path).isOk

def isDir (path : LinkPath ν) : Bool :=
  match tree.lookup path with
  | .ok place => match tree.node place with
    | some .dir => true
    | _ => false
  | .error _ => false

def readDir (path : LinkPath ν) : Except LookupError (List ν) :=
  match tree.lookup path with
  | .ok place => match tree.node place with
    | some .dir => .ok (tree.names place)
    | _ => .error .notDirectory
  | .error failure => .error failure

inductive Leads : List ν → List (PathPart ν) → List ν → Prop
  | arrived (place : List ν) : Leads place [] place
  | current {place : List ν} {rest : List (PathPart ν)} {stop : List ν} (rest_leads : Leads place rest stop) :
      Leads place (.current :: rest) stop
  | parent {place : List ν} {rest : List (PathPart ν)} {stop : List ν}
      (rest_leads : Leads place.dropLast rest stop) : Leads place (.parent :: rest) stop
  | dir {place : List ν} {name : ν} {rest : List (PathPart ν)} {stop : List ν}
      (found : tree.node (place ++ [name]) = some .dir) (rest_leads : Leads (place ++ [name]) rest stop) :
      Leads place (.name name :: rest) stop
  | file {place : List ν} {name : ν} (found : tree.node (place ++ [name]) = some .file) :
      Leads place [.name name] (place ++ [name])
  | link {place : List ν} {name : ν} {rest : List (PathPart ν)} {stop : List ν} {target : LinkPath ν}
      (found : tree.node (place ++ [name]) = some (.link target))
      (rest_leads : Leads (start place target) (target.parts ++ rest) stop) :
      Leads place (.name name :: rest) stop

inductive Lands : List ν → List (PathPart ν) → List ν → Prop
  | arrived (place : List ν) : Lands place [] place
  | current {place : List ν} {rest : List (PathPart ν)} {stop : List ν} (rest_lands : Lands place rest stop) :
      Lands place (.current :: rest) stop
  | parent {place : List ν} {rest : List (PathPart ν)} {stop : List ν}
      (rest_lands : Lands place.dropLast rest stop) : Lands place (.parent :: rest) stop
  | dir {place : List ν} {name : ν} {rest : List (PathPart ν)} {stop : List ν}
      (found : tree.node (place ++ [name]) = some .dir) (rest_lands : Lands (place ++ [name]) rest stop) :
      Lands place (.name name :: rest) stop
  | file {place : List ν} {name : ν} (found : tree.node (place ++ [name]) = some .file) :
      Lands place [.name name] (place ++ [name])
  | link {place : List ν} {name : ν} {rest : List (PathPart ν)} {stop : List ν} {target : LinkPath ν}
      (found : tree.node (place ++ [name]) = some (.link target))
      (rest_lands : Lands (start place target) (target.parts ++ rest) stop) :
      Lands place (.name name :: rest) stop
  | missing {place : List ν} {name : ν} {rest : List (PathPart ν)} {stop : List ν}
      (absent : tree.node (place ++ [name]) = none) (rest_lands : Lands (place ++ [name]) rest stop) :
      Lands place (.name name :: rest) stop

end

variable {tree other : LinkTree ν} {place stop stop' mid : List ν} {parts rest : List (PathPart ν)} {name : ν}

theorem leads_of_walk {follow : List ν → List (PathPart ν) → Except LookupError (List ν)}
    (follows : ∀ place parts stop, follow place parts = .ok stop → tree.Leads place parts stop)
    (h : tree.walk follow place parts = .ok stop) : tree.Leads place parts stop := by
  induction parts generalizing place with
  | nil =>
    rw [← Except.ok.inj h]
    exact .arrived place
  | cons part rest ih =>
    cases part with
    | current => exact .current (ih h)
    | parent => exact .parent (ih h)
    | name name =>
      unfold walk at h
      split at h
      · exact nomatch h
      · next hdir => exact .dir hdir (ih h)
      · next hfile =>
        split_ifs at h with hend
        rw [← Except.ok.inj h, List.isEmpty_iff.mp hend]
        exact .file hfile
      · next target hlink => exact .link hlink (follows _ _ _ h)

theorem leads_of_walkWithin {links : ℕ} (h : tree.walkWithin links place parts = .ok stop) :
    tree.Leads place parts stop := by
  induction links generalizing place parts stop with
  | zero => exact leads_of_walk (fun _ _ _ h => absurd h (by simp)) h
  | succ links ih => exact leads_of_walk (fun _ _ _ h => ih h) h

theorem leads_of_lookup {path : LinkPath ν} (h : tree.lookup path = .ok stop) :
    tree.Leads (start tree.currentDir path) path.parts stop := by
  unfold lookup at h
  split_ifs at h
  exact leads_of_walkWithin h

theorem Leads.unique (h : tree.Leads place parts stop) (h' : tree.Leads place parts stop') :
    stop = stop' := by
  induction h with
  | arrived => cases h' with | arrived => rfl
  | current _ ih => cases h' with | current h' => exact ih h'
  | parent _ ih => cases h' with | parent h' => exact ih h'
  | dir found _ ih =>
    cases h' with
    | dir _ h' => exact ih h'
    | file found' => exact absurd (found.symm.trans found') (by simp)
    | link found' => exact absurd (found.symm.trans found') (by simp)
  | file found =>
    cases h' with
    | dir found' => exact absurd (found.symm.trans found') (by simp)
    | file => rfl
    | link found' => exact absurd (found.symm.trans found') (by simp)
  | link found _ ih =>
    cases h' with
    | dir found' => exact absurd (found.symm.trans found') (by simp)
    | file found' => exact absurd (found.symm.trans found') (by simp)
    | link found' h' =>
      have htarget := Option.some.inj (found.symm.trans found')
      rw [LinkNode.link.injEq] at htarget
      subst htarget
      exact ih h'

theorem Lands.direct {names : List ν} (h : tree.Lands place (names.map .name) stop)
    (direct : ∀ front, front <+: names → ∀ target, tree.node (place ++ front) ≠ some (.link target)) :
    stop = place ++ names := by
  induction names generalizing place with
  | nil => cases h with | arrived => exact (List.append_nil _).symm
  | cons name names ih =>
    have hmore : ∀ front, front <+: names → ∀ target,
        tree.node (place ++ [name] ++ front) ≠ some (.link target) := by
      intro front hfront
      rw [List.append_assoc]
      exact direct (name :: front) (List.cons_prefix_cons.mpr ⟨rfl, hfront⟩)
    have hnext : tree.Lands (place ++ [name]) (names.map .name) stop → stop = place ++ name :: names := by
      intro hrest
      rw [ih hrest hmore, List.append_assoc]
      rfl
    rw [List.map_cons] at h
    -- the first name leads to a directory or to nothing, is the last one, or would be a link
    generalize hparts : names.map PathPart.name = parts at h
    cases h with
    | dir _ hrest => exact hnext (hparts ▸ hrest)
    | missing _ hrest => exact hnext (hparts ▸ hrest)
    | file =>
      rw [List.map_eq_nil_iff] at hparts
      rw [hparts]
    | link found => exact absurd found (direct [name] (List.cons_prefix_cons.mpr ⟨rfl, List.nil_prefix⟩) _)

theorem Leads.split (h : tree.Leads place (parts ++ rest) stop) :
    ∃ mid, tree.Leads place parts mid ∧ tree.Leads mid rest stop := by
  -- on the way that is followed; a link puts its own parts before those that remain
  generalize hwhole : parts ++ rest = whole at h
  induction h generalizing parts with
  | arrived place =>
    obtain ⟨rfl, rfl⟩ := List.append_eq_nil_iff.mp hwhole
    exact ⟨place, .arrived place, .arrived place⟩
  | @current place others stop h ih =>
    rcases parts with _ | ⟨part, parts⟩
    · rw [List.nil_append] at hwhole
      exact ⟨place, .arrived place, hwhole ▸ .current h⟩
    · obtain ⟨rfl, hrest⟩ := List.cons.inj hwhole
      obtain ⟨mid, hfirst, hlast⟩ := ih hrest
      exact ⟨mid, .current hfirst, hlast⟩
  | @parent place others stop h ih =>
    rcases parts with _ | ⟨part, parts⟩
    · rw [List.nil_append] at hwhole
      exact ⟨place, .arrived place, hwhole ▸ .parent h⟩
    · obtain ⟨rfl, hrest⟩ := List.cons.inj hwhole
      obtain ⟨mid, hfirst, hlast⟩ := ih hrest
      exact ⟨mid, .parent hfirst, hlast⟩
  | @dir place name others stop found h ih =>
    rcases parts with _ | ⟨part, parts⟩
    · rw [List.nil_append] at hwhole
      exact ⟨place, .arrived place, hwhole ▸ .dir found h⟩
    · obtain ⟨rfl, hrest⟩ := List.cons.inj hwhole
      obtain ⟨mid, hfirst, hlast⟩ := ih hrest
      exact ⟨mid, .dir found hfirst, hlast⟩
  | @file place name found =>
    rcases parts with _ | ⟨part, parts⟩
    · rw [List.nil_append] at hwhole
      exact ⟨place, .arrived place, hwhole ▸ .file found⟩
    · obtain ⟨rfl, hrest⟩ := List.cons.inj hwhole
      obtain ⟨rfl, rfl⟩ := List.append_eq_nil_iff.mp hrest
      exact ⟨_, .file found, .arrived _⟩
  | @link place name others stop target found h ih =>
    rcases parts with _ | ⟨part, parts⟩
    · rw [List.nil_append] at hwhole
      exact ⟨place, .arrived place, hwhole ▸ .link found h⟩
    · obtain ⟨rfl, hrest⟩ := List.cons.inj hwhole
      have htarget : (target.parts ++ parts) ++ rest = target.parts ++ others := by
        rw [List.append_assoc]
        exact congrArg (target.parts ++ ·) hrest
      obtain ⟨mid, hfirst, hlast⟩ := ih htarget
      exact ⟨mid, .link found hfirst, hlast⟩

theorem Leads.last {parts : List (PathPart ν)} {first : List ν} (h : tree.Leads first parts place)
    (whole : tree.Leads first (parts ++ [.name name]) stop) :
    stop = place ++ [name] ∨ ∃ target, tree.node (place ++ [name]) = some (.link target) := by
  obtain ⟨mid, hfront, hlast⟩ := whole.split
  rw [hfront.unique h] at hlast
  cases hlast with
  | dir _ more => cases more with | arrived => exact Or.inl rfl
  | file => exact Or.inl rfl
  | link found => exact Or.inr ⟨_, found⟩

structure Extends (tree other : LinkTree ν) : Prop where
  node : ∀ place found, tree.node place = some found → other.node place = some found
  currentDir : other.currentDir = tree.currentDir
  maxLinks : other.maxLinks = tree.maxLinks

theorem Leads.mono (extended : tree.Extends other) (h : tree.Leads place parts stop) :
    other.Leads place parts stop := by
  induction h with
  | arrived place => exact .arrived place
  | current _ ih => exact .current ih
  | parent _ ih => exact .parent ih
  | dir found _ ih => exact .dir (extended.node _ _ found) ih
  | file found => exact .file (extended.node _ _ found)
  | link found _ ih => exact .link (extended.node _ _ found) ih

theorem Extends.walk (extended : tree.Extends other)
    {follow follow' : List ν → List (PathPart ν) → Except LookupError (List ν)}
    (follows : ∀ place parts stop, follow place parts = .ok stop → follow' place parts = .ok stop)
    (h : tree.walk follow place parts = .ok stop) : other.walk follow' place parts = .ok stop := by
  induction parts generalizing place with
  | nil => exact h
  | cons part rest ih =>
    cases part with
    | current => exact ih h
    | parent => exact ih h
    | name name =>
      unfold LinkTree.walk at h ⊢
      split at h
      · exact nomatch h
      · next hdir =>
        rw [extended.node _ _ hdir]
        exact ih h
      · next hfile =>
        rw [extended.node _ _ hfile]
        exact h
      · next target hlink =>
        rw [extended.node _ _ hlink]
        exact follows _ _ _ h

theorem Extends.walkWithin (extended : tree.Extends other) {links : ℕ}
    (h : tree.walkWithin links place parts = .ok stop) :
    other.walkWithin links place parts = .ok stop := by
  induction links generalizing place parts stop with
  | zero => exact extended.walk (fun _ _ _ h => h) h
  | succ links ih => exact extended.walk (fun _ _ _ h => ih h) h

theorem Extends.lookup (extended : tree.Extends other) {path : LinkPath ν}
    (h : tree.lookup path = .ok stop) : other.lookup path = .ok stop := by
  unfold LinkTree.lookup at h ⊢
  split_ifs at h ⊢
  rw [extended.maxLinks, extended.currentDir]
  exact extended.walkWithin h

theorem Leads.found (h : tree.Leads place parts stop) (there : tree.node place ≠ none) :
    tree.node stop ≠ none := by
  induction h with
  | arrived => exact there
  | current _ ih => exact ih there
  | @parent place rest stop _ ih =>
    apply ih
    rcases place.eq_nil_or_concat with rfl | ⟨front, last, rfl⟩
    · exact there
    · rw [List.concat_eq_append] at there ⊢
      rw [List.dropLast_concat, tree.rooted front last there]
      simp
  | dir found _ ih => exact ih (by rw [found]; simp)
  | file found =>
    rw [found]
    simp
  | @link place name rest stop target found _ ih =>
    apply ih
    unfold start
    split_ifs
    · rw [tree.root]
      simp
    · exact there

theorem found_of_lookup {path : LinkPath ν} (h : tree.lookup path = .ok stop) :
    tree.node stop ≠ none := by
  apply (leads_of_lookup h).found
  unfold start
  split_ifs
  · rw [tree.root]
    simp
  · rw [tree.current]
    simp

theorem dir_above {rest : List ν} (more : rest ≠ []) (h : tree.node (place ++ name :: rest) ≠ none) :
    tree.node (place ++ [name]) = some .dir := by
  induction rest using List.reverseRecOn with
  | nil => exact absurd rfl more
  | append_singleton front last ih =>
    have hparent : tree.node (place ++ name :: front) = some .dir := by
      refine tree.rooted _ last ?_
      rwa [List.append_assoc, List.cons_append]
    cases front with
    | nil => exact hparent
    | cons first front =>
      refine ih (List.cons_ne_nil _ _) ?_
      rw [hparent]
      simp

theorem walk_names {follow : List ν → List (PathPart ν) → Except LookupError (List ν)} {names : List ν}
    (file : tree.node (place ++ names) = some .file) :
    tree.walk follow place (names.map .name) = .ok (place ++ names) := by
  induction names generalizing place with
  | nil =>
    rw [List.append_nil]
    rfl
  | cons name names ih =>
    rw [List.map_cons]
    unfold walk
    cases names with
    | nil =>
      rw [file]
      rfl
    | cons next names =>
      rw [dir_above (List.cons_ne_nil _ _) (by rw [file]; simp)]
      have hassoc : place ++ name :: next :: names = (place ++ [name]) ++ next :: names := by simp
      rw [hassoc] at file ⊢
      exact ih file

theorem walk_below {follow : List ν → List (PathPart ν) → Except LookupError (List ν)} {names : List ν}
    (directory : tree.node mid = some .dir) (file : tree.node (mid ++ names) = some .file)
    (follows : ∀ place parts, follow place parts = .ok mid →
      follow place (parts ++ names.map .name) = .ok (mid ++ names))
    (h : tree.walk follow place parts = .ok mid) :
    tree.walk follow place (parts ++ names.map .name) = .ok (mid ++ names) := by
  induction parts generalizing place with
  | nil =>
    obtain rfl : place = mid := Except.ok.inj h
    exact walk_names file
  | cons part rest ih =>
    cases part with
    | current => exact ih h
    | parent => exact ih h
    | name name =>
      rw [List.cons_append]
      unfold walk at h ⊢
      split at h
      · exact nomatch h
      · next hdir => exact ih h
      · next hfile =>
        -- the way ends at a file, and so not at the directory
        split_ifs at h with hend
        rw [Except.ok.inj h, directory] at hfile
        exact nomatch hfile
      · next target hlink =>
        rw [← List.append_assoc]
        exact follows _ _ h

theorem walkWithin_below {links : ℕ} {names : List ν} (directory : tree.node mid = some .dir)
    (file : tree.node (mid ++ names) = some .file) (h : tree.walkWithin links place parts = .ok mid) :
    tree.walkWithin links place (parts ++ names.map .name) = .ok (mid ++ names) := by
  induction links generalizing place parts with
  | zero => exact walk_below directory file (fun _ _ h => absurd h (by simp)) h
  | succ links ih => exact walk_below directory file (fun _ _ h => ih h) h

theorem lookup_below {path : LinkPath ν} {names : List ν} (directory : tree.node mid = some .dir)
    (file : tree.node (mid ++ names) = some .file) (h : tree.lookup path = .ok mid) :
    tree.lookup ⟨path.isAbsolute, path.parts ++ names.map .name⟩ = .ok (mid ++ names) := by
  unfold lookup at h ⊢
  split_ifs at h with hempty
  have hnonempty : ¬ (!path.isAbsolute && (path.parts ++ names.map PathPart.name).isEmpty) = true := by
    intro hboth
    simp only [Bool.and_eq_true, List.isEmpty_iff, List.append_eq_nil_iff] at hboth hempty
    exact hempty ⟨hboth.1, hboth.2.1⟩
  rw [if_neg hnonempty]
  exact walkWithin_below directory file h

theorem isDir_iff {path : LinkPath ν} :
    tree.isDir path = true ↔ ∃ place, tree.lookup path = .ok place ∧ tree.node place = some .dir := by
  unfold isDir
  rcases hlookup : tree.lookup path with failure | place
  · simp
  · simp only [Except.ok.injEq, exists_eq_left']
    split
    · next hdir => simp [hdir]
    · next hother =>
      simp only [Bool.false_eq_true, false_iff]
      exact fun hdir => hother hdir

section
variable [DecidableEq ν]

def makeEntry (tree : LinkTree ν) (place : List ν) (name : ν) (entry : LinkNode ν)
    (directory : tree.node place = some .dir) (free : tree.node (place ++ [name]) = none) :
    LinkTree ν where
  node := Function.update tree.node (place ++ [name]) (some entry)
  names other := if other = place then name :: tree.names other else tree.names other
  root := by
    rw [Function.update_of_ne (by simp)]
    exact tree.root
  rooted other child h := by
    have hdir : tree.node other = some .dir := by
      by_cases hsame : other ++ [child] = place ++ [name]
      · rw [(List.append_inj' hsame rfl).1]
        exact directory
      · rw [Function.update_of_ne hsame] at h
        exact tree.rooted other child h
    rw [Function.update_of_ne, hdir]
    rintro rfl
    rw [free] at hdir
    exact nomatch hdir
  listed other child := by
    by_cases hplace : other = place
    · rw [if_pos hplace, List.mem_cons, hplace]
      by_cases hchild : child = name
      · rw [hchild, Function.update_self]
        simp
      · rw [Function.update_of_ne (by simpa using hchild), tree.listed place child]
        simp [hchild]
    · rw [if_neg hplace, Function.update_of_ne, tree.listed other child]
      intro hsame
      exact hplace (List.append_inj' hsame rfl).1
  currentDir := tree.currentDir
  current := by
    rw [Function.update_of_ne]
    · exact tree.current
    · intro hsame
      have hdir := tree.current
      rw [hsame, free] at hdir
      exact nomatch hdir
  maxLinks := tree.maxLinks

def empty (maxLinks : ℕ) : LinkTree ν where
  node place := if place = [] then some .dir else none
  names _ := []
  root := if_pos rfl
  rooted place name h := absurd (if_neg (by simp)) h
  listed place name := by simp
  currentDir := []
  current := if_pos rfl
  maxLinks := maxLinks

theorem makeEntry_extends {entry : LinkNode ν} (directory : tree.node place = some .dir)
    (free : tree.node (place ++ [name]) = none) :
    tree.Extends (tree.makeEntry place name entry directory free) where
  node other found h := by
    have hne : other ≠ place ++ [name] := by
      rintro rfl
      rw [free] at h
      exact nomatch h
    exact (Function.update_of_ne hne _ _).trans h
  currentDir := rfl
  maxLinks := rfl

theorem makeEntry_node {entry : LinkNode ν} (directory : tree.node place = some .dir)
    (free : tree.node (place ++ [name]) = none) :
    (tree.makeEntry place name entry directory free).node (place ++ [name]) = some entry :=
  Function.update_self _ _ _

theorem makeEntry_other {entry : LinkNode ν} (directory : tree.node place = some .dir)
    (free : tree.node (place ++ [name]) = none) {other : List ν}
    (changed : (tree.makeEntry place name entry directory free).node other ≠ tree.node other) :
    other = place ++ [name] := by
  by_contra hne
  exact changed (Function.update_of_ne hne _ _)

def mkdir (tree : LinkTree ν) (path : LinkPath ν) : Except LookupError (LinkTree ν) :=
  match path.parts.getLast? with
  | some (.name name) =>
    match tree.walkWithin tree.maxLinks (start tree.currentDir path) path.parts.dropLast with
    | .error failure => .error failure
    | .ok place =>
      if directory : tree.node place = some .dir then
        if free : tree.node (place ++ [name]) = none then
          .ok (tree.makeEntry place name .dir directory free)
        else .error .alreadyExists
      else .error .notDirectory
  | _ =>
    match tree.lookup path with
    | .ok _ => .error .alreadyExists
    | .error failure => .error failure

def createDirsAbove (isAbsolute : Bool) :
    List (PathPart ν) → LinkTree ν → Except LookupError Unit × LinkTree ν
  | [], tree => (.ok (), tree)
  | last :: front, tree =>
    let path : LinkPath ν := ⟨isAbsolute, (last :: front).reverse⟩
    match tree.mkdir path with
    | .ok made => (.ok (), made)
    | .error .notFound =>
      match createDirsAbove isAbsolute front tree with
      | (.error failure, left) => (.error failure, left)
      | (.ok (), above) =>
        match above.mkdir path with
        | .ok made => (.ok (), made)
        | .error failure => if above.isDir path then (.ok (), above) else (.error failure, above)
    | .error failure => if tree.isDir path then (.ok (), tree) else (.error failure, tree)

def createDirAll (tree : LinkTree ν) (path : LinkPath ν) : Except LookupError Unit × LinkTree ν :=
  createDirsAbove path.isAbsolute path.parts.reverse tree

theorem mkdir_ok {path : LinkPath ν} {made : LinkTree ν} (h : tree.mkdir path = .ok made) :
    ∃ place name directory free, path.parts.getLast? = some (.name name) ∧
      tree.walkWithin tree.maxLinks (start tree.currentDir path) path.parts.dropLast = .ok place ∧
      made = tree.makeEntry place name .dir directory free := by
  unfold mkdir at h
  split at h
  · next name hname =>
    split at h
    · exact nomatch h
    · next place hplace =>
      split_ifs at h with hdirectory hfree
      exact ⟨place, name, hdirectory, hfree, hname, hplace, (Except.ok.inj h).symm⟩
  · split at h <;> exact nomatch h

section
variable {parent : LinkPath ν} (h : tree.lookup parent = .ok place)
include h

theorem mkdir_join : tree.mkdir (parent.join name) =
    if directory : tree.node place = some .dir then
      if free : tree.node (place ++ [name]) = none then
        .ok (tree.makeEntry place name .dir directory free)
      else .error .alreadyExists
    else .error .notDirectory := by
  have hwalk : tree.walkWithin tree.maxLinks (start tree.currentDir (parent.join name)) parent.parts =
      .ok place := by
    unfold lookup at h
    split_ifs at h
    exact h
  have hlast : (parent.join name).parts.getLast? = some (.name name) := List.getLast?_concat
  have hfront : (parent.join name).parts.dropLast = parent.parts := List.dropLast_concat
  unfold mkdir
  simp only [hlast, hfront, hwalk]

theorem createDirAll_join : tree.createDirAll (parent.join name) =
    if directory : tree.node place = some .dir then
      if free : tree.node (place ++ [name]) = none then
        (.ok (), tree.makeEntry place name .dir directory free)
      else if tree.isDir (parent.join name) then (.ok (), tree) else (.error .alreadyExists, tree)
    else if tree.isDir (parent.join name) then (.ok (), tree) else (.error .notDirectory, tree) := by
  have hreverse : (parent.join name).parts.reverse = .name name :: parent.parts.reverse := by
    unfold LinkPath.join
    rw [List.reverse_append]
    rfl
  have hpath : (⟨(parent.join name).isAbsolute, (PathPart.name name :: parent.parts.reverse).reverse⟩ :
      LinkPath ν) = parent.join name := by
    rw [List.reverse_cons, List.reverse_reverse]
    rfl
  unfold createDirAll
  rw [hreverse, createDirsAbove, hpath, mkdir_join h]
  by_cases hdirectory : tree.node place = some .dir
  · by_cases hfree : tree.node (place ++ [name]) = none
    · simp only [dif_pos hdirectory, dif_pos hfree]
    · simp only [dif_pos hdirectory, dif_neg hfree]
  · simp only [dif_neg hdirectory]

theorem createDirAll_cases {created : LinkTree ν} {result : Except LookupError Unit}
    (done : tree.createDirAll (parent.join name) = (result, created)) :
    (∃ directory free, created = tree.makeEntry place name .dir directory free) ∨ created = tree := by
  have hkept : ∀ {failure : LookupError}, (if tree.isDir (parent.join name) = true then (.ok (), tree)
      else (.error failure, tree) : Except LookupError Unit × LinkTree ν) = (result, created) →
      created = tree := by
    intro failure hdone
    split_ifs at hdone
    · exact (Prod.mk.inj hdone).2.symm
    · exact (Prod.mk.inj hdone).2.symm
  rw [createDirAll_join h] at done
  by_cases hdirectory : tree.node place = some .dir
  · by_cases hfree : tree.node (place ++ [name]) = none
    · rw [dif_pos hdirectory, dif_pos hfree] at done
      exact Or.inl ⟨hdirectory, hfree, (Prod.mk.inj done).2.symm⟩
    · rw [dif_pos hdirectory, dif_neg hfree] at done
      exact Or.inr (hkept done)
  · rw [dif_neg hdirectory] at done
    exact Or.inr (hkept done)

theorem createDirAll_present (present : tree.node (place ++ [name]) ≠ none)
    (isDir : tree.isDir (parent.join name) = true) :
    tree.createDirAll (parent.join name) = (.ok (), tree) := by
  rw [createDirAll_join h, dif_pos (tree.rooted place name present), dif_neg present, if_pos isDir]

end

end

end LinkTree
end Library
