import Rrjj.Library.LinkTree
import Rrjj.Reader.Diff

/-! Materializing a tree of a session: the check that the destination is outside of the session
directory, and what is made of the destination before jj writes to it. -/

namespace Rrjj
open Library LinkTree

abbrev MaterializeTask := ExceptT ReadError (StateT (LinkTree String) Option)

namespace MaterializeTask

def reading {α : Type} (task : ReadTask α) : MaterializeTask α :=
  ExceptT.mk fun tree => task.run.map fun result => (result, tree)

def io {α : Type} : Except LookupError α → MaterializeTask α
  | .ok value => pure value
  | .error _ => throw .io

end MaterializeTask

def partText : PathPart String → String
  | .current => "."
  | .parent => ".."
  | .name name => name

def pathText (path : LinkPath String) : String :=
  (if path.isAbsolute then "/" else "") ++ "/".intercalate (path.parts.map partText)

def absoluteParts (tree : LinkTree String) (path : LinkPath String) : List (PathPart String) :=
  ((start tree.currentDir path).map PathPart.name ++ path.parts).filter (· ≠ .current)

/-- `Path::starts_with`, by components -/
def pathStartsWith (tree : LinkTree String) (path : LinkPath String) (directory : List String) : Bool :=
  (directory.map PathPart.name).isPrefixOf (absoluteParts tree path)

/-- What a tree is checked out with; it may have written before it fails. -/
abbrev CheckOut := MergedTree → LinkPath String → LinkTree String →
  Except String Unit × LinkTree String

section
variable (session : Session) (root : LinkPath String) (loader : RepoLoader) (checkOut : CheckOut)

def prepareDestination (destination : LinkPath String) : MaterializeTask Unit := do
  let tree ← get
  if tree.pathExists destination then
    if tree.isDir destination then do
      let names ← MaterializeTask.io (tree.readDir destination)
      if names.isEmpty then pure () else throw (.destinationNotEmpty (pathText destination))
    else throw (.destinationNotEmpty (pathText destination))
  else
    match tree.createDirAll destination with
    | (.ok (), created) => set created
    | (.error _, left) => do
      set left
      throw .io

def checkOutTree (op : String) (destination : LinkPath String) : MaterializeTask Unit := do
  let merged ← MaterializeTask.reading (do
    ReadTask.repository loader.initFromFileSystem
    let repo ← loader.loadRepoAt op
    loader.wcCommit repo)
  let tree ← get
  match checkOut merged destination tree with
  | (.ok (), written) => set written
  | (.error message, written) => do
    set written
    throw (.repository message)

def Session.materialize (op : String) (destination : LinkPath String) : MaterializeTask Unit := do
  let _ ← MaterializeTask.reading (ReadTask.ofExcept (session.timeline.inspectOperation op))
  let tree ← get
  let sessionDir ← MaterializeTask.io (tree.lookup root)
  if pathStartsWith tree destination sessionDir then throw .destinationInsideSession
  else do
    prepareDestination destination
    checkOutTree loader checkOut op destination

end

/-- The destination is the session directory or is in it, or will be once it is made. -/
def LeadsInside (tree : LinkTree String) (root destination : LinkPath String) : Prop :=
  ∃ sessionDir place, tree.lookup root = .ok sessionDir ∧
    tree.Lands (start tree.currentDir destination) destination.parts place ∧ sessionDir <+: place

def NeverInside {α : Type} (task : MaterializeTask α) : Prop :=
  ∀ tree left, task.run tree ≠ some (.error .destinationInsideSession, left)

namespace MaterializeTask
variable {α β : Type}

theorem run_bind (task : MaterializeTask α) (next : α → MaterializeTask β) (tree : LinkTree String) :
    (task >>= next).run tree = (task.run tree).bind fun result =>
      match result with
      | (.ok value, left) => (next value).run left
      | (.error failure, left) => some (.error failure, left) := by
  show Option.bind (task.run tree) _ = _
  congr 1
  funext result
  obtain ⟨outcome, left⟩ := result
  cases outcome with
  | ok value => rfl
  | error failure => rfl

theorem run_reading (task : ReadTask α) (tree : LinkTree String) :
    (reading task).run tree = task.run.map fun result => (result, tree) := rfl

theorem reading_bind (task : ReadTask α) (next : α → ReadTask β) :
    reading (task >>= next) = reading task >>= fun value => reading (next value) := by
  funext tree
  show (reading (task >>= next)).run tree = (reading task >>= fun value => reading (next value)).run tree
  rw [run_bind, run_reading, run_reading]
  show (Option.bind task.run _).map _ = _
  rcases task.run with _ | failure | value
  · rfl
  · rfl
  · rfl

theorem run_get (tree : LinkTree String) :
    (get : MaterializeTask (LinkTree String)).run tree = some (.ok tree, tree) := rfl

end MaterializeTask

namespace NeverInside
open MaterializeTask
variable {α β : Type}

theorem bind {task : MaterializeTask α} {next : α → MaterializeTask β} (h : NeverInside task)
    (hnext : ∀ value, NeverInside (next value)) : NeverInside (task >>= next) := by
  intro tree left hrun
  rw [run_bind] at hrun
  rcases hresult : task.run tree with _ | ⟨outcome, between⟩
  · rw [hresult] at hrun
    exact nomatch hrun
  · rw [hresult, Option.bind_some] at hrun
    cases outcome with
    | ok value => exact hnext value between left hrun
    | error failure =>
      have hsame : failure = .destinationInsideSession :=
        Except.error.inj (Prod.mk.inj (Option.some.inj hrun)).1
      rw [hsame] at hresult
      exact h tree between hresult

theorem pure (value : α) : NeverInside (Pure.pure value) := by
  intro tree left h
  exact nomatch h

theorem get : NeverInside (MonadState.get : MaterializeTask (LinkTree String)) := by
  intro tree left h
  exact nomatch h

theorem set (tree : LinkTree String) : NeverInside (MonadStateOf.set tree : MaterializeTask PUnit) := by
  intro tree left h
  exact nomatch h

theorem throw {failure : ReadError} (other : failure ≠ .destinationInsideSession) :
    NeverInside (MonadExcept.throw failure : MaterializeTask α) := by
  intro tree left h
  have hfailure : failure = .destinationInsideSession :=
    Except.error.inj (Prod.mk.inj (Option.some.inj h)).1
  exact other hfailure

theorem io (result : Except LookupError α) : NeverInside (MaterializeTask.io result) := by
  cases result with
  | ok value => exact pure value
  | error failure => exact throw (by simp)

theorem repository (result : Except String α) :
    NeverInside (MaterializeTask.reading (ReadTask.repository result)) := by
  intro tree left h
  cases result with
  | ok value => exact nomatch h
  | error message => exact absurd (Except.error.inj (Prod.mk.inj (Option.some.inj h)).1) (by simp)

theorem decodes (op : String) : NeverInside (MaterializeTask.reading (decodeId op)) := by
  intro tree left h
  rw [run_reading] at h
  obtain ⟨outcome, houtcome, hpair⟩ := Option.map_eq_some_iff.mp h
  rw [(Prod.mk.inj hpair).1] at houtcome
  exact absurd (decodeId_error houtcome) (by simp)

theorem prepares (destination : LinkPath String) : NeverInside (prepareDestination destination) := by
  refine get.bind fun tree => ?_
  split_ifs
  · refine (io _).bind fun names => ?_
    split_ifs
    · exact pure ()
    · exact throw (by simp)
  · exact throw (by simp)
  · split
    · exact set _
    · exact (set _).bind fun _ => throw (by simp)

theorem checksOut (loader : RepoLoader) (checkOut : CheckOut) (op : String)
    (destination : LinkPath String) : NeverInside (checkOutTree loader checkOut op destination) := by
  have hloaded : NeverInside (MaterializeTask.reading (loader.loadRepoAt op)) := by
    unfold RepoLoader.loadRepoAt
    rw [reading_bind]
    refine (decodes op).bind fun id => ?_
    rw [reading_bind]
    exact (repository _).bind fun operation => repository _
  have hcommit : ∀ repo, NeverInside (MaterializeTask.reading (loader.wcCommit repo)) := by
    intro repo
    unfold RepoLoader.wcCommit
    split
    · exact repository (.error _)
    · exact repository _
  refine bind ?_ fun merged => get.bind fun tree => ?_
  · rw [reading_bind]
    refine (repository _).bind fun _ => ?_
    rw [reading_bind]
    exact hloaded.bind hcommit
  · split
    · exact set _
    · exact (set _).bind fun _ => throw (by simp)

end NeverInside

section
variable (session : Session) (root : LinkPath String) (loader : RepoLoader) (checkOut : CheckOut)

theorem materialize_inside_iff (op : String) (destination : LinkPath String) (tree : LinkTree String) :
    (session.materialize root loader checkOut op destination).run tree =
        some (.error .destinationInsideSession, tree) ↔
      (∃ info, session.timeline.inspectOperation op = .ok info) ∧
        ∃ sessionDir, tree.lookup root = .ok sessionDir ∧
          pathStartsWith tree destination sessionDir = true := by
  have hinspect : (MaterializeTask.reading (ReadTask.ofExcept
      (session.timeline.inspectOperation op))).run tree =
        some (session.timeline.inspectOperation op, tree) := rfl
  unfold Session.materialize
  rw [MaterializeTask.run_bind, hinspect, Option.bind_some]
  rcases hop : session.timeline.inspectOperation op with failure | info
  · have hunknown : failure = .unknownOperation op := by
      unfold Timeline.inspectOperation at hop
      split at hop
      · exact nomatch hop
      · exact (Except.error.inj hop).symm
    simp [hunknown]
  · simp only [MaterializeTask.run_bind, MaterializeTask.run_get, Option.bind_some]
    rcases hroot : tree.lookup root with failure | sessionDir
    · simp only [MaterializeTask.io]
      constructor
      · intro h
        exact absurd (Except.error.inj (Prod.mk.inj (Option.some.inj h)).1) (by simp)
      · rintro ⟨-, sessionDir, hnone, -⟩
        exact nomatch hnone
    · have hfound : (MaterializeTask.io (.ok sessionDir : Except LookupError _)).run tree =
          some (.ok sessionDir, tree) := rfl
      rw [hfound, Option.bind_some]
      dsimp only
      by_cases hstarts : pathStartsWith tree destination sessionDir = true
      · rw [if_pos hstarts]
        exact ⟨fun _ => ⟨⟨info, rfl⟩, sessionDir, rfl, hstarts⟩, fun _ => rfl⟩
      · -- past the check no step fails in this way
        rw [if_neg hstarts]
        constructor
        · intro h
          exact absurd h ((NeverInside.prepares destination).bind (fun _ =>
            NeverInside.checksOut loader checkOut op destination) tree tree)
        · rintro ⟨-, other, hother, hinside⟩
          rw [← Except.ok.inj hother] at hinside
          exact absurd hinside hstarts

end

/-- A destination inside the session is refused, and nothing is made. -/
def Contained (session : Session) (root : LinkPath String) (loader : RepoLoader) (checkOut : CheckOut)
    (op : String) (destination : LinkPath String) (tree : LinkTree String) : Prop :=
  LeadsInside tree root destination →
    (session.materialize root loader checkOut op destination).run tree =
      some (.error .destinationInsideSession, tree)

/-- The destination is spelled by names alone, none of them a link. -/
def SpelledDirectly (tree : LinkTree String) (destination : LinkPath String) : Prop :=
  ∃ names, destination.parts = names.map .name ∧
    ∀ front, front <+: names → ∀ target,
      tree.node (start tree.currentDir destination ++ front) ≠ some (.link target)

theorem SpelledDirectly.starts {tree : LinkTree String} {root destination : LinkPath String}
    (h : SpelledDirectly tree destination) (inside : LeadsInside tree root destination) :
    ∃ sessionDir, tree.lookup root = .ok sessionDir ∧ pathStartsWith tree destination sessionDir = true := by
  obtain ⟨names, hnames, hdirect⟩ := h
  obtain ⟨sessionDir, place, hroot, hlands, hinside⟩ := inside
  rw [hnames] at hlands
  -- no link is met, so the destination lands where its names say
  have hplace := hlands.direct hdirect
  have hparts : absoluteParts tree destination =
      (start tree.currentDir destination ++ names).map PathPart.name := by
    unfold absoluteParts
    rw [hnames, ← List.map_append, List.filter_eq_self]
    intro part hpart
    obtain ⟨name, -, rfl⟩ := List.mem_map.mp hpart
    rfl
  refine ⟨sessionDir, hroot, ?_⟩
  unfold pathStartsWith
  rw [hparts, ← hplace, List.isPrefixOf_iff_prefix]
  exact hinside.map PathPart.name

/-- A destination in the session is refused exactly when the operation is one of the session and the
destination is spelled below the canonical path of the session; without links and dots it is. -/
theorem materialize_contained_iff (session : Session) (root : LinkPath String) (loader : RepoLoader)
    (checkOut : CheckOut) (op : String) (destination : LinkPath String) (tree : LinkTree String) :
    (Contained session root loader checkOut op destination tree ↔
      (LeadsInside tree root destination →
        (∃ info, session.timeline.inspectOperation op = .ok info) ∧
          ∃ sessionDir, tree.lookup root = .ok sessionDir ∧
            pathStartsWith tree destination sessionDir = true)) ∧
      ((∃ info, session.timeline.inspectOperation op = .ok info) → SpelledDirectly tree destination →
        Contained session root loader checkOut op destination tree) := by
  have hiff := materialize_inside_iff session root loader checkOut op destination tree
  refine ⟨⟨fun h inside => hiff.mp (h inside), fun h inside => hiff.mpr (h inside)⟩, ?_⟩
  intro known direct inside
  exact hiff.mpr ⟨known, direct.starts inside⟩

theorem emptyTree_root : (LinkTree.empty 40 : LinkTree String).node [] = some .dir := rfl

/-- `/s`, and the link `/out` to it -/
def outTree : LinkTree String :=
  ((LinkTree.empty 40).makeEntry [] "s" .dir emptyTree_root (by decide)).makeEntry [] "out"
    (.link ⟨true, [.name "s"]⟩) (by decide) (by decide)

def copyPath : LinkPath String := ⟨true, [.name "out", .name "copy"]⟩

def insidePath : LinkPath String := ⟨true, [.name "s", .name "copy"]⟩

/-- A copy below the session is asked for by its own name, and it is refused. -/
theorem materialize_contained_iff_direct :
    LeadsInside outTree ⟨true, [.name "s"]⟩ insidePath ∧
      (mixedSession.materialize ⟨true, [.name "s"]⟩ mixedLoader (fun _ _ tree => (.ok (), tree)) "op:a1"
        insidePath).run outTree = some (.error .destinationInsideSession, outTree) := by
  have hroot : outTree.node [] = some .dir := by decide +kernel
  have hdir : outTree.node ([] ++ ["s"]) = some .dir := by decide +kernel
  have habsent : outTree.node (["s"] ++ ["copy"]) = none := by decide +kernel
  have hinside : LeadsInside outTree ⟨true, [.name "s"]⟩ insidePath :=
    ⟨["s"], ["s", "copy"], by decide +kernel, .dir hdir (.missing habsent (.arrived ["s", "copy"])), by simp⟩
  have hdirect : SpelledDirectly outTree insidePath := by
    refine ⟨["s", "copy"], rfl, fun front hfront target => ?_⟩
    simp only [List.prefix_cons_iff, List.prefix_nil] at hfront
    change outTree.node front ≠ _
    rcases hfront with rfl | ⟨_, rfl, rfl | ⟨_, rfl, rfl⟩⟩
    · rw [hroot]
      simp
    · rw [show outTree.node ["s"] = some .dir from hdir]
      simp
    · rw [show outTree.node ["s", "copy"] = none from habsent]
      simp
  have hknown : ∃ info, mixedSession.timeline.inspectOperation "op:a1" = .ok info := ⟨_, rfl⟩
  exact ⟨hinside, (materialize_contained_iff mixedSession _ mixedLoader _ "op:a1" insidePath outTree).2
    hknown hdirect hinside⟩

/-- A destination behind the link is made in the session. -/
theorem linked_destination_is_made_inside :
    (¬ ∀ session root loader checkOut op destination tree,
      Contained session root loader checkOut op destination tree) ∧
    ((mixedSession.materialize ⟨true, [.name "s"]⟩ mixedLoader (fun _ _ tree => (.ok (), tree)) "op:a1"
      copyPath).run outTree).map (fun result => (result.1, result.2.node ["s", "copy"])) =
        some (.ok (), some .dir) := by
  have hmade : ((mixedSession.materialize ⟨true, [.name "s"]⟩ mixedLoader (fun _ _ tree => (.ok (), tree))
      "op:a1" copyPath).run outTree).map (fun result => (result.1, result.2.node ["s", "copy"])) =
        some (.ok (), some .dir) := by
    decide +kernel
  refine ⟨fun h => ?_, hmade⟩
  have hinside : LeadsInside outTree ⟨true, [.name "s"]⟩ copyPath := by
    have hlink : outTree.node ([] ++ ["out"]) = some (.link ⟨true, [.name "s"]⟩) := by decide +kernel
    have hdir : outTree.node ([] ++ ["s"]) = some .dir := by decide +kernel
    have habsent : outTree.node (["s"] ++ ["copy"]) = none := by decide +kernel
    exact ⟨["s"], ["s", "copy"], by decide +kernel,
      .link hlink (.dir hdir (.missing habsent (.arrived ["s", "copy"]))), by simp⟩
  rw [h _ _ _ _ _ _ _ hinside] at hmade
  exact absurd hmade (by simp)

end Rrjj
