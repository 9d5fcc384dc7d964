import Rrjj.Core.Projection
import Rrjj.Core.Roots

/-! The sizes in a checkpoint: `project_diff` asks the live file system for them, by path and
through links, while the ids of the contents come from the trees that jj has taken before. -/

namespace Rrjj
open Library LinkTree RecorderState

def pathPart (text : List Char) : PathPart String :=
  if text = [] ∨ text = ['.'] then .current
  else if text = ['.', '.'] then .parent
  else .name (String.ofList text)

def pathParts (path : String) : List (PathPart String) := (path.toList.splitOn '/').map pathPart

def isAbsolutePath (path : String) : Bool := path.toList.head? = some '/'

def readPath (path : String) : RootPath := ⟨isAbsolutePath path, pathParts path⟩

/-- `Path::join`: an absolute path replaces the directory. -/
def joinPath (root : RootPath) (path : String) : RootPath :=
  if isAbsolutePath path then readPath path else ⟨root.isAbsolute, root.parts ++ pathParts path⟩

/-- The file system as one call finds it. `written` is what a link says, and the metadata of some
paths may not be read. -/
structure LiveFiles where
  tree : RootTree
  contents : List String → Bytes
  written : List String → String
  dirLen : List String → ℕ
  denied : RootPath → Bool
  spelled : ∀ place path, tree.node place = some (.link path) → path = readPath (written place)

namespace LiveFiles

def metadataLen (live : LiveFiles) (path : RootPath) : Option ℕ :=
  if live.denied path then none
  else
    match live.tree.lookup path with
    | .error _ => none
    | .ok place =>
      match live.tree.node place with
      | some .file => some (live.contents place).length
      | some .dir => some (live.dirLen place)
      | _ => none

structure LeadsToLength (live : LiveFiles) (path : RootPath) (length : ℕ) : Prop where
  file : ∀ place, live.denied path = false → live.tree.lookup path = .ok place →
    live.tree.node place = some .file → (live.contents place).length = length
  dir : ∀ place, live.denied path = false → live.tree.lookup path = .ok place →
    live.tree.node place = some .dir → live.dirLen place = length

theorem leadsToLength_iff {live : LiveFiles} {path : RootPath} {length : ℕ} :
    live.LeadsToLength path length ↔ ∀ bytes, live.metadataLen path = some bytes → bytes = length := by
  unfold metadataLen
  constructor
  · intro h bytes hbytes
    split_ifs at hbytes with hdenied
    rw [Bool.not_eq_true] at hdenied
    split at hbytes
    · exact nomatch hbytes
    · next place hplace =>
      split at hbytes
      · next hfile => exact Option.some.inj hbytes ▸ h.file place hdenied hplace hfile
      · next hdir => exact Option.some.inj hbytes ▸ h.dir place hdenied hplace hdir
      · exact nomatch hbytes
  · intro h
    constructor
    · intro place hdenied hplace hfile
      simp only [hdenied, hplace, hfile] at h
      exact h _ rfl
    · intro place hdenied hplace hdir
      simp only [hdenied, hplace, hdir] at h
      exact h _ rfl

def Names (live : LiveFiles) (root : RootPath) (path : String) (place : List String) : Prop :=
  ∃ dir names, live.tree.lookup root = .ok dir ∧ live.tree.node dir = some .dir ∧
    pathParts path = names.map .name ∧ place = dir ++ names

/-- What is at that place has the contents that are stored of it. -/
def Keeps (live : LiveFiles) (root : RootPath) (path : String) (store : String → Bytes) :
    TreeValue → Prop
  | .file id _ => ∃ place, live.Names root path place ∧ live.tree.node place = some .file ∧
      live.contents place = store id
  | .symlink id => ∃ place target, live.Names root path place ∧
      live.tree.node place = some (.link target) ∧ (live.written place).toUTF8.data.toList = store id
  | _ => True

theorem relative_of_names {path : String} {names : List String}
    (h : pathParts path = names.map .name) : isAbsolutePath path = false := by
  by_contra habsolute
  rw [Bool.not_eq_false, isAbsolutePath, decide_eq_true_iff] at habsolute
  obtain ⟨rest, hrest⟩ := List.head?_eq_some_iff.1 habsolute
  -- before a slash at the start stands nothing
  have hparts : pathParts path = .current :: (rest.splitOn '/').map pathPart := by
    unfold pathParts
    rw [hrest, List.splitOn_cons_eq_if_modifyHead, if_pos (by decide), List.map_cons]
    rfl
  rw [hparts] at h
  cases names with
  | nil => exact nomatch h
  | cons name names => exact nomatch (List.cons.inj h).1

theorem Keeps.leadsToLength {live : LiveFiles} {root : RootPath} {path : String} {store : String → Bytes}
    {id : String} {executable : Bool} (h : live.Keeps root path store (.file id executable)) :
    live.LeadsToLength (joinPath root path) (store id).length := by
  obtain ⟨_, ⟨dir, names, hroot, hdir, hparts, rfl⟩, hfile, hcontents⟩ := h
  have hlookup : live.tree.lookup (joinPath root path) = .ok (dir ++ names) := by
    unfold joinPath
    rw [relative_of_names hparts, hparts]
    exact lookup_below hdir hfile hroot
  constructor
  · intro place _ hplace _
    rw [← Except.ok.inj (hlookup.symm.trans hplace), hcontents]
  · intro place _ hplace hnode
    rw [← Except.ok.inj (hlookup.symm.trans hplace), hfile] at hnode
    exact nomatch hnode

end LiveFiles

/-- jj, on a watched root whose files change as they like: `files k` is what the `k`-th entry of the
diff stream finds, which nothing relates to what jj or any other entry has found. -/
def Jj.watching (jj : Jj) (root : RootPath) (files : ℕ → LiveFiles) : Jj :=
  { jj with
    diffStream := fun before after => (jj.diffStream before after).mapIdx fun k entry =>
      { entry with size := (files k).metadataLen (joinPath root entry.path) } }

def Jj.Lists (jj : Jj) (before after : MergedTree) (k : ℕ) (value : DiffEntry) : Prop :=
  ∃ entry, (jj.diffStream before after)[k]? = some entry ∧ entry.resolve = .ok value

def Jj.EachListed (jj : Jj) (before after : MergedTree) (maxChanges : ℕ)
    (holds : ℕ → DiffEntry → Prop) : Prop :=
  ∀ k value, k < maxChanges → jj.Lists before after k value → holds k value

def storedId : Option TreeValue → Option String
  | some (.file id _) => some id
  | some (.symlink id) => some id
  | _ => none

theorem blobId_storedId (value : Option TreeValue) :
    blobId value = (storedId value).map ("b:" ++ ·) := by
  rcases value with _ | _ | _ | _ | _ <;> rfl

/-- A size that is given is that of the contents whose id is given. -/
def SizesMatch (store : String → Bytes) (snapshot : Snapshot) : Prop :=
  ∀ change ∈ snapshot.changes, ∀ id bytes, change.blob = some ("b:" ++ id) →
    change.bytes = some bytes → bytes = (store id).length

section
variable {jj : Jj} {root : RootPath} {files : ℕ → LiveFiles} {before after : MergedTree}
variable {entries : List DiffEntry} {maxChanges k : ℕ} {store : String → Bytes} {value : DiffEntry}

theorem resolve_path {entry : StreamEntry} (h : entry.resolve = .ok value) : value.path = entry.path := by
  obtain ⟨values, -, h⟩ := bind_ok_iff.1 h
  obtain ⟨beforeValue, -, h⟩ := bind_ok_iff.1 h
  obtain ⟨afterValue, -, h⟩ := bind_ok_iff.1 h
  rw [← Except.ok.inj h]

theorem resolve_sized {entry : StreamEntry} {size : Option ℕ} :
    ({ entry with size := size } : StreamEntry).resolve = .ok value ↔
      ∃ own, entry.resolve = .ok own ∧ value = { own with size := size } := by
  unfold StreamEntry.resolve
  simp only [bind_ok_iff]
  constructor
  · rintro ⟨values, hvalues, beforeValue, hbefore, afterValue, hafter, h⟩
    exact ⟨_, ⟨values, hvalues, beforeValue, hbefore, afterValue, hafter, rfl⟩, (Except.ok.inj h).symm⟩
  · rintro ⟨own, ⟨values, hvalues, beforeValue, hbefore, afterValue, hafter, h⟩, rfl⟩
    refine ⟨values, hvalues, beforeValue, hbefore, afterValue, hafter, ?_⟩
    rw [← Except.ok.inj h]
    rfl

/-- What stands in the diff of a watched root: the values of jj and the size that the call finds. -/
theorem watching_lists
    (resolves : ((jj.watching root files).diffStream before after).mapM StreamEntry.resolve = .ok entries) :
    entries[k]? = some value ↔ ∃ own, jj.Lists before after k own ∧
      value = { own with size := (files k).metadataLen (joinPath root own.path) } := by
  obtain ⟨hlength, hall⟩ := List.forall₂_iff_get.1 (mapM_ok_iff.1 resolves)
  have hsame : ((jj.watching root files).diffStream before after).length =
      (jj.diffStream before after).length := List.length_mapIdx
  have hresolved : ∀ (hk : k < (jj.diffStream before after).length) (hk' : k < entries.length),
      ∃ own, (jj.diffStream before after)[k].resolve = .ok own ∧
        entries[k] = { own with size := (files k).metadataLen (joinPath root own.path) } := by
    intro hk hk'
    have hentry := hall k (hsame ▸ hk) hk'
    simp only [Jj.watching, List.get_eq_getElem, List.getElem_mapIdx] at hentry
    obtain ⟨own, hown, hvalue⟩ := resolve_sized.1 hentry
    rw [← resolve_path hown] at hvalue
    exact ⟨own, hown, hvalue⟩
  constructor
  · intro h
    obtain ⟨hk', rfl⟩ := List.getElem?_eq_some_iff.1 h
    have hk : k < (jj.diffStream before after).length := by omega
    obtain ⟨own, hown, hvalue⟩ := hresolved hk hk'
    exact ⟨own, ⟨_, List.getElem?_eq_getElem hk, hown⟩, hvalue⟩
  · rintro ⟨own, ⟨entry, hentry, hown⟩, rfl⟩
    obtain ⟨hk, rfl⟩ := List.getElem?_eq_some_iff.1 hentry
    have hk' : k < entries.length := by omega
    obtain ⟨same, hsame, hvalue⟩ := hresolved hk hk'
    rw [List.getElem?_eq_getElem hk', hvalue, Except.ok.inj (hown.symm.trans hsame)]

theorem sizesMatch_iff {snapshot : Snapshot}
    (h : snapshot.changes = (entries.take maxChanges).map DiffEntry.change) :
    SizesMatch store snapshot ↔ ∀ k value id, k < maxChanges → entries[k]? = some value →
      storedId value.after = some id → ∀ bytes, value.size = some bytes → bytes = (store id).length := by
  unfold SizesMatch
  rw [h]
  constructor
  · intro hmatch k value id hk hvalue hid bytes hbytes
    have hmem : value.change ∈ (entries.take maxChanges).map DiffEntry.change :=
      List.mem_map_of_mem (List.mem_of_getElem? ((List.getElem?_take_of_lt hk).trans hvalue))
    refine hmatch value.change hmem id bytes ?_ ?_
    · show blobId value.after = _
      rw [blobId_storedId, hid, Option.map_some]
    · show (value.after.bind fun _ => value.size) = _
      cases hafter : value.after with
      | none => rw [hafter] at hid; exact nomatch hid
      | some _ => exact hbytes
  · intro hall change hchange id bytes hblob hbytes
    obtain ⟨value, hvalue, rfl⟩ := List.mem_map.1 hchange
    obtain ⟨k, hk⟩ := List.mem_iff_getElem?.1 hvalue
    rw [List.getElem?_take] at hk
    split_ifs at hk with hlt
    change blobId value.after = _ at hblob
    change (value.after.bind fun _ => value.size) = _ at hbytes
    rw [blobId_storedId] at hblob
    obtain ⟨stored, hstored, hsame⟩ := Option.map_eq_some_iff.1 hblob
    rw [String.append_right_inj] at hsame
    obtain ⟨_, -, hsize⟩ := Option.bind_eq_some_iff.1 hbytes
    exact hall k value id hlt hk (hsame ▸ hstored) bytes hsize

theorem capture_changes {state : RecorderState} {fullScan : Bool} {snapshot : Snapshot}
    (returned : ((capture jj fullScan maxChanges).run state).1 = .ok snapshot) :
    ∃ tree entries, jj.snapshot = .ok tree ∧
      (jj.diffStream state.previousTree tree).mapM StreamEntry.resolve = .ok entries ∧
      snapshot.changes = (entries.take maxChanges).map DiffEntry.change := by
  obtain ⟨tree, projection, commit, repo, treeId, committed, rfl, -⟩ := capture_returned returned
  obtain ⟨entries, hentries, hprojection⟩ := bind_ok_iff.1 committed.projected
  refine ⟨tree, entries, committed.snapshot, hentries, ?_⟩
  rw [← (projectDiff_projects entries maxChanges).first]
  exact (congrArg Prod.fst (Except.ok.inj hprojection)).symm

theorem capture_sizes {state : RecorderState} {fullScan : Bool} {snapshot : Snapshot} {tree : MergedTree}
    (returned : ((capture (jj.watching root files) fullScan maxChanges).run state).1 = .ok snapshot)
    (taken : jj.snapshot = .ok tree) :
    SizesMatch store snapshot ↔
      jj.EachListed state.previousTree tree maxChanges fun k value => ∀ id,
        storedId value.after = some id →
          (files k).LeadsToLength (joinPath root value.path) (store id).length := by
  obtain ⟨tree', entries, htree, hentries, hchanges⟩ := capture_changes returned
  obtain rfl : tree = tree' := Except.ok.inj (taken.symm.trans htree)
  rw [sizesMatch_iff hchanges]
  constructor
  · intro h k own hk hown id hid
    rw [LiveFiles.leadsToLength_iff]
    exact h k _ id hk ((watching_lists hentries).2 ⟨own, hown, rfl⟩) hid
  · intro h k value id hk hvalue hid
    obtain ⟨own, hown, rfl⟩ := (watching_lists hentries).1 hvalue
    exact LiveFiles.leadsToLength_iff.1 (h k own hk hown id hid)

end

/-- A snapshot gives the sizes of its contents exactly when, at the call for each size, the path leads
nowhere or to something as long as they are. Where nobody interferes, that is so of every file, and left
to what the links lead to. -/
theorem capture_sizes_iff (jj : Jj) (root : RootPath) (files : ℕ → LiveFiles) (store : String → Bytes)
    (fullScan : Bool) (maxChanges : ℕ) (state : RecorderState) (snapshot : Snapshot) (tree : MergedTree)
    (returned : ((capture (jj.watching root files) fullScan maxChanges).run state).1 = .ok snapshot)
    (taken : jj.snapshot = .ok tree) :
    (SizesMatch store snapshot ↔
      jj.EachListed state.previousTree tree maxChanges fun k value => ∀ id,
        storedId value.after = some id →
          (files k).LeadsToLength (joinPath root value.path) (store id).length) ∧
      ((jj.EachListed state.previousTree tree maxChanges fun k value => ∀ after,
          value.after = some after → (files k).Keeps root value.path store after) →
        (SizesMatch store snapshot ↔
          jj.EachListed state.previousTree tree maxChanges fun k value => ∀ id,
            value.after = some (.symlink id) →
              (files k).LeadsToLength (joinPath root value.path) (store id).length)) := by
  have hsizes : SizesMatch store snapshot ↔ _ := capture_sizes returned taken
  refine ⟨hsizes, fun kept => ?_⟩
  rw [hsizes]
  constructor
  · intro h k value hk hvalue id hid
    refine h k value hk hvalue id ?_
    rw [hid]
    rfl
  · intro h k value hk hvalue id hid
    cases hafter : value.after with
    | none => rw [hafter] at hid; exact nomatch hid
    | some after =>
      rw [hafter] at hid
      have hkept := kept k value hk hvalue after hafter
      cases after with
      | file stored executable =>
        obtain rfl : stored = id := Option.some.inj hid
        exact hkept.leadsToLength
      | symlink stored =>
        obtain rfl : stored = id := Option.some.inj hid
        exact h k value hk hvalue stored hafter
      | tree stored => exact nomatch hid
      | gitSubmodule stored => exact nomatch hid

/-- `/w`, with the file `data` and the link `l` to it -/
def linkFiles (data : Bytes) : LiveFiles where
  tree := (watchedTree.makeEntry ["w"] "data" .file (by decide) (by decide)).makeEntry ["w"] "l"
    (.link (readPath "data")) (by decide) (by decide)
  contents _ := data
  written _ := "data"
  dirLen _ := 4096
  denied _ := false
  spelled place path h := by
    simp only [watchedTree, LinkTree.makeEntry, Function.update_apply, LinkTree.empty] at h
    split_ifs at h
    · exact (LinkNode.link.inj (Option.some.inj h)).symm
    all_goals exact nomatch h

def linkStore (data : Bytes) (id : String) : Bytes := if id = "0a" then data else [100, 97, 116, 97]

def linkJj : Jj :=
  { lockedJj with
    startMutation := .ok ()
    diffStream := fun _ _ =>
      [⟨"data", .ok (.resolved none, .resolved (some (.file "0a" false))), none⟩,
        ⟨"l", .ok (.resolved none, .resolved (some (.symlink "0b"))), none⟩] }

def linkSnapshot (size : ℕ) : Snapshot where
  op := "op:a1"
  parentOp := "op:a0"
  commit := "c:c1"
  tree := "t:t1"
  changes := [⟨"data", .added, some "b:0a", none, none, some size⟩,
    ⟨"l", .added, some "b:0b", none, none, some size⟩]
  stats := { added := 2 }
  truncated := false

theorem linkJj_captures (data : Bytes) :
    ((capture (linkJj.watching watchedPath fun _ => linkFiles data) false 10).run exampleState).1 =
      .ok (linkSnapshot data.length) := by
  rfl

theorem linkFiles_keep (data : Bytes) :
    linkJj.EachListed exampleState.previousTree ⟨["t1"]⟩ 10 fun _ value => ∀ after,
      value.after = some after →
        (linkFiles data).Keeps watchedPath value.path (linkStore data) after := by
  rintro k value - ⟨entry, hentry, hvalue⟩ after hafter
  rcases k with _ | _ | k
  · obtain rfl := Option.some.inj hentry
    rw [← Except.ok.inj hvalue] at hafter ⊢
    obtain rfl := Option.some.inj hafter
    exact ⟨["w", "data"], ⟨["w"], ["data"], rfl, rfl, rfl, rfl⟩, rfl, rfl⟩
  · obtain rfl := Option.some.inj hentry
    rw [← Except.ok.inj hvalue] at hafter ⊢
    obtain rfl := Option.some.inj hafter
    have htext : ("data".toUTF8.data.toList : Bytes) = [100, 97, 116, 97] := by decide +kernel
    exact ⟨["w", "l"], readPath "data", ⟨["w"], ["l"], rfl, rfl, rfl, rfl⟩, rfl,
      htext.trans (if_neg (by decide)).symm⟩
  · exact nomatch hentry

def fourBytes : Bytes := [102, 111, 117, 114]

theorem fourBytes_led : (linkFiles fourBytes).LeadsToLength (joinPath watchedPath "l") 4 := by
  rw [LiveFiles.leadsToLength_iff]
  intro bytes hbytes
  have hfour : (linkFiles fourBytes).metadataLen (joinPath watchedPath "l") = some 4 := by decide +kernel
  exact Option.some.inj (hbytes.symm.trans hfour)

theorem capture_sizes_iff_link : SizesMatch (linkStore fourBytes) (linkSnapshot 4) := by
  refine ((capture_sizes_iff linkJj watchedPath (fun _ => linkFiles fourBytes) (linkStore fourBytes) false
    10 exampleState _ ⟨["t1"]⟩ (linkJj_captures fourBytes) rfl).2 (linkFiles_keep fourBytes)).mpr ?_
  rintro k value - ⟨entry, hentry, hvalue⟩ id hid
  rcases k with _ | _ | k
  · obtain rfl := Option.some.inj hentry
    rw [← Except.ok.inj hvalue] at hid
    exact nomatch hid
  · obtain rfl := Option.some.inj hentry
    rw [← Except.ok.inj hvalue] at hid ⊢
    obtain rfl := TreeValue.symlink.inj (Option.some.inj hid)
    exact fourBytes_led
  · exact nomatch hentry

/-- The link has four bytes, and the snapshot gives it the five of the file. -/
theorem link_size_is_of_target :
    ((capture (linkJj.watching watchedPath fun _ => linkFiles [104, 101, 108, 108, 111]) false 10).run
        exampleState).1 = .ok (linkSnapshot 5) ∧
      ¬ SizesMatch (linkStore [104, 101, 108, 108, 111]) (linkSnapshot 5) := by
  refine ⟨linkJj_captures _, fun h => ?_⟩
  have hlink : 5 = (linkStore [104, 101, 108, 108, 111] "0b").length :=
    h ⟨"l", .added, some "b:0b", none, none, some 5⟩ (by decide) "0b" 5 rfl rfl
  exact absurd hlink (by decide)

end Rrjj
