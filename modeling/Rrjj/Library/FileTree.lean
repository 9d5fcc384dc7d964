import Mathlib.Data.List.AList
import Rrjj.Library.Fallible

/-! Trees of files, what changes them, and what of them has not reached the disk yet. -/

namespace Library

abbrev Path := List String

inductive Entry where
  | file (data : List UInt8)
  | dir
  deriving DecidableEq, Repr

inductive FsError where
  | notFound
  | notDirectory
  | isDirectory
  | alreadyExists
  deriving DecidableEq, Repr

/-- Every entry lies in a directory, below a root that is one. -/
structure FileTree where
  entries : AList fun _ : Path => Entry
  root : entries.lookup [] = some .dir
  rooted : ∀ p name, entries.lookup (p ++ [name]) ≠ none → entries.lookup p = some .dir

namespace FileTree

def entry (t : FileTree) (p : Path) : Option Entry := t.entries.lookup p

def empty : FileTree where
  entries := (∅ : AList fun _ : Path => Entry).insert [] .dir
  root := AList.lookup_insert _
  rooted p name h := by
    rw [AList.lookup_insert_ne (by simp), AList.lookup_empty] at h
    exact absurd rfl h

def Admits (t : FileTree) (p : Path) (e : Entry) : Prop :=
  (p = [] → e = .dir) ∧ (p ≠ [] → t.entry p.dropLast = some .dir) ∧
    (t.entry p = some .dir → e = .dir)

instance (t : FileTree) (p : Path) (e : Entry) : Decidable (t.Admits p e) := by
  unfold Admits
  infer_instance

def put (t : FileTree) (p : Path) (e : Entry) : FileTree :=
  if h : t.Admits p e then
    { entries := t.entries.insert p e
      root := by
        by_cases hp : p = []
        · rw [hp, AList.lookup_insert, h.1 hp]
        · rw [AList.lookup_insert_ne (Ne.symm hp)]
          exact t.root
      rooted := by
        intro q name hq
        have hdir : t.entry q = some .dir := by
          by_cases hchild : q ++ [name] = p
          · have hparent := h.2.1 (by rw [← hchild]; simp)
            rw [← hchild, List.dropLast_concat] at hparent
            exact hparent
          · rw [AList.lookup_insert_ne hchild] at hq
            exact t.rooted q name hq
        by_cases hself : q = p
        · rw [hself, AList.lookup_insert, h.2.2 (hself ▸ hdir)]
        · rw [AList.lookup_insert_ne hself]
          exact hdir }
  else t

def drop (t : FileTree) (p : Path) : FileTree :=
  if h : t.entry p ≠ some .dir then
    { entries := t.entries.erase p
      root := by
        rw [AList.lookup_erase_ne]
        · exact t.root
        · rintro rfl
          exact h t.root
      rooted := by
        intro q name hq
        have hkept : q ++ [name] ≠ p := by
          rintro rfl
          exact hq (AList.lookup_erase _ _)
        rw [AList.lookup_erase_ne hkept] at hq
        have hdir := t.rooted q name hq
        rw [AList.lookup_erase_ne]
        · exact hdir
        · rintro rfl
          exact h hdir }
  else t

def children (t : FileTree) (p : Path) : List String :=
  t.entries.keys.filterMap fun q => if q ≠ [] ∧ q.dropLast = p then q.getLast? else none

def checkParent (t : FileTree) (p : Path) : Except FsError Unit :=
  match t.entry p.dropLast with
  | some .dir => .ok ()
  | some (.file _) => .error .notDirectory
  | none => .error .notFound

def createFile (t : FileTree) (p : Path) : Except FsError FileTree := do
  t.checkParent p
  match t.entry p with
  | some .dir => .error .isDirectory
  | _ => .ok (t.put p (.file []))

def writeFile (t : FileTree) (p : Path) (data : List UInt8) : Except FsError FileTree :=
  match t.entry p with
  | some (.file _) => .ok (t.put p (.file data))
  | some .dir => .error .isDirectory
  | none => .error .notFound

def removeFile (t : FileTree) (p : Path) : Except FsError FileTree := do
  t.checkParent p
  match t.entry p with
  | some (.file _) => .ok (t.drop p)
  | some .dir => .error .isDirectory
  | none => .error .notFound

def renameFile (t : FileTree) (p q : Path) : Except FsError FileTree := do
  t.checkParent q
  match t.entry p, t.entry q with
  | some (.file _), some .dir => .error .isDirectory
  | some (.file data), _ => .ok ((t.drop p).put q (.file data))
  | some .dir, _ => .error .isDirectory
  | none, _ => .error .notFound

def linkFile (t : FileTree) (data : List UInt8) (p : Path) : Except FsError FileTree := do
  t.checkParent p
  match t.entry p with
  | some _ => .error .alreadyExists
  | none => .ok (t.put p (.file data))

def makeDir (t : FileTree) (p : Path) : Except FsError FileTree := do
  t.checkParent p
  match t.entry p with
  | some _ => .error .alreadyExists
  | none => .ok (t.put p .dir)

def list (t : FileTree) (p : Path) : Except FsError (List String) :=
  match t.entry p with
  | some .dir => .ok (t.children p)
  | some (.file _) => .error .notDirectory
  | none => .error .notFound

variable {t t' : FileTree} {p q : Path} {e : Entry} {data : List UInt8}

theorem entry_empty : empty.entry p = if p = [] then some .dir else none := by
  unfold empty entry
  by_cases hp : p = []
  · rw [if_pos hp, hp, AList.lookup_insert]
  · rw [if_neg hp, AList.lookup_insert_ne hp, AList.lookup_empty]

theorem entry_put (h : t.Admits p e) : (t.put p e).entry = Function.update t.entry p (some e) := by
  funext q
  rw [put, dif_pos h]
  by_cases hq : q = p
  · rw [hq, Function.update_self]
    exact AList.lookup_insert _
  · rw [Function.update_of_ne hq]
    exact AList.lookup_insert_ne hq

theorem entry_drop (h : t.entry p ≠ some .dir) : (t.drop p).entry = Function.update t.entry p none := by
  funext q
  rw [drop, dif_pos h]
  by_cases hq : q = p
  · rw [hq, Function.update_self]
    exact AList.lookup_erase _ _
  · rw [Function.update_of_ne hq]
    exact AList.lookup_erase_ne hq

theorem entry_root (t : FileTree) : t.entry [] = some .dir := t.root

theorem entry_parent (h : t.entry p ≠ none) (hp : p ≠ []) : t.entry p.dropLast = some .dir := by
  have hsplit := List.dropLast_append_getLast hp
  refine t.rooted p.dropLast (p.getLast hp) ?_
  rw [hsplit]
  exact h

theorem childName_iff {name : String} :
    (if q ≠ [] ∧ q.dropLast = p then q.getLast? else none) = some name ↔ q = p ++ [name] := by
  constructor
  · intro h
    split_ifs at h with hq
    obtain ⟨hne, hparent⟩ := hq
    rw [List.getLast?_eq_some_getLast hne, Option.some_inj] at h
    have hsplit := List.dropLast_append_getLast hne
    rw [hparent, h] at hsplit
    exact hsplit.symm
  · rintro rfl
    rw [if_pos ⟨by simp, List.dropLast_concat⟩, List.getLast?_concat]

theorem mem_children {name : String} : name ∈ t.children p ↔ t.entry (p ++ [name]) ≠ none := by
  unfold children entry
  rw [List.mem_filterMap, ne_eq, AList.lookup_eq_none, not_not]
  constructor
  · rintro ⟨q, hq, hname⟩
    exact childName_iff.mp hname ▸ hq
  · intro h
    exact ⟨p ++ [name], h, childName_iff.mpr rfl⟩

theorem children_nodup (t : FileTree) (p : Path) : (t.children p).Nodup := by
  refine List.Nodup.filterMap ?_ t.entries.keys_nodup
  intro a b name ha hb
  rw [childName_iff.mp ha, childName_iff.mp hb]

theorem checkParent_ok_iff : t.checkParent p = .ok () ↔ t.entry p.dropLast = some .dir := by
  unfold checkParent
  split
  · next h => simp [h]
  · next h => simp [h]
  · next h => simp [h]

theorem ne_root (h : t.entry p ≠ some .dir) : p ≠ [] := by
  rintro rfl
  exact h t.entry_root

theorem admits_file (hparent : t.entry p.dropLast = some .dir) (h : t.entry p ≠ some .dir) :
    t.Admits p (.file data) :=
  ⟨fun hp => absurd hp (ne_root h), fun _ => hparent, fun hdir => absurd hdir h⟩

theorem createFile_ok (h : t.createFile p = .ok t') : t.entry p ≠ some .dir ∧
    t'.entry = Function.update t.entry p (some (.file [])) := by
  obtain ⟨⟨⟩, hparent, h⟩ := bind_ok_iff.mp h
  split at h
  · exact absurd h (by simp)
  · next hdir =>
    have hne : t.entry p ≠ some .dir := hdir
    refine ⟨hne, ?_⟩
    rw [← Except.ok.inj h]
    exact entry_put (admits_file (checkParent_ok_iff.mp hparent) hne)

theorem createFile_returns (hparent : t.entry p.dropLast = some .dir) (h : t.entry p ≠ some .dir) :
    ∃ t', t.createFile p = .ok t' := by
  refine ⟨t.put p (.file []), bind_ok_iff.mpr ⟨(), checkParent_ok_iff.mpr hparent, ?_⟩⟩
  split
  · next hdir => exact absurd hdir h
  · rfl

theorem writeFile_ok (h : t.writeFile p data = .ok t') : ∃ old, t.entry p = some (.file old) ∧
    t'.entry = Function.update t.entry p (some (.file data)) := by
  unfold writeFile at h
  split at h
  · next old hfile =>
    have hne : t.entry p ≠ some .dir := by simp [hfile]
    have hparent : t.entry p.dropLast = some .dir := entry_parent (by simp [hfile]) (ne_root hne)
    refine ⟨old, hfile, ?_⟩
    rw [← Except.ok.inj h]
    exact entry_put (admits_file hparent hne)
  · exact absurd h (by simp)
  · exact absurd h (by simp)

theorem writeFile_returns {old : List UInt8} (h : t.entry p = some (.file old)) :
    ∃ t', t.writeFile p data = .ok t' := by
  refine ⟨t.put p (.file data), ?_⟩
  simp only [writeFile, h]

theorem removeFile_ok (h : t.removeFile p = .ok t') : ∃ old, t.entry p = some (.file old) ∧
    t'.entry = Function.update t.entry p none := by
  obtain ⟨⟨⟩, -, h⟩ := bind_ok_iff.mp h
  split at h
  · next old hfile =>
    refine ⟨old, hfile, ?_⟩
    rw [← Except.ok.inj h]
    exact entry_drop (by simp [hfile])
  · exact absurd h (by simp)
  · exact absurd h (by simp)

theorem removeFile_returns {old : List UInt8} (h : t.entry p = some (.file old)) :
    ∃ t', t.removeFile p = .ok t' := by
  have hne : t.entry p ≠ some .dir := by simp [h]
  have hparent : t.entry p.dropLast = some .dir := entry_parent (by simp [h]) (ne_root hne)
  refine ⟨t.drop p, bind_ok_iff.mpr ⟨(), checkParent_ok_iff.mpr hparent, ?_⟩⟩
  simp only [h]

theorem removeFile_notFound (hparent : t.entry p.dropLast = some .dir) (h : t.entry p = none) :
    t.removeFile p = .error .notFound := by
  unfold removeFile
  rw [checkParent_ok_iff.mpr hparent, h]
  rfl

theorem renameFile_ok (h : t.renameFile p q = .ok t') : ∃ data, t.entry p = some (.file data) ∧
    t.entry q ≠ some .dir ∧
    t'.entry = Function.update (Function.update t.entry p none) q (some (.file data)) := by
  obtain ⟨⟨⟩, hparent, h⟩ := bind_ok_iff.mp h
  split at h
  · exact absurd h (by simp)
  · next data hfile hdir =>
    have hne : t.entry q ≠ some .dir := fun hq => hdir hq
    have hdrop : (t.drop p).entry = Function.update t.entry p none := entry_drop (by simp [hfile])
    have hadmits : (t.drop p).Admits q (.file data) := by
      refine admits_file ?_ ?_
      · rw [hdrop, Function.update_of_ne]
        · exact checkParent_ok_iff.mp hparent
        · intro hsame
          rw [checkParent_ok_iff, hsame, hfile] at hparent
          exact absurd hparent (by simp)
      · rw [hdrop]
        by_cases hsame : q = p
        · rw [hsame, Function.update_self]
          simp
        · rw [Function.update_of_ne hsame]
          exact hne
    refine ⟨data, hfile, hne, ?_⟩
    rw [← Except.ok.inj h, entry_put hadmits, hdrop]
  · exact absurd h (by simp)
  · exact absurd h (by simp)

theorem renameFile_returns (hfile : t.entry p = some (.file data))
    (hparent : t.entry q.dropLast = some .dir) (h : t.entry q ≠ some .dir) :
    ∃ t', t.renameFile p q = .ok t' := by
  refine ⟨(t.drop p).put q (.file data), bind_ok_iff.mpr ⟨(), checkParent_ok_iff.mpr hparent, ?_⟩⟩
  rw [hfile]
  rcases hq : t.entry q with _ | ⟨other⟩ | _
  · rfl
  · rfl
  · exact absurd hq h

theorem linkFile_ok (h : t.linkFile data p = .ok t') : t.entry p = none ∧
    t'.entry = Function.update t.entry p (some (.file data)) := by
  obtain ⟨⟨⟩, hparent, h⟩ := bind_ok_iff.mp h
  split at h
  · exact absurd h (by simp)
  · next hnone =>
    refine ⟨hnone, ?_⟩
    rw [← Except.ok.inj h]
    exact entry_put (admits_file (checkParent_ok_iff.mp hparent) (by simp [hnone]))

theorem makeDir_ok (h : t.makeDir p = .ok t') : t.entry p = none ∧
    t'.entry = Function.update t.entry p (some .dir) := by
  obtain ⟨⟨⟩, hparent, h⟩ := bind_ok_iff.mp h
  split at h
  · exact absurd h (by simp)
  · next hnone =>
    refine ⟨hnone, ?_⟩
    rw [← Except.ok.inj h]
    exact entry_put ⟨fun _ => rfl, fun _ => checkParent_ok_iff.mp hparent, fun _ => rfl⟩

theorem makeDir_returns (hparent : t.entry p.dropLast = some .dir) (h : t.entry p = none) :
    ∃ t', t.makeDir p = .ok t' := by
  refine ⟨t.put p .dir, bind_ok_iff.mpr ⟨(), checkParent_ok_iff.mpr hparent, ?_⟩⟩
  rw [h]

theorem list_ok_iff {names : List String} :
    t.list p = .ok names ↔ t.entry p = some .dir ∧ t.children p = names := by
  unfold list
  split
  · next h => simp [h]
  · next h => simp [h]
  · next h => simp [h]

end FileTree

/-- A file tree, with the files whose data is not synced and the entries of directories that
have changed since those were synced. -/
structure Volume where
  tree : FileTree
  unsynced : Finset Path
  changed : Finset (Path × String)

namespace Volume
variable (v : Volume)

def empty : Volume := ⟨FileTree.empty, ∅, ∅⟩

def slot (p : Path) : Path × String := (p.dropLast, p.getLast?.getD "")

def createFile (p : Path) : Except FsError Volume := do
  let tree ← v.tree.createFile p
  return ⟨tree, insert p v.unsynced,
    if v.tree.entry p = none then insert (slot p) v.changed else v.changed⟩

def writeFile (p : Path) (data : List UInt8) : Except FsError Volume := do
  let tree ← v.tree.writeFile p data
  return ⟨tree, insert p v.unsynced, v.changed⟩

def removeFile (p : Path) : Except FsError Volume := do
  let tree ← v.tree.removeFile p
  return ⟨tree, v.unsynced.erase p, insert (slot p) v.changed⟩

def renameFile (p q : Path) : Except FsError Volume := do
  let tree ← v.tree.renameFile p q
  return ⟨tree,
    if p ∈ v.unsynced then insert q (v.unsynced.erase p) else (v.unsynced.erase p).erase q,
    insert (slot p) (insert (slot q) v.changed)⟩

def linkFile (data : List UInt8) (p : Path) : Except FsError Volume := do
  let tree ← v.tree.linkFile data p
  return ⟨tree, insert p v.unsynced, insert (slot p) v.changed⟩

def makeDir (p : Path) : Except FsError Volume := do
  let tree ← v.tree.makeDir p
  return ⟨tree, v.unsynced, insert (slot p) v.changed⟩

def sync (p : Path) : Except FsError Volume :=
  match v.tree.entry p with
  | some (.file _) => .ok ⟨v.tree, v.unsynced.erase p, v.changed⟩
  | some .dir => .ok ⟨v.tree, v.unsynced, v.changed.filter fun change => change.1 ≠ p⟩
  | none => .error .notFound

variable {v} {v' : Volume} {p q : Path} {data : List UInt8}

theorem createFile_ok (h : v.createFile p = .ok v') : v.tree.entry p ≠ some .dir ∧
    v'.tree.entry = Function.update v.tree.entry p (some (.file [])) ∧
      v'.unsynced = insert p v.unsynced ∧
      v'.changed = if v.tree.entry p = none then insert (slot p) v.changed else v.changed := by
  obtain ⟨tree, htree, h⟩ := bind_ok_iff.mp h
  obtain ⟨hdir, hentry⟩ := FileTree.createFile_ok htree
  rw [← Except.ok.inj h]
  exact ⟨hdir, hentry, rfl, rfl⟩

theorem writeFile_ok (h : v.writeFile p data = .ok v') : (∃ old, v.tree.entry p = some (.file old)) ∧
    v'.tree.entry = Function.update v.tree.entry p (some (.file data)) ∧
      v'.unsynced = insert p v.unsynced ∧ v'.changed = v.changed := by
  obtain ⟨tree, htree, h⟩ := bind_ok_iff.mp h
  obtain ⟨old, hold, hentry⟩ := FileTree.writeFile_ok htree
  rw [← Except.ok.inj h]
  exact ⟨⟨old, hold⟩, hentry, rfl, rfl⟩

theorem removeFile_ok (h : v.removeFile p = .ok v') : (∃ old, v.tree.entry p = some (.file old)) ∧
    v'.tree.entry = Function.update v.tree.entry p none ∧
      v'.unsynced = v.unsynced.erase p ∧ v'.changed = insert (slot p) v.changed := by
  obtain ⟨tree, htree, h⟩ := bind_ok_iff.mp h
  obtain ⟨old, hold, hentry⟩ := FileTree.removeFile_ok htree
  rw [← Except.ok.inj h]
  exact ⟨⟨old, hold⟩, hentry, rfl, rfl⟩

theorem renameFile_ok (h : v.renameFile p q = .ok v') : ∃ data, v.tree.entry p = some (.file data) ∧
    v.tree.entry q ≠ some .dir ∧
      v'.tree.entry = Function.update (Function.update v.tree.entry p none) q (some (.file data)) ∧
      v'.unsynced = (if p ∈ v.unsynced then insert q (v.unsynced.erase p)
        else (v.unsynced.erase p).erase q) ∧
      v'.changed = insert (slot p) (insert (slot q) v.changed) := by
  obtain ⟨tree, htree, h⟩ := bind_ok_iff.mp h
  obtain ⟨data, hfile, hdir, hentry⟩ := FileTree.renameFile_ok htree
  rw [← Except.ok.inj h]
  exact ⟨data, hfile, hdir, hentry, rfl, rfl⟩

theorem linkFile_ok (h : v.linkFile data p = .ok v') : v.tree.entry p = none ∧
    v'.tree.entry = Function.update v.tree.entry p (some (.file data)) ∧
      v'.unsynced = insert p v.unsynced ∧ v'.changed = insert (slot p) v.changed := by
  obtain ⟨tree, htree, h⟩ := bind_ok_iff.mp h
  obtain ⟨hnone, hentry⟩ := FileTree.linkFile_ok htree
  rw [← Except.ok.inj h]
  exact ⟨hnone, hentry, rfl, rfl⟩

theorem makeDir_ok (h : v.makeDir p = .ok v') : v.tree.entry p = none ∧
    v'.tree.entry = Function.update v.tree.entry p (some .dir) ∧
      v'.unsynced = v.unsynced ∧ v'.changed = insert (slot p) v.changed := by
  obtain ⟨tree, htree, h⟩ := bind_ok_iff.mp h
  obtain ⟨hnone, hentry⟩ := FileTree.makeDir_ok htree
  rw [← Except.ok.inj h]
  exact ⟨hnone, hentry, rfl, rfl⟩

theorem createFile_returns (hparent : v.tree.entry p.dropLast = some .dir)
    (h : v.tree.entry p ≠ some .dir) : ∃ v', v.createFile p = .ok v' := by
  obtain ⟨tree, htree⟩ := FileTree.createFile_returns hparent h
  exact ⟨_, bind_ok_iff.mpr ⟨tree, htree, rfl⟩⟩

theorem writeFile_returns {old : List UInt8} (h : v.tree.entry p = some (.file old)) :
    ∃ v', v.writeFile p data = .ok v' := by
  have htree : ∃ tree, v.tree.writeFile p data = .ok tree := FileTree.writeFile_returns h
  obtain ⟨tree, htree⟩ := htree
  exact ⟨_, bind_ok_iff.mpr ⟨tree, htree, rfl⟩⟩

theorem removeFile_returns {old : List UInt8} (h : v.tree.entry p = some (.file old)) :
    ∃ v', v.removeFile p = .ok v' := by
  obtain ⟨tree, htree⟩ := FileTree.removeFile_returns h
  exact ⟨_, bind_ok_iff.mpr ⟨tree, htree, rfl⟩⟩

theorem removeFile_notFound (hparent : v.tree.entry p.dropLast = some .dir)
    (h : v.tree.entry p = none) : v.removeFile p = .error .notFound := by
  unfold removeFile
  rw [FileTree.removeFile_notFound hparent h]
  rfl

theorem renameFile_returns (hfile : v.tree.entry p = some (.file data))
    (hparent : v.tree.entry q.dropLast = some .dir) (h : v.tree.entry q ≠ some .dir) :
    ∃ v', v.renameFile p q = .ok v' := by
  obtain ⟨tree, htree⟩ := FileTree.renameFile_returns hfile hparent h
  exact ⟨_, bind_ok_iff.mpr ⟨tree, htree, rfl⟩⟩

theorem makeDir_returns (hparent : v.tree.entry p.dropLast = some .dir)
    (h : v.tree.entry p = none) : ∃ v', v.makeDir p = .ok v' := by
  obtain ⟨tree, htree⟩ := FileTree.makeDir_returns hparent h
  exact ⟨_, bind_ok_iff.mpr ⟨tree, htree, rfl⟩⟩

theorem sync_returns (h : v.tree.entry p ≠ none) : ∃ v', v.sync p = .ok v' := by
  unfold sync
  split
  · exact ⟨_, rfl⟩
  · exact ⟨_, rfl⟩
  · next hnone => exact absurd hnone h

theorem sync_ok (h : v.sync p = .ok v') : v'.tree = v.tree ∧
    ((∃ data, v.tree.entry p = some (.file data)) ∧
        v'.unsynced = v.unsynced.erase p ∧ v'.changed = v.changed ∨
      v.tree.entry p = some .dir ∧ v'.unsynced = v.unsynced ∧
        v'.changed = v.changed.filter fun change => change.1 ≠ p) := by
  unfold sync at h
  split at h
  · next data hfile =>
    rw [← Except.ok.inj h]
    exact ⟨rfl, Or.inl ⟨⟨data, hfile⟩, rfl, rfl⟩⟩
  · next hdir =>
    rw [← Except.ok.inj h]
    exact ⟨rfl, Or.inr ⟨hdir, rfl, rfl⟩⟩
  · exact absurd h (by simp)

end Volume
end Library
