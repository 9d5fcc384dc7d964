import Rrjj.Library.FileTree

/-! What an operation on a volume touches: the entries it changes, the directories that change with
them, and the files whose data it leaves unsynced. -/

namespace Library.Volume

/-- Unsynced data is the data of a file, and what has changed lies in a directory. -/
structure Sound (v : Volume) : Prop where
  unsynced : ∀ p ∈ v.unsynced, ∃ data, v.tree.entry p = some (.file data)
  changed : ∀ change ∈ v.changed, v.tree.entry change.1 = some .dir

structure Within (T : Set Path) (v v' : Volume) : Prop where
  entry : ∀ p, p ∉ T → v'.tree.entry p = v.tree.entry p
  unsynced : ∀ p ∈ v'.unsynced, p ∈ v.unsynced ∨ p ∈ T
  changed : ∀ change ∈ v'.changed, change ∈ v.changed ∨ ∃ p ∈ T, change = slot p

variable {T T' : Set Path} {v v' w : Volume} {p q : Path} {data : List UInt8}

theorem Within.refl (T : Set Path) (v : Volume) : Within T v v :=
  ⟨fun _ _ => rfl, fun _ h => Or.inl h, fun _ h => Or.inl h⟩

theorem Within.trans (h : Within T v w) (h' : Within T w v') : Within T v v' := by
  constructor
  · intro p hp
    rw [h'.entry p hp, h.entry p hp]
  · intro p hp
    rcases h'.unsynced p hp with hold | hnew
    · exact h.unsynced p hold
    · exact Or.inr hnew
  · intro change hchange
    rcases h'.changed change hchange with hold | hnew
    · exact h.changed change hold
    · exact Or.inr hnew

theorem Within.mono (h : Within T v v') (sub : T ⊆ T') : Within T' v v' := by
  constructor
  · intro p hp
    exact h.entry p fun hT => hp (sub hT)
  · intro p hp
    exact (h.unsynced p hp).imp id fun hT => sub hT
  · intro change hchange
    rcases h.changed change hchange with hold | ⟨p, hp, hslot⟩
    · exact Or.inl hold
    · exact Or.inr ⟨p, sub hp, hslot⟩

theorem dir_update {e : Option Entry} (hp : v.tree.entry p ≠ some .dir)
    (h : v'.tree.entry = Function.update v.tree.entry p e) (hq : v.tree.entry q = some .dir) :
    v'.tree.entry q = some .dir := by
  have hne : q ≠ p := by
    rintro rfl
    exact hp hq
  rw [h, Function.update_of_ne hne]
  exact hq

theorem slot_dir (h : v.tree.entry p ≠ none) (hp : v.tree.entry p ≠ some .dir) :
    v.tree.entry (slot p).1 = some .dir :=
  FileTree.entry_parent h (FileTree.ne_root hp)

theorem sync_within (h : v.sync p = .ok v') : Within ∅ v v' := by
  obtain ⟨htree, hcase⟩ := sync_ok h
  refine ⟨fun q _ => by rw [htree], ?_, ?_⟩
  · intro q hq
    rcases hcase with ⟨-, hunsynced, -⟩ | ⟨-, hunsynced, -⟩ <;> rw [hunsynced] at hq
    · exact Or.inl (Finset.mem_of_mem_erase hq)
    · exact Or.inl hq
  · intro change hchange
    rcases hcase with ⟨-, -, hchanged⟩ | ⟨-, -, hchanged⟩ <;> rw [hchanged] at hchange
    · exact Or.inl hchange
    · exact Or.inl (Finset.mem_filter.mp hchange).1

theorem Sound.createFile (sound : v.Sound) (h : v.createFile p = .ok v') : v'.Sound := by
  obtain ⟨hdir, hentry, hunsynced, hchanged⟩ := createFile_ok h
  have hself : v'.tree.entry p = some (.file []) := by rw [hentry, Function.update_self]
  constructor
  · intro q hq
    by_cases hqp : q = p
    · exact ⟨[], hqp ▸ hself⟩
    · rw [hunsynced, Finset.mem_insert] at hq
      rw [hentry, Function.update_of_ne hqp]
      exact sound.unsynced q (hq.resolve_left hqp)
  · intro change hchange
    rw [hchanged] at hchange
    split_ifs at hchange
    · rcases Finset.mem_insert.mp hchange with rfl | hold
      · exact slot_dir (by rw [hself]; simp) (by rw [hself]; simp)
      · exact dir_update hdir hentry (sound.changed change hold)
    · exact dir_update hdir hentry (sound.changed change hchange)

theorem Sound.writeFile (sound : v.Sound) (h : v.writeFile p data = .ok v') : v'.Sound := by
  obtain ⟨⟨old, hold⟩, hentry, hunsynced, hchanged⟩ := writeFile_ok h
  have hdir : v.tree.entry p ≠ some .dir := by rw [hold]; simp
  constructor
  · intro q hq
    by_cases hqp : q = p
    · rw [hqp, hentry, Function.update_self]
      exact ⟨data, rfl⟩
    · rw [hunsynced, Finset.mem_insert] at hq
      rw [hentry, Function.update_of_ne hqp]
      exact sound.unsynced q (hq.resolve_left hqp)
  · intro change hchange
    rw [hchanged] at hchange
    exact dir_update hdir hentry (sound.changed change hchange)

theorem Sound.removeFile (sound : v.Sound) (h : v.removeFile p = .ok v') : v'.Sound := by
  obtain ⟨⟨old, hold⟩, hentry, hunsynced, hchanged⟩ := removeFile_ok h
  have hdir : v.tree.entry p ≠ some .dir := by rw [hold]; simp
  constructor
  · intro q hq
    rw [hunsynced] at hq
    obtain ⟨hqp, hq⟩ := Finset.mem_erase.mp hq
    rw [hentry, Function.update_of_ne hqp]
    exact sound.unsynced q hq
  · intro change hchange
    rw [hchanged] at hchange
    refine dir_update hdir hentry ?_
    rcases Finset.mem_insert.mp hchange with rfl | hold'
    · exact slot_dir (by rw [hold]; simp) hdir
    · exact sound.changed change hold'

theorem Sound.renameFile (sound : v.Sound) (h : v.renameFile p q = .ok v') : v'.Sound := by
  obtain ⟨data, hfile, hqdir, hentry, hunsynced, hchanged⟩ := renameFile_ok h
  have hpdir : v.tree.entry p ≠ some .dir := by rw [hfile]; simp
  have hself : v'.tree.entry q = some (.file data) := by rw [hentry, Function.update_self]
  have hdirs : ∀ r, v.tree.entry r = some .dir → v'.tree.entry r = some .dir := by
    intro r hr
    have hrp : r ≠ p := by
      rintro rfl
      exact hpdir hr
    have hrq : r ≠ q := by
      rintro rfl
      exact hqdir hr
    rw [hentry, Function.update_of_ne hrq, Function.update_of_ne hrp]
    exact hr
  constructor
  · intro r hr
    by_cases hrq : r = q
    · exact ⟨data, hrq ▸ hself⟩
    · have hold : r ≠ p ∧ r ∈ v.unsynced := by
        rw [hunsynced] at hr
        split_ifs at hr
        · exact Finset.mem_erase.mp ((Finset.mem_insert.mp hr).resolve_left hrq)
        · exact Finset.mem_erase.mp (Finset.mem_of_mem_erase hr)
      rw [hentry, Function.update_of_ne hrq, Function.update_of_ne hold.1]
      exact sound.unsynced r hold.2
  · intro change hchange
    rw [hchanged, Finset.mem_insert, Finset.mem_insert] at hchange
    rcases hchange with rfl | rfl | hold
    · exact hdirs _ (slot_dir (by rw [hfile]; simp) hpdir)
    · exact slot_dir (by rw [hself]; simp) (by rw [hself]; simp)
    · exact hdirs _ (sound.changed change hold)

theorem Sound.linkFile (sound : v.Sound) (h : v.linkFile data p = .ok v') : v'.Sound := by
  obtain ⟨hnone, hentry, hunsynced, hchanged⟩ := linkFile_ok h
  have hdir : v.tree.entry p ≠ some .dir := by rw [hnone]; simp
  have hself : v'.tree.entry p = some (.file data) := by rw [hentry, Function.update_self]
  constructor
  · intro q hq
    by_cases hqp : q = p
    · exact ⟨data, hqp ▸ hself⟩
    · rw [hunsynced, Finset.mem_insert] at hq
      rw [hentry, Function.update_of_ne hqp]
      exact sound.unsynced q (hq.resolve_left hqp)
  · intro change hchange
    rw [hchanged] at hchange
    rcases Finset.mem_insert.mp hchange with rfl | hold
    · exact slot_dir (by rw [hself]; simp) (by rw [hself]; simp)
    · exact dir_update hdir hentry (sound.changed change hold)

theorem Sound.makeDir (sound : v.Sound) (h : v.makeDir p = .ok v') : v'.Sound := by
  obtain ⟨hnone, hentry, hunsynced, hchanged⟩ := makeDir_ok h
  have hdir : v.tree.entry p ≠ some .dir := by rw [hnone]; simp
  have hself : v'.tree.entry p = some .dir := by rw [hentry, Function.update_self]
  constructor
  · intro q hq
    rw [hunsynced] at hq
    obtain ⟨data, hdata⟩ := sound.unsynced q hq
    have hqp : q ≠ p := by
      rintro rfl
      rw [hnone] at hdata
      exact absurd hdata (by simp)
    rw [hentry, Function.update_of_ne hqp]
    exact ⟨data, hdata⟩
  · intro change hchange
    rw [hchanged] at hchange
    rcases Finset.mem_insert.mp hchange with rfl | hold
    · exact FileTree.entry_parent (by rw [hself]; simp) (FileTree.ne_root hdir)
    · exact dir_update hdir hentry (sound.changed change hold)

theorem Sound.sync (sound : v.Sound) (h : v.sync p = .ok v') : v'.Sound := by
  have hwithin := sync_within h
  constructor
  · intro q hq
    rw [(sync_ok h).1]
    exact sound.unsynced q ((hwithin.unsynced q hq).resolve_right (Set.notMem_empty q))
  · intro change hchange
    rw [(sync_ok h).1]
    rcases hwithin.changed change hchange with hold | ⟨q, hq, -⟩
    · exact sound.changed change hold
    · exact absurd hq (Set.notMem_empty q)

end Library.Volume
