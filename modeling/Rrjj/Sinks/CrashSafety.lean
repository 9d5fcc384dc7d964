import Rrjj.Sinks.Leftovers

/-! What a reader finds in a session directory at any point of the calls of its sink: nothing
durable yet, or a publication that is whole. -/

namespace Rrjj
open Library Library.Proc

def GoodManifest (manifest : SessionManifest) (σ : Shape) : Prop :=
  manifest.isCompatible = true ∧ ∀ seq, manifest.durableSeq = some seq →
    Copied seq σ ∧ manifest.eventsObject = some (eventsObject seq)

def Visible (manifests : ManifestSerde) (σ : Shape) : Prop :=
  ∀ e, σ.entry ["manifest.json"] = some e → ∃ bytes manifest, e = .file bytes ∧
    manifests.fromSlice bytes = .ok manifest ∧ GoodManifest manifest σ

def Retains (trace : List DiskLabel) (entry : Path → Option Entry) : Prop :=
  ∀ seq volume, .published seq volume ∈ trace → ∀ relative data,
    isImmutableRepositoryFile relative = true →
      volume.tree.entry (repoPath ++ relative) = some (.file data) →
        entry (repoPath ++ relative) = some (.file data)

/-- The directory, and the manifest that the sink has in memory. -/
structure Sound (manifests : ManifestSerde) (manifest : SessionManifest) (σ : Shape) : Prop where
  visible : Visible manifests σ
  retains : Retains σ.trace σ.entry
  memory : GoodManifest manifest σ

section
variable {manifests : ManifestSerde} {manifest memory : SessionManifest} {σ : Shape} {path : Path}
  {e : Option Entry}

theorem GoodManifest.keep {σ' : Shape} (h : GoodManifest manifest σ)
    (copied : ∀ seq, Copied seq σ → Copied seq σ') : GoodManifest manifest σ' := by
  refine ⟨h.1, fun seq hseq => ?_⟩
  obtain ⟨hcopied, hobject⟩ := h.2 seq hseq
  exact ⟨copied seq hcopied, hobject⟩

theorem Visible.keep {σ' : Shape} (h : Visible manifests σ)
    (copied : ∀ seq, Copied seq σ → Copied seq σ')
    (same : σ'.entry ["manifest.json"] = σ.entry ["manifest.json"]) : Visible manifests σ' := by
  intro e he
  rw [same] at he
  obtain ⟨bytes, found, hbytes, hread, hgood⟩ := h e he
  exact ⟨bytes, found, hbytes, hread, hgood.keep copied⟩

theorem Visible.write {bytes : Bytes} (good : GoodManifest manifest σ)
    (written : manifests.toVecPretty manifest = .ok bytes)
    (entry : σ.entry ["manifest.json"] = some (.file bytes)) : Visible manifests σ := by
  intro e he
  rw [entry] at he
  exact ⟨bytes, manifest, (Option.some.inj he).symm, manifests.round_trip written, good⟩

theorem copied_manifest {seq : ℕ} (copied : Copied seq σ)
    (writes : ManifestWrites manifests manifest σ path e) : Copied seq (σ.update path e) := by
  have hpath : eventsPath seq ≠ path := by
    cases writes with
    | temporary e => simp [eventsPath]
    | manifest bytes written => simp [eventsPath]
  refine ⟨copied.1, ?_⟩
  rw [Shape.entry_update_ne σ e hpath]
  exact copied.2

theorem retains_update (h : Retains σ.trace σ.entry)
    (free : ∀ relative, isImmutableRepositoryFile relative = true → repoPath ++ relative = path →
      σ.entry path = none) : Retains (σ.update path e).trace (σ.update path e).entry := by
  intro seq volume hmem relative data himmutable hdata
  have hthere := h seq volume hmem relative data himmutable hdata
  have hne : repoPath ++ relative ≠ path := by
    intro hpath
    have hnone := free relative himmutable hpath
    rw [← hpath, hthere] at hnone
    exact absurd hnone (by simp)
  rw [Shape.entry_update_ne σ e hne]
  exact hthere

theorem sound_manifest_guards : Guards (Sound manifests manifest) (ManifestWrites manifests manifest) := by
  intro σ path e h hwrites
  have hcopied : ∀ seq, Copied seq σ → Copied seq (σ.update path e) :=
    fun seq h => copied_manifest h hwrites
  have hmemory := h.memory.keep hcopied
  refine ⟨?_, retains_update h.retains ?_, hmemory⟩
  · cases hwrites with
    | temporary e => exact h.visible.keep hcopied (Shape.entry_update_ne σ e (by simp))
    | manifest bytes written => exact Visible.write hmemory written (Shape.entry_update ..)
  · intro relative himmutable hpath
    cases hwrites with
    | temporary e => exact absurd hpath (by simp [repoPath])
    | manifest bytes written => exact absurd hpath (by simp [repoPath])

theorem sound_guards (compatible : manifest.isCompatible = true) :
    Guards (Sound manifests memory) (FlushWrites manifests manifest) := by
  intro σ path e h hwrites
  have hcopied : ∀ seq, Copied seq σ → Copied seq (σ.update path e) :=
    fun seq h => copied_update h hwrites
  refine ⟨?_, retains_update h.retains ?_, h.memory.keep hcopied⟩
  · by_cases hpath : path = ["manifest.json"]
    · subst hpath
      obtain ⟨hdone, bytes, hwritten, he⟩ := hwrites.manifest_inv
      have hgood : GoodManifest manifest.durableAt (σ.update ["manifest.json"] e) := by
        refine ⟨compatible, fun seq hseq => ?_⟩
        rw [← Option.some.inj hseq]
        exact ⟨hcopied _ hdone, rfl⟩
      apply Visible.write hgood hwritten
      rw [Shape.entry_update, he]
    · exact h.visible.keep hcopied (Shape.entry_update_ne σ e (Ne.symm hpath))
  · intro relative himmutable hpath
    rw [← hpath] at hwrites ⊢
    exact hwrites.immutable_inv himmutable

theorem Sound.log (h : Sound manifests memory σ) (label : DiskLabel)
    (published : ∀ seq volume, label = .published seq volume → volume.tree.entry = σ.entry) :
    Sound manifests memory (σ.log label) := by
  have hcopied : ∀ seq, Copied seq σ → Copied seq (σ.log label) :=
    fun seq h => ⟨List.mem_append_left _ h.1, h.2⟩
  refine ⟨h.visible.keep hcopied rfl, ?_, h.memory.keep hcopied⟩
  intro seq volume hmem relative data himmutable hdata
  rcases List.mem_append.mp hmem with hold | hnew
  · exact h.retains seq volume hold relative data himmutable hdata
  · rw [published seq volume (List.mem_singleton.mp hnew).symm] at hdata
    exact hdata

end

namespace DirectorySessionSink
variable {oracle : IoOracle} {sink : DirectorySessionSink} {first s u : LocalSession}
  {sessionId : String} {format : FormatMetadata}

theorem call_sound (call : SessionCall) (buffer : s.state.failed = none → s.disk.buffer = [])
    (sound : Sound sink.serde.manifests s.state.manifest s.disk.shape) :
    Sound sink.serde.manifests ((sink.call oracle call).run s).2.state.manifest
      ((sink.call oracle call).run s).2.disk.shape := by
  have hcompatible : s.state.manifest.isCompatible = true := sound.memory.1
  cases call with
  | emit event =>
    generalize hrun : ((sink.call oracle (.emit event)).run s).2 = u
    have haccepted : ∀ line spool buffer, Sound sink.serde.manifests (s.accept event line).state.manifest
        { s.disk.shape with spool := spool, buffer := buffer } :=
      fun line spool buffer => ⟨sound.visible, sound.retains, sound.memory⟩
    have hguards : ∀ line, sink.lineOf event = .ok line → Guards
        (fun σ => ∀ line, sink.lineOf event = .ok line →
          Sound sink.serde.manifests (s.accept event line).state.manifest σ)
        (ManifestWrites sink.serde.manifests (s.accept event line).state.manifest) := by
      intro line hline σ path e h hwrites other hother
      rw [← Except.ok.inj (hline.symm.trans hother)]
      exact sound_manifest_guards σ path e (h line hline) hwrites
    -- an emit either leaves the directory alone or writes the manifest of the next state
    rcases emit_ends hrun hguards fun spool buffer line _ =>
      haccepted line spool buffer with huntouched | ⟨haccepts, hholds⟩
    · have hentry : u.disk.shape.entry = s.disk.shape.entry := by
        unfold Disk.shape
        rw [huntouched.tree.1]
      have htrace : u.disk.shape.trace = s.disk.shape.trace := huntouched.tree.2
      have hcopied : ∀ seq, Copied seq s.disk.shape → Copied seq u.disk.shape := by
        intro seq h
        unfold Copied
        rw [hentry, htrace]
        exact h
      rw [huntouched.manifest]
      refine ⟨sound.visible.keep hcopied (by rw [hentry]), ?_, sound.memory.keep hcopied⟩
      rw [hentry, htrace]
      exact sound.retains
    · obtain ⟨line, hline, -, -, hstate⟩ := haccepts.line
      rw [hstate]
      exact hholds line hline
  | flushSession source request =>
    generalize hrun : ((sink.call oracle (.flushSession source request)).run s).2 = u
    obtain ⟨⟨hsound, -⟩, -, hstate | hpublishes⟩ :=
      flushSession_ends (I := Sound sink.serde.manifests s.state.manifest) hrun buffer
        (sound_guards hcompatible) (fun σ h _ _ => h.log _ (by simp))
        (fun σ volume h hvolume => h.log _ (by
          intro seq other hlabel
          rw [← (DiskLabel.published.inj hlabel).2]
          exact hvolume)) sound
    · rw [hstate]
      exact hsound
    · -- the watermark is published after its copy of the events
      obtain ⟨stats, hstate⟩ := hpublishes.state
      refine ⟨hsound.visible, hsound.retains, ?_⟩
      rw [hstate]
      refine ⟨hcompatible, fun seq hseq => ?_⟩
      have hlast : s.state.manifest.lastSeq = seq := hpublishes.seq.symm.trans (Option.some.inj hseq)
      rw [← hlast]
      exact ⟨hpublishes.copied, by rw [← hpublishes.seq]; rfl⟩

theorem Reached.sound {meets : LocalSession → SessionCall → Prop} {base : Bytes}
    (never : oracle.horizon = none) (holds : sink.SpoolHolds base first)
    (start : Sound sink.serde.manifests first.state.manifest first.disk.shape)
    (reached : Reached sink oracle meets first s) :
    Sound sink.serde.manifests s.state.manifest s.disk.shape := by
  induction reached with
  | created => exact start
  | called call reached meet ih =>
    exact call_sound call (fun h => (reached.holds never holds h).buffer) ih

/-- A reader at a point where the directory is sound and its objects are those of the sink. -/
theorem open_sound (objects : sink.serde.events.WritesObjects)
    (kept : sink.Objects first s.accepted s.disk.shape)
    (fresh : first.disk.volume = .empty ∧ first.disk.spool = [])
    (recorded : Recorded sessionId s.accepted)
    (reads : ∀ seq, .copied seq ∈ s.disk.trace →
      ∀ event ∈ s.accepted.take (seq + 1), sink.serde.events.ReadsBack event)
    (visible : Visible sink.serde.manifests s.disk.shape) :
    let opened := Session.open sink.serde.events sink.serde.manifests s.disk.volume.tree []
    opened = .error .missingManifest ∨ opened = .error .notDurable ∨ ∃ manifest seq,
      opened = .ok ⟨manifest, ⟨s.accepted.take (seq + 1)⟩⟩ ∧ manifest.durableSeq = some seq ∧
        seq < s.accepted.length ∧ .copied seq ∈ s.disk.trace := by
  intro opened
  rcases hentry : s.disk.volume.tree.entry ["manifest.json"] with _ | e
  · apply Or.inl
    unfold opened Session.open readFile
    rw [List.nil_append, hentry]
    rfl
  apply Or.inr
  obtain ⟨bytes, manifest, rfl, hread, hcompatible, hdurable⟩ := visible e hentry
  rcases hseq : manifest.durableSeq with _ | seq
  · apply Or.inl
    unfold opened Session.open readFile
    simp only [List.nil_append, hentry, Bind.bind, Except.bind, hread, hcompatible, hseq, Bool.not_true,
      Bool.false_eq_true, if_false]
  apply Or.inr
  obtain ⟨hcopied, hobject⟩ := hdurable seq hseq
  -- the object was not there at the start, so it is the sink's
  have hnone : first.disk.volume.tree.entry (eventsPath seq) = none := by
    rw [fresh.1]
    exact FileTree.entry_empty.trans (if_neg (by simp [eventsPath]))
  rcases kept seq with hsame | ⟨-, hlt, text, htext, hobjectEntry⟩
  · have hthere := hcopied.2
    rw [hsame, hnone] at hthere
    exact absurd hthere (by decide)
  obtain ⟨texts, htexts, hjoined⟩ := textOf_lines htext
  rcases htake : s.accepted.take (seq + 1) with _ | ⟨event, rest⟩
  · have hlength := congrArg List.length htake
    rw [List.length_take, List.length_nil] at hlength
    omega
  have hrest : rest.length = seq := by
    have hlength := congrArg List.length htake
    rw [List.length_take, List.length_cons] at hlength
    omega
  have hrecorded := recorded_take recorded (seq + 1)
  rw [htake] at htexts hrecorded
  have hreads : ∀ other ∈ event :: rest, sink.serde.events.ReadsBack other := by
    rw [← htake]
    exact reads seq hcopied.1
  have htimeline : Timeline.read sink.serde.events ([] ++ joinLines texts) = .ok ⟨event :: rest⟩ :=
    (Timeline.read_append_iff objects htexts hrecorded).mpr (Timeline.leaves_nil objects hreads)
  have hlast := recorded_last hrecorded
  rw [hrest] at hlast
  rw [hjoined, List.nil_append] at htimeline
  rw [fresh.2, List.nil_append] at hobjectEntry
  refine ⟨manifest, seq, ?_, hseq, hlt, hcopied.1⟩
  exact (open_ok_iff hentry hread hcompatible hseq hobject).mpr
    ⟨text, ⟨event :: rest⟩, hobjectEntry, htimeline, hlast, by rw [htake]⟩

/-- At every point of every call of the coordinator, a reader is told that nothing is published
or durable yet, or opens exactly the events through the watermark of a flush that had copied
them, and every immutable file that was there when a manifest was published still is. -/
theorem session_open_at_every_point (sink : DirectorySessionSink) (oracle seen : IoOracle)
    (sessionId : String) (format : FormatMetadata) (first s : LocalSession) (call : SessionCall)
    (objects : sink.serde.events.WritesObjects)
    (compatible : format.sessionFormat = sessionFormatVersion ∧ format.schemaVersion = schemaVersion)
    (never : oracle.horizon = none)
    (created : sink.create sessionId format [] .empty = .ok first)
    (reached : Reached sink oracle (Coordinated sessionId) first s)
    (coordinated : Coordinated sessionId s call)
    (reads : ∀ event ∈ ((sink.call seen call).run s).2.accepted, sink.serde.events.ReadsBack event) :
    let u := ((sink.call seen call).run s).2
    let opened := Session.open sink.serde.events sink.serde.manifests u.disk.volume.tree []
    (opened = .error .missingManifest ∨ opened = .error .notDurable ∨ ∃ manifest seq,
      opened = .ok ⟨manifest, ⟨u.accepted.take (seq + 1)⟩⟩ ∧ manifest.durableSeq = some seq ∧
        seq < u.accepted.length ∧ .copied seq ∈ u.disk.trace) ∧
    ∀ seq volume, .published seq volume ∈ u.disk.trace → ∀ relative data,
      isImmutableRepositoryFile relative = true →
        volume.tree.entry (repoPath ++ relative) = some (.file data) →
          u.disk.volume.tree.entry (repoPath ++ relative) = some (.file data) := by
  intro u opened
  have hkept : sink.Kept sessionId format first s :=
    Reached.kept never created (fun _ _ h => h) reached
  have hbegun := create_begun created
  have hvolume : first.disk.volume = .empty := by rw [hbegun.disk]
  have hspool : first.disk.spool = [] := by rw [hbegun.disk]
  -- the created directory has no manifest yet
  have hstart : Sound sink.serde.manifests first.state.manifest first.disk.shape := by
    refine ⟨?_, ?_, ?_, ?_⟩
    · intro e he
      have hnone : first.disk.volume.tree.entry ["manifest.json"] = none := by
        rw [hvolume]
        exact FileTree.entry_empty.trans (if_neg (by simp))
      exact absurd (he.symm.trans hnone) (by simp)
    · intro seq volume hmem
      change _ ∈ first.disk.trace at hmem
      rw [hbegun.disk] at hmem
      exact absurd hmem (List.not_mem_nil)
    · unfold SessionManifest.isCompatible
      rw [hbegun.format, compatible.1, compatible.2]
      rfl
    · intro seq hseq
      rw [hbegun.undurable] at hseq
      exact absurd hseq (by simp)
  have hbuffer : s.state.failed = none → s.disk.buffer = [] := fun h => (hkept.holds h).buffer
  have hsound : Sound sink.serde.manifests u.state.manifest u.disk.shape :=
    call_sound call hbuffer (reached.sound never (create_holds created) hstart)
  have hobjects : sink.Objects first u.accepted u.disk.shape :=
    call_objects_hold call coordinated hkept.holds hkept.numbering hkept.objects
  have hnumbering : Numbering sessionId format u :=
    call_numbering call coordinated hbuffer hkept.numbering
  refine ⟨?_, hsound.retains⟩
  exact open_sound objects hobjects ⟨hvolume, hspool⟩ hnumbering.recorded
    (fun _ _ event hevent => reads event (List.mem_of_mem_take hevent)) hsound.visible

/-- The flush of the example, seen before it is over. -/
theorem session_open_at_every_point_flushing :
    let u := ((olderSink.call { calmDisk with horizon := some 14 } (.flushSession .done flushRequest)).run
      (emittedSession [])).2
    let opened := Session.open olderSerde olderSink.serde.manifests u.disk.volume.tree []
    opened = .error .missingManifest ∨ opened = .error .notDurable ∨ ∃ manifest seq,
      opened = .ok ⟨manifest, ⟨u.accepted.take (seq + 1)⟩⟩ ∧ manifest.durableSeq = some seq ∧
        seq < u.accepted.length ∧ .copied seq ∈ u.disk.trace := by
  have hne : (emittedSession []).accepted ≠ [] := by decide +kernel
  exact (session_open_at_every_point olderSink calmDisk { calmDisk with horizon := some 14 } "s"
    exampleFormat (resumedSession []) (emittedSession []) (.flushSession .done flushRequest)
    olderSerde_objects ⟨rfl, rfl⟩ rfl (resumedSession_created (by decide)) (emittedSession_reached []) hne
    fun event _ => olderSerde_readsBack event).1

end DirectorySessionSink
end Rrjj
