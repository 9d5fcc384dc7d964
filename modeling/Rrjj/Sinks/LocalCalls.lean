import Rrjj.Sinks.LocalWrites

/-! What the calls of the local sink do: an emit refuses, fails for good or accepts, and a flush
publishes or leaves the sink as it was. -/

namespace Rrjj
open Library Library.Proc

def LocalSession.With (s : LocalSession) (P : Disk → Prop) (u : LocalSession) : Prop :=
  P u.disk ∧ u = { s with disk := u.disk }

def Disk.SameTree (disk now : Disk) : Prop := now.volume = disk.volume ∧ now.trace = disk.trace

namespace DirectorySessionSink
variable {oracle : IoOracle} {sink : DirectorySessionSink} {s : LocalSession} {event : Event}
  {P R : Disk → Prop} {line : Bytes} {disk : Disk}

theorem tryDisk_triple {α : Type} {m : DiskTask α} {Q : α → Disk → Prop} (h : Triple P m Q R) :
    Triple (s.With P) (tryDisk m)
      (fun r => s.With fun disk => match r with | .ok a => Q a disk | .error _ => R disk)
      (fun u => s.With R u ∧ ¬ Uncut m) := by
  rintro u ⟨hdisk, hsame⟩
  have hm := h u.disk hdisk
  rcases hrun : m.run u.disk with ⟨a | failure | _, disk⟩ <;> rw [hrun] at hm <;>
    simp only [tryDisk, catching, zoom, hrun]
  · exact ⟨hm, by rw [hsame]⟩
  · exact ⟨hm, by rw [hsame]⟩
  · exact ⟨⟨hm, by rw [hsame]⟩, fun huncut => huncut _ (congrArg Prod.fst hrun)⟩

theorem orFailIo_triple {m : DiskTask Unit} {Q : Disk → Prop} (h : Triple P m (fun _ => Q) R) :
    Triple (s.With P) (sink.orFailIo m) (fun _ => s.With Q)
      (fun u => R u.disk ∧ u.accepted = s.accepted ∧ u.state.manifest = s.state.manifest ∧
        (Uncut m → u.state.failed ≠ none)) := by
  refine Triple.bind ((tryDisk_triple h).conseq (fun _ h => h) (fun _ _ h => h) ?_) fun result => ?_
  · rintro u ⟨⟨hdisk, hsame⟩, hcut⟩
    exact ⟨hdisk, by rw [hsame], by rw [hsame], fun huncut => absurd huncut hcut⟩
  cases result with
  | ok done => exact Triple.pure fun _ h => h
  | error failure =>
    rintro u ⟨hdisk, hsame⟩
    exact ⟨hdisk, by rw [hsame], by rw [hsame], fun _ => Option.some_ne_none _⟩

theorem ioStep_uncut {α : Type} {act : IoAnswer → Disk → Except IoError (α × Disk)}
    {broken : IoAnswer → Disk → Disk} (never : oracle.horizon = none) :
    Uncut (ioStep oracle act broken) := by
  intro disk
  unfold ioStep
  simp only [never, Option.any_none, Bool.false_eq_true, if_false]
  split
  · exact fun h => nomatch h
  · split
    · exact fun h => nomatch h
    · exact fun h => nomatch h

theorem volumeStep_uncut {act : Volume → Except FsError Volume} (never : oracle.horizon = none) :
    Uncut (volumeStep oracle act) := ioStep_uncut never

theorem writeManifestAtomic_uncut {manifests : ManifestSerde} {manifest : SessionManifest}
    {flushed : Option ℕ} (never : oracle.horizon = none) :
    Uncut (writeManifestAtomic oracle manifests manifest flushed) := by
  have hserialized : Uncut (serialized (manifests.toVecPretty manifest)) := by
    rcases manifests.toVecPretty manifest with message | bytes
    · exact Uncut.throw _
    · exact Uncut.pure _
  refine Uncut.bind (Uncut.pure _) fun _ => Uncut.bind hserialized fun bytes => ?_
  have hwrite : Uncut (fsWrite oracle ["manifest.json.tmp"] bytes) :=
    Uncut.bind (volumeStep_uncut never) fun _ => ioStep_uncut never
  refine Uncut.bind hwrite fun _ => Uncut.bind (volumeStep_uncut never) fun _ => ?_
  exact Uncut.bind (ioStep_uncut never) fun _ => volumeStep_uncut never

theorem writeAll_triple :
    Triple (fun d => disk.SameTree d ∧ d.spool ++ d.buffer = disk.spool ++ disk.buffer)
      (writeAll oracle line)
      (fun _ d => disk.SameTree d ∧ d.spool ++ d.buffer = disk.spool ++ disk.buffer ++ line)
      disk.SameTree := by
  refine ioStep_triple (fun _ h => h) (fun _ h => h.1) (fun _ _ h => h.1) ?_
  rintro d answer value next ⟨hsame, htext⟩ hact
  rw [← (Prod.mk.inj (Except.ok.inj hact)).2]
  refine ⟨hsame, ?_⟩
  unfold moveBuffered takeLine
  rw [List.append_assoc, List.take_append_drop, ← List.append_assoc, htext]

theorem flushWriter_triple {text : Bytes} :
    Triple (fun d => disk.SameTree d ∧ d.spool ++ d.buffer = text) (flushWriter oracle)
      (fun _ d => disk.SameTree d ∧ d.spool = text ∧ d.buffer = []) disk.SameTree := by
  refine ioStep_triple (fun _ h => h) (fun _ h => h.1) (fun _ _ h => h.1) ?_
  rintro d answer value next ⟨hsame, htext⟩ hact
  rw [← (Prod.mk.inj (Except.ok.inj hact)).2]
  refine ⟨hsame, ?_, ?_⟩
  · unfold moveBuffered
    rw [List.take_length, htext]
  · unfold moveBuffered
    rw [List.drop_length]

theorem syncSpool_triple (stop : ∀ d, P d → R d)
    (ticks : ∀ d, P d → P { d with clock := d.clock + 1 }) :
    Triple P (syncSpool oracle) (fun _ => P) R := by
  refine ioStep_triple ticks stop (fun d _ h => stop d h) ?_
  intro d answer value next h hact
  rw [← (Prod.mk.inj (Except.ok.inj hact)).2]
  exact h

structure Accepts (sink : DirectorySessionSink) (event : Event) (s u : LocalSession) : Prop where
  working : s.state.failed = none
  line : ∃ line, sink.lineOf event = .ok line ∧
    s.state.spoolBytes + line.length ≤ sink.maxSpoolBytes ∧
    u.disk.spool = s.disk.spool ++ s.disk.buffer ++ line ∧ u.state = (s.accept event line).state
  buffer : u.disk.buffer = []
  accepted : u.accepted = s.accepted ++ [event]

structure Untouched (s u : LocalSession) : Prop where
  tree : s.disk.SameTree u.disk
  accepted : u.accepted = s.accepted
  manifest : u.state.manifest = s.state.manifest

theorem orFailIo_untouched {m : DiskTask Unit} {Q : Disk → Prop}
    (uncut : oracle.horizon = none → Uncut m) (h : Triple P m (fun _ => Q) s.disk.SameTree) :
    Triple (s.With P) (sink.orFailIo m) (fun _ => s.With Q)
      (fun u => Untouched s u ∧ (oracle.horizon = none → u.state.failed ≠ none)) := by
  refine (orFailIo_triple h).conseq (fun _ h => h) (fun _ _ h => h) ?_
  rintro u ⟨htree, haccepted, hmanifest, hfailed⟩
  exact ⟨⟨htree, haccepted, hmanifest⟩, fun never => hfailed (uncut never)⟩

inductive EmitFails (oracle : IoOracle) (sink : DirectorySessionSink) (event : Event)
    (I : Shape → Prop) (s : LocalSession) : LocalSession → Prop
  | refused : EmitFails oracle sink event I s s
  | broken {u : LocalSession} (untouched : Untouched s u)
      (failed : oracle.horizon = none → u.state.failed ≠ none) : EmitFails oracle sink event I s u
  | seen {u : LocalSession} (accepts : sink.Accepts event s u) (holds : I u.disk.shape)
      (cut : oracle.horizon ≠ none) : EmitFails oracle sink event I s u

theorem acceptance_triple {I : Shape → Prop} {u : LocalSession} (accepts : sink.Accepts event s u)
    (guards : Guards I (ManifestWrites sink.serde.manifests u.state.manifest))
    (start : I u.disk.shape) :
    Triple (fun v => v = u)
      (do
        let s ← Proc.get
        let _ ← tryDisk (writeManifestAtomic oracle sink.serde.manifests s.state.manifest none)
        pure ())
      (fun _ v => sink.Accepts event s v ∧ I v.disk.shape) (EmitFails oracle sink event I s) := by
  refine Triple.get fun first hfirst => ?_
  rw [hfirst]
  have hguards : Guards (fun σ => I σ ∧ σ.spool = u.disk.spool ∧ σ.buffer = []) _ :=
    guards.also fun _ _ _ _ h _ => h
  have hwrite : Triple _
      (writeManifestAtomic oracle sink.serde.manifests u.state.manifest none) _ _ :=
    writeManifestAtomic_triple hguards (by simp)
  have hafter : ∀ v, u.With (Has fun σ => I σ ∧ σ.spool = u.disk.spool ∧ σ.buffer = []) v →
      sink.Accepts event s v ∧ I v.disk.shape := by
    rintro v ⟨⟨hI, hspool, hbuffer⟩, hsame⟩
    have hstate : v.state = u.state := by rw [hsame]
    have haccepted : v.accepted = u.accepted := by rw [hsame]
    obtain ⟨line, hline, hroom, htext, hnow⟩ := accepts.line
    exact ⟨⟨accepts.working, ⟨line, hline, hroom, hspool.trans htext, hstate.trans hnow⟩, hbuffer,
      haccepted.trans accepts.accepted⟩, hI⟩
  refine Triple.bind (Q := fun _ v => sink.Accepts event s v ∧ I v.disk.shape) ?_
    fun _ => Triple.pure fun _ h => h
  refine (tryDisk_triple (s := u) hwrite).conseq ?_ ?_ ?_
  · rintro v rfl
    exact ⟨⟨start, rfl, accepts.buffer⟩, rfl⟩
  · rintro result v ⟨hdisk, hsame⟩
    refine hafter v ⟨?_, hsame⟩
    cases result with
    | ok done => exact hdisk.1
    | error failure => exact hdisk
  · rintro v ⟨h, hcut⟩
    obtain ⟨haccepts, hI⟩ := hafter v h
    exact .seen haccepts hI fun never => hcut (writeManifestAtomic_uncut never)

theorem emit_triple {I : Shape → Prop}
    (guards : ∀ line, sink.lineOf event = .ok line →
      Guards I (ManifestWrites sink.serde.manifests (s.accept event line).state.manifest))
    (start : ∀ spool buffer, I { s.disk.shape with spool := spool, buffer := buffer }) :
    Triple (fun u => u = s) (sink.emit oracle event)
      (fun _ u => sink.Accepts event s u ∧ I u.disk.shape) (EmitFails oracle sink event I s) := by
  have hrefused : ∀ u, u = s → EmitFails oracle sink event I s u := by
    rintro u rfl
    exact .refused
  refine Triple.get fun first hfirst => ?_
  rw [hfirst]
  -- the checks leave everything as it is
  refine Triple.bind (Q := fun _ u => u = s ∧ s.state.failed = none) ?_ fun _ => ?_
  · refine Triple.ofExcept (fun _ hcheck u hu => ⟨hu, ?_⟩) fun _ _ => hrefused
    unfold checkFailed at hcheck
    split at hcheck
    · exact absurd hcheck (by simp)
    · next hnone => exact hnone
  refine Triple.bind (Q := fun line u => u = s ∧ s.state.failed = none ∧ sink.lineOf event = .ok line)
    ?_ fun line => ?_
  · exact Triple.ofExcept (fun line hline u hu => ⟨hu.1, hu.2, hline⟩) fun _ _ u hu => hrefused u hu.1
  refine Triple.bind (Q := fun _ u => u = s ∧ s.state.failed = none ∧ sink.lineOf event = .ok line ∧
    s.state.spoolBytes + line.length ≤ sink.maxSpoolBytes) ?_ fun _ => ?_
  · refine Triple.ofExcept (fun _ hroom u hu => ⟨hu.1, hu.2.1, hu.2.2, ?_⟩) fun _ _ u hu => hrefused u hu.1
    unfold checkRoom at hroom
    split_ifs at hroom with hfull
    exact not_lt.mp hfull
  refine Triple.of_start fun _ hu => ?_
  obtain ⟨hstart, hworking, hline, hroom⟩ := hu
  rw [hstart]
  -- the line is written, or the sink has failed
  have hbroken : ∀ u, Untouched s u ∧ (oracle.horizon = none → u.state.failed ≠ none) →
      EmitFails oracle sink event I s u := fun u h => .broken h.1 h.2
  refine Triple.bind ((orFailIo_untouched (fun never => ioStep_uncut never) writeAll_triple).conseq
    ?_ (fun _ _ h => h) hbroken) fun _ => ?_
  · rintro u rfl
    exact ⟨⟨⟨rfl, rfl⟩, rfl⟩, rfl⟩
  refine Triple.bind ((orFailIo_untouched (fun never => ioStep_uncut never) flushWriter_triple).conseq
    (fun _ h => h) (fun _ _ h => h) hbroken) fun _ => ?_
  refine Triple.bind ((orFailIo_untouched (fun never => ioStep_uncut never)
    (syncSpool_triple (fun _ h => h.1) fun _ h => h)).conseq (fun _ h => h) (fun _ _ h => h) hbroken)
    fun _ => ?_
  -- from here on the event is accepted
  refine Triple.bind (Q := fun _ u => sink.Accepts event s u ∧ I u.disk.shape ∧
    u.state = (s.accept event line).state) ?_ fun _ => Triple.of_start fun u hu => ?_
  · refine Triple.modify ?_
    rintro u ⟨⟨⟨hvolume, htrace⟩, hspool, hbuffer⟩, hsame⟩
    have hstate : (u.accept event line).state = (s.accept event line).state := by rw [hsame]; rfl
    have hshape : (u.accept event line).disk.shape =
        { s.disk.shape with spool := u.disk.spool, buffer := u.disk.buffer } := by
      unfold LocalSession.accept Disk.shape
      rw [hvolume, htrace]
    refine ⟨⟨hworking, ⟨line, hline, hroom, hspool, hstate⟩, hbuffer, ?_⟩, ?_, hstate⟩
    · rw [hsame]
      rfl
    · rw [hshape]
      exact start _ _
  · obtain ⟨haccepts, hI, hstate⟩ := hu
    have hguards := guards line hline
    rw [← hstate] at hguards
    exact acceptance_triple haccepts hguards hI

/-- However far an emit gets, it has not touched the directory or has accepted its event. -/
theorem emit_ends {I : Shape → Prop} {u : LocalSession}
    (run : ((sink.emit oracle event).run s).2 = u)
    (guards : ∀ line, sink.lineOf event = .ok line →
      Guards I (ManifestWrites sink.serde.manifests (s.accept event line).state.manifest))
    (start : ∀ spool buffer, I { s.disk.shape with spool := spool, buffer := buffer }) :
    Untouched s u ∨ sink.Accepts event s u ∧ I u.disk.shape := by
  have hemit : Triple (fun v => v = s) (sink.emit oracle event) _ (EmitFails oracle sink event I s) :=
    emit_triple guards start
  rw [← run]
  rcases (hemit s rfl).outcome with ⟨-, -, haccepts⟩ | ⟨-, hfails⟩
  · exact Or.inr haccepts
  · generalize ((sink.emit oracle event).run s).2 = v at hfails
    cases hfails with
    | refused => exact Or.inl ⟨⟨rfl, rfl⟩, rfl, rfl⟩
    | broken untouched hfailed => exact Or.inl untouched
    | seen accepts holds cut => exact Or.inr ⟨accepts, holds⟩

theorem trySync_triple {α : Type} {m : SyncTask α} {J K : Shape → Prop} {Q : α → Shape → Prop}
    (h : Triple (Holding J) m (fun a => Holding (Q a)) (Holding K)) :
    Triple (s.With (Has J)) (trySync m)
      (fun r => s.With (Has fun σ => match r with | .ok a => Q a σ | .error _ => K σ))
      (s.With (Has K)) := by
  rintro u ⟨hdisk, hsame⟩
  have hm := h { disk := u.disk } hdisk
  rcases hrun : m.run { disk := u.disk } with ⟨a | failure | _, gathered⟩ <;> rw [hrun] at hm <;>
    simp only [trySync, catching, zoom, hrun]
  · exact ⟨hm, by rw [hsame]⟩
  · exact ⟨hm, by rw [hsame]⟩
  · exact ⟨hm, by rw [hsame]⟩

theorem orIo_triple {α : Type} {P : LocalSession → Prop} {Q : α → LocalSession → Prop}
    {R : LocalSession → Prop} {result : Except IoError α} (done : ∀ a, result = .ok a → ∀ u, P u → Q a u)
    (stop : ∀ failure, result = .error failure → ∀ u, P u → R u) : Triple P (orIo result) Q R := by
  cases result with
  | ok a => exact Triple.pure (done a rfl)
  | error failure => exact Triple.throw (stop failure rfl)

def flushManifest (request : FlushRequest) (manifest : SessionManifest) : SessionManifest :=
  { manifest with lastOp := request.lastOp }

structure Publishes (sink : DirectorySessionSink) (request : FlushRequest) (s u : LocalSession) :
    Prop where
  working : s.state.failed = none
  seq : request.lastSeq = s.state.manifest.lastSeq
  state : ∃ stats,
    u.state = (s.publish request (flushManifest request s.state.manifest) stats).state
  accepted : u.accepted = s.accepted
  copied : Copied s.state.manifest.lastSeq u.disk.shape
  manifest : ∃ bytes, sink.serde.manifests.toVecPretty
      (flushManifest request s.state.manifest).durableAt = .ok bytes ∧
    u.disk.shape.entry ["manifest.json"] = some (.file bytes)

def Disk.SameSpool (disk : Disk) (σ : Shape) : Prop := σ.spool = disk.spool ∧ σ.buffer = disk.buffer

theorem flush_triple {I : Shape → Prop} (buffer : s.state.failed = none → s.disk.buffer = [])
    (start : I s.disk.shape) :
    Triple (fun u => u = s) (flush oracle)
      (fun _ u => s.state.failed = none ∧ s.With (Has fun σ => I σ ∧ Disk.SameSpool s.disk σ) u)
      (s.With (Has fun σ => I σ ∧ Disk.SameSpool s.disk σ)) := by
  have hstart : ∀ u, u = s → s.With (Has fun σ => I σ ∧ Disk.SameSpool s.disk σ) u := by
    rintro u rfl
    exact ⟨⟨start, rfl, rfl⟩, rfl⟩
  refine Triple.get fun first hfirst => ?_
  rw [hfirst]
  refine Triple.bind (Q := fun _ u => s.state.failed = none ∧ u = s) ?_ fun _ =>
    Triple.of_start fun u hu => ?_
  · refine Triple.ofExcept (fun _ hcheck u hu => ⟨?_, hu⟩) fun _ _ => hstart
    unfold checkFailed at hcheck
    split at hcheck
    · exact absurd hcheck (by simp)
    · next hnone => exact hnone
  obtain ⟨hworking, hu⟩ := hu
  rw [hu]
  -- nothing is buffered, so the writer has nothing to hand over
  have hempty := buffer hworking
  have hmoved : ∀ (disk : Disk) moved, Disk.SameSpool s.disk disk.shape →
      (moveBuffered disk moved).shape = disk.shape := by
    rintro disk moved ⟨-, hbuffer⟩
    have hnil : disk.buffer = [] := hbuffer.trans hempty
    unfold moveBuffered Disk.shape
    simp [hnil]
  have hflush : Keeps (Has fun σ => I σ ∧ Disk.SameSpool s.disk σ) (flushWriter oracle) := by
    refine ioStep_triple (fun _ h => h) (fun _ h => h) ?_ ?_
    · intro disk answer h
      rw [Has, hmoved disk _ h.2]
      exact h
    · intro disk answer value next h hact
      rw [← (Prod.mk.inj (Except.ok.inj hact)).2, Has, hmoved disk _ h.2]
      exact h
  have hsync : Keeps (Has fun σ => I σ ∧ Disk.SameSpool s.disk σ) (syncSpool oracle) :=
    syncSpool_triple (fun _ h => h) fun _ h => h
  have htry : ∀ m : DiskTask Unit, Keeps (Has fun σ => I σ ∧ Disk.SameSpool s.disk σ) m →
      Keeps (s.With (Has fun σ => I σ ∧ Disk.SameSpool s.disk σ)) (tryDisk m >>= orIo) := by
    intro m hm
    refine Triple.bind ((tryDisk_triple (s := s) hm).conseq (fun _ h => h) (fun _ _ h => h)
      fun _ h => h.1) fun result => ?_
    refine orIo_triple ?_ ?_
    · rintro a rfl u h
      exact h
    · rintro failure rfl u h
      exact h
  rw [← bind_assoc]
  refine Triple.bind ((htry _ hflush).pre hstart) fun _ => ?_
  exact (htry _ hsync).post fun _ _ h => ⟨hworking, h⟩

theorem flushSession_triple {I : Shape → Prop} {source : Listing} {request : FlushRequest}
    (buffer : s.state.failed = none → s.disk.buffer = [])
    (guards : Guards I (FlushWrites sink.serde.manifests (flushManifest request s.state.manifest)))
    (copies : ∀ σ, I σ → σ.spool = s.disk.spool →
      (σ.entry (eventsPath s.state.manifest.lastSeq)).isSome →
        I (σ.log (.copied s.state.manifest.lastSeq)))
    (publishes : ∀ σ volume, I σ → volume.tree.entry = σ.entry →
      I (σ.log (.published s.state.manifest.lastSeq volume)))
    (start : I s.disk.shape) :
    Triple (fun u => u = s) (sink.flushSession oracle source request)
      (fun _ u => sink.Publishes request s u ∧ Has (fun σ => I σ ∧ Disk.SameSpool s.disk σ) u.disk)
      (s.With (Has fun σ => I σ ∧ Disk.SameSpool s.disk σ)) := by
  refine Triple.bind (flush_triple buffer start) fun _ => ?_
  refine Triple.of_start fun first hfirst => ?_
  obtain ⟨hworking, hflushed⟩ := hfirst
  refine Triple.get fun now hnow => ?_
  rw [hnow]
  have hstate : first.state = s.state := by rw [hflushed.2]
  rw [hstate]
  refine Triple.bind (Q := fun _ u => request.lastSeq = s.state.manifest.lastSeq ∧ u = first) ?_
    fun _ => Triple.of_start fun u hu => ?_
  · refine Triple.ofExcept (fun _ hcheck u hu => ⟨?_, hu⟩) fun _ _ u hu => hu ▸ hflushed
    unfold checkLastSeq at hcheck
    split_ifs at hcheck with hseq
    exact hseq
  obtain ⟨hseq, hu⟩ := hu
  rw [hu]
  -- the spool stays as it is while the directory is synced
  have hguards : Guards (fun σ => I σ ∧ Disk.SameSpool s.disk σ) _ :=
    guards.also fun _ _ _ _ h _ => h
  have hsync : Triple _ (syncDirectorySession oracle sink.serde source
      (flushManifest request s.state.manifest) request.checkpoint) _ _ :=
    syncDirectorySession_triple hguards (fun σ h hobject => ⟨copies σ h.1 h.2.1 hobject, h.2⟩)
      fun σ volume h hvolume => ⟨publishes σ volume h.1 hvolume, h.2⟩
  rw [← bind_assoc]
  refine Triple.bind (Q := fun _ => s.With (Has fun σ => ((I σ ∧ Disk.SameSpool s.disk σ) ∧
    Copied s.state.manifest.lastSeq σ) ∧ ∃ bytes, sink.serde.manifests.toVecPretty
      (flushManifest request s.state.manifest).durableAt = .ok bytes ∧
        σ.entry ["manifest.json"] = some (.file bytes))) ?_ fun stats => ?_
  · refine Triple.bind ((trySync_triple (s := s) hsync).pre fun u hu => hu ▸ hflushed) fun result => ?_
    refine orIo_triple ?_ ?_
    · rintro a rfl u h
      exact h
    · rintro failure rfl u h
      exact h
  refine Triple.modify ?_
  rintro u ⟨⟨⟨⟨hI, hspool⟩, hcopied⟩, hmanifest⟩, hsame⟩
  refine ⟨⟨hworking, hseq, ⟨stats, ?_⟩, ?_, hcopied, hmanifest⟩, hI, hspool⟩
  · rw [hsame]
    rfl
  · rw [hsame]
    rfl

/-- However far a flush gets, it has published the session or left the sink as it was. -/
theorem flushSession_ends {I : Shape → Prop} {source : Listing} {request : FlushRequest}
    {u : LocalSession} (run : ((sink.flushSession oracle source request).run s).2 = u)
    (buffer : s.state.failed = none → s.disk.buffer = [])
    (guards : Guards I (FlushWrites sink.serde.manifests (flushManifest request s.state.manifest)))
    (copies : ∀ σ, I σ → σ.spool = s.disk.spool →
      (σ.entry (eventsPath s.state.manifest.lastSeq)).isSome →
        I (σ.log (.copied s.state.manifest.lastSeq)))
    (publishes : ∀ σ volume, I σ → volume.tree.entry = σ.entry →
      I (σ.log (.published s.state.manifest.lastSeq volume)))
    (start : I s.disk.shape) :
    (I u.disk.shape ∧ Disk.SameSpool s.disk u.disk.shape) ∧ u.accepted = s.accepted ∧
      (u.state = s.state ∨ sink.Publishes request s u) := by
  have hflush : Triple (fun v => v = s) (sink.flushSession oracle source request) _ _ :=
    flushSession_triple buffer guards copies publishes start
  rw [← run]
  rcases (hflush s rfl).outcome with ⟨-, -, hpublishes, hholds⟩ | ⟨-, hholds, hsame⟩
  · exact ⟨hholds, hpublishes.accepted, Or.inr hpublishes⟩
  · exact ⟨hholds, by rw [hsame], Or.inl (by rw [hsame])⟩

end DirectorySessionSink
end Rrjj
