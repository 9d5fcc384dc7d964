import Rrjj.Sinks.Leftovers

/-! The watermark that readers of a session directory see, over the runs of its sink. -/

namespace Rrjj
open Library Library.Proc

def readManifest (manifests : ManifestSerde) (entry : Path → Option Entry) : Option SessionManifest :=
  match entry ["manifest.json"] with
  | some (.file bytes) => (manifests.fromSlice bytes).toOption
  | _ => none

def Advances (before after : Option SessionManifest) : Prop :=
  ∀ manifest seq, before = some manifest → manifest.durableSeq = some seq →
    ∃ later laterSeq, after = some later ∧ later.durableSeq = some laterSeq ∧ seq ≤ laterSeq

def WithinLast (manifest : Option SessionManifest) : Prop :=
  ∀ found seq, manifest = some found → found.durableSeq = some seq → seq ≤ found.lastSeq

section
variable {manifests : ManifestSerde} {manifest : SessionManifest} {before : Option SessionManifest}
  {σ : Shape} {path : Path} {e : Option Entry}

theorem Advances.refl (manifest : Option SessionManifest) : Advances manifest manifest :=
  fun found seq hfound hseq => ⟨found, seq, hfound, hseq, Nat.le_refl _⟩

theorem WithinLast.behind (h : WithinLast (some manifest)) : ∀ found seq, some manifest = some found →
    found.durableSeq = some seq → seq ≤ manifest.lastSeq := by
  intro found seq hfound hseq
  rw [Option.some.inj hfound]
  exact h found seq hfound hseq

theorem readManifest_update_ne (ne : path ≠ ["manifest.json"]) :
    readManifest manifests (σ.update path e).entry = readManifest manifests σ.entry := by
  unfold readManifest
  rw [Shape.entry_update_ne σ e (Ne.symm ne)]

theorem readManifest_write {bytes : Bytes} (written : manifests.toVecPretty manifest = .ok bytes) :
    readManifest manifests (σ.update ["manifest.json"] (some (.file bytes))).entry = some manifest := by
  unfold readManifest
  rw [Shape.entry_update]
  simp only [manifests.round_trip written, Except.toOption]

theorem flushWrites_reads : Guards
    (fun σ => readManifest manifests σ.entry = before ∨
      readManifest manifests σ.entry = some manifest.durableAt) (FlushWrites manifests manifest) := by
  intro σ path e h hwrites
  by_cases hpath : path = ["manifest.json"]
  · subst hpath
    obtain ⟨-, bytes, hwritten, he⟩ := hwrites.manifest_inv
    rw [he]
    exact Or.inr (readManifest_write hwritten)
  · rw [readManifest_update_ne hpath]
    exact h

end

namespace DirectorySessionSink
variable {oracle : IoOracle} {sink : DirectorySessionSink} {s u : LocalSession} {event : Event}

def published (sink : DirectorySessionSink) (s : LocalSession) : Option SessionManifest :=
  readManifest sink.serde.manifests s.disk.volume.tree.entry

/-- An emit finds no newer watermark in the directory than in memory, and its event is not below
the one in memory. -/
def WatermarkKnown (sink : DirectorySessionSink) (s : LocalSession) : SessionCall → Prop
  | .emit event => Advances (sink.published s) (some s.state.manifest) ∧
      ∀ seq, s.state.manifest.durableSeq = some seq → seq ≤ event.seq
  | .flushSession _ _ => True

structure Watermarked (sink : DirectorySessionSink) (s : LocalSession) : Prop where
  bounded : WithinLast (sink.published s)
  memory : WithinLast (some s.state.manifest)
  behind : ∀ manifest seq, sink.published s = some manifest → manifest.durableSeq = some seq →
    seq ≤ s.state.manifest.lastSeq

theorem Untouched.published (untouched : Untouched s u) : sink.published u = sink.published s := by
  unfold DirectorySessionSink.published
  rw [untouched.tree.1]

theorem Watermarked.same (h : sink.Watermarked s) (published : sink.published u = sink.published s)
    (memory : WithinLast (some u.state.manifest))
    (behind : ∀ manifest seq, sink.published s = some manifest → manifest.durableSeq = some seq →
      seq ≤ u.state.manifest.lastSeq) :
    Advances (sink.published s) (sink.published u) ∧ sink.Watermarked u := by
  rw [published]
  refine ⟨Advances.refl _, ?_, memory, ?_⟩
  · rw [published]
    exact h.bounded
  · rw [published]
    exact behind

theorem Watermarked.new {manifest : SessionManifest} (published : sink.published u = some manifest)
    (advances : Advances (sink.published s) (some manifest)) (within : WithinLast (some manifest))
    (memory : WithinLast (some u.state.manifest)) (last : u.state.manifest.lastSeq = manifest.lastSeq) :
    Advances (sink.published s) (sink.published u) ∧ sink.Watermarked u := by
  rw [published]
  refine ⟨advances, ?_, memory, ?_⟩
  · rw [published]
    exact within
  · rw [published, last]
    exact within.behind

theorem emit_watermarked (known : sink.WatermarkKnown s (.emit event)) (h : sink.Watermarked s)
    (hrun : ((sink.call oracle (.emit event)).run s).2 = u) :
    Advances (sink.published s) (sink.published u) ∧ sink.Watermarked u := by
  obtain ⟨hknown, hevent⟩ := known
  have hguards : ∀ line, sink.lineOf event = .ok line → Guards
      (fun σ => readManifest sink.serde.manifests σ.entry = sink.published s ∨
        ∃ line, sink.lineOf event = .ok line ∧
          readManifest sink.serde.manifests σ.entry = some (s.accept event line).state.manifest)
      (ManifestWrites sink.serde.manifests (s.accept event line).state.manifest) := by
    intro line hline σ path e hσ hwrites
    cases hwrites with
    | temporary e =>
      rw [readManifest_update_ne (by simp)]
      exact hσ
    | manifest bytes written => exact Or.inr ⟨line, hline, readManifest_write written⟩
  rcases emit_ends hrun hguards fun _ _ => Or.inl rfl with huntouched | ⟨haccepts, hreads⟩
  · refine h.same huntouched.published ?_ ?_
    · rw [huntouched.manifest]
      exact h.memory
    · rw [huntouched.manifest]
      exact h.behind
  obtain ⟨line, hline, -, -, hstate⟩ := haccepts.line
  have hlast : u.state.manifest.lastSeq = event.seq := by
    rw [hstate]
    rfl
  have hdurable : u.state.manifest.durableSeq = s.state.manifest.durableSeq := by
    rw [hstate]
    rfl
  have hmemory : WithinLast (some u.state.manifest) := by
    intro manifest seq hmanifest hseq
    rw [← Option.some.inj hmanifest] at hseq ⊢
    rw [hdurable] at hseq
    rw [hlast]
    exact hevent seq hseq
  -- what is in memory after the emit is not older than what was in the directory
  have hforward : Advances (sink.published s) (some u.state.manifest) := by
    intro manifest seq hmanifest hseq
    obtain ⟨later, laterSeq, hlater, hlaterSeq, hle⟩ := hknown manifest seq hmanifest hseq
    refine ⟨u.state.manifest, laterSeq, rfl, ?_, hle⟩
    rw [hdurable, Option.some.inj hlater]
    exact hlaterSeq
  rcases hreads with hsame | ⟨other, hother, hnew⟩
  · refine h.same hsame hmemory ?_
    intro manifest seq hmanifest hseq
    obtain ⟨later, laterSeq, hlater, hlaterSeq, hle⟩ := hforward manifest seq hmanifest hseq
    have hwithin := hmemory later laterSeq hlater hlaterSeq
    rw [← Option.some.inj hlater] at hwithin
    exact hle.trans hwithin
  · have hline' : other = line := Except.ok.inj (hother.symm.trans hline)
    rw [hline', ← hstate] at hnew
    exact Watermarked.new hnew hforward hmemory hmemory rfl

theorem flushSession_watermarked {source : Listing} {request : FlushRequest}
    (buffer : s.state.failed = none → s.disk.buffer = []) (h : sink.Watermarked s)
    (hrun : ((sink.call oracle (.flushSession source request)).run s).2 = u) :
    Advances (sink.published s) (sink.published u) ∧ sink.Watermarked u := by
  obtain ⟨⟨hreads, -⟩, -, hstate⟩ := flushSession_ends hrun buffer
    (@flushWrites_reads _ _ (sink.published s)) (fun _ h _ _ => h) (fun _ _ h _ => h) (Or.inl rfl)
  have hreads : sink.published u = sink.published s ∨ sink.published u =
      some (flushManifest request s.state.manifest).durableAt := hreads
  have hlast : u.state.manifest.lastSeq = s.state.manifest.lastSeq := by
    rcases hstate with hsame | hpublishes
    · rw [hsame]
    · obtain ⟨stats, hpublished⟩ := hpublishes.state
      rw [hpublished]
      rfl
  have hmemory : WithinLast (some u.state.manifest) := by
    rcases hstate with hsame | hpublishes
    · rw [hsame]
      exact h.memory
    · obtain ⟨stats, hpublished⟩ := hpublishes.state
      intro manifest seq hmanifest hseq
      rw [← Option.some.inj hmanifest] at hseq ⊢
      have hrequest : request.lastSeq = seq := by
        rw [hpublished] at hseq
        exact Option.some.inj hseq
      rw [hlast, ← hrequest, hpublishes.seq]
  rcases hreads with hsame | hnew
  · refine h.same hsame hmemory ?_
    rw [hlast]
    exact h.behind
  · -- the flush publishes the last event in memory as durable
    refine Watermarked.new hnew ?_ ?_ hmemory hlast
    · intro manifest seq hmanifest hseq
      exact ⟨_, s.state.manifest.lastSeq, rfl, rfl, h.behind manifest seq hmanifest hseq⟩
    · intro manifest seq hmanifest hseq
      rw [← Option.some.inj hmanifest] at hseq ⊢
      rw [← Option.some.inj hseq]
      exact Nat.le_refl _

/-- A call, however far it gets, advances the watermark and keeps it within bounds. -/
theorem call_watermarked (call : SessionCall) (buffer : s.state.failed = none → s.disk.buffer = [])
    (known : sink.WatermarkKnown s call) (h : sink.Watermarked s) :
    Advances (sink.published s) (sink.published ((sink.call oracle call).run s).2) ∧
      sink.Watermarked ((sink.call oracle call).run s).2 := by
  cases call with
  | emit event => exact emit_watermarked known h rfl
  | flushSession source request => exact flushSession_watermarked buffer h rfl

theorem published_empty (empty : s.disk.volume = .empty) : sink.published s = none := by
  have hnone : s.disk.volume.tree.entry ["manifest.json"] = none := by
    rw [empty]
    exact FileTree.entry_empty.trans (if_neg (by simp))
  unfold published readManifest
  rw [hnone]

/-- In a run in which no emit follows a flush that failed after it had renamed its manifest, the
watermark that readers see only goes up, and never past the last event. -/
theorem watermark_only_advances (sink : DirectorySessionSink) (oracle seen : IoOracle)
    (sessionId : String) (format : FormatMetadata) (spool : Bytes) (first s : LocalSession)
    (call : SessionCall) (never : oracle.horizon = none)
    (created : sink.create sessionId format spool .empty = .ok first)
    (reached : Reached sink oracle sink.WatermarkKnown first s) (known : sink.WatermarkKnown s call) :
    let u := ((sink.call seen call).run s).2
    Advances (sink.published s) (sink.published u) ∧ WithinLast (sink.published u) := by
  have hstart : sink.Watermarked first := by
    have hbegun := create_begun created
    have hnone : sink.published first = none := published_empty (by rw [hbegun.disk])
    refine ⟨?_, ?_, ?_⟩
    · rw [hnone]
      exact fun _ _ h => absurd h (by simp)
    · intro manifest seq hmanifest hseq
      rw [← Option.some.inj hmanifest, hbegun.undurable] at hseq
      exact absurd hseq (by simp)
    · rw [hnone]
      exact fun _ _ h => absurd h (by simp)
  have hholds : s.state.failed = none → sink.SpoolHolds spool s := reached.holds never (create_holds created)
  have hwatermarked : sink.Watermarked s := by
    clear known hholds
    induction reached with
    | created => exact hstart
    | called call reached meet ih =>
      have hbuffer := reached.holds never (create_holds created)
      exact (call_watermarked call (fun h => (hbuffer h).buffer) meet ih).2
  have hcall := @call_watermarked seen sink s call (fun h => (hholds h).buffer) known hwatermarked
  exact ⟨hcall.1, hcall.2.bounded⟩

def unsyncedRename : IoOracle := struckDisk 35 true

def onceEmitted : LocalSession :=
  ((twoEventSink.call unsyncedRename (.emit spooledEvent)).run createdSession).2

def onceFlushed : LocalSession :=
  ((twoEventSink.call unsyncedRename (.flushSession .done flushRequest)).run onceEmitted).2

theorem createdSession_known : twoEventSink.WatermarkKnown createdSession (.emit spooledEvent) := by
  have hnone : twoEventSink.published createdSession = none := published_empty rfl
  refine ⟨?_, fun seq h => absurd h (by simp [createdSession, emittedManifest])⟩
  rw [hnone]
  exact fun _ _ h => absurd h (by simp)

theorem watermark_only_advances_flushed :
    Advances (twoEventSink.published onceEmitted) (twoEventSink.published onceFlushed) := by
  have hcreated : twoEventSink.create "s" exampleFormat [] .empty = .ok createdSession := rfl
  exact (watermark_only_advances twoEventSink unsyncedRename unsyncedRename "s" exampleFormat []
    createdSession onceEmitted (.flushSession .done flushRequest) rfl hcreated
    (.called (.emit spooledEvent) .created createdSession_known) trivial).1

/-- The emit after a flush that failed in its last step publishes a manifest without watermark. -/
theorem watermark_disappears :
    ¬ ∀ (sink : DirectorySessionSink) (oracle seen : IoOracle) (sessionId : String)
      (format : FormatMetadata) (spool : Bytes) (first s : LocalSession) (call : SessionCall),
      oracle.horizon = none → sink.create sessionId format spool .empty = .ok first →
      Reached sink oracle (Coordinated sessionId) first s → Coordinated sessionId s call →
        Advances (sink.published s) (sink.published ((sink.call seen call).run s).2) := by
  intro h
  have hcreated : twoEventSink.create "s" exampleFormat [] .empty = .ok createdSession := rfl
  have hemitted : Reached twoEventSink unsyncedRename (Coordinated "s") createdSession onceEmitted :=
    .called (.emit spooledEvent) .created ⟨rfl, rfl, rfl⟩
  have haccepted : onceEmitted.accepted ≠ [] := by decide +kernel
  have hflushed : Reached twoEventSink unsyncedRename (Coordinated "s") createdSession onceFlushed :=
    .called (.flushSession .done flushRequest) hemitted haccepted
  have hadvances := h twoEventSink unsyncedRename unsyncedRename "s" exampleFormat [] createdSession
    onceFlushed (.emit laterEvent) rfl hcreated hflushed ⟨by decide +kernel, rfl, rfl⟩
  have hbefore : (twoEventSink.published onceFlushed).map SessionManifest.durableSeq = some (some 0) := by
    decide +kernel
  have hafter : (twoEventSink.published
      ((twoEventSink.call unsyncedRename (.emit laterEvent)).run onceFlushed).2).map
        SessionManifest.durableSeq = some none := by
    decide +kernel
  obtain ⟨manifest, hmanifest, hdurable⟩ := Option.map_eq_some_iff.mp hbefore
  obtain ⟨later, seq, hlater, hseq, -⟩ := hadvances manifest 0 hmanifest hdurable
  rw [hlater, Option.map_some, hseq] at hafter
  exact absurd hafter (by simp)

end DirectorySessionSink
end Rrjj
