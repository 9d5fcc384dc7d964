import Rrjj.Reader.Timeline
import Rrjj.Sinks.SpoolIntegrity

/-! The events objects of a session directory: what each of them holds, at every point of the
calls that publish them. -/

namespace Rrjj
open Library Library.Proc

theorem paddedDigits_lt {seq digit : ℕ} (h : digit ∈ paddedDigits seq) : digit < 10 := by
  rcases List.mem_append.mp h with hdigit | hzero
  · exact Nat.digits_lt_base (by decide) hdigit
  · rw [List.eq_of_mem_replicate hzero]
    decide

theorem ofDigits_paddedDigits (seq : ℕ) : Nat.ofDigits 10 (paddedDigits seq) = seq := by
  unfold paddedDigits
  rw [Nat.ofDigits_append_replicate_zero, Nat.ofDigits_digits]

theorem digitChar_value {digit : ℕ} (h : digit < 10) : digit.digitChar.toNat - 48 = digit := by
  have hall : ∀ d < 10, d.digitChar.toNat - 48 = d := by decide
  exact hall digit h

theorem eventsName_injective : Function.Injective eventsName := by
  intro seq other h
  have hlist := congrArg String.toList h
  unfold eventsName at hlist
  rw [String.toList_append, String.toList_append] at hlist
  have hdigits := List.append_cancel_right hlist
  rw [String.toList_ofList, String.toList_ofList] at hdigits
  have hvalues : ∀ seq, ((paddedDigits seq).reverse.map Nat.digitChar).map (fun c => c.toNat - 48) =
      (paddedDigits seq).reverse := by
    intro seq
    rw [List.map_map]
    refine (List.map_congr_left fun digit hmem => ?_).trans (List.map_id _)
    exact digitChar_value (paddedDigits_lt (List.mem_reverse.mp hmem))
  have hreversed := congrArg (List.map fun c => c.toNat - 48) hdigits
  rw [hvalues, hvalues, List.reverse_inj] at hreversed
  have hvalue := congrArg (Nat.ofDigits 10) hreversed
  rw [ofDigits_paddedDigits, ofDigits_paddedDigits] at hvalue
  exact hvalue

theorem eventsPath_injective : Function.Injective eventsPath := by
  intro seq other h
  unfold eventsPath at h
  rw [List.cons_inj_right, List.singleton_inj] at h
  exact eventsName_injective h

theorem digitChar_ne_slash {digit : ℕ} (h : digit < 10) : digit.digitChar ≠ '/' := by
  have hall : ∀ d < 10, d.digitChar ≠ '/' := by decide
  exact hall digit h

theorem eventsObject_parts (seq : ℕ) :
    (eventsObject seq).toList.splitOn '/' = ["events".toList, (eventsName seq).toList] := by
  have hname : '/' ∉ (eventsName seq).toList := by
    unfold eventsName
    rw [String.toList_append, String.toList_ofList, List.mem_append]
    rintro (hdigit | hsuffix)
    · obtain ⟨digit, hmem, hchar⟩ := List.mem_map.mp hdigit
      exact digitChar_ne_slash (paddedDigits_lt (List.mem_reverse.mp hmem)) hchar
    · exact absurd hsuffix (by decide)
  have hevents : '/' ∉ "events".toList := by decide
  have hobject : (eventsObject seq).toList = "events".toList ++ '/' :: (eventsName seq).toList := by
    unfold eventsObject
    rw [String.toList_append]
    rfl
  rw [hobject, List.splitOn_append_cons_self, List.splitOn_eq_singleton hevents,
    List.splitOn_eq_singleton hname, List.singleton_append]

theorem eventsName_length (seq : ℕ) : 7 ≤ (eventsName seq).toList.length := by
  unfold eventsName
  rw [String.toList_append, List.length_append]
  exact Nat.le_add_left _ _

theorem resolvePart_name {tree : FileTree} {place : Path} {name : String}
    (long : 2 < name.toList.length) : resolvePart tree place name.toList =
      if tree.entry place ≠ some .dir then none else some (place ++ [name]) := by
  have hempty : ¬ (name.toList = [] ∨ name.toList = ['.']) := by
    rintro (h | h) <;> rw [h] at long <;> exact absurd long (by decide)
  have hparent : name.toList ≠ ['.', '.'] := by
    intro h
    rw [h] at long
    exact absurd long (by decide)
  unfold resolvePart
  rw [if_neg hempty, if_neg hparent, String.ofList_toList]

theorem readObject_eventsObject {tree : FileTree} {seq : ℕ} {data : Bytes} :
    readObject tree [] (eventsObject seq) = .ok data ↔
      tree.entry (eventsPath seq) = some (.file data) := by
  have hroot : tree.entry [] = some .dir := tree.root
  have hhead : (eventsObject seq).toList.head? ≠ some '/' := by
    unfold eventsObject
    rw [String.toList_append, List.head?_append_of_ne_nil _ (by decide)]
    decide
  have hpath : objectPath tree [] (eventsObject seq) =
      if tree.entry ["events"] ≠ some .dir then none else some (eventsPath seq) := by
    unfold objectPath
    rw [eventsObject_parts, if_neg hhead, List.foldlM_cons, resolvePart_name (by decide),
      if_neg (not_not.mpr hroot)]
    change List.foldlM (resolvePart tree) ["events"] [(eventsName seq).toList] = _
    rw [List.foldlM_cons, resolvePart_name (Nat.lt_of_lt_of_le (by decide) (eventsName_length seq))]
    split_ifs <;> rfl
  unfold readObject
  rw [hpath]
  by_cases hdir : tree.entry ["events"] = some .dir
  · rw [if_neg (not_not.mpr hdir)]
    exact readFile_ok_iff
  · rw [if_pos hdir]
    constructor
    · intro h
      cases h
    · intro h
      have hevents := tree.rooted ["events"] (eventsName seq) (ne_of_eq_of_ne h (Option.some_ne_none _))
      exact absurd hevents hdir

namespace DirectorySessionSink
variable {oracle : IoOracle} {sink : DirectorySessionSink} {first s u : LocalSession} {event : Event}
  {accepted events : List Event} {sessionId : String} {format : FormatMetadata} {text : Bytes}

/-- Events are numbered in the order in which they are accepted, and nothing is flushed before
the first. -/
def Coordinated (sessionId : String) (s : LocalSession) : SessionCall → Prop
  | .emit event =>
    event.seq = s.accepted.length ∧ event.v = schemaVersion ∧ event.sessionId = sessionId
  | .flushSession _ _ => s.accepted ≠ []

structure Numbering (sessionId : String) (format : FormatMetadata) (s : LocalSession) : Prop where
  recorded : Recorded sessionId s.accepted
  last : s.accepted ≠ [] → s.state.manifest.lastSeq + 1 = s.accepted.length
  session : s.state.manifest.sessionId = sessionId
  format : s.state.manifest.format = format

theorem recorded_append (recorded : Recorded sessionId events) (seq : event.seq = events.length)
    (version : event.v = schemaVersion) (session : event.sessionId = sessionId) :
    Recorded sessionId (events ++ [event]) := by
  intro index other h
  rcases lt_trichotomy index events.length with hlt | heq | hgt
  · rw [List.getElem?_append_left hlt] at h
    exact recorded index other h
  · rw [heq, List.getElem?_concat_length, Option.some_inj] at h
    rw [← h, heq]
    exact ⟨seq, version, session⟩
  · rw [List.getElem?_eq_none (by simpa using hgt)] at h
    exact absurd h (by simp)

theorem recorded_take (recorded : Recorded sessionId events) (count : ℕ) :
    Recorded sessionId (events.take count) := by
  intro index event h
  obtain ⟨hlt, heq⟩ := List.getElem?_eq_some_iff.mp h
  apply recorded
  rw [List.getElem_take] at heq
  exact List.getElem?_eq_some_iff.mpr ⟨_, heq⟩

theorem create_numbering {base : Bytes} {volume : Volume}
    (created : sink.create sessionId format base volume = .ok s) : Numbering sessionId format s := by
  have hbegun := create_begun created
  refine ⟨?_, fun hne => absurd hbegun.accepted hne, hbegun.session, hbegun.format⟩
  rw [hbegun.accepted]
  exact fun index event h => absurd h (by simp)

theorem Accepts.numbering (accepts : sink.Accepts event s u)
    (coordinated : Coordinated sessionId s (.emit event)) (h : Numbering sessionId format s) :
    Numbering sessionId format u := by
  obtain ⟨hseq, hversion, hsession⟩ := coordinated
  obtain ⟨line, -, -, -, hstate⟩ := accepts.line
  refine ⟨?_, fun _ => ?_, ?_, ?_⟩
  · rw [accepts.accepted]
    exact recorded_append h.recorded hseq hversion hsession
  · rw [hstate, accepts.accepted, List.length_append, List.length_singleton, ← hseq]
    rfl
  · rw [hstate]
    exact h.session
  · rw [hstate]
    exact h.format

theorem Publishes.numbering {request : FlushRequest} (publishes : sink.Publishes request s u)
    (h : Numbering sessionId format s) : Numbering sessionId format u := by
  obtain ⟨stats, hstate⟩ := publishes.state
  refine ⟨?_, ?_, ?_, ?_⟩
  · rw [publishes.accepted]
    exact h.recorded
  · rw [publishes.accepted, hstate]
    exact h.last
  · rw [hstate]
    exact h.session
  · rw [hstate]
    exact h.format

def Objects (sink : DirectorySessionSink) (first : LocalSession) (accepted : List Event) (σ : Shape) :
    Prop :=
  ∀ seq, σ.entry (eventsPath seq) = first.disk.volume.tree.entry (eventsPath seq) ∨
    first.disk.volume.tree.entry (eventsPath seq) = none ∧ seq < accepted.length ∧
      ∃ text, sink.textOf (accepted.take (seq + 1)) = .ok text ∧
        σ.entry (eventsPath seq) = some (.file (first.disk.spool ++ text))

theorem Objects.append {σ : Shape} (h : sink.Objects first accepted σ) (event : Event) :
    sink.Objects first (accepted ++ [event]) σ := by
  intro seq
  rcases h seq with hsame | ⟨hnone, hlt, text, htext, hentry⟩
  · exact Or.inl hsame
  · refine Or.inr ⟨hnone, ?_, text, ?_, hentry⟩
    · rw [List.length_append]
      omega
    · rw [List.take_append_of_le_length hlt]
      exact htext

theorem objects_guards {manifests : ManifestSerde} {manifest : SessionManifest}
    (last : manifest.lastSeq + 1 = accepted.length) (written : sink.textOf accepted = .ok text) :
    Guards (fun σ => sink.Objects first accepted σ ∧ σ.spool = first.disk.spool ++ text)
      (FlushWrites manifests manifest) := by
  rintro σ path e ⟨hobjects, hspool⟩ hwrites
  refine ⟨fun seq => ?_, hspool⟩
  by_cases hpath : eventsPath seq = path
  · subst hpath
    obtain ⟨hsame, hnone, he⟩ := hwrites.object_inv
    have hseq : seq = manifest.lastSeq := eventsPath_injective hsame
    have hfirst : first.disk.volume.tree.entry (eventsPath seq) = none := by
      rcases hobjects seq with hkept | ⟨-, -, other, -, hother⟩
      · rw [← hkept]
        exact hnone
      · rw [hnone] at hother
        exact absurd hother (by simp)
    apply Or.inr
    refine ⟨hfirst, by omega, text, ?_, ?_⟩
    · rw [hseq, last, List.take_length]
      exact written
    · rw [Shape.entry_update, he, hspool]
  · rw [Shape.entry_update_ne σ e hpath]
    exact hobjects seq

theorem objects_manifest_guards {manifests : ManifestSerde} {manifest : SessionManifest} :
    Guards (sink.Objects first accepted) (ManifestWrites manifests manifest) := by
  intro σ path e h hwrites seq
  have hpath : eventsPath seq ≠ path := by
    cases hwrites with
    | temporary e => simp [eventsPath]
    | manifest bytes written => simp [eventsPath]
  rw [Shape.entry_update_ne σ e hpath]
  exact h seq

theorem call_objects_hold (call : SessionCall) (coordinated : Coordinated sessionId s call)
    (holds : s.state.failed = none → sink.SpoolHolds first.disk.spool s)
    (numbering : Numbering sessionId format s)
    (objects : sink.Objects first s.accepted s.disk.shape) :
    sink.Objects first ((sink.call oracle call).run s).2.accepted
      ((sink.call oracle call).run s).2.disk.shape := by
  rcases hfailed : s.state.failed with _ | message
  · cases call with
    | emit event =>
      generalize hrun : ((sink.call oracle (.emit event)).run s).2 = u
      have hgrown : sink.Objects first (s.accepted ++ [event]) s.disk.shape := objects.append event
      rcases emit_ends (I := sink.Objects first (s.accepted ++ [event])) hrun
        (fun _ _ => objects_manifest_guards) fun _ _ => hgrown with huntouched | ⟨haccepts, hholds⟩
      · have hentry : u.disk.shape.entry = s.disk.shape.entry := by
          unfold Disk.shape
          rw [huntouched.tree.1]
        intro seq
        rw [huntouched.accepted, hentry]
        exact objects seq
      · rw [haccepts.accepted]
        exact hholds
    | flushSession source request =>
      generalize hrun : ((sink.call oracle (.flushSession source request)).run s).2 = u
      obtain ⟨text, htext, hspool⟩ := (holds hfailed).text
      have hlast := numbering.last coordinated
      obtain ⟨⟨⟨hobjects, -⟩, -⟩, haccepted, -⟩ :=
        flushSession_ends (I := fun σ => sink.Objects first s.accepted σ ∧ σ.spool = first.disk.spool ++ text)
          hrun (fun h => (holds h).buffer) (objects_guards hlast htext) (fun _ h _ _ => h)
          (fun _ _ h _ => h) ⟨objects, hspool⟩
      rw [haccepted]
      exact hobjects
  · rw [call_refused hfailed]
    exact objects

theorem call_numbering (call : SessionCall) (coordinated : Coordinated sessionId s call)
    (buffer : s.state.failed = none → s.disk.buffer = []) (numbering : Numbering sessionId format s) :
    Numbering sessionId format ((sink.call oracle call).run s).2 := by
  cases call with
  | emit event =>
    generalize hrun : ((sink.call oracle (.emit event)).run s).2 = u
    rcases emit_ends hrun (fun _ _ => guards_true) fun _ _ => trivial with huntouched | ⟨haccepts, -⟩
    · refine ⟨?_, ?_, ?_, ?_⟩
      · rw [huntouched.accepted]
        exact numbering.recorded
      · rw [huntouched.accepted, huntouched.manifest]
        exact numbering.last
      · rw [huntouched.manifest]
        exact numbering.session
      · rw [huntouched.manifest]
        exact numbering.format
    · exact haccepts.numbering coordinated numbering
  | flushSession source request =>
    generalize hrun : ((sink.call oracle (.flushSession source request)).run s).2 = u
    obtain ⟨-, haccepted, hstate | hpublishes⟩ := flushSession_ends hrun buffer guards_true
      (fun _ _ _ _ => trivial) (fun _ _ _ _ => trivial) trivial
    · refine ⟨?_, ?_, ?_, ?_⟩
      · rw [haccepted]
        exact numbering.recorded
      · rw [haccepted, hstate]
        exact numbering.last
      · rw [hstate]
        exact numbering.session
      · rw [hstate]
        exact numbering.format
    · exact hpublishes.numbering numbering

structure Kept (sink : DirectorySessionSink) (sessionId : String) (format : FormatMetadata)
    (first s : LocalSession) : Prop where
  holds : s.state.failed = none → sink.SpoolHolds first.disk.spool s
  numbering : Numbering sessionId format s
  objects : sink.Objects first s.accepted s.disk.shape

theorem Reached.kept {base : Bytes} {volume : Volume} {meets : LocalSession → SessionCall → Prop}
    (never : oracle.horizon = none)
    (created : sink.create sessionId format base volume = .ok first)
    (coordinated : ∀ s call, meets s call → Coordinated sessionId s call)
    (reached : Reached sink oracle meets first s) : sink.Kept sessionId format first s := by
  have hstart : sink.SpoolHolds first.disk.spool first := by
    rw [(create_begun created).disk]
    exact create_holds created
  induction reached with
  | created => exact ⟨fun _ => hstart, create_numbering created, fun _ => Or.inl rfl⟩
  | @called s call reached meet ih =>
    refine ⟨fun h => call_holds never call ih.holds h, ?_, ?_⟩
    · exact call_numbering call (coordinated s call meet) (fun h => (ih.holds h).buffer) ih.numbering
    · exact call_objects_hold call (coordinated s call meet) ih.holds ih.numbering ih.objects

end DirectorySessionSink

section
variable {serde : Serde} {manifests : ManifestSerde} {tree : FileTree} {bytes : Bytes}
  {manifest : SessionManifest} {seq : ℕ} {session : Session}

theorem open_ok_iff (entry : tree.entry ["manifest.json"] = some (.file bytes))
    (read : manifests.fromSlice bytes = .ok manifest) (compatible : manifest.isCompatible = true)
    (durable : manifest.durableSeq = some seq) (object : manifest.eventsObject = some (eventsObject seq)) :
    Session.open serde manifests tree [] = .ok session ↔ ∃ data timeline,
      tree.entry (eventsPath seq) = some (.file data) ∧ Timeline.read serde data = .ok timeline ∧
        timeline.events.getLast?.map Event.seq = some seq ∧ session = ⟨manifest, timeline⟩ := by
  have hopen : Session.open serde manifests tree [] = Session.openTimeline serde tree [] manifest seq := by
    unfold Session.open readFile
    simp only [List.nil_append, entry, Bind.bind, Except.bind, read, compatible, durable, Bool.not_true,
      Bool.false_eq_true, if_false]
  have hobject : manifest.object = eventsObject seq := by
    unfold SessionManifest.object
    rw [object]
    rfl
  rw [hopen]
  unfold Session.openTimeline
  rw [bind_ok_iff, hobject]
  constructor
  · rintro ⟨data, hdata, h⟩
    obtain ⟨timeline, htimeline, h⟩ := bind_ok_iff.mp h
    obtain ⟨hlast, h⟩ := ite_error_iff.mp h
    exact ⟨data, timeline, readObject_eventsObject.mp hdata, htimeline, not_not.mp hlast,
      (Except.ok.inj h).symm⟩
  · rintro ⟨data, timeline, hentry, htimeline, hlast, rfl⟩
    refine ⟨data, readObject_eventsObject.mpr hentry, bind_ok_iff.mpr ⟨timeline, htimeline, ?_⟩⟩
    simp only [hlast, ne_eq, not_true_eq_false, if_false]
    rfl

end
end Rrjj
