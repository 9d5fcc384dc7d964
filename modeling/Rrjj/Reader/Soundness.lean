import Rrjj.Reader.Codec

/-! What an opened session is: numbered events up to the watermark, and which session they are of. -/

namespace Rrjj
open Library

def Timeline.event (timeline : Timeline) (seq : ℕ) : Option Event := timeline.events[seq]?

def Session.event (session : Session) (seq : ℕ) : Except ReadError Event :=
  match session.manifest.durableSeq with
  | none => .error .notDurable
  | some durable =>
    if durable < seq then .error (.beyondWatermark seq durable)
    else
      match session.timeline.event seq with
      | some event => .ok event
      | none => .error (.beyondWatermark seq durable)

theorem Recorded.concat {sessionId : String} {events : List Event} {event : Event}
    (h : Recorded sessionId events) (seq : event.seq = events.length) (version : event.v = schemaVersion)
    (session : event.sessionId = sessionId) : Recorded sessionId (events ++ [event]) := by
  intro index other hother
  rcases Nat.lt_trichotomy index events.length with hlt | heq | hgt
  · rw [List.getElem?_append_left hlt] at hother
    exact h index other hother
  · rw [heq, List.getElem?_concat_length] at hother
    rw [← Option.some.inj hother, heq]
    exact ⟨seq, version, session⟩
  · rw [List.getElem?_eq_none] at hother
    · exact nomatch hother
    · rw [List.length_append, List.length_singleton]
      exact hgt

def firstLine (bytes : Bytes) : Option Bytes := (readLines bytes).find? fun line => !isBlankLine line

namespace Timeline
variable {serde : Serde} {bytes line : Bytes} {lines : List Bytes} {number : ℕ} {sessionId : String}
  {events results : List Event} {timeline : Timeline}

theorem readLoop_recorded (recorded : Recorded sessionId events)
    (h : readLoop serde lines number (some sessionId) events = .ok results) :
    Recorded sessionId results := by
  induction lines generalizing number events with
  | nil =>
    rw [readLoop, Except.ok.injEq] at h
    rwa [← h]
  | cons line lines ih =>
    rcases readLoop_cons h with ⟨-, hrest⟩ | ⟨-, -, event, -, hversion, hseq, hsame, hrest⟩
    · exact ih recorded hrest
    · have hsession := hsame sessionId rfl
      rw [← hsession] at hrest
      exact ih (recorded.concat hseq hversion hsession.symm) hrest

theorem readLoop_first (h : readLoop serde lines number none [] = .ok results) :
    results = [] ∨ ∃ line event, (lines.find? fun line => !isBlankLine line) = some line ∧
      serde.fromSlice line = .ok event ∧ Recorded event.sessionId results := by
  induction lines generalizing number with
  | nil =>
    rw [readLoop, Except.ok.injEq] at h
    exact Or.inl h.symm
  | cons line lines ih =>
    -- a blank line is passed over, and the first other one sets the session
    rcases readLoop_cons h with ⟨hblank, hrest⟩ | ⟨hfull, -, event, hread, hversion, hseq, -, hrest⟩
    · rw [List.find?_cons_of_neg (by simp [hblank])]
      exact ih hrest
    · right
      refine ⟨line, event, List.find?_cons_of_pos (by simp [hfull]), hread, ?_⟩
      have hnone : Recorded event.sessionId [] := fun _ _ hnone => absurd hnone (by simp)
      exact readLoop_recorded (hnone.concat hseq hversion rfl) hrest

theorem read_first (h : read serde bytes = .ok timeline) :
    timeline.events = [] ∨ ∃ line event, firstLine bytes = some line ∧
      serde.fromSlice line = .ok event ∧ Recorded event.sessionId timeline.events := by
  obtain ⟨events, hloop, hevents⟩ := bind_ok_iff.mp h
  rw [← Except.ok.inj hevents]
  exact readLoop_first hloop

end Timeline

structure Session.Opened (serde : Serde) (manifests : ManifestSerde) (tree : FileTree) (root : Path)
    (session : Session) : Prop where
  manifest : ∃ bytes, tree.entry (root ++ ["manifest.json"]) = some (.file bytes) ∧
    manifests.fromSlice bytes = .ok session.manifest
  compatible : session.manifest.isCompatible = true
  durable : ∃ seq, session.manifest.durableSeq = some seq ∧
    session.timeline.events.getLast?.map Event.seq = some seq
  events : ∃ data, readObject tree root session.manifest.object = .ok data ∧
    Timeline.read serde data = .ok session.timeline

section
variable {serde : Serde} {manifests : ManifestSerde} {tree : FileTree} {root : Path}
  {session : Session}

theorem Session.open_opened (h : Session.open serde manifests tree root = .ok session) :
    session.Opened serde manifests tree root := by
  obtain ⟨bytes, hbytes, h⟩ := bind_ok_iff.mp h
  split at h
  · exact absurd h (by simp)
  · next manifest hmanifest =>
    split_ifs at h with hcompatible
    split at h
    · exact absurd h (by simp)
    · next seq hseq =>
      obtain ⟨data, hdata, h⟩ := bind_ok_iff.mp h
      obtain ⟨timeline, htimeline, h⟩ := bind_ok_iff.mp h
      obtain ⟨hlast, h⟩ := ite_error_iff.mp h
      rw [← Except.ok.inj h]
      refine ⟨⟨bytes, readFile_ok_iff.mp hbytes, hmanifest⟩, by simpa using hcompatible, ?_, ?_⟩
      · exact ⟨seq, hseq, not_not.mp hlast⟩
      · exact ⟨data, hdata, htimeline⟩

/-- The session has all its events up to the watermark, and they are its own. -/
structure Session.Sound (session : Session) : Prop where
  compatible : session.manifest.isCompatible = true
  durable : ∃ seq, session.manifest.durableSeq = some seq ∧
    session.timeline.events.length = seq + 1 ∧
    (∀ s ≤ seq, ∃ event, session.event s = .ok event ∧ event.seq = s) ∧
    ∀ s, seq < s → session.event s = .error (.beyondWatermark s seq)
  recorded : Recorded session.manifest.sessionId session.timeline.events

/-- The first event in the object that a manifest names is of the session of the manifest. -/
def OwnEvents (serde : Serde) (manifests : ManifestSerde) (tree : FileTree) (root : Path) : Prop :=
  ∀ bytes manifest data line event, tree.entry (root ++ ["manifest.json"]) = some (.file bytes) →
    manifests.fromSlice bytes = .ok manifest → readObject tree root manifest.object = .ok data →
    firstLine data = some line → serde.fromSlice line = .ok event →
      event.sessionId = manifest.sessionId

theorem Session.event_le {seq s : ℕ} {event : Event} (durable : session.manifest.durableSeq = some seq)
    (le : s ≤ seq) (h : session.timeline.events[s]? = some event) : session.event s = .ok event := by
  unfold Session.event Timeline.event
  simp only [durable, h, if_neg (Nat.not_lt.mpr le)]

theorem Session.event_beyond {seq s : ℕ} (durable : session.manifest.durableSeq = some seq)
    (beyond : seq < s) : session.event s = .error (.beyondWatermark s seq) := by
  unfold Session.event
  simp only [durable, if_pos beyond]

/-- An opened session is sound exactly when its events are those of its manifest's session. -/
theorem opened_session_sound_iff (serde : Serde) (manifests : ManifestSerde) (tree : FileTree)
    (root : Path) (session : Session) (opened : Session.open serde manifests tree root = .ok session) :
    session.Sound ↔ OwnEvents serde manifests tree root := by
  obtain ⟨⟨bytes, hbytes, hmanifest⟩, hcompatible, ⟨seq, hdurable, hlast⟩, data, hdata, hread⟩ :=
    Session.open_opened opened
  obtain ⟨last, hlastEvent, hlastSeq⟩ := Option.map_eq_some_iff.mp hlast
  have hne : session.timeline.events ≠ [] := by
    intro hnone
    rw [hnone] at hlastEvent
    exact nomatch hlastEvent
  obtain ⟨line, event, hline, hevent, hrecorded⟩ := (Timeline.read_first hread).resolve_left hne
  have hlength : session.timeline.events.length = seq + 1 := by
    rw [List.getLast?_eq_getElem?] at hlastEvent
    have hseq := (hrecorded _ last hlastEvent).1
    have hpos : 0 < session.timeline.events.length := List.length_pos_iff.mpr hne
    omega
  have hfirst := List.getElem?_eq_getElem (List.length_pos_iff.mpr hne)
  constructor
  · intro hsound bytes' manifest' data' line' event' hbytes' hmanifest' hdata' hline' hevent'
    have hsame : bytes = bytes' := by
      rw [hbytes] at hbytes'
      simpa using hbytes'
    rw [← hsame, hmanifest] at hmanifest'
    have hown : session.manifest = manifest' := Except.ok.inj hmanifest'
    rw [← hown, hdata] at hdata'
    have hobject : data = data' := Except.ok.inj hdata'
    rw [← hobject, hline] at hline'
    rw [← Option.some.inj hline', hevent] at hevent'
    rw [← Except.ok.inj hevent', ← hown]
    exact (hrecorded 0 _ hfirst).2.2.symm.trans (hsound.recorded 0 _ hfirst).2.2
  · -- the first event names the session of all of them
    intro hown
    have hsession := hown bytes session.manifest data line event hbytes hmanifest hdata hline hevent
    rw [hsession] at hrecorded
    refine ⟨hcompatible, ⟨seq, hdurable, hlength, ?_, ?_⟩, hrecorded⟩
    · intro s hs
      have hlt : s < session.timeline.events.length := by omega
      have hat := List.getElem?_eq_getElem hlt
      exact ⟨_, Session.event_le hdurable hs hat, (hrecorded s _ hat).1⟩
    · intro s hs
      exact Session.event_beyond hdurable hs

end

def singleManifest (sessionId : String) : SessionManifest where
  sessionId := sessionId
  format := ⟨1, 0, "0.1.0", "0.43.0", "jj-lib-0.43.0/git"⟩
  lastSeq := 0
  lastOp := "op:a"
  eventsObject := some "events.ndjson"
  durableSeq := some 0
  durableOp := some "op:a"
  storage := none

def pairManifest : SessionManifest := { singleManifest "s" with lastSeq := 1, durableSeq := some 1 }

def manifestText (sessionId last : String) : Bytes :=
  utf8 ("\x7b\"session_id\":\"" ++ sessionId ++ "\",\"format\":\x7b\"session_format\":1," ++
    "\"schema_version\":0,\"rrjj_version\":\"0.1.0\",\"jj_lib_version\":\"0.43.0\"," ++
    "\"jj_store_version\":\"jj-lib-0.43.0/git\"\x7d,\"last_seq\":" ++ last ++
    ",\"last_op\":\"op:a\",\"events_object\":\"events.ndjson\",\"durable_seq\":" ++ last ++
    ",\"durable_op\":\"op:a\"\x7d")

def exampleManifests : ManifestSerde :=
  .ofTable [(singleManifest "s", manifestText "s" "0"), (singleManifest "t", manifestText "t" "0"),
    (pairManifest, manifestText "s" "1")] (by decide +kernel)

def publishedTree (manifest events : Bytes) : FileTree :=
  ((FileTree.empty.put ["s"] .dir).put ["s", "manifest.json"] (.file manifest)).put
    ["s", "events.ndjson"] (.file events)

theorem singleTree_opens :
    Session.open twoEventSerde exampleManifests
        (publishedTree (manifestText "t" "0") (joinLines [spooledText])) ["s"] =
      .ok ⟨singleManifest "t", ⟨[spooledEvent]⟩⟩ := by
  decide +kernel

theorem pairTree_opens :
    Session.open twoEventSerde exampleManifests
        (publishedTree (manifestText "s" "1") (joinLines [spooledText] ++ laterText)) ["s"] =
      .ok ⟨pairManifest, ⟨[spooledEvent, laterEvent]⟩⟩ ∧
    ∀ session, Session.open twoEventSerde exampleManifests (publishedTree (manifestText "s" "1")
      (joinLines [spooledText] ++ laterText.take 9)) ["s"] ≠ .ok session := by
  constructor
  · decide +kernel
  · intro session hopen
    have hfails : (Session.open twoEventSerde exampleManifests (publishedTree (manifestText "s" "1")
        (joinLines [spooledText] ++ laterText.take 9)) ["s"]).isOk = false := by decide +kernel
    rw [hopen] at hfails
    cases hfails

theorem opened_session_sound_iff_own :
    Session.Sound ⟨pairManifest, ⟨[spooledEvent, laterEvent]⟩⟩ ↔ OwnEvents twoEventSerde
      exampleManifests (publishedTree (manifestText "s" "1") (joinLines [spooledText] ++ laterText)) ["s"] :=
  opened_session_sound_iff twoEventSerde exampleManifests _ ["s"] _ pairTree_opens.1

/-- The events of one session are opened under the manifest of another. -/
theorem foreign_events_open :
    ¬ ∀ serde manifests tree root session, Session.open serde manifests tree root = .ok session →
      session.Sound := by
  intro h
  have hsound := h twoEventSerde exampleManifests _ _ _ singleTree_opens
  have hsession := (hsound.recorded 0 spooledEvent rfl).2.2
  exact absurd hsession (by decide)

end Rrjj
