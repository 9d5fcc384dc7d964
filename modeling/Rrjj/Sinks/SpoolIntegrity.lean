import Rrjj.Sinks.LocalCalls

/-! The spool of the local sink holds the lines of the accepted events and nothing else, for as
long as the sink has not failed, and only such lines are ever published. -/

namespace Rrjj
open Library Library.Proc

namespace DirectorySessionSink

def textOf (sink : DirectorySessionSink) (events : List Event) : Except SinkError Bytes := do
  let lines ← events.mapM sink.lineOf
  return lines.flatten

variable {oracle : IoOracle} {sink : DirectorySessionSink} {s : LocalSession} {event : Event}
  {base text line : Bytes} {events : List Event}

theorem textOf_ok_iff :
    sink.textOf events = .ok text ↔ ∃ lines, events.mapM sink.lineOf = .ok lines ∧ lines.flatten = text := by
  unfold textOf
  rw [bind_ok_iff]
  constructor
  · rintro ⟨lines, hlines, h⟩
    exact ⟨lines, hlines, Except.ok.inj h⟩
  · rintro ⟨lines, hlines, rfl⟩
    exact ⟨lines, hlines, rfl⟩

theorem textOf_nil : sink.textOf [] = .ok [] := rfl

theorem textOf_append (written : sink.textOf events = .ok text) (next : sink.lineOf event = .ok line) :
    sink.textOf (events ++ [event]) = .ok (text ++ line) := by
  obtain ⟨lines, hlines, rfl⟩ := textOf_ok_iff.mp written
  refine textOf_ok_iff.mpr ⟨lines ++ [line], ?_, ?_⟩
  · rw [List.mapM_append, hlines, List.mapM_cons, next]
    rfl
  · rw [List.flatten_append, List.flatten_singleton]

structure SpoolHolds (sink : DirectorySessionSink) (base : Bytes) (s : LocalSession) : Prop where
  text : ∃ text, sink.textOf s.accepted = .ok text ∧ s.disk.spool = base ++ text
  bytes : s.disk.spool.length = s.state.spoolBytes
  room : s.state.spoolBytes ≤ sink.maxSpoolBytes
  buffer : s.disk.buffer = []

structure Begun (sink : DirectorySessionSink) (sessionId : String) (format : FormatMetadata)
    (base : Bytes) (volume : Volume) (s : LocalSession) : Prop where
  disk : s.disk = { volume := volume, spool := base }
  accepted : s.accepted = []
  bytes : s.state.spoolBytes = base.length
  room : base.length ≤ sink.maxSpoolBytes
  session : s.state.manifest.sessionId = sessionId
  format : s.state.manifest.format = format
  undurable : s.state.manifest.durableSeq = none

theorem create_begun {sessionId : String} {format : FormatMetadata} {volume : Volume}
    (created : sink.create sessionId format base volume = .ok s) :
    sink.Begun sessionId format base volume s := by
  unfold create at created
  split_ifs at created with hfull
  rw [← Except.ok.inj created]
  exact ⟨rfl, rfl, rfl, not_lt.mp hfull, rfl, rfl, rfl⟩

theorem create_holds {sessionId : String} {format : FormatMetadata} {volume : Volume}
    (created : sink.create sessionId format base volume = .ok s) : sink.SpoolHolds base s := by
  have hbegun := create_begun created
  refine ⟨⟨[], ?_, ?_⟩, ?_, ?_, ?_⟩
  · rw [hbegun.accepted, textOf_nil]
  · rw [hbegun.disk, List.append_nil]
  · rw [hbegun.disk, hbegun.bytes]
  · rw [hbegun.bytes]
    exact hbegun.room
  · rw [hbegun.disk]

theorem Accepts.holds {u : LocalSession} (accepts : sink.Accepts event s u)
    (h : sink.SpoolHolds base s) : sink.SpoolHolds base u := by
  obtain ⟨line, hline, hroom, hspool, hstate⟩ := accepts.line
  obtain ⟨text, htext, hheld⟩ := h.text
  rw [h.buffer, List.append_nil, hheld] at hspool
  have hbytes : u.state.spoolBytes = s.state.spoolBytes + line.length := by
    rw [hstate]
    rfl
  refine ⟨⟨text ++ line, ?_, ?_⟩, ?_, ?_, accepts.buffer⟩
  · rw [accepts.accepted]
    exact textOf_append htext hline
  · rw [hspool, List.append_assoc]
  · rw [hspool, List.length_append, ← hheld, h.bytes, hbytes]
  · rw [hbytes]
    exact hroom

theorem SpoolHolds.of_same {u : LocalSession} (h : sink.SpoolHolds base s)
    (accepted : u.accepted = s.accepted) (bytes : u.state.spoolBytes = s.state.spoolBytes)
    (same : Disk.SameSpool s.disk u.disk.shape) : sink.SpoolHolds base u := by
  have hspool : u.disk.spool = s.disk.spool := same.1
  refine ⟨?_, ?_, ?_, ?_⟩
  · rw [accepted, hspool]
    exact h.text
  · rw [hspool, bytes]
    exact h.bytes
  · rw [bytes]
    exact h.room
  · exact same.2.trans h.buffer

theorem Publishes.failed {request : FlushRequest} {u : LocalSession}
    (publishes : sink.Publishes request s u) : u.state.failed = s.state.failed := by
  obtain ⟨stats, hstate⟩ := publishes.state
  rw [hstate]
  rfl

theorem Publishes.spoolBytes {request : FlushRequest} {u : LocalSession}
    (publishes : sink.Publishes request s u) : u.state.spoolBytes = s.state.spoolBytes := by
  obtain ⟨stats, hstate⟩ := publishes.state
  rw [hstate]
  rfl

theorem guards_true {A : Shape → Path → Option Entry → Prop} : Guards (fun _ => True) A :=
  fun _ _ _ _ _ => trivial

theorem call_holds (never : oracle.horizon = none) (call : SessionCall)
    (h : s.state.failed = none → sink.SpoolHolds base s)
    (failed : ((sink.call oracle call).run s).2.state.failed = none) :
    sink.SpoolHolds base ((sink.call oracle call).run s).2 := by
  cases call with
  | emit event =>
    have hemit : Triple (fun u => u = s) (sink.emit oracle event) _
        (EmitFails oracle sink event (fun _ => True) s) :=
      emit_triple (fun _ _ => guards_true) fun _ _ => trivial
    change ((sink.emit oracle event).run s).2.state.failed = none at failed
    change sink.SpoolHolds base ((sink.emit oracle event).run s).2
    rcases (hemit s rfl).outcome with ⟨-, -, haccepts, -⟩ | ⟨-, hfails⟩
    · exact haccepts.holds (h haccepts.working)
    · generalize ((sink.emit oracle event).run s).2 = u at hfails failed
      cases hfails with
      | refused => exact h failed
      | broken untouched hfailed => exact absurd failed (hfailed never)
      | seen accepts holds cut => exact absurd never cut
  | flushSession source request =>
    have hflush : Triple (fun u => u = s) (sink.flushSession oracle source request) _ _ :=
      flushSession_triple (fun hnone => (h hnone).buffer) guards_true (fun _ _ _ _ => trivial)
        (fun _ _ _ _ => trivial) trivial
    change ((sink.flushSession oracle source request).run s).2.state.failed = none at failed
    change sink.SpoolHolds base ((sink.flushSession oracle source request).run s).2
    rcases (hflush s rfl).outcome with ⟨-, -, hpublishes, -, hspool⟩ | ⟨-, ⟨-, hspool⟩, hsame⟩
    · rw [hpublishes.failed] at failed
      exact (h failed).of_same hpublishes.accepted hpublishes.spoolBytes hspool
    · rw [hsame] at failed
      apply (h failed).of_same _ _ hspool
      · rw [hsame]
      · rw [hsame]

theorem Reached.holds {meets : LocalSession → SessionCall → Prop} {first : LocalSession}
    (never : oracle.horizon = none) (reached : Reached sink oracle meets first s)
    (start : sink.SpoolHolds base first) (failed : s.state.failed = none) :
    sink.SpoolHolds base s := by
  induction reached with
  | created => exact start
  | called call reached meet ih => exact call_holds never call ih failed

theorem call_refused {message : String} (failed : s.state.failed = some message)
    (call : SessionCall) : (sink.call oracle call).run s = (.error (.failed message), s) := by
  have hcheck : checkFailed s.state = .error (.failed message) := by
    unfold checkFailed
    rw [failed]
  cases call with
  | emit event => simp only [DirectorySessionSink.call, emit, run_bind, run_get, hcheck, run_ofExcept_error]
  | flushSession source request =>
    simp only [DirectorySessionSink.call, flushSession, flush, run_bind, run_get, hcheck,
      run_ofExcept_error]

theorem Reached.stays_failed {meets : LocalSession → SessionCall → Prop} {first : LocalSession}
    {message : String} (reached : Reached sink oracle meets first s)
    (failed : first.state.failed = some message) : s = first := by
  induction reached with
  | created => rfl
  | called call reached meet ih =>
    rw [ih, call_refused failed]

theorem emit_fails (never : oracle.horizon = none) {failure : SinkError} {u : LocalSession}
    (run : (sink.emit oracle event).run s = (.error failure, u)) (step : u.disk.clock ≠ s.disk.clock) :
    u.state.failed ≠ none := by
  have hemit : Triple (fun u => u = s) (sink.emit oracle event) _
      (EmitFails oracle sink event (fun _ => True) s) :=
    emit_triple (fun _ _ => guards_true) fun _ _ => trivial
  have hends := hemit s rfl
  rw [run] at hends
  change EmitFails oracle sink event (fun _ => True) s u at hends
  cases hends with
  | refused => exact absurd rfl step
  | broken untouched hfailed => exact hfailed never
  | seen accepts holds cut => exact absurd never cut

def ObjectsOf (s : LocalSession) (σ : Shape) : Prop :=
  σ.spool = s.disk.spool ∧ ∀ seq, σ.entry (eventsPath seq) = s.disk.volume.tree.entry (eventsPath seq) ∨
    σ.entry (eventsPath seq) = some (.file s.disk.spool)

theorem objectsOf_guards {manifests : ManifestSerde} {manifest : SessionManifest} :
    Guards (ObjectsOf s) (FlushWrites manifests manifest) := by
  rintro σ path e ⟨hspool, hobjects⟩ hwrites
  refine ⟨hspool, fun seq => ?_⟩
  by_cases hpath : eventsPath seq = path
  · subst hpath
    rw [Shape.entry_update, hwrites.object_inv.2.2, hspool]
    exact Or.inr rfl
  · rw [Shape.entry_update_ne σ e hpath]
    exact hobjects seq

/-- However far a call gets, it publishes nothing of the spool but what `s` has in it. -/
theorem call_objects (call : SessionCall) (h : s.state.failed = none → sink.SpoolHolds base s) (seq : ℕ) :
    ((sink.call oracle call).run s).2.disk.volume.tree.entry (eventsPath seq) =
        s.disk.volume.tree.entry (eventsPath seq) ∨
      s.state.failed = none ∧
        ((sink.call oracle call).run s).2.disk.volume.tree.entry (eventsPath seq) =
          some (.file s.disk.spool) := by
  rcases hfailed : s.state.failed with _ | message
  · have hholds := h hfailed
    cases call with
    | emit event =>
      have hguards : ∀ manifest, Guards
          (fun σ => ∀ seq, σ.entry (eventsPath seq) = s.disk.volume.tree.entry (eventsPath seq))
          (ManifestWrites sink.serde.manifests manifest) := by
        intro manifest σ path e hσ hwrites seq
        have hpath : eventsPath seq ≠ path := by
          cases hwrites with
          | temporary e => simp [eventsPath]
          | manifest bytes written => simp [eventsPath]
        rw [Shape.entry_update_ne σ e hpath]
        exact hσ seq
      have hemit : Triple (fun u => u = s) (sink.emit oracle event) _ _ :=
        emit_triple (fun _ _ => hguards _) fun _ _ _ => rfl
      apply Or.inl
      change ((sink.emit oracle event).run s).2.disk.volume.tree.entry (eventsPath seq) = _
      rcases (hemit s rfl).outcome with ⟨-, -, -, hsame⟩ | ⟨-, hfails⟩
      · exact hsame seq
      · generalize ((sink.emit oracle event).run s).2 = u at hfails
        cases hfails with
        | refused => rfl
        | broken untouched hfailed => rw [untouched.tree.1]
        | seen accepts holds cut => exact holds seq
    | flushSession source request =>
      have hflush : Triple (fun u => u = s) (sink.flushSession oracle source request) _ _ :=
        flushSession_triple (I := ObjectsOf s) (fun _ => hholds.buffer) objectsOf_guards
          (fun _ h _ _ => h) (fun _ _ h _ => h) ⟨rfl, fun _ => Or.inl rfl⟩
      change ((sink.flushSession oracle source request).run s).2.disk.volume.tree.entry _ = _ ∨
        _ ∧ ((sink.flushSession oracle source request).run s).2.disk.volume.tree.entry _ = _
      have hobjects : ObjectsOf s ((sink.flushSession oracle source request).run s).2.disk.shape := by
        rcases (hflush s rfl).outcome with ⟨-, -, -, hobjects, -⟩ | ⟨-, ⟨hobjects, -⟩, -⟩
        · exact hobjects
        · exact hobjects
      rcases hobjects.2 seq with hsame | hcopied
      · exact Or.inl hsame
      · exact Or.inr ⟨rfl, hcopied⟩
  · -- a failed sink refuses every call
    apply Or.inl
    rw [call_refused hfailed]

theorem flushSession_fails {source : Listing} {request : FlushRequest}
    (h : s.state.failed = none → sink.SpoolHolds base s)
    (fails : ((sink.flushSession oracle source request).run s).1 ≠ .ok ()) :
    ∃ disk, ((sink.flushSession oracle source request).run s).2 = { s with disk := disk } ∧
      disk.spool = s.disk.spool ∧ disk.buffer = s.disk.buffer := by
  have hflush : Triple (fun u => u = s) (sink.flushSession oracle source request) _ _ :=
    flushSession_triple (fun hnone => (h hnone).buffer) guards_true (fun _ _ _ _ => trivial)
      (fun _ _ _ _ => trivial) trivial
  rcases (hflush s rfl).outcome with ⟨_, hreturned, -⟩ | ⟨-, ⟨-, hspool⟩, hsame⟩
  · exact absurd hreturned fails
  · exact ⟨_, hsame, hspool⟩

/-- While the sink has not failed, its spool is the lines of the accepted events, and counted
right; once a step of an emit's write has failed every call is refused; a flush that fails
fails alone; and no events object holds anything but such lines. -/
theorem spool_holds_accepted (sink : DirectorySessionSink) (oracle : IoOracle) (sessionId : String)
    (format : FormatMetadata) (volume : Volume) (first s : LocalSession)
    (never : oracle.horizon = none)
    (created : sink.create sessionId format [] volume = .ok first)
    (reached : Reached sink oracle (fun _ _ => True) first s) :
    (s.state.failed = none → sink.textOf s.accepted = .ok s.disk.spool ∧
      s.disk.spool.length = s.state.spoolBytes ∧ s.state.spoolBytes ≤ sink.maxSpoolBytes) ∧
    (∀ event failure u, (sink.emit oracle event).run s = (.error failure, u) →
      u.disk.clock ≠ s.disk.clock →
        ∀ later, Reached sink oracle (fun _ _ => True) u later → ∀ call, ∃ message,
          (sink.call oracle call).run later = (.error (.failed message), later)) ∧
    (∀ source request, ((sink.flushSession oracle source request).run s).1 ≠ .ok () →
      ∃ disk, ((sink.flushSession oracle source request).run s).2 = { s with disk := disk } ∧
        disk.spool = s.disk.spool ∧ disk.buffer = s.disk.buffer) ∧
    ∀ seen call seq data,
      ((sink.call seen call).run s).2.disk.volume.tree.entry (eventsPath seq) = some (.file data) →
        s.disk.volume.tree.entry (eventsPath seq) = some (.file data) ∨
          sink.textOf s.accepted = .ok data := by
  have hholds : s.state.failed = none → sink.SpoolHolds [] s :=
    reached.holds never (create_holds created)
  have htext : s.state.failed = none → sink.textOf s.accepted = .ok s.disk.spool := by
    intro hnone
    obtain ⟨text, htext, hspool⟩ := (hholds hnone).text
    rw [hspool, List.nil_append]
    exact htext
  refine ⟨fun hnone => ⟨htext hnone, (hholds hnone).bytes, (hholds hnone).room⟩, ?_, ?_, ?_⟩
  · intro event failure u hrun hstep later hlater call
    obtain ⟨message, hmessage⟩ := Option.ne_none_iff_exists'.mp (emit_fails never hrun hstep)
    -- a sink that has failed does not move
    have hsame : later = u := hlater.stays_failed hmessage
    rw [hsame]
    exact ⟨message, call_refused hmessage call⟩
  · exact fun source request hfails => flushSession_fails hholds hfails
  · intro seen call seq data hdata
    rcases @call_objects seen _ _ _ call hholds seq with hsame | ⟨hnone, hcopied⟩
    · rw [hsame] at hdata
      exact Or.inl hdata
    · rw [hcopied] at hdata
      have hspool : s.disk.spool = data := Entry.file.inj (Option.some.inj hdata)
      rw [← hspool]
      exact Or.inr (htext hnone)

def exampleFormat : FormatMetadata where
  sessionFormat := 1
  schemaVersion := 0
  rrjjVersion := "0.1.0"
  jjLibVersion := "0.43.0"
  jjStoreVersion := "jj-lib-0.43.0/git"

def emittedManifest : SessionManifest where
  sessionId := "s"
  format := exampleFormat
  lastSeq := 0
  lastOp := "op:a"
  eventsObject := none
  durableSeq := none
  durableOp := none
  storage := none

def emittedText (seq : String) : String := "\x7b\n  \"session_id\": \"s\",\n  \"format\": \x7b\n" ++
  "    \"session_format\": 1,\n    \"schema_version\": 0,\n    \"rrjj_version\": \"0.1.0\",\n" ++
  "    \"jj_lib_version\": \"0.43.0\",\n    \"jj_store_version\": \"jj-lib-0.43.0/git\"\n  \x7d,\n" ++
  "  \"last_seq\": " ++ seq ++ ",\n  \"last_op\": \"op:a\""

def durableText (seq : String) : String := emittedText seq ++
  ",\n  \"events_object\": \"events/0000000000000000000" ++ seq ++ ".ndjson\",\n" ++
  "  \"durable_seq\": " ++ seq ++ ",\n  \"durable_op\": \"op:a\""

def cursorText : String := "\x7b\n  \"delivered_seq\": 0,\n  \"delivered_op\": \"op:a\"\n\x7d"

def sessionSerde : SessionSerde where
  events := exampleSerde
  manifests := .ofTable
    [(emittedManifest, utf8 (emittedText "0" ++ "\n\x7d")),
      (emittedManifest.durableAt, utf8 (durableText "0" ++ "\n\x7d"))] (by decide +kernel)
  cursor cursor :=
    if cursor = ⟨some 0, some "op:a", none⟩ then .ok (utf8 cursorText) else .error "not in the table"

def sessionSink : DirectorySessionSink := ⟨"spool.ndjson", 1000, sessionSerde⟩

def laterManifest : SessionManifest := { emittedManifest with lastSeq := 1 }

def twoEventSink : DirectorySessionSink := ⟨"spool.ndjson", 1000, {
  events := twoEventSerde
  manifests := .ofTable
    [(emittedManifest, utf8 (emittedText "0" ++ "\n\x7d")),
      (emittedManifest.durableAt, utf8 (durableText "0" ++ "\n\x7d")),
      (laterManifest, utf8 (emittedText "1" ++ "\n\x7d")),
      (laterManifest.durableAt, utf8 (durableText "1" ++ "\n\x7d"))] (by decide +kernel)
  cursor := sessionSerde.cursor }⟩

def createdSession : LocalSession where
  disk := { volume := .empty, spool := [] }
  state := ⟨{ emittedManifest with lastOp := "" }, 0, none, none⟩

theorem createdSession_created :
    sessionSink.create "s" exampleFormat [] .empty = .ok createdSession := rfl

def calmDisk : IoOracle := ⟨fun _ => {}, true, none⟩

def struckDisk (step : ℕ) (sameDevice : Bool) : IoOracle :=
  ⟨fun clock => { error := if clock = step then some ⟨5, "Input/output error (os error 5)"⟩ else none },
    sameDevice, none⟩

def flushRequest : FlushRequest := ⟨"shadow", 0, "op:a", none⟩

def laterRequest : FlushRequest := ⟨"shadow", 1, "op:a", none⟩

def emittedOnce (oracle : IoOracle) : LocalSession :=
  ((twoEventSink.emit oracle spooledEvent).run createdSession).2

def emittedTwice (oracle : IoOracle) : LocalSession :=
  ((twoEventSink.emit oracle laterEvent).run (emittedOnce oracle)).2

theorem emitted_reached (oracle : IoOracle) :
    Reached twoEventSink oracle (fun _ _ => True) createdSession (emittedOnce oracle) ∧
      Reached twoEventSink oracle (fun _ _ => True) createdSession (emittedTwice oracle) := by
  have honce : Reached twoEventSink oracle (fun _ _ => True) createdSession (emittedOnce oracle) :=
    .called (.emit spooledEvent) .created trivial
  exact ⟨honce, .called (.emit laterEvent) honce trivial⟩

/-- Two events are in the spool, and the object that a flush makes of it is their lines. On a disk that
fails once the first one is accepted, a flush fails alone, and after an emit every call is refused. -/
theorem spool_holds_accepted_emitted :
    (twoEventSink.textOf (emittedTwice calmDisk).accepted = .ok (emittedTwice calmDisk).disk.spool ∧
      (emittedTwice calmDisk).accepted.length = 2) ∧
    (∃ data, ((twoEventSink.call calmDisk (.flushSession .done laterRequest)).run
        (emittedTwice calmDisk)).2.disk.volume.tree.entry (eventsPath 1) = some (.file data) ∧
      twoEventSink.textOf (emittedTwice calmDisk).accepted = .ok data) ∧
    (∃ disk, ((twoEventSink.flushSession (struckDisk 8 true) .done flushRequest).run
      (emittedOnce (struckDisk 8 true))).2 = { emittedOnce (struckDisk 8 true) with disk := disk }) ∧
    ∀ call, ∃ message, (twoEventSink.call (struckDisk 8 true) call).run
      (emittedTwice (struckDisk 8 true)) = (.error (.failed message), emittedTwice (struckDisk 8 true)) := by
  have hcreated : twoEventSink.create "s" exampleFormat [] .empty = .ok createdSession := rfl
  have hcalm := spool_holds_accepted twoEventSink calmDisk "s" exampleFormat .empty createdSession _ rfl
    hcreated (emitted_reached calmDisk).2
  have hstruck := spool_holds_accepted twoEventSink (struckDisk 8 true) "s" exampleFormat .empty
    createdSession _ rfl hcreated (emitted_reached (struckDisk 8 true)).1
  refine ⟨⟨(hcalm.1 (by decide +kernel)).1, by decide +kernel⟩, ?_, ?_, ?_⟩
  · have hthere : ∃ data, ((twoEventSink.call calmDisk (.flushSession .done laterRequest)).run
        (emittedTwice calmDisk)).2.disk.volume.tree.entry (eventsPath 1) = some (.file data) :=
      ⟨(emittedTwice calmDisk).disk.spool, by decide +kernel⟩
    obtain ⟨data, hdata⟩ := hthere
    have hnone : (emittedTwice calmDisk).disk.volume.tree.entry (eventsPath 1) = none := by decide +kernel
    rcases hcalm.2.2.2 calmDisk (.flushSession .done laterRequest) 1 data hdata with hold | hcopied
    · rw [hnone] at hold
      cases hold
    · exact ⟨data, hdata, hcopied⟩
  · have hfails : ((twoEventSink.flushSession (struckDisk 8 true) .done flushRequest).run
        (emittedOnce (struckDisk 8 true))).1 ≠ .ok () := by decide +kernel
    obtain ⟨disk, hdisk, -⟩ := hstruck.2.2.1 .done flushRequest hfails
    exact ⟨disk, hdisk⟩
  · intro call
    have hfailed : ∃ failure, ((twoEventSink.emit (struckDisk 8 true) laterEvent).run
        (emittedOnce (struckDisk 8 true))).1 = .error failure :=
      ⟨.io "Input/output error (os error 5)", by decide +kernel⟩
    obtain ⟨failure, hfailure⟩ := hfailed
    have hrun := (Prod.mk.eta (p := (twoEventSink.emit (struckDisk 8 true) laterEvent).run
      (emittedOnce (struckDisk 8 true)))).symm
    rw [hfailure] at hrun
    unfold emittedTwice
    exact hstruck.2.1 laterEvent failure _ hrun (by decide +kernel) _ .created call

/-- A flush whose first step, the flush of the writer, fails does not fail the sink. -/
theorem emit_accepted_after_failed_flush :
    ¬ ∀ (sink : DirectorySessionSink) (oracle : IoOracle) (sessionId : String)
      (format : FormatMetadata) (volume : Volume) (s : LocalSession),
      oracle.horizon = none → sink.create sessionId format [] volume = .ok s →
      (oracle.answers s.disk.clock).error ≠ none → ∀ source request event, ∃ refusal,
        ((sink.emit oracle event).run ((sink.flushSession oracle source request).run s).2).1 =
          .error refusal := by
  intro h
  obtain ⟨refusal, hrefusal⟩ := h sessionSink
    (struckDisk 0 true) "s" exampleFormat .empty createdSession rfl createdSession_created (by decide) .done
    flushRequest spooledEvent
  have haccepted : ((sessionSink.emit (struckDisk 0 true) spooledEvent).run
      ((sessionSink.flushSession (struckDisk 0 true) .done flushRequest).run createdSession).2).1 = .ok () := by
    decide +kernel
  rw [hrefusal] at haccepted
  cases haccepted

end DirectorySessionSink
end Rrjj
