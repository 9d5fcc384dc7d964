import Rrjj.Library.Fallible
import Rrjj.Sinks.Traits

/-! Event spools: files with the JSON text of one event a line. -/

namespace Rrjj
open Library

def newline : UInt8 := 10

/-- `serde_json` on events, `to_vec` and `from_slice`: what it writes is a line. -/
structure Serde where
  toVec : Event → Except String Bytes
  fromSlice : Bytes → Except String Event
  one_line : ∀ {event bytes}, toVec event = .ok bytes → newline ∉ bytes
  nonempty : ∀ {event bytes}, toVec event = .ok bytes → bytes ≠ []

/-- What is written of the event is read as this event. It is not where metadata nests too deep for the
reader, or has a float that is not read as it was printed. -/
def Serde.ReadsBack (serde : Serde) (event : Event) : Prop :=
  ∀ {bytes}, serde.toVec event = .ok bytes → serde.fromSlice bytes = .ok event

def spoolLines (bytes : Bytes) : List Bytes :=
  (bytes.splitOn newline).filter fun line => !line.isEmpty

def parseSpoolLine (serde : Serde) (sessionId : String) (schemaVersion : ℕ) (sinkName : String)
    (line : Bytes × ℕ) : Except SinkError Event :=
  match serde.fromSlice line.1 with
  | .error message => .error (.serialize message)
  | .ok event =>
    if event.seq ≠ line.2 then
      .error (.failed (s!"{sinkName} spool sequence mismatch on line {line.2 + 1}: " ++
        s!"expected {line.2}, got {event.seq}"))
    else if event.sessionId ≠ sessionId then
      .error (.failed s!"{sinkName} spool belongs to session {event.sessionId}, not {sessionId}")
    else if event.v ≠ schemaVersion then
      .error (.failed (s!"{sinkName} spool schema {event.v} is incompatible with configured " ++
        s!"schema {schemaVersion}"))
    else .ok event

def parseEventSpool (serde : Serde) (bytes : Bytes) (path sessionId : String) (schemaVersion : ℕ)
    (sinkName : String) : Except SinkError (List Event) :=
  if bytes ≠ [] ∧ bytes.getLast? ≠ some newline then
    .error (.failed s!"{sinkName} spool has an incomplete final line: {path}")
  else (spoolLines bytes).zipIdx.mapM (parseSpoolLine serde sessionId schemaVersion sinkName)

def latestSnapshotCommit (events : List Event) : Option String :=
  events.reverse.findSome? fun event =>
    match event.body with
    | .snapshot snapshot => some snapshot.commit
    | _ => none

def Complete (bytes : Bytes) : Prop := bytes = [] ∨ bytes.getLast? = some newline

theorem complete_line (bytes line : Bytes) : Complete (bytes ++ (line ++ [newline])) := by
  apply Or.inr
  rw [← List.append_assoc, List.getLast?_concat]

theorem spoolLines_line {bytes line : Bytes} (complete : Complete bytes) (one : newline ∉ line)
    (nonempty : line ≠ []) :
    spoolLines (bytes ++ (line ++ [newline])) = spoolLines bytes ++ [line] := by
  have hline : (line ++ [newline]).splitOn newline = [line, []] := by
    rw [List.splitOn_append_cons_self, List.splitOn_eq_singleton one, List.splitOn_nil]
    rfl
  have hkept : ([line, []] : List Bytes).filter (fun l => !l.isEmpty) = [line] := by
    simp [nonempty]
  unfold spoolLines
  rcases complete with rfl | hlast
  · rw [List.nil_append, hline, hkept]
    rfl
  · obtain ⟨body, rfl⟩ := List.getLast?_eq_some_iff.mp hlast
    have hbody : (body ++ [newline]).splitOn newline = body.splitOn newline ++ [[]] := by
      rw [List.splitOn_append_cons_self, List.splitOn_nil]
    have hwhole : (body ++ [newline] ++ (line ++ [newline])).splitOn newline =
        body.splitOn newline ++ [line, []] := by
      rw [List.append_assoc, List.singleton_append, List.splitOn_append_cons_self, hline]
    rw [hwhole, hbody, List.filter_append, List.filter_append, hkept]
    simp

variable {serde : Serde} {bytes : Bytes} {path sessionId sinkName : String} {version : ℕ}
  {events : List Event}

theorem parseEventSpool_complete
    (h : parseEventSpool serde bytes path sessionId version sinkName = .ok events) :
    Complete bytes ∧ (spoolLines bytes).zipIdx.mapM
      (parseSpoolLine serde sessionId version sinkName) = .ok events := by
  unfold parseEventSpool at h
  split_ifs at h with hincomplete
  refine ⟨?_, h⟩
  rcases not_and_or.mp hincomplete with hempty | hlast
  · exact Or.inl (not_not.mp hempty)
  · exact Or.inr (not_not.mp hlast)

theorem parseEventSpool_of_complete (complete : Complete bytes) :
    parseEventSpool serde bytes path sessionId version sinkName =
      (spoolLines bytes).zipIdx.mapM (parseSpoolLine serde sessionId version sinkName) := by
  unfold parseEventSpool
  rw [if_neg]
  rintro ⟨hne, hlast⟩
  exact complete.elim hne hlast

theorem parseEventSpool_length
    (h : parseEventSpool serde bytes path sessionId version sinkName = .ok events) :
    events.length = (spoolLines bytes).length := by
  rw [← (mapM_ok_iff.mp (parseEventSpool_complete h).2).length_eq, List.length_zipIdx]

theorem parseEventSpool_append {event : Event} {line : Bytes}
    (h : parseEventSpool serde bytes path sessionId version sinkName = .ok events)
    (written : serde.toVec event = .ok line) (reads : serde.ReadsBack event) (seq : event.seq = events.length)
    (session : event.sessionId = sessionId) (schema : event.v = version) :
    parseEventSpool serde (bytes ++ (line ++ [newline])) path sessionId version sinkName =
      .ok (events ++ [event]) := by
  obtain ⟨hcomplete, hparsed⟩ := parseEventSpool_complete h
  have hlength := parseEventSpool_length h
  have hline : parseSpoolLine serde sessionId version sinkName (line, (spoolLines bytes).length) =
      .ok event := by
    unfold parseSpoolLine
    rw [reads written]
    simp [seq, hlength, session, schema]
  rw [parseEventSpool_of_complete (complete_line bytes line),
    spoolLines_line hcomplete (serde.one_line written) (serde.nonempty written), List.zipIdx_append,
    List.mapM_append, hparsed]
  simp [hline, bind, Except.bind, pure, Except.pure]

def utf8 (text : String) : Bytes := text.toUTF8.data.toList

def Serde.ofTable (table : List (Event × Bytes))
    (lines : ∀ entry ∈ table, newline ∉ entry.2 ∧ entry.2 ≠ []) : Serde where
  toVec event :=
    match table.find? fun entry => entry.1 = event with
    | some entry => .ok entry.2
    | none => .error "not in the table"
  fromSlice bytes :=
    match table.find? fun entry => entry.2 = bytes with
    | some entry => .ok entry.1
    | none => .error "expected value"
  one_line := by
    intro event bytes h
    split at h
    · next entry hfound =>
      rw [← Except.ok.inj h]
      exact (lines entry (List.mem_of_find?_eq_some hfound)).1
    · exact absurd h (by simp)
  nonempty := by
    intro event bytes h
    split at h
    · next entry hfound =>
      rw [← Except.ok.inj h]
      exact (lines entry (List.mem_of_find?_eq_some hfound)).2
    · exact absurd h (by simp)

theorem Serde.ofTable_writes {table : List (Event × Bytes)}
    {lines : ∀ entry ∈ table, newline ∉ entry.2 ∧ entry.2 ≠ []} {event : Event} {bytes : Bytes}
    (h : (Serde.ofTable table lines).toVec event = .ok bytes) : (event, bytes) ∈ table := by
  unfold Serde.ofTable at h
  simp only at h
  split at h
  · next entry hfound =>
    have hevent : entry.1 = event := by simpa using List.find?_some hfound
    have hentry : entry = (event, bytes) := Prod.ext hevent (Except.ok.inj h)
    rw [← hentry]
    exact List.mem_of_find?_eq_some hfound
  · exact absurd h (by simp)

theorem Serde.ofTable_readsBack (table : List (Event × Bytes))
    (lines : ∀ entry ∈ table, newline ∉ entry.2 ∧ entry.2 ≠ [])
    (distinct : ∀ a ∈ table, ∀ b ∈ table, a.2 = b.2 → a.1 = b.1) (event : Event) :
    (Serde.ofTable table lines).ReadsBack event := by
  intro bytes h
  have hmem := Serde.ofTable_writes h
  unfold Serde.ofTable
  dsimp only
  split
  · next other hother =>
    have hsame : other.2 = bytes := by simpa using List.find?_some hother
    rw [distinct other (List.mem_of_find?_eq_some hother) _ hmem hsame]
  · next hnone =>
    have hmissing := List.find?_eq_none.mp hnone _ hmem
    exact absurd (decide_eq_true rfl) hmissing

def spooledEvent : Event := .new "s" 0 "2026-01-01T00:00:00.000Z" (.flush ⟨"op:a", 0⟩)

def spooledText : Bytes := utf8 ("\x7b\"v\":0,\"seq\":0,\"session_id\":\"s\"," ++
  "\"ts\":\"2026-01-01T00:00:00.000Z\",\"type\":\"flush\"," ++
  "\"data\":\x7b\"op\":\"op:a\",\"through_seq\":0\x7d\x7d")

def exampleSerde : Serde :=
  .ofTable [(spooledEvent, spooledText)] (by decide)

theorem spooledText_length : spooledText.length = 116 := by decide

theorem exampleSerde_readsBack (event : Event) : exampleSerde.ReadsBack event :=
  Serde.ofTable_readsBack _ _ (by decide) event

theorem exampleSerde_writes : exampleSerde.toVec spooledEvent = .ok spooledText := by
  simp [exampleSerde, Serde.ofTable]

def laterEvent : Event := .new "s" 1 "2026-01-01T00:00:01.000Z" (.flush ⟨"op:a", 1⟩)

def laterText : Bytes := utf8 ("\x7b\"v\":0,\"seq\":1,\"session_id\":\"s\"," ++
  "\"ts\":\"2026-01-01T00:00:01.000Z\",\"type\":\"flush\"," ++
  "\"data\":\x7b\"op\":\"op:a\",\"through_seq\":1\x7d\x7d")

def twoEventSerde : Serde :=
  .ofTable [(spooledEvent, spooledText), (laterEvent, laterText)] (by decide +kernel)

theorem twoEventSerde_readsBack (event : Event) : twoEventSerde.ReadsBack event :=
  Serde.ofTable_readsBack _ _ (by decide +kernel) event

end Rrjj
