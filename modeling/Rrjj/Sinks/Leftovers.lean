import Rrjj.Sinks.Published

/-! What a sink finds in its spool and its directory when it is created, and when that does no
harm to the session that it publishes. -/

namespace Rrjj
open Library Library.Proc

namespace DirectorySessionSink
variable {oracle : IoOracle} {sink : DirectorySessionSink} {first s u : LocalSession}
  {events : List Event} {sessionId : String} {format : FormatMetadata} {text : Bytes}

theorem lineOf_ok_iff {event : Event} {line : Bytes} :
    sink.lineOf event = .ok line ↔
      ∃ text, sink.serde.events.toVec event = .ok text ∧ text ++ [newline] = line := by
  unfold lineOf
  rcases sink.serde.events.toVec event with message | text
  · simp
  · simp

theorem textOf_lines (written : sink.textOf events = .ok text) : ∃ texts,
    List.Forall₂ (fun event text => sink.serde.events.toVec event = .ok text) events texts ∧
      joinLines texts = text := by
  obtain ⟨lines, hlines, rfl⟩ := textOf_ok_iff.mp written
  have hall := mapM_ok_iff.mp hlines
  clear hlines written
  induction hall with
  | nil => exact ⟨[], List.Forall₂.nil, rfl⟩
  | @cons event line events lines hline hrest ih =>
    obtain ⟨text, htext, rfl⟩ := lineOf_ok_iff.mp hline
    obtain ⟨texts, htexts, hjoined⟩ := ih
    refine ⟨text :: texts, List.Forall₂.cons htext htexts, ?_⟩
    rw [joinLines_cons, hjoined, List.flatten_cons, List.append_assoc, List.singleton_append]

theorem recorded_last {event : Event} {rest : List Event}
    (recorded : Recorded sessionId (event :: rest)) :
    (event :: rest).getLast?.map Event.seq = some rest.length := by
  have hlast := List.getLast?_eq_getElem? (l := event :: rest)
  rw [List.length_cons, Nat.add_sub_cancel] at hlast
  have hlt : rest.length < (event :: rest).length := by
    rw [List.length_cons]
    omega
  have hget := List.getElem?_eq_getElem hlt
  rw [hlast, hget, Option.map_some, (recorded rest.length _ hget).1]

theorem flush_publishes {source : Listing} {request : FlushRequest}
    (buffer : s.state.failed = none → s.disk.buffer = [])
    (flushed : ((sink.flushSession oracle source request).run s).1 = .ok ()) :
    sink.Publishes request s ((sink.flushSession oracle source request).run s).2 := by
  have hflush : Triple (fun v => v = s) (sink.flushSession oracle source request) _ _ :=
    flushSession_triple buffer guards_true (fun _ _ _ _ => trivial) (fun _ _ _ _ => trivial) trivial
  rcases (hflush s rfl).outcome with ⟨-, -, hpublishes, -⟩ | ⟨hfails, -⟩
  · exact hpublishes
  · exact absurd flushed (hfails ())

def olderEvent : Event := .new "r" 0 "2025-12-31T00:00:00.000Z" (.flush ⟨"op:b", 0⟩)

def olderText : Bytes := utf8 ("\x7b\"v\":0,\"seq\":0,\"session_id\":\"r\"," ++
  "\"ts\":\"2025-12-31T00:00:00.000Z\",\"type\":\"flush\"," ++
  "\"data\":\x7b\"op\":\"op:b\",\"through_seq\":0\x7d\x7d")

def olderSerde : Serde :=
  .ofTable [(spooledEvent, spooledText), (olderEvent, olderText)] (by decide +kernel)

theorem olderSerde_readsBack (event : Event) : olderSerde.ReadsBack event :=
  Serde.ofTable_readsBack _ _ (by decide +kernel) event

theorem olderSerde_objects : olderSerde.WritesObjects := by
  intro event bytes hwritten
  have hmem : bytes ∈ [spooledText, olderText] :=
    List.mem_map_of_mem (f := Prod.snd) (Serde.ofTable_writes hwritten)
  rcases List.mem_cons.mp hmem with rfl | hmem
  · exact ⟨by decide +kernel, (spooledText.drop 1).dropLast, by decide +kernel⟩
  · rw [List.mem_singleton.mp hmem]
    exact ⟨by decide +kernel, (olderText.drop 1).dropLast, by decide +kernel⟩

def olderSink : DirectorySessionSink := { sessionSink with serde := { sessionSerde with events := olderSerde } }

def resumedSession (spool : Bytes) : LocalSession where
  disk := { volume := .empty, spool := spool }
  state := ⟨{ emittedManifest with lastSeq := 0, lastOp := "" }, spool.length, none, none⟩

theorem resumedSession_created {spool : Bytes} (room : spool.length ≤ 1000) :
    olderSink.create "s" exampleFormat spool .empty = .ok (resumedSession spool) :=
  if_neg (not_lt.mpr room)

def emittedSession (spool : Bytes) : LocalSession :=
  ((olderSink.call calmDisk (.emit spooledEvent)).run (resumedSession spool)).2

theorem emittedSession_reached (spool : Bytes) :
    Reached olderSink calmDisk (Coordinated "s") (resumedSession spool) (emittedSession spool) :=
  .called (.emit spooledEvent) .created ⟨rfl, rfl, rfl⟩

def flushes (spool : Bytes) : Bool :=
  match ((olderSink.flushSession calmDisk .done flushRequest).run (emittedSession spool)).1 with
  | .ok _ => true
  | _ => false

end DirectorySessionSink
end Rrjj
