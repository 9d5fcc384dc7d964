import Rrjj.Reader.Timeline

/-! The two parsers of a spool, the recorder's and the reader's: what they make of the text of
recorded events, of a torn one, and of any other bytes. -/

namespace Rrjj
open Library

/-- What `serde_json` reads an event from: text, which is not blank, and which may be followed by a
carriage return. -/
structure Serde.ReadsText (serde : Serde) : Prop where
  text : ∀ {bytes event}, serde.fromSlice bytes = .ok event → (decodeLine bytes).isSome
  full : ∀ {bytes event}, serde.fromSlice bytes = .ok event → isBlankLine bytes = false
  trailing : ∀ {bytes event}, serde.fromSlice (bytes ++ [carriageReturn]) = .ok event →
    serde.fromSlice bytes = .ok event

abbrev Written (serde : Serde) (events : List Event) (texts : List Bytes) : Prop :=
  List.Forall₂ (fun event text => serde.toVec event = .ok text) events texts

section
variable {serde : Serde} {path sessionId sinkName : String} {version number index : ℕ}
  {line bytes part : Bytes} {lines texts : List Bytes} {event : Event} {events results : List Event}

theorem parseSpoolLine_ok_iff :
    parseSpoolLine serde sessionId version sinkName (line, index) = .ok event ↔
      serde.fromSlice line = .ok event ∧ event.seq = index ∧ event.sessionId = sessionId ∧
        event.v = version := by
  unfold parseSpoolLine
  rcases serde.fromSlice line with message | read
  · simp
  · simp only [ite_error_iff, not_not, Except.ok.injEq]
    constructor
    · rintro ⟨hseq, hsession, hversion, rfl⟩
      exact ⟨rfl, hseq, hsession, hversion⟩
    · rintro ⟨rfl, hseq, hsession, hversion⟩
      exact ⟨hseq, hsession, hversion, rfl⟩

theorem spoolLines_joinLines (written : Written serde events texts) :
    spoolLines (joinLines texts) = texts := by
  have hone : ∀ text ∈ texts, newline ∉ text := by
    intro text hmem
    obtain ⟨event, hevent⟩ := Timeline.exists_written written hmem
    exact serde.one_line hevent
  have hall : texts.filter (fun text => !text.isEmpty) = texts := by
    apply List.filter_eq_self.mpr
    intro text hmem
    obtain ⟨event, hevent⟩ := Timeline.exists_written written hmem
    simpa using serde.nonempty hevent
  unfold spoolLines
  rw [splitOn_joinLines hone, List.filter_append, hall]
  exact List.append_nil texts

theorem complete_joinLines (texts : List Bytes) : Complete (joinLines texts) := by
  rcases List.eq_nil_or_concat texts with rfl | ⟨front, last, rfl⟩
  · exact Or.inl rfl
  · have hjoined : joinLines (front.concat last) = joinLines front ++ (last ++ [newline]) := by
      unfold joinLines
      rw [List.concat_eq_append, List.map_append, List.flatten_append, List.map_singleton,
        List.flatten_singleton]
    rw [hjoined]
    exact complete_line (joinLines front) last

theorem parseSpoolLine_written (written : Written serde events texts)
    (reads : ∀ event ∈ events, serde.ReadsBack event)
    (recorded : ∀ index event, events[index]? = some event →
      event.seq = number + index ∧ event.v = schemaVersion ∧ event.sessionId = sessionId) :
    List.Forall₂ (fun line event =>
      parseSpoolLine serde sessionId schemaVersion sinkName line = .ok event)
      (texts.zipIdx number) events := by
  induction written generalizing number with
  | nil => exact .nil
  | @cons event text events texts hwritten hrest ih =>
    obtain ⟨hseq, hversion, hsession⟩ := recorded 0 event rfl
    rw [List.zipIdx_cons]
    apply List.Forall₂.cons
    · have hread := reads event List.mem_cons_self hwritten
      exact parseSpoolLine_ok_iff.mpr ⟨hread, hseq, hsession, hversion⟩
    · apply ih fun other hmem => reads other (List.mem_cons_of_mem _ hmem)
      intro index other hother
      have hnext := recorded (index + 1) other hother
      rw [← Nat.add_assoc, Nat.add_right_comm] at hnext
      exact hnext

theorem parseEventSpool_written (written : Written serde events texts)
    (reads : ∀ event ∈ events, serde.ReadsBack event) (recorded : Recorded sessionId events) :
    parseEventSpool serde (joinLines texts) path sessionId schemaVersion sinkName = .ok events := by
  rw [parseEventSpool_of_complete (complete_joinLines texts), spoolLines_joinLines written, mapM_ok_iff]
  apply parseSpoolLine_written written reads
  intro index event hevent
  rw [Nat.zero_add]
  exact recorded index event hevent

theorem prefix_joinLines (one : ∀ text ∈ texts, newline ∉ text) (starts : part <+: joinLines texts)
    (complete : Complete part) : ∃ count, part = joinLines (texts.take count) := by
  induction texts generalizing part with
  | nil => exact ⟨0, List.prefix_nil.mp starts⟩
  | cons text texts ih =>
    have hone : newline ∉ text := one text List.mem_cons_self
    obtain ⟨rest, hrest⟩ := starts
    rw [joinLines_cons] at hrest
    rcases List.append_eq_append_iff.mp hrest with ⟨more, htext, -⟩ | ⟨later, hpart, hlater⟩
    · -- a part of the first text has no newline to end in
      refine ⟨0, complete.resolve_right ?_⟩
      intro hlast
      have hmem : newline ∈ part := List.mem_of_getLast? hlast
      exact hone (htext ▸ List.mem_append_left more hmem)
    · rcases later with _ | ⟨first, later⟩
      · rw [List.append_nil] at hpart
        refine ⟨0, complete.resolve_right ?_⟩
        intro hlast
        exact hone (hpart ▸ List.mem_of_getLast? hlast)
      · rw [List.cons_append] at hlater
        obtain ⟨rfl, hjoined⟩ := List.cons.inj hlater
        have hcomplete : Complete later := by
          rcases later with _ | ⟨next, later⟩
          · exact Or.inl rfl
          · rcases complete with hnone | hlast
            · rw [hpart] at hnone
              exact absurd hnone (by simp)
            · rw [hpart] at hlast
              exact Or.inr (by simpa using hlast)
        obtain ⟨count, rfl⟩ := ih (fun other hmem => one other (List.mem_cons_of_mem _ hmem))
          ⟨rest, hjoined.symm⟩ hcomplete
        exact ⟨count + 1, by rw [hpart, List.take_succ_cons, joinLines_cons]⟩

theorem stripReturn_read (reads : serde.ReadsText) (h : serde.fromSlice line = .ok event) :
    serde.fromSlice (stripReturn line) = .ok event := by
  unfold stripReturn
  split_ifs with hlast
  · obtain ⟨body, rfl⟩ := List.getLast?_eq_some_iff.mp hlast
    rw [List.dropLast_concat]
    exact reads.trailing h
  · exact h

theorem readLoop_agrees (reads : serde.ReadsText) {lines : List Bytes} {session : Option String}
    (same : ∀ expected, session = some expected → expected = sessionId)
    (parsed : List.Forall₂ (fun line event =>
        parseSpoolLine serde sessionId schemaVersion sinkName line = .ok event)
      ((lines.filter fun line : Bytes => !line.isEmpty).zipIdx events.length) results) :
    Timeline.readLoop serde (lines.map stripReturn) number session events = .ok (events ++ results) := by
  induction lines generalizing number session events results with
  | nil =>
    rw [List.forall₂_nil_left_iff.mp parsed, List.append_nil]
    rfl
  | cons line lines ih =>
    -- the recorder skips empty lines only, the reader blank ones; a line that the recorder parses is neither
    rcases hempty : line.isEmpty with _ | _
    · rw [List.filter_cons_of_pos (by simp [hempty]), List.zipIdx_cons] at parsed
      obtain ⟨event, rest, hline, hrest, rfl⟩ := List.forall₂_cons_left_iff.mp parsed
      obtain ⟨hread, hseq, hsession, hversion⟩ := parseSpoolLine_ok_iff.mp hline
      have hstripped := stripReturn_read reads hread
      rw [List.map_cons, Timeline.readLoop_full (reads.text hstripped) (reads.full hstripped) hstripped
        hversion hseq fun expected h => (same expected h).trans hsession.symm]
      have hlength : events.length + 1 = (events ++ [event]).length := by
        rw [List.length_append, List.length_singleton]
      rw [hlength] at hrest
      rw [ih (fun expected h => (Option.some.inj h).symm.trans hsession) hrest, List.append_assoc,
        List.singleton_append]
    · rw [List.isEmpty_iff.mp hempty] at parsed ⊢
      rw [List.filter_cons_of_neg (by simp)] at parsed
      have hblank : isBlankLine (stripReturn []) = true := by decide
      rw [List.map_cons, Timeline.readLoop_blank hblank]
      exact ih same parsed

/-- What the recorder accepts, the reader reads. -/
theorem read_of_parseEventSpool (reads : serde.ReadsText)
    (h : parseEventSpool serde bytes path sessionId schemaVersion sinkName = .ok events) :
    Timeline.read serde bytes = .ok ⟨events⟩ := by
  obtain ⟨hcomplete, hparsed⟩ := parseEventSpool_complete h
  rw [mapM_ok_iff] at hparsed
  have hlines : ∃ lines : List Bytes, readLines bytes = lines.map stripReturn ∧
      spoolLines bytes = lines.filter fun line => !line.isEmpty := by
    rcases hcomplete with rfl | hlast
    · exact ⟨[], rfl, rfl⟩
    · -- after the last newline the recorder has one empty piece more, which it skips
      obtain ⟨body, rfl⟩ := List.getLast?_eq_some_iff.mp hlast
      have hsplit : (body ++ [newline]).splitOn newline = body.splitOn newline ++ [[]] := by
        rw [List.splitOn_append_cons_self, List.splitOn_nil]
      refine ⟨body.splitOn newline, ?_, ?_⟩
      · unfold readLines
        rw [splitLines_of_splitOn hsplit, if_pos rfl, List.append_nil]
      · unfold spoolLines
        rw [hsplit, List.filter_append]
        simp
  obtain ⟨lines, hread, hspool⟩ := hlines
  rw [hspool] at hparsed
  have hloop : Timeline.readLoop serde (lines.map stripReturn) 1 none [] = .ok ([] ++ events) :=
    readLoop_agrees reads (fun _ hnone => nomatch hnone) hparsed
  unfold Timeline.read
  rw [hread, bind_ok_iff]
  exact ⟨events, hloop, rfl⟩

end

/-- The texts of recorded events are read back by both parsers; a part of them is parsed exactly when
it ends where a line does; and whatever is parsed can be read. -/
theorem spool_codec (serde : Serde) (path sessionId sinkName : String) (reads : serde.ReadsText) :
    (∀ events texts, Written serde events texts → (∀ event ∈ events, serde.ReadsBack event) →
      Recorded sessionId events →
      parseEventSpool serde (joinLines texts) path sessionId schemaVersion sinkName = .ok events ∧
      Timeline.read serde (joinLines texts) = .ok ⟨events⟩ ∧
      ∀ part, part <+: joinLines texts →
        ((∃ parsed, parseEventSpool serde part path sessionId schemaVersion sinkName = .ok parsed) ↔
          ∃ count, part = joinLines (texts.take count)) ∧
        ∀ count, part = joinLines (texts.take count) →
          parseEventSpool serde part path sessionId schemaVersion sinkName = .ok (events.take count)) ∧
    ∀ bytes events, parseEventSpool serde bytes path sessionId schemaVersion sinkName = .ok events →
      Timeline.read serde bytes = .ok ⟨events⟩ := by
  refine ⟨?_, fun bytes events h => read_of_parseEventSpool reads h⟩
  intro events texts hwritten hback hrecorded
  have hwhole := @parseEventSpool_written serde path sessionId sinkName texts events hwritten hback
    hrecorded
  have htake : ∀ part count, part = joinLines (texts.take count) →
      parseEventSpool serde part path sessionId schemaVersion sinkName = .ok (events.take count) := by
    rintro part count rfl
    apply parseEventSpool_written (List.forall₂_take count hwritten) fun event hevent =>
      hback event (List.mem_of_mem_take hevent)
    intro index event hevent
    rw [List.getElem?_take] at hevent
    split_ifs at hevent
    exact hrecorded index event hevent
  refine ⟨hwhole, read_of_parseEventSpool reads hwhole, fun part hpart => ⟨?_, htake part⟩⟩
  constructor
  · -- what is parsed is complete, so it ends where a line does
    rintro ⟨parsed, hparsed⟩
    apply prefix_joinLines ?_ hpart (parseEventSpool_complete hparsed).1
    intro text hmem
    obtain ⟨event, hevent⟩ := Timeline.exists_written hwritten hmem
    exact serde.one_line hevent
  · rintro ⟨count, hcount⟩
    exact ⟨_, htake part count hcount⟩

theorem twoEventSerde_reads {bytes : Bytes} {event : Event}
    (h : twoEventSerde.fromSlice bytes = .ok event) : bytes ∈ [spooledText, laterText] := by
  by_contra hother
  obtain ⟨hfirst, hlater⟩ : bytes ≠ spooledText ∧ bytes ≠ laterText := by simpa using hother
  have hnone : twoEventSerde.fromSlice bytes = .error "expected value" := by
    simp [twoEventSerde, Serde.ofTable, Ne.symm hfirst, Ne.symm hlater]
  rw [hnone] at h
  exact absurd h (by simp)

theorem twoEventSerde_readsText : twoEventSerde.ReadsText where
  text h := by
    have hall : ∀ bytes ∈ [spooledText, laterText], (decodeLine bytes).isSome := by decide +kernel
    exact hall _ (twoEventSerde_reads h)
  full h := by
    have hall : ∀ bytes ∈ [spooledText, laterText], isBlankLine bytes = false := by decide +kernel
    exact hall _ (twoEventSerde_reads h)
  trailing h := by
    have hall : ∀ bytes ∈ [spooledText, laterText], bytes.getLast? ≠ some carriageReturn := by
      decide +kernel
    exact absurd List.getLast?_concat (hall _ (twoEventSerde_reads h))

/-- Both lines are read, and no torn second line is parsed. -/
theorem spool_codec_torn :
    parseEventSpool twoEventSerde (joinLines [spooledText, laterText]) "spool.ndjson" "s" schemaVersion
        "journal" = .ok [spooledEvent, laterEvent] ∧
      Timeline.read twoEventSerde (joinLines [spooledText, laterText]) =
        .ok ⟨[spooledEvent, laterEvent]⟩ ∧
      ¬ ∃ parsed, parseEventSpool twoEventSerde (joinLines [spooledText] ++ laterText.take 9)
        "spool.ndjson" "s" schemaVersion "journal" = .ok parsed := by
  have hwritten : Written twoEventSerde [spooledEvent, laterEvent] [spooledText, laterText] := by
    refine .cons ?_ (.cons ?_ .nil)
    · simp [twoEventSerde, Serde.ofTable]
    · simp [twoEventSerde, Serde.ofTable, show spooledEvent ≠ laterEvent by decide]
  have hrecorded : Recorded "s" [spooledEvent, laterEvent] := by
    intro index event hevent
    rcases index with _ | _ | index
    · rw [← Option.some.inj hevent]
      exact ⟨rfl, rfl, rfl⟩
    · rw [← Option.some.inj hevent]
      exact ⟨rfl, rfl, rfl⟩
    · exact absurd hevent (by simp)
  have hcodec := (spool_codec twoEventSerde "spool.ndjson" "s" "journal" twoEventSerde_readsText).1
    [spooledEvent, laterEvent] [spooledText, laterText] hwritten
    (fun event _ => twoEventSerde_readsBack event) hrecorded
  refine ⟨hcodec.1, hcodec.2.1, fun hparsed => ?_⟩
  have htorn : joinLines [spooledText] ++ laterText.take 9 <+: joinLines [spooledText, laterText] := by
    decide +kernel
  obtain ⟨count, hcount⟩ := ((hcodec.2.2 _ htorn).1).mp hparsed
  have hbytes : ∀ count ≤ 2, joinLines [spooledText] ++ laterText.take 9 ≠
      joinLines ([spooledText, laterText].take count) := by
    decide +kernel
  rcases Nat.le_total count 2 with hle | hge
  · exact hbytes count hle hcount
  · have hall : [spooledText, laterText].take count = [spooledText, laterText] :=
      List.take_of_length_le hge
    rw [hall] at hcount
    exact hbytes 2 (Nat.le_refl 2) hcount

end Rrjj
