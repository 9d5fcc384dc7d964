import Rrjj.Library.Fallible
import Rrjj.Library.JsValue

/-! The timeline of the scrubber: events that were read from a durable file, and those that
arrive live after them. -/

namespace Rrjj
open Library

structure Envelope where
  seq : ℤ
  sessionId : JsText
  deriving DecidableEq

def validEnvelope (event : JsValue) : Option Envelope :=
  if event.isRecord then do
    let seq ← (event.get "seq").safeInteger?
    let sessionId ← (event.get "session_id").nonempty?
    if 0 ≤ seq then some ⟨seq, sessionId⟩ else none
  else none

def digits (n : ℤ) : String := toString n

def validateFrom (index : ℕ) (sessionId : Option JsText) : List JsValue → Except JsText Unit
  | [] => .ok ()
  | event :: events =>
    if !event.isRecord then .error (.of s!"Invalid event on NDJSON record {index + 1}")
    else
      match (event.get "seq").safeInteger? with
      | none => .error (.of s!"Invalid sequence on NDJSON record {index + 1}")
      | some seq =>
        if seq < 0 then .error (.of s!"Invalid sequence on NDJSON record {index + 1}")
        else if seq ≠ index then
          .error (.of (s!"Sequence gap on NDJSON record {index + 1}: " ++
            s!"expected {index}, received {digits seq}"))
        else
          match (event.get "session_id").nonempty? with
          | none => .error (.of s!"Missing session_id on NDJSON record {index + 1}")
          | some id =>
            if sessionId.any (· ≠ id) then
              .error (.of s!"Session changed on NDJSON record {index + 1}")
            else validateFrom (index + 1) (some id) events

def validateTimeline (events : List JsValue) : Except JsText Unit := validateFrom 0 none events

/-- A list that `parseNdjson` accepts. -/
structure DurableTimeline where
  events : List JsValue
  valid : validateTimeline events = .ok ()

/-- The default of `createLiveTimeline`. -/
def DurableTimeline.empty : DurableTimeline := ⟨[], rfl⟩

def parseLines (parse : JsText → Except JsText JsValue) (index : ℕ) :
    List JsText → Except JsText (List JsValue)
  | [] => .ok []
  | line :: lines =>
    match parse line with
    | .error message => .error (.of s!"Invalid NDJSON on line {index + 1}: " ++ message)
    | .ok event => do
      let events ← parseLines parse (index + 1) lines
      return event :: events

def parseNdjson (parse : JsText → Except JsText JsValue) (text : JsText) :
    Except JsText DurableTimeline := do
  let events ← parseLines parse 0 (text.splitLines.filter fun line => !line.isBlank)
  match valid : validateTimeline events with
  | .error message => .error message
  | .ok () => .ok ⟨events, valid⟩

structure LiveTimeline where
  events : List JsValue
  lastSeq : Option ℤ
  sessionId : Option JsText
  requiresResync : Bool

def createLiveTimeline (durable : DurableTimeline) : LiveTimeline where
  events := durable.events
  lastSeq := durable.events.getLast?.bind fun last => (last.get "seq").safeInteger?
  sessionId := durable.events.getLast?.bind fun last => (last.get "session_id").nonempty?
  requiresResync := false

def streamNotice (type : String) (detail : JsValue) : JsValue :=
  .object [(.of "type", .text (.of type)), (.of "data", .object
    [(.of "detail", detail),
      (.of "recovery", .text (.of "Load manifest.events_object to resynchronize."))])]

namespace LiveTimeline

def appendStreamNotice (timeline : LiveTimeline) (detail : JsValue) (type : String) : LiveTimeline :=
  { timeline with
    events := timeline.events ++ [streamNotice type detail]
    requiresResync := true }

def sequenceMatches (timeline : LiveTimeline) (envelope : Envelope) : Bool :=
  timeline.lastSeq.all fun last => envelope.seq = last + 1

def sessionMatches (timeline : LiveTimeline) (envelope : Envelope) : Bool :=
  timeline.sessionId.all fun id => envelope.sessionId = id

def discontinuity (timeline : LiveTimeline) (envelope : Envelope) : JsText :=
  if !timeline.sessionMatches envelope then
    .of "Session changed from " ++ timeline.sessionId.getD (.of "null") ++ .of " to " ++
      envelope.sessionId
  else .of (s!"Expected sequence {digits (timeline.lastSeq.getD 0 + 1)}, " ++
    s!"received {digits envelope.seq}")

def appendLiveEvent (timeline : LiveTimeline) (event : JsValue) : LiveTimeline :=
  if timeline.requiresResync then timeline
  else
    match validEnvelope event with
    | none =>
      timeline.appendStreamNotice (.text (.of "Invalid live event envelope")) "sequence_gap"
    | some envelope =>
      if !timeline.sequenceMatches envelope || !timeline.sessionMatches envelope then
        timeline.appendStreamNotice (.text (timeline.discontinuity envelope)) "sequence_gap"
      else
        { events := timeline.events ++ [event]
          lastSeq := some envelope.seq
          sessionId := some envelope.sessionId
          requiresResync := timeline.requiresResync }

def appendSseOverflow (timeline : LiveTimeline) (data : JsValue) : Except JsText LiveTimeline :=
  match data with
  | .null => .error (.of "Cannot read properties of null (reading 'message')")
  | data => .ok (timeline.appendStreamNotice
      ((data.get "message").orElse
        (.text (.of "The live subscriber lagged and records may have been dropped.")))
      "sse_overflow")

end LiveTimeline

inductive LiveCall where
  | event (value : JsValue)
  | overflow (data : JsValue)

def LiveTimeline.receive (timeline : LiveTimeline) : LiveCall → LiveTimeline
  | .event value => timeline.appendLiveEvent value
  | .overflow data =>
    match timeline.appendSseOverflow data with
    | .ok appended => appended
    | .error _ => timeline

def LiveCall.passed : LiveCall → List JsValue
  | .event value => [value]
  | .overflow _ => []

def LiveTimeline.receiveAll (timeline : LiveTimeline) (calls : List LiveCall) : LiveTimeline :=
  calls.foldl receive timeline

def schemaEvents (events : List JsValue) : List Envelope := events.filterMap validEnvelope

/-- `later` is the next event of the session. -/
def Envelope.Follows (earlier later : Envelope) : Prop :=
  later.seq = earlier.seq + 1 ∧ later.sessionId = earlier.sessionId

/-- The schema events are of one session and in sequence, and the timeline is at the last. -/
structure Continuous (timeline : LiveTimeline) : Prop where
  follows : (schemaEvents timeline.events).IsChain Envelope.Follows
  lastSeq : timeline.lastSeq = (schemaEvents timeline.events).getLast?.map Envelope.seq
  sessionId : timeline.sessionId = (schemaEvents timeline.events).getLast?.map Envelope.sessionId

theorem schemaEvents_append (events later : List JsValue) :
    schemaEvents (events ++ later) = schemaEvents events ++ schemaEvents later :=
  List.filterMap_append

theorem validEnvelope_some_iff {event : JsValue} {envelope : Envelope} :
    validEnvelope event = some envelope ↔ event.isRecord = true ∧
      (event.get "seq").safeInteger? = some envelope.seq ∧
      (event.get "session_id").nonempty? = some envelope.sessionId ∧ 0 ≤ envelope.seq := by
  unfold validEnvelope
  rcases hrecord : event.isRecord with _ | _
  · simp
  rcases hseq : (event.get "seq").safeInteger? with _ | seq
  · simp
  rcases hsession : (event.get "session_id").nonempty? with _ | sessionId
  · simp
  simp only [if_true, Option.bind_eq_bind, Option.bind_some, true_and, Option.some.injEq]
  constructor
  · intro h
    split_ifs at h with hnonneg
    rw [← Option.some.inj h]
    exact ⟨rfl, rfl, hnonneg⟩
  · rintro ⟨rfl, rfl, hnonneg⟩
    rw [if_pos hnonneg]

theorem streamNotice_seq (type : String) (detail : JsValue) :
    (streamNotice type detail).get "seq" = .undefined := by
  have htype : (JsText.of "seq" == JsText.of "type") = false := by decide
  have hdata : (JsText.of "seq" == JsText.of "data") = false := by decide
  simp [streamNotice, JsValue.get, List.lookup_cons, htype, hdata]

theorem streamNotice_no_event (type : String) (detail : JsValue) :
    validEnvelope (streamNotice type detail) = none := by
  rcases hvalid : validEnvelope (streamNotice type detail) with _ | envelope
  · rfl
  · have h := (validEnvelope_some_iff.mp hvalid).2.1
    rw [streamNotice_seq] at h
    cases h

theorem appendSseOverflow_ok {timeline after : LiveTimeline} {data : JsValue}
    (h : timeline.appendSseOverflow data = .ok after) :
    ∃ detail, after = timeline.appendStreamNotice detail "sse_overflow" := by
  unfold LiveTimeline.appendSseOverflow at h
  split at h
  · exact absurd h (by simp)
  · exact ⟨_, (Except.ok.inj h).symm⟩

theorem validateFrom_ok {index : ℕ} {sessionId : Option JsText} {events : List JsValue}
    (valid : validateFrom index sessionId events = .ok ()) :
    ∃ envelopes : List Envelope, events.map validEnvelope = envelopes.map some ∧
      envelopes.IsChain Envelope.Follows ∧
      ∀ first ∈ envelopes.head?, first.seq = index ∧ ∀ id ∈ sessionId, first.sessionId = id := by
  induction events generalizing index sessionId with
  | nil => exact ⟨[], rfl, List.IsChain.nil, fun first hfirst => nomatch hfirst⟩
  | cons event events ih =>
    unfold validateFrom at valid
    rcases hrecord : event.isRecord with _ | _
    · rw [hrecord] at valid
      exact nomatch valid
    rcases hseq : (event.get "seq").safeInteger? with _ | seq
    · rw [hrecord, hseq] at valid
      exact nomatch valid
    rw [hrecord, hseq] at valid
    dsimp only [Bool.not_true] at valid
    obtain ⟨-, valid⟩ := ite_error_iff.mp valid
    obtain ⟨hnonneg, valid⟩ := ite_error_iff.mp valid
    obtain ⟨hindex, valid⟩ := ite_error_iff.mp valid
    rcases hsession : (event.get "session_id").nonempty? with _ | id
    · rw [hsession] at valid
      exact nomatch valid
    rw [hsession] at valid
    obtain ⟨hsame, valid⟩ := ite_error_iff.mp valid
    obtain ⟨envelopes, hmap, hchain, hfirst⟩ := ih valid
    rw [not_not] at hindex
    -- what the checks leave is an envelope with the next number
    have hvalid : validEnvelope event = some ⟨seq, id⟩ :=
      validEnvelope_some_iff.mpr ⟨hrecord, hseq, hsession, not_lt.mp hnonneg⟩
    refine ⟨⟨seq, id⟩ :: envelopes, ?_, List.isChain_cons.mpr ⟨?_, hchain⟩, ?_⟩
    · rw [List.map_cons, hvalid, hmap]
      rfl
    · intro next hnext
      obtain ⟨hnextSeq, hnextSession⟩ := hfirst next hnext
      refine ⟨?_, hnextSession id rfl⟩
      rw [hnextSeq, hindex]
      push_cast
      rfl
    · intro first hhead
      obtain rfl := Option.some.inj hhead
      refine ⟨hindex, fun known hknown => ?_⟩
      rw [Option.mem_def.mp hknown] at hsame
      have hid : known = id := by simpa using hsame
      exact hid.symm

theorem createLiveTimeline_continuous (durable : DurableTimeline) :
    Continuous (createLiveTimeline durable) := by
  obtain ⟨envelopes, hmap, hchain, -⟩ := validateFrom_ok durable.valid
  have hschema : schemaEvents durable.events = envelopes := by
    have hfilter : schemaEvents durable.events = (durable.events.map validEnvelope).filterMap id := by
      rw [List.filterMap_map]
      rfl
    rw [hfilter, hmap, List.filterMap_map]
    exact List.filterMap_some
  have hlast : durable.events.getLast?.map validEnvelope = envelopes.getLast?.map some := by
    rw [← List.getLast?_map, ← List.getLast?_map, hmap]
  constructor
  · exact hschema ▸ hchain
  · change (durable.events.getLast?.bind _) = (schemaEvents durable.events).getLast?.map _
    rw [hschema]
    rcases hend : durable.events.getLast? with _ | last
    · rw [hend, Option.map_none] at hlast
      rw [Option.map_eq_none_iff.mp hlast.symm]
      rfl
    · rw [hend] at hlast
      obtain ⟨envelope, henvelope, hvalid⟩ := Option.map_eq_some_iff.mp hlast.symm
      rw [henvelope]
      exact (validEnvelope_some_iff.mp hvalid.symm).2.1
  · change (durable.events.getLast?.bind _) = (schemaEvents durable.events).getLast?.map _
    rw [hschema]
    rcases hend : durable.events.getLast? with _ | last
    · rw [hend, Option.map_none] at hlast
      rw [Option.map_eq_none_iff.mp hlast.symm]
      rfl
    · rw [hend] at hlast
      obtain ⟨envelope, henvelope, hvalid⟩ := Option.map_eq_some_iff.mp hlast.symm
      rw [henvelope]
      exact (validEnvelope_some_iff.mp hvalid.symm).2.2.1

namespace LiveTimeline
variable {timeline : LiveTimeline} {event : JsValue}

/-- What a live event does to a timeline that is not to be read again: it is added, or a notice
is in its place. -/
theorem appendLiveEvent_cases (unbroken : timeline.requiresResync = false) :
    (∃ type detail, timeline.appendLiveEvent event = timeline.appendStreamNotice detail type) ∨
      ∃ envelope, validEnvelope event = some envelope ∧
        timeline.sequenceMatches envelope = true ∧ timeline.sessionMatches envelope = true ∧
        timeline.appendLiveEvent event =
          ⟨timeline.events ++ [event], some envelope.seq, some envelope.sessionId, false⟩ := by
  unfold appendLiveEvent
  rw [unbroken, if_neg Bool.false_ne_true]
  rcases hvalid : validEnvelope event with _ | envelope
  · exact Or.inl ⟨_, _, rfl⟩
  dsimp only
  split_ifs with hdiffers
  · exact Or.inl ⟨_, _, rfl⟩
  · rw [Bool.not_eq_true, Bool.or_eq_false_iff, Bool.not_eq_false', Bool.not_eq_false'] at hdiffers
    exact Or.inr ⟨envelope, rfl, hdiffers.1, hdiffers.2, rfl⟩

theorem appendLiveEvent_blocked (blocked : timeline.requiresResync = true) :
    timeline.appendLiveEvent event = timeline := by
  rw [appendLiveEvent, blocked, if_pos rfl]

theorem schemaEvents_notice (events : List JsValue) (type : String) (detail : JsValue) :
    schemaEvents (events ++ [streamNotice type detail]) = schemaEvents events := by
  have hnone : schemaEvents [streamNotice type detail] = [] := by
    rw [schemaEvents, List.filterMap_cons, streamNotice_no_event, List.filterMap_nil]
  rw [schemaEvents_append, hnone, List.append_nil]

end LiveTimeline

theorem Continuous.notice {timeline : LiveTimeline} (h : Continuous timeline) (detail : JsValue)
    (type : String) : Continuous (timeline.appendStreamNotice detail type) := by
  have hsame : schemaEvents (timeline.appendStreamNotice detail type).events =
      schemaEvents timeline.events := LiveTimeline.schemaEvents_notice _ _ _
  constructor
  · rw [hsame]
    exact h.follows
  · rw [hsame]
    exact h.lastSeq
  · rw [hsame]
    exact h.sessionId

theorem Continuous.appendLiveEvent {timeline : LiveTimeline} (h : Continuous timeline)
    (event : JsValue) : Continuous (timeline.appendLiveEvent event) := by
  rcases hresync : timeline.requiresResync with _ | _
  swap
  · rw [LiveTimeline.appendLiveEvent_blocked hresync]
    exact h
  rcases @LiveTimeline.appendLiveEvent_cases timeline event hresync with hnotice | hadded
  · obtain ⟨type, detail, heq⟩ := hnotice
    rw [heq]
    exact h.notice detail type
  obtain ⟨envelope, hvalid, hsequence, hsession, heq⟩ := hadded
  have hone : schemaEvents [event] = [envelope] := by
    rw [schemaEvents, List.filterMap_cons, hvalid, List.filterMap_nil]
  have hschema : schemaEvents (timeline.events ++ [event]) = schemaEvents timeline.events ++ [envelope] := by
    rw [schemaEvents_append, hone]
  have hlast : (schemaEvents (timeline.events ++ [event])).getLast? = some envelope := by
    rw [hschema, List.getLast?_concat]
  rw [heq]
  refine ⟨?_, ?_, ?_⟩
  · rw [hschema]
    apply h.follows.append (List.IsChain.singleton envelope)
    intro last hlast next hnext
    obtain rfl := Option.some.inj hnext
    rw [LiveTimeline.sequenceMatches, h.lastSeq, Option.mem_def.mp hlast] at hsequence
    rw [LiveTimeline.sessionMatches, h.sessionId, Option.mem_def.mp hlast] at hsession
    exact ⟨of_decide_eq_true hsequence, of_decide_eq_true hsession⟩
  · rw [hlast]
    rfl
  · rw [hlast]
    rfl

/-- What one call does: the timeline stays continuous and, once it is to be read again, no event
is added to it; before, it takes the value up. -/
structure Receives (before after : LiveTimeline) (call : LiveCall) : Prop where
  continuous : Continuous before → Continuous after
  sticky : before.requiresResync = true → after.requiresResync = true ∧
    schemaEvents after.events = schemaEvents before.events
  holds : after.requiresResync = false → before.requiresResync = false ∧
    after.events = before.events ++ call.passed

theorem LiveTimeline.receives (timeline : LiveTimeline) (call : LiveCall) :
    Receives timeline (timeline.receive call) call := by
  have hnotice : ∀ (detail : JsValue) (type : String),
      Receives timeline (timeline.appendStreamNotice detail type) call := fun detail type =>
    ⟨fun h => h.notice detail type, fun _ => ⟨rfl, schemaEvents_notice _ _ _⟩, fun h => nomatch h⟩
  cases call with
  | event value =>
    rcases hresync : timeline.requiresResync with _ | _
    · rcases @appendLiveEvent_cases timeline value hresync with hbroken | hadded
      · obtain ⟨type, detail, heq⟩ := hbroken
        rw [receive, heq]
        exact hnotice detail type
      · obtain ⟨envelope, -, -, -, heq⟩ := hadded
        refine ⟨fun h => h.appendLiveEvent value, fun h => ?_, fun _ => ⟨hresync, ?_⟩⟩
        · exact nomatch hresync.symm.trans h
        · rw [receive, heq]
          rfl
    · rw [receive, appendLiveEvent_blocked hresync]
      exact ⟨fun h => h, fun _ => ⟨hresync, rfl⟩, fun h => nomatch hresync.symm.trans h⟩
  | overflow data =>
    cases data with
    | null => exact ⟨fun h => h, fun h => ⟨h, rfl⟩, fun h => ⟨h, (List.append_nil _).symm⟩⟩
    | _ => exact hnotice _ _

theorem LiveTimeline.receiveAll_continuous {timeline : LiveTimeline} (h : Continuous timeline)
    (calls : List LiveCall) : Continuous (timeline.receiveAll calls) := by
  induction calls generalizing timeline with
  | nil => exact h
  | cons call calls ih => exact ih ((timeline.receives call).continuous h)

theorem LiveTimeline.receiveAll_sticky {timeline : LiveTimeline}
    (h : timeline.requiresResync = true) (calls : List LiveCall) :
    (timeline.receiveAll calls).requiresResync = true ∧
      schemaEvents (timeline.receiveAll calls).events = schemaEvents timeline.events := by
  induction calls generalizing timeline with
  | nil => exact ⟨h, rfl⟩
  | cons call calls ih =>
    obtain ⟨hresync, hsame⟩ := (timeline.receives call).sticky h
    obtain ⟨hlater, hevents⟩ := ih hresync
    exact ⟨hlater, hevents.trans hsame⟩

theorem LiveTimeline.receiveAll_holds (timeline : LiveTimeline) (calls : List LiveCall)
    (h : (timeline.receiveAll calls).requiresResync = false) :
    timeline.requiresResync = false ∧
      (timeline.receiveAll calls).events = timeline.events ++ calls.flatMap LiveCall.passed := by
  induction calls generalizing timeline with
  | nil => exact ⟨h, (List.append_nil _).symm⟩
  | cons call calls ih =>
    obtain ⟨hresync, hevents⟩ := ih (timeline.receive call) h
    obtain ⟨hbefore, hone⟩ := (timeline.receives call).holds hresync
    refine ⟨hbefore, ?_⟩
    rw [List.flatMap_cons, ← List.append_assoc, ← hone]
    exact hevents

/-- A live timeline shows the events of one session in sequence, each value that it was passed
until the stream broke, and no event after that. -/
theorem live_timeline_continues (durable : DurableTimeline) (calls : List LiveCall) :
    Continuous ((createLiveTimeline durable).receiveAll calls) ∧
      (((createLiveTimeline durable).receiveAll calls).requiresResync = true →
        ∀ later, (((createLiveTimeline durable).receiveAll calls).receiveAll later).requiresResync = true ∧
          schemaEvents (((createLiveTimeline durable).receiveAll calls).receiveAll later).events =
            schemaEvents ((createLiveTimeline durable).receiveAll calls).events) ∧
      (((createLiveTimeline durable).receiveAll calls).requiresResync = false →
        ((createLiveTimeline durable).receiveAll calls).events =
          durable.events ++ calls.flatMap LiveCall.passed) := by
  refine ⟨?_, fun h later => ?_, fun h => ?_⟩
  · exact LiveTimeline.receiveAll_continuous (createLiveTimeline_continuous durable) calls
  · exact LiveTimeline.receiveAll_sticky h later
  · exact ((createLiveTimeline durable).receiveAll_holds calls h).2

example : ((createLiveTimeline .empty).receiveAll [.overflow .undefined, .event .null]).events.length = 1 :=
  rfl

end Rrjj
