import Rrjj.Ui.LiveView

/-! A live view and the daemons that it follows: events are recorded and streamed, connections are
lost and made again, the user connects and loads files, each whenever it can happen. What the
view shows is a stretch of what one session has recorded. -/

namespace Rrjj
open Library

/-- One stream of a daemon to an event source: from where it was subscribed, up to where it was
received, and what is still on its way. -/
structure Connection where
  since : ℕ
  position : ℕ
  inFlight : List (Received Event) := []

/-- `recorded` is what the sink of each session has accepted; `probes` and `loads` are what the view
waits for, and `file` is the text that was taken up last. -/
structure LiveSession where
  recorded : String → List Event := fun _ => []
  current : String
  view : RrjjLive := {}
  connections : ℕ → Option Connection := fun _ => none
  probes : List ℕ := []
  loads : List JsText := []
  file : Option JsText := none

inductive LiveMove where
  | record (event : Event)
  | restart (sessionId : String)
  | opened (source : ℕ)
  | pump (source : ℕ)
  | drop (source : ℕ)
  | message (source : ℕ) (message : SseMessage)
  | click
  | choose (text : JsText)
  | loaded (text : JsText)
  | probed (probe : ℕ) (status : JsValue)
  | attach (hasSrc : Bool)
  | detach

namespace LiveSession
variable {host : LiveHost}

def setConnection (s : LiveSession) (source : ℕ) (connection : Option Connection) : LiveSession :=
  { s with connections := Function.update s.connections source connection }

@[simp] theorem setConnection_self (s : LiveSession) (source : ℕ) (connection : Option Connection) :
    (s.setConnection source connection).connections source = connection := by
  unfold setConnection
  exact Function.update_self ..

theorem setConnection_other {source other : ℕ} (differs : other ≠ source) (s : LiveSession)
    (connection : Option Connection) :
    (s.setConnection source connection).connections other = s.connections other := by
  unfold setConnection
  exact Function.update_of_ne differs ..

def Accepts (s : LiveSession) (event : Event) : Prop :=
  event.sessionId = s.current ∧ event.seq = (s.recorded s.current).length

def durable (host : LiveHost) (s : LiveSession) : DurableTimeline :=
  match s.file.map (parseNdjson host.parse) with
  | some (.ok durable) => durable
  | _ => .empty

def fileAfter (host : LiveHost) (text : JsText) (s : LiveSession) : Option JsText :=
  match parseNdjson host.parse text with
  | .ok _ => some text
  | .error _ => s.file

/-- A move, where it can be made. A source that is closed is not opened again, but a message of it may
still arrive. -/
inductive Step (host : LiveHost) : LiveSession → LiveMove → LiveSession → Prop
  | record {s : LiveSession} {event : Event} (accepts : s.Accepts event) :
      Step host s (.record event)
        { s with recorded := Function.update s.recorded s.current (s.recorded s.current ++ [event]) }
  | restart {s : LiveSession} {sessionId : String} (fresh : s.recorded sessionId = []) :
      Step host s (.restart sessionId)
        { s with current := sessionId, connections := fun _ => none }
  | opened {s : LiveSession} {source : ℕ} (created : source < s.view.created)
      (alive : s.view.closed source = false) (lost : s.connections source = none) :
      Step host s (.opened source)
        (s.setConnection source
          (some ⟨(s.recorded s.current).length, (s.recorded s.current).length, []⟩))
  | pump {s : LiveSession} {source next : ℕ} {connection : Connection} {item : Received Event}
      (connected : s.connections source = some connection)
      (received : host.channel.recv (s.recorded s.current) connection.position = some (item, next)) :
      Step host s (.pump source)
        (s.setConnection source (some { connection with
          position := next
          inFlight := connection.inFlight ++ [item] }))
  | drop {s : LiveSession} {source : ℕ} :
      Step host s (.drop source) (s.setConnection source none)
  | message {s : LiveSession} {source : ℕ} {connection : Connection} {item : Received Event}
      {rest : List (Received Event)} (connected : s.connections source = some connection)
      (arrives : connection.inFlight = item :: rest) :
      Step host s (.message source (sseMessage host item))
        { s.setConnection source (some { connection with inFlight := rest }) with
          view := s.view.receive host source (sseMessage host item) }
  | click {s : LiveSession} : Step host s .click { s with view := s.view.click }
  | choose {s : LiveSession} {text : JsText} :
      Step host s (.choose text) { s with view := s.view.choose, loads := s.loads ++ [text] }
  | loaded {s : LiveSession} {text : JsText} (awaited : text ∈ s.loads) :
      Step host s (.loaded text)
        { s with
          view := s.view.loaded host text
          loads := s.loads.erase text
          file := s.fileAfter host text }
  | probed {s : LiveSession} {probe : ℕ} {status : JsValue} (awaited : probe ∈ s.probes) :
      Step host s (.probed probe status)
        { s with view := s.view.probed probe status, probes := s.probes.erase probe }
  | attach {s : LiveSession} {hasSrc : Bool} :
      Step host s (.attach hasSrc)
        { s with
          view := s.view.connectedCallback hasSrc
          probes := if s.view.initialized ∨ hasSrc then s.probes
            else s.probes ++ [s.view.autoProbe + 1] }
  | detach {s : LiveSession} : Step host s .detach { s with view := s.view.disconnectedCallback }

inductive Free (host : LiveHost) : LiveSession → LiveMove → LiveSession → Prop
  | own {s s' : LiveSession} {move : LiveMove} (made : Step host s move s') : Free host s move s'
  | stray {s : LiveSession} {source : ℕ} {message : SseMessage} :
      Free host s (.message source message) { s with view := s.view.receive host source message }

/-- A run of such moves, each made in a state that meets a condition. -/
inductive Run (moves : LiveSession → LiveMove → LiveSession → Prop) (meets : LiveSession → LiveMove → Prop)
    (first : LiveSession) : LiveSession → Prop
  | start : Run moves meets first first
  | step {s s' : LiveSession} (move : LiveMove) (run : Run moves meets first s) (meet : meets s move)
      (made : moves s move s') : Run moves meets first s'

/-- A page that was just opened on a daemon which has recorded nothing yet. -/
def initial (sessionId : String) : LiveSession where
  current := sessionId

end LiveSession

section
variable {host : LiveHost} {event : Event} {value : JsValue}

theorem event_envelope (documented : host.Documented)
    (read : host.parse (JsText.of (host.eventText event)) = .ok value) {envelope : Envelope}
    (h : validEnvelope value = some envelope) :
    envelope.seq = event.seq ∧ envelope.sessionId = JsText.of event.sessionId := by
  obtain ⟨hsession, hseq⟩ := documented.event event value read
  obtain ⟨-, hnumber, hnonempty, -⟩ := validEnvelope_some_iff.mp h
  refine ⟨hseq _ hnumber, ?_⟩
  rw [hsession] at hnonempty
  unfold JsValue.nonempty? at hnonempty
  dsimp only at hnonempty
  split_ifs at hnonempty
  exact (Option.some.inj hnonempty).symm

end

theorem follows_seq {envelopes : List Envelope} {first : ℤ} (chain : envelopes.IsChain Envelope.Follows)
    (head : ∀ envelope ∈ envelopes.head?, envelope.seq = first) :
    ∀ last ∈ envelopes.getLast?, last.seq = first + envelopes.length - 1 := by
  induction envelopes generalizing first with
  | nil => exact fun last hlast => absurd hlast (by simp)
  | cons envelope rest ih =>
    have hfirst := head envelope rfl
    cases rest with
    | nil =>
      intro last hlast
      obtain rfl : envelope = last := by simpa using hlast
      rw [hfirst]
      simp
    | cons next rest =>
      obtain ⟨hfollows, hrest⟩ := List.isChain_cons_cons.mp chain
      intro last hlast
      have hstart : ∀ other ∈ (next :: rest).head?, other.seq = first + 1 := by
        intro other hother
        rw [← Option.some.inj hother, hfollows.1, hfirst]
      have hnext := ih hrest hstart last (by simpa using hlast)
      rw [hnext]
      simp only [List.length_cons]
      push_cast
      ring

theorem durable_last {durable : DurableTimeline} (h : durable.events ≠ []) :
    ∃ last envelope, durable.events.getLast? = some last ∧ validEnvelope last = some envelope ∧
      envelope.seq = (durable.events.length - 1 : ℤ) := by
  obtain ⟨envelopes, hmap, hchain, hhead⟩ := validateFrom_ok durable.valid
  have hlength : durable.events.length = envelopes.length := by
    simpa using congrArg List.length hmap
  obtain ⟨last, hlast⟩ : ∃ last, durable.events.getLast? = some last :=
    Option.ne_none_iff_exists'.mp (by simpa using h)
  have hvalid : envelopes.getLast?.map some = some (validEnvelope last) := by
    rw [← List.getLast?_map, ← hmap, List.getLast?_map, hlast]
    rfl
  obtain ⟨envelope, henvelope, hsome⟩ := Option.map_eq_some_iff.mp hvalid
  have hseq := follows_seq hchain (fun other hother => (hhead other hother).1) envelope henvelope
  refine ⟨last, envelope, hlast, hsome.symm, ?_⟩
  rw [hseq, hlength]
  simp

theorem createLiveTimeline_last {durable : DurableTimeline} (h : durable.events ≠ []) :
    (createLiveTimeline durable).lastSeq = some (durable.events.length - 1 : ℤ) ∧
      ∃ sessionId, (createLiveTimeline durable).sessionId = some sessionId := by
  obtain ⟨last, envelope, hlast, hvalid, hseq⟩ := durable_last h
  obtain ⟨-, hget, hsession, -⟩ := validEnvelope_some_iff.mp hvalid
  constructor
  · show (durable.events.getLast?.bind fun last => (last.get "seq").safeInteger?) = _
    rw [hlast, ← hseq]
    exact hget
  · refine ⟨envelope.sessionId, ?_⟩
    show (durable.events.getLast?.bind fun last => (last.get "session_id").nonempty?) = _
    rw [hlast]
    exact hsession

structure Shown where
  sessionId : String
  start : ℕ
  live : List Event
  values : List JsValue
  notices : List JsValue

def LiveHost.reads (host : LiveHost) (event : Event) : Except JsText JsValue :=
  host.parse (JsText.of (host.eventText event))

/-- The timeline shows the file, and then events as the session has recorded them, next after those
of the file if it has any. -/
structure Shown.Of (host : LiveHost) (recorded : String → List Event) (durable : DurableTimeline)
    (timeline : LiveTimeline) (shown : Shown) : Prop where
  events : timeline.events = durable.events ++ shown.values ++ shown.notices
  read : shown.live.map host.reads = shown.values.map .ok
  stretch : shown.live <+: (recorded shown.sessionId).drop shown.start
  follows : shown.live ≠ [] → durable.events ≠ [] →
    shown.start = durable.events.length ∧
      (createLiveTimeline durable).sessionId = some (JsText.of shown.sessionId)
  notices : ∀ notice ∈ shown.notices, validEnvelope notice = none
  unbroken : timeline.requiresResync = false → shown.notices = []
  quiet : shown.live = [] → timeline.lastSeq = (createLiveTimeline durable).lastSeq ∧
    timeline.sessionId = (createLiveTimeline durable).sessionId
  last : shown.live ≠ [] → timeline.lastSeq = some (shown.start + shown.live.length - 1 : ℤ) ∧
    timeline.sessionId = some (JsText.of shown.sessionId)

section
variable {host : LiveHost} {recorded later : String → List Event} {durable : DurableTimeline}
  {timeline : LiveTimeline} {shown : Shown} {event : Event} {value : JsValue}

theorem shown_loaded (host : LiveHost) (recorded : String → List Event) (durable : DurableTimeline) :
    (⟨"", 0, [], [], []⟩ : Shown).Of host recorded durable (createLiveTimeline durable) where
  events := by
    show durable.events = durable.events ++ [] ++ []
    rw [List.append_nil, List.append_nil]
  read := rfl
  stretch := List.nil_prefix
  follows h := absurd rfl h
  notices _ h := absurd h List.not_mem_nil
  unbroken _ := rfl
  quiet _ := ⟨rfl, rfl⟩
  last h := absurd rfl h

theorem Shown.Of.grow (h : shown.Of host recorded durable timeline)
    (grown : ∀ sessionId, recorded sessionId <+: later sessionId) :
    shown.Of host later durable timeline where
  events := h.events
  read := h.read
  stretch := h.stretch.trans ((grown _).drop _)
  follows := h.follows
  notices := h.notices
  unbroken := h.unbroken
  quiet := h.quiet
  last := h.last

theorem Shown.Of.notice (h : shown.Of host recorded durable timeline) (detail : JsValue) (type : String) :
    { shown with notices := shown.notices ++ [streamNotice type detail] }.Of host recorded durable
      (timeline.appendStreamNotice detail type) where
  events := by
    show timeline.events ++ _ = _
    rw [h.events, List.append_assoc]
  read := h.read
  stretch := h.stretch
  follows := h.follows
  notices notice hnotice := by
    rcases List.mem_append.mp hnotice with hold | hnew
    · exact h.notices notice hold
    · rw [List.mem_singleton.mp hnew]
      exact streamNotice_no_event type detail
  unbroken hfalse := absurd hfalse (by simp [LiveTimeline.appendStreamNotice])
  quiet := h.quiet
  last := h.last

theorem prefix_snoc {α : Type} {values live : List α} {start : ℕ} {value : α}
    (stretch : live <+: values.drop start) (next : values[start + live.length]? = some value) :
    live ++ [value] <+: values.drop start := by
  obtain ⟨rest, hrest⟩ := stretch
  rw [← List.getElem?_drop, ← hrest, List.getElem?_append_right (Nat.le_refl _), Nat.sub_self] at next
  cases rest with
  | nil => exact absurd next (by simp)
  | cons first rest =>
    obtain rfl : first = value := by simpa using next
    rw [← hrest]
    exact ⟨rest, by simp⟩

theorem matches_last {timeline : LiveTimeline} {envelope : Envelope} {seq : ℤ}
    (sequence : timeline.sequenceMatches envelope = true) (last : timeline.lastSeq = some seq) :
    envelope.seq = seq + 1 := by
  unfold LiveTimeline.sequenceMatches at sequence
  rw [last] at sequence
  exact of_decide_eq_true sequence

theorem matches_session {timeline : LiveTimeline} {envelope : Envelope} {sessionId : JsText}
    (session : timeline.sessionMatches envelope = true) (last : timeline.sessionId = some sessionId) :
    envelope.sessionId = sessionId := by
  unfold LiveTimeline.sessionMatches at session
  rw [last] at session
  exact of_decide_eq_true session

def Shown.EndsAt (shown : Shown) (sessionId : String) (place : ℕ) : Prop :=
  shown.live ≠ [] ∧ shown.sessionId = sessionId ∧ shown.start + shown.live.length = place

/-- The first event after the file, or the first of all. -/
theorem Shown.Of.appendFirst (h : shown.Of host recorded durable timeline) (quiet : shown.live = [])
    (unbroken : shown.notices = []) (read : host.reads event = .ok value)
    (held : (recorded event.sessionId)[event.seq]? = some event) {envelope : Envelope}
    (names : envelope.seq = event.seq ∧ envelope.sessionId = JsText.of event.sessionId)
    (sequence : timeline.sequenceMatches envelope = true)
    (session : timeline.sessionMatches envelope = true) :
    (⟨event.sessionId, event.seq, [event], [value], []⟩ : Shown).Of host recorded durable
      ⟨timeline.events ++ [value], some envelope.seq, some envelope.sessionId, false⟩ where
  events := by
    have hvalues : shown.values = [] := by
      have hread := h.read
      rw [quiet] at hread
      exact List.map_eq_nil_iff.mp hread.symm
    show timeline.events ++ [value] = _
    rw [h.events, hvalues, unbroken]
    simp
  read := by
    show [host.reads event] = [.ok value]
    rw [read]
  stretch := prefix_snoc List.nil_prefix held
  follows := by
    intro _ hdurable
    obtain ⟨hlastSeq, hlastId⟩ := h.quiet quiet
    obtain ⟨hlast, sessionId, hsome⟩ := createLiveTimeline_last hdurable
    have hnext := matches_last sequence (hlastSeq.trans hlast)
    have hsame := matches_session session (hlastId.trans hsome)
    have hseq := names.1
    constructor
    · show event.seq = durable.events.length
      omega
    · show (createLiveTimeline durable).sessionId = _
      rw [hsome, ← hsame, names.2]
  notices _ hmem := absurd hmem List.not_mem_nil
  unbroken _ := rfl
  quiet hnone := absurd hnone (List.cons_ne_nil _ _)
  last := by
    intro _
    constructor
    · show some envelope.seq = some ((event.seq : ℤ) + (1 : ℕ) - 1)
      rw [names.1]
      simp
    · show some envelope.sessionId = _
      rw [names.2]

theorem Shown.Of.follows_last (h : shown.Of host recorded durable timeline) (live : shown.live ≠ [])
    {envelope : Envelope}
    (names : envelope.seq = event.seq ∧ envelope.sessionId = JsText.of event.sessionId)
    (sequence : timeline.sequenceMatches envelope = true)
    (session : timeline.sessionMatches envelope = true) :
    event.seq = shown.start + shown.live.length ∧ event.sessionId = shown.sessionId := by
  obtain ⟨hlastSeq, hlastId⟩ := h.last live
  have hnext := matches_last sequence hlastSeq
  have hsame := matches_session session hlastId
  constructor
  · have hseq := names.1
    omega
  · exact JsText.of_injective (names.2.symm.trans hsame)

theorem Shown.Of.appendNext (h : shown.Of host recorded durable timeline) (live : shown.live ≠ [])
    (unbroken : shown.notices = []) (read : host.reads event = .ok value)
    (held : (recorded event.sessionId)[event.seq]? = some event) {envelope : Envelope}
    (names : envelope.seq = event.seq ∧ envelope.sessionId = JsText.of event.sessionId)
    (sequence : timeline.sequenceMatches envelope = true)
    (session : timeline.sessionMatches envelope = true) :
    { shown with live := shown.live ++ [event], values := shown.values ++ [value] }.Of host recorded
      durable ⟨timeline.events ++ [value], some envelope.seq, some envelope.sessionId, false⟩ where
  events := by
    show timeline.events ++ [value] = _
    rw [h.events, unbroken]
    simp
  read := by
    show (shown.live ++ [event]).map host.reads = _
    rw [List.map_append, List.map_append, h.read, List.map_singleton, read]
    rfl
  stretch := by
    obtain ⟨hplace, hsessionId⟩ := h.follows_last live names sequence session
    rw [hplace, hsessionId] at held
    exact prefix_snoc h.stretch held
  follows _ hdurable := h.follows live hdurable
  notices := h.notices
  unbroken _ := unbroken
  quiet hnone := absurd hnone (by simp)
  last := by
    intro _
    obtain ⟨hplace, hsessionId⟩ := h.follows_last live names sequence session
    constructor
    · show some envelope.seq = some ((shown.start : ℤ) + (shown.live ++ [event]).length - 1)
      rw [names.1, hplace]
      simp
      omega
    · show some envelope.sessionId = some (JsText.of shown.sessionId)
      rw [names.2, hsessionId]

theorem Shown.Of.appendLiveEvent (h : shown.Of host recorded durable timeline)
    (documented : host.Documented) (read : host.reads event = .ok value)
    (held : (recorded event.sessionId)[event.seq]? = some event) :
    ∃ after : Shown, after.Of host recorded durable (timeline.appendLiveEvent value) ∧
      ((timeline.appendLiveEvent value).requiresResync = false →
        after.EndsAt event.sessionId (event.seq + 1)) := by
  rcases hresync : timeline.requiresResync with _ | _
  swap
  · rw [LiveTimeline.appendLiveEvent_blocked hresync]
    exact ⟨shown, h, fun hunbroken => absurd hunbroken (by simp [hresync])⟩
  rcases @LiveTimeline.appendLiveEvent_cases timeline value hresync with hnotice | hadded
  · obtain ⟨type, detail, heq⟩ := hnotice
    rw [heq]
    exact ⟨_, h.notice detail type, fun hunbroken => Bool.noConfusion hunbroken⟩
  obtain ⟨envelope, hvalid, hsequence, hsession, heq⟩ := hadded
  have hnames := event_envelope documented read hvalid
  have hnotices := h.unbroken hresync
  rw [heq]
  by_cases hlive : shown.live = []
  · refine ⟨_, h.appendFirst hlive hnotices read held hnames hsequence hsession, fun _ => ?_⟩
    exact ⟨List.cons_ne_nil _ _, rfl, rfl⟩
  · refine ⟨_, h.appendNext hlive hnotices read held hnames hsequence hsession, fun _ => ?_⟩
    obtain ⟨hplace, hsessionId⟩ := h.follows_last hlive hnames hsequence hsession
    refine ⟨by simp, hsessionId.symm, ?_⟩
    rw [hplace, List.length_append]
    rfl

theorem appendNull_cases (timeline : LiveTimeline) :
    timeline.requiresResync = true ∧ timeline.appendLiveEvent .null = timeline ∨
      ∃ type detail, timeline.appendLiveEvent .null = timeline.appendStreamNotice detail type := by
  unfold LiveTimeline.appendLiveEvent
  split_ifs with hresync
  · exact Or.inl ⟨hresync, rfl⟩
  · exact Or.inr ⟨_, _, rfl⟩

theorem Shown.Of.appendNull (h : shown.Of host recorded durable timeline) :
    ∃ after : Shown, after.Of host recorded durable (timeline.appendLiveEvent .null) := by
  rcases appendNull_cases timeline with ⟨-, hsame⟩ | ⟨type, detail, hnotice⟩
  · rw [hsame]
    exact ⟨shown, h⟩
  · rw [hnotice]
    exact ⟨_, h.notice detail type⟩

theorem appendNull_broken (timeline : LiveTimeline) :
    (timeline.appendLiveEvent .null).requiresResync = true := by
  rcases appendNull_cases timeline with ⟨hbroken, hsame⟩ | ⟨type, detail, hnotice⟩
  · rw [hsame]
    exact hbroken
  · rw [hnotice]
    rfl

end

namespace RrjjLive
variable {host : LiveHost} {view : RrjjLive} {source : ℕ} {event : Event}

@[simp] theorem disconnect_timeline : view.disconnect.timeline = view.timeline := by
  unfold disconnect
  split <;> rfl

@[simp] theorem disconnect_source : view.disconnect.source = none := by
  unfold disconnect
  split
  · rfl
  · assumption

@[simp] theorem disconnect_created : view.disconnect.created = view.created := by
  unfold disconnect
  split <;> rfl

@[simp] theorem disconnect_items : view.disconnect.items = view.items := by
  unfold disconnect
  split <;> rfl

structure Rewired (view after : RrjjLive) : Prop where
  timeline : after.timeline = view.timeline
  items : after.items = view.items
  created : view.created ≤ after.created
  source : ∀ source, after.source = some source → view.source = some source ∨ view.created ≤ source

theorem Rewired.refl (view : RrjjLive) : Rewired view view := ⟨rfl, rfl, Nat.le_refl _, fun _ => Or.inl⟩

theorem Rewired.via {view first after : RrjjLive} (h : Rewired first after)
    (timeline : first.timeline = view.timeline) (items : first.items = view.items)
    (created : first.created = view.created) (source : first.source = view.source) :
    Rewired view after where
  timeline := h.timeline.trans timeline
  items := h.items.trans items
  created := created ▸ h.created
  source := created ▸ source ▸ h.source

theorem disconnect_rewired (view : RrjjLive) : Rewired view view.disconnect where
  timeline := disconnect_timeline
  items := disconnect_items
  created := Nat.le_of_eq disconnect_created.symm
  source source h := by
    rw [disconnect_source] at h
    exact absurd h.symm (Option.some_ne_none _)

theorem connect_rewired (view : RrjjLive) : Rewired view view.connect := by
  unfold connect
  split_ifs
  · exact Rewired.refl view
  · exact ⟨disconnect_timeline, disconnect_items, Nat.le_succ _,
      fun source h => Or.inr (Nat.le_of_eq (Option.some.inj h))⟩

theorem click_rewired (view : RrjjLive) : Rewired view view.click :=
  (connect_rewired _).via rfl rfl rfl rfl

theorem choose_rewired (view : RrjjLive) : Rewired view view.choose :=
  (disconnect_rewired _).via rfl rfl rfl rfl

theorem probed_rewired (view : RrjjLive) (probe : ℕ) (status : JsValue) :
    Rewired view (view.probed probe status) := by
  unfold probed
  split_ifs
  · exact connect_rewired view
  · exact Rewired.refl view

theorem connectedCallback_rewired (view : RrjjLive) (hasSrc : Bool) :
    Rewired view (view.connectedCallback hasSrc) := by
  unfold connectedCallback
  dsimp only
  split_ifs
  · exact (Rewired.refl _).via rfl rfl rfl rfl
  · exact (connect_rewired _).via rfl rfl rfl rfl
  · exact (Rewired.refl _).via rfl rfl rfl rfl

theorem disconnectedCallback_rewired (view : RrjjLive) : Rewired view view.disconnectedCallback :=
  (disconnect_rewired _).via rfl rfl rfl rfl

theorem receive_stale (stale : view.source ≠ some source) (message : SseMessage) :
    view.receive host source message = view := by
  unfold receive onEvent onOverflow
  rw [if_pos stale, if_pos stale]
  split_ifs <;> rfl

theorem disconnect_with (view : RrjjLive) (timeline : LiveTimeline) (items : List JsText) :
    ({ view with timeline := timeline, items := items } : RrjjLive).disconnect =
      { view.disconnect with timeline := timeline, items := items } := by
  obtain ⟨_, _, source, _⟩ := view
  cases source <;> rfl

theorem render_some {after : RrjjLive} (h : view.render host = some after) :
    ∃ items, after = { view with items := items } := by
  obtain ⟨items, -, rfl⟩ := Option.map_eq_some_iff.mp h
  exact ⟨items, rfl⟩

theorem render_getD (host : LiveHost) (view : RrjjLive) :
    ∃ items, (view.render host).getD view = { view with items := items } := by
  rcases hrender : view.render host with _ | after
  · exact ⟨view.items, rfl⟩
  · obtain ⟨items, rfl⟩ := render_some hrender
    exact ⟨items, rfl⟩

theorem invalid_eq (host : LiveHost) (view : RrjjLive) (timeline : LiveTimeline) : ∃ items,
    ({ view with timeline := timeline } : RrjjLive).invalid host =
      { view.disconnect with timeline := timeline.appendLiveEvent .null, items := items } := by
  have hinvalid := render_getD host
    { view.disconnect with timeline := timeline.appendLiveEvent .null, items := view.items }
  obtain ⟨items, hitems⟩ := hinvalid
  refine ⟨items, ?_⟩
  unfold invalid
  rw [disconnect_with view timeline view.items]
  exact hitems

theorem loaded_eq (host : LiveHost) (view : RrjjLive) {text : JsText} {durable : DurableTimeline}
    (parsed : parseNdjson host.parse text = .ok durable) : ∃ items,
    view.loaded host text = { view with timeline := createLiveTimeline durable, items := items } := by
  unfold loaded
  rw [parsed]
  exact render_getD host { view with timeline := createLiveTimeline durable }

theorem loaded_refused (view : RrjjLive) {text message : JsText}
    (refused : parseNdjson host.parse text = .error message) : view.loaded host text = view := by
  unfold loaded
  rw [refused]

theorem loaded_wiring (text : JsText) : (view.loaded host text).source = view.source ∧
    (view.loaded host text).created = view.created ∧ (view.loaded host text).closed = view.closed := by
  rcases hparsed : parseNdjson host.parse text with message | durable
  · rw [loaded_refused view hparsed]
    exact ⟨rfl, rfl, rfl⟩
  · obtain ⟨items, heq⟩ := loaded_eq host view hparsed
    rw [heq]
    exact ⟨rfl, rfl, rfl⟩

/-- Where a message tells the view of an overflow, the timeline with its notice can be rendered. -/
def Renders (host : LiveHost) (source : ℕ) (message : SseMessage) (view : RrjjLive) : Prop :=
  view.source = some source → message.event = "overflow" →
    ∀ timeline, view.overflowed host (JsText.of message.data) = .ok timeline →
      renderItems host.page timeline.events ≠ none

/-- A message can change what is shown and close the source. Where rendering returns, the source stays
open only if this does not break the timeline. -/
theorem receive_cases (message : SseMessage) :
    (∃ timeline items,
      view.receive host source message = { view with timeline := timeline, items := items } ∧
        (view.Renders host source message → timeline.requiresResync = true →
          view.timeline.requiresResync = true)) ∨
      ∃ timeline items, view.receive host source message =
        { view.disconnect with timeline := timeline, items := items } := by
  have hsame : (∃ timeline items, view = { view with timeline := timeline, items := items } ∧
      (view.Renders host source message → timeline.requiresResync = true →
        view.timeline.requiresResync = true)) := ⟨view.timeline, view.items, rfl, fun _ h => h⟩
  unfold receive
  split_ifs with hevent hoverflow
  · unfold onEvent
    split_ifs
    · exact Or.inl hsame
    cases host.parse (JsText.of message.data) with
    | error _ =>
      obtain ⟨items, heq⟩ := invalid_eq host view view.timeline
      exact Or.inr ⟨_, items, heq⟩
    | ok value =>
      dsimp only
      split
      · obtain ⟨items, heq⟩ := invalid_eq host view (view.timeline.appendLiveEvent value)
        exact Or.inr ⟨_, items, heq⟩
      · next after hrender =>
        obtain ⟨items, rfl⟩ := render_some hrender
        split_ifs with hbroken
        · exact Or.inr ⟨_, items, disconnect_with view _ items⟩
        · exact Or.inl ⟨_, items, rfl, fun _ h => absurd h hbroken⟩
  · unfold onOverflow
    split_ifs with hstale
    · exact Or.inl hsame
    rcases htimeline : view.overflowed host (JsText.of message.data) with _ | timeline
    · exact Or.inl hsame
    · dsimp only
      split
      · -- a rendering that throws leaves the source open
        next hthrown =>
        refine Or.inl ⟨timeline, view.items, rfl, fun hrenders => ?_⟩
        have hnone := Option.map_eq_none_iff.mp hthrown
        exact absurd hnone (hrenders (not_not.mp hstale) hoverflow timeline htimeline)
      · next after hrender =>
        obtain ⟨items, rfl⟩ := render_some hrender
        exact Or.inr ⟨_, items, disconnect_with view _ items⟩
  · exact Or.inl hsame

theorem receive_created (message : SseMessage) :
    (view.receive host source message).created = view.created := by
  rcases @receive_cases host view source message with ⟨timeline, items, h, -⟩ | ⟨timeline, items, h⟩
  · rw [h]
  · rw [h]
    exact disconnect_created

theorem receive_source {message : SseMessage} {other : ℕ}
    (h : (view.receive host source message).source = some other) : view.source = some other := by
  rcases @receive_cases host view source message with ⟨timeline, items, heq, -⟩ | ⟨timeline, items, heq⟩
  · rw [heq] at h
    exact h
  · rw [heq] at h
    exact absurd (disconnect_source.symm.trans h).symm (Option.some_ne_none _)

theorem receive_value (attached : view.source = some source) (event : Event) :
    let timeline := (view.receive host source (sseMessage host (.value event))).timeline
    (∃ value, host.reads event = .ok value ∧ (timeline = view.timeline.appendLiveEvent value ∨
      timeline = (view.timeline.appendLiveEvent value).appendLiveEvent .null)) ∨
      timeline = view.timeline.appendLiveEvent .null := by
  intro timeline
  have htimeline : timeline = (view.onEvent host source (JsText.of (host.eventText event))).timeline := rfl
  rw [htimeline]
  unfold onEvent
  rw [if_neg (not_not.mpr attached)]
  rcases hread : host.parse (JsText.of (host.eventText event)) with message | value
  · obtain ⟨items, heq⟩ := invalid_eq host view view.timeline
    right
    show ((({ view with timeline := view.timeline } : RrjjLive).invalid host).timeline) = _
    rw [heq]
  · left
    refine ⟨value, hread, ?_⟩
    dsimp only
    split
    · obtain ⟨items, heq⟩ := invalid_eq host view (view.timeline.appendLiveEvent value)
      rw [heq]
      exact Or.inr rfl
    · next after hrender =>
      obtain ⟨items, rfl⟩ := render_some hrender
      left
      split_ifs
      · exact disconnect_timeline
      · rfl

theorem receive_lagged (documented : host.Documented) (attached : view.source = some source) (missed : ℕ) :
    ∃ detail, (view.receive host source (sseMessage host (.lagged missed))).timeline =
      view.timeline.appendStreamNotice detail "sse_overflow" := by
  have htold : ∃ detail, view.overflowed host (JsText.of (overflowText missed)) =
      .ok (view.timeline.appendStreamNotice detail "sse_overflow") := by
    unfold overflowed
    rcases hread : host.parse (JsText.of (overflowText missed)) with message | value
    · exact ⟨_, rfl⟩
    · have hrecord := documented.overflow missed value hread
      cases value with
      | object fields => exact ⟨_, rfl⟩
      | _ => exact Bool.noConfusion hrecord
  obtain ⟨detail, htold⟩ := htold
  refine ⟨detail, ?_⟩
  show (view.onOverflow host source (JsText.of (overflowText missed))).timeline = _
  unfold onOverflow
  rw [if_neg (not_not.mpr attached), htold]
  dsimp only
  split
  · rfl
  · next after hrender =>
    obtain ⟨items, rfl⟩ := render_some hrender
    exact disconnect_timeline

/-- A message about what was recorded keeps what is shown a stretch of it; it leaves the timeline
unbroken where it is the next event only. -/
theorem receive_shown {recorded : String → List Event} {durable : DurableTimeline} {shown : Shown}
    {item : Received Event} (documented : host.Documented)
    (h : shown.Of host recorded durable view.timeline)
    (held : ∀ event, item = .value event → (recorded event.sessionId)[event.seq]? = some event) :
    ∃ after : Shown,
      after.Of host recorded durable (view.receive host source (sseMessage host item)).timeline ∧
        (view.source = some source →
          (view.receive host source (sseMessage host item)).timeline.requiresResync = false →
          ∃ event, item = .value event ∧ after.EndsAt event.sessionId (event.seq + 1)) := by
  by_cases hattached : view.source = some source
  swap
  · rw [receive_stale hattached]
    exact ⟨shown, h, fun hsource => absurd hsource hattached⟩
  cases item with
  | value event =>
    rcases @receive_value host view source hattached event with ⟨value, hread, hsame | hsame⟩ | hsame
    · obtain ⟨after, hafter, hends⟩ := h.appendLiveEvent documented hread (held event rfl)
      rw [hsame]
      exact ⟨after, hafter, fun _ hunbroken => ⟨event, rfl, hends hunbroken⟩⟩
    · -- rendering has thrown: the event is followed by a notice
      obtain ⟨after, hafter, -⟩ := h.appendLiveEvent documented hread (held event rfl)
      obtain ⟨last, hlast⟩ := hafter.appendNull
      rw [hsame]
      exact ⟨last, hlast, fun _ hunbroken => absurd hunbroken (by simp [appendNull_broken])⟩
    · obtain ⟨last, hlast⟩ := h.appendNull
      rw [hsame]
      exact ⟨last, hlast, fun _ hunbroken => absurd hunbroken (by simp [appendNull_broken])⟩
  | lagged missed =>
    obtain ⟨detail, heq⟩ := receive_lagged documented hattached missed
    rw [heq]
    exact ⟨_, h.notice detail "sse_overflow", fun _ hunbroken => Bool.noConfusion hunbroken⟩

structure Tidy (view : RrjjLive) : Prop where
  opened : ∀ source, view.source = some source ↔ source < view.created ∧ view.closed source = false
  fresh : ∀ source, view.created ≤ source → view.closed source = false
  broken : view.timeline.requiresResync = true → view.source = none

theorem Tidy.via {first : RrjjLive} (h : first.Tidy) (timeline : first.timeline = view.timeline)
    (source : first.source = view.source) (created : first.created = view.created)
    (closed : first.closed = view.closed) : view.Tidy where
  opened := source ▸ created ▸ closed ▸ h.opened
  fresh := created ▸ closed ▸ h.fresh
  broken := timeline ▸ source ▸ h.broken

theorem Tidy.disconnect_closed (h : view.Tidy) (source : ℕ) :
    view.disconnect.closed source = true ↔ source < view.created := by
  have hopened := h.opened source
  have hfresh := h.fresh source
  unfold RrjjLive.disconnect
  split
  next own hown =>
    show Function.update view.closed own true source = true ↔ _
    rw [hown] at hopened
    by_cases hsource : source = own
    · rw [hsource, Function.update_self]
      exact iff_of_true rfl ((h.opened own).mp hown).1
    · rw [Function.update_of_ne hsource]
      have hclosed : ¬(source < view.created ∧ view.closed source = false) := fun hopen =>
        hsource (Option.some.inj (hopened.mpr hopen)).symm
      grind
  next hnone =>
    rw [hnone] at hopened
    grind

theorem Tidy.disconnect (h : view.Tidy) : view.disconnect.Tidy where
  opened source := by
    rw [disconnect_source, disconnect_created, ← h.disconnect_closed]
    simp
  fresh source hcreated := by
    rw [disconnect_created] at hcreated
    rw [← Bool.not_eq_true]
    exact fun hclosed => absurd ((h.disconnect_closed source).mp hclosed) (Nat.not_lt_of_le hcreated)
  broken _ := disconnect_source

theorem Tidy.replace (h : view.Tidy) (none : view.source = none) (timeline : LiveTimeline)
    (items : List JsText) : ({ view with timeline := timeline, items := items } : RrjjLive).Tidy :=
  ⟨h.opened, h.fresh, fun _ => none⟩

theorem Tidy.connect (h : view.Tidy) : view.connect.Tidy := by
  unfold RrjjLive.connect
  split_ifs with hbroken
  · exact h
  · refine ⟨fun source => ?_, fun source hcreated => ?_, fun hresync => ?_⟩
    · have hclosed := h.disconnect_closed source
      show some view.created = some source ↔
        source < view.created + 1 ∧ view.disconnect.closed source = false
      rw [← Bool.not_eq_true, hclosed, Option.some.injEq]
      omega
    · rw [← Bool.not_eq_true]
      exact fun hclosed => absurd ((h.disconnect_closed source).mp hclosed) (Nat.not_lt_of_lt hcreated)
    · exact absurd (disconnect_timeline ▸ hresync) hbroken

theorem Tidy.receive (h : view.Tidy) {message : SseMessage} (renders : view.Renders host source message) :
    (view.receive host source message).Tidy := by
  rcases @receive_cases host view source message with
    ⟨timeline, items, heq, hbroken⟩ | ⟨timeline, items, heq⟩
  · rw [heq]
    exact ⟨h.opened, h.fresh, fun hresync => h.broken (hbroken renders hresync)⟩
  · rw [heq]
    exact h.disconnect.replace disconnect_source timeline items

theorem Tidy.loaded (h : view.Tidy) (text : JsText) : (view.loaded host text).Tidy := by
  rcases hparsed : parseNdjson host.parse text with message | durable
  · rw [loaded_refused view hparsed]
    exact h
  · obtain ⟨items, heq⟩ := loaded_eq host view hparsed
    rw [heq]
    exact ⟨h.opened, h.fresh, fun hresync => Bool.noConfusion hresync⟩

theorem Tidy.probed (h : view.Tidy) (probe : ℕ) (status : JsValue) : (view.probed probe status).Tidy := by
  unfold RrjjLive.probed
  split_ifs
  · exact h.connect
  · exact h

theorem Tidy.connectedCallback (h : view.Tidy) (hasSrc : Bool) : (view.connectedCallback hasSrc).Tidy := by
  unfold RrjjLive.connectedCallback
  dsimp only
  split_ifs
  · exact h.via rfl rfl rfl rfl
  · exact Tidy.connect (h.via rfl rfl rfl rfl)
  · exact h.via rfl rfl rfl rfl

theorem Tidy.click (h : view.Tidy) : view.click.Tidy := Tidy.connect (h.via rfl rfl rfl rfl)

theorem Tidy.choose (h : view.Tidy) : view.choose.Tidy := Tidy.disconnect (h.via rfl rfl rfl rfl)

theorem Tidy.disconnectedCallback (h : view.Tidy) : view.disconnectedCallback.Tidy :=
  Tidy.disconnect (h.via rfl rfl rfl rfl)

end RrjjLive

def exampleFlush (seq : ℕ) : Event := .new "s" seq "2026-01-01T00:00:00.000Z" (.flush ⟨"op:a", seq⟩)

def exampleFlushText (seq : ℕ) : String :=
  "\x7b\"v\":0,\"seq\":" ++ toString seq ++ ",\"session_id\":\"s\",\"ts\":\"2026-01-01T00:00:00.000Z\"," ++
    "\"type\":\"flush\",\"data\":\x7b\"op\":\"op:a\",\"through_seq\":" ++ toString seq ++ "\x7d\x7d"

def exampleFlushValue (seq : ℕ) : JsValue :=
  .object [(.of "v", .number (.finite 0)), (.of "seq", .number (.finite seq)), (.of "session_id", .text (.of "s")),
    (.of "ts", .text (.of "2026-01-01T00:00:00.000Z")), (.of "type", .text (.of "flush")),
    (.of "data", .object [(.of "op", .text (.of "op:a")), (.of "through_seq", .number (.finite seq))])]

def exampleOverflowValue : JsValue :=
  .object [(.of "message", .text (.of "channel lagged by 1")),
    (.of "recovery", .text (.of "reconnect_and_resync")), (.of "source", .text (.of "sse_broadcast")),
    (.of "type", .text (.of "overflow"))]

def exampleParse (text : JsText) : Except JsText JsValue :=
  if text = .of (exampleFlushText 0) then .ok (exampleFlushValue 0)
  else if text = .of (exampleFlushText 1) then .ok (exampleFlushValue 1)
  else if text = .of (overflowText 1) then .ok exampleOverflowValue
  else .error (.of "SyntaxError")

def exampleHost (capacity : ℕ) : LiveHost where
  channel := .keeping capacity
  eventText event :=
    if event = exampleFlush 0 then exampleFlushText 0
    else if event = exampleFlush 1 then exampleFlushText 1
    else ""
  parse := exampleParse
  page := {
    numberText := fun number =>
      if number = .finite 0 then .of "0" else if number = .finite 1 then .of "1" else .of "NaN"
    toNumber := fun _ => .nan
    add := fun first _ => first
    stringify := fun _ => .of "\x7b\x7d" }

theorem exampleParse_flush {seq : ℕ} {value : JsValue}
    (h : exampleParse (JsText.of (exampleFlushText seq)) = .ok value) (hseq : seq ≤ 1) :
    value = exampleFlushValue seq := by
  obtain rfl | rfl : seq = 0 ∨ seq = 1 := by omega
  · have hfirst : exampleParse _ = .ok (exampleFlushValue 0) := if_pos rfl
    exact (Except.ok.inj (hfirst.symm.trans h)).symm
  · have hother : ¬ JsText.of (exampleFlushText 1) = .of (exampleFlushText 0) := by decide +kernel
    have hone : exampleParse (JsText.of (exampleFlushText 1)) = .ok (exampleFlushValue 1) := by
      unfold exampleParse
      rw [if_neg hother, if_pos rfl]
    exact (Except.ok.inj (hone.symm.trans h)).symm

theorem exampleFlushValue_event {seq : ℕ} (h : seq ≤ 1) :
    (exampleFlushValue seq).get "session_id" = .text (JsText.of "s") ∧
      ∀ read, ((exampleFlushValue seq).get "seq").safeInteger? = some read → read = (seq : ℤ) := by
  have hread : ((exampleFlushValue seq).get "seq").safeInteger? = some (seq : ℤ) := by
    obtain rfl | rfl : seq = 0 ∨ seq = 1 := by omega
    · decide +kernel
    · decide +kernel
  have hsession : (exampleFlushValue seq).get "session_id" = .text (JsText.of "s") := rfl
  exact ⟨hsession, fun read h => Option.some.inj (h.symm.trans hread)⟩

theorem exampleHost_documented (capacity : ℕ) : (exampleHost capacity).Documented where
  orderly := Channel.keeping_orderly capacity
  event := by
    intro event value h
    unfold exampleHost at h
    dsimp only at h
    split_ifs at h with hzero hone
    · obtain rfl := exampleParse_flush h (by omega)
      rw [hzero]
      exact exampleFlushValue_event (by omega)
    · obtain rfl := exampleParse_flush h (by omega)
      rw [hone]
      exact exampleFlushValue_event (by omega)
    · have hnone : exampleParse (JsText.of "") = .error (.of "SyntaxError") := by
        unfold exampleParse
        rw [if_neg (by decide +kernel), if_neg (by decide +kernel), if_neg (by decide +kernel)]
      exact absurd (hnone.symm.trans h) (by simp)
  overflow := by
    intro missed value h
    change exampleParse _ = _ at h
    unfold exampleParse at h
    split_ifs at h
    · rw [← Except.ok.inj h]
      rfl
    · rw [← Except.ok.inj h]
      rfl
    · rw [← Except.ok.inj h]
      rfl
  numbers := by
    intro number
    unfold exampleHost
    dsimp only
    split_ifs
    · exact ⟨by decide, by decide⟩
    · exact ⟨by decide, by decide⟩
    · exact ⟨by decide, by decide⟩

def exampleView : RrjjLive := ({} : RrjjLive).connectedCallback true

def exampleTimeline : LiveTimeline := ⟨[exampleFlushValue 0], some 0, some (.of "s"), false⟩

theorem exampleView_receive (capacity : ℕ) : ∃ items,
    exampleView.receive (exampleHost capacity) 0 (sseMessage (exampleHost capacity) (.value (exampleFlush 0))) =
      { exampleView with timeline := exampleTimeline, items := items } := by
  have htext : (exampleHost capacity).eventText (exampleFlush 0) = exampleFlushText 0 := by
    unfold exampleHost
    dsimp only
    rw [if_pos rfl]
  have hread : (exampleHost capacity).parse (JsText.of (exampleFlushText 0)) = .ok (exampleFlushValue 0) := by
    unfold exampleHost exampleParse
    dsimp only
    rw [if_pos rfl]
  have hadded : exampleView.timeline.appendLiveEvent (exampleFlushValue 0) = exampleTimeline := by
    have hvalid : validEnvelope (exampleFlushValue 0) = some ⟨0, .of "s"⟩ := by decide +kernel
    unfold LiveTimeline.appendLiveEvent
    rw [hvalid]
    rfl
  have hrenders : (renderItems (exampleHost 1).page exampleTimeline.events).isSome = true := by
    decide +kernel
  obtain ⟨items, hitems⟩ := Option.isSome_iff_exists.mp hrenders
  refine ⟨items, ?_⟩
  unfold RrjjLive.receive RrjjLive.onEvent
  rw [if_pos (show (sseMessage (exampleHost capacity) (.value (exampleFlush 0))).event = "event" from rfl),
    if_neg (not_not.mpr (show exampleView.source = some 0 from rfl))]
  dsimp only [sseMessage]
  rw [htext, hread]
  dsimp only
  rw [hadded]
  unfold RrjjLive.render
  dsimp only
  rw [show renderItems (exampleHost capacity).page exampleTimeline.events = some items from hitems]
  exact if_neg Bool.false_ne_true

theorem exampleView_renders (capacity : ℕ) {timeline : LiveTimeline}
    (told : exampleView.overflowed (exampleHost capacity) (JsText.of (overflowText 1)) = .ok timeline) :
    renderItems (exampleHost capacity).page timeline.events ≠ none := by
  have hread : (exampleHost capacity).parse (JsText.of (overflowText 1)) = .ok exampleOverflowValue := by
    unfold exampleHost exampleParse
    dsimp only
    rw [if_neg (by decide +kernel), if_neg (by decide +kernel), if_pos rfl]
  have hevents : timeline.events =
      [streamNotice "sse_overflow" (.text (.of "channel lagged by 1"))] := by
    have hmessage : exampleOverflowValue.get "message" = .text (.of "channel lagged by 1") := by
      unfold exampleOverflowValue JsValue.get
      dsimp only
      rw [List.lookup_cons, beq_self_eq_true]
      rfl
    unfold RrjjLive.overflowed at told
    rw [hread] at told
    rw [← Except.ok.inj told]
    show [streamNotice "sse_overflow" ((exampleOverflowValue.get "message").orElse _)] = _
    rw [hmessage]
    rfl
  have hrenders : (renderItems (exampleHost 1).page
      [streamNotice "sse_overflow" (.text (.of "channel lagged by 1"))]).isSome = true := by
    decide +kernel
  rw [hevents]
  exact Option.isSome_iff_ne_none.mp hrenders

end Rrjj
