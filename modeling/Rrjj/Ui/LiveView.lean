import Rrjj.Library.Broadcast
import Rrjj.Sinks.Traits
import Rrjj.Ui.Rendering

/-! The live view: the sink that sends the accepted events on, the messages in which the daemon
streams them, and the component that shows them. -/

namespace Rrjj
open Library

structure BroadcastSink (σ : Type) where
  durable : σ
  channel : Channel Event
  sent : List Event

namespace BroadcastSink
variable {σ : Type}

def new (channel : ℕ → Channel Event) (durable : σ) (capacity : ℕ) : BroadcastSink σ where
  durable := durable
  channel := channel (max capacity 1)
  sent := []

def emit (durableEmit : Event → σ → Except SinkError Unit × σ) (event : Event) (sink : BroadcastSink σ) :
    Except SinkError Unit × BroadcastSink σ :=
  match durableEmit event sink.durable with
  | (.ok (), durable) => (.ok (), { sink with durable := durable, sent := sink.sent ++ [event] })
  | (.error error, durable) => (.error error, { sink with durable := durable })

/-- What is sent on is what the durable sink has accepted. -/
theorem emit_sends (durableEmit : Event → σ → Except SinkError Unit × σ) (event : Event)
    (sink : BroadcastSink σ) :
    (sink.emit durableEmit event).1 = (durableEmit event sink.durable).1 ∧
      (sink.emit durableEmit event).2.durable = (durableEmit event sink.durable).2 ∧
      (sink.emit durableEmit event).2.sent = sink.sent ++
        if (durableEmit event sink.durable).1.isOk then [event] else [] := by
  unfold emit
  split
  next durable heq =>
    rw [heq]
    exact ⟨rfl, rfl, rfl⟩
  next error durable heq =>
    rw [heq]
    exact ⟨rfl, rfl, (List.append_nil _).symm⟩

end BroadcastSink

/-- What the live view rests on: the channel of `tokio`, the text that `serde_json` makes of an event,
`JSON.parse`, and how the browser prints values. -/
structure LiveHost where
  channel : Channel Event
  eventText : Event → String
  parse : JsText → Except JsText JsValue
  page : JsHost

structure SseMessage where
  event : String
  id : Option String
  data : String

def overflowText (missed : ℕ) : String :=
  "\x7b\"message\":\"channel lagged by " ++ toString missed ++ "\",\"recovery\":\"reconnect_and_resync\"," ++
    "\"source\":\"sse_broadcast\",\"type\":\"overflow\"\x7d"

/-- Receivers get what was sent. An event is read with its own number and session, if at all, and the
message of a gap as an object. Numbers are printed without tags. -/
structure LiveHost.Documented (host : LiveHost) : Prop where
  orderly : host.channel.Orderly
  event : ∀ event value, host.parse (JsText.of (host.eventText event)) = .ok value →
    value.get "session_id" = .text (JsText.of event.sessionId) ∧
      ∀ seq, (value.get "seq").safeInteger? = some seq → seq = event.seq
  overflow : ∀ missed value, host.parse (JsText.of (overflowText missed)) = .ok value →
    value.isRecord = true
  numbers : ∀ number, (host.page.numberText number).Inert

def sseMessage (host : LiveHost) : Received Event → SseMessage
  | .value event => ⟨"event", some (toString event.seq), host.eventText event⟩
  | .lagged missed => ⟨"overflow", none, overflowText missed⟩

def isRrjjStatus (value : JsValue) : Bool :=
  value.isRecord && (value.get "session_id").nonempty?.isSome &&
    (value.get "seq").safeInteger?.any (0 ≤ ·)

structure RrjjLive where
  timeline : LiveTimeline := createLiveTimeline .empty
  items : List JsText := []
  source : Option ℕ := none
  autoProbe : ℕ := 0
  isConnected : Bool := false
  initialized : Bool := false
  created : ℕ := 0
  closed : ℕ → Bool := fun _ => false

namespace RrjjLive
variable (host : LiveHost)

def disconnect (view : RrjjLive) : RrjjLive :=
  match view.source with
  | some source => { view with source := none, closed := Function.update view.closed source true }
  | none => view

def connect (view : RrjjLive) : RrjjLive :=
  if view.timeline.requiresResync then view
  else { view.disconnect with source := some view.created, created := view.created + 1 }

def render (view : RrjjLive) : Option RrjjLive :=
  (renderItems host.page view.timeline.events).map fun items => { view with items := items }

def invalid (view : RrjjLive) : RrjjLive :=
  let view := { view.disconnect with timeline := view.timeline.appendLiveEvent .null }
  (view.render host).getD view

def onEvent (source : ℕ) (data : JsText) (view : RrjjLive) : RrjjLive :=
  if view.source ≠ some source then view
  else
    match host.parse data with
    | .error _ => view.invalid host
    | .ok value =>
      let view := { view with timeline := view.timeline.appendLiveEvent value }
      match view.render host with
      | none => view.invalid host
      | some view => if view.timeline.requiresResync then view.disconnect else view

def overflowed (data : JsText) (view : RrjjLive) : Except JsText LiveTimeline :=
  view.timeline.appendSseOverflow <|
    match host.parse data with
    | .ok value => value
    | .error _ => .object [(JsText.of "message", .text data)]

def onOverflow (source : ℕ) (data : JsText) (view : RrjjLive) : RrjjLive :=
  if view.source ≠ some source then view
  else
    match view.overflowed host data with
    | .error _ => view
    | .ok timeline =>
      let view := { view with timeline := timeline }
      match view.render host with
      | none => view
      | some view => view.disconnect

def receive (source : ℕ) (message : SseMessage) (view : RrjjLive) : RrjjLive :=
  if message.event = "event" then view.onEvent host source (JsText.of message.data)
  else if message.event = "overflow" then view.onOverflow host source (JsText.of message.data)
  else view

def click (view : RrjjLive) : RrjjLive := ({ view with autoProbe := view.autoProbe + 1 } : RrjjLive).connect

def choose (view : RrjjLive) : RrjjLive := ({ view with autoProbe := view.autoProbe + 1 } : RrjjLive).disconnect

def loaded (text : JsText) (view : RrjjLive) : RrjjLive :=
  match parseNdjson host.parse text with
  | .ok durable =>
    let view := { view with timeline := createLiveTimeline durable }
    (view.render host).getD view
  | .error _ => view

def probe (view : RrjjLive) : RrjjLive := { view with autoProbe := view.autoProbe + 1 }

def probed (probe : ℕ) (status : JsValue) (view : RrjjLive) : RrjjLive :=
  if probe = view.autoProbe ∧ view.isConnected ∧ isRrjjStatus status then view.connect else view

def connectedCallback (hasSrc : Bool) (view : RrjjLive) : RrjjLive :=
  let view := { view with isConnected := true }
  if view.initialized then view
  else if hasSrc then ({ view with initialized := true } : RrjjLive).connect
  else ({ view with initialized := true } : RrjjLive).probe

def disconnectedCallback (view : RrjjLive) : RrjjLive :=
  ({ view with autoProbe := view.autoProbe + 1, isConnected := false } : RrjjLive).disconnect

end RrjjLive

end Rrjj
