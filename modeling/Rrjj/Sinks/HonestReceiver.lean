import Rrjj.Sinks.HttpRules

/-! The publication protocol of one session: the sink, the network between, and a receiver
that keeps a prefix of the session's events and a durable watermark. -/

namespace Rrjj
open Library Library.Proc

structure Receiver where
  events : List Event
  watermark : Option ℕ
  refused : Bool

namespace Receiver

def gap (receiver : Receiver) (body : HttpEventBatch) : Bool :=
  receiver.events.length < (body.events.head?.map Event.seq).getD 0

def process (receiver : Receiver) (body : HttpEventBatch) : Receiver :=
  if receiver.gap body then { receiver with refused := true }
  else
    { receiver with
      events := receiver.events ++
        body.events.filter fun event => decide (receiver.events.length ≤ event.seq)
      watermark :=
        match body.durable with
        | none => receiver.watermark
        | some durable => some (max (receiver.watermark.getD 0) durable.seq) }

def acknowledgement (receiver : Receiver) (body : HttpEventBatch) : EventAcknowledgement where
  acceptedThroughSeq := lastSeq body.events
  durableThroughSeq := if body.durable.isSome then receiver.watermark else none

end Receiver

/-- What becomes of one attempt: the reply is lost or unreadable, or says to try again, or the
sink's process is killed, each before or after processing; or the receiver's answer arrives. -/
inductive Fate where
  | lost (processed : Bool) (message : String)
  | unread (processed : Bool) (status : HttpStatus) (message : String)
  | busy (processed : Bool) (status : HttpStatus)
      (retryable : classifyHttpStatus status.code = .retryable)
      (body : Except String EventAcknowledgement)
  | killed (processed : Bool)
  | answered (status : HttpStatus)
      (accepting : classifyHttpStatus status.code = .success ∨
        classifyHttpStatus status.code = .conflict)

def Fate.processed : Fate → Bool
  | .lost processed _ => processed
  | .unread processed _ _ => processed
  | .busy processed _ _ _ => processed
  | .killed processed => processed
  | .answered _ _ => true

/-- The receiver, and how many attempts and cursor writes there have been. -/
structure Wire where
  receiver : Receiver
  attempts : ℕ
  writes : ℕ

def Fate.reply (body : HttpEventBatch) (receiver : Receiver) : Fate → Option HttpReply
  | .lost _ message => some (.sendError message)
  | .unread _ status message => some (.bodyError status message)
  | .busy _ status _ answer => some (.response status answer)
  | .killed _ => none
  | .answered status _ =>
    if receiver.gap body then some (.response ⟨422, "422 Unprocessable Entity"⟩ (.error "gap"))
    else some (.response status (.ok ((receiver.process body).acknowledgement body)))

/-- An honest receiver behind a network that treats the attempts by `fates`, and a disk that
treats the cursor writes by `writes`. -/
def honest (fates : ℕ → Fate) (writes : ℕ → CursorWrite) : Network Wire where
  post wire post :=
    ((fates wire.attempts).reply post.body wire.receiver,
      { wire with
        receiver :=
          if (fates wire.attempts).processed then wire.receiver.process post.body
          else wire.receiver
        attempts := wire.attempts + 1 })
  writeCursor wire _ := (writes wire.writes, { wire with writes := wire.writes + 1 })

/-- What the recorder's host does: publish on from the last request, or create the sink anew
from its cursor file. -/
inductive Action where
  | publish (advance : ℕ) (op checkpoint : String)
  | recreate (client : Except String Unit)

/-- `last` is the end of the last request; a killed sink does nothing until it is recreated. -/
structure Host where
  http : HttpState Wire
  alive : Bool
  last : ℕ

def Host.start : Host where
  http := .created none .missing ⟨⟨[], none, false⟩, 0, 0⟩
  alive := false
  last := 0

/-- The request for the events `0..=last`, as `DurableSessionSink::flush_session` makes it. -/
def Journal.request (journal : Journal) (last : ℕ) (op checkpoint : String) :
    EventPublishRequest where
  sessionId := journal.sessionId
  schemaVersion := schemaVersion
  events := journal.take (last + 1)
  durable := some ⟨last, op, checkpoint⟩

def Host.step (journal : Journal) (sink : HttpEventSink Wire) (host : Host) : Action → Host
  | .publish advance op checkpoint =>
    if host.alive then
      match (sink.publishEvents (journal.request (host.last + advance) op checkpoint)).run
        host.http with
      | (.cut, http) => ⟨http, false, host.last + advance⟩
      | (_, http) => ⟨http, true, host.last + advance⟩
    else host
  | .recreate client =>
    match sink.config.create host.http.cursor client with
    | .ok delivered => { host with http := { host.http with deliveredSeq := delivered }, alive := true }
    | .error _ => { host with alive := false }

def Host.run (journal : Journal) (sink : HttpEventSink Wire) (actions : List Action) : Host :=
  actions.foldl (Host.step journal sink) .start

/-- A sequence taken for delivered has been received, and with it the watermark of the last
request if it ends that request. -/
structure Backed (receiver : Receiver) (last : ℕ) (delivered : ℕ) : Prop where
  received : delivered < receiver.events.length
  requested : delivered ≤ last
  durable : delivered < last ∨ ∃ watermark ∈ receiver.watermark, delivered ≤ watermark

/-- The receiver has a prefix of the journal of at least `least` events, and the sequences in
memory and in the cursor file are backed by it. -/
structure InSync (journal : Journal) (least last : ℕ) (s : HttpState Wire) : Prop where
  accepting : s.network.receiver.refused = false
  isPrefix : s.network.receiver.events = journal.take s.network.receiver.events.length
  kept : least ≤ s.network.receiver.events.length
  delivered : ∀ delivered ∈ s.deliveredSeq, Backed s.network.receiver last delivered
  stored : s.cursor = .missing ∨ ∃ delivered checkpoint,
    s.cursor = .cursor ⟨some delivered, none, checkpoint⟩ ∧
      Backed s.network.receiver last delivered

structure Remaining (journal : Journal) (least last : ℕ) (left : List Event)
    (s : HttpState Wire) : Prop extends InSync journal least last s where
  next : ∃ next, Numbered next left ∧ next ≤ s.network.receiver.events.length ∧
    next + left.length = last + 1
  own : ∀ event ∈ left, event = journal.event event.seq

/-- The receiver has the events `0..=last` and a watermark that covers them. -/
def Holds (receiver : Receiver) (last : ℕ) : Prop :=
  last < receiver.events.length ∧ ∃ watermark ∈ receiver.watermark, last ≤ watermark

section
variable {journal : Journal} {receiver : Receiver} {body : HttpEventBatch} {first last : ℕ}

theorem filter_range' (start next : ℕ) (count : ℕ) (h : start ≤ next) :
    (List.range' start count).filter (fun n => decide (next ≤ n)) =
      List.range' next (start + count - next) := by
  induction count with
  | zero =>
    have : start + 0 - next = 0 := by omega
    rw [this]
    rfl
  | succ count ih =>
    rw [List.range'_1_concat, List.filter_append, ih]
    by_cases hnext : next ≤ start + count
    · have hlength : start + (count + 1) - next = start + count - next + 1 := by omega
      have hlast : next + (start + count - next) = start + count := by omega
      rw [hlength, List.range'_1_concat, hlast]
      simp [hnext]
    · have hlength : start + (count + 1) - next = start + count - next := by omega
      rw [hlength]
      simp [hnext]

theorem Receiver.no_gap (numbered : Numbered first body.events) (nonempty : body.events ≠ [])
    (reaches : first ≤ receiver.events.length) : receiver.gap body = false := by
  unfold Receiver.gap
  rcases hevents : body.events with _ | ⟨event, rest⟩
  · exact absurd hevents nonempty
  · rw [hevents] at numbered
    have hfirst := (numbered_cons.mp numbered).1
    simpa [hfirst] using reaches

theorem Receiver.process_events (isPrefix : receiver.events = journal.take receiver.events.length)
    (numbered : Numbered first body.events) (nonempty : body.events ≠ [])
    (own : ∀ event ∈ body.events, event = journal.event event.seq)
    (reaches : first ≤ receiver.events.length) :
    (receiver.process body).events =
      journal.take (max receiver.events.length (first + body.events.length)) := by
  have hnew : body.events.filter (fun event => decide (receiver.events.length ≤ event.seq)) =
      (List.range' receiver.events.length (first + body.events.length - receiver.events.length)).map
        journal.event := by
    conv_lhs => rw [Journal.eq_map numbered own]
    rw [List.filter_map, ← filter_range' _ _ _ reaches]
    congr 1
    refine List.filter_congr fun n _ => ?_
    rw [Function.comp_apply, journal.seq_event]
  unfold Receiver.process
  rw [no_gap numbered nonempty reaches]
  show receiver.events ++ _ = _
  rw [hnew]
  conv_lhs => rw [isPrefix]
  unfold Journal.take
  have happend : List.range' 0 receiver.events.length ++ List.range' receiver.events.length
      (first + body.events.length - receiver.events.length) =
      List.range' 0 (max receiver.events.length (first + body.events.length)) := by
    have hjoin := List.range'_append_1 (s := 0) (m := receiver.events.length)
      (n := first + body.events.length - receiver.events.length)
    rw [Nat.zero_add] at hjoin
    rw [hjoin]
    congr 1
    omega
  rw [← List.map_append, List.range_eq_range', List.range_eq_range', List.length_map,
    List.length_range', happend]

structure Grows (before after : Receiver) : Prop where
  events : before.events.length ≤ after.events.length
  watermark : ∀ watermark ∈ before.watermark, ∃ later ∈ after.watermark, watermark ≤ later

theorem Grows.refl (receiver : Receiver) : Grows receiver receiver :=
  ⟨le_rfl, fun watermark h => ⟨watermark, h, le_rfl⟩⟩

theorem Receiver.process_grows (receiver : Receiver) (body : HttpEventBatch) :
    Grows receiver (receiver.process body) := by
  unfold Receiver.process
  split_ifs
  · exact ⟨le_rfl, fun watermark hwatermark => ⟨watermark, hwatermark, le_rfl⟩⟩
  · refine ⟨by simp, fun watermark hwatermark => ?_⟩
    rcases body.durable with _ | durable
    · exact ⟨watermark, hwatermark, le_rfl⟩
    · refine ⟨_, rfl, ?_⟩
      rw [Option.mem_def.mp hwatermark]
      exact le_max_left _ _

theorem Backed.mono {later : Receiver} {last' delivered : ℕ} (h : Backed receiver last delivered)
    (grows : Grows receiver later) (hlast : last ≤ last') : Backed later last' delivered where
  received := h.received.trans_le grows.events
  requested := h.requested.trans hlast
  durable := by
    rcases h.durable with hlt | ⟨watermark, hwatermark, hle⟩
    · exact Or.inl (hlt.trans_le hlast)
    · obtain ⟨risen, hrisen, hrise⟩ := grows.watermark watermark hwatermark
      exact Or.inr ⟨risen, hrisen, hle.trans hrise⟩

end

section
variable {journal : Journal} {least last : ℕ} {s : HttpState Wire} {batch left : List Event}
  {fates : ℕ → Fate} {writes : ℕ → CursorWrite} {sink : HttpEventSink Wire} {post : HttpPost}

theorem InSync.of_grows {t : HttpState Wire} (h : InSync journal least last s)
    (grows : Grows s.network.receiver t.network.receiver)
    (accepting : t.network.receiver.refused = false)
    (isPrefix : t.network.receiver.events = journal.take t.network.receiver.events.length)
    (delivered : t.deliveredSeq = s.deliveredSeq) (cursor : t.cursor = s.cursor) :
    InSync journal least last t where
  accepting := accepting
  isPrefix := isPrefix
  kept := h.kept.trans grows.events
  delivered d hd := (h.delivered d (delivered ▸ hd)).mono grows le_rfl
  stored := by
    rw [cursor]
    refine h.stored.imp_right ?_
    rintro ⟨d, checkpoint, hcursor, hbacked⟩
    exact ⟨d, checkpoint, hcursor, hbacked.mono grows le_rfl⟩

theorem InSync.later {last' : ℕ} (h : InSync journal least last s) (hlast : last ≤ last') :
    InSync journal least last' s where
  accepting := h.accepting
  isPrefix := h.isPrefix
  kept := h.kept
  delivered d hd := (h.delivered d hd).mono (.refl _) hlast
  stored := by
    refine h.stored.imp_right ?_
    rintro ⟨d, checkpoint, hcursor, hbacked⟩
    exact ⟨d, checkpoint, hcursor, hbacked.mono (.refl _) hlast⟩

theorem answered_receiver (honestly : sink.network = honest fates writes) :
    (sink.answered post s).network.receiver =
      if (fates s.network.attempts).processed then s.network.receiver.process post.body
      else s.network.receiver := by
  unfold HttpEventSink.answered
  rw [honestly]
  rfl

theorem Remaining.answered (honestly : sink.network = honest fates writes)
    (h : Remaining journal least last (batch ++ left) s) (nonempty : batch ≠ [])
    (events : post.body.events = batch) :
    Remaining journal least last (batch ++ left) (sink.answered post s) := by
  obtain ⟨next, hnumbered, hnext, hlast⟩ := h.next
  have hbatch : Numbered next post.body.events := events ▸ (numbered_append.mp hnumbered).1
  have hown : ∀ event ∈ post.body.events, event = journal.event event.seq := fun event hevent =>
    h.own event (List.mem_append_left _ (events ▸ hevent))
  have hne : post.body.events ≠ [] := events ▸ nonempty
  have hreceiver := @answered_receiver s _ _ sink post honestly
  have hgrows : Grows s.network.receiver (sink.answered post s).network.receiver := by
    rw [hreceiver]
    split_ifs
    · exact s.network.receiver.process_grows post.body
    · exact .refl _
  have hsame : (sink.answered post s).network.receiver.refused = false ∧
      (sink.answered post s).network.receiver.events =
        journal.take (sink.answered post s).network.receiver.events.length := by
    rw [hreceiver]
    split_ifs
    · have hevents := Receiver.process_events h.isPrefix hbatch hne hown hnext
      refine ⟨?_, ?_⟩
      · unfold Receiver.process
        rw [Receiver.no_gap hbatch hne hnext]
        exact h.accepting
      · rw [hevents]
        unfold Journal.take
        rw [List.length_map, List.length_range]
    · exact ⟨h.accepting, h.isPrefix⟩
  exact
    { h.toInSync.of_grows hgrows hsame.1 hsame.2 rfl rfl with
      next := ⟨next, hnumbered, hnext.trans hgrows.events, hlast⟩
      own := h.own }

theorem honest_acknowledged {reply : HttpReply} {ack : EventAcknowledgement}
    (honestly : sink.network = honest fates writes)
    (answer : (sink.network.post s.network post).1 = some reply)
    (acknowledged : reply.acknowledgement post.body = some ack) :
    (sink.answered post s).network.receiver = s.network.receiver.process post.body ∧
      ack = (s.network.receiver.process post.body).acknowledgement post.body := by
  have hreceiver := @answered_receiver s _ _ sink post honestly
  rw [honestly] at answer
  change (fates s.network.attempts).reply post.body s.network.receiver = some reply at answer
  rcases hfate : fates s.network.attempts with ⟨processed, message⟩ | ⟨processed, status, message⟩ |
    ⟨processed, status, retryable, answer'⟩ | ⟨processed⟩ | ⟨status, accepting⟩ <;>
    rw [hfate] at answer hreceiver
  · obtain rfl := Option.some.inj answer
    exact absurd acknowledged (by simp [HttpReply.acknowledgement])
  · obtain rfl := Option.some.inj answer
    exact absurd acknowledged (by simp [HttpReply.acknowledgement])
  · obtain rfl := Option.some.inj answer
    rcases answer' with message | other <;>
      exact absurd acknowledged (by simp [HttpReply.acknowledgement, retryable])
  · exact absurd answer (by simp [Fate.reply])
  · refine ⟨hreceiver, ?_⟩
    unfold Fate.reply at answer
    dsimp only at answer
    split_ifs at answer
    · obtain rfl := Option.some.inj answer
      exact absurd acknowledged (by simp [HttpReply.acknowledgement])
    · obtain rfl := Option.some.inj answer
      unfold HttpReply.acknowledgement at acknowledged
      dsimp only at acknowledged
      split_ifs at acknowledged
      exact (Option.some.inj acknowledged).symm

theorem Remaining.accepted {reply : HttpReply} {ack : EventAcknowledgement} {op checkpoint : String}
    (honestly : sink.network = honest fates writes)
    (h : Remaining journal least last (batch ++ left) s) (nonempty : batch ≠ [])
    (events : post.body.events = batch)
    (durable : post.body.durable = if left.isEmpty then some ⟨last, op, checkpoint⟩ else none)
    (answer : (sink.network.post s.network post).1 = some reply)
    (acknowledged : reply.acknowledgement post.body = some ack) :
    Remaining journal least last left
        { sink.answered post s with deliveredSeq := some ack.acceptedThroughSeq } ∧
      Backed (sink.answered post s).network.receiver last ack.acceptedThroughSeq ∧
      (left = [] → Holds (sink.answered post s).network.receiver last) := by
  have hafter := @Remaining.answered _ _ _ s batch left _ _ sink post honestly h nonempty events
  obtain ⟨hprocessed, hack⟩ := honest_acknowledged honestly answer acknowledged
  obtain ⟨next, hnumbered, hnext, hlast⟩ := h.next
  obtain ⟨hbatch, hleft⟩ := numbered_append.mp hnumbered
  rw [← events] at hbatch nonempty
  have hown : ∀ event ∈ post.body.events, event = journal.event event.seq := fun event hevent =>
    h.own event (List.mem_append_left _ (events ▸ hevent))
  have hreach := congrArg List.length (Receiver.process_events h.isPrefix hbatch nonempty hown hnext)
  unfold Journal.take at hreach
  rw [List.length_map, List.length_range, ← hprocessed] at hreach
  have hend := hbatch.lastSeq nonempty
  -- an honest receiver acknowledges what it has received
  have haccepted : ack.acceptedThroughSeq = lastSeq post.body.events := by
    rw [hack]
    rfl
  rw [List.length_append, ← events] at hlast
  -- only the last batch carries the watermark
  have hwatermark : left = [] →
      ∃ watermark ∈ (sink.answered post s).network.receiver.watermark, last ≤ watermark := by
    rintro rfl
    rw [hprocessed]
    unfold Receiver.process
    rw [Receiver.no_gap hbatch nonempty hnext, durable]
    exact ⟨_, rfl, le_max_right _ _⟩
  have hbacked : Backed (sink.answered post s).network.receiver last ack.acceptedThroughSeq := by
    refine ⟨by omega, by omega, ?_⟩
    rcases left with _ | ⟨event, left⟩
    · obtain ⟨watermark, hmem, hle⟩ := hwatermark rfl
      rw [List.length_nil] at hlast
      exact Or.inr ⟨watermark, hmem, by omega⟩
    · rw [List.length_cons] at hlast
      exact Or.inl (by omega)
  have hlength : next + batch.length ≤ (sink.answered post s).network.receiver.events.length := by
    rw [hreach, ← events]
    exact le_max_right _ _
  refine ⟨?_, hbacked, fun hnil => ⟨?_, hwatermark hnil⟩⟩
  · exact
      { accepting := hafter.accepting
        isPrefix := hafter.isPrefix
        kept := hafter.kept
        delivered := fun d hd => Option.some.inj hd ▸ hbacked
        stored := hafter.stored
        next := ⟨next + batch.length, hleft, hlength, by rw [← events]; omega⟩
        own := fun event hevent => h.own event (List.mem_append_right _ hevent) }
  · rw [hnil, List.length_nil] at hlast
    omega

def AfterTurn (journal : Journal) (least last : ℕ) (left : List Event) (s : HttpState Wire) :
    Prop :=
  Remaining journal least last left s ∧ (left = [] → Holds s.network.receiver last)

theorem AfterTurn.written {delivered : ℕ} {checkpoint : Option String}
    (honestly : sink.network = honest fates writes) (h : AfterTurn journal least last left s)
    (backed : Backed s.network.receiver last delivered) :
    AfterTurn journal least last left (sink.written ⟨some delivered, none, checkpoint⟩ s) := by
  obtain ⟨hremaining, hholds⟩ := h
  have hreceiver : (sink.written ⟨some delivered, none, checkpoint⟩ s).network.receiver =
      s.network.receiver := by
    unfold HttpEventSink.written
    rw [honestly]
    rfl
  refine ⟨⟨⟨?_, ?_, ?_, ?_, ?_⟩, ?_, hremaining.own⟩, ?_⟩ <;> rw [hreceiver]
  · exact hremaining.accepting
  · exact hremaining.isPrefix
  · exact hremaining.kept
  · exact hremaining.delivered
  · unfold HttpEventSink.written
    dsimp only
    split_ifs
    · exact Or.inr ⟨delivered, checkpoint, rfl, backed⟩
    · exact hremaining.stored
  · exact hremaining.next
  · exact hholds

theorem publishBatch_remaining {op checkpoint : String}
    (honestly : sink.network = honest fates writes) (nonempty : batch ≠ []) :
    Triple (Remaining journal least last (batch ++ left))
      (sink.publishBatch (journal.request last op checkpoint) batch left.isEmpty)
      (fun _ => AfterTurn journal least last left) (InSync journal least last) := by
  refine Triple.bind (Q := fun ack s => AfterTurn journal least last left
      { s with deliveredSeq := some ack.acceptedThroughSeq } ∧
      Backed s.network.receiver last ack.acceptedThroughSeq) ?_ fun ack => ?_
  · refine HttpEventSink.postLoop_triple (fun s hs reply ack hreply hack => ?_)
      (fun s hs _ => ?_) _
    · obtain ⟨hremaining, hbacked, hholds⟩ := hs.accepted honestly nonempty rfl rfl hreply hack
      exact ⟨⟨hremaining, hholds⟩, hbacked⟩
    · have hafter : ∀ post : HttpPost, post.body.events = batch →
          Remaining journal least last (batch ++ left) (sink.answered post s) := fun post hpost =>
        hs.answered honestly nonempty hpost
      exact ⟨hafter _ rfl, (hafter _ rfl).toInSync⟩
  · refine Triple.bind (Q := fun _ s => AfterTurn journal least last left s ∧
      Backed s.network.receiver last ack.acceptedThroughSeq) (Triple.modify fun s hs => hs) fun _ => ?_
    refine Triple.bind (Q := fun _ => AfterTurn journal least last left) ?_ fun _ =>
      Triple.pure fun s hs => hs
    refine (HttpEventSink.writeCursorAtomic_triple (I := AfterTurn journal least last left)
      fun s hs => ?_).conseq (fun _ hs => hs) (fun _ _ hs => hs) (fun s hs => hs.1.toInSync)
    exact hs.1.written honestly hs.2

/-- A call keeps the two in step, and returns only when the receiver holds the request. -/
theorem publishEvents_inSync {op checkpoint : String}
    (honestly : sink.network = honest fates writes) :
    Triple (InSync journal least last) (sink.publishEvents (journal.request last op checkpoint))
      (fun _ s => InSync journal least last s ∧ Holds s.network.receiver last)
      (InSync journal least last) := by
  have hown : ∀ event ∈ journal.take (last + 1), event = journal.event event.seq := by
    intro event hevent
    obtain ⟨n, -, rfl⟩ := List.mem_map.mp hevent
    rw [journal.seq_event]
  have hcalled : ∀ s, InSync journal least last s →
      InSync journal least last (s.called (journal.request last op checkpoint)) :=
    fun s hs => ⟨hs.accepting, hs.isPrefix, hs.kept, hs.delivered, hs.stored⟩
  refine HttpEventSink.publishEvents_triple hcalled ?_ ?_
  · intro s through hs hthrough hreached
    have hbacked := hs.delivered through hthrough
    have hlast : last ≤ through := by
      have hmem : journal.event last ∈ journal.take (last + 1) :=
        List.mem_map_of_mem (List.mem_range.mpr (Nat.lt_succ_self last))
      have hseq := hreached (journal.event last) hmem
      rwa [journal.seq_event] at hseq
    have hreceived : last < s.network.receiver.events.length := hlast.trans_lt hbacked.received
    refine ⟨hcalled s hs, hreceived, ?_⟩
    obtain ⟨watermark, hmem, hle⟩ := hbacked.durable.resolve_left (Nat.not_lt.mpr hlast)
    exact ⟨watermark, hmem, hlast.trans hle⟩
  · intro s skipped remaining hs hevents hskipped hne hnumbered
    have hloop := @HttpEventSink.publishLoop_triple _ sink (InSync journal least last)
      (journal.request last op checkpoint) (Remaining journal least last)
      (fun _ t => InSync journal least last t ∧ Holds t.network.receiver last)
      (fun batch left hbatch => (publishBatch_remaining honestly hbatch).post fun ack t ht =>
        ⟨ht.1, fun hnil => ⟨ht.1.toInSync, ht.2 hnil⟩⟩)
      (fun left t _ _ ht => ht.toInSync) _ _ ⟨s.deliveredSeq.getD 0 - 1, none⟩ le_rfl hne
    refine hloop.pre ?_
    rintro t rfl
    have hwhole := journal.numbered_take (last + 1)
    have htake : journal.take (last + 1) = skipped ++ remaining := hevents
    rw [htake] at hwhole
    have hrest := (numbered_append.mp hwhole).2
    refine ⟨hcalled s hs, ⟨nextSeq s.deliveredSeq, hnumbered, ?_, ?_⟩, ?_⟩
    · rcases hdelivered : s.deliveredSeq with _ | through
      · exact Nat.zero_le _
      · exact (hs.delivered through hdelivered).received
    · have hlength := congrArg List.length htake
      unfold Journal.take at hlength
      rw [List.length_map, List.length_range, List.length_append] at hlength
      rcases remaining with _ | ⟨event, remaining⟩
      · exact absurd rfl hne
      · have hfirst := (numbered_cons.mp hnumbered).1
        have hsecond := (numbered_cons.mp hrest).1
        omega
    · intro event hevent
      exact hown event (htake ▸ List.mem_append_right _ hevent)

end

section
variable {journal : Journal} {sink : HttpEventSink Wire} {fates : ℕ → Fate}
  {writes : ℕ → CursorWrite} {least : ℕ} {host : Host}

theorem Host.step_inSync (honestly : sink.network = honest fates writes) (action : Action)
    (h : InSync journal least host.last host.http) :
    InSync journal least (host.step journal sink action).last
      (host.step journal sink action).http := by
  cases action with
  | publish advance op checkpoint =>
    have hcall := (@publishEvents_inSync _ _ _ _ _ _ op checkpoint honestly host.http
      (h.later (Nat.le_add_right host.last advance))).mono (fun _ _ ht => ht.1)
      (fun _ ht => ht) |>.final
    unfold Host.step
    dsimp only
    split_ifs with halive
    · generalize (sink.publishEvents (journal.request (host.last + advance) op checkpoint)).run
        host.http = r at hcall ⊢
      rcases r with ⟨ack | failure | _, http⟩ <;> exact hcall
    · exact h
  | recreate client =>
    unfold Host.step
    dsimp only
    rcases hcreate : sink.config.create host.http.cursor client with failure | delivered
    · exact ⟨h.accepting, h.isPrefix, h.kept, h.delivered, h.stored⟩
    · refine ⟨h.accepting, h.isPrefix, h.kept, fun through hthrough => ?_, h.stored⟩
      have hread := HttpEventConfig.create_ok hcreate
      rcases h.stored with hmissing | ⟨stored, checkpoint, hcursor, hbacked⟩
      · rw [hmissing] at hread
        rw [← Except.ok.inj hread] at hthrough
        exact absurd hthrough (by simp)
      · rw [hcursor] at hread
        rw [← Except.ok.inj hread] at hthrough
        exact Option.some.inj hthrough ▸ hbacked

theorem Host.foldl_inSync (honestly : sink.network = honest fates writes) (actions : List Action)
    (h : InSync journal least host.last host.http) :
    InSync journal least (actions.foldl (Host.step journal sink) host).last
      (actions.foldl (Host.step journal sink) host).http := by
  induction actions generalizing host with
  | nil => exact h
  | cons action actions ih => exact ih (Host.step_inSync honestly action h)

theorem Host.start_inSync : InSync journal 0 Host.start.last Host.start.http where
  accepting := rfl
  isPrefix := rfl
  kept := le_rfl
  delivered _ h := absurd h (by simp [Host.start, HttpState.created])
  stored := Or.inl rfl

end

theorem Journal.take_prefix (journal : Journal) {m n : ℕ} (h : m ≤ n) :
    journal.take m <+: journal.take n := by
  obtain ⟨more, rfl⟩ := Nat.exists_eq_add_of_le h
  unfold Journal.take
  rw [List.range_add, List.map_append]
  exact List.prefix_append _ _

/-- Whatever becomes of attempts and cursor writes, and however often the sink is killed and
created anew, in every state that its host reaches (those in the middle of a call are the ones
in which it was killed): no batch has left a gap, the receiver's events are a prefix of the
journal that only grows, the sequence delivered is within it, and a call for the events
`0..=last` returns only when the receiver has them all and a watermark that covers them. -/
theorem publication_is_in_step (journal : Journal) (config : HttpEventConfig)
    (encodedLen : Event → Except String ℕ) (fates : ℕ → Fate) (writes : ℕ → CursorWrite)
    (actions more : List Action) :
    let sink : HttpEventSink Wire := ⟨config, encodedLen, honest fates writes⟩
    let host := Host.run journal sink actions
    host.http.network.receiver.refused = false ∧
      host.http.network.receiver.events = journal.take host.http.network.receiver.events.length ∧
      host.http.network.receiver.events <+:
        (Host.run journal sink (actions ++ more)).http.network.receiver.events ∧
      (∀ delivered ∈ host.http.deliveredSeq,
        delivered < host.http.network.receiver.events.length) ∧
      ∀ advance op checkpoint ack http,
        (sink.publishEvents (journal.request (host.last + advance) op checkpoint)).run host.http =
          (.ok ack, http) →
        Holds http.network.receiver (host.last + advance) := by
  intro sink host
  have hsync : InSync journal 0 host.last host.http :=
    Host.foldl_inSync rfl actions Host.start_inSync
  refine ⟨hsync.accepting, hsync.isPrefix, ?_, fun d hd => (hsync.delivered d hd).received, ?_⟩
  · have hlater : InSync journal host.http.network.receiver.events.length
        (Host.run journal sink (actions ++ more)).last
        (Host.run journal sink (actions ++ more)).http := by
      unfold Host.run
      rw [List.foldl_append]
      exact Host.foldl_inSync rfl more { hsync with kept := le_rfl }
    rw [hsync.isPrefix, hlater.isPrefix]
    exact journal.take_prefix hlater.kept
  · intro advance op checkpoint ack http hrun
    have hcall := @publishEvents_inSync _ _ _ _ _ sink op checkpoint rfl
      host.http (hsync.later (Nat.le_add_right host.last advance))
    rw [hrun] at hcall
    exact hcall.2

/-- The reply to the first attempt is lost after processing, the second is answered; the cursor
write fails, and the sink that is created anew begins at event 0 again. -/
example :
    let fates : ℕ → Fate
      | 0 => .lost true "reset"
      | _ => .answered ⟨200, "200 OK"⟩ (Or.inl rfl)
    let sink : HttpEventSink Wire :=
      ⟨⟨"http://localhost/events", none, 10, 10000, "http-cursor.json", 3⟩, fun _ => .ok 150,
        honest fates fun _ => .failed false "no space"⟩
    let journal : Journal := ⟨"s", fun n => ⟨0, n, "s", "", .flush ⟨"op:a", n⟩⟩, fun _ => rfl⟩
    let host := Host.run journal sink
      [.recreate (.ok ()), .publish 1 "op:a" "bb", .recreate (.ok ()), .publish 1 "op:a" "bb"]
    host.http.network.receiver.events.map Event.seq = [0, 1, 2] ∧
      host.http.network.attempts = 3 ∧ host.http.deliveredSeq = some 2 := by
  decide

end Rrjj
