import Rrjj.Sinks.Durable
import Rrjj.Sinks.HttpRules

/-! Delivery of what the journal accepted: over a receiver that acknowledges every POST, a
flush returns exactly when each event still to be sent fits into a batch of its own. -/

namespace Rrjj
open Library Library.Proc

def Deliverable (encodedLen : Event → Except String ℕ) (maxBytes : ℕ) (event : Event) : Prop :=
  ∃ encoded, encodedLen event = .ok encoded ∧ encoded + 2 ≤ maxBytes

section
variable {encodedLen : Event → Except String ℕ} {maxBytes maxEvents : ℕ} {event : Event}
  {events rest batch : List Event}

theorem batchCount_ok {bytes count total : ℕ}
    (h : batchCount encodedLen maxBytes events bytes count = .ok total) (opened : 2 ≤ bytes) :
    count ≤ total ∧ total ≤ count + events.length ∧ (events ≠ [] → 0 < total) ∧
      ∀ event ∈ events.take (total - count), Deliverable encodedLen maxBytes event := by
  induction events generalizing bytes count with
  | nil =>
    have htotal : count = total := Except.ok.inj h
    subst htotal
    exact ⟨le_rfl, le_rfl, fun hne => absurd rfl hne, by simp⟩
  | cons event rest ih =>
    rw [batchCount] at h
    rcases hencoded : encodedLen event with message | encoded
    · rw [hencoded] at h
      exact absurd h (by simp)
    simp only [hencoded] at h
    by_cases hfull : 0 < count ∧ maxBytes < bytes + (encoded + if count = 0 then 0 else 1)
    · rw [if_pos hfull] at h
      have htotal : count = total := Except.ok.inj h
      subst htotal
      exact ⟨le_rfl, Nat.le_add_right _ _, fun _ => hfull.1, by simp⟩
    · rw [if_neg hfull] at h
      obtain ⟨hsingle, h⟩ := ite_error_iff.mp h
      have hfits : encoded + 2 ≤ maxBytes := by
        by_cases hcount : count = 0
        · exact Nat.not_lt.mp fun hlarge => hsingle ⟨hcount, hlarge⟩
        · rw [if_neg hcount] at hfull
          omega
      obtain ⟨hle, hbound, -, hrest⟩ := ih h (opened.trans (Nat.le_add_right _ _))
      have htake : total - count = total - (count + 1) + 1 := by omega
      refine ⟨by omega, by rw [List.length_cons]; omega, fun _ => by omega, ?_⟩
      rw [htake, List.take_succ_cons]
      intro other hother
      rcases List.mem_cons.mp hother with rfl | hother
      · exact ⟨encoded, hencoded, hfits⟩
      · exact hrest other hother

theorem batchCount_returns {bytes count : ℕ}
    (h : ∀ event ∈ events, Deliverable encodedLen maxBytes event) :
    ∃ total, batchCount encodedLen maxBytes events bytes count = .ok total := by
  induction events generalizing bytes count with
  | nil => exact ⟨count, rfl⟩
  | cons event rest ih =>
    obtain ⟨encoded, hencoded, hfits⟩ := h event (List.mem_cons_self ..)
    simp only [batchCount, hencoded]
    by_cases hfull : 0 < count ∧ maxBytes < bytes + (encoded + if count = 0 then 0 else 1)
    · exact ⟨count, if_pos hfull⟩
    · have hsingle : ¬ (count = 0 ∧ maxBytes < encoded + 2) :=
        fun hlarge => absurd hfits (Nat.not_le.mpr hlarge.2)
      rw [if_neg hfull, if_neg hsingle]
      exact ih fun other hother => h other (List.mem_cons_of_mem _ hother)

theorem takeBatch_fits (limit : 0 < maxEvents)
    (h : takeBatch encodedLen (event :: rest) maxEvents maxBytes = .ok batch) :
    ∀ event ∈ batch, Deliverable encodedLen maxBytes event := by
  obtain ⟨count, hcount, hbatch⟩ := bind_ok_iff.mp h
  obtain ⟨-, hbound, hpos, hfits⟩ := batchCount_ok hcount le_rfl
  have hcounted : 0 < count := by
    apply hpos
    rw [ne_eq, List.take_eq_nil_iff]
    rintro (hzero | hnil)
    · exact absurd hzero (Nat.ne_of_gt limit)
    · exact absurd hnil (by simp)
  have hlength : count ≤ min maxEvents (event :: rest).length := by
    rw [Nat.zero_add, List.length_take] at hbound
    exact hbound
  rw [Nat.sub_zero, List.take_take, min_eq_left (hlength.trans (min_le_left _ _))] at hfits
  have hsame : batch = (event :: rest).take count := by
    rw [← Except.ok.inj hbatch, max_eq_left hcounted, min_eq_left (hlength.trans (min_le_right _ _))]
  rw [hsame]
  exact hfits

theorem takeBatch_returns (h : ∀ event ∈ events, Deliverable encodedLen maxBytes event) :
    ∃ batch, takeBatch encodedLen events maxEvents maxBytes = .ok batch := by
  obtain ⟨count, hcount⟩ := @batchCount_returns encodedLen maxBytes (events.take maxEvents) 2 0
    fun event hevent => h event (List.mem_of_mem_take hevent)
  exact ⟨_, bind_ok_iff.mpr ⟨count, hcount, rfl⟩⟩

end

/-- Every POST is acknowledged in full, and every write of the cursor file is done. -/
structure Network.Acknowledges {ρ : Type} (network : Network ρ) : Prop where
  post : ∀ s post, ∃ reply ack, (network.post s post).1 = some reply ∧
    reply.acknowledgement post.body = some ack
  written : ∀ s cursor, (network.writeCursor s cursor).1 = .done

def Reaching (events : List Event) (durable : Option DurableWatermark)
    (ack : EventAcknowledgement) : Prop :=
  lastSeq events ≤ ack.acceptedThroughSeq ∧
    ∀ watermark ∈ durable, ∃ seq ∈ ack.durableThroughSeq, watermark.seq ≤ seq

namespace HttpEventSink
variable {ρ : Type} {sink : HttpEventSink ρ} {request : EventPublishRequest} {s : HttpState ρ}

variable (sink) in
abbrev Delivers (event : Event) : Prop :=
  Deliverable sink.encodedLen sink.config.maxBytesPerBatch event

theorem postLoop_acknowledged (receiver : sink.network.Acknowledges) (post : HttpPost) (retries : ℕ) :
    Triple (fun _ => True) (sink.postLoop post retries) (fun ack _ => Valid ack post.body)
      (fun _ => False) := by
  refine postLoop_triple (I := fun _ => True) ?_ ?_ retries
  · intro s _ reply ack _ hack
    exact HttpReply.valid_of_acknowledgement hack
  · intro s _ hnone
    obtain ⟨reply, ack, hreply, hack⟩ := receiver.post s.network post
    rw [hnone reply hreply] at hack
    exact absurd hack (by simp)

theorem writeCursorAtomic_done (receiver : sink.network.Acknowledges) (cursor : SinkCursor) :
    Triple (fun _ => True) (sink.writeCursorAtomic cursor) (fun _ _ => True) (fun _ => False) := by
  intro s _
  have hdone := receiver.written s.network cursor
  simp only [writeCursorAtomic, run_bind, run_get, run_modify, hdone, run_pure]
  exact True.intro

theorem publishBatch_acknowledged (receiver : sink.network.Acknowledges) (batch : List Event)
    (isFinal : Bool) :
    Triple (fun _ => True) (sink.publishBatch request batch isFinal)
      (fun ack _ => Reaching batch (if isFinal then request.durable else none) ack)
      (fun _ => False) := by
  refine Triple.bind (postLoop_acknowledged receiver _ _) fun ack => ?_
  apply Triple.of_start
  intro u hvalid
  refine Triple.bind (Q := fun _ _ => True) (Triple.modify fun _ _ => True.intro) fun _ => ?_
  refine Triple.bind (writeCursorAtomic_done receiver _) fun _ => ?_
  exact Triple.pure fun _ _ => ⟨hvalid.accepted, hvalid.durable⟩

theorem publishLoop_returns (receiver : sink.network.Acknowledges) {fuel : ℕ}
    {remaining : List Event} (lastAck : EventAcknowledgement) (hfuel : remaining.length ≤ fuel)
    (hne : remaining ≠ []) (fits : ∀ event ∈ remaining, sink.Delivers event) :
    Triple (fun _ => True) (sink.publishLoop request fuel remaining lastAck)
      (fun ack _ => Reaching remaining request.durable ack) (fun _ => False) := by
  have hloop : Triple (fun _ => (∀ event ∈ remaining, sink.Delivers event) ∧
        (remaining ≠ [] → lastSeq remaining = lastSeq remaining))
      (sink.publishLoop request fuel remaining lastAck)
      (fun ack _ => Reaching remaining request.durable ack) (fun _ => False) := by
    refine publishLoop_triple (J := fun left _ => (∀ event ∈ left, sink.Delivers event) ∧
      (left ≠ [] → lastSeq left = lastSeq remaining)) ?_ ?_ lastAck hfuel hne
    · intro batch left hbatch
      apply Triple.of_start
      rintro u ⟨hfits, hlast⟩
      refine ((publishBatch_acknowledged receiver batch _).pre fun _ _ => True.intro).post ?_
      intro ack t hack
      refine ⟨⟨fun event hevent => hfits event (List.mem_append_right _ hevent), ?_⟩, ?_⟩
      · intro hleft
        rw [← lastSeq_append hleft]
        exact hlast (by simp [hleft])
      · rintro rfl
        rw [List.append_nil] at hlast
        rw [Reaching, ← hlast hbatch]
        exact hack
    · rintro left u failure hfailure ⟨hfits, -⟩
      obtain ⟨batch, hbatch⟩ := takeBatch_returns hfits
      rw [hbatch] at hfailure
      exact absurd hfailure (by simp)
  exact hloop.pre fun _ _ => ⟨fits, fun _ => rfl⟩

theorem publishLoop_fits (limit : 0 < sink.config.maxEventsPerBatch) {fuel : ℕ}
    {remaining : List Event} (lastAck : EventAcknowledgement) (hfuel : remaining.length ≤ fuel) :
    Triple (fun _ => True) (sink.publishLoop request fuel remaining lastAck)
      (fun _ _ => ∀ event ∈ remaining, sink.Delivers event) (fun _ => True) := by
  induction fuel generalizing remaining lastAck with
  | zero =>
    have hempty : remaining = [] := List.length_eq_zero_iff.mp (Nat.le_zero.mp hfuel)
    subst hempty
    exact Triple.pure fun _ _ => by simp
  | succ fuel ih =>
    rcases remaining with _ | ⟨event, rest⟩
    · exact Triple.pure fun _ _ => by simp
    refine Triple.bind (Q := fun batch _ => batch ≠ [] ∧
      event :: rest = batch ++ (event :: rest).drop batch.length ∧
        ∀ event ∈ batch, sink.Delivers event) (Triple.ofExcept ?_ ?_) fun batch => ?_
    · intro batch hbatch u _
      obtain ⟨hne, hsplit⟩ := takeBatch_ok hbatch
      exact ⟨hne, hsplit, takeBatch_fits limit hbatch⟩
    · exact fun _ _ _ _ => True.intro
    apply Triple.of_start
    rintro u ⟨hne, hsplit, hfits⟩
    refine Triple.after fun ack => ?_
    have hpos : 0 < batch.length := List.length_pos_iff.mpr hne
    have hleft : ((event :: rest).drop batch.length).length ≤ fuel := by
      rw [List.length_drop]
      omega
    refine (ih ack hleft).post ?_
    intro last t hrest other hother
    rw [hsplit] at hother
    rcases List.mem_append.mp hother with hother | hother
    · exact hfits other hother
    · exact hrest other hother

/-- A request with events from the first one on is answered, or sends what it has not sent. -/
theorem plan_numbered (numbered : Numbered 0 request.events) (hne : request.events ≠ [])
    (already : Option ℕ) :
    (∃ through, plan request already = .delivered through) ∨
      ∃ remaining, plan request already = .send remaining := by
  obtain ⟨first, rest, hevents⟩ := List.exists_cons_of_ne_nil hne
  have hfirst : first.seq = 0 := (numbered_cons.mp (hevents ▸ numbered)).1
  have hvalid : validateContiguous request.events = .ok () := by
    rw [hevents, validateContiguous_ok_iff, hfirst, ← hevents]
    exact numbered
  rcases already with _ | delivered
  · apply Or.inr
    refine ⟨request.events, ?_⟩
    unfold plan
    split
    · next hempty => exact absurd hempty hne
    · next other others hother =>
      have hsame : other = first := (List.cons.inj (hother.symm.trans hevents)).1
      rw [hvalid, hsame, if_pos hfirst]
  · rw [plan_some hne hvalid]
    rcases hdrop : request.events.dropWhile fun event => event.seq ≤ delivered with _ | ⟨next, left⟩
    · exact Or.inl ⟨delivered, by simp only [hdrop]⟩
    · have hnext : next.seq = delivered + 1 := by
        rw [numbered.dropWhile_head hdrop, Nat.zero_max]
      exact Or.inr ⟨next :: left, by simp only [hdrop, if_pos hnext]⟩

def Outstanding (sink : HttpEventSink ρ) (already : Option ℕ) (events : List Event) : Prop :=
  ∀ event ∈ events, nextSeq already ≤ event.seq → sink.Delivers event

theorem publishEvents_returns (receiver : sink.network.Acknowledges)
    (numbered : Numbered 0 request.events) (hne : request.events ≠ [])
    (fits : sink.Outstanding s.deliveredSeq request.events) :
    Triple (fun t => t = s) (sink.publishEvents request)
      (fun ack _ => Reaching request.events request.durable ack) (fun _ => False) := by
  intro u hu
  rw [hu, publishEvents_run]
  rcases plan_numbered numbered hne s.deliveredSeq with ⟨through, hplan⟩ | ⟨remaining, hplan⟩
  · rw [hplan]
    obtain ⟨-, hle⟩ := plan_delivered hplan
    refine ⟨?_, fun watermark hwatermark => ?_⟩
    · obtain ⟨body, last, hsplit⟩ := (List.eq_nil_or_concat request.events).resolve_left hne
      rw [List.concat_eq_append] at hsplit
      have hlast : lastSeq request.events = last.seq := by
        rw [hsplit, lastSeq, List.getLast?_concat]
        rfl
      rw [hlast]
      exact hle last (by rw [hsplit]; simp)
    · rw [Option.mem_def.mp hwatermark]
      exact ⟨watermark.seq, rfl, le_rfl⟩
  · rw [hplan]
    obtain ⟨hremaining, hnumbered, skipped, hsplit, -⟩ := plan_send hplan
    have hfits : ∀ event ∈ remaining, sink.Delivers event := by
      intro event hevent
      have hmem : event ∈ request.events := hsplit ▸ List.mem_append_right _ hevent
      exact fits event hmem (hnumbered.mem hevent).1
    have hloop : Triple (fun _ => True) (sink.publishFrom request s.deliveredSeq remaining)
        (fun ack _ => Reaching remaining request.durable ack) (fun _ => False) :=
      publishLoop_returns receiver _ le_rfl hremaining hfits
    refine (hloop (s.called request) True.intro).mono ?_ fun _ h => h
    intro ack t hack
    rw [Reaching, hsplit, lastSeq_append hremaining]
    exact hack

theorem publishEvents_fits (limit : 0 < sink.config.maxEventsPerBatch) :
    Triple (fun t => t = s) (sink.publishEvents request)
      (fun _ _ => sink.Outstanding s.deliveredSeq request.events) (fun _ => True) := by
  refine publishEvents_triple (fun _ _ => True.intro) ?_ ?_
  · rintro _ through rfl hthrough hle event hevent hnext
    have hdelivered := hle event hevent
    rw [hthrough, nextSeq, Option.elim_some] at hnext
    exact absurd hdelivered (Nat.not_le.mpr hnext)
  · rintro _ skipped remaining rfl hsplit hskipped hne _
    refine ((publishLoop_fits limit _ le_rfl).pre fun _ _ => True.intro).post ?_
    intro ack t hfits event hevent hnext
    rw [hsplit] at hevent
    rcases List.mem_append.mp hevent with hevent | hevent
    · exact absurd hnext (Nat.not_le.mpr (hskipped event hevent))
    · exact hfits event hevent

end HttpEventSink

namespace NdjsonSink
variable {serde : Serde} {sink first : NdjsonSink}

structure Spooled (serde : Serde) (sink : NdjsonSink) : Prop where
  numbered : Numbered 0 sink.accepted
  texts : ∀ event ∈ sink.accepted, ∃ text, serde.toVec event = .ok text

theorem Spooled.of_accepted {sink' : NdjsonSink} (h : Spooled serde sink)
    (same : sink'.accepted = sink.accepted) : Spooled serde sink' := by
  refine ⟨?_, ?_⟩
  · rw [same]
    exact h.numbered
  · rw [same]
    exact h.texts

theorem emit_spooled (answers : WriteAnswers) (event : Event) :
    Keeps (Spooled serde) (emit serde answers event) := by
  intro s hs
  rcases hline : s.lineFor serde event with failure | line
  · rw [emit_refused hline]
    exact hs
  obtain ⟨text, htext, -⟩ := (lineFor_ok hline).text
  have hends := emit_accepted serde answers event s.accepted s rfl
  refine hends.mono ?_ fun t ht => hs.of_accepted ht
  rintro ⟨⟩ t ⟨haccepted, hseq⟩
  refine ⟨?_, ?_⟩
  · rw [haccepted]
    apply hs.numbered.concat
    rw [hseq, Nat.zero_add]
  · intro other hother
    rw [haccepted] at hother
    rcases List.mem_append.mp hother with hother | hother
    · exact hs.texts other hother
    · exact ⟨text, List.mem_singleton.mp hother ▸ htext⟩

theorem Run.spooled {meets : NdjsonSink → SinkCall → Prop} (run : Run serde meets first sink)
    (h : Spooled serde first) : Spooled serde sink := by
  induction run with
  | start => exact h
  | call call _ _ ih =>
    cases call with
    | emit answers event => exact (emit_spooled answers event).final ih
    | flush answers =>
      exact ih.of_accepted ((flush_accepted answers _).final rfl)

end NdjsonSink

theorem HttpEventConfig.create_limit {config : HttpEventConfig} {file : CursorFile}
    {client : Except String Unit} {delivered : Option ℕ}
    (h : config.create file client = .ok delivered) : 0 < config.maxEventsPerBatch := by
  obtain ⟨hlimit, -⟩ := ite_error_iff.mp h
  exact Nat.pos_of_ne_zero hlimit

namespace DurableSessionSink
variable {ρ γ : Type}

/-- A durable session sink that publishes its events over HTTP. -/
def overHttp (sessionId : String)
    (publishCheckpoint : CheckpointRequest → Proc γ SinkError CheckpointPublication)
    (http : HttpEventSink ρ) : DurableSessionSink (γ × HttpState ρ) where
  sessionId := sessionId
  publishCheckpoint request :=
    zoom Prod.fst (fun checkpoints behind => (checkpoints, behind.2)) (publishCheckpoint request)
  publishEvents request :=
    zoom Prod.snd (fun http behind => (behind.1, http)) (http.publishEvents request)

/-- Every checkpoint is published, under an id that the flush takes. -/
def Checkpoints (publishCheckpoint : CheckpointRequest → Proc γ SinkError CheckpointPublication) :
    Prop :=
  ∀ request, Triple (fun _ => True) (publishCheckpoint request)
    (fun publication _ => ∃ oid, normalizeCommitOid publication.checkpoint = .ok oid) fun _ => False

section
variable {sessionId : String} {http : HttpEventSink ρ} {answers : WriteAnswers}
  {publishCheckpoint : CheckpointRequest → Proc γ SinkError CheckpointPublication}
  {request : FlushRequest} {events : List Event} {h : HttpState ρ}
  {Q : Unit → DurableState (γ × HttpState ρ) → Prop} {R : DurableState (γ × HttpState ρ) → Prop}

def Holding (events : List Event) (h : HttpState ρ) (s : DurableState (γ × HttpState ρ)) : Prop :=
  s.journal.accepted = events ∧ s.behind.2 = h

theorem flushJournal_done (flush : answers.flush.error = none) (sync : answers.sync.error = none) :
    Triple (Holding events h) (onJournal (NdjsonSink.flush answers))
      (fun _ => Holding (γ := γ) events h) R := by
  intro s hs
  have haccepted := (NdjsonSink.flush_accepted answers s.journal.accepted).final (s := s.journal) rfl
  have hdone : ((NdjsonSink.flush answers).run s.journal).1 = .ok () := by
    simp only [NdjsonSink.flush, NdjsonSink.flushWriter, NdjsonSink.syncFile, flush, sync, run_bind,
      run_modify, run_pure]
  unfold onJournal zoom
  simp only [hdone]
  exact ⟨haccepted.trans hs.1, hs.2⟩

theorem checkpoint_done (checkpoints : Checkpoints publishCheckpoint)
    (checkpoint : CheckpointRequest) :
    Triple (Holding events h) ((overHttp sessionId publishCheckpoint http).checkpoint checkpoint)
      (fun publication s => Holding events h s ∧
        ∃ oid, normalizeCommitOid publication.checkpoint = .ok oid) R := by
  refine Triple.bind (Q := fun publication s => Holding events h s ∧
    ∃ oid, normalizeCommitOid publication.checkpoint = .ok oid) ?_ fun publication => ?_
  · unfold onBehind overHttp
    have hbehind : Triple (fun behind : γ × HttpState ρ => behind.2 = h)
        (zoom Prod.fst (fun checkpoints behind => (checkpoints, behind.2))
          (publishCheckpoint checkpoint))
        (fun publication behind => behind.2 = h ∧
          ∃ oid, normalizeCommitOid publication.checkpoint = .ok oid) (fun _ => False) :=
      (checkpoints checkpoint).zoom (fun _ _ => True.intro) (fun _ _ _ hh hoid => ⟨hh, hoid⟩)
        fun _ _ _ hfalse => hfalse
    refine hbehind.zoom (fun _ hs => hs.2) ?_ fun _ _ _ hfalse => hfalse.elim
    intro s publication behind hs hpublished
    exact ⟨⟨hs.1, hpublished.1⟩, hpublished.2⟩
  · refine Triple.bind (Q := fun _ s => Holding events h s ∧
      ∃ oid, normalizeCommitOid publication.checkpoint = .ok oid) (Triple.modify fun _ hs => hs)
      fun _ => ?_
    exact Triple.pure fun _ hs => hs

theorem flushSession_triple (flush : answers.flush.error = none) (sync : answers.sync.error = none)
    (checkpoints : Checkpoints publishCheckpoint)
    (through : events.getLast?.map Event.seq = some request.lastSeq)
    (commit : ∃ commit, commitFor request events = .ok commit)
    (publishes : ∀ checkpoint, Triple (Holding events h)
      ((overHttp sessionId publishCheckpoint http).publishThrough request events checkpoint) Q R) :
    Triple (Holding events h)
      ((overHttp sessionId publishCheckpoint http).flushSession answers request) Q R := by
  refine Triple.bind (Q := fun _ => Holding events h) (Triple.modify fun _ hs => hs) fun _ => ?_
  refine Triple.bind (flushJournal_done flush sync) fun _ => ?_
  refine Triple.get fun u hu => ?_
  have hevents : u.journal.eventsThrough request.lastSeq = .ok events := by
    rw [NdjsonSink.eventsThrough, hu.1, if_pos through]
  obtain ⟨oid, hcommit⟩ := commit
  rw [hevents]
  refine Triple.bind (Q := fun found s => found = events ∧ Holding events h s)
    (Triple.pure ?_) fun found => ?_
  · rintro s rfl
    exact ⟨rfl, hu⟩
  apply Triple.of_start
  rintro v ⟨rfl, hv⟩
  rw [hcommit]
  refine Triple.bind (Q := fun _ => Holding found h) (Triple.pure ?_) fun commit => ?_
  · rintro s rfl
    exact hv
  refine Triple.bind (checkpoint_done checkpoints _) fun publication => ?_
  refine Triple.bind (Q := fun _ => Holding found h) (Triple.ofExcept ?_ ?_) fun checkpoint => ?_
  · intro checkpoint _ s hs
    exact hs.1
  · rintro failure hfailure s ⟨-, oid, hoid⟩
    rw [hoid] at hfailure
    exact absurd hfailure (by simp)
  exact publishes checkpoint

theorem publish_triple {publication : EventPublishRequest}
    {Q : EventAcknowledgement → HttpState ρ → Prop} {R : HttpState ρ → Prop}
    (published : Triple (fun t => t = h) (http.publishEvents publication) Q R) :
    Triple (Holding events h) ((overHttp sessionId publishCheckpoint http).publish publication)
      (fun ack s => Q ack s.behind.2) (fun s => R s.behind.2) := by
  refine Triple.bind (Q := fun _ => Holding events h) (Triple.modify fun _ hs => hs) fun _ => ?_
  unfold onBehind overHttp
  have hbehind : Triple (fun behind : γ × HttpState ρ => behind.2 = h)
      (zoom Prod.snd (fun http behind => (behind.1, http)) (http.publishEvents publication))
      (fun ack behind => Q ack behind.2) (fun behind => R behind.2) :=
    published.zoom (fun _ hh => hh) (fun _ _ _ _ hack => hack) fun _ _ _ hr => hr
  exact hbehind.zoom (fun _ hs => hs.2) (fun _ _ _ _ hack => hack) fun _ _ _ hr => hr

theorem checkAcknowledged_reaching {ack : EventAcknowledgement} {checkpoint : String}
    (through : events.getLast?.map Event.seq = some request.lastSeq)
    (h : Reaching events (some ⟨request.lastSeq, request.lastOp, checkpoint⟩) ack) :
    checkAcknowledged request ack = .ok () := by
  have hlast : lastSeq events = request.lastSeq := by
    rw [lastSeq, through]
    rfl
  obtain ⟨haccepted, hdurable⟩ := h
  obtain ⟨seq, hseq, hle⟩ := hdurable _ rfl
  rw [hlast] at haccepted
  rw [checkAcknowledged, if_neg (Nat.not_lt.mpr haccepted), if_neg]
  rw [Option.mem_def.mp hseq, Option.any_some, decide_eq_true_eq]
  exact Nat.not_lt.mpr hle

theorem flushSession_returns (receiver : http.network.Acknowledges)
    (flush : answers.flush.error = none) (sync : answers.sync.error = none)
    (checkpoints : Checkpoints publishCheckpoint) (numbered : Numbered 0 events)
    (through : events.getLast?.map Event.seq = some request.lastSeq)
    (commit : ∃ commit, commitFor request events = .ok commit)
    (fits : http.Outstanding h.deliveredSeq events) :
    Triple (Holding events h)
      ((overHttp sessionId publishCheckpoint http).flushSession answers request)
      (fun _ _ => True) (fun _ => False) := by
  refine flushSession_triple flush sync checkpoints through commit fun checkpoint => ?_
  have hne : events ≠ [] := by
    rintro rfl
    exact absurd through (by simp)
  refine Triple.bind (publish_triple (HttpEventSink.publishEvents_returns receiver numbered hne fits))
    fun ack => ?_
  refine Triple.ofExcept (fun _ _ _ _ => True.intro) ?_
  intro failure hfailure s hreaching
  rw [checkAcknowledged_reaching through hreaching] at hfailure
  exact absurd hfailure (by simp)

theorem flushSession_fits (limit : 0 < http.config.maxEventsPerBatch)
    (flush : answers.flush.error = none) (sync : answers.sync.error = none)
    (checkpoints : Checkpoints publishCheckpoint)
    (through : events.getLast?.map Event.seq = some request.lastSeq)
    (commit : ∃ commit, commitFor request events = .ok commit) :
    Triple (Holding events h)
      ((overHttp sessionId publishCheckpoint http).flushSession answers request)
      (fun _ _ => http.Outstanding h.deliveredSeq events) (fun _ => True) := by
  refine flushSession_triple flush sync checkpoints through commit fun checkpoint => ?_
  refine Triple.bind (publish_triple (HttpEventSink.publishEvents_fits limit)) fun ack => ?_
  exact Triple.ofExcept (fun _ _ _ hs => hs) fun _ _ _ _ => True.intro

theorem flushSession_outstanding {state : DurableState (γ × HttpState ρ)}
    (limit : 0 < http.config.maxEventsPerBatch)
    (flush : answers.flush.error = none) (sync : answers.sync.error = none)
    (checkpoints : Checkpoints publishCheckpoint)
    (through : state.journal.accepted.getLast?.map Event.seq = some request.lastSeq)
    (commit : ∃ commit, commitFor request state.journal.accepted = .ok commit)
    (returned : (((overHttp sessionId publishCheckpoint http).flushSession answers request).run
      state).1 = .ok ()) :
    http.Outstanding state.behind.2.deliveredSeq state.journal.accepted := by
  have hends : Ends (fun _ _ => http.Outstanding state.behind.2.deliveredSeq state.journal.accepted)
      (fun _ => True)
      (((overHttp sessionId publishCheckpoint http).flushSession answers request).run state) :=
    flushSession_fits limit flush sync checkpoints through commit state ⟨rfl, rfl⟩
  rcases hrun : ((overHttp sessionId publishCheckpoint http).flushSession answers request).run state
    with ⟨outcome, s⟩
  rw [hrun] at hends returned
  have houtcome : outcome = .ok () := returned
  subst houtcome
  exact hends

end

/-- Over a receiver that acknowledges every POST in full, a flush returns exactly when every
event that is still to be sent fits into a batch of its own. -/
theorem flush_returns_iff_fits (serde : Serde) (http : HttpEventSink ρ)
    (publishCheckpoint : CheckpointRequest → Proc γ SinkError CheckpointPublication)
    (sessionId path : String) (maxSpoolBytes : ℕ) (journalSession : Option String)
    (journalSchema : Option ℕ) (existing : Bytes) (file : CursorFile) (client : Except String Unit)
    {delivered : Option ℕ} {first : NdjsonSink} {state : DurableState (γ × HttpState ρ)}
    (answers : WriteAnswers) (request : FlushRequest)
    (configured : http.config.create file client = .ok delivered)
    (encodes : http.encodedLen = fun event => (serde.toVec event).map List.length)
    (opened : NdjsonSink.createForSession serde path maxSpoolBytes journalSession journalSchema
      existing = .ok first)
    (emitted : ∀ event ∈ first.accepted, ∃ text, serde.toVec event = .ok text)
    (run : NdjsonSink.Run serde (fun _ _ => True) first state.journal)
    (receiver : http.network.Acknowledges) (checkpoints : Checkpoints publishCheckpoint)
    (flush : answers.flush.error = none) (sync : answers.sync.error = none)
    (through : state.journal.accepted.getLast?.map Event.seq = some request.lastSeq)
    (commit : ∃ commit, commitFor request state.journal.accepted = .ok commit) :
    (((overHttp sessionId publishCheckpoint http).flushSession answers request).run state).1 = .ok () ↔
      ∀ event ∈ state.journal.accepted, nextSeq state.behind.2.deliveredSeq ≤ event.seq →
        ∀ text, serde.toVec event = .ok text → text.length + 2 ≤ http.config.maxBytesPerBatch := by
  have hspooled : NdjsonSink.Spooled serde state.journal :=
    run.spooled ⟨NdjsonSink.createForSession_numbered opened, emitted⟩
  constructor
  · intro hreturned event hevent hnext text htext
    have hlimit := HttpEventConfig.create_limit configured
    have hfits := flushSession_outstanding hlimit flush sync checkpoints through commit hreturned
    obtain ⟨encoded, hencoded, hfits⟩ := hfits event hevent hnext
    rw [encodes] at hencoded
    simp only [htext] at hencoded
    rw [← Except.ok.inj hencoded] at hfits
    exact hfits
  · intro hfits
    have hdelivers : http.Outstanding state.behind.2.deliveredSeq state.journal.accepted := by
      intro event hevent hnext
      obtain ⟨text, htext⟩ := hspooled.texts event hevent
      refine ⟨text.length, ?_, hfits event hevent hnext text htext⟩
      simp only [encodes, htext]
      rfl
    -- whatever answer the call could not get would end it otherwise
    have hends : Ends (fun _ _ => True) (fun _ => False)
        (((overHttp sessionId publishCheckpoint http).flushSession answers request).run state) :=
      flushSession_returns receiver flush sync checkpoints hspooled.numbered through commit hdelivers
        state ⟨rfl, rfl⟩
    rcases hrun : ((overHttp sessionId publishCheckpoint http).flushSession answers request).run state
      with ⟨_ | _ | _, s⟩
    · rfl
    · rw [hrun] at hends
      exact hends.elim
    · rw [hrun] at hends
      exact hends.elim

def fullReceiver : Network Unit where
  post s post := (some (.response ⟨200, "200 OK"⟩
    (.ok ⟨lastSeq post.body.events, post.body.durable.map DurableWatermark.seq⟩)), s)
  writeCursor s _ := (.done, s)

def limitedSink (maxBytesPerBatch : ℕ) : HttpEventSink Unit where
  config := ⟨"http://sink/events", none, 10, maxBytesPerBatch, "cursor.json", 0⟩
  encodedLen event := (exampleSerde.toVec event).map List.length
  network := fullReceiver

def takenCommit : String := "1111111111111111111111111111111111111111"

def takenCheckpoint : CheckpointRequest → Proc Unit SinkError CheckpointPublication :=
  fun _ => pure ⟨takenCommit⟩

def takenRequest : FlushRequest := ⟨"shadow", 0, "op:a", some takenCommit⟩

def takenState : DurableState (Unit × HttpState Unit) where
  journal := NdjsonSink.spooledJournal
  behind := ((), .created none .missing ())

theorem fullReceiver_acknowledges : fullReceiver.Acknowledges where
  post s post := by
    have hvalid : Valid ⟨lastSeq post.body.events, post.body.durable.map DurableWatermark.seq⟩
        post.body := by
      refine ⟨le_rfl, ?_⟩
      intro watermark hwatermark
      rw [Option.mem_def.mp hwatermark]
      exact ⟨watermark.seq, rfl, le_rfl⟩
    exact ⟨_, _, rfl, if_pos ⟨Or.inl rfl, hvalid⟩⟩
  written _ _ := rfl

theorem takenCheckpoint_checkpoints : Checkpoints takenCheckpoint :=
  fun _ => Triple.pure fun _ _ => ⟨takenCommit, by decide⟩

theorem flush_returns_iff_fits_roomy :
    (((overHttp "s" takenCheckpoint (limitedSink 1000)).flushSession {} takenRequest).run
      takenState).1 = .ok () := by
  refine (flush_returns_iff_fits exampleSerde (limitedSink 1000) takenCheckpoint "s" "spool.ndjson" 1000
    (some "s") (some 0) [] .missing (.ok ()) {} takenRequest rfl rfl
    NdjsonSink.exampleJournal_created (fun _ hevent => absurd hevent List.not_mem_nil)
    NdjsonSink.spooledJournal_run fullReceiver_acknowledges takenCheckpoint_checkpoints rfl rfl rfl
    ⟨takenCommit, rfl⟩).mpr ?_
  intro event hevent _ text htext
  rw [List.mem_singleton.mp hevent, exampleSerde_writes] at htext
  rw [← Except.ok.inj htext, spooledText_length]
  decide

/-- An accepted event that does not fit into a batch fails the flush. -/
theorem oversized_event_fails_flush :
    ¬ ∀ (serde : Serde) (http : HttpEventSink Unit)
      (publishCheckpoint : CheckpointRequest → Proc Unit SinkError CheckpointPublication)
      (sessionId path : String) (maxSpoolBytes : ℕ) (journalSession : Option String)
      (journalSchema : Option ℕ) (existing : Bytes) (file : CursorFile) (client : Except String Unit)
      (delivered : Option ℕ) (first : NdjsonSink) (state : DurableState (Unit × HttpState Unit))
      (answers : WriteAnswers) (request : FlushRequest),
      http.config.create file client = .ok delivered →
      (http.encodedLen = fun event => (serde.toVec event).map List.length) →
      NdjsonSink.createForSession serde path maxSpoolBytes journalSession journalSchema
        existing = .ok first →
      (∀ event ∈ first.accepted, ∃ text, serde.toVec event = .ok text) →
      NdjsonSink.Run serde (fun _ _ => True) first state.journal →
      http.network.Acknowledges → Checkpoints publishCheckpoint →
      answers.flush.error = none → answers.sync.error = none →
      state.journal.accepted.getLast?.map Event.seq = some request.lastSeq →
      (∃ commit, commitFor request state.journal.accepted = .ok commit) →
      (((overHttp sessionId publishCheckpoint http).flushSession answers request).run state).1 =
        .ok () := by
  intro h
  have hreturned := h exampleSerde (limitedSink 1) takenCheckpoint "s" "spool.ndjson" 1000
    (some "s") (some 0) [] .missing (.ok ()) none _ takenState {} takenRequest rfl rfl
    NdjsonSink.exampleJournal_created (fun _ hevent => absurd hevent List.not_mem_nil)
    NdjsonSink.spooledJournal_run fullReceiver_acknowledges takenCheckpoint_checkpoints rfl rfl rfl
    ⟨takenCommit, rfl⟩
  have hfits : (limitedSink 1).Outstanding none [spooledEvent] :=
    flushSession_outstanding (Nat.succ_pos 9) rfl rfl takenCheckpoint_checkpoints rfl ⟨takenCommit, rfl⟩
      hreturned
  obtain ⟨encoded, -, hsmall⟩ := hfits spooledEvent (List.mem_singleton_self _) (Nat.zero_le _)
  exact absurd hsmall (Nat.not_le.mpr (Nat.lt_of_lt_of_le Nat.one_lt_two (Nat.le_add_left _ _)))

end DurableSessionSink
end Rrjj
