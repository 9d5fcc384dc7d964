import Rrjj.Sinks.Http
import Rrjj.Sinks.Numbering

/-! What the HTTP sink sends and what it takes for delivered: numbering of batches, valid
acknowledgements, and one rule for each of its loops. -/

namespace Rrjj
open Library Library.Proc

section
variable {first : ℕ} {event : Event} {events batch left : List Event}

theorem lastSeq_append (hne : left ≠ []) : lastSeq (batch ++ left) = lastSeq left := by
  rw [lastSeq, List.getLast?_append_of_ne_nil _ hne, ← lastSeq]

theorem Numbered.lastSeq (h : Numbered first events) (hne : events ≠ []) :
    lastSeq events + 1 = first + events.length := by
  obtain ⟨body, last, rfl⟩ := (List.eq_nil_or_concat events).resolve_left hne
  rw [List.concat_eq_append] at h ⊢
  obtain ⟨-, hlast⟩ := numbered_append.mp h
  have hseq := (numbered_cons.mp hlast).1
  simp [Rrjj.lastSeq, hseq, Nat.add_assoc]

theorem validateContiguous_ok_iff :
    validateContiguous (event :: events) = .ok () ↔ Numbered event.seq (event :: events) := by
  induction events generalizing event with
  | nil => simp [validateContiguous, numbered_cons, numbered_nil]
  | cons next rest ih =>
    rw [numbered_cons, validateContiguous]
    by_cases hnext : next.seq = event.seq + 1
    · rw [if_pos hnext, ih, hnext]
      simp
    · rw [if_neg hnext]
      simp [numbered_cons, hnext]

end

structure Journal where
  sessionId : String
  event : ℕ → Event
  seq_event : ∀ n, (event n).seq = n

/-- The first `count` events of the session. -/
def Journal.take (journal : Journal) (count : ℕ) : List Event :=
  (List.range count).map journal.event

theorem Journal.eq_map {journal : Journal} {first : ℕ} {events : List Event}
    (h : Numbered first events) (own : ∀ event ∈ events, event = journal.event event.seq) :
    events = (List.range' first events.length).map journal.event := by
  calc events = events.map fun event => journal.event event.seq := by
        rw [List.map_congr_left fun event hevent => (own event hevent).symm, List.map_id']
    _ = (events.map Event.seq).map journal.event := by rw [List.map_map]; rfl
    _ = (List.range' first events.length).map journal.event := by rw [h]

theorem Journal.numbered_take (journal : Journal) (count : ℕ) : Numbered 0 (journal.take count) := by
  unfold Numbered Journal.take
  rw [List.length_map, List.length_range, List.map_map, ← List.range_eq_range']
  exact (List.map_congr_left fun n _ => journal.seq_event n).trans (List.map_id _)

theorem takeBatch_ok {encodedLen : Event → Except String ℕ} {maxEvents maxBytes : ℕ}
    {event : Event} {rest batch : List Event}
    (h : takeBatch encodedLen (event :: rest) maxEvents maxBytes = .ok batch) :
    batch ≠ [] ∧ event :: rest = batch ++ (event :: rest).drop batch.length := by
  unfold takeBatch at h
  rcases hcount : batchCount encodedLen maxBytes ((event :: rest).take maxEvents) 2 0 with
    failure | count <;> rw [hcount] at h
  · exact absurd h (by simp [Bind.bind, Except.bind])
  · have hbatch : batch = (event :: rest).take (min (max count 1) (event :: rest).length) :=
      (Except.ok.inj h).symm
    have hpos : min (max count 1) (event :: rest).length ≠ 0 := by
      rw [List.length_cons]
      omega
    refine ⟨?_, ?_⟩
    · rw [hbatch]
      exact mt List.take_eq_nil_iff.mp (by simp)
    · have hprefix : batch <+: event :: rest := hbatch ▸ List.take_prefix _ _
      obtain ⟨left, hleft⟩ := hprefix
      rw [← hleft, List.drop_left]

/-- What the sink requires of an acknowledgement: it reaches the end of the batch, and the
durable watermark of the batch if there is one. -/
structure Valid (ack : EventAcknowledgement) (body : HttpEventBatch) : Prop where
  accepted : lastSeq body.events ≤ ack.acceptedThroughSeq
  durable : ∀ watermark ∈ body.durable, ∃ seq ∈ ack.durableThroughSeq, watermark.seq ≤ seq

instance (ack : EventAcknowledgement) (body : HttpEventBatch) : Decidable (Valid ack body) :=
  decidable_of_iff (lastSeq body.events ≤ ack.acceptedThroughSeq ∧
      ∀ watermark ∈ body.durable, ∃ seq ∈ ack.durableThroughSeq, watermark.seq ≤ seq)
    ⟨fun h => ⟨h.1, h.2⟩, fun h => ⟨h.accepted, h.durable⟩⟩

theorem validateAck_ok_iff {ack : EventAcknowledgement} {body : HttpEventBatch} :
    validateAck ack body.events body.durable = .ok () ↔ Valid ack body := by
  unfold validateAck
  constructor
  · intro h
    split_ifs at h with hlast
    refine ⟨Nat.not_lt.mp hlast, ?_⟩
    intro watermark hwatermark
    rw [Option.mem_def.mp hwatermark] at h
    rcases hseq : ack.durableThroughSeq with _ | seq <;> simp only [hseq] at h
    · exact absurd h (by simp)
    · split_ifs at h with hle
      exact ⟨seq, rfl, hle⟩
  · intro h
    rw [if_neg (Nat.not_lt.mpr h.accepted)]
    rcases hdurable : body.durable with _ | watermark
    · rfl
    · obtain ⟨seq, hseq, hle⟩ := h.durable watermark hdurable
      rw [Option.mem_def.mp hseq]
      exact if_pos hle

def HttpReply.acknowledgement (body : HttpEventBatch) : HttpReply → Option EventAcknowledgement
  | .response status (.ok ack) =>
    if (classifyHttpStatus status.code = .success ∨ classifyHttpStatus status.code = .conflict)
        ∧ Valid ack body then some ack
    else none
  | _ => none

theorem HttpReply.valid_of_acknowledgement {reply : HttpReply} {body : HttpEventBatch}
    {ack : EventAcknowledgement} (h : reply.acknowledgement body = some ack) :
    Valid ack body := by
  unfold HttpReply.acknowledgement at h
  split at h
  · split_ifs at h with hvalid
    exact Option.some.inj h ▸ hvalid.2
  · exact absurd h (by simp)

namespace HttpEventSink
variable {ρ : Type} {sink : HttpEventSink ρ}

theorem judge_accept_iff {body : HttpEventBatch} {reply : HttpReply}
    {ack : EventAcknowledgement} :
    sink.judge body reply = .accept ack ↔ reply.acknowledgement body = some ack := by
  unfold judge HttpReply.acknowledgement
  rcases reply with message | ⟨status, message⟩ | ⟨status, message | answer⟩
  · simp
  · simp
  · rcases hclass : classifyHttpStatus status.code <;> simp [hclass]
  · have hvalid : validateAck answer body.events body.durable = .ok () ↔ Valid answer body :=
      validateAck_ok_iff
    rcases hack : validateAck answer body.events body.durable with failure | done
    · have hnot : ¬ Valid answer body := fun h => by
        rw [← hvalid, hack] at h
        exact absurd h (by simp)
      rcases hclass : classifyHttpStatus status.code <;> simp [hclass, hack, hnot]
    · have hyes : Valid answer body := hvalid.mp hack
      rcases hclass : classifyHttpStatus status.code <;> simp [hclass, hack, hyes]

variable (sink) in
/-- The state once a POST was answered, or has killed the process. -/
def answered (post : HttpPost) (s : HttpState ρ) : HttpState ρ :=
  { s with
    network := (sink.network.post s.network post).2
    trace := s.trace ++ [.posted post (sink.network.post s.network post).1] }

variable (sink) in
def written (cursor : SinkCursor) (s : HttpState ρ) : HttpState ρ :=
  { s with
    network := (sink.network.writeCursor s.network cursor).2
    cursor := if (sink.network.writeCursor s.network cursor).1.stored then .cursor cursor
      else s.cursor }

variable {P I R : HttpState ρ → Prop} {Q : HttpReply → HttpState ρ → Prop}

theorem send_triple {post : HttpPost}
    (reply : ∀ s, P s → ∀ reply, (sink.network.post s.network post).1 = some reply →
      Q reply (sink.answered post s))
    (killed : ∀ s, P s → (sink.network.post s.network post).1 = none → R (sink.answered post s)) :
    Triple P (sink.send post) Q R := by
  intro s hs
  rcases hanswer : (sink.network.post s.network post).1 with _ | answer
  · have hrun : (sink.send post).run s = (.cut, sink.answered post s) := by
      simp only [send, run_bind, run_get, run_modify, run_cut, hanswer, answered]
    rw [hrun]
    exact killed s hs hanswer
  · have hrun : (sink.send post).run s = (.ok answer, sink.answered post s) := by
      simp only [send, run_bind, run_get, run_modify, run_pure, hanswer, answered]
    rw [hrun]
    exact reply s hs answer hanswer

/-- An attempt that is acknowledged leads to `Q`; any other one keeps `I` and allows the sink
to stop in `R`. -/
theorem tryPost_triple {post : HttpPost} {Q : EventAcknowledgement → HttpState ρ → Prop}
    (accepted : ∀ s, I s → ∀ reply ack, (sink.network.post s.network post).1 = some reply →
      reply.acknowledgement post.body = some ack → Q ack (sink.answered post s))
    (unaccepted : ∀ s, I s → (∀ reply, (sink.network.post s.network post).1 = some reply →
      reply.acknowledgement post.body = none) →
        I (sink.answered post s) ∧ R (sink.answered post s)) :
    Triple I (sink.tryPost post)
      (fun r s => match r with | .ok ack => Q ack s | .error _ => I s ∧ R s) R := by
  have hrefused : ∀ s reply, I s → (sink.network.post s.network post).1 = some reply →
      (∀ ack, sink.judge post.body reply ≠ .accept ack) →
        I (sink.answered post s) ∧ R (sink.answered post s) := by
    intro s reply hs hreply hjudge
    refine unaccepted s hs fun other hother => ?_
    rw [← Option.some.inj (hreply.symm.trans hother)]
    exact Option.eq_none_iff_forall_ne_some.mpr fun ack hack =>
      hjudge ack (judge_accept_iff.mpr hack)
  refine Triple.bind (send_triple (Q := fun reply t => ∃ s, I s ∧
      (sink.network.post s.network post).1 = some reply ∧ t = sink.answered post s)
    (fun s hs reply hreply => ⟨s, hs, hreply, rfl⟩)
    (fun s hs hkilled => (unaccepted s hs (by simp [hkilled])).2)) fun reply => ?_
  rcases hjudge : sink.judge post.body reply with ack | failure | exhausted
  · refine Triple.pure ?_
    rintro t ⟨s, hs, hreply, rfl⟩
    exact accepted s hs reply ack hreply (judge_accept_iff.mp hjudge)
  · refine Triple.throw ?_
    rintro t ⟨s, hs, hreply, rfl⟩
    exact (hrefused s reply hs hreply (by simp [hjudge])).2
  · refine Triple.pure ?_
    rintro t ⟨s, hs, hreply, rfl⟩
    exact hrefused s reply hs hreply (by simp [hjudge])

theorem postLoop_triple {post : HttpPost} {Q : EventAcknowledgement → HttpState ρ → Prop}
    (accepted : ∀ s, I s → ∀ reply ack, (sink.network.post s.network post).1 = some reply →
      reply.acknowledgement post.body = some ack → Q ack (sink.answered post s))
    (unaccepted : ∀ s, I s → (∀ reply, (sink.network.post s.network post).1 = some reply →
      reply.acknowledgement post.body = none) →
        I (sink.answered post s) ∧ R (sink.answered post s)) (retries : ℕ) :
    Triple I (sink.postLoop post retries) Q R := by
  induction retries with
  | zero =>
    refine (tryPost_triple accepted unaccepted).bind fun r => ?_
    rcases r with failure | ack
    · exact Triple.throw fun s hs => hs.2
    · exact Triple.pure fun s hs => hs
  | succ retries ih =>
    refine (tryPost_triple accepted unaccepted).bind fun r => ?_
    rcases r with failure | ack
    · exact ih.pre fun s hs => hs.1
    · exact Triple.pure fun s hs => hs

theorem writeCursorAtomic_triple {cursor : SinkCursor}
    (h : ∀ s, P s → I (sink.written cursor s)) :
    Triple P (sink.writeCursorAtomic cursor) (fun _ => I) I := by
  intro s hs
  have hwritten := h s hs
  rcases hanswer : (sink.network.writeCursor s.network cursor).1 with _ | ⟨stored, message⟩ | stored
  · have hrun : (sink.writeCursorAtomic cursor).run s = (.ok (), sink.written cursor s) := by
      simp [writeCursorAtomic, run_bind, written, hanswer]
    rw [hrun]
    exact hwritten
  · have hrun : (sink.writeCursorAtomic cursor).run s =
        (.error (.io message), sink.written cursor s) := by
      simp [writeCursorAtomic, run_bind, written, hanswer]
    rw [hrun]
    exact hwritten
  · have hrun : (sink.writeCursorAtomic cursor).run s = (.cut, sink.written cursor s) := by
      simp [writeCursorAtomic, run_bind, written, hanswer]
    rw [hrun]
    exact hwritten

/-- Each turn sends the start of what remains; the last one ends in `Q`. The loop stops in `R`
within a turn or for a batch that cannot be taken. -/
theorem publishLoop_triple {request : EventPublishRequest} {J : List Event → HttpState ρ → Prop}
    {Q : EventAcknowledgement → HttpState ρ → Prop}
    (turn : ∀ batch left, batch ≠ [] →
      Triple (J (batch ++ left)) (sink.publishBatch request batch left.isEmpty)
        (fun ack s => J left s ∧ (left = [] → Q ack s)) R)
    (stop : ∀ remaining s failure, takeBatch sink.encodedLen remaining
      sink.config.maxEventsPerBatch sink.config.maxBytesPerBatch = .error failure →
        J remaining s → R s) {fuel : ℕ} {remaining : List Event}
    (lastAck : EventAcknowledgement) (hfuel : remaining.length ≤ fuel)
    (hne : remaining ≠ []) :
    Triple (J remaining) (sink.publishLoop request fuel remaining lastAck) Q R := by
  induction fuel generalizing remaining lastAck with
  | zero => exact absurd (List.length_eq_zero_iff.mp (Nat.le_zero.mp hfuel)) hne
  | succ fuel ih =>
    rcases remaining with _ | ⟨event, rest⟩
    · exact absurd rfl hne
    · refine Triple.bind (Q := fun batch s => J (event :: rest) s ∧ batch ≠ [] ∧
        event :: rest = batch ++ (event :: rest).drop batch.length)
        (Triple.ofExcept (fun batch hbatch s hs => ⟨hs, takeBatch_ok hbatch⟩)
          (fun failure hfailure s hs => stop (event :: rest) s failure hfailure hs)) fun batch => ?_
      refine Triple.of_start fun u ⟨hu, hbatch, hsplit⟩ => ?_
      have hstart := turn batch ((event :: rest).drop batch.length) hbatch
      rw [← hsplit] at hstart
      refine Triple.bind (hstart.pre fun s (hs : s = u) => hs ▸ hu) fun ack => ?_
      have hpos : 0 < batch.length := List.length_pos_iff.mpr hbatch
      rcases hleft : (event :: rest).drop batch.length with _ | ⟨next, left⟩
      · have hdone : sink.publishLoop request fuel [] ack = pure ack := by cases fuel <;> rfl
        rw [hdone]
        exact Triple.pure fun s hs => hs.2 rfl
      · refine (ih ack ?_ (by simp)).pre fun s hs => hs.1
        have hlength := congrArg List.length hleft
        rw [List.length_drop] at hlength
        omega

inductive Plan where
  | refuse (failure : SinkError)
  | delivered (through : ℕ)
  | send (remaining : List Event)

def plan (request : EventPublishRequest) (already : Option ℕ) : Plan :=
  match request.events with
  | [] => .refuse (.invalidFlush "HTTP event sink requires a contiguous non-empty event batch")
  | first :: _ =>
    match validateContiguous request.events with
    | .error failure => .refuse failure
    | .ok () =>
      match already with
      | some delivered =>
        match request.events.dropWhile fun event => event.seq ≤ delivered with
        | [] => .delivered delivered
        | next :: rest =>
          if next.seq = delivered + 1 then .send (next :: rest)
          else .refuse (.eventConflict (s!"HTTP event sink sequence gap after delivered {delivered}: " ++
            s!"next is {next.seq}"))
      | none =>
        if first.seq = 0 then .send request.events
        else .refuse (.eventConflict
          s!"HTTP event sink requires batches to start at seq 0, got {first.seq}")

end HttpEventSink

variable {ρ : Type} {sink : HttpEventSink ρ} {s : HttpState ρ} {request : EventPublishRequest}

theorem HttpEventConfig.create_ok {config : HttpEventConfig} {file : CursorFile}
    {client : Except String Unit} {delivered : Option ℕ}
    (h : config.create file client = .ok delivered) : file.readDeliveredSeq = .ok delivered := by
  unfold HttpEventConfig.create at h
  split_ifs at h
  rcases hread : file.readDeliveredSeq with failure | found <;> rw [hread] at h
  · exact absurd h (by simp)
  · rcases client with message | ⟨⟩
    · exact absurd h (by simp)
    · exact congrArg Except.ok (Except.ok.inj h)

def HttpState.called (request : EventPublishRequest) (s : HttpState ρ) : HttpState ρ :=
  { s with trace := s.trace ++ [.called request s.deliveredSeq] }

def nextSeq (already : Option ℕ) : ℕ := already.elim 0 (· + 1)

namespace HttpEventSink

theorem publishEvents_run :
    (sink.publishEvents request).run s =
      match plan request s.deliveredSeq with
      | .refuse failure => (.error failure, s.called request)
      | .delivered through =>
        (.ok ⟨through, request.durable.map DurableWatermark.seq⟩, s.called request)
      | .send remaining =>
        (sink.publishFrom request s.deliveredSeq remaining).run (s.called request) := by
  unfold publishEvents plan
  simp only [run_bind, run_get, run_modify, HttpState.called]
  rcases request.events with _ | ⟨first, events⟩
  · rfl
  · rcases hvalid : validateContiguous (first :: events) with failure | done
    · simp only [run_bind, run_ofExcept_error]
    · rcases s.deliveredSeq with _ | delivered
      · simp only [run_bind, run_ofExcept_ok]
        split_ifs <;> rfl
      · simp only [run_bind, run_ofExcept_ok]
        rcases hdrop : (first :: events).dropWhile (fun event => decide (event.seq ≤ delivered)) with
          _ | ⟨next, rest⟩
        · simp only [hdrop, run_pure]
        · simp only [hdrop]
          split_ifs <;> rfl

theorem plan_empty {already : Option ℕ} (h : request.events = []) :
    plan request already =
      .refuse (.invalidFlush "HTTP event sink requires a contiguous non-empty event batch") := by
  unfold plan
  rw [h]

theorem plan_scattered {already : Option ℕ} {failure : SinkError}
    (h : validateContiguous request.events = .error failure) :
    plan request already = .refuse failure := by
  unfold plan
  split
  · next hempty =>
    rw [hempty] at h
    exact absurd h (by simp [validateContiguous])
  · rw [h]

theorem plan_some {delivered : ℕ} (hne : request.events ≠ [])
    (hvalid : validateContiguous request.events = .ok ()) :
    plan request (some delivered) =
      match request.events.dropWhile fun event => event.seq ≤ delivered with
      | [] => .delivered delivered
      | next :: rest =>
        if next.seq = delivered + 1 then .send (next :: rest)
        else .refuse (.eventConflict (s!"HTTP event sink sequence gap after delivered {delivered}: " ++
          s!"next is {next.seq}")) := by
  unfold plan
  split
  · next hempty => exact absurd hempty hne
  · rw [hvalid]

theorem plan_delivered {already : Option ℕ} {through : ℕ}
    (h : plan request already = .delivered through) :
    already = some through ∧ ∀ event ∈ request.events, event.seq ≤ through := by
  unfold plan at h
  split at h
  · exact absurd h (by simp)
  · split at h
    · exact absurd h (by simp)
    · split at h
      · split at h
        · next delivered _ hdrop =>
          obtain rfl : delivered = through := by simpa using h
          refine ⟨rfl, fun event hevent => ?_⟩
          simpa using List.dropWhile_eq_nil_iff.mp hdrop event hevent
        · split_ifs at h
      · split_ifs at h

theorem plan_send {already : Option ℕ} {remaining : List Event}
    (h : plan request already = .send remaining) :
    remaining ≠ [] ∧ Numbered (nextSeq already) remaining ∧
      ∃ skipped, request.events = skipped ++ remaining ∧
        ∀ event ∈ skipped, event.seq < nextSeq already := by
  unfold plan at h
  split at h
  · exact absurd h (by simp)
  · next first events hevents =>
    split at h
    · exact absurd h (by simp)
    · next hvalid =>
      rw [hevents, validateContiguous_ok_iff, ← hevents] at hvalid
      split at h
      · next delivered =>
        split at h
        · exact absurd h (by simp)
        · next next rest hdrop =>
          split_ifs at h with hnext
          obtain rfl : next :: rest = remaining := by simpa using h
          have hsplit := List.takeWhile_append_dropWhile (l := request.events)
            (p := fun event => decide (event.seq ≤ delivered))
          rw [hdrop] at hsplit
          rw [← hsplit] at hvalid
          have hrest := (numbered_append.mp hvalid).2
          refine ⟨by simp, ?_, _, hsplit.symm, ?_⟩
          · have hfirst := (numbered_cons.mp hrest).1
            rw [← hfirst, hnext] at hrest
            exact hrest
          · intro event hevent
            have hle := List.mem_takeWhile_imp hevent
            exact Nat.lt_succ_of_le (of_decide_eq_true hle)
      · split_ifs at h with hfirst
        obtain rfl : request.events = remaining := by simpa using h
        refine ⟨by rw [hevents]; simp, ?_, [], rfl, by simp⟩
        rw [hfirst] at hvalid
        exact hvalid

theorem plan_send_some {delivered : ℕ} {remaining : List Event}
    (h : plan request (some delivered) = .send remaining) :
    request.events.dropWhile (fun event => decide (event.seq ≤ delivered)) = remaining := by
  have hne : request.events ≠ [] := by
    intro hempty
    rw [plan_empty hempty] at h
    exact absurd h (by simp)
  rcases hvalid : validateContiguous request.events with failure | done
  · rw [plan_scattered hvalid] at h
    exact absurd h (by simp)
  · rw [plan_some hne hvalid] at h
    split at h
    · exact absurd h (by simp)
    · next next rest hdrop =>
      split_ifs at h
      rw [hdrop]
      exact Plan.send.inj h

theorem publishEvents_triple {Q : EventAcknowledgement → HttpState ρ → Prop}
    (refused : ∀ s, P s → R (s.called request))
    (delivered : ∀ s through, P s → s.deliveredSeq = some through →
      (∀ event ∈ request.events, event.seq ≤ through) →
        Q ⟨through, request.durable.map DurableWatermark.seq⟩ (s.called request))
    (sends : ∀ s skipped remaining, P s → request.events = skipped ++ remaining →
      (∀ event ∈ skipped, event.seq < nextSeq s.deliveredSeq) → remaining ≠ [] →
      Numbered (nextSeq s.deliveredSeq) remaining →
        Triple (fun t => t = s.called request)
          (sink.publishFrom request s.deliveredSeq remaining) Q R) :
    Triple P (sink.publishEvents request) Q R := by
  intro s hs
  rw [publishEvents_run]
  rcases hplan : plan request s.deliveredSeq with failure | through | remaining
  · exact refused s hs
  · obtain ⟨hdelivered, hle⟩ := plan_delivered hplan
    exact delivered s through hs hdelivered hle
  · obtain ⟨hne, hnumbered, skipped, hsplit, hskipped⟩ := plan_send hplan
    exact sends s skipped remaining hs hsplit hskipped hne hnumbered _ rfl

theorem publishEvents_keeps {I : HttpState ρ → Prop} (called : ∀ s, I s → I (s.called request))
    (answered : ∀ post s, I s → I (sink.answered post s))
    (delivers : ∀ through s, I s → I { s with deliveredSeq := some through })
    (written : ∀ through checkpoint s, I s → I (sink.written ⟨some through, none, checkpoint⟩ s)) :
    Keeps I (sink.publishEvents request) := by
  refine publishEvents_triple called (fun s _ hs _ _ => called s hs) ?_
  intro s skipped remaining hs _ _ hne _
  refine (publishLoop_triple (J := fun _ => I) ?_ (fun _ s _ _ hs => hs)
    ⟨s.deliveredSeq.getD 0 - 1, none⟩ le_rfl hne).pre fun t ht => ht ▸ called s hs
  intro batch left _
  refine Triple.bind (postLoop_triple (fun s hs _ _ _ _ => answered _ s hs)
    (fun s hs _ => ⟨answered _ s hs, answered _ s hs⟩) _) fun ack => ?_
  refine Triple.bind (Q := fun _ => I)
    (Triple.modify fun s hs => delivers ack.acceptedThroughSeq s hs) fun _ => ?_
  refine Triple.bind (writeCursorAtomic_triple fun s hs => written _ _ s hs) fun _ => ?_
  exact Triple.pure fun s hs => ⟨hs, fun _ => hs⟩

theorem publishAll_keeps {I : HttpState ρ → Prop} {requests : List EventPublishRequest}
    (h : ∀ request ∈ requests, Keeps I (sink.publishEvents request)) :
    Keeps I (sink.publishAll requests) := by
  induction requests with
  | nil => exact Keeps.pure ()
  | cons request rest ih =>
    refine Keeps.bind (Keeps.attempt (h request (List.mem_cons_self ..))) fun _ => ?_
    exact ih fun request hrequest => h request (List.mem_cons_of_mem _ hrequest)

end HttpEventSink
end Rrjj
