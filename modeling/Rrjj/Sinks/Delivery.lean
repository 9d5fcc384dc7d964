import Rrjj.Library.Trace
import Rrjj.Sinks.HttpRules

/-! What a call of the HTTP sink that returns has had acknowledged. The sink skips what its
sequence says was delivered; that was sent unless the sequence had run ahead of the batches,
which an acknowledgement past the end of its batch makes it do. -/

namespace Rrjj
open Library Library.Proc

def HttpLabel.acknowledged : HttpLabel → Option HttpEventBatch
  | .posted post (some reply) => (reply.acknowledgement post.body).map fun _ => post.body
  | _ => none

def acknowledged (trace : List HttpLabel) : List HttpEventBatch :=
  trace.filterMap HttpLabel.acknowledged

def acknowledgedEvents (trace : List HttpLabel) : List Event :=
  (acknowledged trace).flatMap HttpEventBatch.events

def acknowledgedWatermarks (trace : List HttpLabel) : List ℕ :=
  ((acknowledged trace).filterMap HttpEventBatch.durable).map DurableWatermark.seq

/-- The events of the request, and its watermark, were in acknowledged POSTs. -/
structure Published (request : EventPublishRequest) (trace : List HttpLabel) : Prop where
  events : ∀ event ∈ request.events, event ∈ acknowledgedEvents trace
  durable : ∀ watermark ∈ request.durable, ∃ seq ∈ acknowledgedWatermarks trace, watermark.seq ≤ seq

def Outruns (delivered : Option ℕ) (trace : List HttpLabel) (n : ℕ) : Prop :=
  (∃ through ∈ delivered, n ≤ through) ∧ ∀ event ∈ acknowledgedEvents trace, event.seq < n

def RanAhead (trace : List HttpLabel) (n : ℕ) : Prop :=
  ∃ before request delivered after,
    trace = before ++ .called request delivered :: after ∧ Outruns delivered before n

def Overacknowledged (trace : List HttpLabel) : Prop :=
  ∃ post reply ack, .posted post (some reply) ∈ trace ∧
    reply.acknowledgement post.body = some ack ∧ lastSeq post.body.events < ack.acceptedThroughSeq

/-- What a call needs of the state that it finds: no event of the request is one that the
sequence delivered ran ahead over, none differs from the one acknowledged under its number,
and a request with nothing left to send asks for no watermark above those acknowledged. -/
structure Covered {ρ : Type} (request : EventPublishRequest) (s : HttpState ρ) : Prop where
  inside : ∀ event ∈ request.events, ¬ RanAhead (s.called request).trace event.seq
  same : ∀ event ∈ request.events, ∀ earlier ∈ acknowledgedEvents s.trace,
    earlier.seq = event.seq → earlier = event
  durable : (∀ event ∈ request.events, ∃ through ∈ s.deliveredSeq, event.seq ≤ through) →
    ∀ watermark ∈ request.durable, ∃ seq ∈ acknowledgedWatermarks s.trace, watermark.seq ≤ seq

section
variable {trace more : List HttpLabel} {post : HttpPost} {reply : HttpReply}
  {ack : EventAcknowledgement} {request : EventPublishRequest} {delivered : Option ℕ} {n : ℕ}

theorem acknowledged_append :
    acknowledged (trace ++ more) = acknowledged trace ++ acknowledged more :=
  List.filterMap_append

theorem acknowledgedEvents_append :
    acknowledgedEvents (trace ++ more) = acknowledgedEvents trace ++ acknowledgedEvents more := by
  rw [acknowledgedEvents, acknowledged_append, List.flatMap_append]
  rfl

theorem acknowledgedEvents_called (trace : List HttpLabel) :
    acknowledgedEvents (trace ++ [.called request delivered]) = acknowledgedEvents trace := by
  rw [acknowledgedEvents_append]
  exact List.append_nil _

theorem acknowledgedWatermarks_called {ρ : Type} (s : HttpState ρ) :
    acknowledgedWatermarks (s.called request).trace = acknowledgedWatermarks s.trace := by
  simp [acknowledgedWatermarks, HttpState.called, acknowledged, HttpLabel.acknowledged]

theorem acknowledged_posted (h : reply.acknowledgement post.body = some ack) :
    acknowledged [.posted post (some reply)] = [post.body] := by
  simp [acknowledged, HttpLabel.acknowledged, h]

theorem acknowledged_unanswered {answer : Option HttpReply}
    (h : ∀ reply, answer = some reply → reply.acknowledgement post.body = none) :
    acknowledged [.posted post answer] = [] := by
  rcases answer with _ | reply
  · rfl
  · simp [acknowledged, HttpLabel.acknowledged, h reply rfl]

theorem acknowledgedEvents_posted (h : reply.acknowledgement post.body = some ack) :
    acknowledgedEvents (trace ++ [.posted post (some reply)]) =
      acknowledgedEvents trace ++ post.body.events := by
  have hlast : acknowledgedEvents [.posted post (some reply)] = post.body.events := by
    simp [acknowledgedEvents, acknowledged_posted h]
  rw [acknowledgedEvents_append, hlast]

theorem acknowledgedEvents_unanswered {answer : Option HttpReply}
    (h : ∀ reply, answer = some reply → reply.acknowledgement post.body = none) :
    acknowledgedEvents (trace ++ [.posted post answer]) = acknowledgedEvents trace := by
  have hlast : acknowledgedEvents [.posted post answer] = [] := by
    simp [acknowledgedEvents, acknowledged_unanswered h]
  rw [acknowledgedEvents_append, hlast, List.append_nil]

theorem RanAhead.append (h : RanAhead trace n) : RanAhead (trace ++ more) n := by
  obtain ⟨before, request, delivered, after, rfl, houtruns⟩ := h
  exact ⟨before, request, delivered, after ++ more, by simp, houtruns⟩

theorem Overacknowledged.append (h : Overacknowledged trace) : Overacknowledged (trace ++ more) := by
  obtain ⟨post, reply, ack, hmem, hrest⟩ := h
  exact ⟨post, reply, ack, List.mem_append_left _ hmem, hrest⟩

theorem ranAhead_posted {answer : Option HttpReply} :
    RanAhead (trace ++ [.posted post answer]) n ↔ RanAhead trace n := by
  constructor
  · rintro ⟨before, request, delivered, after, htrace, houtruns⟩
    rcases split_snoc htrace with ⟨-, hlabel, -⟩ | ⟨rest, -, hrest⟩
    · exact absurd hlabel (by simp)
    · exact ⟨before, request, delivered, rest, hrest, houtruns⟩
  · exact RanAhead.append

theorem ranAhead_called :
    RanAhead (trace ++ [.called request delivered]) n ↔
      RanAhead trace n ∨ Outruns delivered trace n := by
  constructor
  · rintro ⟨before, request', delivered', after, htrace, houtruns⟩
    rcases split_snoc htrace with ⟨rfl, hlabel, -⟩ | ⟨rest, -, hrest⟩
    · obtain ⟨-, rfl⟩ := HttpLabel.called.inj hlabel
      exact Or.inr houtruns
    · exact Or.inl ⟨before, request', delivered', rest, hrest, houtruns⟩
  · rintro (h | h)
    · exact h.append
    · exact ⟨trace, request, delivered, [], rfl, h⟩

end

/-- The acknowledged events have rising numbers, none above the sequence delivered, and those
left out between them are just the numbers that the sequence ran ahead over. -/
structure Account (delivered : Option ℕ) (trace : List HttpLabel) : Prop where
  rising : (acknowledgedEvents trace).Pairwise fun a b => a.seq < b.seq
  reached : ∀ event ∈ acknowledgedEvents trace, event.seq < nextSeq delivered
  behind : ∀ n, RanAhead trace n → n < nextSeq delivered
  gone : ∀ n, RanAhead trace n → ∀ event ∈ acknowledgedEvents trace, event.seq ≠ n
  complete : ∀ event ∈ acknowledgedEvents trace, ∀ n ≤ event.seq,
    (∃ other ∈ acknowledgedEvents trace, other.seq = n) ∨ RanAhead trace n
  exact : Overacknowledged trace ∨
    ∀ through ∈ delivered, ∃ event ∈ acknowledgedEvents trace, event.seq = through
  cause : ∀ n, RanAhead trace n → Overacknowledged trace

structure Sending (next : ℕ) (delivered : Option ℕ) (trace : List HttpLabel) : Prop
    extends Account delivered trace where
  below : ∀ event ∈ acknowledgedEvents trace, event.seq < next
  ahead : ∀ n, RanAhead trace n → n < next
  full : ∀ n < next, (∃ event ∈ acknowledgedEvents trace, event.seq = n) ∨ RanAhead trace n

section
variable {trace : List HttpLabel} {delivered : Option ℕ} {next : ℕ} {post : HttpPost}

theorem account_start : Account none [] where
  rising := List.Pairwise.nil
  reached _ h := absurd h (by simp [acknowledgedEvents, acknowledged])
  behind n h := by
    obtain ⟨before, request, delivered, after, htrace, -⟩ := h
    exact absurd htrace.symm (by simp)
  gone n _ _ h := absurd h (by simp [acknowledgedEvents, acknowledged])
  complete _ h := absurd h (by simp [acknowledgedEvents, acknowledged])
  exact := Or.inr fun _ h => absurd h (by simp)
  cause n h := by
    obtain ⟨before, request, delivered, after, htrace, -⟩ := h
    exact absurd htrace.symm (by simp)

theorem Account.unique {a b : Event} (h : Account delivered trace)
    (ha : a ∈ acknowledgedEvents trace) (hb : b ∈ acknowledgedEvents trace)
    (hseq : a.seq = b.seq) : a = b := by
  have hnodup : ((acknowledgedEvents trace).map Event.seq).Nodup :=
    List.pairwise_map.mpr (h.rising.imp fun hlt => hlt.ne)
  exact List.inj_on_of_nodup_map hnodup ha hb hseq

theorem Account.called (h : Account delivered trace) (request : EventPublishRequest) :
    Sending (nextSeq delivered) delivered (trace ++ [.called request delivered]) := by
  have hevents := @acknowledgedEvents_called request delivered trace
  have hbehind : ∀ n, RanAhead (trace ++ [.called request delivered]) n →
      n < nextSeq delivered := by
    intro n hn
    rcases ranAhead_called.mp hn with hn | ⟨⟨through, hthrough, hle⟩, -⟩
    · exact h.behind n hn
    · rw [Option.mem_def.mp hthrough]
      exact Nat.lt_succ_of_le hle
  have hgone : ∀ n, RanAhead (trace ++ [.called request delivered]) n →
      ∀ event ∈ acknowledgedEvents trace, event.seq ≠ n := by
    intro n hn event hevent
    rcases ranAhead_called.mp hn with hn | ⟨-, hlt⟩
    · exact h.gone n hn event hevent
    · exact (hlt event hevent).ne
  -- a number below the cursor was delivered, or the cursor ran ahead of it
  have hfull : ∀ n < nextSeq delivered, (∃ event ∈ acknowledgedEvents trace, event.seq = n) ∨
      RanAhead (trace ++ [.called request delivered]) n := by
    intro n hn
    rcases delivered with _ | through
    · exact absurd hn (Nat.not_lt_zero n)
    · by_cases hlast : ∃ event ∈ acknowledgedEvents trace, n ≤ event.seq
      · obtain ⟨event, hevent, hle⟩ := hlast
        exact (h.complete event hevent n hle).imp_right RanAhead.append
      · push Not at hlast
        exact Or.inr (ranAhead_called.mpr (Or.inr ⟨⟨through, rfl, Nat.le_of_lt_succ hn⟩, hlast⟩))
  have hcause : ∀ n, RanAhead (trace ++ [.called request delivered]) n → Overacknowledged trace := by
    intro n hn
    rcases ranAhead_called.mp hn with hn | ⟨⟨through, hthrough, hle⟩, hlt⟩
    · exact h.cause n hn
    · refine h.exact.resolve_right fun hexact => ?_
      obtain ⟨event, hevent, hseq⟩ := hexact through hthrough
      exact absurd (hlt event hevent) (by omega)
  refine ⟨⟨?_, ?_, hbehind, ?_, ?_, ?_, fun n hn => (hcause n hn).append⟩, ?_, hbehind, ?_⟩ <;>
    rw [hevents]
  · exact h.rising
  · exact h.reached
  · exact hgone
  · exact fun event hevent n hle => hfull n (hle.trans_lt (h.reached event hevent))
  · exact h.exact.imp_left Overacknowledged.append
  · exact h.reached
  · exact hfull

theorem Sending.unaccepted {answer : Option HttpReply} (h : Sending next delivered trace)
    (unanswered : ∀ reply, answer = some reply → reply.acknowledgement post.body = none) :
    Sending next delivered (trace ++ [.posted post answer]) := by
  have hevents : acknowledgedEvents (trace ++ [.posted post answer]) = acknowledgedEvents trace :=
    acknowledgedEvents_unanswered unanswered
  refine ⟨⟨?_, ?_, ?_, ?_, ?_, ?_, ?_⟩, ?_, ?_, ?_⟩ <;> simp only [hevents, ranAhead_posted]
  · exact h.rising
  · exact h.reached
  · exact h.behind
  · exact h.gone
  · exact h.complete
  · exact h.exact.imp_left Overacknowledged.append
  · exact fun n hn => (h.cause n hn).append
  · exact h.below
  · exact h.ahead
  · exact h.full

theorem Sending.accepted {reply : HttpReply} {ack : EventAcknowledgement}
    (h : Sending next delivered trace) (numbered : Numbered next post.body.events)
    (nonempty : post.body.events ≠ [])
    (acknowledgement : reply.acknowledgement post.body = some ack) :
    Sending (next + post.body.events.length) (some ack.acceptedThroughSeq)
      (trace ++ [.posted post (some reply)]) := by
  have hevents : acknowledgedEvents (trace ++ [.posted post (some reply)]) =
      acknowledgedEvents trace ++ post.body.events := acknowledgedEvents_posted acknowledgement
  have hvalid := HttpReply.valid_of_acknowledgement acknowledgement
  have hlast := numbered.lastSeq nonempty
  have hreach : next + post.body.events.length ≤ nextSeq (some ack.acceptedThroughSeq) := by
    have := hvalid.accepted
    simp only [nextSeq, Option.elim]
    omega
  have hbelow : ∀ event ∈ acknowledgedEvents trace ++ post.body.events,
      event.seq < next + post.body.events.length := by
    intro event hevent
    rcases List.mem_append.mp hevent with hevent | hevent
    · exact (h.below event hevent).trans_le (Nat.le_add_right _ _)
    · exact (numbered.mem hevent).2
  -- below the batch by what came before, in it by its own events
  have hfull : ∀ n < next + post.body.events.length,
      (∃ event ∈ acknowledgedEvents trace ++ post.body.events, event.seq = n) ∨ RanAhead trace n := by
    intro n hn
    rcases Nat.lt_or_ge n next with hlt | hge
    · refine (h.full n hlt).imp_left ?_
      rintro ⟨event, hevent, hseq⟩
      exact ⟨event, List.mem_append_left _ hevent, hseq⟩
    · obtain ⟨event, hevent, hseq⟩ := numbered.exists hge hn
      exact Or.inl ⟨event, List.mem_append_right _ hevent, hseq⟩
  have hahead : ∀ n, RanAhead trace n → n < next + post.body.events.length := by
    intro n hn
    exact (h.ahead n hn).trans_le (Nat.le_add_right _ _)
  -- the acknowledgement is of the last event, or of more than was sent
  have hexact : Overacknowledged (trace ++ [.posted post (some reply)]) ∨
      ∃ event ∈ acknowledgedEvents trace ++ post.body.events,
        event.seq = ack.acceptedThroughSeq := by
    rcases hvalid.accepted.lt_or_eq with hover | heq
    · exact Or.inl ⟨post, reply, ack, by simp, acknowledgement, hover⟩
    · have hlength := List.length_pos_iff.mpr nonempty
      obtain ⟨event, hevent, hseq⟩ := numbered.exists (n := lastSeq post.body.events)
        (by omega) (by omega)
      exact Or.inr ⟨event, List.mem_append_right _ hevent, hseq.trans heq⟩
  refine ⟨⟨?_, ?_, ?_, ?_, ?_, ?_, ?_⟩, ?_, ?_, ?_⟩ <;> simp only [hevents, ranAhead_posted]
  · refine List.pairwise_append.mpr ⟨h.rising, numbered.pairwise, fun a ha b hb => ?_⟩
    exact (h.below a ha).trans_le (numbered.mem hb).1
  · exact fun event hevent => (hbelow event hevent).trans_le hreach
  · exact fun n hn => (hahead n hn).trans_le hreach
  · intro n hn event hevent
    rcases List.mem_append.mp hevent with hevent | hevent
    · exact h.gone n hn event hevent
    · exact ((h.ahead n hn).trans_le (numbered.mem hevent).1).ne'
  · exact fun event hevent n hle => hfull n (hle.trans_lt (hbelow event hevent))
  · refine hexact.imp_right fun hlast through hthrough => ?_
    rw [← Option.some.inj hthrough]
    exact hlast
  · exact fun n hn => (h.cause n hn).append
  · exact hbelow
  · exact hahead
  · exact hfull

end

structure Progress (start : List HttpLabel) (whole left : List Event) (delivered : Option ℕ)
    (trace : List HttpLabel) : Prop where
  started : start <+: trace
  sent : ∃ sent, whole = sent ++ left ∧ ∀ event ∈ sent, event ∈ acknowledgedEvents trace
  sending : ∃ next, Numbered next left ∧ Sending next delivered trace

def Turned {ρ : Type} (request : EventPublishRequest) (start : List HttpLabel)
    (whole left : List Event) (s : HttpState ρ) : Prop :=
  Progress start whole left s.deliveredSeq s.trace ∧
    (left = [] → ∀ watermark ∈ request.durable, watermark.seq ∈ acknowledgedWatermarks s.trace)

def AccountedFrom {ρ : Type} (start : List HttpLabel) (s : HttpState ρ) : Prop :=
  Account s.deliveredSeq s.trace ∧ start <+: s.trace

inductive Completed {ρ : Type} (request : EventPublishRequest) (s t : HttpState ρ) : Prop where
  | delivered (through : ℕ) (same : t = s.called request)
      (delivered : s.deliveredSeq = some through)
      (reached : ∀ event ∈ request.events, event.seq ≤ through)
  | sent (skipped remaining : List Event) (events : request.events = skipped ++ remaining)
      (below : ∀ event ∈ skipped, event.seq < nextSeq s.deliveredSeq) (nonempty : remaining ≠ [])
      (numbered : Numbered (nextSeq s.deliveredSeq) remaining)
      (acknowledged : ∀ event ∈ remaining, event ∈ acknowledgedEvents t.trace)
      (durable : ∀ watermark ∈ request.durable, watermark.seq ∈ acknowledgedWatermarks t.trace)

section
variable {trace start : List HttpLabel} {whole batch left : List Event} {delivered : Option ℕ}
  {post : HttpPost} {request : EventPublishRequest}

theorem Progress.accountedFrom {ρ : Type} {s : HttpState ρ}
    (h : Progress start whole left s.deliveredSeq s.trace) : AccountedFrom start s := by
  obtain ⟨next, -, hsending⟩ := h.sending
  exact ⟨hsending.toAccount, h.started⟩

theorem Progress.unaccepted {answer : Option HttpReply}
    (h : Progress start whole left delivered trace)
    (unanswered : ∀ reply, answer = some reply → reply.acknowledgement post.body = none) :
    Progress start whole left delivered (trace ++ [.posted post answer]) := by
  obtain ⟨sent, hwhole, hsent⟩ := h.sent
  obtain ⟨next, hnumbered, hsending⟩ := h.sending
  refine ⟨h.started.trans (List.prefix_append _ _), ⟨sent, hwhole, ?_⟩, next, hnumbered,
    hsending.unaccepted unanswered⟩
  rw [acknowledgedEvents_unanswered unanswered]
  exact hsent

theorem Progress.accepted {reply : HttpReply} {ack : EventAcknowledgement}
    (h : Progress start whole (post.body.events ++ left) delivered trace)
    (nonempty : post.body.events ≠ [])
    (acknowledgement : reply.acknowledgement post.body = some ack) :
    Progress start whole left (some ack.acceptedThroughSeq)
      (trace ++ [.posted post (some reply)]) := by
  obtain ⟨sent, hwhole, hsent⟩ := h.sent
  obtain ⟨next, hnumbered, hsending⟩ := h.sending
  obtain ⟨hbatch, hleft⟩ := numbered_append.mp hnumbered
  refine ⟨h.started.trans (List.prefix_append _ _), ⟨sent ++ post.body.events, ?_, ?_⟩,
    _, hleft, hsending.accepted hbatch nonempty acknowledgement⟩
  · rw [hwhole, List.append_assoc]
  · rw [acknowledgedEvents_posted acknowledgement]
    intro event hevent
    rcases List.mem_append.mp hevent with hevent | hevent
    · exact List.mem_append_left _ (hsent event hevent)
    · exact List.mem_append_right _ hevent

end

namespace HttpEventSink
variable {ρ : Type} {sink : HttpEventSink ρ} {request : EventPublishRequest} {u : HttpState ρ}

theorem publishBatch_progress {start : List HttpLabel} {whole batch left : List Event}
    (nonempty : batch ≠ []) :
    Triple (fun s : HttpState ρ => Progress start whole (batch ++ left) s.deliveredSeq s.trace)
      (sink.publishBatch request batch left.isEmpty)
      (fun _ => Turned request start whole left) (AccountedFrom start) := by
  refine Triple.bind (Q := fun ack s => Turned request start whole left
    { s with deliveredSeq := some ack.acceptedThroughSeq }) ?_ fun ack => ?_
  · refine postLoop_triple ?_ ?_ sink.config.maxRetries
    · intro s hs reply ack hreply hack
      have htrace : (sink.answered _ s).trace = s.trace ++ [.posted _ (some reply)] :=
        congrArg (fun answer => s.trace ++ [HttpLabel.posted _ answer]) hreply
      unfold Turned
      rw [htrace]
      refine ⟨hs.accepted nonempty hack, fun hleft watermark hwatermark => ?_⟩
      rw [acknowledgedWatermarks, acknowledged_append, acknowledged_posted hack]
      simp [hleft, Option.mem_def.mp hwatermark]
    · intro s hs hunanswered
      have hnext := hs.unaccepted hunanswered
      exact ⟨hnext, Progress.accountedFrom (s := sink.answered _ s) hnext⟩
  · refine Triple.bind (Q := fun _ => Turned request start whole left)
      (Triple.modify fun s hs => hs) fun _ => ?_
    refine Triple.bind (Q := fun _ => Turned request start whole left) ?_ fun _ =>
      Triple.pure fun s hs => hs
    refine (writeCursorAtomic_triple (P := Turned request start whole left)
      (I := Turned request start whole left) ?_).conseq (fun _ h => h) (fun _ _ h => h)
      (fun s hs => Progress.accountedFrom hs.1)
    exact fun s hs => hs

theorem publishEvents_completed :
    Triple (fun s => s = u ∧ Account u.deliveredSeq u.trace) (sink.publishEvents request)
      (fun _ t => AccountedFrom (u.called request).trace t ∧ Completed request u t)
      (AccountedFrom (u.called request).trace) := by
  refine publishEvents_triple ?_ ?_ ?_
  · rintro s ⟨rfl, haccount⟩
    exact ⟨(haccount.called request).toAccount, List.prefix_rfl⟩
  · rintro s through ⟨rfl, haccount⟩ hdelivered hreached
    exact ⟨⟨(haccount.called request).toAccount, List.prefix_rfl⟩,
      .delivered through rfl hdelivered hreached⟩
  · rintro s skipped remaining ⟨rfl, haccount⟩ hevents hskipped hne hnumbered
    have hloop := @publishLoop_triple ρ sink (AccountedFrom (s.called request).trace) request
      (fun left t => Progress (s.called request).trace remaining left t.deliveredSeq t.trace)
      (fun _ => Turned request (s.called request).trace remaining [])
      (fun batch left hbatch => (publishBatch_progress hbatch).post fun ack t ht =>
        ⟨ht.1, fun hleft => hleft ▸ ht⟩)
      (fun left t failure _ ht => Progress.accountedFrom ht)
      _ _ ⟨s.deliveredSeq.getD 0 - 1, none⟩ le_rfl hne
    refine hloop.conseq ?_ ?_ (fun t ht => ht)
    · rintro t rfl
      exact ⟨List.prefix_rfl, ⟨[], rfl, by simp⟩, _, hnumbered, haccount.called request⟩
    · rintro ack t ⟨hprogress, hdurable⟩
      obtain ⟨sent, hwhole, hsent⟩ := hprogress.sent
      rw [List.append_nil] at hwhole
      exact ⟨Progress.accountedFrom hprogress,
        .sent skipped remaining hevents hskipped hne hnumbered (hwhole ▸ hsent) (hdurable rfl)⟩

theorem publishAll_account (requests : List EventPublishRequest) :
    Keeps (fun s : HttpState ρ => Account s.deliveredSeq s.trace) (sink.publishAll requests) := by
  refine publishAll_keeps fun request _ => Triple.of_start fun u hu => ?_
  exact publishEvents_completed.conseq (fun s hs => ⟨hs, hs ▸ hu⟩) (fun _ _ ht => ht.1.1)
    fun _ ht => ht.1

end HttpEventSink

section
variable {ρ : Type} {request : EventPublishRequest} {s t : HttpState ρ}

theorem Completed.acknowledged (completed : Completed request s t)
    (account : Account s.deliveredSeq s.trace) (later : (s.called request).trace <+: t.trace)
    (inside : ∀ event ∈ request.events, ¬ RanAhead (s.called request).trace event.seq)
    (same : ∀ event ∈ request.events, ∀ earlier ∈ acknowledgedEvents s.trace,
      earlier.seq = event.seq → earlier = event) :
    ∀ event ∈ request.events, event ∈ acknowledgedEvents t.trace := by
  obtain ⟨more, hmore⟩ := later
  have hskipped : ∀ event ∈ request.events, event.seq < nextSeq s.deliveredSeq →
      event ∈ acknowledgedEvents t.trace := by
    intro event hevent hbelow
    rcases (account.called request).full event.seq hbelow with ⟨earlier, hearlier, hseq⟩ | hahead
    · have hsame := hearlier
      rw [acknowledgedEvents_called] at hsame
      rw [← hmore, acknowledgedEvents_append, ← same event hevent earlier hsame hseq]
      exact List.mem_append_left _ hearlier
    · exact absurd hahead (inside event hevent)
  intro event hevent
  cases completed with
  | delivered through same delivered reached =>
    refine hskipped event hevent ?_
    rw [delivered]
    exact Nat.lt_succ_of_le (reached event hevent)
  | sent skipped remaining events below nonempty numbered acknowledged durable =>
    rw [events] at hevent
    rcases List.mem_append.mp hevent with hold | hnew
    · exact hskipped event (by rw [events]; exact List.mem_append_left _ hold) (below event hold)
    · exact acknowledged event hnew

theorem Completed.published (completed : Completed request s t)
    (account : Account s.deliveredSeq s.trace) (later : (s.called request).trace <+: t.trace)
    (covered : Covered request s) : Published request t.trace where
  events := completed.acknowledged account later covered.inside covered.same
  durable watermark hwatermark := by
    cases completed with
    | delivered through same delivered reached =>
      have hall : ∀ event ∈ request.events, ∃ through ∈ s.deliveredSeq, event.seq ≤ through :=
        fun event hevent => ⟨through, delivered, reached event hevent⟩
      obtain ⟨seq, hseq, hle⟩ := covered.durable hall watermark hwatermark
      refine ⟨seq, ?_, hle⟩
      rw [same, acknowledgedWatermarks_called]
      exact hseq
    | sent skipped remaining events below nonempty numbered acknowledged durable =>
      exact ⟨_, durable watermark hwatermark, le_rfl⟩

theorem Completed.covered (completed : Completed request s t) (account : Account t.deliveredSeq t.trace)
    (later : (s.called request).trace <+: t.trace) (published : Published request t.trace) :
    Covered request s := by
  obtain ⟨more, hmore⟩ := later
  refine ⟨fun event hevent hahead => ?_, fun event hevent earlier hearlier hseq => ?_, ?_⟩
  · have hthen : RanAhead t.trace event.seq := hmore ▸ hahead.append
    exact account.gone event.seq hthen event (published.events event hevent) rfl
  · have hkept : earlier ∈ acknowledgedEvents t.trace := by
      rw [← hmore, acknowledgedEvents_append]
      refine List.mem_append_left _ ?_
      rw [HttpState.called, acknowledgedEvents_called]
      exact hearlier
    exact account.unique hkept (published.events event hevent) hseq
  · intro hall watermark hwatermark
    cases completed with
    | delivered through same delivered reached =>
      obtain ⟨seq, hseq, hle⟩ := published.durable watermark hwatermark
      refine ⟨seq, ?_, hle⟩
      rw [same, acknowledgedWatermarks_called] at hseq
      exact hseq
    | sent skipped remaining events below nonempty numbered acknowledged durable =>
      obtain ⟨event, hevent⟩ := List.exists_mem_of_ne_nil remaining nonempty
      obtain ⟨through, hthrough, hle⟩ := hall event (by rw [events]; exact List.mem_append_right _ hevent)
      have hfirst := (numbered.mem hevent).1
      rw [Option.mem_def.mp hthrough] at hfirst
      exact absurd hle (Nat.not_le_of_lt hfirst)

theorem Account.inside_of_bounded (account : Account s.deliveredSeq s.trace)
    (bounded : ¬ Overacknowledged s.trace) (n : ℕ) : ¬ RanAhead (s.called request).trace n := by
  intro hahead
  obtain ⟨post, reply, ack, hmem, hover⟩ := (account.called request).cause n hahead
  exact bounded ⟨post, reply, ack, by simpa using hmem, hover⟩

end

section
variable {ρ : Type} (sink : HttpEventSink ρ) (client : Except String Unit) (network : ρ)
  (history : List EventPublishRequest) (request : EventPublishRequest) {delivered : Option ℕ}
  {ack : EventAcknowledgement} {s t : HttpState ρ}

/-- A call returns with its events and its watermark acknowledged just when it skips nothing
that was not. -/
theorem call_publishes_iff (created : sink.config.create .missing client = .ok delivered)
    (reached : (sink.publishAll history).run (.created delivered .missing network) = (.ok (), s))
    (returned : (sink.publishEvents request).run s = (.ok ack, t)) :
    Published request t.trace ↔ Covered request s := by
  have hnone : delivered = none := (Except.ok.inj (HttpEventConfig.create_ok created)).symm
  have haccount : Account s.deliveredSeq s.trace := by
    have hkeeps := @HttpEventSink.publishAll_account ρ sink history
      (.created delivered .missing network) (hnone ▸ account_start)
    rw [reached] at hkeeps
    exact hkeeps
  have hcompleted := @HttpEventSink.publishEvents_completed ρ sink request s
    s ⟨rfl, haccount⟩
  rw [returned] at hcompleted
  obtain ⟨⟨hlater, hprefix⟩, hcompleted⟩ := hcompleted
  exact ⟨hcompleted.covered hlater hprefix, hcompleted.published haccount hprefix⟩

end

def exampleEvent (seq : ℕ) : Event where
  v := 0
  seq := seq
  sessionId := "s"
  ts := "2026-01-01T00:00:00Z"
  body := .overflow ⟨"test", 1, .fullScanSnapshot⟩

def exampleLen (_ : Event) : Except String ℕ := .ok 150

/-- The server answers by a script, then no more; every cursor is stored. -/
def scripted : Network (List HttpReply) where
  post
    | [], _ => (some (.sendError "connection refused"), [])
    | reply :: rest, _ => (some reply, rest)
  writeCursor rest _ := (.done, rest)

def exampleHttpSink : HttpEventSink (List HttpReply) where
  config :=
    { url := "http://localhost/events"
      authorization := none
      maxEventsPerBatch := 10
      maxBytesPerBatch := 10000
      cursorPath := "http-cursor.json"
      maxRetries := 3 }
  encodedLen := exampleLen
  network := scripted

def exampleRequest (last : ℕ) (durable : Bool) : EventPublishRequest where
  sessionId := "s"
  schemaVersion := 0
  events := (List.range (last + 1)).map exampleEvent
  durable := if durable then some ⟨last, "op:a", "bb"⟩ else none

def accepting (through : ℕ) (durable : Option ℕ) : HttpReply :=
  .response ⟨200, "200 OK"⟩ (.ok ⟨through, durable⟩)

def exampleReached (script : List HttpReply) (history : List EventPublishRequest) :
    HttpState (List HttpReply) :=
  ((exampleHttpSink.publishAll history).run (.created none .missing script)).2

theorem call_publishes_iff_batches :
    Published (exampleRequest 1 true)
        ((exampleHttpSink.publishEvents (exampleRequest 1 true)).run
          (exampleReached [accepting 0 none, accepting 1 (some 1)] [exampleRequest 0 false])).2.trace ↔
      Covered (exampleRequest 1 true)
        (exampleReached [accepting 0 none, accepting 1 (some 1)] [exampleRequest 0 false]) :=
  @call_publishes_iff _ exampleHttpSink (.ok ()) [accepting 0 none, accepting 1 (some 1)]
    [exampleRequest 0 false] (exampleRequest 1 true) none ⟨1, some 1⟩ _ _ rfl rfl rfl

/-- The only POST carries event 0 and is acknowledged through event 1, which is never sent. -/
theorem overacknowledged_event_is_skipped :
    ¬ ∀ (ρ : Type) (sink : HttpEventSink ρ) client network history request delivered ack s t,
      sink.config.create .missing client = .ok delivered →
      (sink.publishAll history).run (.created delivered .missing network) = (.ok (), s) →
      (sink.publishEvents request).run s = (.ok ack, t) → Published request t.trace := by
  intro h
  have hpublished := h _ exampleHttpSink (.ok ()) [accepting 1 none] [exampleRequest 0 false]
    (exampleRequest 1 false) none ⟨1, none⟩ _ _ rfl rfl rfl
  have hposted := hpublished.events (exampleEvent 1) (by decide)
  exact absurd hposted (by decide)

end Rrjj
