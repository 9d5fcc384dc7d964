import Rrjj.Sinks.Delivery

/-! The cursor file outlives the session that wrote it. A sink of another session that is
created from such a file takes the sequence in it for its own: unless every request is
refused, it passes over events that it never sent. -/

namespace Rrjj
open Library Library.Proc

/-- `Path::with_extension`: what follows the last dot of the file name is replaced, unless
nothing precedes that dot. -/
def withExtension (path extension : String) : String :=
  let name := (path.toList.reverse.takeWhile (· ≠ '/')).reverse
  let directory := path.toList.take (path.length - name.length)
  let stem :=
    match name.reverse.dropWhile (· ≠ '.') with
    | [] => name
    | _ :: before => if before.isEmpty then name else before.reverse
  String.ofList (directory ++ stem ++ '.' :: extension.toList)

structure DaemonOptions where
  events : String
  sessionId : String
  eventHttpUrl : String
  eventMaxBatchEvents : ℕ
  eventMaxBatchBytes : ℕ

def DaemonOptions.httpEventConfig (options : DaemonOptions) (authorization : Option String) :
    HttpEventConfig where
  url := options.eventHttpUrl
  authorization := authorization
  maxEventsPerBatch := options.eventMaxBatchEvents
  maxBytesPerBatch := options.eventMaxBatchBytes
  cursorPath := withExtension options.events "http-cursor.json"
  maxRetries := 8

/-- The request is made for the session, of events of the session. -/
structure Journal.Requests (journal : Journal) (request : EventPublishRequest) : Prop where
  session : request.sessionId = journal.sessionId
  events : ∀ event ∈ request.events, event = journal.event event.seq

/-- A file at the cursor path before the session begins: none, or what a sink of other
sessions has left there, however far it got. -/
inductive LeftBefore (path session : String) : CursorFile → Prop where
  | missing : LeftBefore path session .missing
  | life {ρ : Type} (sink : HttpEventSink ρ) (client : Except String Unit) (network : ρ)
      (requests : List EventPublishRequest) {file : CursorFile} {delivered : Option ℕ}
      (left : LeftBefore path session file) (samePath : sink.config.cursorPath = path)
      (created : sink.config.create file client = .ok delivered)
      (other : ∀ request ∈ requests, request.sessionId ≠ session) :
      LeftBefore path session
        ((sink.publishAll requests).run (.created delivered file network)).2.cursor

def Sequenced (file : CursorFile) : Prop :=
  file = .missing ∨ ∃ through checkpoint, file = .cursor ⟨some through, none, checkpoint⟩

theorem publishAll_sequenced {ρ : Type} (sink : HttpEventSink ρ)
    (requests : List EventPublishRequest) :
    Keeps (fun s : HttpState ρ => Sequenced s.cursor) (sink.publishAll requests) := by
  refine HttpEventSink.publishAll_keeps fun request _ => ?_
  refine HttpEventSink.publishEvents_keeps (fun s hs => hs) (fun _ s hs => hs)
    (fun _ s hs => hs) ?_
  intro through checkpoint s hs
  show Sequenced (if _ then _ else _)
  split_ifs with hstored
  · exact Or.inr ⟨through, checkpoint, rfl⟩
  · exact hs

theorem LeftBefore.sequenced {path session : String} {file : CursorFile}
    (h : LeftBefore path session file) : Sequenced file := by
  induction h with
  | missing => exact Or.inl rfl
  | life sink client network requests left samePath created other ih =>
    exact (publishAll_sequenced sink requests).final ih

def HttpLabel.post : HttpLabel → Option HttpPost
  | .posted post _ => some post
  | .called _ _ => none

def posted (trace : List HttpLabel) : List HttpPost := trace.filterMap HttpLabel.post

def StartsAtZero (trace : List HttpLabel) : Prop :=
  ∀ post ∈ (posted trace).head?, ∃ event ∈ post.body.events.head?, event.seq = 0

def PostedFor (request : EventPublishRequest) (trace : List HttpLabel) : Prop :=
  ∀ event ∈ request.events, ∃ post ∈ posted trace,
    post.body.sessionId = request.sessionId ∧ event ∈ post.body.events

section
variable {ρ : Type}

/-- The sink and its requests in order: no call returns for an event that was not sent, and
the first POST starts at sequence 0. -/
def Isolated (sink : HttpEventSink ρ) : HttpState ρ → List EventPublishRequest → Prop
  | _, [] => True
  | s, request :: rest =>
    match (sink.publishEvents request).run s with
    | (.ok _, t) => StartsAtZero t.trace ∧ PostedFor request t.trace ∧ Isolated sink t rest
    | (.error _, t) => StartsAtZero t.trace ∧ Isolated sink t rest
    | (.cut, t) => StartsAtZero t.trace

/-- The request is refused before anything is sent by a sink that has delivered through
`delivered`. -/
inductive Refused (sink : HttpEventSink ρ) (delivered : ℕ) (request : EventPublishRequest) :
    Prop where
  | empty (h : request.events = [])
  | scattered (failure : SinkError) (h : validateContiguous request.events = .error failure)
  | beyond (first : Event) (h : request.events.head? = some first) (gap : delivered + 1 < first.seq)
  | unsendable (failure : SinkError)
      (h : takeBatch sink.encodedLen (request.events.dropWhile fun event => event.seq ≤ delivered)
        sink.config.maxEventsPerBatch sink.config.maxBytesPerBatch = .error failure)

def Bounded (sink : HttpEventSink ρ) : Prop :=
  ∀ network post reply ack, (sink.network.post network post).1 = some reply →
    reply.acknowledgement post.body = some ack → ack.acceptedThroughSeq ≤ lastSeq post.body.events

structure Posts (sink : HttpEventSink ρ) (request : EventPublishRequest) (u : HttpState ρ)
    (posts : List (HttpPost × Option HttpReply)) (t : HttpState ρ) : Prop where
  trace : t.trace = (u.called request).trace ++ posts.map fun p => .posted p.1 p.2
  session : ∀ p ∈ posts, p.1.body.sessionId = request.sessionId
  events : ∀ p ∈ posts, ∀ event ∈ p.1.body.events, event ∈ request.events
  reply : ∀ p ∈ posts, ∃ network, (sink.network.post network p.1).1 = p.2
  first : ∀ p ∈ posts.head?, ∃ event ∈ p.1.body.events.head?, event.seq = nextSeq u.deliveredSeq

variable {sink : HttpEventSink ρ} {request : EventPublishRequest} {u t : HttpState ρ}
  {posts : List (HttpPost × Option HttpReply)}

theorem Posts.nil : Posts sink request u [] (u.called request) where
  trace := (List.append_nil _).symm
  session := by simp
  events := by simp
  reply := by simp
  first := by simp

theorem Posts.answered {post : HttpPost} (h : Posts sink request u posts t)
    (session : post.body.sessionId = request.sessionId)
    (events : ∀ event ∈ post.body.events, event ∈ request.events)
    (first : posts = [] → ∃ event ∈ post.body.events.head?, event.seq = nextSeq u.deliveredSeq) :
    Posts sink request u (posts ++ [(post, (sink.network.post t.network post).1)])
      (sink.answered post t) where
  trace := by
    unfold HttpEventSink.answered
    simp [h.trace]
  session := by
    intro p hp
    rcases List.mem_append.mp hp with hp | hp
    · exact h.session p hp
    · rw [List.mem_singleton.mp hp]
      exact session
  events := by
    intro p hp
    rcases List.mem_append.mp hp with hp | hp
    · exact h.events p hp
    · rw [List.mem_singleton.mp hp]
      exact events
  reply := by
    intro p hp
    rcases List.mem_append.mp hp with hp | hp
    · exact h.reply p hp
    · rw [List.mem_singleton.mp hp]
      exact ⟨t.network, rfl⟩
  first := by
    rcases posts with _ | ⟨p, posts⟩
    · intro p hp
      rw [← Option.some.inj hp]
      exact first rfl
    · exact h.first

def InCall (sink : HttpEventSink ρ) (request : EventPublishRequest) (u : HttpState ρ)
    (left : List Event) (t : HttpState ρ) : Prop :=
  (∀ event ∈ left, event ∈ request.events) ∧ ∃ posts, Posts sink request u posts t ∧
    (posts = [] → Numbered (nextSeq u.deliveredSeq) left)

def HasPosted (sink : HttpEventSink ρ) (request : EventPublishRequest) (u t : HttpState ρ) : Prop :=
  ∃ posts, posts ≠ [] ∧ Posts sink request u posts t

theorem HasPosted.inCall {left : List Event} (h : HasPosted sink request u t)
    (events : ∀ event ∈ left, event ∈ request.events) : InCall sink request u left t := by
  obtain ⟨posts, hne, hposts⟩ := h
  exact ⟨events, posts, hposts, fun hnil => absurd hnil hne⟩

theorem InCall.answered {batch left : List Event} {post : HttpPost} (nonempty : batch ≠ [])
    (h : InCall sink request u (batch ++ left) t) (session : post.body.sessionId = request.sessionId)
    (events : post.body.events = batch) : HasPosted sink request u (sink.answered post t) := by
  obtain ⟨hevents, posts, hposts, hfirst⟩ := h
  refine ⟨posts ++ [(post, (sink.network.post t.network post).1)], by simp,
    hposts.answered session ?_ ?_⟩
  · intro event hevent
    exact hevents event (List.mem_append_left _ (events ▸ hevent))
  · intro hnil
    have hnumbered := (numbered_append.mp (hfirst hnil)).1
    rw [events]
    rcases batch with _ | ⟨event, batch⟩
    · exact absurd rfl nonempty
    · exact ⟨event, rfl, (numbered_cons.mp hnumbered).1⟩

theorem publishBatch_posts {batch left : List Event} {isFinal : Bool} (nonempty : batch ≠ []) :
    Triple (InCall sink request u (batch ++ left)) (sink.publishBatch request batch isFinal)
      (fun _ t => HasPosted sink request u t ∧ ∀ event ∈ left, event ∈ request.events)
      (HasPosted sink request u) := by
  refine Triple.bind (Q := fun _ t => HasPosted sink request u t ∧
    ∀ event ∈ left, event ∈ request.events) ?_ fun ack => ?_
  · refine HttpEventSink.postLoop_triple (fun t ht _ _ _ _ => ?_) (fun t ht _ => ?_) _
    · exact ⟨ht.answered nonempty rfl rfl, fun event hevent =>
        ht.1 event (List.mem_append_right _ hevent)⟩
    · refine ⟨HasPosted.inCall ?_ ht.1, ?_⟩
      · exact ht.answered nonempty rfl rfl
      · exact ht.answered nonempty rfl rfl
  · refine Triple.bind (Q := fun _ t => HasPosted sink request u t ∧
      ∀ event ∈ left, event ∈ request.events) (Triple.modify fun t ht => ?_) fun _ => ?_
    · obtain ⟨⟨posts, hne, hposts⟩, hleft⟩ := ht
      exact ⟨⟨posts, hne, hposts.trace, hposts.session, hposts.events, hposts.reply, hposts.first⟩,
        hleft⟩
    · refine Triple.bind (Q := fun _ t => HasPosted sink request u t ∧
        ∀ event ∈ left, event ∈ request.events) ?_ fun _ => Triple.pure fun t ht => ht
      refine (HttpEventSink.writeCursorAtomic_triple fun t ht => ?_).conseq (fun t ht => ht)
        (fun _ t ht => ht) (fun t ht => ht.1)
      obtain ⟨⟨posts, hne, hposts⟩, hleft⟩ := ht
      exact ⟨⟨posts, hne, hposts.trace, hposts.session, hposts.events, hposts.reply, hposts.first⟩,
        hleft⟩

inductive CallEnds (sink : HttpEventSink ρ) (request : EventPublishRequest) (u : HttpState ρ) :
    Outcome SinkError EventAcknowledgement × HttpState ρ → Prop where
  | refused (failure : SinkError)
      (h : HttpEventSink.plan request u.deliveredSeq = .refuse failure) :
      CallEnds sink request u (.error failure, u.called request)
  | unsendable (failure : SinkError) (remaining : List Event)
      (plan : HttpEventSink.plan request u.deliveredSeq = .send remaining)
      (h : takeBatch sink.encodedLen remaining sink.config.maxEventsPerBatch
        sink.config.maxBytesPerBatch = .error failure) :
      CallEnds sink request u (.error failure, u.called request)
  | delivered (through : ℕ) (h : HttpEventSink.plan request u.deliveredSeq = .delivered through) :
      CallEnds sink request u
        (.ok ⟨through, request.durable.map DurableWatermark.seq⟩, u.called request)
  | posted {r : Outcome SinkError EventAcknowledgement × HttpState ρ} {remaining batch : List Event}
      (plan : HttpEventSink.plan request u.deliveredSeq = .send remaining)
      (sendable : takeBatch sink.encodedLen remaining sink.config.maxEventsPerBatch
        sink.config.maxBytesPerBatch = .ok batch)
      (h : HasPosted sink request u r.2) : CallEnds sink request u r

theorem publishEvents_ends : CallEnds sink request u ((sink.publishEvents request).run u) := by
  rw [HttpEventSink.publishEvents_run]
  rcases hplan : HttpEventSink.plan request u.deliveredSeq with failure | through | remaining
  · exact .refused failure hplan
  · exact .delivered through hplan
  · obtain ⟨hne, hnumbered, skipped, hevents, -⟩ := HttpEventSink.plan_send hplan
    rcases htake : takeBatch sink.encodedLen remaining sink.config.maxEventsPerBatch
      sink.config.maxBytesPerBatch with failure | batch
    · have hrun : (sink.publishFrom request u.deliveredSeq remaining).run (u.called request) =
          (.error failure, u.called request) := by
        rcases remaining with _ | ⟨event, rest⟩
        · exact absurd rfl hne
        · simp only [HttpEventSink.publishFrom, List.length_cons, HttpEventSink.publishLoop,
            run_bind, htake, run_ofExcept_error]
      simp only [hrun]
      exact .unsendable failure remaining hplan htake
    · have hrequest : ∀ event ∈ remaining, event ∈ request.events := fun event hevent =>
        hevents ▸ List.mem_append_right _ hevent
      let J : List Event → HttpState ρ → Prop := fun left t =>
        (HasPosted sink request u t ∧ ∀ event ∈ left, event ∈ request.events) ∨
          (left = remaining ∧ t = u.called request)
      have hloop : Triple (J remaining) (sink.publishFrom request u.deliveredSeq remaining)
          (fun _ => HasPosted sink request u) (HasPosted sink request u) := by
        refine HttpEventSink.publishLoop_triple (J := J) ?_ ?_ _ le_rfl hne
        · intro first left hfirst
          refine (publishBatch_posts hfirst).conseq ?_
            (fun _ t ht => ⟨Or.inl ht, fun _ => ht.1⟩) (fun t ht => ht)
          rintro t (⟨hposted, hleft⟩ | ⟨hleft, rfl⟩)
          · exact hposted.inCall hleft
          · rw [hleft]
            exact ⟨hrequest, [], .nil, fun _ => hnumbered⟩
        · rintro left t failure hfailure (⟨hposted, -⟩ | ⟨rfl, -⟩)
          · exact hposted
          · rw [htake] at hfailure
            exact absurd hfailure (by simp)
      exact .posted hplan htake (hloop (u.called request) (Or.inr ⟨rfl, rfl⟩)).final

theorem posted_append (before after : List HttpLabel) :
    posted (before ++ after) = posted before ++ posted after := List.filterMap_append

theorem posted_called (trace : List HttpLabel) (delivered : Option ℕ) :
    posted (trace ++ [.called request delivered]) = posted trace := by
  rw [posted_append]
  exact List.append_nil _

theorem Posts.posted (h : Posts sink request u posts t) :
    posted t.trace = Rrjj.posted u.trace ++ posts.map Prod.fst := by
  have hposts : Rrjj.posted (posts.map fun p => .posted p.1 p.2) = posts.map Prod.fst := by
    simp [Rrjj.posted, List.filterMap_map, Function.comp_def, HttpLabel.post]
  rw [h.trace, posted_append, HttpState.called, posted_called, hposts]

theorem HasPosted.starts (h : HasPosted sink request u t) (quiet : Rrjj.posted u.trace = []) :
    ∃ post event, (Rrjj.posted t.trace).head? = some post ∧
      post.body.events.head? = some event ∧ event.seq = nextSeq u.deliveredSeq := by
  obtain ⟨posts, hne, hposts⟩ := h
  rcases posts with _ | ⟨p, posts⟩
  · exact absurd rfl hne
  · obtain ⟨event, hevent, hseq⟩ := hposts.first p rfl
    refine ⟨p.1, event, ?_, hevent, hseq⟩
    rw [hposts.posted, quiet]
    rfl

theorem numbered_of_valid {first : Event} {events : List Event}
    (hevents : request.events = first :: events)
    (hvalid : validateContiguous request.events = .ok ()) : Numbered first.seq request.events := by
  rw [hevents] at hvalid ⊢
  exact validateContiguous_ok_iff.mp hvalid

theorem refused_of_plan {delivered : ℕ} {failure : SinkError}
    (h : HttpEventSink.plan request (some delivered) = .refuse failure) :
    Refused sink delivered request := by
  rcases hevents : request.events with _ | ⟨first, events⟩
  · exact .empty hevents
  · rcases hvalid : validateContiguous request.events with failure | done
    · exact .scattered failure hvalid
    · have hnumbered := numbered_of_valid hevents hvalid
      rw [HttpEventSink.plan_some (by rw [hevents]; simp) hvalid] at h
      split at h
      · exact absurd h (by simp)
      · next next rest hdrop =>
        have hhead := hnumbered.dropWhile_head hdrop
        split_ifs at h with hnext
        exact .beyond first (by rw [hevents]; rfl) (by omega)

theorem plan_of_refused {delivered : ℕ} (h : Refused sink delivered request) :
    (∃ failure, HttpEventSink.plan request (some delivered) = .refuse failure) ∨
      ∃ remaining failure, HttpEventSink.plan request (some delivered) = .send remaining ∧
        takeBatch sink.encodedLen remaining sink.config.maxEventsPerBatch
          sink.config.maxBytesPerBatch = .error failure := by
  rcases hvalid : validateContiguous request.events with failure | done
  · exact Or.inl ⟨failure, HttpEventSink.plan_scattered hvalid⟩
  · rcases hevents : request.events with _ | ⟨first, events⟩
    · exact Or.inl ⟨_, HttpEventSink.plan_empty hevents⟩
    · rw [HttpEventSink.plan_some (by rw [hevents]; simp) hvalid]
      have hnumbered := numbered_of_valid hevents hvalid
      cases h with
      | empty hempty => exact absurd hempty (by rw [hevents]; simp)
      | scattered failure hscattered =>
        rw [hvalid] at hscattered
        exact absurd hscattered (by simp)
      | beyond start hstart gap =>
        obtain rfl : first = start := by simpa [hevents] using hstart
        rw [hevents, List.dropWhile_cons_of_neg (by simp; omega)]
        exact Or.inl ⟨_, if_neg (by omega)⟩
      | unsendable failure hfailure =>
        rcases hdrop : request.events.dropWhile (fun event => decide (event.seq ≤ delivered)) with
          _ | ⟨next, rest⟩
        · have hnone : takeBatch sink.encodedLen [] sink.config.maxEventsPerBatch
              sink.config.maxBytesPerBatch = .ok [] := by
            unfold takeBatch
            rw [List.take_nil]
            rfl
          rw [hdrop, hnone] at hfailure
          exact absurd hfailure (by simp)
        · rw [hdrop]
          by_cases hnext : next.seq = delivered + 1
          · exact Or.inr ⟨_, failure, if_pos hnext, hdrop ▸ hfailure⟩
          · exact Or.inl ⟨_, if_neg hnext⟩

structure Resumed (through : ℕ) (s : HttpState ρ) : Prop where
  delivered : s.deliveredSeq = some through
  quiet : posted s.trace = []

theorem Resumed.called {through : ℕ} (h : Resumed through u) (request : EventPublishRequest) :
    Resumed through (u.called request) where
  delivered := h.delivered
  quiet := (posted_called u.trace u.deliveredSeq).trans h.quiet

theorem startsAtZero_of_quiet {trace : List HttpLabel} (h : posted trace = []) :
    StartsAtZero trace := by
  intro post hpost
  rw [h] at hpost
  exact absurd hpost (by simp)

theorem HasPosted.not_startsAtZero {through : ℕ} (h : HasPosted sink request u t)
    (resumed : Resumed through u) : ¬ StartsAtZero t.trace := by
  intro hzero
  obtain ⟨post, event, hpost, hevent, hseq⟩ := h.starts resumed.quiet
  obtain ⟨first, hfirst, hseq'⟩ := hzero post hpost
  rw [hevent] at hfirst
  obtain rfl := Option.some.inj hfirst
  rw [resumed.delivered] at hseq
  exact absurd (hseq'.symm.trans hseq) (by simp [nextSeq])

theorem plan_delivered_nonempty {already : Option ℕ} {through : ℕ}
    (h : HttpEventSink.plan request already = .delivered through) : request.events ≠ [] := by
  intro hempty
  rw [HttpEventSink.plan_empty hempty] at h
  exact absurd h (by simp)

theorem isolated_iff_refused {through : ℕ} (requests : List EventPublishRequest)
    (resumed : Resumed through u) :
    Isolated sink u requests ↔ ∀ request ∈ requests, Refused sink through request := by
  induction requests generalizing u with
  | nil => simp [Isolated]
  | cons request rest ih =>
    have hquiet := startsAtZero_of_quiet (resumed.called request).quiet
    rw [List.forall_mem_cons, ← ih (resumed.called request)]
    have hrefused : ∀ failure,
        (sink.publishEvents request).run u = (.error failure, u.called request) →
          (Isolated sink u (request :: rest) ↔ Isolated sink (u.called request) rest) := by
      intro failure hrun
      simp only [Isolated, hrun, hquiet, true_and]
    -- how a call can end decides whether it is refused
    have hends : CallEnds sink request u ((sink.publishEvents request).run u) := publishEvents_ends
    constructor
    · intro h
      generalize hrun : (sink.publishEvents request).run u = r at hends
      cases hends with
      | refused failure hplan =>
        rw [resumed.delivered] at hplan
        exact ⟨refused_of_plan hplan, (hrefused failure hrun).mp h⟩
      | unsendable failure remaining hplan htake =>
        rw [resumed.delivered] at hplan
        refine ⟨.unsendable failure ?_, (hrefused failure hrun).mp h⟩
        rw [HttpEventSink.plan_send_some hplan]
        exact htake
      | delivered through' hplan =>
        simp only [Isolated, hrun] at h
        obtain ⟨event, hevent⟩ := List.exists_mem_of_ne_nil _ (plan_delivered_nonempty hplan)
        obtain ⟨post, hpost, -⟩ := h.2.1 event hevent
        rw [(resumed.called request).quiet] at hpost
        exact absurd hpost (by simp)
      | posted hplan sendable hposted =>
        -- what the resumed cursor lets through does not start at zero
        refine absurd ?_ (hposted.not_startsAtZero resumed)
        rcases r with ⟨ack | failure | _, t⟩ <;> simp only [Isolated, hrun] at h
        · exact h.1
        · exact h.1
        · exact h
    · rintro ⟨hrequest, h⟩
      generalize hrun : (sink.publishEvents request).run u = r at hends
      have hplans := plan_of_refused hrequest
      rw [← resumed.delivered] at hplans
      cases hends with
      | refused failure hplan => exact (hrefused failure hrun).mpr h
      | unsendable failure remaining hplan htake => exact (hrefused failure hrun).mpr h
      | delivered through' hplan => simp [hplan] at hplans
      | posted hplan sendable hposted =>
        rcases hplans with ⟨failure, hrefuse⟩ | ⟨remaining, failure, hsend, htake⟩
        · rw [hplan] at hrefuse
          exact absurd hrefuse (by simp)
        · rw [hplan] at hsend
          obtain rfl := HttpEventSink.Plan.send.inj hsend
          rw [sendable] at htake
          exact absurd htake (by simp)

theorem CallEnds.exists_posts {r : Outcome SinkError EventAcknowledgement × HttpState ρ}
    (h : CallEnds sink request u r) :
    ∃ posts, Posts sink request u posts r.2 ∧
      (posts = [] → r.2.deliveredSeq = u.deliveredSeq) := by
  cases h with
  | refused failure h => exact ⟨[], .nil, fun _ => rfl⟩
  | unsendable failure remaining plan h => exact ⟨[], .nil, fun _ => rfl⟩
  | delivered through h => exact ⟨[], .nil, fun _ => rfl⟩
  | posted plan sendable h =>
    obtain ⟨posts, hne, hposts⟩ := h
    exact ⟨posts, hposts, fun hnil => absurd hnil hne⟩

structure Apart (journal : Journal) (s : HttpState ρ) : Prop where
  account : Account s.deliveredSeq s.trace
  bounded : ¬ Overacknowledged s.trace
  session : ∀ post ∈ posted s.trace, post.body.sessionId = journal.sessionId
  events : ∀ post ∈ posted s.trace, ∀ event ∈ post.body.events, event = journal.event event.seq
  starts : StartsAtZero s.trace
  fresh : posted s.trace = [] → s.deliveredSeq = none

theorem mem_posted_of_acknowledged {trace : List HttpLabel} {event : Event}
    (h : event ∈ acknowledgedEvents trace) : ∃ post ∈ posted trace, event ∈ post.body.events := by
  obtain ⟨body, hbody, hevent⟩ := List.mem_flatMap.mp h
  obtain ⟨label, hlabel, hacknowledged⟩ := List.mem_filterMap.mp hbody
  rcases label with ⟨request, delivered⟩ | ⟨post, _ | reply⟩
  · exact absurd hacknowledged (by simp [HttpLabel.acknowledged])
  · exact absurd hacknowledged (by simp [HttpLabel.acknowledged])
  · obtain ⟨ack, -, rfl⟩ := Option.map_eq_some_iff.mp hacknowledged
    exact ⟨post, List.mem_filterMap.mpr ⟨_, hlabel, rfl⟩, hevent⟩

variable {journal : Journal}

theorem Apart.step (h : Apart journal u) (asked : journal.Requests request)
    (bounded : Bounded sink) : Apart journal ((sink.publishEvents request).run u).2 := by
  obtain ⟨posts, hposts, hfresh⟩ :=
    (show CallEnds sink request u _ from publishEvents_ends).exists_posts
  have haccount := (@HttpEventSink.publishEvents_completed ρ sink request u
    u ⟨rfl, h.account⟩).mono (fun _ _ ht => ht.1.1) (fun _ ht => ht.1) |>.final
  generalize ((sink.publishEvents request).run u).2 = t at hposts hfresh haccount ⊢
  have hposted := hposts.posted
  refine ⟨haccount, ?_, ?_, ?_, ?_, ?_⟩
  · rintro ⟨post, reply, ack, hmem, hack, hover⟩
    rw [hposts.trace] at hmem
    rcases List.mem_append.mp hmem with hmem | hmem
    · exact h.bounded ⟨post, reply, ack, by simpa [HttpState.called] using hmem, hack, hover⟩
    · -- an acknowledgement of this call is bounded
      obtain ⟨p, hp, hlabel⟩ := List.mem_map.mp hmem
      obtain ⟨rfl, hreply⟩ := HttpLabel.posted.inj hlabel
      obtain ⟨network, hnetwork⟩ := hposts.reply p hp
      exact absurd (bounded network p.1 reply ack (hnetwork.trans hreply) hack)
        (Nat.not_le_of_lt hover)
  · intro post hpost
    rw [hposted] at hpost
    rcases List.mem_append.mp hpost with hpost | hpost
    · exact h.session post hpost
    · obtain ⟨p, hp, rfl⟩ := List.mem_map.mp hpost
      exact (hposts.session p hp).trans asked.session
  · intro post hpost event hevent
    rw [hposted] at hpost
    rcases List.mem_append.mp hpost with hpost | hpost
    · exact h.events post hpost event hevent
    · obtain ⟨p, hp, rfl⟩ := List.mem_map.mp hpost
      exact asked.events event (hposts.events p hp event hevent)
  · -- the first post of all is the first of this call if none came before
    rcases hquiet : posted u.trace with _ | ⟨first, others⟩
    · rcases posts with _ | ⟨p, posts⟩
      · exact startsAtZero_of_quiet (by rw [hposted, hquiet]; rfl)
      · obtain ⟨post, event, hpost, hevent, hseq⟩ :=
          HasPosted.starts ⟨_, List.cons_ne_nil p posts, hposts⟩ hquiet
        rw [h.fresh hquiet] at hseq
        intro other hother
        obtain rfl := Option.some.inj (hpost.symm.trans hother)
        exact ⟨event, hevent, hseq⟩
    · have hstarts := h.starts
      unfold StartsAtZero at hstarts ⊢
      rw [hposted, hquiet]
      rw [hquiet] at hstarts
      exact hstarts
  · intro hnone
    rw [hposted] at hnone
    obtain ⟨hquiet, hposts⟩ := List.append_eq_nil_iff.mp hnone
    rw [hfresh (List.map_eq_nil_iff.mp hposts)]
    exact h.fresh hquiet

theorem Apart.postedFor {ack : EventAcknowledgement} (h : Apart journal u)
    (asked : journal.Requests request) (bounded : Bounded sink)
    (returned : (sink.publishEvents request).run u = (.ok ack, t)) : PostedFor request t.trace := by
  have hcompleted := @HttpEventSink.publishEvents_completed ρ sink request u
    u ⟨rfl, h.account⟩
  have hafter : Apart journal t := by
    have := h.step asked bounded
    rw [returned] at this
    exact this
  rw [returned] at hcompleted
  obtain ⟨⟨-, hlater⟩, hcompleted⟩ := hcompleted
  intro event hevent
  have hacknowledged := hcompleted.acknowledged h.account hlater
    (fun event _ => h.account.inside_of_bounded h.bounded event.seq) ?_ event hevent
  · obtain ⟨post, hpost, hmem⟩ := mem_posted_of_acknowledged hacknowledged
    exact ⟨post, hpost, (hafter.session post hpost).trans asked.session.symm, hmem⟩
  · intro event hevent earlier hearlier hseq
    obtain ⟨post, hpost, hmem⟩ := mem_posted_of_acknowledged hearlier
    rw [h.events post hpost earlier hmem, hseq]
    exact (asked.events event hevent).symm

theorem isolated_of_apart (requests : List EventPublishRequest) (h : Apart journal u)
    (asked : ∀ request ∈ requests, journal.Requests request) (bounded : Bounded sink) :
    Isolated sink u requests := by
  induction requests generalizing u with
  | nil => trivial
  | cons request rest ih =>
    obtain ⟨hrequest, hrest⟩ := List.forall_mem_cons.mp asked
    have hafter := h.step hrequest bounded
    unfold Isolated
    rcases hrun : (sink.publishEvents request).run u with ⟨ack | failure | _, t⟩ <;>
      rw [hrun] at hafter
    · exact ⟨hafter.starts, h.postedFor hrequest bounded hrun, ih hafter hrest⟩
    · exact ⟨hafter.starts, ih hafter hrest⟩
    · exact hafter.starts

end

section
variable {ρ : Type} (sink : HttpEventSink ρ) (client : Except String Unit) (network : ρ)
  (journal : Journal) (requests : List EventPublishRequest) {file : CursorFile}
  {delivered : Option ℕ}

/-- Created from what sinks of other sessions have left at its cursor path, a sink keeps its
session apart just when they have left nothing, or it refuses every request. A server that
acknowledges past the end of a batch is excluded for a sink that found nothing. -/
theorem new_session_isolated_iff
    (left : LeftBefore sink.config.cursorPath journal.sessionId file)
    (created : sink.config.create file client = .ok delivered)
    (asked : ∀ request ∈ requests, journal.Requests request)
    (bounded : file = .missing → Bounded sink) :
    Isolated sink (.created delivered file network) requests ↔
      file = .missing ∨ ∃ through, delivered = some through ∧
        ∀ request ∈ requests, Refused sink through request := by
  have hdelivered := HttpEventConfig.create_ok created
  rcases left.sequenced with rfl | ⟨through, checkpoint, rfl⟩
  · obtain rfl : none = delivered := Except.ok.inj hdelivered
    refine iff_of_true (isolated_of_apart requests ⟨account_start, ?_, ?_, ?_, ?_, ?_⟩ asked
      (bounded rfl)) (Or.inl rfl)
    · rintro ⟨post, reply, ack, hmem, -⟩
      exact absurd hmem (by simp [HttpState.created])
    · exact fun _ h => absurd h (by simp [HttpState.created, posted])
    · exact fun _ h => absurd h (by simp [HttpState.created, posted])
    · exact startsAtZero_of_quiet rfl
    · exact fun _ => rfl
  · obtain rfl : some through = delivered := Except.ok.inj hdelivered
    have hresumed : Resumed through (HttpState.created (some through)
        (.cursor ⟨some through, none, checkpoint⟩) network) := ⟨rfl, rfl⟩
    rw [isolated_iff_refused requests hresumed]
    simp

end

def exampleJournal (session : String) : Journal where
  sessionId := session
  event seq := { exampleEvent seq with sessionId := session }
  seq_event _ := rfl

def sessionRequest (session : String) : EventPublishRequest :=
  { exampleRequest 1 false with
    sessionId := session
    events := (exampleRequest 1 false).events.map fun event => { event with sessionId := session } }

theorem sessionRequest_asked (session : String) :
    (exampleJournal session).Requests (sessionRequest session) where
  session := rfl
  events event hevent := by
    obtain ⟨base, hbase, rfl⟩ := List.mem_map.mp hevent
    obtain ⟨seq, -, rfl⟩ := List.mem_map.mp hbase
    rfl

def exampleOptions (session : String) : DaemonOptions where
  events := "/spool/events.ndjson"
  sessionId := session
  eventHttpUrl := "http://localhost/events"
  eventMaxBatchEvents := 100
  eventMaxBatchBytes := 1048576

def daemonSink (session : String) : HttpEventSink (List HttpReply) :=
  { exampleHttpSink with config := (exampleOptions session).httpEventConfig none }

def leftCursor : CursorFile :=
  (((daemonSink "s").publishAll [sessionRequest "s"]).run
    (.created none .missing [accepting 1 none])).2.cursor

theorem leftCursor_left :
    LeftBefore (daemonSink "t").config.cursorPath (exampleJournal "t").sessionId leftCursor :=
  .life (daemonSink "s") (.ok ()) [accepting 1 none] [sessionRequest "s"] .missing rfl rfl
    (by decide)

theorem new_session_isolated_iff_resumed :
    Isolated (daemonSink "t") (.created (some 1) leftCursor []) [sessionRequest "t"] ↔
      leftCursor = .missing ∨ ∃ through, some 1 = some through ∧
        ∀ request ∈ [sessionRequest "t"], Refused (daemonSink "t") through request :=
  new_session_isolated_iff (daemonSink "t") (.ok ()) [] (exampleJournal "t") [sessionRequest "t"]
    leftCursor_left rfl (by simpa using sessionRequest_asked "t")
    fun h => absurd h (by decide)

/-- Session `t` returns Ok for its two events without any POST: session `s`, at the same spool
path, had delivered as many. -/
theorem session_passed_over :
    ¬ ∀ (ρ : Type) (sink : HttpEventSink ρ) client network (journal : Journal) requests file
        delivered,
      LeftBefore sink.config.cursorPath journal.sessionId file →
      sink.config.create file client = .ok delivered →
      (∀ request ∈ requests, journal.Requests request) →
      Isolated sink (.created delivered file network) requests := by
  intro h
  have hisolated := h _ (daemonSink "t") (.ok ()) [] (exampleJournal "t") [sessionRequest "t"]
    leftCursor (some 1) leftCursor_left rfl (by simpa using sessionRequest_asked "t")
  have hposted : PostedFor (sessionRequest "t")
      [.called (sessionRequest "t") (some 1)] := hisolated.2.1
  obtain ⟨post, hpost, -⟩ := hposted _ (List.mem_cons_self ..)
  exact absurd hpost (by simp [posted, HttpLabel.post])

end Rrjj
