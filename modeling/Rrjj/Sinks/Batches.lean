import Rrjj.Sinks.CursorIsolation
import Rrjj.Sinks.Retries

/-! The batches of a call: how a request is divided among its POSTs, and where an event that is too
long stops it. -/

namespace Rrjj
open Library Library.Proc

def arrayLen (lengths : List ℕ) : ℕ := lengths.sum + (lengths.length - 1) + 2

theorem arrayLen_concat (lengths : List ℕ) (length : ℕ) :
    arrayLen (lengths ++ [length]) =
      arrayLen lengths + (length + if lengths.length = 0 then 0 else 1) := by
  unfold arrayLen
  rw [List.sum_append, List.sum_singleton, List.length_append, List.length_singleton]
  split_ifs with hempty
  · rw [hempty]
    omega
  · omega

theorem arrayLen_mem {lengths : List ℕ} {length : ℕ} (h : length ∈ lengths) :
    length + 2 ≤ arrayLen lengths := by
  have hle := List.le_sum_of_mem h
  unfold arrayLen
  omega

abbrev Encoded (encodedLen : Event → Except String ℕ) (events : List Event) (lengths : List ℕ) : Prop :=
  List.Forall₂ (fun event length => encodedLen event = .ok length) events lengths

section
variable {encodedLen : Event → Except String ℕ} {maxEvents maxBytes count : ℕ} {failure : SinkError}
  {event : Event} {events batch taken rest : List Event} {lengths : List ℕ}

theorem Encoded.concat {length : ℕ} (h : Encoded encodedLen taken lengths)
    (encoded : encodedLen event = .ok length) :
    Encoded encodedLen (taken ++ [event]) (lengths ++ [length]) := by
  have hlast : Encoded encodedLen [event] [length] := .cons encoded .nil
  exact List.rel_append h hlast

theorem Encoded.mem (h : Encoded encodedLen events lengths) (mem : event ∈ events) :
    ∃ length ∈ lengths, encodedLen event = .ok length := by
  induction h with
  | nil => exact absurd mem List.not_mem_nil
  | @cons first length events lengths hfirst hrest ih =>
    rcases List.mem_cons.mp mem with rfl | hmem
    · exact ⟨length, List.mem_cons_self, hfirst⟩
    · obtain ⟨found, hfound, hlength⟩ := ih hmem
      exact ⟨found, List.mem_cons_of_mem _ hfound, hlength⟩

theorem batchCount_stops (encoded : Encoded encodedLen taken lengths)
    (h : batchCount encodedLen maxBytes events (arrayLen lengths) taken.length = .ok count)
    (short : taken ≠ [] → arrayLen lengths ≤ maxBytes) :
    ∃ more left longer, events = more ++ left ∧ count = (taken ++ more).length ∧
      Encoded encodedLen (taken ++ more) longer ∧ (taken ++ more ≠ [] → arrayLen longer ≤ maxBytes) ∧
      (∀ next ∈ left.head?, ∃ longest, Encoded encodedLen (taken ++ more ++ [next]) longest ∧
        maxBytes < arrayLen longest) ∧ (taken = [] → events ≠ [] → more ≠ []) := by
  -- on the events; `taken` has been counted, and its array is as long as the count of bytes says
  induction events generalizing taken lengths with
  | nil =>
    have hcount : taken.length = count := Except.ok.inj h
    refine ⟨[], [], lengths, rfl, ?_, ?_, ?_, ?_, fun _ hne => absurd rfl hne⟩
    · rw [List.append_nil, hcount]
    · rwa [List.append_nil]
    · rwa [List.append_nil]
    · intro next hnext
      exact absurd hnext (by simp)
  | cons event events ih =>
    rw [batchCount] at h
    rcases hlength : encodedLen event with message | length
    · rw [hlength] at h
      exact absurd h (by simp)
    · simp only [hlength, encoded.length_eq] at h
      rw [← arrayLen_concat lengths length] at h
      have hnext := encoded.concat hlength
      split_ifs at h with hfull hlong
      · have hcount : lengths.length = count := Except.ok.inj h
        refine ⟨[], event :: events, lengths, rfl, ?_, ?_, ?_, ?_, fun hnil _ => ?_⟩
        · rw [List.append_nil, encoded.length_eq, hcount]
        · rwa [List.append_nil]
        · rwa [List.append_nil]
        · intro next hhead
          rw [← Option.some.inj hhead, List.append_nil]
          exact ⟨_, hnext, hfull.2⟩
        · rw [hnil] at encoded
          rw [List.forall₂_nil_left_iff.mp encoded] at hfull
          exact absurd hfull.1 (lt_irrefl 0)
      · -- the next event fits, also when it is the first one
        have hshort : arrayLen (lengths ++ [length]) ≤ maxBytes := by
          rw [arrayLen_concat] at hfull ⊢
          by_cases hempty : lengths.length = 0
          · rw [List.length_eq_zero_iff.mp hempty] at hlong ⊢
            simp only [List.length_nil, true_and, not_lt] at hlong
            simp only [arrayLen, List.sum_nil, List.length_nil, if_true]
            omega
          · have hpos : 0 < lengths.length := Nat.pos_of_ne_zero hempty
            exact Nat.not_lt.mp fun hlt => hfull ⟨hpos, hlt⟩
        have hlen : lengths.length + 1 = (taken ++ [event]).length := by
          rw [List.length_append, List.length_singleton, encoded.length_eq]
        rw [hlen] at h
        obtain ⟨more, left, longer, rfl, hcount, hencoded, hle, hstop, -⟩ := ih hnext h fun _ => hshort
        have happend : taken ++ event :: more = taken ++ [event] ++ more := List.append_cons ..
        refine ⟨event :: more, left, longer, rfl, ?_, ?_, ?_, ?_, fun _ _ => List.cons_ne_nil _ _⟩
        · rw [happend, hcount]
        · rwa [happend]
        · rwa [happend]
        · rwa [happend]

theorem batchCount_fails {bytes : ℕ}
    (h : batchCount encodedLen maxBytes events bytes count = .error failure) :
    (∃ message, failure = .serialize message) ∨
      count = 0 ∧ ∃ event rest length, events = event :: rest ∧ encodedLen event = .ok length ∧
        maxBytes < length + 2 := by
  induction events generalizing bytes count with
  | nil => exact absurd h (by simp [batchCount])
  | cons event events ih =>
    rw [batchCount] at h
    rcases hlength : encodedLen event with message | length
    · rw [hlength] at h
      exact Or.inl ⟨message, (Except.error.inj h).symm⟩
    · simp only [hlength] at h
      by_cases hfull : 0 < count ∧ maxBytes < bytes + (length + if count = 0 then 0 else 1)
      · rw [if_pos hfull] at h
        exact absurd h (by simp)
      · rw [if_neg hfull] at h
        by_cases hlong : count = 0 ∧ maxBytes < length + 2
        · exact Or.inr ⟨hlong.1, event, events, length, rfl, hlength, hlong.2⟩
        · rw [if_neg hlong] at h
          exact (ih h).imp_right fun hlater => absurd hlater.1 (Nat.succ_ne_zero count)

end

namespace HttpEventSink
variable {ρ : Type} (sink : HttpEventSink ρ)

structure Fits (batch : List Event) : Prop where
  nonempty : batch ≠ []
  events : batch.length ≤ sink.config.maxEventsPerBatch
  bytes : ∃ lengths, Encoded sink.encodedLen batch lengths ∧
    arrayLen lengths ≤ sink.config.maxBytesPerBatch

def TooLong (events : List Event) : Prop :=
  ∃ lengths, Encoded sink.encodedLen events lengths ∧ sink.config.maxBytesPerBatch < arrayLen lengths

def Exceeds (events : List Event) : Prop :=
  sink.config.maxEventsPerBatch < events.length ∨ sink.TooLong events

variable {sink} {event : Event} {events batch left rest : List Event} {failure : SinkError}

theorem tooLong_singleton : sink.TooLong [event] ↔
    ∃ length, sink.encodedLen event = .ok length ∧ sink.config.maxBytesPerBatch < length + 2 := by
  have hone : ∀ length, arrayLen [length] = length + 2 := by simp [arrayLen]
  constructor
  · rintro ⟨lengths, hlengths, hlong⟩
    obtain ⟨length, none, hlength, hnone, rfl⟩ := List.forall₂_cons_left_iff.mp hlengths
    rw [List.forall₂_nil_left_iff.mp hnone, hone] at hlong
    exact ⟨length, hlength, hlong⟩
  · rintro ⟨length, hlength, hlong⟩
    exact ⟨[length], .cons hlength .nil, by rwa [hone]⟩

theorem Fits.not_tooLong (h : sink.Fits batch) (mem : event ∈ batch) : ¬ sink.TooLong [event] := by
  intro htoo
  obtain ⟨length, hlength, hlong⟩ := tooLong_singleton.mp htoo
  obtain ⟨lengths, hlengths, hshort⟩ := h.bytes
  obtain ⟨found, hfound, hsame⟩ := hlengths.mem mem
  have hle := arrayLen_mem hfound
  rw [Except.ok.inj (hsame.symm.trans hlength)] at hle
  omega

theorem takeBatch_maximal (positive : 0 < sink.config.maxEventsPerBatch)
    (h : takeBatch sink.encodedLen (event :: rest) sink.config.maxEventsPerBatch
      sink.config.maxBytesPerBatch = .ok batch) :
    sink.Fits batch ∧ ∃ left, event :: rest = batch ++ left ∧
      ∀ next ∈ left.head?, sink.Exceeds (batch ++ [next]) := by
  set limit := sink.config.maxEventsPerBatch with hlimit
  unfold takeBatch at h
  rcases hcount : batchCount sink.encodedLen sink.config.maxBytesPerBatch
    ((event :: rest).take limit) 2 0 with failure | count <;> rw [hcount] at h
  · exact absurd h (by simp [Bind.bind, Except.bind])
  obtain ⟨more, left, lengths, hsplit, hmore, hencoded, hshort, hstop, hsome⟩ :=
    @batchCount_stops sink.encodedLen sink.config.maxBytesPerBatch count
      ((event :: rest).take limit) [] [] .nil hcount fun hne => absurd rfl hne
  simp only [List.nil_append] at hmore hencoded hshort hstop
  -- the first event is taken, so the `max 1` of the source changes nothing
  have hne : more ≠ [] := by
    apply hsome rfl
    intro hnil
    rcases List.take_eq_nil_iff.mp hnil with hzero | hnone
    · omega
    · exact absurd hnone (List.cons_ne_nil _ _)
  have hwhole : event :: rest = more ++ (left ++ (event :: rest).drop limit) := by
    rw [← List.append_assoc, ← hsplit, List.take_append_drop]
  have hpos : 0 < more.length := List.length_pos_iff.mpr hne
  have hlength := congrArg List.length hwhole
  rw [List.length_append] at hlength
  have hbatch : batch = more := by
    have htaken : batch = (event :: rest).take (min (max count 1) (event :: rest).length) :=
      (Except.ok.inj h).symm
    have hleast : min (max count 1) (event :: rest).length = more.length := by omega
    rw [htaken, hleast, hwhole, List.take_left]
  have hwithin : more.length ≤ limit := by
    have htake := congrArg List.length hsplit
    rw [List.length_take, List.length_append] at htake
    omega
  rw [hbatch]
  refine ⟨⟨hne, hwithin, lengths, hencoded, hshort hne⟩, _, hwhole, ?_⟩
  intro next hnext
  rcases left with _ | ⟨later, left⟩
  · -- the batch has all the events that it may have
    left
    rw [List.nil_append] at hnext
    have hdrop : (event :: rest).drop limit ≠ [] := List.ne_nil_of_mem (List.mem_of_mem_head? hnext)
    have hlonger : limit < (event :: rest).length := by
      by_contra hle
      exact hdrop (List.drop_eq_nil_of_le (Nat.not_lt.mp hle))
    have htake := congrArg List.length hsplit
    rw [List.length_take, List.append_nil] at htake
    rw [List.length_append, List.length_singleton]
    omega
  · -- the count stopped before the limit on events
    right
    exact hstop next hnext

theorem takeBatch_fails (h : takeBatch sink.encodedLen (event :: rest) sink.config.maxEventsPerBatch
      sink.config.maxBytesPerBatch = .error failure) :
    (∃ message, failure = .serialize message) ∨ sink.TooLong [event] := by
  unfold takeBatch at h
  rcases hcount : batchCount sink.encodedLen sink.config.maxBytesPerBatch
    ((event :: rest).take sink.config.maxEventsPerBatch) 2 0 with failure' | count <;> rw [hcount] at h
  · rw [← Except.error.inj h]
    refine (batchCount_fails hcount).imp_right ?_
    rintro ⟨-, first, others, length, hfirst, hlength, hlong⟩
    apply tooLong_singleton.mpr
    rcases hmax : sink.config.maxEventsPerBatch with _ | limit
    · rw [hmax, List.take_zero] at hfirst
      exact absurd hfirst (by simp)
    · rw [hmax, List.take_succ_cons] at hfirst
      rw [(List.cons.inj hfirst).1]
      exact ⟨length, hlength, hlong⟩
  · exact absurd h (by simp [Bind.bind, Except.bind, pure, Except.pure])

end HttpEventSink

/-- Every POST is acknowledged, exactly through the last event of its batch. -/
def Network.AcknowledgesExactly {ρ : Type} (network : Network ρ) : Prop :=
  ∀ state post, ∃ status ack, (network.post state post).1 = some (.response status (.ok ack)) ∧
    (200 ≤ status.code ∧ status.code < 300 ∨ status.code = 409) ∧
    ack.acceptedThroughSeq = lastSeq post.body.events

def SinkError.Other (failure : SinkError) : Prop := ∀ message, failure ≠ .invalidFlush message

namespace HttpEventSink
variable {ρ : Type} {sink : HttpEventSink ρ} {request : EventPublishRequest} {s : HttpState ρ}
  {event : Event} {events batch left rest : List Event} {posts : List HttpPost}

theorem validateAck_other {ack : EventAcknowledgement} {durable : Option DurableWatermark}
    {failure : SinkError} (h : validateAck ack events durable = .error failure) : failure.Other := by
  unfold validateAck at h
  intro message hinvalid
  rw [hinvalid] at h
  split_ifs at h with hshort
  · exact absurd h (by simp)
  · split at h
    · exact absurd h (by simp)
    · split at h
      · split_ifs at h
        exact absurd h (by simp)
      · exact absurd h (by simp)

theorem judge_answer {body : HttpEventBatch} {status : HttpStatus} {ack : EventAcknowledgement}
    (answer : 200 ≤ status.code ∧ status.code < 300 ∨ status.code = 409) :
    sink.judge body (.response status (.ok ack)) = .accept ack ∨
      ∃ failure, sink.judge body (.response status (.ok ack)) = .fail failure ∧ failure.Other := by
  rcases hack : validateAck ack body.events body.durable with failure | done
  · right
    rcases classifyHttpStatus_answer.mpr answer with hclass | hclass
    · exact ⟨failure, by simp [judge, hclass, hack], validateAck_other hack⟩
    · have hconflict : sink.judge body (.response status (.ok ack)) =
          .fail (.eventConflict (sink.config.sanitized failure.toString)) := by
        simp [judge, hclass, hack]
      exact ⟨_, hconflict, fun _ hinvalid => nomatch hinvalid⟩
  · left
    rcases classifyHttpStatus_answer.mpr answer with hclass | hclass <;> simp [judge, hclass, hack]

def recorded (request : EventPublishRequest) (batch : List Event) (s : HttpState ρ) : Prop :=
  s.deliveredSeq = some (lastSeq batch) ∧
    s.cursor = .cursor ⟨some (lastSeq batch), none, request.durable.map DurableWatermark.checkpoint⟩

theorem validateContiguous_conflict {failure : SinkError}
    (h : validateContiguous events = .error failure) : ∃ message, failure = .eventConflict message := by
  induction events with
  | nil => exact absurd h (by simp [validateContiguous])
  | cons first events ih =>
    rcases events with _ | ⟨second, rest⟩
    · exact absurd h (by simp [validateContiguous])
    · rw [validateContiguous] at h
      split_ifs at h with hnext
      · exact ih h
      · exact ⟨_, (Except.error.inj h).symm⟩

def Stopped : Outcome SinkError EventAcknowledgement → Prop
  | .ok _ => False
  | .error failure => failure.Other
  | .cut => True

theorem publishBatch_accepted {isFinal : Bool} {ack : EventAcknowledgement} {u : HttpState ρ}
    (loop : (sink.postLoop (sink.batchPost request batch (if isFinal then request.durable else none))
      sink.config.maxRetries).run s = (.ok ack, u)) (last : ack.acceptedThroughSeq = lastSeq batch) :
    (∃ t, (sink.publishBatch request batch isFinal).run s = (.ok ack, t) ∧ t.trace = u.trace ∧
        recorded request batch t) ∨
      Stopped ((sink.publishBatch request batch isFinal).run s).1 := by
  set t : HttpState ρ := { u with deliveredSeq := some (lastSeq batch) } with ht
  set cursor : SinkCursor := ⟨some (lastSeq batch), none,
    request.durable.map DurableWatermark.checkpoint⟩ with hcursor
  have hrun : (sink.publishBatch request batch isFinal).run s =
      ((do sink.writeCursorAtomic cursor; pure ack) : HttpTask ρ EventAcknowledgement).run t := by
    unfold publishBatch postBatch
    rw [run_bind]
    unfold batchPost at loop
    rw [loop]
    simp only [run_bind, run_modify, last]
    rfl
  rw [hrun]
  unfold writeCursorAtomic
  rcases hwrite : (sink.network.writeCursor t.network cursor).1 with _ | ⟨stored, message⟩ | stored
  · left
    refine ⟨sink.written cursor t, ?_, rfl, rfl, ?_⟩
    · simp only [run_bind, run_get, run_modify, run_pure, hwrite, written]
    · unfold written
      rw [hwrite]
      rfl
  · right
    simp only [run_bind, run_get, run_modify, hwrite, run_throw]
    exact fun _ => nofun
  · right
    simp only [run_bind, run_get, run_modify, hwrite, run_cut]
    trivial

theorem publishBatch_failed {isFinal : Bool} {failure : SinkError} {u : HttpState ρ}
    (loop : (sink.postLoop (sink.batchPost request batch (if isFinal then request.durable else none))
      sink.config.maxRetries).run s = (.error failure, u)) :
    (sink.publishBatch request batch isFinal).run s = (.error failure, u) := by
  unfold publishBatch postBatch
  rw [run_bind]
  unfold batchPost at loop
  rw [loop]

theorem publishBatch_exact (exact : sink.network.AcknowledgesExactly) (isFinal : Bool) :
    (∃ ack t, (sink.publishBatch request batch isFinal).run s = (.ok ack, t) ∧
        posted t.trace = posted s.trace ++ [sink.batchPost request batch
          (if isFinal then request.durable else none)] ∧ recorded request batch t) ∨
      Stopped ((sink.publishBatch request batch isFinal).run s).1 := by
  set post := sink.batchPost request batch (if isFinal then request.durable else none) with hpost
  obtain ⟨status, ack, hreply, hanswer, hlast⟩ := exact s.network post
  have hposted : posted (sink.answered post s).trace = posted s.trace ++ [post] := posted_append _ _
  rcases @judge_answer _ sink post.body status ack hanswer with haccept | ⟨failure, hfail, hother⟩
  · have hloop := postLoop_once hreply (by simp [haccept]) sink.config.maxRetries
    rw [haccept] at hloop
    rcases publishBatch_accepted hloop hlast with ⟨t, hrun, htrace, hrecorded⟩ | hstopped
    · exact Or.inl ⟨ack, t, hrun, htrace ▸ hposted, hrecorded⟩
    · exact Or.inr hstopped
  · have hloop := postLoop_once hreply (by simp [hfail]) sink.config.maxRetries
    rw [hfail] at hloop
    right
    rw [publishBatch_failed hloop]
    exact hother

def postedEvents (posts : List HttpPost) : List Event := posts.flatMap fun post => post.body.events

variable (sink) in
/-- The POSTs divide the events up to what is left: each is a batch within the limits to which the
next event could not be added, and the last of all has the durable watermark. -/
structure Divides (request : EventPublishRequest) (events : List Event) (posts : List HttpPost)
    (left : List Event) : Prop where
  whole : events = postedEvents posts ++ left
  fits : ∀ post ∈ posts, sink.Fits post.body.events
  full : ∀ before post after, posts = before ++ post :: after →
    ∀ next ∈ (postedEvents after ++ left).head?, sink.Exceeds (post.body.events ++ [next])
  own : ∀ post ∈ posts, post = sink.batchPost request post.body.events post.body.durable
  durable : ∀ before post after, posts = before ++ post :: after →
    post.body.durable = if after = [] ∧ left = [] then request.durable else none

theorem Divides.nil : sink.Divides request left [] left where
  whole := rfl
  fits := fun _ hmem => absurd hmem List.not_mem_nil
  full := fun before _ _ h => absurd h (by simp)
  own := fun _ hmem => absurd hmem List.not_mem_nil
  durable := fun before _ _ h => absurd h (by simp)

theorem Divides.cons (h : sink.Divides request rest posts left) (fits : sink.Fits batch)
    (full : ∀ next ∈ rest.head?, sink.Exceeds (batch ++ [next])) :
    sink.Divides request (batch ++ rest)
      (sink.batchPost request batch (if rest.isEmpty then request.durable else none) :: posts) left where
  whole := by
    show batch ++ rest = (batch ++ postedEvents posts) ++ left
    rw [h.whole, List.append_assoc]
  fits := by
    intro post hmem
    rcases List.mem_cons.mp hmem with rfl | hmem
    · exact fits
    · exact h.fits post hmem
  full := by
    intro before post after hsplit
    rcases List.cons_eq_append_iff.mp hsplit with ⟨-, hhere⟩ | ⟨later, -, hlater⟩
    · obtain ⟨rfl, rfl⟩ := List.cons.inj hhere
      rw [← h.whole]
      exact full
    · exact h.full later post after hlater
  own := by
    intro post hmem
    rcases List.mem_cons.mp hmem with rfl | hmem
    · rfl
    · exact h.own post hmem
  durable := by
    intro before post after hsplit
    rcases List.cons_eq_append_iff.mp hsplit with ⟨-, hhere⟩ | ⟨later, -, hlater⟩
    · obtain ⟨rfl, rfl⟩ := List.cons.inj hhere
      -- the final test looks at what remains, which is what the later POSTs have and what is left
      have hempty : rest.isEmpty = true ↔ after = [] ∧ left = [] := by
        rw [List.isEmpty_iff, h.whole, List.append_eq_nil_iff]
        apply and_congr_left'
        constructor
        · intro hnone
          rcases after with _ | ⟨post, posts⟩
          · rfl
          · have hsome := (h.fits post List.mem_cons_self).nonempty
            exact absurd (List.append_eq_nil_iff.mp hnone).1 hsome
        · rintro rfl
          rfl
      show (if rest.isEmpty then request.durable else none) = _
      simp only [hempty]
    · exact h.durable later post after hlater

/-- What is recorded once the POSTs have been made: the last of their events, if there is one. -/
def Recorded (request : EventPublishRequest) (posts : List HttpPost) (s t : HttpState ρ) : Prop :=
  if posts = [] then t.deliveredSeq = s.deliveredSeq ∧ t.cursor = s.cursor
  else recorded request (postedEvents posts) t

variable (sink) in
def Sends (request : EventPublishRequest) (events : List Event) (s : HttpState ρ) :
    Outcome SinkError EventAcknowledgement × HttpState ρ → Prop
  | (.ok _, t) => ∃ posts, sink.Divides request events posts [] ∧
      posted t.trace = posted s.trace ++ posts ∧ Recorded request posts s t
  | (.error (.invalidFlush _), t) => ∃ posts event rest,
      sink.Divides request events posts (event :: rest) ∧ sink.TooLong [event] ∧
        (∀ earlier ∈ postedEvents posts, ¬ sink.TooLong [earlier]) ∧
        posted t.trace = posted s.trace ++ posts ∧ Recorded request posts s t
  | _ => True

theorem Divides.not_tooLong (h : sink.Divides request events posts left) :
    ∀ event ∈ postedEvents posts, ¬ sink.TooLong [event] := by
  intro event hevent
  obtain ⟨post, hpost, hmem⟩ := List.mem_flatMap.mp hevent
  exact (h.fits post hpost).not_tooLong hmem

theorem Divides.postedEvents_ne (h : sink.Divides request events posts left) (some : posts ≠ []) :
    postedEvents posts ≠ [] := by
  obtain ⟨post, posts, rfl⟩ := List.exists_cons_of_ne_nil some
  intro hnone
  have hfirst := (h.fits post List.mem_cons_self).nonempty
  exact hfirst (List.append_eq_nil_iff.mp hnone).1

theorem Recorded.cons {t u : HttpState ρ} {durable : Option DurableWatermark}
    (divides : sink.Divides request rest posts left) (first : recorded request batch t)
    (h : Recorded request posts t u) :
    Recorded request (sink.batchPost request batch durable :: posts) s u := by
  have hevents : postedEvents (sink.batchPost request batch durable :: posts) =
      batch ++ postedEvents posts := rfl
  unfold Recorded at h ⊢
  rw [if_neg (List.cons_ne_nil _ _), hevents]
  split_ifs at h with hnone
  · have hempty : postedEvents posts = [] := by
      rw [hnone]
      rfl
    unfold recorded
    rw [hempty, List.append_nil, h.1, h.2]
    exact first
  · unfold recorded
    rw [lastSeq_append (divides.postedEvents_ne hnone)]
    exact h

theorem Sends.cons {t : HttpState ρ} {isFinal : Bool}
    {run : Outcome SinkError EventAcknowledgement × HttpState ρ}
    (h : sink.Sends request rest t run) (fits : sink.Fits batch)
    (full : ∀ next ∈ rest.head?, sink.Exceeds (batch ++ [next])) (final : isFinal = rest.isEmpty)
    (post : posted t.trace = posted s.trace ++ [sink.batchPost request batch
      (if isFinal then request.durable else none)])
    (first : recorded request batch t) : sink.Sends request (batch ++ rest) s run := by
  subst final
  have htrace : ∀ posts, posted t.trace ++ posts = posted s.trace ++
      sink.batchPost request batch (if rest.isEmpty then request.durable else none) :: posts := by
    intro posts
    rw [post, List.append_assoc, List.singleton_append]
  rcases run with ⟨ack | failure | _, u⟩
  · obtain ⟨posts, hdivides, hposts, hafter⟩ := h
    exact ⟨_, hdivides.cons fits full, hposts.trans (htrace posts), hafter.cons hdivides first⟩
  · cases failure with
    | invalidFlush message =>
      obtain ⟨posts, next, others, hdivides, hlong, -, hposts, hafter⟩ := h
      have hwhole := hdivides.cons fits full
      exact ⟨_, next, others, hwhole, hlong, hwhole.not_tooLong, hposts.trans (htrace posts),
        hafter.cons hdivides first⟩
    | _ => trivial
  · trivial

theorem Sends.congr {t : HttpState ρ} {run : Outcome SinkError EventAcknowledgement × HttpState ρ}
    (h : sink.Sends request events t run) (posts : posted t.trace = posted s.trace)
    (delivered : t.deliveredSeq = s.deliveredSeq) (cursor : t.cursor = s.cursor) :
    sink.Sends request events s run := by
  have hrecorded : ∀ posts u, Recorded request posts t u → Recorded request posts s u := by
    intro posts u hafter
    unfold Recorded at hafter ⊢
    rwa [delivered, cursor] at hafter
  rcases run with ⟨ack | failure | _, u⟩
  · obtain ⟨sent, hdivides, hsent, hafter⟩ := h
    exact ⟨sent, hdivides, posts ▸ hsent, hrecorded sent u hafter⟩
  · cases failure with
    | invalidFlush message =>
      obtain ⟨sent, event, rest, hdivides, hlong, hfirst, hsent, hafter⟩ := h
      exact ⟨sent, event, rest, hdivides, hlong, hfirst, posts ▸ hsent, hrecorded sent u hafter⟩
    | _ => trivial
  · trivial

theorem Sends.of_stopped {run : Outcome SinkError EventAcknowledgement × HttpState ρ}
    (h : Stopped run.1) : sink.Sends request events s run := by
  rcases run with ⟨ack | failure | _, u⟩
  · exact h.elim
  · cases failure with
    | invalidFlush message => exact absurd rfl (h message)
    | _ => trivial
  · trivial

/-- The turns of the loop, one batch each. -/
theorem publishLoop_sends (exact : sink.network.AcknowledgesExactly)
    (positive : 0 < sink.config.maxEventsPerBatch) (fuel : ℕ) (lastAck : EventAcknowledgement)
    (enough : events.length ≤ fuel) :
    sink.Sends request events s ((sink.publishLoop request fuel events lastAck).run s) := by
  induction fuel generalizing events lastAck s with
  | zero =>
    rw [List.length_eq_zero_iff.mp (Nat.le_zero.mp enough)]
    exact ⟨[], .nil, (List.append_nil _).symm, rfl, rfl⟩
  | succ fuel ih =>
    rcases events with _ | ⟨event, rest⟩
    · exact ⟨[], .nil, (List.append_nil _).symm, rfl, rfl⟩
    rw [publishLoop]
    rcases htake : takeBatch sink.encodedLen (event :: rest) sink.config.maxEventsPerBatch
      sink.config.maxBytesPerBatch with failure | batch
    · simp only [run_bind, run_ofExcept_error]
      rcases takeBatch_fails htake with ⟨message, rfl⟩ | hlong
      · trivial
      · cases failure with
        | invalidFlush message =>
          exact ⟨[], event, rest, .nil, hlong, fun _ hmem => absurd hmem List.not_mem_nil,
            (List.append_nil _).symm, rfl, rfl⟩
        | _ => trivial
    obtain ⟨hfits, left, hsplit, hfull⟩ := takeBatch_maximal positive htake
    have hleft : (event :: rest).drop batch.length = left := by rw [hsplit, List.drop_left]
    have hpos : 0 < batch.length := List.length_pos_iff.mpr hfits.nonempty
    have hlength := congrArg List.length hsplit
    rw [List.length_append] at hlength
    simp only [run_bind, run_ofExcept_ok, hleft]
    -- the batch is POSTed and recorded, or the loop ends here
    rcases @publishBatch_exact ρ sink request s batch exact left.isEmpty with
      ⟨ack, t, hrun, hposted, hrecorded⟩ | hstopped
    · rw [hrun, hsplit]
      exact (@ih t left ack (by omega)).cons hfits hfull rfl hposted hrecorded
    · rcases hrun : (sink.publishBatch request batch left.isEmpty).run s with ⟨ack | failure | _, t⟩
      · rw [hrun] at hstopped
        exact hstopped.elim
      · rw [hrun] at hstopped
        exact .of_stopped hstopped
      · trivial

def pending (request : EventPublishRequest) (delivered : Option ℕ) : List Event :=
  request.events.filter fun event => nextSeq delivered ≤ event.seq

theorem plan_refuse {already : Option ℕ} {failure : SinkError} (nonempty : request.events ≠ [])
    (h : plan request already = .refuse failure) : ∃ message, failure = .eventConflict message := by
  unfold plan at h
  split at h
  · next hempty => exact absurd hempty nonempty
  · split at h
    · next failure' hscattered =>
      rw [← Plan.refuse.inj h]
      exact validateContiguous_conflict hscattered
    · split at h
      · split at h
        · exact absurd h (by simp)
        · split_ifs at h
          exact ⟨_, (Plan.refuse.inj h).symm⟩
      · split_ifs at h
        exact ⟨_, (Plan.refuse.inj h).symm⟩

theorem plan_pending {already : Option ℕ} {remaining : List Event}
    (h : plan request already = .send remaining) : remaining = pending request already := by
  obtain ⟨-, hnumbered, skipped, hsplit, hskipped⟩ := plan_send h
  have hnone : skipped.filter (fun event => decide (nextSeq already ≤ event.seq)) = [] := by
    apply List.filter_eq_nil_iff.mpr
    intro event hevent
    have hlt := hskipped event hevent
    simpa using hlt
  have hall : remaining.filter (fun event => decide (nextSeq already ≤ event.seq)) = remaining := by
    apply List.filter_eq_self.mpr
    intro event hevent
    exact decide_eq_true (hnumbered.mem hevent).1
  unfold pending
  rw [hsplit, List.filter_append, hnone, hall, List.nil_append]

/-- A call at such a server posts what is pending in batches, each as large as the limits let it be;
it stops only at an event that is too long by itself, with all before it delivered. -/
theorem publish_events_divides (sink : HttpEventSink ρ) (request : EventPublishRequest)
    (s : HttpState ρ) (exact : sink.network.AcknowledgesExactly)
    (positive : 0 < sink.config.maxEventsPerBatch) (nonempty : request.events ≠ []) :
    sink.Sends request (pending request s.deliveredSeq) s ((sink.publishEvents request).run s) := by
  rw [publishEvents_run]
  rcases hplan : plan request s.deliveredSeq with failure | through | remaining
  · obtain ⟨message, rfl⟩ := plan_refuse nonempty hplan
    trivial
  · obtain ⟨hdelivered, hall⟩ := plan_delivered hplan
    have hnone : pending request s.deliveredSeq = [] := by
      apply List.filter_eq_nil_iff.mpr
      intro event hevent
      have hle := hall event hevent
      rw [hdelivered]
      simpa [nextSeq] using Nat.lt_succ_of_le hle
    rw [hnone]
    exact ⟨[], .nil, by rw [List.append_nil]; exact posted_called _ _, rfl, rfl⟩
  · have hsends := @publishLoop_sends ρ sink request (s.called request) remaining exact positive
      remaining.length ⟨s.deliveredSeq.getD 0 - 1, none⟩ le_rfl
    rw [plan_pending hplan] at hsends ⊢
    exact hsends.congr (posted_called _ _) rfl rfl

def attentive : Network Unit where
  post _ post := (some (.response ⟨200, "200 OK"⟩
    (.ok ⟨lastSeq post.body.events, post.body.durable.map DurableWatermark.seq⟩)), ())
  writeCursor _ _ := (.done, ())

def attentiveSink : HttpEventSink Unit where
  config := { exampleHttpSink.config with maxEventsPerBatch := 2 }
  encodedLen := exampleLen
  network := attentive

theorem attentive_exact : attentive.AcknowledgesExactly := by
  intro state post
  exact ⟨_, _, rfl, Or.inl ⟨by decide, by decide⟩, rfl⟩

theorem publish_events_divides_three :
    attentiveSink.Sends (exampleRequest 2 true) (pending (exampleRequest 2 true) none)
      (.created none .missing ())
      ((attentiveSink.publishEvents (exampleRequest 2 true)).run (.created none .missing ())) :=
  publish_events_divides attentiveSink (exampleRequest 2 true) (.created none .missing ())
    attentive_exact (by decide) (by decide)

end HttpEventSink
end Rrjj
