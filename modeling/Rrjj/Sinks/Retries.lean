import Rrjj.Sinks.HttpRules

/-! The attempts of a POST, counted as the source counts them: how the loop ends for every
sequence of outcomes. -/

namespace Rrjj
open Library Library.Proc

namespace HttpEventSink
variable {ρ : Type} (sink : HttpEventSink ρ)

/-- The loop of `post_batch` with its counter of attempts, a `u32`, for as many turns as there
is fuel. -/
def countedLoop (post : HttpPost) : ℕ → UInt32 → HttpTask ρ (Option EventAcknowledgement)
  | 0, _ => pure none
  | fuel + 1, attempts => do
    let attempt := attempts + 1
    match ← sink.tryPost post with
    | .ok ack => pure (some ack)
    | .error exhausted =>
      if sink.config.maxRetries < attempt.toNat then throw exhausted
      else countedLoop post fuel attempt

def batchPost (request : EventPublishRequest) (events : List Event)
    (durable : Option DurableWatermark) : HttpPost where
  url := sink.config.url
  authorization := sink.config.authorization
  body :=
    { schemaVersion := request.schemaVersion
      sessionId := request.sessionId
      events := events
      durable := durable }

variable {sink} {post : HttpPost} {retries : ℕ}

/-- As long as the counter does not overflow, it counts the retries that are left. -/
theorem countedLoop_eq {attempts : UInt32} (bounded : sink.config.maxRetries < 2 ^ 32 - 1)
    (left : attempts.toNat + retries = sink.config.maxRetries) {fuel : ℕ} (enough : retries < fuel) :
    sink.countedLoop post fuel attempts = some <$> sink.postLoop post retries := by
  induction retries generalizing attempts fuel with
  | zero =>
    obtain ⟨fuel, rfl⟩ := Nat.exists_eq_succ_of_ne_zero (Nat.ne_of_gt enough)
    have hattempt : (attempts + 1).toNat = attempts.toNat + 1 := by
      rw [UInt32.toNat_add, UInt32.toNat_one]
      omega
    have hlast : sink.config.maxRetries < (attempts + 1).toNat := by omega
    rw [countedLoop, postLoop, map_bind]
    congr 1
    funext result
    rcases result with exhausted | ack
    · show (if sink.config.maxRetries < (attempts + 1).toNat then throw exhausted else _) = _
      rw [if_pos hlast]
      rfl
    · rfl
  | succ retries ih =>
    obtain ⟨fuel, rfl⟩ := Nat.exists_eq_succ_of_ne_zero (Nat.ne_of_gt (Nat.zero_lt_of_lt enough))
    have hattempt : (attempts + 1).toNat = attempts.toNat + 1 := by
      rw [UInt32.toNat_add, UInt32.toNat_one]
      omega
    have hmore : ¬ sink.config.maxRetries < (attempts + 1).toNat := by omega
    rw [countedLoop, postLoop, map_bind]
    congr 1
    funext result
    rcases result with exhausted | ack
    · show (if sink.config.maxRetries < (attempts + 1).toNat then throw exhausted else _) = _
      rw [if_neg hmore]
      exact ih (by omega) (by omega)
    · rfl

end HttpEventSink

def Network.scripted (outcomes : ℕ → HttpReply) : Network ℕ where
  post turn _ := (some (outcomes turn), turn + 1)
  writeCursor turn _ := (.done, turn)

abbrev HttpEventSink.scripted (config : HttpEventConfig) (encodedLen : Event → Except String ℕ)
    (outcomes : ℕ → HttpReply) : HttpEventSink ℕ :=
  ⟨config, encodedLen, .scripted outcomes⟩

def HttpReply.Again : HttpReply → Prop
  | .sendError _ => True
  | .bodyError _ _ => False
  | .response status _ => status.code = 429 ∨ 500 ≤ status.code ∧ status.code < 600

def HttpReply.Proves (body : HttpEventBatch) (ack : EventAcknowledgement) (reply : HttpReply) : Prop :=
  ∃ status, reply = .response status (.ok ack) ∧
    (200 ≤ status.code ∧ status.code < 300 ∨ status.code = 409) ∧ Valid ack body

def HttpReply.Disputes (body : HttpEventBatch) (reply : HttpReply) : Prop :=
  ∃ status answer, reply = .response status answer ∧ status.code = 409 ∧
    ∀ ack, answer = .ok ack → ¬ Valid ack body

def FirstEnd (outcomes : ℕ → HttpReply) (index : ℕ) : Prop :=
  (∀ earlier < index, (outcomes earlier).Again) ∧ ¬ (outcomes index).Again

theorem FirstEnd.unique {outcomes : ℕ → HttpReply} {a b : ℕ} (ha : FirstEnd outcomes a)
    (hb : FirstEnd outcomes b) : a = b := by
  rcases Nat.lt_trichotomy a b with hlt | heq | hgt
  · exact absurd (hb.1 a hlt) ha.2
  · exact heq
  · exact absurd (ha.1 b hgt) hb.2

theorem HttpReply.Proves.not_again {body : HttpEventBatch} {ack : EventAcknowledgement} {reply : HttpReply}
    (h : reply.Proves body ack) : ¬ reply.Again := by
  obtain ⟨status, rfl, hcode, -⟩ := h
  show ¬ (_ ∨ _)
  omega

theorem classifyHttpStatus_retryable {code : ℕ} :
    classifyHttpStatus code = .retryable ↔ code = 429 ∨ 500 ≤ code ∧ code < 600 := by
  unfold classifyHttpStatus
  split_ifs with hsuccess hconflict hretryable
  · simp only [false_iff]
    omega
  · simp only [false_iff]
    omega
  · simpa using hretryable
  · simpa using hretryable

theorem classifyHttpStatus_answer {code : ℕ} :
    classifyHttpStatus code = .success ∨ classifyHttpStatus code = .conflict ↔
      200 ≤ code ∧ code < 300 ∨ code = 409 := by
  unfold classifyHttpStatus
  split_ifs with hsuccess hconflict hretryable <;> simp <;> omega

theorem acknowledgement_iff {body : HttpEventBatch} {reply : HttpReply} {ack : EventAcknowledgement} :
    reply.acknowledgement body = some ack ↔ reply.Proves body ack := by
  unfold HttpReply.Proves
  rcases reply with message | ⟨status, message⟩ | ⟨status, message | answer⟩
  · simp [HttpReply.acknowledgement]
  · simp [HttpReply.acknowledgement]
  · simp [HttpReply.acknowledgement]
  · simp only [HttpReply.acknowledgement, classifyHttpStatus_answer, HttpReply.response.injEq,
      Except.ok.injEq]
    constructor
    · intro h
      split_ifs at h with hvalid
      rw [← Option.some.inj h]
      exact ⟨status, ⟨rfl, rfl⟩, hvalid⟩
    · intro h
      obtain ⟨other, ⟨rfl, rfl⟩, hvalid⟩ := h
      exact if_pos hvalid

namespace HttpEventSink
variable {config : HttpEventConfig} {encodedLen : Event → Except String ℕ} {outcomes : ℕ → HttpReply}
  {post : HttpPost} {s : HttpState ℕ}

def afterPosts (outcomes : ℕ → HttpReply) (post : HttpPost) (count : ℕ) (s : HttpState ℕ) :
    HttpState ℕ :=
  { s with
    network := s.network + count
    trace := s.trace ++
      (List.range count).map fun i => .posted post (some (outcomes (s.network + i))) }

theorem afterPosts_succ (count : ℕ) :
    afterPosts outcomes post (count + 1) s =
      afterPosts outcomes post count (afterPosts outcomes post 1 s) := by
  have hposts : (List.range (count + 1)).map
        (fun i => HttpLabel.posted post (some (outcomes (s.network + i)))) =
      .posted post (some (outcomes s.network)) :: (List.range count).map
        (fun i => .posted post (some (outcomes (s.network + 1 + i)))) := by
    rw [List.range_succ_eq_map, List.map_cons, List.map_map, Nat.add_zero]
    congr 1
    apply List.map_congr_left
    intro i _
    rw [Function.comp_apply, Nat.succ_eq_add_one, Nat.add_assoc, Nat.add_comm 1]
  unfold afterPosts
  rw [hposts]
  simp [Nat.add_assoc, Nat.add_comm 1]

def concluded : Verdict → Outcome SinkError EventAcknowledgement
  | .accept ack => .ok ack
  | .fail failure => .error failure
  | .retry exhausted => .error exhausted

section
variable {ρ : Type} {sink : HttpEventSink ρ} {reply : HttpReply} {t : HttpState ρ}

theorem tryPost_reply (h : (sink.network.post t.network post).1 = some reply) :
    (sink.tryPost post).run t =
      (match sink.judge post.body reply with
        | .accept ack => .ok (.ok ack)
        | .fail failure => .error failure
        | .retry exhausted => .ok (.error exhausted), sink.answered post t) := by
  have hsend : (sink.send post).run t = (.ok reply, sink.answered post t) := by
    simp only [send, run_bind, run_get, run_modify, run_pure, h, answered]
  unfold tryPost
  rw [run_bind, hsend]
  rcases hjudge : sink.judge post.body reply with ack | failure | exhausted
  · simp only [hjudge, run_pure]
  · simp only [hjudge, run_throw]
  · simp only [hjudge, run_pure]

theorem postLoop_once (h : (sink.network.post t.network post).1 = some reply)
    (ends : ∀ exhausted, sink.judge post.body reply ≠ .retry exhausted) (retries : ℕ) :
    (sink.postLoop post retries).run t =
      (concluded (sink.judge post.body reply), sink.answered post t) := by
  rcases hjudge : sink.judge post.body reply with ack | failure | exhausted
  · rcases retries with _ | retries <;> simp only [postLoop, run_bind, tryPost_reply h, hjudge] <;> rfl
  · rcases retries with _ | retries <;> simp only [postLoop, run_bind, tryPost_reply h, hjudge] <;> rfl
  · exact absurd hjudge (ends exhausted)

end

theorem judge_again {sink : HttpEventSink ℕ} {body : HttpEventBatch} {reply : HttpReply} :
    reply.Again ↔ ∃ exhausted, sink.judge body reply = .retry exhausted := by
  unfold judge
  rcases reply with message | ⟨status, message⟩ | ⟨status, answer⟩
  · simp [HttpReply.Again]
  · simp [HttpReply.Again]
  · show _ ∨ _ ↔ _
    rw [← classifyHttpStatus_retryable]
    rcases answer with message | ack
    · rcases hclass : classifyHttpStatus status.code <;> simp [hclass]
    · rcases hack : validateAck ack body.events body.durable with failure | done
      · rcases hclass : classifyHttpStatus status.code <;> simp [hclass, hack]
      · rcases hclass : classifyHttpStatus status.code <;> simp [hclass, hack]

theorem tryPost_run :
    ((scripted config encodedLen outcomes).tryPost post).run s =
      (match (scripted config encodedLen outcomes).judge post.body
          (outcomes s.network) with
        | .accept ack => .ok (.ok ack)
        | .fail failure => .error failure
        | .retry exhausted => .ok (.error exhausted), afterPosts outcomes post 1 s) :=
  tryPost_reply rfl

theorem postLoop_run (retries : ℕ) :
    ∃ last ≤ retries, (∀ earlier < last, (outcomes (s.network + earlier)).Again) ∧
      ((outcomes (s.network + last)).Again → last = retries) ∧
      ((scripted config encodedLen outcomes).postLoop post retries).run s =
        (concluded ((scripted config encodedLen outcomes).judge post.body
          (outcomes (s.network + last))), afterPosts outcomes post (last + 1) s) := by
  induction retries generalizing s with
  | zero =>
    refine ⟨0, le_rfl, fun earlier h => absurd h (Nat.not_lt_zero earlier), fun _ => rfl, ?_⟩
    rw [postLoop, run_bind, tryPost_run, Nat.add_zero]
    rcases (scripted config encodedLen outcomes).judge post.body
      (outcomes s.network) with ack | failure | exhausted <;> rfl
  | succ retries ih =>
    have hstep : ((scripted config encodedLen outcomes).postLoop post
        (retries + 1)).run s =
        match (scripted config encodedLen outcomes).judge post.body
            (outcomes s.network) with
        | .accept ack => (.ok ack, afterPosts outcomes post 1 s)
        | .fail failure => (.error failure, afterPosts outcomes post 1 s)
        | .retry _ => ((scripted config encodedLen outcomes).postLoop post
            retries).run (afterPosts outcomes post 1 s) := by
      rw [postLoop, run_bind, tryPost_run]
      rcases (scripted config encodedLen outcomes).judge post.body
        (outcomes s.network) with ack | failure | exhausted <;> rfl
    -- the loop goes on exactly after an outcome that asks for another attempt
    by_cases hagain : (outcomes s.network).Again
    · obtain ⟨exhausted, hjudge⟩ := judge_again.mp hagain
      obtain ⟨last, hle, hbefore, hlast, hrun⟩ := @ih (afterPosts outcomes post 1 s)
      have hnetwork : ∀ index, (afterPosts outcomes post 1 s).network + index =
          s.network + (index + 1) := by
        intro index
        show s.network + 1 + index = s.network + (index + 1)
        omega
      rw [hnetwork] at hlast hrun
      refine ⟨last + 1, by omega, ?_, fun h => congrArg (· + 1) (hlast h), ?_⟩
      · intro earlier hearlier
        rcases earlier with _ | earlier
        · exact hagain
        · rw [← hnetwork]
          exact hbefore earlier (by omega)
      · rw [hstep, hjudge, hrun, ← afterPosts_succ]
    · refine ⟨0, Nat.zero_le _, fun earlier h => absurd h (Nat.not_lt_zero earlier), ?_, ?_⟩
      · intro h
        exact absurd h hagain
      · rw [hstep, Nat.add_zero]
        rcases hjudge : (scripted config encodedLen outcomes).judge post.body
          (outcomes s.network) with ack | failure | exhausted
        · rfl
        · rfl
        · exact absurd (judge_again.mpr ⟨exhausted, hjudge⟩) hagain

theorem countedLoop_postBatch {ρ : Type} {sink : HttpEventSink ρ} {request : EventPublishRequest}
    {events : List Event} {durable : Option DurableWatermark}
    (bounded : sink.config.maxRetries < 2 ^ 32 - 1) {fuel : ℕ} (enough : sink.config.maxRetries < fuel) :
    sink.countedLoop (sink.batchPost request events durable) fuel 0 =
      some <$> sink.postBatch request events durable :=
  countedLoop_eq bounded (Nat.zero_add _) enough

/-- How the attempts at a batch end: a bounded number of POSTs of this batch, with success exactly
when the first outcome that ends them proves that the batch is there. -/
structure Tried (outcomes : ℕ → HttpReply) (post : HttpPost) (maxRetries : ℕ) (s : HttpState ℕ)
    (run : Outcome SinkError (Option EventAcknowledgement) × HttpState ℕ) : Prop where
  posts : ∃ count, 0 < count ∧ count ≤ maxRetries + 1 ∧ run.2 = afterPosts outcomes post count s
  ends : (∃ ack, run.1 = .ok (some ack)) ∨ ∃ failure, run.1 = .error failure
  accepts : ∀ ack, run.1 = .ok (some ack) ↔ ∃ last ≤ maxRetries,
    FirstEnd (fun i => outcomes (s.network + i)) last ∧
      (outcomes (s.network + last)).Proves post.body ack
  disputes : ∀ last ≤ maxRetries, FirstEnd (fun i => outcomes (s.network + i)) last →
    (outcomes (s.network + last)).Disputes post.body → ∃ message, run.1 = .error (.eventConflict message)

theorem judge_disputes {sink : HttpEventSink ℕ} {body : HttpEventBatch} {reply : HttpReply}
    (h : reply.Disputes body) : ∃ message, sink.judge body reply = .fail (.eventConflict message) := by
  obtain ⟨status, answer, rfl, hcode, hinvalid⟩ := h
  have hclass : classifyHttpStatus status.code = .conflict := by
    rw [hcode]
    rfl
  unfold judge
  rcases answer with message | ack
  · simp [hclass]
  · have hrefused : validateAck ack body.events body.durable ≠ .ok () := by
      intro hok
      exact hinvalid ack rfl (validateAck_ok_iff.mp hok)
    rcases hack : validateAck ack body.events body.durable with failure | done
    · simp [hclass, hack]
    · exact absurd hack hrefused

/-- For every sequence of outcomes, whatever number of retries the counter can hold. -/
theorem post_batch_ends (config : HttpEventConfig) (encodedLen : Event → Except String ℕ)
    (outcomes : ℕ → HttpReply) (request : EventPublishRequest) (first : Event) (rest : List Event)
    (durable : Option DurableWatermark) (s : HttpState ℕ) (fuel : ℕ)
    (bounded : config.maxRetries < 2 ^ 32 - 1) (enough : config.maxRetries < fuel) :
    Tried outcomes ((scripted config encodedLen outcomes).batchPost request (first :: rest) durable)
      config.maxRetries s
      (((scripted config encodedLen outcomes).countedLoop
        ((scripted config encodedLen outcomes).batchPost request (first :: rest) durable) fuel 0).run s) := by
  set sink := scripted config encodedLen outcomes with hsink
  set post := sink.batchPost request (first :: rest) durable with hpost
  obtain ⟨last, hle, hbefore, hlast, hloop⟩ :=
    @postLoop_run config encodedLen outcomes post s config.maxRetries
  have hcounted : sink.countedLoop post fuel 0 = some <$> sink.postLoop post config.maxRetries :=
    countedLoop_eq bounded (Nat.zero_add _) enough
  have hrun : (sink.countedLoop post fuel 0).run s =
      (match concluded (sink.judge post.body (outcomes (s.network + last))) with
        | .ok ack => .ok (some ack)
        | .error failure => .error failure
        | .cut => .cut, afterPosts outcomes post (last + 1) s) := by
    rw [hcounted, map_eq_pure_bind, run_bind, hloop]
    rcases sink.judge post.body (outcomes (s.network + last)) with ack | failure | exhausted <;> rfl
  -- the outcome at which the loop stopped is the first end, if there is one among these attempts
  have hend : ∀ index ≤ config.maxRetries, FirstEnd (fun i => outcomes (s.network + i)) index →
      index = last := by
    intro index hindex hfirst
    by_cases hagain : (outcomes (s.network + last)).Again
    · rcases Nat.lt_or_ge index last with hlt | hge
      · exact absurd (hbefore index hlt) hfirst.2
      · have hsame := hlast hagain
        omega
    · exact hfirst.unique ⟨hbefore, hagain⟩
  rw [hrun]
  refine ⟨⟨last + 1, Nat.succ_pos last, by omega, rfl⟩, ?_, ?_, ?_⟩
  · rcases sink.judge post.body (outcomes (s.network + last)) with ack | failure | exhausted
    · exact Or.inl ⟨ack, rfl⟩
    · exact Or.inr ⟨failure, rfl⟩
    · exact Or.inr ⟨exhausted, rfl⟩
  · intro ack
    have haccept : (match concluded (sink.judge post.body (outcomes (s.network + last))) with
        | .ok ack => (.ok (some ack) : Outcome SinkError (Option EventAcknowledgement))
        | .error failure => .error failure
        | .cut => .cut) = .ok (some ack) ↔ (outcomes (s.network + last)).Proves post.body ack := by
      rw [← acknowledgement_iff, ← @judge_accept_iff _ sink]
      rcases sink.judge post.body (outcomes (s.network + last)) with other | failure | exhausted <;>
        simp [concluded]
    rw [haccept]
    constructor
    · intro hproves
      exact ⟨last, hle, ⟨hbefore, hproves.not_again⟩, hproves⟩
    · rintro ⟨index, hindex, hfirst, hproves⟩
      rw [← hend index hindex hfirst]
      exact hproves
  · intro index hindex hfirst hdisputes
    rw [hend index hindex hfirst] at hdisputes
    obtain ⟨message, hjudge⟩ := @judge_disputes sink _ _ hdisputes
    rw [hjudge]
    exact ⟨message, rfl⟩

def patientConfig : HttpEventConfig where
  url := "http://localhost/events"
  authorization := none
  maxEventsPerBatch := 1
  maxBytesPerBatch := 1000
  cursorPath := "cursor.json"
  maxRetries := 1

def patientServer (turn : ℕ) : HttpReply :=
  if turn = 0 then .sendError "connection refused" else .response ⟨200, "200 OK"⟩ (.ok ⟨0, none⟩)

def patientEvent : Event := .new "s" 0 "2026-01-01T00:00:00.000Z" (.flush ⟨"op:a", 0⟩)

abbrev patientSink : HttpEventSink ℕ := scripted patientConfig (fun _ => .ok 116) patientServer

abbrev patientPost : HttpPost := patientSink.batchPost ⟨"s", 0, [patientEvent], none⟩ [patientEvent] none

theorem post_batch_ends_patient :
    Tried patientServer patientPost 1 (.created none .missing 0)
      (.ok (some ⟨0, none⟩), afterPosts patientServer patientPost 2 (.created none .missing 0)) :=
  post_batch_ends patientConfig (fun _ => .ok 116) patientServer ⟨"s", 0, [patientEvent], none⟩
    patientEvent [] none (.created none .missing 0) 2 (by decide) (by decide)

end HttpEventSink
end Rrjj
