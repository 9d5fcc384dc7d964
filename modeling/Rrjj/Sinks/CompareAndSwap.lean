import Rrjj.Library.Trace
import Rrjj.Sinks.Convergence

/-! Other parties at the session ref: what a call does with the tip that it finds, against the
commit that the sink pushed last. -/

namespace Rrjj
open Library Library.Proc

namespace TipLookup

def tells : TipLookup → Bool
  | .path _ | .fetched _ => true
  | .unfetched message => fetchFailure message = .ok none
  | .unopened _ => false

def reads : TipLookup → Bool
  | .path read | .fetched read => read
  | .unfetched _ | .unopened _ => false

def leftover (lookup : TipLookup) (cache : Option String) : Option String :=
  match lookup with
  | .fetched true => cache
  | _ => none

def finds (lookup : TipLookup) (s : GitState) : Option String :=
  if lookup.reads then s.remote.or (lookup.leftover s.cache) else none

end TipLookup

structure GitAnswers.Observes (answers : GitAnswers) : Prop where
  opened : answers.opened = .ok ()
  parsed : answers.parsed = .ok ()
  found : answers.found = .ok ()
  referenced : answers.referenced = .ok ()
  tells : answers.lookup.tells = true

namespace GitCheckpointSink

/-- A call that publishes `commit` found the ref there already, or it moved it there from what
was pushed last. A ref that is anywhere else when it is looked up is a conflict, and stays. -/
structure ComparesAndSwaps (s : GitState) (commit : String) (observes : Prop)
    (ended : Outcome SinkError CheckpointPublication × GitState) : Prop where
  published : ∀ publication, ended.1 = .ok publication →
    s.remote = some commit ∨ s.remote = s.lastPushed ∧ ended.2.remote = some commit
  refused : observes → s.remote ≠ some commit → s.remote ≠ s.lastPushed →
    (∃ message, ended.1 = .error (.checkpointConflict message)) ∧
      ended.2.remote = s.remote ∧ ended.2.lastPushed = s.lastPushed

/-- A ref that is at no commit of the sink is read. A ref that is gone is seen to be, unless
nothing was pushed or an earlier fetch left a third commit. -/
structure Watchful (s : GitState) (commit : String) (lookup : TipLookup) : Prop where
  present : ∀ tip ∈ s.remote, tip ≠ commit → s.lastPushed ≠ some tip → lookup.reads = true
  absent : s.remote = none → lookup.leftover s.cache ≠ some commit ∧
    (s.lastPushed = none ∨ ∃ tip, lookup.leftover s.cache = some tip ∧ s.lastPushed ≠ some tip)

variable {sink : GitCheckpointSink} {s : GitState} {answers : GitAnswers} {commit : String}

theorem lookUpTip_tells {lookup : TipLookup} (tells : lookup.tells = true) :
    ∃ cache, (lookUpTip lookup).run s = (.ok (lookup.finds s), { s with cache := cache }) := by
  rcases lookup with read | read | message | message
  · refine ⟨s.cache, ?_⟩
    rcases read with _ | _
    · rfl
    · have hfinds : (TipLookup.path true).finds s = s.remote := Option.or_none
      rw [hfinds]
      rfl
  · refine ⟨s.remote.or s.cache, ?_⟩
    rcases read with _ | _
    · rfl
    · rfl
  · refine ⟨s.cache, ?_⟩
    have hnone : fetchFailure message = .ok none := of_decide_eq_true tells
    simp [lookUpTip, TipLookup.finds, TipLookup.reads, hnone]
  · exact absurd tells (by simp [TipLookup.tells])

theorem lookUpTip_silent {lookup : TipLookup} (silent : lookup.tells = false) :
    ∃ failure, (lookUpTip lookup).run s = (.error failure, s) := by
  rcases lookup with read | read | message | message
  · exact absurd silent (by simp [TipLookup.tells])
  · exact absurd silent (by simp [TipLookup.tells])
  · have hfails : fetchFailure message ≠ .ok none := of_decide_eq_false silent
    rcases hfailure : fetchFailure message with failure | tip
    · exact ⟨failure, by simp [lookUpTip, hfailure]⟩
    · -- a fetch that failed is an error or a missing ref
      have hmissing : tip = none := by
        unfold fetchFailure at hfailure
        split_ifs at hfailure
        exact (Except.ok.inj hfailure).symm
      exact absurd (hmissing ▸ hfailure) hfails
  · exact ⟨_, rfl⟩

def advance (sink : GitCheckpointSink) (answers : GitAnswers) (commit : String) :
    GitTask CheckpointPublication := do
  orFail answers.connected fun message => .failed s!"open git remote: {message}"
  sink.push answers commit
  return ⟨commit⟩

def compared (sink : GitCheckpointSink) (answers : GitAnswers) (commit : String)
    (tip prior : Option String) : GitTask CheckpointPublication := do
  match ← Proc.ofExcept (alreadyAt sink.config.sessionRef commit tip prior) with
  | true => return ⟨commit⟩
  | false => advance sink answers commit

theorem pushCheckpointFromShadow_observed (valid : checkSessionRef sink.config.sessionRef = .ok ())
    (observes : answers.Observes) (shadowRoot : String) (prior : Option String) :
    ∃ cache, (sink.pushCheckpointFromShadow answers shadowRoot commit prior).run s =
      (compared sink answers commit (answers.lookup.finds s) prior).run
        { s with localRef := some commit, cache := cache } := by
  have hprepared : (sink.prepare answers shadowRoot commit).run s =
      (.ok (), { s with localRef := some commit }) := by
    simp only [prepare, orFail, run_bind, valid, observes.opened, observes.parsed, observes.found,
      observes.referenced, run_ofExcept_ok, run_pure, run_modify]
  obtain ⟨cache, hlooked⟩ := @lookUpTip_tells { s with localRef := some commit } _ observes.tells
  refine ⟨cache, ?_⟩
  simp only [pushCheckpointFromShadow, run_bind, hprepared, hlooked]
  rfl

theorem pushCheckpointFromShadow_unobserved (unobserved : ¬ answers.Observes) (shadowRoot : String)
    (prior : Option String) : ∃ failure t,
      (sink.pushCheckpointFromShadow answers shadowRoot commit prior).run s = (.error failure, t) := by
  unfold pushCheckpointFromShadow prepare orFail
  rcases hvalid : checkSessionRef sink.config.sessionRef with failure | ⟨⟩
  · exact ⟨failure, s, by simp [run_bind]⟩
  rcases hopened : answers.opened with message | ⟨⟩
  · exact ⟨_, s, by simp [run_bind]; rfl⟩
  rcases hparsed : answers.parsed with message | ⟨⟩
  · exact ⟨_, s, by simp [run_bind]; rfl⟩
  rcases hfound : answers.found with message | ⟨⟩
  · exact ⟨_, s, by simp [run_bind]; rfl⟩
  rcases hreferenced : answers.referenced with message | ⟨⟩
  · exact ⟨_, s, by simp [run_bind]; rfl⟩
  rcases htells : answers.lookup.tells with _ | _
  · obtain ⟨failure, hlooked⟩ := @lookUpTip_silent { s with localRef := some commit } _ htells
    refine ⟨failure, { s with localRef := some commit }, ?_⟩
    simp only [run_bind, run_ofExcept_ok, run_pure, run_modify, hlooked]
  · exact absurd ⟨hopened, hparsed, hfound, hreferenced, htells⟩ unobserved

theorem push_lands {t : GitState} : Triple (fun v => v = t) (sink.push answers commit)
    (fun _ v => v = { t with remote := t.localRef })
    fun v => v.lastPushed = t.lastPushed := by
  unfold push
  refine Triple.bind (Q := fun _ v => ∃ remote, v = { t with remote := remote })
    (Triple.modify fun v hv => ⟨answers.others.getD t.remote, by rw [hv]⟩) fun _ => Triple.get fun u hu => ?_
  obtain ⟨remote, rfl⟩ := hu
  have hland : Triple (fun v : GitState => v = { t with remote := remote }) land
      (fun _ v => v = { t with remote := t.localRef }) (fun v => v.lastPushed = t.lastPushed) := by
    apply Triple.modify
    rintro v rfl
    rfl
  have hthrow : ∀ failure : SinkError, Triple (fun v : GitState => v = { t with remote := remote })
      (Proc.throw failure : GitTask Unit) (fun _ v => v = { t with remote := t.localRef })
      (fun v => v.lastPushed = t.lastPushed) := by
    intro failure
    apply Triple.throw
    rintro v rfl
    rfl
  split
  · split
    · exact hland
    · exact hthrow _
    · refine Triple.bind (Q := fun _ v => v.lastPushed = t.lastPushed) ?_ fun _ =>
        Triple.throw fun _ hv => hv
      split
      · exact hland.post fun _ v hv => by rw [hv]
      · exact Triple.pure fun v hv => by rw [hv]
  · split <;> exact hthrow _

theorem advance_lands {t : GitState} : Triple (fun v => v = t) (advance sink answers commit)
    (fun _ v => v.remote = t.localRef) fun _ => True := by
  have hconnected : Keeps (fun v => v = t) (orFail answers.connected fun message =>
      .failed s!"open git remote: {message}") := orFail_keeps _ _
  refine Triple.bind (hconnected.conseq (fun _ hv => hv) (fun _ _ hv => hv) fun _ _ => True.intro)
    fun _ => ?_
  refine Triple.bind (push_lands.conseq (fun _ hv => hv) (fun _ _ hv => hv) fun _ _ => True.intro)
    fun _ => ?_
  apply Triple.pure
  rintro v rfl
  rfl

theorem alreadyAt_ok {sessionRef : String} {tip prior : Option String} {found : Bool}
    (h : alreadyAt sessionRef commit tip prior = .ok found) :
    (found = true ↔ tip = some commit) ∧ ∀ other ∈ tip, other = commit ∨ prior = some other := by
  refine ⟨?_, alreadyAt_returns_iff.mp ⟨found, h⟩⟩
  unfold alreadyAt at h
  rcases tip with _ | tip
  · rw [← Except.ok.inj h]
    simp
  by_cases hcommit : tip = commit
  · rw [hcommit]
    simp only [hcommit, if_true] at h
    rw [← Except.ok.inj h]
    simp
  · simp only [hcommit, if_false] at h
    rcases prior with _ | expected
    · exact absurd h (by simp)
    · rw [← (ite_ok_iff.mp h).2]
      simp [hcommit]

theorem alreadyAt_error {sessionRef : String} {tip prior : Option String} {failure : SinkError}
    (h : alreadyAt sessionRef commit tip prior = .error failure) :
    ∃ message, failure = .checkpointConflict message := by
  unfold alreadyAt at h
  rcases tip with _ | tip
  · exact nomatch h
  dsimp only at h
  split at h
  · exact nomatch h
  rcases prior with _ | expected
  · exact ⟨_, (Except.error.inj h).symm⟩
  · dsimp only at h
    split at h
    · exact nomatch h
    · exact ⟨_, (Except.error.inj h).symm⟩

theorem leftover_unread {lookup : TipLookup} {cache : Option String} (h : lookup.reads = false) :
    lookup.leftover cache = none := by
  rcases lookup with read | read | message | message
  · rfl
  · have hread : read = false := h
    rw [hread]
    rfl
  · rfl
  · rfl

theorem Watchful.known {lookup : TipLookup} (watchful : Watchful s commit lookup)
    {sessionRef : String} {found : Bool}
    (h : alreadyAt sessionRef commit (lookup.finds s) s.lastPushed = .ok found) :
    (found = true → s.remote = some commit) ∧
      (s.remote = some commit ∨ s.remote = s.lastPushed) := by
  obtain ⟨hfound, hknown⟩ := alreadyAt_ok h
  rcases hremote : s.remote with _ | tip
  · obtain ⟨hstale, hpushed⟩ := watchful.absent hremote
    have hfinds : lookup.finds s = lookup.leftover s.cache := by
      rw [TipLookup.finds, hremote, Option.none_or]
      rcases hreads : lookup.reads with _ | _
      · exact (leftover_unread hreads).symm
      · rfl
    rw [hfinds] at hfound hknown
    refine ⟨fun htrue => absurd (hfound.mp htrue) hstale, Or.inr ?_⟩
    rcases hpushed with hnone | ⟨other, hother, hdiffers⟩
    · exact hnone.symm
    · -- an earlier fetch left a third commit, which is a conflict
      rcases hknown other hother with rfl | hprior
      · exact absurd hother hstale
      · exact absurd hprior hdiffers
  · by_cases hcommit : tip = commit
    · rw [hcommit]
      exact ⟨fun _ => rfl, Or.inl rfl⟩
    by_cases hprior : s.lastPushed = some tip
    · rw [hprior]
      refine ⟨fun htrue => ?_, Or.inr rfl⟩
      rcases hreads : lookup.reads with _ | _
      · have hnone : lookup.finds s = none := by simp [TipLookup.finds, hreads]
        exact nomatch hnone.symm.trans (hfound.mp htrue)
      · have hfinds : lookup.finds s = some tip := by simp [TipLookup.finds, hreads, hremote]
        exact hfinds.symm.trans (hfound.mp htrue)
    · have hreads := watchful.present tip hremote hcommit hprior
      have hfinds : lookup.finds s = some tip := by simp [TipLookup.finds, hreads, hremote]
      rcases hknown tip hfinds with hsame | hsame
      · exact absurd hsame hcommit
      · exact absurd hsame hprior

theorem publishCommit_failed {shadowRoot : String} {failure : SinkError} {t : GitState}
    (h : (sink.pushCheckpointFromShadow answers shadowRoot commit s.lastPushed).run s =
      (.error failure, t)) :
    (sink.publishCommit answers shadowRoot commit).run s =
      (.error (sink.config.sanitizedError failure), t) := by
  simp only [publishCommit, run_bind, run_get, attempt, h, run_throw]

theorem publishCommit_returned {shadowRoot : String} {publication : CheckpointPublication}
    {t : GitState} (h : (sink.pushCheckpointFromShadow answers shadowRoot commit s.lastPushed).run s =
      (.ok publication, t)) :
    ((sink.publishCommit answers shadowRoot commit).run s).2.remote = t.remote := by
  simp only [publishCommit, run_bind, run_get, attempt, h, run_modify, writePushedOid]
  rcases answers.cursor with _ | ⟨stored, message⟩ | stored <;> rfl

theorem Watchful.compares (valid : checkSessionRef sink.config.sessionRef = .ok ())
    (watchful : answers.lookup.tells = true → Watchful s commit answers.lookup) (shadowRoot : String) :
    ComparesAndSwaps s commit answers.Observes
      ((sink.publishCommit answers shadowRoot commit).run s) := by
  by_cases observes : answers.Observes
  swap
  · obtain ⟨failure, t, hfailed⟩ := @pushCheckpointFromShadow_unobserved sink s answers commit observes
      shadowRoot s.lastPushed
    rw [publishCommit_failed hfailed]
    exact ⟨fun _ h => (nomatch h), fun h => absurd h observes⟩
  obtain ⟨cache, hrun⟩ := @pushCheckpointFromShadow_observed sink s answers commit valid observes
    shadowRoot s.lastPushed
  set t : GitState := { s with localRef := some commit, cache := cache } with ht
  rcases halready : alreadyAt sink.config.sessionRef commit (answers.lookup.finds s) s.lastPushed with
    failure | found
  · obtain ⟨message, rfl⟩ := alreadyAt_error halready
    have hconflict : (sink.pushCheckpointFromShadow answers shadowRoot commit s.lastPushed).run s =
        (.error (.checkpointConflict message), t) := by
      simp only [hrun, compared, run_bind, halready, run_ofExcept_error]
    rw [publishCommit_failed hconflict]
    exact ⟨fun _ h => (nomatch h), fun _ _ _ => ⟨⟨_, rfl⟩, rfl, rfl⟩⟩
  obtain ⟨hthere, hknown⟩ := (watchful observes.tells).known halready
  have hrefused : ∀ {P : Prop}, s.remote ≠ some commit → s.remote ≠ s.lastPushed → P := by
    intro P hother hunknown
    exact absurd hknown (by simp [hother, hunknown])
  refine ⟨?_, fun _ => hrefused⟩
  intro publication hok
  -- what was found is the new commit, or the one that was pushed last
  rcases hknown with hthere | hpushed
  · exact Or.inl hthere
  rcases found with _ | _
  · have hend : (sink.pushCheckpointFromShadow answers shadowRoot commit s.lastPushed).run s =
        (advance sink answers commit).run t := by
      simp only [hrun, compared, run_bind, halready, run_ofExcept_ok]
    have hlands := @advance_lands sink answers commit t t rfl
    refine Or.inr ⟨hpushed, ?_⟩
    rcases hadvance : (advance sink answers commit).run t with ⟨result | failure | _, u⟩
    · rw [hadvance] at hend hlands
      rw [publishCommit_returned hend]
      exact hlands
    · rw [hadvance] at hend
      rw [publishCommit_failed hend] at hok
      exact nomatch hok
    · rw [hadvance] at hend
      simp only [publishCommit, run_bind, run_get, attempt, hend] at hok
      exact nomatch hok
  · exact Or.inl (hthere rfl)

def disconnected (lookup : TipLookup) : GitAnswers := { lookup := lookup, connected := .error "down" }

theorem observes_lookup {lookup : TipLookup} (tells : lookup.tells = true)
    (connected : Except String Unit) :
    GitAnswers.Observes { lookup := lookup, connected := connected } :=
  ⟨rfl, rfl, rfl, rfl, tells⟩

theorem disconnected_fails (valid : checkSessionRef sink.config.sessionRef = .ok ())
    {lookup : TipLookup} (tells : lookup.tells = true) (shadowRoot : String)
    (goes : alreadyAt sink.config.sessionRef commit (lookup.finds s) s.lastPushed = .ok false)
    (message : String) : ((sink.publishCommit (disconnected lookup) shadowRoot commit).run s).1 ≠
      .error (.checkpointConflict message) := by
  obtain ⟨cache, hrun⟩ := @pushCheckpointFromShadow_observed sink s (disconnected lookup) commit valid
    (observes_lookup tells _) shadowRoot s.lastPushed
  have hfailed : (sink.pushCheckpointFromShadow (disconnected lookup) shadowRoot commit s.lastPushed).run s =
      (.error (.failed "open git remote: down"), { s with localRef := some commit, cache := cache }) := by
    have hgoes : alreadyAt sink.config.sessionRef commit ((disconnected lookup).lookup.finds s)
        s.lastPushed = .ok false := goes
    have hadvance : ∀ t, (advance sink (disconnected lookup) commit).run t =
        (.error (.failed "open git remote: down"), t) := fun _ => rfl
    simp only [hrun, compared, run_bind, hgoes, run_ofExcept_ok, hadvance]
  rw [publishCommit_failed hfailed]
  exact nofun

theorem Watchful.of_compares (valid : checkSessionRef sink.config.sessionRef = .ok ())
    {lookup : TipLookup} (tells : lookup.tells = true) (shadowRoot : String)
    (compares : ∀ answers : GitAnswers, answers.lookup = lookup →
      ComparesAndSwaps s commit answers.Observes
        ((sink.publishCommit answers shadowRoot commit).run s)) : Watchful s commit lookup := by
  have hdisconnected := compares (disconnected lookup) rfl
  have hobserves := observes_lookup tells (.error "down")
  have hstops : s.remote ≠ some commit → s.remote ≠ s.lastPushed →
      alreadyAt sink.config.sessionRef commit (lookup.finds s) s.lastPushed ≠ .ok false := by
    intro hother hunknown hgoes
    obtain ⟨⟨message, hconflict⟩, -⟩ := hdisconnected.refused hobserves hother hunknown
    exact disconnected_fails valid tells shadowRoot hgoes message hconflict
  constructor
  · intro tip htip hcommit hprior
    have hremote : s.remote = some tip := htip
    by_contra hreads
    have hnone : lookup.finds s = none := by simp [TipLookup.finds, hreads]
    apply hstops
    · rw [hremote]
      exact fun hsame => hcommit (Option.some.inj hsame)
    · rw [hremote]
      exact fun hsame => hprior hsame.symm
    · rw [hnone]
      rfl
  · intro hremote
    have hfinds : lookup.finds s = lookup.leftover s.cache := by
      rw [TipLookup.finds, hremote, Option.none_or]
      rcases hreads : lookup.reads with _ | _
      · exact (leftover_unread hreads).symm
      · rfl
    have hstale : lookup.leftover s.cache ≠ some commit := by
      -- the commit is taken to be published, and it is not
      intro hleft
      obtain ⟨cache, hrun⟩ := @pushCheckpointFromShadow_observed sink s { lookup := lookup } commit valid
        (observes_lookup tells _) shadowRoot s.lastPushed
      have hthere : alreadyAt sink.config.sessionRef commit
          (({ lookup := lookup } : GitAnswers).lookup.finds s) s.lastPushed = .ok true := by
        change alreadyAt _ _ (lookup.finds s) _ = _
        rw [hfinds, hleft]
        exact if_pos rfl
      have hreturned :
          (sink.pushCheckpointFromShadow { lookup := lookup } shadowRoot commit s.lastPushed).run s =
            (.ok ⟨commit⟩, { s with localRef := some commit, cache := cache }) := by
        simp only [hrun, compared, run_bind, hthere, run_ofExcept_ok, run_pure]
      have hok : ((sink.publishCommit { lookup := lookup } shadowRoot commit).run s).1 = .ok ⟨commit⟩ := by
        simp only [publishCommit, run_bind, run_get, attempt, hreturned, run_modify, writePushedOid, run_pure]
      rcases (compares { lookup := lookup } rfl).published _ hok with hsame | ⟨-, hsame⟩
      · cases hremote.symm.trans hsame
      · rw [publishCommit_returned hreturned] at hsame
        cases hremote.symm.trans hsame
    refine ⟨hstale, ?_⟩
    by_contra hdeleted
    obtain ⟨hpushed, hknown⟩ := not_or.mp hdeleted
    apply hstops
    · rw [hremote]
      simp
    · rw [hremote]
      exact fun hnone => hpushed hnone.symm
    · rw [hfinds]
      rcases hleft : lookup.leftover s.cache with _ | tip
      · rfl
      · have hcommit : tip ≠ commit := fun hsame => hstale (hsame ▸ hleft)
        have hprior : s.lastPushed = some tip := by
          by_contra hother
          exact hknown ⟨tip, hleft, hother⟩
        simp [alreadyAt, hcommit, hprior]

/-- What happens to a session ref: another party creates, moves or deletes it, the sink
publishes a checkpoint, or a new sink is created on the cursor file. -/
inductive GitAction where
  | moved (tip : Option String)
  | published (answers : GitAnswers) (request : CheckpointRequest)
  | restarted

def act (sink : GitCheckpointSink) (s : GitState) : GitAction → GitState
  | .moved tip => { s with remote := tip }
  | .published answers request => ((sink.publishCheckpoint answers request).run s).2
  | .restarted =>
    match sink.config.create s.cursor with
    | .ok pushed => { s with lastPushed := pushed }
    | .error _ => s

/-- `P` holds of every call of a run, of the state in which it is made and of its lookup. -/
def EveryCall (sink : GitCheckpointSink) (start : GitState)
    (P : GitState → TipLookup → CheckpointRequest → String → Prop) (actions : List GitAction) : Prop :=
  AtEvery (fun before action => ∀ answers request commit, action = .published answers request →
    normalizeCommitOid request.commit = .ok commit → answers.lookup.tells = true →
      P (before.foldl sink.act start) answers.lookup request commit) actions

theorem EveryCall.snoc {P : GitState → TipLookup → CheckpointRequest → String → Prop}
    {start : GitState} {before : List GitAction} (h : EveryCall sink start P before)
    {answers : GitAnswers} {request : CheckpointRequest}
    (call : ∀ commit, normalizeCommitOid request.commit = .ok commit →
      P (before.foldl sink.act start) answers.lookup request commit) :
    EveryCall sink start P (before ++ [.published answers request]) := by
  apply AtEvery.snoc h
  intro other otherRequest commit haction normal _
  obtain ⟨rfl, rfl⟩ := GitAction.published.inj haction
  exact call commit normal

/-- In a run among other parties, every call compares and swaps, whatever its later steps answer
and others do meanwhile, exactly when every call is watchful. -/
theorem calls_compare_and_swap_iff {sink : GitCheckpointSink} {file : PushedFile}
    {pushed : Option String} (created : sink.config.create file = .ok pushed) (start : GitState)
    (actions : List GitAction) :
    EveryCall sink start (fun s lookup request commit => ∀ answers : GitAnswers,
        answers.lookup = lookup → ComparesAndSwaps s commit answers.Observes
          ((sink.publishCheckpoint answers request).run s)) actions ↔
      EveryCall sink start (fun s lookup _ commit => Watchful s commit lookup) actions := by
  have hvalid : checkSessionRef sink.config.sessionRef = .ok () :=
    GitCheckpointConfig.sessionRef_checked (GitCheckpointConfig.create_ok created).1
  have hcall : ∀ {s : GitState} {lookup : TipLookup} {request : CheckpointRequest} {commit : String},
      normalizeCommitOid request.commit = .ok commit → lookup.tells = true →
      ((∀ answers : GitAnswers, answers.lookup = lookup → ComparesAndSwaps s commit answers.Observes
        ((sink.publishCheckpoint answers request).run s)) ↔ Watchful s commit lookup) := by
    intro s lookup request commit normal tells
    constructor
    · intro compares
      apply Watchful.of_compares hvalid tells request.shadowRoot
      intro answers hlookup
      rw [← publishCheckpoint_run normal]
      exact compares answers hlookup
    · intro watchful answers hlookup
      rw [publishCheckpoint_run normal]
      exact Watchful.compares hvalid (fun _ => hlookup ▸ watchful) request.shadowRoot
  constructor
  · intro h
    refine h.mono fun before action hbefore answers request commit haction normal tells => ?_
    exact (hcall normal tells).mp (hbefore answers request commit haction normal tells)
  · intro h
    refine h.mono fun before action hbefore answers request commit haction normal tells => ?_
    exact (hcall normal tells).mpr (hbefore answers request commit haction normal tells)

/-- Two checkpoints are published, and nobody else is there. -/
theorem calls_compare_and_swap_alone :
    EveryCall gitSink unpublished (fun s lookup request commit => ∀ answers : GitAnswers,
        answers.lookup = lookup → ComparesAndSwaps s commit answers.Observes
          ((gitSink.publishCheckpoint answers request).run s))
      [.published {} (commitRequest olderCommit), .published {} (commitRequest newerCommit)] := by
  refine (calls_compare_and_swap_iff gitConfig_created unpublished _).mpr ?_
  have hafter : gitSink.act unpublished (.published {} (commitRequest olderCommit)) =
      ⟨some olderCommit, .pushed (some olderCommit), some olderCommit, none, some olderCommit⟩ := by
    decide +kernel
  have hnone : EveryCall gitSink unpublished (fun s lookup _ commit => Watchful s commit lookup) [] :=
    atEvery_nil
  have hfirst := @EveryCall.snoc _ _ _ _ hnone {} (commitRequest olderCommit) fun commit _ =>
    ⟨fun tip htip => (nomatch htip), fun _ => ⟨nofun, Or.inl rfl⟩⟩
  refine @EveryCall.snoc _ _ _ _ hfirst {} (commitRequest newerCommit) fun commit _ => ?_
  rw [List.nil_append, List.foldl_cons, List.foldl_nil, hafter]
  exact ⟨fun _ _ _ _ => rfl, fun h => nomatch h⟩

/-- The ref is deleted after a push, and the next call creates it again. -/
theorem deleted_ref_is_recreated :
    ¬ ∀ (sink : GitCheckpointSink) (file : PushedFile) (pushed : Option String) (start : GitState)
      (actions : List GitAction), sink.config.create file = .ok pushed →
      AtEvery (fun before action => ∀ answers request commit, action = .published answers request →
        normalizeCommitOid request.commit = .ok commit →
        ComparesAndSwaps (before.foldl sink.act start) commit answers.Observes
          ((sink.publishCheckpoint answers request).run (before.foldl sink.act start))) actions := by
  intro h
  have hcall := h gitSink .missing none unpublished
    [.published {} (commitRequest olderCommit), .moved none, .published {} (commitRequest newerCommit)]
    gitConfig_created [.published {} (commitRequest olderCommit), .moved none] _ [] rfl {}
    (commitRequest newerCommit) newerCommit rfl newerCommit_normal
  have hdeleted : [GitAction.published {} (commitRequest olderCommit), .moved none].foldl gitSink.act
      unpublished = ⟨some olderCommit, .pushed (some olderCommit), some olderCommit, none, none⟩ := by
    decide +kernel
  rw [hdeleted] at hcall
  have hobserves : ({} : GitAnswers).Observes := ⟨rfl, rfl, rfl, rfl, rfl⟩
  have hpublished : ((gitSink.publishCheckpoint {} (commitRequest newerCommit)).run
      ⟨some olderCommit, .pushed (some olderCommit), some olderCommit, none, none⟩).2.remote =
        some newerCommit := by decide +kernel
  have hstays := (hcall.refused hobserves nofun nofun).2.1
  rw [hpublished] at hstays
  exact nomatch hstays

end GitCheckpointSink
end Rrjj
