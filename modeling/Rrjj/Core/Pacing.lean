import Rrjj.Core.Scheduling

/-! The pace of the watcher's retries. Its next snapshot is due at the retry timer or at the deadline of
the accumulator, whichever comes first, and a snapshot that fails need not have drained the
accumulator. -/

namespace Rrjj

theorem computeDue_retry {delays : WatchDelays} {paused : Bool} {audit : AuditState} {retry due : ℕ}
    (h : computeDue delays paused audit (some retry) = some due) :
    due = retry ∨ paused = false ∧ audit.deadline delays.quiescence delays.maxDelay = some due := by
  unfold computeDue at h
  rcases paused with _ | _
  · rcases hdeadline : audit.deadline delays.quiescence delays.maxDelay with _ | deadline
    · simp only [hdeadline, Bool.false_eq_true, if_false, Bool.not_false, if_true] at h
      exact Or.inl (Option.some.inj h).symm
    · simp only [hdeadline, Bool.false_eq_true, if_false] at h
      have hmin : min deadline retry = due := Option.some.inj h
      rcases min_choice deadline retry with hfirst | hlast
      · exact Or.inr ⟨rfl, by rw [← hmin, hfirst]⟩
      · exact Or.inl (by rw [← hmin, hlast])
  · simp at h

theorem computeDue_deadline {delays : WatchDelays} {audit : AuditState} {retry deadline : ℕ}
    (h : audit.deadline delays.quiescence delays.maxDelay = some deadline) :
    computeDue delays false audit (some retry) = some (min deadline retry) := by
  unfold computeDue
  simp only [h, Bool.false_eq_true, if_false]

namespace Daemon

def FailsSnap (s : Daemon) : Move → Prop
  | .wake => ∃ failure, s.calls .watcher = some ⟨.snap, .answered (.failed failure)⟩ ∧
      fatalCaptureError failure = false
  | .abandon .watcher => True
  | _ => False

/-- The retry timer that the watcher has when the move computes its next deadline. -/
def retryOf (delays : WatchDelays) (s : Daemon) : Move → Option ℕ
  | .turn => s.retryDue
  | .wake =>
    match s.calls .watcher with
    | some ⟨.snap, .answered (.failed failure)⟩ =>
      if fatalCaptureError failure then none else some (s.instant + delays.quiescence)
    | _ => none
  | .abandon .watcher => some (s.instant + delays.quiescence)
  | _ => none

/-- Unless the watcher is paused or its timer has run out, the accumulator has no deadline before it. -/
def Patient (delays : WatchDelays) (s : Daemon) (move : Move) : Prop :=
  ∀ retry deadline, s.retryOf delays move = some retry → s.flag = false →
    s.world.audit.deadline delays.quiescence delays.maxDelay = some deadline →
      retry ≤ s.instant ∨ retry ≤ deadline

instance (delays : WatchDelays) (s : Daemon) (move : Move) : Decidable (s.Patient delays move) :=
  decidable_of_iff (∀ retry ∈ s.retryOf delays move, s.flag = false →
      ∀ deadline ∈ s.world.audit.deadline delays.quiescence delays.maxDelay,
        retry ≤ s.instant ∨ retry ≤ deadline)
    ⟨fun h retry deadline hretry hflag hdeadline => h retry hretry hflag deadline hdeadline,
      fun h retry hretry hflag deadline hdeadline => h retry deadline hretry hflag hdeadline⟩

structure Awaits (retry : ℕ) (s : Daemon) : Prop where
  timer : s.retryDue = some retry
  waiting : s.calls .watcher = none
  due : ∀ due, s.due = some due → retry ≤ s.instant ∨ retry ≤ due

variable {delays : WatchDelays} {s s' : Daemon} {move : Move} {retry : ℕ}

theorem setCall_watcher (s : Daemon) : (s.setCall .watcher none).calls .watcher = none := by
  rw [setCall_calls, Function.update_self]

theorem FailsSnap.step (h : s.FailsSnap move) (made : s.step delays move = some s') :
    s.retryOf delays move = some (s.instant + delays.quiescence) ∧
      s' = (s.setCall .watcher none).retrying delays (some (s.instant + delays.quiescence)) := by
  cases move with
  | wake =>
    obtain ⟨failure, hcall, hfatal⟩ := h
    simp only [Daemon.step, hcall, woken, hfatal, Bool.false_eq_true, if_false] at made
    refine ⟨?_, (Option.some.inj made).symm⟩
    simp only [retryOf, hcall, hfatal, Bool.false_eq_true, if_false]
  | abandon caller =>
    cases caller with
    | client id => exact h.elim
    | watcher =>
      refine ⟨rfl, ?_⟩
      simp only [Daemon.step] at made
      split at made
      · cases made
      · split at made
        · next hcaller => cases hcaller
        · exact (Option.some.inj made).symm
        · cases made
  | _ => exact h.elim

theorem FailsSnap.awaits (h : s.FailsSnap move) (patient : s.Patient delays move)
    (made : s.step delays move = some s') : s'.Awaits (s.instant + delays.quiescence) := by
  obtain ⟨hretry, rfl⟩ := h.step made
  refine ⟨rfl, s.setCall_watcher, fun due hdue => ?_⟩
  rcases computeDue_retry hdue with rfl | ⟨hflag, hdeadline⟩
  · exact Or.inr le_rfl
  · exact patient _ due hretry hflag hdeadline

theorem Awaits.setCall (h : s.Awaits retry) {caller : Caller} (call : Option Call)
    (other : caller ≠ .watcher) : (s.setCall caller call).Awaits retry := by
  refine ⟨h.timer, ?_, h.due⟩
  rw [setCall_calls, Function.update_of_ne other.symm]
  exact h.waiting

theorem Awaits.other (h : s.Awaits retry) {caller : Caller} {call : Call}
    (under : s.calls caller = some call) : caller ≠ .watcher := by
  rintro rfl
  rw [h.waiting] at under
  exact nomatch under

theorem Awaits.abandon (h : s.Awaits retry) {caller : Caller}
    (made : s.step delays (.abandon caller) = some s') : s'.Awaits retry := by
  simp only [Daemon.step] at made
  split at made
  · cases made
  · split at made
    · rw [← Option.some.inj made]
      exact h.setCall none (by simp)
    · next hcall => exact absurd rfl (h.other hcall)
    · cases made

theorem Awaits.step (h : s.Awaits retry) (tracked : s.Tracked) (patient : s.Patient delays move)
    (unfired : move ≠ .fire) (made : s.step delays move = some s') : s'.Awaits retry := by
  -- only the watcher itself sets `due`: in a turn, at a deadline that the move has to let pass
  cases step_moved made with
  | observe call idle => exact ⟨h.timer, h.waiting, h.due⟩
  -- a timer that has run out stays so
  | pass duration =>
    refine ⟨h.timer, h.waiting, fun due hdue => ?_⟩
    exact (h.due due hdue).imp_left fun hle => hle.trans (Nat.le_add_right _ _)
  | call id command free =>
    have hcalled : (s.setCall (.client id) (some ⟨command, .entered⟩)).Awaits retry :=
      h.setCall _ (by simp)
    exact ⟨hcalled.timer, hcalled.waiting, hcalled.due⟩
  | send caller command entered =>
    have hcalled := h.setCall (some ⟨command, .queued⟩) (h.other entered)
    exact ⟨hcalled.timer, hcalled.waiting, hcalled.due⟩
  | receive answers caller rest command running idle queue queued =>
    have hcalled := h.setCall (some ⟨command, .serving⟩) (h.other queued)
    exact ⟨hcalled.timer, hcalled.waiting, hcalled.due⟩
  | waits serving busy cut => exact ⟨h.timer, h.waiting, h.due⟩
  | replies serving command reply busy =>
    have hcalled := h.setCall (some ⟨serving.command, .answered reply⟩)
      (h.other (tracked serving busy).2.1)
    exact ⟨hcalled.timer, hcalled.waiting, hcalled.due⟩
  | leave id command reply answered =>
    have hcalled : (s.setCall (.client id) none).Awaits retry := h.setCall _ (by simp)
    exact ⟨hcalled.timer, hcalled.waiting, hcalled.due⟩
  | turn idle =>
    refine ⟨h.timer, h.waiting, fun due hdue => ?_⟩
    have hcomputed : computeDue delays s.flag s.world.audit (some retry) = some due := by
      rw [← h.timer]
      exact hdue
    rcases computeDue_retry hcomputed with rfl | ⟨hflag, hdeadline⟩
    · exact Or.inr le_rfl
    · exact patient retry due h.timer hflag hdeadline
  | fire idle => exact absurd rfl unfired
  | wake reply answered => exact absurd rfl (h.other answered)
  | abandon caller => exact h.abandon made

theorem Awaits.fires (h : s.Awaits retry) (made : s.step delays .fire = some s') :
    retry ≤ s.instant := by
  simp only [Daemon.step] at made
  split at made
  · next due hdue =>
    split_ifs at made with hready
    rcases h.due due hdue with hpassed | hlater
    · exact hpassed
    · exact hlater.trans hready.2
  · cases made

def Halted (s : Daemon) : Prop := s.stopped = true → s.calls .watcher = none

theorem Halted.setCall (h : s.Halted) {caller : Caller} {call : Call}
    (under : s.calls caller = some call) (next : Option Call) : (s.setCall caller next).Halted := by
  intro hstopped
  have hother : Caller.watcher ≠ caller := by
    rintro rfl
    rw [h hstopped] at under
    exact nomatch under
  rw [setCall_calls, Function.update_of_ne hother]
  exact h hstopped

theorem Halted.step (h : s.Halted) (tracked : s.Tracked) (made : s.step delays move = some s') :
    s'.Halted := by
  cases step_moved made with
  | call id command free =>
    intro hstopped
    have hcalls : (s.setCall (.client id) (some ⟨command, .entered⟩)).calls .watcher = none := by
      rw [setCall_calls, Function.update_of_ne (by simp)]
      exact h hstopped
    exact hcalls
  | send caller command entered => exact h.setCall entered _
  | receive answers caller rest command running idle queue queued => exact h.setCall queued _
  | replies serving command reply busy =>
    exact h.setCall (tracked serving busy).2.1 (some ⟨serving.command, .answered reply⟩)
  | leave id command reply answered =>
    have hleft : (s.setCall (.client id) none).Halted := h.setCall answered none
    exact hleft
  | fire idle =>
    intro hstopped
    -- a watcher that has stopped starts no call
    have hwatching : s.stopped = false := by
      unfold watcherIdle at idle
      simpa using (Bool.and_eq_true_iff.mp idle).1
    exact absurd (hwatching.symm.trans hstopped) (by decide)
  | wake reply answered =>
    intro _
    obtain ⟨retryDue, due, stopped, hwoken⟩ := s.woken_eq delays reply
    rw [hwoken]
    exact s.setCall_watcher
  | abandon caller =>
    simp only [Daemon.step] at made
    split at made
    · cases made
    · split at made
      · next hcall =>
        rw [← Option.some.inj made]
        exact h.setCall hcall none
      · rw [← Option.some.inj made]
        exact fun _ => s.setCall_watcher
      · cases made
  | _ => exact h

theorem failsSnap_of_retryOf (h : s.retryOf delays move = some retry) : move = .turn ∨ s.FailsSnap move := by
  unfold retryOf at h
  split at h
  · exact Or.inl rfl
  · right
    split at h
    · next failure hcall =>
      split_ifs at h with hfatal
      exact ⟨failure, hcall, by simpa using hfatal⟩
    · exact nomatch h
  · exact Or.inr trivial
  · exact nomatch h

theorem FailsSnap.watching (h : s.FailsSnap move) (halted : s.Halted)
    (made : s.step delays move = some s') : s.stopped = false := by
  rw [Bool.eq_false_iff]
  intro hstopped
  have hnone := halted hstopped
  cases step_moved made with
  | wake reply answered =>
    rw [hnone] at answered
    cases answered
  | abandon caller =>
    cases caller with
    | client id => exact h.elim
    | watcher =>
      simp only [Daemon.step, hnone] at made
      split at made <;> cases made
  | _ => exact h.elim

theorem overtaken (halted : s.Halted) (impatient : ¬ s.Patient delays move)
    (made : s.step delays move = some s') :
    ∃ retry due, s.retryOf delays move = some retry ∧ s'.watcherIdle = true ∧ s'.due = some due ∧
      s'.instant < retry ∧ due < retry := by
  simp only [Patient, not_forall, not_or, Nat.not_le] at impatient
  obtain ⟨retry, deadline, hretry, hflag, hdeadline, hinstant, hearly⟩ := impatient
  have hdue := @computeDue_deadline delays s.world.audit retry deadline hdeadline
  have hmin : min deadline retry < retry := min_lt_of_left_lt hearly
  refine ⟨retry, min deadline retry, hretry, ?_⟩
  -- the watcher has just computed its deadline: in a turn, or after the failure
  rcases failsSnap_of_retryOf hretry with rfl | hfails
  · cases step_moved made with
    | turn idle =>
      refine ⟨idle, ?_, hinstant, hmin⟩
      have hcomputed : s.computedDue delays = some (min deadline retry) := by
        unfold computedDue
        rw [hflag, show s.retryDue = some retry from hretry, hdue]
      exact hcomputed
  · have hwatching := hfails.watching halted made
    obtain ⟨htimer, rfl⟩ := hfails.step made
    rw [hretry, Option.some_inj] at htimer
    refine ⟨?_, ?_, hinstant, hmin⟩
    · have hnone := s.setCall_watcher
      show (!s.stopped && ((s.setCall .watcher none).calls .watcher).isNone) = true
      rw [hnone, hwatching]
      rfl
    · show computeDue delays s.flag s.world.audit (some (s.instant + delays.quiescence)) = _
      rw [hflag, ← htimer, hdue]

theorem fires_early (idle : s.watcherIdle = true) {due : ℕ} (hdue : s.due = some due)
    (instant : s.instant < retry) (early : due < retry) :
    ∃ duration passed next, s.step delays (.pass duration) = some passed ∧
      passed.step delays .fire = some next ∧ passed.instant < retry := by
  set passed : Daemon := { s with instant := s.instant + (due - s.instant) } with hpassed
  have hready : passed.watcherIdle = true ∧ due ≤ passed.instant := by
    refine ⟨idle, ?_⟩
    show due ≤ s.instant + (due - s.instant)
    omega
  have hfire : passed.step delays .fire = some (passed.setCall .watcher (some ⟨.snap, .entered⟩)) := by
    have hsame : passed.due = some due := hdue
    simp only [Daemon.step, hsame]
    exact if_pos hready
  refine ⟨due - s.instant, passed, _, rfl, hfire, ?_⟩
  show s.instant + (due - s.instant) < retry
  omega

theorem Run.tracked {meets : Daemon → Move → Prop} {world : World}
    (run : Run delays meets (.start world) s) : s.Tracked ∧ s.Halted := by
  refine run.invariant (I := fun s => s.Tracked ∧ s.Halted) ⟨?_, fun _ => rfl⟩ ?_
  · exact fun _ hserving => nomatch hserving
  · rintro s s' move ⟨htracked, hhalted⟩ - made
    exact ⟨htracked.step (step_moved made), hhalted.step htracked made⟩

/-- The watcher keeps to its retry timer in every run in which the accumulator has no earlier deadline
when it looks; and after a move that meets one, time alone brings the next snapshot too early. -/
theorem retries_are_paced (delays : WatchDelays) (world : World) :
    (∀ s move s' later next, Run delays (Patient delays) (.start world) s → s.FailsSnap move →
      s.Patient delays move → s.step delays move = some s' →
      Run delays (fun s move => s.Patient delays move ∧ move ≠ .fire) s' later →
      later.step delays .fire = some next → s.instant + delays.quiescence ≤ later.instant) ∧
    ∀ s move s', Run delays (fun _ _ => True) (.start world) s → ¬ s.Patient delays move →
      s.step delays move = some s' →
      ∃ retry duration passed next, s.retryOf delays move = some retry ∧
        s'.step delays (.pass duration) = some passed ∧ passed.step delays .fire = some next ∧
        passed.instant < retry := by
  constructor
  · intro s move s' later next run fails patient made between fired
    have htracked := run.tracked.1.step (step_moved made)
    have hlater := between.invariant (I := fun s => s.Tracked ∧ s.Awaits _)
      ⟨htracked, fails.awaits patient made⟩ fun h meet made =>
        ⟨h.1.step (step_moved made), h.2.step h.1 meet.1 meet.2 made⟩
    exact hlater.2.fires fired
  · intro s move s' run impatient made
    obtain ⟨retry, due, hretry, hidle, hdue, hinstant, hearly⟩ := overtaken run.tracked.2 impatient made
    obtain ⟨duration, passed, next, hpassed, hfired, hbefore⟩ :=
      @fires_early delays s' retry hidle due hdue hinstant hearly
    exact ⟨retry, duration, passed, next, hretry, hpassed, hfired, hbefore⟩

def sinkGoesDown (time : ℕ) : Turn where
  checkpoint := .ok ⟨"a1", "c1", "t1", []⟩
  sink := if time < 5 then .ok () else .error (.transient "down")

def failedSnap : List Move :=
  [.observe (.observe [⟨"a", [.create]⟩] 1 0 ""), .turn, .pass 100, .fire, .send .watcher,
    .receive sinkGoesDown, .proceed, .proceed, .proceed, .proceed, .proceed]

def laterActivity : List Move :=
  [.pass 60, .observe (.observe [⟨"b", [.create]⟩] 1 160 ""), .turn, .pass 40]

def waits (s : Daemon) : Move → Bool
  | .fire => false
  | move => decide (s.Patient exampleDelays move)

theorem waits_meets {s : Daemon} {move : Move} (h : s.waits move = true) :
    s.Patient exampleDelays move ∧ move ≠ .fire := by
  cases move with
  | fire => cases h
  | _ => exact ⟨of_decide_eq_true h, by simp⟩

theorem retries_are_paced_failed :
    ∃ s woken later next : Daemon, Run exampleDelays (Patient exampleDelays) (.start exampleWorld) s ∧
      s.FailsSnap .wake ∧ s.step exampleDelays .wake = some woken ∧
      later.step exampleDelays .fire = some next ∧ s.instant = 100 ∧ s.instant + 100 ≤ later.instant := by
  set failing := (Daemon.start exampleWorld).moves exampleDelays
    (fun s move => decide (s.Patient exampleDelays move)) failedSnap with hfailing
  have hanswer : failing.map (fun s => (s.calls .watcher, s.instant)) =
      some (some ⟨.snap, .answered (.failed (.sink (.transient "down")))⟩, 100) := by
    rw [hfailing]
    decide
  have hfires : (failing.bind fun s => (s.step exampleDelays .wake).bind fun woken =>
      (woken.moves exampleDelays waits laterActivity).bind fun later =>
        later.step exampleDelays .fire).isSome = true := by
    rw [hfailing]
    decide
  have hpatient : failing.all (fun s => decide (s.Patient exampleDelays .wake)) = true := by
    rw [hfailing]
    decide
  obtain ⟨s, hs, hanswer⟩ := Option.map_eq_some_iff.mp hanswer
  obtain ⟨hcall, hinstant⟩ := Prod.mk.inj hanswer
  rw [hs, Option.bind_some] at hfires
  rw [hs, Option.all_some] at hpatient
  obtain ⟨next, hnext⟩ := Option.isSome_iff_exists.mp hfires
  obtain ⟨woken, hwoken, hnext⟩ := Option.bind_eq_some_iff.mp hnext
  obtain ⟨later, hlater, hnext⟩ := Option.bind_eq_some_iff.mp hnext
  have hrun : Run exampleDelays (Patient exampleDelays) (.start exampleWorld) s :=
    Run.start.moves (fun _ _ h => of_decide_eq_true h) hs
  have hbetween : Run exampleDelays (fun s move => s.Patient exampleDelays move ∧ move ≠ .fire) woken
      later := Run.start.moves (fun _ _ => waits_meets) hlater
  have hfails : s.FailsSnap .wake := ⟨_, hcall, rfl⟩
  exact ⟨s, woken, later, next, hrun, hfails, hwoken, hnext, hinstant,
    (retries_are_paced exampleDelays exampleWorld).1 s .wake woken later next hrun hfails
      (of_decide_eq_true hpatient) hwoken hbetween hnext⟩

def retainedEvent : List Move :=
  failedSnap ++ [.wake, .observe (.observe [⟨"b", [.create]⟩] 1 100 ""), .turn, .pass 100, .fire,
    .send .watcher, .receive sinkGoesDown, .proceed, .proceed]

/-- The second failure is retried at once. -/
theorem retained_event_is_retried_at_once :
    ¬ ∀ delays config recorder world, Initialized config recorder world →
      ∀ s move s' later next, Run delays (fun _ _ => True) (.start world) s → s.FailsSnap move →
        s.step delays move = some s' → Run delays (fun _ move => move ≠ .fire) s' later →
        later.step delays .fire = some next → s.instant + delays.quiescence ≤ later.instant := by
  intro h
  set failing := (Daemon.start exampleWorld).moves exampleDelays (fun _ _ => true) retainedEvent
    with hfailing
  have hanswer : failing.map (fun s => (s.calls .watcher, s.instant)) =
      some (some ⟨.snap, .answered (.failed (.sink (.transient "down")))⟩, 200) := by
    rw [hfailing]
    decide
  have hfires : (failing.bind fun s => (s.step exampleDelays .wake).bind fun woken =>
      (woken.step exampleDelays .fire).map fun _ => woken.instant) = some 200 := by
    rw [hfailing]
    decide
  obtain ⟨s, hs, hanswer⟩ := Option.map_eq_some_iff.mp hanswer
  rw [hs, Option.bind_some] at hfires
  obtain ⟨hcall, hinstant⟩ := Prod.mk.inj hanswer
  obtain ⟨woken, hwoken, hfires⟩ := Option.bind_eq_some_iff.mp hfires
  obtain ⟨next, hnext, hat⟩ := Option.map_eq_some_iff.mp hfires
  have hpaced := h exampleDelays _ _ _ exampleWorld_initialized s .wake woken woken next
    (Run.start.moves (fun _ _ _ => trivial) hs) ⟨_, hcall, rfl⟩ hwoken .start hnext
  rw [hinstant, hat] at hpaced
  exact absurd hpaced (by decide)

end Daemon
end Rrjj
