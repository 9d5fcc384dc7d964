import Rrjj.Core.AuditPaths
import Rrjj.Core.Conservation
import Rrjj.Core.Grammar

/-! The callback of the watcher: what it records of the notifications of the file system, and what the
stream of a session says of them in the end. -/

namespace Rrjj
open Library Library.Proc

inductive RenameMode where
  | any
  | to
  | «from»
  | both
  | other
  deriving DecidableEq, Repr

inductive ModifyKind where
  | any
  | data
  | metadata
  | name (mode : RenameMode)
  | other
  deriving DecidableEq, Repr

inductive EventKind where
  | any
  | access
  | create
  | modify (kind : ModifyKind)
  | remove
  | other
  deriving DecidableEq, Repr

def touchOperation : EventKind → Option TouchOperation
  | .access => none
  | .create => some .create
  | .remove => some .remove
  | .modify (.name _) => some .rename
  | .modify _ => some .modify
  | .any | .other => some .other

structure NotifyEvent where
  kind : EventKind
  paths : List SpelledPath
  needRescan : Bool

/-- What notify calls the callback with, and the clocks that the callback reads. -/
structure Notification where
  result : Except String NotifyEvent
  now : String
  observedAt : ℕ
  reportedAt : ℕ

structure Watch where
  currentDir : Option SpelledPath
  root : List Text
  excluded : List (List Text)
  isMatch : Text → Bool
  literalIgnores : List Text

namespace Watch

def path (watch : Watch) (path : SpelledPath) : Option String :=
  (path.watcherPath watch.currentDir watch.root watch.excluded watch.isMatch watch.literalIgnores).map
    String.ofList

def touched (watch : Watch) (operation : TouchOperation) (event : NotifyEvent) : List TouchedPath :=
  (event.paths.filterMap watch.path).map fun path => { path := path, operations := [operation] }

def callback (watch : Watch) (notification : Notification) : List WatcherCall :=
  match notification.result with
  | .ok event =>
    (match touchOperation event.kind with
      | some operation =>
        [.observe (watch.touched operation event) 1 notification.observedAt notification.now]
      | none => []) ++
      if event.needRescan then [.reportOverflow "notify:rescan" 1 notification.reportedAt] else []
  | .error error => [.reportOverflow s!"notify:{error}" 0 notification.reportedAt]

/-- An environment in which the watcher records the notifications that come. -/
def environment (watch : Watch) (env : Environment) (notified : ℕ → List Notification) : Environment where
  answers turn := { env.answers turn with arrivals := (notified turn).flatMap watch.callback }
  horizon := env.horizon

/-- The notification tells of the operation on a path that is watched. -/
structure Tells (watch : Watch) (notification : Notification) (event : NotifyEvent) (path : String)
    (operation : TouchOperation) : Prop where
  result : notification.result = .ok event
  kind : touchOperation event.kind = some operation
  listed : ∃ spelled ∈ event.paths, watch.path spelled = some path

def labels (watch : Watch) (notification : Notification) : List Label :=
  (watch.callback notification).map WatcherCall.label

def recordedBefore (watch : Watch) (notified : ℕ → List Notification) (turn place : ℕ) : List Label :=
  ((List.range turn).flatMap notified ++ (notified turn).take place).flatMap watch.labels

/-- The observation in the trace that is of the notification at this place of a turn. That one tells of
the operation on the path, and `since` is what followed it. -/
def Hears (watch : Watch) (notified : ℕ → List Notification) (turn place : ℕ) (path : String)
    (operation : TouchOperation) (trace since : List Label) : Prop :=
  ∃ notification event before, (notified turn)[place]? = some notification ∧
    watch.Tells notification event path operation ∧
    trace = before ++ .observed (watch.touched operation event) 1 :: since ∧
    before.filter Label.isArrival = watch.recordedBefore notified turn place

variable {watch : Watch} {notification : Notification} {paths : List TouchedPath} {rawEvents : ℕ}

theorem labels_observed {start finish : List Label}
    (h : watch.labels notification = start ++ .observed paths rawEvents :: finish) :
    start = [] ∧ rawEvents = 1 ∧ ∃ event operation, notification.result = .ok event ∧
      touchOperation event.kind = some operation ∧ paths = watch.touched operation event := by
  unfold labels callback at h
  rcases hresult : notification.result with error | event
  · rw [hresult] at h
    rcases start with _ | ⟨first, start⟩ <;> simp [WatcherCall.label] at h
  · rw [hresult] at h
    dsimp only at h
    have hlate : ∀ rescan : Bool, .observed paths rawEvents ∉ (if rescan then
        [.reportOverflow "notify:rescan" 1 notification.reportedAt] else []).map WatcherCall.label := by
      intro rescan
      cases rescan <;> simp [WatcherCall.label]
    rcases hkind : touchOperation event.kind with _ | operation
    · rw [hkind] at h
      exact absurd (h ▸ List.mem_append_right _ List.mem_cons_self) (hlate event.needRescan)
    · rw [hkind, List.map_append] at h
      rcases start with _ | ⟨first, start⟩
      · obtain ⟨hpaths, hraw⟩ := Label.observed.inj (List.cons.inj h).1
        exact ⟨rfl, hraw.symm, event, operation, rfl, hkind, hpaths.symm⟩
      · have hmem : .observed paths rawEvents ∈ start ++ .observed paths rawEvents :: finish :=
          List.mem_append_right _ List.mem_cons_self
        rw [← show _ = start ++ _ from (List.cons.inj h).2] at hmem
        exact absurd hmem (hlate event.needRescan)

theorem Tells.labels_eq {event : NotifyEvent} {path : String} {operation : TouchOperation}
    (tells : watch.Tells notification event path operation) :
    ∃ rest, watch.labels notification = .observed (watch.touched operation event) 1 :: rest := by
  unfold labels callback
  rw [tells.result]
  dsimp only
  rw [tells.kind]
  exact ⟨_, rfl⟩

theorem mem_touched {operation : TouchOperation} {event : NotifyEvent} {touched : TouchedPath} :
    touched ∈ watch.touched operation event ↔
      ∃ spelled ∈ event.paths, watch.path spelled = some touched.path ∧ touched.operations = [operation] := by
  unfold Watch.touched
  simp only [List.mem_map, List.mem_filterMap]
  constructor
  · rintro ⟨path, ⟨spelled, hmem, hpath⟩, rfl⟩
    exact ⟨spelled, hmem, hpath, rfl⟩
  · rintro ⟨spelled, hmem, hpath, hoperations⟩
    obtain ⟨path, operations⟩ := touched
    obtain rfl : operations = [operation] := hoperations
    exact ⟨path, ⟨spelled, hmem, hpath⟩, rfl⟩

end Watch

/-- A property that the coordinator's own work does not touch and that waiting keeps, and what is left of
it where a run is cut off. -/
structure Passive (env : Environment) (P C : World → Prop) : Prop where
  log : ∀ w label, label.isArrival = false → P w → P (w.log label)
  update : ∀ w f, P w → P (w.update f)
  drain : ∀ w, P w → P w.drainAudit
  await : Stays P C (await env)
  cuts : ∀ w, P w → C w

namespace Passive
variable {env : Environment} {P C : World → Prop}

theorem reads_now : Stays P C (now env) := Stays.get fun _ _ => Stays.pure _

variable (passive : Passive env P C)
include passive

theorem logs (label : Label) (own : label.isArrival = false) : Stays P C (Rrjj.log label) :=
  Stays.modify fun w h => passive.log w label own h

theorem updates (f : Coordinator → Coordinator) : Stays P C (Rrjj.update f) :=
  Stays.modify fun w h => passive.update w f h

theorem drains : Stays P C drainAudit := Stays.modify passive.drain

theorem interleaves : Stays P C (interleave env) := passive.await.bind fun _ => Stays.pure ()

theorem emitExact (event : Event) : Stays P C (emitExact env event) := by
  refine Stays.get fun v _ => ?_
  split_ifs
  · refine (passive.logs (.emitting event) rfl).bind fun _ => passive.await.bind fun turn => ?_
    rcases turn.sink with error | _
    · exact (passive.logs (.refused event) rfl).bind fun _ => Stays.throw _
    · exact (passive.logs (.accepted event) rfl).bind fun _ => passive.updates _
  · exact (passive.logs .sequenceChanged rfl).bind fun _ => Stays.throw _

theorem emit (body : EventBody) : Stays P C (emit env body) :=
  Stays.get fun _ _ => reads_now.bind fun _ => passive.emitExact _

theorem capture (fullScan : Bool) : Stays P C (capture env fullScan) := by
  refine (passive.logs (.capturing fullScan) rfl).bind fun _ => passive.await.bind fun turn => ?_
  rcases turn.checkpoint with message | checkpoint
  · exact (passive.logs .captureFailed rfl).bind fun _ => Stays.throw _
  · refine Stays.get fun v _ => (passive.updates _).bind fun _ => ?_
    exact (passive.logs (.captured _) rfl).bind fun _ => Stays.pure _

theorem emitOverflowsFrom (notices : List OverflowNotice) : Stays P C (emitOverflowsFrom env notices) := by
  induction notices with
  | nil => exact Stays.pure ()
  | cons notice rest ih => exact (passive.emit _).bind fun _ => (passive.updates _).bind fun _ => ih

theorem emitAudit : Stays P C (emitAudit env) := by
  refine Stays.get fun v _ => ?_
  rcases v.coordinator.auditStartedAt with _ | startedAt
  · exact Stays.pure ()
  · exact reads_now.bind fun _ => (passive.emit _).bind fun _ => passive.updates _

theorem snapshot : Stays P C (snapshot env) := by
  refine Stays.get fun v _ => ?_
  rcases v.coordinator.pendingSnapshotEvent with _ | event
  · refine passive.interleaves.bind fun _ => passive.drains.bind fun _ => ?_
    refine (Stays.get fun _ _ => passive.emitOverflowsFrom _).bind fun _ => passive.emitAudit.bind fun _ => ?_
    refine Stays.get fun _ _ => (passive.capture _).bind fun _ => reads_now.bind fun _ => ?_
    refine (passive.updates _).bind fun _ => (passive.emitExact _).bind fun _ => ?_
    exact (passive.updates _).bind fun _ => Stays.pure _
  · show Stays P C (deliverRetained env event)
    unfold deliverRetained
    split
    · exact (passive.emitExact _).bind fun _ => (passive.updates _).bind fun _ => Stays.pure _
    · exact Stays.throw _

theorem settleFrom (turns : ℕ) : Stays P C (settleFrom env turns) := by
  induction turns with
  | zero => exact Stays.cut passive.cuts
  | succ turns ih =>
    refine Stays.get fun v _ => ?_
    split_ifs
    · exact passive.snapshot.bind fun _ => passive.interleaves.bind fun _ => passive.drains.bind fun _ => ih
    · exact Stays.pure ()

theorem flushDurable : Stays P C (flushDurable env) := by
  refine Stays.get fun v _ => (passive.emit _).bind fun _ => Stays.get fun v' _ => ?_
  refine (passive.logs (.flushing _) rfl).bind fun _ => passive.await.bind fun turn => ?_
  rcases turn.sink with error | _
  · exact (passive.logs (.flushFailed _) rfl).bind fun _ => Stays.throw _
  · exact passive.logs (.flushed _) rfl

theorem finish (reason : String) : Stays P C (finish env reason) := by
  refine passive.drains.bind fun _ => (passive.settleFrom _).bind fun _ => Stays.get fun _ _ => ?_
  exact (passive.emit _).bind fun _ => passive.flushDurable

theorem currentStatus : Stays P C (currentStatus env) :=
  passive.interleaves.bind fun _ => Stays.get fun _ _ => Stays.pure _

theorem perform (command : Command) : Stays P C (perform env command) := by
  have hmap : ∀ {α : Type} {m : Task α} {f : α → Reply}, Stays P C m → Stays P C (f <$> m) :=
    fun h => h.bind fun _ => Stays.pure _
  cases command with
  | status => exact hmap passive.currentStatus
  | snap => exact hmap passive.snapshot
  | mark label «meta» =>
    refine hmap (passive.drains.bind fun _ => (passive.settleFrom _).bind fun _ => Stays.get fun _ _ => ?_)
    exact passive.emit _
  | flush =>
    refine hmap (passive.drains.bind fun _ => (passive.settleFrom _).bind fun _ => ?_)
    exact passive.flushDurable.bind fun _ => passive.currentStatus
  | pause => exact (passive.updates _).bind fun _ => hmap passive.currentStatus
  | resume =>
    refine hmap (passive.drains.bind fun _ => (passive.updates _).bind fun _ => ?_)
    exact (passive.settleFrom _).bind fun _ => passive.currentStatus
  | shutdown reason => exact hmap (passive.finish reason)

theorem serve (command : Command) : Stays P C (serve env command) := by
  have hbegin : Stays P C (beginCommand command) := Stays.modify fun w h => passive.log w _ rfl h
  refine hbegin.bind fun _ => (passive.perform command).attempt.bind fun result => ?_
  rcases result with failure | reply
  · exact passive.logs _ rfl
  · exact passive.logs _ rfl

theorem run (commands : List Command) : Stays P C (run env commands) := by
  induction commands with
  | nil =>
    refine passive.interleaves.bind fun _ => Stays.bind ?_ fun _ => passive.finish _
    exact Stays.modify fun w h => passive.log w _ rfl h
  | cons command commands ih =>
    cases command with
    | shutdown reason => exact passive.interleaves.bind fun _ => passive.serve _
    | _ => exact passive.interleaves.bind fun _ => (passive.serve _).bind fun _ => ih

theorem reached {config : Config} {recorder : JjRecorder} (start : P (World.start config recorder))
    (commands : List Command) : C (reached env config recorder commands) := by
  have hopened : Stays P C (initializeCoordinator env) :=
    (passive.capture true).bind fun _ => Stays.get fun _ _ => passive.emit _
  exact (hopened.bind fun _ => passive.run commands).final passive.cuts start

end Passive

def Heard (watch : Watch) (notified : ℕ → List Notification) (turn : ℕ) (w : World) : Prop :=
  w.trace.filter Label.isArrival = ((List.range turn).flatMap notified).flatMap watch.labels

theorem recordAll_trace (calls : List WatcherCall) (w : World) :
    (w.recordAll calls).trace = w.trace ++ calls.map WatcherCall.label := by
  induction calls generalizing w with
  | nil => exact (List.append_nil _).symm
  | cons call calls ih =>
    show ((w.record call).recordAll calls).trace = _
    rw [ih]
    show (w.trace ++ [call.label]) ++ _ = _
    rw [List.append_assoc]
    rfl

section
variable {watch : Watch} {notified : ℕ → List Notification} {turn : ℕ} {w : World}

theorem Heard.log (h : Heard watch notified turn w) {label : Label} (own : label.isArrival = false) :
    Heard watch notified turn (w.log label) := by
  show (w.trace ++ [label]).filter Label.isArrival = _
  rw [List.filter_append, List.filter_cons_of_neg (by rw [own]; decide), List.filter_nil, List.append_nil]
  exact h

theorem Heard.recorded (h : Heard watch notified turn w) :
    Heard watch notified (turn + 1) (w.recordAll ((notified turn).flatMap watch.callback)) := by
  have harrivals : (((notified turn).flatMap watch.callback).map WatcherCall.label).filter
      Label.isArrival = (notified turn).flatMap watch.labels := by
    rw [List.filter_eq_self.mpr, List.map_flatMap]
    · rfl
    · intro label hlabel
      obtain ⟨call, -, rfl⟩ := List.mem_map.mp hlabel
      cases call <;> rfl
  unfold Heard
  rw [recordAll_trace, List.filter_append, harrivals, h, List.range_succ, List.flatMap_append,
    List.flatMap_append, List.flatMap_singleton]

theorem heard_passive (watch : Watch) (env : Environment) (notified : ℕ → List Notification) :
    Passive (watch.environment env notified) (fun w => Heard watch notified w.clock w)
      (fun w => ∃ turn, w.clock ≤ turn ∧ Heard watch notified turn w) where
  log _ _ own h := h.log own
  update _ _ h := h
  drain w h := by
    have hlogged : Heard watch notified w.clock (w.log .drained) := h.log rfl
    exact hlogged
  await := by
    intro w hw
    have hrecorded := Heard.recorded hw
    have hclock : ∀ (calls : List WatcherCall) (w : World), (w.recordAll calls).clock = w.clock := by
      intro calls
      induction calls with
      | nil => exact fun _ => rfl
      | cons call calls ih => exact fun w => ih (w.record call)
    unfold await
    by_cases hhorizon : w.clock < (watch.environment env notified).horizon
    · simp only [hhorizon, if_true]
      exact ⟨nofun, fun _ => hrecorded⟩
    · simp only [hhorizon, if_false]
      refine ⟨fun _ => ⟨w.clock + 1, ?_, hrecorded⟩, fun h => absurd rfl h⟩
      rw [hclock]
      exact Nat.le_succ _
  cuts w h := ⟨w.clock, Nat.le_refl _, h⟩

theorem reached_heard (watch : Watch) (env : Environment) (notified : ℕ → List Notification)
    (config : Config) (recorder : JjRecorder) (commands : List Command) :
    ∃ turn, (reached (watch.environment env notified) config recorder commands).clock ≤ turn ∧
      Heard watch notified turn (reached (watch.environment env notified) config recorder commands) := by
  apply (heard_passive watch env notified).reached
  exact rfl

theorem Heard.hears (h : Heard watch notified turn w) {before since : List Label}
    {paths : List TouchedPath} {rawEvents : ℕ} {later : List Label}
    (trace : w.trace = before ++ .observed paths rawEvents :: since ++ later) {touched : TouchedPath}
    (mem : touched ∈ paths) {operation : TouchOperation} (listed : operation ∈ touched.operations) :
    ∃ turn place, watch.Hears notified turn place touched.path operation
      (before ++ .observed paths rawEvents :: since) since := by
  have hfilter : ((List.range turn).flatMap notified).flatMap watch.labels =
      before.filter Label.isArrival ++
        .observed paths rawEvents :: (since ++ later).filter Label.isArrival := by
    rw [← h, trace, List.append_assoc, List.cons_append, List.filter_append,
      List.filter_cons_of_pos rfl]
  obtain ⟨first, notification, rest, start, finish, hfirst, hlabels, hbefore⟩ := flatMap_split hfilter
  obtain ⟨rfl, rfl, event, operation', hresult, hkind, rfl⟩ := Watch.labels_observed hlabels
  obtain ⟨turns, turn', turns', earlier, others, hturns, hturn, rfl⟩ := flatMap_split hfirst
  obtain rfl := range_split hturns
  obtain ⟨spelled, hspelled, hpath, hoperations⟩ := Watch.mem_touched.mp mem
  rw [hoperations, List.mem_singleton] at listed
  subst listed
  refine ⟨turn', earlier.length, notification, event, before, ?_,
    ⟨hresult, hkind, spelled, hspelled, hpath⟩, rfl, ?_⟩
  · rw [hturn, List.getElem?_append_right (Nat.le_refl _), Nat.sub_self]
    rfl
  · rw [hbefore, List.append_nil]
    unfold Watch.recordedBefore
    rw [hturn, List.take_left]

theorem Heard.observed (h : Heard watch notified turn w) {turn' place : ℕ} (past : turn' < turn)
    {notification : Notification} (came : (notified turn')[place]? = some notification)
    {event : NotifyEvent} {path : String} {operation : TouchOperation}
    (tells : watch.Tells notification event path operation) :
    ∃ since, watch.Hears notified turn' place path operation w.trace since := by
  obtain ⟨rest, hlabels⟩ := tells.labels_eq
  obtain ⟨turns, turns', hturns⟩ := List.append_of_mem (List.mem_range.mpr past)
  obtain rfl := range_split hturns
  obtain ⟨hplace, hget⟩ := List.getElem?_eq_some_iff.mp came
  have hnotified : notified turn' =
      (notified turn').take place ++ notification :: (notified turn').drop (place + 1) := by
    rw [← hget, ← List.drop_eq_getElem_cons hplace, List.take_append_drop]
  have hfilter : w.trace.filter Label.isArrival = watch.recordedBefore notified turn' place ++
      .observed (watch.touched operation event) 1 :: (rest ++
        ((notified turn').drop (place + 1) ++ turns'.flatMap notified).flatMap watch.labels) := by
    unfold Watch.recordedBefore
    rw [h, hturns, List.flatMap_append, List.flatMap_cons]
    nth_rewrite 1 [hnotified]
    simp only [List.flatMap_append, List.flatMap_cons, hlabels, List.append_assoc, List.cons_append]
  obtain ⟨first, last, htrace, hfirst, hlast⟩ := List.filter_eq_append_iff.mp hfilter
  obtain ⟨own, since, rfl, hown, -, -⟩ := List.filter_eq_cons_iff.mp hlast
  refine ⟨since, notification, event, first ++ own, came, tells, ?_, ?_⟩
  · rw [htrace, List.append_assoc]
  · rw [List.filter_append, hfirst, List.filter_eq_nil_iff.mpr hown, List.append_nil]

theorem Watch.Hears.observed {place : ℕ} {path : String} {operation : TouchOperation}
    {trace since : List Label} (h : watch.Hears notified turn place path operation trace since) :
    Observed trace ⟨path, [operation]⟩ since := by
  obtain ⟨notification, event, before, -, tells, htrace, -⟩ := h
  obtain ⟨spelled, hspelled, hpath⟩ := tells.listed
  exact ⟨before, _, 1, htrace, Watch.mem_touched.mpr ⟨spelled, hspelled, hpath, rfl⟩⟩

/-- The stream says of the file system what it was told, and all of it: an operation that a
touched_paths event lists with a path was notified, and drained into the window of that event, of a path
below the root that is neither excluded nor ignored; and every single notification of such a path is
listed, or is still held for the next event, or was dropped at a limit that is reported. -/
theorem audit_is_of_notifications (watch : Watch) (env : Environment) (notified : ℕ → List Notification)
    (config : Config) (recorder : JjRecorder) (commands : List Command) :
    let w := reached (watch.environment env notified) config recorder commands
    (∀ earlier event later, w.trace = earlier ++ .accepted event :: later →
      ∀ value, event.body = .touchedPaths value →
        ∀ entry ∈ value.paths, ∀ operation ∈ entry.operations, ∃ turn place since,
          watch.Hears notified turn place entry.path operation earlier since ∧ InWindow since) ∧
    ∀ turn < w.clock, ∀ place notification, (notified turn)[place]? = some notification →
      ∀ event path operation, watch.Tells notification event path operation →
        ∃ since, watch.Hears notified turn place path operation w.trace since ∧
          Accounted w ⟨path, [operation]⟩ since := by
  intro w
  obtain ⟨last, hlast, hheard⟩ := reached_heard watch env notified config recorder commands
  have hledger : LedgerState w := (reached_steps (watch.environment env notified) config recorder
    commands).ledgerState (ledgerState_start config recorder)
  constructor
  · intro earlier event later htrace value hbody entry hentry operation hoperation
    have hcloses := hledger.events earlier _ later htrace event value rfl hbody
    obtain ⟨touched, since, ⟨first, paths, rawEvents, hearlier, hmem⟩, hin, hpath, hlisted⟩ :=
      (hcloses.observed entry hentry).2 operation hoperation
    subst hearlier
    obtain ⟨turn, place, hhears⟩ :=
      hheard.hears htrace hmem (hlisted operation List.mem_cons_self)
    rw [hpath] at hhears
    exact ⟨turn, place, since, hhears, hin⟩
  · intro turn hturn place notification hcame event path operation htells
    obtain ⟨since, hhears⟩ := hheard.observed (Nat.lt_of_lt_of_le hturn hlast) hcame htells
    exact ⟨since, hhears, hledger.accounted hhears.observed⟩

end

end Rrjj
