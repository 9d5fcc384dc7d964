import Rrjj.Core.Calls
import Rrjj.Ui.LiveSession

/-! Runs of a live view. Whatever is lost on the way, what is shown is a stretch of one session; and
where all that was sent has arrived, it is shown up to its end. -/

namespace Rrjj
open Library

namespace LiveSession
variable {host : LiveHost} {s s' : LiveSession} {move : LiveMove} {connection : Connection} {place : ℕ}

def InOrder (recorded : String → List Event) : Prop :=
  ∀ (sessionId : String) (i : ℕ) (event : Event), (recorded sessionId)[i]? = some event →
    event.seq = i ∧ event.sessionId = sessionId

structure Streaming (sent : List Event) (connection : Connection) (place : ℕ) : Prop where
  since : connection.since ≤ place
  position : connection.position ≤ sent.length
  stream : Delivery sent place connection.inFlight connection.position

structure Sound (host : LiveHost) (s : LiveSession) : Prop where
  ordered : InOrder s.recorded
  streams : ∀ source connection, s.connections source = some connection →
    ∃ place, Streaming (s.recorded s.current) connection place
  shows : ∃ shown : Shown, shown.Of host s.recorded (s.durable host) s.view.timeline

theorem recorded_grows (event : Event) (sessionId : String) :
    s.recorded sessionId <+:
      Function.update s.recorded s.current (s.recorded s.current ++ [event]) sessionId := by
  by_cases hsession : sessionId = s.current
  · rw [hsession, Function.update_self]
    exact List.prefix_append _ _
  · rw [Function.update_of_ne hsession]

theorem InOrder.record {event : Event} (h : InOrder s.recorded) (accepts : s.Accepts event) :
    InOrder (Function.update s.recorded s.current (s.recorded s.current ++ [event])) := by
  intro sessionId i other hother
  by_cases hsession : sessionId = s.current
  · rw [hsession, Function.update_self] at hother
    rw [hsession]
    rcases Nat.lt_or_ge i (s.recorded s.current).length with hold | hnew
    · rw [List.getElem?_append_left hold] at hother
      exact h _ _ _ hother
    · rw [List.getElem?_append_right hnew] at hother
      obtain ⟨hplace, rfl⟩ : i - (s.recorded s.current).length = 0 ∧ event = other := by
        rcases hi : i - (s.recorded s.current).length with _ | rest
        · rw [hi] at hother
          exact ⟨rfl, Option.some.inj hother⟩
        · rw [hi] at hother
          exact absurd hother (by simp)
      exact ⟨by rw [accepts.2]; omega, accepts.1⟩
  · rw [Function.update_of_ne hsession] at hother
    exact h _ _ _ hother

theorem Streaming.record {sent later : List Event} (h : Streaming sent connection place)
    (grown : sent <+: later) : Streaming later connection place where
  since := h.since
  position := h.position.trans grown.length_le
  stream := h.stream.mono grown

theorem Streaming.pump {channel : Channel Event} {sent : List Event} {item : Received Event} {next : ℕ}
    (orderly : channel.Orderly) (h : Streaming sent connection place)
    (received : channel.recv sent connection.position = some (item, next)) :
    Streaming sent
      { connection with position := next, inFlight := connection.inFlight ++ [item] } place where
  since := h.since
  position := orderly.recv_le received
  stream := h.stream.recv orderly received

theorem Streaming.message {sent : List Event} {item : Received Event} {rest : List (Received Event)}
    (h : Streaming sent connection place) (arrives : connection.inFlight = item :: rest) :
    (∃ event, item = .value event ∧ sent[place]? = some event ∧
        Streaming sent { connection with inFlight := rest } (place + 1)) ∨
      ∃ missed, item = .lagged missed ∧
        Streaming sent { connection with inFlight := rest } (place + missed) := by
  have hstream := h.stream
  rw [arrives] at hstream
  cases hstream with
  | value held hrest => exact Or.inl ⟨_, rfl, held, Nat.le_succ_of_le h.since, h.position, hrest⟩
  | lagged _ hrest => exact Or.inr ⟨_, rfl, Nat.le_add_right_of_le h.since, h.position, hrest⟩

theorem InOrder.held {event : Event} (h : InOrder s.recorded)
    (held : (s.recorded s.current)[place]? = some event) :
    event.seq = place ∧ event.sessionId = s.current ∧
      (s.recorded event.sessionId)[event.seq]? = some event := by
  obtain ⟨hseq, hsession⟩ := h _ _ _ held
  refine ⟨hseq, hsession, ?_⟩
  rw [hsession, hseq]
  exact held

theorem InOrder.arrived {item : Received Event} {rest : List (Received Event)}
    (h : InOrder s.recorded)
    (streaming : Streaming (s.recorded s.current) connection place)
    (arrives : connection.inFlight = item :: rest) (event : Event) (value : item = .value event) :
    (s.recorded event.sessionId)[event.seq]? = some event := by
  rcases streaming.message arrives with ⟨other, hitem, hother, -⟩ | ⟨missed, hitem, -⟩
  · obtain rfl : other = event := Received.value.inj (hitem.symm.trans value)
    exact (h.held hother).2.2
  · exact absurd (hitem.symm.trans value) (by simp)

theorem loaded_shown {text : JsText} {after : LiveSession}
    (h : ∃ shown : Shown, shown.Of host s.recorded (s.durable host) s.view.timeline)
    (next : after = { s with
      view := s.view.loaded host text
      loads := s.loads.erase text
      file := s.fileAfter host text }) :
    ∃ shown : Shown, shown.Of host after.recorded (after.durable host) after.view.timeline := by
  subst next
  rcases hparsed : parseNdjson host.parse text with message | durable
  · have hfile : s.fileAfter host text = s.file := by
      unfold fileAfter
      rw [hparsed]
    rw [hfile, RrjjLive.loaded_refused _ hparsed]
    exact h
  · have hfile : s.fileAfter host text = some text := by
      unfold fileAfter
      rw [hparsed]
    obtain ⟨items, heq⟩ := RrjjLive.loaded_eq host s.view hparsed
    rw [hfile, heq]
    refine ⟨⟨"", 0, [], [], []⟩, ?_⟩
    unfold LiveSession.durable
    dsimp only
    rw [Option.map_some, hparsed]
    exact shown_loaded host _ durable

theorem setConnection_streams {source : ℕ} {changed : Option Connection}
    (h : ∀ other connection, s.connections other = some connection →
      ∃ place, Streaming (s.recorded s.current) connection place)
    (streaming : ∀ connection, changed = some connection →
      ∃ place, Streaming (s.recorded s.current) connection place) :
    ∀ other connection, (s.setConnection source changed).connections other = some connection →
      ∃ place, Streaming (s.recorded s.current) connection place := by
  intro other connection hconnection
  by_cases hother : other = source
  · rw [hother, setConnection_self] at hconnection
    exact streaming connection hconnection
  · rw [setConnection_other hother] at hconnection
    exact h other connection hconnection

theorem Sound.step (documented : host.Documented) (h : Sound host s) (made : Step host s move s') :
    Sound host s' := by
  obtain ⟨hordered, hstreams, shown, hshown⟩ := h
  have hrewired : ∀ {view : RrjjLive}, s.view.Rewired view →
      ∃ shown : Shown, shown.Of host s.recorded (s.durable host) view.timeline := by
    intro view hview
    rw [hview.timeline]
    exact ⟨shown, hshown⟩
  cases made with
  | record accepts =>
    refine ⟨hordered.record accepts, ?_, shown, hshown.grow (recorded_grows _)⟩
    intro source connection hconnection
    obtain ⟨place, hplace⟩ := hstreams source connection hconnection
    exact ⟨place, hplace.record (recorded_grows _ _)⟩
  | restart => exact ⟨hordered, fun _ _ hnone => absurd hnone.symm (Option.some_ne_none _), shown, hshown⟩
  | opened =>
    refine ⟨hordered, setConnection_streams hstreams ?_, shown, hshown⟩
    intro connection hconnection
    rw [← Option.some.inj hconnection]
    exact ⟨_, Nat.le_refl _, Nat.le_refl _, .done _⟩
  | pump connected received =>
    refine ⟨hordered, setConnection_streams hstreams ?_, shown, hshown⟩
    intro connection hconnection
    obtain ⟨place, hplace⟩ := hstreams _ _ connected
    rw [← Option.some.inj hconnection]
    exact ⟨place, hplace.pump documented.orderly received⟩
  | drop =>
    refine ⟨hordered, setConnection_streams hstreams ?_, shown, hshown⟩
    exact fun _ hnone => absurd hnone.symm (Option.some_ne_none _)
  | message connected arrives =>
    obtain ⟨place, hplace⟩ := hstreams _ _ connected
    refine ⟨hordered, setConnection_streams hstreams ?_, ?_⟩
    · intro connection hconnection
      rw [← Option.some.inj hconnection]
      rcases hplace.message arrives with ⟨_, _, _, hrest⟩ | ⟨_, _, hrest⟩ <;> exact ⟨_, hrest⟩
    · -- an event that arrives is one the session has recorded
      have hheld := hordered.arrived hplace arrives
      obtain ⟨after, hafter, -⟩ := RrjjLive.receive_shown documented hshown hheld
      exact ⟨after, hafter⟩
  | click => exact ⟨hordered, hstreams, hrewired (RrjjLive.click_rewired _)⟩
  | choose => exact ⟨hordered, hstreams, hrewired (RrjjLive.choose_rewired _)⟩
  | loaded => exact ⟨hordered, hstreams, loaded_shown ⟨shown, hshown⟩ rfl⟩
  | probed => exact ⟨hordered, hstreams, hrewired (RrjjLive.probed_rewired ..)⟩
  | attach => exact ⟨hordered, hstreams, hrewired (RrjjLive.connectedCallback_rewired ..)⟩
  | detach => exact ⟨hordered, hstreams, hrewired (RrjjLive.disconnectedCallback_rewired _)⟩

theorem sound_initial (host : LiveHost) (sessionId : String) : Sound host (initial sessionId) where
  ordered _ _ _ h := absurd h.symm (Option.some_ne_none _)
  streams _ _ h := absurd h.symm (Option.some_ne_none _)
  shows := ⟨_, shown_loaded host _ .empty⟩

variable {meets : LiveSession → LiveMove → Prop} {sessionId : String}

theorem Run.sound (documented : host.Documented) (run : Run (Step host) meets (initial sessionId) s) :
    Sound host s := by
  induction run with
  | start => exact sound_initial host sessionId
  | step _ _ _ made ih => exact ih.step documented made

theorem records_all (host : LiveHost) (sessionId : String) (events : List Event)
    (inOrder : ∀ (i : ℕ) (event : Event), events[i]? = some event →
      event.seq = i ∧ event.sessionId = sessionId) :
    ∃ s, Run (Step host) (fun _ _ => True) (initial sessionId) s ∧ s.current = sessionId ∧
      s.recorded sessionId = events := by
  induction events using List.reverseRecOn with
  | nil => exact ⟨_, .start, rfl, rfl⟩
  | append_singleton events event ih =>
    obtain ⟨s, run, rfl, rfl⟩ := ih fun i other hother => inOrder i other <| by
      rw [List.getElem?_append_left (List.getElem?_eq_some_iff.mp hother).1]
      exact hother
    obtain ⟨hseq, hsession⟩ := inOrder (s.recorded s.current).length event (by simp)
    refine ⟨_, run.step (.record event) trivial (.record ⟨hsession, hseq⟩), rfl, ?_⟩
    exact Function.update_self ..

theorem records_accepted (host : LiveHost) (env : Environment) (config : Config)
    (recorder : JjRecorder) (commands : List Command) :
    ∃ s, Run (Step host) (fun _ _ => True) (initial config.sessionId) s ∧
      s.current = config.sessionId ∧
      s.recorded config.sessionId = acceptedEvents (reached env config recorder commands).trace := by
  apply records_all
  exact fun i event hevent => accepted_numbers env config recorder commands hevent

/-- No file is taken up while the view follows a source. -/
def Undisturbed (s : LiveSession) (move : LiveMove) : Prop :=
  ∀ text, move = .loaded text → s.view.source = none

theorem undisturbed_of {s : LiveSession} {move : LiveMove} (h : ∀ text, move ≠ .loaded text) :
    Undisturbed s move := fun text hmove => absurd hmove (h text)

theorem example_followed : ∃ s, Run (Step (exampleHost 4)) Undisturbed (initial "s") s ∧
    s.view.source = some 0 ∧ s.connections 0 = some ⟨0, 1, []⟩ ∧
    s.view.timeline = exampleTimeline ∧ s.recorded s.current = [exampleFlush 0] := by
  have attached : Run (Step (exampleHost 4)) Undisturbed (initial "s") _ :=
    Run.start.step (.attach true) (undisturbed_of (by simp)) .attach
  have opened := attached.step (.opened 0) (undisturbed_of (by simp)) (.opened Nat.zero_lt_one rfl rfl)
  have recorded := opened.step (.record (exampleFlush 0)) (undisturbed_of (by simp)) (.record ⟨rfl, rfl⟩)
  have pumped := recorded.step (.pump 0) (undisturbed_of (by simp))
    (@Step.pump _ _ 0 1 _ (.value (exampleFlush 0)) rfl rfl)
  have shown := pumped.step (.message 0 _) (undisturbed_of (by simp)) (.message rfl rfl)
  obtain ⟨items, heq⟩ := exampleView_receive 4
  exact ⟨_, shown, congrArg RrjjLive.source heq, rfl, congrArg RrjjLive.timeline heq, rfl⟩

/-- At every moment the view shows the file that was taken up last, then events of one session as they
were recorded one after another, next after those of the file, and then notices, of which there are
none while the timeline is unbroken. -/
theorem live_view_shows_a_stretch (documented : host.Documented)
    (run : Run (Step host) meets (initial sessionId) s) :
    ∃ (recordedBy : String) (first : ℕ) (live : List Event) (values notices : List JsValue),
      s.view.timeline.events = (s.durable host).events ++ values ++ notices ∧
        live.map host.reads = values.map .ok ∧
        live <+: (s.recorded recordedBy).drop first ∧
        (live ≠ [] → (s.durable host).events ≠ [] → first = (s.durable host).events.length ∧
          (createLiveTimeline (s.durable host)).sessionId = some (JsText.of recordedBy)) ∧
        (∀ notice ∈ notices, validEnvelope notice = none) ∧
        (s.view.timeline.requiresResync = false → notices = []) := by
  obtain ⟨shown, hshown⟩ := (run.sound documented).shows
  exact ⟨shown.sessionId, shown.start, shown.live, shown.values, shown.notices, hshown.events, hshown.read,
    hshown.stretch, hshown.follows, hshown.notices, hshown.unbroken⟩

/-- A stretch, where there is one to show. -/
theorem live_view_shows_a_stretch_followed : ∃ s,
    Run (Step (exampleHost 4)) Undisturbed (initial "s") s ∧ s.view.timeline.events.length = 1 ∧
    ∃ (recordedBy : String) (first : ℕ) (live : List Event) (values notices : List JsValue),
      s.view.timeline.events = (s.durable (exampleHost 4)).events ++ values ++ notices ∧
        live.map (exampleHost 4).reads = values.map .ok ∧
        live <+: (s.recorded recordedBy).drop first ∧
        (live ≠ [] → (s.durable (exampleHost 4)).events ≠ [] →
          first = (s.durable (exampleHost 4)).events.length ∧
            (createLiveTimeline (s.durable (exampleHost 4))).sessionId = some (JsText.of recordedBy)) ∧
        (∀ notice ∈ notices, validEnvelope notice = none) ∧
        (s.view.timeline.requiresResync = false → notices = []) := by
  obtain ⟨s, run, -, -, htimeline, -⟩ := example_followed
  refine ⟨s, run, ?_, live_view_shows_a_stretch (exampleHost_documented 4) run⟩
  rw [htimeline]
  rfl

def Shows (host : LiveHost) (s : LiveSession) (connection : Connection) : Prop :=
  ∃ place, Streaming (s.recorded s.current) connection place ∧
    (connection.since < place →
      ∃ shown : Shown, shown.Of host s.recorded (s.durable host) s.view.timeline ∧
        shown.EndsAt s.current place)

structure Following (host : LiveHost) (s : LiveSession) : Prop where
  sound : Sound host s
  created : ∀ source connection, s.connections source = some connection → source < s.view.created
  shows : ∀ source connection, s.view.source = some source → s.connections source = some connection →
    s.view.timeline.requiresResync = false → s.Shows host connection

theorem Following.rewired (h : Following host s) (sound : Sound host s')
    (recorded : s'.recorded = s.recorded) (current : s'.current = s.current) (file : s'.file = s.file)
    (connections : s'.connections = s.connections) (rewired : s.view.Rewired s'.view) :
    Following host s' where
  sound := sound
  created source connection hconnection := by
    rw [connections] at hconnection
    exact (h.created source connection hconnection).trans_le rewired.created
  shows source connection hsource hconnection hunbroken := by
    rw [connections] at hconnection
    rw [rewired.timeline] at hunbroken
    rcases rewired.source source hsource with hold | hnew
    · unfold Shows LiveSession.durable
      rw [recorded, current, file, rewired.timeline]
      exact h.shows source connection hold hconnection hunbroken
    · have hcreated := h.created source connection hconnection
      omega

theorem Following.setConnection {source : ℕ} {changed : Option Connection} (h : Following host s)
    (sound : Sound host (s.setConnection source changed))
    (created : ∀ connection, changed = some connection → source < s.view.created)
    (shows : ∀ connection, changed = some connection → s.view.source = some source →
      s.view.timeline.requiresResync = false → s.Shows host connection) :
    Following host (s.setConnection source changed) where
  sound := sound
  created other connection hconnection := by
    by_cases hother : other = source
    · rw [hother, setConnection_self] at hconnection
      rw [hother]
      exact created connection hconnection
    · rw [setConnection_other hother] at hconnection
      exact h.created other connection hconnection
  shows other connection hsource hconnection hunbroken := by
    by_cases hother : other = source
    · rw [hother, setConnection_self] at hconnection
      rw [hother] at hsource
      exact shows connection hconnection hsource hunbroken
    · rw [setConnection_other hother] at hconnection
      exact h.shows other connection hsource hconnection hunbroken

theorem Following.message (documented : host.Documented) {source : ℕ} {connection : Connection}
    {item : Received Event} {rest : List (Received Event)} (h : Following host s) (made : Sound host s')
    (connected : s.connections source = some connection) (arrives : connection.inFlight = item :: rest)
    (next : s' = { s.setConnection source (some { connection with inFlight := rest }) with
      view := s.view.receive host source (sseMessage host item) }) : Following host s' := by
  subst next
  refine ⟨made, ?_, ?_⟩
  · intro other changed (hconnection : (s.setConnection source _).connections other = some changed)
    show other < (s.view.receive host source _).created
    rw [RrjjLive.receive_created]
    by_cases hother : other = source
    · rw [hother]
      exact h.created source connection connected
    · rw [setConnection_other hother] at hconnection
      exact h.created other changed hconnection
  · intro other changed hsource (hconnection : (s.setConnection source _).connections other = some changed)
      hunbroken
    have hattached : s.view.source = some other := RrjjLive.receive_source hsource
    by_cases hother : other = source
    · subst hother
      rw [setConnection_self] at hconnection
      obtain rfl := Option.some.inj hconnection
      obtain ⟨place, hplace⟩ := h.sound.streams other connection connected
      have hheld := h.sound.ordered.arrived hplace arrives
      obtain ⟨shown, hshown⟩ := h.sound.shows
      obtain ⟨after, hafter, hends⟩ := @RrjjLive.receive_shown _ _ other _ _ _ _ documented hshown hheld
      obtain ⟨event, rfl, hend⟩ := hends hattached hunbroken
      -- a lost stretch breaks the view
      rcases hplace.message arrives with ⟨same, hsame, hevent, hrest⟩ | ⟨missed, hmissed, -⟩
      · obtain rfl := Received.value.inj hsame
        obtain ⟨hseq, hsession, -⟩ := h.sound.ordered.held hevent
        rw [hseq, hsession] at hend
        exact ⟨place + 1, hrest, fun _ => ⟨after, hafter, hend⟩⟩
      · exact absurd hmissed (by simp)
    · -- a message of another source changes nothing
      have hstale : s.view.source ≠ some source := by
        rw [hattached]
        exact fun hsame => hother (Option.some.inj hsame)
      rw [setConnection_other hother] at hconnection
      unfold Shows
      dsimp only at hunbroken ⊢
      rw [RrjjLive.receive_stale hstale] at hunbroken ⊢
      exact h.shows other changed hattached hconnection hunbroken

theorem Following.step (documented : host.Documented) (h : Following host s) (made : Step host s move s')
    (undisturbed : Undisturbed s move) : Following host s' := by
  have hsound := h.sound.step documented made
  cases made with
  | record accepts =>
    refine ⟨hsound, h.created, ?_⟩
    intro source connection hsource hconnection hunbroken
    obtain ⟨place, hplace, hshown⟩ := h.shows source connection hsource hconnection hunbroken
    refine ⟨place, hplace.record (recorded_grows _ _), fun hsince => ?_⟩
    obtain ⟨shown, hof, hends⟩ := hshown hsince
    exact ⟨shown, hof.grow (recorded_grows _), hends⟩
  | restart =>
    refine ⟨hsound, fun _ _ hnone => absurd hnone.symm (Option.some_ne_none _), ?_⟩
    exact fun _ _ _ hnone => absurd hnone.symm (Option.some_ne_none _)
  | opened created =>
    apply h.setConnection hsound (fun _ _ => created)
    intro connection hconnection _ _
    rw [← Option.some.inj hconnection]
    exact ⟨_, ⟨Nat.le_refl _, Nat.le_refl _, .done _⟩, fun hsince => absurd hsince (Nat.lt_irrefl _)⟩
  | pump connected received =>
    apply h.setConnection hsound (fun _ _ => h.created _ _ connected)
    intro connection hconnection hsource hunbroken
    obtain ⟨place, hplace, hshown⟩ := h.shows _ _ hsource connected hunbroken
    rw [← Option.some.inj hconnection]
    exact ⟨place, hplace.pump documented.orderly received, hshown⟩
  | drop =>
    apply h.setConnection hsound
    · exact fun _ hnone => absurd hnone.symm (Option.some_ne_none _)
    · exact fun _ hnone => absurd hnone.symm (Option.some_ne_none _)
  | message connected arrives => exact h.message documented hsound connected arrives rfl
  | click => exact h.rewired hsound rfl rfl rfl rfl (RrjjLive.click_rewired _)
  | choose => exact h.rewired hsound rfl rfl rfl rfl (RrjjLive.choose_rewired _)
  | @loaded text =>
    -- a file is loaded only while nothing is connected
    have hnone := undisturbed text rfl
    obtain ⟨hsource, hcreated, -⟩ := @RrjjLive.loaded_wiring host s.view text
    refine ⟨hsound, ?_, ?_⟩
    · intro source connection hconnection
      show source < (s.view.loaded host text).created
      rw [hcreated]
      exact h.created source connection hconnection
    · intro source connection (hattached : (s.view.loaded host text).source = some source)
      rw [hsource, hnone] at hattached
      exact absurd hattached.symm (Option.some_ne_none _)
  | probed => exact h.rewired hsound rfl rfl rfl rfl (RrjjLive.probed_rewired ..)
  | attach => exact h.rewired hsound rfl rfl rfl rfl (RrjjLive.connectedCallback_rewired ..)
  | detach => exact h.rewired hsound rfl rfl rfl rfl (RrjjLive.disconnectedCallback_rewired _)

theorem following_initial (host : LiveHost) (sessionId : String) :
    Following host (initial sessionId) where
  sound := sound_initial host sessionId
  created _ _ h := absurd h.symm (Option.some_ne_none _)
  shows _ _ h := absurd h.symm (Option.some_ne_none _)

theorem Run.following (documented : host.Documented)
    (run : Run (Step host) Undisturbed (initial sessionId) s) : Following host s := by
  induction run with
  | start => exact following_initial host sessionId
  | step _ _ undisturbed made ih => exact ih.step documented made undisturbed

theorem Shown.Of.whole {shown : Shown} {durable : DurableTimeline} {timeline : LiveTimeline}
    {recorded : String → List Event} (h : shown.Of host recorded durable timeline)
    (unbroken : timeline.requiresResync = false)
    (ends : shown.EndsAt sessionId (recorded sessionId).length) :
    timeline.events = durable.events ++ shown.values ∧
      ((recorded sessionId).drop shown.start).map host.reads = shown.values.map .ok ∧
      shown.start < (recorded sessionId).length ∧
      (durable.events ≠ [] → shown.start = durable.events.length ∧
        (createLiveTimeline durable).sessionId = some (JsText.of sessionId)) := by
  obtain ⟨hlive, rfl, hlength⟩ := ends
  have hpositive : 0 < shown.live.length := List.length_pos_iff.mpr hlive
  have hall : shown.live = (recorded shown.sessionId).drop shown.start := by
    apply h.stretch.eq_of_length
    rw [List.length_drop]
    omega
  refine ⟨?_, ?_, by omega, h.follows hlive⟩
  · rw [h.events, h.unbroken unbroken, List.append_nil]
  · rw [← hall]
    exact h.read

/-- Where the view is unbroken and follows a connection that has delivered all that was recorded, and
something of it over that connection, the view shows the session up to its end, from one of its events
or from the end of the file that was taken up last on. -/
theorem live_view_caught_up (documented : host.Documented)
    (run : Run (Step host) Undisturbed (initial sessionId) s) {source : ℕ}
    (attached : s.view.source = some source) (connected : s.connections source = some connection)
    (unbroken : s.view.timeline.requiresResync = false)
    (sent : connection.position = (s.recorded s.current).length) (arrived : connection.inFlight = [])
    (later : connection.since < (s.recorded s.current).length) :
    ∃ (first : ℕ) (values : List JsValue),
      s.view.timeline.events = (s.durable host).events ++ values ∧
        ((s.recorded s.current).drop first).map host.reads = values.map .ok ∧
        first < (s.recorded s.current).length ∧
        ((s.durable host).events ≠ [] → first = (s.durable host).events.length ∧
          (createLiveTimeline (s.durable host)).sessionId = some (JsText.of s.current)) := by
  obtain ⟨place, hplace, hshows⟩ :=
    (run.following documented).shows source connection attached connected unbroken
  have hstream := hplace.stream
  rw [arrived, sent] at hstream
  cases hstream
  obtain ⟨shown, hshown, hends⟩ := hshows later
  exact ⟨shown.start, shown.values, Shown.Of.whole hshown unbroken hends⟩

theorem live_view_caught_up_followed : ∃ s,
    Run (Step (exampleHost 4)) Undisturbed (initial "s") s ∧ s.recorded s.current = [exampleFlush 0] ∧
    ∃ (first : ℕ) (values : List JsValue),
      s.view.timeline.events = (s.durable (exampleHost 4)).events ++ values ∧
        ((s.recorded s.current).drop first).map (exampleHost 4).reads = values.map .ok ∧
        first < (s.recorded s.current).length ∧
        ((s.durable (exampleHost 4)).events ≠ [] → first = (s.durable (exampleHost 4)).events.length ∧
          (createLiveTimeline (s.durable (exampleHost 4))).sessionId = some (JsText.of s.current)) := by
  obtain ⟨s, run, hattached, hconnected, htimeline, hrecorded⟩ := example_followed
  have hlength : (s.recorded s.current).length = 1 := by rw [hrecorded]; rfl
  have hunbroken : s.view.timeline.requiresResync = false := by rw [htimeline]; rfl
  refine ⟨s, run, hrecorded, live_view_caught_up (exampleHost_documented 4) run hattached hconnected
    hunbroken ?_ rfl ?_⟩
  · exact hlength.symm
  · rw [hlength]
    exact Nat.zero_lt_one

/-- Where a message tells of an overflow, its notice can be rendered. -/
def Renders (host : LiveHost) (s : LiveSession) (move : LiveMove) : Prop :=
  ∀ source message, move = .message source message → s.view.Renders host source message

theorem tidy_initial (sessionId : String) : (initial sessionId).view.Tidy where
  opened source := by
    constructor
    · exact fun hnone => absurd hnone.symm (Option.some_ne_none _)
    · exact fun hopen => absurd hopen.1 (Nat.not_lt_zero _)
  fresh _ _ := rfl
  broken h := Bool.noConfusion h

theorem Free.tidy (made : Free host s move s') (renders : s.Renders host move) (h : s.view.Tidy) :
    s'.view.Tidy := by
  cases made with
  | own made =>
    cases made with
    | record | restart | opened | pump | drop => exact h
    | message => exact h.receive (renders _ _ rfl)
    | click => exact h.click
    | choose => exact h.choose
    | loaded => exact h.loaded _
    | probed => exact h.probed _ _
    | attach => exact h.connectedCallback _
    | detach => exact h.disconnectedCallback
  | stray => exact h.receive (renders _ _ rfl)

theorem Run.tidy {first : LiveSession} (run : Run (Free host) meets first s)
    (renders : ∀ s move, meets s move → s.Renders host move) (h : first.view.Tidy) : s.view.Tidy := by
  induction run with
  | start => exact h
  | step move _ meet made ih => exact made.tidy (renders _ move meet) ih

theorem Free.broken (made : Free host s move s') (tidy : s.view.Tidy)
    (broken : s.view.timeline.requiresResync = true) (unloaded : ∀ text, move ≠ .loaded text) :
    s'.view.timeline = s.view.timeline := by
  have hnone := tidy.broken broken
  have hreceive : ∀ source message, (s.view.receive host source message).timeline = s.view.timeline := by
    intro source message
    rw [RrjjLive.receive_stale (by rw [hnone]; exact (Option.some_ne_none _).symm)]
  cases made with
  | own made =>
    cases made with
    | record | restart | opened | pump | drop => rfl
    | message => exact hreceive _ _
    | click => exact (RrjjLive.click_rewired _).timeline
    | choose => exact (RrjjLive.choose_rewired _).timeline
    | loaded => exact absurd rfl (unloaded _)
    | probed => exact (RrjjLive.probed_rewired ..).timeline
    | attach => exact (RrjjLive.connectedCallback_rewired ..).timeline
    | detach => exact (RrjjLive.disconnectedCallback_rewired _).timeline
  | stray => exact hreceive _ _

/-- Where the notices of overflows are rendered, a view whose timeline was broken has no source open and
shows nothing new until a file is taken up, whatever the daemons and the user do, and whatever else is
sent to it. -/
theorem live_view_stays_broken
    (run : Run (Free host) (Renders host) (initial sessionId) s)
    (broken : s.view.timeline.requiresResync = true)
    (onwards : Run (Free host) (fun s move => s.Renders host move ∧ ∀ text, move ≠ .loaded text) s s') :
    s'.view.timeline = s.view.timeline ∧ s'.view.source = none ∧
      ∀ source < s'.view.created, s'.view.closed source = true := by
  have htidy : s.view.Tidy := run.tidy (fun _ _ h => h) (tidy_initial sessionId)
  have hlater := onwards.tidy (fun _ _ h => h.1) htidy
  have hsame : s'.view.timeline = s.view.timeline := by
    induction onwards with
    | start => rfl
    | step move hrun hmeets made ih =>
      have hthere := hrun.tidy (fun _ _ h => h.1) htidy
      have hkept := ih hthere
      rw [made.broken hthere (hkept ▸ broken) hmeets.2, hkept]
  have hnone := hlater.broken (hsame ▸ broken)
  refine ⟨hsame, hnone, fun source hcreated => ?_⟩
  have hopened := hlater.opened source
  rw [hnone] at hopened
  grind

theorem example_overrun : ∃ s, Run (Free (exampleHost 1)) (Renders (exampleHost 1)) (initial "s") s ∧
    s.view.timeline.requiresResync = true := by
  have hquiet : ∀ {s : LiveSession} {move : LiveMove}, (∀ source message, move ≠ .message source message) →
      s.Renders (exampleHost 1) move := fun h source message hmove => absurd hmove (h source message)
  have attached : Run (Free (exampleHost 1)) (Renders (exampleHost 1)) (initial "s") _ :=
    Run.start.step (.attach true) (hquiet (by simp)) (.own .attach)
  have opened := attached.step (.opened 0) (hquiet (by simp)) (.own (.opened Nat.zero_lt_one rfl rfl))
  have recorded := opened.step (.record (exampleFlush 0)) (hquiet (by simp)) (.own (.record ⟨rfl, rfl⟩))
  have again := recorded.step (.record (exampleFlush 1)) (hquiet (by simp)) (.own (.record ⟨rfl, rfl⟩))
  have pumped := again.step (.pump 0) (hquiet (by simp)) (.own (@Step.pump _ _ 0 1 _ (.lagged 1) rfl rfl))
  have told := pumped.step (.message 0 _) ?_ (.own (.message rfl rfl))
  · have hlagged : ∀ view : RrjjLive, view.source = some 0 → (view.receive (exampleHost 1) 0
        (sseMessage (exampleHost 1) (.lagged 1))).timeline.requiresResync = true := by
      intro view hattached
      obtain ⟨detail, heq⟩ := RrjjLive.receive_lagged (exampleHost_documented 1) hattached 1
      rw [heq]
      rfl
    refine ⟨_, told, ?_⟩
    dsimp only
    exact hlagged _ rfl
  · intro source message hmove
    obtain ⟨rfl, rfl⟩ := LiveMove.message.inj hmove
    intro _ _ timeline htimeline
    exact exampleView_renders 1 htimeline

theorem live_view_stays_broken_clicked : ∃ s s', s.view.timeline.requiresResync = true ∧
    Run (Free (exampleHost 1)) (fun s move => s.Renders (exampleHost 1) move ∧
      ∀ text, move ≠ .loaded text) s s' ∧
    s'.view.timeline = s.view.timeline ∧ s'.view.source = none ∧
      ∀ source < s'.view.created, s'.view.closed source = true := by
  obtain ⟨s, run, hbroken⟩ := example_overrun
  have onwards : Run (Free (exampleHost 1)) (fun s move => s.Renders (exampleHost 1) move ∧
      ∀ text, move ≠ .loaded text) s _ :=
    Run.start.step .click ⟨fun _ _ hmove => absurd hmove (by simp), by simp⟩ (.own .click)
  have strayed := onwards.step (.message 0 ⟨"event", none, "\x7b\x7d"⟩)
    ⟨fun source message hmove _ hevent => ?_, by simp⟩ .stray
  · exact ⟨s, _, hbroken, strayed, live_view_stays_broken run hbroken strayed⟩
  · rw [← (LiveMove.message.inj hmove).2] at hevent
    exact absurd hevent (by decide)

end LiveSession

end Rrjj
