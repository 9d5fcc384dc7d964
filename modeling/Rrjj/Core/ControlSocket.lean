import Mathlib.Tactic

/-! Daemons that start and stop over the path of one control socket, each call of each of them a step
of its own. A daemon that serves is the one that clients reach, unless it has bound its socket while
another one was about to remove what stands at the path. -/

namespace Rrjj

inductive SocketEnd where
  | notSocket
  | active
  | inUse
  | stopped
  | killed
  deriving DecidableEq

/-- Where a daemon is: it has not looked at the path, `symlink_metadata` has found a socket there, the
probe was refused, `remove_stale_socket` has returned, it serves, or its listener is dropped and the
coordinator shuts down. -/
inductive SocketPhase where
  | waiting
  | found
  | refused
  | cleared
  | serving
  | stopping
  | ended (how : SocketEnd)
  deriving DecidableEq

inductive PathEntry where
  | socket (daemon : ℕ)
  | other
  deriving DecidableEq

structure ControlSocket where
  entry : Option PathEntry
  phase : ℕ → SocketPhase

inductive SocketMove where
  | inspect (daemon : ℕ)
  | probe (daemon : ℕ)
  | remove (daemon : ℕ)
  | bind (daemon : ℕ)
  | stop (daemon : ℕ)
  | unlink (daemon : ℕ)
  | kill (daemon : ℕ)
  deriving DecidableEq

def SocketMove.daemon : SocketMove → ℕ
  | .inspect daemon | .probe daemon | .remove daemon | .bind daemon | .stop daemon | .unlink daemon
  | .kill daemon => daemon

namespace ControlSocket

def enter (s : ControlSocket) (daemon : ℕ) (phase : SocketPhase) : ControlSocket :=
  { s with phase := Function.update s.phase daemon phase }

def answers (s : ControlSocket) : Option ℕ :=
  match s.entry with
  | some (.socket daemon) => if s.phase daemon = .serving then some daemon else none
  | _ => none

def step (s : ControlSocket) : SocketMove → Option ControlSocket
  | .inspect daemon =>
    if s.phase daemon = .waiting then
      match s.entry with
      | none => some (s.enter daemon .cleared)
      | some .other => some (s.enter daemon (.ended .notSocket))
      | some (.socket _) => some (s.enter daemon .found)
    else none
  | .probe daemon =>
    if s.phase daemon = .found then
      if s.answers.isSome then some (s.enter daemon (.ended .active))
      else some (s.enter daemon .refused)
    else none
  | .remove daemon =>
    if s.phase daemon = .refused then some { s.enter daemon .cleared with entry := none } else none
  | .bind daemon =>
    if s.phase daemon = .cleared then
      if s.entry.isSome then some (s.enter daemon (.ended .inUse))
      else some { s.enter daemon .serving with entry := some (.socket daemon) }
    else none
  | .stop daemon =>
    if s.phase daemon = .serving then some (s.enter daemon .stopping) else none
  | .unlink daemon =>
    if s.phase daemon = .stopping then some { s.enter daemon (.ended .stopped) with entry := none }
    else none
  | .kill daemon => some (s.enter daemon (.ended .killed))

/-- A run all of whose moves meet a condition on the state in which they are made. -/
inductive Run (meets : ControlSocket → SocketMove → Prop) (first : ControlSocket) : ControlSocket → Prop
  | start : Run meets first first
  | step {s s' : ControlSocket} (move : SocketMove) (run : Run meets first s) (meet : meets s move)
      (made : s.step move = some s') : Run meets first s'

/-- Nobody is under way; a socket that stands at the path is one that was left there. -/
def Quiet (s : ControlSocket) : Prop := ∀ daemon, s.phase daemon = .waiting ∨ ∃ how, s.phase daemon = .ended how

def Removing (s : ControlSocket) (daemon : ℕ) : Prop :=
  s.phase daemon = .refused ∨ s.phase daemon = .stopping

/-- No daemon binds its socket at the free path while another one is about to remove what stands there. -/
def Undisturbed (s : ControlSocket) (move : SocketMove) : Prop :=
  ∀ daemon, move = .bind daemon → s.entry = none → ∀ other, ¬ s.Removing other

structure Owned (s : ControlSocket) : Prop where
  entry : ∀ daemon, s.phase daemon = .serving → s.entry = some (.socket daemon)
  safe : ∀ daemon, s.phase daemon = .serving → ∀ other, ¬ s.Removing other

variable {s s' first : ControlSocket} {daemon other : ℕ} {phase : SocketPhase} {move : SocketMove}

theorem enter_self : (s.enter daemon phase).phase daemon = phase := Function.update_self ..

theorem enter_other (h : other ≠ daemon) : (s.enter daemon phase).phase other = s.phase other :=
  Function.update_of_ne h ..

theorem enter_phase {held : SocketPhase} (h : (s.enter daemon phase).phase other = held) :
    other = daemon ∧ phase = held ∨ other ≠ daemon ∧ s.phase other = held := by
  by_cases hsame : other = daemon
  · subst hsame
    exact Or.inl ⟨rfl, enter_self.symm.trans h⟩
  · exact Or.inr ⟨hsame, (enter_other hsame).symm.trans h⟩

theorem enter_removing (h : (s.enter daemon phase).Removing other) :
    other = daemon ∧ (phase = .refused ∨ phase = .stopping) ∨ other ≠ daemon ∧ s.Removing other := by
  rcases h with h | h
  · rcases enter_phase h with ⟨hsame, hphase⟩ | ⟨hne, hother⟩
    · exact Or.inl ⟨hsame, Or.inl hphase⟩
    · exact Or.inr ⟨hne, Or.inl hother⟩
  · rcases enter_phase h with ⟨hsame, hphase⟩ | ⟨hne, hother⟩
    · exact Or.inl ⟨hsame, Or.inr hphase⟩
    · exact Or.inr ⟨hne, Or.inr hother⟩

theorem Owned.answers (h : s.Owned) (serving : s.phase daemon = .serving) : s.answers = some daemon := by
  unfold ControlSocket.answers
  rw [h.entry daemon serving]
  exact if_pos serving

theorem Owned.enter (h : s.Owned) (serves : phase ≠ .serving)
    (removes : ¬ (phase = .refused ∨ phase = .stopping)) : (s.enter daemon phase).Owned where
  entry other hother := by
    rcases enter_phase hother with ⟨-, hphase⟩ | ⟨-, hserving⟩
    · exact absurd hphase serves
    · exact h.entry other hserving
  safe other hother remover hremover := by
    rcases enter_phase hother with ⟨-, hphase⟩ | ⟨-, hserving⟩
    · exact absurd hphase serves
    · have hbefore := (enter_removing hremover).resolve_left fun hmoved => removes hmoved.2
      exact h.safe other hserving remover hbefore.2

theorem owned_of_idle {entry : Option PathEntry} (idle : ∀ other ≠ daemon, s.phase other ≠ .serving)
    (serves : phase ≠ .serving) : Owned { s.enter daemon phase with entry := entry } := by
  have hnone : ∀ other, (s.enter daemon phase).phase other ≠ .serving := by
    intro other hother
    rcases enter_phase hother with ⟨-, hphase⟩ | ⟨hne, hserving⟩
    · exact serves hphase
    · exact idle other hne hserving
  exact ⟨fun other hother => absurd hother (hnone other), fun other hother => absurd hother (hnone other)⟩

theorem Owned.step (h : s.Owned) (made : s.step move = some s') (undisturbed : s.Undisturbed move) :
    s'.Owned := by
  unfold ControlSocket.step at made
  cases move with
  | inspect daemon =>
    dsimp only at made
    split_ifs at made
    split at made <;> rw [← Option.some.inj made] <;> exact h.enter (by simp) (by simp)
  | probe daemon =>
    dsimp only at made
    split_ifs at made with hfound hanswers
    · rw [← Option.some.inj made]
      exact h.enter (by simp) (by simp)
    · -- nobody has answered the probe, so nobody serves
      rw [← Option.some.inj made]
      apply owned_of_idle _ (by simp)
      intro other _ hserving
      exact hanswers (by rw [h.answers hserving]; rfl)
  | remove daemon =>
    dsimp only at made
    split_ifs at made with hrefused
    rw [← Option.some.inj made]
    apply owned_of_idle _ (by simp)
    exact fun other _ hserving => h.safe other hserving daemon (Or.inl hrefused)
  | bind daemon =>
    dsimp only at made
    split_ifs at made with hcleared hentry
    · rw [← Option.some.inj made]
      exact h.enter (by simp) (by simp)
    · -- the path was free, so nobody has served
      rw [← Option.some.inj made]
      have hidle : ∀ other, s.phase other ≠ .serving := by
        intro other hserving
        rw [h.entry other hserving] at hentry
        exact hentry rfl
      refine ⟨fun other hother => ?_, fun other _ remover hremover => ?_⟩
      · rcases enter_phase hother with ⟨hsame, -⟩ | ⟨-, hserving⟩
        · rw [hsame]
        · exact absurd hserving (hidle other)
      · have hbefore := (enter_removing hremover).resolve_left (by simp)
        exact undisturbed daemon rfl (Option.not_isSome_iff_eq_none.mp hentry) remover hbefore.2
  | stop daemon =>
    dsimp only at made
    split_ifs at made with hserving
    rw [← Option.some.inj made]
    apply owned_of_idle _ (by simp)
    intro other hne hother
    -- two that serve would both own the entry
    have hsame := (h.entry other hother).symm.trans (h.entry daemon hserving)
    exact hne (PathEntry.socket.inj (Option.some.inj hsame))
  | unlink daemon =>
    dsimp only at made
    split_ifs at made with hstopping
    rw [← Option.some.inj made]
    apply owned_of_idle _ (by simp)
    exact fun other _ hserving => h.safe other hserving daemon (Or.inr hstopping)
  | kill daemon =>
    rw [← Option.some.inj made]
    exact h.enter (by simp) (by simp)

theorem Quiet.owned (h : s.Quiet) : s.Owned := by
  have hnone : ∀ daemon, s.phase daemon ≠ .serving := by
    intro daemon hserving
    rcases h daemon with hwaiting | ⟨how, hended⟩
    · exact absurd (hwaiting.symm.trans hserving) (by simp)
    · exact absurd (hended.symm.trans hserving) (by simp)
  exact ⟨fun daemon h => absurd h (hnone daemon), fun daemon h => absurd h (hnone daemon)⟩

/-- Where no socket is bound while another daemon is about to remove what stands at the path, whoever
serves is the one that clients reach, whatever else is interleaved; so there is one at most. -/
theorem serving_is_reached (quiet : first.Quiet) (run : Run Undisturbed first s) :
    s.phase daemon = .serving ↔ s.answers = some daemon := by
  have howned : s.Owned := by
    induction run with
    | start => exact quiet.owned
    | step move run meet made ih => exact ih.step made meet
  constructor
  · exact howned.answers
  · intro hanswers
    unfold answers at hanswers
    split at hanswers
    · split_ifs at hanswers with hserving
      rw [← Option.some.inj hanswers]
      exact hserving
    · exact absurd hanswers (by simp)

def vacant : ControlSocket := ⟨none, fun _ => .waiting⟩

theorem vacant_quiet : vacant.Quiet := fun _ => Or.inl rfl

theorem vacant_idle : ¬ vacant.Removing other := by
  rintro (h | h)
  · exact absurd h (by simp [vacant])
  · exact absurd h (by simp [vacant])

/-- The second daemon starts on the socket that the first one has left when it was killed. -/
theorem serving_is_reached_restarted : ∃ s, Run Undisturbed vacant s ∧
    (s.phase 1 = .serving ↔ s.answers = some 1) ∧ s.answers = some 1 := by
  have hfree : ∀ {s : ControlSocket} {move : SocketMove}, (∀ daemon, move ≠ .bind daemon) →
      s.Undisturbed move := fun h daemon hmove => absurd hmove (h daemon)
  have inspected : Run Undisturbed vacant _ := Run.start.step (.inspect 0) (hfree (by simp)) rfl
  have bound := inspected.step (.bind 0) (fun _ _ _ other hother => by
    have hbefore := (enter_removing hother).resolve_left (by simp)
    exact vacant_idle hbefore.2) rfl
  have killed := bound.step (.kill 0) (hfree (by simp)) rfl
  have found := killed.step (.inspect 1) (hfree (by simp)) rfl
  have refused := found.step (.probe 1) (hfree (by simp)) rfl
  have cleared := refused.step (.remove 1) (hfree (by simp)) rfl
  have again := cleared.step (.bind 1) (fun _ _ _ other hother => by
    obtain ⟨hother, hbefore⟩ := (enter_removing hother).resolve_left (by simp)
    have hfound := (enter_removing hbefore).resolve_left fun h => hother h.1
    have hkilled := (enter_removing hfound.2).resolve_left (by simp)
    have hbound := (enter_removing hkilled.2).resolve_left (by simp)
    have hinspected := (enter_removing hbound.2).resolve_left (by simp)
    exact vacant_idle ((enter_removing hinspected.2).resolve_left (by simp)).2) rfl
  exact ⟨_, again, serving_is_reached vacant_quiet again, rfl⟩

/-- A daemon that has stopped removes the socket of the one that has started meanwhile; the next one
serves beside that. -/
example : ([.inspect 0, .bind 0, .stop 0, .inspect 1, .probe 1, .remove 1, .bind 1, .unlink 0,
      .inspect 2, .bind 2].foldlM step vacant).map
        (fun s => (s.phase 1, s.phase 2, s.answers)) = some (.serving, .serving, some 2) := by
  decide

/-- A daemon that starts while nobody else moves serves in the end, unless another one answers or
something else stands at the path; what daemons before it have left there is no hindrance. -/
theorem starts_alone (waiting : s.phase daemon = .waiting) (unanswered : s.answers = none)
    (free : s.entry ≠ some .other) : ∃ s', Run (fun _ move => move.daemon = daemon) s s' ∧
      s'.answers = some daemon ∧ ∀ other ≠ daemon, s'.phase other = s.phase other := by
  have hbind : ∀ t : ControlSocket, t.phase daemon = .cleared → t.entry = none →
      Run (fun _ move => move.daemon = daemon) s t →
      (∀ other ≠ daemon, t.phase other = s.phase other) →
      ∃ s', Run (fun _ move => move.daemon = daemon) s s' ∧ s'.answers = some daemon ∧
        ∀ other ≠ daemon, s'.phase other = s.phase other := by
    intro t hcleared hentry run hsame
    refine ⟨{ t.enter daemon .serving with entry := some (.socket daemon) },
      run.step (.bind daemon) rfl (by simp [step, hcleared, hentry]), ?_, fun other hother => ?_⟩
    · simp [answers, enter]
    · exact (enter_other hother).trans (hsame other hother)
  rcases hentry : s.entry with _ | left | _
  · apply hbind (s.enter daemon .cleared) enter_self hentry
    · exact Run.start.step (.inspect daemon) rfl (by simp [step, waiting, hentry])
    · exact fun other hother => enter_other hother
  · -- the socket is one that nobody answers
    have hleft : s.phase left ≠ .serving := by
      intro hserving
      unfold ControlSocket.answers at unanswered
      rw [hentry] at unanswered
      simp [hserving] at unanswered
    have hquiet : (s.enter daemon .found).answers = none := by
      unfold ControlSocket.answers
      show (match s.entry with
        | some (.socket other) =>
          if (s.enter daemon .found).phase other = .serving then some other else none
        | _ => none) = none
      rw [hentry]
      apply if_neg
      intro hserving
      rcases enter_phase hserving with ⟨-, hphase⟩ | ⟨-, hbefore⟩
      · exact absurd hphase (by simp)
      · exact hleft hbefore
    have found : Run (fun _ move => move.daemon = daemon) s (s.enter daemon .found) :=
      Run.start.step (.inspect daemon) rfl (by simp [step, waiting, hentry])
    have refused := found.step (.probe daemon) rfl (by
      show step _ _ = some ((s.enter daemon .found).enter daemon .refused)
      simp [step, enter_self, hquiet])
    apply hbind _ _ rfl (refused.step (.remove daemon) rfl (by
      show step _ _ = some { ((s.enter daemon .found).enter daemon .refused).enter daemon .cleared with
        entry := none }
      simp [step, enter_self]))
    · intro other hother
      exact (enter_other hother).trans ((enter_other hother).trans (enter_other hother))
    · exact enter_self
  · exact absurd hentry free

end ControlSocket

end Rrjj
