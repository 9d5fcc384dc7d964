import Rrjj.Library.RefName
import Rrjj.Sinks.Git

/-! The session ref: what the checks of `create` tell of it, and when it is a name that Git
accepts. -/

namespace Rrjj
open Library Library.Proc

theorem startsWith_iff {text start : String} :
    startsWith text start = true ↔ start.toList <+: text.toList := by
  unfold startsWith
  exact List.isPrefixOf_iff_prefix

theorem endsWith_iff {text finish : String} :
    endsWith text finish = true ↔ finish.toList <:+ text.toList := by
  unfold endsWith
  exact List.isSuffixOf_iff_suffix

theorem mentions_iff {text part : String} :
    mentions text part = true ↔ part.toList <:+: text.toList := by
  unfold mentions
  exact decide_eq_true_iff

theorem mentions_letter {text part : String} {letter : Char} (h : part.toList = [letter]) :
    mentions text part = true ↔ letter ∈ text.toList := by
  rw [mentions_iff, h, List.singleton_infix_iff]

theorem validateRefPrefix_ok_iff {refPrefix : String} :
    validateRefPrefix refPrefix = .ok () ↔
      ("refs/".toList <+: refPrefix.toList ∧ ¬ "refs/heads".toList <+: refPrefix.toList) ∧
        ¬ ['/', '/'] <:+: refPrefix.toList ∧ ¬ ['/'] <:+ refPrefix.toList := by
  unfold validateRefPrefix
  rw [ite_error_iff, ite_error_iff]
  simp only [Bool.or_eq_true, Bool.not_eq_true', not_or, Bool.not_eq_false, startsWith_iff,
    endsWith_iff, mentions_iff, and_true]
  rfl

theorem validateSessionId_ok_iff {sessionId : String} :
    validateSessionId sessionId = .ok () ↔
      (sessionId.toList ≠ [] ∧ '/' ∉ sessionId.toList) ∧
        ('\\' ∉ sessionId.toList ∧ '\x00' ∉ sessionId.toList) ∧
        ¬ ['.', '.'] <:+: sessionId.toList := by
  have hempty : sessionId.isEmpty = true ↔ sessionId.toList = [] := by simp
  have hslash : mentions sessionId "/" = true ↔ _ := mentions_letter rfl
  have hback : mentions sessionId "\\" = true ↔ _ := mentions_letter rfl
  have hnul : mentions sessionId "\x00" = true ↔ _ := mentions_letter rfl
  have hdots : mentions sessionId ".." = true ↔ ['.', '.'] <:+: _ := mentions_iff
  unfold validateSessionId
  rw [ite_error_iff]
  simp only [Bool.or_eq_true, not_or, hempty, hslash, hback, hnul, hdots, and_true, and_assoc]
  rfl

/-- What the checks of `create` leave to the choice of the prefix and of the id. -/
structure RefSafe (refPrefix sessionId : List Char) : Prop where
  letters : ∀ letter ∈ refPrefix ++ sessionId, isRefForbidden letter = false
  dots : ¬ ['.', '.'] <:+: refPrefix
  brace : ¬ ['@', '{'] <:+: refPrefix ∧ ¬ ['@', '{'] <:+: sessionId
  parts : ∀ part ∈ refPrefix.splitOn '/' ++ [sessionId], ¬ ['.'] <+: part ∧ ¬ ".lock".toList <:+ part
  ended : ¬ ['.'] <:+ sessionId

namespace GitCheckpointConfig
variable {config : GitCheckpointConfig} {file : PushedFile} {pushed : Option String}

theorem create_ok (created : config.create file = .ok pushed) :
    validateRefPrefix config.refPrefix = .ok () ∧ file.readPushedOid = .ok pushed := by
  obtain ⟨⟨⟩, hvalid, h⟩ := bind_ok_iff.mp created
  obtain ⟨⟨⟩, -, h⟩ := bind_ok_iff.mp h
  exact ⟨hvalid, h⟩

theorem create_sessionId (created : config.create file = .ok pushed) :
    validateSessionId config.sessionId = .ok () := by
  obtain ⟨⟨⟩, -, h⟩ := bind_ok_iff.mp created
  obtain ⟨⟨⟩, hvalid, -⟩ := bind_ok_iff.mp h
  exact hvalid

theorem sessionRef_eq (valid : validateRefPrefix config.refPrefix = .ok ()) :
    config.sessionRef.toList = config.refPrefix.toList ++ '/' :: config.sessionId.toList := by
  obtain ⟨-, -, hends⟩ := validateRefPrefix_ok_iff.1 valid
  have hwhole : config.refPrefix.toList.rdropWhile (· = '/') = config.refPrefix.toList := by
    rw [List.rdropWhile_eq_self_iff]
    intro hne hlast
    have hslash : config.refPrefix.toList.getLast hne = '/' := by simpa using hlast
    rw [List.singleton_suffix_iff_getLast?_eq_some, List.getLast?_eq_some_getLast hne, hslash] at hends
    exact hends rfl
  unfold sessionRef
  rw [hwhole, String.toList_append, String.toList_append, String.toList_ofList, List.append_assoc]
  rfl

theorem sessionRef_outside (valid : validateRefPrefix config.refPrefix = .ok ()) :
    ¬ "refs/heads/".toList <+: config.sessionRef.toList := by
  obtain ⟨⟨⟨part, hpart⟩, hheads⟩, -⟩ := validateRefPrefix_ok_iff.1 valid
  intro hunder
  rw [sessionRef_eq valid, ← hpart, List.append_assoc] at hunder
  have hsplit : "refs/heads/".toList = "refs/".toList ++ ("heads".toList ++ ['/']) := by decide
  rw [hsplit, List.prefix_append_right_inj] at hunder
  -- `heads` would be the first component after `refs`, and so be in the prefix
  have hword : "heads".toList <+: part :=
    prefix_of_join (by decide) ((List.prefix_append _ ['/']).trans hunder)
  refine hheads ?_
  rw [← hpart]
  exact (List.prefix_append_right_inj "refs/".toList).2 hword

theorem sessionRef_checked (valid : validateRefPrefix config.refPrefix = .ok ()) :
    GitCheckpointSink.checkSessionRef config.sessionRef = .ok () := by
  obtain ⟨⟨hrefs, -⟩, -⟩ := validateRefPrefix_ok_iff.1 valid
  unfold GitCheckpointSink.checkSessionRef
  rw [ite_error_iff]
  refine ⟨?_, rfl⟩
  rw [Bool.or_eq_true, not_or, Bool.not_eq_true', Bool.not_eq_false, startsWith_iff, startsWith_iff]
  refine ⟨sessionRef_outside valid, ?_⟩
  rw [sessionRef_eq valid]
  exact hrefs.trans (List.prefix_append _ _)

theorem refPrefix_written {refPrefix : String} (valid : validateRefPrefix refPrefix = .ok ()) :
    ∀ part ∈ refPrefix.toList.splitOn '/', part ≠ [] := by
  obtain ⟨⟨⟨rest, hrest⟩, -⟩, hdouble, hends⟩ := validateRefPrefix_ok_iff.1 valid
  refine component_written ?_ ?_ hends hdouble
  · rw [← hrest]
    exact List.cons_ne_nil _ _
  · rw [← hrest, List.singleton_prefix_iff_head?_eq_some]
    exact fun h => absurd (Option.some.inj h) (by decide)

/-- The rules that the checks do not make sure of are all that is missing. -/
theorem sessionRef_format_iff (valid : validateRefPrefix config.refPrefix = .ok ())
    (safe : validateSessionId config.sessionId = .ok ()) :
    RefFormat config.sessionRef.toList ↔
      RefSafe config.refPrefix.toList config.sessionId.toList := by
  obtain ⟨⟨hwritten, hslash⟩, -, hdots⟩ := validateSessionId_ok_iff.1 safe
  rw [sessionRef_eq valid, refFormat_join_iff hslash hwritten]
  constructor
  · rintro ⟨⟨hfront, hlast⟩, hparts, hended⟩
    refine ⟨fun letter hmem => ?_, hfront.dots, ⟨hfront.brace, hlast.brace⟩, ?_, hended⟩
    · exact (List.mem_append.1 hmem).elim (hfront.letters letter) (hlast.letters letter)
    · exact fun part hpart => ⟨(hparts part hpart).visible, (hparts part hpart).unlocked⟩
  · intro h
    refine ⟨⟨⟨?_, h.dots, h.brace.1⟩, ⟨?_, hdots, h.brace.2⟩⟩, fun part hpart => ?_, h.ended⟩
    · exact fun letter hmem => h.letters letter (List.mem_append_left _ hmem)
    · exact fun letter hmem => h.letters letter (List.mem_append_right _ hmem)
    · have hne : part ≠ [] := by
        rcases List.mem_append.1 hpart with hfront | hlast
        · exact refPrefix_written valid part hfront
        · rw [List.mem_singleton.1 hlast]
          exact hwritten
      exact ⟨hne, (h.parts part hpart).1, (h.parts part hpart).2⟩

structure RefUsable (config : GitCheckpointConfig) : Prop where
  format : RefFormat config.sessionRef.toList
  under : ∃ name ≠ [], config.sessionRef.toList = config.refPrefix.toList ++ '/' :: name
  outside : ¬ "refs/heads/".toList <+: config.sessionRef.toList
  checked : GitCheckpointSink.checkSessionRef config.sessionRef = .ok ()

theorem sessionRef_usable_iff (created : config.create file = .ok pushed) :
    config.RefUsable ↔ RefSafe config.refPrefix.toList config.sessionId.toList := by
  obtain ⟨hvalid, -⟩ := create_ok created
  have hsafe := create_sessionId created
  obtain ⟨⟨hwritten, -⟩, -⟩ := validateSessionId_ok_iff.1 hsafe
  constructor
  · intro h
    exact (sessionRef_format_iff hvalid hsafe).1 h.format
  · intro h
    refine ⟨(sessionRef_format_iff hvalid hsafe).2 h, ?_, sessionRef_outside hvalid, ?_⟩
    · exact ⟨config.sessionId.toList, hwritten, sessionRef_eq hvalid⟩
    · exact sessionRef_checked hvalid

/-- The default prefix, and an id that is given on the command line. -/
def sessionNamed (sessionId : String) : GitCheckpointConfig where
  remoteUrl := "https://git/session"
  authorization := none
  refPrefix := "refs/rrjj/sessions"
  sessionId := sessionId
  cursorPath := "session.git-cursor.json"

theorem sessionRef_usable_named : (sessionNamed "session-1").RefUsable := by
  have hcreated : (sessionNamed "session-1").create .missing = .ok none := by decide +kernel
  refine (sessionRef_usable_iff hcreated).2 ⟨letters_iff.1 ?_, ?_, ?_, ?_, ?_⟩
  all_goals decide

theorem sessionRef_blank :
    (sessionNamed "my session").create .missing = .ok none ∧
      ¬ (sessionNamed "my session").RefUsable := by
  have hcreated : (sessionNamed "my session").create .missing = .ok none := by decide +kernel
  refine ⟨hcreated, fun h => ?_⟩
  have hformat := h.format
  rw [sessionRef_eq (create_ok hcreated).1] at hformat
  exact absurd hformat (by decide)

end GitCheckpointConfig

namespace GitCheckpointSink
variable {α : Type} {sink : GitCheckpointSink} {answers : GitAnswers} {s : GitState}

def Refuses (m : GitTask α) (s : GitState) : Prop := ∃ failure, m.run s = (.error failure, s)

theorem Refuses.after_orFail {answer : Except String Unit} {failure : String → SinkError}
    {next : Unit → GitTask α} (h : Refuses (next ()) s) :
    Refuses (orFail answer failure >>= next) s := by
  cases answer with
  | ok => exact h
  | error message => exact ⟨failure message, rfl⟩

theorem Refuses.after_check {β : Type} {check : Except SinkError β} {next : β → GitTask α}
    (h : ∀ value, Refuses (next value) s) : Refuses (Proc.ofExcept check >>= next) s := by
  cases check with
  | ok value => exact h value
  | error failure => exact ⟨failure, rfl⟩

theorem prepare_refuses {message : String} (refused : answers.referenced = .error message)
    (shadowRoot commit : String) : Refuses (sink.prepare answers shadowRoot commit) s := by
  unfold prepare
  refine .after_check fun _ => .after_orFail (.after_orFail (.after_orFail ?_))
  rw [refused]
  exact ⟨_, rfl⟩

theorem publishCheckpoint_refuses {message : String} (refused : answers.referenced = .error message)
    (request : CheckpointRequest) : Refuses (sink.publishCheckpoint answers request) s := by
  unfold publishCheckpoint
  refine .after_check fun commit => ?_
  obtain ⟨failure, hprepare⟩ : Refuses (sink.prepare answers request.shadowRoot commit) s :=
    prepare_refuses refused request.shadowRoot commit
  have hpush : (sink.pushCheckpointFromShadow answers request.shadowRoot commit s.lastPushed).run s =
      (.error failure, s) := by
    unfold pushCheckpointFromShadow
    rw [run_bind, hprepare]
  refine ⟨sink.config.sanitizedError failure, ?_⟩
  unfold publishCommit
  simp only [run_bind, run_get, Proc.attempt, hpush, run_throw]

/-- An id that `create` accepts and Git does not is refused at every flush, and never earlier. -/
theorem unsafe_never_published {file : PushedFile} {pushed : Option String}
    (created : sink.config.create file = .ok pushed)
    (unusable : ¬ RefSafe sink.config.refPrefix.toList sink.config.sessionId.toList)
    (git : ¬ RefFormat sink.config.sessionRef.toList → ∃ message, answers.referenced = .error message)
    (request : CheckpointRequest) : Refuses (sink.publishCheckpoint answers request) s := by
  have hformat := GitCheckpointConfig.sessionRef_format_iff (GitCheckpointConfig.create_ok created).1
    (GitCheckpointConfig.create_sessionId created)
  obtain ⟨message, hrefused⟩ := git (fun h => unusable (hformat.1 h))
  exact publishCheckpoint_refuses hrefused request

end GitCheckpointSink
end Rrjj
