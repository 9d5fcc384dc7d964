import Rrjj.Core.Control
import Rrjj.Reader.Timeline

/-! Lines that cannot be read. One of them takes its whole file with it, and a mark can put one there:
its metadata lie deeper in the event that is recorded than in the request that brought it. -/

namespace Rrjj
open Library

section
variable {before after line : Bytes}

theorem splitOn_line (after : Bytes) (complete : Complete before) (one : newline ∉ line) :
    ∃ front back, (before ++ (line ++ newline :: after)).splitOn newline = front ++ line :: back ∧
      back ≠ [] := by
  have hline : (line ++ newline :: after).splitOn newline = line :: after.splitOn newline := by
    rw [List.splitOn_append_cons_self, List.splitOn_eq_singleton one]
    rfl
  rcases complete with rfl | hlast
  · exact ⟨[], after.splitOn newline, by rw [List.nil_append, hline]; rfl, List.splitOn_ne_nil _ _⟩
  · obtain ⟨body, rfl⟩ := List.getLast?_eq_some_iff.mp hlast
    refine ⟨body.splitOn newline, after.splitOn newline, ?_, List.splitOn_ne_nil _ _⟩
    rw [List.append_assoc, List.singleton_append, List.splitOn_append_cons_self, hline]

theorem parseEventSpool_refuses {serde : Serde} {path sessionId sinkName : String} {version : ℕ}
    (complete : Complete before) (one : newline ∉ line) (nonempty : line ≠ [])
    (refused : ∀ event, serde.fromSlice line ≠ .ok event) :
    ∀ events, parseEventSpool serde (before ++ (line ++ newline :: after)) path sessionId version
      sinkName ≠ .ok events := by
  intro events h
  obtain ⟨front, back, hsplit, -⟩ := splitOn_line after complete one
  have hmem : line ∈ spoolLines (before ++ (line ++ newline :: after)) := by
    unfold spoolLines
    rw [hsplit, List.mem_filter]
    exact ⟨List.mem_append_right _ (List.mem_cons_self ..), by simp [nonempty]⟩
  obtain ⟨-, hlines⟩ := parseEventSpool_complete h
  obtain ⟨index, hindex⟩ : ∃ index, (line, index) ∈
      (spoolLines (before ++ (line ++ newline :: after))).zipIdx := by
    obtain ⟨index, hlt, hget⟩ := List.mem_iff_getElem.mp hmem
    refine ⟨index, List.mem_iff_getElem.mpr ⟨index, by simpa using hlt, ?_⟩⟩
    simp [hget]
  obtain ⟨event, hevent⟩ := mapM_ok_mem hlines hindex
  unfold parseSpoolLine at hevent
  split at hevent
  · exact absurd hevent (by simp)
  · next read hread => exact refused read hread

theorem Timeline.read_refuses {serde : Serde} (complete : Complete before) (object : IsObject line)
    (one : newline ∉ line) (refused : ∀ event, serde.fromSlice line ≠ .ok event) :
    ∀ timeline, Timeline.read serde (before ++ (line ++ newline :: after)) ≠ .ok timeline := by
  have hlines : ∀ (lines : List Bytes) (number : ℕ) (session : Option String) (events results : List Event),
      Timeline.readLoop serde lines number session events = .ok results → line ∉ lines := by
    intro lines
    induction lines with
    | nil => exact fun _ _ _ _ _ => List.not_mem_nil
    | cons first lines ih =>
      intro number session events results h hmem
      rcases List.mem_cons.mp hmem with rfl | hlater
      · rcases Timeline.readLoop_cons h with ⟨hblank, -⟩ | ⟨-, -, event, hread, -⟩
        · rw [isBlankLine_brace object.brace] at hblank
          exact absurd hblank (by simp)
        · exact refused event hread
      · rcases Timeline.readLoop_cons h with ⟨-, hrest⟩ | ⟨-, -, event, -, -, -, -, hrest⟩
        · exact ih _ _ _ _ hrest hlater
        · exact ih _ _ _ _ hrest hlater
  intro timeline h
  obtain ⟨events, hloop, -⟩ := bind_ok_iff.mp h
  apply hlines _ _ _ _ _ hloop
  obtain ⟨front, back, hsplit, hback⟩ := splitOn_line after complete one
  have hcomplete : line ∈ (splitLines (before ++ (line ++ newline :: after))).1 := by
    unfold splitLines
    rw [hsplit, List.dropLast_append_of_ne_nil (List.cons_ne_nil _ _), List.dropLast_cons_of_ne_nil hback]
    exact List.mem_append_right _ (List.mem_cons_self ..)
  apply List.mem_append_left
  refine List.mem_map.mpr ⟨line, hcomplete, ?_⟩
  exact @stripReturn_object [] line object

end

/-- How deep arrays and objects lie in each other in a map, where `depth` says it of the texts that stand
for its values. -/
def mapNesting (depth : String → ℕ) («meta» : List (String × String)) : ℕ :=
  1 + («meta».map fun entry => depth entry.2).foldr max 0

def Request.nesting (depth : String → ℕ) : Request → ℕ
  | .mark _ «meta» => 1 + mapNesting depth «meta»
  | _ => 1

/-- How deep the `data` of an event nest. -/
def EventBody.nesting (depth : String → ℕ) : EventBody → ℕ
  | .sessionStart _ => 2
  | .snapshot value => 1 + max 1 (1 + (value.changes.map fun _ => 1).foldr max 0)
  | .touchedPaths value => 1 + (1 + (value.paths.map fun _ => 2).foldr max 0)
  | .mark value => 1 + mapNesting depth value.meta
  | .flush _ | .sessionEnd _ | .error _ | .overflow _ => 1

def Event.nesting (depth : String → ℕ) (event : Event) : ℕ := 1 + event.body.nesting depth

/-- Where `serde_json` reads what nests up to a limit and nothing deeper, the socket lets through one
level more than the parsers of a spool: a mark whose request nests just that deep is served, and no file
with the line of its event can be parsed, by the recorder or by the reader. -/
theorem deep_mark_unreadable {Value σ : Type} (serde : ControlSerde Value) (events : Serde)
    (describe : Failure → String) (answer : Command → σ → Except String Reply × σ) (state : σ)
    (depth : String → ℕ) (limit : ℕ) (label : String) («meta» : List (String × String))
    (taken : (Request.mark label «meta»).nesting depth ≤ limit → serde.ReadsRequest (.mark label «meta»))
    (refused : ∀ event line, events.toVec event = .ok line → limit < event.nesting depth →
      ∀ other, events.fromSlice line ≠ .ok other)
    (objects : events.WritesObjects) (deep : (Request.mark label «meta»).nesting depth = limit) :
    (∃ text, serde.requestText (.mark label «meta») = .ok text ∧
      (serde.handleConnection describe answer (framed text) state).2 =
        (answer (.mark label «meta») state).2) ∧
    ∀ event refOp line, event.body = .mark ⟨label, «meta», refOp⟩ → events.toVec event = .ok line →
      ∀ before after, Complete before →
        (∀ path sessionId version sinkName parsed, parseEventSpool events
          (before ++ (line ++ newline :: after)) path sessionId version sinkName ≠ .ok parsed) ∧
        ∀ timeline, Timeline.read events (before ++ (line ++ newline :: after)) ≠ .ok timeline := by
  constructor
  · obtain ⟨text, hwritten, hread⟩ := taken deep.le
    refine ⟨text, hwritten, ?_⟩
    rw [ControlSerde.handleConnection_reads hwritten hread]
    rfl
  · intro event refOp line hbody hwritten before after complete
    have hdeeper : limit < event.nesting depth := by
      unfold Event.nesting
      rw [hbody, ← deep]
      show 1 + mapNesting depth «meta» < 1 + (1 + mapNesting depth «meta»)
      omega
    have hrefused := refused event line hwritten hdeeper
    have hone := events.one_line hwritten
    constructor
    · intro path sessionId version sinkName
      exact parseEventSpool_refuses complete hone (events.nonempty hwritten) hrefused
    · exact Timeline.read_refuses complete (objects event line hwritten) hone hrefused

def nestedText : ℕ → String
  | 0 => "[]"
  | n + 1 => "[" ++ nestedText n ++ "]"

def openBrackets (text : String) : ℕ := text.toList.count '['

theorem nestedText_facts (n : ℕ) :
    openBrackets (nestedText n) = n + 1 ∧ '\n' ∉ (nestedText n).toList := by
  induction n with
  | zero => exact ⟨rfl, by decide⟩
  | succ n ih =>
    obtain ⟨hcount, hinline⟩ := ih
    unfold openBrackets at hcount ⊢
    simp only [nestedText, String.toList_append, List.count_append, hcount, List.mem_append, hinline]
    exact ⟨by rw [show "[".toList.count '[' = 1 from rfl, show "]".toList.count '[' = 0 from rfl]; omega,
      by decide⟩

def deepMeta : List (String × String) := [("a", nestedText 124)]

def deepRequestText : String :=
  "\x7b\"command\":\"mark\",\"label\":\"deep\",\"meta\":\x7b\"a\":" ++ nestedText 124 ++ "\x7d\x7d"

def deepMark : Event := .new "s" 1 "2026-01-01T00:00:01.000Z" (.mark ⟨"deep", deepMeta, "op:a"⟩)

def deepMarkText : String := "\x7b\"v\":0,\"seq\":1,\"session_id\":\"s\"," ++
  "\"ts\":\"2026-01-01T00:00:01.000Z\",\"type\":\"mark\"," ++
  "\"data\":\x7b\"label\":\"deep\",\"meta\":\x7b\"a\":" ++ nestedText 124 ++ "\x7d,\"ref_op\":\"op:a\"\x7d\x7d"

theorem deepMarkText_inline : '\n' ∉ deepMarkText.toList := by
  unfold deepMarkText
  simp only [String.toList_append, List.mem_append, (nestedText_facts 124).2]
  decide

theorem deepMarkText_object : IsObject (utf8 deepMarkText) := by
  refine ⟨by rw [decodeLine_utf8]; rfl, ?_⟩
  unfold deepMarkText
  have hopen : utf8 "\x7b\"v\":0,\"seq\":1,\"session_id\":\"s\"," =
    openBrace :: utf8 "\"v\":0,\"seq\":1,\"session_id\":\"s\"," := by decide
  have hclose : utf8 "\x7d,\"ref_op\":\"op:a\"\x7d\x7d" =
    utf8 "\x7d,\"ref_op\":\"op:a\"\x7d" ++ [closeBrace] := by decide
  simp only [utf8_append, hopen, hclose, ← List.append_assoc]
  exact ⟨_, rfl⟩

def deepControl : ControlSerde String :=
  .ofTables [(.mark "deep" deepMeta, deepRequestText)] [(⟨true, some "\x7b\x7d", none⟩, doneText)]
    (by
      intro entry h
      rw [List.mem_singleton.mp h]
      unfold deepRequestText
      simp only [String.toList_append, List.mem_append, (nestedText_facts 124).2]
      decide)
    (by decide)

def deepSerde : Serde where
  toVec event :=
    if event = deepMark then .ok (utf8 deepMarkText) else exampleSerde.toVec event
  fromSlice bytes :=
    if bytes = utf8 deepMarkText then .error "recursion limit exceeded" else exampleSerde.fromSlice bytes
  one_line := by
    intro event bytes h
    split_ifs at h
    · rw [← Except.ok.inj h]
      exact utf8_inline deepMarkText_inline
    · exact exampleSerde.one_line h
  nonempty := by
    intro event bytes h
    split_ifs at h
    · rw [← Except.ok.inj h]
      obtain ⟨-, inner, hinner⟩ := deepMarkText_object
      rw [hinner]
      exact List.cons_ne_nil _ _
    · exact exampleSerde.nonempty h

theorem deepSerde_refuses (event : Event) (line : Bytes) (h : deepSerde.toVec event = .ok line)
    (hdeep : 127 < event.nesting openBrackets) (other : Event) : deepSerde.fromSlice line ≠ .ok other := by
  intro hread
  unfold deepSerde at h hread
  dsimp only at h hread
  split_ifs at h with hevent
  · rw [← Except.ok.inj h, if_pos rfl] at hread
    exact absurd hread (by simp)
  · have hspooled : event = spooledEvent := by
      have hmem := Serde.ofTable_writes h
      exact (Prod.mk.inj (List.mem_singleton.mp hmem)).1
    rw [hspooled] at hdeep
    exact absurd hdeep (by decide)

theorem deepSerde_writesObjects : deepSerde.WritesObjects := by
  intro event line h
  unfold deepSerde at h
  dsimp only at h
  split_ifs at h
  · rw [← Except.ok.inj h]
    exact deepMarkText_object
  · have hmem := Serde.ofTable_writes h
    rw [(Prod.mk.inj (List.mem_singleton.mp hmem)).2]
    refine ⟨by decide +kernel, spooledText.tail.dropLast, by decide +kernel⟩

theorem deep_mark_unreadable_nested :
    (∃ text, deepControl.requestText (.mark "deep" deepMeta) = .ok text ∧
      (deepControl.handleConnection (fun _ => "") answerOnce (framed text) 0).2 = 1) ∧
    ∀ timeline, Timeline.read deepSerde
      (joinLines [spooledText] ++ (utf8 deepMarkText ++ newline :: joinLines [laterText])) ≠ .ok timeline := by
  have hmeta : mapNesting openBrackets deepMeta = 126 := by
    simp only [mapNesting, deepMeta, List.map_cons, List.map_nil, List.foldr_cons, List.foldr_nil,
      (nestedText_facts 124).1]
    rfl
  have htaken : deepControl.ReadsRequest (.mark "deep" deepMeta) := by
    refine ⟨deepRequestText, ?_, ?_⟩
    · simp [deepControl, ControlSerde.ofTables]
    · simp [deepControl, ControlSerde.ofTables]
  have hwritten : deepSerde.toVec deepMark = .ok (utf8 deepMarkText) := by
    unfold deepSerde
    simp only [if_true]
  have hdeep : (Request.mark "deep" deepMeta).nesting openBrackets = 127 := by
    show 1 + mapNesting openBrackets deepMeta = 127
    rw [hmeta]
  -- the request is read at one level less than its event needs
  have hmark := deep_mark_unreadable deepControl deepSerde (fun _ => "") answerOnce 0 openBrackets 127 "deep"
    deepMeta (fun _ => htaken) deepSerde_refuses deepSerde_writesObjects hdeep
  refine ⟨hmark.1, ?_⟩
  have hcomplete : Complete (joinLines [spooledText]) := Or.inr (by decide +kernel)
  exact (hmark.2 deepMark "op:a" _ rfl hwritten _ (joinLines [laterText]) hcomplete).2

end Rrjj
