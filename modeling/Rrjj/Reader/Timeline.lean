import Rrjj.Reader.Session

/-! Reading a timeline back: the lines that were appended to a text, and what has to be true of
the text before them. -/

namespace Rrjj
open Library

theorem splitOn_append_last {a : UInt8} {base line : Bytes} (one : a ∉ line) (init : List Bytes)
    (last : Bytes) (h : base.splitOn a = init ++ [last]) :
    (base ++ line).splitOn a = init ++ [last ++ line] := by
  induction base generalizing init last with
  | nil =>
    rw [List.splitOn_nil] at h
    obtain ⟨hinit, hlast⟩ := List.append_inj' (show [] ++ [[]] = init ++ [last] from h) rfl
    rw [← hinit, ← List.singleton_inj.mp hlast]
    exact List.splitOn_eq_singleton one
  | cons first base ih =>
    obtain ⟨rest, final, hrest⟩ : ∃ rest final, base.splitOn a = rest ++ [final] :=
      ⟨_, _, (List.dropLast_append_getLast (List.splitOn_ne_nil a base)).symm⟩
    rw [List.splitOn_cons_eq_if_modifyHead, hrest] at h
    rw [List.cons_append, List.splitOn_cons_eq_if_modifyHead, ih rest final hrest]
    split_ifs at h ⊢ with hsame
    · rw [← List.cons_append] at h
      obtain ⟨hinit, hlast⟩ := List.append_inj' h rfl
      rw [← hinit, ← List.singleton_inj.mp hlast, List.cons_append]
    · rcases rest with _ | ⟨head, rest⟩
      · obtain ⟨hinit, hlast⟩ := List.append_inj' (show [] ++ [first :: final] = init ++ [last] from h) rfl
        rw [← hinit, ← List.singleton_inj.mp hlast]
        rfl
      · obtain ⟨hinit, hlast⟩ := List.append_inj'
          (show ((first :: head) :: rest) ++ [final] = init ++ [last] from h) rfl
        rw [← hinit, ← List.singleton_inj.mp hlast]
        rfl

theorem splitLines_of_splitOn {bytes last : Bytes} {init : List Bytes}
    (h : bytes.splitOn newline = init ++ [last]) : splitLines bytes = (init, last) := by
  unfold splitLines
  rw [h, List.dropLast_concat, List.getLast?_concat, Option.getD_some]

theorem splitOn_of_splitLines (bytes : Bytes) :
    bytes.splitOn newline = (splitLines bytes).1 ++ [(splitLines bytes).2] := by
  have hsplit := List.dropLast_append_getLast (List.splitOn_ne_nil newline bytes)
  rw [splitLines_of_splitOn hsplit.symm]
  exact hsplit.symm

def joinLines (texts : List Bytes) : Bytes := (texts.map fun text => text ++ [newline]).flatten

theorem joinLines_cons (text : Bytes) (texts : List Bytes) :
    joinLines (text :: texts) = text ++ newline :: joinLines texts := by
  unfold joinLines
  rw [List.map_cons, List.flatten_cons, List.append_assoc, List.singleton_append]

theorem splitOn_joinLines {texts : List Bytes} (one : ∀ text ∈ texts, newline ∉ text) :
    (joinLines texts).splitOn newline = texts ++ [[]] := by
  induction texts with
  | nil => exact List.splitOn_nil _
  | cons text texts ih =>
    have hone : newline ∉ text := one text (List.mem_cons_self ..)
    have hrest := ih fun other hmem => one other (List.mem_cons_of_mem _ hmem)
    rw [joinLines_cons, List.splitOn_append_cons_self, List.splitOn_eq_singleton hone, hrest]
    rfl

theorem splitLines_append {base text : Bytes} {texts : List Bytes}
    (one : ∀ other ∈ text :: texts, newline ∉ other) :
    splitLines (base ++ joinLines (text :: texts)) =
      ((splitLines base).1 ++ ((splitLines base).2 ++ text) :: texts, []) := by
  have hfirst := splitOn_append_last (one text (List.mem_cons_self ..)) _ _ (splitOn_of_splitLines base)
  have hrest := splitOn_joinLines fun other hmem => one other (List.mem_cons_of_mem text hmem)
  apply splitLines_of_splitOn
  rw [joinLines_cons, ← List.append_assoc, List.splitOn_append_cons_self, hfirst, hrest]
  simp

def isBlankLine (line : Bytes) : Bool := (decodeLine line).any isBlank

def openBrace : UInt8 := 123
def closeBrace : UInt8 := 125

def IsObject (bytes : Bytes) : Prop :=
  (decodeLine bytes).isSome ∧ ∃ inner, bytes = openBrace :: (inner ++ [closeBrace])

/-- `serde_json` writes an event as an object. -/
def Serde.WritesObjects (serde : Serde) : Prop :=
  ∀ event bytes, serde.toVec event = .ok bytes → IsObject bytes

theorem decodeLine_bytes {bytes : Bytes} {text : String} (h : decodeLine bytes = some text) :
    bytes = text.toList.flatMap String.utf8EncodeChar := by
  unfold decodeLine String.fromUTF8? at h
  split_ifs at h with hvalid
  have hbytes : text.toByteArray = ⟨bytes.toArray⟩ := by
    rw [← Option.some.inj h]
    rfl
  rw [← String.utf8Encode_toList] at hbytes
  unfold List.utf8Encode at hbytes
  have hlist := congrArg (fun array : ByteArray => array.data.toList) hbytes
  simpa using hlist.symm

theorem decodeLine_utf8 (text : String) : decodeLine (utf8 text) = some text := by
  have hbytes : (⟨(utf8 text).toArray⟩ : ByteArray) = text.toByteArray := by
    unfold utf8
    rw [Array.toArray_toList]
    rfl
  unfold decodeLine String.fromUTF8?
  rw [hbytes, dif_pos text.isValidUTF8]
  rfl

theorem utf8_flatMap (text : String) : utf8 text = text.toList.flatMap String.utf8EncodeChar :=
  decodeLine_bytes (decodeLine_utf8 text)

theorem utf8_append (text more : String) : utf8 (text ++ more) = utf8 text ++ utf8 more := by
  unfold utf8
  simp

theorem utf8EncodeChar_ascii {c : Char} {byte : UInt8} (ascii : byte.toNat < 128)
    (h : byte ∈ String.utf8EncodeChar c) : c.toNat = byte.toNat := by
  have hof : ∀ n, 128 ≤ n → n < 256 → byte ≠ UInt8.ofNat n := by
    intro n hlow hhigh heq
    rw [heq, UInt8.toNat_ofNat'] at ascii
    omega
  unfold String.utf8EncodeChar at h
  simp only at h
  split_ifs at h with h1 h2 h3
  · rw [List.mem_singleton] at h
    rw [h, UInt8.toNat_ofNat', Nat.mod_eq_of_lt (by omega)]
    rfl
  all_goals
    exfalso
    simp only [List.mem_cons, List.not_mem_nil, or_false] at h
  · rcases h with h | h <;> exact hof _ (by omega) (by omega) h
  · rcases h with h | h | h <;> exact hof _ (by omega) (by omega) h
  · rcases h with h | h | h | h <;> exact hof _ (by omega) (by omega) h

theorem utf8_inline {text : String} (inline : '\n' ∉ text.toList) : newline ∉ utf8 text := by
  rw [utf8_flatMap]
  intro h
  obtain ⟨c, hmem, hc⟩ := List.mem_flatMap.mp h
  have hbreak : c = '\n' := by
    have hvalue := utf8EncodeChar_ascii (by decide) hc
    rw [← Char.ofNat_toNat c, hvalue]
    rfl
  exact inline (hbreak ▸ hmem)

theorem isWhitespace_brace {c : Char} (h : isWhitespace c = true) :
    openBrace ∉ String.utf8EncodeChar c := by
  have hall : ∀ n ∈ [9, 10, 11, 12, 13, 0x2000, 0x2001, 0x2002, 0x2003, 0x2004, 0x2005, 0x2006, 0x2007,
      0x2008, 0x2009, 0x200a, 0x20, 0x85, 0xa0, 0x1680, 0x2028, 0x2029, 0x202f, 0x205f, 0x3000],
      openBrace ∉ String.utf8EncodeChar (Char.ofNat n) := by decide
  have hmem : c.toNat ∈ [9, 10, 11, 12, 13, 0x2000, 0x2001, 0x2002, 0x2003, 0x2004, 0x2005, 0x2006, 0x2007,
      0x2008, 0x2009, 0x200a, 0x20, 0x85, 0xa0, 0x1680, 0x2028, 0x2029, 0x202f, 0x205f, 0x3000] := by
    unfold isWhitespace at h
    simp only [Bool.or_eq_true, Bool.and_eq_true, decide_eq_true_eq, List.mem_cons, List.not_mem_nil,
      or_false] at h ⊢
    omega
  have hc := hall c.toNat hmem
  rw [Char.ofNat_toNat] at hc
  exact hc

theorem isBlank_brace {bytes : Bytes} {text : String} (h : decodeLine bytes = some text)
    (brace : openBrace ∈ bytes) : isBlank text = false := by
  rw [decodeLine_bytes h, List.mem_flatMap] at brace
  obtain ⟨c, hmem, hc⟩ := brace
  by_contra hblank
  rw [Bool.not_eq_false] at hblank
  have hspace := List.all_eq_true.mp hblank c hmem
  exact isWhitespace_brace hspace hc

theorem isBlankLine_brace {line : Bytes} (brace : openBrace ∈ line) : isBlankLine line = false := by
  unfold isBlankLine
  rcases hdecoded : decodeLine line with _ | text
  · rfl
  · exact isBlank_brace hdecoded brace

theorem IsObject.brace {bytes : Bytes} (object : IsObject bytes) : openBrace ∈ bytes := by
  obtain ⟨-, inner, hinner⟩ := object
  rw [hinner]
  exact List.mem_cons_self ..

theorem stripReturn_object {before bytes : Bytes} (object : IsObject bytes) :
    stripReturn (before ++ bytes) = before ++ bytes := by
  obtain ⟨-, inner, rfl⟩ := object
  unfold stripReturn
  rw [← List.cons_append, ← List.append_assoc, List.getLast?_concat]
  exact if_neg (by decide)

/-- Events numbered from 0, of one session and of this schema. -/
def Recorded (sessionId : String) (events : List Event) : Prop :=
  ∀ (index : ℕ) (event : Event), events[index]? = some event →
    event.seq = index ∧ event.v = schemaVersion ∧ event.sessionId = sessionId

namespace Timeline
variable {serde : Serde} {line text base : Bytes} {lines texts : List Bytes} {number : ℕ}
  {session : Option String} {sessionId : String} {event : Event} {events results : List Event}

theorem readLoop_blank (blank : isBlankLine line = true) :
    readLoop serde (line :: lines) number session events =
      readLoop serde lines (number + 1) session events := by
  obtain ⟨text, hdecoded, hblank⟩ := (Option.any_eq_true _ _).mp blank
  rw [readLoop, hdecoded]
  exact if_pos hblank

theorem readLoop_full (decoded : (decodeLine line).isSome) (full : isBlankLine line = false)
    (read : serde.fromSlice line = .ok event) (version : event.v = schemaVersion)
    (seq : event.seq = events.length) (same : ∀ expected, session = some expected →
      expected = event.sessionId) :
    readLoop serde (line :: lines) number session events =
      readLoop serde lines (number + 1) (some event.sessionId) (events ++ [event]) := by
  obtain ⟨text, hdecoded⟩ := Option.isSome_iff_exists.mp decoded
  have hfull : isBlank text = false := by
    unfold isBlankLine at full
    rwa [hdecoded, Option.any_some] at full
  rw [readLoop, hdecoded]
  simp only [hfull, read, version, seq, Bool.false_eq_true, if_false, ne_eq, not_true_eq_false]
  rcases session with _ | expected
  · rfl
  · have hexpected := same expected rfl
    simp only [hexpected, not_true_eq_false, if_false]

theorem readLoop_event (decoded : (decodeLine line).isSome) (brace : openBrace ∈ line)
    (read : serde.fromSlice line = .ok event) (version : event.v = schemaVersion)
    (seq : event.seq = events.length) (same : ∀ expected, session = some expected →
      expected = event.sessionId) :
    readLoop serde (line :: lines) number session events =
      readLoop serde lines (number + 1) (some event.sessionId) (events ++ [event]) :=
  readLoop_full decoded (isBlankLine_brace brace) read version seq same

theorem readLoop_cons (h : readLoop serde (line :: lines) number session events = .ok results) :
    isBlankLine line = true ∧ readLoop serde lines (number + 1) session events = .ok results ∨
      isBlankLine line = false ∧ (decodeLine line).isSome ∧ ∃ event,
        serde.fromSlice line = .ok event ∧ event.v = schemaVersion ∧ event.seq = events.length ∧
          (∀ expected, session = some expected → expected = event.sessionId) ∧
          readLoop serde lines (number + 1) (some event.sessionId) (events ++ [event]) = .ok results := by
  rw [readLoop] at h
  split at h
  · exact absurd h (by simp)
  · next text hdecoded =>
    have hany : isBlankLine line = isBlank text := by
      unfold isBlankLine
      rw [hdecoded, Option.any_some]
    split_ifs at h with hblank
    · exact Or.inl ⟨hany.trans hblank, h⟩
    · apply Or.inr
      refine ⟨hany.trans (Bool.not_eq_true _ ▸ hblank), by rw [hdecoded]; rfl, ?_⟩
      split at h
      · exact absurd h (by simp)
      · next event hread =>
        split_ifs at h with hversion hseq
        refine ⟨event, hread, not_not.mp hversion, not_not.mp hseq, ?_⟩
        split at h
        · next expected =>
          split_ifs at h with hsame
          rw [not_not.mp hsame] at h
          exact ⟨fun _ hother => (Option.some.inj hother).symm.trans (not_not.mp hsame), h⟩
        · exact ⟨fun _ hnone => absurd hnone (by simp), h⟩

theorem readLoop_adds (h : readLoop serde lines number session events = .ok results) :
    events <+: results ∧ results.length = events.length + lines.countP (fun line => !isBlankLine line) := by
  induction lines generalizing number session events with
  | nil =>
    rw [readLoop, Except.ok.injEq] at h
    rw [h]
    exact ⟨List.prefix_refl _, rfl⟩
  | cons line lines ih =>
    rcases readLoop_cons h with ⟨hblank, hrest⟩ | ⟨hfull, -, event, -, -, -, -, hrest⟩
    · have hadds := ih hrest
      rw [List.countP_cons_of_neg (by simp [hblank])]
      exact hadds
    · obtain ⟨hstarts, hlength⟩ := ih hrest
      rw [List.countP_cons_of_pos (by simp [hfull])]
      refine ⟨(List.prefix_append _ _).trans hstarts, ?_⟩
      rw [hlength, List.length_append, List.length_singleton]
      omega

theorem readLoop_blanks (blank : ∀ line ∈ lines, isBlankLine line = true) (rest : List Bytes) :
    ∃ later, readLoop serde (lines ++ rest) number session events =
      readLoop serde rest later session events := by
  induction lines generalizing number with
  | nil => exact ⟨number, rfl⟩
  | cons line lines ih =>
    obtain ⟨later, hlater⟩ := @ih (number + 1) fun other hmem => blank other (List.mem_cons_of_mem _ hmem)
    refine ⟨later, ?_⟩
    rw [List.cons_append, readLoop_blank (blank line (List.mem_cons_self ..)), hlater]

theorem readLoop_texts (objects : serde.WritesObjects)
    (written : List.Forall₂ (fun event text => serde.toVec event = .ok text) events texts)
    (reads : ∀ event ∈ events, serde.ReadsBack event)
    (before : List Event) (recorded : Recorded sessionId (before ++ events))
    (same : ∀ expected, session = some expected → expected = sessionId) :
    readLoop serde texts number session before = .ok (before ++ events) := by
  induction written generalizing before number session with
  | nil => rw [List.append_nil, readLoop]
  | @cons event text events texts hwritten hrest ih =>
    have hat : (before ++ event :: events)[before.length]? = some event := by simp
    obtain ⟨hseq, hversion, hsession⟩ := recorded before.length event hat
    have hobject := objects event text hwritten
    rw [readLoop_event hobject.1 hobject.brace (reads event List.mem_cons_self hwritten) hversion hseq
      fun expected h => (same expected h).trans hsession.symm]
    have hnext := @ih (number + 1) (some event.sessionId)
      (fun other hmem => reads other (List.mem_cons_of_mem _ hmem)) (before ++ [event])
    rw [List.append_assoc, List.singleton_append] at hnext
    apply hnext recorded
    intro expected h
    rw [← Option.some.inj h]
    exact hsession

theorem readLoop_readsBack (objects : serde.WritesObjects)
    (written : List.Forall₂ (fun event text => serde.toVec event = .ok text) events texts)
    {before : List Event} (h : readLoop serde texts number session before = .ok (before ++ events)) :
    ∀ event ∈ events, serde.ReadsBack event := by
  induction written generalizing before number session with
  | nil => exact fun _ hmem => absurd hmem List.not_mem_nil
  | @cons event text events texts hwritten hrest ih =>
    rcases readLoop_cons h with ⟨hblank, -⟩ | ⟨-, -, read, hread, -, -, -, hloop⟩
    · rw [isBlankLine_brace (objects event text hwritten).brace] at hblank
      exact absurd hblank (by decide)
    · have hstarts := (readLoop_adds hloop).1
      have hsame : read = event := by
        have hheads := (List.prefix_append_right_inj before).mp hstarts
        exact (List.cons_prefix_cons.mp hheads).1
      rw [hsame] at hread hloop
      have hnext : before ++ event :: events = before ++ [event] ++ events := List.append_cons ..
      rw [hnext] at hloop
      refine List.forall_mem_cons.mpr ⟨fun hother => ?_, ih hloop⟩
      rw [← Except.ok.inj (hwritten.symm.trans hother)]
      exact hread

theorem exists_written
    (written : List.Forall₂ (fun event text => serde.toVec event = .ok text) events texts)
    (mem : text ∈ texts) : ∃ event, serde.toVec event = .ok text := by
  induction written with
  | nil => exact absurd mem (List.not_mem_nil)
  | @cons event first events texts hwritten hrest ih =>
    rcases List.mem_cons.mp mem with rfl | hmem
    · exact ⟨event, hwritten⟩
    · exact ih hmem

/-- Where the loop reads as many events as there are lines of events, none of the lines before them is
the line of an event. -/
theorem readLoop_only {first : Event} (objects : serde.WritesObjects)
    (written : List.Forall₂ (fun event text => serde.toVec event = .ok text) events texts)
    (brace : openBrace ∈ line)
    (h : readLoop serde (lines ++ line :: texts) number none [] = .ok (first :: events)) :
    (∀ other ∈ lines, isBlankLine other = true) ∧ (decodeLine line).isSome ∧
      serde.fromSlice line = .ok first ∧ ∀ event ∈ events, serde.ReadsBack event := by
  have hcount := (readLoop_adds h).2
  have hfull : texts.countP (fun other => !isBlankLine other) = texts.length := by
    apply List.countP_eq_length.mpr
    intro other hmem
    obtain ⟨event, hevent⟩ := exists_written written hmem
    rw [isBlankLine_brace (objects event other hevent).brace]
    rfl
  have hone : (line :: texts).countP (fun other => !isBlankLine other) = texts.length + 1 := by
    rw [List.countP_cons_of_pos (by rw [isBlankLine_brace brace]; rfl), hfull]
  rw [List.countP_append, hone, List.length_cons, List.length_nil, written.length_eq] at hcount
  have hblank : ∀ other ∈ lines, isBlankLine other = true := by
    have hnone : lines.countP (fun other => !isBlankLine other) = 0 := by omega
    intro other hmem
    simpa using List.countP_eq_zero.mp hnone other hmem
  refine ⟨hblank, ?_⟩
  obtain ⟨later, hlater⟩ := @readLoop_blanks serde lines number none [] hblank (line :: texts)
  rw [hlater] at h
  rcases readLoop_cons h with ⟨hempty, -⟩ | ⟨-, hdecoded, event, hevent, -, -, -, hloop⟩
  · rw [isBlankLine_brace brace] at hempty
    exact absurd hempty (by decide)
  · have hsame : event = first := (List.cons_prefix_cons.mp (readLoop_adds hloop).1).1
    rw [hsame] at hevent hloop
    exact ⟨hdecoded, hevent, readLoop_readsBack objects written hloop⟩

/-- What a text may hold before the texts of events are appended to it: blank lines, and a last line
with which the first event is still read. The others are read back by themselves. -/
def Leaves (serde : Serde) (base : Bytes) (first : Event) (rest : List Event) : Prop :=
  (∀ line ∈ (splitLines base).1, isBlankLine (stripReturn line) = true) ∧
    (∀ text, serde.toVec first = .ok text →
      (decodeLine ((splitLines base).2 ++ text)).isSome ∧
        serde.fromSlice ((splitLines base).2 ++ text) = .ok first) ∧
    ∀ event ∈ rest, serde.ReadsBack event

theorem readLines_append (one : ∀ other ∈ text :: texts, newline ∉ other)
    (objects : ∀ other ∈ text :: texts, IsObject other) :
    readLines (base ++ joinLines (text :: texts)) =
      (splitLines base).1.map stripReturn ++ ((splitLines base).2 ++ text) :: texts := by
  have hstrip : texts.map stripReturn = texts := by
    refine (List.map_congr_left fun other hmem => ?_).trans (List.map_id _)
    exact @stripReturn_object [] other (objects other (List.mem_cons_of_mem _ hmem))
  unfold readLines
  rw [splitLines_append one, if_pos rfl, List.append_nil, List.map_append, List.map_cons, hstrip,
    stripReturn_object (objects text (List.mem_cons_self ..))]

/-- A text to which the texts of recorded events were appended is read as these events exactly
when it leaves room for them. -/
theorem read_append_iff {first : Event} (objects : serde.WritesObjects)
    (written : List.Forall₂ (fun event text => serde.toVec event = .ok text) (first :: events) texts)
    (recorded : Recorded sessionId (first :: events)) :
    read serde (base ++ joinLines texts) = .ok ⟨first :: events⟩ ↔ Leaves serde base first events := by
  have hobject : ∀ other ∈ texts, IsObject other := by
    intro other hmem
    obtain ⟨event, hevent⟩ := exists_written written hmem
    exact objects event other hevent
  have hone : ∀ other ∈ texts, newline ∉ other := by
    intro other hmem
    obtain ⟨event, hevent⟩ := exists_written written hmem
    exact serde.one_line hevent
  obtain ⟨text, rest, hfirst, hrest, rfl⟩ := List.forall₂_cons_left_iff.mp written
  obtain ⟨hseq, hversion, hsession⟩ := recorded 0 first rfl
  have hread : read serde (base ++ joinLines (text :: rest)) = .ok ⟨first :: events⟩ ↔
      readLoop serde ((splitLines base).1.map stripReturn ++ ((splitLines base).2 ++ text) :: rest) 1
        none [] = .ok (first :: events) := by
    unfold read
    rw [readLines_append hone hobject, bind_ok_iff]
    constructor
    · rintro ⟨results, hresults, h⟩
      rw [← (Timeline.mk.inj (Except.ok.inj h))]
      exact hresults
    · exact fun h => ⟨_, h, rfl⟩
  have hjoined : openBrace ∈ (splitLines base).2 ++ text :=
    List.mem_append_right _ (hobject text (List.mem_cons_self ..)).brace
  rw [hread]
  constructor
  · intro h
    obtain ⟨hblank, hdecoded, hevent, hreads⟩ := readLoop_only objects hrest hjoined h
    refine ⟨fun line hmem => hblank _ (List.mem_map_of_mem hmem), fun other hother => ?_, hreads⟩
    have htext : text = other := Except.ok.inj (hfirst.symm.trans hother)
    rw [← htext]
    exact ⟨hdecoded, hevent⟩
  · rintro ⟨hblank, hlast, hreads⟩
    obtain ⟨hdecoded, hevent⟩ := hlast text hfirst
    have hmap : ∀ line ∈ (splitLines base).1.map stripReturn, isBlankLine line = true := by
      intro line hmem
      obtain ⟨raw, hraw, rfl⟩ := List.mem_map.mp hmem
      exact hblank raw hraw
    obtain ⟨later, hlater⟩ := @readLoop_blanks serde _ 1 none [] hmap (((splitLines base).2 ++ text) :: rest)
    have hzero : first.seq = ([] : List Event).length := hseq
    rw [hlater, readLoop_event hdecoded hjoined hevent hversion hzero fun _ h => absurd h (by simp)]
    apply readLoop_texts objects hrest hreads [first] recorded
    intro expected hexpected
    rw [← Option.some.inj hexpected]
    exact hsession

theorem leaves_nil {first : Event} (objects : serde.WritesObjects)
    (reads : ∀ event ∈ first :: events, serde.ReadsBack event) : Leaves serde [] first events := by
  have hsplit : splitLines [] = ([], []) := rfl
  refine ⟨fun line hmem => ?_, fun text hwritten => ?_, (List.forall_mem_cons.mp reads).2⟩
  · rw [hsplit] at hmem
    exact absurd hmem (List.not_mem_nil)
  · rw [hsplit, List.nil_append]
    exact ⟨(objects first text hwritten).1, reads first List.mem_cons_self hwritten⟩

end Timeline
end Rrjj
