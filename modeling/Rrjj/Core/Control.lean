import Rrjj.Core.Coordinator
import Rrjj.Reader.Timeline

/-! The control socket: one line with a request, one line with the response. -/

namespace Rrjj
open Library

inductive Request where
  | status
  | snap
  | mark (label : String) («meta» : List (String × String))
  | flush
  | pause
  | resume
  deriving DecidableEq

/-- What `dispatch` has the coordinator do. -/
def Request.command : Request → Command
  | .status => .status
  | .snap => .snap
  | .mark label «meta» => .mark label «meta»
  | .flush => .flush
  | .pause => .pause
  | .resume => .resume

structure Response (Value : Type) where
  ok : Bool
  data : Option Value
  error : Option String
  deriving DecidableEq

/-- `serde_json` on requests, responses and the values in them: `to_string`, `from_str`, `to_value` and
`to_string_pretty`. What it writes is a line. -/
structure ControlSerde (Value : Type) where
  null : Value
  object : Value
  ofStatus : Status → Value
  ofSnapshot : Snapshot → Value
  prettyText : Value → String
  requestText : Request → Except String String
  readRequest : String → Except String Request
  responseText : Response Value → Except String String
  readResponse : String → Except String (Response Value)
  request_line : ∀ {request text}, requestText request = .ok text → '\n' ∉ text.toList
  response_line : ∀ {response text}, responseText response = .ok text → '\n' ∉ text.toList

def framed (text : String) : Bytes := utf8 (text ++ "\n")

def readLine (bytes : Bytes) : Except String String :=
  let line := bytes.takeWhile (· ≠ newline) ++ if newline ∈ bytes then [newline] else []
  match decodeLine line with
  | some line => .ok line
  | none => .error "stream did not contain valid UTF-8"

theorem readLine_framed {text : String} (inline : '\n' ∉ text.toList) :
    readLine (framed text) = .ok (text ++ "\n") := by
  have hbytes : framed text = utf8 text ++ [newline] := utf8_append text "\n"
  have hline : ∀ byte ∈ utf8 text, decide (byte ≠ newline) = true := by
    intro byte hbyte
    apply decide_eq_true
    rintro rfl
    exact utf8_inline inline hbyte
  have htake : (framed text).takeWhile (· ≠ newline) = utf8 text := by
    rw [hbytes, List.takeWhile_append_of_pos hline]
    simp
  unfold readLine
  rw [htake, if_pos (by rw [hbytes]; simp), ← hbytes]
  unfold framed
  dsimp only
  rw [decodeLine_utf8]

namespace ControlSerde
variable {Value σ : Type} (serde : ControlSerde Value) (describe : Failure → String)
  (answer : Command → σ → Except String Reply × σ)

def toValue : Reply → Except String Value
  | .status value => .ok (serde.ofStatus value)
  | .snapshot value => .ok (serde.ofSnapshot value)
  | .done => .ok serde.object
  | .failed failure => .error (describe failure)

def dispatch (request : Request) (state : σ) : Except String Value × σ :=
  match answer request.command state with
  | (.ok reply, after) => (serde.toValue describe reply, after)
  | (.error message, after) => (.error message, after)

def respond : Except String Value → Response Value
  | .ok data => ⟨true, some data, none⟩
  | .error message => ⟨false, none, some message⟩

def handleConnection (bytes : Bytes) (state : σ) : Except String Bytes × σ :=
  match readLine bytes with
  | .error message => (.error message, state)
  | .ok line =>
    match serde.readRequest line with
    | .error message => (.error message, state)
    | .ok request =>
      let (result, after) := serde.dispatch describe answer request state
      ((serde.responseText (respond result)).map framed, after)

def ReadsRequest (request : Request) : Prop :=
  ∃ text, serde.requestText request = .ok text ∧ serde.readRequest (text ++ "\n") = .ok request

variable {serde describe answer} {request : Request} {text message : String} {state : σ}

theorem handleConnection_reads (written : serde.requestText request = .ok text)
    (read : serde.readRequest (text ++ "\n") = .ok request) :
    serde.handleConnection describe answer (framed text) state =
      ((serde.responseText (respond (serde.dispatch describe answer request state).1)).map framed,
        (answer request.command state).2) := by
  have hstate : (serde.dispatch describe answer request state).2 = (answer request.command state).2 := by
    unfold dispatch
    rcases answer request.command state with ⟨message | reply, after⟩ <;> rfl
  unfold handleConnection
  rw [readLine_framed (serde.request_line written)]
  dsimp only
  rw [read]
  dsimp only
  rw [hstate]

end ControlSerde

def ControlSerde.ofTables (requests : List (Request × String)) (responses : List (Response String × String))
    (requestLines : ∀ entry ∈ requests, '\n' ∉ entry.2.toList)
    (responseLines : ∀ entry ∈ responses, '\n' ∉ entry.2.toList) : ControlSerde String where
  null := "null"
  object := "\x7b\x7d"
  ofStatus status := status.sessionId
  ofSnapshot snapshot := snapshot.op
  prettyText value := value
  requestText request :=
    match requests.find? fun entry => entry.1 = request with
    | some entry => .ok entry.2
    | none => .error "not in the table"
  readRequest line :=
    match requests.find? fun entry => entry.2 ++ "\n" = line with
    | some entry => .ok entry.1
    | none => .error "expected value"
  responseText response :=
    match responses.find? fun entry => entry.1 = response with
    | some entry => .ok entry.2
    | none => .error "not in the table"
  readResponse line :=
    match responses.find? fun entry => entry.2 ++ "\n" = line with
    | some entry => .ok entry.1
    | none => .error "expected value"
  request_line := by
    intro request text h
    split at h
    · next entry hfound =>
      rw [← Except.ok.inj h]
      exact requestLines entry (List.mem_of_find?_eq_some hfound)
    · exact absurd h (by simp)
  response_line := by
    intro response text h
    split at h
    · next entry hfound =>
      rw [← Except.ok.inj h]
      exact responseLines entry (List.mem_of_find?_eq_some hfound)
    · exact absurd h (by simp)

def doneText : String := "\x7b\"ok\":true,\"data\":\x7b\x7d\x7d"

def answerOnce (_ : Command) (count : ℕ) : Except String Reply × ℕ :=
  if count = 0 then (.ok .done, 1) else (.error "coordinator stopped", count + 1)

end Rrjj
