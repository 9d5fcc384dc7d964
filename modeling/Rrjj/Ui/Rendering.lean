import Rrjj.Library.JsString
import Rrjj.Ui.LiveTimeline

/-! How an event is shown: its description, and the markup of its item in the list. Whatever throws
on the way is `none`. -/

namespace Rrjj
open Library

structure Description where
  title : JsValue
  detail : JsValue
  paths : List JsValue := []

section
variable (host : JsHost)

def textOr (fallback : String) (value : JsValue) : Option JsText :=
  (value.orElse (.text (.of fallback))).toText host

def joinedRoots (roots : JsValue) : Option JsText :=
  if roots.isNullish then some []
  else roots.elements?.bind fun elements => (JsValue.elementTexts host elements).map (JsText.join ", ")

def describeSessionStart (event data : JsValue) : Option Description := do
  let sessionId ← (event.get "session_id").toText host
  let roots ← joinedRoots host (data.get "roots")
  return {
    title := .text (.of "Session started")
    detail := .text (sessionId ++ .of " · " ++ roots) }

def describeTouchedPaths (data : JsValue) : Option Description := do
  let paths ← ((data.get "paths").orElse (.array [])).elements?
  let listed ← paths.mapM (JsValue.property "operations")
  let operations := JsValue.distinct <| listed.flatMap fun value =>
    match value.orElse (.array []) with
    | .array elements => elements
    | value => [value]
  let rawEvents ← ((data.get "raw_events").orElse (.number (.finite 0))).toText host
  let texts ← JsValue.elementTexts host operations
  let joined := JsText.join ", " texts
  let names ← paths.mapM (JsValue.property "path")
  return {
    title := .text (.of (s!"{paths.length} touched path" ++ if paths.length = 1 then "" else "s"))
    detail := .text (rawEvents ++ .of " watcher events · " ++
      if joined.isEmpty then .of "no operation category" else joined)
    paths := names }

def addStat (sum : JsNumber) (value : JsValue) : Option JsNumber := do
  let number ← value.toNumber host
  return host.add sum (if (JsValue.number number).isTruthy then number else .finite 0)

def describeChange (change : JsValue) : Option JsValue := do
  let kind ← change.property "kind"
  let kindText ← kind.toText host
  let path ← change.property "path"
  let pathText ← path.toText host
  return .text (kindText ++ .of ": " ++ pathText)

def describeSnapshot (data : JsValue) : Option Description := do
  let stats := (data.get "stats").orElse (.object [])
  let changed ← stats.ownValues.foldlM (addStat host) (.finite 0)
  let op ← textOr host "" (data.get "op")
  let tree ← textOr host "" (data.get "tree")
  let changes ← ((data.get "changes").orElse (.array [])).elements?
  let paths ← changes.mapM (describeChange host)
  return {
    title := .text (.of "Snapshot · " ++ host.numberText changed ++ .of " changed path" ++
      if changed = .finite 1 then [] else JsText.of "s")
    detail := .text (op ++ .of " → " ++ tree ++
      if (data.get "truncated").isTruthy then JsText.of " · listing truncated" else [])
    paths := paths }

def describeMark (data : JsValue) : Option Description := do
  let label ← textOr host "" (data.get "label")
  return { title := .text (.of "Mark · " ++ label), detail := (data.get "ref_op").orElse (.text []) }

def describeOverflow (data : JsValue) : Option Description := do
  let source ← textOr host "" (data.get "source")
  let recovery ← textOr host "unknown" (data.get "recovery")
  return {
    title := .text (.of "Watcher overflow")
    detail := .text (source ++ .of " · recovery: " ++ recovery) }

def describeNotice (title : String) (data : JsValue) : Option Description := do
  let detail ← (data.get "detail").toText host
  let recovery ← (data.get "recovery").toText host
  return { title := .text (.of title), detail := .text (detail ++ .of " " ++ recovery) }

def describeEvent (event : JsValue) : Option Description := do
  let data := (← event.property "data").orElse (.object [])
  let type := event.get "type"
  if type.isText "session_start" then describeSessionStart host event data
  else if type.isText "touched_paths" then describeTouchedPaths host data
  else if type.isText "snapshot" then describeSnapshot host data
  else if type.isText "mark" then describeMark host data
  else if type.isText "overflow" then describeOverflow host data
  else if type.isText "sse_overflow" then describeNotice host "Live stream overflow" data
  else if type.isText "sequence_gap" then describeNotice host "Live sequence discontinuity" data
  else if type.isText "flush" then
    some { title := .text (.of "Durable flush"), detail := (data.get "op").orElse (.text []) }
  else if type.isText "session_end" then
    some { title := .text (.of "Session ended"), detail := (data.get "reason").orElse (.text []) }
  else
    some {
      title := type.orElse (.text (.of "unknown"))
      detail := .text (host.stringify data) }

def escapeHtml (value : JsValue) : Option JsText := (value.toText host).map JsText.escape

structure ItemTexts where
  seq : JsText
  ts : JsText
  type : JsText
  title : JsText
  detail : JsText
  paths : List JsText

def pathsMarkup (paths : List JsText) : JsText :=
  if paths.isEmpty then []
  else
    .of "<ul class=\"paths\">" ++
      (paths.flatMap fun path => JsText.of "<li>" ++ path ++ JsText.of "</li>") ++ .of "</ul>"

def ItemTexts.markup (texts : ItemTexts) : JsText :=
  .of "\n          <div class=\"meta\">#" ++ texts.seq ++ .of " · " ++ texts.ts ++ .of " · " ++ texts.type ++
    .of "</div>\n          <div class=\"title\">" ++ texts.title ++
    .of "</div>\n          <div>" ++ texts.detail ++ .of "</div>" ++ pathsMarkup texts.paths

def itemTexts (event : JsValue) : Option ItemTexts := do
  let description ← describeEvent host event
  let paths ← description.paths.mapM (escapeHtml host)
  let seq ← textOr host "?" (event.get "seq")
  let ts ← escapeHtml host ((event.get "ts").orElse (.text []))
  let type ← escapeHtml host ((event.get "type").orElse (.text []))
  let title ← escapeHtml host description.title
  let detail ← escapeHtml host description.detail
  return ⟨seq, ts, type, title, detail, paths⟩

def renderItems (events : List JsValue) : Option (List JsText) :=
  events.mapM fun event => (itemTexts host event).map ItemTexts.markup

end

structure ItemTexts.Inert (texts : ItemTexts) : Prop where
  seq : texts.seq.Inert
  ts : texts.ts.Inert
  type : texts.type.Inert
  title : texts.title.Inert
  detail : texts.detail.Inert
  paths : ∀ path ∈ texts.paths, path.Inert

section
variable {host : JsHost} {event : JsValue} {texts : ItemTexts}

theorem escapeHtml_inert {value : JsValue} {text : JsText} (h : escapeHtml host value = some text) :
    text.Inert := by
  obtain ⟨plain, -, rfl⟩ := Option.map_eq_some_iff.mp h
  exact JsText.escape_inert plain

/-- The number of an event is the one text that is not escaped. -/
theorem itemTexts_inert (h : itemTexts host event = some texts)
    (seq : ∀ text, textOr host "?" (event.get "seq") = some text → text.Inert) : texts.Inert := by
  unfold itemTexts at h
  simp only [Option.bind_eq_bind, Option.bind_eq_some_iff] at h
  obtain ⟨description, -, paths, hpaths, number, hseq, ts, hts, type, htype, title, htitle, detail, hdetail,
    htexts⟩ := h
  rw [← Option.some.inj htexts]
  refine ⟨seq number hseq, escapeHtml_inert hts, escapeHtml_inert htype, escapeHtml_inert htitle,
    escapeHtml_inert hdetail, ?_⟩
  intro path hpath
  obtain ⟨value, -, hvalue⟩ := mapM_some_mem hpaths hpath
  exact escapeHtml_inert hvalue

end

end Rrjj
