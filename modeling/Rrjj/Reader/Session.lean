import Rrjj.Library.FileTree
import Rrjj.Reader
import Rrjj.Sinks.Spool

/-! Opening a published session directory: its manifest, and the timeline that it names. -/

namespace Rrjj
open Library

def isWhitespace (c : Char) : Bool :=
  (9 ≤ c.toNat && c.toNat ≤ 13) || (0x2000 ≤ c.toNat && c.toNat ≤ 0x200a) ||
    c.toNat ∈ [0x20, 0x85, 0xa0, 0x1680, 0x2028, 0x2029, 0x202f, 0x205f, 0x3000]

def decodeLine (bytes : Bytes) : Option String := String.fromUTF8? ⟨bytes.toArray⟩

def isBlank (line : String) : Bool := line.toList.all isWhitespace

def carriageReturn : UInt8 := 13

def stripReturn (line : Bytes) : Bytes :=
  if line.getLast? = some carriageReturn then line.dropLast else line

def splitLines (bytes : Bytes) : List Bytes × Bytes :=
  ((bytes.splitOn newline).dropLast, (bytes.splitOn newline).getLast?.getD [])

def readLines (bytes : Bytes) : List Bytes :=
  (splitLines bytes).1.map stripReturn ++
    if (splitLines bytes).2 = [] then [] else [(splitLines bytes).2]

namespace Timeline

def readLoop (serde : Serde) : List Bytes → ℕ → Option String → List Event →
    Except ReadError (List Event)
  | [], _, _, events => .ok events
  | line :: rest, number, sessionId, events =>
    match decodeLine line with
    | none => .error .io
    | some text =>
      if isBlank text then readLoop serde rest (number + 1) sessionId events
      else
        match serde.fromSlice line with
        | .error _ => .error (.json number)
        | .ok event =>
          if event.v ≠ schemaVersion then .error (.version number event.v)
          else if event.seq ≠ events.length then
            .error (.sequence number events.length event.seq)
          else
            match sessionId with
            | some expected =>
              if expected ≠ event.sessionId then .error (.session number expected event.sessionId)
              else readLoop serde rest (number + 1) (some expected) (events ++ [event])
            | none => readLoop serde rest (number + 1) (some event.sessionId) (events ++ [event])

def read (serde : Serde) (bytes : Bytes) : Except ReadError Timeline := do
  let events ← readLoop serde (readLines bytes) 1 none []
  return ⟨events⟩

end Timeline

/-- `serde_json` on manifests: what it writes it reads back. -/
structure ManifestSerde where
  toVecPretty : SessionManifest → Except String Bytes
  fromSlice : Bytes → Except String SessionManifest
  round_trip : ∀ {manifest bytes}, toVecPretty manifest = .ok bytes → fromSlice bytes = .ok manifest

def ManifestSerde.ofTable (table : List (SessionManifest × Bytes))
    (distinct : ∀ a ∈ table, ∀ b ∈ table, a.2 = b.2 → a.1 = b.1) : ManifestSerde where
  toVecPretty manifest :=
    match table.find? fun entry => entry.1 = manifest with
    | some entry => .ok entry.2
    | none => .error "not in the table"
  fromSlice bytes :=
    match table.find? fun entry => entry.2 = bytes with
    | some entry => .ok entry.1
    | none => .error "expected value"
  round_trip := by
    intro manifest bytes h
    split at h
    · next entry hfound =>
      have hmem := List.mem_of_find?_eq_some hfound
      have hmanifest : entry.1 = manifest := by simpa using List.find?_some hfound
      rw [← Except.ok.inj h]
      split
      · next other hother =>
        have hsame : other.2 = entry.2 := by simpa using List.find?_some hother
        rw [distinct other (List.mem_of_find?_eq_some hother) entry hmem hsame, hmanifest]
      · next hnone =>
        have hmissing := List.find?_eq_none.mp hnone entry hmem
        exact absurd (decide_eq_true rfl) hmissing
    · exact absurd h (by simp)

structure Session where
  manifest : SessionManifest
  timeline : Timeline
  deriving DecidableEq

def resolvePart (tree : FileTree) (place : Path) (part : List Char) : Option Path :=
  if tree.entry place ≠ some .dir then none
  else if part = [] ∨ part = ['.'] then some place
  else if part = ['.', '.'] then some place.dropLast
  else some (place ++ [String.ofList part])

def objectPath (tree : FileTree) (root : Path) (object : String) : Option Path :=
  (object.toList.splitOn '/').foldlM (resolvePart tree)
    (if object.toList.head? = some '/' then [] else root)

def readFile (tree : FileTree) (path : Path) (missing : ReadError) : Except ReadError Bytes :=
  match tree.entry path with
  | some (.file data) => .ok data
  | some .dir => .error .io
  | none => .error missing

theorem readFile_ok_iff {tree : FileTree} {path : Path} {missing : ReadError} {data : Bytes} :
    readFile tree path missing = .ok data ↔ tree.entry path = some (.file data) := by
  unfold readFile
  split <;> simp_all

def readObject (tree : FileTree) (root : Path) (object : String) : Except ReadError Bytes :=
  match objectPath tree root object with
  | some path => readFile tree path .io
  | none => .error .io

def SessionManifest.object (manifest : SessionManifest) : String :=
  manifest.eventsObject.getD "events/000000.ndjson"

def Session.openTimeline (serde : Serde) (tree : FileTree) (root : Path) (manifest : SessionManifest)
    (durable : ℕ) : Except ReadError Session := do
  let events ← readObject tree root manifest.object
  let timeline ← Timeline.read serde events
  let last := timeline.events.getLast?.map Event.seq
  if last ≠ some durable then .error (.beyondWatermark (last.getD 0) durable)
  else return ⟨manifest, timeline⟩

def Session.open (serde : Serde) (manifests : ManifestSerde) (tree : FileTree) (root : Path) :
    Except ReadError Session := do
  let bytes ← readFile tree (root ++ ["manifest.json"]) .missingManifest
  match manifests.fromSlice bytes with
  | .error _ => .error (.json 0)
  | .ok manifest =>
    if !manifest.isCompatible then
      .error (.incompatible manifest.format.sessionFormat manifest.format.schemaVersion)
    else
      match manifest.durableSeq with
      | none => .error .notDurable
      | some durable => Session.openTimeline serde tree root manifest durable

end Rrjj
