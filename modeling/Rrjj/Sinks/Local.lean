import Mathlib.Data.List.Lex
import Mathlib.Data.List.Sort
import Mathlib.Data.Nat.Digits.Defs
import Mathlib.Data.String.Basic
import Rrjj.Library.Proc
import Rrjj.Reader.Session

/-! The local session sink: a spool in which events are accepted, and a session directory into
which each flush publishes the shadow repository, the events and a manifest. Every step on
the file system may fail, and a run may be seen after any of them. -/

namespace Rrjj
open Library Library.Proc

structure IoError where
  code : ℕ
  message : String
  deriving DecidableEq, Repr

def ioError : FsError → IoError
  | .notFound => ⟨2, "No such file or directory (os error 2)"⟩
  | .notDirectory => ⟨20, "Not a directory (os error 20)"⟩
  | .isDirectory => ⟨21, "Is a directory (os error 21)"⟩
  | .alreadyExists => ⟨17, "File exists (os error 17)"⟩

structure NameOrder where
  apply : List String → List String
  perm : ∀ names, (apply names).Perm names

structure IoAnswer where
  error : Option IoError := none
  taken : ℕ := 0
  moved : ℕ := 0
  order : NameOrder := ⟨id, List.Perm.refl⟩

/-- The answers to the steps of a run, whether the shadow lies on the file system of the
session directory, and the step before which the run is seen. -/
structure IoOracle where
  answers : ℕ → IoAnswer
  sameDevice : Bool
  horizon : Option ℕ := none

/-- `copied` stands where the repository and the events of a flush have been synced, and
`published` where its manifest is renamed, with the volume as it is there. -/
inductive DiskLabel where
  | copied (seq : ℕ)
  | published (seq : ℕ) (volume : Volume)

/-- The volume of the session directory, and the spool with its buffered writer. -/
structure Disk where
  volume : Volume
  spool : Bytes
  buffer : Bytes := []
  clock : ℕ := 0
  trace : List DiskLabel := []

abbrev DiskTask := Proc Disk IoError

section
variable (oracle : IoOracle)

def ioStep {α : Type} (act : IoAnswer → Disk → Except IoError (α × Disk))
    (broken : IoAnswer → Disk → Disk) : DiskTask α where
  run disk :=
    if oracle.horizon.any fun horizon => horizon ≤ disk.clock then (.cut, disk)
    else
      let answer := oracle.answers disk.clock
      let ticked := { disk with clock := disk.clock + 1 }
      match answer.error with
      | some failure => (.error failure, broken answer ticked)
      | none =>
        match act answer ticked with
        | .ok (value, next) => (.ok value, next)
        | .error failure => (.error failure, ticked)

def Disk.setVolume (disk : Disk) (volume : Volume) : Disk := { disk with volume := volume }

def volumeStep (act : Volume → Except FsError Volume) : DiskTask Unit :=
  ioStep oracle
    (fun _ disk =>
      match act disk.volume with
      | .ok volume => .ok ((), disk.setVolume volume)
      | .error failure => .error (ioError failure))
    fun _ disk => disk

def readStep {α : Type} (look : IoAnswer → FileTree → Except FsError α) : DiskTask α :=
  ioStep oracle
    (fun answer disk =>
      match look answer disk.volume.tree with
      | .ok value => .ok (value, disk)
      | .error failure => .error (ioError failure))
    fun _ disk => disk

def writeStep (path : Path) (data : Bytes) : DiskTask Unit :=
  ioStep oracle
    (fun _ disk =>
      match disk.volume.writeFile path data with
      | .ok volume => .ok ((), disk.setVolume volume)
      | .error failure => .error (ioError failure))
    fun answer disk =>
      match disk.volume.writeFile path (data.take answer.moved) with
      | .ok volume => disk.setVolume volume
      | .error _ => disk

def fsWrite (path : Path) (data : Bytes) : DiskTask Unit := do
  volumeStep oracle fun volume => volume.createFile path
  writeStep oracle path data

def syncPath (path : Path) : DiskTask Unit := volumeStep oracle fun volume => volume.sync path

def renamePath (path target : Path) : DiskTask Unit :=
  volumeStep oracle fun volume => volume.renameFile path target

def removeFile (path : Path) : DiskTask Unit := volumeStep oracle fun volume => volume.removeFile path

def ensureDir (path : Path) : DiskTask Unit :=
  volumeStep oracle fun volume =>
    if volume.tree.entry path = some .dir then .ok volume else volume.makeDir path

def createDirAll : Path → Path → DiskTask Unit
  | _, [] => pure ()
  | parent, name :: rest => do
    ensureDir oracle (parent ++ [name])
    createDirAll (parent ++ [name]) rest

def temporaryPath (path : Path) : Path := path.dropLast ++ [path.getLast?.getD "" ++ ".rrjj-sync-tmp"]

def removeTemporary (path : Path) : DiskTask Unit := do
  match ← attempt (removeFile oracle path) with
  | .ok () => pure ()
  | .error failure => if failure.code = 2 then pure () else throw failure

def copyFileAtomic (data : Bytes) (destination : Path) : DiskTask ℕ := do
  removeTemporary oracle (temporaryPath destination)
  fsWrite oracle (temporaryPath destination) data
  syncPath oracle (temporaryPath destination)
  renamePath oracle (temporaryPath destination) destination
  return data.length

def serialized (result : Except String Bytes) : DiskTask Bytes :=
  match result with
  | .ok bytes => pure bytes
  | .error message => throw ⟨0, message⟩

def writeJsonAtomic (path : Path) (json : Except String Bytes) : DiskTask Unit := do
  let bytes ← serialized json
  fsWrite oracle (temporaryPath path) bytes
  syncPath oracle (temporaryPath path)
  renamePath oracle (temporaryPath path) path
  syncPath oracle path.dropLast

def renameManifest (flushed : Option ℕ) : DiskTask Unit :=
  ioStep oracle
    (fun _ disk =>
      match disk.volume.renameFile ["manifest.json.tmp"] ["manifest.json"] with
      | .ok volume => .ok ((),
          { disk.setVolume volume with
            trace := disk.trace ++ (flushed.map fun seq => .published seq disk.volume).toList })
      | .error failure => .error (ioError failure))
    fun _ disk => disk

def writeManifestAtomic (manifests : ManifestSerde) (manifest : SessionManifest)
    (flushed : Option ℕ) : DiskTask Unit := do
  createDirAll oracle [] []
  let bytes ← serialized (manifests.toVecPretty manifest)
  fsWrite oracle ["manifest.json.tmp"] bytes
  syncPath oracle ["manifest.json.tmp"]
  renameManifest oracle flushed
  syncPath oracle []

end

def isHex (value : String) : Bool :=
  !value.isEmpty && value.toList.all fun c =>
    c.isDigit || ('a' ≤ c && c ≤ 'f') || ('A' ≤ c && c ≤ 'F')

def rsplitDot (name : String) : Option (String × String) :=
  match (name.toList.splitOn '.').reverse with
  | extension :: stem :: stems =>
    some (String.ofList ((stem :: stems).reverse.intersperse ['.']).flatten, String.ofList extension)
  | _ => none

def isImmutableGitPackFile (name : String) : Bool :=
  match rsplitDot name with
  | none => false
  | some (stem, extension) =>
    match stem.toList with
    | 'p' :: 'a' :: 'c' :: 'k' :: '-' :: hash =>
      (hash.length = 40 || hash.length = 64) && isHex (String.ofList hash) &&
        extension ∈ ["pack", "idx", "rev", "bitmap", "promisor", "mtimes"]
    | _ => false

def isImmutableRepositoryFile : Path → Bool
  | ["op_store", kind, name] => (kind = "operations" || kind = "views") && isHex name
  | ["index", kind, name] => (kind = "segments" || kind = "changed_paths") && isHex name
  | ["store", "git", "objects", fanout, object] =>
    fanout.utf8ByteSize = 2 && (object.utf8ByteSize = 38 || object.utf8ByteSize = 62) &&
        isHex fanout && isHex object ||
      fanout = "pack" && isImmutableGitPackFile object
  | _ => false

/-- What a directory of the shadow repository gives one after the other. -/
inductive Listing where
  | done
  | file (name : String) (data : Bytes) (rest : Listing)
  | dir (name : String) (entries rest : Listing)
  | symlink (name : String) (rest : Listing)
  | other (name : String) (rest : Listing)
  deriving DecidableEq, Repr

def Listing.names : Listing → List String
  | .done => []
  | .file name _ rest => name :: rest.names
  | .dir name _ rest => name :: rest.names
  | .symlink name rest => name :: rest.names
  | .other name rest => name :: rest.names

structure DirectorySyncStats where
  filesLinked : ℕ := 0
  filesCopied : ℕ := 0
  filesReplaced : ℕ := 0
  filesReused : ℕ := 0
  filesRemoved : ℕ := 0
  bytesCopied : ℕ := 0
  deriving DecidableEq, Repr

structure Publishing where
  disk : Disk
  dirty : List Path := []
  stats : DirectorySyncStats := {}

abbrev SyncTask := Proc Publishing IoError

def onDisk {α : Type} (m : DiskTask α) : SyncTask α :=
  zoom Publishing.disk (fun disk s => { s with disk := disk }) m

def count (f : DirectorySyncStats → DirectorySyncStats) : SyncTask Unit :=
  modify fun s => { s with stats := f s.stats }

def markDirty (path : Path) : SyncTask Unit := modify fun s => { s with dirty := s.dirty.insert path }

def pathExists (path : Path) : SyncTask Bool := do
  let s ← get
  return (s.disk.volume.tree.entry path).isSome

def markDirectoryChanged (path : Path) : SyncTask Unit := do
  markDirty path
  markDirty path.dropLast

def deeperFirst (a b : Path) : Prop := b.length < a.length ∨ (a.length = b.length ∧ a ≤ b)

instance : DecidableRel deeperFirst := fun a b => by
  unfold deeperFirst
  infer_instance

section
variable (oracle : IoOracle)

def syncDirectories : List Path → DiskTask Unit
  | [] => pure ()
  | path :: rest => do
    syncPath oracle path
    syncDirectories rest

def filesEqual (data : Bytes) (destination : Path) : DiskTask Bool :=
  readStep oracle fun _ tree =>
    match tree.entry destination with
    | some (.file other) => .ok (other = data)
    | some .dir => .error .isDirectory
    | none => .error .notFound

def hardLink (data : Bytes) (path : Path) : DiskTask Unit :=
  if oracle.sameDevice then volumeStep oracle fun volume => volume.linkFile data path
  else throw ⟨18, "Invalid cross-device link (os error 18)"⟩

def linkOrCopy (data : Bytes) (temporary : Path) : SyncTask Unit := do
  match ← attempt (onDisk (hardLink oracle data temporary)) with
  | .ok () => count fun stats => { stats with filesLinked := stats.filesLinked + 1 }
  | .error _ => do
    onDisk (fsWrite oracle temporary data)
    count fun stats => { stats with bytesCopied := stats.bytesCopied + data.length }
    onDisk (syncPath oracle temporary)
    count fun stats => { stats with filesCopied := stats.filesCopied + 1 }

def syncImmutableFile (data : Bytes) (destination : Path) : SyncTask Unit := do
  match ← pathExists destination with
  | true => count fun stats => { stats with filesReused := stats.filesReused + 1 }
  | false => do
    onDisk (removeTemporary oracle (temporaryPath destination))
    linkOrCopy oracle data (temporaryPath destination)
    onDisk (renamePath oracle (temporaryPath destination) destination)
    markDirty destination.dropLast

def upToDate (data : Bytes) (destination : Path) : SyncTask Bool := do
  match ← pathExists destination with
  | true => onDisk (filesEqual oracle data destination)
  | false => return false

def syncMutableFile (data : Bytes) (destination : Path) : SyncTask Unit := do
  match ← upToDate oracle data destination with
  | true => count fun stats => { stats with filesReused := stats.filesReused + 1 }
  | false => do
    let replacing ← pathExists destination
    let bytes ← onDisk (copyFileAtomic oracle data destination)
    count fun stats =>
      { stats with
        bytesCopied := stats.bytesCopied + bytes
        filesReplaced := stats.filesReplaced + if replacing then 1 else 0
        filesCopied := stats.filesCopied + if replacing then 0 else 1 }
    markDirty destination.dropLast

def syncRepositoryFile (data : Bytes) (destination relative : Path) : SyncTask Unit :=
  if isImmutableRepositoryFile relative then syncImmutableFile oracle data destination
  else syncMutableFile oracle data destination

def createDestination (destination : Path) : SyncTask Unit := do
  match ← pathExists destination with
  | true => pure ()
  | false => do
    onDisk (createDirAll oracle [] destination)
    markDirectoryChanged destination

def removeLoop (destination relative : Path) (sourceNames : List String) : List String → SyncTask Unit
  | [] => pure ()
  | name :: rest => do
    onDisk (readStep oracle fun _ _ => .ok ())
    if name ∈ sourceNames then removeLoop destination relative sourceNames rest
    else do
      let isFile ← onDisk (readStep oracle fun _ tree =>
        match tree.entry (destination ++ [name]) with
        | some (.file _) => .ok true
        | some .dir => .ok false
        | none => .error .notFound)
      if isFile && !isImmutableRepositoryFile (relative ++ [name]) then do
        onDisk (removeFile oracle (destination ++ [name]))
        count fun stats => { stats with filesRemoved := stats.filesRemoved + 1 }
        markDirty destination
        removeLoop destination relative sourceNames rest
      else removeLoop destination relative sourceNames rest

def removeDropped (destination relative : Path) (sourceNames : List String) : SyncTask Unit := do
  let names ← onDisk (readStep oracle fun answer tree => do
    let names ← tree.list destination
    return answer.order.apply names)
  removeLoop oracle destination relative sourceNames names

def syncDirectoryWith (destination relative : Path) (sourceNames : List String)
    (entries : SyncTask Unit) : SyncTask Unit := do
  createDestination oracle destination
  onDisk (readStep oracle fun _ _ => .ok ())
  entries
  removeDropped oracle destination relative sourceNames

def syncEntries (destination relative : Path) : Listing → SyncTask Unit
  | .done => pure ()
  | .file name data rest => do
    onDisk (readStep oracle fun _ _ => .ok ())
    syncRepositoryFile oracle data (destination ++ [name]) (relative ++ [name])
    syncEntries destination relative rest
  | .dir name entries rest => do
    onDisk (readStep oracle fun _ _ => .ok ())
    syncDirectoryWith oracle (destination ++ [name]) (relative ++ [name]) entries.names
      (syncEntries (destination ++ [name]) (relative ++ [name]) entries)
    syncEntries destination relative rest
  | .symlink name _ => do
    onDisk (readStep oracle fun _ _ => .ok ())
    throw ⟨0, s!"refusing symlink in repository state: {name}"⟩
  | .other _ rest => do
    onDisk (readStep oracle fun _ _ => .ok ())
    syncEntries destination relative rest

def syncRepositoryTree (destination relative : Path) (source : Listing) : SyncTask Unit :=
  syncDirectoryWith oracle destination relative source.names
    (syncEntries oracle destination relative source)

end

def paddedDigits (seq : ℕ) : List ℕ :=
  Nat.digits 10 seq ++ List.replicate (20 - (Nat.digits 10 seq).length) 0

def eventsName (seq : ℕ) : String :=
  String.ofList ((paddedDigits seq).reverse.map Nat.digitChar) ++ ".ndjson"

def eventsObject (seq : ℕ) : String := "events/" ++ eventsName seq

structure SessionSerde where
  events : Serde
  manifests : ManifestSerde
  cursor : SinkCursor → Except String Bytes

def storePath : Path := ["store"]
def repoPath : Path := ["store", "repo"]
def eventsPath (seq : ℕ) : Path := ["events", eventsName seq]

section
variable (oracle : IoOracle) (serde : SessionSerde)

def createStore : SyncTask Unit := do
  match ← pathExists storePath with
  | true => pure ()
  | false => do
    onDisk (createDirAll oracle [] storePath)
    markDirty storePath
    markDirty []

def publishRepository (source : Listing) : SyncTask Unit := do
  createStore oracle
  syncRepositoryTree oracle repoPath [] source
  let s ← get
  onDisk (syncDirectories oracle (s.dirty.insertionSort deeperFirst))

def publishEventsObject (seq : ℕ) : SyncTask Unit := do
  onDisk (createDirAll oracle [] ["events"])
  match ← pathExists (eventsPath seq) with
  | true => pure ()
  | false => do
    let s ← get
    let _ ← onDisk (copyFileAtomic oracle s.disk.spool (eventsPath seq))
    onDisk (syncPath oracle ["events"])
    onDisk (syncPath oracle [])

def SessionManifest.durableAt (manifest : SessionManifest) : SessionManifest :=
  { manifest with
    durableSeq := some manifest.lastSeq
    durableOp := some manifest.lastOp
    eventsObject := some (Rrjj.eventsObject manifest.lastSeq) }

def syncDirectorySession (source : Listing) (manifest : SessionManifest)
    (checkpoint : Option String) : SyncTask DirectorySyncStats := do
  publishRepository oracle source
  publishEventsObject oracle manifest.lastSeq
  onDisk (modify fun disk => { disk with trace := disk.trace ++ [.copied manifest.lastSeq] })
  onDisk (writeJsonAtomic oracle ["cursor.json"] (serde.cursor
    { deliveredSeq := some manifest.lastSeq
      deliveredOp := some manifest.lastOp
      checkpoint := checkpoint }))
  onDisk (writeManifestAtomic oracle serde.manifests manifest.durableAt (some manifest.lastSeq))
  let s ← get
  return s.stats

end

structure DirectoryState where
  manifest : SessionManifest
  spoolBytes : ℕ
  failed : Option String := none
  lastSync : Option DirectorySyncStats := none

structure DirectorySessionSink where
  spoolPath : String
  maxSpoolBytes : ℕ
  serde : SessionSerde

/-- The sink at work. `accepted` are the events whose emit has returned. -/
structure LocalSession where
  disk : Disk
  state : DirectoryState
  accepted : List Event := []

def LocalSession.accept (s : LocalSession) (event : Event) (line : Bytes) : LocalSession :=
  { s with
    state :=
      { s.state with
        spoolBytes := s.state.spoolBytes + line.length
        manifest :=
          { s.state.manifest with
            lastSeq := event.seq
            lastOp := (eventOp event).getD s.state.manifest.lastOp } }
    accepted := s.accepted ++ [event] }

def LocalSession.publish (s : LocalSession) (request : FlushRequest) (manifest : SessionManifest)
    (stats : DirectorySyncStats) : LocalSession :=
  { s with
    state :=
      { s.state with
        manifest :=
          { manifest with
            durableSeq := some request.lastSeq
            durableOp := some request.lastOp
            eventsObject := some (eventsObject request.lastSeq) }
        lastSync := some stats } }

abbrev LocalTask := Proc LocalSession SinkError

namespace DirectorySessionSink

/-- `create`, on what it finds of the spool and the session directory. -/
def create (sink : DirectorySessionSink) (sessionId : String) (format : FormatMetadata)
    (spool : Bytes) (volume : Volume) : Except SinkError LocalSession :=
  if sink.maxSpoolBytes < spool.length then .error (.spoolFull spool.length 0 sink.maxSpoolBytes)
  else
    .ok
      { disk := { volume := volume, spool := spool }
        state :=
          { manifest :=
              { sessionId := sessionId
                format := format
                lastSeq := 0
                lastOp := ""
                eventsObject := none
                durableSeq := none
                durableOp := none
                storage := none }
            spoolBytes := spool.length } }

variable (oracle : IoOracle) (sink : DirectorySessionSink)

def checkFailed (state : DirectoryState) : Except SinkError Unit :=
  match state.failed with
  | some message => .error (.failed message)
  | none => .ok ()

def failIo {α : Type} (failure : IoError) : LocalTask α := do
  let sinkError : SinkError :=
    if failure.code = 28 then .diskExhausted sink.spoolPath else .io failure.message
  modify fun s => { s with state := { s.state with failed := some sinkError.toString } }
  throw sinkError

def tryDisk {α : Type} (m : DiskTask α) : LocalTask (Except IoError α) :=
  catching (zoom LocalSession.disk (fun disk s => { s with disk := disk }) m)

def orFailIo (m : DiskTask Unit) : LocalTask Unit := do
  match ← tryDisk m with
  | .ok () => pure ()
  | .error failure => sink.failIo failure

def moveBuffered (disk : Disk) (moved : ℕ) : Disk :=
  { disk with
    spool := disk.spool ++ disk.buffer.take moved
    buffer := disk.buffer.drop moved }

def takeLine (disk : Disk) (bytes : Bytes) : Disk := { disk with buffer := disk.buffer ++ bytes }

def writeAll (line : Bytes) : DiskTask Unit :=
  ioStep oracle (fun answer disk => .ok ((), moveBuffered (takeLine disk line) answer.moved))
    fun answer disk => moveBuffered (takeLine disk (line.take answer.taken)) answer.moved

def flushWriter : DiskTask Unit :=
  ioStep oracle (fun _ disk => .ok ((), moveBuffered disk disk.buffer.length))
    fun answer disk => moveBuffered disk answer.moved

def syncSpool : DiskTask Unit := ioStep oracle (fun _ disk => .ok ((), disk)) fun _ disk => disk

def lineOf (event : Event) : Except SinkError Bytes :=
  match sink.serde.events.toVec event with
  | .error message => .error (.serialize message)
  | .ok text => .ok (text ++ [newline])

def checkRoom (state : DirectoryState) (line : Bytes) : Except SinkError Unit :=
  if sink.maxSpoolBytes < state.spoolBytes + line.length then
    .error (.spoolFull state.spoolBytes line.length sink.maxSpoolBytes)
  else .ok ()

def emit (event : Event) : LocalTask Unit := do
  let s ← get
  Proc.ofExcept (checkFailed s.state)
  let line ← Proc.ofExcept (sink.lineOf event)
  Proc.ofExcept (sink.checkRoom s.state line)
  sink.orFailIo (writeAll oracle line)
  sink.orFailIo (flushWriter oracle)
  sink.orFailIo (syncSpool oracle)
  modify fun s => s.accept event line
  let s ← get
  -- the synced append is the acceptance; a failure to update the manifest is only reported
  let _ ← tryDisk (writeManifestAtomic oracle sink.serde.manifests s.state.manifest none)
  pure ()

def orIo {α : Type} (result : Except IoError α) : LocalTask α :=
  match result with
  | .ok value => pure value
  | .error failure => throw (.io failure.message)

def flush : LocalTask Unit := do
  let s ← get
  Proc.ofExcept (checkFailed s.state)
  orIo (← tryDisk (flushWriter oracle))
  orIo (← tryDisk (syncSpool oracle))

def checkLastSeq (request : FlushRequest) (manifest : SessionManifest) : Except SinkError Unit :=
  if request.lastSeq = manifest.lastSeq then .ok ()
  else .error (.invalidFlush
    s!"coordinator seq {request.lastSeq} does not match spool seq {manifest.lastSeq}")

def trySync {α : Type} (m : SyncTask α) : LocalTask (Except IoError α) :=
  catching (zoom (fun s => { disk := s.disk }) (fun gathered s => { s with disk := gathered.disk }) m)

/-- A flush of the session, with the shadow repository as it finds it. -/
def flushSession (source : Listing) (request : FlushRequest) : LocalTask Unit := do
  flush oracle
  let s ← get
  Proc.ofExcept (checkLastSeq request s.state.manifest)
  let manifest := { s.state.manifest with lastOp := request.lastOp }
  let stats ← orIo (← trySync
    (syncDirectorySession oracle sink.serde source manifest request.checkpoint))
  modify fun s => s.publish request manifest stats

inductive SessionCall where
  | emit (event : Event)
  | flushSession (source : Listing) (request : FlushRequest)

def call : SessionCall → LocalTask Unit
  | .emit event => sink.emit oracle event
  | .flushSession source request => sink.flushSession oracle source request

/-- The states that a sink reaches by calls that meet a condition. Over an oracle without a
horizon the calls have all ended. -/
inductive Reached (sink : DirectorySessionSink) (oracle : IoOracle)
    (meets : LocalSession → SessionCall → Prop) (first : LocalSession) : LocalSession → Prop
  | created : Reached sink oracle meets first first
  | called {s : LocalSession} (call : SessionCall) (reached : Reached sink oracle meets first s)
      (meet : meets s call) :
      Reached sink oracle meets first ((sink.call oracle call).run s).2

end DirectorySessionSink
end Rrjj
