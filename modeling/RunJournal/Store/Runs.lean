import RunJournal.Store.Log
import RunJournal.Store.Error
import RunJournal.Trace.Apply
import RunJournal.Trace.Codec
import RunJournal.Json.Write
/-!
# The run store

A store keeps each run of each project in its own directory `<root>/<project>/<run>`: the event
log `events.jsonl`, the record of every change, and `trace.json`, a snapshot of the trace the log
describes, written after each change. The log is the truth: a snapshot behind its log is caught up
from the log's later events whenever it is read or changed (a snapshot that knows no sequence
number is taken as it is), a snapshot that does not read as a trace is rebuilt from the log, and a
missing one is rebuilt too.

A change is checked against the current trace first and refused without writing anything when it
does not apply. An accepted change is appended to the log with the next sequence number (one past
both the log's last and the snapshot's), then the snapshot is written anew. A run with an
`approval.json` is a locked baseline and refuses every change.

A store remembers, per run, the size and last sequence number of the log it last wrote, and trusts
them while the log keeps that size.
-/

namespace RunJournal

def traceFileName : String := "trace.json"

def approvalFileName : String := "approval.json"

def storeIo {α : Type} (m : WorldE IoError α) : WorldE StoreError α := WorldE.mapError .io m

def pathExists (path : String) : WorldM Bool := onDisk fun d cwd => d.exists_ cwd path

def readPath (path : String) : WorldE IoError (List UInt8) := do
  match ← ExceptT.lift (onDisk fun d cwd => d.read cwd path) with
  | .ok b => pure b
  | .error e => throw e

/-- The trace text written to `trace.json`: pretty JSON and a final line break. -/
def Trace.fileText (t : Trace) : String := Json.pretty t.toJson ++ "\n"

/-- Writes the snapshot of a run into its directory through a temporary file. The serializer
writes into that file and reports a failed write as an error of its own. -/
def writeTrace (dir : String) (t : Trace) : WorldE StoreError Unit := do
  match ← ExceptT.lift ioCheck.run with
  | .error e => throw (.json e.message)
  | .ok () => pure ()
  storeIo (changeDisk fun d cwd => d.replace cwd dir traceFileName t.fileText.toUTF8.toList)

/-- Takes the lock of a run's log for the length of a change: the log must open for reading when
it exists. -/
def lockRun (dir : String) : WorldE IoError Unit := do
  match ← ExceptT.lift (onDisk fun d cwd => d.metadata cwd (Path.join dir eventsFileName)) with
  | .ok e => if Disk.canRead e.mode then pure () else throw .permissionDenied
  | .error .notFound => pure ()
  | .error e => throw e

def createRunLog (dir : String) : WorldE IoError Unit := do
  changeDisk fun d cwd => d.createDirAll cwd dir
  changeDisk fun d cwd => d.append cwd (Path.join dir eventsFileName) []

/-- Applies the log's events beyond the snapshot's sequence number; `logSeq` is the log's last
sequence number when already known. Gives the trace and how many events changed it. -/
def catchUpFromLog (dir : String) (t : Trace) (logSeq : Option Nat) : WorldE StoreError (Trace × Nat) := do
  if t.lastSeq = 0 then return (t, 0)
  let log : EventLog := ⟨dir⟩
  let last ← match logSeq with
    | some s => pure s
    | none => storeIo log.lastSeq
  if last ≤ t.lastSeq then return (t, 0)
  let events ← storeIo (log.readFrom (t.lastSeq + 1))
  pure (t.catchUp events)

def loadRun (dir : String) (logSeq : Option Nat) : WorldE StoreError (Option Trace) := do
  let path := Path.join dir traceFileName
  let log : EventLog := ⟨dir⟩
  match ← ExceptT.lift (onDisk fun d cwd => d.read cwd path) with
  | .error .notFound => pure (Trace.rebuild (← storeIo log.readAll))
  | .error e => throw (.io e)
  | .ok bytes =>
    match Json.readBytes Read.trace bytes with
    | .ok t =>
      let (t, _) ← catchUpFromLog dir t logSeq
      pure (some t)
    | .error cause =>
      match Trace.rebuild (← storeIo log.readAll) with
      | some t => pure (some t)
      | none => throw (.corrupt path cause)

/-- Reads a trace file that must be whole: a file that does not read as a trace is corrupt. -/
def loadTraceFile (path : String) : WorldE StoreError Trace := do
  let bytes ← storeIo (readPath path)
  match Json.readBytes Read.trace bytes with
  | .ok t => pure t
  | .error cause => throw (.corrupt path cause)

/-- One run in a listing. -/
structure RunListing where
  runId : String
  status : RunStatus
  startedAt : Instant
  endedAt : Option Instant
  totalDurationMs : Nat
  deriving DecidableEq, Repr

def RunListing.toJson (r : RunListing) : Json :=
  Json.members [("run_id", some (.str r.runId)), ("status", some (.str r.status.name)),
    ("started_at", some r.startedAt.toJson), ("ended_at", r.endedAt.map Instant.toJson),
    ("total_duration_ms", some (.ofNat r.totalDurationMs))]

/-- The names of the directories in `dir`, in listing order; none when it cannot be listed. -/
def subdirectories (dir : String) : WorldM (List String) := do
  let w ← get
  match w.disk.readDir w.cwd dir with
  | .error _ => pure []
  | .ok names => pure (names.filter fun n => w.disk.isDirAt w.cwd (Path.join dir n))

def insertByStart (r : RunListing) : List RunListing → List RunListing
  | [] => [r]
  | x :: xs => if Instant.lt x.startedAt r.startedAt then r :: x :: xs else x :: insertByStart r xs

/-- A store of runs below `root`; `id` tells its memory apart from other stores'. -/
structure Store where
  id : Nat
  root : String
  deriving DecidableEq, Repr

namespace Store

def runDir (s : Store) (projectId runId : String) : String :=
  Path.join (Path.join s.root projectId) runId

def tracePath (s : Store) (projectId runId : String) : String :=
  Path.join (s.runDir projectId runId) traceFileName

def isLocked (s : Store) (projectId runId : String) : WorldM Bool :=
  pathExists (Path.join (s.runDir projectId runId) approvalFileName)

def ensureUnlocked (dir runId : String) : WorldE StoreError Unit := do
  if ← pathExists (Path.join dir approvalFileName) then throw (.locked runId)

def currentTail (log : EventLog) (remembered : Option LogTail) : WorldE StoreError LogTail := do
  match remembered with
  | some tail => if tail.bytes = (← storeIo log.byteLen) then return tail
  | none => pure ()
  storeIo log.tail

/-- Writes the snapshot after an append and remembers the log's new tail; when the snapshot
cannot be written the append is undone and the memory dropped. -/
def commit (key : TailKey) (log : EventLog) (dir : String) (t : Trace)
    (rollbackTo : Nat) : WorldE StoreError Unit := do
  match ← ExceptT.lift (writeTrace dir t).run with
  | .error e =>
    rememberTail key none
    let _ ← ExceptT.lift (log.truncate rollbackTo).run
    throw e
  | .ok () =>
    let bytes ← storeIo log.byteLen
    rememberTail key (some { bytes, seq := t.lastSeq })

def notFound (projectId runId : String) : StoreError := .runNotFound projectId runId

def newEvent (runId : String) (agentId : Option String) (kind : EventKind) : WorldM Event := do
  let time ← now
  let correlationId ← freshUuid
  pure { seq := 0, time, runId, projectId := none, agentId, correlationId, kind }

/-- Whether the run in `dir` is taken: it has a snapshot or its log names a sequence number. A
snapshot answers at once; only without one is the log read. -/
def runTaken (dir : String) : WorldE StoreError Bool := do
  if ← pathExists (Path.join dir traceFileName) then return true
  pure ((← storeIo (EventLog.lastSeq ⟨dir⟩)) != 0)

def startRun (s : Store) (runId projectId projectName : String) (specs : List AgentSpec)
    (execution : Execution) : WorldE StoreError Trace := do
  let dir := s.runDir projectId runId
  let key : TailKey := (s.id, projectId, runId)
  let log : EventLog := ⟨dir⟩
  if ← runTaken dir then throw (.runAlreadyExists projectId runId)
  storeIo (createRunLog dir)
  if ← runTaken dir then throw (.runAlreadyExists projectId runId)
  let rollbackTo ← storeIo log.byteLen
  let e ← newEvent runId none (.runStarted projectName specs execution)
  let e := { e with projectId := some projectId }
  let t := Trace.new runId projectId projectName specs execution e.time
  let written ← storeIo (log.appendAt e 1)
  let t := { t with lastSeq := written.seq }
  commit key log dir t rollbackTo
  pure t

def mutate (s : Store) (runId projectId : String) (agentId : Option String) (kind : EventKind) :
    WorldE StoreError Trace := do
  let key : TailKey := (s.id, projectId, runId)
  let remembered ← rememberedTail key
  let dir := s.runDir projectId runId
  storeIo (lockRun dir)
  ensureUnlocked dir runId
  let log : EventLog := ⟨dir⟩
  let tail ← currentTail log remembered
  let some t ← loadRun dir (some tail.seq) | throw (notFound projectId runId)
  let e ← newEvent runId agentId kind
  let t ← match t.apply e with
    | .ok t' => pure t'
    | .error err => throw err
  let seq := wordSucc (max tail.seq t.lastSeq)
  let written ← storeIo (log.appendAt e seq)
  let t := { t with lastSeq := written.seq }
  commit key log dir t tail.bytes
  pure t

def startAgent (s : Store) (runId projectId agentId : String) : WorldE StoreError Unit := do
  let _ ← s.mutate runId projectId (some agentId) .agentStarted

def addStep (s : Store) (runId projectId agentId : String) (step : Step) : WorldE StoreError Unit := do
  let step ← if step.startedAt.isNone ∧ step.endedAt.isNone then do
      let t ← now
      pure { step with startedAt := some t }
    else pure step
  let _ ← s.mutate runId projectId (some agentId) (.stepAdded step)

def nonEmpty (s : String) : Option String := if s.isEmpty then none else some s

def addArtifact (s : Store) (runId projectId : String) (a : Artifact) : WorldE StoreError Unit := do
  let _ ← s.mutate runId projectId (nonEmpty a.createdBy) (.artifactAdded a)

def addIncident (s : Store) (runId projectId : String) (i : Incident) : WorldE StoreError Unit := do
  let _ ← s.mutate runId projectId (nonEmpty i.agent) (.incidentAdded i)

def completeAgent (s : Store) (runId projectId agentId : String) (status : AgentStatus)
    (error : Option String) : WorldE StoreError Unit := do
  let _ ← s.mutate runId projectId (some agentId) (.agentCompleted status error)

def completeRun (s : Store) (runId projectId : String) (status : RunStatus) : WorldE StoreError Trace := do
  let t ← s.mutate runId projectId none (.runCompleted status)
  rememberTail (s.id, projectId, runId) none
  pure t

def log (s : Store) (runId projectId level component message : String) : WorldE StoreError Unit := do
  let key : TailKey := (s.id, projectId, runId)
  let remembered ← rememberedTail key
  let dir := s.runDir projectId runId
  storeIo (lockRun dir)
  ensureUnlocked dir runId
  let log : EventLog := ⟨dir⟩
  let tail ← currentTail log remembered
  if tail.seq = 0 ∧ !(← pathExists (Path.join dir traceFileName)) then
    throw (notFound projectId runId)
  let e ← newEvent runId none (.log level component message)
  let written ← storeIo (log.appendAt e (wordSucc tail.seq))
  let bytes ← storeIo log.byteLen
  rememberTail key (some { bytes, seq := written.seq })

def recoverRun (s : Store) (projectId runId : String) : WorldE StoreError Trace := do
  rememberTail (s.id, projectId, runId) none
  let dir := s.runDir projectId runId
  storeIo (lockRun dir)
  ensureUnlocked dir runId
  let events ← storeIo (EventLog.readAll ⟨dir⟩)
  let some t := Trace.rebuild events | throw (notFound projectId runId)
  writeTrace dir t
  pure t

def trace? (s : Store) (projectId runId : String) : WorldM (Option Trace) := do
  match ← (loadRun (s.runDir projectId runId) none).run with
  | .ok t => pure t
  | .error _ => pure none

/-- A run's events, keeping only the given types when any are given and only the last `limit`
when a limit is given; none when the log cannot be read. -/
def events (s : Store) (projectId runId : String) (types : List String) (limit : Option Nat) :
    WorldM (List Event) := do
  match ← (EventLog.readAll ⟨s.runDir projectId runId⟩).run with
  | .error _ => pure []
  | .ok all =>
    let kept := if types.isEmpty then all else all.filter fun e => types.contains e.typeName
    pure (match limit with
      | some n => kept.drop (kept.length - n)
      | none => kept)

def listRuns (s : Store) (projectId : String) : WorldM (List RunListing) := do
  let names ← subdirectories (Path.join s.root projectId)
  let traces ← names.filterMapM fun runId => s.trace? projectId runId
  pure ((traces.map fun t =>
    { runId := t.runId, status := t.status, startedAt := t.startedAt, endedAt := t.endedAt,
      totalDurationMs := t.summary.totalDurationMs : RunListing }).foldl (fun acc r => insertByStart r acc) [])

def listProjects (s : Store) : WorldM (List String) := do
  pure ((← subdirectories s.root).mergeSort (· ≤ ·))

end Store

end RunJournal
