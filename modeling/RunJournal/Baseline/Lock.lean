import RunJournal.Baseline.Approval
import RunJournal.Baseline.Error
import RunJournal.Store.Runs
import RunJournal.Digest.Sha256
/-!
# Locking a run as baseline

Approving a finished run writes `approval.json` beside its trace, holding the digest of the
trace file as approved, and then makes the approval, the trace, the log and the run directory
read-only. Only a run whose trace exists, that is not yet approved, that belongs to the project
(or to none) and whose status is terminal can be approved; a trace behind its log is caught up and
written anew first, so that the digest covers everything the log says.

Verifying a run directory lists every way its lock falls short: a missing trace or approval, an
approval that does not read or is not valid, files or the directory left writable, and a trace
whose digest no longer matches.
-/

namespace RunJournal

def baselineStore {α : Type} (m : WorldE StoreError α) : WorldE BaselineError α :=
  WorldE.mapError .store m

def baselineIo {α : Type} (m : WorldE IoError α) : WorldE BaselineError α :=
  WorldE.mapError .io m

/-- The approval text written to `approval.json`: pretty JSON and a final line break. -/
def Approval.fileText (a : Approval) : String := Json.pretty a.toJson ++ "\n"

/-- What approving gives: where the approval was written, the approval, and warnings about the
lock. -/
structure ApprovalOutcome where
  approvalPath : String
  approval : Approval
  warnings : List String
  deriving DecidableEq, Repr

def ApprovalOutcome.toJson (o : ApprovalOutcome) : Json :=
  .obj [("approval_path", .str o.approvalPath), ("approval", o.approval.toJson),
    ("warnings", .arr (o.warnings.map .str))]

/-- The result of a verification: no errors, or the list of them. -/
structure Verification where
  errors : List String
  deriving DecidableEq, Repr

def Verification.ok (v : Verification) : Bool := v.errors.isEmpty

def Verification.toJson (v : Verification) : Json :=
  .obj [("ok", .bool v.ok), ("errors", .arr (v.errors.map .str))]

def loadApproval (path : String) : WorldE BaselineError Approval := do
  let bytes ← baselineIo (readPath path)
  match Json.readBytes Read.approval bytes with
  | .ok a => pure a
  | .error m => throw (.json m)

def setMode (path : String) (mode : Nat) : WorldE IoError Unit :=
  changeDisk fun d cwd => d.chmod cwd path mode

/-- Makes the file `file` of a run directory read-only when it is there; the warning when that
fails. -/
def lockFile (runDir file : String) : WorldM (List String) := do
  let path := Path.join runDir file
  if !(← pathExists path) then return []
  match ← (setMode path 0o444).run with
  | .ok () => pure []
  | .error e => pure ["could not make " ++ file ++ " read-only: " ++ e.message]

/-- The trace of a run directory caught up with its log, written anew when the log had more
events, and the bytes of the trace file as they then are. -/
def catchUpTraceFile (runDir : String) (t : Trace) (bytes : List UInt8) :
    WorldE BaselineError (Trace × List UInt8) := do
  let (t, applied) ← baselineStore (catchUpFromLog runDir t none)
  if applied > 0 then
    baselineStore (writeTrace runDir t)
    pure (t, ← baselineIo (readPath (Path.join runDir traceFileName)))
  else pure (t, bytes)

/-- Writes the approval into the run directory through a temporary file. The serializer writes
into that file and reports a failed write as an error of its own. -/
def writeApproval (runDir : String) (approval : Approval) : WorldE BaselineError Unit := do
  match ← ExceptT.lift ioCheck.run with
  | .error e => throw (.json e.message)
  | .ok () => pure ()
  baselineIo (changeDisk fun d cwd =>
    d.replace cwd runDir approvalFileName approval.fileText.toUTF8.toList)

/-- Makes the approval, the trace, the log and the run directory read-only; a warning for each
that could not be. -/
def lockRunFiles (runDir : String) : WorldM (List String) := do
  let fileWarnings ← [approvalFileName, traceFileName, eventsFileName].mapM (lockFile runDir)
  let dirWarnings := match ← (setMode runDir 0o555).run with
    | .ok () => []
    | .error e => ["could not make run directory read-only: " ++ e.message]
  pure (fileWarnings.flatten ++ dirWarnings)

/-- Approves the run in `runDir` as the baseline of `project`. -/
def approveRun (runDir project approvedBy reason engineVersion : String) :
    WorldE BaselineError ApprovalOutcome := do
  let tracePath := Path.join runDir traceFileName
  if !(← pathExists tracePath) then throw (.traceMissing tracePath)
  baselineIo (lockRun runDir)
  let approvalPath := Path.join runDir approvalFileName
  if ← pathExists approvalPath then throw (.alreadyApproved runDir)
  let bytes ← baselineIo (readPath tracePath)
  let t ← match Json.readBytes Read.trace bytes with
    | .ok t => pure t
    | .error m => throw (.json m)
  let (t, bytes) ← catchUpTraceFile runDir t bytes
  if !t.projectId.isEmpty ∧ t.projectId ≠ project then throw (.projectMismatch project t.projectId)
  if !t.status.isTerminal then throw (.notTerminal t.runId t.status)
  let approval := { Approval.new project approvedBy reason engineVersion (← now) with
    traceDigest := some (Sha256.hex bytes) }
  writeApproval runDir approval
  let warnings ← ExceptT.lift (lockRunFiles runDir)
  pure { approvalPath, approval, warnings }

def isWritable (path : String) : WorldM Bool := do
  match ← onDisk fun d cwd => d.metadata cwd path with
  | .ok e => pure (e.mode &&& 0o222 != 0)
  | .error _ => pure false

/-- Lists every way the lock of the run in `runDir` falls short. -/
def verifyRunDir (runDir : String) : WorldM Verification := do
  let tracePath := Path.join runDir traceFileName
  let traceExists ← pathExists tracePath
  let missingTrace := if traceExists then [] else ["trace.json not found: " ++ tracePath]
  let approvalPath := Path.join runDir approvalFileName
  if !(← pathExists approvalPath) then
    return ⟨missingTrace ++ ["approval.json not found: " ++ approvalPath]⟩
  let loaded ← (loadApproval approvalPath).run
  let approvalErrors := match loaded with
    | .ok a =>
      match a.verify with
      | .ok () => []
      | .error reason => ["approval.json invalid: " ++ reason]
    | .error e => ["approval.json load error: " ++ e.message]
  let writable := fun (cond : Bool) (msg : String) => if cond then [msg] else []
  let approvalOpen := writable (← isWritable approvalPath) "approval.json is not read-only"
  let traceOpen := writable (traceExists && (← isWritable tracePath))
    "trace.json is not read-only (lock half-applied)"
  let dirOpen := writable (← isWritable runDir) "run directory is not read-only (lock half-applied)"
  let digestErrors ← match loaded with
    | .ok a =>
      match a.traceDigest with
      | some expected =>
        if traceExists then do
          match ← (readPath tracePath).run with
          | .ok bytes =>
            let actual := Sha256.hex bytes
            pure (if actual ≠ expected then
              ["trace.json hash mismatch: approved " ++ expected ++ ", found " ++ actual] else [])
          | .error e => pure ["trace.json unreadable: " ++ e.message]
        else pure []
      | none => pure []
    | .error _ => pure []
  pure ⟨missingTrace ++ approvalErrors ++ approvalOpen ++ traceOpen ++ dirOpen ++ digestErrors⟩

end RunJournal
