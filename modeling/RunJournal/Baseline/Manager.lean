import RunJournal.Baseline.Lock
import RunJournal.Baseline.Record
import RunJournal.Config.Settings
import RunJournal.Diff.Basic
import RunJournal.Replay.Timeline
/-!
# Project baselines

Approving a run as a project's baseline does two things: it locks the run (see
`RunJournal.approveRun`) and records it in the project's `baseline.yaml` under the projects
directory, with the trace path relative to the ledger root when it lies below it. The record is
prepared before the run is locked and written only once the lock succeeds; when the run turns out
to be locked already by an approval for this project while the record names another run (an
approval interrupted before its record was written), the record is written after all.

A record whose policy forbids overwriting cannot be replaced. Comparing against and replaying a
baseline read its record and then its trace.
-/

namespace RunJournal

def baselineFileName : String := "baseline.yaml"

/-- What approving through the manager gives. -/
structure Approved where
  outcome : ApprovalOutcome
  baselinePath : String
  /-- The run was locked already and only its record was written now. -/
  resumed : Bool
  deriving DecidableEq, Repr

def Approved.toJson (a : Approved) : Json :=
  .obj [("outcome", a.outcome.toJson), ("baseline_path", .str a.baselinePath),
    ("resumed", .bool a.resumed)]

/-- A record written to a temporary file, waiting to be moved in place. -/
structure StagedBaseline where
  dir : String
  path : String
  text : String
  deriving DecidableEq, Repr

/-- The part of `path` below `root`, when `root`'s components start it. -/
def stripRoot (root path : String) : Option String :=
  let rc := Path.components root
  let pc := Path.components path
  if pc.take rc.length = rc then some (Path.ofComponents (pc.drop rc.length)) else none

def StagedBaseline.persist (s : StagedBaseline) : WorldE BaselineError String := do
  baselineIo (changeDisk fun d cwd =>
    match d.locate cwd s.path with
    | .error e => .error e
    | .ok p =>
      match d.get? p with
      | some (.dir _) => .error .isADirectory
      | _ => .ok (d.put p (.file s.text.toUTF8.toList Disk.privateMode)))
  pure s.path

/-- The manager of the baselines of a ledger. -/
structure BaselineManager where
  settings : Settings
  deriving DecidableEq, Repr

namespace BaselineManager

def baselinePath (m : BaselineManager) (project : String) : String :=
  Path.join (Path.join m.settings.projectsDir project) baselineFileName

def runDir (m : BaselineManager) (project runId : String) : String :=
  Path.join (Path.join m.settings.tracesDir project) runId

/-- A recorded trace path as a path: relative ones lie below the root. -/
def resolve (m : BaselineManager) (tracePath : String) : String :=
  Path.join m.settings.root tracePath

/-- A trace path as recorded: below the root when it is there, with every backslash written as a
slash. -/
def relativeToRoot (m : BaselineManager) (path : String) : String :=
  String.ofList (((stripRoot m.settings.root path).getD path).toList.map fun c =>
    if c = '\\' then '/' else c)

def loadBaseline (m : BaselineManager) (project : String) :
    WorldE BaselineError (Option ProjectBaseline) := do
  let path := m.baselinePath project
  if !(← pathExists path) then return none
  let bytes ← baselineIo (readPath path)
  let some text := String.fromUTF8? ⟨bytes.toArray⟩ | throw (.io .invalidUtf8)
  match ProjectBaseline.ofYaml text with
  | .ok b => pure (some b)
  | .error msg => throw (.yaml msg)

/-- Refuses to replace a record whose policy forbids it. -/
def ensureOverwritable (m : BaselineManager) (project : String) : WorldE BaselineError Unit := do
  if let some existing ← m.loadBaseline project then
    if existing.policy.overwriteForbidden then throw (.overwriteForbidden project)

/-- Prepares the record naming `runId` with `tracePath` as the baseline of `project`. -/
def stage (m : BaselineManager) (project runId tracePath : String) :
    WorldE BaselineError StagedBaseline := do
  m.ensureOverwritable project
  let record : ProjectBaseline :=
    { project, runId, tracePath := m.relativeToRoot tracePath, approved := true,
      approvedAt := ← now, policy := m.settings.policy }
  let path := m.baselinePath project
  let dir := (Path.parent path).getD m.settings.projectsDir
  baselineIo (changeDisk fun d cwd => d.createDirAll cwd dir)
  match ← ExceptT.lift (onDisk fun d cwd => d.metadata cwd dir) with
  | .ok (.dir _) => pure ()
  | .ok (.file ..) => throw (.io .notADirectory)
  | .error e => throw (.io e)
  -- the record is written to a temporary file beside its place and flushed
  baselineIo ioCheck
  pure { dir, path, text := record.toYaml }

/-- Writes the record naming `runId` with `tracePath` as the baseline of `project`. -/
def createBaseline (m : BaselineManager) (project runId tracePath : String) :
    WorldE BaselineError String := do
  (← m.stage project runId tracePath).persist

/-- The approval of an interrupted approval of `runId` for `project`, if that is what `runDir`
holds. -/
def unfinishedApproval (m : BaselineManager) (project runId runDir : String) :
    WorldE BaselineError (Option ApprovalOutcome) := do
  let approvalPath := Path.join runDir approvalFileName
  let approval ← loadApproval approvalPath
  if approval.project ≠ project then return none
  if let some existing ← m.loadBaseline project then
    if existing.runId = runId then return none
  pure (some { approvalPath, approval, warnings := [] })

/-- Approves the run in `runDir` as the baseline of `project` and records it. -/
def approveRunDir (m : BaselineManager) (project runDir approvedBy reason : String) :
    WorldE BaselineError Approved := do
  let some runId := Path.fileName runDir | throw (.traceMissing (Path.join runDir traceFileName))
  let staged ← m.stage project runId (Path.join runDir traceFileName)
  match ← ExceptT.lift (approveRun runDir project approvedBy reason m.settings.engineVersion).run with
  | .ok outcome => pure { outcome, baselinePath := ← staged.persist, resumed := false }
  | .error (.alreadyApproved dir) =>
    match ← m.unfinishedApproval project runId dir with
    | none => throw (.alreadyApproved dir)
    | some outcome => pure { outcome, baselinePath := ← staged.persist, resumed := true }
  | .error e => throw e

def approve (m : BaselineManager) (project runId approvedBy reason : String) :
    WorldE BaselineError Approved :=
  m.approveRunDir project (m.runDir project runId) approvedBy reason

/-- The trace path a project's record names, resolved; none without a readable record. -/
def baselineTracePath (m : BaselineManager) (project : String) : WorldM (Option String) := do
  match ← (m.loadBaseline project).run with
  | .ok (some b) => pure (some (m.resolve b.tracePath))
  | _ => pure none

def listBaselines (m : BaselineManager) : WorldM (List ProjectBaseline) := do
  let w ← get
  match w.disk.readDir w.cwd m.settings.projectsDir with
  | .error _ => pure []
  | .ok names =>
    let found ← names.filterMapM fun project => do
      match ← (m.loadBaseline project).run with
      | .ok b => pure b
      | .error _ => pure none
    pure (found.mergeSort fun a b => a.project ≤ b.project)

def verifyBaseline (m : BaselineManager) (project : String) : WorldM Verification := do
  let path := m.baselinePath project
  if !(← pathExists path) then return ⟨["baseline.yaml not found: " ++ path]⟩
  match ← (m.loadBaseline project).run with
  | .ok none => pure ⟨["baseline.yaml not found: " ++ path]⟩
  | .error e => pure ⟨["baseline.yaml load error: " ++ e.message]⟩
  | .ok (some record) =>
    let tracePath := m.resolve record.tracePath
    let runDir := (Path.parent tracePath).getD ""
    let approvalPath := Path.join runDir approvalFileName
    let lockErrors ← if !(← pathExists approvalPath) then do
        let missing := if ← pathExists tracePath then [] else ["trace.json not found: " ++ tracePath]
        pure (missing ++ ["approval.json not found: " ++ approvalPath])
      else pure (← verifyRunDir runDir).errors
    pure ⟨lockErrors ++ (if record.approved then [] else ["baseline is not approved"])⟩

def loadBaselineTrace (m : BaselineManager) (project : String) : WorldE BaselineError Trace := do
  let some path ← ExceptT.lift (m.baselineTracePath project) | throw (.baselineNotFound project)
  if !(← pathExists path) then throw (.traceMissing path)
  baselineStore (loadTraceFile path)

def diffAgainstBaseline (m : BaselineManager) (project : String) (target : Trace) :
    WorldE BaselineError Comparison := do
  pure (compare (← m.loadBaselineTrace project) target)

/-- Replays a project's baseline when its policy allows. -/
def replayBaseline (m : BaselineManager) (project : String) : WorldE BaselineError Timeline := do
  let some record ← m.loadBaseline project | throw (.baselineNotFound project)
  if !record.policy.replayAllowed then throw (.replayForbidden project)
  pure (replay (← m.loadBaselineTrace project))

end BaselineManager

end RunJournal
