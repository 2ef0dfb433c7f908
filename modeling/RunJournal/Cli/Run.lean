import RunJournal.Cli.Ledger
import RunJournal.Baseline.Manager
import RunJournal.Replay.Report
import RunJournal.Units
/-!
# Running the ledger's command line

A run reads the line, loads the settings below the workspace root, prepares the log directory and
carries out the request, writing to standard output and standard error. It ends with status 0, or
1 when a verification fails or the request fails; a refused line ends with status 2.

A failed request is reported as `Error: ` and what was being done, followed by the chain of causes
under `Caused by:`, numbered when there are several.

The program's store is opened afresh on each run, as a new process would open it.
-/

namespace RunJournal.Cli

/-- What a run printed and how it ended. -/
structure Output where
  code : Nat := 0
  stdout : String := ""
  stderr : String := ""
  deriving Repr

/-- A failure as the program reports it: what it was doing, then the chain of causes. -/
structure Report where
  context : String
  causes : List String := []

def padLeft (s : String) (width : Nat) : String :=
  String.ofList (List.replicate (width - s.length) ' ') ++ s

def padRight (s : String) (width : Nat) : String :=
  s ++ String.ofList (List.replicate (width - s.length) ' ')

/-- A cause under `Caused by:`, numbered or not, its later lines indented to match. -/
def causeText (number : Option Nat) (text : String) : String :=
  let lines := text.splitOn "\n"
  match number with
  | some n => padLeft (toString n) 5 ++ ": " ++ "\n       ".intercalate lines
  | none => "    " ++ "\n    ".intercalate lines

def Report.text (r : Report) : String :=
  "Error: " ++ r.context
    ++ (match r.causes with
      | [] => ""
      | [c] => "\n\nCaused by:\n" ++ causeText none c
      | cs => "\n\nCaused by:" ++ String.join (cs.zipIdx.map fun (c, i) => "\n" ++ causeText (some i) c))
    ++ "\n"

/-- A run of the program over the world: it prints, and may fail with a report. -/
abbrev Program := ExceptT Report (StateT Output WorldM)

def say (line : String) : Program Unit :=
  modify fun o => { o with stdout := o.stdout ++ line ++ "\n" }

def emit (text : String) : Program Unit :=
  modify fun o => { o with stdout := o.stdout ++ text }

def warn (line : String) : Program Unit :=
  modify fun o => { o with stderr := o.stderr ++ line ++ "\n" }

def inWorld {α : Type} (m : WorldM α) : Program α := ExceptT.lift (StateT.lift m)

def attempt {ε α : Type} (m : WorldE ε α) : Program (Except ε α) := inWorld m.run

/-- Runs a world computation that may fail, reporting a failure under `context`. -/
def within {ε α : Type} (context : String) (chain : ε → List String) (m : WorldE ε α) :
    Program α := do
  match ← attempt m with
  | .ok a => pure a
  | .error e => throw { context, causes := chain e }

def StoreError.chain (e : StoreError) : List String := e.message :: e.causes

def BaselineError.chain (e : BaselineError) : List String := e.message :: e.causes

def loadTrace (path : String) : Program Trace :=
  within ("failed to read " ++ path) StoreError.chain (loadTraceFile path)

def summaryLines (t : Trace) : List String :=
  let s := t.summary
  [t.projectId ++ " / " ++ t.runId ++ "  [" ++ t.status.name ++ "]",
   "  started   " ++ t.startedAt.longText]
  ++ (t.endedAt.map fun e => ["  ended     " ++ e.longText]).getD []
  ++ ["  agents    " ++ toString s.totalAgents ++ " (" ++ toString s.completedAgents
        ++ " completed, " ++ toString s.failedAgents ++ " failed)",
      "  calls     " ++ toString s.totalLlmCalls ++ " llm, " ++ toString s.totalToolCalls
        ++ " tool, " ++ toString s.totalTokens ++ " tokens",
      "  duration  " ++ formatDuration s.totalDurationMs]
  ++ t.agents.map (fun a => "  - " ++ padRight a.id 20 ++ " " ++ padRight a.status.name 10 ++ " "
        ++ toString a.steps.length ++ " steps")
  ++ (if t.artifacts.isEmpty then [] else
      "  artifacts:" :: t.artifacts.map fun a =>
        "    " ++ padRight a.id 24 ++ " " ++ padRight a.kind 8 ++ " "
          ++ padLeft ((a.sizeBytes.map formatBytes).getD "-") 10 ++ "  " ++ a.path)
  ++ (if t.incidents.isEmpty then [] else
      "  errors:" :: t.incidents.map fun i =>
        "    " ++ i.agent ++ " [" ++ i.kind ++ "] " ++ i.message)

def sayAll (lines : List String) : Program Unit := lines.forM say

/-- Carries out a request with the given settings and store; the exit status. -/
def perform (settings : Settings) (store : Store) : Request → Program Nat
  | .runs project json => do
    let runs ← inWorld (store.listRuns project)
    if json then say (Json.pretty (.arr (runs.map RunListing.toJson)))
    else if runs.isEmpty then say ("No runs for project '" ++ project ++ "'.")
    else sayAll (runs.map fun r =>
      padRight r.runId 24 ++ " " ++ padRight r.status.name 10 ++ " " ++ r.startedAt.listingText
        ++ "  " ++ formatDuration r.totalDurationMs)
    pure 0
  | .show project runId json => do
    let some t ← inWorld (store.trace? project runId)
      | throw { context := "run " ++ project ++ "/" ++ runId ++ " not found" }
    if json then say (Json.pretty t.toJson)
    else
      sayAll (summaryLines t)
      if ← inWorld (store.isLocked project runId) then say "  locked    yes (approval.json present)"
    pure 0
  | .events project runId limit types => do
    let events ← inWorld (store.events project runId types limit)
    sayAll (events.map fun e => Json.compact e.toJson)
    pure 0
  | .replay path mode json => do
    let t ← loadTrace path
    let timeline ← match mode with
      | .dry => pure (replay t)
      | .full =>
        match replayFull t (.error "full replay needs an execution engine; use --mode dry") with
        | .ok tl => pure tl
        | .error chain => throw { context := chain.headD "", causes := chain.drop 1 }
    if json then say (Json.pretty timeline.response) else emit timeline.render
    pure 0
  | .diff baseline new trace1 trace2 only mode json => do
    let (b, t) ← match baseline, trace1, trace2 with
      | some project, _, _ => do
        let some newPath := new | throw { context := "--new is required with --baseline" }
        let b ← within ("no usable baseline for project '" ++ project ++ "'") BaselineError.chain
          (({ settings } : BaselineManager).loadBaselineTrace project)
        pure (b, ← loadTrace newPath)
      | none, some p1, some p2 => do
        let b ← loadTrace p1
        pure (b, ← loadTrace p2)
      | _, _, _ =>
        throw { context := "either --baseline <project> --new <trace> or two trace paths are required" }
    let result := compare b t
    let result := match only with
      | some c => result.only c
      | none => result
    if json then say (Json.pretty result.response) else emit (result.render mode)
    pure 0
  | .approve traceDir project approvedBy reason engineVersion => do
    let settings := match engineVersion with
      | some v => { settings with engineVersion := v }
      | none => settings
    let approved ← within ("failed to approve " ++ traceDir) BaselineError.chain
      (({ settings } : BaselineManager).approveRunDir project traceDir approvedBy reason)
    say ((if approved.resumed then "approval.json already present: " else "approval.json created: ")
      ++ approved.outcome.approvalPath)
    approved.outcome.warnings.forM fun w => warn ("warning: " ++ w)
    say ("baseline.yaml created: " ++ approved.baselinePath)
    pure 0
  | .verify project json => do
    let v ← inWorld (({ settings } : BaselineManager).verifyBaseline project)
    if json then say (Json.pretty v.toJson)
    else if v.ok then say ("Baseline for '" ++ project ++ "' verified.")
    else
      say ("Baseline for '" ++ project ++ "' FAILED verification:")
      sayAll (v.errors.map ("  - " ++ ·))
    pure (if v.ok then 0 else 1)
  | .listBaselines => do
    let records ← inWorld ({ settings } : BaselineManager).listBaselines
    if records.isEmpty then say "No baselines."
    sayAll (records.map fun r =>
      padRight r.project 24 ++ " " ++ padRight r.runId 24 ++ " " ++ r.approvedAt.dateText ++ "  "
        ++ r.tracePath)
    pure 0
  | .recover project runId => do
    let t ← within ("failed to recover " ++ project ++ "/" ++ runId) StoreError.chain
      (store.recoverRun project runId)
    say ("Rebuilt " ++ store.tracePath project runId ++ " (" ++ toString t.agents.length
      ++ " agents, status " ++ t.status.name ++ ")")
    pure 0

/-- The settings of a run: the file below the root, if it reads as text, under the line's log
options. -/
def loadSettings (inv : Invocation) : WorldM Settings := do
  let root := inv.root.getD "."
  let text := match ← (readPath (Path.join root settingsFileName)).run with
    | .ok bytes => String.fromUTF8? ⟨bytes.toArray⟩
    | .error _ => none
  pure (Settings.load root text inv.log inv.logFormat)

/-- Prepares the log directory, if the settings name one: it is created, with the day's log file
in it; when it cannot be, logging stays on standard error and a warning says why. -/
def prepareLogs (settings : Settings) : Program Unit := do
  match settings.logFile with
  | none => pure ()
  | some dir =>
    match ← attempt (changeDisk fun d cwd => d.createDirAll cwd dir) with
    | .error e =>
      warn ("warn: could not create log directory '" ++ dir ++ "': " ++ e.message
        ++ "; logging to stderr only")
    | .ok () =>
      let day := (← inWorld now).dateText
      let _ ← attempt (changeDisk fun d cwd => d.append cwd (Path.join dir ("runledger.log." ++ day)) [])

def execute (inv : Invocation) : Program Nat := do
  let settings ← inWorld (loadSettings inv)
  prepareLogs settings
  let store : Store := { id := ← inWorld openStore, root := settings.tracesDir }
  perform settings store inv.request

/-- Runs the program on a command line (the tokens after the program's name) with the given
environment. -/
def runLine (env : Env) (args : List String) : WorldM Output := do
  match readLine ledgerCommand env args with
  | .error h =>
    pure (if h.toStdout then { code := h.code, stdout := h.text } else { code := h.code, stderr := h.text })
  | .ok levels =>
    match Invocation.ofLevels levels with
    | none => pure { code := 2, stderr := "error: the command line names no request\n" }
    | some inv =>
      let (result, out) ← (execute inv).run.run {}
      match result with
      | .ok code => pure { out with code }
      | .error r => pure { out with code := 1, stderr := out.stderr ++ r.text }

end RunJournal.Cli
