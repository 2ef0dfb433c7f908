import RunJournal.Trace.Basic
/-!
# Replay timelines

A replay lays a trace out as a numbered timeline without running anything: a `Start Run` entry,
then agent by agent each `LLM` and `TOOL` step (input and output steps leave no entry), followed,
for an agent that failed, by one `ERROR` entry per incident recorded against it, and last an
`End Run` entry naming the run status. Entries are numbered from zero in the order they appear.
-/

namespace RunJournal

/-- Whether a replay only lays out the timeline or also hands the run to an executor. -/
inductive ReplayMode where
  | dry
  | full
  deriving DecidableEq, Repr

namespace ReplayMode

def name : ReplayMode → String
  | .dry => "dry"
  | .full => "full"

def parse (s : String) : Except String ReplayMode :=
  match asciiLower s with
  | "dry" => .ok .dry
  | "full" => .ok .full
  | other => .error ("unknown replay mode: " ++ other)

end ReplayMode

/-- What an entry of a timeline stands for, with its details. -/
inductive EntryDetail where
  | system
  | llm (agent provider model : String) (tokensIn tokensOut : Nat) (status : StepStatus)
  | tool (agent toolName : String) (status : StepStatus) (inputSummary outputSummary : String)
  | error (agent kind message : String)
  deriving DecidableEq, Repr

def EntryDetail.kindName : EntryDetail → String
  | .system => "SYSTEM"
  | .llm .. => "LLM"
  | .tool .. => "TOOL"
  | .error .. => "ERROR"

/-- One numbered entry of a timeline. -/
structure TimelineEntry where
  index : Nat
  label : String
  durationMs : Nat
  detail : EntryDetail
  deriving DecidableEq, Repr

/-- The counters of a timeline. -/
structure ReplaySummary where
  totalSteps : Nat
  llmSteps : Nat
  toolSteps : Nat
  errorSteps : Nat
  status : RunStatus
  deriving DecidableEq, Repr

/-- The timeline of a run. -/
structure Timeline where
  runId : String
  projectId : String
  mode : ReplayMode
  entries : List TimelineEntry
  summary : ReplaySummary
  deriving DecidableEq, Repr

/-- The unnumbered entry of a step, if its kind has one: label, duration and detail. -/
def stepEntry (agent : String) (s : Step) : Option (String × Nat × EntryDetail) :=
  match s.detail with
  | .llm provider model tokensIn tokensOut _ _ =>
    some (agent ++ " (" ++ provider ++ "/" ++ model ++ ")", s.latencyMs.getD 0,
      .llm agent provider model tokensIn tokensOut s.status)
  | .tool toolName inSummary outSummary =>
    some (toolName, s.latencyMs.getD 0,
      .tool agent toolName s.status (inSummary.getD "") (outSummary.getD ""))
  | .input .. | .output .. => none

/-- The unnumbered entries of one agent: its steps' entries, then its incidents if it failed. -/
def agentEntries (t : Trace) (a : AgentRun) : List (String × Nat × EntryDetail) :=
  a.steps.filterMap (stepEntry a.id) ++
  if a.status = .failed then
    (t.incidents.filter (·.agent == a.id)).map fun e =>
      (a.id ++ " error", 0, .error a.id e.kind e.message)
  else []

def countKind (entries : List TimelineEntry) (kind : String) : Nat :=
  (entries.filter (·.detail.kindName == kind)).length

def replay (t : Trace) : Timeline :=
  let raw : List (String × Nat × EntryDetail) :=
    [("Start Run", 0, .system)] ++ t.agents.flatMap (agentEntries t) ++
      [("End Run (" ++ t.status.name ++ ")", 0, .system)]
  let entries := raw.zipIdx.map fun ((label, durationMs, detail), index) =>
    { index, label, durationMs, detail : TimelineEntry }
  { runId := t.runId
    projectId := t.projectId
    mode := .dry
    entries
    summary :=
      { totalSteps := entries.length
        llmSteps := countKind entries "LLM"
        toolSteps := countKind entries "TOOL"
        errorSteps := countKind entries "ERROR"
        status := t.status } }

/-- The full replay of a trace, given what the executor made of it: the timeline in full mode, or
the executor's failure under a line naming the run, outermost first. -/
def replayFull (t : Trace) (execution : Except String Unit) : Except (List String) Timeline :=
  match execution with
  | .ok () => .ok { replay t with mode := .full }
  | .error msg => .error ["full replay of run " ++ t.runId ++ " failed", msg]

end RunJournal
