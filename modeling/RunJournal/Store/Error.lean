import RunJournal.Trace.Status
import RunJournal.Disk.IoError
/-!
# Store errors

Why a change to a run was refused or a file could not be used. `StoreError.message` is the one
place that words them; `StoreError.causes` lists what lies under an error, outermost first, for
reports that print a chain of causes.
-/

namespace RunJournal

/-- A refused or failed store operation. -/
inductive StoreError where
  | runNotFound (projectId runId : String)
  | agentNotFound (runId agentId : String)
  | runAlreadyExists (projectId runId : String)
  | runAlreadyCompleted (runId : String) (status : RunStatus)
  | agentAlreadyStarted (agentId : String)
  | agentNotStarted (agentId : String)
  | agentAlreadyCompleted (agentId : String) (status : AgentStatus)
  | duplicateStep (agentId stepId : String)
  | stepOutOfOrder (agentId stepId : String)
  | agentMismatch (agentId stepId stepAgent : String)
  | invalidStatus (detail : String)
  | locked (runId : String)
  /-- The trace file at `path` cannot be read as a trace (`cause`) and the log cannot rebuild it. -/
  | corrupt (path cause : String)
  | io (err : IoError)
  | json (message : String)
  deriving DecidableEq, Repr

namespace StoreError

def message : StoreError → String
  | .runNotFound p r => "run not found: " ++ p ++ "/" ++ r
  | .agentNotFound r a => "agent " ++ a ++ " is not declared in run " ++ r
  | .runAlreadyExists p r => "run already exists: " ++ p ++ "/" ++ r
  | .runAlreadyCompleted r s => "run " ++ r ++ " is already " ++ s.name
  | .agentAlreadyStarted a => "agent " ++ a ++ " already started"
  | .agentNotStarted a => "agent " ++ a ++ " was never started"
  | .agentAlreadyCompleted a s => "agent " ++ a ++ " is already " ++ s.name
  | .duplicateStep a s => "step " ++ s ++ " already recorded for agent " ++ a
  | .stepOutOfOrder a s => "step " ++ s ++ " is older than the last step of agent " ++ a
  | .agentMismatch a s sa => "step " ++ s ++ " belongs to agent " ++ sa ++ ", not " ++ a
  | .invalidStatus d => "invalid status: " ++ d
  | .locked r => "run " ++ r ++ " is an approved baseline and cannot change"
  | .corrupt p _ => "trace document is corrupt and no event log is available: " ++ p
  | .io e => e.message
  | .json m => m

def causes : StoreError → List String
  | .corrupt _ cause => [cause]
  | _ => []

def kindName : StoreError → String
  | .runNotFound .. => "RunNotFound"
  | .agentNotFound .. => "AgentNotFound"
  | .runAlreadyExists .. => "RunAlreadyExists"
  | .runAlreadyCompleted .. => "RunAlreadyCompleted"
  | .agentAlreadyStarted .. => "AgentAlreadyStarted"
  | .agentNotStarted .. => "AgentNotStarted"
  | .agentAlreadyCompleted .. => "AgentAlreadyCompleted"
  | .duplicateStep .. => "DuplicateStep"
  | .stepOutOfOrder .. => "StepOutOfOrder"
  | .agentMismatch .. => "AgentMismatch"
  | .invalidStatus .. => "InvalidStatus"
  | .locked .. => "Locked"
  | .corrupt .. => "Corrupt"
  | .io .. => "Io"
  | .json .. => "Json"

end StoreError

end RunJournal
