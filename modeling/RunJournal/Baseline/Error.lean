import RunJournal.Store.Error
/-!
# Baseline errors

Why approving, finding or using a baseline failed. Store errors met on the way are kept whole.
-/

namespace RunJournal

/-- A failed baseline operation. -/
inductive BaselineError where
  | traceMissing (path : String)
  | notTerminal (runId : String) (status : RunStatus)
  | alreadyApproved (path : String)
  | projectMismatch (expected found : String)
  | overwriteForbidden (project : String)
  | replayForbidden (project : String)
  | baselineNotFound (project : String)
  | io (err : IoError)
  | json (message : String)
  | yaml (message : String)
  | store (err : StoreError)
  deriving DecidableEq, Repr

namespace BaselineError

def message : BaselineError → String
  | .traceMissing p => "trace.json not found: " ++ p
  | .notTerminal r s => "run " ++ r ++ " is still " ++ s.name ++ "; only terminal runs can be approved"
  | .alreadyApproved p => "run directory is already approved: " ++ p
  | .projectMismatch e f => "run belongs to project " ++ f ++ ", not " ++ e
  | .overwriteForbidden p => "baseline for project " ++ p ++ " exists and its policy forbids overwrite"
  | .replayForbidden p => "baseline policy for project " ++ p ++ " does not allow replay"
  | .baselineNotFound p => "no baseline configured for project " ++ p
  | .io e => e.message
  | .json m => m
  | .yaml m => m
  | .store e => e.message

def causes : BaselineError → List String
  | .store e => e.causes
  | _ => []

/-- The constructor's name, as error kinds are reported; a store error adds its own. -/
def kindName : BaselineError → String
  | .traceMissing .. => "TraceMissing"
  | .notTerminal .. => "NotTerminal"
  | .alreadyApproved .. => "AlreadyApproved"
  | .projectMismatch .. => "ProjectMismatch"
  | .overwriteForbidden .. => "OverwriteForbidden"
  | .replayForbidden .. => "ReplayForbidden"
  | .baselineNotFound .. => "BaselineNotFound"
  | .io .. => "Io"
  | .json .. => "Json"
  | .yaml .. => "Yaml"
  | .store e => "Store::" ++ e.kindName

end BaselineError

end RunJournal
