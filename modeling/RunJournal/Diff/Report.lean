import RunJournal.Diff.Basic
import RunJournal.Json.Value
/-!
# Comparison reports

The text report of a comparison, and its JSON forms. The report opens with the two runs, the
verdict and the first divergence; in the `all` form it goes on with the changes, the agent
differences (only when there are some) and the counts.
-/

namespace RunJournal

/-- How much of a comparison a report shows. -/
inductive ShowMode where
  | first
  | all
  deriving DecidableEq, Repr

def ShowMode.parse (s : String) : Except String ShowMode :=
  match asciiLower s with
  | "first" => .ok .first
  | "all" => .ok .all
  | other => .error ("unknown show mode: " ++ other)

namespace Comparison

def agentLine : AgentDiff → String
  | .status id b t => id ++ ": status " ++ b.name ++ " -> " ++ t.name
  | .stepCount id b t => id ++ ": steps " ++ toString b ++ " -> " ++ toString t
  | .missingInTarget id => id ++ ": missing in target"
  | .missingInBaseline id => id ++ ": missing in baseline"

def head (c : Comparison) : String :=
  "Baseline: " ++ c.baselineRun ++ "\n" ++
  "Target:   " ++ c.targetRun ++ "\n" ++
  "Status:   " ++ c.verdict.name ++ "\n" ++
  match c.firstDivergence with
  | some d =>
    "First divergence: agent #" ++ toString d.agentIndex ++ " (" ++ d.agentId ++ "), step #" ++
      toString d.stepIndex ++ " [" ++ d.stepKind ++ "]: " ++ d.reason ++ "\n"
  | none => "First divergence: none\n"

def render (c : Comparison) (mode : ShowMode) : String :=
  match mode with
  | .first => c.head
  | .all =>
    let changes :=
      if c.changes.isEmpty then "\nChanges: none\n"
      else "\nChanges (" ++ toString c.changes.length ++ "):\n" ++
        String.join (c.changes.map fun ch =>
          "  [" ++ ch.category.name ++ "] " ++ ch.field ++ ": " ++ ch.baseline ++ " -> " ++
            ch.target ++ " (step #" ++ toString ch.stepIndex ++ ")\n")
    let agents :=
      if c.agentDiffs.isEmpty then ""
      else "\nAgents (" ++ toString c.agentDiffs.length ++ "):\n" ++
        String.join (c.agentDiffs.map fun d => "  - " ++ agentLine d ++ "\n")
    c.head ++ changes ++ agents ++ "\nCounts: llm=" ++ toString c.counts.llm ++ " tool=" ++
      toString c.counts.tool ++ " errors=" ++ toString c.counts.errors ++ "\n"

def changeJson (ch : Change) : Json :=
  .obj [("step_index", .ofNat ch.stepIndex), ("type", .str ch.category.name),
    ("field", .str ch.field), ("baseline_value", .str ch.baseline),
    ("target_value", .str ch.target), ("policy", .null)]

def divergenceJson (d : Divergence) : Json :=
  .obj [("agent_index", .ofNat d.agentIndex), ("step_index", .ofNat d.stepIndex),
    ("agent_id", .str d.agentId), ("step_type", .str d.stepKind), ("reason", .str d.reason)]

def agentDiffJson : AgentDiff → Json
  | .status id b t => .obj [("type", .str "STATUS_DIFF"), ("agent_id", .str id),
      ("baseline_status", .str b.name), ("target_status", .str t.name)]
  | .stepCount id b t => .obj [("type", .str "STEPS_COUNT_DIFF"), ("agent_id", .str id),
      ("baseline_count", .ofNat b), ("target_count", .ofNat t)]
  | .missingInTarget id => .obj [("type", .str "MISSING_IN_TARGET"), ("agent_id", .str id)]
  | .missingInBaseline id => .obj [("type", .str "MISSING_IN_BASELINE"), ("agent_id", .str id)]

def countsJson (c : Counts) : Json :=
  .obj [("llm", .ofNat c.llm), ("tool", .ofNat c.tool), ("errors", .ofNat c.errors)]

def toJson (c : Comparison) : Json :=
  .obj [("baseline_run", .str c.baselineRun), ("target_run", .str c.targetRun),
    ("status", .str c.verdict.name), ("first_divergence", Json.ofOption divergenceJson c.firstDivergence),
    ("counts", countsJson c.counts), ("changes", .arr (c.changes.map changeJson)),
    ("agent_diffs", .arr (c.agentDiffs.map agentDiffJson))]

def response (c : Comparison) : Json :=
  .obj [("ok", .bool true),
    ("summary", .obj [("baseline_run", .str c.baselineRun), ("target_run", .str c.targetRun),
      ("status", .str c.verdict.name),
      ("first_divergence", Json.ofOption divergenceJson c.firstDivergence),
      ("counts", countsJson c.counts)]),
    ("changes", .arr (c.changes.map changeJson)), ("report", .str (c.render .all))]

end Comparison

end RunJournal
