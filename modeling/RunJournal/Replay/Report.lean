import RunJournal.Replay.Timeline
import RunJournal.Units
import RunJournal.Json.Value
/-!
# Replay reports

The text report of a timeline, one line per entry, and its JSON forms.
-/

namespace RunJournal

namespace Timeline

def padLeft (s : String) (width : Nat) : String :=
  String.ofList (List.replicate (width - s.length) ' ') ++ s

def padRight (s : String) (width : Nat) : String :=
  s ++ String.ofList (List.replicate (width - s.length) ' ')

def entryLine (e : TimelineEntry) : String :=
  padLeft (toString e.index) 4 ++ "  " ++ padRight e.detail.kindName 6 ++ " " ++ e.label ++
  (if e.durationMs > 0 then "  (" ++ formatDuration e.durationMs ++ ")" else "") ++
  match e.detail with
  | .llm _ _ _ tokensIn tokensOut _ => "  tokens=" ++ toString (satAdd tokensIn tokensOut)
  | .error _ _ message => "  " ++ message
  | _ => ""

def render (t : Timeline) : String :=
  let s := t.summary
  (match t.mode with
    | .dry => "DRY RUN: "
    | .full => "FULL REPLAY: ") ++ t.projectId ++ "/" ++ t.runId ++ "\n" ++
  String.join (t.entries.map fun e => entryLine e ++ "\n") ++
  "\nSteps: " ++ toString s.totalSteps ++ " (llm=" ++ toString s.llmSteps ++ " tool=" ++
    toString s.toolSteps ++ " errors=" ++ toString s.errorSteps ++ ")  Status: " ++
    s.status.name ++ "\n"

def detailJson : EntryDetail → Option Json
  | .system => none
  | .llm agent provider model tokensIn tokensOut status =>
    some (.obj [("agent_id", .str agent), ("provider", .str provider), ("model", .str model),
      ("attempt", .ofNat 1),
      ("tokens", .obj [("input", .ofNat tokensIn), ("output", .ofNat tokensOut),
        ("total", .ofNat (satAdd tokensIn tokensOut))]),
      ("status", .str status.name)])
  | .tool agent toolName status inSummary outSummary =>
    some (.obj [("agent_id", .str agent), ("tool_name", .str toolName), ("status", .str status.name),
      ("input_summary", .str inSummary), ("output_summary", .str outSummary)])
  | .error agent kind message =>
    some (.obj [("agent_id", .str agent), ("error_type", .str kind), ("message", .str message)])

def entryJson (e : TimelineEntry) : Json :=
  Json.members [("step_index", some (.ofNat e.index)), ("type", some (.str e.detail.kindName)),
    ("label", some (.str e.label)), ("duration_ms", some (.ofNat e.durationMs)),
    ("meta", detailJson e.detail)]

def summaryJson (s : ReplaySummary) : Json :=
  .obj [("total_steps", .ofNat s.totalSteps), ("llm_steps", .ofNat s.llmSteps),
    ("tool_steps", .ofNat s.toolSteps), ("error_steps", .ofNat s.errorSteps),
    ("status", .str s.status.name)]

def toJson (t : Timeline) : Json :=
  .obj [("run_id", .str t.runId), ("project_id", .str t.projectId), ("mode", .str t.mode.name),
    ("entries", .arr (t.entries.map entryJson)), ("summary", summaryJson t.summary)]

def response (t : Timeline) : Json :=
  .obj [("ok", .bool true), ("mode", .str t.mode.name), ("summary", summaryJson t.summary),
    ("timeline", .arr (t.entries.map entryJson)), ("report", .str t.render)]

end Timeline

end RunJournal
