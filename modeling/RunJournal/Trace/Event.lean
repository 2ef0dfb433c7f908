import RunJournal.Trace.Codec
/-!
# Events

Every change to a run is an event, appended to the run's log before the trace is written anew. An
event carries its sequence number in the log, when it happened, the run (and, for the first event,
the project), the agent it concerns if any, a correlation id, and what happened (`EventKind`).

In a log line an event is one flat JSON object: its own members, then `type` (the kind's
snake-case name) and the kind's members.
-/

namespace RunJournal

/-- What an event records. -/
inductive EventKind where
  | runStarted (projectName : String) (specs : List AgentSpec) (execution : Execution)
  | runCompleted (status : RunStatus)
  | agentStarted
  | agentCompleted (status : AgentStatus) (error : Option String)
  | stepAdded (step : Step)
  | artifactAdded (artifact : Artifact)
  | incidentAdded (incident : Incident)
  | log (level component message : String)
  deriving DecidableEq, Repr, Inhabited

def EventKind.names : List String :=
  ["run_started", "run_completed", "agent_started", "agent_completed", "step_added",
   "artifact_added", "error_added", "log"]

def EventKind.name : EventKind → String
  | .runStarted .. => "run_started"
  | .runCompleted .. => "run_completed"
  | .agentStarted => "agent_started"
  | .agentCompleted .. => "agent_completed"
  | .stepAdded .. => "step_added"
  | .artifactAdded .. => "artifact_added"
  | .incidentAdded .. => "error_added"
  | .log .. => "log"

def EventKind.isLog : EventKind → Bool
  | .log .. => true
  | _ => false

/-- One logged change. -/
structure Event where
  seq : Nat
  time : Instant
  runId : String
  projectId : Option String
  agentId : Option String
  correlationId : String
  kind : EventKind
  deriving DecidableEq, Repr, Inhabited

namespace Event

def typeName (e : Event) : String := e.kind.name

def kindMembers : EventKind → List (String × Option Json)
  | .runStarted name specs exec =>
    [("project_name", some (.str name)), ("agents_config", some (.arr (specs.map AgentSpec.toJson))),
     ("execution_config", some exec.toJson)]
  | .runCompleted s => [("status", some (.str s.name))]
  | .agentStarted => []
  | .agentCompleted s err => [("status", some (.str s.name)), ("error", err.map .str)]
  | .stepAdded s => [("step", some s.toJson)]
  | .artifactAdded a => [("artifact", some a.toJson)]
  | .incidentAdded i => [("error", some i.toJson)]
  | .log level component message =>
    [("level", some (.str level)), ("component", some (.str component)),
     ("message", some (.str message))]

def toJson (e : Event) : Json :=
  Json.members ([("seq", some (.ofNat e.seq)), ("timestamp", some e.time.toJson),
    ("run_id", some (.str e.runId)), ("project_id", e.projectId.map .str),
    ("agent_id", e.agentId.map .str), ("correlation_id", some (.str e.correlationId)),
    ("type", some (.str e.kind.name))] ++ kindMembers e.kind)

def line (e : Event) : String := Json.compact e.toJson

end Event

namespace Read

open Json

def kindRecord {α : Type} (expecting : String) (init : α) (fields : List (RecordField α)) : Reader α :=
  Reader.record { expecting, init, fields }

def eventKind (held : List (String × Json)) : Reader EventKind :=
  match selectVariant "type" EventKind.names held with
  | .error m => Reader.failBare m
  | .ok (i, rest) =>
    let content := Json.obj rest
    let within := fun (r : Reader EventKind) => Reader.buffered r content
    match i with
    | 0 => within (kindRecord "struct variant TraceEventKind::RunStarted" (.runStarted "" [] Execution.default) [
        field "project_name" .required Reader.str fun k v => match k with
          | .runStarted _ s e => .runStarted v s e | k => k,
        field "agents_config" .required (Reader.list agentSpec) fun k v => match k with
          | .runStarted n _ e => .runStarted n v e | k => k,
        field "execution_config" .required execution fun k v => match k with
          | .runStarted n s _ => .runStarted n s v | k => k])
    | 1 => within (kindRecord "struct variant TraceEventKind::RunCompleted" (.runCompleted .running) [
        field "status" .required runStatus fun _ v => .runCompleted v])
    | 2 => pure .agentStarted
    | 3 => within (kindRecord "struct variant TraceEventKind::AgentCompleted"
        (.agentCompleted .pending none) [
        field "status" .required agentStatus fun k v => match k with
          | .agentCompleted _ e => .agentCompleted v e | k => k,
        field "error" .defaulted (Reader.option Reader.str) fun k v => match k with
          | .agentCompleted s _ => .agentCompleted s v | k => k])
    | 4 => within (kindRecord "struct variant TraceEventKind::StepAdded" (.stepAdded default) [
        field "step" .required step fun _ v => .stepAdded v])
    | 5 => within (kindRecord "struct variant TraceEventKind::ArtifactAdded" (.artifactAdded default) [
        field "artifact" .required artifact fun _ v => .artifactAdded v])
    | 6 => within (kindRecord "struct variant TraceEventKind::ErrorAdded" (.incidentAdded default) [
        field "error" .required incident fun _ v => .incidentAdded v])
    | _ => within (kindRecord "struct variant TraceEventKind::Log" (.log "" "" "") [
        field "level" .required Reader.str fun k v => match k with
          | .log _ c m => .log v c m | k => k,
        field "component" .required Reader.str fun k v => match k with
          | .log l _ m => .log l v m | k => k,
        field "message" .required Reader.str fun k v => match k with
          | .log l c _ => .log l c v | k => k])

def eventFields : RecordFormat Event :=
  { expecting := "struct TraceEvent", init := default,
    fields := [
      field "seq" .required Reader.u64 fun e v => { e with seq := v },
      field "timestamp" .required instant fun e v => { e with time := v },
      field "run_id" .required Reader.str fun e v => { e with runId := v },
      field "project_id" .defaulted (Reader.option Reader.str) fun e v => { e with projectId := v },
      field "agent_id" .defaulted (Reader.option Reader.str) fun e v => { e with agentId := v },
      field "correlation_id" .required Reader.str fun e v => { e with correlationId := v }] }

def event : Reader Event :=
  Reader.flatRecord eventFields fun e held => do
    let k ← eventKind held
    pure { e with kind := k }

end Read

end RunJournal
