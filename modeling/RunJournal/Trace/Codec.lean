import RunJournal.Trace.Basic
import RunJournal.Time.Rfc3339
import RunJournal.Json.Decode
/-!
# Trace files

The JSON form of traces and their parts. Members are written in declaration order; an absent
optional value is left out, never written `null`. A step is one flat object: its own members, then
`type` and the members of its detail.

Reading follows the same names. Fields with a default may be left out; optional values may also be
`null`; unknown members are ignored. A record may also be given as an array of its fields in order.
Instants are RFC 3339 strings.
-/

namespace RunJournal

open Json

def Instant.toJson (t : Instant) : Json := .str t.text

def stringsJson (xs : List String) : Json := .arr (xs.map .str)

def StepDetail.members : StepDetail → List (String × Option Json)
  | .input context previous =>
    [("type", some (.str "INPUT")), ("context", context.map stringsJson),
     ("previous_results", previous.map stringsJson)]
  | .llm provider model ti tout ins outs =>
    [("type", some (.str "LLM")), ("provider", some (.str provider)), ("model", some (.str model)),
     ("tokens_input", some (.ofNat ti)), ("tokens_output", some (.ofNat tout)),
     ("input_summary", ins.map .str), ("output_summary", outs.map .str)]
  | .tool name ins outs =>
    [("type", some (.str "TOOL")), ("tool_name", some (.str name)),
     ("input_summary", ins.map .str), ("output_summary", outs.map .str)]
  | .output keys ids =>
    [("type", some (.str "OUTPUT")), ("output_keys", keys.map stringsJson),
     ("artifact_ids", ids.map stringsJson)]

def Step.toJson (s : Step) : Json :=
  Json.members ([("step_id", some (.str s.id)), ("agent_id", some (.str s.agent)),
    ("status", some (.str s.status.name)), ("started_at", s.startedAt.map Instant.toJson),
    ("ended_at", s.endedAt.map Instant.toJson), ("latency_ms", s.latencyMs.map .ofNat),
    ("error", s.error.map .str)] ++ s.detail.members)

def AgentSpec.toJson (a : AgentSpec) : Json :=
  .obj [("id", .str a.id), ("preset", .str a.preset), ("purpose", .str a.purpose)]

def Execution.toJson (e : Execution) : Json :=
  .obj [("mode", .str e.mode), ("retry_count", .ofNat e.retryCount)]

def AgentRun.toJson (a : AgentRun) : Json :=
  Json.members [("agent_id", some (.str a.id)), ("preset", some (.str a.preset)),
    ("purpose", some (.str a.purpose)), ("status", some (.str a.status.name)),
    ("started_at", a.startedAt.map Instant.toJson), ("ended_at", a.endedAt.map Instant.toJson),
    ("steps", some (.arr (a.steps.map Step.toJson))), ("total_tokens", some (.ofNat a.totalTokens)),
    ("error", a.error.map .str)]

def Artifact.toJson (a : Artifact) : Json :=
  Json.members [("artifact_id", some (.str a.id)), ("artifact_type", some (.str a.kind)),
    ("path", some (.str a.path)), ("created_by", some (.str a.createdBy)),
    ("created_at", some a.createdAt.toJson), ("size_bytes", a.sizeBytes.map .ofNat)]

def Incident.toJson (i : Incident) : Json :=
  .obj [("step_id", .str i.stepId), ("agent_id", .str i.agent), ("error_type", .str i.kind),
    ("message", .str i.message), ("timestamp", i.time.toJson), ("recoverable", .bool i.recoverable)]

def Summary.toJson (s : Summary) : Json :=
  .obj [("total_agents", .ofNat s.totalAgents), ("completed_agents", .ofNat s.completedAgents),
    ("failed_agents", .ofNat s.failedAgents), ("total_llm_calls", .ofNat s.totalLlmCalls),
    ("total_tool_calls", .ofNat s.totalToolCalls), ("total_tokens", .ofNat s.totalTokens),
    ("total_duration_ms", .ofNat s.totalDurationMs)]

def Trace.toJson (t : Trace) : Json :=
  Json.members [("trace_version", some (.str t.version)), ("run_id", some (.str t.runId)),
    ("project_id", some (.str t.projectId)), ("project_name", some (.str t.projectName)),
    ("status", some (.str t.status.name)), ("started_at", some t.startedAt.toJson),
    ("ended_at", t.endedAt.map Instant.toJson),
    ("agents_config", some (.arr (t.agentSpecs.map AgentSpec.toJson))),
    ("execution_config", some t.execution.toJson),
    ("agents", some (.arr (t.agents.map AgentRun.toJson))),
    ("artifacts", some (.arr (t.artifacts.map Artifact.toJson))),
    ("errors", some (.arr (t.incidents.map Incident.toJson))),
    ("summary", some t.summary.toJson), ("last_event_seq", some (.ofNat t.lastSeq))]

/-! ## Reading -/

namespace Read

def instant : Reader Instant :=
  Reader.stringWith "an RFC 3339 formatted date and time string" Instant.parse

def strings : Reader (List String) := Reader.list Reader.str

def field {α β : Type} (name : String) (presence : Presence) (r : Reader β) (set : α → β → α) :
    RecordField α :=
  { name, presence, read := fun a => do let b ← r; pure (set a b) }

def runStatus : Reader RunStatus := do
  let i ← Reader.unitVariant (RunStatus.all.map RunStatus.name)
  pure (RunStatus.all.getD i .running)

def agentStatus : Reader AgentStatus := do
  let i ← Reader.unitVariant (AgentStatus.all.map AgentStatus.name)
  pure (AgentStatus.all.getD i .pending)

def stepStatus : Reader StepStatus := do
  let i ← Reader.unitVariant (StepStatus.all.map StepStatus.name)
  pure (StepStatus.all.getD i .ok)

def inputDetail : RecordFormat (Option (List String) × Option (List String)) :=
  { expecting := "struct variant StepDetail::Input", init := (none, none),
    fields := [field "context" .defaulted (Reader.option strings) fun a v => (v, a.2),
               field "previous_results" .defaulted (Reader.option strings) fun a v => (a.1, v)] }

def llmDetail : RecordFormat StepDetail :=
  { expecting := "struct variant StepDetail::Llm", init := .llm "" "" 0 0 none none,
    fields := [
      field "provider" .required Reader.str fun d v => match d with
        | .llm _ m ti tout i o => .llm v m ti tout i o | d => d,
      field "model" .required Reader.str fun d v => match d with
        | .llm p _ ti tout i o => .llm p v ti tout i o | d => d,
      field "tokens_input" .defaulted Reader.u64 fun d v => match d with
        | .llm p m _ tout i o => .llm p m v tout i o | d => d,
      field "tokens_output" .defaulted Reader.u64 fun d v => match d with
        | .llm p m ti _ i o => .llm p m ti v i o | d => d,
      field "input_summary" .defaulted (Reader.option Reader.str) fun d v => match d with
        | .llm p m ti tout _ o => .llm p m ti tout v o | d => d,
      field "output_summary" .defaulted (Reader.option Reader.str) fun d v => match d with
        | .llm p m ti tout i _ => .llm p m ti tout i v | d => d] }

def toolDetail : RecordFormat StepDetail :=
  { expecting := "struct variant StepDetail::Tool", init := .tool "" none none,
    fields := [
      field "tool_name" .required Reader.str fun d v => match d with
        | .tool _ i o => .tool v i o | d => d,
      field "input_summary" .defaulted (Reader.option Reader.str) fun d v => match d with
        | .tool n _ o => .tool n v o | d => d,
      field "output_summary" .defaulted (Reader.option Reader.str) fun d v => match d with
        | .tool n i _ => .tool n i v | d => d] }

def outputDetail : RecordFormat (Option (List String) × Option (List String)) :=
  { expecting := "struct variant StepDetail::Output", init := (none, none),
    fields := [field "output_keys" .defaulted (Reader.option strings) fun a v => (v, a.2),
               field "artifact_ids" .defaulted (Reader.option strings) fun a v => (a.1, v)] }

def stepDetail (held : List (String × Json)) : Reader StepDetail :=
  match selectVariant "type" (StepKind.all.map StepKind.name) held with
  | .error m => Reader.failBare m
  | .ok (i, rest) =>
    let content := Json.obj rest
    match i with
    | 0 => do let (c, p) ← Reader.buffered (Reader.record inputDetail) content; pure (.input c p)
    | 1 => Reader.buffered (Reader.record llmDetail) content
    | 2 => Reader.buffered (Reader.record toolDetail) content
    | _ => do let (k, a) ← Reader.buffered (Reader.record outputDetail) content; pure (.output k a)

def stepFields : RecordFormat Step :=
  { expecting := "struct TraceStep", init := Step.bare "" "" (.input none none),
    fields := [
      field "step_id" .required Reader.str fun s v => { s with id := v },
      field "agent_id" .required Reader.str fun s v => { s with agent := v },
      field "status" .required stepStatus fun s v => { s with status := v },
      field "started_at" .defaulted (Reader.option instant) fun s v => { s with startedAt := v },
      field "ended_at" .defaulted (Reader.option instant) fun s v => { s with endedAt := v },
      field "latency_ms" .defaulted (Reader.option Reader.u64) fun s v => { s with latencyMs := v },
      field "error" .defaulted (Reader.option Reader.str) fun s v => { s with error := v }] }

def step : Reader Step :=
  Reader.flatRecord stepFields fun s held => do
    let d ← stepDetail held
    pure { s with detail := d }

def agentSpec : Reader AgentSpec :=
  Reader.record
    { expecting := "struct AgentConfig", init := { id := "", preset := "", purpose := "" },
      fields := [
        field "id" .required Reader.str fun a v => { a with id := v },
        field "preset" .defaulted Reader.str fun a v => { a with preset := v },
        field "purpose" .defaulted Reader.str fun a v => { a with purpose := v }] }

def execution : Reader Execution :=
  Reader.record
    { expecting := "struct ExecutionConfig", init := Execution.default,
      fields := [
        field "mode" .defaulted Reader.str fun e v => { e with mode := v },
        field "retry_count" .defaulted Reader.u32 fun e v => { e with retryCount := v }] }

def agentRun : Reader AgentRun :=
  Reader.record
    { expecting := "struct AgentTrace", init := AgentRun.declared ⟨"", "", ""⟩,
      fields := [
        field "agent_id" .required Reader.str fun a v => { a with id := v },
        field "preset" .defaulted Reader.str fun a v => { a with preset := v },
        field "purpose" .defaulted Reader.str fun a v => { a with purpose := v },
        field "status" .required agentStatus fun a v => { a with status := v },
        field "started_at" .defaulted (Reader.option instant) fun a v => { a with startedAt := v },
        field "ended_at" .defaulted (Reader.option instant) fun a v => { a with endedAt := v },
        field "steps" .defaulted (Reader.list step) fun a v => { a with steps := v },
        field "total_tokens" .defaulted Reader.u64 fun a v => { a with totalTokens := v },
        field "error" .defaulted (Reader.option Reader.str) fun a v => { a with error := v }] }

def epoch : Instant := { day := 0, second := 0, nano := 0 }

def artifact : Reader Artifact :=
  Reader.record
    { expecting := "struct TraceArtifact",
      init := { id := "", kind := "", path := "", createdBy := "", createdAt := epoch,
                sizeBytes := none },
      fields := [
        field "artifact_id" .required Reader.str fun a v => { a with id := v },
        field "artifact_type" .required Reader.str fun a v => { a with kind := v },
        field "path" .required Reader.str fun a v => { a with path := v },
        { field "created_by" .required Reader.str fun a v => { a with createdBy := v } with
          aliases := ["source_agent"] },
        field "created_at" .required instant fun a v => { a with createdAt := v },
        field "size_bytes" .defaulted (Reader.option Reader.u64) fun a v => { a with sizeBytes := v }] }

def incident : Reader Incident :=
  Reader.record
    { expecting := "struct TraceError",
      init := { stepId := "", agent := "", kind := "", message := "", time := epoch,
                recoverable := false },
      fields := [
        field "step_id" .required Reader.str fun i v => { i with stepId := v },
        field "agent_id" .required Reader.str fun i v => { i with agent := v },
        field "error_type" .required Reader.str fun i v => { i with kind := v },
        field "message" .required Reader.str fun i v => { i with message := v },
        field "timestamp" .required instant fun i v => { i with time := v },
        field "recoverable" .defaulted Reader.bool fun i v => { i with recoverable := v }] }

def summary : Reader Summary :=
  Reader.record
    { expecting := "struct TraceSummary", init := Summary.zero,
      fields := [
        field "total_agents" .required Reader.u64 fun s v => { s with totalAgents := v },
        field "completed_agents" .required Reader.u64 fun s v => { s with completedAgents := v },
        field "failed_agents" .required Reader.u64 fun s v => { s with failedAgents := v },
        field "total_llm_calls" .required Reader.u64 fun s v => { s with totalLlmCalls := v },
        field "total_tool_calls" .required Reader.u64 fun s v => { s with totalToolCalls := v },
        field "total_tokens" .required Reader.u64 fun s v => { s with totalTokens := v },
        field "total_duration_ms" .required Reader.u64 fun s v => { s with totalDurationMs := v }] }

def trace : Reader Trace :=
  Reader.record
    { expecting := "struct TraceDocument",
      init := { version := "", runId := "", projectId := "", projectName := "",
                status := .running, startedAt := epoch, endedAt := none, agentSpecs := [],
                execution := Execution.default, agents := [], artifacts := [], incidents := [],
                summary := Summary.zero, lastSeq := 0 },
      fields := [
        field "trace_version" .required Reader.str fun t v => { t with version := v },
        field "run_id" .required Reader.str fun t v => { t with runId := v },
        field "project_id" .required Reader.str fun t v => { t with projectId := v },
        field "project_name" .defaulted Reader.str fun t v => { t with projectName := v },
        field "status" .required runStatus fun t v => { t with status := v },
        field "started_at" .required instant fun t v => { t with startedAt := v },
        field "ended_at" .defaulted (Reader.option instant) fun t v => { t with endedAt := v },
        field "agents_config" .defaulted (Reader.list agentSpec) fun t v => { t with agentSpecs := v },
        field "execution_config" .defaulted execution fun t v => { t with execution := v },
        field "agents" .defaulted (Reader.list agentRun) fun t v => { t with agents := v },
        field "artifacts" .defaulted (Reader.list artifact) fun t v => { t with artifacts := v },
        field "errors" .defaulted (Reader.list incident) fun t v => { t with incidents := v },
        field "summary" .defaulted summary fun t v => { t with summary := v },
        field "last_event_seq" .defaulted Reader.u64 fun t v => { t with lastSeq := v }] }

end Read

end RunJournal
