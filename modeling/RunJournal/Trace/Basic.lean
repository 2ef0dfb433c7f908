import RunJournal.Trace.Step
/-!
# Traces

The trace of one run: what was declared (agents and execution settings), what each agent did
(`AgentRun`, with its steps), the artifacts and incidents recorded, and a summary of counters. The
summary is always recomputed from the rest (`Trace.summarize`); it is stored with the trace so that
readers need not recompute it.
-/

namespace RunJournal

/-- An agent declared for a run. -/
structure AgentSpec where
  id : String
  preset : String
  purpose : String
  deriving DecidableEq, Repr, Inhabited

/-- How a run executes: its mode and how many incidents it has retried. -/
structure Execution where
  mode : String
  retryCount : Nat
  deriving DecidableEq, Repr

def Execution.default : Execution := { mode := "sequential", retryCount := 0 }

instance : Inhabited Execution := ⟨Execution.default⟩

/-- What one agent did in a run. -/
structure AgentRun where
  id : String
  preset : String
  purpose : String
  status : AgentStatus
  startedAt : Option Instant
  endedAt : Option Instant
  steps : List Step
  totalTokens : Nat
  error : Option String
  deriving DecidableEq, Repr, Inhabited

def AgentRun.declared (spec : AgentSpec) : AgentRun :=
  { id := spec.id, preset := spec.preset, purpose := spec.purpose, status := .pending,
    startedAt := none, endedAt := none, steps := [], totalTokens := 0, error := none }

/-- A file or value a run produced. -/
structure Artifact where
  id : String
  kind : String
  path : String
  createdBy : String
  createdAt : Instant
  sizeBytes : Option Nat
  deriving DecidableEq, Repr, Inhabited

/-- An error recorded against a step of an agent. -/
structure Incident where
  stepId : String
  agent : String
  kind : String
  message : String
  time : Instant
  recoverable : Bool
  deriving DecidableEq, Repr, Inhabited

/-- The counters of a trace. -/
structure Summary where
  totalAgents : Nat
  completedAgents : Nat
  failedAgents : Nat
  totalLlmCalls : Nat
  totalToolCalls : Nat
  totalTokens : Nat
  totalDurationMs : Nat
  deriving DecidableEq, Repr

def Summary.zero : Summary := ⟨0, 0, 0, 0, 0, 0, 0⟩

instance : Inhabited Summary := ⟨Summary.zero⟩

def traceVersion : String := "1.0"

/-- The trace of one run. -/
structure Trace where
  version : String
  runId : String
  projectId : String
  projectName : String
  status : RunStatus
  startedAt : Instant
  endedAt : Option Instant
  agentSpecs : List AgentSpec
  execution : Execution
  agents : List AgentRun
  artifacts : List Artifact
  incidents : List Incident
  summary : Summary
  /-- The sequence number of the last logged event the trace reflects; zero when unknown. -/
  lastSeq : Nat
  deriving DecidableEq, Repr, Inhabited

namespace Trace

def steps (t : Trace) : List Step := t.agents.flatMap (·.steps)

/-- The counters computed from the trace: agents by status, steps by kind, saturating token total
of the `LLM` steps, and the run's span once it has ended. -/
def summarize (t : Trace) : Summary :=
  let steps := t.steps
  { totalAgents := t.agents.length
    completedAgents := (t.agents.filter (·.status == .completed)).length
    failedAgents := (t.agents.filter (·.status == .failed)).length
    totalLlmCalls := (steps.filter (·.kind == .llm)).length
    totalToolCalls := (steps.filter (·.kind == .tool)).length
    totalTokens := satSum ((steps.filter (·.kind == .llm)).map Step.tokens)
    totalDurationMs :=
      match t.endedAt with
      | some e => Instant.millisBetween t.startedAt e
      | none => 0 }

def refresh (t : Trace) : Trace := { t with summary := t.summarize }

/-- A new `RUNNING` trace with one pending agent per declaration, duplicates kept. -/
def new (runId projectId projectName : String) (specs : List AgentSpec) (execution : Execution)
    (startedAt : Instant) : Trace :=
  refresh
    { version := traceVersion, runId, projectId, projectName, status := .running, startedAt,
      endedAt := none, agentSpecs := specs, execution, agents := specs.map AgentRun.declared,
      artifacts := [], incidents := [], summary := Summary.zero, lastSeq := 0 }

end Trace

end RunJournal
