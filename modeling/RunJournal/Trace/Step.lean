import RunJournal.Trace.Status
import RunJournal.Time.Instant
import RunJournal.Number.Word
/-!
# Steps

One recorded step of an agent: its identity, its outcome, its optional times and latency, and a
detail that depends on its kind. Builders give each kind its conventional id (`<agent>.input`,
`<agent>.llm_NN` with the sequence number at least two digits, `<agent>.tool_<name>`,
`<agent>.output`) and start every step `OK` without times.
-/

namespace RunJournal

/-- What a step holds besides its identity, by kind. -/
inductive StepDetail where
  | input (context : Option (List String)) (previousResults : Option (List String))
  | llm (provider model : String) (tokensIn tokensOut : Nat)
      (inputSummary outputSummary : Option String)
  | tool (toolName : String) (inputSummary outputSummary : Option String)
  | output (outputKeys artifactIds : Option (List String))
  deriving DecidableEq, Repr, Inhabited

/-- One step of an agent. -/
structure Step where
  id : String
  agent : String
  status : StepStatus
  startedAt : Option Instant
  endedAt : Option Instant
  latencyMs : Option Nat
  error : Option String
  detail : StepDetail
  deriving DecidableEq, Repr, Inhabited

namespace Step

def bare (id agent : String) (detail : StepDetail) : Step :=
  { id, agent, status := .ok, startedAt := none, endedAt := none, latencyMs := none,
    error := none, detail }

def input (agent : String) (context previousResults : Option (List String)) : Step :=
  bare (agent ++ ".input") agent (.input context previousResults)

def twoDigits (n : Nat) : String :=
  if n < 10 then "0" ++ toString n else toString n

def llm (agent : String) (sequence : Nat) (provider model : String) (tokensIn tokensOut : Nat) :
    Step :=
  bare (agent ++ ".llm_" ++ twoDigits sequence) agent (.llm provider model tokensIn tokensOut none none)

def tool (agent toolName : String) : Step :=
  bare (agent ++ ".tool_" ++ toolName) agent (.tool toolName none none)

def output (agent : String) (outputKeys artifactIds : Option (List String)) : Step :=
  bare (agent ++ ".output") agent (.output outputKeys artifactIds)

def withTiming (s : Step) (start stop : Instant) : Step :=
  { s with startedAt := some start, endedAt := some stop,
           latencyMs := some (Instant.millisBetween start stop) }

def withLatency (s : Step) (ms : Nat) : Step := { s with latencyMs := some ms }

def withSummaries (s : Step) (inSummary outSummary : Option String) : Step :=
  match s.detail with
  | .llm p m ti tout _ _ => { s with detail := .llm p m ti tout inSummary outSummary }
  | .tool n _ _ => { s with detail := .tool n inSummary outSummary }
  | _ => s

def failed (s : Step) (message : String) : Step :=
  { s with status := .error, error := some message }

def kind (s : Step) : StepKind :=
  match s.detail with
  | .input .. => .input
  | .llm .. => .llm
  | .tool .. => .tool
  | .output .. => .output

/-- Prompt plus completion tokens of an `LLM` step, saturating; zero for other kinds. -/
def tokens (s : Step) : Nat :=
  match s.detail with
  | .llm _ _ ti tout _ _ => satAdd ti tout
  | _ => 0

def timestamp (s : Step) : Option Instant :=
  match s.startedAt with
  | some t => some t
  | none => s.endedAt

end Step

end RunJournal
