/-!
# Statuses

The state of a run (`RunStatus`), of one agent (`AgentStatus`) and of one step (`StepStatus`),
and the kind of a step (`StepKind`). Each has one upper-case name, used in files and messages.

Reading a status from a command line or a request (`RunStatus.parse`, `AgentStatus.parse`) ignores
ASCII case and nothing else: no blank is trimmed, and other letters are kept as they are, also in
the refusal, which quotes the text upper-cased. A run also accepts the spelling `CANCELED`.
-/

namespace RunJournal

def asciiUpper (s : String) : String := s.map Char.toUpper

def asciiLower (s : String) : String := s.map Char.toLower

/-- Where a run stands. Only `running` is not terminal. -/
inductive RunStatus where
  | running
  | completed
  | failed
  | cancelled
  deriving DecidableEq, Repr, Inhabited

namespace RunStatus

def all : List RunStatus := [.running, .completed, .failed, .cancelled]

def name : RunStatus → String
  | .running => "RUNNING"
  | .completed => "COMPLETED"
  | .failed => "FAILED"
  | .cancelled => "CANCELLED"

def isTerminal : RunStatus → Bool
  | .running => false
  | _ => true

def parse (s : String) : Except String RunStatus :=
  match asciiUpper s with
  | "RUNNING" => .ok .running
  | "COMPLETED" => .ok .completed
  | "FAILED" => .ok .failed
  | "CANCELLED" | "CANCELED" => .ok .cancelled
  | other => .error ("unknown run status: " ++ other)

end RunStatus

/-- Where an agent stands: declared agents start `pending`; `completed` and `failed` are
terminal. -/
inductive AgentStatus where
  | pending
  | running
  | completed
  | failed
  deriving DecidableEq, Repr, Inhabited

namespace AgentStatus

def all : List AgentStatus := [.pending, .running, .completed, .failed]

def name : AgentStatus → String
  | .pending => "PENDING"
  | .running => "RUNNING"
  | .completed => "COMPLETED"
  | .failed => "FAILED"

def isTerminal : AgentStatus → Bool
  | .completed | .failed => true
  | _ => false

def parse (s : String) : Except String AgentStatus :=
  match asciiUpper s with
  | "PENDING" => .ok .pending
  | "RUNNING" => .ok .running
  | "COMPLETED" => .ok .completed
  | "FAILED" => .ok .failed
  | other => .error ("unknown agent status: " ++ other)

end AgentStatus

/-- The outcome of one step. -/
inductive StepStatus where
  | ok
  | error
  deriving DecidableEq, Repr, Inhabited

namespace StepStatus

def all : List StepStatus := [.ok, .error]

def name : StepStatus → String
  | .ok => "OK"
  | .error => "ERROR"

end StepStatus

/-- What a step did: took input, called a model, ran a tool, or produced output. -/
inductive StepKind where
  | input
  | llm
  | tool
  | output
  deriving DecidableEq, Repr, Inhabited

namespace StepKind

def all : List StepKind := [.input, .llm, .tool, .output]

def name : StepKind → String
  | .input => "INPUT"
  | .llm => "LLM"
  | .tool => "TOOL"
  | .output => "OUTPUT"

end StepKind

end RunJournal
