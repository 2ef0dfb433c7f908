import RunJournal.Trace.Event
import RunJournal.Store.Error
/-!
# Applying events

`Trace.apply` is the one transition of a trace: it checks an event against the trace and either
refuses it with a `StoreError` or returns the changed trace with its summary recomputed. A log line
always passes and changes nothing; a finished run refuses everything else. Then, by kind:

* `agent_started` needs the event's agent, declared and pending;
* `agent_completed` needs a terminal status (checked first), then the event's agent, declared and
  running;
* `step_added` needs the step's own agent declared and not finished, the event's agent (if any)
  to be that agent, a new step id, and a time not before the agent's last step (when both have one);
* artifacts and incidents are recorded as given; each incident counts one retry;
* `run_completed` needs a terminal status; `run_started` is refused.

Where several agents share an id, the first one is the one checked and changed.

`rebuild` replays a log that starts with `run_started`, skipping refused events; `catchUp` applies
only events beyond the trace's sequence watermark, which moves with every event it looks at.
-/

namespace RunJournal

namespace Trace

def updateAgent (f : AgentRun → AgentRun) (id : String) : List AgentRun → List AgentRun
  | [] => []
  | a :: rest => if a.id = id then f a :: rest else a :: updateAgent f id rest

def agent? (t : Trace) (id : String) : Option AgentRun := t.agents.find? (·.id == id)

def findAgent (t : Trace) (id : String) : Except StoreError AgentRun :=
  match t.agent? id with
  | some a => .ok a
  | none => .error (.agentNotFound t.runId id)

def eventAgent (t : Trace) (e : Event) : Except StoreError String :=
  match e.agentId with
  | some id => .ok id
  | none => .error (.agentNotFound t.runId "")

def startAgent (t : Trace) (e : Event) : Except StoreError Trace := do
  let id ← t.eventAgent e
  let a ← t.findAgent id
  match a.status with
  | .pending =>
    let started := fun (a : AgentRun) => { a with status := .running, startedAt := some e.time }
    pure { t with agents := updateAgent started id t.agents }
  | .running => throw (.agentAlreadyStarted id)
  | s => throw (.agentAlreadyCompleted id s)

def completeAgent (t : Trace) (e : Event) (status : AgentStatus) (error : Option String) :
    Except StoreError Trace := do
  if !status.isTerminal then throw (.invalidStatus ("agent cannot complete as " ++ status.name))
  let id ← t.eventAgent e
  let a ← t.findAgent id
  match a.status with
  | .running =>
    let finished := fun (a : AgentRun) =>
      { a with status, endedAt := some e.time, error := if error.isSome then error else a.error }
    pure { t with agents := updateAgent finished id t.agents }
  | .pending => throw (.agentNotStarted id)
  | s => throw (.agentAlreadyCompleted id s)

/-- Whether a step's time comes before the last step of an agent (both known). -/
def before (a : AgentRun) (s : Step) : Bool :=
  match a.steps.getLast?.bind Step.timestamp, s.timestamp with
  | some last, some this => decide (this < last)
  | _, _ => false

def addStep (t : Trace) (e : Event) (s : Step) : Except StoreError Trace := do
  let a ← t.findAgent s.agent
  if a.status.isTerminal then throw (.agentAlreadyCompleted a.id a.status)
  match e.agentId with
  | some target => if target ≠ s.agent then throw (.agentMismatch target s.id s.agent)
  | none => pure ()
  if a.steps.any (·.id == s.id) then throw (.duplicateStep a.id s.id)
  if before a s then throw (.stepOutOfOrder a.id s.id)
  let grown := fun (a : AgentRun) =>
    { a with totalTokens := satAdd a.totalTokens s.tokens, steps := a.steps ++ [s] }
  pure { t with agents := updateAgent grown s.agent t.agents }

def apply (t : Trace) (e : Event) : Except StoreError Trace :=
  if e.kind.isLog then .ok t
  else if t.status.isTerminal then .error (.runAlreadyCompleted t.runId t.status)
  else
    let changed : Except StoreError Trace :=
      match e.kind with
      | .runStarted .. => .error (.runAlreadyExists t.projectId t.runId)
      | .agentStarted => t.startAgent e
      | .agentCompleted status error => t.completeAgent e status error
      | .stepAdded s => t.addStep e s
      | .artifactAdded x => .ok { t with artifacts := t.artifacts ++ [x] }
      | .incidentAdded i =>
        .ok { t with incidents := t.incidents ++ [i],
                     execution := { t.execution with retryCount := halfWordSucc t.execution.retryCount } }
      | .runCompleted status =>
        if status.isTerminal then .ok { t with status, endedAt := some e.time }
        else .error (.invalidStatus ("run cannot complete as " ++ status.name))
      | .log .. => .ok t
    changed.map refresh

/-- Applies a logged event if the trace accepts it, and raises the watermark to its sequence
number either way; tells whether the trace changed. -/
def applyLogged (t : Trace) (e : Event) : Trace × Bool :=
  let (t', changed) := match t.apply e with
    | .ok t' => (t', !e.kind.isLog)
    | .error _ => (t, false)
  ({ t' with lastSeq := max t'.lastSeq e.seq }, changed)

def rebuild : List Event → Option Trace
  | [] => none
  | first :: rest =>
    match first.kind with
    | .runStarted name specs exec =>
      let t := { Trace.new first.runId (first.projectId.getD "") name specs exec first.time with
        lastSeq := first.seq }
      some (rest.foldl (fun t e => (t.applyLogged e).1) t)
    | _ => none

/-- One step of catching up: an event beyond the watermark is applied, counted when it changed the
trace. -/
def catchUpStep (acc : Trace × Nat) (e : Event) : Trace × Nat :=
  if acc.1.lastSeq < e.seq then
    let (t', changed) := acc.1.applyLogged e
    (t', if changed then acc.2 + 1 else acc.2)
  else acc

/-- Applies the events beyond the watermark; returns the trace and how many events changed it. -/
def catchUp (t : Trace) (events : List Event) : Trace × Nat :=
  events.foldl catchUpStep (t, 0)

end Trace

end RunJournal
