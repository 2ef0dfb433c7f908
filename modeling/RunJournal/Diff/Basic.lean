import RunJournal.Trace.Basic
/-!
# Comparing two traces

`compare baseline target` measures a target trace against a baseline:

* changes, in this order and each only when the two sides differ: the number of `LLM` steps, their
  saturating token total, their saturating latency total (absent latency counts 0, values written
  with `ms`), the number of `TOOL` steps, the run status, and the number of incidents;
* the verdict: `IDENTICAL` without changes, `FAILED` when the incident count changed, else `CHANGED`;
* the first divergence: walking agents and then steps by position, the first place where one side
  ends, agent ids differ, or step kinds or statuses differ;
* agent differences: for each baseline agent, the first target agent of the same id differing in
  status or step count, or its absence; then target agents absent from the baseline.

A change of step counts or totals points at the flat index (over all steps of all agents) of the
first step of that kind where the two sides disagree, that is, where one side has no such step or
the steps' values differ; the index is the target's when both have a step there.
-/

namespace RunJournal

/-- What a change concerns. -/
inductive Category where
  | llm
  | tool
  | metadata
  | error
  deriving DecidableEq, Repr

namespace Category

def name : Category → String
  | .llm => "LLM"
  | .tool => "TOOL"
  | .metadata => "METADATA"
  | .error => "ERROR"

/-- Reads a category, ignoring ASCII case; `tools` and `errors` are accepted too. -/
def parse (s : String) : Except String Category :=
  match asciiLower s with
  | "llm" => .ok .llm
  | "tool" | "tools" => .ok .tool
  | "error" | "errors" => .ok .error
  | "metadata" => .ok .metadata
  | other => .error ("unknown change category: " ++ other)

end Category

/-- The overall outcome of a comparison. -/
inductive Verdict where
  | identical
  | changed
  | failed
  deriving DecidableEq, Repr

def Verdict.name : Verdict → String
  | .identical => "IDENTICAL"
  | .changed => "CHANGED"
  | .failed => "FAILED"

/-- One measured difference. -/
structure Change where
  stepIndex : Nat
  category : Category
  field : String
  baseline : String
  target : String
  deriving DecidableEq, Repr

/-- The first place where two traces part. -/
structure Divergence where
  agentIndex : Nat
  stepIndex : Nat
  agentId : String
  stepKind : String
  reason : String
  deriving DecidableEq, Repr

/-- A difference between the agents of two traces. -/
inductive AgentDiff where
  | status (agentId : String) (baseline target : AgentStatus)
  | stepCount (agentId : String) (baseline target : Nat)
  | missingInTarget (agentId : String)
  | missingInBaseline (agentId : String)
  deriving DecidableEq, Repr

/-- How many changes fall in each of three categories. -/
structure Counts where
  llm : Nat
  tool : Nat
  errors : Nat
  deriving DecidableEq, Repr

/-- A comparison of a target trace against a baseline. -/
structure Comparison where
  baselineRun : String
  targetRun : String
  verdict : Verdict
  firstDivergence : Option Divergence
  counts : Counts
  changes : List Change
  agentDiffs : List AgentDiff
  deriving DecidableEq, Repr

def Counts.ofChanges (cs : List Change) : Counts :=
  { llm := (cs.filter (·.category == .llm)).length
    tool := (cs.filter (·.category == .tool)).length
    errors := (cs.filter (·.category == .error)).length }

def Trace.stepsOfKind (t : Trace) (k : StepKind) : List (Nat × Step) :=
  (t.steps.zipIdx.filter (·.1.kind == k)).map fun (s, i) => (i, s)

/-- The first position where two step lists disagree on `key` or one ends: the flat index there,
the target's when both have a step. -/
def firstMismatch (key : Step → Nat) : List (Nat × Step) → List (Nat × Step) → Option Nat
  | (_, b) :: bs, (i, t) :: ts => if key b ≠ key t then some i else firstMismatch key bs ts
  | [], (i, _) :: _ => some i
  | (i, _) :: _, [] => some i
  | [], [] => none

/-- A step's latency, absent as zero. -/
def Step.latency (s : Step) : Nat := s.latencyMs.getD 0

def changeIf (category : Category) (field : String) (b t : Nat) (index : Option Nat)
    (show_ : Nat → String) : List Change :=
  if b = t then [] else [{ stepIndex := index.getD 0, category, field, baseline := show_ b, target := show_ t }]

def changesBetween (b t : Trace) : List Change :=
  let bl := b.stepsOfKind .llm
  let tl := t.stepsOfKind .llm
  let bt := b.stepsOfKind .tool
  let tt := t.stepsOfKind .tool
  let total := fun (key : Step → Nat) (xs : List (Nat × Step)) => satSum (xs.map fun p => key p.2)
  changeIf .llm "call_count" bl.length tl.length (firstMismatch (fun _ => 0) bl tl) toString ++
  changeIf .llm "tokens" (total Step.tokens bl) (total Step.tokens tl) (firstMismatch Step.tokens bl tl)
    toString ++
  changeIf .llm "latency" (total Step.latency bl) (total Step.latency tl)
    (firstMismatch Step.latency bl tl) (fun v => toString v ++ "ms") ++
  changeIf .tool "call_count" bt.length tt.length (firstMismatch (fun _ => 0) bt tt) toString ++
  (if b.status = t.status then []
   else [{ stepIndex := 0, category := .metadata, field := "status", baseline := b.status.name,
           target := t.status.name }]) ++
  changeIf .error "error_count" b.incidents.length t.incidents.length none toString

def stepsDivergence (ai : Nat) (id : String) : Nat → List Step → List Step → Option Divergence
  | si, b :: bs, t :: ts =>
    if b.kind ≠ t.kind then
      some ⟨ai, si, id, t.kind.name, "step type differs: " ++ b.kind.name ++ " vs " ++ t.kind.name⟩
    else if b.status ≠ t.status then
      some ⟨ai, si, id, t.kind.name, "step status differs: " ++ b.status.name ++ " vs " ++ t.status.name⟩
    else stepsDivergence ai id (si + 1) bs ts
  | si, [], t :: _ => some ⟨ai, si, id, t.kind.name, "trace ended"⟩
  | si, b :: _, [] => some ⟨ai, si, id, b.kind.name, "trace ended"⟩
  | _, [], [] => none

/-- The kind of an agent's first step, `UNKNOWN` without steps. -/
def AgentRun.firstKind (a : AgentRun) : String :=
  match a.steps with
  | s :: _ => s.kind.name
  | [] => "UNKNOWN"

def agentsDivergence : Nat → List AgentRun → List AgentRun → Option Divergence
  | ai, b :: bs, t :: ts =>
    if b.id ≠ t.id then some ⟨ai, 0, t.id, "UNKNOWN", "agent differs: " ++ b.id ++ " vs " ++ t.id⟩
    else
      match stepsDivergence ai b.id 0 b.steps t.steps with
      | some d => some d
      | none => agentsDivergence (ai + 1) bs ts
  | ai, [], t :: _ => some ⟨ai, 0, t.id, t.firstKind, "trace ended"⟩
  | ai, b :: _, [] => some ⟨ai, 0, b.id, b.firstKind, "trace ended"⟩
  | _, [], [] => none

def firstDivergence (b t : Trace) : Option Divergence := agentsDivergence 0 b.agents t.agents

def agentDiffs (b t : Trace) : List AgentDiff :=
  let fromBaseline := b.agents.flatMap fun ba =>
    match t.agents.find? (·.id == ba.id) with
    | some ta =>
      (if ba.status ≠ ta.status then [AgentDiff.status ba.id ba.status ta.status] else []) ++
      (if ba.steps.length ≠ ta.steps.length then
        [AgentDiff.stepCount ba.id ba.steps.length ta.steps.length] else [])
    | none => [AgentDiff.missingInTarget ba.id]
  let fromTarget := t.agents.filterMap fun ta =>
    if b.agents.any (·.id == ta.id) then none else some (AgentDiff.missingInBaseline ta.id)
  fromBaseline ++ fromTarget

/-- Compares a target trace against a baseline. -/
def compare (b t : Trace) : Comparison :=
  let changes := changesBetween b t
  { baselineRun := b.runId
    targetRun := t.runId
    verdict :=
      if changes.isEmpty then .identical
      else if changes.any (·.category == .error) then .failed else .changed
    firstDivergence := firstDivergence b t
    counts := Counts.ofChanges changes
    changes
    agentDiffs := agentDiffs b t }

namespace Comparison

/-- Keeps the changes of one category, recounting them; verdict and divergence stay. -/
def only (c : Comparison) (category : Category) : Comparison :=
  let changes := c.changes.filter (·.category == category)
  { c with changes, counts := Counts.ofChanges changes }

def isIdentical (c : Comparison) : Bool := c.verdict == .identical

end Comparison

end RunJournal
