import RunJournal.Replay.Timeline
import Mathlib
/-!
# The layout of a replay timeline

A timeline is read off the trace alone, and `replay_layout` says how: entry by entry it shows a
source (`timelineSources`): the start of the run; for each agent in order, its model and tool calls
in order (input and output steps leave no entry), then, when the agent failed, each incident
recorded against its id, in order; the end of the run. What an entry shows of its source is
`EntrySource.Shows`: a call's kind, latency (zero when absent) and token total, an incident's kind and
message, the run's status at the end.

From the layout follow the counts: the entries are numbered `0, 1, …` in order, there are two more
than the trace has calls and incidents of failed agents, and the timeline counts as many model and
tool calls as the trace's own summary does.
-/

namespace RunJournal

/-- A step a timeline shows: a model or a tool call. -/
def Step.isCall (s : Step) : Bool := s.kind == .llm || s.kind == .tool

/-- What an entry of a timeline stands for. -/
inductive EntrySource where
  | start
  | call (agent : AgentRun) (step : Step)
  | incident (agent : AgentRun) (incident : Incident)
  | finish

/-- The sources one agent contributes: its calls in order, then, when it failed, the incidents
recorded against its id, in order. -/
def agentSources (t : Trace) (a : AgentRun) : List EntrySource :=
  (a.steps.filter Step.isCall).map (.call a) ++
    if a.status = .failed then (t.incidents.filter (·.agent == a.id)).map (.incident a) else []

/-- The sources of a trace's timeline in order: the start, each agent's sources, the end. -/
def timelineSources (t : Trace) : List EntrySource :=
  .start :: t.agents.flatMap (agentSources t) ++ [.finish]

def EntrySource.kindName : EntrySource → String
  | .start | .finish => "SYSTEM"
  | .call _ s => s.kind.name
  | .incident .. => "ERROR"

/-- The token total an entry reports: for a model call the saturating sum of its counts, as the
text and JSON reports print it; zero otherwise. -/
def EntryDetail.tokenTotal : EntryDetail → Nat
  | .llm _ _ _ tokensIn tokensOut _ => satAdd tokensIn tokensOut
  | _ => 0

/-- The agent an entry belongs to; none for the run's own entries. -/
def EntryDetail.agent? : EntryDetail → Option String
  | .system => none
  | .llm agent .. | .tool agent .. | .error agent .. => some agent

/-- What an entry, without its number, shows of its source: the start and the end of the run as
system entries, the end naming the run's status; a call of an agent by its kind, its latency (zero
when absent) and its token total; an incident of an agent by its kind and message. -/
def EntrySource.Shows (status : RunStatus) : EntrySource → String × Nat × EntryDetail → Prop
  | .start, (label, duration, detail) => label = "Start Run" ∧ duration = 0 ∧ detail = .system
  | .call a s, (_, duration, detail) =>
    detail.kindName = s.kind.name ∧ detail.agent? = some a.id ∧
      duration = s.latencyMs.getD 0 ∧ detail.tokenTotal = s.tokens
  | .incident a e, (label, duration, detail) =>
    label = a.id ++ " error" ∧ duration = 0 ∧ detail = .error a.id e.kind e.message
  | .finish, (label, duration, detail) =>
    label = "End Run (" ++ status.name ++ ")" ∧ duration = 0 ∧ detail = .system

def TimelineEntry.body (e : TimelineEntry) : String × Nat × EntryDetail :=
  (e.label, e.durationMs, e.detail)

/-! ## Entries and their sources -/

section Sources

variable {status : RunStatus} {src : EntrySource} {r : String × Nat × EntryDetail}

theorem EntrySource.Shows.kindName (h : src.Shows status r) : r.2.2.kindName = src.kindName := by
  obtain ⟨label, duration, detail⟩ := r
  cases src with
  | call a s => exact h.1
  | start | finish =>
    obtain ⟨-, -, rfl⟩ := h
    rfl
  | incident a e =>
    obtain ⟨-, -, rfl⟩ := h
    rfl

theorem EntrySource.Shows.kindNames {srcs : List EntrySource} {rs : List (String × Nat × EntryDetail)}
    (h : List.Forall₂ (EntrySource.Shows status) srcs rs) :
    rs.map (·.2.2.kindName) = srcs.map EntrySource.kindName := by
  induction h with
  | nil => rfl
  | cons h _ ih => rw [List.map_cons, List.map_cons, h.kindName, ih]

/-- The calls of a step list, each with its entry, in order; other steps give no entry. -/
theorem calls_shows (a : AgentRun) (ss : List Step) :
    List.Forall₂ (EntrySource.Shows status) ((ss.filter Step.isCall).map (.call a))
      (ss.filterMap (stepEntry a.id)) := by
  induction ss with
  | nil => exact .nil
  | cons s ss ih =>
    rw [List.filter_cons, List.filterMap_cons]
    cases hd : s.detail with
    | input context previous =>
      have hkind : s.kind = .input := by simp [Step.kind, hd]
      simpa [Step.isCall, hkind, stepEntry, hd] using ih
    | output keys artifacts =>
      have hkind : s.kind = .output := by simp [Step.kind, hd]
      simpa [Step.isCall, hkind, stepEntry, hd] using ih
    | llm provider model tokensIn tokensOut inSummary outSummary =>
      have hkind : s.kind = .llm := by simp [Step.kind, hd]
      simp only [Step.isCall, hkind, beq_self_eq_true, Bool.true_or, if_true, List.map_cons,
        stepEntry, hd]
      exact .cons ⟨by rw [hkind]; rfl, rfl, rfl, by simp [EntryDetail.tokenTotal, Step.tokens, hd]⟩ ih
    | tool toolName inSummary outSummary =>
      have hkind : s.kind = .tool := by simp [Step.kind, hd]
      simp only [Step.isCall, hkind, beq_self_eq_true, Bool.or_true, if_true, List.map_cons,
        stepEntry, hd]
      exact .cons ⟨by rw [hkind]; rfl, rfl, rfl, by simp [EntryDetail.tokenTotal, Step.tokens, hd]⟩ ih

theorem agentEntries_shows (t : Trace) (a : AgentRun) :
    List.Forall₂ (EntrySource.Shows t.status) (agentSources t a) (agentEntries t a) := by
  refine List.rel_append (calls_shows a a.steps) ?_
  split
  · rw [List.forall₂_map_left_iff, List.forall₂_map_right_iff]
    exact List.forall₂_same.2 fun e _ => ⟨rfl, rfl, rfl⟩
  · exact .nil

theorem replay_bodies (t : Trace) :
    (replay t).entries.map TimelineEntry.body =
      ("Start Run", 0, .system) :: t.agents.flatMap (agentEntries t) ++
        [("End Run (" ++ t.status.name ++ ")", 0, .system)] := by
  simp only [replay, List.map_map]
  exact List.zipIdx_map_fst 0 _

theorem timeline_shows (t : Trace) :
    List.Forall₂ (EntrySource.Shows t.status) (timelineSources t)
      ((replay t).entries.map TimelineEntry.body) := by
  rw [replay_bodies, timelineSources]
  refine .cons ⟨rfl, rfl, rfl⟩ (List.rel_append ?_ (.cons ⟨rfl, rfl, rfl⟩ .nil))
  induction t.agents with
  | nil => exact .nil
  | cons a as ih => exact List.rel_append (agentEntries_shows t a) ih

end Sources

/-! ## Counting entries -/

section Counting

variable (t : Trace)

/-- The incidents of failed agents, each counted against every failed agent of its id. -/
def failedIncidents (t : Trace) : Nat :=
  ((t.agents.filter (·.status == .failed)).map fun a => (t.incidents.filter (·.agent == a.id)).length).sum

theorem length_filter_isCall (ss : List Step) :
    (ss.filter Step.isCall).length =
      (ss.filter (·.kind == .llm)).length + (ss.filter (·.kind == .tool)).length := by
  induction ss with
  | nil => rfl
  | cons s ss ih =>
    obtain ⟨id, agent, status, startedAt, endedAt, latency, error, detail⟩ := s
    cases detail <;> simp [Step.isCall, Step.kind, ih] <;> omega

theorem length_agentSources (a : AgentRun) :
    (agentSources t a).length =
      (a.steps.filter (·.kind == .llm)).length + (a.steps.filter (·.kind == .tool)).length +
        if a.status = .failed then (t.incidents.filter (·.agent == a.id)).length else 0 := by
  rw [agentSources, List.length_append, List.length_map, length_filter_isCall]
  split <;> simp

theorem length_timelineSources :
    (timelineSources t).length =
      2 + (t.steps.filter (·.kind == .llm)).length + (t.steps.filter (·.kind == .tool)).length +
        failedIncidents t := by
  rw [timelineSources, failedIncidents, Trace.steps]
  simp only [List.length_cons, List.length_append]
  induction t.agents with
  | nil => rfl
  | cons a as ih =>
    simp only [List.flatMap_cons, List.length_append, List.filter_append, length_agentSources,
      List.filter_cons]
    split <;> simp_all <;> omega

/-- A call kind's entries are the trace's steps of that kind, agent by agent. -/
theorem length_filter_agentSources {k : StepKind} (hk : k = .llm ∨ k = .tool) (a : AgentRun) :
    ((agentSources t a).filter (·.kindName == k.name)).length = (a.steps.filter (·.kind == k)).length := by
  have hcall : ∀ s : Step, (s.kind.name == k.name && s.isCall) = (s.kind == k) := by
    intro s
    rcases hk with rfl | rfl <;> cases hs : s.kind <;> simp [Step.isCall, hs] <;> decide
  have hincident : ∀ e : Incident, (EntrySource.incident a e).kindName ≠ k.name := by
    intro e
    show "ERROR" ≠ k.name
    rcases hk with rfl | rfl <;> decide
  rw [agentSources, List.filter_append, List.length_append, List.filter_map, List.length_map,
    List.filter_filter]
  have hnone : ((if a.status = .failed then
      (t.incidents.filter (·.agent == a.id)).map (EntrySource.incident a) else []).filter
      (·.kindName == k.name)).length = 0 := by
    split
    · rw [List.filter_map, List.length_map, List.length_eq_zero_iff, List.filter_eq_nil_iff]
      intro e _
      simpa [Function.comp_def] using hincident e
    · rfl
  rw [hnone, Nat.add_zero]
  exact congrArg List.length (List.filter_congr fun s _ => hcall s)

theorem length_filter_timelineSources {k : StepKind} (hk : k = .llm ∨ k = .tool) :
    ((timelineSources t).filter (·.kindName == k.name)).length = (t.steps.filter (·.kind == k)).length := by
  have hsystem : ("SYSTEM" == k.name) = false := by rcases hk with rfl | rfl <;> rfl
  rw [timelineSources, Trace.steps, List.filter_append, List.filter_cons, List.filter_flatMap,
    List.filter_flatMap]
  simp only [EntrySource.kindName, hsystem, Bool.false_eq_true, if_false, List.filter_cons,
    List.filter_nil, List.append_nil, List.length_flatMap]
  exact congrArg List.sum (List.map_congr_left fun a _ => length_filter_agentSources t hk a)

/-- The timeline counts its entries of one kind as their sources have that kind. -/
theorem countKind_replay (k : String) :
    countKind (replay t).entries k = ((timelineSources t).filter (·.kindName == k)).length := by
  have hkinds := EntrySource.Shows.kindNames (timeline_shows t)
  rw [List.map_map] at hkinds
  rw [countKind, ← List.countP_eq_length_filter, ← List.countP_eq_length_filter]
  have hcount := congrArg (List.countP (· == k)) hkinds
  simp only [List.countP_map] at hcount
  exact hcount

end Counting

/-- The replay timeline of any trace lays out, entry by entry, the start of the run; for each agent
in order its model and tool calls in order, each with the call's kind, latency (zero when absent)
and token total, followed, when the agent failed, by one error entry per incident recorded against
its id, in order; and the end of the run with its status. Entry `i` is numbered `i`, there are two
entries more than calls and incidents of failed agents, and the summary counts every entry, and as
many model and tool calls as the trace's own summary. -/
theorem replay_layout (t : Trace) :
    List.Forall₂ (EntrySource.Shows t.status) (timelineSources t)
        ((replay t).entries.map TimelineEntry.body) ∧
      (∀ i (h : i < (replay t).entries.length), (replay t).entries[i].index = i) ∧
      (replay t).entries.length =
        2 + (t.steps.filter (·.kind == .llm)).length + (t.steps.filter (·.kind == .tool)).length +
          failedIncidents t ∧
      (replay t).summary.totalSteps = (replay t).entries.length ∧
      (replay t).summary.llmSteps = t.summarize.totalLlmCalls ∧
      (replay t).summary.toolSteps = t.summarize.totalToolCalls := by
  have hshows := timeline_shows t
  refine ⟨hshows, fun i h => ?_, ?_, rfl, ?_, ?_⟩
  · simp only [replay, List.getElem_map, List.getElem_zipIdx, Nat.zero_add]
  · rw [← List.length_map TimelineEntry.body, ← hshows.length_eq, length_timelineSources]
  · show countKind (replay t).entries StepKind.llm.name = _
    rw [countKind_replay, length_filter_timelineSources t (.inl rfl)]
    rfl
  · show countKind (replay t).entries StepKind.tool.name = _
    rw [countKind_replay, length_filter_timelineSources t (.inr rfl)]
    rfl

end RunJournal
