import Mathlib
import RunJournal.Proofs.Lifecycle
/-!
# Counters agree with what they count

A trace carries two kinds of counters. Each agent keeps its own token total, raised by every step
it accepts (`AgentRun.grown`); the summary is recomputed from the whole trace after every accepted
event (`Trace.refresh`). Both saturate at the largest 64-bit word, and they are summed in different
orders: an agent's total over its steps as they come, the summary's over all `LLM` steps of all
agents at once. They agree because a saturating sum is the true sum capped (`satSum_eq_min`), so
summing capped sums caps the flat sum (`satSum_flatten`).

`Trace.Counted` says the summary is the one computed from the trace and every agent's total is the
capped sum over its steps. It holds of a declared trace and is kept by every accepted event and
every replayed one, so every reachable trace is counted (`Reachable.counted`).
-/

namespace RunJournal

/-! ## Saturating sums -/

theorem satAdd_le (a b : Nat) : satAdd a b ≤ wordMax := Nat.min_le_right _ _

theorem foldl_satAdd {xs : List Nat} {a : Nat} (ha : a ≤ wordMax) :
    xs.foldl satAdd a = min (a + xs.sum) wordMax := by
  induction xs generalizing a with
  | nil => rw [List.foldl_nil, List.sum_nil, Nat.add_zero, Nat.min_eq_left ha]
  | cons x xs ih =>
    rw [List.foldl_cons, ih (satAdd_le a x), List.sum_cons, satAdd]
    omega

theorem satSum_eq_min (xs : List Nat) : satSum xs = min xs.sum wordMax := by
  rw [satSum, foldl_satAdd (Nat.zero_le _), Nat.zero_add]

theorem satSum_append_single (xs : List Nat) (x : Nat) :
    satSum (xs ++ [x]) = satAdd (satSum xs) x := by
  rw [satSum, List.foldl_append]
  rfl

theorem satSum_flatten (xss : List (List Nat)) : satSum xss.flatten = satSum (xss.map satSum) := by
  induction xss with
  | nil => rfl
  | cons xs xss ih =>
    rw [satSum_eq_min, satSum_eq_min] at ih ⊢
    simp only [List.flatten_cons, List.sum_append, List.map_cons, List.sum_cons, satSum_eq_min]
    omega

/-! ## Token totals of steps -/

theorem Step.tokens_of_ne_llm {s : Step} (h : s.kind ≠ .llm) : s.tokens = 0 := by
  unfold Step.kind at h
  unfold Step.tokens
  split <;> simp_all

/-- Leaving out the steps that are not `LLM` steps leaves a token total as it is: they carry
none. -/
theorem satSum_tokens_filter_llm (ss : List Step) :
    satSum ((ss.filter (·.kind == .llm)).map Step.tokens) = satSum (ss.map Step.tokens) := by
  rw [satSum_eq_min, satSum_eq_min]
  congr 1
  induction ss with
  | nil => rfl
  | cons s ss ih =>
    by_cases hs : s.kind = .llm
    · simp [hs, ih]
    · simp [hs, ih, Step.tokens_of_ne_llm hs]

/-! ## Counted traces -/

namespace Trace

variable {t t' u : Trace} {e : Event} {time : Instant} {specs : List AgentSpec} {exec : Execution}

/-- The summary is the one computed from the trace, and every agent's token total is the capped
sum over its steps. -/
structure Counted (t : Trace) : Prop where
  summary_eq : t.summary = t.summarize
  tokens_eq : ∀ a ∈ t.agents, a.totalTokens = satSum (a.steps.map Step.tokens)

theorem counted_new (runId projectId name : String) (time : Instant) :
    (Trace.new runId projectId name specs exec time).Counted := by
  refine ⟨rfl, fun a ha => ?_⟩
  simp only [Trace.new, refresh, List.mem_map] at ha
  obtain ⟨s, -, rfl⟩ := ha
  rfl

theorem counted_refresh
    (htokens : ∀ a ∈ t.agents, a.totalTokens = satSum (a.steps.map Step.tokens)) :
    t.refresh.Counted :=
  ⟨rfl, htokens⟩

theorem Counted.stamp (h : t.Counted) (n : Nat) : ({ t with lastSeq := n } : Trace).Counted :=
  ⟨h.summary_eq, h.tokens_eq⟩

/-- A move keeps every agent's token total the capped sum over its steps: a new step raises the
total by its tokens, saturating, and every other move leaves steps and totals alone. -/
theorem tokens_move (h : ∀ a ∈ t.agents, a.totalTokens = satSum (a.steps.map Step.tokens))
    (hm : t.Move time u) : ∀ a ∈ u.agents, a.totalTokens = satSum (a.steps.map Step.tokens) := by
  cases hm with
  | @start id a ha _ =>
    intro b hb
    rcases mem_updateAgent ha hb with hb | rfl
    · exact h b hb
    · exact h a (agent?_mem ha).1
  | @finish id a status error ha _ _ =>
    intro b hb
    rcases mem_updateAgent ha hb with hb | rfl
    · exact h b hb
    · exact h a (agent?_mem ha).1
  | @step s a ha _ _ _ =>
    intro b hb
    rcases mem_updateAgent ha hb with hb | rfl
    · exact h b hb
    · rw [AgentRun.grown, List.map_append, List.map_singleton, satSum_append_single,
        ← h a (agent?_mem ha).1]
  | artifact x => exact h
  | incident i => exact h
  | complete _ => exact h

theorem Counted.apply (h : t.Counted) (happ : t.apply e = .ok t') : t'.Counted := by
  rcases apply_ok happ with rfl | ⟨-, u, hm, rfl⟩
  · exact h
  · exact counted_refresh (tokens_move h.tokens_eq hm)

theorem Counted.applyLogged (h : t.Counted) : (t.applyLogged e).1.Counted := by
  unfold Trace.applyLogged
  cases happ : t.apply e with
  | error err => exact h.stamp _
  | ok t' => exact (h.apply happ).stamp _

theorem counted_rebuild {L : List Event} (h : rebuild L = some t) : t.Counted := by
  cases L with
  | nil => cases h
  | cons first rest =>
    simp only [rebuild] at h
    split at h
    · cases h
      -- the fold replays `rest` from the declared trace; each replayed event keeps the counts
      generalize hstart : ({ Trace.new first.runId (first.projectId.getD "") _ _ _ first.time with
        lastSeq := first.seq } : Trace) = start
      have hc : start.Counted := hstart ▸ (counted_new _ _ _ _).stamp _
      clear hstart
      induction rest generalizing start with
      | nil => exact hc
      | cons e rest ih => exact ih _ hc.applyLogged
    · cases h

theorem Reachable.counted (h : Reachable specs exec t) : t.Counted := by
  induction h with
  | new runId projectId name time => exact counted_new runId projectId name time
  | rebuilt _ hrebuild => exact counted_rebuild hrebuild
  | apply _ happ ih => exact ih.apply happ

theorem Counted.summary_tokens (h : t.Counted) :
    t.summary.totalTokens = satSum (t.agents.map (·.totalTokens)) := by
  have hagents : t.agents.map (·.totalTokens) =
      (t.agents.map fun a => a.steps.map Step.tokens).map satSum := by
    rw [List.map_map]
    exact List.map_congr_left fun a ha => h.tokens_eq a ha
  rw [h.summary_eq, hagents, ← satSum_flatten, ← List.flatMap_def]
  show satSum ((t.steps.filter (·.kind == .llm)).map Step.tokens) = _
  rw [satSum_tokens_filter_llm, steps, List.map_flatMap]

end Trace

end RunJournal
