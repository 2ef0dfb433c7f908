import Mathlib
import RunJournal.Proofs.Counters
/-!
# Counters and their widths

Every counter of a trace is one of three kinds. Token totals saturate: an agent's total, the
summary's and the totals a diff compares are the true sums capped at the largest 64-bit word
(`satSum_eq_min`, and `apply_tokens_saturate` for what the reducer keeps). The summary's other counters
count parts of the trace, so they are bounded by its lists (`summarize_bounds`). Two counters are
raised by one modulo their width instead: the retry count, which an incident raises, goes from the
largest 32-bit value back to zero (`apply_retryCount`), and the next sequence number of a log goes
from the largest 64-bit word back to zero (`wordSucc_eq`).
-/

namespace RunJournal

/-! ## Raising by one within a width -/

theorem wordSucc_eq {n : Nat} (h : n ≤ wordMax) : wordSucc n = if n < wordMax then n + 1 else 0 := by
  have hmax : wordMax + 1 = 2 ^ 64 := by decide
  unfold wordSucc
  split
  · exact Nat.mod_eq_of_lt (show n + 1 < 2 ^ 64 by omega)
  · have hn : n = wordMax := by omega
    subst hn
    show (wordMax + 1) % 2 ^ 64 = 0
    rw [hmax, Nat.mod_self]

namespace Trace

variable {t t' : Trace} {e : Event}

/-! ## What the reducer does to the counters -/

/-- Only an incident changes the retry count, raising it by one modulo `2 ^ 32`. -/
theorem apply_retryCount (h : t.apply e = .ok t') :
    t'.execution.retryCount = match e.kind with
      | .incidentAdded _ => (t.execution.retryCount + 1) % 2 ^ 32
      | _ => t.execution.retryCount := by
  rcases apply_eq_ok h with ⟨hlog, rfl⟩ | ⟨-, u, hu, rfl⟩
  · cases hk : e.kind <;> simp [hk, EventKind.isLog] at hlog ⊢
  · -- recomputing the summary keeps the execution settings, which only an incident changes
    cases hu with
    | start hk => rw [hk]; rfl
    | finish hk => rw [hk]; rfl
    | step hk => rw [hk]; rfl
    | artifact hk => rw [hk]; rfl
    | incident hk => rw [hk]; rfl
    | complete hk => rw [hk]; rfl

/-- Every accepted event keeps each agent's token total, or adds to it the tokens of the one step the
agent took, capped at the largest word. -/
theorem apply_tokens_saturate (h : t.apply e = .ok t') :
    List.Forall₂ (fun a a' => a'.totalTokens = a.totalTokens ∨
      ∃ s, a'.steps = a.steps ++ [s] ∧ a'.totalTokens = min (a.totalTokens + s.tokens) wordMax)
      t.agents t'.agents := by
  have hkeep : ∀ a ∈ t.agents, a.totalTokens = a.totalTokens ∨
      ∃ s, a.steps = a.steps ++ [s] ∧ a.totalTokens = min (a.totalTokens + s.tokens) wordMax :=
    fun _ _ => .inl rfl
  rcases apply_ok h with rfl | ⟨-, u, hm, rfl⟩
  · exact List.forall₂_same.2 hkeep
  · cases hm with
    | start ha _ => exact forall₂_updateAgent ha hkeep (.inl rfl)
    | finish _ ha _ _ => exact forall₂_updateAgent ha hkeep (.inl rfl)
    | step ha _ _ _ => exact forall₂_updateAgent ha hkeep (.inr ⟨_, rfl, rfl⟩)
    | artifact x => exact List.forall₂_same.2 hkeep
    | incident i => exact List.forall₂_same.2 hkeep
    | complete _ => exact List.forall₂_same.2 hkeep

/-! ## What the summary counts -/

/-- The summary's token total saturates, and its other counters count parts of the trace. -/
theorem summarize_bounds (t : Trace) :
    t.summarize.totalTokens = min ((t.steps.filter (·.kind == .llm)).map Step.tokens).sum wordMax ∧
      t.summarize.totalLlmCalls ≤ t.steps.length ∧ t.summarize.totalToolCalls ≤ t.steps.length ∧
      t.summarize.completedAgents ≤ t.summarize.totalAgents ∧
      t.summarize.failedAgents ≤ t.summarize.totalAgents ∧ t.summarize.totalAgents = t.agents.length :=
  ⟨satSum_eq_min _, List.length_filter_le _ _, List.length_filter_le _ _, List.length_filter_le _ _,
    List.length_filter_le _ _, rfl⟩

end Trace

/-- Below its largest value the retry count is raised by one by an incident, without wrapping. -/
theorem apply_retryCount_of_lt {t t' : Trace} {e : Event} (hretry : t.execution.retryCount < 2 ^ 32 - 1)
    (h : t.apply e = .ok t') :
    t'.execution.retryCount = match e.kind with
      | .incidentAdded _ => t.execution.retryCount + 1
      | _ => t.execution.retryCount := by
  rw [Trace.apply_retryCount h]
  cases e.kind with
  | incidentAdded i => exact Nat.mod_eq_of_lt (by omega)
  | _ => rfl

end RunJournal
