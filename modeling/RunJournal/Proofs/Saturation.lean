import RunJournal.Proofs.RunOps
import RunJournal.Diff.Basic
import RunJournal.Replay.Timeline
/-!
# Counters that do not wrap

Every counter the reducer, the summary, a comparison, a replay and the store compute stays within
its width below the largest values. The reducer adds a step's tokens to its agent's total capped at
the largest 64-bit word (`Trace.apply_tokens_saturate`), and raises the retry count by one on an
incident; the summary and a comparison report true sums capped at that word (`summarize_bounds`,
`compare_totals`); a replay only counts and numbers its entries (`replay_counters`). A store call
that writes the run numbers its event one past the log's last (`RunFiles.mutate_numbers`,
`RunFiles.log_numbers`), and so does an append to a log (`EventLog.append_run_of_lastSeq`).

At the largest values two counters wrap instead (`apply_retryCount`, `wordSucc_eq`), so the main
statement, `counters_saturate_below_max`, is stated below them.
-/

namespace RunJournal

/-! ## What a comparison adds up -/

theorem mem_changeIf {category : Category} {field : String} {b t : Nat} {index : Option Nat}
    {show_ : Nat → String} {c : Change} (h : c ∈ changeIf category field b t index show_) :
    c.category = category ∧ c.field = field ∧ c.baseline = show_ b ∧ c.target = show_ t := by
  unfold changeIf at h
  split at h
  · cases h
  · rw [List.mem_singleton] at h
    subst h
    exact ⟨rfl, rfl, rfl, rfl⟩

/-- The token and latency totals a comparison reports are the true sums over the model calls of
either trace, capped at the largest word. -/
theorem compare_totals (b t : Trace) :
    ∀ c ∈ (compare b t).changes,
      (c.field = "tokens" →
        c.baseline = toString (min ((b.stepsOfKind .llm).map (·.2.tokens)).sum wordMax) ∧
        c.target = toString (min ((t.stepsOfKind .llm).map (·.2.tokens)).sum wordMax)) ∧
      (c.field = "latency" →
        c.baseline = toString (min ((b.stepsOfKind .llm).map (·.2.latency)).sum wordMax) ++ "ms" ∧
        c.target = toString (min ((t.stepsOfKind .llm).map (·.2.latency)).sum wordMax) ++ "ms") := by
  intro c hc
  change c ∈ changesBetween b t at hc
  unfold changesBetween at hc
  simp only [List.mem_append] at hc
  rcases hc with ((((hc | hc) | hc) | hc) | hc) | hc
  · obtain ⟨-, hfield, -⟩ := mem_changeIf hc
    simp [hfield]
  · obtain ⟨-, hfield, hb, ht⟩ := mem_changeIf hc
    simp only [hfield, hb, ht, satSum_eq_min]
    simp
  · obtain ⟨-, hfield, hb, ht⟩ := mem_changeIf hc
    simp only [hfield, hb, ht, satSum_eq_min]
    simp
  · obtain ⟨-, hfield, -⟩ := mem_changeIf hc
    simp [hfield]
  · split at hc
    · cases hc
    · rw [List.mem_singleton] at hc
      subst hc
      simp
  · obtain ⟨-, hfield, -⟩ := mem_changeIf hc
    simp [hfield]

/-! ## What a replay counts -/

/-- A replay numbers its entries within their number, and counts each kind among them. -/
theorem replay_counters (t : Trace) :
    (∀ e ∈ (replay t).entries, e.index < (replay t).entries.length) ∧
      (replay t).summary.totalSteps = (replay t).entries.length ∧
      (replay t).summary.llmSteps ≤ (replay t).summary.totalSteps ∧
      (replay t).summary.toolSteps ≤ (replay t).summary.totalSteps ∧
      (replay t).summary.errorSteps ≤ (replay t).summary.totalSteps := by
  refine ⟨fun e he => ?_, rfl, List.length_filter_le _ _, List.length_filter_le _ _,
    List.length_filter_le _ _⟩
  simp only [replay, List.mem_map] at he
  obtain ⟨⟨⟨label, durationMs, detail⟩, index⟩, hmem, rfl⟩ := he
  simp only [replay, List.length_map, List.length_zipIdx]
  simpa using List.snd_lt_of_mem_zipIdx hmem

/-! ## How the store numbers its events -/

/-- An event a call appended where the log is numbered `1, 2, …` is numbered one past its last. -/
theorem Changed.seq_of_ok {P : Event → Prop} {α : Type} {Q : α → List Event → Prop}
    {E E' : List Event} {a : α} (hE' : Logged E') (h : Changed P Q E (.ok a) E') :
    ∃ ev, E' = E ++ [ev] ∧ P ev ∧ ev.seq = E.length + 1 := by
  cases h with
  | appended hP _ =>
    refine ⟨_, rfl, hP, ?_⟩
    simpa using hE'.seq_getElem E.length (by simp)

namespace RunFiles

variable {x : RunSite} {w : World} {E : List Event}

/-- A change that returns appended its event numbered one past the log's last. -/
theorem mutate_numbers (h : RunFiles x w E E.length) {s : Store} (hs : s.root = x.root)
    (hshort : E.length + 1 < wordMax) (agentId : Option String) (kind : EventKind)
    (hkind : kind.Storable) (hclock : w.clock.Reparses) :
    let r := (s.mutate x.run x.project agentId kind).run.run w
    ∃ E', RunFiles x r.2 E' E'.length ∧ ∀ t, r.1 = .ok t →
      ∃ ev, E' = E ++ [ev] ∧ ev.kind = kind ∧ ev.seq = (E.getLast?.map (·.seq)).getD 0 + 1 := by
  obtain ⟨-, E', h', hch⟩ := h.mutate_run hs hshort agentId kind hkind hclock
  refine ⟨E', h', fun t ht => ?_⟩
  rw [ht] at hch
  obtain ⟨ev, rfl, hP, hseq⟩ := hch.seq_of_ok h'.logged
  exact ⟨ev, rfl, hP.2.2, by rw [h.logged.last_seq, hseq]⟩

/-- A log line that returns appended its event numbered one past the log's last. -/
theorem log_numbers (h : RunFiles x w E E.length) {s : Store} (hs : s.root = x.root)
    (hshort : E.length + 1 < wordMax) (level component message : String)
    (hclock : w.clock.Reparses) :
    let r := (s.log x.run x.project level component message).run.run w
    ∃ E', RunFiles x r.2 E' E'.length ∧ (r.1 = .ok () →
      ∃ ev, E' = E ++ [ev] ∧ ev.kind = .log level component message ∧
        ev.seq = (E.getLast?.map (·.seq)).getD 0 + 1) := by
  obtain ⟨-, E', h', hch⟩ := h.log_run hs hshort level component message hclock
  refine ⟨E', h', fun hok => ?_⟩
  rw [hok] at hch
  obtain ⟨ev, rfl, hP, hseq⟩ := hch.seq_of_ok h'.logged
  exact ⟨ev, rfl, hP.2, by rw [h.logged.last_seq, hseq]⟩

end RunFiles

/-- Appending after a log whose last number reads `n` below the largest word writes the event
numbered `n + 1`. -/
theorem EventLog.append_run_of_lastSeq {log : EventLog} {w w' : World} {n : Nat} (e : Event)
    (hlast : log.lastSeq.run.run w = (.ok n, w')) (hn : n < wordMax) :
    (log.append e).run.run w = (log.appendAt e (n + 1)).run.run w' := by
  unfold EventLog.append
  rw [WorldE.bind_run_ok hlast, wordSucc_eq hn.le, if_pos hn]

/-- Below their largest values no counter of the reducer, the summary, a comparison, a replay or
the store leaves its width. An accepted event keeps each agent's token total or adds the tokens of
its new step capped at the largest word, and raises the retry count by exactly one on an incident;
the summary's and a comparison's totals are the true sums capped at the largest word, and the
summary's and a replay's other counters count parts of the trace; a change or a log line on a run
whose files the store keeps, and an append to any log, numbers its event one past the last. -/
theorem counters_saturate_below_max (b t : Trace) (e : Event) :
    (∀ t', t.apply e = .ok t' →
      List.Forall₂ (fun a a' => a'.totalTokens = a.totalTokens ∨
        ∃ s, a'.steps = a.steps ++ [s] ∧ a'.totalTokens = min (a.totalTokens + s.tokens) wordMax)
        t.agents t'.agents ∧
      (t.execution.retryCount < 2 ^ 32 - 1 → t'.execution.retryCount = match e.kind with
        | .incidentAdded _ => t.execution.retryCount + 1
        | _ => t.execution.retryCount)) ∧
    (t.summarize.totalTokens = min ((t.steps.filter (·.kind == .llm)).map Step.tokens).sum wordMax ∧
      t.summarize.totalLlmCalls ≤ t.steps.length ∧ t.summarize.totalToolCalls ≤ t.steps.length ∧
      t.summarize.completedAgents ≤ t.summarize.totalAgents ∧
      t.summarize.failedAgents ≤ t.summarize.totalAgents ∧
      t.summarize.totalAgents = t.agents.length) ∧
    (∀ c ∈ (compare b t).changes,
      (c.field = "tokens" →
        c.baseline = toString (min ((b.stepsOfKind .llm).map (·.2.tokens)).sum wordMax) ∧
        c.target = toString (min ((t.stepsOfKind .llm).map (·.2.tokens)).sum wordMax)) ∧
      (c.field = "latency" →
        c.baseline = toString (min ((b.stepsOfKind .llm).map (·.2.latency)).sum wordMax) ++ "ms" ∧
        c.target = toString (min ((t.stepsOfKind .llm).map (·.2.latency)).sum wordMax) ++ "ms")) ∧
    ((∀ r ∈ (replay t).entries, r.index < (replay t).entries.length) ∧
      (replay t).summary.totalSteps = (replay t).entries.length ∧
      (replay t).summary.llmSteps ≤ (replay t).summary.totalSteps ∧
      (replay t).summary.toolSteps ≤ (replay t).summary.totalSteps ∧
      (replay t).summary.errorSteps ≤ (replay t).summary.totalSteps) ∧
    (∀ (x : RunSite) (w : World) (E : List Event) (s : Store), RunFiles x w E E.length →
      s.root = x.root → E.length + 1 < wordMax → w.clock.Reparses →
      (∀ agentId kind, kind.Storable →
        let r := (s.mutate x.run x.project agentId kind).run.run w
        ∃ E', RunFiles x r.2 E' E'.length ∧ ∀ t, r.1 = .ok t →
          ∃ ev, E' = E ++ [ev] ∧ ev.kind = kind ∧ ev.seq = (E.getLast?.map (·.seq)).getD 0 + 1) ∧
      ∀ level component message,
        let r := (s.log x.run x.project level component message).run.run w
        ∃ E', RunFiles x r.2 E' E'.length ∧ (r.1 = .ok () →
          ∃ ev, E' = E ++ [ev] ∧ ev.kind = .log level component message ∧
            ev.seq = (E.getLast?.map (·.seq)).getD 0 + 1)) ∧
    ∀ (log : EventLog) (w w' : World) (n : Nat),
      log.lastSeq.run.run w = (.ok n, w') → n < wordMax →
      (log.append e).run.run w = (log.appendAt e (n + 1)).run.run w' := by
  refine ⟨fun t' h => ⟨Trace.apply_tokens_saturate h, fun hretry => apply_retryCount_of_lt hretry h⟩,
    t.summarize_bounds, compare_totals b t, replay_counters t, ?_,
    fun log w w' n hlast hn => EventLog.append_run_of_lastSeq e hlast hn⟩
  intro x w E s h hs hshort hclock
  exact ⟨fun agentId kind hkind => h.mutate_numbers hs hshort agentId kind hkind hclock,
    fun level component message => h.log_numbers hs hshort level component message hclock⟩

theorem counters_saturate_below_max_model_call :
    ∃ t₁ t₂, (Trace.new "r1" "p1" "demo" Trace.sampleAgents Execution.default ⟨0, 0, 0⟩).apply
        (Trace.sampleEvent 2 1 (some "a1") .agentStarted) = .ok t₁ ∧
      t₁.apply (Trace.sampleEvent 3 3 (some "a1") (.stepAdded Trace.sampleStep)) = .ok t₂ ∧
      t₂.agents.map (·.totalTokens) = [42] ∧
      List.Forall₂ (fun a a' => a'.totalTokens = a.totalTokens ∨
        ∃ s, a'.steps = a.steps ++ [s] ∧ a'.totalTokens = min (a.totalTokens + s.tokens) wordMax)
        t₁.agents t₂.agents :=
  ⟨_, _, rfl, rfl, rfl,
    ((counters_saturate_below_max (Trace.new "r1" "p1" "demo" Trace.sampleAgents Execution.default
      ⟨0, 0, 0⟩) _ (Trace.sampleEvent 3 3 (some "a1") (.stepAdded Trace.sampleStep))).1 _ rfl).1⟩

end RunJournal
