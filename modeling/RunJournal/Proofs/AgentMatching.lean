import RunJournal.Proofs.Divergence
import RunJournal.Proofs.Changes
/-!
# Matching agents by id

`agentDiffs` pairs each baseline agent with the first target agent of its id (`mem_agentDiffs`
lists what it can report), while `firstDivergence` pairs agents by position. Where the ids of a
trace are distinct the two pairings coincide on traces that agree position by position, and then:

* a trace compared with itself reports nothing at all (`compare_self_identical`);
* a comparison whose walk finds no divergence reports no change of the `LLM` or `TOOL` step counts,
  no missing agent, and, over distinct ids, no change of an agent's step count
  (`compare_without_divergence`).

Ids need not be distinct: a run declares its agents as given, and a repeated id makes the first-match
lookup pair the later agents of that id with the first one. The statements above keep that
hypothesis where it is needed and only there.
-/

namespace RunJournal

variable {as as' : List AgentRun} {a : AgentRun}

/-! ## Looking agents up by id -/

theorem AgentRun.Agrees.refl (a : AgentRun) : a.Agrees a :=
  ⟨rfl, List.forall₂_same.2 fun _ _ => ⟨rfl, rfl⟩⟩

theorem AgentRun.Agrees.length_steps {a a' : AgentRun} (h : a.Agrees a') :
    a.steps.length = a'.steps.length :=
  h.2.length_eq

/-- Agent lists that agree position by position carry the same ids in the same order. -/
theorem ids_eq_of_forall₂_agrees (h : List.Forall₂ AgentRun.Agrees as as') :
    as.map (·.id) = as'.map (·.id) := by
  induction h with
  | nil => rfl
  | cons hhead _ ih => rw [List.map_cons, List.map_cons, hhead.1, ih]

theorem find?_id_of_nodup (hids : (as.map (·.id)).Nodup) (ha : a ∈ as) :
    as.find? (·.id == a.id) = some a := by
  induction as with
  | nil => simp at ha
  | cons c cs ih =>
    rw [List.map_cons, List.nodup_cons] at hids
    rcases List.mem_cons.1 ha with rfl | htail
    · simp
    · have hne : c.id ≠ a.id := fun heq => hids.1 (heq ▸ List.mem_map_of_mem htail)
      simpa [hne] using ih hids.2 htail

/-- Over agent lists that agree position by position, the lookup of an id in the second list finds
the partner of its lookup in the first. -/
theorem find?_id_of_forall₂_agrees (h : List.Forall₂ AgentRun.Agrees as as') (x : String)
    {a' : AgentRun} (hfind : as'.find? (·.id == x) = some a') :
    ∃ a, as.find? (·.id == x) = some a ∧ a.Agrees a' := by
  induction h with
  | nil => simp at hfind
  | @cons c c' cs cs' hhead _ ih =>
    by_cases hx : c'.id = x
    · rw [List.find?_cons_of_pos (by simpa using hx)] at hfind
      cases hfind
      exact ⟨c, List.find?_cons_of_pos (by simpa [hhead.1] using hx), hhead⟩
    · rw [List.find?_cons_of_neg (by simpa using hx)] at hfind
      rw [List.find?_cons_of_neg (by simpa [hhead.1] using hx)]
      exact ih hfind

theorem find?_id_ne_none (ha : a ∈ as) : as.find? (·.id == a.id) ≠ none := by
  rw [ne_eq, List.find?_eq_none]
  exact fun h => by simpa using h a ha

/-! ## What the agent comparison reports -/

/-- The agent differences of two traces: for a baseline agent whose id the target has, a status
or step-count difference with the first target agent of that id; for one whose id it lacks, its
absence from the target; for a target agent whose id the baseline lacks, its absence from the
baseline. -/
theorem mem_agentDiffs {b t : Trace} {x : AgentDiff} :
    x ∈ agentDiffs b t ↔
      (∃ ba ∈ b.agents, ∃ ta, t.agents.find? (·.id == ba.id) = some ta ∧
        ((x = .status ba.id ba.status ta.status ∧ ba.status ≠ ta.status) ∨
          (x = .stepCount ba.id ba.steps.length ta.steps.length ∧
            ba.steps.length ≠ ta.steps.length))) ∨
      (∃ ba ∈ b.agents, t.agents.find? (·.id == ba.id) = none ∧ x = .missingInTarget ba.id) ∨
      (∃ ta ∈ t.agents, b.agents.any (·.id == ta.id) = false ∧ x = .missingInBaseline ta.id) := by
  unfold agentDiffs
  simp only [List.mem_append, List.mem_flatMap, List.mem_filterMap]
  rw [← or_assoc]
  apply or_congr
  · constructor
    · rintro ⟨ba, hba, hx⟩
      cases hfind : t.agents.find? (·.id == ba.id) with
      | none =>
        rw [hfind, List.mem_singleton] at hx
        exact .inr ⟨ba, hba, hfind, hx⟩
      | some ta =>
        rw [hfind] at hx
        refine .inl ⟨ba, hba, ta, hfind, ?_⟩
        rcases List.mem_append.1 hx with hs | hc
        · by_cases hst : ba.status = ta.status
          · simp [hst] at hs
          · exact .inl ⟨by simpa [hst] using hs, hst⟩
        · by_cases hlen : ba.steps.length = ta.steps.length
          · simp [hlen] at hc
          · exact .inr ⟨by simpa [hlen] using hc, hlen⟩
    · rintro (⟨ba, hba, ta, hfind, hx⟩ | ⟨ba, hba, hfind, rfl⟩)
      · refine ⟨ba, hba, ?_⟩
        rw [hfind]
        rcases hx with ⟨rfl, hst⟩ | ⟨rfl, hlen⟩
        · simp [hst]
        · simp [hlen]
      · exact ⟨ba, hba, by simp [hfind]⟩
  · constructor
    · rintro ⟨ta, hta, hx⟩
      by_cases hany : b.agents.any (·.id == ta.id) = true
      · simp [hany] at hx
      · exact ⟨ta, hta, by simpa using hany, by simpa [hany] using hx.symm⟩
    · rintro ⟨ta, hta, hany, rfl⟩
      exact ⟨ta, hta, by simp [hany]⟩

/-! ## A trace compared with itself -/

theorem firstDivergence_self (d : Trace) : firstDivergence d d = none :=
  (agentsDivergence_eq_none_iff 0 d.agents d.agents).2
    (List.forall₂_same.2 fun a _ => AgentRun.Agrees.refl a)

theorem changesBetween_self (d : Trace) : changesBetween d d = [] := by
  rw [changesBetween_eq_reference]
  simp [referenceChanges]

/-- Over distinct ids, a trace has no agent differences with itself: each agent is looked up as
itself. -/
theorem agentDiffs_self (d : Trace) (hids : (d.agents.map (·.id)).Nodup) : agentDiffs d d = [] := by
  refine List.eq_nil_iff_forall_not_mem.2 fun x hx => ?_
  rcases mem_agentDiffs.1 hx with ⟨ba, hba, ta, hfind, hdiff⟩ | ⟨ba, hba, hfind, -⟩ |
      ⟨ta, hta, hany, -⟩
  · rw [find?_id_of_nodup hids hba] at hfind
    cases hfind
    rcases hdiff with ⟨-, hst⟩ | ⟨-, hlen⟩
    · exact hst rfl
    · exact hlen rfl
  · exact find?_id_ne_none hba hfind
  · have : d.agents.any (·.id == ta.id) = true := List.any_eq_true.2 ⟨ta, hta, by simp⟩
    simp [this] at hany

/-- A trace compared with itself is identical: no changes, no divergence, and, when its agents'
ids are distinct, no agent differences. -/
theorem compare_self_identical (d : Trace) :
    (compare d d).verdict = .identical ∧ (compare d d).changes = [] ∧
      (compare d d).firstDivergence = none ∧
      ((d.agents.map (·.id)).Nodup → (compare d d).agentDiffs = []) := by
  have hchanges : changesBetween d d = [] := changesBetween_self d
  refine ⟨?_, hchanges, firstDivergence_self d, agentDiffs_self d⟩
  simp [compare, hchanges]

/-- Two agents of distinct ids, fresh from their declaration. -/
theorem compare_self_identical_two_agents :
    ((Trace.new "r1" "p1" "demo" [⟨"a1", "executor", "x"⟩, ⟨"a2", "executor", "y"⟩]
        Execution.default ⟨0, 0, 0⟩).agents.map (·.id)).Nodup ∧
      (compare (Trace.new "r1" "p1" "demo" [⟨"a1", "executor", "x"⟩, ⟨"a2", "executor", "y"⟩]
          Execution.default ⟨0, 0, 0⟩)
        (Trace.new "r1" "p1" "demo" [⟨"a1", "executor", "x"⟩, ⟨"a2", "executor", "y"⟩]
          Execution.default ⟨0, 0, 0⟩)).agentDiffs = [] := by
  have hids : ((Trace.new "r1" "p1" "demo" [⟨"a1", "executor", "x"⟩, ⟨"a2", "executor", "y"⟩]
      Execution.default ⟨0, 0, 0⟩).agents.map (·.id)).Nodup := by
    simp [Trace.new, Trace.refresh, AgentRun.declared]
  exact ⟨hids, (compare_self_identical _).2.2.2 hids⟩

/-! ## Comparisons without a divergence -/

/-- Steps that agree position by position have the same number of steps of each kind. -/
theorem length_filter_kind_of_forall₂ {ss ss' : List Step} (h : List.Forall₂ Step.Agrees ss ss')
    (k : StepKind) : (ss.filter (·.kind == k)).length = (ss'.filter (·.kind == k)).length := by
  induction h with
  | nil => rfl
  | cons hhead _ ih =>
    simp only [List.filter_cons, hhead.1]
    split <;> simp [ih]

/-- Agent lists that agree position by position have steps that agree position by position, over
all agents. -/
theorem steps_forall₂_of_agrees {b t : Trace} (h : List.Forall₂ AgentRun.Agrees b.agents t.agents) :
    List.Forall₂ Step.Agrees b.steps t.steps :=
  List.rel_flatMap h fun _ _ hagree => hagree.2

/-- When the walk finds no divergence, the comparison reports no change of the number of `LLM` or
`TOOL` steps and no missing agent, and, when the baseline's agent ids are distinct, no change of an
agent's step count: only status differences of agents can remain. -/
theorem compare_without_divergence (b t : Trace) (hdiv : firstDivergence b t = none) :
    (∀ c ∈ (compare b t).changes,
      ¬ (c.field = "call_count" ∧ (c.category = .llm ∨ c.category = .tool))) ∧
    (∀ x ∈ (compare b t).agentDiffs, ∀ id, x ≠ .missingInTarget id ∧ x ≠ .missingInBaseline id) ∧
    ((b.agents.map (·.id)).Nodup →
      ∀ x ∈ (compare b t).agentDiffs, ∃ id s s', x = .status id s s') := by
  have hagree : List.Forall₂ AgentRun.Agrees b.agents t.agents :=
    (agentsDivergence_eq_none_iff 0 _ _).1 hdiv
  have hids := ids_eq_of_forall₂_agrees hagree
  have hsteps := steps_forall₂_of_agrees hagree
  -- Every target id is a baseline id and back, so no agent goes missing either way.
  have hfound : ∀ ba ∈ b.agents, t.agents.find? (·.id == ba.id) ≠ none := by
    intro ba hba
    have hmem : ba.id ∈ t.agents.map (·.id) := hids ▸ List.mem_map.2 ⟨ba, hba, rfl⟩
    obtain ⟨ta, hta, hid⟩ := List.mem_map.1 hmem
    rw [← hid]
    exact find?_id_ne_none hta
  have hany : ∀ ta ∈ t.agents, b.agents.any (·.id == ta.id) = true := by
    intro ta hta
    have hmem : ta.id ∈ b.agents.map (·.id) := hids.symm ▸ List.mem_map.2 ⟨ta, hta, rfl⟩
    obtain ⟨ba, hba, hid⟩ := List.mem_map.1 hmem
    exact List.any_eq_true.2 ⟨ba, hba, by simp [hid]⟩
  refine ⟨?_, ?_, fun hnodup x hx => ?_⟩
  · intro c hc
    rw [compare, changesBetween_eq_reference] at hc
    simp only [referenceChanges, length_filter_kind_of_forall₂ hsteps] at hc
    simp [List.reduceOption_mem_iff] at hc
    rcases hc with ⟨-, rfl⟩ | ⟨-, rfl⟩ | ⟨-, rfl⟩ | ⟨-, rfl⟩ <;> simp
  · intro x hx id
    rcases mem_agentDiffs.1 hx with ⟨ba, -, ta, -, ⟨rfl, -⟩ | ⟨rfl, -⟩⟩ | ⟨ba, hba, hfind, -⟩ |
        ⟨ta, hta, hfalse, -⟩
    · simp
    · simp
    · exact absurd hfind (hfound ba hba)
    · simp [hany ta hta] at hfalse
  · rcases mem_agentDiffs.1 hx with ⟨ba, hba, ta, hfind, ⟨rfl, -⟩ | ⟨-, hlen⟩⟩ |
        ⟨ba, hba, hfind, -⟩ | ⟨ta, hta, hfalse, -⟩
    · exact ⟨_, _, _, rfl⟩
    · -- The target agent found is the partner of the first baseline agent of that id, which over
      -- distinct ids is the baseline agent itself.
      obtain ⟨ba', hba', hagree'⟩ := find?_id_of_forall₂_agrees hagree ba.id hfind
      rw [find?_id_of_nodup hnodup hba] at hba'
      cases hba'
      exact absurd hagree'.length_steps hlen
    · exact absurd hfind (hfound ba hba)
    · simp [hany ta hta] at hfalse

/-- A trace compared with itself after a status change: the walk finds no divergence. -/
theorem compare_without_divergence_status_change :
    firstDivergence (Trace.new "r1" "p1" "demo" [⟨"a1", "executor", "x"⟩] Execution.default ⟨0, 0, 0⟩)
        { Trace.new "r1" "p1" "demo" [⟨"a1", "executor", "x"⟩] Execution.default ⟨0, 0, 0⟩ with
          status := .completed } = none ∧
      (∀ c ∈ (compare
          (Trace.new "r1" "p1" "demo" [⟨"a1", "executor", "x"⟩] Execution.default ⟨0, 0, 0⟩)
          { Trace.new "r1" "p1" "demo" [⟨"a1", "executor", "x"⟩] Execution.default ⟨0, 0, 0⟩ with
            status := .completed }).changes,
        ¬ (c.field = "call_count" ∧ (c.category = .llm ∨ c.category = .tool))) := by
  have hdiv : firstDivergence
      (Trace.new "r1" "p1" "demo" [⟨"a1", "executor", "x"⟩] Execution.default ⟨0, 0, 0⟩)
      { Trace.new "r1" "p1" "demo" [⟨"a1", "executor", "x"⟩] Execution.default ⟨0, 0, 0⟩ with
        status := .completed } = none :=
    firstDivergence_self _
  exact ⟨hdiv, (compare_without_divergence _ _ hdiv).1⟩

end RunJournal
