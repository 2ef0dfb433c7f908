import RunJournal.Proofs.Divergence
import RunJournal.Proofs.Changes
/-!
# Comparing the other way round

Comparing `t` against `b` is comparing `b` against `t` seen from the other side
(`compare_orientation`): the verdict is the same, the changes are the same in the same order with
their two values swapped (`Change.Mirrors`), the first divergence is missing on both sides or sits
at the same position on both, and the agents one comparison misses in its target are those the
other misses in its baseline.

The engine is not written symmetrically: a step value's change points at the target's step, a
divergence names the target's agent and step kind, and the agent pass reads the baseline first.
What carries over is what each part decides on a symmetric condition: two values differ, one list
ends first, a position disagrees, an id is absent from the other side.
-/

namespace RunJournal

/-- A change seen from the other side: the same category and field with the two values swapped.
A change of a step count, of the run status or of the incident count points at the same step. -/
structure Change.Mirrors (c c' : Change) : Prop where
  category : c'.category = c.category
  field : c'.field = c.field
  baseline : c'.baseline = c.target
  target : c'.target = c.baseline
  stepIndex : c.field = "call_count" ∨ c.category = .metadata ∨ c.category = .error →
    c'.stepIndex = c.stepIndex

/-- Where a divergence stands: its agent position and its step position. -/
def Divergence.position (d : Divergence) : Nat × Nat := (d.agentIndex, d.stepIndex)

/-- The agent a difference reports missing from the target, if it is such a difference. -/
def AgentDiff.missingFromTarget : AgentDiff → Option String
  | .missingInTarget id => some id
  | _ => none

/-- The agent a difference reports missing from the baseline, if it is such a difference. -/
def AgentDiff.missingFromBaseline : AgentDiff → Option String
  | .missingInBaseline id => some id
  | _ => none

/-! ## Changes -/

section Changes

variable {cs cs' : List Change}

/-- A count walk, whose key is the same for every step, stops where the shorter list ends, at the
longer list's step: the same step whichever list comes first. -/
theorem firstMismatch_const_comm (n : Nat) (bs ts : List (Nat × Step)) :
    firstMismatch (fun _ => n) bs ts = firstMismatch (fun _ => n) ts bs := by
  induction bs generalizing ts with
  | nil => cases ts <;> rfl
  | cons b bs ih =>
    cases ts with
    | nil => rfl
    | cons t ts => simp [firstMismatch, ih]

theorem changeIf_mirrors (category : Category) (field : String) (b t : Nat)
    (index index' : Option Nat) (show_ : Nat → String)
    (hindex : field = "call_count" ∨ category = .metadata ∨ category = .error →
      index'.getD 0 = index.getD 0) :
    List.Forall₂ Change.Mirrors (changeIf category field b t index show_)
      (changeIf category field t b index' show_) := by
  unfold changeIf
  by_cases hbt : b = t
  · rw [if_pos hbt, if_pos hbt.symm]
    exact .nil
  · rw [if_neg hbt, if_neg (Ne.symm hbt)]
    exact .cons ⟨rfl, rfl, rfl, rfl, hindex⟩ .nil

theorem statusChange_mirrors (b t : Trace) :
    List.Forall₂ Change.Mirrors
      (if b.status = t.status then []
       else [{ stepIndex := 0, category := .metadata, field := "status", baseline := b.status.name,
               target := t.status.name }])
      (if t.status = b.status then []
       else [{ stepIndex := 0, category := .metadata, field := "status", baseline := t.status.name,
               target := b.status.name }]) := by
  by_cases hbt : b.status = t.status
  · rw [if_pos hbt, if_pos hbt.symm]
    exact .nil
  · rw [if_neg hbt, if_neg (Ne.symm hbt)]
    exact .cons ⟨rfl, rfl, rfl, rfl, fun _ => rfl⟩ .nil

/-- Measuring the other way round gives the mirrored changes, in the same order. -/
theorem changesBetween_mirrors (b t : Trace) :
    List.Forall₂ Change.Mirrors (changesBetween b t) (changesBetween t b) := by
  have hstep : ∀ (field : String), field ≠ "call_count" → ∀ index index' : Option Nat,
      field = "call_count" ∨ Category.llm = .metadata ∨ Category.llm = .error →
        index'.getD 0 = index.getD 0 := by
    rintro field hfield index index' (h | h | h)
    · exact absurd h hfield
    · cases h
    · cases h
  simp only [changesBetween, List.append_assoc]
  refine List.rel_append (changeIf_mirrors _ _ _ _ _ _ _ fun _ => ?_) <|
    List.rel_append (changeIf_mirrors _ _ _ _ _ _ _ (hstep "tokens" (by decide) _ _)) <|
    List.rel_append (changeIf_mirrors _ _ _ _ _ _ _ (hstep "latency" (by decide) _ _)) <|
    List.rel_append (changeIf_mirrors _ _ _ _ _ _ _ fun _ => ?_) <|
    List.rel_append (statusChange_mirrors b t) <|
    changeIf_mirrors _ _ _ _ _ _ _ fun _ => rfl
  · rw [firstMismatch_const_comm]
  · rw [firstMismatch_const_comm]

theorem Change.Mirrors.categories (h : List.Forall₂ Change.Mirrors cs cs') :
    cs'.map Change.category = cs.map Change.category := by
  induction h with
  | nil => rfl
  | cons hc _ ih => rw [List.map_cons, List.map_cons, hc.category, ih]

end Changes

/-! ## The first divergence -/

section Positions

variable {bs ts : List Step} {as as' : List AgentRun}

theorem Step.Agrees.symm {s s' : Step} (h : s.Agrees s') : s'.Agrees s :=
  ⟨h.1.symm, h.2.symm⟩

theorem AgentRun.Agrees.symm {a a' : AgentRun} (h : a.Agrees a') : a'.Agrees a :=
  ⟨h.1.symm, List.Forall₂.flip (h.2.imp fun _ _ hs => hs.symm)⟩

theorem forall₂_agrees_symm (h : List.Forall₂ AgentRun.Agrees as as') :
    List.Forall₂ AgentRun.Agrees as' as :=
  List.Forall₂.flip (h.imp fun _ _ ha => ha.symm)

/-- Whether two step lists disagree at a position does not depend on their order. -/
theorem stepDisagreement_eq_none_comm (j : Nat) :
    stepDisagreement bs ts j = none ↔ stepDisagreement ts bs j = none := by
  unfold stepDisagreement
  cases bs[j]? with
  | none => cases ts[j]? <;> simp
  | some b =>
    cases ts[j]? with
    | none => simp
    | some t =>
      by_cases hk : b.kind = t.kind
      · by_cases hs : b.status = t.status
        · simp [hk, hs]
        · simp [hk, hs, Ne.symm hs]
      · simp [hk, Ne.symm hk]

/-- Whether two agent lists disagree at a position does not depend on their order. -/
theorem disagreement_eq_none_comm (i j : Nat) :
    disagreement as as' i j = none ↔ disagreement as' as i j = none := by
  unfold disagreement
  cases as[i]? with
  | none => cases as'[i]? <;> simp
  | some a =>
    cases as'[i]? with
    | none => simp
    | some a' =>
      by_cases hid : a.id = a'.id
      · simp only [hid, ne_eq, not_true_eq_false, if_false]
        exact stepDisagreement_eq_none_comm j
      · simp [hid, Ne.symm hid]

/-- The agent walk stops at a position no later, agent position first, than any position where
the lists disagree. -/
theorem agentsDivergence_le {d : Divergence} (hd : agentsDivergence 0 as as' = some d)
    {i j : Nat} (hij : disagreement as as' i j ≠ none) :
    d.agentIndex < i ∨ (d.agentIndex = i ∧ d.stepIndex ≤ j) := by
  obtain ⟨k, hk, -, hbefore, hsteps⟩ := agentsDivergence_eq_some hd
  rw [Nat.zero_add] at hk
  rcases Nat.lt_trichotomy k i with hlt | rfl | hgt
  · exact .inl (hk ▸ hlt)
  · exact .inr ⟨hk, Nat.le_of_not_lt fun hj => hij (hsteps j hj)⟩
  · exact absurd (hbefore i hgt j) hij

theorem firstDivergence_position_comm (b t : Trace) :
    (firstDivergence t b).map Divergence.position = (firstDivergence b t).map Divergence.position := by
  have hnone : firstDivergence t b = none ↔ firstDivergence b t = none := by
    rw [firstDivergence, firstDivergence, agentsDivergence_eq_none_iff,
      agentsDivergence_eq_none_iff]
    exact ⟨forall₂_agrees_symm, forall₂_agrees_symm⟩
  cases hbt : firstDivergence b t with
  | none => rw [hnone.2 hbt]
  | some d =>
    cases htb : firstDivergence t b with
    | none => exact absurd (hnone.1 htb) (by rw [hbt]; exact Option.some_ne_none d)
    | some d' =>
      obtain ⟨k, hk, hreason, -, -⟩ := agentsDivergence_eq_some hbt
      obtain ⟨k', hk', hreason', -, -⟩ := agentsDivergence_eq_some htb
      rw [Nat.zero_add] at hk hk'
      subst hk hk'
      -- each walk's stop is a disagreement of the other order too, so neither comes first
      have h₁ := agentsDivergence_le htb (i := d.agentIndex) (j := d.stepIndex) fun h =>
        Option.some_ne_none d.reason (hreason ▸ (disagreement_eq_none_comm _ _).2 h)
      have h₂ := agentsDivergence_le hbt (i := d'.agentIndex) (j := d'.stepIndex) fun h =>
        Option.some_ne_none d'.reason (hreason' ▸ (disagreement_eq_none_comm _ _).2 h)
      simp only [Option.map_some, Divergence.position, Option.some.injEq, Prod.mk.injEq]
      omega

end Positions

/-! ## Missing agents -/

/-- The agents a comparison misses in its target: the baseline's agents, in order, whose id the
target has no agent of. -/
theorem agentDiffs_missingFromTarget (b t : Trace) :
    (agentDiffs b t).filterMap AgentDiff.missingFromTarget =
      (b.agents.filter fun a => !t.agents.any (·.id == a.id)).map (·.id) := by
  unfold agentDiffs
  dsimp only
  rw [List.filterMap_append]
  refine (congrArg₂ (· ++ ·) ?_ (List.filterMap_eq_nil_iff.2 ?_)).trans (List.append_nil _)
  rotate_left
  · intro x hx
    obtain ⟨ta, -, hta⟩ := List.mem_filterMap.1 hx
    split at hta <;> cases hta
    rfl
  induction b.agents with
  | nil => rfl
  | cons a as ih =>
    rw [List.flatMap_cons, List.filterMap_append, ih, List.filter_cons]
    cases hfind : t.agents.find? (·.id == a.id) with
    | none =>
      have hany : t.agents.any (·.id == a.id) = false := by
        simpa [List.any_eq_false] using List.find?_eq_none.1 hfind
      simp [hany, AgentDiff.missingFromTarget]
    | some ta =>
      have hany : t.agents.any (·.id == a.id) = true :=
        List.any_eq_true.2 (List.find?_isSome.1 (by rw [hfind]; rfl))
      simp only [hany, Bool.not_true, Bool.false_eq_true, if_false]
      split <;> split <;> rfl

/-- The agents a comparison misses in its baseline: the target's agents, in order, whose id the
baseline has no agent of. -/
theorem agentDiffs_missingFromBaseline (b t : Trace) :
    (agentDiffs b t).filterMap AgentDiff.missingFromBaseline =
      (t.agents.filter fun a => !b.agents.any (·.id == a.id)).map (·.id) := by
  unfold agentDiffs
  dsimp only
  rw [List.filterMap_append]
  refine (congrArg₂ (· ++ ·) (List.filterMap_eq_nil_iff.2 ?_) ?_).trans (List.nil_append _)
  · intro x hx
    obtain ⟨ba, -, hx⟩ := List.mem_flatMap.1 hx
    split at hx
    · rcases List.mem_append.1 hx with hx | hx <;> split at hx <;>
        simp_all [AgentDiff.missingFromBaseline]
    · simp_all [AgentDiff.missingFromBaseline]
  induction t.agents with
  | nil => rfl
  | cons a as ih =>
    cases hany : b.agents.any (·.id == a.id) with
    | false =>
      simp only [List.filterMap_cons, hany, Bool.false_eq_true, if_false, List.filter_cons,
        Bool.not_false, if_true, List.map_cons, AgentDiff.missingFromBaseline, ih]
    | true =>
      simp only [List.filterMap_cons, hany, if_true, List.filter_cons, Bool.not_true,
        Bool.false_eq_true, if_false, ih]

/-- Comparing the other way round gives the same verdict; the same changes in the same order,
each with its two values swapped and a change of a step count, of the run status or of the
incident count pointing at the same step; a first divergence missing on both sides or at the same
agent and step position on both; and the agents missing from one comparison's target are those
missing from the other's baseline, in the same order. -/
theorem compare_orientation (b t : Trace) :
    (compare t b).verdict = (compare b t).verdict ∧
      List.Forall₂ Change.Mirrors (compare b t).changes (compare t b).changes ∧
      (compare t b).firstDivergence.map Divergence.position =
        (compare b t).firstDivergence.map Divergence.position ∧
      (compare b t).agentDiffs.filterMap AgentDiff.missingFromTarget =
        (compare t b).agentDiffs.filterMap AgentDiff.missingFromBaseline := by
  have hmirror := changesBetween_mirrors b t
  have hcats := Change.Mirrors.categories hmirror
  refine ⟨?_, hmirror, firstDivergence_position_comm b t, ?_⟩
  · have hempty : (changesBetween t b).isEmpty = (changesBetween b t).isEmpty := by
      rw [← List.isEmpty_map (f := Change.category), hcats, List.isEmpty_map]
    have hfailed : (changesBetween t b).any (·.category == .error) =
        (changesBetween b t).any (·.category == .error) := by
      rw [← Function.comp_def (· == Category.error) Change.category, ← List.any_map, hcats,
        List.any_map]
    simp only [compare, hempty, hfailed]
  · rw [compare, compare, agentDiffs_missingFromTarget, agentDiffs_missingFromBaseline]

end RunJournal
