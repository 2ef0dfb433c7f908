import RunJournal.Diff.Basic
import Mathlib.Data.List.Forall2
/-!
# Where two traces first part

`firstDivergence` walks the agents of two traces by position and, inside two agents of the same id,
their steps by position, and stops at the first place where something differs. Read declaratively,
every position `(i, j)` either holds a disagreement or not (`disagreement`): agent `i` is missing on
one side or has another id (a disagreement at step position `0` only, hiding the agent's steps), or
the agents' steps at `j` differ in presence, kind or status. The walk answers nothing exactly when no
position disagrees, that is when the agent lists agree position by position (`AgentRun.Agrees`), and
otherwise it answers the lexicographically least disagreeing position with its reason
(`firstDivergence_lex_least`).

The argument follows the two walks: each recursive call moves one position on, so a disagreement
the walk reports at its `k`-th call sits at position `k` and every earlier position agrees.
-/

namespace RunJournal

/-- Two steps at one position agree: same kind and same status. -/
def Step.Agrees (s s' : Step) : Prop := s.kind = s'.kind ∧ s.status = s'.status

/-- Two agents at one position agree: same id, and steps that agree position by position. -/
def AgentRun.Agrees (a a' : AgentRun) : Prop :=
  a.id = a'.id ∧ List.Forall₂ Step.Agrees a.steps a'.steps

/-- Why two step lists disagree at position `j`, if they do: one has no step there, or the kinds
differ, or the statuses differ. -/
def stepDisagreement (bs ts : List Step) (j : Nat) : Option String :=
  match bs[j]?, ts[j]? with
  | some b, some t =>
    if b.kind ≠ t.kind then some ("step type differs: " ++ b.kind.name ++ " vs " ++ t.kind.name)
    else if b.status ≠ t.status then
      some ("step status differs: " ++ b.status.name ++ " vs " ++ t.status.name)
    else none
  | some _, none => some "trace ended"
  | none, some _ => some "trace ended"
  | none, none => none

/-- Why two agent lists disagree at position `(i, j)`, if they do. An agent missing on one side, or
two agents of different ids, disagree at `(i, 0)` only; two agents of one id disagree where their
steps do. -/
def disagreement (bs ts : List AgentRun) (i j : Nat) : Option String :=
  match bs[i]?, ts[i]? with
  | some b, some t =>
    if b.id ≠ t.id then (if j = 0 then some ("agent differs: " ++ b.id ++ " vs " ++ t.id) else none)
    else stepDisagreement b.steps t.steps j
  | some _, none => if j = 0 then some "trace ended" else none
  | none, some _ => if j = 0 then some "trace ended" else none
  | none, none => none

/-! ## Reading positions -/

section Positions

variable {b t : Step} {bs ts : List Step} {a a' : AgentRun} {as as' : List AgentRun}

@[simp] theorem stepDisagreement_cons_succ (j : Nat) :
    stepDisagreement (b :: bs) (t :: ts) (j + 1) = stepDisagreement bs ts j := by
  simp [stepDisagreement]

theorem stepDisagreement_zero_of_agrees (h : b.Agrees t) :
    stepDisagreement (b :: bs) (t :: ts) 0 = none := by
  simp [stepDisagreement, h.1, h.2]

@[simp] theorem stepDisagreement_nil_nil (j : Nat) : stepDisagreement [] [] j = none := rfl

@[simp] theorem disagreement_cons_succ (i j : Nat) :
    disagreement (a :: as) (a' :: as') (i + 1) j = disagreement as as' i j := by
  simp [disagreement]

@[simp] theorem disagreement_nil_nil (i j : Nat) : disagreement [] [] i j = none := rfl

theorem disagreement_zero_of_id_eq (h : a.id = a'.id) (j : Nat) :
    disagreement (a :: as) (a' :: as') 0 j = stepDisagreement a.steps a'.steps j := by
  simp [disagreement, h]

/-- Step lists agree position by position exactly when no position disagrees. -/
theorem forall₂_agrees_iff_stepDisagreement :
    List.Forall₂ Step.Agrees bs ts ↔ ∀ j, stepDisagreement bs ts j = none := by
  induction bs generalizing ts with
  | nil =>
    cases ts with
    | nil => simp
    | cons t ts =>
      refine ⟨fun h => ?_, fun hall => ?_⟩
      · cases h
      · simpa [stepDisagreement] using hall 0
  | cons b bs ih =>
    cases ts with
    | nil =>
      refine ⟨fun h => ?_, fun hall => ?_⟩
      · cases h
      · simpa [stepDisagreement] using hall 0
    | cons t ts =>
      rw [List.forall₂_cons, ih]
      constructor
      · rintro ⟨hbt, hrest⟩ (_ | j)
        · exact stepDisagreement_zero_of_agrees hbt
        · rw [stepDisagreement_cons_succ]
          exact hrest j
      · intro hall
        have h0 := hall 0
        simp only [stepDisagreement, List.getElem?_cons_zero] at h0
        refine ⟨⟨?_, ?_⟩, fun j => by simpa using hall (j + 1)⟩ <;>
          split_ifs at h0 with hk hs <;> simp_all

/-- Agent lists agree position by position exactly when no position disagrees. -/
theorem forall₂_agrees_iff_disagreement :
    List.Forall₂ AgentRun.Agrees as as' ↔ ∀ i j, disagreement as as' i j = none := by
  induction as generalizing as' with
  | nil =>
    cases as' with
    | nil => simp
    | cons a' as' =>
      refine ⟨fun h => ?_, fun hall => ?_⟩
      · cases h
      · simpa [disagreement] using hall 0 0
  | cons a as ih =>
    cases as' with
    | nil =>
      refine ⟨fun h => ?_, fun hall => ?_⟩
      · cases h
      · simpa [disagreement] using hall 0 0
    | cons a' as' =>
      rw [List.forall₂_cons, ih]
      constructor
      · rintro ⟨⟨hid, hsteps⟩, hrest⟩ (_ | i) j
        · rw [disagreement_zero_of_id_eq hid]
          exact forall₂_agrees_iff_stepDisagreement.1 hsteps j
        · rw [disagreement_cons_succ]
          exact hrest i j
      · intro hall
        have hid : a.id = a'.id := by
          by_contra hne
          simpa [disagreement, hne] using hall 0 0
        refine ⟨⟨hid, forall₂_agrees_iff_stepDisagreement.2 fun j => ?_⟩,
          fun i j => by simpa using hall (i + 1) j⟩
        rw [← disagreement_zero_of_id_eq hid]
        exact hall 0 j

end Positions

/-! ## The step walk -/

section StepWalk

variable {ai : Nat} {id : String}

/-- The step walk finds nothing exactly when the steps agree position by position. -/
theorem stepsDivergence_eq_none_iff (si : Nat) (bs ts : List Step) :
    stepsDivergence ai id si bs ts = none ↔ List.Forall₂ Step.Agrees bs ts := by
  fun_induction stepsDivergence ai id si bs ts with
  | case1 si b bs t ts hk => simp [Step.Agrees, hk]
  | case2 si b bs t ts hk hs => simp [Step.Agrees, hs]
  | case3 si b bs t ts hk hs ih =>
    rw [ih, List.forall₂_cons]
    simp only [not_not] at hk hs
    simp [Step.Agrees, hk, hs]
  | case4 => simp
  | case5 => simp
  | case6 => simp

/-- What the step walk started at step position `si` reports sits at the first disagreeing
position `j` of the two lists, as step position `si + j` of agent `ai`. -/
theorem stepsDivergence_eq_some {si : Nat} {bs ts : List Step} {d : Divergence}
    (h : stepsDivergence ai id si bs ts = some d) :
    d.agentIndex = ai ∧ ∃ j, d.stepIndex = si + j ∧ stepDisagreement bs ts j = some d.reason ∧
      ∀ j' < j, stepDisagreement bs ts j' = none := by
  fun_induction stepsDivergence ai id si bs ts generalizing d with
  | case1 si b bs t ts hk =>
    cases h
    exact ⟨rfl, 0, rfl, by simp [stepDisagreement, hk], by simp⟩
  | case2 si b bs t ts hk hs =>
    cases h
    simp only [not_not] at hk
    exact ⟨rfl, 0, rfl, by simp [stepDisagreement, hk, hs], by simp⟩
  | case3 si b bs t ts hk hs ih =>
    obtain ⟨hai, j, hsi, hreason, hbefore⟩ := ih h
    simp only [not_not] at hk hs
    refine ⟨hai, j + 1, by omega, by simpa using hreason, ?_⟩
    rintro (_ | j') hj'
    · exact stepDisagreement_zero_of_agrees ⟨hk, hs⟩
    · rw [stepDisagreement_cons_succ]
      exact hbefore j' (by omega)
  | case4 si t ts =>
    cases h
    exact ⟨rfl, 0, rfl, rfl, by simp⟩
  | case5 si b bs =>
    cases h
    exact ⟨rfl, 0, rfl, rfl, by simp⟩
  | case6 => cases h

end StepWalk

/-! ## The agent walk -/

/-- The agent walk finds nothing exactly when the agents agree position by position. -/
theorem agentsDivergence_eq_none_iff (ai : Nat) (as as' : List AgentRun) :
    agentsDivergence ai as as' = none ↔ List.Forall₂ AgentRun.Agrees as as' := by
  fun_induction agentsDivergence ai as as' with
  | case1 ai a as a' as' hid => simp [AgentRun.Agrees, hid]
  | case2 ai a as a' as' hid d hsteps =>
    have hne : ¬ List.Forall₂ Step.Agrees a.steps a'.steps := by
      rw [← @stepsDivergence_eq_none_iff ai a.id 0, hsteps]
      simp
    simp [AgentRun.Agrees, hne]
  | case3 ai a as a' as' hid hsteps ih =>
    simp only [not_not] at hid
    rw [ih, List.forall₂_cons, AgentRun.Agrees]
    simp [hid, (stepsDivergence_eq_none_iff 0 _ _).1 hsteps]
  | case4 => simp
  | case5 => simp
  | case6 => simp

/-- What the agent walk started at agent position `ai` reports sits at the first agent position
`i` holding a disagreement, as agent position `ai + i`, at the first disagreeing step position
there. -/
theorem agentsDivergence_eq_some {ai : Nat} {as as' : List AgentRun} {d : Divergence}
    (h : agentsDivergence ai as as' = some d) :
    ∃ i, d.agentIndex = ai + i ∧ disagreement as as' i d.stepIndex = some d.reason ∧
      (∀ i' < i, ∀ j, disagreement as as' i' j = none) ∧
      ∀ j < d.stepIndex, disagreement as as' i j = none := by
  fun_induction agentsDivergence ai as as' generalizing d with
  | case1 ai a as a' as' hid =>
    cases h
    exact ⟨0, rfl, by simp [disagreement, hid], by simp, by simp⟩
  | case2 ai a as a' as' hid d' hsteps =>
    cases h
    simp only [not_not] at hid
    obtain ⟨hai, j, hsi, hreason, hbefore⟩ := stepsDivergence_eq_some hsteps
    refine ⟨0, hai, ?_, by simp, fun j' hj' => ?_⟩
    · rw [disagreement_zero_of_id_eq hid, hsi, Nat.zero_add]
      exact hreason
    · rw [disagreement_zero_of_id_eq hid]
      exact hbefore j' (by omega)
  | case3 ai a as a' as' hid hsteps ih =>
    obtain ⟨i, hai, hreason, hbefore, hsteps'⟩ := ih h
    simp only [not_not] at hid
    have hagree := (forall₂_agrees_iff_stepDisagreement.1
      ((stepsDivergence_eq_none_iff 0 _ _).1 hsteps))
    refine ⟨i + 1, by omega, by simpa using hreason, ?_, by simpa using hsteps'⟩
    rintro (_ | i') hi' j
    · rw [disagreement_zero_of_id_eq hid]
      exact hagree j
    · rw [disagreement_cons_succ]
      exact hbefore i' (by omega) j
  | case4 ai a' as' =>
    cases h
    exact ⟨0, rfl, rfl, by simp, by simp⟩
  | case5 ai a as =>
    cases h
    exact ⟨0, rfl, rfl, by simp, by simp⟩
  | case6 => cases h

/-! ## The first divergence -/

/-- The first divergence of two traces is their lexicographically least disagreeing position.
It is absent exactly when the agent lists agree position by position (same length, same ids, and
steps of the same number, kinds and statuses), equivalently when no position disagrees; when
present, its position disagrees for the reason it gives, and every disagreeing position comes at
or after it, agent position first. -/
theorem firstDivergence_lex_least (b t : Trace) :
    (firstDivergence b t = none ↔ List.Forall₂ AgentRun.Agrees b.agents t.agents) ∧
    (firstDivergence b t = none ↔ ∀ i j, disagreement b.agents t.agents i j = none) ∧
    ∀ d, firstDivergence b t = some d →
      disagreement b.agents t.agents d.agentIndex d.stepIndex = some d.reason ∧
      ∀ i j, disagreement b.agents t.agents i j ≠ none →
        d.agentIndex < i ∨ (d.agentIndex = i ∧ d.stepIndex ≤ j) := by
  have hnone := agentsDivergence_eq_none_iff 0 b.agents t.agents
  refine ⟨hnone, hnone.trans forall₂_agrees_iff_disagreement, fun d hd => ?_⟩
  obtain ⟨k, hk, hreason, hbefore, hsteps⟩ := agentsDivergence_eq_some hd
  rw [Nat.zero_add] at hk
  subst hk
  refine ⟨hreason, fun i j hij => ?_⟩
  rcases Nat.lt_trichotomy d.agentIndex i with hlt | rfl | hgt
  · exact .inl hlt
  · exact .inr ⟨rfl, Nat.le_of_not_lt fun hj => hij (hsteps j hj)⟩
  · exact absurd (hbefore i hgt j) hij

end RunJournal
