import RunJournal.Diff.Basic
import Mathlib.Data.List.ReduceOption
/-!
# The measured changes of a comparison

`changesBetween` measures six values of each trace: the number of `LLM` steps, their saturating token
and latency totals, the number of `TOOL` steps, the run status and the number of incidents. Its
reference reading (`referenceChanges`) lists, in that order, one change for each value that
differs, both sides written in decimal (the latency with `ms`). A change of a step value points at
a step: in the two typed step lists (the steps of one kind with their flat index over all agents),
take the first position where the lists part on the compared key, one side having a value there
that the other lacks or holds differently (`FirstPartIndex`); the change points at the target's step
there, else at the baseline's. Run status and incident count point at index `0`.

`compare_changes_reference` states that the comparison's change list is this reading, with its
verdict and counts read off the list. The pointer lemma `firstMismatch_eq_some_iff` carries the
step indices: a walk that stops at the first disagreement of two lists.
-/

namespace RunJournal

/-- `i` is the flat index of the step where two typed step lists first part on `key`: at the
first position `k` where one list holds a key the other lacks or holds differently, the target's
step when it has one there, else the baseline's. -/
def FirstPartIndex (key : Step → Nat) (bs ts : List (Nat × Step)) (i : Nat) : Prop :=
  ∃ k : Nat, (bs.map fun p => key p.2)[k]? ≠ (ts.map fun p => key p.2)[k]? ∧
    (∀ j < k, (bs.map fun p => key p.2)[j]? = (ts.map fun p => key p.2)[j]?) ∧
    (ts[k]?.or bs[k]?).map Prod.fst = some i

/-- The changes a comparison of `b` against `t` reports, in order, given the step each step value's
change points at: one change for each measured value that differs. -/
def referenceChanges (b t : Trace) (calls tokens latency tools : Nat) : List Change :=
  let bl := b.steps.filter (·.kind == .llm)
  let tl := t.steps.filter (·.kind == .llm)
  let bt := b.steps.filter (·.kind == .tool)
  let tt := t.steps.filter (·.kind == .tool)
  List.reduceOption
    [ if bl.length = tl.length then none
      else some ⟨calls, .llm, "call_count", toString bl.length, toString tl.length⟩,
      if satSum (bl.map Step.tokens) = satSum (tl.map Step.tokens) then none
      else some ⟨tokens, .llm, "tokens", toString (satSum (bl.map Step.tokens)),
        toString (satSum (tl.map Step.tokens))⟩,
      if satSum (bl.map Step.latency) = satSum (tl.map Step.latency) then none
      else some ⟨latency, .llm, "latency", toString (satSum (bl.map Step.latency)) ++ "ms",
        toString (satSum (tl.map Step.latency)) ++ "ms"⟩,
      if bt.length = tt.length then none
      else some ⟨tools, .tool, "call_count", toString bt.length, toString tt.length⟩,
      if b.status = t.status then none
      else some ⟨0, .metadata, "status", b.status.name, t.status.name⟩,
      if b.incidents.length = t.incidents.length then none
      else some ⟨0, .error, "error_count", toString b.incidents.length,
        toString t.incidents.length⟩ ]

/-! ## Where two typed step lists part -/

section FirstPart

variable {key : Step → Nat} {bs ts : List (Nat × Step)} {i : Nat}

theorem firstPartIndex_cons_of_key_eq {x y : Nat × Step} (h : key x.2 = key y.2) :
    FirstPartIndex key (x :: bs) (y :: ts) i ↔ FirstPartIndex key bs ts i := by
  constructor
  · rintro ⟨_ | k, hk, hbefore, hidx⟩
    · simp [h] at hk
    · exact ⟨k, by simpa using hk, fun j hj => by simpa using hbefore (j + 1) (by omega),
        by simpa using hidx⟩
  · rintro ⟨k, hk, hbefore, hidx⟩
    refine ⟨k + 1, by simpa using hk, ?_, by simpa using hidx⟩
    rintro (_ | j) hj
    · simp [h]
    · simpa using hbefore j (by omega)

theorem firstPartIndex_of_head_ne
    (h : (bs.map fun p => key p.2)[0]? ≠ (ts.map fun p => key p.2)[0]?) :
    FirstPartIndex key bs ts i ↔ (ts[0]?.or bs[0]?).map Prod.fst = some i := by
  constructor
  · rintro ⟨_ | k, -, hbefore, hidx⟩
    · exact hidx
    · exact absurd (hbefore 0 (by omega)) h
  · intro hidx
    exact ⟨0, h, by simp, hidx⟩

/-- The walk finds no parting exactly when the two lists carry the same keys. -/
theorem firstMismatch_eq_none_iff :
    firstMismatch key bs ts = none ↔ (bs.map fun p => key p.2) = ts.map fun p => key p.2 := by
  fun_induction firstMismatch key bs ts with
  | case1 _ b bs i t ts hne => simp [hne]
  | case2 _ b bs i t ts heq ih =>
    simp only [not_not] at heq
    simp [ih, heq]
  | case3 => simp
  | case4 => simp
  | case5 => simp

theorem firstMismatch_eq_some_iff :
    firstMismatch key bs ts = some i ↔ FirstPartIndex key bs ts i := by
  fun_induction firstMismatch key bs ts with
  | case1 x b bs j t ts hne =>
    rw [firstPartIndex_of_head_ne (by simpa using hne)]
    simp [eq_comm]
  | case2 x b bs j t ts heq ih =>
    simp only [not_not] at heq
    rw [firstPartIndex_cons_of_key_eq heq]
    exact ih
  | case3 j t ts =>
    rw [firstPartIndex_of_head_ne (by simp)]
    simp [eq_comm]
  | case4 j b bs =>
    rw [firstPartIndex_of_head_ne (by simp)]
    simp [eq_comm]
  | case5 =>
    simp only [reduceCtorEq, false_iff]
    rintro ⟨k, hk, -⟩
    exact hk rfl

/-- Where the keys differ, the walk reports the step where the lists first part. -/
theorem firstPartIndex_getD_of_ne
    (h : (bs.map fun p => key p.2) ≠ ts.map fun p => key p.2) :
    FirstPartIndex key bs ts ((firstMismatch key bs ts).getD 0) := by
  cases hm : firstMismatch key bs ts with
  | none => exact absurd (firstMismatch_eq_none_iff.1 hm) h
  | some i => exact firstMismatch_eq_some_iff.1 hm

end FirstPart

/-! ## The typed step lists -/

/-- A value read from each step of a typed step list is that value over the trace's steps of the
kind. -/
theorem stepsOfKind_map {β : Type} (t : Trace) (k : StepKind) (f : Step → β) :
    ((t.stepsOfKind k).map fun p => f p.2) = (t.steps.filter (·.kind == k)).map f := by
  have hfst : (t.steps.zipIdx.filter (·.1.kind == k)).map Prod.fst = t.steps.filter (·.kind == k) := by
    rw [show (fun p : Step × Nat => p.1.kind == k) = (fun s : Step => s.kind == k) ∘ Prod.fst
      from rfl, ← List.filter_map, List.zipIdx_map_fst]
  rw [Trace.stepsOfKind, List.map_map, ← hfst, List.map_map]
  rfl

theorem stepsOfKind_length (t : Trace) (k : StepKind) :
    (t.stepsOfKind k).length = (t.steps.filter (·.kind == k)).length := by
  simpa using congrArg List.length (stepsOfKind_map t k id)

theorem map_const_ne_of_length_ne {bs ts : List (Nat × Step)} (h : bs.length ≠ ts.length) :
    (bs.map fun p => (fun _ => 0 : Step → Nat) p.2) ≠ ts.map fun p => (fun _ => 0 : Step → Nat) p.2 :=
  fun heq => h (by simpa using congrArg List.length heq)

/-! ## The change list -/

theorem reduceOption_cons_eq {α : Type} (o : Option α) (l : List (Option α)) :
    (o :: l).reduceOption = o.toList ++ l.reduceOption := by
  cases o <;> simp [List.reduceOption_cons_of_some, List.reduceOption_cons_of_none]

theorem ite_nil_eq_toList {α : Type} (p : Prop) [Decidable p] (x : α) :
    (if p then [] else [x]) = (if p then none else some x).toList := by
  split <;> rfl

theorem changeIf_eq (category : Category) (field : String) (b t : Nat) (index : Option Nat)
    (show_ : Nat → String) :
    changeIf category field b t index show_ =
      (if b = t then none
       else some ⟨index.getD 0, category, field, show_ b, show_ t⟩).toList := by
  unfold changeIf
  split <;> rfl

/-- The measured changes are the reference reading, each step value's change pointing where the
walk over its typed step lists stops. -/
theorem changesBetween_eq_reference (b t : Trace) :
    changesBetween b t = referenceChanges b t
      ((firstMismatch (fun _ => 0) (b.stepsOfKind .llm) (t.stepsOfKind .llm)).getD 0)
      ((firstMismatch Step.tokens (b.stepsOfKind .llm) (t.stepsOfKind .llm)).getD 0)
      ((firstMismatch Step.latency (b.stepsOfKind .llm) (t.stepsOfKind .llm)).getD 0)
      ((firstMismatch (fun _ => 0) (b.stepsOfKind .tool) (t.stepsOfKind .tool)).getD 0) := by
  simp only [changesBetween, referenceChanges, changeIf_eq, reduceOption_cons_eq,
    List.reduceOption_nil, List.append_nil, List.append_assoc, stepsOfKind_length,
    stepsOfKind_map, ite_nil_eq_toList, Option.getD_none]

/-- The comparison's changes are the reference reading: in order, one change for each measured
value that differs (the numbers of `LLM` and `TOOL` steps, the saturating `LLM` token and latency
totals, the run status, the number of incidents), each step value's change pointing at the step
where the typed step lists first part on that value. The verdict is `IDENTICAL` without changes,
else `FAILED` with an incident change, else `CHANGED`; the counts count the changes by category. -/
theorem compare_changes_reference (b t : Trace) :
    ∃ calls tokens latency tools : Nat,
      ((b.steps.filter (·.kind == .llm)).length ≠ (t.steps.filter (·.kind == .llm)).length →
        FirstPartIndex (fun _ => 0) (b.stepsOfKind .llm) (t.stepsOfKind .llm) calls) ∧
      (satSum ((b.steps.filter (·.kind == .llm)).map Step.tokens) ≠
          satSum ((t.steps.filter (·.kind == .llm)).map Step.tokens) →
        FirstPartIndex Step.tokens (b.stepsOfKind .llm) (t.stepsOfKind .llm) tokens) ∧
      (satSum ((b.steps.filter (·.kind == .llm)).map Step.latency) ≠
          satSum ((t.steps.filter (·.kind == .llm)).map Step.latency) →
        FirstPartIndex Step.latency (b.stepsOfKind .llm) (t.stepsOfKind .llm) latency) ∧
      ((b.steps.filter (·.kind == .tool)).length ≠ (t.steps.filter (·.kind == .tool)).length →
        FirstPartIndex (fun _ => 0) (b.stepsOfKind .tool) (t.stepsOfKind .tool) tools) ∧
      (compare b t).changes = referenceChanges b t calls tokens latency tools ∧
      (compare b t).verdict =
        (if (compare b t).changes = [] then .identical
         else if ∃ c ∈ (compare b t).changes, c.category = .error then .failed
         else .changed) ∧
      (compare b t).counts = Counts.ofChanges (compare b t).changes := by
  refine ⟨_, _, _, _, fun h => firstPartIndex_getD_of_ne (map_const_ne_of_length_ne ?_),
    fun h => firstPartIndex_getD_of_ne fun heq => h ?_,
    fun h => firstPartIndex_getD_of_ne fun heq => h ?_,
    fun h => firstPartIndex_getD_of_ne (map_const_ne_of_length_ne ?_),
    changesBetween_eq_reference b t, ?_, rfl⟩
  · rwa [stepsOfKind_length, stepsOfKind_length]
  · rw [← stepsOfKind_map, ← stepsOfKind_map, heq]
  · rw [← stepsOfKind_map, ← stepsOfKind_map, heq]
  · rwa [stepsOfKind_length, stepsOfKind_length]
  · simp only [compare, List.isEmpty_iff, List.any_eq_true, beq_iff_eq]

end RunJournal
