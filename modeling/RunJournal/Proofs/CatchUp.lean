import RunJournal.Proofs.Lifecycle
/-!
# Three paths to one trace

A trace is kept in step with its log in three ways: events are applied as they come, a whole log is
rebuilt (`Trace.rebuild`), and an older snapshot is caught up with the log (`Trace.catchUp`). On a
log whose sequence numbers rise, the three agree: catching the trace rebuilt from a prefix up with
the whole log gives the trace rebuilt from the whole log, counting the events past the prefix that
changed it, and a second catch-up finds nothing to do (`catchUp_prefix_eq_rebuild`).

The watermark `lastSeq` carries the argument. An accepted event never moves it (`lastSeq_of_apply`)
and replaying a logged event raises it to the event's number (`applyLogged_lastSeq`), so a rebuilt
trace's watermark is the largest number of its log (`rebuild_watermark`). Catching up skips every
event at or below the watermark (`foldl_catchUpStep_of_le`), and on a rising log that is exactly
the prefix already replayed.
-/

namespace RunJournal

namespace Trace

variable {t t' u : Trace} {e : Event} {time : Instant}

/-! ## One event and the watermark -/

/-- A move changes agents, artifacts, incidents or the run's end, never the watermark. -/
theorem Move.lastSeq_eq (h : t.Move time u) : u.lastSeq = t.lastSeq := by
  cases h <;> rfl

theorem apply_log (hlog : e.kind.isLog = true) : t.apply e = .ok t := by
  simp [apply, hlog]

theorem lastSeq_of_apply (h : t.apply e = .ok t') : t'.lastSeq = t.lastSeq := by
  rcases apply_ok h with rfl | ⟨-, u, hm, rfl⟩
  · rfl
  · exact hm.lastSeq_eq

theorem applyLogged_of_ok (h : t.apply e = .ok t') :
    t.applyLogged e = ({ t' with lastSeq := max t.lastSeq e.seq }, !e.kind.isLog) := by
  simp [applyLogged, h, lastSeq_of_apply h]

theorem applyLogged_of_error {err : StoreError} (h : t.apply e = .error err) :
    t.applyLogged e = ({ t with lastSeq := max t.lastSeq e.seq }, false) := by
  simp [applyLogged, h]

/-- Replaying a logged event raises the watermark to its number, accepted or not. -/
theorem applyLogged_lastSeq (t : Trace) (e : Event) :
    (t.applyLogged e).1.lastSeq = max t.lastSeq e.seq := by
  cases h : t.apply e with
  | ok t' => rw [applyLogged_of_ok h]
  | error err => rw [applyLogged_of_error h]

/-- A replayed event changed the trace exactly when it is not a log line and was accepted. -/
theorem applyLogged_changed (t : Trace) (e : Event) :
    (t.applyLogged e).2 = (!e.kind.isLog && (t.apply e).isOk) := by
  cases h : t.apply e with
  | ok t' => rw [applyLogged_of_ok h]; cases e.kind.isLog <;> rfl
  | error err => rw [applyLogged_of_error h]; cases e.kind.isLog <;> rfl

theorem applyLogged_of_unchanged (h : (t.applyLogged e).2 = false) :
    (t.applyLogged e).1 = { t with lastSeq := max t.lastSeq e.seq } := by
  cases happ : t.apply e with
  | error err => rw [applyLogged_of_error happ]
  | ok t' =>
    rw [applyLogged_of_ok happ] at h ⊢
    have hlog : e.kind.isLog = true := by simpa using h
    rw [apply_log hlog, Except.ok.injEq] at happ
    subst happ
    rfl

/-! ## Rebuilding -/

/-- Replaying a list of logged events from `t` leaves the watermark at or above where it was and
at or above every event's number, and it is where it was or one of those numbers. -/
theorem foldl_applyLogged_watermark (t : Trace) (es : List Event) :
    t.lastSeq ≤ (es.foldl (fun t e => (t.applyLogged e).1) t).lastSeq ∧
      (∀ e ∈ es, e.seq ≤ (es.foldl (fun t e => (t.applyLogged e).1) t).lastSeq) ∧
      ((es.foldl (fun t e => (t.applyLogged e).1) t).lastSeq = t.lastSeq ∨
        (es.foldl (fun t e => (t.applyLogged e).1) t).lastSeq ∈ es.map (·.seq)) := by
  induction es generalizing t with
  | nil => simp
  | cons e es ih =>
    obtain ⟨hge, hall, hwhich⟩ := ih (t.applyLogged e).1
    rw [applyLogged_lastSeq] at hge hwhich
    simp only [List.foldl_cons, List.mem_cons, forall_eq_or_imp, List.map_cons]
    refine ⟨by omega, ⟨by omega, hall⟩, ?_⟩
    rcases hwhich with h | h
    · rw [h]
      by_cases hle : t.lastSeq ≤ e.seq
      · exact .inr (.inl (by omega))
      · exact .inl (by omega)
    · exact .inr (.inr h)

theorem rebuild_watermark {L : List Event} (h : rebuild L = some t) :
    (∀ e ∈ L, e.seq ≤ t.lastSeq) ∧ t.lastSeq ∈ L.map (·.seq) := by
  cases L with
  | nil => simp [rebuild] at h
  | cons first rest =>
    simp only [rebuild] at h
    split at h
    · cases h
      obtain ⟨hge, hall, hwhich⟩ := foldl_applyLogged_watermark
        ({ Trace.new first.runId (first.projectId.getD "") _ _ _ first.time with
          lastSeq := first.seq } : Trace) rest
      refine ⟨?_, ?_⟩
      · simp only [List.mem_cons, forall_eq_or_imp]
        exact ⟨hge, hall⟩
      · rcases hwhich with hw | hw
        · simp [hw]
        · exact List.mem_cons_of_mem _ hw
    · cases h

/-- Rebuilding a log one event longer replays that event on the shorter log's trace. -/
theorem rebuild_snoc {P : List Event} (hP : P ≠ []) (e : Event) :
    rebuild (P ++ [e]) = (rebuild P).map fun t => (t.applyLogged e).1 := by
  obtain ⟨first, rest, rfl⟩ := List.exists_cons_of_ne_nil hP
  simp only [List.cons_append, rebuild]
  split <;> simp [List.foldl_append]

/-! ## Catching up -/

theorem catchUpStep_of_le {acc : Trace × Nat} (h : e.seq ≤ acc.1.lastSeq) :
    catchUpStep acc e = acc := by
  simp [catchUpStep, Nat.not_lt.mpr h]

theorem catchUpStep_of_lt {acc : Trace × Nat} (h : acc.1.lastSeq < e.seq) :
    catchUpStep acc e =
      ((acc.1.applyLogged e).1, if (acc.1.applyLogged e).2 then acc.2 + 1 else acc.2) := by
  simp [catchUpStep, h]

theorem catchUpStep_count_le (acc : Trace × Nat) (e : Event) : acc.2 ≤ (catchUpStep acc e).2 := by
  by_cases hlt : acc.1.lastSeq < e.seq
  · rw [catchUpStep_of_lt hlt]
    split <;> omega
  · rw [catchUpStep_of_le (Nat.not_lt.mp hlt)]

theorem catchUpStep_of_count_eq {acc : Trace × Nat} (h : (catchUpStep acc e).2 = acc.2) :
    (catchUpStep acc e).1 = { acc.1 with lastSeq := (catchUpStep acc e).1.lastSeq } := by
  by_cases hlt : acc.1.lastSeq < e.seq
  · rw [catchUpStep_of_lt hlt] at h ⊢
    have hkept : (acc.1.applyLogged e).2 = false := by
      cases hc : (acc.1.applyLogged e).2
      · rfl
      · rw [hc, if_pos rfl] at h
        omega
    rw [applyLogged_of_unchanged hkept]
  · rw [catchUpStep_of_le (Nat.not_lt.mp hlt)]

theorem foldl_catchUpStep_count_le (es : List Event) (acc : Trace × Nat) :
    acc.2 ≤ (es.foldl catchUpStep acc).2 := by
  induction es generalizing acc with
  | nil => exact le_rfl
  | cons e es ih => exact (catchUpStep_count_le acc e).trans (ih _)

theorem foldl_catchUpStep_of_count_eq (es : List Event) (acc : Trace × Nat)
    (h : (es.foldl catchUpStep acc).2 = acc.2) :
    (es.foldl catchUpStep acc).1 = { acc.1 with lastSeq := (es.foldl catchUpStep acc).1.lastSeq } := by
  induction es generalizing acc with
  | nil => rfl
  | cons e es ih =>
    rw [List.foldl_cons] at h ⊢
    have hstep := catchUpStep_count_le acc e
    have hrest := foldl_catchUpStep_count_le es (catchUpStep acc e)
    rw [ih _ (by omega), catchUpStep_of_count_eq (by omega)]

/-- Events at or below the watermark are skipped, and skipping one leaves the watermark. -/
theorem foldl_catchUpStep_of_le {es : List Event} {acc : Trace × Nat}
    (h : ∀ e ∈ es, e.seq ≤ acc.1.lastSeq) : es.foldl catchUpStep acc = acc := by
  induction es with
  | nil => rfl
  | cons e es ih =>
    rw [List.foldl_cons, catchUpStep_of_le (h e List.mem_cons_self)]
    exact ih fun x hx => h x (List.mem_cons_of_mem _ hx)

/-- The event at position `i` of a log is not a log line, and the trace rebuilt from the events
before it accepts it. -/
def acceptedAt (L : List Event) (i : Nat) : Bool :=
  match rebuild (L.take i), L[i]? with
  | some t, some e => !e.kind.isLog && (t.apply e).isOk
  | _, _ => false

theorem acceptedAt_of_rebuild {L : List Event} {k : Nat} (hk : k < L.length)
    (hd : rebuild (L.take k) = some t) : acceptedAt L k = (t.applyLogged L[k]).2 := by
  rw [applyLogged_changed, acceptedAt, hd, List.getElem?_eq_getElem hk]

/-- On a rising log, catching the trace rebuilt from the first `k` events up with the events after
them replays each of those, counting those that change it. The induction is on how many events
are left; the trace rebuilt so far is the catch-up's state throughout. -/
theorem foldl_catchUpStep_drop {L : List Event} (hsorted : L.Pairwise (·.seq < ·.seq))
    {D : Trace} (hD : rebuild L = some D) :
    ∀ j k, k + j = L.length → 0 < k → ∀ d n, rebuild (L.take k) = some d →
      (L.drop k).foldl catchUpStep (d, n) = (D, n + (List.range' k j).countP (acceptedAt L)) := by
  intro j
  induction j with
  | zero =>
    intro k hk _ d n hd
    have hkl : L.take k = L := List.take_of_length_le (by omega)
    rw [hkl, hD, Option.some.injEq] at hd
    simp [List.drop_of_length_le (show L.length ≤ k by omega), hd]
  | succ j ih =>
    intro k hk hpos d n hd
    have hlt : k < L.length := by omega
    -- the next event lies above the watermark: the watermark is a number of the prefix
    have habove : d.lastSeq < L[k].seq := by
      obtain ⟨x, hx, hxseq⟩ := List.mem_map.mp (rebuild_watermark hd).2
      have hsplit := List.pairwise_append.mp ((L.take_append_drop k).symm ▸ hsorted)
      have hmem : L[k] ∈ L.drop k := by
        rw [List.drop_eq_getElem_cons hlt]
        exact List.mem_cons_self
      exact hxseq ▸ hsplit.2.2 x hx L[k] hmem
    have hnext : rebuild (L.take (k + 1)) = some (d.applyLogged L[k]).1 := by
      have hne : L.take k ≠ [] := List.ne_nil_of_length_pos (by rw [List.length_take]; omega)
      rw [List.take_succ_eq_append_getElem hlt, rebuild_snoc hne, hd, Option.map_some]
    rw [List.drop_eq_getElem_cons hlt, List.foldl_cons, catchUpStep_of_lt habove,
      ih (k + 1) (by omega) (by omega) _ _ hnext, List.range'_succ, List.countP_cons,
      acceptedAt_of_rebuild hlt hd]
    cases (d.applyLogged L[k]).2
    · simp
    · simp only [if_true, Prod.mk.injEq, true_and]
      omega

/-- Catching up the trace rebuilt from a non-empty prefix of a rising log that starts a run with the
whole log gives the trace rebuilt from the whole log, and counts the events past the prefix that
are not log lines and that the trace reached before them accepts. The rebuilt trace's watermark is
the largest sequence number of the log, and catching it up again with the log changes nothing. -/
theorem catchUp_prefix_eq_rebuild {first : Event} {rest P : List Event} {name : String}
    {specs : List AgentSpec} {exec : Execution} (hstart : first.kind = .runStarted name specs exec)
    (hsorted : (first :: rest).Pairwise (·.seq < ·.seq)) (hP : P <+: first :: rest) (hne : P ≠ []) :
    ∃ d D, rebuild P = some d ∧ rebuild (first :: rest) = some D ∧
      catchUp d (first :: rest) =
        (D, (List.range' P.length ((first :: rest).length - P.length)).countP
          (acceptedAt (first :: rest))) ∧
      (∀ e ∈ first :: rest, e.seq ≤ D.lastSeq) ∧ D.lastSeq ∈ (first :: rest).map (·.seq) ∧
      catchUp D (first :: rest) = (D, 0) := by
  set L := first :: rest with hL
  have hrebuilds : ∀ rest', ∃ d, rebuild (first :: rest') = some d := fun rest' => by
    simp [rebuild, hstart]
  obtain ⟨D, hD⟩ := hrebuilds rest
  have hPL : P = L.take P.length := List.prefix_iff_eq_take.mp hP
  have hlen : P.length ≤ L.length := hP.length_le
  obtain ⟨d, hd⟩ : ∃ d, rebuild P = some d := by
    obtain ⟨x, P', rfl⟩ := List.exists_cons_of_ne_nil hne
    have hx : x = first := (List.cons_prefix_cons.mp hP).1
    exact hx ▸ hrebuilds P'
  have hpos : 0 < P.length := List.length_pos_of_ne_nil hne
  have hskip : ∀ acc : Trace × Nat, acc.1 = d → (L.take P.length).foldl catchUpStep acc = acc :=
    fun acc hacc => foldl_catchUpStep_of_le fun x hx =>
      hacc ▸ (rebuild_watermark hd).1 x (hPL ▸ hx)
  refine ⟨d, D, hd, hD, ?_, (rebuild_watermark hD).1, (rebuild_watermark hD).2, ?_⟩
  · rw [catchUp, ← L.take_append_drop P.length, List.foldl_append, hskip (d, 0) rfl,
      L.take_append_drop]
    simpa using foldl_catchUpStep_drop hsorted hD (L.length - P.length) P.length (by omega) hpos d 0
      (hPL ▸ hd)
  · exact foldl_catchUpStep_of_le fun x hx => (rebuild_watermark hD).1 x hx

def demoStart : Event :=
  { seq := 1, time := ⟨0, 0, 0⟩, runId := "r1", projectId := some "p1", agentId := none,
    correlationId := "c-1", kind := .runStarted "demo" [⟨"a1", "executor", "x"⟩] Execution.default }

def demoAgentStart : Event :=
  { seq := 2, time := ⟨0, 20, 0⟩, runId := "r1", projectId := none, agentId := some "a1",
    correlationId := "c-2", kind := .agentStarted }

def demoToolStep : Event :=
  { seq := 3, time := ⟨0, 30, 0⟩, runId := "r1", projectId := none, agentId := some "a1",
    correlationId := "c-3", kind := .stepAdded (Step.tool "a1" "grep") }

/-- A snapshot taken before the tool step catches up to the whole log. -/
theorem catchUp_prefix_eq_rebuild_stale_snapshot :
    demoStart.kind = .runStarted "demo" [⟨"a1", "executor", "x"⟩] Execution.default ∧
      [demoStart, demoAgentStart, demoToolStep].Pairwise (·.seq < ·.seq) ∧
      [demoStart, demoAgentStart] <+: [demoStart, demoAgentStart, demoToolStep] ∧
      [demoStart, demoAgentStart] ≠ [] ∧
      ∃ d D, rebuild [demoStart, demoAgentStart] = some d ∧
        rebuild [demoStart, demoAgentStart, demoToolStep] = some D ∧
        catchUp d [demoStart, demoAgentStart, demoToolStep] =
          (D, (List.range' 2 (3 - 2)).countP (acceptedAt [demoStart, demoAgentStart, demoToolStep])) ∧
        (∀ e ∈ [demoStart, demoAgentStart, demoToolStep], e.seq ≤ D.lastSeq) ∧
        D.lastSeq ∈ [demoStart, demoAgentStart, demoToolStep].map (·.seq) ∧
        catchUp D [demoStart, demoAgentStart, demoToolStep] = (D, 0) :=
  ⟨rfl, by decide, ⟨[demoToolStep], rfl⟩, List.cons_ne_nil _ _,
    catchUp_prefix_eq_rebuild rfl (by decide) ⟨[demoToolStep], rfl⟩ (List.cons_ne_nil _ _)⟩

end Trace

end RunJournal
