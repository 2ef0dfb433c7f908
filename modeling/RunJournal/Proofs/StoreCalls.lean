import RunJournal.Proofs.RunOps
/-!
# The calls that write a run, as one family

The store writes a run through nine calls: starting it, the five changes through `mutate`
(starting and completing an agent, adding a step, an artifact or an incident), completing it,
logging a line, and recovering its snapshot. `StoreOp` names them with their arguments, and
`StoreOp.run` makes one through a store on a run, giving the trace the call returns, if any.

`RunFiles.call_run` says what any of them does from files that satisfy `RunFiles` with the whole
log known: the files satisfy it again over a log changed as `StoreOp.Effect` says, and the clock
has been read at most twice. A call's event is its own (`StoreOp.Makes`): the run's, with the
call's kind and agent; a step without times is stamped with the first reading.
-/

namespace RunJournal

/-- A call that writes a run, with its arguments. -/
inductive StoreOp where
  | startRun (name : String) (specs : List AgentSpec) (exec : Execution)
  | startAgent (agentId : String)
  | addStep (agentId : String) (step : Step)
  | addArtifact (artifact : Artifact)
  | addIncident (incident : Incident)
  | completeAgent (agentId : String) (status : AgentStatus) (error : Option String)
  | completeRun (status : RunStatus)
  | log (level component message : String)
  | recoverRun

namespace StoreOp

/-- Makes the call on the run `runId` of `projectId` through the store `s`, giving the trace it
returns, if it returns one. -/
def run (s : Store) (projectId runId : String) : StoreOp → WorldE StoreError (Option Trace)
  | .startRun name specs exec => do
    let t ← s.startRun runId projectId name specs exec
    pure (some t)
  | .startAgent agentId => do
    let _ ← s.startAgent runId projectId agentId
    pure none
  | .addStep agentId step => do
    let _ ← s.addStep runId projectId agentId step
    pure none
  | .addArtifact artifact => do
    let _ ← s.addArtifact runId projectId artifact
    pure none
  | .addIncident incident => do
    let _ ← s.addIncident runId projectId incident
    pure none
  | .completeAgent agentId status error => do
    let _ ← s.completeAgent runId projectId agentId status error
    pure none
  | .completeRun status => do
    let t ← s.completeRun runId projectId status
    pure (some t)
  | .log level component message => do
    let _ ← s.log runId projectId level component message
    pure none
  | .recoverRun => do
    let t ← s.recoverRun projectId runId
    pure (some t)

/-- What the arguments need for the event to be stored faithfully: instants that read back and
numbers that fit their widths. -/
def Storable : StoreOp → Prop
  | .startRun _ specs exec => specs.length ≤ wordMax ∧ exec.Storable
  | .addStep _ step => step.Storable
  | .addArtifact artifact => artifact.Storable
  | .addIncident incident => incident.Storable
  | _ => True

/-- The event the call appends to the run `x`, as far as the call decides it: the run's, with the
call's agent and kind. A step with neither time is stamped as started. -/
def Makes (x : RunSite) : StoreOp → Event → Prop
  | .startRun name specs exec, ev => ev.runId = x.run ∧ ev.kind = .runStarted name specs exec
  | .startAgent agentId, ev =>
    ev.runId = x.run ∧ ev.agentId = some agentId ∧ ev.kind = .agentStarted
  | .addStep agentId step, ev =>
    ev.runId = x.run ∧ ev.agentId = some agentId ∧
      (ev.kind = .stepAdded step ∨ ∃ t, step.startedAt = none ∧ step.endedAt = none ∧
        ev.kind = .stepAdded { step with startedAt := some t })
  | .addArtifact artifact, ev =>
    ev.runId = x.run ∧ ev.agentId = Store.nonEmpty artifact.createdBy ∧
      ev.kind = .artifactAdded artifact
  | .addIncident incident, ev =>
    ev.runId = x.run ∧ ev.agentId = Store.nonEmpty incident.agent ∧
      ev.kind = .incidentAdded incident
  | .completeAgent agentId status error, ev =>
    ev.runId = x.run ∧ ev.agentId = some agentId ∧ ev.kind = .agentCompleted status error
  | .completeRun status, ev =>
    ev.runId = x.run ∧ ev.agentId = none ∧ ev.kind = .runCompleted status
  | .log level component message, ev =>
    ev.runId = x.run ∧ ev.kind = .log level component message
  | .recoverRun, _ => False

/-- A trace the call returns is the one the log rebuilds. -/
def Answers (o : Option Trace) (E : List Event) : Prop := ∀ t, o = some t → Rebuilds t E

/-- What the call did to a log holding `E`: recovering leaves it as it was and returns the trace
it rebuilds; every other call changed it as `Changed` says, with its own event. -/
def Effect (x : RunSite) : StoreOp → List Event → Except StoreError (Option Trace) → List Event → Prop
  | .recoverRun, E, r, E' => E' = E ∧ Answers (r.toOption.join) E
  | op, E, r, E' => Changed (op.Makes x) Answers E r E'

end StoreOp

/-- The clock reads instants that print and parse back for its next `n` readings. -/
def ClockReads (c : Instant) (n : Nat) : Prop := ∀ k < n, (c.after k).Reparses

/-! ## Results passed on -/

section Results

variable {ε α β : Type}

/-- A call whose result is turned into another, run where the call gave `(r, w')`. -/
theorem WorldE.run_bind_pure {m : WorldE ε α} {f : α → β} {w w' : World} {r : Except ε α}
    (hm : m.run.run w = (r, w')) : (m >>= fun a => pure (f a)).run.run w = (r.map f, w') := by
  rw [WorldE.run_bind, hm]
  cases r <;> rfl

theorem Changed.map {P : Event → Prop} {Q : α → List Event → Prop} {Q' : β → List Event → Prop}
    {E E' : List Event} {r : Except StoreError α} (h : Changed P Q E r E') (f : α → β)
    (hf : ∀ a E₁, Q a E₁ → Q' (f a) E₁) : Changed P Q' E (r.map f) E' := by
  cases h with
  | appended hP hQ => exact .appended hP (hf _ _ hQ)
  | kept => exact .kept
  | left hio hP => exact .left hio hP

theorem Changed.imp {P P' : Event → Prop} {Q : α → List Event → Prop} {E E' : List Event}
    {r : Except StoreError α} (h : Changed P Q E r E') (hP : ∀ ev, P ev → P' ev) :
    Changed P' Q E r E' := by
  cases h with
  | appended hp hQ => exact .appended (hP _ hp) hQ
  | kept => exact .kept
  | left hio hp => exact .left hio (hP _ hp)

end Results

section Leaving

variable {α β : Type} {x : RunSite} {c : Instant} {E : List Event} {k : Nat} {P : Event → Prop}
  {Q : α → List Event → Prop}

theorem Leaves.bind_pure {m : WorldE StoreError α} {w : World} (h : Leaves x c E k P Q (m.run.run w))
    {f : α → β} {Q' : β → List Event → Prop} (hf : ∀ a E₁, Q a E₁ → Q' (f a) E₁) :
    Leaves x c E k P Q' ((m >>= fun a => pure (f a)).run.run w) := by
  rcases hm : m.run.run w with ⟨r, w'⟩
  rw [hm] at h
  rw [WorldE.run_bind_pure hm]
  obtain ⟨hc, E', h', hch⟩ := h
  exact ⟨hc, E', h', hch.map f hf⟩

theorem Leaves.imp {r : Except StoreError α × World} (h : Leaves x c E k P Q r) {P' : Event → Prop}
    (hP : ∀ ev, P ev → P' ev) : Leaves x c E k P' Q r := by
  obtain ⟨hc, E', h', hch⟩ := h
  exact ⟨hc, E', h', hch.imp hP⟩

theorem Leaves.mono {r : Except StoreError α × World} (h : Leaves x c E k P Q r) {k' : Nat}
    (hk : k ≤ k') : Leaves x c E k' P Q r := by
  obtain ⟨⟨j, hj, hc⟩, rest⟩ := h
  exact ⟨⟨j, by omega, hc⟩, rest⟩

end Leaving

theorem ClockReads.after {c : Instant} {n j : Nat} (h : ClockReads c (n + j)) :
    ClockReads (c.after j) n := by
  intro k hk
  rw [← Instant.after_add]
  exact h (j + k) (by omega)

namespace RunFiles

variable {x : RunSite} {w : World} {E : List Event}

theorem mutate_discard_run (h : RunFiles x w E E.length) {s : Store} (hs : s.root = x.root)
    (hshort : E.length + 1 < wordMax) (agentId : Option String) (kind : EventKind)
    (hkind : kind.Storable) (hclock : w.clock.Reparses) :
    Leaves x w.clock E 1 (fun ev => ev.runId = x.run ∧ ev.agentId = agentId ∧ ev.kind = kind)
      (fun _ _ => True) ((s.mutate x.run x.project agentId kind >>= fun _ => pure ()).run.run w) :=
  (h.mutate_run hs hshort agentId kind hkind hclock).bind_pure fun _ _ _ => trivial

/-- Adding a step: one with neither time is stamped with the clock's first reading, then the
step is a change through `mutate`. -/
theorem addStep_run (h : RunFiles x w E E.length) {s : Store} (hs : s.root = x.root)
    (hshort : E.length + 1 < wordMax) (agentId : String) (step : Step) (hstep : step.Storable)
    (hclock : ClockReads w.clock 2) :
    Leaves x w.clock E 2 ((StoreOp.addStep agentId step).Makes x) (fun _ _ => True)
      ((s.addStep x.run x.project agentId step).run.run w) := by
  unfold Store.addStep
  by_cases hbare : step.startedAt.isNone = true ∧ step.endedAt.isNone = true
  · rw [if_pos hbare]
    have hnow : (liftM now : WorldE StoreError Instant).run.run w =
        (.ok w.clock, { w with clock := w.clock.addMicros 1 }) := rfl
    rw [WorldE.bind_run_ok hnow, WorldE.bind_run_ok (WorldE.run_pure _ _)]
    dsimp only
    have h₁ : RunFiles x { w with clock := w.clock.addMicros 1 } E E.length :=
      h.keep rfl rfl rfl h.noTears
    have hstore : ({ step with startedAt := some w.clock } : Step).Storable :=
      ⟨fun t ht => by cases ht; exact hclock 0 (by omega), hstep.endedAt, hstep.latency, hstep.detail⟩
    have hmakes : ∀ ev : Event, (ev.runId = x.run ∧ ev.agentId = some agentId ∧
        ev.kind = .stepAdded { step with startedAt := some w.clock }) →
          (StoreOp.addStep agentId step).Makes x ev := fun ev ⟨hrun, hagent, hkind⟩ =>
      ⟨hrun, hagent, .inr ⟨w.clock, Option.isNone_iff_eq_none.mp hbare.1,
        Option.isNone_iff_eq_none.mp hbare.2, hkind⟩⟩
    exact ((h₁.mutate_discard_run hs hshort (some agentId) (.stepAdded _) hstore
      (hclock 1 (by omega))).imp
      hmakes).after (Instant.after_one w.clock).symm
  · rw [if_neg hbare, WorldE.bind_run_ok (WorldE.run_pure _ _)]
    dsimp only
    have hmakes : ∀ ev : Event, (ev.runId = x.run ∧ ev.agentId = some agentId ∧
        ev.kind = .stepAdded step) → (StoreOp.addStep agentId step).Makes x ev :=
      fun ev ⟨hrun, hagent, hkind⟩ => ⟨hrun, hagent, .inl hkind⟩
    exact ((h.mutate_discard_run hs hshort (some agentId) (.stepAdded step) hstep
      (hclock 0 (by omega))).imp
      hmakes).mono (by omega)

/-- Every call on the run, from files that satisfy the invariant with the whole log known, leaves
files that satisfy it again over a log changed as the call's `Effect` says, the clock having read
at most two instants. -/
theorem call_run (h : RunFiles x w E E.length) {s : Store} (hs : s.root = x.root) (op : StoreOp)
    (hop : op.Storable) (hclock : ClockReads w.clock 2) (hshort : E.length + 1 < wordMax) :
    let r := (op.run s x.project x.run).run.run w
    (∃ j ≤ 2, r.2.clock = w.clock.after j) ∧ ∃ E', RunFiles x r.2 E' E'.length ∧ op.Effect x E r.1 E' := by
  have hc₀ : w.clock.Reparses := hclock 0 (by omega)
  have hnone : ∀ (u : Unit) E₁, (fun _ _ => True) u E₁ → StoreOp.Answers none E₁ :=
    fun _ _ _ t ht => by cases ht
  have hsome : ∀ t E₁, Rebuilds t E₁ → StoreOp.Answers (some t) E₁ :=
    fun t _ ht t' ht' => by cases ht'; exact ht
  dsimp only
  -- one case per call, each its own spec lemma; the answer kept is the trace, if any, it returns
  cases op <;> dsimp only [StoreOp.run]
  case startRun name specs exec =>
    exact ((h.startRun_run hs name specs exec hop.1 hop.2 hc₀).bind_pure hsome).mono (by omega)
  case startAgent agentId =>
    unfold Store.startAgent
    exact ((h.mutate_discard_run hs hshort (some agentId) .agentStarted trivial hc₀).bind_pure
      hnone).mono (by omega)
  case addStep agentId step =>
    exact (h.addStep_run hs hshort agentId step hop hclock).bind_pure hnone
  case addArtifact artifact =>
    unfold Store.addArtifact
    exact ((h.mutate_discard_run hs hshort _ (.artifactAdded artifact) hop hc₀).bind_pure
      hnone).mono (by omega)
  case addIncident incident =>
    unfold Store.addIncident
    exact ((h.mutate_discard_run hs hshort _ (.incidentAdded incident) hop hc₀).bind_pure
      hnone).mono (by omega)
  case completeAgent agentId status error =>
    unfold Store.completeAgent
    exact ((h.mutate_discard_run hs hshort (some agentId) (.agentCompleted status error) trivial
      hc₀).bind_pure hnone).mono (by omega)
  case completeRun status =>
    exact ((h.completeRun_run hs hshort status hc₀).bind_pure hsome).mono (by omega)
  case log level component message =>
    exact ((h.log_run hs hshort level component message hc₀).bind_pure hnone).mono (by omega)
  case recoverRun =>
    obtain ⟨hc, h', hans⟩ := h.recoverRun_run hs
    rcases hr : (s.recoverRun x.project x.run).run.run w with ⟨r, w'⟩
    rw [hr] at hc h' hans
    rw [WorldE.run_bind_pure hr]
    refine ⟨⟨0, by omega, hc⟩, E, h', rfl, ?_⟩
    cases r with
    | ok t => exact hsome t E (hans t rfl)
    | error err => exact fun _ hnone => by cases hnone

end RunFiles

end RunJournal
