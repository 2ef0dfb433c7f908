import RunJournal.Proofs.CatchUp
import RunJournal.Proofs.StoreReads
/-!
# Refusals

`Trace.apply` checks an event before it changes anything, and its checks come to a condition on
the trace and the event alone, `Trace.Refuses`: a finished run refuses everything but log lines,
and otherwise each kind of event has its own requirements, in the words of the reducer's own
contract. `apply_error_iff` says the reducer refuses exactly those events.

A store's change runs the same check between reading the run and writing anything, so a change the
trace refuses leaves the disk as it found it (`mutate_refused`): every step before the check only
reads, and every step after it fails only on the disk or in the serializer, never with a refusal.
-/

namespace RunJournal

/-! ## Plumbing -/

@[simp] theorem Except.ok_bind' {ε α β : Type} (a : α) (f : α → Except ε β) :
    (Except.ok a >>= f) = f a := rfl

@[simp] theorem Except.error_bind' {ε α β : Type} (e : ε) (f : α → Except ε β) :
    (Except.error e >>= f) = .error e := rfl

namespace Trace

variable {t : Trace} {e : Event}

/-! ## What the reducer refuses -/

/-- An event that must name an agent in status `status` names none, names one that is not
declared, or the first declared agent of that name is in another status. -/
def Unmatched (t : Trace) (agentId : Option String) (status : AgentStatus) : Prop :=
  agentId = none ∨ (∃ id, agentId = some id ∧ t.agent? id = none) ∨
    ∃ id a, agentId = some id ∧ t.agent? id = some a ∧ a.status ≠ status

/-- A step is refused when no agent has the step's own agent id, or the first agent of that id
has finished, or the event names another agent, or that agent has a step of the same id, or both
its last step and the new one carry a time and the new one is earlier. -/
def RefusesStep (t : Trace) (target : Option String) (s : Step) : Prop :=
  t.agent? s.agent = none ∨ ∃ a, t.agent? s.agent = some a ∧
    (a.status.isTerminal ∨ (∃ x, target = some x ∧ x ≠ s.agent) ∨ (∃ s' ∈ a.steps, s'.id = s.id) ∨
      ∃ last this, a.steps.getLast?.bind Step.timestamp = some last ∧ s.timestamp = some this ∧
        this < last)

/-- The events a trace refuses: every event but a log line once the run has finished, and
otherwise by kind. Artifacts, incidents and log lines are never refused by a running trace. -/
def Refuses (t : Trace) (e : Event) : Prop :=
  t.status.isTerminal ∨
    match e.kind with
    | .runStarted .. => True
    | .agentStarted => t.Unmatched e.agentId .pending
    | .agentCompleted status _ => status.isTerminal = false ∨ t.Unmatched e.agentId .running
    | .stepAdded s => t.RefusesStep e.agentId s
    | .runCompleted status => status.isTerminal = false
    | .artifactAdded _ | .incidentAdded _ | .log .. => False

theorem startAgent_error_iff :
    (∃ err, t.startAgent e = .error err) ↔ t.Unmatched e.agentId .pending := by
  unfold startAgent eventAgent findAgent Unmatched
  cases hid : e.agentId with
  | none => simp
  | some id =>
    cases ha : t.agent? id with
    | none => simp [ha]
    | some a => cases hs : a.status <;> simp [ha, hs, pure, Except.pure, throw, throwThe,
        MonadExceptOf.throw]

theorem completeAgent_error_iff {status : AgentStatus} {error : Option String} :
    (∃ err, t.completeAgent e status error = .error err) ↔
      status.isTerminal = false ∨ t.Unmatched e.agentId .running := by
  unfold completeAgent
  cases hterm : status.isTerminal
  · simp [throw, throwThe, MonadExceptOf.throw]
  unfold eventAgent findAgent Unmatched
  cases hid : e.agentId with
  | none => simp
  | some id =>
    cases ha : t.agent? id with
    | none => simp [ha]
    | some a => cases hs : a.status <;> simp [ha, hs, pure, Except.pure, throw, throwThe,
        MonadExceptOf.throw]

/-- The step check, once the agent is found: the checks after the lookup in order. -/
theorem addStep_error_iff {s : Step} :
    (∃ err, t.addStep e s = .error err) ↔ t.RefusesStep e.agentId s := by
  unfold addStep findAgent RefusesStep
  cases ha : t.agent? s.agent with
  | none => simp
  | some a =>
    have hdup : (∃ s' ∈ a.steps, s'.id = s.id) ↔ (a.steps.any (·.id == s.id)) = true := by simp
    have hbefore : (∃ last this, a.steps.getLast?.bind Step.timestamp = some last ∧
        s.timestamp = some this ∧ this < last) ↔ before a s = true := by
      unfold before
      split <;> simp_all
    simp only [Except.ok_bind', Option.some.injEq, reduceCtorEq, false_or, exists_eq_left', hdup,
      hbefore]
    cases hterm : a.status.isTerminal
    · cases htarget : e.agentId with
      | none =>
        cases hd : a.steps.any (·.id == s.id) <;> cases hb : before a s <;>
          simp [pure, Except.pure, throw, throwThe, MonadExceptOf.throw]
      | some x =>
        by_cases hx : x = s.agent
        · cases hd : a.steps.any (·.id == s.id) <;> cases hb : before a s <;>
            simp [hx, pure, Except.pure, throw, throwThe, MonadExceptOf.throw]
        · simp [hx, throw, throwThe, MonadExceptOf.throw]
    · simp [throw, throwThe, MonadExceptOf.throw]

/-- Apart from a log line, the reducer refuses an event exactly when `Refuses` says so. -/
theorem apply_error_iff (hlog : e.kind.isLog = false) :
    (∃ err, t.apply e = .error err) ↔ t.Refuses e := by
  unfold apply Refuses
  rw [if_neg (by simp [hlog])]
  by_cases hterm : t.status.isTerminal
  · simp [hterm]
  rw [if_neg hterm]
  simp only [hterm, Bool.false_eq_true, false_or]
  -- the summary is recomputed only on success, so the check is the kind's own
  have hmap : ∀ (x : Except StoreError Trace), (∃ err, x.map refresh = .error err) ↔
      ∃ err, x = .error err := fun x => by cases x <;> simp [Except.map]
  rw [hmap]
  cases hk : e.kind with
  | runStarted => simp
  | agentStarted => exact startAgent_error_iff
  | agentCompleted status error => exact completeAgent_error_iff
  | stepAdded s => exact addStep_error_iff
  | artifactAdded x => simp
  | incidentAdded i => simp
  | runCompleted status => cases status <;> simp [RunStatus.isTerminal]
  | log => simp [hk, EventKind.isLog] at hlog

end Trace

/-! ## Refusals are the reducer's own errors -/

namespace StoreError

/-- The errors with which a trace refuses an event; the rest come from the store and the disk. -/
def IsRefusal : StoreError → Prop
  | .agentNotFound .. | .runAlreadyExists .. | .runAlreadyCompleted .. | .agentAlreadyStarted ..
  | .agentNotStarted .. | .agentAlreadyCompleted .. | .duplicateStep .. | .stepOutOfOrder ..
  | .agentMismatch .. | .invalidStatus .. => True
  | .runNotFound .. | .locked .. | .corrupt .. | .io .. | .json .. => False

end StoreError

namespace Trace

variable {t t' : Trace} {e : Event} {err : StoreError}

theorem eventAgent_refusal (h : t.eventAgent e = .error err) : err.IsRefusal := by
  unfold eventAgent at h
  split at h <;> cases h
  trivial

theorem findAgent_refusal {id : String} (h : t.findAgent id = .error err) : err.IsRefusal := by
  unfold findAgent at h
  split at h <;> cases h
  trivial

theorem startAgent_refusal (h : t.startAgent e = .error err) : err.IsRefusal := by
  unfold startAgent at h
  cases hid : t.eventAgent e with
  | error x => rw [hid, Except.error_bind'] at h; cases h; exact eventAgent_refusal hid
  | ok id =>
    rw [hid, Except.ok_bind'] at h
    cases ha : t.findAgent id with
    | error x => rw [ha, Except.error_bind'] at h; cases h; exact findAgent_refusal ha
    | ok a =>
      rw [ha, Except.ok_bind'] at h
      split at h <;> cases h <;> trivial

theorem completeAgent_refusal {status : AgentStatus} {error : Option String}
    (h : t.completeAgent e status error = .error err) : err.IsRefusal := by
  unfold completeAgent at h
  cases hterm : status.isTerminal
  · simp only [hterm] at h
    cases h
    trivial
  simp only [hterm, Bool.not_true, Bool.false_eq_true, if_false] at h
  cases hid : t.eventAgent e with
  | error x => rw [hid, Except.error_bind'] at h; cases h; exact eventAgent_refusal hid
  | ok id =>
    rw [hid, Except.ok_bind'] at h
    cases ha : t.findAgent id with
    | error x => rw [ha, Except.error_bind'] at h; cases h; exact findAgent_refusal ha
    | ok a =>
      rw [ha, Except.ok_bind'] at h
      split at h <;> cases h <;> trivial

theorem addStep_refusal {s : Step} (h : t.addStep e s = .error err) : err.IsRefusal := by
  unfold addStep at h
  cases ha : t.findAgent s.agent with
  | error x => rw [ha, Except.error_bind'] at h; cases h; exact findAgent_refusal ha
  | ok a =>
    rw [ha, Except.ok_bind'] at h
    cases hterm : a.status.isTerminal
    · cases htarget : e.agentId with
      | none =>
        cases hd : a.steps.any (·.id == s.id) <;> cases hb : before a s <;>
          simp [hterm, htarget, hd, hb, pure, Except.pure, throw, throwThe,
            MonadExceptOf.throw] at h <;> subst h <;> trivial
      | some x =>
        by_cases hx : x = s.agent
        · cases hd : a.steps.any (·.id == s.id) <;> cases hb : before a s <;>
            simp [hterm, htarget, hx, hd, hb, pure, Except.pure, throw, throwThe,
              MonadExceptOf.throw] at h <;> subst h <;> trivial
        · simp [hterm, htarget, hx, throw, throwThe, MonadExceptOf.throw] at h
          subst h
          trivial
    · simp [hterm, throw, throwThe, MonadExceptOf.throw] at h
      subst h
      trivial

theorem except_map_eq_error {α β : Type} {x : Except StoreError α} {f : α → β}
    (h : x.map f = .error err) : x = .error err := by
  cases x <;> cases h
  rfl

theorem apply_refusal (h : t.apply e = .error err) : err.IsRefusal := by
  unfold apply at h
  split at h
  · cases h
  split at h
  · cases h
    trivial
  have h' := except_map_eq_error h
  cases hk : e.kind with
  | runStarted => simp only [hk] at h'; cases h'; trivial
  | agentStarted => simp only [hk] at h'; exact startAgent_refusal h'
  | agentCompleted status error => simp only [hk] at h'; exact completeAgent_refusal h'
  | stepAdded s => simp only [hk] at h'; exact addStep_refusal h'
  | artifactAdded x => simp only [hk] at h'; cases h'
  | incidentAdded i => simp only [hk] at h'; cases h'
  | runCompleted status => simp only [hk] at h'; split at h' <;> cases h'; trivial
  | log => simp only [hk] at h'; cases h'

end Trace

/-! ## A refused change writes nothing -/

/-- Every failure of `m` comes from the disk or the serializer, never from a refusal. -/
def NeverRefuses {α : Type} (m : WorldE StoreError α) : Prop :=
  ∀ w err w', m.run.run w = (.error err, w') → ¬ err.IsRefusal

/-- A run of `m` that fails with a refusal leaves the disk as it found it. -/
def RefusalKeepsDisk {α : Type} (m : WorldE StoreError α) : Prop :=
  ∀ w err w', m.run.run w = (.error err, w') → err.IsRefusal → w'.disk = w.disk

namespace NeverRefuses

variable {α β : Type} {x : WorldE StoreError α} {f : α → WorldE StoreError β}

theorem pure (a : α) : NeverRefuses (Pure.pure a : WorldE StoreError α) :=
  fun _ _ _ h => by cases h

theorem throw_of {err : StoreError} (h : ¬ err.IsRefusal) :
    NeverRefuses (throw err : WorldE StoreError α) :=
  fun _ _ _ hrun => by cases hrun; exact h

theorem lift (m : WorldM α) : NeverRefuses (liftM m : WorldE StoreError α) :=
  fun w _ _ h => by
    rw [show (liftM m : WorldE StoreError α).run.run w = (.ok (m.run w).1, (m.run w).2) from
      WorldE.lift_run m w] at h
    cases h

theorem storeIo (m : WorldE IoError α) : NeverRefuses (storeIo m) := fun w err w' h => by
  unfold RunJournal.storeIo at h
  rw [WorldE.mapError_run] at h
  cases hm : (m.run.run w).1 with
  | ok a => rw [hm] at h; cases h
  | error e => rw [hm] at h; cases h; exact fun h => h

theorem bind (hx : NeverRefuses x) (hf : ∀ a, NeverRefuses (f a)) : NeverRefuses (x >>= f) :=
  fun w err w' h => by
    rcases WorldE.bind_eq_error h with h | ⟨a, w₁, -, h⟩
    · exact hx w err w' h
    · exact hf a w₁ err w' h

/-- Running `x` for its outcome and going on by that outcome: what follows a failure of `x` may
pass the failure on. -/
theorem liftRun_bind {g : Except StoreError α → WorldE StoreError β} (hx : NeverRefuses x)
    (hg : ∀ r, (∀ err, r = .error err → ¬ err.IsRefusal) → NeverRefuses (g r)) :
    NeverRefuses (ExceptT.lift x.run >>= g) := fun w err w' h => by
  rcases WorldE.bind_eq_error h with h | ⟨r, w₁, hr, h⟩
  · rw [WorldE.lift_run] at h
    cases h
  · rw [WorldE.lift_run] at hr
    cases hr
    refine hg _ (fun e he => hx w e (x.run.run w).2 ?_) _ err w' h
    rw [← he]
    rfl

end NeverRefuses

namespace RefusalKeepsDisk

variable {α β : Type} {x : WorldE StoreError α} {f : α → WorldE StoreError β}

theorem of_neverRefuses (hx : NeverRefuses x) : RefusalKeepsDisk x :=
  fun w err w' h href => absurd href (hx w err w' h)

theorem throw (err : StoreError) : RefusalKeepsDisk (throw err : WorldE StoreError α) :=
  fun _ _ _ h _ => by cases h; rfl

/-- A change made of a refusable part and a rest that never refuses keeps the disk on a refusal. -/
theorem bind (hx : RefusalKeepsDisk x) (hf : ∀ a, NeverRefuses (f a)) : RefusalKeepsDisk (x >>= f) :=
  fun w err w' h href => by
    rcases WorldE.bind_eq_error h with h | ⟨a, w₁, -, h⟩
    · exact hx w err w' h href
    · exact absurd href (hf a w₁ err w' h)

theorem pure_bind (a : α) (hf : RefusalKeepsDisk (f a)) : RefusalKeepsDisk (pure a >>= f) := hf

theorem reads_bind {γ : Type} {view : World → γ} (hx : Reads view x)
    (hf : ∀ a, RefusalKeepsDisk (f a)) : RefusalKeepsDisk (x >>= f) := fun w err w' h href => by
  rcases Reads.bind_eq_error hx h with ⟨-, rfl⟩ | ⟨a, -, h⟩
  · rfl
  · exact hf a w err w' h href

/-- A step that cannot fail and keeps the disk, such as reading the clock, keeps it for what
follows. -/
theorem lift_bind {m : WorldM α} (hm : ∀ w, (m.run w).2.disk = w.disk)
    (hf : ∀ a, RefusalKeepsDisk (f a)) : RefusalKeepsDisk (liftM m >>= f) := fun w err w' h href => by
  rcases WorldE.bind_eq_error h with h | ⟨a, w₁, ha, h⟩
  · exact absurd href (NeverRefuses.lift m w err w' h)
  rw [show (liftM m : WorldE StoreError α).run.run w = (.ok (m.run w).1, (m.run w).2) from
    WorldE.lift_run m w] at ha
  cases ha
  rw [← hm w]
  exact hf _ _ err w' h href

end RefusalKeepsDisk

namespace Store

variable {s : Store} {runId projectId : String} {agentId : Option String} {kind : EventKind}

theorem writeTrace_neverRefuses (dir : String) (t : Trace) : NeverRefuses (writeTrace dir t) := by
  unfold writeTrace
  refine (NeverRefuses.lift _).bind fun r => ?_
  cases r with
  | error e => exact NeverRefuses.throw_of fun h => h
  | ok u => cases u; exact NeverRefuses.storeIo _

/-- Committing passes on the snapshot's own failure, after undoing the append. -/
theorem commit_neverRefuses (key : TailKey) (log : EventLog) (dir : String) (t : Trace)
    (rollbackTo : Nat) : NeverRefuses (commit key log dir t rollbackTo) := by
  unfold commit
  refine (writeTrace_neverRefuses dir t).liftRun_bind fun r hr => ?_
  cases r with
  | error e =>
    exact (NeverRefuses.lift _).bind fun _ => (NeverRefuses.lift _).bind fun _ =>
      NeverRefuses.throw_of (hr e rfl)
  | ok u => exact (NeverRefuses.storeIo _).bind fun _ => NeverRefuses.lift _

/-- A change the trace refuses fails before the append: every step before the check only reads
the run or ticks the clock, and every step after it fails only on the disk or in the serializer. -/
theorem mutate_refusalKeepsDisk : RefusalKeepsDisk (s.mutate runId projectId agentId kind) := by
  unfold mutate
  refine RefusalKeepsDisk.reads_bind (rememberedTail_reads _) fun remembered => ?_
  refine RefusalKeepsDisk.reads_bind (Reads.mapError _ (lockRun_reads _)) fun _ => ?_
  refine RefusalKeepsDisk.reads_bind (ensureUnlocked_reads _ _) fun _ => ?_
  refine RefusalKeepsDisk.reads_bind (currentTail_reads _ _) fun tail => ?_
  refine RefusalKeepsDisk.reads_bind (loadRun_reads _ _) fun loaded => ?_
  cases loaded with
  | none => exact RefusalKeepsDisk.throw _
  | some t =>
    refine RefusalKeepsDisk.lift_bind (fun _ => rfl) fun e => ?_
    have hrest : ∀ t : Trace, NeverRefuses (storeIo (EventLog.appendAt ⟨s.runDir projectId runId⟩ e
        (wordSucc (max tail.seq t.lastSeq))) >>= fun written =>
          commit (s.id, projectId, runId) ⟨s.runDir projectId runId⟩ (s.runDir projectId runId)
            { t with lastSeq := written.seq } tail.bytes >>= fun _ =>
          pure ({ t with lastSeq := written.seq } : Trace)) := fun _ =>
      (NeverRefuses.storeIo _).bind fun _ => (commit_neverRefuses _ _ _ _ _).bind fun _ =>
        NeverRefuses.pure _
    dsimp only
    split
    · exact RefusalKeepsDisk.of_neverRefuses ((NeverRefuses.pure _).bind hrest)
    · exact (RefusalKeepsDisk.throw _).bind hrest

theorem startAgent_refusalKeepsDisk (agentId : String) :
    RefusalKeepsDisk (s.startAgent runId projectId agentId) :=
  mutate_refusalKeepsDisk.bind fun _ => NeverRefuses.pure _

theorem addArtifact_refusalKeepsDisk (a : Artifact) :
    RefusalKeepsDisk (s.addArtifact runId projectId a) :=
  mutate_refusalKeepsDisk.bind fun _ => NeverRefuses.pure _

theorem addIncident_refusalKeepsDisk (i : Incident) :
    RefusalKeepsDisk (s.addIncident runId projectId i) :=
  mutate_refusalKeepsDisk.bind fun _ => NeverRefuses.pure _

theorem completeAgent_refusalKeepsDisk (agentId : String) (status : AgentStatus)
    (error : Option String) : RefusalKeepsDisk (s.completeAgent runId projectId agentId status error) :=
  mutate_refusalKeepsDisk.bind fun _ => NeverRefuses.pure _

/-- Finishing a run forgets the log's tail only after the change went through. -/
theorem completeRun_refusalKeepsDisk (status : RunStatus) :
    RefusalKeepsDisk (s.completeRun runId projectId status) :=
  mutate_refusalKeepsDisk.bind fun _ => (NeverRefuses.lift _).bind fun _ => NeverRefuses.pure _

/-- Stamping a step with the time reads the clock and nothing else, so the step's change is the
only part that can refuse. -/
theorem addStep_refusalKeepsDisk (agentId : String) (step : Step) :
    RefusalKeepsDisk (s.addStep runId projectId agentId step) := by
  unfold addStep
  dsimp only
  split
  · exact RefusalKeepsDisk.lift_bind (fun _ => rfl) fun _ => RefusalKeepsDisk.pure_bind _
      (mutate_refusalKeepsDisk.bind fun _ => NeverRefuses.pure _)
  · exact RefusalKeepsDisk.pure_bind _ (mutate_refusalKeepsDisk.bind fun _ => NeverRefuses.pure _)

end Store

/-- The reducer is a validated transition. A log line is accepted as it is; any other event is
refused exactly when `Refuses` says so, and a running trace never refuses an artifact or an
incident. A refusal is one of the reducer's own errors and leaves the replayed trace as it was but
for the watermark, and a store change that the trace refuses leaves the disk as it found it. -/
theorem apply_validated_transition (t : Trace) (e : Event) :
    (e.kind.isLog = true → t.apply e = .ok t) ∧
    (e.kind.isLog = false → ((∃ err, t.apply e = .error err) ↔ t.Refuses e)) ∧
    (t.status.isTerminal = false →
      (∀ x, ∃ t', t.apply { e with kind := .artifactAdded x } = .ok t') ∧
      ∀ i, ∃ t', t.apply { e with kind := .incidentAdded i } = .ok t') ∧
    (∀ err, t.apply e = .error err →
      err.IsRefusal ∧ t.applyLogged e = ({ t with lastSeq := max t.lastSeq e.seq }, false)) ∧
    ∀ (s : Store) (runId projectId agentId : String),
      RefusalKeepsDisk (s.startAgent runId projectId agentId) ∧
      (∀ step, RefusalKeepsDisk (s.addStep runId projectId agentId step)) ∧
      (∀ a, RefusalKeepsDisk (s.addArtifact runId projectId a)) ∧
      (∀ i, RefusalKeepsDisk (s.addIncident runId projectId i)) ∧
      (∀ status error, RefusalKeepsDisk (s.completeAgent runId projectId agentId status error)) ∧
      ∀ status, RefusalKeepsDisk (s.completeRun runId projectId status) := by
  refine ⟨Trace.apply_log, Trace.apply_error_iff, fun hterm => ⟨fun x => ?_, fun i => ?_⟩,
    fun err h => ⟨Trace.apply_refusal h, Trace.applyLogged_of_error h⟩,
    fun s runId projectId agentId => ⟨Store.startAgent_refusalKeepsDisk agentId,
      Store.addStep_refusalKeepsDisk agentId, Store.addArtifact_refusalKeepsDisk,
      Store.addIncident_refusalKeepsDisk, Store.completeAgent_refusalKeepsDisk agentId,
      Store.completeRun_refusalKeepsDisk⟩⟩
  · exact ⟨_, by simp [Trace.apply, hterm, EventKind.isLog, Except.map]; rfl⟩
  · exact ⟨_, by simp [Trace.apply, hterm, EventKind.isLog, Except.map]; rfl⟩

end RunJournal
