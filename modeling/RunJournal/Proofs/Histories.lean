import RunJournal.Proofs.StoreCalls
import RunJournal.Proofs.Approval
/-!
# Histories of calls on one run

`runCalls` makes a list of calls on one run in order, each through its own store over one root,
as stores that hold the run's lock for a whole call do; a call may be refused or fail in a write,
and the calls after it still run. From a root where the run has no files yet (`Unstarted`), every
history keeps the run's files as `RunFiles` says with the whole log known
(`RunFiles.runCalls_run`). So after every call:

* the trace any store reads is the one the log rebuilds, and so is a trace the call returned
  (`snapshot_agrees_with_log`);
* the log holds whole lines numbered `1, 2, …`, the first the run's only start, and the call
  changed it as its `StoreOp.Effect` says (`log_discipline`);
* every trace read or stored keeps its counters, and counts as many model calls as the log holds
  steps of that kind (`llm_calls_match_events`).
-/

namespace RunJournal

/-- Makes the calls in order on the run `x`, each through its store, and gives what each returned;
a failed call does not stop the ones after it. -/
def runCalls (x : RunSite) : List (Store × StoreOp) → WorldM (List (Except StoreError (Option Trace)))
  | [] => pure []
  | (s, op) :: rest => do
    let r ← (op.run s x.project x.run).run
    let rs ← runCalls x rest
    pure (r :: rs)

/-- The world after a history is the world its first call leaves, run through the rest. -/
theorem runCalls_cons_world (x : RunSite) (s : Store) (op : StoreOp)
    (rest : List (Store × StoreOp)) (w : World) :
    ((runCalls x ((s, op) :: rest)).run w).2 =
      ((runCalls x rest).run ((op.run s x.project x.run).run.run w).2).2 := rfl

/-- A root where the run has no files yet: the root is a directory, the project's and the run's
directories are missing or empty directories, no store remembers anything of the run's log, and
no append is torn. -/
structure Unstarted (x : RunSite) (w : World) : Prop where
  root : w.disk.dirOf w.cwd x.root = .ok x.rootPlace
  rootDir : ∃ m, w.disk.get? x.rootPlace = some (.dir m)
  project : w.disk.get? x.projectPlace = none ∨ ∃ m, w.disk.get? x.projectPlace = some (.dir m)
  runDir : w.disk.get? x.runPlace = none ∨ ∃ m, w.disk.get? x.runPlace = some (.dir m)
  order : w.disk.get? x.projectPlace = none → w.disk.get? x.runPlace = none
  noFiles : ∀ name ∈ [eventsFileName, traceFileName, approvalFileName],
    w.disk.get? (x.filePlace name) = none
  tails : ∀ id, w.tailOf (x.key id) = none
  noTears : w.NoTears

theorem Logged.nil : Logged [] where
  seqs := rfl
  storable := fun _ he => by cases he
  start := fun _ he => by cases he
  accepted := fun k hk => absurd hk (Nat.not_lt_zero k)
  short := by decide

theorem RunFiles.of_unstarted {x : RunSite} {w : World} (h : Unstarted x w) : RunFiles x w [] 0 where
  root := h.root
  rootDir := h.rootDir
  project := h.project
  runDir := h.runDir
  order := h.order
  unmade := fun _ => ⟨h.noFiles _ (by simp), h.noFiles _ (by simp)⟩
  log := .inl ⟨h.noFiles _ (by simp), rfl⟩
  trace := .inl (h.noFiles _ (by simp))
  approval := h.noFiles _ (by simp)
  logged := Logged.nil
  bound := le_rfl
  tails := fun id tail ht => by
    rw [h.tails id] at ht
    cases ht
  noTears := h.noTears

/-! ## What a call did, as a history sees it -/

section Effects

variable {α : Type} {x : RunSite} {P : Event → Prop} {Q : α → List Event → Prop} {E E' : List Event}

theorem Changed.length_le {r : Except StoreError α} (h : Changed P Q E r E') :
    E'.length ≤ E.length + 1 := by
  cases h <;> simp

theorem StoreOp.Effect.length_le {op : StoreOp} {r : Except StoreError (Option Trace)}
    (h : op.Effect x E r E') : E'.length ≤ E.length + 1 := by
  cases op
  case recoverRun =>
    obtain ⟨rfl, -⟩ := h
    omega
  all_goals exact Changed.length_le h

/-- A trace a call returned is the one its log rebuilds once the call is over. -/
theorem StoreOp.Effect.answers {op : StoreOp} {r : Except StoreError (Option Trace)}
    (h : op.Effect x E r E') {t : Trace} (ht : r = .ok (some t)) : Rebuilds t E' := by
  subst ht
  cases op
  case recoverRun =>
    obtain ⟨rfl, hans⟩ := h
    exact hans t rfl
  all_goals
    cases h with
    | appended _ hans => exact hans t rfl

end Effects

theorem ClockReads.mono {c : Instant} {m n : Nat} (h : ClockReads c n) (hmn : m ≤ n) :
    ClockReads c m :=
  fun k hk => h k (by omega)

/-! ## Histories keep the invariant -/

namespace RunFiles

variable {x : RunSite} {w : World} {E : List Event} {n : Nat}

/-- A history of calls, each through a store on the run's root with storable arguments, keeps the
invariant with the whole log known, adding at most one event per call and reading the clock at most
twice per call. -/
theorem runCalls_run (h : RunFiles x w E E.length) (calls : List (Store × StoreOp))
    (hroots : ∀ c ∈ calls, c.1.root = x.root) (hops : ∀ c ∈ calls, c.2.Storable)
    (hclock : ClockReads w.clock (2 * calls.length)) (hshort : E.length + calls.length < wordMax) :
    let w' := ((runCalls x calls).run w).2
    (∃ j ≤ 2 * calls.length, w'.clock = w.clock.after j) ∧
      ∃ E', RunFiles x w' E' E'.length ∧ E'.length ≤ E.length + calls.length := by
  -- the invariant of the first call's world carries the rest of the history
  induction calls generalizing w E with
  | nil => exact ⟨⟨0, le_rfl, rfl⟩, E, h, le_rfl⟩
  | cons c rest ih =>
    obtain ⟨s, op⟩ := c
    have hlen : ((s, op) :: rest).length = rest.length + 1 := rfl
    rw [hlen] at hclock hshort
    dsimp only
    rw [runCalls_cons_world, hlen]
    obtain ⟨⟨j, hj, hc⟩, E₁, h₁, heff⟩ := h.call_run (hroots _ (.head _)) op (hops _ (.head _))
      (hclock.mono (by omega)) (by omega)
    have hlen₁ := heff.length_le
    have hclock₁ : ClockReads ((op.run s x.project x.run).run.run w).2.clock (2 * rest.length) := by
      rw [hc]
      exact (hclock.mono (by omega)).after
    obtain ⟨⟨i, hi, hc'⟩, E', h', hlen'⟩ := ih h₁ (fun c hc => hroots c (.tail _ hc))
      (fun c hc => hops c (.tail _ hc)) hclock₁ (by omega)
    exact ⟨⟨j + i, by omega, by rw [hc', hc, Instant.after_add]⟩, E', h', by omega⟩

/-- Reading the run's trace through any store on its root rebuilds it from the whole log. -/
theorem trace?_run (h : RunFiles x w E n) {s : Store} (hs : s.root = x.root) :
    (s.trace? x.project x.run).run w = (Trace.rebuild E, w) := by
  unfold Store.trace?
  rw [x.runDir_eq hs, WorldM.bind_run, h.loadRun_run (by simp)]
  rfl

/-- Reading the run's events through any store on its root gives the whole log, or those of the
given types. -/
theorem events_run (h : RunFiles x w E n) {s : Store} (hs : s.root = x.root) (types : List String) :
    (s.events x.project x.run types none).run w =
      (if types.isEmpty then E else E.filter fun e => types.contains e.typeName, w) := by
  unfold Store.events
  rw [x.runDir_eq hs, x.mk_dir_eq_log, WorldM.bind_run, h.readAll_run]
  rfl

/-- A history from a root where the run has no files, then one more call: the files satisfy the
invariant before the call and after it, over logs the call changed as its `Effect` says. -/
theorem history_then_call (hw : Unstarted x w) (calls : List (Store × StoreOp)) {s : Store}
    (op : StoreOp) (hroots : ∀ c ∈ calls, c.1.root = x.root) (hs : s.root = x.root)
    (hops : ∀ c ∈ calls, c.2.Storable) (hop : op.Storable)
    (hclock : ClockReads w.clock (2 * calls.length + 2)) (hshort : calls.length + 1 < wordMax) :
    let w₁ := ((runCalls x calls).run w).2
    let r := (op.run s x.project x.run).run.run w₁
    ∃ E₁ E₂, RunFiles x w₁ E₁ E₁.length ∧ RunFiles x r.2 E₂ E₂.length ∧ op.Effect x E₁ r.1 E₂ := by
  intro w₁ r
  obtain ⟨⟨j, hj, hc⟩, E₁, h₁, hlen₁⟩ := (of_unstarted hw).runCalls_run calls hroots hops
    (hclock.mono (by omega)) (by simp only [List.length_nil]; omega)
  -- the history read the clock `j` times, which leaves two readings for the call
  have hclock₁ : ClockReads w₁.clock 2 := by
    rw [hc]
    exact (hclock.mono (by omega)).after
  obtain ⟨-, E₂, h₂, heff⟩ :=
    h₁.call_run hs op hop hclock₁ (by simp only [List.length_nil] at hlen₁; omega)
  exact ⟨E₁, E₂, h₁, h₂, heff⟩

end RunFiles

/-! ## The snapshot agrees with the log -/

/-- After any history of calls on a run started from nothing, each through a store on the run's
root, and one more call: the log reads back whole, the trace any store on the root reads is the
one the log rebuilds, and a trace the last call returned is that trace too. The clock's readings
print and parse back, and the log stays below the largest sequence number. -/
theorem snapshot_agrees_with_log {x : RunSite} {w : World} (hw : Unstarted x w)
    (calls : List (Store × StoreOp)) (s : Store) (op : StoreOp) (reader : Store)
    (hroots : ∀ c ∈ calls, c.1.root = x.root) (hs : s.root = x.root)
    (hreader : reader.root = x.root) (hops : ∀ c ∈ calls, c.2.Storable) (hop : op.Storable)
    (hclock : ClockReads w.clock (2 * calls.length + 2)) (hshort : calls.length + 1 < wordMax) :
    let w₁ := ((runCalls x calls).run w).2
    let r := (op.run s x.project x.run).run.run w₁
    ∃ E, x.log.readAll.run.run r.2 = (.ok E, r.2) ∧
      (reader.trace? x.project x.run).run r.2 = (Trace.rebuild E, r.2) ∧
      ∀ t, r.1 = .ok (some t) → Trace.rebuild E = some t := by
  intro w₁ r
  obtain ⟨_, E₂, -, h₂, heff⟩ :=
    RunFiles.history_then_call hw calls op hroots hs hops hop hclock hshort
  exact ⟨E₂, h₂.readAll_run, h₂.trace?_run hreader, fun t ht => heff.answers ht⟩

/-! ### A run started through one store -/

/-- The run `r` of project `p` below the root directory. -/
def sampleSite : RunSite where
  root := "/"
  rootPlace := []
  project := "p"
  run := "r"
  project_plain := by decide
  project_short := by decide
  run_plain := by decide
  run_short := by decide

/-- Nothing on the disk but the root, at a clock whose readings print and parse back. -/
def sampleRoot : World := World.fresh [] ⟨20000, 3600, 0⟩

/-- The run started through one store, declaring no agents. -/
def sampleStart : List (Store × StoreOp) := [(⟨0, "/"⟩, .startRun "demo" [] Execution.default)]

theorem sampleRoot_unstarted : Unstarted sampleSite sampleRoot where
  root := rfl
  rootDir := ⟨Disk.dirMode, rfl⟩
  project := .inl rfl
  runDir := .inl rfl
  order := fun _ => rfl
  noFiles := fun name hname => by
    simp only [List.mem_cons, List.mem_nil_iff, or_false] at hname
    rcases hname with rfl | rfl | rfl <;> rfl
  tails := fun _ => rfl
  noTears := fun _ hf => by cases hf

theorem sampleRoot_clockReads : ClockReads sampleRoot.clock 6 := by
  intro k hk
  interval_cases k <;> exact Except.eq_ok_of_toOption (by decide)

theorem sampleStart_roots : ∀ c ∈ sampleStart, c.1.root = sampleSite.root := by
  intro c hc
  rw [sampleStart, List.mem_singleton] at hc
  subst hc
  rfl

theorem sampleStart_storable : ∀ c ∈ sampleStart, c.2.Storable := by
  intro c hc
  rw [sampleStart, List.mem_singleton] at hc
  subst hc
  exact ⟨by decide, Nat.zero_le _⟩

theorem snapshot_agrees_with_log_started_run :
    Unstarted sampleSite sampleRoot ∧ ClockReads sampleRoot.clock (2 * sampleStart.length + 2) ∧
    let w₁ := ((runCalls sampleSite sampleStart).run sampleRoot).2
    let r := ((StoreOp.completeRun .completed).run ⟨1, "/"⟩ sampleSite.project sampleSite.run).run.run w₁
    ∃ E, sampleSite.log.readAll.run.run r.2 = (.ok E, r.2) ∧
      ((⟨2, "/"⟩ : Store).trace? sampleSite.project sampleSite.run).run r.2 = (Trace.rebuild E, r.2) ∧
      ∀ t, r.1 = .ok (some t) → Trace.rebuild E = some t :=
  ⟨sampleRoot_unstarted, sampleRoot_clockReads.mono (by decide),
    snapshot_agrees_with_log sampleRoot_unstarted sampleStart ⟨1, "/"⟩ (.completeRun .completed)
      ⟨2, "/"⟩ sampleStart_roots rfl rfl sampleStart_storable trivial
      (sampleRoot_clockReads.mono (by decide)) (by decide)⟩

/-! ## The log's discipline -/

/-- After any history of calls on a run started from nothing, each through a store on the run's
root, and one more call: the log holds the whole lines of the events it reads back, numbered
`1, 2, …` in order, the first of them the run's start and no later one a start, and the last
call changed the log as its `StoreOp.Effect` says: one event of its own appended when it returned
a result, none when it was refused, at most its own when a write failed, and none when it
recovered the snapshot. -/
theorem log_discipline {x : RunSite} {w : World} (hw : Unstarted x w)
    (calls : List (Store × StoreOp)) (s : Store) (op : StoreOp)
    (hroots : ∀ c ∈ calls, c.1.root = x.root) (hs : s.root = x.root)
    (hops : ∀ c ∈ calls, c.2.Storable) (hop : op.Storable)
    (hclock : ClockReads w.clock (2 * calls.length + 2)) (hshort : calls.length + 1 < wordMax) :
    let w₁ := ((runCalls x calls).run w).2
    let r := (op.run s x.project x.run).run.run w₁
    ∃ E₁ E₂, x.log.readAll.run.run w₁ = (.ok E₁, w₁) ∧ x.log.readAll.run.run r.2 = (.ok E₂, r.2) ∧
      x.log.Shows r.2 E₂ ∧ E₂.map (·.seq) = List.range' 1 E₂.length ∧
      (∀ ev ∈ E₂.head?, ∃ name specs exec, ev.kind = .runStarted name specs exec) ∧
      (∀ k (hk : k < E₂.length), 0 < k → ∀ name specs exec,
        E₂[k].kind ≠ .runStarted name specs exec) ∧
      op.Effect x E₁ r.1 E₂ := by
  intro w₁ r
  obtain ⟨E₁, E₂, h₁, h₂, heff⟩ :=
    RunFiles.history_then_call hw calls op hroots hs hops hop hclock hshort
  have hstart : ∀ ev ∈ E₂.head?, ∃ name specs exec, ev.kind = .runStarted name specs exec :=
    fun ev hev => by
      obtain ⟨name, specs, exec, hk, -⟩ := h₂.logged.start ev hev
      exact ⟨name, specs, exec, hk⟩
  exact ⟨E₁, E₂, h₁.readAll_run, h₂.readAll_run, h₂.shows, h₂.logged.seqs, hstart,
    h₂.logged.only_start, heff⟩

theorem log_discipline_started_run :
    Unstarted sampleSite sampleRoot ∧ ClockReads sampleRoot.clock (2 * sampleStart.length + 2) ∧
    let w₁ := ((runCalls sampleSite sampleStart).run sampleRoot).2
    let r := ((StoreOp.log "info" "runner" "go").run ⟨1, "/"⟩ sampleSite.project sampleSite.run).run.run w₁
    ∃ E₁ E₂, sampleSite.log.readAll.run.run w₁ = (.ok E₁, w₁) ∧
      sampleSite.log.readAll.run.run r.2 = (.ok E₂, r.2) ∧
      sampleSite.log.Shows r.2 E₂ ∧ E₂.map (·.seq) = List.range' 1 E₂.length ∧
      (∀ ev ∈ E₂.head?, ∃ name specs exec, ev.kind = .runStarted name specs exec) ∧
      (∀ k (hk : k < E₂.length), 0 < k → ∀ name specs exec,
        E₂[k].kind ≠ .runStarted name specs exec) ∧
      (StoreOp.log "info" "runner" "go").Effect sampleSite E₁ r.1 E₂ :=
  ⟨sampleRoot_unstarted, sampleRoot_clockReads.mono (by decide),
    log_discipline sampleRoot_unstarted sampleStart ⟨1, "/"⟩ (.log "info" "runner" "go")
      sampleStart_roots rfl sampleStart_storable trivial (sampleRoot_clockReads.mono (by decide))
      (by decide)⟩

/-- Recovering a run just started returns its trace and appends nothing: the log holds its one
event before and after. -/
theorem recover_run_appends_no_line :
    let w₁ := ((runCalls sampleSite sampleStart).run sampleRoot).2
    let r := (StoreOp.recoverRun.run ⟨1, "/"⟩ sampleSite.project sampleSite.run).run.run w₁
    ∃ t E, r.1 = .ok (some t) ∧ sampleSite.log.readAll.run.run w₁ = (.ok E, w₁) ∧
      sampleSite.log.readAll.run.run r.2 = (.ok E, r.2) ∧ E.length = 1 := by
  intro w₁ r
  have h₀ := RunFiles.of_unstarted sampleRoot_unstarted
  have hclock : sampleRoot.clock.Reparses := sampleRoot_clockReads 0 (by decide)
  obtain ⟨t₀, w', hstart, hfaults', hrun'⟩ := h₀.startRun_fresh (s := ⟨0, "/"⟩) rfl rfl rfl
    (fun m hm => by
      cases hm
      exact Disk.canChange_dirMode)
    "demo" [] Execution.default (by decide) (Nat.zero_le _) hclock
  have hw₁ : w₁ = w' := by
    show ((runCalls sampleSite sampleStart).run sampleRoot).2 = w'
    rw [sampleStart, runCalls_cons_world, StoreOp.run, WorldE.bind_run_ok hstart]
    rfl
  obtain ⟨-, E, h₁, hch⟩ := h₀.startRun_run (s := ⟨0, "/"⟩) rfl "demo" [] Execution.default
    (by decide) (Nat.zero_le _) hclock
  rw [hstart] at h₁ hch
  dsimp only at h₁ hch
  rw [← hw₁] at h₁ hfaults' hrun'
  obtain ⟨ev, hD⟩ : ∃ ev, E = [ev] ∧ Trace.rebuild E = some t₀ := by
    cases hch with
    | appended _ hQ => exact ⟨_, by rw [List.nil_append], hQ⟩
  obtain ⟨rfl, hD⟩ := hD
  have hok := h₁.recoverRun_ok (s := ⟨1, "/"⟩) rfl hfaults' hrun' Disk.canChange_dirMode hD
  obtain ⟨-, h₂, -⟩ := h₁.recoverRun_run (s := ⟨1, "/"⟩) rfl
  rcases hrec : ((⟨1, "/"⟩ : Store).recoverRun sampleSite.project sampleSite.run).run.run w₁
    with ⟨r₁, w₂⟩
  rw [hrec] at hok h₂
  dsimp only at hok h₂
  subst hok
  have hr : r = (.ok (some t₀), w₂) := by
    show (StoreOp.recoverRun.run ⟨1, "/"⟩ sampleSite.project sampleSite.run).run.run w₁ = _
    rw [StoreOp.run, WorldE.bind_run_ok hrec]
    rfl
  rw [hr]
  exact ⟨t₀, [ev], rfl, h₁.readAll_run, h₂.readAll_run, rfl⟩

/-! ## Counters of stored traces -/

def Event.addsLlmStep (e : Event) : Bool :=
  match e.kind with
  | .stepAdded s => s.kind == .llm
  | _ => false

theorem EventKind.steps_of_isLog {k : EventKind} (h : k.isLog = true) : k.steps = [] := by
  cases k <;> first | rfl | cases h

/-- The model-call steps of a log's events are as many as its events that add one. -/
theorem length_filter_llm_flatMap_steps (E : List Event) :
    ((E.flatMap (·.kind.steps)).filter (·.kind == .llm)).length =
      (E.filter Event.addsLlmStep).length := by
  induction E with
  | nil => rfl
  | cons e E ih =>
    rw [List.flatMap_cons, List.filter_append, List.length_append, ih, List.filter_cons]
    unfold Event.addsLlmStep
    cases e.kind with
    | stepAdded s =>
      by_cases hs : (s.kind == .llm) = true
      · simp [EventKind.steps, hs]
        omega
      · simp [EventKind.steps, hs]
    | _ => simp [EventKind.steps]

/-- Keeping the events of the step type and then those that add a model call keeps the latter. -/
theorem filter_addsLlmStep_stepAdded (E : List Event) :
    (E.filter fun e => ["step_added"].contains e.typeName).filter Event.addsLlmStep =
      E.filter Event.addsLlmStep := by
  rw [List.filter_filter]
  refine List.filter_congr fun e _ => ?_
  unfold Event.addsLlmStep Event.typeName
  cases e.kind <;> simp [EventKind.name]

namespace Trace

variable {t t' : Trace} {e : Event}

theorem apply_steps_perm (h : t.apply e = .ok t') : t'.steps.Perm (t.steps ++ e.kind.steps) := by
  rcases apply_eq_ok h with ⟨hlog, rfl⟩ | ⟨-, u, hu, rfl⟩
  · rw [EventKind.steps_of_isLog hlog, List.append_nil]
  · exact hu.steps_perm

theorem new_steps (runId projectId name : String) (specs : List AgentSpec) (exec : Execution)
    (time : Instant) : (Trace.new runId projectId name specs exec time).steps = [] := by
  simp [Trace.new, Trace.refresh, Trace.steps, AgentRun.declared]

end Trace

/-- The trace a log the store wrote rebuilds holds the steps its events add, up to order. -/
theorem Logged.rebuild_steps {E : List Event} (h : Logged E) {D : Trace}
    (hD : Trace.rebuild E = some D) : D.steps.Perm (E.flatMap (·.kind.steps)) := by
  induction E using List.reverseRecOn generalizing D with
  | nil => cases hD
  | append_singleton P e ih =>
    by_cases hP : P = []
    · subst hP
      obtain ⟨name, specs, exec, hk, -⟩ := h.start e rfl
      rw [List.nil_append, Trace.rebuild_start hk] at hD
      cases hD
      rw [List.nil_append, List.flatMap_singleton, hk]
      exact .of_eq (Trace.new_steps e.runId (e.projectId.getD "") name specs exec e.time)
    · obtain ⟨t, t', ht, happ⟩ := h.accepted P.length (by simp) (List.length_pos_of_ne_nil hP)
      simp only [List.take_left'] at ht
      simp only [List.getElem_concat_length] at happ
      rw [Trace.rebuild_snoc hP, ht, Option.map_some, Trace.applyLogged_of_ok happ] at hD
      cases hD
      rw [List.flatMap_append, List.flatMap_singleton]
      exact (Trace.apply_steps_perm happ).trans ((ih h.of_append ht).append_right _)

/-- Every trace reachable from a declaration keeps its counters, and every run written through
stores from nothing keeps them in the trace read and in the trace stored; the trace read counts as
many model calls as there are events adding a model-call step among the run's events of the step
type. The clock's readings print and parse back, and the log stays below the largest sequence
number. -/
theorem llm_calls_match_events :
    (∀ specs exec (t : Trace), Trace.Reachable specs exec t →
      t.Counted ∧ t.summary.totalTokens = satSum (t.agents.map (·.totalTokens))) ∧
    ∀ (x : RunSite) (w : World), Unstarted x w → ∀ (calls : List (Store × StoreOp)) (reader : Store),
      (∀ c ∈ calls, c.1.root = x.root) → reader.root = x.root → (∀ c ∈ calls, c.2.Storable) →
      ClockReads w.clock (2 * calls.length) → calls.length < wordMax →
      let w' := ((runCalls x calls).run w).2
      (∀ bytes m, w'.disk.get? (x.filePlace traceFileName) = some (.file bytes m) →
        ∃ t : Trace, bytes = t.fileText.toUTF8.toList ∧ t.Counted) ∧
      ∀ t, (reader.trace? x.project x.run).run w' = (some t, w') →
        t.Counted ∧ t.summary.totalLlmCalls =
          (((reader.events x.project x.run ["step_added"] none).run w').1.filter
            Event.addsLlmStep).length := by
  refine ⟨fun specs exec t ht => ⟨ht.counted, ht.counted.summary_tokens⟩, ?_⟩
  intro x w hw calls reader hroots hreader hops hclock hshort w'
  obtain ⟨-, E, h, -⟩ := (RunFiles.of_unstarted hw).runCalls_run calls hroots hops hclock
    (by simp only [List.length_nil]; omega)
  refine ⟨fun bytes m hfile => ?_, fun t ht => ?_⟩
  · rcases h.trace with hnone | ⟨k, -, t, m', ht, hfile', -⟩
    · rw [hnone] at hfile
      cases hfile
    · rw [hfile'] at hfile
      cases hfile
      exact ⟨t, rfl, Trace.counted_rebuild ht⟩
  · rw [h.trace?_run hreader] at ht
    have hD : Trace.rebuild E = some t := congrArg Prod.fst ht
    have hc := Trace.counted_rebuild hD
    refine ⟨hc, ?_⟩
    rw [h.events_run hreader, hc.summary_eq]
    simp only [List.isEmpty_cons, Bool.false_eq_true, if_false, filter_addsLlmStep_stepAdded,
      ← length_filter_llm_flatMap_steps]
    exact ((h.logged.rebuild_steps hD).filter _).length_eq

/-- The run started through one store declaring one agent, which then starts and makes one model
call through two other stores. -/
def sampleAgentCalls : List (Store × StoreOp) :=
  [(⟨0, "/"⟩, .startRun "demo" Trace.sampleAgents Execution.default),
   (⟨1, "/"⟩, .startAgent "a1"),
   (⟨2, "/"⟩, .addStep "a1" Trace.sampleStep)]

theorem sampleAgentCalls_roots : ∀ c ∈ sampleAgentCalls, c.1.root = sampleSite.root := by
  intro c hc
  simp only [sampleAgentCalls, List.mem_cons, List.mem_nil_iff, or_false] at hc
  rcases hc with rfl | rfl | rfl <;> rfl

theorem sampleAgentCalls_storable : ∀ c ∈ sampleAgentCalls, c.2.Storable := by
  intro c hc
  simp only [sampleAgentCalls, List.mem_cons, List.mem_nil_iff, or_false] at hc
  rcases hc with rfl | rfl | rfl
  · exact ⟨by decide, Nat.zero_le _⟩
  · trivial
  · refine ⟨?_, ?_, ?_, ⟨by decide, by decide⟩⟩
    · intro t ht
      cases ht
      exact Except.eq_ok_of_toOption (by decide)
    · intro t ht
      cases ht
      exact Except.eq_ok_of_toOption (by decide)
    · intro n hn
      cases hn

theorem llm_calls_match_events_model_call :
    (∃ t, Trace.sampleEvents.foldlM (fun t e => t.apply e)
        (Trace.new "r1" "p1" "demo" Trace.sampleAgents Execution.default ⟨0, 0, 0⟩) = .ok t ∧
      t.summary.totalLlmCalls = 1 ∧ t.summary.totalTokens = 42 ∧
      t.Counted ∧ t.summary.totalTokens = satSum (t.agents.map (·.totalTokens))) ∧
    Unstarted sampleSite sampleRoot ∧ ClockReads sampleRoot.clock (2 * sampleAgentCalls.length) ∧
    let w' := ((runCalls sampleSite sampleAgentCalls).run sampleRoot).2
    (∀ bytes m, w'.disk.get? (sampleSite.filePlace traceFileName) = some (.file bytes m) →
      ∃ t : Trace, bytes = t.fileText.toUTF8.toList ∧ t.Counted) ∧
    ∀ t, ((⟨3, "/"⟩ : Store).trace? sampleSite.project sampleSite.run).run w' = (some t, w') →
      t.Counted ∧ t.summary.totalLlmCalls =
        ((((⟨3, "/"⟩ : Store).events sampleSite.project sampleSite.run ["step_added"] none).run
          w').1.filter Event.addsLlmStep).length :=
  ⟨⟨_, rfl, rfl, rfl, llm_calls_match_events.1 Trace.sampleAgents Execution.default _
      (Trace.Reachable.foldlM Trace.sampleEvents (.new "r1" "p1" "demo" ⟨0, 0, 0⟩) rfl)⟩,
    sampleRoot_unstarted, sampleRoot_clockReads,
    llm_calls_match_events.2 sampleSite sampleRoot sampleRoot_unstarted sampleAgentCalls ⟨3, "/"⟩
      sampleAgentCalls_roots rfl sampleAgentCalls_storable sampleRoot_clockReads (by decide)⟩

end RunJournal
