import RunJournal.Proofs.Histories
import RunJournal.Proofs.Recording
/-!
# Approved runs stay locked

A successful approval leaves the run's directory holding its trace and its approval (`ApprovedDir`).
Every call on a run whose directory is approved finds that out before it writes anything: a new
start finds the run taken, every other call finds the approval and stops with `locked`
(`StoreOp.run_approved`), and approving again stops with `alreadyApproved`. None of them changes
the disk, so the run stays approved through any history of calls on it, and the trace read from it
stays the same (`approved_run_stays_locked`).

A call names the run's directory through its store's root, the project and the run id; plain names
(`RunSite`) name the directory itself. A run id such as `x/../r` names it only once `x` exists: a
start of that run does not find the run taken, makes `x`, and is then refused by the disk when it
opens the read-only log for appending, so it answers with an I/O error.
-/

namespace RunJournal

/-- The run in `dir` is approved: its directory is there, with its trace and its approval, and its
log is missing or readable, so the run can still be locked. -/
structure ApprovedDir (w : World) (dir : String) : Prop where
  hasDir : w.disk.HasDir w.cwd dir
  trace : w.disk.exists_ w.cwd (Path.join dir traceFileName) = true
  approval : w.disk.exists_ w.cwd (Path.join dir approvalFileName) = true
  opens : w.disk.Opens w.cwd (Path.join dir eventsFileName)

/-- What a call on an approved run answers: a start finds the run taken, and every other call
finds it locked. -/
def StoreOp.lockedAnswer (projectId runId : String) : StoreOp → StoreError
  | .startRun .. => .runAlreadyExists projectId runId
  | _ => .locked runId

namespace ApprovedDir

variable {w w' : World} {dir : String}

theorem of_disk (h : ApprovedDir w dir) (hdisk : w'.disk = w.disk) (hcwd : w'.cwd = w.cwd) :
    ApprovedDir w' dir := by
  obtain ⟨hdir, htrace, happroval, hopen⟩ := h
  rw [← hdisk, ← hcwd] at hdir htrace happroval hopen
  exact ⟨hdir, htrace, happroval, hopen⟩

theorem of_approveRun {project approvedBy reason engineVersion : String} {o : ApprovalOutcome}
    (hrun : (approveRun dir project approvedBy reason engineVersion).run.run w = (.ok o, w')) :
    ApprovedDir w' dir := by
  obtain ⟨_, _, -, htrace, happroval⟩ := approveRun_files hrun
  exact ⟨(approveRun_ok_keeps hrun).2, Disk.exists_of_read htrace, Disk.exists_of_read happroval,
    approveRun_opens hrun⟩

/-! ## The checks that stop every call -/

theorem lockRun_run (h : ApprovedDir w dir) : (storeIo (lockRun dir)).run.run w = (.ok (), w) := by
  apply RunFiles.storeIo_run_ok
  rw [(lockRun_reads dir).run_eq w, lockRun_ok h.hasDir h.opens]

theorem ensureUnlocked_run (h : ApprovedDir w dir) (runId : String) :
    (Store.ensureUnlocked dir runId).run.run w = (.error (.locked runId), w) := by
  unfold Store.ensureUnlocked
  rw [WorldE.run_bind]
  simp only [pathExists, onDisk_liftM_run, h.approval]
  rfl

theorem runTaken_run (h : ApprovedDir w dir) : (Store.runTaken dir).run.run w = (.ok true, w) := by
  unfold Store.runTaken
  rw [WorldE.run_bind]
  simp only [pathExists, onDisk_liftM_run, h.trace]
  rfl

/-! ## Every call is refused -/

variable {s : Store} {projectId runId : String}

theorem mutate_run (h : ApprovedDir w (s.runDir projectId runId)) (agentId : Option String)
    (kind : EventKind) :
    (s.mutate runId projectId agentId kind).run.run w = (.error (.locked runId), w) := by
  have hrem : ((liftM (rememberedTail (s.id, projectId, runId)) : WorldE StoreError _).run.run w).1
      = .ok (w.tailOf (s.id, projectId, runId)) := rfl
  unfold Store.mutate
  rw [(rememberedTail_reads _).run_bind_ok hrem, WorldE.bind_run_ok h.lockRun_run,
    WorldE.bind_run_error (h.ensureUnlocked_run runId)]

theorem log_run (h : ApprovedDir w (s.runDir projectId runId)) (level component message : String) :
    (s.log runId projectId level component message).run.run w = (.error (.locked runId), w) := by
  have hrem : ((liftM (rememberedTail (s.id, projectId, runId)) : WorldE StoreError _).run.run w).1
      = .ok (w.tailOf (s.id, projectId, runId)) := rfl
  unfold Store.log
  rw [(rememberedTail_reads _).run_bind_ok hrem, WorldE.bind_run_ok h.lockRun_run,
    WorldE.bind_run_error (h.ensureUnlocked_run runId)]

theorem startRun_run (h : ApprovedDir w (s.runDir projectId runId)) (name : String)
    (specs : List AgentSpec) (exec : Execution) :
    (s.startRun runId projectId name specs exec).run.run w =
      (.error (.runAlreadyExists projectId runId), w) := by
  unfold Store.startRun
  rw [WorldE.bind_run_ok h.runTaken_run, if_pos rfl]
  rfl

theorem recoverRun_run (h : ApprovedDir w (s.runDir projectId runId)) :
    let r := (s.recoverRun projectId runId).run.run w
    r.1 = .error (.locked runId) ∧ r.2.disk = w.disk ∧ r.2.cwd = w.cwd := by
  dsimp only
  unfold Store.recoverRun
  rw [WorldE.bind_run_ok (WorldE.liftM_run _ _)]
  have h₁ : ApprovedDir ((rememberTail (s.id, projectId, runId) none).run w).2
      (s.runDir projectId runId) := h.of_disk rfl rfl
  rw [WorldE.bind_run_ok h₁.lockRun_run, WorldE.bind_run_error (h₁.ensureUnlocked_run runId)]
  exact ⟨rfl, rfl, rfl⟩

theorem addStep_run (h : ApprovedDir w (s.runDir projectId runId)) (agentId : String) (step : Step) :
    let r := (s.addStep runId projectId agentId step).run.run w
    r.1 = .error (.locked runId) ∧ r.2.disk = w.disk ∧ r.2.cwd = w.cwd := by
  dsimp only
  unfold Store.addStep
  by_cases hbare : step.startedAt.isNone = true ∧ step.endedAt.isNone = true
  · rw [if_pos hbare]
    have hnow : (liftM now : WorldE StoreError Instant).run.run w =
        (.ok w.clock, { w with clock := w.clock.addMicros 1 }) := rfl
    rw [WorldE.bind_run_ok hnow, WorldE.bind_run_ok (WorldE.run_pure _ _)]
    dsimp only
    have h₁ : ApprovedDir { w with clock := w.clock.addMicros 1 } (s.runDir projectId runId) :=
      h.of_disk rfl rfl
    rw [WorldE.bind_run_error (h₁.mutate_run _ _)]
    exact ⟨rfl, rfl, rfl⟩
  · rw [if_neg hbare, WorldE.bind_run_ok (WorldE.run_pure _ _)]
    dsimp only
    rw [WorldE.bind_run_error (h.mutate_run _ _)]
    exact ⟨rfl, rfl, rfl⟩

end ApprovedDir

/-- A computation that fails with `e` without touching the disk or the working directory makes
whatever follows it fail the same way. -/
theorem refused_bind {α β : Type} {m : WorldE StoreError α} {f : α → WorldE StoreError β}
    {w : World} {e : StoreError}
    (hm : (m.run.run w).1 = .error e ∧ (m.run.run w).2.disk = w.disk ∧ (m.run.run w).2.cwd = w.cwd) :
    ((m >>= f).run.run w).1 = .error e ∧ ((m >>= f).run.run w).2.disk = w.disk ∧
      ((m >>= f).run.run w).2.cwd = w.cwd := by
  obtain ⟨hr, hdisk, hcwd⟩ := hm
  rcases hrun : m.run.run w with ⟨r, w'⟩
  rw [hrun] at hr hdisk hcwd
  dsimp only at hr hdisk hcwd
  subst hr
  rw [WorldE.bind_run_error hrun]
  exact ⟨rfl, hdisk, hcwd⟩

/-- Every call on an approved run is refused with its answer, and leaves the disk and the working
directory as they were. -/
theorem StoreOp.run_approved {w : World} {s : Store} {projectId runId : String}
    (h : ApprovedDir w (s.runDir projectId runId)) (op : StoreOp) :
    let r := (op.run s projectId runId).run.run w
    r.1 = .error (op.lockedAnswer projectId runId) ∧ r.2.disk = w.disk ∧ r.2.cwd = w.cwd := by
  dsimp only
  cases op <;> dsimp only [StoreOp.run]
  case startRun name specs exec =>
    rw [WorldE.bind_run_error (h.startRun_run name specs exec)]
    exact ⟨rfl, rfl, rfl⟩
  case addStep agentId step => exact refused_bind (h.addStep_run agentId step)
  case completeRun status =>
    have hrun : (s.completeRun runId projectId status).run.run w = (.error (.locked runId), w) := by
      unfold Store.completeRun
      rw [WorldE.bind_run_error (h.mutate_run _ _)]
    rw [WorldE.bind_run_error hrun]
    exact ⟨rfl, rfl, rfl⟩
  case log level component message =>
    rw [WorldE.bind_run_error (h.log_run level component message)]
    exact ⟨rfl, rfl, rfl⟩
  case recoverRun => exact refused_bind h.recoverRun_run
  all_goals
    first
    | unfold Store.startAgent
    | unfold Store.addArtifact
    | unfold Store.addIncident
    | unfold Store.completeAgent
    rw [WorldE.bind_run_error (WorldE.bind_run_error (h.mutate_run _ _))]
    exact ⟨rfl, rfl, rfl⟩

/-! ## Histories on an approved run -/

theorem runCalls_cons_run (x : RunSite) (s : Store) (op : StoreOp) (rest : List (Store × StoreOp))
    (w : World) :
    (runCalls x ((s, op) :: rest)).run w =
      (((op.run s x.project x.run).run.run w).1 ::
          ((runCalls x rest).run ((op.run s x.project x.run).run.run w).2).1,
        ((runCalls x rest).run ((op.run s x.project x.run).run.run w).2).2) := rfl

/-- A store reads the same trace from two worlds with the same disk and working directory, and
reading leaves the world as it is. -/
theorem Store.trace?_run_of_disk (s : Store) (projectId runId : String) {w w' : World}
    (hdisk : w'.disk = w.disk) (hcwd : w'.cwd = w.cwd) :
    (s.trace? projectId runId).run w' = (((s.trace? projectId runId).run w).1, w') := by
  have hreads := loadRun_reads (s.runDir projectId runId) none
  have hview : runView (s.runDir projectId runId) w' = runView (s.runDir projectId runId) w := by
    simp only [runView, pathView, hdisk, hcwd]
  unfold Store.trace?
  rw [WorldM.bind_run, WorldM.bind_run, hreads.run_eq w', hreads.run_eq w, hreads.answer w' w hview]
  rcases ((loadRun (s.runDir projectId runId) none).run.run w).1 with err | t <;> rfl

namespace ApprovedDir

variable {x : RunSite} {w : World}

/-- Through any history of calls on an approved run, each call is refused with its answer and the
disk and the working directory stay as they were. -/
theorem runCalls_run (h : ApprovedDir w x.dir) (calls : List (Store × StoreOp))
    (hroots : ∀ c ∈ calls, c.1.root = x.root) :
    let r := (runCalls x calls).run w
    r.1 = calls.map (fun c => .error (c.2.lockedAnswer x.project x.run)) ∧ r.2.disk = w.disk ∧
      r.2.cwd = w.cwd := by
  -- the run stays approved after each call, which carries the rest of the history
  induction calls generalizing w with
  | nil => exact ⟨rfl, rfl, rfl⟩
  | cons c rest ih =>
    obtain ⟨s, op⟩ := c
    have hs : ApprovedDir w (s.runDir x.project x.run) := by
      rw [x.runDir_eq (hroots _ (.head _))]
      exact h
    obtain ⟨hr, hdisk, hcwd⟩ := StoreOp.run_approved hs op
    obtain ⟨hrs, hdisk', hcwd'⟩ := ih (h.of_disk hdisk hcwd) fun c hc => hroots c (.tail _ hc)
    dsimp only
    rw [runCalls_cons_run, hr, hrs]
    exact ⟨rfl, hdisk'.trans hdisk, hcwd'.trans hcwd⟩

end ApprovedDir

/-- Once approving a run has succeeded, every later history of calls on it through stores on its
root is refused call by call (a start finds the run taken, every other call finds it locked), the
disk stays exactly as the approval left it, approving the run again is refused as approved already
and changes nothing, and every store reads the same trace from it as right after the approval. -/
theorem approved_run_stays_locked {x : RunSite} {w₀ w : World}
    {project approvedBy reason engineVersion : String} {o : ApprovalOutcome}
    (happ : (approveRun x.dir project approvedBy reason engineVersion).run.run w₀ = (.ok o, w))
    (calls : List (Store × StoreOp)) (hroots : ∀ c ∈ calls, c.1.root = x.root) (reader : Store)
    (project' approvedBy' reason' engineVersion' : String) :
    let r := (runCalls x calls).run w
    r.1 = calls.map (fun c => .error (c.2.lockedAnswer x.project x.run)) ∧ r.2.disk = w.disk ∧
      (approveRun x.dir project' approvedBy' reason' engineVersion').run.run r.2 =
        (.error (.alreadyApproved x.dir), r.2) ∧
      (reader.trace? x.project x.run).run r.2 = (((reader.trace? x.project x.run).run w).1, r.2) := by
  intro r
  have h := ApprovedDir.of_approveRun happ
  obtain ⟨hr, hdisk, hcwd⟩ := h.runCalls_run calls hroots
  have h' : ApprovedDir r.2 x.dir := h.of_disk hdisk hcwd
  exact ⟨hr, hdisk, approveRun_already h'.trace h'.hasDir h'.opens h'.approval,
    reader.trace?_run_of_disk x.project x.run hdisk hcwd⟩

/-- A disk holding the finished run `r` of project `p` below the root directory. -/
def finishedRunRoot : World :=
  { World.fresh [] ⟨20000, 3600, 0⟩ with
    disk := ⟨[(["p"], .dir Disk.dirMode), (["p", "r"], .dir Disk.dirMode),
      (["p", "r", "trace.json"], .file finishedRunTrace.toUTF8.toList Disk.fileMode)]⟩ }

/-- What approving that run for project `p` by `ann` gives. -/
def finishedRunRootApproval : ApprovalOutcome :=
  { approvalPath := Path.join sampleSite.dir approvalFileName,
    approval := { Approval.new "p" "ann" "" "v" ⟨20000, 3600, 0⟩ with
      traceDigest := some (Sha256.hex finishedRunTrace.toUTF8.toList) },
    warnings := [] }

/-- Starting the run again, logging a line and recovering it, through three stores. -/
def lockedProbes : List (Store × StoreOp) :=
  [(⟨0, "/"⟩, .startRun "demo" [] Execution.default), (⟨1, "/"⟩, .log "info" "runner" "again"),
    (⟨2, "/"⟩, .recoverRun)]

theorem lockedProbes_roots : ∀ c ∈ lockedProbes, c.1.root = sampleSite.root := by
  intro c hc
  simp only [lockedProbes, List.mem_cons, List.mem_nil_iff, or_false] at hc
  rcases hc with rfl | rfl | rfl <;> rfl

theorem finishedRunRoot_approveRun :
    (approveRun sampleSite.dir "p" "ann" "" "v").run.run finishedRunRoot =
      (.ok finishedRunRootApproval,
        ((approveRun sampleSite.dir "p" "ann" "" "v").run.run finishedRunRoot).2) :=
  Prod.ext (Except.eq_ok_of_toOption (by decide +kernel)) rfl

theorem approved_run_stays_locked_probed :
    let w := ((approveRun sampleSite.dir "p" "ann" "" "v").run.run finishedRunRoot).2
    let r := (runCalls sampleSite lockedProbes).run w
    (approveRun sampleSite.dir "p" "ann" "" "v").run.run finishedRunRoot =
        (.ok finishedRunRootApproval, w) ∧
      r.1 = lockedProbes.map (fun c => .error (c.2.lockedAnswer sampleSite.project sampleSite.run)) ∧
      r.2.disk = w.disk ∧
      (approveRun sampleSite.dir "p" "bob" "" "v").run.run r.2 =
        (.error (.alreadyApproved sampleSite.dir), r.2) ∧
      ((⟨3, "/"⟩ : Store).trace? sampleSite.project sampleSite.run).run r.2 =
        ((((⟨3, "/"⟩ : Store).trace? sampleSite.project sampleSite.run).run w).1, r.2) := by
  intro w r
  exact ⟨finishedRunRoot_approveRun, approved_run_stays_locked finishedRunRoot_approveRun lockedProbes
    lockedProbes_roots ⟨3, "/"⟩ "p" "bob" "" "v"⟩

end RunJournal
