import RunJournal.Proofs.Approval
import RunJournal.Proofs.Footprint
import RunJournal.Baseline.Manager
/-!
# Recording a baseline: the parts of an approval

Approving through the manager prepares the project's record, locks the run, and then moves the
record in place. Each part has a footprint. Preparing the record only makes its directory. Locking
touches the run's trace, approval and log, and sets the bits of the run directory, which is there
by then and holds no file. Moving the record in place touches the record, and when it fails it
touches nothing. So a failed call leaves every other file as it was, the record included, whatever
step failed.

A refusal writes no approval, but it can still change a file. Approving catches the trace up with
its log and writes it anew before it looks at the run's project and status, and a trace written
anew is private (`0o600`), whatever its bits were. `TraceRewritten` says exactly that much.

An approval file appears in a failed call only when moving the record failed after the run was
locked. Repeating the call once the record can be written finds the half-finished approval
(`unfinishedApproval`) and records it (`resumed`). `Proofs.AtomicApproval` puts the parts together.
-/

namespace RunJournal

open RunJournal.Path

section Lock

theorem Footprint.setMode (path : String) (mode : Nat) :
    Footprint [path] (setMode path mode).run :=
  Footprint.changeDisk fun _ _ _ h => by simpa using (Disk.chmod_keepsFilesOff h).1

theorem Footprint.lockFile (runDir file : String) :
    Footprint [Path.join runDir file] (lockFile runDir file) := by
  unfold RunJournal.lockFile
  dsimp only
  refine (Footprint.pathExists _).bind (Q := [Path.join runDir file] ++ []) fun e => ?_
  split
  · exact (Footprint.pure _).mono fun p hp => by simp at hp
  · exact (Footprint.setMode _ _).bind fun r => by split <;> exact Footprint.pure _

theorem setMode_dir_keepsFiles {path : String} {mode m : Nat} {w : World}
    (hdir : w.disk.get? (Disk.place w.cwd path) = some (.dir m)) :
    w.KeepsFilesOff [] ((setMode path mode).run.run w).2 := by
  unfold RunJournal.setMode
  obtain ⟨hcwd, -, hdisk⟩ := changeDisk_effect (fun d cwd => d.chmod cwd path mode) w
  refine ⟨hcwd, ?_⟩
  rcases hdisk with hsame | hok
  · rw [hsame]
    exact Disk.KeepsFilesOff.refl _ _
  · obtain ⟨hkeep, hat⟩ := Disk.chmod_keepsFilesOff hok
    refine hkeep.erase ?_
    rw [hat, Disk.fileAt_of_dir hdir]
    rfl

/-- Locking a run whose directory is there changes no file but its approval, trace and log. -/
theorem lockRunFiles_keepsFiles {runDir : String} {w : World} {m : Nat}
    (hdir : w.disk.get? (Disk.place w.cwd runDir) = some (.dir m)) :
    w.KeepsFilesOff [join runDir approvalFileName, join runDir traceFileName,
      join runDir eventsFileName] ((lockRunFiles runDir).run w).2 := by
  let w₁ := (([approvalFileName, traceFileName, eventsFileName].mapM (lockFile runDir)).run w).2
  have hfiles : w.KeepsFilesOff _ w₁ := Footprint.mapM (Footprint.lockFile runDir) _ w
  obtain ⟨m₁, hdir₁⟩ := hfiles.2.1 _ m hdir
  rw [← hfiles.1] at hdir₁
  have hstep : ((lockRunFiles runDir).run w).2 = ((setMode runDir 0o555).run.run w₁).2 := by
    unfold lockRunFiles
    rw [WorldM.bind_run_snd, WorldM.bind_run_snd, StateT.run_pure]
    rfl
  rw [hstep]
  simpa using hfiles.trans (setMode_dir_keepsFiles hdir₁)

end Lock

section Refusals

variable {runDir : String} {w w₁ w₂ : World}

/-- From `w` to `w'` no file changed but the run's trace, which is as it was or holds the text of
a trace, written anew and private. -/
def TraceRewritten (runDir : String) (w w' : World) : Prop :=
  w.KeepsFilesOff [join runDir traceFileName] w' ∧
    (w'.disk.fileAt (Disk.place w.cwd (join runDir traceFileName)) =
        w.disk.fileAt (Disk.place w.cwd (join runDir traceFileName)) ∨
      ∃ t : Trace, w'.disk.fileAt (Disk.place w.cwd (join runDir traceFileName)) =
        some (t.fileText.toUTF8.toList, Disk.privateMode))

namespace TraceRewritten

theorem of_keeps (h : w.KeepsFilesOff [] w') : TraceRewritten runDir w w' :=
  ⟨h.mono (by simp), .inl (h.2.2 _ (by simp))⟩

theorem keeps_trans (h₁ : w.KeepsFilesOff [] w₁) (h₂ : TraceRewritten runDir w₁ w₂) :
    TraceRewritten runDir w w₂ := by
  refine ⟨by simpa using h₁.trans h₂.1, ?_⟩
  rw [← h₁.1, ← h₁.2.2 _ (by simp)]
  exact h₂.2

theorem trans_keeps (h₁ : TraceRewritten runDir w w₁) (h₂ : w₁.KeepsFilesOff [] w₂) :
    TraceRewritten runDir w w₂ := by
  refine ⟨by simpa using h₁.1.trans h₂, ?_⟩
  have hat := h₂.2.2 (Disk.place w.cwd (join runDir traceFileName)) (by simp)
  rw [hat]
  exact h₁.2

theorem fileAt_eq {x : List String} (h : TraceRewritten runDir w w')
    (hx : x ≠ Disk.place w.cwd (join runDir traceFileName)) : w'.disk.fileAt x = w.disk.fileAt x :=
  h.1.2.2 x (by simpa using hx)

end TraceRewritten

theorem WorldE.bind_snd_of_keeps {ε α β : Type} {x : WorldE ε α} {f : α → WorldE ε β}
    (hf : ∀ a w, ((f a).run.run w).2 = w) (w : World) :
    ((x >>= f).run.run w).2 = (x.run.run w).2 := by
  rw [WorldE.run_bind]
  rcases x.run.run w with ⟨_ | a, w'⟩
  · rfl
  · exact hf a w'

theorem changeDisk_clock (f : Disk → List String → Except IoError Disk) (w : World) :
    ((changeDisk f).run.run w).2.clock = w.clock := by
  rw [changeDisk_run]
  split
  · rfl
  · rw [applyDisk_run]
    split <;> rfl

/-- Writing a snapshot keeps the working directory and the clock, and leaves the disk as it was
or with the trace file replaced. -/
theorem writeTrace_effect (t : Trace) (w : World) :
    ((writeTrace runDir t).run.run w).2.cwd = w.cwd ∧
      ((writeTrace runDir t).run.run w).2.clock = w.clock ∧
      (((writeTrace runDir t).run.run w).2.disk = w.disk ∨
        w.disk.replace w.cwd runDir traceFileName t.fileText.toUTF8.toList =
          .ok ((writeTrace runDir t).run.run w).2.disk) := by
  unfold writeTrace
  rw [WorldE.run_bind, lift_ioCheck_run]
  dsimp only
  split
  · exact ⟨rfl, rfl, .inl rfl⟩
  · rw [storeIo, WorldE.mapError_run]
    obtain ⟨hcwd, -, hdisk⟩ := changeDisk_effect (fun d cwd =>
      d.replace cwd runDir traceFileName t.fileText.toUTF8.toList) w.advance
    exact ⟨hcwd, changeDisk_clock _ _, hdisk⟩

theorem writeTrace_rewritten (t : Trace) (w : World) :
    TraceRewritten runDir w ((writeTrace runDir t).run.run w).2 := by
  obtain ⟨hcwd, -, hsame | hok⟩ := @writeTrace_effect runDir t w
  · exact TraceRewritten.of_keeps (World.KeepsFilesOff.of_disk hsame hcwd [])
  · obtain ⟨hkeep, hat⟩ := Disk.replace_keepsFilesOff hok
    exact ⟨⟨hcwd, hkeep⟩, .inr ⟨t, hat⟩⟩

/-- Catching the trace file up ends where it began, or, when the log had events that changed the
trace, where writing the caught-up trace ended. -/
theorem catchUpTraceFile_world (t : Trace) (bytes : List UInt8) (w : World) :
    ((catchUpTraceFile runDir t bytes).run.run w).2 = w ∨
      ∃ t' c, (catchUpFromLog runDir t none).run.run w = (.ok (t', c), w) ∧ 0 < c ∧
        ((catchUpTraceFile runDir t bytes).run.run w).2 = ((writeTrace runDir t').run.run w).2 := by
  have hkeeps := (catchUpFromLog_reads runDir t none).keeps w
  unfold catchUpTraceFile
  rw [WorldE.run_bind, baselineStore, WorldE.mapError_run]
  rcases hc : (catchUpFromLog runDir t none).run.run w with ⟨_ | ⟨t', c⟩, w₁⟩ <;>
    rw [hc] at hkeeps <;> subst hkeeps
  · exact .inl rfl
  · dsimp only [Except.mapError]
    split
    · have hread : ∀ (_ : Unit) w', ((do
          let b ← baselineIo (readPath (join runDir traceFileName))
          pure (t', b) : WorldE BaselineError (Trace × List UInt8)).run.run w').2 = w' := fun _ =>
        (Reads.bind (Reads.mapError _ (readPath_reads _)) fun _ => Reads.ret _).keeps
      rw [WorldE.bind_snd_of_keeps hread, baselineStore, WorldE.mapError_run]
      exact .inr ⟨t', c, rfl, by omega, rfl⟩
    · exact .inl rfl

/-- Catching the trace up with its log rewrites the trace, whatever comes of it. -/
theorem catchUpTraceFile_rewritten (t : Trace) (bytes : List UInt8) (w : World) :
    TraceRewritten runDir w ((catchUpTraceFile runDir t bytes).run.run w).2 := by
  rcases @catchUpTraceFile_world runDir t bytes w with hsame | ⟨t', c, -, -, hwrite⟩
  · rw [hsame]
    exact TraceRewritten.of_keeps (World.KeepsFilesOff.refl [] w)
  · rw [hwrite]
    exact writeTrace_rewritten t' w

theorem catchUpTraceFile_clock (t : Trace) (bytes : List UInt8) (w : World) :
    ((catchUpTraceFile runDir t bytes).run.run w).2.clock = w.clock := by
  rcases @catchUpTraceFile_world runDir t bytes w with hsame | ⟨t', c, -, -, hwrite⟩
  · rw [hsame]
  · rw [hwrite]
    exact (@writeTrace_effect runDir t' w).2.1

theorem writeApproval_error_keeps {a : Approval} {e : BaselineError}
    (hrun : ((writeApproval runDir a).run.run w).1 = .error e) :
    w.KeepsFilesOff [] ((writeApproval runDir a).run.run w).2 := by
  have hadvance : w.KeepsFilesOff [] w.advance := World.KeepsFilesOff.refl [] w
  unfold writeApproval at hrun ⊢
  rw [WorldE.run_bind, lift_ioCheck_run] at hrun ⊢
  rcases hcheck : (ioCheck.run.run w).1 with e' | ⟨⟩
  · exact hadvance
  · rw [hcheck] at hrun
    dsimp only at hrun ⊢
    rw [baselineIo, WorldE.mapError_run] at hrun ⊢
    rcases hchange : ((changeDisk fun d cwd =>
        d.replace cwd runDir approvalFileName a.fileText.toUTF8.toList).run.run w.advance).1
      with e₁ | ⟨⟩
    · refine ⟨(changeDisk_effect _ w.advance).1, ?_⟩
      rw [changeDisk_error hchange]
      exact Disk.KeepsFilesOff.refl _ _
    · rw [hchange] at hrun
      cases hrun

/-- A written approval changes no file but itself, and leaves the run directory there. -/
theorem writeApproval_ok_keeps {a : Approval}
    (hrun : (writeApproval runDir a).run.run w = (.ok (), w₁)) :
    w.KeepsFilesOff [join runDir approvalFileName] w₁ ∧ w₁.disk.HasDir w₁.cwd runDir := by
  unfold writeApproval at hrun
  rw [WorldE.run_bind, lift_ioCheck_run] at hrun
  dsimp only at hrun
  split at hrun
  · rw [WorldE.run_bind, WorldE.run_throw] at hrun
    cases hrun
  rw [baselineIo, WorldE.mapError_run, Prod.mk.injEq] at hrun
  obtain ⟨hok, rfl⟩ := hrun
  have hdisk := changeDisk_ok (Except.mapError_eq_ok.mp hok)
  have hcwd := (changeDisk_effect (fun d cwd =>
    d.replace cwd runDir approvalFileName a.fileText.toUTF8.toList) w.advance).1
  rw [World.advance_disk, World.advance_cwd] at hdisk
  rw [World.advance_cwd] at hcwd
  refine ⟨⟨hcwd, (Disk.replace_keepsFilesOff hdisk).1⟩, ?_⟩
  rw [hcwd]
  exact Disk.replace_hasDir hdisk

/-- A computation run under another error type fails only with a translated error. -/
theorem WorldE.mapError_error {ε ε' α : Type} {g : ε → ε'} {m : WorldE ε α} {e : ε'}
    (h : ((WorldE.mapError g m).run.run w).1 = .error e) : ∃ e₀, e = g e₀ := by
  rw [WorldE.mapError_run] at h
  rcases hm : (m.run.run w).1 with e₀ | a <;> rw [hm] at h
  · cases h
    exact ⟨e₀, rfl⟩
  · cases h

theorem catchUpTraceFile_error {t : Trace} {bytes : List UInt8} {e : BaselineError}
    (h : ((catchUpTraceFile runDir t bytes).run.run w).1 = .error e) :
    (∃ s, e = .store s) ∨ ∃ io, e = .io io := by
  unfold catchUpTraceFile at h
  rcases WorldE.bind_eq_error (Prod.ext h rfl) with hcaught | ⟨⟨t', applied⟩, w₁, -, hrest⟩
  · exact .inl (WorldE.mapError_error (congrArg Prod.fst hcaught))
  dsimp only at hrest
  split at hrest
  · rcases WorldE.bind_eq_error hrest with hwrite | ⟨_, w₂, -, hrest⟩
    · exact .inl (WorldE.mapError_error (congrArg Prod.fst hwrite))
    rcases WorldE.bind_eq_error hrest with hread | ⟨_, w₃, -, hrest⟩
    · exact .inr (WorldE.mapError_error (congrArg Prod.fst hread))
    · cases hrest
  · cases hrest

theorem writeApproval_error {a : Approval} {e : BaselineError}
    (h : ((writeApproval runDir a).run.run w).1 = .error e) :
    (∃ msg, e = .json msg) ∨ ∃ io, e = .io io := by
  unfold writeApproval at h
  rw [WorldE.run_bind, lift_ioCheck_run] at h
  dsimp only at h
  split at h
  · rw [WorldE.run_bind, WorldE.run_throw] at h
    cases h
    exact .inl ⟨_, rfl⟩
  · exact .inr (WorldE.mapError_error h)

/-- Where a failed approval stops: before it changes anything, or after catching the trace file
up from the trace it read there, with nothing changed after that. Only a failure before the
catch-up finds the run approved already, and then in its own directory. -/
theorem approveRun_error_shape {project approvedBy reason engineVersion : String} {e : BaselineError}
    (hrun : (approveRun runDir project approvedBy reason engineVersion).run.run w = (.error e, w₂)) :
    (w₂ = w ∧ ∀ d, e = .alreadyApproved d → d = runDir) ∨
      ∃ bytes₀ t₀ r w₁, w.disk.read w.cwd (join runDir traceFileName) = .ok bytes₀ ∧
        Json.readBytes Read.trace bytes₀ = .ok t₀ ∧
        (catchUpTraceFile runDir t₀ bytes₀).run.run w = (r, w₁) ∧ w₁.KeepsFilesOff [] w₂ ∧
        ∀ d, e ≠ .alreadyApproved d := by
  have hio : ∀ io d, BaselineError.io io ≠ .alreadyApproved d := fun _ _ h => by cases h
  rw [approveRun] at hrun
  rcases Reads.bind_eq_error (pathExists_reads _) hrun with ⟨herr, rfl⟩ | ⟨hasTrace, -, hrun⟩
  · cases herr
  dsimp only at hrun
  split at hrun
  · rw [WorldE.run_bind, WorldE.run_throw] at hrun
    cases hrun
    exact .inl ⟨rfl, fun d h => by cases h⟩
  rcases Reads.bind_eq_error (Reads.mapError _ (lockRun_reads runDir)) hrun
    with ⟨herr, rfl⟩ | ⟨_, -, hrun⟩
  · obtain ⟨io, rfl⟩ := WorldE.mapError_error herr
    exact .inl ⟨rfl, fun d h => absurd h (hio io d)⟩
  rcases Reads.bind_eq_error (pathExists_reads _) hrun with ⟨herr, rfl⟩ | ⟨hasApproval, -, hrun⟩
  · cases herr
  split at hrun
  · rw [WorldE.run_bind, WorldE.run_throw] at hrun
    cases hrun
    exact .inl ⟨rfl, fun d h => by cases h; rfl⟩
  rcases Reads.bind_eq_error (Reads.mapError _ (readPath_reads _)) hrun
    with ⟨herr, rfl⟩ | ⟨bytes₀, hbytes₀, hrun⟩
  · obtain ⟨io, rfl⟩ := WorldE.mapError_error herr
    exact .inl ⟨rfl, fun d h => absurd h (hio io d)⟩
  split at hrun
  case h_2 =>
    rw [WorldE.run_bind, WorldE.run_throw] at hrun
    cases hrun
    exact .inl ⟨rfl, fun d h => by cases h⟩
  rename_i t₀ hparse
  rw [WorldE.run_bind, WorldE.run_pure] at hrun
  dsimp only at hrun
  have hread := read_of_baselineIo_readPath hbytes₀
  rcases WorldE.bind_eq_error hrun with hcatch | ⟨⟨t, bytes⟩, w₁, hcatch, hrun⟩
  · refine .inr ⟨bytes₀, t₀, _, w₂, hread, hparse, hcatch, World.KeepsFilesOff.refl [] w₂, ?_⟩
    rintro d rfl
    rcases catchUpTraceFile_error (congrArg Prod.fst hcatch) with ⟨s, hs⟩ | ⟨io, hs⟩ <;> cases hs
  dsimp only at hrun
  have hnot : ∀ d, e ≠ .alreadyApproved d := by
    rintro d rfl
    split at hrun
    · rw [WorldE.run_bind, WorldE.run_throw] at hrun
      cases hrun
    split at hrun
    · rw [WorldE.run_bind, WorldE.run_throw] at hrun
      cases hrun
    rw [WorldE.run_bind] at hrun
    rcases WorldE.bind_eq_error hrun with hwrite | ⟨_, w₃, -, hrun⟩
    · rcases writeApproval_error (congrArg Prod.fst hwrite) with ⟨msg, hm⟩ | ⟨io, hm⟩ <;> cases hm
    rcases WorldE.bind_eq_error hrun with hlock | ⟨_, w₄, -, hrun⟩
    · cases hlock
    · cases hrun
  refine .inr ⟨bytes₀, t₀, _, w₁, hread, hparse, hcatch, ?_, hnot⟩
  split at hrun
  · rw [WorldE.run_bind, WorldE.run_throw] at hrun
    cases hrun
    exact World.KeepsFilesOff.refl [] _
  split at hrun
  · rw [WorldE.run_bind, WorldE.run_throw] at hrun
    cases hrun
    exact World.KeepsFilesOff.refl [] _
  have hclock : (liftM now : WorldE BaselineError Instant).run.run w₁ =
      (.ok w₁.clock, { w₁ with clock := w₁.clock.addMicros 1 }) := rfl
  rw [WorldE.run_bind, hclock] at hrun
  dsimp only at hrun
  have htick : w₁.KeepsFilesOff [] { w₁ with clock := w₁.clock.addMicros 1 } :=
    World.KeepsFilesOff.refl [] w₁
  rcases WorldE.bind_eq_error hrun with hwrite | ⟨_, w₃, -, hrun⟩
  · have hkeep := writeApproval_error_keeps (congrArg Prod.fst hwrite)
    rw [hwrite] at hkeep
    exact htick.trans hkeep
  rcases WorldE.bind_eq_error hrun with hlock | ⟨_, w₄, -, hrun⟩
  · cases hlock
  · cases hrun

/-- A failed approval changes no file but the trace, which it may have caught up with its log;
it finds the run approved already only in its own directory. -/
theorem approveRun_error {project approvedBy reason engineVersion : String} {e : BaselineError}
    (hrun : (approveRun runDir project approvedBy reason engineVersion).run.run w = (.error e, w₂)) :
    TraceRewritten runDir w w₂ ∧ ∀ d, e = .alreadyApproved d → d = runDir := by
  rcases approveRun_error_shape hrun with ⟨rfl, hd⟩ | ⟨bytes₀, t₀, r, w₁, -, -, hcatch, hkeep, hne⟩
  · exact ⟨TraceRewritten.of_keeps (World.KeepsFilesOff.refl [] _), hd⟩
  · have hcaught := @catchUpTraceFile_rewritten runDir t₀ bytes₀ w
    rw [hcatch] at hcaught
    exact ⟨hcaught.trans_keeps hkeep, fun d h => absurd h (hne d)⟩

/-- An approval that succeeds changes no file but the run's trace, approval and log, and leaves
the run directory there. -/
theorem approveRun_ok_keeps {project approvedBy reason engineVersion : String}
    {o : ApprovalOutcome}
    (hrun : (approveRun runDir project approvedBy reason engineVersion).run.run w = (.ok o, w₂)) :
    w.KeepsFilesOff [join runDir traceFileName, join runDir approvalFileName,
      join runDir eventsFileName] w₂ ∧ w₂.disk.HasDir w₂.cwd runDir := by
  obtain ⟨bytes₀, t₀, t, bytes, w₁, w₃, -, -, hcatch, -, hwrite, rfl⟩ := approveRun_ok hrun
  have hcaught := (@catchUpTraceFile_rewritten runDir t₀ bytes₀ w).1
  rw [hcatch] at hcaught
  have htick : w₁.KeepsFilesOff [] { w₁ with clock := w₁.clock.addMicros 1 } :=
    World.KeepsFilesOff.refl [] w₁
  obtain ⟨hwritten, hdir⟩ := writeApproval_ok_keeps hwrite
  obtain ⟨m, hplace⟩ := hdir.get_place
  have hlock := lockRunFiles_keepsFiles hplace
  refine ⟨(((hcaught.trans htick).trans hwritten).trans hlock).mono ?_, ?_⟩
  · intro p hp
    simp only [List.mem_append, List.mem_cons, List.not_mem_nil, or_false] at hp
    rcases hp with ((rfl | rfl) | rfl) | rfl | rfl | rfl <;> simp
  · rw [hlock.1]
    exact hdir.keepsDirs hlock.2.1

/-- An approval that succeeds is stamped with the clock as the call found it. -/
theorem approveRun_approvedAt {project approvedBy reason engineVersion : String}
    {o : ApprovalOutcome}
    (hrun : (approveRun runDir project approvedBy reason engineVersion).run.run w = (.ok o, w₂)) :
    o.approval.approvedAt = w.clock := by
  obtain ⟨bytes₀, t₀, t, bytes, w₁, w₃, -, -, hcatch, happroval, -⟩ := approveRun_ok hrun
  have hclock := @catchUpTraceFile_clock runDir t₀ bytes₀ w
  rw [hcatch] at hclock
  rw [happroval]
  exact hclock

/-- A run whose directory is there can be locked when its log is missing or readable. -/
theorem lockRun_ok (hdir : w.disk.HasDir w.cwd runDir)
    (hopen : w.disk.Opens w.cwd (join runDir eventsFileName)) :
    ((lockRun runDir).run.run w).1 = .ok () := by
  have hloc := hdir.locate_join (n := eventsFileName) (by decide) (by decide)
  unfold lockRun
  rw [WorldE.run_bind, onDisk_lift_run]
  rcases hget : w.disk.get? (Disk.place w.cwd runDir ++ [eventsFileName]) with _ | e
  · rw [Disk.metadata_of_get?_none hloc hget]
    rfl
  · have hmeta := Disk.metadata_of_get? hloc hget
    rw [hmeta]
    simp only [hopen e hmeta, if_true]
    rfl

theorem opens_of_lockRun (h : ((lockRun runDir).run.run w).1 = .ok ()) :
    w.disk.Opens w.cwd (join runDir eventsFileName) := by
  intro e hmeta
  unfold lockRun at h
  rw [WorldE.run_bind, onDisk_lift_run, hmeta] at h
  cases hr : Disk.canRead e.mode
  · simp only [hr, Bool.false_eq_true, if_false] at h
    cases h
  · rfl

/-! Approving keeps a readable log readable: it writes only the trace and the approval, and gives
the files and the directory bits their owner may read. -/

theorem writeTrace_opens (t : Trace) :
    Preserves (fun d cwd => d.Opens cwd (join runDir eventsFileName)) (writeTrace runDir t).run := by
  unfold writeTrace
  refine (Preserves.lift Preserves.ioCheck).bindE fun r => ?_
  cases r with
  | error e => exact Preserves.throwE _
  | ok u =>
    cases u
    exact Preserves.mapError _ (Preserves.changeDisk fun _ _ _ h ho =>
      ho.replace h (Disk.place_join_ne _ _ _ (by decide) (by decide) (by decide)))

theorem catchUpTraceFile_opens (t : Trace) (bytes : List UInt8) :
    Preserves (fun d cwd => d.Opens cwd (join runDir eventsFileName))
      (catchUpTraceFile runDir t bytes).run := by
  unfold catchUpTraceFile
  refine (Preserves.reads (Reads.mapError _ (catchUpFromLog_reads runDir t none))).bindE fun r => ?_
  obtain ⟨t', applied⟩ := r
  dsimp only
  split
  · exact (Preserves.mapError _ (writeTrace_opens t')).bindE fun _ =>
      (Preserves.reads (Reads.mapError _ (readPath_reads _))).bindE fun _ => Preserves.pureE _
  · exact Preserves.pureE _

theorem writeApproval_opens (a : Approval) :
    Preserves (fun d cwd => d.Opens cwd (join runDir eventsFileName))
      (writeApproval runDir a).run := by
  unfold writeApproval
  refine (Preserves.lift Preserves.ioCheck).bindE fun r => ?_
  cases r with
  | error e => exact Preserves.throwE _
  | ok u =>
    cases u
    exact Preserves.mapError _ (Preserves.changeDisk fun _ _ _ h ho =>
      ho.replace h (Disk.place_join_ne _ _ _ (by decide) (by decide) (by decide)))

theorem lockRunFiles_opens :
    Preserves (fun d cwd => d.Opens cwd (join runDir eventsFileName)) (lockRunFiles runDir) := by
  have hmode : ∀ p {mode : Nat}, Disk.canRead mode →
      Preserves (fun d cwd => d.Opens cwd (join runDir eventsFileName)) (setMode p mode).run :=
    fun _ _ hmode => Preserves.changeDisk fun _ _ _ h ho => ho.chmod h hmode
  have hfile : ∀ file, Preserves (fun d cwd => d.Opens cwd (join runDir eventsFileName))
      (lockFile runDir file) := by
    intro file
    unfold lockFile
    refine (Preserves.of_disk fun _ => ⟨rfl, rfl⟩).bind fun e => ?_
    split
    · exact Preserves.pure _
    · exact (hmode _ rfl).bind fun r => by split <;> exact Preserves.pure _
  unfold lockRunFiles
  exact (Preserves.mapM hfile _).bind fun _ => (hmode _ rfl).bind fun _ => Preserves.pure _

theorem approveRun_locks {project approvedBy reason engineVersion : String} {o : ApprovalOutcome}
    (hrun : (approveRun runDir project approvedBy reason engineVersion).run.run w = (.ok o, w₂)) :
    ((lockRun runDir).run.run w).1 = .ok () := by
  rw [approveRun] at hrun
  obtain ⟨hasTrace, -, hrun⟩ := Reads.bind_eq_ok (pathExists_reads _) hrun
  dsimp only at hrun
  split at hrun
  · rw [WorldE.run_bind, WorldE.run_throw] at hrun
    cases hrun
  obtain ⟨u, hlock, -⟩ := Reads.bind_eq_ok (Reads.mapError _ (lockRun_reads runDir)) hrun
  rw [WorldE.mapError_run] at hlock
  cases u
  exact Except.mapError_eq_ok.mp hlock

theorem approveRun_opens {project approvedBy reason engineVersion : String} {o : ApprovalOutcome}
    (hrun : (approveRun runDir project approvedBy reason engineVersion).run.run w = (.ok o, w₂)) :
    w₂.disk.Opens w₂.cwd (join runDir eventsFileName) := by
  have h₀ := opens_of_lockRun (approveRun_locks hrun)
  obtain ⟨bytes₀, t₀, t, bytes, w₁, w₃, -, -, hcatch, -, hwrite, rfl⟩ := approveRun_ok hrun
  have h₁ : w₁.disk.Opens w₁.cwd (join runDir eventsFileName) := by
    have h := catchUpTraceFile_opens t₀ bytes₀ w h₀
    rwa [hcatch] at h
  have h₃ : w₃.disk.Opens w₃.cwd (join runDir eventsFileName) := by
    have h := writeApproval_opens o.approval { w₁ with clock := w₁.clock.addMicros 1 } h₁
    rwa [hwrite] at h
  exact lockRunFiles_opens w₃ h₃

/-- A run with a trace and an approval is approved already, and approving it again changes
nothing. -/
theorem approveRun_already {project approvedBy reason engineVersion : String}
    (htrace : w.disk.exists_ w.cwd (join runDir traceFileName) = true)
    (hdir : w.disk.HasDir w.cwd runDir) (hopen : w.disk.Opens w.cwd (join runDir eventsFileName))
    (happroval : w.disk.exists_ w.cwd (join runDir approvalFileName) = true) :
    (approveRun runDir project approvedBy reason engineVersion).run.run w =
      (.error (.alreadyApproved runDir), w) := by
  have hT : ((liftM (pathExists (join runDir traceFileName)) : WorldE BaselineError Bool).run.run
      w).1 = .ok true := congrArg Except.ok htrace
  have hA : ((liftM (pathExists (join runDir approvalFileName)) : WorldE BaselineError Bool).run.run
      w).1 = .ok true := congrArg Except.ok happroval
  have hlock : ((baselineIo (lockRun runDir)).run.run w).1 = .ok () := by
    rw [baselineIo, WorldE.mapError_run, lockRun_ok hdir hopen]
    rfl
  have hlocks : Reads _ (baselineIo (lockRun runDir)) := Reads.mapError _ (lockRun_reads runDir)
  unfold approveRun
  rw [Reads.run_bind_ok (pathExists_reads _) hT]
  dsimp only
  rw [if_neg (by decide), hlocks.run_bind_ok hlock, Reads.run_bind_ok (pathExists_reads _) hA,
    if_pos rfl, WorldE.run_bind, WorldE.run_throw]

end Refusals

section Manager

namespace BaselineManager

variable (m : BaselineManager) (project : String)

theorem loadBaseline_reads : Reads (pathView (m.baselinePath project)) (m.loadBaseline project) := by
  unfold loadBaseline
  refine Reads.bind (pathExists_reads _) fun present => ?_
  split
  · exact Reads.ret _
  · refine Reads.bind (Reads.mapError _ (readPath_reads _)) fun bytes => ?_
    split
    · split
      · exact Reads.ret _
      · exact Reads.fail _
    · exact Reads.fail _

theorem ensureOverwritable_reads :
    Reads (pathView (m.baselinePath project)) (m.ensureOverwritable project) := by
  unfold ensureOverwritable
  refine Reads.bind (loadBaseline_reads m project) fun found => ?_
  split
  · split
    · exact Reads.fail _
    · exact Reads.ret _
  · exact Reads.ret _

theorem stage_footprint (runId tracePath : String) :
    Footprint [] (m.stage project runId tracePath).run := by
  unfold stage
  refine (Footprint.reads (ensureOverwritable_reads m project)).bindE_nil fun _ => ?_
  refine (Footprint.lift Footprint.now).bindE_nil fun _ => ?_
  dsimp only
  have hdirs : Footprint [] (changeDisk fun d cwd => d.createDirAll cwd
      ((parent (m.baselinePath project)).getD m.settings.projectsDir)).run :=
    Footprint.changeDisk fun _ _ _ h => Disk.createDirAll_keepsFilesOff h
  have hcheck : Footprint [] (baselineIo ioCheck).run := Footprint.mapError _ Footprint.ioCheck
  refine (Footprint.mapError _ hdirs).bindE_nil fun _ => ?_
  refine (Footprint.lift (Footprint.onDisk _)).bindE_nil fun _ => ?_
  split
  · exact hcheck.bindE_nil fun _ => Footprint.pureE _
  · exact (Footprint.throwE _).bindE_nil fun _ => hcheck.bindE_nil fun _ => Footprint.pureE _
  · exact (Footprint.throwE _).bindE_nil fun _ => hcheck.bindE_nil fun _ => Footprint.pureE _

theorem ensureOverwritable_ok {w : World} {prev : Option ProjectBaseline}
    (hload : ((m.loadBaseline project).run.run w).1 = .ok prev)
    (hprev : ∀ b, prev = some b → b.policy.overwriteForbidden = false) :
    ((m.ensureOverwritable project).run.run w).1 = .ok () := by
  unfold ensureOverwritable
  rw [(loadBaseline_reads m project).run_bind_ok hload]
  cases prev with
  | none => rfl
  | some b =>
    dsimp only
    rw [if_neg (by rw [hprev b rfl]; decide)]
    rfl

/-- The directory a project's record is written in. -/
def recordDir (m : BaselineManager) (project : String) : String :=
  (parent (m.baselinePath project)).getD m.settings.projectsDir

/-- The record a manager writes naming run `runId` of `project` with `tracePath`, approved at
`approvedAt`. -/
def recordOf (m : BaselineManager) (project runId tracePath : String) (approvedAt : Instant) :
    ProjectBaseline :=
  { project, runId, tracePath := m.relativeToRoot tracePath, approved := true, approvedAt,
    policy := m.settings.policy }

/-- A prepared record is the text of the record naming the run, approved when preparing started,
at the project's record path, in a directory that is there; preparing read the clock once. -/
theorem stage_record {runId tracePath : String} {w w₁ : World} {s : StagedBaseline}
    (h : (m.stage project runId tracePath).run.run w = (.ok s, w₁)) :
    s.path = m.baselinePath project ∧ s.dir = m.recordDir project ∧
      w₁.disk.HasDir w₁.cwd s.dir ∧ s.text = (m.recordOf project runId tracePath w.clock).toYaml ∧
      w₁.clock = w.clock.addMicros 1 := by
  unfold stage at h
  obtain ⟨_, -, h⟩ := Reads.bind_eq_ok (ensureOverwritable_reads m project) h
  have hclock : (liftM now : WorldE BaselineError Instant).run.run w =
      (.ok w.clock, { w with clock := w.clock.addMicros 1 }) := rfl
  rw [WorldE.run_bind, hclock] at h
  dsimp only at h
  obtain ⟨_, w₂, hmake, h⟩ := WorldE.bind_eq_ok h
  have hclock₂ : w₂.clock = w.clock.addMicros 1 := by
    rw [baselineIo, WorldE.mapError_run, Prod.mk.injEq] at hmake
    rw [← hmake.2, changeDisk_clock]
  rw [WorldE.run_bind, onDisk_lift_run] at h
  dsimp only at h
  split at h
  · next mode hmeta =>
    obtain ⟨_, w₃, hcheck, h⟩ := WorldE.bind_eq_ok h
    rw [WorldE.run_pure, Prod.mk.injEq, Except.ok.injEq] at h
    obtain ⟨rfl, rfl⟩ := h
    rw [baselineIo, WorldE.mapError_run, ioCheck_effect, Prod.mk.injEq] at hcheck
    rw [← hcheck.2, World.advance_disk, World.advance_cwd]
    dsimp only
    exact ⟨rfl, rfl, Disk.HasDir.of_metadata hmeta, rfl, hclock₂⟩
  · rw [WorldE.run_bind, WorldE.run_throw] at h
    cases h
  · rw [WorldE.run_bind, WorldE.run_throw] at h
    cases h

/-- A prepared record names the run at the project's record path, in a directory that is there. -/
theorem stage_ok {runId tracePath : String} {w w₁ : World} {s : StagedBaseline}
    (h : (m.stage project runId tracePath).run.run w = (.ok s, w₁)) :
    s.path = m.baselinePath project ∧ s.dir = m.recordDir project ∧
      w₁.disk.HasDir w₁.cwd s.dir ∧
      ∃ b : ProjectBaseline, b.project = project ∧ b.runId = runId ∧ s.text = b.toYaml := by
  obtain ⟨hpath, hdir, hhas, htext, -⟩ := stage_record m project h
  exact ⟨hpath, hdir, hhas, _, rfl, rfl, htext⟩

/-- With nothing scheduled to fail and the record's directory there, making it changes nothing. -/
theorem makeRecordDir_run {w : World} (hfaults : w.faults = [])
    (hdir : w.disk.HasDir w.cwd (m.recordDir project)) :
    (baselineIo (changeDisk fun d cwd =>
      d.createDirAll cwd ((parent (m.baselinePath project)).getD m.settings.projectsDir))).run.run w =
      (.ok (), w) := by
  rw [recordDir] at hdir
  obtain ⟨mode, hget⟩ := hdir.get_place
  rw [baselineIo, WorldE.mapError_run,
    changeDisk_run_same (f := fun d cwd =>
        d.createDirAll cwd ((parent (m.baselinePath project)).getD m.settings.projectsDir))
      (World.pending_of_faults_nil hfaults) (Disk.createDirAll_of_dir hdir.locate hget),
    World.advance_of_faults_nil hfaults]
  rfl

theorem baselineIo_ioCheck_run {w : World} (hfaults : w.faults = []) :
    (baselineIo ioCheck).run.run w = (.ok (), w) := by
  rw [baselineIo, WorldE.mapError_run, ioCheck_run, World.pending_of_faults_nil hfaults,
    World.advance_of_faults_nil hfaults]
  rfl

theorem stage_run {runId tracePath : String} {w : World}
    (hensure : ((m.ensureOverwritable project).run.run w).1 = .ok ()) (hfaults : w.faults = [])
    (hdir : w.disk.HasDir w.cwd (m.recordDir project)) :
    ∃ s, (m.stage project runId tracePath).run.run w =
      (.ok s, { w with clock := w.clock.addMicros 1 }) := by
  have hclock : (liftM now : WorldE BaselineError Instant).run.run w =
      (.ok w.clock, { w with clock := w.clock.addMicros 1 }) := rfl
  obtain ⟨mode, hmeta⟩ := hdir.metadata
  unfold stage
  rw [(ensureOverwritable_reads m project).run_bind_ok hensure, WorldE.run_bind, hclock]
  dsimp only
  rw [WorldE.run_bind, makeRecordDir_run m project (w := { w with clock := w.clock.addMicros 1 })
    hfaults hdir]
  dsimp only
  rw [WorldE.run_bind, onDisk_lift_run]
  dsimp only
  rw [recordDir] at hmeta
  rw [hmeta]
  dsimp only
  rw [WorldE.run_bind, baselineIo_ioCheck_run (w := { w with clock := w.clock.addMicros 1 }) hfaults]
  exact ⟨_, rfl⟩

end BaselineManager

section Moving

/-- A change of the disk that fails, run under baseline errors, fails on the disk and changes
nothing. -/
theorem baselineIo_changeDisk_error {f : Disk → List String → Except IoError Disk} {w : World}
    {e : BaselineError} (h : ((baselineIo (changeDisk f)).run.run w).1 = .error e) :
    (∃ io, e = .io io) ∧ ((baselineIo (changeDisk f)).run.run w).2.disk = w.disk ∧
      ((baselineIo (changeDisk f)).run.run w).2.cwd = w.cwd := by
  refine ⟨WorldE.mapError_error h, ?_⟩
  rw [baselineIo, WorldE.mapError_run] at h ⊢
  rcases hc : ((changeDisk f).run.run w).1 with io | ⟨⟩
  · exact ⟨changeDisk_error hc, (changeDisk_effect f w).1⟩
  · rw [hc] at h
    cases h

namespace StagedBaseline

variable {s : StagedBaseline} {w w' : World}

/-- The change of the disk that moves a record in place. -/
def moveIn (s : StagedBaseline) (d : Disk) (cwd : List String) : Except IoError Disk :=
  match d.locate cwd s.path with
  | .error e => .error e
  | .ok p =>
    match d.get? p with
    | some (.dir _) => .error .isADirectory
    | _ => .ok (d.put p (.file s.text.toUTF8.toList Disk.privateMode))

theorem persist_eq (s : StagedBaseline) :
    s.persist = (baselineIo (changeDisk s.moveIn) >>= fun _ => pure s.path) := rfl

/-- Moving a record in place fails only on the disk, and then changes nothing. -/
theorem persist_error {e : BaselineError} (h : (s.persist.run.run w).1 = .error e) :
    (∃ io, e = .io io) ∧ (s.persist.run.run w).2.disk = w.disk ∧
      (s.persist.run.run w).2.cwd = w.cwd := by
  rw [persist_eq] at h ⊢
  rcases WorldE.bind_eq_error (Prod.ext h rfl) with hc | ⟨_, w₁, -, hp⟩
  · have := baselineIo_changeDisk_error (congrArg Prod.fst hc)
    rwa [hc] at this
  · cases hp

/-- Moving a record in place writes it as a private file at its path and changes no other file. -/
theorem moveIn_ok {d d' : Disk} {cwd : List String} (h : s.moveIn d cwd = .ok d') :
    Disk.KeepsFilesOff [Disk.place cwd s.path] d d' ∧
      d'.read cwd s.path = .ok s.text.toUTF8.toList := by
  unfold moveIn at h
  split at h
  · cases h
  · next P hloc =>
    split at h
    · cases h
    · next hnodir =>
      cases h
      have hP : P ≠ [] := by
        rintro rfl
        exact hnodir Disk.dirMode (by simp [Disk.get?])
      have honly := Disk.only_put_file (fun m hdir => hnodir m hdir) s.text.toUTF8.toList
        Disk.privateMode
      rw [← Disk.locate_place hloc]
      exact ⟨honly.keepsFilesOff,
        Disk.read_of_file (Disk.walk_keepsDirs honly.1 hloc) (Disk.get?_put_self _ hP)
          Disk.canRead_privateMode⟩

/-- Moving a record in place changes no file but the record, whatever comes of it. -/
theorem persist_footprint (s : StagedBaseline) : Footprint [s.path] s.persist.run := by
  have hmove : Footprint [s.path] (changeDisk s.moveIn).run :=
    Footprint.changeDisk fun _ _ _ h => (moveIn_ok h).1
  rw [persist_eq]
  exact ((Footprint.mapError _ hmove).bindE fun _ => Footprint.pureE _).mono fun p hp => by
    simpa using hp

theorem persist_ok {path : String} (h : s.persist.run.run w = (.ok path, w')) :
    path = s.path ∧ w.KeepsFilesOff [s.path] w' ∧
      w'.disk.read w'.cwd s.path = .ok s.text.toUTF8.toList := by
  rw [persist_eq] at h
  obtain ⟨_, w₁, hc, h⟩ := WorldE.bind_eq_ok h
  rw [WorldE.run_pure, Prod.mk.injEq, Except.ok.injEq] at h
  obtain ⟨rfl, rfl⟩ := h
  rw [baselineIo, WorldE.mapError_run, Prod.mk.injEq] at hc
  obtain ⟨hok, rfl⟩ := hc
  have hdisk := changeDisk_ok (Except.mapError_eq_ok.mp hok)
  have hcwd := (changeDisk_effect s.moveIn w).1
  obtain ⟨hkeep, hread⟩ := moveIn_ok hdisk
  refine ⟨rfl, ⟨hcwd, hkeep⟩, ?_⟩
  rw [hcwd]
  exact hread

/-- With nothing scheduled to fail, a record whose path leads to no directory is moved in place. -/
theorem persist_run {p : List String} (hfaults : w.faults = [])
    (hloc : w.disk.locate w.cwd s.path = .ok p) (hnodir : ∀ mode, w.disk.get? p ≠ some (.dir mode)) :
    ∃ w', s.persist.run.run w = (.ok s.path, w') := by
  have hmove : s.moveIn w.disk w.cwd =
      .ok (w.disk.put p (.file s.text.toUTF8.toList Disk.privateMode)) := by
    unfold moveIn
    rw [hloc]
    dsimp only
    split
    · next mode hdir => exact absurd hdir (hnodir mode)
    · rfl
  rw [persist_eq, WorldE.run_bind, baselineIo, WorldE.mapError_run, changeDisk_run,
    World.pending_of_faults_nil hfaults, World.advance_of_faults_nil hfaults]
  simp only [Option.isSome_none, Bool.false_eq_true, if_false]
  rw [applyDisk_run_ok hmove]
  exact ⟨_, rfl⟩

end StagedBaseline

end Moving

theorem loadApproval_reads (path : String) : Reads (pathView path) (loadApproval path) := by
  unfold loadApproval
  refine Reads.bind (Reads.mapError _ (readPath_reads _)) fun bytes => ?_
  split
  · exact Reads.ret _
  · exact Reads.fail _

theorem loadApproval_ok {path : String} {w : World} {a : Approval}
    (h : ((loadApproval path).run.run w).1 = .ok a) : ∃ bytes, w.disk.read w.cwd path = .ok bytes := by
  have h' : (loadApproval path).run.run w = (.ok a, w) := by
    rw [(loadApproval_reads path).run_eq w, h]
  unfold loadApproval at h'
  obtain ⟨bytes, hbytes, -⟩ := Reads.bind_eq_ok (Reads.mapError _ (readPath_reads _)) h'
  exact ⟨bytes, read_of_baselineIo_readPath hbytes⟩

namespace BaselineManager

variable (m : BaselineManager) (project : String)

theorem unfinishedApproval_reads (runId dir : String) :
    Reads id (m.unfinishedApproval project runId dir) := by
  have hid : ∀ {γ : Type} (view : World → γ) (w w' : World), id w = id w' → view w = view w' :=
    fun _ _ _ h => congrArg _ h
  unfold unfinishedApproval
  refine Reads.bind ((loadApproval_reads _).mono (hid _)) fun approval => ?_
  split
  · exact Reads.ret _
  · refine Reads.bind ((loadBaseline_reads m project).mono (hid _)) fun found => ?_
    dsimp only
    split
    · split <;> exact Reads.ret _
    · exact Reads.ret _

/-- An approval file that reads back, for the project, of a run the record does not name yet is
found as unfinished. -/
theorem unfinishedApproval_run {runId dir : String} {w : World} {a : Approval}
    {prev : Option ProjectBaseline}
    (happroval : w.disk.read w.cwd (join dir approvalFileName) = .ok a.fileText.toUTF8.toList)
    (hat : a.approvedAt.Reparses) (hproject : a.project = project)
    (hload : ((m.loadBaseline project).run.run w).1 = .ok prev)
    (hprev : ∀ b, prev = some b → b.runId ≠ runId) :
    (m.unfinishedApproval project runId dir).run.run w =
      (.ok (some { approvalPath := join dir approvalFileName, approval := a, warnings := [] }), w) := by
  have ha : ((loadApproval (join dir approvalFileName)).run.run w).1 = .ok a := by
    rw [loadApproval_run happroval, Json.Approval.fileText_reads_back hat]
    rfl
  unfold unfinishedApproval
  rw [(loadApproval_reads _).run_bind_ok ha]
  dsimp only
  rw [if_neg fun h => h hproject, (loadBaseline_reads m project).run_bind_ok hload]
  cases prev with
  | none => rfl
  | some b =>
    dsimp only
    rw [if_neg (hprev b rfl)]
    rfl

/-- An unfinished approval found is the approval file of the directory asked about, for the
project. -/
theorem unfinishedApproval_some {runId dir : String} {w : World} {o : ApprovalOutcome}
    (h : ((m.unfinishedApproval project runId dir).run.run w).1 = .ok (some o)) :
    o.approvalPath = join dir approvalFileName ∧ o.approval.project = project ∧
      ∃ bytes, w.disk.read w.cwd (join dir approvalFileName) = .ok bytes := by
  have h' : (m.unfinishedApproval project runId dir).run.run w = (.ok (some o), w) := by
    rw [(unfinishedApproval_reads m project runId dir).run_eq w, h]
  unfold unfinishedApproval at h'
  obtain ⟨a, ha, h'⟩ := Reads.bind_eq_ok (loadApproval_reads _) h'
  dsimp only at h'
  split at h'
  · cases h'
  · next hproject =>
    obtain ⟨found, -, h'⟩ := Reads.bind_eq_ok (loadBaseline_reads m project) h'
    have hfound : o.approvalPath = join dir approvalFileName ∧ o.approval = a := by
      split at h'
      · split at h'
        · cases h'
        · cases h'
          exact ⟨rfl, rfl⟩
      · cases h'
        exact ⟨rfl, rfl⟩
    obtain ⟨hpath, rfl⟩ := hfound
    exact ⟨hpath, Decidable.of_not_not hproject, loadApproval_ok ha⟩

theorem record_place_ne (runDir name : String) (hname : PlainName name)
    (hne : baselineFileName ≠ name) (cwd : List String) :
    Disk.place cwd (m.baselinePath project) ≠ Disk.place cwd (join runDir name) :=
  Disk.place_join_ne cwd _ runDir (by decide) hname hne

theorem record_not_run_file (runDir : String) (cwd : List String) :
    Disk.place cwd (m.baselinePath project) ∉ [join runDir traceFileName,
      join runDir approvalFileName, join runDir eventsFileName].map (Disk.place cwd) := by
  simp only [List.map_cons, List.map_nil, List.mem_cons, List.not_mem_nil, or_false, not_or]
  exact ⟨record_place_ne m project runDir _ (by decide) (by decide) cwd,
    record_place_ne m project runDir _ (by decide) (by decide) cwd,
    record_place_ne m project runDir _ (by decide) (by decide) cwd⟩

/-- Moving the record in place after the approval is there keeps the approval, and gives the
record's path. -/
theorem persist_records {s : StagedBaseline} {b : ProjectBaseline} {runDir : String}
    {bytes : List UInt8} {o : ApprovalOutcome} {resumed : Bool} {a : Approved} {w w' : World}
    (hpath : s.path = m.baselinePath project) (htext : s.text = b.toYaml)
    (hA : w.disk.read w.cwd (join runDir approvalFileName) = .ok bytes)
    (h : (s.persist >>= fun path => pure { outcome := o, baselinePath := path, resumed }
      : WorldE BaselineError Approved).run.run w = (.ok a, w')) :
    a = { outcome := o, baselinePath := m.baselinePath project, resumed } ∧
      w'.disk.read w'.cwd (join runDir approvalFileName) = .ok bytes ∧
      w'.disk.read w'.cwd (m.baselinePath project) = .ok b.toYaml.toUTF8.toList := by
  obtain ⟨path, w₁, hp, h⟩ := WorldE.bind_eq_ok h
  rw [WorldE.run_pure, Prod.mk.injEq, Except.ok.injEq] at h
  obtain ⟨rfl, rfl⟩ := h
  obtain ⟨rfl, hkeep, hread⟩ := StagedBaseline.persist_ok hp
  rw [hpath] at hkeep hread
  refine ⟨by rw [hpath], hkeep.read_eq ?_ hA, by rw [hread, htext]⟩
  intro p hp
  simp only [List.mem_cons, List.not_mem_nil, or_false] at hp
  rw [hp]
  exact record_place_ne m project runDir approvalFileName (by decide) (by decide) _

/-- An approval through the manager that succeeds leaves the run's approval file, and the text of
the project's record naming the run by its directory's name, with the run's trace, approved when
the call started. -/
theorem approveRunDir_records {runDir approvedBy reason : String} {w w' : World} {a : Approved}
    (h : (m.approveRunDir project runDir approvedBy reason).run.run w = (.ok a, w')) :
    ∃ runId, fileName runDir = some runId ∧ a.baselinePath = m.baselinePath project ∧
      (∃ bytes, w'.disk.read w'.cwd (join runDir approvalFileName) = .ok bytes) ∧
      w'.disk.read w'.cwd (m.baselinePath project) =
        .ok (m.recordOf project runId (join runDir traceFileName) w.clock).toYaml.toUTF8.toList := by
  unfold approveRunDir at h
  split at h
  · next runId hname =>
    obtain ⟨s, w₁, hstage, h⟩ := WorldE.bind_eq_ok h
    obtain ⟨hpath, -, -, htext, -⟩ := stage_record m project hstage
    rw [WorldE.run_bind, WorldE.lift_run] at h
    rcases hrun : (approveRun runDir project approvedBy reason m.settings.engineVersion).run.run w₁
      with ⟨_ | o, w₂⟩ <;> rw [hrun] at h <;> dsimp only at h
    · split at h
      · next heq => cases heq
      · next dir heq =>
        cases heq
        obtain ⟨-, hdir⟩ := approveRun_error hrun
        obtain ⟨found, hfound, h⟩ := Reads.bind_eq_ok (unfinishedApproval_reads m project runId dir) h
        cases found with
        | none => cases h
        | some o =>
          obtain ⟨-, -, bytes, hA⟩ := unfinishedApproval_some m project hfound
          rw [hdir dir rfl] at hA
          obtain ⟨rfl, hA', hrecord⟩ := persist_records m project hpath htext hA h
          exact ⟨runId, hname, rfl, ⟨bytes, hA'⟩, hrecord⟩
      · cases h
    · obtain ⟨_, _, -, -, hA⟩ := approveRun_files hrun
      obtain ⟨rfl, hA', hrecord⟩ := persist_records m project hpath htext hA h
      exact ⟨runId, hname, rfl, ⟨_, hA'⟩, hrecord⟩
  · cases h

/-- An approval through the manager that succeeds leaves the run's approval file, and the
project's record naming the run by its directory's name. -/
theorem approveRunDir_ok {runDir approvedBy reason : String} {w w' : World} {a : Approved}
    (h : (m.approveRunDir project runDir approvedBy reason).run.run w = (.ok a, w')) :
    ∃ runId, fileName runDir = some runId ∧ a.baselinePath = m.baselinePath project ∧
      (∃ bytes, w'.disk.read w'.cwd (join runDir approvalFileName) = .ok bytes) ∧
      ∃ b : ProjectBaseline, b.project = project ∧ b.runId = runId ∧
        w'.disk.read w'.cwd (m.baselinePath project) = .ok b.toYaml.toUTF8.toList := by
  obtain ⟨runId, hname, hpath, happroval, hrecord⟩ := approveRunDir_records m project h
  exact ⟨runId, hname, hpath, happroval, _, rfl, rfl, hrecord⟩

/-- A failed approval through the manager changed no file but the trace, which it may have caught
up with its log, unless it failed in moving the record in place after the run was locked. -/
theorem approveRunDir_error {runDir approvedBy reason : String} {w w' : World} {e : BaselineError}
    (h : (m.approveRunDir project runDir approvedBy reason).run.run w = (.error e, w')) :
    TraceRewritten runDir w w' ∨
      ∃ runId s w₁ o w₂, fileName runDir = some runId ∧
        (m.stage project runId (join runDir traceFileName)).run.run w = (.ok s, w₁) ∧
        (approveRun runDir project approvedBy reason m.settings.engineVersion).run.run w₁ =
          (.ok o, w₂) ∧
        s.persist.run.run w₂ = (.error e, w') := by
  unfold approveRunDir at h
  split at h
  · next runId hname =>
    have hstaged := stage_footprint m project runId (join runDir traceFileName) w
    rcases WorldE.bind_eq_error h with hstage | ⟨s, w₁, hstage, h⟩
    · rw [hstage] at hstaged
      exact .inl (TraceRewritten.of_keeps hstaged)
    rw [hstage] at hstaged
    rw [WorldE.run_bind, WorldE.lift_run] at h
    rcases hrun : (approveRun runDir project approvedBy reason m.settings.engineVersion).run.run w₁
      with ⟨_ | o, w₂⟩ <;> rw [hrun] at h <;> dsimp only at h
    · have hrw := TraceRewritten.keeps_trans hstaged (approveRun_error hrun).1
      split at h
      · next heq => cases heq
      · next dir heq =>
        cases heq
        rcases Reads.bind_eq_error (unfinishedApproval_reads m project runId dir) h
          with ⟨-, rfl⟩ | ⟨found, -, h⟩
        · exact .inl hrw
        cases found with
        | none =>
          dsimp only at h
          rw [WorldE.run_throw] at h
          cases h
          exact .inl hrw
        | some o' =>
          dsimp only at h
          rcases WorldE.bind_eq_error h with hp | ⟨_, w₃, -, h⟩
          · obtain ⟨-, hdisk, hcwd⟩ := StagedBaseline.persist_error (congrArg Prod.fst hp)
            rw [hp] at hdisk hcwd
            exact .inl (hrw.trans_keeps (World.KeepsFilesOff.of_disk hdisk hcwd []))
          · cases h
      · rw [WorldE.run_throw] at h
        cases h
        exact .inl hrw
    · rcases WorldE.bind_eq_error h with hp | ⟨_, w₃, -, h⟩
      · exact .inr ⟨runId, s, w₁, o, w₂, hname, hstage, hrun, hp⟩
      · cases h
  · rw [WorldE.run_throw] at h
    cases h
    exact .inl (TraceRewritten.of_keeps (World.KeepsFilesOff.refl [] w))

/-- A call that locked the run but could not move the record in place is finished by repeating
it, once nothing stands in the record's way: the repeat finds the approval, keeps it, and records
it. -/
theorem approveRunDir_resumes {runDir approvedBy reason runId : String} {w w₁ w₂ w' v : World}
    {s : StagedBaseline} {o : ApprovalOutcome} {e : BaselineError}
    (hname : fileName runDir = some runId)
    (hstage : (m.stage project runId (join runDir traceFileName)).run.run w = (.ok s, w₁))
    (hrun : (approveRun runDir project approvedBy reason m.settings.engineVersion).run.run w₁ =
      (.ok o, w₂))
    (hpersist : s.persist.run.run w₂ = (.error e, w'))
    (hat : o.approval.approvedAt.Reparses)
    (hdisk : v.disk = w'.disk) (hcwd : v.cwd = w'.cwd) (hfaults : v.faults = [])
    (hplace : ∃ p, v.disk.locate v.cwd (m.baselinePath project) = .ok p ∧
      ∀ mode, v.disk.get? p ≠ some (.dir mode))
    (hprev : ∃ prev, ((m.loadBaseline project).run.run v).1 = .ok prev ∧
      ∀ b, prev = some b → b.runId ≠ runId ∧ b.policy.overwriteForbidden = false) :
    ∃ a v', (m.approveRunDir project runDir approvedBy reason).run.run v = (.ok a, v') ∧
      a.resumed = true ∧ a.outcome.approval = o.approval := by
  obtain ⟨-, hsdir, hrecdir, -⟩ := stage_ok m project hstage
  obtain ⟨hkeep, hrundir⟩ := approveRun_ok_keeps hrun
  obtain ⟨at_, bytes, happroval, htrace, hA⟩ := approveRun_files hrun
  obtain ⟨-, hdisk', hcwd'⟩ := StagedBaseline.persist_error (congrArg Prod.fst hpersist)
  rw [hpersist] at hdisk' hcwd'
  have hsame : v.disk = w₂.disk ∧ v.cwd = w₂.cwd := ⟨hdisk.trans hdisk', hcwd.trans hcwd'⟩
  have hproject : o.approval.project = project := by rw [happroval]; rfl
  have hrec : v.disk.HasDir v.cwd (m.recordDir project) := by
    rw [hsame.1, hsame.2, hkeep.1, ← hsdir]
    exact hrecdir.keepsDirs hkeep.2.1
  obtain ⟨prev, hload, hprev⟩ := hprev
  obtain ⟨s', hs'⟩ := @stage_run m project runId (join runDir traceFileName) _
    (ensureOverwritable_ok m project hload fun b hb => (hprev b hb).2) hfaults hrec
  obtain ⟨hpath', -, -, -⟩ := stage_ok m project hs'
  let v₁ : World := { v with clock := v.clock.addMicros 1 }
  have hv : v₁.disk = w₂.disk ∧ v₁.cwd = w₂.cwd := hsame
  have hload' : ((m.loadBaseline project).run.run v₁).1 = .ok prev := by
    rw [← hload]
    exact (loadBaseline_reads m project).answer v₁ v rfl
  have hrefused : (approveRun runDir project approvedBy reason m.settings.engineVersion).run.run v₁ =
      (.error (.alreadyApproved runDir), v₁) := by
    refine approveRun_already ?_ (by rw [hv.1, hv.2]; exact hrundir)
      (by rw [hv.1, hv.2]; exact approveRun_opens hrun) ?_
    · rw [hv.1, hv.2]
      exact Disk.exists_of_read htrace
    · rw [hv.1, hv.2]
      exact Disk.exists_of_read hA
  have hfound := @unfinishedApproval_run m project runId runDir v₁ _ _
    (by rw [hv.1, hv.2]; exact hA) hat hproject hload' fun b hb => (hprev b hb).1
  obtain ⟨p, hloc, hnodir⟩ := hplace
  obtain ⟨v', hmoved⟩ := StagedBaseline.persist_run (s := s') (w := v₁) hfaults
    (by rw [hpath']; exact hloc) hnodir
  refine ⟨⟨⟨join runDir approvalFileName, o.approval, []⟩, s'.path, true⟩, v', ?_, rfl, rfl⟩
  unfold approveRunDir
  rw [hname]
  dsimp only
  rw [WorldE.run_bind, hs']
  dsimp only
  rw [WorldE.run_bind, WorldE.lift_run, hrefused]
  dsimp only
  rw [WorldE.run_bind, hfound]
  dsimp only
  rw [WorldE.run_bind, hmoved]
  rfl

end BaselineManager

end Manager

end RunJournal
