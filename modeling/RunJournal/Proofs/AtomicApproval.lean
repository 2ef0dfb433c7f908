import RunJournal.Proofs.Verification
import RunJournal.Proofs.BaselinePointer
/-!
# Approving through the manager: atomic or resumable

`BaselineManager.approveRunDir_atomic_or_resumable` puts together what `Proofs.Recording` shows of
each part of an approval through the manager, and adds what is read after it. A call that
succeeds leaves the record naming the run, which loading the project's record gives once its YAML
text reads back (`Recorded`). A call that fails leaves every store showing the run's trace as
before. Whatever the call returns, the run's log reads as before and its trace file holds a trace
rebuilt from a first part of the log (`RunReads`): catching up writes only the whole log's trace,
and locking changes bits the owner may still read with. Loading the run therefore gives the trace
rebuilt from the whole log before and after.

A call that locked the run and then failed to move the record in place is finished by repeating
it; `interrupted_approval_resumes` runs such a call on a finished run.
-/

namespace RunJournal

open RunJournal.Path

namespace RunReads

variable {x : RunSite} {E : List Event} {w w' : World}

theorem of_keepsFilesOff {P : List String} (h : RunReads x E w.disk w.cwd)
    (hkeep : w.KeepsFilesOff P w')
    (hout : ∀ p ∈ P, Disk.place w.cwd p ≠ Disk.place w.cwd (join x.dir traceFileName) ∧
      Disk.place w.cwd p ≠ Disk.place w.cwd (join x.dir eventsFileName)) :
    RunReads x E w'.disk w'.cwd := by
  obtain ⟨k, hk, t, ht, hread⟩ := h.snapshot
  exact ⟨hkeep.read_eq (fun p hp => (hout p hp).2) h.log, k, hk, t, ht,
    hkeep.read_eq (fun p hp => (hout p hp).1) hread⟩

theorem of_keeps (h : RunReads x E w.disk w.cwd) (hkeep : w.KeepsFilesOff [] w') :
    RunReads x E w'.disk w'.cwd :=
  h.of_keepsFilesOff hkeep fun _ hp => by simp at hp

theorem of_keepsFiles {α : Type} {m : WorldM α} (hm : KeepsFiles m)
    (h : RunReads x E w.disk w.cwd) : RunReads x E (m.run w).2.disk (m.run w).2.cwd := by
  obtain ⟨k, hk, t, ht, hread⟩ := h.snapshot
  exact ⟨hm w _ _ h.log, k, hk, t, ht, hm w _ _ hread⟩

/-- Catching the snapshot up, whatever comes of it, keeps the run reading so: the trace file keeps
its text or holds the trace rebuilt from the whole log. -/
theorem catchUpTraceFile (h : RunReads x E w.disk w.cwd) (hl : Logged E) {bytes₀ : List UInt8}
    {t₀ : Trace} (hread : w.disk.read w.cwd (join x.dir traceFileName) = .ok bytes₀)
    (hparse : Json.readBytes Read.trace bytes₀ = .ok t₀) :
    RunReads x E ((RunJournal.catchUpTraceFile x.dir t₀ bytes₀).run.run w).2.disk
      ((RunJournal.catchUpTraceFile x.dir t₀ bytes₀).run.run w).2.cwd := by
  obtain ⟨k, hk, t, ht, htrace⟩ := h.snapshot
  rw [htrace, Except.ok.injEq] at hread
  subst hread
  rw [Json.Trace.fileText_reads_back (hl.trace_storable ht), Except.ok.injEq] at hparse
  subst hparse
  have hne : E ≠ [] := by
    rintro rfl
    simp [Trace.rebuild] at ht
  obtain ⟨D, hD⟩ := hl.rebuild_isSome hne
  obtain ⟨m, hmeta, hm⟩ := Disk.metadata_of_read h.log
  obtain ⟨c, hc, -⟩ := (show x.log.Shows w E from .inl ⟨m, hmeta, hm⟩).catchUpFromLog_run hl hk ht
    hD (show ∀ s ∈ (none : Option Nat), s = E.length from fun s hs => by simp at hs)
  rcases @catchUpTraceFile_world x.dir t t.fileText.toUTF8.toList w
    with hsame | ⟨t', c', hc', -, hwrite⟩
  · rw [hsame]
    exact h
  rw [hc, Prod.mk.injEq, Except.ok.injEq, Prod.mk.injEq] at hc'
  obtain ⟨⟨hDt, -⟩, -⟩ := hc'
  rw [hwrite, ← hDt]
  have hlog : w.disk.read w.cwd (join x.dir eventsFileName) = .ok (wholeBytes E) := h.log
  obtain ⟨hcwd, -, hsame | hreplaced⟩ := @writeTrace_effect x.dir D w
  · rw [hcwd, hsame]
    exact h
  · rw [hcwd]
    refine ⟨Disk.replace_read_sibling hreplaced (by decide) (by decide) (by decide) hlog, E.length,
      le_rfl, D, ?_, Disk.replace_read hreplaced⟩
    rw [List.take_length]
    exact hD

theorem approveRun (h : RunReads x E w.disk w.cwd) (hl : Logged E)
    {project approvedBy reason engineVersion : String} {r : Except BaselineError ApprovalOutcome}
    (hrun : (RunJournal.approveRun x.dir project approvedBy reason engineVersion).run.run w =
      (r, w')) :
    RunReads x E w'.disk w'.cwd := by
  cases r with
  | error e =>
    rcases approveRun_error_shape hrun
      with ⟨rfl, -⟩ | ⟨bytes₀, t₀, r, w₁, hread, hparse, hcatch, hkeep, -⟩
    · exact h
    · have h₁ := h.catchUpTraceFile hl hread hparse
      rw [hcatch] at h₁
      exact h₁.of_keeps hkeep
  | ok o =>
    obtain ⟨bytes₀, t₀, t, bytes, w₁, w₃, hread, hparse, hcatch, -, hwrite, rfl⟩ :=
      approveRun_ok hrun
    have h₁ := h.catchUpTraceFile hl hread hparse
    rw [hcatch] at h₁
    have h₃ : RunReads x E w₃.disk w₃.cwd := by
      refine RunReads.of_keepsFilesOff (w := { w₁ with clock := w₁.clock.addMicros 1 }) h₁
        (writeApproval_ok_keeps hwrite).1 fun p hp => ?_
      rw [List.mem_singleton] at hp
      subst hp
      exact ⟨Disk.place_join_ne _ _ _ (by decide) (by decide) (by decide),
        Disk.place_join_ne _ _ _ (by decide) (by decide) (by decide)⟩
    exact h₃.of_keepsFiles (KeepsFiles.lockRunFiles x.dir)

/-- Approving a run through the manager, whatever comes of it, keeps it reading so. -/
theorem approveRunDir (h : RunReads x E w.disk w.cwd) (hl : Logged E) (m : BaselineManager)
    {project approvedBy reason : String} {r : Except BaselineError Approved}
    (hrun : (m.approveRunDir project x.dir approvedBy reason).run.run w = (r, w')) :
    RunReads x E w'.disk w'.cwd := by
  unfold BaselineManager.approveRunDir at hrun
  split at hrun
  · next runId hname =>
    have hstaged := BaselineManager.stage_footprint m project runId (join x.dir traceFileName) w
    rw [WorldE.run_bind] at hrun
    rcases hstage : (m.stage project runId (join x.dir traceFileName)).run.run w with ⟨_ | s, w₁⟩ <;>
      rw [hstage] at hrun hstaged <;> dsimp only at hrun
    · cases hrun
      exact h.of_keeps hstaged
    obtain ⟨hpath, -⟩ := BaselineManager.stage_record m project hstage
    have hmove : ∀ (resumed : Bool) (o : ApprovalOutcome), Footprint [s.path]
        (s.persist >>= fun path => pure { outcome := o, baselinePath := path, resumed } :
          WorldE BaselineError Approved).run := fun _ _ =>
      ((StagedBaseline.persist_footprint s).bindE fun _ => Footprint.pureE _).mono fun p hp => by
        simpa using hp
    have hout : ∀ v : World, ∀ p ∈ [s.path],
        Disk.place v.cwd p ≠ Disk.place v.cwd (join x.dir traceFileName) ∧
          Disk.place v.cwd p ≠ Disk.place v.cwd (join x.dir eventsFileName) := by
      intro v p hp
      rw [List.mem_singleton] at hp
      rw [hp, hpath]
      exact ⟨BaselineManager.record_place_ne m project x.dir _ (by decide) (by decide) v.cwd,
        BaselineManager.record_place_ne m project x.dir _ (by decide) (by decide) v.cwd⟩
    rw [WorldE.run_bind, WorldE.lift_run] at hrun
    rcases happrove : (RunJournal.approveRun x.dir project approvedBy reason
      m.settings.engineVersion).run.run w₁ with ⟨_ | o, w₂⟩ <;> rw [happrove] at hrun <;>
      dsimp only at hrun <;> have h₂ := (h.of_keeps hstaged).approveRun hl happrove
    · split at hrun
      · next heq => cases heq
      · next dir heq =>
        cases heq
        rw [(BaselineManager.unfinishedApproval_reads m project runId dir).run_bind] at hrun
        split at hrun
        · split at hrun
          · rw [WorldE.run_throw] at hrun
            cases hrun
            exact h₂
          · rename_i outcome _
            have hkeep := hmove true outcome w₂
            rw [hrun] at hkeep
            exact h₂.of_keepsFilesOff hkeep (hout w₂)
        · cases hrun
          exact h₂
      · rw [WorldE.run_throw] at hrun
        cases hrun
        exact h₂
    · have hkeep := hmove false o w₂
      rw [hrun] at hkeep
      exact h₂.of_keepsFilesOff hkeep (hout w₂)
  · rw [WorldE.run_throw] at hrun
    cases hrun
    exact h

/-- Every store on the run's root shows the trace rebuilt from the whole log. -/
theorem trace?_run (h : RunReads x E w.disk w.cwd) (hl : Logged E) {s : Store}
    (hs : s.root = x.root) : (s.trace? x.project x.run).run w = (Trace.rebuild E, w) := by
  unfold Store.trace?
  rw [x.runDir_eq hs, WorldM.bind_run, h.loadRun_run hl (by simp)]
  rfl

end RunReads

namespace BaselineManager

/-- Approving a run through the manager is atomic or resumable. A call that succeeds leaves the
run's approval file and the text of the project's record naming the run by its directory's name;
once that text reads back, loading the project's record gives it. A call that fails changes no
file but the run's trace, approval and log, so the record is as it was, and every store shows the
run's trace as before; a refusal changes none but the trace, which it may have caught up with its
log and written anew; and the approval file changed only when moving the record in place failed
on the disk after the run was locked. Repeating such a call, once nothing is scheduled to fail and
no directory stands at the record's path, finishes it: it keeps the approval and records it, when
the record, which reads as before, names another run. -/
theorem approveRunDir_atomic_or_resumable (m : BaselineManager)
    (project runDir approvedBy reason : String) (w : World) :
    (∀ a w', (m.approveRunDir project runDir approvedBy reason).run.run w = (.ok a, w') →
      ∃ runId, fileName runDir = some runId ∧ a.baselinePath = m.baselinePath project ∧
        (∃ bytes, w'.disk.read w'.cwd (join runDir approvalFileName) = .ok bytes) ∧
        w'.disk.read w'.cwd (m.baselinePath project) =
          .ok (m.recordOf project runId (join runDir traceFileName) w.clock).toYaml.toUTF8.toList ∧
        (ProjectBaseline.ofYaml (m.recordOf project runId (join runDir traceFileName) w.clock).toYaml =
            .ok (m.recordOf project runId (join runDir traceFileName) w.clock) →
          Recorded m project runId (join runDir traceFileName) w')) ∧
    (∀ e w', (m.approveRunDir project runDir approvedBy reason).run.run w = (.error e, w') →
      w.KeepsFilesOff [join runDir traceFileName, join runDir approvalFileName,
        join runDir eventsFileName] w' ∧
      w'.disk.fileAt (Disk.place w.cwd (m.baselinePath project)) =
        w.disk.fileAt (Disk.place w.cwd (m.baselinePath project)) ∧
      (∀ (x : RunSite) (E : List Event) (n : Nat), x.dir = runDir → RunFiles x w E n →
        (∃ b, w.disk.read w.cwd (join runDir traceFileName) = .ok b) →
        ∀ s : Store, s.root = x.root →
          ((s.trace? x.project x.run).run w').1 = ((s.trace? x.project x.run).run w).1) ∧
      (e.kindName ∈ ["OverwriteForbidden", "ProjectMismatch", "NotTerminal", "TraceMissing"] →
        TraceRewritten runDir w w') ∧
      (w'.disk.fileAt (Disk.place w.cwd (join runDir approvalFileName)) ≠
          w.disk.fileAt (Disk.place w.cwd (join runDir approvalFileName)) →
        (∃ io, e = .io io) ∧
        ∃ runId, ∃ approval : Approval, fileName runDir = some runId ∧
          approval.project = project ∧ approval.approvedAt = w.clock.addMicros 1 ∧
          w'.disk.read w'.cwd (join runDir approvalFileName) = .ok approval.fileText.toUTF8.toList ∧
          (approval.approvedAt.Reparses → ∀ v : World, v.disk = w'.disk → v.cwd = w'.cwd →
            v.faults = [] →
            (∃ p, v.disk.locate v.cwd (m.baselinePath project) = .ok p ∧
              ∀ mode, v.disk.get? p ≠ some (.dir mode)) →
            (∃ prev, ((m.loadBaseline project).run.run v).1 = .ok prev ∧
              ∀ b, prev = some b → b.runId ≠ runId ∧ b.policy.overwriteForbidden = false) →
            ∃ a v', (m.approveRunDir project runDir approvedBy reason).run.run v = (.ok a, v') ∧
              a.resumed = true ∧ a.outcome.approval = approval))) := by
  refine ⟨fun a w' h => ?_, fun e w' h => ?_⟩
  · obtain ⟨runId, hname, hpath, happroval, hrecord⟩ := approveRunDir_records m project h
    exact ⟨runId, hname, hpath, happroval, hrecord, recorded_of_read m project hrecord⟩
  have hshown : ∀ (x : RunSite) (E : List Event) (n : Nat), x.dir = runDir → RunFiles x w E n →
      (∃ b, w.disk.read w.cwd (join runDir traceFileName) = .ok b) →
      ∀ s : Store, s.root = x.root →
        ((s.trace? x.project x.run).run w').1 = ((s.trace? x.project x.run).run w).1 := by
    rintro x E n rfl hx ⟨b, hb⟩ s hs
    have hreads := hx.runReads hb
    rw [(hreads.approveRunDir hx.logged m h).trace?_run hx.logged hs, hreads.trace?_run hx.logged hs]
  rcases approveRunDir_error m project h
    with hrw | ⟨runId, s, w₁, o, w₂, hname, hstage, hrun, hpersist⟩
  · have hA := hrw.fileAt_eq (x := Disk.place w.cwd (join runDir approvalFileName))
      (Disk.place_join_ne w.cwd runDir runDir (by decide) (by decide) (by decide))
    refine ⟨hrw.1.mono fun p hp => ?_, hrw.fileAt_eq (record_place_ne m project runDir _
      (by decide) (by decide) w.cwd), hshown, fun _ => hrw, fun hne => absurd hA hne⟩
    simp only [List.mem_cons, List.not_mem_nil, or_false] at hp
    simp [hp]
  · have hstaged := stage_footprint m project runId (join runDir traceFileName) w
    rw [hstage] at hstaged
    obtain ⟨hlocked, -⟩ := approveRun_ok_keeps hrun
    obtain ⟨⟨io, rfl⟩, hdisk, hcwd⟩ := StagedBaseline.persist_error (congrArg Prod.fst hpersist)
    rw [hpersist] at hdisk hcwd
    have hkeep : w.KeepsFilesOff [join runDir traceFileName, join runDir approvalFileName,
        join runDir eventsFileName] w' :=
      ((hstaged.trans hlocked).trans (World.KeepsFilesOff.of_disk hdisk hcwd [])).mono
        fun p hp => by simpa using hp
    have hat : o.approval.approvedAt = w.clock.addMicros 1 := by
      rw [approveRun_approvedAt hrun, (stage_record m project hstage).2.2.2.2]
    obtain ⟨at_, bytes, happroval, -, hA⟩ := approveRun_files hrun
    refine ⟨hkeep, hkeep.2.2 _ (record_not_run_file m project runDir w.cwd), hshown,
      fun hkind => absurd hkind (by simp [BaselineError.kindName]), fun _ => ⟨⟨io, rfl⟩, runId,
        o.approval, hname, by rw [happroval]; rfl, hat, by rw [hdisk, hcwd]; exact hA, ?_⟩⟩
    intro hreparses v hv hc hfaults hplace hprev
    exact approveRunDir_resumes m project hname hstage hrun hpersist hreparses hv hc hfaults hplace
      hprev

/-- The finished run below `/p/r` on a disk where moving the record in place is the eighth change
asked for, and fails. -/
def interruptedRecordRoot : World :=
  { finishedRunRoot with faults := List.replicate 7 none ++ [some .fail] }

/-- Approving the finished run while moving the record fails: the call fails on the disk with the
approval written, and repeating it with nothing scheduled to fail finishes it. -/
theorem interrupted_approval_resumes :
    let call := sampleManager.approveRunDir "p" sampleSite.dir "ann" ""
    let w' := (call.run.run interruptedRecordRoot).2
    (∃ io, (call.run.run interruptedRecordRoot).1 = .error (.io io)) ∧
      ∃ a v', call.run.run { w' with faults := [] } = (.ok a, v') ∧ a.resumed = true := by
  intro call w'
  have hfacts : (call.run.run interruptedRecordRoot).1.toBool = false ∧
      w'.disk.fileAt (Disk.place interruptedRecordRoot.cwd (join sampleSite.dir approvalFileName)) ≠
        interruptedRecordRoot.disk.fileAt
          (Disk.place interruptedRecordRoot.cwd (join sampleSite.dir approvalFileName)) ∧
      w'.disk.locate w'.cwd (sampleManager.baselinePath "p") =
        .ok ["ledger", "projects", "p", "baseline.yaml"] ∧
      w'.disk.get? ["ledger", "projects", "p", "baseline.yaml"] = none ∧
      ((sampleManager.loadBaseline "p").run.run { w' with faults := [] }).1 = .ok none := by
    decide +kernel
  obtain ⟨hfail, hchanged, hloc, hnone, hload⟩ := hfacts
  obtain ⟨e, he⟩ : ∃ e, (call.run.run interruptedRecordRoot).1 = .error e := by
    cases hr : (call.run.run interruptedRecordRoot).1 with
    | error e => exact ⟨e, rfl⟩
    | ok a =>
      rw [hr] at hfail
      cases hfail
  obtain ⟨hio, runId, approval, -, -, hat, -, hresume⟩ :=
    ((approveRunDir_atomic_or_resumable sampleManager "p" sampleSite.dir "ann" ""
      interruptedRecordRoot).2 e w' (Prod.ext he rfl)).2.2.2.2 hchanged
  have hreparses : approval.approvedAt.Reparses := by
    rw [hat]
    exact Except.eq_ok_of_toOption (by decide)
  obtain ⟨a, v', hrun, hresumed, -⟩ := hresume hreparses { w' with faults := [] } rfl rfl rfl
    ⟨_, hloc, fun mode hdir => by rw [hnone] at hdir; cases hdir⟩
    ⟨none, hload, fun b hb => by cases hb⟩
  obtain ⟨io, rfl⟩ := hio
  exact ⟨⟨io, he⟩, a, v', hrun, hresumed⟩

end BaselineManager

end RunJournal
