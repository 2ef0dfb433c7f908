import RunJournal.Proofs.LockedRuns
/-!
# Approved runs verify

An approval of a run the store keeps leaves a trace file caught up with the log. The store's
snapshot is the trace rebuilt from a first part of the log; catching it up either writes the
whole log's trace anew or finds no event past the snapshot that changes it, and then the snapshot
differs from the whole log's trace in its watermark alone (`RunFiles.catchUpTraceFile_caught`).
Approving reads the snapshot's watermark first and takes a snapshot at watermark 0 as it is, so a
hand-made trace file with no watermark is approved without a look at the log; the store never
writes one.

Approving changes no file of the run but the trace and the approval, so the log reads as before
(`approveRun_keeps_log`). Every later call on the run is refused and leaves the disk as it was
(`ApprovedDir.runCalls_run`), so verification finds after any history what it found right after
the approval (`approval_passes_verification`).
-/

namespace RunJournal

open Disk

theorem EventLog.readAll_of_read {log : EventLog} {w : World} {E : List Event}
    (hread : w.disk.read w.cwd log.path = .ok (wholeBytes E)) (hE : ∀ e ∈ E, e.Storable)
    (hpos : ∀ e ∈ E, 1 ≤ e.seq) : log.readAll.run.run w = (.ok E, w) := by
  obtain ⟨m, hmeta, hm⟩ := metadata_of_read hread
  exact EventLog.readAll_whole (.inl ⟨m, hmeta, hm⟩) hE hpos

namespace RunFiles

variable {x : RunSite} {w : World} {E : List Event} {n : Nat}

/-- Catching the store's snapshot up for an approval gives the whole log's trace, and leaves a
trace file that reads as that trace up to its watermark. -/
theorem catchUpTraceFile_caught (h : RunFiles x w E n) {k : Nat} (hk : k ≤ n) {t₀ D t : Trace}
    (ht : Trace.rebuild (E.take k) = some t₀) (hD : Trace.rebuild E = some D)
    {bytes : List UInt8} {w₁ : World}
    (hrun : (catchUpTraceFile x.dir t₀ t₀.fileText.toUTF8.toList).run.run w = (.ok (t, bytes), w₁)) :
    t = D ∧ ∃ u, Json.readBytes Read.trace bytes = .ok u ∧ { u with lastSeq := D.lastSeq } = D := by
  have hne : E ≠ [] := by
    rintro rfl
    simp [Trace.rebuild] at hD
  obtain ⟨c, hc, hkept⟩ := h.shows.catchUpFromLog_run h.logged (hk.trans h.bound) ht hD
    (show ∀ s ∈ (none : Option Nat), s = E.length from fun s hs => by simp at hs)
  unfold catchUpTraceFile at hrun
  obtain ⟨⟨t', c'⟩, w₂, hcatch, hrun⟩ := WorldE.bind_eq_ok hrun
  rw [baselineStore, WorldE.mapError_run, hc] at hcatch
  obtain ⟨hok, rfl⟩ := Prod.mk.inj hcatch
  injection Except.mapError_eq_ok.mp hok with hpair
  cases hpair
  dsimp only at hrun
  split at hrun
  · obtain ⟨_, w₃, hwrite, hrun⟩ := WorldE.bind_eq_ok hrun
    obtain ⟨b, w₄, hb, hrun⟩ := WorldE.bind_eq_ok hrun
    rw [WorldE.run_pure, Prod.mk.injEq, Except.ok.injEq, Prod.mk.injEq] at hrun
    obtain ⟨⟨rfl, rfl⟩, rfl⟩ := hrun
    rw [baselineStore, WorldE.mapError_run] at hwrite
    obtain ⟨hwok, rfl⟩ := Prod.mk.inj hwrite
    obtain ⟨m₀, hrunDir⟩ := h.runDir_of_ne_nil hne
    obtain ⟨hwrites, hsame | ⟨hdisk, -⟩⟩ := h.writeTrace_run hrunDir D
    · obtain ⟨-, err, herr, -⟩ := hsame
      rw [herr] at hwok
      cases hwok
    have hwhole : Trace.rebuild (E.take E.length) = some D := by rw [List.take_length]; exact hD
    have h₃ := (h.mono h.bound le_rfl).setTrace hrunDir le_rfl hwhole canRead_privateMode hdisk
      hwrites.cwd hwrites.tails (h.noTears.writes hwrites)
    have hread := h₃.read_file hne plain_traceFileName short_traceFileName
      (by rw [hdisk]; exact get?_put_self _ (x.filePlace_ne_nil _)) canRead_privateMode
    rw [baselineIo, WorldE.mapError_run, readPath_run, hread] at hb
    obtain ⟨hbok, -⟩ := Prod.mk.inj hb
    injection Except.mapError_eq_ok.mp hbok with hbytes
    subst hbytes
    exact ⟨rfl, D, Json.Trace.fileText_reads_back (h.logged.trace_storable hwhole), rfl⟩
  · rename_i hzero
    rw [WorldE.run_pure, Prod.mk.injEq, Except.ok.injEq, Prod.mk.injEq] at hrun
    obtain ⟨⟨rfl, rfl⟩, rfl⟩ := hrun
    exact ⟨rfl, t₀, Json.Trace.fileText_reads_back (h.logged.trace_storable ht),
      (hkept (by omega)).symm⟩

/-- What an approval of a run the store kept finds in its trace file, caught up, reads as the
trace rebuilt from the whole log up to its watermark. -/
theorem approveRun_caught_up (h : RunFiles x w E n) {bytes₀ bytes : List UInt8} {t₀ t : Trace}
    {w₁ : World} (hread : w.disk.read w.cwd (Path.join x.dir traceFileName) = .ok bytes₀)
    (hparse : Json.readBytes Read.trace bytes₀ = .ok t₀)
    (hcatch : (catchUpTraceFile x.dir t₀ bytes₀).run.run w = (.ok (t, bytes), w₁)) :
    ∃ u D, Trace.rebuild E = some D ∧ Json.readBytes Read.trace bytes = .ok u ∧
      { u with lastSeq := D.lastSeq } = D := by
  obtain ⟨m', hmeta', -⟩ := metadata_of_read hread
  rcases h.trace_metadata with hnone | ⟨k, hk, tk, m, ht, hmeta, -⟩
  · rw [hnone] at hmeta'
    cases hmeta'
  rw [hmeta, Except.ok.injEq, Entry.file.injEq] at hmeta'
  obtain ⟨rfl, -⟩ := hmeta'
  rw [Json.Trace.fileText_reads_back (h.logged.trace_storable ht), Except.ok.injEq] at hparse
  subst hparse
  have hne : E ≠ [] := by
    rintro rfl
    simp [Trace.rebuild] at ht
  obtain ⟨D, hD⟩ := h.logged.rebuild_isSome hne
  obtain ⟨-, u, hu, hlast⟩ := h.catchUpTraceFile_caught hk ht hD hcatch
  exact ⟨u, D, hD, hu, hlast⟩

end RunFiles

section Approving

variable {runDir project approvedBy reason engineVersion : String} {w w' : World}
  {o : ApprovalOutcome}

/-- An approval reads the log as it was: it writes only the trace and the approval beside it and
changes nothing but permission bits after. -/
theorem approveRun_keeps_log {b : List UInt8}
    (hrun : (approveRun runDir project approvedBy reason engineVersion).run.run w = (.ok o, w'))
    (hlog : w.disk.read w.cwd (Path.join runDir eventsFileName) = .ok b) :
    w'.disk.read w'.cwd (Path.join runDir eventsFileName) = .ok b := by
  have hapart : ∀ (cwd : List String) (name : String), Path.PlainName name → name ≠ eventsFileName →
      ∀ p ∈ [Path.join runDir name], place cwd p ≠ place cwd (Path.join runDir eventsFileName) := by
    intro cwd name hname hne p hp
    rw [List.mem_singleton] at hp
    subst hp
    exact place_join_ne cwd runDir runDir hname plain_eventsFileName hne
  obtain ⟨bytes₀, t₀, t, bytes, w₁, w₃, -, -, hcatch, -, hwrite, rfl⟩ := approveRun_ok hrun
  have hrw := (@catchUpTraceFile_rewritten runDir t₀ bytes₀ w).1
  rw [hcatch] at hrw
  have h₁ := hrw.read_eq (hapart w.cwd _ plain_traceFileName (by decide)) hlog
  have h₃ := (writeApproval_ok_keeps hwrite).1.read_eq
    (hapart w₁.cwd _ plain_approvalFileName (by decide)) h₁
  exact KeepsFiles.lockRunFiles runDir w₃ _ _ h₃

end Approving

/-- Approval and verification agree on a run approved for a named project by a named approver.
The approval holds the digest of the trace file it leaves beside an approval file that reads as
the approval. On a run the store kept, that trace file reads as the trace rebuilt from the whole
log, which still reads as before, up to its watermark. Verifying the directory, right after the
approval or after any later history of calls on the run through stores on its root, reports
nothing but write bits left set. -/
theorem approval_passes_verification {x : RunSite} {w w' : World}
    {project approvedBy reason engineVersion : String} {o : ApprovalOutcome}
    (hproject : (Approval.trimBlanks project).isEmpty = false)
    (happrover : (Approval.trimBlanks approvedBy).isEmpty = false)
    (hat : o.approval.approvedAt.Reparses)
    (hrun : (approveRun x.dir project approvedBy reason engineVersion).run.run w = (.ok o, w')) :
    ∃ bytes, o.approval.traceDigest = some (Sha256.hex bytes) ∧
      w'.disk.read w'.cwd (Path.join x.dir traceFileName) = .ok bytes ∧
      w'.disk.read w'.cwd (Path.join x.dir approvalFileName) = .ok o.approval.fileText.toUTF8.toList ∧
      (∀ E n, RunFiles x w E n → ∃ u D, x.log.readAll.run.run w' = (.ok E, w') ∧
        Trace.rebuild E = some D ∧ Json.readBytes Read.trace bytes = .ok u ∧
        { u with lastSeq := D.lastSeq } = D) ∧
      ∀ calls : List (Store × StoreOp), (∀ c ∈ calls, c.1.root = x.root) →
        ∀ e ∈ ((verifyRunDir x.dir).run ((runCalls x calls).run w').2).1.errors,
          e ∈ ["approval.json is not read-only", "trace.json is not read-only (lock half-applied)",
            "run directory is not read-only (lock half-applied)"] := by
  obtain ⟨bytes₀, t₀, t, bytes, w₁, w₃, hread, hparse, hcatch, happroval, hwrite, rfl⟩ :=
    approveRun_ok hrun
  have hcaught := catchUpTraceFile_read hread hcatch
  obtain ⟨htrace, hfile⟩ := writeApproval_files hwrite hcaught
  have hdigest : o.approval.traceDigest = some (Sha256.hex bytes) := by rw [happroval]
  have hverify : o.approval.verify = .ok () := by
    rw [happroval]
    exact Approval.verify_new hproject happrover
  refine ⟨bytes, hdigest, KeepsFiles.lockRunFiles x.dir w₃ _ _ htrace,
    KeepsFiles.lockRunFiles x.dir w₃ _ _ hfile, fun E n h => ?_, fun calls hroots => ?_⟩
  · obtain ⟨u, D, hD, hu, hlast⟩ := h.approveRun_caught_up hread hparse hcatch
    have hne : E ≠ [] := by
      rintro rfl
      simp [Trace.rebuild] at hD
    exact ⟨u, D, EventLog.readAll_of_read (approveRun_keeps_log hrun (h.read_log hne))
      h.logged.storable h.logged.pos, hD, hu, hlast⟩
  · obtain ⟨-, hdisk, hcwd⟩ := (ApprovedDir.of_approveRun hrun).runCalls_run calls hroots
    apply verifyRunDir_write_bits _ _ hat hverify hdigest
    · rw [hdisk, hcwd]
      exact KeepsFiles.lockRunFiles x.dir w₃ _ _ htrace
    · rw [hdisk, hcwd]
      exact KeepsFiles.lockRunFiles x.dir w₃ _ _ hfile

/-- Approving the finished run `r` of project `p` at the sample root for `ann`. -/
theorem approval_passes_verification_finished_run :
    let w' := ((approveRun sampleSite.dir "p" "ann" "" "v").run.run finishedRunRoot).2
    ∃ bytes, finishedRunRootApproval.approval.traceDigest = some (Sha256.hex bytes) ∧
      w'.disk.read w'.cwd (Path.join sampleSite.dir traceFileName) = .ok bytes ∧
      w'.disk.read w'.cwd (Path.join sampleSite.dir approvalFileName) =
        .ok finishedRunRootApproval.approval.fileText.toUTF8.toList ∧
      (∀ E n, RunFiles sampleSite finishedRunRoot E n → ∃ u D,
        sampleSite.log.readAll.run.run w' = (.ok E, w') ∧
        Trace.rebuild E = some D ∧ Json.readBytes Read.trace bytes = .ok u ∧
        { u with lastSeq := D.lastSeq } = D) ∧
      ∀ calls : List (Store × StoreOp), (∀ c ∈ calls, c.1.root = sampleSite.root) →
        ∀ e ∈ ((verifyRunDir sampleSite.dir).run ((runCalls sampleSite calls).run w').2).1.errors,
          e ∈ ["approval.json is not read-only", "trace.json is not read-only (lock half-applied)",
            "run directory is not read-only (lock half-applied)"] :=
  approval_passes_verification (by decide) (by decide) (Except.eq_ok_of_toOption (by decide))
    finishedRunRoot_approveRun

end RunJournal
