import RunJournal.Proofs.TraceCodec
import RunJournal.Proofs.StoreReads
import RunJournal.Proofs.Frame
import RunJournal.Baseline.Lock
/-!
# Approvals pass verification

Approving a run and verifying its directory are separate paths through the code. Approving
catches the trace up, hashes the trace file as it then is and writes `approval.json`; verifying
reads both files back, checks the approval's flags and names, and hashes the trace file again.

The two agree on every approval whose project and approver are not blank: the approval file reads
back as the approval, the digest it holds is that of the trace file the approval left
(`approveRun_files`), and a verification of a directory whose two files read so reports nothing
but write bits left set (`verifyRunDir_write_bits`). The names are the caller's own arguments and
approving never looks at them: an approval by a blank approver is written all the same, and every
verification then finds it invalid (`Approval.verify_blank_approver`).

Locking changes permission bits and nothing else: `KeepsFiles m` says `m` leaves every file
reading as it did, and it is closed under `bind` and `mapM`.
-/

namespace RunJournal


namespace Json

theorem Decodes.approval : Decodes Read.approval Approval.toJson (·.approvedAt.Reparses) :=
  Decodes.record (by decide)
    (fun a => [some (.bool a.baseline), some (.str a.project), some (.str a.approvedBy),
      some a.approvedAt.toJson, some (.str a.reason), some (.str a.engineVersion),
      some (.bool a.lock), some (.str a.schemaVersion), a.traceDigest.map .str])
    (fun _ => rfl) fun a ha src p k d hd => by
      have hd0 : 0 < d := hd _ (List.mem_cons_self ..)
      exact .read (fun _ => rfl) Decodes.bool trivial hd0 <|
        .read (fun _ => rfl) Decodes.str trivial hd0 <|
        .read (fun _ => rfl) Decodes.str trivial hd0 <|
        .read (fun _ => rfl) Decodes.instant ha hd0 <|
        .read (fun _ => rfl) Decodes.str trivial hd0 <|
        .read (fun _ => rfl) Decodes.str trivial hd0 <|
        .read (fun _ => rfl) Decodes.bool trivial hd0 <|
        .read (fun _ => rfl) Decodes.str trivial hd0 <|
        .option (fun _ => rfl) (by decide) Decodes.str (fun _ _ => by simp) (fun _ _ => trivial)
          (fun _ _ => hd0) rfl <| .nil a

theorem nesting_approval (a : Approval) : nesting a.toJson ≤ 1 :=
  nesting_members_le (by cases a.traceDigest <;> simp [nesting])

theorem Approval.fileText_reads_back {a : Approval} (ha : a.approvedAt.Reparses) :
    Json.readBytes Read.approval a.fileText.toUTF8.toList = .ok a :=
  Decodes.approval.readBytes_file ha (by have := nesting_approval a; omega)

end Json

theorem Approval.verify_new {project approvedBy reason engineVersion : String} {at_ : Instant}
    {digest : Option String} (hproject : (Approval.trimBlanks project).isEmpty = false)
    (happrover : (Approval.trimBlanks approvedBy).isEmpty = false) :
    { Approval.new project approvedBy reason engineVersion at_ with traceDigest := digest }.verify
      = .ok () := by
  simp [Approval.verify, Approval.new, hproject, happrover]

theorem Approval.verify_blank_approver {project approvedBy reason engineVersion : String}
    {at_ : Instant} {digest : Option String}
    (hproject : (Approval.trimBlanks project).isEmpty = false)
    (happrover : (Approval.trimBlanks approvedBy).isEmpty = true) :
    { Approval.new project approvedBy reason engineVersion at_ with traceDigest := digest }.verify
      = .error "approved_by field is empty" := by
  simp [Approval.verify, Approval.new, hproject, happrover]

section Runs

variable {α β : Type}

theorem Except.mapError_eq_ok {ε ε' : Type} {x : Except ε α} {f : ε → ε'} {a : α} :
    x.mapError f = .ok a ↔ x = .ok a := by
  cases x with
  | error e => constructor <;> intro h <;> cases h
  | ok b => constructor <;> intro h <;> cases h <;> rfl

theorem read_of_baselineIo_readPath {path : String} {w : World} {b : List UInt8}
    (h : ((baselineIo (readPath path)).run.run w).1 = .ok b) : w.disk.read w.cwd path = .ok b := by
  rw [baselineIo, WorldE.mapError_run, readPath_run] at h
  exact Except.mapError_eq_ok.mp h

theorem loadApproval_run {path : String} {w : World} {bytes : List UInt8}
    (h : w.disk.read w.cwd path = .ok bytes) :
    (loadApproval path).run.run w = ((Json.readBytes Read.approval bytes).mapError .json, w) := by
  have hread : ((baselineIo (readPath path)).run.run w).1 = .ok bytes := by
    rw [baselineIo, WorldE.mapError_run, readPath_run, h]
    rfl
  unfold loadApproval baselineIo
  rw [(Reads.mapError _ (readPath_reads path)).run_bind_ok hread]
  cases Json.readBytes Read.approval bytes <;> rfl

def World.writableAt (w : World) (path : String) : Bool :=
  match w.disk.metadata w.cwd path with
  | .ok e => e.mode &&& 0o222 != 0
  | .error _ => false

theorem isWritable_run (path : String) (w : World) :
    (isWritable path).run w = (w.writableAt path, w) := by
  unfold isWritable World.writableAt
  rw [WorldM.bind_run, onDisk_run]
  dsimp only
  cases w.disk.metadata w.cwd path <;> rfl

end Runs

section KeepsFiles

variable {α β γ : Type}

def KeepsFiles (m : WorldM α) : Prop :=
  ∀ w path b, w.disk.read w.cwd path = .ok b → (m.run w).2.disk.read (m.run w).2.cwd path = .ok b

namespace KeepsFiles

theorem pure (a : α) : KeepsFiles (Pure.pure a : WorldM α) := fun _ _ _ h => h

theorem bind {x : WorldM α} {f : α → WorldM β} (hx : KeepsFiles x) (hf : ∀ a, KeepsFiles (f a)) :
    KeepsFiles (x >>= f) := by
  intro w path b h
  rw [WorldM.bind_run]
  exact hf _ _ path b (hx w path b h)

theorem mapM {f : γ → WorldM α} (hf : ∀ c, KeepsFiles (f c)) :
    ∀ cs : List γ, KeepsFiles (cs.mapM f)
  | [] => pure []
  | c :: cs => by
    rw [List.mapM_cons]
    exact (hf c).bind fun _ => (mapM hf cs).bind fun _ => pure _

theorem pathExists (path : String) : KeepsFiles (RunJournal.pathExists path) :=
  fun _ _ _ h => h

theorem setMode (path : String) {mode : Nat} (hmode : Disk.canRead mode) :
    KeepsFiles (RunJournal.setMode path mode).run := by
  intro w q b h
  obtain ⟨hcwd, -, hdisk⟩ := changeDisk_effect (fun d cwd => d.chmod cwd path mode) w
  show ((changeDisk _).run.run w).2.disk.read ((changeDisk _).run.run w).2.cwd q = .ok b
  rw [hcwd]
  rcases hdisk with hsame | hchmod
  · rw [hsame]
    exact h
  · exact Disk.chmod_read hchmod hmode h

theorem lockFile (runDir file : String) : KeepsFiles (RunJournal.lockFile runDir file) := by
  unfold RunJournal.lockFile
  refine (pathExists _).bind fun e => ?_
  split
  · exact pure _
  · exact (setMode _ rfl).bind fun r => by split <;> exact pure _

theorem lockRunFiles (runDir : String) : KeepsFiles (RunJournal.lockRunFiles runDir) := by
  unfold RunJournal.lockRunFiles
  exact (mapM (lockFile runDir) _).bind fun _ => (setMode _ rfl).bind fun _ => pure _

end KeepsFiles

end KeepsFiles

section Approving

variable {runDir : String}

theorem catchUpTraceFile_read {t₀ t : Trace} {bytes₀ bytes : List UInt8} {w w₁ : World}
    (hread : w.disk.read w.cwd (Path.join runDir traceFileName) = .ok bytes₀)
    (hrun : (catchUpTraceFile runDir t₀ bytes₀).run.run w = (.ok (t, bytes), w₁)) :
    w₁.disk.read w₁.cwd (Path.join runDir traceFileName) = .ok bytes := by
  unfold catchUpTraceFile at hrun
  obtain ⟨⟨t', applied⟩, -, hrun⟩ :=
    Reads.bind_eq_ok (Reads.mapError _ (catchUpFromLog_reads runDir t₀ none)) hrun
  dsimp only at hrun
  split at hrun
  · obtain ⟨_, w₂, -, hrun⟩ := WorldE.bind_eq_ok hrun
    obtain ⟨b, hb, hrun⟩ := Reads.bind_eq_ok (Reads.mapError _ (readPath_reads _)) hrun
    rw [WorldE.run_pure, Prod.mk.injEq, Except.ok.injEq, Prod.mk.injEq] at hrun
    obtain ⟨⟨-, rfl⟩, rfl⟩ := hrun
    exact read_of_baselineIo_readPath hb
  · rw [WorldE.run_pure, Prod.mk.injEq, Except.ok.injEq, Prod.mk.injEq] at hrun
    obtain ⟨⟨-, rfl⟩, rfl⟩ := hrun
    exact hread

/-- A written approval reads as its text, and the trace file beside it as before. -/
theorem writeApproval_files {a : Approval} {w w' : World} {b : List UInt8}
    (hrun : (writeApproval runDir a).run.run w = (.ok (), w'))
    (htrace : w.disk.read w.cwd (Path.join runDir traceFileName) = .ok b) :
    w'.disk.read w'.cwd (Path.join runDir traceFileName) = .ok b ∧
      w'.disk.read w'.cwd (Path.join runDir approvalFileName) = .ok a.fileText.toUTF8.toList := by
  unfold writeApproval at hrun
  rw [WorldE.run_bind, lift_ioCheck_run] at hrun
  dsimp only at hrun
  split at hrun
  · rw [WorldE.run_bind, WorldE.run_throw] at hrun
    cases hrun
  rw [baselineIo, WorldE.mapError_run, Prod.mk.injEq] at hrun
  obtain ⟨hok, rfl⟩ := hrun
  have hdisk := changeDisk_ok (Except.mapError_eq_ok.mp hok)
  rw [(changeDisk_effect _ w.advance).1, World.advance_cwd]
  rw [World.advance_disk, World.advance_cwd] at hdisk
  exact ⟨Disk.replace_read_sibling hdisk (by decide) (by decide) (by decide) htrace,
    Disk.replace_read hdisk⟩

/-- What an approval that succeeds went through: the trace file read and decoded, caught up,
the approval stamped with the clock and the digest of the caught-up file, written, and the run
locked. -/
theorem approveRun_ok {project approvedBy reason engineVersion : String} {w w' : World}
    {o : ApprovalOutcome}
    (hrun : (approveRun runDir project approvedBy reason engineVersion).run.run w = (.ok o, w')) :
    ∃ bytes₀ t₀ t bytes w₁ w₃,
      w.disk.read w.cwd (Path.join runDir traceFileName) = .ok bytes₀ ∧
      Json.readBytes Read.trace bytes₀ = .ok t₀ ∧
      (catchUpTraceFile runDir t₀ bytes₀).run.run w = (.ok (t, bytes), w₁) ∧
      o.approval = { Approval.new project approvedBy reason engineVersion w₁.clock with
        traceDigest := some (Sha256.hex bytes) } ∧
      (writeApproval runDir o.approval).run.run { w₁ with clock := w₁.clock.addMicros 1 }
        = (.ok (), w₃) ∧
      w' = ((lockRunFiles runDir).run w₃).2 := by
  rw [approveRun] at hrun
  obtain ⟨hasTrace, -, hrun⟩ := Reads.bind_eq_ok (pathExists_reads _) hrun
  dsimp only at hrun
  split at hrun
  · rw [WorldE.run_bind, WorldE.run_throw] at hrun
    cases hrun
  obtain ⟨_, -, hrun⟩ := Reads.bind_eq_ok (Reads.mapError _ (lockRun_reads runDir)) hrun
  obtain ⟨hasApproval, -, hrun⟩ := Reads.bind_eq_ok (pathExists_reads _) hrun
  split at hrun
  · rw [WorldE.run_bind, WorldE.run_throw] at hrun
    cases hrun
  obtain ⟨bytes₀, hbytes₀, hrun⟩ := Reads.bind_eq_ok (Reads.mapError _ (readPath_reads _)) hrun
  split at hrun
  case h_2 =>
    rw [WorldE.run_bind, WorldE.run_throw] at hrun
    cases hrun
  rename_i t₀ hparse
  rw [WorldE.run_bind, WorldE.run_pure] at hrun
  dsimp only at hrun
  obtain ⟨⟨t, bytes⟩, w₁, hcatch, hrun⟩ := WorldE.bind_eq_ok hrun
  dsimp only at hrun
  split at hrun
  · rw [WorldE.run_bind, WorldE.run_throw] at hrun
    cases hrun
  split at hrun
  · rw [WorldE.run_bind, WorldE.run_throw] at hrun
    cases hrun
  obtain ⟨clock, w₂, hnow, hrun⟩ := WorldE.bind_eq_ok hrun
  obtain ⟨_, w₃, hwrite, hrun⟩ := WorldE.bind_eq_ok hrun
  obtain ⟨warnings, w₄, hlock, hrun⟩ := WorldE.bind_eq_ok hrun
  rw [WorldE.run_pure, Prod.mk.injEq, Except.ok.injEq] at hrun
  obtain ⟨rfl, rfl⟩ := hrun
  have hclock : (liftM now : WorldE BaselineError Instant).run.run w₁ =
      (.ok w₁.clock, { w₁ with clock := w₁.clock.addMicros 1 }) := rfl
  rw [hclock, Prod.mk.injEq, Except.ok.injEq] at hnow
  obtain ⟨rfl, rfl⟩ := hnow
  exact ⟨bytes₀, t₀, t, bytes, w₁, w₃, read_of_baselineIo_readPath hbytes₀, hparse, hcatch, rfl,
    hwrite, (congrArg Prod.snd hlock).symm⟩

/-- An approval that succeeds holds the digest of the trace file it leaves, beside an approval
file that reads as the approval. -/
theorem approveRun_files {project approvedBy reason engineVersion : String} {w w' : World}
    {o : ApprovalOutcome}
    (hrun : (approveRun runDir project approvedBy reason engineVersion).run.run w = (.ok o, w')) :
    ∃ at_ bytes, o.approval = { Approval.new project approvedBy reason engineVersion at_ with
        traceDigest := some (Sha256.hex bytes) } ∧
      w'.disk.read w'.cwd (Path.join runDir traceFileName) = .ok bytes ∧
      w'.disk.read w'.cwd (Path.join runDir approvalFileName) = .ok o.approval.fileText.toUTF8.toList := by
  obtain ⟨bytes₀, t₀, t, bytes, w₁, w₃, hread, -, hcatch, happroval, hwrite, rfl⟩ :=
    approveRun_ok hrun
  have hcaught := catchUpTraceFile_read hread hcatch
  obtain ⟨htrace, hfile⟩ := writeApproval_files hwrite hcaught
  exact ⟨w₁.clock, bytes, happroval, KeepsFiles.lockRunFiles runDir w₃ _ _ htrace,
    KeepsFiles.lockRunFiles runDir w₃ _ _ hfile⟩

/-- Verifying a directory whose approval is valid, reads back and holds the digest of the trace
file finds only the write bits left set. -/
theorem verifyRunDir_errors {w : World} {tb : List UInt8} {a : Approval}
    (htrace : w.disk.read w.cwd (Path.join runDir traceFileName) = .ok tb)
    (happroval : w.disk.read w.cwd (Path.join runDir approvalFileName) = .ok a.fileText.toUTF8.toList)
    (hat : a.approvedAt.Reparses) (hverify : a.verify = .ok ())
    (hdigest : a.traceDigest = some (Sha256.hex tb)) :
    ((verifyRunDir runDir).run w).1.errors =
      (if w.writableAt (Path.join runDir approvalFileName) then ["approval.json is not read-only"]
        else []) ++
      (if w.writableAt (Path.join runDir traceFileName) then
        ["trace.json is not read-only (lock half-applied)"] else []) ++
      (if w.writableAt runDir then ["run directory is not read-only (lock half-applied)"]
        else []) := by
  have hload : (loadApproval (Path.join runDir approvalFileName)).run.run w = (.ok a, w) := by
    rw [loadApproval_run happroval, Json.Approval.fileText_reads_back hat]
    rfl
  have hread : (readPath (Path.join runDir traceFileName)).run.run w = (.ok tb, w) := by
    rw [readPath_run, htrace]
  unfold verifyRunDir
  rw [WorldM.bind_run, pathExists_run]
  dsimp only
  rw [WorldM.bind_run, pathExists_run]
  dsimp only
  simp only [Disk.exists_of_read htrace, Disk.exists_of_read happroval, Bool.not_true,
    Bool.false_eq_true, ↓reduceIte]
  rw [WorldM.bind_run, hload]
  dsimp only
  rw [WorldM.bind_run, isWritable_run, WorldM.bind_run, isWritable_run, WorldM.bind_run,
    isWritable_run]
  dsimp only
  simp only [hdigest]
  rw [WorldM.bind_run, hread]
  dsimp only
  simp [hverify]
  rfl

/-- Verifying a directory whose two files read as an approval of named parties and the trace it
hashed finds at most the write bits left set. -/
theorem verifyRunDir_write_bits {w : World} {tb : List UInt8} {a : Approval}
    (htrace : w.disk.read w.cwd (Path.join runDir traceFileName) = .ok tb)
    (happroval : w.disk.read w.cwd (Path.join runDir approvalFileName) = .ok a.fileText.toUTF8.toList)
    (hat : a.approvedAt.Reparses) (hverify : a.verify = .ok ())
    (hdigest : a.traceDigest = some (Sha256.hex tb)) :
    ∀ e ∈ ((verifyRunDir runDir).run w).1.errors,
      e ∈ ["approval.json is not read-only", "trace.json is not read-only (lock half-applied)",
        "run directory is not read-only (lock half-applied)"] := by
  intro e he
  rw [verifyRunDir_errors htrace happroval hat hverify hdigest] at he
  simp only [List.mem_append, List.mem_ite_nil_right, List.mem_singleton] at he
  rcases he with (⟨-, rfl⟩ | ⟨-, rfl⟩) | ⟨-, rfl⟩ <;> simp

theorem Except.eq_ok_of_toOption {ε α : Type} {r : Except ε α} {a : α} (h : r.toOption = some a) :
    r = .ok a := by
  cases r with
  | error e => cases h
  | ok b =>
    cases h
    rfl

/-- The trace file of a finished run `r` of project `p`, compact, with only the fields a trace
must have. -/
def finishedRunTrace : String :=
  "\x7b\"trace_version\":\"1.0\",\"run_id\":\"r\",\"project_id\":\"p\",\"status\":\"COMPLETED\",\"started_at\":\"2024-10-04T01:00:00Z\"\x7d"

end Approving

end RunJournal
