import RunJournal.Proofs.World
import RunJournal.Proofs.Path
import RunJournal.Store.Runs
/-!
# What the store's reads depend on

Reading a run touches two files of its directory, the trace and the log, and every reading function
of the log and the store leaves the world as it is and answers from what the world shows of those
two paths (`Reads`, with `pathView` of one path and `runView` of a run directory). Two worlds that
agree on them give every reading call the same answer.
-/

namespace RunJournal

/-- What the world shows of one path: the entry there, or why there is none. -/
def pathView (path : String) (w : World) : Except IoError Entry := w.disk.metadata w.cwd path

/-- What the world shows of a run directory: its trace and its log. -/
def runView (dir : String) (w : World) : Except IoError Entry × Except IoError Entry :=
  (pathView (Path.join dir traceFileName) w, pathView (Path.join dir eventsFileName) w)

section Views

variable {path : String} {w w' : World}

theorem pathView_read (hv : pathView path w = pathView path w') :
    w.disk.read w.cwd path = w'.disk.read w'.cwd path := by
  simp only [Disk.read, pathView] at hv ⊢
  rw [hv]

theorem pathView_exists (hv : pathView path w = pathView path w') :
    w.disk.exists_ w.cwd path = w'.disk.exists_ w'.cwd path := by
  simp only [Disk.exists_, pathView] at hv ⊢
  rw [hv]

end Views

section Primitives

variable {ε : Type}

theorem pathExists_reads (path : String) :
    Reads (pathView path) (liftM (pathExists path) : WorldE ε Bool) :=
  Reads.onDiskM fun _ _ hv => pathView_exists hv

theorem pathExists_run (path : String) (w : World) :
    (pathExists path).run w = (w.disk.exists_ w.cwd path, w) := rfl

theorem readPath_run (path : String) (w : World) :
    (readPath path).run.run w = (w.disk.read w.cwd path, w) := by
  unfold readPath
  rw [WorldE.run_bind, onDisk_lift_run]
  cases w.disk.read w.cwd path <;> rfl

theorem readPath_reads (path : String) : Reads (pathView path) (readPath path) := by
  unfold readPath
  refine Reads.bind (Reads.onDisk fun _ _ hv => pathView_read hv) fun r => ?_
  split
  · exact Reads.ret _
  · exact Reads.fail _

theorem rememberedTail_reads (key : TailKey) :
    Reads (·.tails) (liftM (rememberedTail key) : WorldE ε (Option LogTail)) :=
  ⟨fun _ => rfl, fun w w' hv => by
    show Except.ok (((w.tails.find? (·.1 == key)).map (·.2))) = Except.ok ((w'.tails.find? (·.1 == key)).map (·.2))
    rw [show w.tails = w'.tails from hv]⟩

end Primitives

namespace EventLog

variable (log : EventLog)

theorem lines_reads : Reads (pathView log.path) log.lines := by
  unfold lines present
  refine Reads.bind (Reads.onDiskM fun _ _ hv => pathView_exists hv) fun b => ?_
  cases b
  · simp only [Bool.not_false, ↓reduceIte]
    exact Reads.ret _
  · simp only [Bool.not_true, Bool.false_eq_true, ↓reduceIte]
    refine Reads.bind (Reads.onDisk fun _ _ hv => pathView_read hv) fun r => ?_
    split
    · exact Reads.fail _
    · split
      · exact Reads.ret _
      · exact Reads.fail _

theorem readFrom_reads (k : Nat) : Reads (pathView log.path) (log.readFrom k) := by
  unfold readFrom
  refine Reads.bind (lines_reads log) fun r => ?_
  cases r <;> exact Reads.ret _

theorem readAll_reads : Reads (pathView log.path) log.readAll := readFrom_reads log 1

theorem bytes?_reads : Reads (pathView log.path) log.bytes? := by
  unfold bytes?
  refine Reads.bind (Reads.onDisk fun _ _ hv => pathView_read hv) fun r => ?_
  rcases r with (_ | e) | b
  all_goals first | exact Reads.ret _ | exact Reads.fail _

theorem lastSeq_reads : Reads (pathView log.path) log.lastSeq := by
  unfold lastSeq
  refine Reads.bind (bytes?_reads log) fun r => ?_
  rcases r with _ | bytes
  · exact Reads.ret _
  · dsimp only
    split
    · exact Reads.ret _
    · split
      · exact Reads.bind (readAll_reads log) fun _ => Reads.ret _
      · exact Reads.ret _

theorem byteLen_reads : Reads (pathView log.path) log.byteLen := by
  unfold byteLen
  refine Reads.bind (Reads.onDisk fun _ _ hv => hv) fun r => ?_
  rcases r with (_ | e) | (b | m)
  all_goals first | exact Reads.ret _ | exact Reads.fail _

theorem tail_reads : Reads (pathView log.path) log.tail := by
  unfold tail
  exact Reads.bind (byteLen_reads log) fun _ => Reads.bind (lastSeq_reads log) fun _ => Reads.ret _

theorem lastByte_reads : Reads (pathView log.path) log.lastByte := by
  unfold lastByte
  refine Reads.bind (bytes?_reads log) fun r => ?_
  cases r <;> exact Reads.ret _

end EventLog

section Store

variable (dir : String)

theorem lockRun_reads : Reads (pathView (Path.join dir eventsFileName)) (lockRun dir) := by
  unfold lockRun
  refine Reads.bind (Reads.onDisk fun _ _ hv => hv) fun r => ?_
  split
  · split
    · exact Reads.ret _
    · exact Reads.fail _
  · exact Reads.ret _
  · exact Reads.fail _

theorem ensureUnlocked_reads (runId : String) :
    Reads (pathView (Path.join dir approvalFileName)) (Store.ensureUnlocked dir runId) := by
  unfold Store.ensureUnlocked
  refine Reads.bind (pathExists_reads _) fun b => ?_
  cases b
  · exact Reads.ret _
  · exact Reads.fail _

theorem currentTail_reads (log : EventLog) (remembered : Option LogTail) :
    Reads (pathView log.path) (Store.currentTail log remembered) := by
  unfold Store.currentTail
  have hfresh := Reads.mapError StoreError.io (EventLog.tail_reads log)
  cases remembered with
  | none => exact hfresh
  | some tail =>
    refine Reads.bind (Reads.mapError _ (EventLog.byteLen_reads log)) fun n => ?_
    split
    · exact Reads.ret _
    · exact hfresh

theorem catchUpFromLog_reads (t : Trace) (logSeq : Option Nat) :
    Reads (pathView (Path.join dir eventsFileName)) (catchUpFromLog dir t logSeq) := by
  unfold catchUpFromLog
  have hlog : (⟨dir⟩ : EventLog).path = Path.join dir eventsFileName := rfl
  have hrest : ∀ last : Nat, Reads (pathView (Path.join dir eventsFileName))
      (if last ≤ t.lastSeq then pure (t, 0) else do
        let events ← storeIo ((⟨dir⟩ : EventLog).readFrom (t.lastSeq + 1))
        pure (t.catchUp events) : WorldE StoreError (Trace × Nat)) := by
    intro last
    split
    · exact Reads.ret _
    · exact Reads.bind (Reads.mapError _ (hlog ▸ EventLog.readFrom_reads _ _)) fun _ => Reads.ret _
  split
  · exact Reads.ret _
  · cases logSeq with
    | some s => exact Reads.bind (Reads.ret s) hrest
    | none => exact Reads.bind (Reads.mapError _ (hlog ▸ EventLog.lastSeq_reads _)) hrest

theorem loadRun_reads (logSeq : Option Nat) : Reads (runView dir) (loadRun dir logSeq) := by
  unfold loadRun
  have hevents : ∀ w w', runView dir w = runView dir w' →
      pathView (Path.join dir eventsFileName) w = pathView (Path.join dir eventsFileName) w' :=
    fun _ _ hv => congrArg Prod.snd hv
  have hall : Reads (runView dir) (storeIo (⟨dir⟩ : EventLog).readAll) :=
    (Reads.mapError _ (EventLog.readAll_reads _)).mono hevents
  refine Reads.bind (Reads.onDisk fun _ _ hv => pathView_read (congrArg Prod.fst hv)) fun r => ?_
  split
  · exact Reads.bind hall fun _ => Reads.ret _
  · exact Reads.fail _
  · split
    · exact Reads.bind ((catchUpFromLog_reads dir _ _).mono hevents) fun _ => Reads.ret _
    · refine Reads.bind hall fun events => ?_
      split
      · exact Reads.ret _
      · exact Reads.fail _

theorem runTaken_reads : Reads (runView dir) (Store.runTaken dir) := by
  unfold Store.runTaken
  refine Reads.bind ((pathExists_reads _).mono fun _ _ hv => congrArg Prod.fst hv) fun b => ?_
  cases b
  · exact Reads.bind ((Reads.mapError _ (EventLog.lastSeq_reads _)).mono
      fun _ _ hv => congrArg Prod.snd hv) fun _ => Reads.ret _
  · exact Reads.ret _

end Store

end RunJournal
