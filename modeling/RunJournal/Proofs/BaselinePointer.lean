import RunJournal.Proofs.Recording
import RunJournal.Proofs.RootPaths
import RunJournal.Proofs.LogText
/-!
# What a baseline record points to

Writing a project's record, by `BaselineManager.createBaseline` or by a successful approval, leaves
the text of the record naming the run at the project's record path. Main statement,
`BaselineManager.baseline_record_reads_back`: when that record reads back from its YAML text,
loading the project's record gives it, with the project, the run and the manager's policy, and the
trace path it gives leads where the trace path given does when that lies below the root, and
otherwise where it leads from the root.

Whatever the trace path, the one read back is the root joined with its part below the root, every
backslash written as a slash (`Recorded.points`). Without a backslash that is the path itself; a
backslash becomes a separator, so a path naming a directory with a backslash in its name comes
back as a path through two directories (`baseline_trace_path_leads_elsewhere`).
-/

namespace RunJournal

namespace BaselineManager

open RunJournal.Path

variable (m : BaselineManager) (project : String)

/-- A record whose YAML text is at the project's record path and reads back is what loading the
project's record gives. -/
theorem loadBaseline_of_read {w : World} {b : ProjectBaseline}
    (hread : w.disk.read w.cwd (m.baselinePath project) = .ok b.toYaml.toUTF8.toList)
    (hyaml : ProjectBaseline.ofYaml b.toYaml = .ok b) :
    (m.loadBaseline project).run.run w = (.ok (some b), w) := by
  have hexists : w.disk.exists_ w.cwd (m.baselinePath project) = true := Disk.exists_of_read hread
  have hbytes : ((WorldE.mapError BaselineError.io (readPath (m.baselinePath project))).run.run w).1 =
      .ok b.toYaml.toUTF8.toList := by
    rw [WorldE.mapError_run, readPath_run, hread]
    rfl
  unfold loadBaseline baselineIo
  rw [WorldE.run_bind]
  simp only [pathExists, onDisk_liftM_run, hexists]
  rw [if_neg (by decide), (Reads.mapError _ (readPath_reads _)).run_bind_ok hbytes]
  simp only [fromUTF8?_toUTF8_toList, hyaml]
  rfl

/-- The trace path of a record that loads is the record's, joined to the root. -/
theorem baselineTracePath_of_load {w : World} {b : ProjectBaseline}
    (h : (m.loadBaseline project).run.run w = (.ok (some b), w)) :
    (m.baselineTracePath project).run w = (some (m.resolve b.tracePath), w) := by
  unfold baselineTracePath
  rw [WorldM.bind_run]
  simp only [h]
  rfl

/-- Creating a record that succeeds leaves the text of the record naming the run at the project's
record path, approved when the call started. -/
theorem createBaseline_records {runId tracePath path : String} {w w' : World}
    (h : (m.createBaseline project runId tracePath).run.run w = (.ok path, w')) :
    path = m.baselinePath project ∧
      w'.disk.read w'.cwd (m.baselinePath project) =
        .ok (m.recordOf project runId tracePath w.clock).toYaml.toUTF8.toList := by
  unfold createBaseline at h
  obtain ⟨s, w₁, hstage, hpersist⟩ := WorldE.bind_eq_ok h
  obtain ⟨hpath, -, -, htext, -⟩ := stage_record m project hstage
  obtain ⟨rfl, -, hread⟩ := StagedBaseline.persist_ok hpersist
  rw [hpath] at hread ⊢
  rw [hread, htext]
  exact ⟨rfl, rfl⟩

/-- After creating a record that reads back, the trace path the project's record gives is the
trace path as recorded, joined to the root. -/
theorem baselineTracePath_of_create {runId tracePath path : String} {w w' : World}
    (h : (m.createBaseline project runId tracePath).run.run w = (.ok path, w'))
    (hyaml : ProjectBaseline.ofYaml (m.recordOf project runId tracePath w.clock).toYaml =
      .ok (m.recordOf project runId tracePath w.clock)) :
    (m.baselineTracePath project).run w' = (some (m.resolve (m.relativeToRoot tracePath)), w') := by
  have hload := loadBaseline_of_read m project (createBaseline_records m project h).2 hyaml
  rw [baselineTracePath_of_load m project hload]
  rfl

/-- What reading back a project's record gives, once it was written naming run `runId` with
`tracePath`: the record of the project naming the run under the manager's policy, and as its trace
path the root joined with the part of `tracePath` below the root (all of it when it does not lie
there), every backslash written as a slash. For a `tracePath` with no backslash, that path leads
where `tracePath` does when it lies below the root, and where `tracePath` leads from the root
otherwise. -/
structure Recorded (m : BaselineManager) (project runId tracePath : String) (w : World) : Prop where
  loads : ∃ b, (m.loadBaseline project).run.run w = (.ok (some b), w) ∧ b.project = project ∧
    b.runId = runId ∧ b.policy = m.settings.policy
  points : (m.baselineTracePath project).run w =
    (some (m.resolve (slashes ((stripRoot m.settings.root tracePath).getD tracePath))), w)
  leads : '\\' ∉ tracePath.toList →
    Disk.place w.cwd (m.resolve (slashes ((stripRoot m.settings.root tracePath).getD tracePath))) =
      Disk.place (if (stripRoot m.settings.root tracePath).isSome then w.cwd
        else Disk.place w.cwd m.settings.root) tracePath

/-- The record naming a run, once written where it reads back, is what the project's record
gives. -/
theorem recorded_of_read {runId tracePath : String} {at_ : Instant} {w : World}
    (hread : w.disk.read w.cwd (m.baselinePath project) =
      .ok (m.recordOf project runId tracePath at_).toYaml.toUTF8.toList)
    (hyaml : ProjectBaseline.ofYaml (m.recordOf project runId tracePath at_).toYaml =
      .ok (m.recordOf project runId tracePath at_)) : Recorded m project runId tracePath w := by
  have hload := loadBaseline_of_read m project hread hyaml
  have hpoints := baselineTracePath_of_load m project hload
  rw [show (m.recordOf project runId tracePath at_).tracePath = m.relativeToRoot tracePath from rfl,
    relativeToRoot_eq_slashes] at hpoints
  exact ⟨⟨_, hload, rfl, rfl, rfl⟩, hpoints, fun hslash => place_resolve_relativeToRoot m w.cwd hslash⟩

/-- Writing a project's record and reading it back. After `createBaseline` with a trace path, and
after an approval of a run directory that succeeds, once the record written reads back from its
YAML text, the project's record is the record naming the run (by the directory's name for an
approval) under the manager's policy, and its trace path is the root joined with the part of the
trace path below the root, every backslash written as a slash; without a backslash it leads where
the trace path given does when that lies below the root, and otherwise where it leads from the
root. -/
theorem baseline_record_reads_back (m : BaselineManager) (project : String) (w : World) :
    (∀ runId tracePath path w',
      (m.createBaseline project runId tracePath).run.run w = (.ok path, w') →
      ProjectBaseline.ofYaml (m.recordOf project runId tracePath w.clock).toYaml =
        .ok (m.recordOf project runId tracePath w.clock) →
      Recorded m project runId tracePath w') ∧
    (∀ runDir approvedBy reason a w',
      (m.approveRunDir project runDir approvedBy reason).run.run w = (.ok a, w') →
      ∃ runId, fileName runDir = some runId ∧
        (ProjectBaseline.ofYaml (m.recordOf project runId (join runDir traceFileName) w.clock).toYaml =
            .ok (m.recordOf project runId (join runDir traceFileName) w.clock) →
          Recorded m project runId (join runDir traceFileName) w')) := by
  refine ⟨fun runId tracePath path w' h hyaml => ?_, fun runDir approvedBy reason a w' h => ?_⟩
  · exact recorded_of_read m project (createBaseline_records m project h).2 hyaml
  · obtain ⟨runId, hname, -, -, hrecord⟩ := approveRunDir_records m project h
    exact ⟨runId, hname, fun hyaml => recorded_of_read m project hrecord hyaml⟩

/-- A ledger below `/ledger` with the default settings. -/
def sampleManager : BaselineManager := ⟨Settings.rooted "/ledger"⟩

/-- An empty disk, working in `/work`, at a clock whose readings print and parse back. -/
def sampleWorld : World := World.fresh ["work"] ⟨20000, 3600, 0⟩

theorem baseline_record_reads_back_created :
    let w' := ((sampleManager.createBaseline "p" "r" "/ledger/traces/p/r/trace.json").run.run
      sampleWorld).2
    Recorded sampleManager "p" "r" "/ledger/traces/p/r/trace.json" w' :=
  (baseline_record_reads_back sampleManager "p" sampleWorld).1 "r" "/ledger/traces/p/r/trace.json"
    "/ledger/projects/p/baseline.yaml" _ (Prod.ext (Except.eq_ok_of_toOption (by decide +kernel)) rfl)
    (Except.eq_ok_of_toOption (by decide +kernel))

/-- The trace path given back need not lead where the one given does: a directory with a
backslash in its name comes back as two directories, and a relative path outside the root is taken
from the root instead of the working directory. -/
theorem baseline_trace_path_leads_elsewhere :
    (let w' := ((sampleManager.createBaseline "p" "r" "/ledger/traces/p/a\\b/trace.json").run.run
        sampleWorld).2
     (sampleManager.baselineTracePath "p").run w' = (some "/ledger/traces/p/a/b/trace.json", w') ∧
       Disk.place w'.cwd "/ledger/traces/p/a/b/trace.json" ≠
         Disk.place w'.cwd "/ledger/traces/p/a\\b/trace.json") ∧
    (let w' := ((sampleManager.createBaseline "p" "r" "t/trace.json").run.run sampleWorld).2
     (sampleManager.baselineTracePath "p").run w' = (some "/ledger/t/trace.json", w') ∧
       Disk.place w'.cwd "/ledger/t/trace.json" ≠ Disk.place w'.cwd "t/trace.json") := by
  constructor
  · intro w'
    have hpath : sampleManager.resolve (sampleManager.relativeToRoot
        "/ledger/traces/p/a\\b/trace.json") = "/ledger/traces/p/a/b/trace.json" := by decide +kernel
    have hcreate : (sampleManager.createBaseline "p" "r" "/ledger/traces/p/a\\b/trace.json").run.run
        sampleWorld = (.ok "/ledger/projects/p/baseline.yaml", w') :=
      Prod.ext (Except.eq_ok_of_toOption (by decide +kernel)) rfl
    rw [baselineTracePath_of_create sampleManager "p" hcreate
      (Except.eq_ok_of_toOption (by decide +kernel)), hpath]
    exact ⟨rfl, by decide +kernel⟩
  · intro w'
    have hpath : sampleManager.resolve (sampleManager.relativeToRoot "t/trace.json") =
        "/ledger/t/trace.json" := by decide +kernel
    have hcreate : (sampleManager.createBaseline "p" "r" "t/trace.json").run.run sampleWorld =
        (.ok "/ledger/projects/p/baseline.yaml", w') :=
      Prod.ext (Except.eq_ok_of_toOption (by decide +kernel)) rfl
    rw [baselineTracePath_of_create sampleManager "p" hcreate
      (Except.eq_ok_of_toOption (by decide +kernel)), hpath]
    exact ⟨rfl, by decide +kernel⟩

end BaselineManager

end RunJournal
