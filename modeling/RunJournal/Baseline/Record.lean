import RunJournal.Yaml.Write
import RunJournal.Yaml.Decode
import RunJournal.Trace.Codec
/-!
# Project baselines

Each project may name one approved run as its baseline, in `baseline.yaml` under the project's
directory: the project, the run, the path of the run's trace, whether it is approved, when, and the
policy that governs comparing against and replaying it. Every policy flag defaults to true, and so
does `approved`.
-/

namespace RunJournal

/-- What a baseline allows and demands. -/
structure BaselinePolicy where
  diffRequired : Bool
  replayAllowed : Bool
  overwriteForbidden : Bool
  deriving DecidableEq, Repr

def BaselinePolicy.default : BaselinePolicy :=
  { diffRequired := true, replayAllowed := true, overwriteForbidden := true }

/-- The baseline of a project. -/
structure ProjectBaseline where
  project : String
  runId : String
  tracePath : String
  approved : Bool
  approvedAt : Instant
  policy : BaselinePolicy
  deriving DecidableEq, Repr

namespace BaselinePolicy

def toJson (p : BaselinePolicy) : Json :=
  .obj [("diff_required", .bool p.diffRequired), ("replay_allowed", .bool p.replayAllowed),
    ("overwrite_forbidden", .bool p.overwriteForbidden)]

def toYaml (p : BaselinePolicy) : Yaml.Value :=
  .map [("diff_required", .bool p.diffRequired), ("replay_allowed", .bool p.replayAllowed),
    ("overwrite_forbidden", .bool p.overwriteForbidden)]

/-- Reads a policy from a YAML mapping; absent flags are true. -/
def ofYaml : Yaml.Decoder BaselinePolicy :=
  Yaml.record "struct BaselinePolicy" BaselinePolicy.default [
    .field "diff_required" (some id) Yaml.boolean fun p b => { p with diffRequired := b },
    .field "replay_allowed" (some id) Yaml.boolean fun p b => { p with replayAllowed := b },
    .field "overwrite_forbidden" (some id) Yaml.boolean fun p b => { p with overwriteForbidden := b }]

def ofPartialJson (v : Json) : BaselinePolicy :=
  let flag := fun (name : String) => ((v.get? name).bind Json.bool?).getD true
  { diffRequired := flag "diff_required", replayAllowed := flag "replay_allowed",
    overwriteForbidden := flag "overwrite_forbidden" }

end BaselinePolicy

namespace ProjectBaseline

def toJson (b : ProjectBaseline) : Json :=
  .obj [("project", .str b.project), ("baseline_run_id", .str b.runId),
    ("trace_path", .str b.tracePath), ("approved", .bool b.approved),
    ("approved_at", b.approvedAt.toJson), ("policy", b.policy.toJson)]

def toYaml (b : ProjectBaseline) : String :=
  Yaml.Value.document (.map [("project", .text b.project), ("baseline_run_id", .text b.runId),
    ("trace_path", .text b.tracePath), ("approved", .bool b.approved),
    ("approved_at", .text b.approvedAt.text), ("policy", b.policy.toYaml)])

def blank : ProjectBaseline :=
  { project := "", runId := "", tracePath := "", approved := true, approvedAt := Read.epoch,
    policy := BaselinePolicy.default }

/-- Reads a baseline from the text of `baseline.yaml`. -/
def ofYaml (text : String) : Except String ProjectBaseline :=
  Yaml.decodeText text <| Yaml.record "struct BaselineConfig" blank [
    .field "project" none Yaml.string fun b s => { b with project := s },
    .field "baseline_run_id" none Yaml.string fun b s => { b with runId := s },
    .field "trace_path" none Yaml.string fun b s => { b with tracePath := s },
    .field "approved" (some id) Yaml.boolean fun b x => { b with approved := x },
    .field "approved_at" none
      (Yaml.parsedText "an RFC 3339 formatted date and time string" Instant.parse)
      fun b t => { b with approvedAt := t },
    .field "policy" (some id) BaselinePolicy.ofYaml fun b p => { b with policy := p }]

end ProjectBaseline

end RunJournal
