import RunJournal.Toml.Read
import RunJournal.Baseline.Record
import RunJournal.Disk.Path
/-!
# Ledger settings

Where a ledger keeps its runs and baselines and how it logs. Settings start from a root
directory: traces go under `<root>/traces`, project baselines under `<root>/projects`. A
`runledger.toml` in the root may move both (a relative path is taken below the root), set the
engine version, the log filter, format and file, the default baseline policy and the slow-operation
threshold; a file that does not read as such settings is ignored as a whole. A log filter or format
given by the caller wins over the file, except an empty format.
-/

namespace RunJournal

def defaultEngineVersion : String := "runledger:0.1.0"

def settingsFileName : String := "runledger.toml"

/-- The settings of a ledger. -/
structure Settings where
  root : String
  tracesDir : String
  projectsDir : String
  engineVersion : String
  log : String
  logFormat : String
  logFile : Option String
  policy : BaselinePolicy
  slowOpMs : Nat
  deriving DecidableEq, Repr

/-- What a settings file may set. -/
structure FileSettings where
  tracesDir : Option String := none
  projectsDir : Option String := none
  engineVersion : Option String := none
  log : Option String := none
  logFormat : Option String := none
  logFile : Option String := none
  policy : Option BaselinePolicy := none
  slowOpMs : Option Nat := none
  deriving Repr

namespace FileSettings

def text : Toml.Value → Option String
  | .str s => some s
  | _ => none

def flag : Toml.Value → Option Bool
  | .bool b => some b
  | _ => none

/-- Reads the fields of a record from a table (unknown keys skipped, absent ones left at their
default) or from an array of its fields in order (missing ones at their default, no extra). -/
def fields {α : Type} (init : α) (names : List String) (set : α → Nat → Toml.Value → Option α) :
    Toml.Value → Option α
  | .table entries =>
    entries.foldl (fun acc (k, v) => acc.bind fun a =>
      match names.idxOf? k with
      | some i => set a i v
      | none => some a) (some init)
  | .arr items =>
    if items.length > names.length then none
    else items.zipIdx.foldl (fun acc (v, i) => acc.bind fun a => set a i v) (some init)
  | _ => none

def policyOf : Toml.Value → Option BaselinePolicy :=
  fields BaselinePolicy.default ["diff_required", "replay_allowed", "overwrite_forbidden"]
    fun p i v => (flag v).map fun b =>
      match i with
      | 0 => { p with diffRequired := b }
      | 1 => { p with replayAllowed := b }
      | _ => { p with overwriteForbidden := b }

def slowOpOf : Toml.Value → Option Nat :=
  fields 250 ["slow_op_threshold_ms"] fun _ _ v =>
    match v with
    | .int n => if 0 ≤ n then some n.toNat else none
    | _ => none

def ofTable (entries : List (String × Toml.Value)) : Option FileSettings :=
  entries.foldl (fun acc (k, v) => acc.bind fun s =>
    match k with
    | "traces_dir" => (text v).map fun x => { s with tracesDir := some x }
    | "projects_dir" => (text v).map fun x => { s with projectsDir := some x }
    | "engine_version" => (text v).map fun x => { s with engineVersion := some x }
    | "log" => (text v).map fun x => { s with log := some x }
    | "log_format" => (text v).map fun x => { s with logFormat := some x }
    | "log_file" => (text v).map fun x => { s with logFile := some x }
    | "baseline_policy" => (policyOf v).map fun x => { s with policy := some x }
    | "store" => (slowOpOf v).map fun x => { s with slowOpMs := some x }
    | _ => some s) (some {})

/-- Reads a settings file; a file that is not valid TOML or holds a setting of the wrong kind
gives nothing. -/
def parse (text : String) : Option FileSettings :=
  match Toml.document text with
  | .ok entries => ofTable entries
  | .error _ => none

end FileSettings

namespace Settings

def rooted (root : String) : Settings :=
  { root, tracesDir := Path.join root "traces", projectsDir := Path.join root "projects",
    engineVersion := defaultEngineVersion, log := "info", logFormat := "pretty", logFile := none,
    policy := BaselinePolicy.default, slowOpMs := 250 }

/-- The settings below `root` given the text of its settings file, if it could be read, and the
caller's log filter and format. -/
def load (root : String) (fileText : Option String) (log logFormat : Option String) : Settings :=
  let file := (fileText.bind FileSettings.parse).getD {}
  let resolve := fun (p : String) => Path.join root p
  { root
    tracesDir := (file.tracesDir.map resolve).getD (Path.join root "traces")
    projectsDir := (file.projectsDir.map resolve).getD (Path.join root "projects")
    engineVersion := file.engineVersion.getD defaultEngineVersion
    log := (log.orElse fun _ => file.log).getD "info"
    logFormat := ((logFormat.filter (!·.isEmpty)).orElse fun _ => file.logFormat).getD "pretty"
    logFile := file.logFile.map resolve
    policy := file.policy.getD BaselinePolicy.default
    slowOpMs := file.slowOpMs.getD 250 }

def toJson (s : Settings) : Json :=
  .obj [("root", .str s.root), ("traces_dir", .str s.tracesDir), ("projects_dir", .str s.projectsDir),
    ("engine_version", .str s.engineVersion), ("log", .str s.log), ("log_format", .str s.logFormat),
    ("log_file", match s.logFile with
      | some f => .str f
      | none => .null),
    ("baseline_policy", s.policy.toJson), ("store", .obj [("slow_op_threshold_ms", .ofNat s.slowOpMs)]),
    ("slow_op_threshold_ms", .ofNat s.slowOpMs)]

end Settings

end RunJournal
