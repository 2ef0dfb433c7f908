import RunJournal.Cli.Parse
import RunJournal.Replay.Timeline
import RunJournal.Diff.Report
/-!
# The ledger's command line

The grammar of `runledger` and what a parsed line asks for. The program lists runs, shows a run,
prints its events, replays and compares traces, approves, verifies and lists baselines, and
rebuilds a trace from its event log. Three options are global: the workspace root, the log level
and the log format, each also read from an environment variable.

Values are checked as the line is read: paths must not be empty, counts are decimal numbers that
fit in 64 bits, and replay modes, change categories and show modes must be ones the ledger knows.
-/

namespace RunJournal.Cli

def ledgerVersion : String := "0.1.0"

def pathValue (v : String) : Option Refusal := if v.isEmpty then some .empty else none

/-- Reads decimal digits into a number below `2^64`, digit by digit as a parse of an unsigned
64-bit count does: the first character that is not a digit, or the first digit that overflows,
decides the error. -/
def countDigits : List Char → Nat → Except String Nat
  | [], n => .ok n
  | c :: cs, n =>
    if !c.isDigit then .error "invalid digit found in string"
    else
      let n := n * 10 + (c.toNat - '0'.toNat)
      if n ≥ Nat.pow 2 64 then .error "number too large to fit in target type" else countDigits cs n

/-- Reads a count: decimal digits, perhaps after a `+`. -/
def countOf (v : String) : Except String Nat :=
  match v.toList with
  | [] => .error "cannot parse integer from empty string"
  | ['+'] => .error "invalid digit found in string"
  | '+' :: ds => countDigits ds 0
  | ds => countDigits ds 0

def countValue (v : String) : Option Refusal :=
  match countOf v with
  | .ok _ => none
  | .error why => some (.invalid why)

def parsedValue {α : Type} (parse : String → Except String α) (v : String) : Option Refusal :=
  match parse v with
  | .ok _ => none
  | .error why => some (.invalid why)

/-- The global options: the workspace root, the log level and the log format. -/
def globalArgs : List Argument :=
  [{ id := "root", long := some "root", valueName := "ROOT", env := some "RUNLEDGER_ROOT",
     help := "Workspace root holding runledger.toml, traces/ and projects/", order := 0,
     check := pathValue },
   { id := "log", long := some "log", valueName := "LOG", env := some "RUNLEDGER_LOG",
     help := "Log level (trace, debug, info, warn, error)", order := 1 },
   { id := "log_format", long := some "log-format", valueName := "LOG_FORMAT",
     env := some "RUNLEDGER_LOG_FORMAT", help := "Log format: pretty | json", order := 2 }]

/-- The help switch; a command with a longer description points from one page to the other. -/
def helpArg (hasLong : Bool) : Argument :=
  { id := "help", long := some "help", short := some 'h', takes := .help,
    help := if hasLong then "Print help (see more with '--help')" else "Print help",
    longHelp := if hasLong then some "Print help (see a summary with '-h')" else none }

def versionArg : Argument :=
  { id := "version", long := some "version", short := some 'V', takes := .version,
    help := "Print version" }

def helpCommand : Command :=
  { name := "help", about := "Print this message or the help of the given subcommand(s)",
    args := [{ id := "subcommand", valueName := "COMMAND", takes := .each,
               help := "Print help for the subcommand(s)" }] }

/-- A subcommand with its own arguments, followed by the global ones and the help switch. -/
def subcommand (name about : String) (longAbout : Option String) (args : List Argument) :
    Command :=
  { name, about, longAbout, args := args ++ globalArgs ++ [helpArg longAbout.isSome] }

def commandGroup (name about : String) (subcommands : List Command) : Command :=
  { name, about, args := globalArgs ++ [helpArg false], subcommands := subcommands ++ [helpCommand] }

def positionalArg (id valueName help : String) : Argument :=
  { id, valueName, required := true, help }

def jsonArg (order : Nat) : Argument :=
  { id := "json", long := some "json", takes := .switch, order }

def baselineCommands : List Command :=
  [subcommand "approve" "Approve a finished run as the project's baseline and lock it"
    (some ("Approve a finished run as the project's baseline and lock it.\n\nExamples: "
      ++ "runledger baseline approve traces/flood_analysis/run_0142 \\ --project flood_analysis "
      ++ "--approved-by qa-team --reason \"golden run\""))
    [{ positionalArg "trace_dir" "TRACE_DIR" "Run directory (traces/<project>/<run_id>)" with
        check := pathValue },
     { id := "project", long := some "project", valueName := "PROJECT", required := true,
       order := 0 },
     { id := "approved_by", long := some "approved-by", valueName := "APPROVED_BY",
       required := true, order := 1 },
     { id := "reason", long := some "reason", valueName := "REASON", required := true,
       order := 2 },
     { id := "engine_version", long := some "engine-version", valueName := "ENGINE_VERSION",
       help := "Overrides engine_version from runledger.toml", order := 3 }],
   subcommand "verify" "Verify a project's baseline and its lock" none
    [positionalArg "project" "PROJECT" "", jsonArg 0],
   subcommand "list" "List every configured baseline" none []]

def ledgerCommand : Command :=
  { name := "runledger",
    about := "Run traces, diffs, replays and locked baselines for multi-agent runs",
    version := some ledgerVersion,
    args := globalArgs ++ [helpArg false, versionArg],
    subcommands :=
      [subcommand "runs" "List runs of a project, newest first"
        (some ("List runs of a project, newest first.\n\nExamples: runledger runs flood_analysis "
          ++ "runledger runs flood_analysis --json"))
        [positionalArg "project" "PROJECT" "", jsonArg 0],
       subcommand "show" "Print a run's trace.json summary (or the whole document with --json)"
        none [positionalArg "project" "PROJECT" "", positionalArg "run_id" "RUN_ID" "", jsonArg 0],
       subcommand "events" "Print the run's event log"
        (some ("Print the run's event log.\n\nExamples: runledger events flood_analysis "
          ++ "run_0142 --limit 20 runledger events flood_analysis run_0142 --type step_added "
          ++ "--type error_added"))
        [positionalArg "project" "PROJECT" "", positionalArg "run_id" "RUN_ID" "",
         { id := "limit", long := some "limit", valueName := "LIMIT",
           help := "Only the most recent N events", order := 0, check := countValue },
         { id := "types", long := some "type", valueName := "TYPE", takes := .each,
           help := "Keep only these event types (repeatable)", order := 1 }],
       subcommand "replay" "Replay a trace as a timeline"
        (some ("Replay a trace as a timeline.\n\n\x60dry\x60 only builds the timeline. \x60full\x60 "
          ++ "needs an execution engine, which this binary does not ship."))
        [{ positionalArg "trace" "TRACE" "Path to trace.json" with check := pathValue },
         { id := "mode", long := some "mode", valueName := "MODE", preset := some "dry",
           order := 0, check := parsedValue ReplayMode.parse },
         jsonArg 1],
       subcommand "diff" "Compare two traces"
        (some ("Compare two traces.\n\nExamples: runledger diff --baseline flood_analysis --new "
          ++ "traces/flood_analysis/run_0143/trace.json runledger diff old/trace.json "
          ++ "new/trace.json --only tools --show first"))
        [{ id := "baseline", long := some "baseline", valueName := "BASELINE",
           requires := ["new"],
           help := "Project whose approved baseline is the reference (recommended)", order := 0 },
         { id := "new", long := some "new", valueName := "NEW",
           help := "Trace to compare against the baseline", order := 1, check := pathValue },
         { id := "trace1", valueName := "TRACE1", help := "Baseline trace.json (without --baseline)",
           check := pathValue },
         { id := "trace2", valueName := "TRACE2", help := "Target trace.json (without --baseline)",
           check := pathValue },
         { id := "only", long := some "only", valueName := "ONLY",
           help := "llm | tool(s) | error(s) | metadata", order := 2,
           check := parsedValue Category.parse },
         { id := "show", long := some "show", valueName := "SHOW", preset := some "all",
           help := "first | all", order := 3, check := parsedValue ShowMode.parse },
         jsonArg 4],
       commandGroup "baseline" "Approve, verify and list baselines" baselineCommands,
       subcommand "recover" "Rebuild trace.json from events.jsonl" none
        [positionalArg "project" "PROJECT" "", positionalArg "run_id" "RUN_ID" ""],
       helpCommand] }

/-- What a command line asks the ledger to do. -/
inductive Request where
  | runs (project : String) (json : Bool)
  | show (project runId : String) (json : Bool)
  | events (project runId : String) (limit : Option Nat) (types : List String)
  | replay (trace : String) (mode : ReplayMode) (json : Bool)
  | diff (baseline new trace1 trace2 : Option String) (only : Option Category) (mode : ShowMode)
      (json : Bool)
  | approve (traceDir project approvedBy reason : String) (engineVersion : Option String)
  | verify (project : String) (json : Bool)
  | listBaselines
  | recover (project runId : String)
  deriving Repr

/-- A parsed command line: the global options and the request. -/
structure Invocation where
  root : Option String
  log : Option String
  logFormat : Option String
  request : Request
  deriving Repr

def Level.text (l : Level) (id : String) : String := (l.value? id).getD ""

def requestOf (leaf : Level) : Option Request :=
  match leaf.path with
  | [_, "runs"] => some (.runs (leaf.text "project") (leaf.flag "json"))
  | [_, "show"] => some (.show (leaf.text "project") (leaf.text "run_id") (leaf.flag "json"))
  | [_, "events"] =>
    some (.events (leaf.text "project") (leaf.text "run_id")
      ((leaf.value? "limit").bind fun v => (countOf v).toOption) (leaf.values "types"))
  | [_, "replay"] =>
    some (.replay (leaf.text "trace")
      (((leaf.value? "mode").bind fun v => (ReplayMode.parse v).toOption).getD .dry)
      (leaf.flag "json"))
  | [_, "diff"] =>
    some (.diff (leaf.value? "baseline") (leaf.value? "new") (leaf.value? "trace1")
      (leaf.value? "trace2") ((leaf.value? "only").bind fun v => (Category.parse v).toOption)
      (((leaf.value? "show").bind fun v => (ShowMode.parse v).toOption).getD .all)
      (leaf.flag "json"))
  | [_, "baseline", "approve"] =>
    some (.approve (leaf.text "trace_dir") (leaf.text "project") (leaf.text "approved_by")
      (leaf.text "reason") (leaf.value? "engine_version"))
  | [_, "baseline", "verify"] => some (.verify (leaf.text "project") (leaf.flag "json"))
  | [_, "baseline", "list"] => some .listBaselines
  | [_, "recover"] => some (.recover (leaf.text "project") (leaf.text "run_id"))
  | _ => none

def Invocation.ofLevels (levels : List Level) : Option Invocation := do
  let leaf ← levels.getLast?
  let request ← requestOf leaf
  pure { root := settledValue? levels "root", log := settledValue? levels "log",
         logFormat := settledValue? levels "log_format", request }

end RunJournal.Cli
