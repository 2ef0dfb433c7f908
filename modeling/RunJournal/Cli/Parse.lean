import RunJournal.Cli.Help
import RunJournal.Cli.Similar
/-!
# Reading a command line

The tokens are read against a command's grammar, one command at a time. A token that names a
subcommand hands the rest of the line to it. `--` makes every later token positional. A token
`--name` or `--name=value` is a named argument, `-x` a one-letter one, and any other token is the
value an option waits for or the next positional.

A value is checked when the next argument begins or the line ends, so an argument that is not
known is reported before a bad value that came earlier. After the tokens, absent arguments are
taken from the environment, then from their defaults, and the line is refused if a required
argument or a subcommand is missing. Refusals name what is wrong, offer similar names where some
exist, and end with a usage line fitted to what was given.

A global argument is declared at every level. The value that counts comes from the deepest level,
unless a level above had it from a stronger source (the line beats the environment, which beats a
default).
-/

namespace RunJournal.Cli

/-- Where an argument's values came from, in rising precedence. -/
inductive Source where
  | preset
  | env
  | line
  deriving DecidableEq, Repr

def Source.rank : Source → Nat
  | .preset => 0
  | .env => 1
  | .line => 2

/-- An argument a command received, with its values. -/
structure Matched where
  id : String
  values : List String
  source : Source
  deriving Repr

abbrev Env := String → Option String

/-- A refused command line: the headline, tips, and the usage line to show. -/
structure Fault where
  headline : String
  tips : List String := []
  usage : Option String := none

def Fault.text (f : Fault) : String :=
  "error: " ++ f.headline
    ++ (if f.tips.isEmpty then "" else "\n" ++ String.join (f.tips.map ("\n  tip: " ++ ·)))
    ++ (match f.usage with
      | some u => "\n\nUsage: " ++ u
      | none => "")
    ++ "\n\nFor more information, try '--help'.\n"

/-- Why reading stopped: a page to print, on standard output or standard error, and the exit
status. -/
structure Halt where
  text : String
  toStdout : Bool
  code : Nat

/-- A refusal as a halt: on standard error, with status 2. -/
def Fault.halt (f : Fault) : Halt := { text := f.text, toStdout := false, code := 2 }

/-- The state of reading one command's tokens: what was received, the argument whose values are
not yet checked, whether it is an option still waiting for its value, the next positional, and
whether `--` was seen. -/
structure Scan where
  matched : List Matched := []
  pending : Option (Argument × List String) := none
  awaiting : Bool := false
  position : Nat := 0
  trailing : Bool := false

def Scan.used (st : Scan) : List String := (st.matched.filter (·.source != .preset)).map (·.id)

/-- One parsed level of the line: the command, its path and what it received. -/
structure Level where
  cmd : Command
  path : List String
  matched : List Matched

def Level.value? (l : Level) (id : String) : Option String :=
  (l.matched.find? (·.id == id)).bind (·.values.getLast?)

def Level.values (l : Level) (id : String) : List String :=
  ((l.matched.find? (·.id == id)).map (·.values)).getD []

def Level.flag (l : Level) (id : String) : Bool := l.matched.any (·.id == id)

def settled (levels : List Level) (id : String) : Option Matched :=
  levels.foldl (fun acc l =>
    match l.matched.find? (·.id == id), acc with
    | some x, some p => if x.source.rank < p.source.rank then some p else some x
    | some x, none => some x
    | none, _ => acc) none

def settledValue? (levels : List Level) (id : String) : Option String :=
  (settled levels id).bind (·.values.getLast?)

def refusalFault (a : Argument) (value : String) : Refusal → Fault
  | .empty => { headline := "a value is required for '" ++ a.display ++ "' but none was supplied" }
  | .invalid why =>
    { headline := "invalid value '" ++ value ++ "' for '" ++ a.display ++ "': " ++ why }

def checkAll (a : Argument) : List String → Except Halt Unit
  | [] => .ok ()
  | v :: vs =>
    match a.check v with
    | some r => .error (refusalFault a v r).halt
    | none => checkAll a vs

def similarTip (kind : String) (xs : List String) : String :=
  let quoted := ", ".intercalate (xs.map fun x => "'" ++ x ++ "'")
  match xs with
  | [_] => "a similar " ++ kind ++ " exists: " ++ quoted
  | _ => "some similar " ++ kind ++ "s exist: " ++ quoted

/-- What reading one command needs: the command, its path from the program, the environment. -/
structure Frame where
  cmd : Command
  path : List String
  env : Env

namespace Frame

def helpHalt (fr : Frame) (long : Bool) : Halt :=
  { text := fr.cmd.helpPage fr.path fr.env long, toStdout := true, code := 0 }

def versionHalt (fr : Frame) : Halt :=
  { text := " ".intercalate fr.path ++ " " ++ fr.cmd.version.getD "" ++ "\n", toStdout := true,
    code := 0 }

def conflict (fr : Frame) (a : Argument) : Fault :=
  { headline := "the argument '" ++ a.display ++ "' cannot be used multiple times",
    usage := some (helpUsage fr.cmd fr.path) }

/-- Records `values` for `a` from `source`. A value-taking argument given on the line needs a
value; a switch or a one-value argument may appear once; every value must pass the check. -/
def record (fr : Frame) (a : Argument) (values : List String) (source : Source)
    (m : List Matched) : Except Halt (List Matched) := do
  if source == .line && a.takesValue && values.isEmpty then
    throw (refusalFault a "" .empty).halt
  let again := m.any (·.id == a.id)
  if a.takes == .each then
    checkAll a values
    if again then
      pure (m.map fun x => if x.id == a.id then { x with values := x.values ++ values } else x)
    else pure (m ++ [{ id := a.id, values, source }])
  else
    if again then throw (fr.conflict a).halt
    checkAll a values
    pure (m ++ [{ id := a.id, values := if a.takes == .switch then ["true"] else values, source }])

def resolve (fr : Frame) (st : Scan) : Except Halt Scan :=
  match st.pending with
  | none => .ok st
  | some (a, vs) => do
    let m ← fr.record a vs .line st.matched
    pure { st with matched := m, pending := none, awaiting := false }

/-- Settles the pending argument while a refusal is already on its way: it counts as given when
it had values. -/
def quietly (fr : Frame) (st : Scan) : Scan :=
  match fr.resolve st with
  | .ok st' => st'
  | .error _ =>
    match st.pending with
    | some (a, vs) =>
      if vs.isEmpty then { st with pending := none }
      else { st with pending := none, matched := st.matched ++ [{ id := a.id, values := vs, source := .line }] }
    | none => st

def unknownLong (fr : Frame) (st : Scan) (name : String) (rest : List String) : Fault :=
  let headline := "unexpected argument '--" ++ name ++ "' found"
  match closest name (fr.cmd.args.filterMap (·.long)) with
  | some c =>
    let extra := match fr.cmd.args.find? (·.long == some c) with
      | some a => if st.used.contains a.id then [] else [a.id]
      | none => []
    { headline, tips := [similarTip "argument" ["--" ++ c]],
      usage := some (fittedUsage fr.cmd fr.path fr.cmd.requiredIds (st.used ++ extra)) }
  | none =>
    let offers := fr.cmd.subcommands.filterMap fun sub =>
      match closest name (sub.args.filterMap (·.long)), rest.idxOf? sub.name with
      | some c, some i => some (i, sub.name, c)
      | _, _ => none
    let best := offers.foldl (fun acc o =>
      match acc with
      | some b => if o.1 < b.1 then some o else some b
      | none => some o) none
    let usage := some (fittedUsage fr.cmd fr.path fr.cmd.requiredIds st.used)
    match best with
    | some (_, sub, c) => { headline, tips := ["'" ++ sub ++ " --" ++ c ++ "' exists"], usage }
    | none =>
      let tips := if !st.trailing && !fr.cmd.positionals.isEmpty then
        ["to pass '--" ++ name ++ "' as a value, use '-- --" ++ name ++ "'"] else []
      { headline, tips, usage }

def unknownShort (fr : Frame) (st : Scan) (c : Char) : Fault :=
  let flag := "-" ++ c.toString
  { headline := "unexpected argument '" ++ flag ++ "' found",
    tips := if !st.trailing && !fr.cmd.positionals.isEmpty then
      ["to pass '" ++ flag ++ "' as a value, use '-- " ++ flag ++ "'"] else [],
    usage := some (helpUsage fr.cmd fr.path) }

def unneededValue (fr : Frame) (st : Scan) (a : Argument) (value : String) : Fault :=
  let used := (st.matched.filter fun x =>
    x.source != .preset && !(fr.cmd.find? x.id).any (·.required)).map (·.id)
  { headline := "unexpected value '" ++ value ++ "' for '" ++ a.display
      ++ "' found; no more were expected",
    usage := some (fittedUsage fr.cmd fr.path fr.cmd.requiredIds (used ++ [a.id])) }

/-- The refusal of a token that is neither a value, a positional nor a subcommand. -/
def strayValue (fr : Frame) (st : Scan) (tok : String) : Fault :=
  let usage := some (helpUsage fr.cmd fr.path)
  let unexpected := { headline := "unexpected argument '" ++ tok ++ "' found", usage : Fault }
  if fr.cmd.subcommands.isEmpty then unexpected
  else
    let unrecognized := { headline := "unrecognized subcommand '" ++ tok ++ "'", usage : Fault }
    if st.trailing then
      if fr.cmd.subcommandNames.contains tok then
        { unexpected with
          tips := ["subcommand '" ++ tok ++ "' exists; to use it, remove the '--' before it"] }
      else unrecognized
    else
      match resembling tok fr.cmd.subcommandNames with
      | [] => if fr.cmd.positionals.isEmpty then unrecognized else unexpected
      | cs => { unrecognized with tips := [similarTip "subcommand" cs] }

def missingSubcommand (fr : Frame) : Fault :=
  { headline := "'" ++ " ".intercalate fr.path
      ++ "' requires a subcommand but one was not provided\n  [subcommands: "
      ++ ", ".intercalate fr.cmd.subcommandNames ++ "]",
    usage := some (helpUsage fr.cmd fr.path) }

def positional (fr : Frame) (st : Scan) (tok : String) : Except Halt Scan :=
  match fr.cmd.positionals[st.position]? with
  | some p => do
    let st ← fr.resolve st
    pure { st with pending := some (p, [tok]), position := st.position + 1 }
  | none => .error (fr.strayValue (fr.quietly st) tok).halt

def longArg (fr : Frame) (st : Scan) (body : List Char) (rest : List String) : Except Halt Scan :=
  let name := String.ofList (body.takeWhile (· != '='))
  let attached :=
    if body.contains '=' then some (String.ofList ((body.dropWhile (· != '=')).drop 1)) else none
  match fr.cmd.args.find? (·.long == some name) with
  | none => .error (fr.unknownLong (fr.quietly st) name rest).halt
  | some a =>
    match a.takes, attached with
    | .help, none => do
      let _ ← fr.resolve st
      throw (fr.helpHalt true)
    | .version, none => do
      let _ ← fr.resolve st
      throw fr.versionHalt
    | .switch, none => do
      let st ← fr.resolve st
      pure { st with matched := ← fr.record a [] .line st.matched }
    | .one, some v | .each, some v => do
      let st ← fr.resolve st
      pure { st with matched := ← fr.record a [v] .line st.matched }
    | .one, none | .each, none => do
      let st ← fr.resolve st
      pure { st with pending := some (a, []), awaiting := true }
    | _, some v => .error (fr.unneededValue st a v).halt

def shortArgs (fr : Frame) : Scan → List Char → Except Halt Scan
  | st, [] => .ok st
  | st, c :: more =>
    match fr.cmd.args.find? (·.short == some c) with
    | none => .error (fr.unknownShort (fr.quietly st) c).halt
    | some a =>
      match a.takes with
      | .help => do
        let _ ← fr.resolve st
        throw (fr.helpHalt false)
      | .version => do
        let _ ← fr.resolve st
        throw fr.versionHalt
      | .switch => do
        let st ← fr.resolve st
        let st := { st with matched := ← fr.record a [] .line st.matched }
        shortArgs fr st more
      | _ => do
        let st ← fr.resolve st
        let value := match more with
          | '=' :: v => v
          | v => v
        if more.isEmpty then pure { st with pending := some (a, []), awaiting := true }
        else pure { st with matched := ← fr.record a [String.ofList value] .line st.matched }

def step (fr : Frame) (st : Scan) (tok : String) (rest : List String) : Except Halt Scan :=
  match tok.toList with
  | ['-', '-'] => .ok { st with trailing := true }
  | '-' :: '-' :: body => fr.longArg st body rest
  | '-' :: c :: more => fr.shortArgs st (c :: more)
  | _ =>
    match st.awaiting, st.pending with
    | true, some (a, vs) => .ok { st with pending := some (a, vs ++ [tok]), awaiting := false }
    | _, _ => fr.positional st tok

/-- Reads the tokens of one command, up to the subcommand that takes the rest. A token that an
option is waiting for is its value even when it names a subcommand. -/
def scan (fr : Frame) : Scan → List String → Except Halt (Scan × Option (Command × List String))
  | st, [] => .ok (st, none)
  | st, tok :: rest =>
    if st.trailing then
      match fr.positional st tok with
      | .ok st' => scan fr st' rest
      | .error h => .error h
    else
      match (if st.awaiting then none else fr.cmd.subcommands.find? (·.name == tok)) with
      | some sub => .ok (st, some (sub, rest))
      | none =>
        match fr.step st tok rest with
        | .ok st' => scan fr st' rest
        | .error h => .error h

def validate (fr : Frame) (m : List Matched) (hasSub : Bool) : Except Halt Unit := do
  let explicit := fun (id : String) => m.any fun x => x.id == id && x.source != .preset
  if !hasSub && !fr.cmd.subcommands.isEmpty then
    if !m.any (·.source != .preset) then
      throw { text := fr.cmd.helpPage fr.path fr.env false, toStdout := false, code := 2 }
    throw fr.missingSubcommand.halt
  let given := (m.filter (·.source != .preset)).map (·.id)
  let required := firstOccurrences (fr.cmd.requiredIds ++ given.flatMap fr.cmd.requiresOf)
  let missing := required.filter (!explicit ·)
  let index := fun (id : String) => ((fr.cmd.positionals.findIdx? (·.id == id)).map (· + 1)).getD 0
  let highest := missing.foldl (fun h id => max h (index id)) 0
  let preceding := (fr.cmd.positionals.filter fun p =>
    index p.id < highest && !explicit p.id && !missing.contains p.id).map (·.id)
  let missing := missing ++ preceding
  if !missing.isEmpty then
    let forms := missingForms fr.cmd required missing explicit
    throw ({ headline := "the following required arguments were not provided:"
                ++ String.join (forms.map ("\n  " ++ ·)),
             usage := some (fittedUsage fr.cmd fr.path required (given ++ missing)) } : Fault).halt

/-- Completes a command's reading: checks the pending value, takes absent arguments from the
environment and from their defaults, and validates. -/
def finish (fr : Frame) (st : Scan) (hasSub : Bool) : Except Halt (List Matched) := do
  let st ← fr.resolve st
  let fromEnv := fun (m : List Matched) (a : Argument) =>
    if m.any (·.id == a.id) then pure m
    else match a.env.bind fr.env with
      | some v => fr.record a [v] .env m
      | none => pure m
  let m ← fr.cmd.args.foldlM fromEnv st.matched
  let m := fr.cmd.args.foldl (fun m a =>
    if m.any (·.id == a.id) then m
    else match a.preset with
      | some v => m ++ [{ id := a.id, values := [v], source := .preset }]
      | none => m) m
  fr.validate m hasSub
  pure m

def helpFor (fr : Frame) : List String → Halt
  | [] => fr.helpHalt true
  | n :: ns =>
    match fr.cmd.subcommands.find? (·.name == n) with
    | some sc => helpFor { fr with cmd := sc, path := fr.path ++ [sc.name] } ns
    | none =>
      ({ headline := "unrecognized subcommand '" ++ n ++ "'",
         usage := some (helpUsage fr.cmd fr.path) } : Fault).halt

end Frame

/-- Reads `tokens` against the command of `fr` and its subcommands, one level per command. -/
def readLevels : Nat → Frame → List String → Except Halt (List Level)
  | 0, _, _ => .error { text := "", toStdout := false, code := 2 }
  | fuel + 1, fr, tokens => do
    let (st, sub) ← fr.scan {} tokens
    match sub with
    | none =>
      let m ← fr.finish st false
      pure [{ cmd := fr.cmd, path := fr.path, matched := m }]
    | some (sc, rest) =>
      if sc.name == "help" then throw (fr.helpFor rest)
      let below ← readLevels fuel { fr with cmd := sc, path := fr.path ++ [sc.name] } rest
      let m ← fr.finish st true
      pure ({ cmd := fr.cmd, path := fr.path, matched := m } :: below)

/-- Reads a command line (the tokens after the program's name) against `cmd`. -/
def readLine (cmd : Command) (env : Env) (tokens : List String) : Except Halt (List Level) :=
  readLevels (tokens.length + 1) { cmd, path := [cmd.name], env } tokens

end RunJournal.Cli
