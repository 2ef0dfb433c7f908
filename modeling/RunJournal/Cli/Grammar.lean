/-!
# Command-line grammars

A command is a name, a summary, its arguments and its subcommands. An argument is named
(`--name`, perhaps with a one-letter form `-n`) or positional. A named argument is a switch, takes
one value, or takes a value each time it appears; two more kinds ask for the help page and the
version. An argument may be required, may be read from an environment variable when the command
line leaves it out, may bring a default, and may require other arguments.

Messages and usage lines name an argument by its form: `--name <VALUE>` for a named argument with
a value, `--name` for a switch, `<VALUE>` for a required positional and `[VALUE]` for an optional
one, followed by `...` for a positional that takes any number of values. A usage line lists the
named arguments that are required or in use, then every positional.
-/

namespace RunJournal.Cli

/-- How an argument takes values. -/
inductive Takes where
  | switch
  | one
  | each
  | help
  | version
  deriving DecidableEq, Repr

/-- Why a value was refused: it is empty where a value is needed, or it does not parse. -/
inductive Refusal where
  | empty
  | invalid (why : String)
  deriving DecidableEq, Repr

/-- One argument of a command. -/
structure Argument where
  id : String
  long : Option String := none
  short : Option Char := none
  valueName : String := ""
  takes : Takes := .one
  required : Bool := false
  env : Option String := none
  requires : List String := []
  preset : Option String := none
  help : String := ""
  longHelp : Option String := none
  /-- The place among the named arguments on the help page; ties go by name. -/
  order : Nat := 999
  check : String → Option Refusal := fun _ => none

/-- A command and what it accepts. -/
structure Command where
  name : String
  about : String
  longAbout : Option String := none
  version : Option String := none
  args : List Argument
  subcommands : List Command := []

namespace Argument

def isPositional (a : Argument) : Bool := a.long.isNone && a.short.isNone

def takesValue (a : Argument) : Bool := a.takes == .one || a.takes == .each

/-- The argument's form, written as required or as optional (this matters for positionals). -/
def form (a : Argument) (required : Bool) : String :=
  if a.isPositional then
    (if required then "<" ++ a.valueName ++ ">" else "[" ++ a.valueName ++ "]")
      ++ (if a.takes == .each then "..." else "")
  else
    let name := match a.long, a.short with
      | some l, _ => "--" ++ l
      | none, some s => "-" ++ s.toString
      | none, none => ""
    if a.takesValue then name ++ " <" ++ a.valueName ++ ">" else name

def display (a : Argument) : String := a.form a.required

end Argument

namespace Command

def find? (cmd : Command) (id : String) : Option Argument := cmd.args.find? (·.id == id)

def positionals (cmd : Command) : List Argument := cmd.args.filter (·.isPositional)

def requiredIds (cmd : Command) : List String := (cmd.args.filter (·.required)).map (·.id)

/-- The arguments that `id` requires, directly or through the arguments it requires. -/
def requiresOf (cmd : Command) (id : String) : List String :=
  let step := fun (acc : List String) (_ : Nat) =>
    acc ++ (acc.flatMap fun r => ((cmd.find? r).map (·.requires)).getD []).filter (!acc.contains ·)
  let direct := ((cmd.find? id).map (·.requires)).getD []
  (List.range cmd.args.length).foldl step direct

def subcommandNames (cmd : Command) : List String := cmd.subcommands.map (·.name)

end Command

def firstOccurrences (xs : List String) : List String :=
  xs.foldl (fun acc x => if acc.contains x then acc else acc ++ [x]) []

/-- The required arguments `required` unrolled with what each requires, followed by `extra`. -/
def unrolled (cmd : Command) (required extra : List String) : List String :=
  required.foldl (fun acc a => acc ++ cmd.requiresOf a ++ [a]) [] ++ extra

/-- The forms a usage line lists: the named arguments among the required ones and `used`, then
every positional (those among them as required, the rest as optional). -/
def usageForms (cmd : Command) (required used : List String) : List String :=
  let ids := unrolled cmd required used
  let named := firstOccurrences <| ids.filterMap fun id =>
    (cmd.find? id).bind fun a => if a.isPositional then none else some (a.form true)
  let positionals := cmd.positionals.map fun p => p.form (ids.contains p.id)
  named ++ positionals

/-- The forms of the arguments in `missing` (and what the required ones need) that are not
present, named ones first, as a list of missing arguments shows them. -/
def missingForms (cmd : Command) (required missing : List String) (present : String → Bool) :
    List String :=
  let ids := (unrolled cmd required missing).filter (!present ·)
  let named := firstOccurrences <| ids.filterMap fun id =>
    (cmd.find? id).bind fun a => if a.isPositional then none else some (a.form true)
  let positionals := (cmd.positionals.filter (ids.contains ·.id)).map (·.form true)
  named ++ positionals

def subcommandSlot (cmd : Command) : String :=
  if cmd.subcommands.isEmpty then "" else " <COMMAND>"

/-- The usage line of a help page: the command's path, `[OPTIONS]` when some named argument is
optional, the required named arguments and every positional. -/
def helpUsage (cmd : Command) (path : List String) : String :=
  let optional := cmd.args.any fun a =>
    !a.isPositional && !a.required && a.takes != .help && a.takes != .version
  " ".intercalate path ++ (if optional then " [OPTIONS]" else "")
    ++ String.join ((usageForms cmd cmd.requiredIds []).map (" " ++ ·)) ++ subcommandSlot cmd

/-- The usage line fitted to the arguments in use; with none in use it is the help page's. -/
def fittedUsage (cmd : Command) (path : List String) (required used : List String) : String :=
  if used.isEmpty then helpUsage cmd path
  else " ".intercalate path ++ String.join ((usageForms cmd required used).map (" " ++ ·))
    ++ subcommandSlot cmd

end RunJournal.Cli
