import RunJournal.Cli.Grammar
/-!
# Help pages

A help page gives the command's summary, its usage line, its subcommands, its positionals and its
named arguments. Each argument line shows the argument's form and its help, followed by where an
environment variable would supply it (`[env: NAME=value]`) and its default.

The page is laid out for a width of 100 columns. Help texts sit in a column after the longest
form; when that column starts past 40% of the width and some help would run past the edge, every
help of the section moves to a line of its own, indented by ten. The long page (`--help`, when the
command has a longer description) always uses separate lines and leaves a blank line between
arguments.
-/

namespace RunJournal.Cli

def pageWidth : Nat := 100

def spaces (n : Nat) : String := String.ofList (List.replicate n ' ')

def Command.hasLongHelp (cmd : Command) : Bool := cmd.longAbout.isSome

/-- What a help page notes after an argument's help: the environment variable and the default. -/
def Argument.notes (a : Argument) (env : String → Option String) (long : Bool) : String :=
  let envNote := a.env.map fun name => "[env: " ++ name ++ "=" ++ (env name).getD "" ++ "]"
  let presetNote := if a.takesValue then a.preset.map fun v => "[default: " ++ v ++ "]" else none
  (if long then "\n" else " ").intercalate ([envNote, presetNote].filterMap fun x => x)

def Argument.helpText (a : Argument) (long : Bool) : String :=
  if long then a.longHelp.getD a.help else a.help

def Argument.described (a : Argument) (env : String → Option String) (long : Bool) : String :=
  let help := a.helpText long
  let notes := a.notes env long
  if notes.isEmpty then help
  else if help.isEmpty then notes
  else help ++ (if long then "\n\n" else " ") ++ notes

def Argument.width (a : Argument) : Nat :=
  if a.isPositional then (a.form a.required).length else (a.form a.required).length + 4

/-- The start of an argument's line: the one-letter form, the name and the value. -/
def Argument.head (a : Argument) : String :=
  let letter := match a.short with
    | some s => "-" ++ s.toString ++ (if a.long.isSome then ", " else "")
    | none => if a.long.isSome then "    " else ""
  let name := match a.long with
    | some l => "--" ++ l
    | none => ""
  let value :=
    if a.isPositional then a.form a.required
    else if a.takesValue then " <" ++ a.valueName ++ ">" else ""
  "  " ++ letter ++ name ++ value

/-- A line of a section: its head, the head's width, the described help, and the width the help
and its notes take without the space between them. -/
structure Row where
  head : String
  width : Nat
  text : String
  measure : Nat

def Argument.row (a : Argument) (env : String → Option String) (long : Bool) : Row :=
  { head := a.head, width := a.width, text := a.described env long,
    measure := (a.helpText long).length + (a.notes env long).length }

/-- The rows of a section laid out: in one column after the longest head, or each help on a line
of its own. `extra` is what a row's head takes beyond its width for aligning. -/
def layRows (rows : List Row) (extra : Nat) (long : Bool) : String :=
  let longest := rows.foldl (fun m r => max m r.width) 2
  let taken := longest + extra
  let separate := long || rows.any fun r =>
    pageWidth ≥ taken && 2 * pageWidth < 5 * taken && r.measure > pageWidth - taken
  let indent := fun (s : String) (n : Nat) => s.replace "\n" ("\n" ++ spaces n)
  let line := fun (r : Row) =>
    if separate then r.head ++ "\n" ++ spaces 10 ++ indent r.text 10
    else r.head ++ spaces (longest + 2 - r.width) ++ indent r.text taken
  (if separate && long then "\n\n" else "\n").intercalate (rows.map line)

def Argument.sortKey (a : Argument) : Nat × String :=
  let key := match a.short, a.long with
    | some s, _ => s.toLower.toString ++ (if s.isLower then "0" else "1")
    | none, some l => l
    | none, none => "\x7b" ++ a.id
  (a.order, key)

def keyBefore (x y : Nat × String) : Bool := x.1 < y.1 || (x.1 == y.1 && decide (x.2 ≤ y.2))

def Command.helpPage (cmd : Command) (path : List String) (env : String → Option String)
    (wantLong : Bool) : String :=
  let long := wantLong && cmd.hasLongHelp
  let about := if long then cmd.longAbout.getD cmd.about else cmd.about
  let subRows := cmd.subcommands.map fun s =>
    { head := "  " ++ s.name, width := s.name.length, text := s.about, measure := s.about.length : Row }
  let posRows := cmd.positionals.map (·.row env long)
  let named := (cmd.args.filter (!·.isPositional)).mergeSort fun x y => keyBefore x.sortKey y.sortKey
  let namedRows := named.map (·.row env long)
  let sections :=
    (if subRows.isEmpty then [] else ["Commands:\n" ++ layRows subRows 4 false])
    ++ (if posRows.isEmpty then [] else ["Arguments:\n" ++ layRows posRows 4 long])
    ++ (if namedRows.isEmpty then [] else ["Options:\n" ++ layRows namedRows 8 long])
  let page := about ++ "\n\nUsage: " ++ helpUsage cmd path ++ "\n\n" ++ "\n\n".intercalate sections
  String.ofList (page.toList.reverse.dropWhile Char.isWhitespace).reverse ++ "\n"

end RunJournal.Cli
