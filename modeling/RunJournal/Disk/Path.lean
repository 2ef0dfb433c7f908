/-!
# Paths

Paths are `/`-separated strings. These helpers follow the usual path algebra: joining an absolute
path replaces what it is joined to, joining anything else adds a separator unless one is there
already (so joining the empty path leaves a trailing separator), and the components of a path skip
empty and `.` parts except a leading `.`.
-/

namespace RunJournal

namespace Path

def isAbsolute (p : String) : Bool := p.toList.head? == some '/'

def join (base p : String) : String :=
  if isAbsolute p then p
  else if base.isEmpty || base.toList.getLast? == some '/' then base ++ p
  else base ++ "/" ++ p

/-- One component of a path. -/
inductive Component where
  | root
  | current
  | parent
  | normal (name : String)
  deriving DecidableEq, Repr

def components (p : String) : List Component :=
  let parts := (p.toList.splitOn '/').map String.ofList
  let head : List Component := if isAbsolute p then [.root]
    else match parts with
      | "." :: _ => [.current]
      | _ => []
  let body := (if isAbsolute p then parts else parts.drop (if parts.head? = some "." then 1 else 0))
  head ++ body.filterMap fun s =>
    if s.isEmpty || s = "." then none else if s = ".." then some .parent else some (.normal s)

def fileName (p : String) : Option String :=
  match (components p).getLast? with
  | some (.normal n) => some n
  | _ => none

def ofComponents (cs : List Component) : String :=
  let text := fun (c : Component) => match c with
    | .root => ""
    | .current => "."
    | .parent => ".."
    | .normal n => n
  match cs with
  | .root :: rest => "/" ++ String.intercalate "/" (rest.map text)
  | _ => String.intercalate "/" (cs.map text)

/-- The path without its last component; none for the root and the empty path. -/
def parent (p : String) : Option String :=
  match (components p).reverse with
  | [] => none
  | [.root] => none
  | _ :: rest => some (ofComponents rest.reverse)

end Path

end RunJournal
