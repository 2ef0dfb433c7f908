import RunJournal.Yaml.Load
import RunJournal.Yaml.Resolve
/-!
# Typed values from YAML documents

A decoder reads one value from the items of a loaded document, starting at a position, and gives
the position after it. Through an alias it reads the anchored node where that stands, and goes on
after the alias.

* Text is read from any scalar, whatever its tag or style.
* A boolean is read from a plain scalar (or a literal one tagged `!!bool`) spelling one.
* A record is read from a mapping, member by member in document order: a member met twice is a
  fault, an unknown one is skipped whole. Then each member not met takes its default or is
  missing, in declaration order. A void document or an empty plain scalar reads as an empty
  mapping.

A fault about a value names the path to its node (`.` at the root, `parent.key` below, `?` for a
key that is not a scalar) and the node's place. Faults that arise inside a record without a place
of their own (a repeated or missing member) take the record's path and place. A syntax fault is
reported as it is, when reading needs an item past it or once reading is done; so is a second
document, once the first has been read.
-/

namespace RunJournal

namespace Yaml

/-- Where a value sits: the root, a member of a mapping by its key, the node an alias stands for,
or a member whose key is not a scalar. -/
inductive Path where
  | root
  | member (parent : Path) (key : String)
  | alias (parent : Path)
  | unknown (parent : Path)
  deriving Repr, Inhabited

def Path.text : Path → String
  | .root => "."
  | .member parent key => (match parent with | .root => "" | _ => parent.text ++ ".") ++ key
  | .alias parent => parent.text
  | .unknown parent => (match parent with | .root => "" | _ => parent.text ++ ".") ++ "?"

/-- Gives a message that has no place yet the place and path of the node being read. -/
def Fault.fix (f : Fault) (mark : Mark) (path : Path) : Fault :=
  match f with
  | .message t none => .message t (some (mark, path.text))
  | f => f

/-- A decoder: reads a value from the document at a path and position, giving the position after
it. -/
abbrev Decoder (α : Type) := Document → Path → Nat → Except Fault (α × Nat)

/-- The item at `pos`; past the items, the fault that ended the document, or its end. -/
def Document.item (d : Document) (pos : Nat) : Except Fault (Item × Mark) :=
  match d.items[pos]? with
  | some e => .ok e
  | none => .error (d.fault.getD .endOfStream)

/-- Reads through an alias: the anchored node is read where it stands, and reading goes on after
the alias. -/
def followed {α : Type} (dec : Decoder α) : Decoder α := fun d path pos =>
  match d.items[pos]? with
  | some (.alias id, _) =>
    match d.targets.lookup id with
    | some target => (dec d (.alias path) target).map fun (a, _) => (a, pos + 1)
    | none => dec d path pos
  | _ => dec d path pos

def mismatch (item : Item) (expecting : String) : Fault :=
  match item with
  | .scalar tag text style => .message (scalarMismatch tag text style expecting) none
  | .sequenceStart _ => .message ("invalid type: sequence, expected " ++ expecting) none
  | .mappingStart _ => .message ("invalid type: map, expected " ++ expecting) none
  | _ => .endOfStream

def visitItem {α : Type} (visit : Item → Except Fault α) : Decoder α :=
  followed fun d path pos => do
    let (item, mark) ← d.item pos
    match visit item with
    | .ok a => pure (a, pos + 1)
    | .error f => throw (f.fix mark path)

/-- Text from any scalar, handed to `visit`; `expecting` describes what else is refused. -/
def text {α : Type} (expecting : String) (visit : String → Except Fault α) : Decoder α :=
  visitItem fun item =>
    match item with
    | .scalar _ s _ => visit s
    | other => .error (mismatch other expecting)

def string : Decoder String := text "a string" .ok

def parsedText {α : Type} (expecting : String) (parse : String → Except String α) : Decoder α :=
  text expecting fun s => (parse s).mapError fun msg => .message msg none

/-- A boolean: a plain scalar, or a literal one tagged `!!bool`, spelling one. -/
def boolean : Decoder Bool :=
  visitItem fun item =>
    match item with
    | .scalar tag s style =>
      let readable := style == .plain || (style == .literal && tag == some (coreTag "bool"))
      match (if readable then boolOf? s else none) with
      | some b => .ok b
      | none => .error (mismatch item "a boolean")
    | other => .error (mismatch other "a boolean")

/-- Steps over one node, nested collections and all; aliases are not followed. -/
def skipNode : Nat → Document → Nat → Nat → Except Fault Nat
  | 0, _, pos, _ => .ok pos
  | n + 1, d, pos, depth => do
    let (item, _) ← d.item pos
    let depth := match item with
      | .sequenceStart _ | .mappingStart _ => depth + 1
      | .sequenceEnd | .mappingEnd => depth - 1
      | _ => depth
    if depth == 0 then pure (pos + 1) else skipNode n d (pos + 1) depth

/-- A member of a record: its key, what it is when absent (if it may be), and how its value is
read into the record. -/
structure Member (α : Type) where
  name : String
  absent : Option (α → α)
  read : α → Decoder α

def Member.field {α β : Type} (name : String) (absent : Option (α → α)) (dec : Decoder β)
    (set : α → β → α) : Member α :=
  ⟨name, absent, fun a d path pos => (dec d path pos).map fun (b, pos) => (set a b, pos)⟩

/-- Reads the entries of a mapping into a record, up to the mapping's end: the record, the keys
met, and the position of the end. -/
def entries {α : Type} (members : List (Member α)) : Nat → Document → Path → Nat → α → List String →
    Except Fault (α × List String × Nat)
  | 0, _, _, pos, a, seen => .ok (a, seen, pos)
  | n + 1, d, path, pos, a, seen => do
    let (item, _) ← d.item pos
    match item with
    | .mappingEnd | .void => pure (a, seen, pos)
    | _ =>
      let valuePath := match item with
        | .scalar _ k _ => Path.member path k
        | _ => .unknown path
      let (name, pos) ← text "field identifier" .ok d path pos
      match members.find? (·.name == name) with
      | some m =>
        if seen.contains name then throw (.message ("duplicate field `" ++ name ++ "`") none)
        let (a, pos) ← m.read a d valuePath pos
        entries members n d path pos a (name :: seen)
      | none =>
        let pos ← skipNode (d.items.size + 1) d pos 0
        entries members n d path pos a seen

/-- Fills the members not met with their defaults; the first without one is missing. -/
def complete {α : Type} (members : List (Member α)) (a : α) (seen : List String) : Except Fault α :=
  members.foldlM (fun a m =>
    if seen.contains m.name then .ok a
    else match m.absent with
      | some fill => .ok (fill a)
      | none => .error (.message ("missing field `" ++ m.name ++ "`") none)) a

/-- A record read from a mapping, starting from `init`; `expecting` describes it in faults. -/
def record {α : Type} (expecting : String) (init : α) (members : List (Member α)) : Decoder α :=
  followed fun d path pos => do
    let (item, mark) ← d.item pos
    let read : Except Fault (α × Nat) :=
      match item with
      | .mappingStart _ => do
        let (a, seen, finish) ← entries members (d.items.size + 1) d path (pos + 1) init []
        let a ← complete members a seen
        pure (a, finish + 1)
      | .void | .scalar _ "" .plain => do
        let a ← complete members init []
        pure (a, pos + 1)
      | other => .error (mismatch other expecting)
    read.mapError (·.fix mark path)

/-- Decodes the one document of `text` with `dec`. A syntax fault after what `dec` read is
reported once it is done, and so is a second document. -/
def decodeText {α : Type} (text : String) (dec : Decoder α) : Except String α :=
  let (doc, rest) := firstDocument text
  match dec doc .root 0 with
  | .error f => .error f.text
  | .ok (a, _) =>
    match doc.fault with
    | some f => .error f.text
    | none => if moreDocuments rest then .error Fault.moreThanOneDocument.text else .ok a

end Yaml

end RunJournal
