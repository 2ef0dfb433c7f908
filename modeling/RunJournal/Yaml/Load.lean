import RunJournal.Yaml.Event
/-!
# Loading YAML documents

Loading reads the events of one document into a flat array of items. Anchors are numbered as they
come: a name gets the number of names seen so far, and the number points at the item the anchor
stands on. An alias becomes the number of its name; a name given again moves to a new number, and
that number may be the one a later new name also takes, which then points that number at the later
item. An alias whose name no anchor has given yet ends the document with a fault.

A syntax fault ends the document too: the items before it stay, and the fault is reported when
reading needs an item past them, or once reading is done. An empty text is one document holding a
void item. Only the first document is read; whether any more follows is told by the next event
after it.
-/

namespace RunJournal

namespace Yaml

/-- An item of a loaded document. -/
inductive Item where
  /-- The only item of an empty text. -/
  | void
  /-- An alias, by its anchor's number. -/
  | alias (id : Nat)
  | scalar (tag : Option (List UInt8)) (text : String) (style : ScalarStyle)
  | sequenceStart (tag : Option (List UInt8))
  | sequenceEnd
  | mappingStart (tag : Option (List UInt8))
  | mappingEnd
  deriving DecidableEq, Repr, Inhabited

/-- A fault met while reading YAML. -/
inductive Fault where
  /-- A message about a value, with the place of its node and the path to it once known. -/
  | message (text : String) (place : Option (Mark × String))
  | parse (fault : SyntaxFault)
  | unknownAnchor (mark : Mark)
  | endOfStream
  | moreThanOneDocument
  deriving Repr, Inhabited

def Mark.suffix (m : Mark) : String := if m.isStart then "" else " at " ++ m.text

/-- The fault's text. A message names its path (unless it is the root, `.`) and its place. -/
def Fault.text : Fault → String
  | .message t none => t
  | .message t (some (m, path)) => (if path == "." then "" else path ++ ": ") ++ t ++ m.suffix
  | .parse f => f.message
  | .unknownAnchor m => "unknown anchor" ++ m.suffix
  | .endOfStream => "EOF while parsing a value"
  | .moreThanOneDocument => "deserializing from YAML containing more than one document is not supported"

/-- A loaded document: its items with their places, the fault that ended it early if one did, and
for each anchor number the position of its item. -/
structure Document where
  items : Array (Item × Mark)
  fault : Option Fault
  targets : List (Nat × Nat)
  deriving Inhabited

def Document.empty : Document := ⟨#[], none, []⟩

/-- Sets the value of `key` in an association list, in place if it is there, else at the end. -/
def assign {α : Type} [BEq α] (entries : List (α × Nat)) (key : α) (value : Nat) : List (α × Nat) :=
  if entries.any (·.1 == key) then entries.map fun (k, v) => if k == key then (k, value) else (k, v)
  else entries ++ [(key, value)]

def Document.add (d : Document) (anchors : List (String × Nat)) (anchor : Option String) (item : Item)
    (mark : Mark) : List (String × Nat) × Document :=
  let d' := { d with items := d.items.push (item, mark) }
  match anchor with
  | none => (anchors, d')
  | some name =>
    let id := anchors.length
    (assign anchors name id, { d' with targets := assign d.targets id d.items.size })

/-- Reads events into `d` up to the end of the document. `first` tells whether this is the first
document, which an empty stream still gives. Gives the document, if there was one, and the parser
if the stream goes on. -/
def loadEvents (first : Bool) : Nat → Parser → List (String × Nat) → Document →
    Option Document × Option Parser
  | 0, p, _, d => (some d, some p)
  | n + 1, p, anchors, d =>
    match p.next with
    | .error f => (some { d with fault := some (.parse f) }, some p)
    | .ok (e, p) =>
      match e.kind with
      | .streamStart | .documentStart => loadEvents first n p anchors d
      | .streamEnd =>
        if first then
          (some (if d.items.isEmpty then { d with items := d.items.push (.void, e.mark) } else d), none)
        else (none, none)
      | .documentEnd => (some d, some p)
      | .alias name =>
        match anchors.lookup name with
        | some id => loadEvents first n p anchors { d with items := d.items.push (.alias id, e.mark) }
        | none => (some { d with fault := some (.unknownAnchor e.mark) }, some p)
      | .scalar anchor tag text style =>
        let (anchors, d) := d.add anchors anchor (.scalar tag text style) e.mark
        loadEvents first n p anchors d
      | .sequenceStart anchor tag =>
        let (anchors, d) := d.add anchors anchor (.sequenceStart tag) e.mark
        loadEvents first n p anchors d
      | .sequenceEnd => loadEvents first n p anchors { d with items := d.items.push (.sequenceEnd, e.mark) }
      | .mappingStart anchor tag =>
        let (anchors, d) := d.add anchors anchor (.mappingStart tag) e.mark
        loadEvents first n p anchors d
      | .mappingEnd => loadEvents first n p anchors { d with items := d.items.push (.mappingEnd, e.mark) }

/-- Enough steps to read every event of `text`: each character gives at most a few. -/
def eventBound (text : String) : Nat := 16 * (text.length + 8)

/-- The first document of `text`, and the parser after it if the stream goes on. -/
def firstDocument (text : String) : Document × Option Parser :=
  match loadEvents true (eventBound text) (Parser.start text) [] Document.empty with
  | (some d, rest) => (d, rest)
  | (none, rest) => (Document.empty, rest)

/-- Whether the stream holds another document after the first: its next event is not the
stream's end (a fault there counts as another document). -/
def moreDocuments : Option Parser → Bool
  | none => false
  | some p =>
    match p.next with
    | .ok (e, _) => e.kind != .streamEnd
    | .error _ => true

end Yaml

end RunJournal
