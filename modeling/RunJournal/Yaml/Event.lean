import RunJournal.Yaml.Scan
/-!
# YAML events

The parser turns tokens into events: the stream and each document start and end, and in between
a tree of nodes written out flat, each collection as its start event, its items and its end event.
A node may carry an anchor and a tag; an alias stands for the node anchored before it.

The parser is a state machine with a stack of states to return to, following the grammar of YAML:
a document holds one block node; a block node is a block collection, a flow collection or a
scalar; a key or value left out is an empty plain scalar. A tag's handle is replaced by the text
its `%TAG` directive gives (`!` and `!!` have defaults), and a verbatim tag is kept as it is.
-/

namespace RunJournal

namespace Yaml

/-- What an event is. Tags are bytes. -/
inductive EventKind where
  | streamStart
  | streamEnd
  | documentStart
  | documentEnd
  | alias (name : String)
  | scalar (anchor : Option String) (tag : Option (List UInt8)) (text : String) (style : ScalarStyle)
  | sequenceStart (anchor : Option String) (tag : Option (List UInt8))
  | sequenceEnd
  | mappingStart (anchor : Option String) (tag : Option (List UInt8))
  | mappingEnd
  deriving DecidableEq, Repr, Inhabited

/-- An event and the place it starts at. -/
structure Event where
  kind : EventKind
  mark : Mark
  deriving Repr, Inhabited

/-- Where the parser stands. -/
inductive ParseState where
  | streamStart
  | implicitDocumentStart
  | documentStart
  | documentContent
  | documentEnd
  | blockNode
  | blockNodeOrIndentlessSequence
  | flowNode
  | blockSequenceFirstEntry
  | blockSequenceEntry
  | indentlessSequenceEntry
  | blockMappingFirstKey
  | blockMappingKey
  | blockMappingValue
  | flowSequenceFirstEntry
  | flowSequenceEntry
  | flowSequenceEntryMappingKey
  | flowSequenceEntryMappingValue
  | flowSequenceEntryMappingEnd
  | flowMappingFirstKey
  | flowMappingKey
  | flowMappingValue
  | flowMappingEmptyValue
  | finished
  deriving DecidableEq, Repr, Inhabited

/-- The parser's state: the scanner, the state, the states to return to, the start places of the
open collections, and the tag handles of the current document with their texts. -/
structure Parser where
  scanner : Scanner
  state : ParseState
  states : List ParseState
  marks : List Mark
  handles : List (String × List UInt8)
  deriving Inhabited

/-- An event, or the syntax fault that stopped the parser, with the parser after it. -/
abbrev Step := Except SyntaxFault (Event × Parser)

namespace Parser

def start (text : String) : Parser :=
  { scanner := Scanner.start text, state := .streamStart, states := [], marks := [], handles := [] }

def peek (p : Parser) : Except SyntaxFault (Token × Parser) := do
  let (t, s) ← p.scanner.peek
  pure (t, { p with scanner := s })

def skip (p : Parser) : Parser := { p with scanner := p.scanner.skipToken }

def goTo (p : Parser) (state : ParseState) : Parser := { p with state }

def pop (p : Parser) : Parser :=
  { p with state := p.states.headD .finished, states := p.states.drop 1 }

def push (p : Parser) (state : ParseState) : Parser := { p with states := state :: p.states }

def popMark (p : Parser) : Mark × Parser := (p.marks.headD default, { p with marks := p.marks.drop 1 })

def emptyScalar (mark : Mark) : Event := ⟨.scalar none none "" .plain, mark⟩

def faultIn {α : Type} (context : String) (contextMark : Mark) (problem : String) (mark : Mark) :
    Except SyntaxFault α :=
  .error (faultWhile context contextMark problem mark)

def fault {α : Type} (problem : String) (mark : Mark) : Except SyntaxFault α :=
  .error ⟨problem, mark, 0, none⟩

/-- Adds a tag handle; a handle given twice by directives is a fault, and a default is not added
over a handle a directive gave. -/
def addHandle (p : Parser) (handle : String) (uri : List UInt8) (defaulted : Bool) (mark : Mark) :
    Except SyntaxFault Parser :=
  if p.handles.any (·.1 == handle) then
    if defaulted then .ok p else fault "found duplicate %TAG directive" mark
  else .ok { p with handles := p.handles ++ [(handle, uri)] }

def directives : Nat → Parser → Bool → Except SyntaxFault Parser
  | 0, p, _ => .ok p
  | n + 1, p, versioned => do
    let (t, p) ← p.peek
    match t.kind with
    | .versionDirective major minor =>
      if versioned then fault "found duplicate %YAML directive" t.start
      else if major != 1 || (minor != 1 && minor != 2) then fault "found incompatible YAML document" t.start
      else directives n p.skip true
    | .tagDirective handle uri => do
      let p ← p.addHandle handle uri false t.start
      directives n p.skip versioned
    | _ => do
      let p ← p.addHandle "!" (bytesOf "!") true t.start
      p.addHandle "!!" (bytesOf "tag:yaml.org,2002:") true t.start

def skipDocumentEnds : Nat → Parser → Except SyntaxFault (Token × Parser)
  | 0, p => p.peek
  | n + 1, p => do
    let (t, p) ← p.peek
    if t.kind == .documentEnd then skipDocumentEnds n p.skip else pure (t, p)

/-- The start of a document (`implicit` for the first, which needs no `---`), or the end of the
stream. -/
def documentStart (p : Parser) (implicit : Bool) : Step := do
  let (t, p) ← if implicit then p.peek else skipDocumentEnds (p.scanner.cur.left + 8) p
  let bare := match t.kind with
    | .versionDirective .. | .tagDirective .. | .documentStart | .streamEnd => false
    | _ => true
  if implicit && bare then
    let p ← directives 1 p false
    pure (⟨.documentStart, t.start⟩, (p.push .documentEnd).goTo .blockNode)
  else if t.kind != .streamEnd then
    let p ← directives (p.scanner.cur.left + 8) p false
    let (t', p) ← p.peek
    if t'.kind != .documentStart then fault "did not find expected <document start>" t'.start
    else pure (⟨.documentStart, t.start⟩, ((p.push .documentEnd).goTo .documentContent).skip)
  else pure (⟨.streamEnd, t.start⟩, (p.goTo .finished).skip)

/-- The content of an explicit document: empty if a marker or the end follows. -/
def documentContent (p : Parser) (node : Parser → Step) : Step := do
  let (t, p) ← p.peek
  match t.kind with
  | .versionDirective .. | .tagDirective .. | .documentStart | .documentEnd | .streamEnd =>
    pure (emptyScalar t.start, p.pop)
  | _ => node p

/-- The end of a document, with or without `...`; its tag handles are forgotten. -/
def documentEnd (p : Parser) : Step := do
  let (t, p) ← p.peek
  let p := if t.kind == .documentEnd then p.skip else p
  pure (⟨.documentEnd, t.start⟩, { p with handles := [] }.goTo .documentStart)

def resolveTag (p : Parser) (handle : String) (suffix : List UInt8) (start tagMark : Mark) :
    Except SyntaxFault (List UInt8) :=
  if handle.isEmpty then .ok suffix
  else match p.handles.find? (·.1 == handle) with
    | some (_, uri) => .ok (uri ++ suffix)
    | none => faultIn "while parsing a node" start "found undefined tag handle" tagMark

/-- The anchor and tag before a node, in either order: the anchor, the tag's handle, suffix and
place, the place the node starts at, and the token after them. -/
def properties (p : Parser) :
    Except SyntaxFault (Option String × Option (String × List UInt8 × Mark) × Mark × Token × Parser) := do
  let (t, p) ← p.peek
  match t.kind with
  | .anchor name =>
    let (t2, p) ← p.skip.peek
    match t2.kind with
    | .tag h s =>
      let (t3, p) ← p.skip.peek
      pure (some name, some (h, s, t2.start), t.start, t3, p)
    | _ => pure (some name, none, t.start, t2, p)
  | .tag h s =>
    let (t2, p) ← p.skip.peek
    match t2.kind with
    | .anchor name =>
      let (t3, p) ← p.skip.peek
      pure (some name, some (h, s, t.start), t.start, t3, p)
    | _ => pure (none, some (h, s, t.start), t.start, t2, p)
  | _ => pure (none, none, t.start, t, p)

/-- A node: an alias, or a scalar or collection with its anchor and tag. `block` allows block
collections, `indentless` a block sequence at the indentation of its mapping's keys. A node with an
anchor or tag and nothing else is an empty plain scalar. -/
def node (p : Parser) (block indentless : Bool) : Step := do
  let (t, p) ← p.peek
  if let .alias name := t.kind then
    return (⟨.alias name, t.start⟩, p.pop.skip)
  let (anchor, tagged, start, t, p) ← p.properties
  let tag ← match tagged with
    | none => pure none
    | some (h, s, tagMark) => (p.resolveTag h s start tagMark).map some
  if indentless && t.kind == .blockEntry then
    return (⟨.sequenceStart anchor tag, start⟩, p.goTo .indentlessSequenceEntry)
  match t.kind with
  | .scalar text style => pure (⟨.scalar anchor tag text style, start⟩, p.pop.skip)
  | .flowSequenceStart => pure (⟨.sequenceStart anchor tag, start⟩, p.goTo .flowSequenceFirstEntry)
  | .flowMappingStart => pure (⟨.mappingStart anchor tag, start⟩, p.goTo .flowMappingFirstKey)
  | .blockSequenceStart =>
    if block then pure (⟨.sequenceStart anchor tag, start⟩, p.goTo .blockSequenceFirstEntry)
    else bare anchor tag start t p
  | .blockMappingStart =>
    if block then pure (⟨.mappingStart anchor tag, start⟩, p.goTo .blockMappingFirstKey)
    else bare anchor tag start t p
  | _ => bare anchor tag start t p
where
  bare (anchor : Option String) (tag : Option (List UInt8)) (start : Mark) (t : Token) (p : Parser) :
      Step :=
    if anchor.isSome || tag.isSome then .ok (⟨.scalar anchor tag "" .plain, start⟩, p.pop)
    else faultIn (if block then "while parsing a block node" else "while parsing a flow node") start
      "did not find expected node content" t.start

/-- Notes the start of a collection whose first token is next, and steps over that token. -/
def openCollection (p : Parser) : Except SyntaxFault Parser := do
  let (t, p) ← p.peek
  pure { p with marks := t.start :: p.marks }.skip

def blockSequenceEntry (p : Parser) (first : Bool) : Step := do
  let p ← if first then p.openCollection else pure p
  let (t, p) ← p.peek
  match t.kind with
  | .blockEntry =>
    let (t2, p) ← p.skip.peek
    if t2.kind != .blockEntry && t2.kind != .blockEnd then (p.push .blockSequenceEntry).node true false
    else pure (emptyScalar t.stop, p.goTo .blockSequenceEntry)
  | .blockEnd => pure (⟨.sequenceEnd, t.start⟩, { p.pop with marks := p.marks.drop 1 }.skip)
  | _ =>
    let (m, _) := p.popMark
    faultIn "while parsing a block collection" m "did not find expected '-' indicator" t.start

def indentlessSequenceEntry (p : Parser) : Step := do
  let (t, p) ← p.peek
  match t.kind with
  | .blockEntry =>
    let (t2, p) ← p.skip.peek
    match t2.kind with
    | .blockEntry | .key | .value | .blockEnd => pure (emptyScalar t.stop, p.goTo .indentlessSequenceEntry)
    | _ => (p.push .indentlessSequenceEntry).node true false
  | _ => pure (⟨.sequenceEnd, t.start⟩, p.pop)

def blockMappingKey (p : Parser) (first : Bool) : Step := do
  let p ← if first then p.openCollection else pure p
  let (t, p) ← p.peek
  match t.kind with
  | .key =>
    let (t2, p) ← p.skip.peek
    match t2.kind with
    | .key | .value | .blockEnd => pure (emptyScalar t.stop, p.goTo .blockMappingValue)
    | _ => (p.push .blockMappingValue).node true true
  | .blockEnd => pure (⟨.mappingEnd, t.start⟩, { p.pop with marks := p.marks.drop 1 }.skip)
  | _ =>
    let (m, _) := p.popMark
    faultIn "while parsing a block mapping" m "did not find expected key" t.start

def blockMappingValue (p : Parser) : Step := do
  let (t, p) ← p.peek
  match t.kind with
  | .value =>
    let (t2, p) ← p.skip.peek
    match t2.kind with
    | .key | .value | .blockEnd => pure (emptyScalar t.stop, p.goTo .blockMappingKey)
    | _ => (p.push .blockMappingKey).node true true
  | _ => pure (emptyScalar t.start, p.goTo .blockMappingKey)

/-- An entry of a flow sequence, or its end; after the first, entries are separated by commas.
An entry `key: value` is a mapping of one pair. -/
def flowSequenceEntry (p : Parser) (first : Bool) : Step := do
  let p ← if first then p.openCollection else pure p
  let (t, p) ← p.peek
  if t.kind == .flowSequenceEnd then
    return (⟨.sequenceEnd, t.start⟩, { p.pop with marks := p.marks.drop 1 }.skip)
  let (t, p) ←
    if first then pure (t, p)
    else if t.kind == .flowEntry then p.skip.peek
    else
      let (m, _) := p.popMark
      faultIn "while parsing a flow sequence" m "did not find expected ',' or ']'" t.start
  match t.kind with
  | .key => pure (⟨.mappingStart none none, t.start⟩, (p.goTo .flowSequenceEntryMappingKey).skip)
  | .flowSequenceEnd => pure (⟨.sequenceEnd, t.start⟩, { p.pop with marks := p.marks.drop 1 }.skip)
  | _ => (p.push .flowSequenceEntry).node false false

def flowSequenceEntryMappingKey (p : Parser) : Step := do
  let (t, p) ← p.peek
  match t.kind with
  | .value | .flowEntry | .flowSequenceEnd => pure (emptyScalar t.start, p.goTo .flowSequenceEntryMappingValue)
  | _ => (p.push .flowSequenceEntryMappingValue).node false false

def flowSequenceEntryMappingValue (p : Parser) : Step := do
  let (t, p) ← p.peek
  if t.kind == .value then
    let (t2, p) ← p.skip.peek
    if t2.kind != .flowEntry && t2.kind != .flowSequenceEnd then
      (p.push .flowSequenceEntryMappingEnd).node false false
    else pure (emptyScalar t2.start, p.goTo .flowSequenceEntryMappingEnd)
  else pure (emptyScalar t.start, p.goTo .flowSequenceEntryMappingEnd)

def flowSequenceEntryMappingEnd (p : Parser) : Step := do
  let (t, p) ← p.peek
  pure (⟨.mappingEnd, t.start⟩, p.goTo .flowSequenceEntry)

/-- A key of a flow mapping, or its end; after the first, entries are separated by commas. -/
def flowMappingKey (p : Parser) (first : Bool) : Step := do
  let p ← if first then p.openCollection else pure p
  let (t, p) ← p.peek
  if t.kind == .flowMappingEnd then
    return (⟨.mappingEnd, t.start⟩, { p.pop with marks := p.marks.drop 1 }.skip)
  let (t, p) ←
    if first then pure (t, p)
    else if t.kind == .flowEntry then p.skip.peek
    else
      let (m, _) := p.popMark
      faultIn "while parsing a flow mapping" m "did not find expected ',' or '\x7d'" t.start
  match t.kind with
  | .key =>
    let (t2, p) ← p.skip.peek
    match t2.kind with
    | .value | .flowEntry | .flowMappingEnd => pure (emptyScalar t2.start, p.goTo .flowMappingValue)
    | _ => (p.push .flowMappingValue).node false false
  | .flowMappingEnd => pure (⟨.mappingEnd, t.start⟩, { p.pop with marks := p.marks.drop 1 }.skip)
  | _ => (p.push .flowMappingEmptyValue).node false false

def flowMappingValue (p : Parser) (empty : Bool) : Step := do
  let (t, p) ← p.peek
  if empty then return (emptyScalar t.start, p.goTo .flowMappingKey)
  if t.kind == .value then
    let (t2, p) ← p.skip.peek
    if t2.kind != .flowEntry && t2.kind != .flowMappingEnd then (p.push .flowMappingKey).node false false
    else pure (emptyScalar t2.start, p.goTo .flowMappingKey)
  else pure (emptyScalar t.start, p.goTo .flowMappingKey)

def next (p : Parser) : Step :=
  match p.state with
  | .streamStart => do
    let (t, p) ← p.peek
    if t.kind != .streamStart then fault "did not find expected <stream-start>" t.start
    else pure (⟨.streamStart, t.start⟩, (p.goTo .implicitDocumentStart).skip)
  | .implicitDocumentStart => p.documentStart true
  | .documentStart => p.documentStart false
  | .documentContent => p.documentContent fun p => p.node true false
  | .documentEnd => p.documentEnd
  | .blockNode => p.node true false
  | .blockNodeOrIndentlessSequence => p.node true true
  | .flowNode => p.node false false
  | .blockSequenceFirstEntry => p.blockSequenceEntry true
  | .blockSequenceEntry => p.blockSequenceEntry false
  | .indentlessSequenceEntry => p.indentlessSequenceEntry
  | .blockMappingFirstKey => p.blockMappingKey true
  | .blockMappingKey => p.blockMappingKey false
  | .blockMappingValue => p.blockMappingValue
  | .flowSequenceFirstEntry => p.flowSequenceEntry true
  | .flowSequenceEntry => p.flowSequenceEntry false
  | .flowSequenceEntryMappingKey => p.flowSequenceEntryMappingKey
  | .flowSequenceEntryMappingValue => p.flowSequenceEntryMappingValue
  | .flowSequenceEntryMappingEnd => p.flowSequenceEntryMappingEnd
  | .flowMappingFirstKey => p.flowMappingKey true
  | .flowMappingKey => p.flowMappingKey false
  | .flowMappingValue => p.flowMappingValue false
  | .flowMappingEmptyValue => p.flowMappingValue true
  | .finished => do
    let (t, p) ← p.peek
    pure (⟨.streamEnd, t.start⟩, p)

end Parser

end Yaml

end RunJournal
