import RunJournal.Yaml.Scalar
/-!
# The YAML scanner

The scanner hands out tokens one at a time, reading ahead only as far as it must. Two things need
that look-ahead.

*Block collections.* Their starts and ends are not written; the scanner keeps a stack of
indentation columns, opens a block sequence or mapping when a `-`, `?` or key starts further right
than the current column, and closes blocks when a line starts further left.

*Simple keys.* A key written without `?` (`name: value`) is only known to be a key when its `:`
comes. So wherever a simple key could start, the scanner notes the number of the token that would
be the key, one note per flow level; when `:` arrives it inserts the `KEY` token (and the block
mapping start, if one is due) at that number. A token that might still turn out to be a key is not
handed out before that is settled. A note goes stale when its line ends or after 1024 characters;
a stale note that had to be a key (a block key at the current indentation) is a fault.

A text that holds a character YAML does not allow is refused before any token is read.
-/

namespace RunJournal

namespace Yaml

/-- A place where a simple key may start: whether it still may, whether it must (a block key at
the indentation), the number of its first token, and its place. -/
structure SimpleKey where
  possible : Bool
  required : Bool
  tokenNumber : Nat
  mark : Mark
  deriving Inhabited

def SimpleKey.none : SimpleKey := ⟨false, false, 0, ⟨0, 0, 0⟩⟩

/-- The scanner's state. -/
structure Scanner where
  cur : Cursor
  /-- The fault for a character the text may not hold, if it has one. -/
  refused : Option SyntaxFault
  started : Bool
  /-- The stream end token has been handed out. -/
  ended : Bool
  flowLevel : Nat
  /-- Tokens scanned and not yet handed out, the next first. -/
  queue : List Token
  /-- Tokens handed out so far. -/
  handed : Nat
  /-- The next token is settled and may be handed out. -/
  ready : Bool
  indent : Int
  indents : List Int
  /-- A simple key may start at the current place. -/
  keyAllowed : Bool
  /-- One simple key note per flow level, the innermost first. -/
  keys : List SimpleKey
  deriving Inhabited

namespace Scanner

def start (text : String) : Scanner :=
  { cur := Cursor.start text, refused := refusedCharacter text, started := false, ended := false,
    flowLevel := 0, queue := [], handed := 0, ready := false, indent := -1, indents := [],
    keyAllowed := false, keys := [] }

def inFlow (s : Scanner) : Bool := s.flowLevel != 0

def enqueue (s : Scanner) (kind : TokenKind) (start stop : Mark) : Scanner :=
  { s with queue := s.queue ++ [⟨kind, start, stop⟩] }

def keyFault (s : Scanner) (k : SimpleKey) : SyntaxFault :=
  faultWhile "while scanning a simple key" k.mark "could not find expected ':'" s.cur.mark

/-- Drops the notes that went stale: their line has ended, or they lie more than 1024 characters
back. The outermost note is looked at first. -/
def staleKeys (s : Scanner) : Except SyntaxFault Scanner := do
  let m := s.cur.mark
  let keys ← s.keys.reverse.mapM fun k =>
    if k.possible && (k.mark.line < m.line || k.mark.index + 1024 < m.index) then
      if k.required then throw (s.keyFault k) else pure { k with possible := false }
    else pure k
  pure { s with keys := keys.reverse }

/-- Forgets the note of the current level; a note that had to be a key is a fault. -/
def removeKey (s : Scanner) : Except SyntaxFault Scanner :=
  match s.keys with
  | k :: rest =>
    if k.possible && k.required then .error (s.keyFault k)
    else .ok { s with keys := { k with possible := false } :: rest }
  | [] => .ok s

def saveKey (s : Scanner) : Except SyntaxFault Scanner :=
  if s.keyAllowed then
    let k : SimpleKey :=
      { possible := true, required := !s.inFlow && s.indent == s.cur.mark.column,
        tokenNumber := s.handed + s.queue.length, mark := s.cur.mark }
    match s.removeKey with
    | .error f => .error f
    | .ok s => .ok { s with keys := k :: s.keys.drop 1 }
  else .ok s

def increaseFlow (s : Scanner) : Scanner :=
  { s with keys := SimpleKey.none :: s.keys, flowLevel := s.flowLevel + 1 }

def decreaseFlow (s : Scanner) : Scanner :=
  if s.inFlow then { s with flowLevel := s.flowLevel - 1, keys := s.keys.drop 1 } else s

/-- Opens a block at `column` if it lies right of the current indentation, with a start token
at the end of the queue or, for a simple key, at its token number. -/
def rollIndent (s : Scanner) (column : Int) (number : Option Nat) (kind : TokenKind) (mark : Mark) :
    Scanner :=
  if s.inFlow || column ≤ s.indent then s
  else
    let s := { s with indents := s.indent :: s.indents, indent := column }
    let token : Token := ⟨kind, mark, mark⟩
    match number with
    | none => { s with queue := s.queue ++ [token] }
    | some n =>
      let at_ := n - s.handed
      { s with queue := s.queue.take at_ ++ token :: s.queue.drop at_ }

def unrollIndent (s : Scanner) (column : Int) : Scanner :=
  if s.inFlow then s
  else
    let rec go : List Int → Scanner → Scanner
      | i :: rest, s =>
        if s.indent > column then
          go rest { s.enqueue .blockEnd s.cur.mark s.cur.mark with indent := i, indents := rest }
        else s
      | [], s => s
    go s.indents s

/-- Steps over blanks, comments and line breaks up to the next token. Tabs count as blanks only
inside flow collections or where no simple key may start; a line break outside flow collections
allows a simple key. -/
def toNextToken : Nat → Scanner → Scanner
  | 0, s => s
  | n + 1, s =>
    let c := s.cur
    let c := if c.mark.column == 0 && c.is byteOrderMark then c.skip else c
    let tabs := s.inFlow || !s.keyAllowed
    let rec blanks : Nat → Cursor → Cursor
      | 0, c => c
      | k + 1, c => if c.is ' ' || (tabs && c.is '\t') then blanks k c.skip else c
    let c := blanks c.fuel c
    let c := if c.is '#' then c.skipToBreak c.fuel else c
    if c.onBreak then
      toNextToken n { s with cur := c.skipLine, keyAllowed := if s.inFlow then s.keyAllowed else true }
    else { s with cur := c }

/-! ## Fetching tokens -/

/-- Adds a token the scanner of `scan` reads at the cursor, with the cursor after it. -/
def scanWith (s : Scanner) (scan : Cursor → Except SyntaxFault (Token × Cursor)) :
    Except SyntaxFault Scanner :=
  match scan s.cur with
  | .error f => .error f
  | .ok (t, c) => .ok { s with cur := c, queue := s.queue ++ [t] }

def indicator (s : Scanner) (kind : TokenKind) : Scanner :=
  let c := s.cur.skip
  { s.enqueue kind s.cur.mark c.mark with cur := c }

def fetchStreamEnd (s : Scanner) : Except SyntaxFault Scanner := do
  let m := s.cur.mark
  let s := if m.column != 0 then { s with cur := { s.cur with mark := ⟨m.index, m.line + 1, 0⟩ } } else s
  let s ← (s.unrollIndent (-1)).removeKey
  let s := { s with keyAllowed := false }
  pure (s.enqueue .streamEnd s.cur.mark s.cur.mark)

/-- A directive, or a document marker (`---` or `...`): every block is closed first. -/
def fetchAtLineStart (s : Scanner) (scan : Cursor → Except SyntaxFault (Token × Cursor)) :
    Except SyntaxFault Scanner := do
  let s ← (s.unrollIndent (-1)).removeKey
  { s with keyAllowed := false }.scanWith scan

def fetchFlowStart (s : Scanner) (kind : TokenKind) : Except SyntaxFault Scanner := do
  let s ← s.saveKey
  pure ({ s.increaseFlow with keyAllowed := true }.indicator kind)

def fetchFlowEnd (s : Scanner) (kind : TokenKind) : Except SyntaxFault Scanner := do
  let s ← s.removeKey
  pure ({ s.decreaseFlow with keyAllowed := false }.indicator kind)

def fetchFlowEntry (s : Scanner) : Except SyntaxFault Scanner := do
  let s ← s.removeKey
  pure ({ s with keyAllowed := true }.indicator .flowEntry)

/-- `-` before a block sequence entry; it opens a block sequence if one is due. -/
def fetchBlockEntry (s : Scanner) : Except SyntaxFault Scanner := do
  let s ←
    if s.inFlow then pure s
    else if !s.keyAllowed then
      throw ⟨"block sequence entries are not allowed in this context", s.cur.mark, 0, none⟩
    else pure (s.rollIndent s.cur.mark.column none .blockSequenceStart s.cur.mark)
  let s ← s.removeKey
  pure ({ s with keyAllowed := true }.indicator .blockEntry)

/-- `?` before a key; outside flow collections it opens a block mapping if one is due. -/
def fetchKey (s : Scanner) : Except SyntaxFault Scanner := do
  let s ←
    if s.inFlow then pure s
    else if !s.keyAllowed then
      throw ⟨"mapping keys are not allowed in this context", s.cur.mark, 0, none⟩
    else pure (s.rollIndent s.cur.mark.column none .blockMappingStart s.cur.mark)
  let s ← s.removeKey
  pure ({ s with keyAllowed := !s.inFlow }.indicator .key)

/-- `:` before a value. After a noted simple key the `KEY` token goes in where the key started
(with a block mapping start before it if one is due); otherwise the key was written with `?`. -/
def fetchValue (s : Scanner) : Except SyntaxFault Scanner := do
  let s ← match s.keys with
    | k :: rest =>
      if k.possible then
        let at_ := k.tokenNumber - s.handed
        let keyToken : Token := ⟨.key, k.mark, k.mark⟩
        let s := { s with queue := s.queue.take at_ ++ keyToken :: s.queue.drop at_ }
        let s := s.rollIndent k.mark.column (some k.tokenNumber) .blockMappingStart k.mark
        pure { s with keys := { k with possible := false } :: rest, keyAllowed := false }
      else complexValue s
    | [] => complexValue s
  pure (s.indicator .value)
where
  complexValue (s : Scanner) : Except SyntaxFault Scanner := do
    let s ←
      if s.inFlow then pure s
      else if !s.keyAllowed then
        throw ⟨"mapping values are not allowed in this context", s.cur.mark, 0, none⟩
      else pure (s.rollIndent s.cur.mark.column none .blockMappingStart s.cur.mark)
    pure { s with keyAllowed := !s.inFlow }

/-- A token that may be a simple key and after which none may start: an anchor, alias, tag or
quoted scalar. -/
def fetchKeyLike (s : Scanner) (scan : Cursor → Except SyntaxFault (Token × Cursor)) :
    Except SyntaxFault Scanner := do
  let s ← s.saveKey
  { s with keyAllowed := false }.scanWith scan

def fetchBlockScalar (s : Scanner) (literal : Bool) : Except SyntaxFault Scanner := do
  let s ← s.removeKey
  let indent := s.indent
  { s with keyAllowed := true }.scanWith fun c => blockScalar c indent literal

/-- A plain scalar; a simple key may follow it if it ended after a line break. -/
def fetchPlain (s : Scanner) : Except SyntaxFault Scanner := do
  let s ← s.saveKey
  match plainScalar s.cur s.indent s.inFlow with
  | .error f => throw f
  | .ok (t, c, broken) => pure { s with cur := c, queue := s.queue ++ [t], keyAllowed := broken }

def startsPlain (ch : Char) (next : Option Char) (flow : Bool) : Bool :=
  !(isBlankZ (some ch) || "-?:,[]\x7b\x7d#&*!|>'\"%@`".toList.contains ch) ||
  (ch = '-' && !next.any isBlank) ||
  (!flow && (ch = '?' || ch = ':') && !isBlankZ next)

/-- Reads the next token (or tokens: block ends and starts come with it) into the queue. -/
def fetchNext (s : Scanner) : Except SyntaxFault Scanner := do
  if let some f := s.refused then throw f
  if !s.started then
    let s := { s with indent := -1, keys := SimpleKey.none :: s.keys, keyAllowed := true, started := true }
    return s.enqueue .streamStart s.cur.mark s.cur.mark
  let s := toNextToken s.cur.fuel s
  let s ← s.staleKeys
  let s := s.unrollIndent s.cur.mark.column
  let c := s.cur
  match c.peek with
  | none => s.fetchStreamEnd
  | some ch =>
    let next := c.ahead 1
    if c.mark.column == 0 && ch = '%' then s.fetchAtLineStart directiveToken
    else if c.mark.column == 0 && c.isAt 1 '-' && c.isAt 2 '-' && ch = '-' && isBlankZ (c.ahead 3) then
      s.fetchAtLineStart fun c => .ok (⟨.documentStart, c.mark, (c.skipN 3).mark⟩, c.skipN 3)
    else if c.mark.column == 0 && c.isAt 1 '.' && c.isAt 2 '.' && ch = '.' && isBlankZ (c.ahead 3) then
      s.fetchAtLineStart fun c => .ok (⟨.documentEnd, c.mark, (c.skipN 3).mark⟩, c.skipN 3)
    else if ch = '[' then s.fetchFlowStart .flowSequenceStart
    else if ch = '\x7b' then s.fetchFlowStart .flowMappingStart
    else if ch = ']' then s.fetchFlowEnd .flowSequenceEnd
    else if ch = '\x7d' then s.fetchFlowEnd .flowMappingEnd
    else if ch = ',' then s.fetchFlowEntry
    else if ch = '-' && isBlankZ next then s.fetchBlockEntry
    else if ch = '?' && (s.inFlow || isBlankZ next) then s.fetchKey
    else if ch = ':' && (s.inFlow || isBlankZ next) then s.fetchValue
    else if ch = '*' then s.fetchKeyLike fun c => anchorToken c false
    else if ch = '&' then s.fetchKeyLike fun c => anchorToken c true
    else if ch = '!' then s.fetchKeyLike fun c => tagToken c s.inFlow
    else if ch = '|' && !s.inFlow then s.fetchBlockScalar true
    else if ch = '>' && !s.inFlow then s.fetchBlockScalar false
    else if ch = '\'' then s.fetchKeyLike fun c => quotedScalar c true
    else if ch = '"' then s.fetchKeyLike fun c => quotedScalar c false
    else if startsPlain ch next s.inFlow then s.fetchPlain
    else
      throw (faultWhile "while scanning for the next token" c.mark
        "found character that cannot start any token" c.mark)

/-- Whether more tokens must be read before the next one is settled: the queue is empty, or a
simple key may still start at the next token. -/
def needsMore (s : Scanner) : Except SyntaxFault (Bool × Scanner) :=
  if s.queue.isEmpty then .ok (true, s)
  else
    match s.staleKeys with
    | .error f => .error f
    | .ok s => .ok (s.keys.any fun k => k.possible && k.tokenNumber == s.handed, s)

def fetchMore : Nat → Scanner → Except SyntaxFault Scanner
  | 0, s => .ok { s with ready := true }
  | n + 1, s =>
    match s.needsMore with
    | .error f => .error f
    | .ok (true, s) =>
      match s.fetchNext with
      | .error f => .error f
      | .ok s => fetchMore n s
    | .ok (false, s) => .ok { s with ready := true }

def peek (s : Scanner) : Except SyntaxFault (Token × Scanner) := do
  let s ← if s.ready then pure s else fetchMore (s.cur.left + 8) s
  match s.queue with
  | t :: _ => pure (t, s)
  | [] => pure (⟨.streamEnd, s.cur.mark, s.cur.mark⟩, s)

def skipToken (s : Scanner) : Scanner :=
  { s with ready := false, handed := s.handed + 1,
           ended := s.queue.head?.any (·.kind == .streamEnd), queue := s.queue.drop 1 }

end Scanner

end Yaml

end RunJournal
