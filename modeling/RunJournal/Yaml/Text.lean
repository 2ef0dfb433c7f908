/-!
# Characters and places in a YAML text

A YAML text is read one character at a time through a cursor that knows its place: how many
characters it has passed, and the zero-based line and column. Every scanning step is a function
from a cursor to a cursor, so what is left of the text is always an explicit value.

Line breaks are the five YAML breaks (carriage return, line feed, next line, and the line and
paragraph separators); a carriage return followed by a line feed is one break. A break read into a
scalar becomes a line feed, except the two separators, which are kept as they are.

A syntax fault names its problem, its place, and what was being read when it arose. Messages leave
the very start of the text unnamed: a fault there has no ` at` part.
-/

namespace RunJournal

namespace Yaml

/-- A place in a text: the characters passed, and the zero-based line and column. -/
structure Mark where
  index : Nat
  line : Nat
  column : Nat
  deriving DecidableEq, Repr, Inhabited

def Mark.text (m : Mark) : String :=
  "line " ++ toString (m.line + 1) ++ " column " ++ toString (m.column + 1)

/-- The mark is on the first line at the first column, which messages do not name. -/
def Mark.isStart (m : Mark) : Bool := m.line == 0 && m.column == 0

def Mark.sameSpot (a b : Mark) : Bool := a.line == b.line && a.column == b.column

/-- A syntax fault: the problem and its place, the byte offset of a character the text may not
hold at all, and what was being read, with its place. -/
structure SyntaxFault where
  problem : String
  mark : Mark
  offset : Nat
  context : Option (String × Mark)
  deriving Repr, Inhabited

/-- The fault's message. The place is named unless it is the very start; a refused character is
named by its byte offset instead; the context's place is named unless it is the start or the
problem's own place. -/
def SyntaxFault.message (f : SyntaxFault) : String :=
  f.problem ++
  (if !f.mark.isStart then " at " ++ f.mark.text
   else if f.offset ≠ 0 then " at position " ++ toString f.offset else "") ++
  match f.context with
  | none => ""
  | some (c, m) => ", " ++ c ++ (if !m.isStart && !m.sameSpot f.mark then " at " ++ m.text else "")

/-- A fault at `mark` that arose while reading `context`, which started at `start`. -/
def faultWhile (context : String) (start : Mark) (problem : String) (mark : Mark) : SyntaxFault :=
  ⟨problem, mark, 0, some (context, start)⟩

/-! ## Kinds of characters -/

def isBreak (c : Char) : Bool :=
  c = '\r' || c = '\n' || c.toNat = 0x85 || c.toNat = 0x2028 || c.toNat = 0x2029

def isBlank (c : Char) : Bool := c = ' ' || c = '\t'

def isBlankZ : Option Char → Bool
  | none => true
  | some c => isBlank c || isBreak c

def isBreakZ : Option Char → Bool
  | none => true
  | some c => isBreak c

/-- A character of an anchor, a directive name or a tag handle: a letter, a digit, `_` or `-`. -/
def isWordChar (c : Char) : Bool :=
  ('0' ≤ c && c ≤ '9') || ('A' ≤ c && c ≤ 'Z') || ('a' ≤ c && c ≤ 'z') || c = '_' || c = '-'

def hexValue (c : Char) : Option Nat :=
  if '0' ≤ c ∧ c ≤ '9' then some (c.toNat - '0'.toNat)
  else if 'a' ≤ c ∧ c ≤ 'f' then some (c.toNat - 'a'.toNat + 10)
  else if 'A' ≤ c ∧ c ≤ 'F' then some (c.toNat - 'A'.toNat + 10)
  else none

def hexDigits (cs : List Char) : Option Nat :=
  cs.foldl (fun acc c => acc.bind fun a => (hexValue c).map fun v => a * 16 + v) (some 0)

/-- The characters a text may hold: tab, the breaks, and the printable characters. -/
def isAllowed (c : Char) : Bool :=
  let n := c.toNat
  n = 0x09 || n = 0x0A || n = 0x0D || (0x20 ≤ n && n ≤ 0x7E) || n = 0x85 ||
    (0xA0 ≤ n && n ≤ 0xD7FF) || (0xE000 ≤ n && n ≤ 0xFFFD) || 0x10000 ≤ n

def byteOrderMark : Char := Char.ofNat 0xFEFF

/-- The fault for the first character the text may not hold, named by its byte offset (counting
a leading byte order mark). -/
def refusedCharacter (text : String) : Option SyntaxFault :=
  let rec go : List Char → Nat → Option SyntaxFault
    | [], _ => none
    | c :: rest, offset =>
      if isAllowed c then go rest (offset + c.utf8Size)
      else some ⟨"control characters are not allowed", ⟨0, 0, 0⟩, offset, none⟩
  go text.toList 0

/-! ## The cursor -/

/-- A place in the characters of a text. -/
structure Cursor where
  chars : Array Char
  pos : Nat
  mark : Mark
  deriving Inhabited

namespace Cursor

/-- A cursor at the start of `text`; a leading byte order mark is not part of the text. -/
def start (text : String) : Cursor :=
  let cs := text.toList
  let cs := if cs.head? = some byteOrderMark then cs.tail else cs
  { chars := cs.toArray, pos := 0, mark := ⟨0, 0, 0⟩ }

def left (c : Cursor) : Nat := c.chars.size - c.pos

/-- Enough steps for a loop that reads one character a step: one more than the characters left. -/
def fuel (c : Cursor) : Nat := c.left + 1

def ahead (c : Cursor) (k : Nat) : Option Char := c.chars[c.pos + k]?

def peek (c : Cursor) : Option Char := c.ahead 0

def is (c : Cursor) (ch : Char) : Bool := c.peek == some ch

def isAt (c : Cursor) (k : Nat) (ch : Char) : Bool := c.ahead k == some ch

def atEnd (c : Cursor) : Bool := c.peek.isNone

def onBlank (c : Cursor) : Bool := c.peek.any isBlank

def onBreak (c : Cursor) : Bool := c.peek.any isBreak

def skip (c : Cursor) : Cursor :=
  { c with pos := c.pos + 1,
           mark := { c.mark with index := c.mark.index + 1, column := c.mark.column + 1 } }

def skipN (c : Cursor) : Nat → Cursor
  | 0 => c
  | n + 1 => c.skip.skipN n

/-- Steps over a line break (a carriage return and line feed together), if there is one. -/
def skipLine (c : Cursor) : Cursor :=
  if c.is '\r' && c.isAt 1 '\n' then
    { c with pos := c.pos + 2, mark := ⟨c.mark.index + 2, c.mark.line + 1, 0⟩ }
  else if c.onBreak then
    { c with pos := c.pos + 1, mark := ⟨c.mark.index + 1, c.mark.line + 1, 0⟩ }
  else c

def read (c : Cursor) (s : String) : Cursor × String :=
  match c.peek with
  | some ch => (c.skip, s.push ch)
  | none => (c, s)

/-- Reads a line break into `s`: a line feed for the carriage return, line feed and next line
breaks, the separators as they are. Nothing is read off a break. -/
def readLine (c : Cursor) (s : String) : Cursor × String :=
  if c.is '\r' && c.isAt 1 '\n' then (c.skipLine, s.push '\n')
  else match c.peek with
    | some ch =>
      if ch = '\r' || ch = '\n' || ch.toNat = 0x85 then (c.skipLine, s.push '\n')
      else if isBreak ch then (c.skipLine, s.push ch)
      else (c, s)
    | none => (c, s)

def skipBlanks : Nat → Cursor → Cursor
  | 0, c => c
  | n + 1, c => if c.onBlank then skipBlanks n c.skip else c

def skipToBreak : Nat → Cursor → Cursor
  | 0, c => c
  | n + 1, c => if isBreakZ c.peek then c else skipToBreak n c.skip

def readWord : Nat → Cursor → String → Cursor × String
  | 0, c, s => (c, s)
  | n + 1, c, s =>
    if c.peek.any isWordChar then
      let (c, s) := c.read s
      readWord n c s
    else (c, s)

/-- A document marker, `---` or `...`, followed by a blank or the end, starts here (at the
start of a line). -/
def atDocumentMarker (c : Cursor) : Bool :=
  c.mark.column == 0 &&
  ((c.isAt 0 '-' && c.isAt 1 '-' && c.isAt 2 '-') || (c.isAt 0 '.' && c.isAt 1 '.' && c.isAt 2 '.')) &&
  isBlankZ (c.ahead 3)

end Cursor

end Yaml

end RunJournal
