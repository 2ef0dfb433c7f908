import RunJournal.Yaml.Resolve
/-!
# Writing YAML documents

Writes block mappings of text, booleans and nested mappings, choosing for each text the plainest
style that reads back as the same text: plain when nothing in it has a meaning of its own, single
quotes when it would otherwise read as another kind of value or holds an indicator, double quotes
with escapes when it holds characters that cannot be written as they are, and a literal block when
it spans lines.
-/

namespace RunJournal

namespace Yaml

/-- A value to write. -/
inductive Value where
  | text (s : String)
  | bool (b : Bool)
  | map (entries : List (String × Value))
  deriving Repr, Inhabited

def isPrintable (c : Char) : Bool :=
  let n := c.toNat
  n = 0x0A || (0x20 ≤ n && n ≤ 0x7E) || (0xA0 ≤ n && n ≤ 0xD7FF) ||
    (0xE000 ≤ n && n ≤ 0xFFFD && n ≠ 0xFEFF)

def blankOrEnd : Option Char → Bool
  | none => true
  | some c => c = ' ' || c = '\t' || isBreak c

/-- What a text allows, as found by one pass over it. -/
structure Allowed where
  flowPlain : Bool
  blockPlain : Bool
  singleQuoted : Bool
  block : Bool
  multiline : Bool
  deriving Repr

/-- The facts one pass gathers. -/
structure Scan where
  flowIndicators : Bool := false
  blockIndicators : Bool := false
  leadingSpace : Bool := false
  leadingBreak : Bool := false
  trailingSpace : Bool := false
  trailingBreak : Bool := false
  breakSpace : Bool := false
  spaceBreak : Bool := false
  previousSpace : Bool := false
  previousBreak : Bool := false
  lineBreaks : Bool := false
  special : Bool := false

/-- Scans the characters of a text; `first` marks the first, `preceded` whether a blank came
before. -/
def scanChars : List Char → Bool → Bool → Scan → Scan
  | [], _, _, s => s
  | c :: rest, first, preceded, s =>
    let followed := blankOrEnd rest.head?
    let last := rest.isEmpty
    let s :=
      if first then
        let s := if "#,[]\x7b\x7d&*!|>'\"%@`".toList.contains c then
          { s with flowIndicators := true, blockIndicators := true } else s
        let s := if c = '?' || c = ':' then
          { s with flowIndicators := true, blockIndicators := s.blockIndicators || followed } else s
        if c = '-' && followed then { s with flowIndicators := true, blockIndicators := true } else s
      else
        let s := if ",?[]\x7b\x7d".toList.contains c then { s with flowIndicators := true } else s
        let s := if c = ':' then
          { s with flowIndicators := true, blockIndicators := s.blockIndicators || followed } else s
        if c = '#' && preceded then { s with flowIndicators := true, blockIndicators := true } else s
    let s := if !isPrintable c then { s with special := true } else s
    let s := if isBreak c then { s with lineBreaks := true } else s
    let s :=
      if c = ' ' then
        { s with leadingSpace := s.leadingSpace || first, trailingSpace := s.trailingSpace || last,
                 breakSpace := s.breakSpace || s.previousBreak, previousSpace := true,
                 previousBreak := false }
      else if isBreak c then
        { s with leadingBreak := s.leadingBreak || first, trailingBreak := s.trailingBreak || last,
                 spaceBreak := s.spaceBreak || s.previousSpace, previousBreak := true,
                 previousSpace := false }
      else { s with previousSpace := false, previousBreak := false }
    scanChars rest false (blankOrEnd (some c)) s

def analyze (value : String) : Allowed :=
  if value.isEmpty then
    { flowPlain := false, blockPlain := false, singleQuoted := true, block := false, multiline := false }
  else
    let cs := value.toList
    let start : Scan :=
      if cs.take 3 = ['-', '-', '-'] || cs.take 3 = ['.', '.', '.'] then
        { flowIndicators := true, blockIndicators := true } else {}
    let s := scanChars cs true true start
    let edges := s.leadingSpace || s.leadingBreak || s.trailingSpace || s.trailingBreak
    let hard := s.spaceBreak || s.special
    { flowPlain := !(edges || s.breakSpace || hard || s.lineBreaks || s.flowIndicators)
      blockPlain := !(edges || s.breakSpace || hard || s.lineBreaks || s.blockIndicators)
      singleQuoted := !(s.breakSpace || hard)
      block := !(s.trailingSpace || hard)
      multiline := s.lineBreaks }

/-- How a text is written. -/
inductive Written where
  | plain
  | single
  | double
  | literal
  deriving DecidableEq, Repr

def readsAsOther (s : String) : Bool :=
  describePlain s != "string " ++ Json.debugString s || leadingZeroDigits s

def styleOf (s : String) (key : Bool) : Written :=
  let a := analyze s
  let wanted : Written :=
    if s.toList.contains '\n' then .literal else if readsAsOther s then .single else .plain
  let afterPlain : Written :=
    if wanted = .plain then
      if !a.blockPlain || (s.isEmpty && key) then .single else .plain
    else wanted
  let afterSingle : Written :=
    if afterPlain = .single && !a.singleQuoted then .double else afterPlain
  if afterSingle = .literal && (!a.block || key) then .double else afterSingle

def hexUpper (n width : Nat) : String :=
  let ds := (Nat.toDigits 16 n).map Char.toUpper
  String.ofList (List.replicate (width - ds.length) '0' ++ ds)

def escapeDouble (c : Char) : String :=
  let n := c.toNat
  if c = '"' then "\\\"" else if c = '\\' then "\\\\"
  else if isPrintable c && !isBreak c && n ≠ 0xFEFF then String.singleton c
  else match n with
    | 0 => "\\0"
    | 7 => "\\a"
    | 8 => "\\b"
    | 9 => "\\t"
    | 10 => "\\n"
    | 11 => "\\v"
    | 12 => "\\f"
    | 13 => "\\r"
    | 27 => "\\e"
    | 0x85 => "\\N"
    | 0xA0 => "\\_"
    | 0x2028 => "\\L"
    | 0x2029 => "\\P"
    | _ =>
      if n ≤ 0xFF then "\\x" ++ hexUpper n 2
      else if n ≤ 0xFFFF then "\\u" ++ hexUpper n 4
      else "\\U" ++ hexUpper n 8

def blanks (n : Nat) : String := String.ofList (List.replicate n ' ')

/-- The body of a quoted or block scalar. A break is written as it is, and the first character
after breaks starts its line with `indent` blanks. `breaks` tells whether writing starts just after
a break. Inside single quotes (`quoted`) a quote is doubled, the first of a run of line feeds is
written twice (a single one would read back as a blank), and breaks at the end are followed by
the indentation. -/
def bodyText (indent : Nat) (quoted : Bool) : Bool → List Char → String
  | breaks, [] => if breaks && quoted then blanks indent else ""
  | breaks, c :: rest =>
    if isBreak c then
      (if quoted && !breaks && c = '\n' then "\n" else "") ++ String.singleton c
        ++ bodyText indent quoted true rest
    else
      (if breaks then blanks indent else "") ++ (if quoted && c = '\'' then "''" else String.singleton c)
        ++ bodyText indent quoted false rest

/-- A literal block holding `s`, its lines indented by `indent` blanks. The header gives the
indentation when the text starts with a blank or a break, and keeps (`+`) or strips (`-`) the
final breaks: strip when the text does not end with a break, keep when it ends with two or is
one break. -/
def literalBlock (s : String) (indent : Nat) : String :=
  let cs := s.toList
  let chomp := match cs.reverse with
    | [] => "-"
    | [c] => if isBreak c then "+" else "-"
    | c :: d :: _ => if !isBreak c then "-" else if isBreak d then "+" else ""
  let lead := match cs.head? with
    | some c => if c = ' ' || isBreak c then "2" else ""
    | none => ""
  "|" ++ lead ++ chomp ++ "\n" ++ bodyText indent false true cs

def endsLine (t : String) : Bool := t.toList.getLast?.any isBreak

def scalarText (s : String) (key : Bool) (indent : Nat) : String :=
  match styleOf s key with
  | .plain => s
  | .single => "'" ++ bodyText indent true false s.toList ++ "'"
  | .double => "\"" ++ String.join (s.toList.map escapeDouble) ++ "\""
  | .literal => literalBlock s indent

mutual

/-- The lines an entry with key line `head` adds at `indent` blanks: the value after the key, or
the nested mapping's own lines. -/
def entryLines (indent : Nat) (head : String) : Value → String
  | .text s =>
    let t := scalarText s false (indent + 2)
    if endsLine t then head ++ " " ++ t else head ++ " " ++ t ++ "\n"
  | .bool b => head ++ " " ++ toString b ++ "\n"
  | .map [] => head ++ " \x7b\x7d\n"
  | .map (e :: entries) => head ++ "\n" ++ mappingLines (indent + 2) (e :: entries)

def mappingLines (indent : Nat) : List (String × Value) → String
  | [] => ""
  | (k, v) :: rest =>
    let pad := String.ofList (List.replicate indent ' ')
    entryLines indent (pad ++ scalarText k true indent ++ ":") v ++ mappingLines indent rest

end

def Value.document : Value → String
  | .map [] => "\x7b\x7d\n"
  | .map entries => mappingLines 0 entries
  | .text s =>
    let t := scalarText s false 2
    if endsLine t then t else t ++ "\n"
  | .bool b => toString b ++ "\n"

end Yaml

end RunJournal
