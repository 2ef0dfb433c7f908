import RunJournal.Yaml.Token
/-!
# Scanning scalars, anchors, tags and directives

Each scanner here starts at the indicator or first character of its token and gives the token and
the cursor after it, or the syntax fault that stopped it.

Plain and quoted scalars may run over several lines. Between two words the blanks and breaks
form a gap: a gap without a break is kept as it is, a single line feed folds to a space, and
further breaks are kept as line feeds. Block scalars keep their lines (literal) or fold them
(folded), and end with their final breaks stripped, clipped to one, or kept.
-/

namespace RunJournal

namespace Yaml

/-! ## Gaps between words -/

/-- The blanks and breaks between two words of a scalar: the blanks before the first break, the
first break, the breaks after it, and whether a break was met. -/
structure Gap where
  spaces : String
  firstBreak : String
  moreBreaks : String
  broken : Bool
  deriving Inhabited

def Gap.empty : Gap := ⟨"", "", "", false⟩

/-- Joins a gap onto `s`: its blanks when no break was met; else a space for a single line feed,
the further breaks alone after a line feed, or every break after a separator. -/
def Gap.fold (g : Gap) (s : String) : String :=
  if g.broken then
    if g.firstBreak.startsWith "\n" then
      if g.moreBreaks.isEmpty then s.push ' ' else s ++ g.moreBreaks
    else s ++ g.firstBreak ++ g.moreBreaks
  else s ++ g.spaces

/-- One blank or break of a gap, if the cursor is on one. Blanks count only before the first
break; after it they are indentation. -/
def Gap.step (c : Cursor) (g : Gap) : Option (Cursor × Gap) :=
  match c.peek with
  | some ch =>
    if isBlank ch then
      if g.broken then some (c.skip, g) else some (c.skip, { g with spaces := g.spaces.push ch })
    else if isBreak ch then
      if g.broken then
        let (c, b) := c.readLine g.moreBreaks
        some (c, { g with moreBreaks := b })
      else
        let (c, b) := c.readLine g.firstBreak
        some (c, { g with spaces := "", firstBreak := b, broken := true })
    else none
  | none => none

def Gap.read : Nat → Cursor → Gap → Cursor × Gap
  | 0, c, g => (c, g)
  | n + 1, c, g =>
    match Gap.step c g with
    | some (c, g) => Gap.read n c g
    | none => (c, g)

/-! ## Plain scalars -/

/-- The characters that may not follow a `:` inside a plain scalar in a flow collection. -/
def isColonBlocker (c : Char) : Bool := ",?[]\x7b\x7d".toList.contains c

/-- The words of a plain scalar up to a blank, a break, a `: ` or (in a flow collection) a flow
indicator; the pending gap is joined before each character. Gives the cursor, the text, the gap
still pending and the place after the last character read. -/
def plainWords (flow : Bool) (start : Mark) : Nat → Cursor → String → Gap → Mark →
    Except SyntaxFault (Cursor × String × Gap × Mark)
  | 0, c, s, g, e => .ok (c, s, g, e)
  | n + 1, c, s, g, e =>
    match c.peek with
    | none => .ok (c, s, g, e)
    | some ch =>
      if isBlank ch || isBreak ch then .ok (c, s, g, e)
      else if flow && ch = ':' && (c.ahead 1).any isColonBlocker then
        .error (faultWhile "while scanning a plain scalar" start "found unexpected ':'" c.mark)
      else if (ch = ':' && isBlankZ (c.ahead 1)) || (flow && ",[]\x7b\x7d".toList.contains ch) then
        .ok (c, s, g, e)
      else
        let c' := c.skip
        plainWords flow start n c' ((g.fold s).push ch) Gap.empty c'.mark

/-- The gap after a word of a plain scalar; a tab may not stand where the indentation of a new
line is expected. -/
def plainGap (indent : Int) (start : Mark) : Nat → Cursor → Gap → Except SyntaxFault (Cursor × Gap)
  | 0, c, g => .ok (c, g)
  | n + 1, c, g =>
    if g.broken && c.is '\t' && (c.mark.column : Int) < indent then
      .error (faultWhile "while scanning a plain scalar" start
        "found a tab character that violates indentation" c.mark)
    else
      match Gap.step c g with
      | some (c, g) => plainGap indent start n c g
      | none => .ok (c, g)

/-- The lines of a plain scalar: it ends at a document marker, a comment, a character that ends
it, or (outside flow collections) a line indented less than `indent`. -/
def plainLines (indent : Int) (flow : Bool) (start : Mark) : Nat → Cursor → String → Gap → Mark →
    Except SyntaxFault (Cursor × String × Gap × Mark)
  | 0, c, s, g, e => .ok (c, s, g, e)
  | n + 1, c, s, g, e =>
    if c.atDocumentMarker || c.is '#' then .ok (c, s, g, e)
    else
      match plainWords flow start c.fuel c s g e with
      | .error f => .error f
      | .ok (c, s, g, e) =>
        if !(c.onBlank || c.onBreak) then .ok (c, s, g, e)
        else
          match plainGap indent start c.fuel c g with
          | .error f => .error f
          | .ok (c, g) =>
            if !flow && (c.mark.column : Int) < indent then .ok (c, s, g, e)
            else plainLines indent flow start n c s g e

/-- A plain scalar inside a block whose indentation is `indent`: the token, the cursor after it,
and whether it ended after a line break (so a simple key may follow). -/
def plainScalar (c : Cursor) (indent : Int) (flow : Bool) :
    Except SyntaxFault (Token × Cursor × Bool) := do
  let start := c.mark
  let (c, s, g, e) ← plainLines (indent + 1) flow start c.fuel c "" Gap.empty start
  pure (⟨.scalar s .plain, start, e⟩, c, g.broken)

/-! ## Quoted scalars -/

/-- What a one-letter escape of a double-quoted scalar stands for: a character, or the number of
hex digits that give one. -/
def escapeOf : Char → Option (Char ⊕ Nat)
  | '0' => some (.inl (Char.ofNat 0))
  | 'a' => some (.inl (Char.ofNat 7))
  | 'b' => some (.inl (Char.ofNat 8))
  | 't' => some (.inl '\t')
  | '\t' => some (.inl '\t')
  | 'n' => some (.inl '\n')
  | 'v' => some (.inl (Char.ofNat 11))
  | 'f' => some (.inl (Char.ofNat 12))
  | 'r' => some (.inl '\r')
  | 'e' => some (.inl (Char.ofNat 27))
  | ' ' => some (.inl ' ')
  | '"' => some (.inl '"')
  | '/' => some (.inl '/')
  | '\\' => some (.inl '\\')
  | 'N' => some (.inl (Char.ofNat 0x85))
  | '_' => some (.inl (Char.ofNat 0xA0))
  | 'L' => some (.inl (Char.ofNat 0x2028))
  | 'P' => some (.inl (Char.ofNat 0x2029))
  | 'x' => some (.inr 2)
  | 'u' => some (.inr 4)
  | 'U' => some (.inr 8)
  | _ => none

def hexAhead (c : Cursor) (width : Nat) : Option Nat :=
  (List.range width).foldl (fun acc i => acc.bind fun a => ((c.ahead i).bind hexValue).map (a * 16 + ·))
    (some 0)

/-- The words of a quoted scalar up to a blank, a break or the closing quote, with escapes in a
double-quoted one. Gives whether an escaped line break ended the run. -/
def quotedWords (single : Bool) (start : Mark) : Nat → Cursor → String →
    Except SyntaxFault (Cursor × String × Bool)
  | 0, c, s => .ok (c, s, false)
  | n + 1, c, s =>
    match c.peek with
    | none => .ok (c, s, false)
    | some ch =>
      if isBlank ch || isBreak ch then .ok (c, s, false)
      else if single && ch = '\'' && c.isAt 1 '\'' then quotedWords single start n (c.skipN 2) (s.push '\'')
      else if ch = (if single then '\'' else '"') then .ok (c, s, false)
      else if !single && ch = '\\' && (c.ahead 1).any isBreak then .ok (c.skip.skipLine, s, true)
      else if !single && ch = '\\' then
        match (c.ahead 1).bind escapeOf with
        | some (.inl e) => quotedWords single start n (c.skipN 2) (s.push e)
        | some (.inr width) =>
          let c := c.skipN 2
          match hexAhead c width with
          | none =>
            .error (faultWhile "while parsing a quoted scalar" start
              "did not find expected hexdecimal number" c.mark)
          | some v =>
            if (0xD800 ≤ v && v ≤ 0xDFFF) || v > 0x10FFFF then
              .error (faultWhile "while parsing a quoted scalar" start
                "found invalid Unicode character escape code" c.mark)
            else quotedWords single start n (c.skipN width) (s.push (Char.ofNat v))
        | none =>
          .error (faultWhile "while parsing a quoted scalar" start "found unknown escape character" c.mark)
      else quotedWords single start n c.skip (s.push ch)

def quotedLines (single : Bool) (start : Mark) : Nat → Cursor → String →
    Except SyntaxFault (Cursor × String)
  | 0, c, s => .ok (c, s)
  | n + 1, c, s =>
    if c.atDocumentMarker then
      .error (faultWhile "while scanning a quoted scalar" start "found unexpected document indicator" c.mark)
    else if c.atEnd then
      .error (faultWhile "while scanning a quoted scalar" start "found unexpected end of stream" c.mark)
    else
      match quotedWords single start c.fuel c s with
      | .error f => .error f
      | .ok (c, s, broken) =>
        if c.is (if single then '\'' else '"') then .ok (c, s)
        else
          let (c, g) := Gap.read c.fuel c { Gap.empty with broken }
          quotedLines single start n c (g.fold s)

def quotedScalar (c : Cursor) (single : Bool) : Except SyntaxFault (Token × Cursor) := do
  let start := c.mark
  let (c, s) ← quotedLines single start c.fuel c.skip ""
  let c := c.skip
  pure (⟨.scalar s (if single then .singleQuoted else .doubleQuoted), start, c.mark⟩, c)

/-! ## Block scalars -/

/-- Steps over indentation spaces: all of them while the indentation is not known, else up to it. -/
def indentSpaces (indent : Nat) : Nat → Cursor → Cursor
  | 0, c => c
  | n + 1, c => if (indent == 0 || c.mark.column < indent) && c.is ' ' then indentSpaces indent n c.skip else c

/-- The indentation and empty lines before a line of a block scalar, gathering the breaks. When
the indentation is not known yet (zero), it becomes the deepest indentation met, at least one more
than the enclosing block's and at least one. Gives the place after the last break read. -/
def blockGap (start : Mark) (parentIndent : Int) : Nat → Cursor → Nat → Nat → String → Mark →
    Except SyntaxFault (Cursor × Nat × String × Mark)
  | 0, c, indent, _, breaks, e => .ok (c, indent, breaks, e)
  | n + 1, c, indent, most, breaks, e =>
    let c := indentSpaces indent c.fuel c
    let most := max most c.mark.column
    if (indent == 0 || c.mark.column < indent) && c.is '\t' then
      .error (faultWhile "while scanning a block scalar" start
        "found a tab character where an indentation space is expected" c.mark)
    else if !c.onBreak then
      let indent := if indent == 0 then max (max most (parentIndent + 1).toNat) 1 else indent
      .ok (c, indent, breaks, e)
    else
      let (c, breaks) := c.readLine breaks
      blockGap start parentIndent n c indent most breaks c.mark

def readToBreak : Nat → Cursor → String → Cursor × String
  | 0, c, s => (c, s)
  | n + 1, c, s =>
    if isBreakZ c.peek then (c, s)
    else
      let (c, s) := c.read s
      readToBreak n c s

/-- The lines of a block scalar at indentation `indent`. `lead` is the break that ended the last
line, `trail` the breaks of the empty lines after it; a folded scalar joins two lines that neither
start with a blank by a space, or by the empty lines between them. -/
def blockLines (literal : Bool) (start : Mark) (parentIndent : Int) : Nat → Cursor → Nat → String →
    String → String → Bool → Mark → Except SyntaxFault (Cursor × String × String × String × Mark)
  | 0, c, _, s, lead, trail, _, e => .ok (c, s, lead, trail, e)
  | n + 1, c, indent, s, lead, trail, leadBlank, e =>
    if !(c.mark.column == indent && !c.atEnd) then .ok (c, s, lead, trail, e)
    else
      let s :=
        if !literal && lead.startsWith "\n" && !leadBlank && !c.onBlank then
          (if trail.isEmpty then s.push ' ' else s)
        else s ++ lead
      let s := s ++ trail
      let leadBlank := c.onBlank
      let (c, s) := readToBreak c.fuel c s
      let (c, lead) := c.readLine ""
      match blockGap start parentIndent c.fuel c indent 0 "" c.mark with
      | .error f => .error f
      | .ok (c, indent, trail, e) => blockLines literal start parentIndent n c indent s lead trail leadBlank e

/-- The chomping (`-1` strip, `0` clip, `1` keep) and the indentation indicator after `|` or `>`. -/
def blockHeader (start : Mark) (c : Cursor) : Except SyntaxFault (Int × Nat × Cursor) :=
  let digit := fun (c : Cursor) =>
    c.peek.bind fun ch => if '0' ≤ ch && ch ≤ '9' then some (ch.toNat - '0'.toNat) else none
  let zero := fun (c : Cursor) =>
    faultWhile "while scanning a block scalar" start "found an indentation indicator equal to 0" c.mark
  if c.is '+' || c.is '-' then
    let chomp : Int := if c.is '+' then 1 else -1
    let c := c.skip
    match digit c with
    | some 0 => .error (zero c)
    | some d => .ok (chomp, d, c.skip)
    | none => .ok (chomp, 0, c)
  else
    match digit c with
    | some 0 => .error (zero c)
    | some d =>
      let c := c.skip
      if c.is '+' then .ok (1, d, c.skip)
      else if c.is '-' then .ok (-1, d, c.skip)
      else .ok (0, d, c)
    | none => .ok (0, 0, c)

/-- A literal (`|`) or folded (`>`) block scalar inside a block whose indentation is
`parentIndent`. -/
def blockScalar (c : Cursor) (parentIndent : Int) (literal : Bool) :
    Except SyntaxFault (Token × Cursor) := do
  let start := c.mark
  let (chomp, increment, c) ← blockHeader start c.skip
  let c := c.skipBlanks c.fuel
  let c := if c.is '#' then c.skipToBreak c.fuel else c
  if !isBreakZ c.peek then
    throw (faultWhile "while scanning a block scalar" start "did not find expected comment or line break" c.mark)
  let c := c.skipLine
  let indent :=
    if increment ≠ 0 then (if parentIndent ≥ 0 then parentIndent.toNat + increment else increment) else 0
  let (c, indent, trail, e) ← blockGap start parentIndent c.fuel c indent 0 "" c.mark
  let (c, s, lead, trail, e) ← blockLines literal start parentIndent c.fuel c indent "" "" trail false e
  let s := if chomp ≠ -1 then s ++ lead else s
  let s := if chomp = 1 then s ++ trail else s
  pure (⟨.scalar s (if literal then .literal else .folded), start, e⟩, c)

/-! ## Anchors, aliases and tags -/

/-- An anchor (`&name`) or alias (`*name`): a name of word characters followed by a blank, the end,
or one of `?:,]}%@` and the backquote. -/
def anchorToken (c : Cursor) (isAnchor : Bool) : Except SyntaxFault (Token × Cursor) :=
  let start := c.mark
  let (c, name) := c.skip.readWord c.fuel ""
  let ends := isBlankZ c.peek || c.peek.any fun ch => "?:,]\x7d%@`".toList.contains ch
  if name.isEmpty || !ends then
    .error (faultWhile (if isAnchor then "while scanning an anchor" else "while scanning an alias") start
      "did not find expected alphabetic or numeric character" c.mark)
  else .ok (⟨if isAnchor then .anchor name else .alias name, start, c.mark⟩, c)

/-- A tag handle: `!`, then word characters, then `!` if there is one. In a `%TAG` directive
(`directive`) a handle with word characters must end with `!`. -/
def tagHandle (directive : Bool) (start : Mark) (c : Cursor) : Except SyntaxFault (String × Cursor) :=
  if !c.is '!' then
    .error (faultWhile (if directive then "while scanning a tag directive" else "while scanning a tag")
      start "did not find expected '!'" c.mark)
  else
    let (c, s) := c.skip.readWord c.fuel "!"
    if c.is '!' then .ok (s.push '!', c.skip)
    else if directive && s != "!" then
      .error (faultWhile "while parsing a tag directive" start "did not find expected '!'" c.mark)
    else .ok (s, c)

/-- A character of a tag: word characters and URI punctuation, and inside `!<...>` also `,[]`. -/
def isUriChar (inBrackets : Bool) (ch : Char) : Bool :=
  isWordChar ch || ";/?:@&=+$.%!~*'()".toList.contains ch || (inBrackets && ",[]".toList.contains ch)

/-- The octets of one `%`-escaped UTF-8 character; `width` is the number of octets still to read,
zero before the first. -/
def uriEscape (context : String) (start : Mark) : Nat → Cursor → Nat → List UInt8 →
    Except SyntaxFault (Cursor × List UInt8)
  | 0, c, _, acc => .ok (c, acc)
  | n + 1, c, width, acc =>
    let octet : Option Nat :=
      if c.is '%' then
        ((c.ahead 1).bind hexValue).bind fun h => ((c.ahead 2).bind hexValue).map fun l => h * 16 + l
      else none
    match octet with
    | none => .error (faultWhile context start "did not find URI escaped octet" c.mark)
    | some o =>
      let w :=
        if width != 0 then width
        else if o &&& 0x80 == 0 then 1 else if o &&& 0xE0 == 0xC0 then 2
        else if o &&& 0xF0 == 0xE0 then 3 else if o &&& 0xF8 == 0xF0 then 4 else 0
      if w == 0 then .error (faultWhile context start "found an incorrect leading UTF-8 octet" c.mark)
      else if width != 0 && o &&& 0xC0 != 0x80 then
        .error (faultWhile context start "found an incorrect trailing UTF-8 octet" c.mark)
      else if w == 1 then .ok (c.skipN 3, acc ++ [o.toUInt8])
      else uriEscape context start n (c.skipN 3) (w - 1) (acc ++ [o.toUInt8])

/-- The characters of a tag after `head` (whose leading `!` is dropped), as bytes. -/
def uriChars (inBrackets : Bool) (context : String) (start : Mark) : Nat → Cursor → List UInt8 → Nat →
    Except SyntaxFault (List UInt8 × Cursor × Nat)
  | 0, c, acc, len => .ok (acc, c, len)
  | n + 1, c, acc, len =>
    match c.peek with
    | some ch =>
      if !isUriChar inBrackets ch then .ok (acc, c, len)
      else if ch = '%' then
        match uriEscape context start 4 c 0 acc with
        | .error f => .error f
        | .ok (c, acc) => uriChars inBrackets context start n c acc (len + 1)
      else uriChars inBrackets context start n c.skip (acc ++ [ch.toUInt8]) (len + 1)
    | none => .ok (acc, c, len)

/-- The rest of a tag, or the URI of a `%TAG` directive (`directive`), after `head`; it may not be
empty. -/
def tagUri (inBrackets directive : Bool) (head : String) (start : Mark) (c : Cursor) :
    Except SyntaxFault (List UInt8 × Cursor) := do
  let context := if directive then "while parsing a %TAG directive" else "while parsing a tag"
  let (acc, c, len) ← uriChars inBrackets context start c.fuel c (bytesOf (String.ofList (head.toList.drop 1)))
    head.length
  if len == 0 then throw (faultWhile context start "did not find expected tag URI" c.mark)
  pure (acc, c)

/-- A tag: verbatim `!<uri>`, `!handle!suffix`, `!suffix`, or `!` alone (which has an empty
handle and the suffix `!`). It must be followed by a blank or the end, or in a flow collection a
comma. -/
def tagToken (c : Cursor) (flow : Bool) : Except SyntaxFault (Token × Cursor) := do
  let start := c.mark
  let (handle, suffix, c) ←
    if c.isAt 1 '<' then do
      let (suffix, c) ← tagUri true false "" start (c.skipN 2)
      if !c.is '>' then throw (faultWhile "while scanning a tag" start "did not find the expected '>'" c.mark)
      pure ("", suffix, c.skip)
    else do
      let (handle, c) ← tagHandle false start c
      if handle.length ≥ 2 && handle.toList.getLast? == some '!' then
        let (suffix, c) ← tagUri false false "" start c
        pure (handle, suffix, c)
      else
        let (suffix, c) ← tagUri false false handle start c
        if suffix.isEmpty then pure ("", bytesOf "!", c) else pure ("!", suffix, c)
  if !isBlankZ c.peek && !(flow && c.is ',') then
    throw (faultWhile "while scanning a tag" start "did not find expected whitespace or line break" c.mark)
  pure (⟨.tag handle suffix, start, c.mark⟩, c)

/-! ## Directives -/

def versionDigits (start : Mark) : Nat → Cursor → Nat → Nat → Except SyntaxFault (Nat × Nat × Cursor)
  | 0, c, v, len => .ok (v, len, c)
  | n + 1, c, v, len =>
    match c.peek with
    | some ch =>
      if '0' ≤ ch && ch ≤ '9' then
        if len + 1 > 9 then
          .error (faultWhile "while scanning a %YAML directive" start "found extremely long version number" c.mark)
        else versionDigits start n c.skip (v * 10 + (ch.toNat - '0'.toNat)) (len + 1)
      else .ok (v, len, c)
    | none => .ok (v, len, c)

def versionNumber (start : Mark) (c : Cursor) : Except SyntaxFault (Nat × Cursor) := do
  let (v, len, c) ← versionDigits start c.fuel c 0 0
  if len == 0 then
    throw (faultWhile "while scanning a %YAML directive" start "did not find expected version number" c.mark)
  pure (v, c)

/-- A directive, `%YAML major.minor` or `%TAG handle uri`, with the rest of its line. -/
def directiveToken (c : Cursor) : Except SyntaxFault (Token × Cursor) := do
  let start := c.mark
  let context := "while scanning a directive"
  let (c, name) := c.skip.readWord c.fuel ""
  if name.isEmpty then throw (faultWhile context start "could not find expected directive name" c.mark)
  if !isBlankZ c.peek then
    throw (faultWhile context start "found unexpected non-alphabetical character" c.mark)
  let (kind, c) ←
    if name == "YAML" then do
      let c := c.skipBlanks c.fuel
      let (major, c) ← versionNumber start c
      if !c.is '.' then
        throw (faultWhile "while scanning a %YAML directive" start
          "did not find expected digit or '.' character" c.mark)
      let (minor, c) ← versionNumber start c.skip
      pure (TokenKind.versionDirective major minor, c)
    else if name == "TAG" then do
      let c := c.skipBlanks c.fuel
      let (handle, c) ← tagHandle true start c
      if !c.onBlank then
        throw (faultWhile "while scanning a %TAG directive" start "did not find expected whitespace" c.mark)
      let c := c.skipBlanks c.fuel
      let (uri, c) ← tagUri true true "" start c
      if !isBlankZ c.peek then
        throw (faultWhile "while scanning a %TAG directive" start
          "did not find expected whitespace or line break" c.mark)
      pure (TokenKind.tagDirective handle uri, c)
    else throw (faultWhile context start "found unknown directive name" c.mark)
  let stop := c.mark
  let c := c.skipBlanks c.fuel
  let c := if c.is '#' then c.skipToBreak c.fuel else c
  if !isBreakZ c.peek then
    throw (faultWhile context start "did not find expected comment or line break" c.mark)
  pure (⟨kind, start, stop⟩, c.skipLine)

end Yaml

end RunJournal
