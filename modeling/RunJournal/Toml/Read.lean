import RunJournal.Yaml.Text
/-!
# Reading TOML documents

A TOML document read into a tree of tables. Every faulty document is refused as a whole, so only
acceptance matters here, not the wording of faults. What is read: comments; bare, quoted and
dotted keys; basic and literal strings, single- and multi-line; integers (decimal with
underscores, and `0x`/`0o`/`0b`) within 64 signed bits; floats (kept as written); booleans; dates
and times (kept as written); arrays over several lines; inline tables; `[table]` and
`[[array of tables]]` headers.

A table is defined once: by a header, or by the dotted keys that create it, or inline; a header may
go through tables that dotted keys made, but may not define them again; a table made only as the
parent of another may later get its own header.
-/

namespace RunJournal

namespace Toml

/-- A TOML value. -/
inductive Value where
  | str (s : String)
  | int (n : Int)
  | float (text : String)
  | bool (b : Bool)
  | datetime (text : String)
  | arr (items : List Value)
  | table (entries : List (String × Value))
  deriving Repr, Inhabited

/-- How a table came to be, which decides what may still be added to it. -/
inductive Origin where
  /-- Made as the parent of another table. -/
  | implicit
  /-- Defined by a header. -/
  | header
  /-- Made by dotted keys. -/
  | dotted
  deriving DecidableEq, Repr

/-- The tree of a document being read. -/
inductive Tree where
  /-- A finished value: anything but a table still open to additions. -/
  | leaf (v : Value)
  | table (origin : Origin) (entries : List (String × Tree))
  /-- An array of tables, the newest last. -/
  | tables (items : List (List (String × Tree)))
  deriving Repr, Inhabited

abbrev Result (α : Type) := Except String α

/-! ## The tree -/

def lookup (k : String) : List (String × Tree) → Option Tree
  | [] => none
  | (k', t) :: rest => if k = k' then some t else lookup k rest

def replace (k : String) (t : Tree) : List (String × Tree) → List (String × Tree)
  | [] => []
  | (k', t') :: rest => if k = k' then (k, t) :: rest else (k', t') :: replace k t rest

def modifyLast {α : Type} (f : α → Result α) : List α → Result (List α)
  | [] => .error "no table"
  | [x] => do pure [← f x]
  | x :: rest => do pure (x :: (← modifyLast f rest))

/-- Applies `f` to the entries of the table at `path`, making parent tables on the way and
entering an array of tables at its newest table. -/
def atPath (f : List (String × Tree) → Result (List (String × Tree))) :
    List String → List (String × Tree) → Result (List (String × Tree))
  | [], entries => f entries
  | k :: ks, entries =>
    match lookup k entries with
    | none => do
      let sub ← atPath f ks []
      pure (entries ++ [(k, .table .implicit sub)])
    | some (.table o sub) => do
      let sub' ← atPath f ks sub
      pure (replace k (.table o sub') entries)
    | some (.tables items) => do
      let items' ← modifyLast (atPath f ks) items
      pure (replace k (.tables items') entries)
    | some (.leaf _) => .error ("key is not a table: " ++ k)

def insertDotted (v : Value) : List String → List (String × Tree) → Result (List (String × Tree))
  | [], _ => .error "empty key"
  | [k], entries =>
    match lookup k entries with
    | none => .ok (entries ++ [(k, .leaf v)])
    | some _ => .error ("duplicate key " ++ k)
  | k :: ks, entries =>
    match lookup k entries with
    | none => do
      let sub ← insertDotted v ks []
      pure (entries ++ [(k, .table .dotted sub)])
    | some (.table .dotted sub) => do
      let sub' ← insertDotted v ks sub
      pure (replace k (.table .dotted sub') entries)
    | some _ => .error ("duplicate key " ++ k)

def defineTable (path : List String) (root : List (String × Tree)) : Result (List (String × Tree)) :=
  match path.getLast?, path.dropLast with
  | some last, parents =>
    atPath (fun entries =>
      match lookup last entries with
      | none => .ok (entries ++ [(last, .table .header [])])
      | some (.table .implicit sub) => .ok (replace last (.table .header sub) entries)
      | some _ => .error ("duplicate table " ++ last)) parents root
  | none, _ => .error "empty header"

def appendTable (path : List String) (root : List (String × Tree)) : Result (List (String × Tree)) :=
  match path.getLast?, path.dropLast with
  | some last, parents =>
    atPath (fun entries =>
      match lookup last entries with
      | none => .ok (entries ++ [(last, .tables [[]])])
      | some (.tables items) => .ok (replace last (.tables (items ++ [[]])) entries)
      | some _ => .error ("not an array of tables: " ++ last)) parents root
  | none, _ => .error "empty header"

mutual

def Tree.value : Tree → Value
  | .leaf v => v
  | .table _ entries => .table (entriesValue entries)
  | .tables items => .arr (tablesValue items)

def entriesValue : List (String × Tree) → List (String × Value)
  | [] => []
  | (k, t) :: rest => (k, t.value) :: entriesValue rest

def tablesValue : List (List (String × Tree)) → List Value
  | [] => []
  | t :: rest => .table (entriesValue t) :: tablesValue rest

end

/-! ## Text -/

def isBlank (c : Char) : Bool := c = ' ' || c = '\t'

def skipBlanks (cs : List Char) : List Char := cs.dropWhile isBlank

def commentChar (c : Char) : Bool :=
  c = '\t' || (c.toNat ≥ 0x20 && c.toNat ≠ 0x7F)

def skipComment (cs : List Char) : Result (List Char) :=
  match cs with
  | '#' :: rest =>
    let body := rest.takeWhile fun c => c ≠ '\n' && c ≠ '\r'
    if body.all commentChar then .ok (rest.drop body.length) else .error "control character in comment"
  | _ => .ok cs

/-- Reads the end of a line: blanks, an optional comment, a line break or the end. -/
def lineEnd (cs : List Char) : Result (List Char) := do
  let cs ← skipComment (skipBlanks cs)
  match cs with
  | [] => pure []
  | '\n' :: rest => pure rest
  | '\r' :: '\n' :: rest => pure rest
  | _ => .error "expected a line end"

def skipLayout : Nat → List Char → Result (List Char)
  | 0, cs => .ok cs
  | fuel + 1, cs =>
    match skipBlanks cs with
    | '\n' :: rest => skipLayout fuel rest
    | '\r' :: '\n' :: rest => skipLayout fuel rest
    | '#' :: rest => do skipLayout fuel (← skipComment ('#' :: rest))
    | rest => .ok rest

def bareChar (c : Char) : Bool := c.isAlphanum || c = '_' || c = '-'

def basicChar (c : Char) : Bool :=
  c = '\t' || (c.toNat ≥ 0x20 && c ≠ '"' && c ≠ '\\' && c.toNat ≠ 0x7F)

def escape (cs : List Char) : Result (Char × List Char) :=
  let hex := fun (n : Nat) (rest : List Char) =>
    if (rest.take n).length = n then
      match Yaml.hexDigits (rest.take n) with
      | some v =>
        if v > 0x10FFFF ∨ (0xD800 ≤ v ∧ v ≤ 0xDFFF) then .error "invalid escape"
        else .ok (Char.ofNat v, rest.drop n)
      | none => .error "invalid escape"
    else .error "invalid escape"
  match cs with
  | 'b' :: rest => .ok (Char.ofNat 8, rest)
  | 't' :: rest => .ok ('\t', rest)
  | 'n' :: rest => .ok ('\n', rest)
  | 'f' :: rest => .ok (Char.ofNat 12, rest)
  | 'r' :: rest => .ok ('\r', rest)
  | '"' :: rest => .ok ('"', rest)
  | '\\' :: rest => .ok ('\\', rest)
  | 'u' :: rest => hex 4 rest
  | 'U' :: rest => hex 8 rest
  | _ => .error "invalid escape"

def basicString : List Char → List Char → Result (String × List Char)
  | '"' :: rest, acc => .ok (String.ofList acc.reverse, rest)
  | '\\' :: rest, acc =>
    match escape rest with
    | .ok (c, more) =>
      if more.length < rest.length + 1 then basicString more (c :: acc) else .error "escape"
    | .error e => .error e
  | c :: rest, acc => if basicChar c then basicString rest (c :: acc) else .error "bad character in string"
  | [], _ => .error "unterminated string"
termination_by cs => cs.length

def literalString : List Char → List Char → Result (String × List Char)
  | '\'' :: rest, acc => .ok (String.ofList acc.reverse, rest)
  | c :: rest, acc =>
    if c = '\t' || (c.toNat ≥ 0x20 && c.toNat ≠ 0x7F) then literalString rest (c :: acc)
    else .error "bad character in string"
  | [], _ => .error "unterminated string"

def dropBreak : List Char → List Char
  | '\n' :: rest => rest
  | '\r' :: '\n' :: rest => rest
  | cs => cs

/-- After a line-ending backslash: blanks and line breaks, when a break follows the blanks. -/
def afterLineEnd (cs : List Char) : Option (List Char) :=
  match skipBlanks cs with
  | '\n' :: _ | '\r' :: '\n' :: _ =>
    some (cs.dropWhile fun c => isBlank c || c = '\n' || c = '\r')
  | _ => none

def multiBasic : List Char → List Char → Result (String × List Char)
  | '"' :: '"' :: '"' :: '"' :: '"' :: rest, acc => .ok (String.ofList ('"' :: '"' :: acc).reverse, rest)
  | '"' :: '"' :: '"' :: '"' :: rest, acc => .ok (String.ofList ('"' :: acc).reverse, rest)
  | '"' :: '"' :: '"' :: rest, acc => .ok (String.ofList acc.reverse, rest)
  | '\\' :: rest, acc =>
    match afterLineEnd rest with
    | some more => if more.length < rest.length + 1 then multiBasic more acc else .error "escape"
    | none =>
      match escape rest with
      | .ok (c, more) => if more.length < rest.length + 1 then multiBasic more (c :: acc) else .error "escape"
      | .error e => .error e
  | '\r' :: '\n' :: rest, acc => multiBasic rest ('\n' :: acc)
  | c :: rest, acc =>
    if c = '\n' || c = '"' || basicChar c then multiBasic rest (c :: acc) else .error "bad character in string"
  | [], _ => .error "unterminated string"
termination_by cs => cs.length

def multiLiteral : List Char → List Char → Result (String × List Char)
  | '\'' :: '\'' :: '\'' :: '\'' :: '\'' :: rest, acc =>
    .ok (String.ofList ('\'' :: '\'' :: acc).reverse, rest)
  | '\'' :: '\'' :: '\'' :: '\'' :: rest, acc => .ok (String.ofList ('\'' :: acc).reverse, rest)
  | '\'' :: '\'' :: '\'' :: rest, acc => .ok (String.ofList acc.reverse, rest)
  | '\r' :: '\n' :: rest, acc => multiLiteral rest ('\n' :: acc)
  | c :: rest, acc =>
    if c = '\n' || c = '\t' || (c.toNat ≥ 0x20 && c.toNat ≠ 0x7F) then multiLiteral rest (c :: acc)
    else .error "bad character in string"
  | [], _ => .error "unterminated string"

def simpleKey (cs : List Char) : Result (String × List Char) :=
  match cs with
  | '"' :: rest => basicString rest []
  | '\'' :: rest => literalString rest []
  | _ =>
    let k := cs.takeWhile bareChar
    if k.isEmpty then .error "expected a key" else .ok (String.ofList k, cs.drop k.length)

def dottedKey : Nat → List Char → Result (List String × List Char)
  | 0, _ => .error "key too long"
  | fuel + 1, cs => do
    let (k, rest) ← simpleKey (skipBlanks cs)
    match skipBlanks rest with
    | '.' :: more => do
      let (ks, after) ← dottedKey fuel more
      pure (k :: ks, after)
    | _ => pure ([k], rest)

/-! ## Scalars -/

def underscored (isDigit : Char → Bool) (cs : List Char) : Bool :=
  match cs with
  | [] => false
  | c :: _ =>
    isDigit c && cs.getLast?.any isDigit &&
      (cs.zip cs.tail).all fun (a, b) => (isDigit a || isDigit b) && (a ≠ '_' || b ≠ '_') &&
        (a = '_' || isDigit a) && (b = '_' || isDigit b)

def valueIn (radix : Nat) (cs : List Char) : Nat :=
  (cs.filter (· ≠ '_')).foldl (fun acc c => acc * radix + ((Yaml.hexValue c).getD 0)) 0

def decimalPart (cs : List Char) : Bool :=
  cs = ['0'] || (cs.head? ≠ some '0' && underscored Char.isDigit cs)

def integerOf? (cs : List Char) : Option Int :=
  let isHex := fun (c : Char) => (Yaml.hexValue c).isSome
  let isOct := fun (c : Char) => '0' ≤ c && c ≤ '7'
  let isBin := fun (c : Char) => c = '0' || c = '1'
  let bounded := fun (n : Int) => if -(Nat.pow 2 63 : Int) ≤ n ∧ n < Nat.pow 2 63 then some n else none
  match cs with
  | '0' :: 'x' :: rest => if underscored isHex rest then bounded (valueIn 16 rest) else none
  | '0' :: 'o' :: rest => if underscored isOct rest then bounded (valueIn 8 rest) else none
  | '0' :: 'b' :: rest => if underscored isBin rest then bounded (valueIn 2 rest) else none
  | '-' :: rest => if decimalPart rest then bounded (-(valueIn 10 rest : Int)) else none
  | '+' :: rest => if decimalPart rest then bounded (valueIn 10 rest) else none
  | _ => if decimalPart cs then bounded (valueIn 10 cs) else none

def isFloat (cs : List Char) : Bool :=
  let body := match cs with
    | '-' :: r | '+' :: r => r
    | r => r
  if body = "inf".toList || body = "nan".toList then true
  else
    let digitish := fun (c : Char) => c.isDigit || c = '_'
    let intPart := body.takeWhile digitish
    let rest := body.drop intPart.length
    let (frac, rest) := match rest with
      | '.' :: r => (some (r.takeWhile digitish), r.drop (r.takeWhile digitish).length)
      | r => (none, r)
    let exp := match rest with
      | e :: r =>
        if e = 'e' || e = 'E' then
          let digits := match r with
            | '-' :: d | '+' :: d => d
            | d => d
          some (underscored Char.isDigit digits)
        else some false
      | [] => none
    decimalPart intPart && frac.all (underscored Char.isDigit) &&
      (frac.isSome || exp.isSome) && exp.all id && (rest.isEmpty || exp.isSome)

def digitsN (n : Nat) (cs : List Char) : Bool := (cs.take n).length = n && (cs.take n).all Char.isDigit

def isTime (cs : List Char) : Bool :=
  digitsN 2 cs && (cs.drop 2).head? = some ':' && digitsN 2 (cs.drop 3) &&
    (cs.drop 5).head? = some ':' && digitsN 2 (cs.drop 6) &&
    valueIn 10 (cs.take 2) < 24 && valueIn 10 ((cs.drop 3).take 2) < 60 &&
    valueIn 10 ((cs.drop 6).take 2) ≤ 60 &&
    match cs.drop 8 with
    | [] => true
    | '.' :: frac => !frac.isEmpty && frac.all Char.isDigit
    | _ => false

def isTimeWithOffset (cs : List Char) : Bool :=
  let timeLen := 8 + (match cs.drop 8 with
    | '.' :: frac => 1 + (frac.takeWhile Char.isDigit).length
    | _ => 0)
  isTime (cs.take timeLen) &&
    match cs.drop timeLen with
    | [] | ['Z'] | ['z'] => true
    | s :: off =>
      (s = '+' || s = '-') && off.length = 5 && digitsN 2 off && off[2]? = some ':' &&
        digitsN 2 (off.drop 3) && valueIn 10 (off.take 2) < 24 && valueIn 10 (off.drop 3) < 60

def isDate (cs : List Char) : Bool :=
  cs.length = 10 && digitsN 4 cs && cs[4]? = some '-' && digitsN 2 (cs.drop 5) &&
    cs[7]? = some '-' && digitsN 2 (cs.drop 8) &&
    let y := valueIn 10 (cs.take 4)
    let m := valueIn 10 ((cs.drop 5).take 2)
    let d := valueIn 10 (cs.drop 8)
    let leap := y % 4 = 0 && (y % 100 ≠ 0 || y % 400 = 0)
    let days := if m = 2 then (if leap then 29 else 28)
      else if m = 4 || m = 6 || m = 9 || m = 11 then 30 else 31
    1 ≤ m && m ≤ 12 && 1 ≤ d && d ≤ days

def isDateTime (cs : List Char) : Bool :=
  isTime cs ||
    (isDate (cs.take 10) &&
      match cs.drop 10 with
      | [] => true
      | sep :: rest => (sep = 'T' || sep = 't' || sep = ' ') && isTimeWithOffset rest)

def tokenChar (c : Char) : Bool := c.isAlphanum || "+-_.:".contains c

def scalarToken (cs : List Char) : List Char × List Char :=
  let tok := cs.takeWhile tokenChar
  let rest := cs.drop tok.length
  match rest with
  | ' ' :: more =>
    let timeTok := more.takeWhile tokenChar
    if isDate tok && digitsN 2 timeTok && timeTok[2]? = some ':' then
      (tok ++ ' ' :: timeTok, more.drop timeTok.length)
    else (tok, rest)
  | _ => (tok, rest)

/-! ## Values -/

mutual

def value : Nat → List Char → Result (Value × List Char)
  | 0, _ => .error "nested too deeply"
  | fuel + 1, cs =>
    match cs with
    | '"' :: '"' :: '"' :: rest => do
      let (s, more) ← multiBasic (dropBreak rest) []
      pure (.str s, more)
    | '"' :: rest => do
      let (s, more) ← basicString rest []
      pure (.str s, more)
    | '\'' :: '\'' :: '\'' :: rest => do
      let (s, more) ← multiLiteral (dropBreak rest) []
      pure (.str s, more)
    | '\'' :: rest => do
      let (s, more) ← literalString rest []
      pure (.str s, more)
    | '[' :: rest => do
      let (items, more) ← arrayItems fuel rest []
      pure (.arr items, more)
    | '{' :: rest => do
      let (entries, more) ← inlineEntries fuel rest []
      pure (.table (entriesValue entries), more)
    | _ =>
      let (tok, rest) := scalarToken cs
      if tok = "true".toList then .ok (.bool true, rest)
      else if tok = "false".toList then .ok (.bool false, rest)
      else match integerOf? tok with
        | some n => .ok (.int n, rest)
        | none =>
          if isFloat tok then .ok (.float (String.ofList tok), rest)
          else if isDateTime tok then .ok (.datetime (String.ofList tok), rest)
          else .error "invalid value"

def arrayItems : Nat → List Char → List Value → Result (List Value × List Char)
  | 0, _, _ => .error "nested too deeply"
  | fuel + 1, cs, acc => do
    let cs ← skipLayout (cs.length + 1) cs
    match cs with
    | ']' :: rest => pure (acc.reverse, rest)
    | _ => do
      let (v, rest) ← value fuel cs
      let rest ← skipLayout (rest.length + 1) rest
      match rest with
      | ',' :: more => arrayItems fuel more (v :: acc)
      | ']' :: more => pure ((v :: acc).reverse, more)
      | _ => .error "expected , or ]"

def inlineEntries : Nat → List Char → List (String × Tree) → Result (List (String × Tree) × List Char)
  | 0, _, _ => .error "nested too deeply"
  | fuel + 1, cs, acc => do
    match skipBlanks cs with
    | '}' :: rest => if acc.isEmpty then pure (acc, rest) else .error "trailing comma"
    | cs => do
      let (key, rest) ← dottedKey (cs.length + 1) cs
      match skipBlanks rest with
      | '=' :: rest => do
        let (v, rest) ← value fuel (skipBlanks rest)
        let acc ← insertDotted v key acc
        match skipBlanks rest with
        | ',' :: more => inlineEntries fuel more acc
        | '}' :: more => pure (acc, more)
        | _ => .error "expected , or \x7d"
      | _ => .error "expected ="

end

/-! ## Documents -/

/-- Reads the lines of a document into the root table; `current` is the path of the table that
key/value lines go to. -/
def lines : Nat → List Char → List String → List (String × Tree) → Result (List (String × Tree))
  | 0, _, _, _ => .error "document too long"
  | fuel + 1, cs, current, root => do
    let cs ← skipLayout (cs.length + 1) cs
    match cs with
    | [] => pure root
    | '[' :: '[' :: rest => do
      let (path, rest) ← dottedKey (rest.length + 1) rest
      match skipBlanks rest with
      | ']' :: ']' :: rest => do
        let root ← appendTable path root
        lines fuel (← lineEnd rest) path root
      | _ => .error "expected ]]"
    | '[' :: rest => do
      let (path, rest) ← dottedKey (rest.length + 1) rest
      match skipBlanks rest with
      | ']' :: rest => do
        let root ← defineTable path root
        lines fuel (← lineEnd rest) path root
      | _ => .error "expected ]"
    | _ => do
      let (key, rest) ← dottedKey (cs.length + 1) cs
      match skipBlanks rest with
      | '=' :: rest => do
        let (v, rest) ← value (rest.length + 2) (skipBlanks rest)
        let root ← atPath (insertDotted v key) current root
        lines fuel (← lineEnd rest) current root
      | _ => .error "expected ="

def document (text : String) : Result (List (String × Value)) := do
  let cs := text.toList
  let root ← lines (cs.length + 1) cs [] []
  pure (entriesValue root)

end Toml

end RunJournal
