import RunJournal.Json.Value
import RunJournal.Json.Write
import RunJournal.Number.Binary64
/-!
# Reading JSON text

A reader walks UTF-8 bytes once, front to back, and stops at the first fault. A fault names its
place as `line L column C`: `L` counts from 1, and `C` is the number of bytes of that line read so
far. Some faults are found by looking at the next byte without taking it; those count that byte
as read (`failAhead`). Faults that arise from the meaning of a value rather than its syntax are
raised without a place (`failBare`) and take the place of the reader when they reach the value
that contains them (`placeFaults`).

The same reader serves three sources (`Source`): text as given, whose faults carry places and whose
numbers are read as streaming readers read them; the canonical text of a request value, whose
numbers are read exactly; and the canonical text of members held back while an object was read,
which differs from a request value only in some messages.

Numbers in given text follow the streaming rule: up to `2^64 - 1` an integer stays an integer,
further digits are dropped into the exponent, and a decimal becomes a double by one rounding of the
integer of its digits followed by one multiplication or division by a power of ten.
-/

namespace RunJournal.Json

/-- Where the bytes being read came from. -/
inductive Source where
  /-- Text as given: faults carry places. -/
  | text
  /-- The canonical text of a request value. -/
  | value
  /-- The canonical text of members buffered while reading an object. -/
  | buffered
  deriving DecidableEq, Repr

/-- The reader's state: the bytes not yet read and the place reached. -/
structure Cursor where
  rest : List UInt8
  line : Nat
  column : Nat
  /-- How many more containers may be opened inside the current one. -/
  depth : Nat
  source : Source

/-- A reading fault: its message and, once known, its place. -/
structure Fault where
  message : String
  place : Option (Nat × Nat)
  deriving Repr

abbrev Reader := ExceptT Fault (StateM Cursor)

def Cursor.start (bytes : List UInt8) (source : Source) : Cursor :=
  { rest := bytes, line := 1, column := 0, depth := 128, source }

def Cursor.place (c : Cursor) : Nat × Nat := (c.line, c.column)

def Cursor.placeAhead (c : Cursor) : Nat × Nat :=
  match c.rest with
  | [] => (c.line, c.column)
  | b :: _ => if b = 10 then (c.line + 1, 0) else (c.line, c.column + 1)

def Cursor.bump (c : Cursor) : Cursor :=
  match c.rest with
  | [] => c
  | b :: rest =>
    if b = 10 then { c with rest, line := c.line + 1, column := 0 }
    else { c with rest, column := c.column + 1 }

def skipBlanks : List UInt8 → Nat → Nat → List UInt8 × Nat × Nat
  | [], line, col => ([], line, col)
  | b :: rest, line, col =>
    if b = 32 ∨ b = 9 ∨ b = 13 then skipBlanks rest line (col + 1)
    else if b = 10 then skipBlanks rest (line + 1) 0
    else (b :: rest, line, col)

namespace Reader

def peek : Reader (Option UInt8) := return (← get).rest.head?

def bump : Reader Unit := modify Cursor.bump

def next : Reader (Option UInt8) := do
  let b ← peek
  bump
  return b

def skipWs : Reader Unit := modify fun c =>
  let (rest, line, column) := skipBlanks c.rest c.line c.column
  { c with rest, line, column }

def source : Reader Source := return (← get).source

def fail {α : Type} (msg : String) : Reader α := do throw ⟨msg, some (← get).place⟩

def failAhead {α : Type} (msg : String) : Reader α := do throw ⟨msg, some (← get).placeAhead⟩

def failBare {α : Type} (msg : String) : Reader α := throw ⟨msg, none⟩

/-- Gives a fault without a place the place the reader has reached when it arrives here. -/
def placeFaults {α : Type} (r : Reader α) : Reader α :=
  tryCatch r fun e => do
    match e.place with
    | some _ => throw e
    | none => throw { e with place := some (← get).place }

def attempt {α : Type} (r : Reader α) : Reader (Except Fault α) :=
  tryCatch (Except.ok <$> r) fun e => pure (Except.error e)

/-- Runs `body`, then `close` whatever the outcome of `body`; the first fault wins. -/
def thenClose {α : Type} (body : Reader α) (close : Reader Unit) : Reader α := do
  let r ← attempt body
  let c ← attempt close
  match r, c with
  | .ok a, .ok () => pure a
  | .error e, _ => throw e
  | _, .error e => throw e

/-- Opens a container: in given text at most 127 may be open at once. -/
def nested {α : Type} (r : Reader α) : Reader α := do
  let c ← get
  if c.source = .text ∧ c.depth ≤ 1 then failAhead "recursion limit exceeded"
  else
    set { c with depth := c.depth - 1 }
    let a ← r
    modify fun c => { c with depth := c.depth + 1 }
    pure a

def ident : List UInt8 → Reader Unit
  | [] => pure ()
  | w :: ws => do
    match ← next with
    | none => fail "EOF while parsing a value"
    | some b => if b = w then ident ws else fail "expected ident"

def bytesOf (s : String) : List UInt8 := s.toUTF8.toList

/-! ## Strings -/

def hexValue (b : UInt8) : Option Nat :=
  if 48 ≤ b ∧ b ≤ 57 then some (b.toNat - 48)
  else if 97 ≤ b ∧ b ≤ 102 then some (b.toNat - 87)
  else if 65 ≤ b ∧ b ≤ 70 then some (b.toNat - 55)
  else none

def hexEscape : Reader Nat := do
  let c ← get
  match c.rest with
  | a :: b :: d :: e :: _ =>
    bump; bump; bump; bump
    match hexValue a, hexValue b, hexValue d, hexValue e with
    | some a, some b, some d, some e => pure (((a * 16 + b) * 16 + d) * 16 + e)
    | _, _, _, _ => fail "invalid escape"
  | rest =>
    for _ in rest do bump
    fail "EOF while parsing a string"

def utf8Bytes (n : Nat) : List UInt8 :=
  (String.singleton (Char.ofNat n)).toUTF8.toList

/-- Reads a `\u` escape of a string, surrogate pairs joined; a lone surrogate is a fault. -/
def unicodeEscape : Reader (List UInt8) := do
  let n ← hexEscape
  if 0xDC00 ≤ n ∧ n ≤ 0xDFFF then fail "lone leading surrogate in hex escape"
  else if n < 0xD800 ∨ 0xDBFF < n then pure (utf8Bytes n)
  else
    match ← peek with
    | none => fail "EOF while parsing a string"
    | some b =>
      bump
      if b ≠ 92 then fail "unexpected end of hex escape"
      else
        match ← peek with
        | none => fail "EOF while parsing a string"
        | some u =>
          bump
          if u ≠ 117 then fail "unexpected end of hex escape"
          else
            let n2 ← hexEscape
            if n2 < 0xDC00 ∨ 0xDFFF < n2 then fail "lone leading surrogate in hex escape"
            else pure (utf8Bytes ((n - 0xD800) * 0x400 + (n2 - 0xDC00) + 0x10000))

def escape : Reader (List UInt8) := do
  match ← next with
  | none => fail "EOF while parsing a string"
  | some b =>
    if b = 34 then pure [34] else if b = 92 then pure [92] else if b = 47 then pure [47]
    else if b = 98 then pure [8] else if b = 102 then pure [12] else if b = 110 then pure [10]
    else if b = 114 then pure [13] else if b = 116 then pure [9]
    else if b = 117 then unicodeEscape
    else fail "invalid escape"

/-- The string body up to the closing quote, as bytes (reversed accumulator). -/
def stringBody : Nat → List UInt8 → Reader (List UInt8)
  | 0, _ => fail "EOF while parsing a string"
  | fuel + 1, acc => do
    match ← peek with
    | none => fail "EOF while parsing a string"
    | some b =>
      if b = 34 then do bump; pure acc.reverse
      else if b = 92 then do
        bump
        let e ← escape
        stringBody fuel (e.reverse ++ acc)
      else if b < 32 then do
        bump
        fail "control character (\\u0000-\\u001F) found while parsing a string"
      else do
        bump
        stringBody fuel (b :: acc)

def string : Reader String := do
  let fuel := (← get).rest.length + 1
  let bytes ← stringBody fuel []
  match String.fromUTF8? (ByteArray.mk bytes.toArray) with
  | some s => pure s
  | none => fail "invalid unicode code point"

def skipEscape : Reader Unit := do
  match ← next with
  | none => fail "EOF while parsing a string"
  | some b =>
    if b = 34 ∨ b = 92 ∨ b = 47 ∨ b = 98 ∨ b = 102 ∨ b = 110 ∨ b = 114 ∨ b = 116 then pure ()
    else if b = 117 then do let _ ← hexEscape; pure ()
    else fail "invalid escape"

def skipStringBody : Nat → Reader Unit
  | 0 => fail "EOF while parsing a string"
  | fuel + 1 => do
    match ← peek with
    | none => fail "EOF while parsing a string"
    | some b =>
      if b = 34 then bump
      else if b = 92 then do bump; skipEscape; skipStringBody fuel
      else if b < 32 then fail "control character (\\u0000-\\u001F) found while parsing a string"
      else do bump; skipStringBody fuel

def skipString : Reader Unit := do
  skipStringBody ((← get).rest.length + 1)

/-! ## Numbers -/

def u64Max : Nat := Nat.pow 2 64 - 1

def i32Max : Int := Nat.pow 2 31 - 1

def digit? : Option UInt8 → Option Nat
  | some b => if 48 ≤ b ∧ b ≤ 57 then some (b.toNat - 48) else none
  | none => none

def skipDigits : Nat → Reader Unit
  | 0 => pure ()
  | fuel + 1 => do
    match digit? (← peek) with
    | some _ => bump; skipDigits fuel
    | none => pure ()

/-- The double `significand · 10^exponent` by the streaming rule: one rounding of the integer,
then one multiplication or division by the double nearest a power of ten, dividing by `1e308`
first while the exponent is beyond the table. -/
def fromParts (positive : Bool) (significand : Nat) (exponent : Int) : Reader UInt64 := do
  let rec go : Nat → UInt64 → Int → Reader UInt64
    | 0, f, _ => pure f
    | fuel + 1, f, e =>
      if e.natAbs ≤ 308 then
        if 0 ≤ e then
          let g := Binary64.mul f (Binary64.pow10 e.natAbs)
          if Binary64.isInfinite g then fail "number out of range" else pure g
        else pure (Binary64.div f (Binary64.pow10 e.natAbs))
      else if (Binary64.significand f).1 = 0 then pure f
      else if 0 ≤ e then fail "number out of range"
      else go fuel (Binary64.div f (Binary64.pow10 308)) (e + 308)
  let f ← go 8 (Binary64.ofNat significand) exponent
  pure (if positive then f else Binary64.negate f)

/-- After an exponent too large for 32 bits: zero, or a fault for a growing non-zero value. -/
def exponentOverflow (positive zero positiveExp : Bool) : Reader UInt64 := do
  if !zero ∧ positiveExp then fail "number out of range"
  else
    skipDigits ((← get).rest.length + 1)
    pure (if positive then 0 else Binary64.signBit)

def exponentDigits (positive : Bool) (significand : Nat) (start : Int) (positiveExp : Bool) :
    Nat → Int → Reader UInt64
  | 0, exp => fromParts positive significand (if positiveExp then start + exp else start - exp)
  | fuel + 1, exp => do
    match digit? (← peek) with
    | some d =>
      bump
      if i32Max < exp * 10 + d then exponentOverflow positive (significand = 0) positiveExp
      else exponentDigits positive significand start positiveExp fuel (exp * 10 + d)
    | none =>
      let e := if positiveExp then start + exp else start - exp
      fromParts positive significand (max (min e i32Max) (-i32Max - 1))

def exponentPart (positive : Bool) (significand : Nat) (start : Int) : Reader UInt64 := do
  bump
  let positiveExp ← match ← peek with
    | some 43 => do bump; pure true
    | some 45 => do bump; pure false
    | _ => pure true
  match ← next with
  | none => fail "EOF while parsing a value"
  | some b =>
    match digit? (some b) with
    | some d => exponentDigits positive significand start positiveExp ((← get).rest.length + 1) d
    | none => fail "invalid number"

/-- Further fraction digits once the significand is full: dropped. -/
def fractionOverflow (positive : Bool) (significand : Nat) (exponent : Int) : Reader UInt64 := do
  skipDigits ((← get).rest.length + 1)
  match ← peek with
  | some 101 | some 69 => exponentPart positive significand exponent
  | _ => fromParts positive significand exponent

def fractionDigits (positive : Bool) (start : Int) : Nat → Nat → Int → Reader UInt64
  | 0, sig, exp => fromParts positive sig (start + exp)
  | fuel + 1, sig, exp => do
    match digit? (← peek) with
    | some d =>
      if u64Max < sig * 10 + d then fractionOverflow positive sig (start + exp)
      else do bump; fractionDigits positive start fuel (sig * 10 + d) (exp - 1)
    | none =>
      if exp = 0 then
        match ← peek with
        | some _ => failAhead "invalid number"
        | none => failAhead "EOF while parsing a value"
      else
        match ← peek with
        | some 101 | some 69 => exponentPart positive sig (start + exp)
        | _ => fromParts positive sig (start + exp)

def fractionPart (positive : Bool) (significand : Nat) (start : Int) : Reader UInt64 := do
  bump
  fractionDigits positive start ((← get).rest.length + 1) significand 0

/-- Integer digits beyond what 64 bits hold: each one raises the exponent. -/
def longInteger (positive : Bool) (significand : Nat) : Nat → Int → Reader UInt64
  | 0, exp => fromParts positive significand exp
  | fuel + 1, exp => do
    match ← peek with
    | some 46 => fractionPart positive significand exp
    | some 101 | some 69 => exponentPart positive significand exp
    | b =>
      match digit? b with
      | some _ => do bump; longInteger positive significand fuel (exp + 1)
      | none => fromParts positive significand exp

/-- What follows the integer digits: a fraction, an exponent, or the end of an integer. -/
def numberTail (positive : Bool) (significand : Nat) : Reader Number := do
  match ← peek with
  | some 46 => return .float (← fractionPart positive significand 0)
  | some 101 | some 69 => return .float (← exponentPart positive significand 0)
  | _ =>
    if positive then pure (.nat significand)
    else if 0 < significand ∧ significand ≤ Nat.pow 2 63 then pure (.neg (-(significand : Int)))
    else pure (.float (Binary64.negate (Binary64.ofNat significand)))

def integerDigits (positive : Bool) : Nat → Nat → Reader Number
  | 0, sig => numberTail positive sig
  | fuel + 1, sig => do
    match digit? (← peek) with
    | some d =>
      if u64Max < sig * 10 + d then
        return .float (← longInteger positive sig ((← get).rest.length + 1) 0)
      else do bump; integerDigits positive fuel (sig * 10 + d)
    | none => numberTail positive sig

def streamedNumber (positive : Bool) : Reader Number := do
  match ← next with
  | none => fail "EOF while parsing a value"
  | some b =>
    if b = 48 then
      match digit? (← peek) with
      | some _ => failAhead "invalid number"
      | none => numberTail positive 0
    else
      match digit? (some b) with
      | some d => integerDigits positive ((← get).rest.length + 1) d
      | none => fail "invalid number"

def numberChars : Nat → List Char → Reader (List Char)
  | 0, acc => pure acc.reverse
  | fuel + 1, acc => do
    match ← peek with
    | some b =>
      if (48 ≤ b ∧ b ≤ 57) ∨ b = 46 ∨ b = 101 ∨ b = 69 ∨ b = 43 ∨ b = 45 then do
        bump; numberChars fuel (Char.ofNat b.toNat :: acc)
      else pure acc.reverse
    | none => pure acc.reverse

/-- The value of a decimal numeral `digits[.digits][e±digits]`, exactly, as `(n, 10-exponent)`. -/
def decimalValue (cs : List Char) : Nat × Int :=
  let mant := cs.takeWhile (fun c => c ≠ 'e' ∧ c ≠ 'E')
  let expPart := cs.drop (mant.length + 1)
  let intDigits := mant.takeWhile (· ≠ '.')
  let fracDigits := mant.drop (intDigits.length + 1)
  let digitsVal : List Char → Nat := fun ds => ds.foldl (fun n c => n * 10 + (c.toNat - 48)) 0
  let exp : Int := match expPart with
    | '-' :: ds => -(digitsVal ds : Int)
    | '+' :: ds => (digitsVal ds : Int)
    | ds => (digitsVal ds : Int)
  (digitsVal (intDigits ++ fracDigits), exp - (fracDigits.length : Int))

def exactNumber (positive : Bool) : Reader Number := do
  let cs ← numberChars ((← get).rest.length + 1) []
  if cs.any (fun c => c = '.' ∨ c = 'e' ∨ c = 'E') then
    let (n, e) := decimalValue cs
    let bits :=
      if 0 ≤ e then Binary64.ofRatio (!positive) (n * Nat.pow 10 e.toNat) 1
      else Binary64.ofRatio (!positive) n (Nat.pow 10 e.natAbs)
    pure (.float bits)
  else
    let (n, _) := decimalValue cs
    if positive then pure (.nat n)
    else if n = 0 then pure (.float Binary64.signBit)
    else pure (.neg (-(n : Int)))

def number (positive : Bool) : Reader Number := do
  if (← source) = .text then streamedNumber positive else exactNumber positive

def skipNumberRest : Reader Unit := do
  let skipExp : Reader Unit := do
    bump
    match ← peek with
    | some 43 | some 45 => bump
    | _ => pure ()
    match digit? (← next) with
    | some _ => skipDigits ((← get).rest.length + 1)
    | none => fail "invalid number"
  match ← peek with
  | some 46 =>
    bump
    match digit? (← peek) with
    | some _ =>
      skipDigits ((← get).rest.length + 1)
      match ← peek with
      | some 101 | some 69 => skipExp
      | _ => pure ()
    | none => failAhead "invalid number"
  | some 101 | some 69 => skipExp
  | _ => pure ()

def skipNumber : Reader Unit := do
  match ← next with
  | some 48 =>
    match digit? (← peek) with
    | some _ => failAhead "invalid number"
    | none => skipNumberRest
  | b =>
    match digit? b with
    | some _ => skipDigits ((← get).rest.length + 1); skipNumberRest
    | none => fail "invalid number"

/-! ## Containers -/

def nextItem (first : Bool) : Reader Bool := do
  skipWs
  match ← peek with
  | some 93 => pure false
  | some 44 =>
    if first then failAhead "expected `,` or `]`"
    else do
      bump; skipWs
      match ← peek with
      | some 93 => failAhead "trailing comma"
      | some _ => pure true
      | none => failAhead "EOF while parsing a value"
  | some _ => if first then pure true else failAhead "expected `,` or `]`"
  | none => failAhead "EOF while parsing a list"

/-- Moves to the next key of an object and reads it: `none` at its end (not taken). -/
def nextKey (first : Bool) : Reader (Option String) := do
  skipWs
  let keyAt : Option UInt8 → Reader (Option String)
    | some 34 => do bump; return some (← string)
    | some 125 => failAhead "trailing comma"
    | some _ => failAhead "key must be a string"
    | none => failAhead "EOF while parsing a value"
  match ← peek with
  | some 125 => pure none
  | some 44 =>
    if first then failAhead "expected `,` or `\x7d`"
    else do bump; skipWs; keyAt (← peek)
  | some b => if first then keyAt (some b) else failAhead "expected `,` or `\x7d`"
  | none => failAhead "EOF while parsing an object"

def colon : Reader Unit := do
  skipWs
  match ← peek with
  | some 58 => bump
  | some _ => failAhead "expected `:`"
  | none => failAhead "EOF while parsing an object"

def closeArray : Reader Unit := do
  skipWs
  match ← peek with
  | some 93 => bump
  | some 44 =>
    bump; skipWs
    match ← peek with
    | some 93 => failAhead "trailing comma"
    | _ => failAhead "trailing characters"
  | some _ => failAhead "trailing characters"
  | none => failAhead "EOF while parsing a list"

def closeObject : Reader Unit := do
  skipWs
  match ← peek with
  | some 125 => bump
  | some 44 => failAhead "trailing comma"
  | some _ => failAhead "trailing characters"
  | none => failAhead "EOF while parsing an object"

mutual
/-- Reads any value, kept whole: objects in document order with every member. -/
def value : Nat → Reader Json
  | 0 => failBare "recursion limit exceeded"
  | fuel + 1 => placeFaults do
    skipWs
    match ← peek with
    | none => failAhead "EOF while parsing a value"
    | some 110 => do bump; ident (bytesOf "ull"); pure .null
    | some 116 => do bump; ident (bytesOf "rue"); pure (.bool true)
    | some 102 => do bump; ident (bytesOf "alse"); pure (.bool false)
    | some 45 => do bump; return .num (← number false)
    | some 34 => do bump; return .str (← string)
    | some 91 => nested do
        bump
        thenClose (do let xs ← items fuel true []; pure (.arr xs)) closeArray
    | some 123 => nested do
        bump
        thenClose (do let ms ← members fuel true []; pure (.obj ms)) closeObject
    | some b =>
      match digit? (some b) with
      | some _ => return .num (← number true)
      | none => failAhead "expected value"

def items : Nat → Bool → List Json → Reader (List Json)
  | 0, _, acc => pure acc.reverse
  | fuel + 1, first, acc => do
    if ← nextItem first then
      let v ← value fuel
      items fuel false (v :: acc)
    else pure acc.reverse

def members : Nat → Bool → List (String × Json) → Reader (List (String × Json))
  | 0, _, acc => pure acc.reverse
  | fuel + 1, first, acc => do
    match ← nextKey first with
    | some k =>
      colon
      let v ← value fuel
      members fuel false ((k, v) :: acc)
    | none => pure acc.reverse
end

def anyValue : Reader Json := do
  value (2 * (← get).rest.length + 2)

mutual
def skip : Nat → Reader Unit
  | 0 => pure ()
  | fuel + 1 => do
    skipWs
    match ← peek with
    | none => failAhead "EOF while parsing a value"
    | some 110 => do bump; ident (bytesOf "ull")
    | some 116 => do bump; ident (bytesOf "rue")
    | some 102 => do bump; ident (bytesOf "alse")
    | some 45 => do bump; skipNumber
    | some 34 => do bump; skipString
    | some 91 => do
        bump; skipWs
        if (← peek) = some 93 then bump
        else do skip fuel; skipItems fuel
    | some 123 => do
        bump; skipWs
        if (← peek) = some 125 then bump
        else skipMembers fuel
    | some b =>
      match digit? (some b) with
      | some _ => skipNumber
      | none => failAhead "expected value"

def skipItems : Nat → Reader Unit
  | 0 => pure ()
  | fuel + 1 => do
    skipWs
    match ← peek with
    | some 44 => do bump; skip fuel; skipItems fuel
    | some 93 => bump
    | some _ => failAhead "expected `,` or `]`"
    | none => failAhead "EOF while parsing a list"

def skipMembers : Nat → Reader Unit
  | 0 => pure ()
  | fuel + 1 => do
    skipWs
    match ← peek with
    | some 34 => bump
    | some _ => failAhead "key must be a string"
    | none => failAhead "EOF while parsing an object"
    skipString
    skipWs
    match ← peek with
    | some 58 => bump
    | some _ => failAhead "expected `:`"
    | none => failAhead "EOF while parsing an object"
    skip fuel
    skipWs
    match ← peek with
    | some 44 => do bump; skipMembers fuel
    | some 125 => bump
    | some _ => failAhead "expected `,` or `\x7d`"
    | none => failAhead "EOF while parsing an object"
end

def skipValue : Reader Unit := do
  skip (2 * (← get).rest.length + 2)

def finish : Reader Unit := do
  skipWs
  match ← peek with
  | some _ => failAhead "trailing characters"
  | none => pure ()

end Reader

def Fault.render (f : Fault) (source : Source) : String :=
  match source, f.place with
  | .text, some (l, c) => f.message ++ " at line " ++ toString l ++ " column " ++ toString c
  | _, _ => f.message

/-- Runs a reader over `bytes` to the end of the input; blanks may follow what it reads. -/
def Reader.runOn {α : Type} (r : Reader α) (bytes : List UInt8) (source : Source) :
    Except Fault α :=
  (((do let a ← r; Reader.finish; pure a) : Reader α).run.run (Cursor.start bytes source)).1

def readText {α : Type} (r : Reader α) (text : String) : Except String α :=
  match r.runOn (Reader.bytesOf text) .text with
  | .ok a => .ok a
  | .error f => .error (f.render .text)

def readBytes {α : Type} (r : Reader α) (bytes : List UInt8) : Except String α :=
  match r.runOn bytes .text with
  | .ok a => .ok a
  | .error f => .error (f.render .text)

def readValue {α : Type} (r : Reader α) (v : Json) : Except String α :=
  match r.runOn (Reader.bytesOf (compact v.canonical)) .value with
  | .ok a => .ok a
  | .error f => .error f.message

/-- Parses a request line as a value: members of each object sorted by key, the last of equal
keys kept. -/
def parseRequest (line : String) : Except String Json :=
  (readText Reader.anyValue line).map Json.canonical

end RunJournal.Json
