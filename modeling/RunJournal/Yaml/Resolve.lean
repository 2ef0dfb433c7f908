import RunJournal.Yaml.Token
import RunJournal.Json.Decode
/-!
# What a YAML scalar stands for

A plain scalar stands for the first of these it spells: a null (`~`, `null` in three casings, or
nothing), a boolean (`true`/`false` in three casings), an integer (decimal, or `0x`, `0o`, `0b`; a
leading zero followed by more digits makes it text), a finite float or an infinity or NaN, else
text. A quoted or block scalar is text. A scalar tagged `!!bool`, `!!int`, `!!float` or `!!null`
must spell a value of that kind; any other tag starting with `!` leaves a plain scalar to be
resolved as usual, and other tags make it text.

These decide how a scalar shows in a type message (``integer `7` ``, ``boolean `true` ``,
`string "x"`), and which texts a writer must quote so that they read back as text.
-/

namespace RunJournal

namespace Yaml

def isNull (s : String) : Bool := s = "" || s = "~" || s = "null" || s = "Null" || s = "NULL"

def boolOf? (s : String) : Option Bool :=
  if s = "true" || s = "True" || s = "TRUE" then some true
  else if s = "false" || s = "False" || s = "FALSE" then some false
  else none

/-- A zero followed by more digits, after an optional sign: text, not a number. -/
def leadingZeroDigits (s : String) : Bool :=
  let cs := match s.toList with
    | '-' :: r | '+' :: r => r
    | r => r
  cs.length > 1 && cs.head? = some '0' && cs.all Char.isDigit

def digitsIn (radix : Nat) (cs : List Char) : Option Nat :=
  if cs.isEmpty then none
  else cs.foldl (fun acc c => acc.bind fun a =>
    (hexValue c).bind fun v => if v < radix then some (a * radix + v) else none) (some 0)

def magnitude (cs : List Char) : Option Nat :=
  match cs with
  | '0' :: 'x' :: rest => digitsIn 16 rest
  | '0' :: 'o' :: rest => digitsIn 8 rest
  | '0' :: 'b' :: rest => digitsIn 2 rest
  | _ => digitsIn 10 cs

def integerOf? (s : String) : Option (Bool × Nat) :=
  if leadingZeroDigits s then none
  else
    match s.toList with
    | '-' :: rest => (magnitude rest).map fun n => (true, n)
    | '+' :: rest => (magnitude rest).map fun n => (false, n)
    | cs => (magnitude cs).map fun n => (false, n)

/-- A decimal float text `[digits][.digits][e[sign]digits]` with at least one digit before the
exponent: its sign, digits and power of ten. -/
def decimalOf? (cs : List Char) : Option (Nat × Int) :=
  let intPart := cs.takeWhile Char.isDigit
  let rest := cs.drop intPart.length
  let (fracPart, rest) := match rest with
    | '.' :: r => (r.takeWhile Char.isDigit, r.drop (r.takeWhile Char.isDigit).length)
    | r => ([], r)
  if intPart.isEmpty ∧ fracPart.isEmpty then none
  else
    let expPart : Option Int := match rest with
      | [] => some 0
      | e :: r =>
        if e = 'e' ∨ e = 'E' then
          match r with
          | '-' :: ds => (digitsIn 10 ds).map fun n => -(n : Int)
          | '+' :: ds => (digitsIn 10 ds).map fun n => (n : Int)
          | ds => (digitsIn 10 ds).map fun n => (n : Int)
        else none
    expPart.map fun e =>
      ((digitsIn 10 (intPart ++ fracPart)).getD 0, e - fracPart.length)

def doubleOf (neg : Bool) (m : Nat) (e : Int) : UInt64 :=
  let signed := fun (bits : UInt64) => if neg then Binary64.negate bits else bits
  let size : Int := (toString m).length + e
  if m = 0 then signed 0
  else if size > 330 then signed Binary64.infinity
  else if size < -350 then signed 0
  else if 0 ≤ e then Binary64.ofRatio neg (m * Nat.pow 10 e.toNat) 1
  else Binary64.ofRatio neg m (Nat.pow 10 (-e).toNat)

/-- A finite float text (an optional sign, then decimal digits with an optional point and
exponent), or a YAML spelling of an infinity or NaN. -/
def floatOf? (s : String) : Option UInt64 :=
  let cs := s.toList
  let unpositive := match cs with
    | '+' :: r => r
    | r => r
  if cs.head? = some '+' ∧ (unpositive.head? = some '+' ∨ unpositive.head? = some '-') then none
  else if [".inf", ".Inf", ".INF"].contains (String.ofList unpositive) then some Binary64.infinity
  else if ["-.inf", "-.Inf", "-.INF"].contains s then some (Binary64.negate Binary64.infinity)
  else if [".nan", ".NaN", ".NAN"].contains s then some 0x7FF8000000000000
  else
    let (neg, body) := match unpositive with
      | '-' :: r => (true, r)
      | r => (false, r)
    (decimalOf? body).bind fun (m, e) =>
      let bits := doubleOf neg m e
      if Binary64.isFinite bits then some bits else none

/-- How an integer text shows in a type message, if it fits in 128 bits: as a 64-bit integer,
or marked as 128 bits wide. -/
def integerText? (s : String) : Option String :=
  (integerOf? s).bind fun (neg, n) =>
    let shown := if neg then toString (-(n : Int)) else toString n
    if !neg ∧ n < Nat.pow 2 64 then some ("integer `" ++ shown ++ "`")
    else if neg ∧ n ≤ Nat.pow 2 63 then some ("integer `" ++ shown ++ "`")
    else if !neg ∧ n < Nat.pow 2 128 then some ("integer `" ++ shown ++ "` as u128")
    else if neg ∧ n ≤ Nat.pow 2 127 then some ("integer `" ++ shown ++ "` as i128")
    else none

def describePlain (s : String) : String :=
  if isNull s then "unit value"
  else match boolOf? s with
  | some b => "boolean `" ++ toString b ++ "`"
  | none =>
    match integerText? s with
    | some t => t
    | none =>
      match (if leadingZeroDigits s then none else floatOf? s) with
      | some bits => "floating point `" ++ Binary64.messageText bits ++ "`"
      | none => "string " ++ Json.debugString s

def isNullWord (s : String) : Bool := s = "~" || s = "null" || s = "Null" || s = "NULL"

def coreTag (name : String) : List UInt8 := bytesOf ("tag:yaml.org,2002:" ++ name)

/-- The message for a scalar where a value described by `expecting` was wanted: the scalar's kind
as its tag and style decide it, or, when a core tag's kind is not spelled, the text refused as a
value of that kind. -/
def scalarMismatch (tag : Option (List UInt8)) (text : String) (style : ScalarStyle)
    (expecting : String) : String :=
  let wrongType := fun (what : String) => "invalid type: " ++ what ++ ", expected " ++ expecting
  let wrongValue := fun (what : String) =>
    "invalid value: string " ++ Json.debugString text ++ ", expected " ++ what
  match tag with
  | some t =>
    if t = coreTag "bool" then
      match boolOf? text with
      | some b => wrongType ("boolean `" ++ toString b ++ "`")
      | none => wrongValue "a boolean"
    else if t = coreTag "int" then
      match integerText? text with
      | some d => wrongType d
      | none => wrongValue "an integer"
    else if t = coreTag "float" then
      match floatOf? text with
      | some bits => wrongType ("floating point `" ++ Binary64.messageText bits ++ "`")
      | none => wrongValue "a float"
    else if t = coreTag "null" then
      if isNullWord text then wrongType "unit value" else wrongValue "null"
    else if t.head? = some 33 && style = .plain then wrongType (describePlain text)
    else wrongType ("string " ++ Json.debugString text)
  | none =>
    if style = .plain then wrongType (describePlain text) else wrongType ("string " ++ Json.debugString text)

end Yaml

end RunJournal
