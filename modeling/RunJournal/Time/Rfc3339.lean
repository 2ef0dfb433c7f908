import RunJournal.Time.Instant
/-!
# RFC 3339 text of instants

Writing: `YYYY-MM-DDTHH:MM:SS`, the year with four digits when in `0..=9999` and otherwise signed
with at least four digits, then a fraction only when the nanoseconds are not zero, with 3, 6 or 9
digits (the fewest that are exact), then `Z` (or `+00:00` in the long form).

Reading is relaxed: blanks may stand before each number and between items, the year may carry a
sign and then any number of digits, `t` or a space may replace `T`, and the offset is `Z`, `z`,
`UTC` in any case, or `±HH:MM` (a colon or blanks between hours and minutes); the offset is taken
off to give UTC. The faults are those of the date-time grammar: invalid characters, premature end,
out of range, trailing input, and no matching instant.
-/

namespace RunJournal

namespace Rfc3339

/-- The faults of reading an instant. -/
inductive Fault where
  | invalid
  | tooShort
  | outOfRange
  | tooLong
  | impossible
  deriving DecidableEq, Repr

def Fault.message : Fault → String
  | .invalid => "input contains invalid characters"
  | .tooShort => "premature end of input"
  | .outOfRange => "input is out of range"
  | .tooLong => "trailing input"
  | .impossible => "no possible date and time matching input"

def isBlank (c : Char) : Bool :=
  let n := c.toNat
  (9 ≤ n ∧ n ≤ 13) || n = 32 || n = 0x85 || n = 0xA0 || n = 0x1680 ||
    (0x2000 ≤ n ∧ n ≤ 0x200A) || n = 0x2028 || n = 0x2029 || n = 0x202F || n = 0x205F ||
    n = 0x3000

def trimStart (s : List Char) : List Char := s.dropWhile isBlank

def number (s : List Char) (min max : Nat) : Except Fault (List Char × Nat) :=
  if s.length < min then .error .tooShort
  else
    let ds := (s.take max).takeWhile Char.isDigit
    if ds.length < min then .error .invalid
    else
      let v := ds.foldl (fun n c => n * 10 + (c.toNat - 48)) 0
      if Nat.pow 2 63 ≤ v then .error .outOfRange else .ok (s.drop ds.length, v)

def literal (s : List Char) (c : Char) : Except Fault (List Char) :=
  match s with
  | [] => .error .tooShort
  | d :: rest => if d = c then .ok rest else .error .invalid

/-- Reads an unsigned field of at most `width` digits that must lie in `[lo, hi]`. -/
def field (s : List Char) (width lo hi : Nat) : Except Fault (List Char × Nat) := do
  let (rest, v) ← number (trimStart s) 1 width
  if lo ≤ v ∧ v ≤ hi then pure (rest, v) else throw .outOfRange

def year (s : List Char) : Except Fault (List Char × Int) := do
  let s := trimStart s
  let (rest, v) ← match s with
    | '-' :: t => do let (r, n) ← number t 1 (t.length + 1); pure (r, -(n : Int))
    | '+' :: t => do let (r, n) ← number t 1 (t.length + 1); pure (r, (n : Int))
    | _ => do let (r, n) ← number s 1 4; pure (r, (n : Int))
  if -(Nat.pow 2 31 : Int) ≤ v ∧ v < Nat.pow 2 31 then pure (rest, v) else throw .outOfRange

/-- Reads the fraction after a point: up to nine digits scaled to nanoseconds, more ignored. -/
def fraction (s : List Char) : Except Fault (List Char × Nat) := do
  let (rest, v) ← number s 1 9
  let used := s.length - rest.length
  pure (rest.dropWhile Char.isDigit, v * Nat.pow 10 (9 - used))

def offsetHours : List Char → Except Fault Nat
  | h1 :: h2 :: _ =>
    if h1.isDigit ∧ h2.isDigit then .ok ((h1.toNat - 48) * 10 + (h2.toNat - 48)) else .error .invalid
  | _ => .error .tooShort

/-- The two minute digits of an offset: a first digit above 5 is out of range. -/
def offsetMinutes : List Char → Except Fault Nat
  | m1 :: m2 :: _ =>
    if m2.isDigit ∧ '0' ≤ m1 ∧ m1 ≤ '5' then .ok ((m1.toNat - 48) * 10 + (m2.toNat - 48))
    else if m2.isDigit ∧ '6' ≤ m1 ∧ m1 ≤ '9' then .error .outOfRange
    else .error .invalid
  | _ => .error .tooShort

def offsetSign : List Char → Except Fault (Bool × List Char)
  | '+' :: t => .ok (false, t)
  | '-' :: t => .ok (true, t)
  | '−' :: t => .ok (true, t)
  | _ :: _ => .error .invalid
  | [] => .error .tooShort

def offset (s : List Char) : Except Fault (List Char × Int) :=
  match s with
  | 'Z' :: rest | 'z' :: rest => .ok (rest, 0)
  | _ => do
    let (negative, s) ← offsetSign s
    let hours ← offsetHours s
    let s := (s.drop 2).dropWhile (fun c => c = ':' ∨ isBlank c)
    let minutes ← offsetMinutes s
    let secs : Int := hours * 3600 + minutes * 60
    pure (s.drop 2, if negative then -secs else secs)

def startsUtc : List Char → Bool
  | a :: b :: c :: _ => a.toUpper = 'U' && b.toUpper = 'T' && c.toUpper = 'C'
  | _ => false

/-- The pieces of a date-time text: civil fields and offset. -/
structure Fields where
  year : Int
  month : Nat
  day : Nat
  hour : Nat
  minute : Nat
  second : Nat
  nano : Nat
  offset : Int

def fields (text : String) : Except Fault Fields := do
  let s := text.toList
  let (s, y) ← year s
  let s ← literal (trimStart s) '-'
  let (s, mo) ← field s 2 1 12
  let s ← literal (trimStart s) '-'
  let (s, d) ← field s 2 1 31
  let s ← match s with
    | c :: rest => if c = 't' ∨ c = 'T' ∨ c = ' ' then pure rest else throw Fault.invalid
    | [] => throw Fault.tooShort
  let (s, h) ← field s 2 0 23
  let s ← literal (trimStart s) ':'
  let (s, mi) ← field s 2 0 59
  let s ← literal (trimStart s) ':'
  let (s, se) ← field s 2 0 60
  let (s, nano) ← match s with
    | '.' :: rest => fraction rest
    | _ => pure (s, 0)
  let s := trimStart s
  let (s, off) ← if startsUtc s then pure (s.drop 3, (0 : Int)) else offset s
  if (trimStart s).isEmpty then
    pure { year := y, month := mo, day := d, hour := h, minute := mi, second := se, nano, offset := off }
  else throw Fault.tooLong

def Fields.instant (f : Fields) : Except Fault Instant := do
  let day ← match Instant.dayOf? f.year f.month f.day with
    | some day => pure day
    | none => throw Fault.outOfRange
  let (second, leap) := if f.second = 60 then (59, 1000000000) else (f.second, 0)
  let nano := f.nano + leap
  if 1000000000 ≤ nano ∧ second ≠ 59 then throw Fault.outOfRange
  if f.offset.natAbs ≥ 86400 then throw Fault.outOfRange
  let local_ : Int := (f.hour * 3600 + f.minute * 60 + second : Nat)
  let utc := local_ - f.offset
  let day := day + utc / 86400
  let (y, _, _) := Instant.civilFromDays day
  if y < Instant.minYear ∨ Instant.maxYear < y then throw Fault.impossible
  pure { day, second := (utc % 86400).toNat, nano }

end Rfc3339

namespace Instant

def parse (text : String) : Except String Instant :=
  match Rfc3339.fields text >>= Rfc3339.Fields.instant with
  | .ok t => .ok t
  | .error f => .error f.message

def pad (n width : Nat) : String :=
  let s := toString n
  String.ofList (List.replicate (width - s.length) '0') ++ s

/-- The year as written: four digits inside `0..=9999`, else a sign and at least four digits. -/
def yearText (y : Int) : String :=
  if 0 ≤ y ∧ y ≤ 9999 then pad y.toNat 4
  else (if y < 0 then "-" else "+") ++ pad y.natAbs 4

def dateText (t : Instant) : String :=
  let (y, m, d) := t.date
  yearText y ++ "-" ++ pad m 2 ++ "-" ++ pad d 2

def clockText (t : Instant) : String :=
  let (s, _) := t.shownSecond
  pad (t.second / 3600) 2 ++ ":" ++ pad (t.second % 3600 / 60) 2 ++ ":" ++ pad s 2

def fractionText (t : Instant) : String :=
  let (_, n) := t.shownSecond
  if n = 0 then ""
  else if n % 1000000 = 0 then "." ++ pad (n / 1000000) 3
  else if n % 1000 = 0 then "." ++ pad (n / 1000) 6
  else "." ++ pad n 9

def text (t : Instant) : String :=
  t.dateText ++ "T" ++ t.clockText ++ t.fractionText ++ "Z"

def longText (t : Instant) : String :=
  t.dateText ++ "T" ++ t.clockText ++ t.fractionText ++ "+00:00"

def listingText (t : Instant) : String :=
  t.dateText ++ " " ++ t.clockText

end Instant

end RunJournal
