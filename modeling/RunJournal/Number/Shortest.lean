import RunJournal.Number.Binary64
/-!
# Shortest decimal text of a double

A finite double stands for every real that rounds to it. `shortestDigits` picks, among the decimals
in that interval, one with the fewest significant digits and, of those, the one nearest to the
double, a tie going to the even digit string. The interval's ends belong to it exactly when the
significand is even, since ties round to even.

All shortest candidates lie on the grid of `n`-digit decimals of the double's own decade, so the
search tries `n = 1, 2, …, 17` and stops at the first grid with a point in the interval; 17 digits
always suffice for a double.

`text` writes the digits as JSON writers do for floats: positional with `.0` for integers below
`10^16`, positional for exponents down to `-5`, otherwise `d.ddde±x`.
-/

namespace RunJournal.Binary64

def decimalLength (n : Nat) : Nat := (Nat.toDigits 10 n).length

/-- The least `k ≥ start` with `den ≤ num · 10^k`, searching at most `fuel` steps. -/
def firstScale (num den : Nat) : Nat → Nat → Nat
  | 0, k => k
  | fuel + 1, k => if den ≤ num * Nat.pow 10 k then k else firstScale num den fuel (k + 1)

def floorLog10 (num den : Nat) : Int :=
  if den ≤ num then (decimalLength (num / den) : Int) - 1
  else -(firstScale num den 800 1 : Int)

def stripZeros : Nat → Nat × Int → Nat × Int
  | 0, p => p
  | fuel + 1, (d, k) => if d ≠ 0 ∧ d % 10 = 0 then stripZeros fuel (d / 10, k + 1) else (d, k)

/-- The rounding interval of a finite positive double, in units of `2^(q-2)`: its centre `4m`, the
distance to its lower end and to its upper end, and whether the ends belong to it. -/
structure Interval where
  centre : Nat
  below : Nat
  above : Nat
  closed : Bool

def interval (bits : UInt64) : Interval :=
  let m := (significand bits).1
  { centre := 4 * m
    below := if fraction bits = 0 ∧ 1 < biasedExponent bits then 1 else 2
    above := 2
    closed := m % 2 == 0 }

/-- The scale that turns units of `2^(q-2)` into units of `10^j`: multiply by `fst`, divide by
`snd`. -/
def gridScale (q j : Int) : Nat × Nat :=
  (Nat.pow 2 (q - 2).toNat * Nat.pow 10 (-j).toNat, Nat.pow 2 (2 - q).toNat * Nat.pow 10 j.toNat)

/-- The point `c · 10^j` lies in the interval (given with the grid scale `(a, b)`). -/
def Interval.holds (iv : Interval) (a b c : Nat) : Bool :=
  let lo := (iv.centre - iv.below) * a
  let hi := (iv.centre + iv.above) * a
  if iv.closed then decide (lo ≤ c * b) && decide (c * b ≤ hi)
  else decide (lo < c * b) && decide (c * b < hi)

/-- The grid point of spacing `10^j` nearest to the double inside its interval, if any. -/
def gridHit (iv : Interval) (q j : Int) : Option Nat :=
  let (a, b) := gridScale q j
  let v := iv.centre * a
  let lo := v / b
  let hi := if v % b = 0 then lo else lo + 1
  match iv.holds a b lo, iv.holds a b hi with
  | true, true =>
    let dl := v - lo * b
    let dh := hi * b - v
    if dl < dh then some lo
    else if dh < dl then some hi
    else if lo % 2 = 0 then some lo else some hi
  | true, false => some lo
  | false, true => some hi
  | false, false => none

def searchGrids (iv : Interval) (q e : Int) : Nat → Nat → Nat × Int
  | 0, _ => (0, 0)
  | fuel + 1, n =>
    let j := e - n + 1
    match gridHit iv q j with
    | some c => stripZeros 20 (c, j)
    | none => searchGrids iv q e fuel (n + 1)

/-- The shortest, then nearest, decimal `(d, k)` with `d · 10^k` rounding to the positive finite
double `bits`. -/
def shortestDigits (bits : UInt64) : Nat × Int :=
  let (m, q) := significand bits
  let (num, den) := ratioOf m q
  searchGrids (interval bits) q (floorLog10 num den) 17 1

def padded (d width : Nat) : String :=
  let s := toString d
  String.ofList (List.replicate (width - s.length) '0') ++ s

/-- Writes `d · 10^k` (with `d` of `len` digits) as floats are written in JSON. -/
def layout (d : Nat) (k : Int) : String :=
  let s := toString d
  let len : Int := s.length
  let kk := len + k
  if 0 ≤ k ∧ kk ≤ 16 then
    s ++ String.ofList (List.replicate k.toNat '0') ++ ".0"
  else if 0 < kk ∧ kk ≤ 16 then
    String.ofList (s.toList.take kk.toNat) ++ "." ++ String.ofList (s.toList.drop kk.toNat)
  else if -5 < kk ∧ kk ≤ 0 then
    "0." ++ String.ofList (List.replicate (-kk).toNat '0') ++ s
  else
    let exp := kk - 1
    let expText := if exp < 0 then "-" ++ toString (-exp).toNat else toString exp.toNat
    match s.toList with
    | [c] => String.ofList [c] ++ "e" ++ expText
    | c :: rest => String.ofList [c] ++ "." ++ String.ofList rest ++ "e" ++ expText
    | [] => "0e" ++ expText

/-- The text of a double as JSON writers print floats: shortest digits, `NaN` and `inf` for the
values that have no digits. -/
def text (bits : UInt64) : String :=
  let sign := if isNegative bits then "-" else ""
  if !isFinite bits then
    if fraction bits ≠ 0 then "NaN" else sign ++ "inf"
  else if (significand bits).1 = 0 then sign ++ "0.0"
  else
    let (d, k) := shortestDigits bits
    sign ++ layout d k

/-- Writes `d · 10^k` positionally, never with an exponent, and with a fraction part only when
there is one. -/
def positional (d : Nat) (k : Int) : String :=
  let s := toString d
  let kk : Int := s.length + k
  if 0 ≤ k then s ++ String.ofList (List.replicate k.toNat '0')
  else if 0 < kk then
    String.ofList (s.toList.take kk.toNat) ++ "." ++ String.ofList (s.toList.drop kk.toNat)
  else "0." ++ String.ofList (List.replicate (-kk).toNat '0') ++ s

/-- The text of a double in messages about unexpected values: shortest digits written
positionally, with `.0` added to a whole number; `NaN`, `inf` and `-inf` for the values that have
no digits. -/
def messageText (bits : UInt64) : String :=
  let sign := if isNegative bits then "-" else ""
  if !isFinite bits then
    if fraction bits ≠ 0 then "NaN" else sign ++ "inf"
  else if (significand bits).1 = 0 then sign ++ "0.0"
  else
    let (d, k) := shortestDigits bits
    let body := positional d k
    sign ++ if body.contains '.' then body else body ++ ".0"

end RunJournal.Binary64
