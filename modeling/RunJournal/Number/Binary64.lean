/-!
# Binary64 values

A double-precision float is kept as its 64 bits. This module reads the bits as an exact value
`m · 2^q`, and rounds an exact positive ratio to the nearest double, a tie going to the even
significand, as IEEE 754 arithmetic rounds. A product or quotient of two doubles is an exact ratio
rounded once, which is what the hardware computes, so `mul` and `div` are that rounding and nothing
else.
-/

namespace RunJournal.Binary64

def infinity : UInt64 := 0x7FF0000000000000

def signBit : UInt64 := 0x8000000000000000

def isNegative (bits : UInt64) : Bool := bits >>> 63 == 1

def biasedExponent (bits : UInt64) : Nat := ((bits >>> 52) &&& 0x7FF).toNat

def fraction (bits : UInt64) : Nat := (bits &&& 0xFFFFFFFFFFFFF).toNat

def isFinite (bits : UInt64) : Bool := biasedExponent bits != 0x7FF

def isInfinite (bits : UInt64) : Bool := biasedExponent bits == 0x7FF && fraction bits == 0

/-- The magnitude of a finite value as `(m, q)`, the value being `m · 2^q`. -/
def significand (bits : UInt64) : Nat × Int :=
  if biasedExponent bits = 0 then (fraction bits, -1074)
  else (fraction bits + Nat.pow 2 52, (biasedExponent bits : Int) - 1075)

def negate (bits : UInt64) : UInt64 := bits ^^^ signBit

/-- `num / den < 2^l`, for `den > 0`. -/
def ltPow2 (num den : Nat) (l : Int) : Bool :=
  if 0 ≤ l then decide (num < den * Nat.pow 2 l.toNat) else decide (num * Nat.pow 2 (-l).toNat < den)

/-- `⌊log₂ (num / den)⌋` for positive `num` and `den`: the bit lengths fix it up to one. -/
def floorLog2 (num den : Nat) : Int :=
  let l : Int := (num.log2 : Int) - den.log2
  if ltPow2 num den l then l - 1 else l

/-- `num / den` rounded to the nearest integer, a half going to the even neighbour. -/
def roundHalfEven (num den : Nat) : Nat :=
  let q := num / den
  let r := num % den
  if 2 * r < den then q
  else if den < 2 * r then q + 1
  else if q % 2 = 0 then q else q + 1

/-- The double nearest to `num / den` with the sign `neg`; a magnitude beyond the largest finite
double rounds to infinity, one below the smallest subnormal to zero. -/
def ofRatio (neg : Bool) (num den : Nat) : UInt64 :=
  let sign : UInt64 := if neg then signBit else 0
  if num = 0 ∨ den = 0 then sign
  else
    let e := max (floorLog2 num den - 52) (-1074)
    let m :=
      if 0 ≤ e then roundHalfEven num (den * Nat.pow 2 e.toNat)
      else roundHalfEven (num * Nat.pow 2 (-e).toNat) den
    let (m, e) := if m = Nat.pow 2 53 then (Nat.pow 2 52, e + 1) else (m, e)
    if m < Nat.pow 2 52 then sign ||| m.toUInt64
    else if 2047 ≤ e + 1075 then sign ||| infinity
    else sign ||| ((e + 1075).toNat.toUInt64 <<< 52) ||| (m - Nat.pow 2 52).toUInt64

def ofNat (n : Nat) : UInt64 := ofRatio false n 1

def ratioOf (m : Nat) (q : Int) : Nat × Nat :=
  if 0 ≤ q then (m * Nat.pow 2 q.toNat, 1) else (m, Nat.pow 2 (-q).toNat)

def mul (a b : UInt64) : UInt64 :=
  let (ma, qa) := significand a
  let (mb, qb) := significand b
  let (num, den) := ratioOf (ma * mb) (qa + qb)
  ofRatio (isNegative a != isNegative b) num den

def div (a b : UInt64) : UInt64 :=
  let (ma, qa) := significand a
  let (mb, qb) := significand b
  let (num, den) := ratioOf ma (qa - qb)
  ofRatio (isNegative a != isNegative b) num (den * mb)

/-- The double nearest to `10^k`, as a decimal literal `1ek` denotes. -/
def pow10 (k : Nat) : UInt64 := ofNat (Nat.pow 10 k)

end RunJournal.Binary64
