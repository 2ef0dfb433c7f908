/-!
# Instants

An instant in UTC on the proleptic Gregorian calendar: a day counted from 1970-01-01, the second
of that day, and the nanoseconds into that second. A leap second is the 60th second of a minute,
written as nanoseconds from `10^9` up within second 59; it orders after that second and before the
next minute.

`millisBetween` is the whole milliseconds from one instant to a later one, truncated, and zero when
the second comes first; a leap second counts as part of the second it extends.
-/

namespace RunJournal

/-- A UTC instant. -/
structure Instant where
  /-- Days since 1970-01-01. -/
  day : Int
  /-- Second of the day, below 86400. -/
  second : Nat
  /-- Nanoseconds into the second; from `10^9` on, inside a leap second. -/
  nano : Nat
  deriving DecidableEq, Repr, Inhabited

namespace Instant

def lt (a b : Instant) : Bool :=
  a.day < b.day || (a.day == b.day && (a.second < b.second ||
    (a.second == b.second && a.nano < b.nano)))

instance : LT Instant := ⟨fun a b => a.lt b = true⟩

instance (a b : Instant) : Decidable (a < b) := inferInstanceAs (Decidable (a.lt b = true))

def daysInMonth (year : Int) (month : Nat) : Nat :=
  if month = 2 then
    if (year % 4 = 0 ∧ year % 100 ≠ 0) ∨ year % 400 = 0 then 29 else 28
  else if month = 4 ∨ month = 6 ∨ month = 9 ∨ month = 11 then 30
  else 31

def daysFromCivil (year : Int) (month day : Nat) : Int :=
  let y := if month ≤ 2 then year - 1 else year
  let era := y / 400
  let yoe := y - era * 400
  let mp : Int := if month > 2 then month - 3 else month + 9
  let doy := (153 * mp + 2) / 5 + day - 1
  let doe := yoe * 365 + yoe / 4 - yoe / 100 + doy
  era * 146097 + doe - 719468

def civilFromDays (z : Int) : Int × Nat × Nat :=
  let z := z + 719468
  let era := z / 146097
  let doe := z - era * 146097
  let yoe := (doe - doe / 1460 + doe / 36524 - doe / 146096) / 365
  let y := yoe + era * 400
  let doy := doe - (365 * yoe + yoe / 4 - yoe / 100)
  let mp := (5 * doy + 2) / 153
  let d := doy - (153 * mp + 2) / 5 + 1
  let m := if mp < 10 then mp + 3 else mp - 9
  (if m ≤ 2 then y + 1 else y, m.toNat, d.toNat)

def minYear : Int := -262144
def maxYear : Int := 262143

/-- The date, if it exists on the calendar and lies within the supported years. -/
def dayOf? (year : Int) (month day : Nat) : Option Int :=
  if minYear ≤ year ∧ year ≤ maxYear ∧ 1 ≤ month ∧ month ≤ 12 ∧ 1 ≤ day ∧
      day ≤ daysInMonth year month then
    some (daysFromCivil year month day)
  else none

def date (t : Instant) : Int × Nat × Nat := civilFromDays t.day

def shownSecond (t : Instant) : Nat × Nat :=
  if 1000000000 ≤ t.nano then (t.second % 60 + 1, t.nano - 1000000000)
  else (t.second % 60, t.nano)

/-- Nanoseconds from `a` to `b` (negative when `b` is earlier); a leap second of the earlier
instant counts as one more second once the later one is in a later second. -/
def nanosBetween (a b : Instant) : Int :=
  let secs : Int := (b.day - a.day) * 86400 + ((b.second : Int) - a.second)
  let frac : Int := (b.nano : Int) - a.nano
  let adjust : Int :=
    if a.second < b.second ∧ 1000000000 ≤ a.nano then 1
    else if b.second < a.second ∧ 1000000000 ≤ b.nano then -1
    else 0
  (secs + adjust) * 1000000000 + frac

def millisBetween (a b : Instant) : Nat :=
  let n := nanosBetween a b
  if 0 ≤ n then (n / 1000000).toNat else 0

def addMicros (t : Instant) (micros : Nat) : Instant :=
  let total := t.second * 1000000000 + t.nano + micros * 1000
  let days := total / (86400 * 1000000000)
  let rest := total % (86400 * 1000000000)
  { day := t.day + days, second := rest / 1000000000, nano := rest % 1000000000 }

end Instant

end RunJournal
