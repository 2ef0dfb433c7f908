/-!
# Similar names

A mistyped name is answered with the known names that resemble it, by Jaro similarity. Two
characters match when they are equal and at most `max(|a|, |b|) / 2 - 1` places apart; the
characters of `a` are taken left to right, each claiming the first unclaimed match in `b`. Half the
matched characters that appear in a different order in the two names count as transpositions `t`.
With `m` matches the similarity is the mean of `m / |a|`, `m / |b|` and `(m - t) / m`.

A name is suggested when its similarity exceeds `7/10`. Scores are kept as fractions, so the
threshold and the ranking are decided exactly.
-/

namespace RunJournal.Cli

/-- Claims the first unclaimed position of `b` in `[lo, hi)` that holds `c` (positions counted
from `j`). -/
def claim (c : Char) (lo hi : Nat) : List (Char × Bool) → Nat → Option (List (Char × Bool))
  | [], _ => none
  | (d, used) :: rest, j =>
    if lo ≤ j ∧ j < hi ∧ d = c ∧ used = false then some ((d, true) :: rest)
    else (claim c lo hi rest (j + 1)).map ((d, used) :: ·)

/-- For each character of `a` (the first at position `i`), whether it matched; and `b` with its
claimed positions marked. -/
def matchFlags (range : Nat) : List Char → Nat → List (Char × Bool) → List Bool × List (Char × Bool)
  | [], _, bs => ([], bs)
  | c :: cs, i, bs =>
    match claim c (i - range) (i + range + 1) bs 0 with
    | some bs' =>
      let (fs, rest) := matchFlags range cs (i + 1) bs'
      (true :: fs, rest)
    | none =>
      let (fs, rest) := matchFlags range cs (i + 1) bs
      (false :: fs, rest)

def jaroCounts (a b : List Char) : Nat × Nat :=
  let range := max a.length b.length / 2 - 1
  let (flags, bs) := matchFlags range a 0 (b.map (·, false))
  let inA := (a.zip flags).filterMap fun (c, f) => if f then some c else none
  let inB := bs.filterMap fun (c, f) => if f then some c else none
  (inA.length, ((inA.zip inB).filter fun (x, y) => x ≠ y).length / 2)

/-- The Jaro similarity of `a` and `b` as a fraction `(numerator, denominator)`. -/
def jaro (a b : String) : Nat × Nat :=
  let a := a.toList
  let b := b.toList
  if a.isEmpty ∧ b.isEmpty then (1, 1)
  else if a.isEmpty ∨ b.isEmpty then (0, 1)
  else
    let (m, t) := jaroCounts a b
    if m = 0 then (0, 1)
    else (m * m * b.length + m * m * a.length + (m - t) * a.length * b.length,
      3 * a.length * b.length * m)

def Score.le (x y : Nat × Nat) : Bool := x.1 * y.2 ≤ y.1 * x.2

/-- The known names whose similarity to `name` exceeds `7/10`, least similar first; names of equal
score keep their order. -/
def resembling (name : String) (known : List String) : List String :=
  let scored := known.filterMap fun k =>
    let s := jaro name k
    if 7 * s.2 < 10 * s.1 then some (s, k) else none
  (scored.mergeSort fun x y => Score.le x.1 y.1).map (·.2)

/-- The most similar known name, if any exceeds the threshold (the last of equals). -/
def closest (name : String) (known : List String) : Option String :=
  (resembling name known).getLast?

end RunJournal.Cli
