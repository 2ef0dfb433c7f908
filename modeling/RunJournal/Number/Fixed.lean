import RunJournal.Number.Binary64
/-!
# Fixed decimal places

`fixed bits p` writes a finite double with exactly `p` digits after the point. The digits are
those of the exact binary value rounded to the nearest multiple of `10^-p`, a tie going to the even
neighbour; a tie can only happen when the double is exactly halfway, as `0.25` is.
-/

namespace RunJournal.Binary64

/-- The exact magnitude of a finite double times `10^p`, rounded half to even. -/
def scaledRound (bits : UInt64) (p : Nat) : Nat :=
  let (m, q) := significand bits
  let (num, den) := ratioOf (m * Nat.pow 10 p) q
  roundHalfEven num den

def fixed (bits : UInt64) (p : Nat) : String :=
  let r := scaledRound bits p
  let sign := if isNegative bits then "-" else ""
  let whole := toString (r / Nat.pow 10 p)
  if p = 0 then sign ++ whole
  else
    let frac := toString (r % Nat.pow 10 p)
    sign ++ whole ++ "." ++ String.ofList (List.replicate (p - frac.length) '0') ++ frac

end RunJournal.Binary64
