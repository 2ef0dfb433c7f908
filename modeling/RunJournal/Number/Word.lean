/-!
# Counter arithmetic

Counters are unsigned 64-bit words kept as natural numbers below `2^64`. Totals saturate at the
largest word; a counter that steps past the largest word starts again at zero.
-/

namespace RunJournal

def wordMax : Nat := Nat.pow 2 64 - 1

/-- Addition that stops at the largest word. -/
def satAdd (a b : Nat) : Nat := min (a + b) wordMax

/-- The next 64-bit counter value, zero after the largest. -/
def wordSucc (n : Nat) : Nat := (n + 1) % Nat.pow 2 64

/-- The next 32-bit counter value, zero after the largest. -/
def halfWordSucc (n : Nat) : Nat := (n + 1) % Nat.pow 2 32

def satSum (xs : List Nat) : Nat := xs.foldl satAdd 0

end RunJournal
