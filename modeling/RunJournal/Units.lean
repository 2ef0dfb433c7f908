import RunJournal.Number.Fixed
/-!
# Durations and sizes for people

Durations: under a minute as seconds with one decimal (the double nearest to `ms / 1000`, rounded
to one place, a half to even); under an hour as `Mm SSs`; otherwise `Hh MMm SSs`, whole seconds
truncated. Sizes: bytes below 1024, then KB and MB with one decimal and GB with two, each the
double quotient by a power of 1024.
-/

namespace RunJournal

def pad2 (n : Nat) : String := if n < 10 then "0" ++ toString n else toString n

def formatDuration (ms : Nat) : String :=
  let secs := ms / 1000
  if 3600 ≤ secs then
    toString (secs / 3600) ++ "h " ++ pad2 (secs % 3600 / 60) ++ "m " ++ pad2 (secs % 60) ++ "s"
  else if 60 ≤ secs then
    toString (secs / 60) ++ "m " ++ pad2 (secs % 60) ++ "s"
  else
    Binary64.fixed (Binary64.div (Binary64.ofNat ms) (Binary64.ofNat 1000)) 1 ++ "s"

def formatBytes (bytes : Nat) : String :=
  let scaled := fun (unit places : Nat) =>
    Binary64.fixed (Binary64.div (Binary64.ofNat bytes) (Binary64.ofNat unit)) places
  if bytes < 1024 then toString bytes ++ " B"
  else if bytes < Nat.pow 1024 2 then scaled 1024 1 ++ " KB"
  else if bytes < Nat.pow 1024 3 then scaled (Nat.pow 1024 2) 1 ++ " MB"
  else scaled (Nat.pow 1024 3) 2 ++ " GB"

end RunJournal
