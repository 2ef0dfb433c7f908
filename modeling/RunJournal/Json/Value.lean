/-!
# JSON values

A JSON value as the trace files and requests hold it. Numbers keep the class the reader gave them,
since the class shows in messages: an unsigned integer below `2^64`, a negative integer not below
`-2^63`, or a double kept as its bits. Objects keep their members in order, duplicates included;
`Json.canonical` gives the form a key-sorted map holds, one member per key, the last one winning.
-/

namespace RunJournal

/-- A JSON number in the class the reader assigned. -/
inductive Number where
  /-- An integer in `[0, 2^64)` written without a point or an exponent. -/
  | nat (n : Nat)
  /-- A negative integer in `[-2^63, 0)` written without a point or an exponent. -/
  | neg (n : Int)
  /-- Any other number, as the bits of the double it reads as. -/
  | float (bits : UInt64)
  deriving DecidableEq, Repr, Inhabited

/-- A JSON value. -/
inductive Json where
  | null
  | bool (b : Bool)
  | num (n : Number)
  | str (s : String)
  | arr (items : List Json)
  | obj (members : List (String × Json))
  deriving Repr, Inhabited

namespace Json

def ofNat (n : Nat) : Json := .num (.nat n)

def ofOption {α : Type} (f : α → Json) : Option α → Json
  | some a => f a
  | none => .null

/-- Object members, dropping those whose value is absent. -/
def members (fields : List (String × Option Json)) : Json :=
  .obj (fields.filterMap fun (k, v) => v.map (k, ·))

/-- Inserts a member into a key-sorted member list, replacing an equal key. -/
def insertSorted (k : String) (v : Json) : List (String × Json) → List (String × Json)
  | [] => [(k, v)]
  | (k', v') :: rest =>
    if k < k' then (k, v) :: (k', v') :: rest
    else if k = k' then (k, v) :: rest
    else (k', v') :: insertSorted k v rest

mutual
/-- The value a key-sorted map would hold: members sorted by key, the last of equal keys kept. -/
def canonical : Json → Json
  | .arr items => .arr (canonicalItems items)
  | .obj members => .obj (canonicalMembers members [])
  | v => v

def canonicalItems : List Json → List Json
  | [] => []
  | v :: rest => canonical v :: canonicalItems rest

def canonicalMembers : List (String × Json) → List (String × Json) → List (String × Json)
  | [], acc => acc
  | (k, v) :: rest, acc => canonicalMembers rest (insertSorted k (canonical v) acc)
end

/-- The value of the last member named `k` of an object. -/
def get? (v : Json) (k : String) : Option Json :=
  match v with
  | .obj members => (members.reverse.find? (·.1 == k)).map (·.2)
  | _ => none

def str? : Json → Option String
  | .str s => some s
  | _ => none

def nat? : Json → Option Nat
  | .num (.nat n) => some n
  | _ => none

def bool? : Json → Option Bool
  | .bool b => some b
  | _ => none

def arr? : Json → Option (List Json)
  | .arr items => some items
  | _ => none

end Json

end RunJournal
