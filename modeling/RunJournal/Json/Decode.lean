import RunJournal.Json.Read
import RunJournal.Number.Shortest
/-!
# Decoding typed values

Typed readers on top of `Reader`. Each reads one value of a given shape and refuses any other with
`invalid type: <what it found>, expected <what it wanted>`, where the found value is described by
its kind (`null`, ``integer `7` ``, ``floating point `1.5` ``, `string "x"`, `sequence`, `map`).

A record (`RecordFormat`) is read from an object, member by member in document order, or from an
array giving its fields in declaration order. Unknown members are skipped; a member met twice is
`duplicate field`; after the object, the first required field not met is `missing field`. A field
may be optional (absent means `none`) or defaulted (absent means the default, also at the end of an
array).

A record may hold back the members it does not know (`flatRecord`), to read them afterwards as one
object; faults found then have no place of their own and take the place after the whole object. A
tagged union (`selectVariant`) is read from such held-back members: the member named by its tag
gives the variant, by name or by position, and the other members its fields.
-/

namespace RunJournal

def Number.describe : Number → String
  | .nat n => "integer `" ++ toString n ++ "`"
  | .neg n => "integer `" ++ toString n ++ "`"
  | .float bits => "floating point `" ++ Binary64.messageText bits ++ "`"

namespace Json

/-- Text of a string the way debugging output quotes it: backslash escapes for the quote, the
backslash and control characters. -/
def debugString (s : String) : String :=
  let hex := fun (n : Nat) => String.ofList (Nat.toDigits 16 n)
  let esc := fun (c : Char) =>
    if c = '"' then "\\\"" else if c = '\\' then "\\\\"
    else if c = '\n' then "\\n" else if c = '\r' then "\\r" else if c = '\t' then "\\t"
    else if c.toNat = 0 then "\\0"
    else if c.toNat < 0x20 ∨ (0x7F ≤ c.toNat ∧ c.toNat < 0xA0) ∨ c.toNat = 0xAD
        ∨ (0x300 ≤ c.toNat ∧ c.toNat < 0x370) ∨ (0x200B ≤ c.toNat ∧ c.toNat ≤ 0x200F)
        ∨ (0x2028 ≤ c.toNat ∧ c.toNat ≤ 0x202E) ∨ (0x2060 ≤ c.toNat ∧ c.toNat ≤ 0x2064)
        ∨ c.toNat = 0xFEFF then
      "\\u" ++ "\x7b" ++ hex c.toNat ++ "\x7d"
    else String.singleton c
  "\"" ++ s.toList.foldl (fun acc c => acc ++ esc c) "" ++ "\""

def describe : Json → String
  | .null => "null"
  | .bool b => "boolean `" ++ (if b then "true" else "false") ++ "`"
  | .num n => n.describe
  | .str s => "string " ++ debugString s
  | .arr _ => "sequence"
  | .obj _ => "map"

def oneOf (names : List String) : String :=
  let tick := fun (s : String) => "`" ++ s ++ "`"
  match names with
  | [] => "there are no variants"
  | [a] => tick a
  | [a, b] => tick a ++ " or " ++ tick b
  | _ => "one of " ++ ", ".intercalate (names.map tick)

def unknownVariant (s : String) (names : List String) : String :=
  "unknown variant `" ++ s ++ "`, expected " ++ oneOf names

def invalidTypeMessage (found expecting : String) : String :=
  "invalid type: " ++ found ++ ", expected " ++ expecting

def indexOf? (names : List String) (s : String) : Option Nat :=
  names.idxOf? s

namespace Reader

/-- Refuses the value ahead as not of the kind `expecting`; a scalar is read first, to describe it. -/
def invalidType {α : Type} (expecting : String) : Reader α := placeFaults do
  let found ← match ← peek with
    | some 110 => do bump; ident (bytesOf "ull"); pure "null"
    | some 116 => do bump; ident (bytesOf "rue"); pure "boolean `true`"
    | some 102 => do bump; ident (bytesOf "alse"); pure "boolean `false`"
    | some 45 => do bump; let n ← number false; pure n.describe
    | some 34 => do bump; let t ← string; pure ("string " ++ debugString t)
    | some 91 => pure "sequence"
    | some 123 => pure "map"
    | b =>
      match digit? b with
      | some _ => do let n ← number true; pure n.describe
      | none => failAhead "expected value"
  fail (invalidTypeMessage found expecting)

/-- Reads a string and hands it to `parse`, whose refusal becomes a fault after the string. -/
def stringWith {α : Type} (expecting : String) (parse : String → Except String α) : Reader α :=
  placeFaults do
    skipWs
    match ← peek with
    | none => failAhead "EOF while parsing a value"
    | some 34 =>
      bump
      match parse (← string) with
      | .ok a => pure a
      | .error m => failBare m
    | some _ => invalidType expecting

def str : Reader String := stringWith "a string" .ok

def unsigned (expecting : String) (max : Nat) : Reader Nat := placeFaults do
  skipWs
  let accept : Number → Reader Nat := fun
    | .nat n =>
      if n ≤ max then pure n
      else failBare ("invalid value: integer `" ++ toString n ++ "`, expected " ++ expecting)
    | .neg n => failBare ("invalid value: integer `" ++ toString n ++ "`, expected " ++ expecting)
    | n@(.float _) => failBare (invalidTypeMessage n.describe expecting)
  match ← peek with
  | none => failAhead "EOF while parsing a value"
  | some 45 => do bump; accept (← number false)
  | b =>
    match digit? b with
    | some _ => accept (← number true)
    | none => invalidType expecting

def u64 : Reader Nat := unsigned "u64" u64Max

def u32 : Reader Nat := unsigned "u32" (Nat.pow 2 32 - 1)

def bool : Reader Bool := placeFaults do
  skipWs
  match ← peek with
  | none => failAhead "EOF while parsing a value"
  | some 116 => do bump; ident (bytesOf "rue"); pure true
  | some 102 => do bump; ident (bytesOf "alse"); pure false
  | some _ => invalidType "a boolean"

def option {α : Type} (r : Reader α) : Reader (Option α) := do
  skipWs
  match ← peek with
  | some 110 => do bump; ident (bytesOf "ull"); pure none
  | _ => some <$> r

def listItems {α : Type} (r : Reader α) : Nat → Bool → List α → Reader (List α)
  | 0, _, acc => pure acc.reverse
  | fuel + 1, first, acc => do
    if ← nextItem first then
      let a ← r
      listItems r fuel false (a :: acc)
    else pure acc.reverse

def list {α : Type} (r : Reader α) : Reader (List α) := placeFaults do
  skipWs
  match ← peek with
  | none => failAhead "EOF while parsing a value"
  | some 91 => nested do
      bump
      let fuel := (← get).rest.length + 1
      thenClose (listItems r fuel true []) closeArray
  | some _ => invalidType "a sequence"

def variantName (names : List String) : Reader Nat :=
  stringWith "variant identifier" fun s =>
    match indexOf? names s with
    | some i => .ok i
    | none => .error (unknownVariant s names)

def unitValue : Reader Unit := placeFaults do
  skipWs
  match ← peek with
  | none => failAhead "EOF while parsing a value"
  | some 110 => do bump; ident (bytesOf "ull")
  | some _ => invalidType "unit"

/-- Reads one of the field-less variants `names`: a name, or an object of one member whose key is
the name and whose value is `null`. -/
def unitVariant (names : List String) : Reader Nat := do
  skipWs
  if (← source) = .text then
    match ← peek with
    | some 34 => variantName names
    | some 123 => nested do
        bump
        let i ← variantName names
        colon
        unitValue
        skipWs
        match ← peek with
        | some 125 => do bump; pure i
        | some _ => fail "expected value"
        | none => fail "EOF while parsing an object"
    | some _ => failAhead "expected value"
    | none => failAhead "EOF while parsing a value"
  else
    match ← peek with
    | some 34 => variantName names
    | _ =>
      match ← anyValue with
      | .obj [(k, inner)] =>
        match indexOf? names k with
        | none => failBare (unknownVariant k names)
        | some i =>
          match inner with
          | .null => pure i
          | v => failBare (invalidTypeMessage (describe v) "unit")
      | .obj _ => failBare "invalid value: map, expected map with a single key"
      | v => failBare (invalidTypeMessage (describe v) "string or map")

end Reader

/-- Whether a record field must be present. -/
inductive Presence where
  /-- Absent is a fault. -/
  | required
  /-- Absent from an object means `none`; an array must still give it. -/
  | optional
  /-- Absent means its default, in an object or at the end of an array. -/
  | defaulted
  deriving DecidableEq, Repr

/-- One field of a record: its name (and other accepted names), its presence, and how to read its
value into the record being built. -/
structure RecordField (α : Type) where
  name : String
  aliases : List String := []
  presence : Presence
  read : α → Reader α

/-- How a record reads: its name in messages, its fields in declaration order, and the value it
starts from, holding every default. -/
structure RecordFormat (α : Type) where
  expecting : String
  fields : List (RecordField α)
  init : α

namespace RecordFormat

variable {α : Type}

def lookup (fmt : RecordFormat α) (k : String) : Option (Nat × RecordField α) :=
  let rec go : Nat → List (RecordField α) → Option (Nat × RecordField α)
    | _, [] => none
    | i, f :: rest => if f.name = k ∨ k ∈ f.aliases then some (i, f) else go (i + 1) rest
  go 0 fmt.fields

def missing? (fmt : RecordFormat α) (seen : List Nat) : Option String :=
  let rec go : Nat → List (RecordField α) → Option String
    | _, [] => none
    | i, f :: rest => if f.presence = .required ∧ i ∉ seen then some f.name else go (i + 1) rest
  go 0 fmt.fields

def withCount (fmt : RecordFormat α) : String :=
  let n := fmt.fields.length
  fmt.expecting ++ " with " ++ toString n ++ (if n = 1 then " element" else " elements")

end RecordFormat

namespace Reader

variable {α : Type}

def checkMissing (fmt : RecordFormat α) (seen : List Nat) : Reader Unit :=
  match fmt.missing? seen with
  | some name => failBare ("missing field `" ++ name ++ "`")
  | none => pure ()

def recordMembers (fmt : RecordFormat α) : Nat → Bool → List Nat → α → Reader (α × List Nat)
  | 0, _, seen, a => pure (a, seen)
  | fuel + 1, first, seen, a => do
    match ← nextKey first with
    | none => pure (a, seen)
    | some k =>
      match fmt.lookup k with
      | some (i, f) =>
        if i ∈ seen then failBare ("duplicate field `" ++ f.name ++ "`")
        else do
          colon
          let a ← f.read a
          recordMembers fmt fuel false (i :: seen) a
      | none => do
        colon
        skipValue
        recordMembers fmt fuel false seen a

/-- The items of a record array, field by field; returns the record and how many items were read. -/
def recordItems (fmt : RecordFormat α) : Nat → List (RecordField α) → Bool → Nat → α → Reader (α × Nat)
  | _, [], _, read, a => pure (a, read)
  | i, f :: rest, first, read, a => do
    if ← nextItem first then
      let a ← f.read a
      recordItems fmt (i + 1) rest false (read + 1) a
    else if f.presence = .defaulted then recordItems fmt (i + 1) rest first read a
    else failBare ("invalid length " ++ toString i ++ ", expected " ++ fmt.withCount)

def countRest : Nat → Bool → Nat → Reader Nat
  | 0, _, n => pure n
  | fuel + 1, first, n => do
    if ← nextItem first then do skipValue; countRest fuel false (n + 1)
    else do bump; pure n

/-- Ends a record array after `read` items: given text must close it; a request value or buffered
members may hold more items, which is a length fault. -/
def closeRecordArray (read : Nat) : Reader Unit := do
  match ← source with
  | .text => closeArray
  | src =>
    let extra ← countRest ((← get).rest.length + 1) (read = 0) 0
    if extra = 0 then pure ()
    else if src = .value then
      failBare ("invalid length " ++ toString (read + extra) ++ ", expected fewer elements in array")
    else
      failBare ("invalid length " ++ toString (read + extra) ++ ", expected " ++ toString read ++
        (if read = 1 then " element in sequence" else " elements in sequence"))

def record (fmt : RecordFormat α) : Reader α := placeFaults do
  skipWs
  match ← peek with
  | none => failAhead "EOF while parsing a value"
  | some 123 => nested do
      bump
      let fuel := (← get).rest.length + 1
      thenClose
        (do
          let (a, seen) ← recordMembers fmt fuel true [] fmt.init
          checkMissing fmt seen
          pure a)
        closeObject
  | some 91 => nested do
      bump
      let r ← attempt (recordItems fmt 0 fmt.fields true 0 fmt.init)
      match r with
      | .ok (a, read) => do closeRecordArray read; pure a
      | .error e => do let _ ← attempt closeArray; throw e
  | some _ => invalidType fmt.expecting

def flatMembers (fmt : RecordFormat α) :
    Nat → Bool → List Nat → List (String × Json) → α → Reader (α × List Nat × List (String × Json))
  | 0, _, seen, held, a => pure (a, seen, held.reverse)
  | fuel + 1, first, seen, held, a => do
    match ← nextKey first with
    | none => pure (a, seen, held.reverse)
    | some k =>
      match fmt.lookup k with
      | some (i, f) =>
        if i ∈ seen then failBare ("duplicate field `" ++ f.name ++ "`")
        else do
          colon
          let a ← f.read a
          flatMembers fmt fuel false (i :: seen) held a
      | none => do
        colon
        let v ← anyValue
        flatMembers fmt fuel false seen ((k, v) :: held) a

/-- Runs `r` over the canonical text of held-back members; its faults lose their place. -/
def buffered {β : Type} (r : Reader β) (v : Json) : Reader β :=
  match r.runOn (bytesOf (compact v)) .buffered with
  | .ok b => pure b
  | .error f => failBare f.message

/-- Reads a record that holds back unknown members and completes itself from them. Only an object
is accepted. -/
def flatRecord (fmt : RecordFormat α) (complete : α → List (String × Json) → Reader α) :
    Reader α := placeFaults do
  skipWs
  match ← peek with
  | none => failAhead "EOF while parsing a value"
  | some 123 => nested do
      bump
      let fuel := (← get).rest.length + 1
      thenClose
        (do
          let (a, seen, held) ← flatMembers fmt fuel true [] [] fmt.init
          checkMissing fmt seen
          complete a held)
        closeObject
  | some _ => invalidType fmt.expecting

end Reader

/-- The variant a held-back value names: a name among `names`, or a position below their count. -/
def variantOf (names : List String) : Json → Except String Nat
  | .str s =>
    match indexOf? names s with
    | some i => .ok i
    | none => .error (unknownVariant s names)
  | .num (.nat n) =>
    if n < names.length then .ok n
    else .error ("invalid value: integer `" ++ toString n ++
      "`, expected variant index 0 <= i < " ++ toString names.length)
  | v => .error (invalidTypeMessage (describe v) "variant identifier")

/-- Splits held-back members into the variant named by the member `tag` and the other members, in
order. The tag is checked where it stands; a second tag is a duplicate. -/
def selectVariant (tag : String) (names : List String) (held : List (String × Json)) :
    Except String (Nat × List (String × Json)) :=
  let rec go : List (String × Json) → Option Nat → List (String × Json) →
      Except String (Nat × List (String × Json))
    | [], none, _ => .error ("missing field `" ++ tag ++ "`")
    | [], some i, rest => .ok (i, rest.reverse)
    | (k, v) :: more, found, rest =>
      if k = tag then
        match found with
        | some _ => .error ("duplicate field `" ++ tag ++ "`")
        | none =>
          match variantOf names v with
          | .ok i => go more (some i) rest
          | .error m => .error m
      else go more found ((k, v) :: rest)
  go held none []

end Json

end RunJournal
