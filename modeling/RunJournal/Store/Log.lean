import RunJournal.World
import RunJournal.Trace.Event
/-!
# Event logs

Each run keeps the events that made it in `events.jsonl` in its directory, one compact JSON
event per line, sequence numbers rising. Appending never changes what is there: a line is added
at the end, after a line break when the file does not end with one (so a torn last line stays on
its own line). Reading skips blank lines and lines that are not events, so a torn or foreign
line costs only itself.

The last sequence number is found from the end: the last line, within the final 64 KiB, that
reads as an event names it; only when no line there does, all events are read and the largest
number is taken.
-/

namespace RunJournal

def eventsFileName : String := "events.jsonl"

def tailWindow : Nat := 64 * 1024

def splitLines (bytes : List UInt8) : List (List UInt8) :=
  let (cur, acc) := bytes.foldl (fun (cur, acc) b =>
    if b = 10 then ([], cur.reverse :: acc) else (b :: cur, acc)) ([], [])
  (cur.reverse :: acc).reverse

/-- The lines of a text file as a line reader gives them: split at line feeds, a carriage return
before a line feed dropped, no line after a final line feed; none when the bytes are not UTF-8. -/
def textLines (bytes : List UInt8) : Option (List String) :=
  let pieces := splitLines bytes
  let lines := if pieces.getLast? = some [] then pieces.dropLast else pieces
  let count := lines.length
  let ended := fun (i : Nat) => i + 1 < count ∨ bytes.getLast? = some 10
  lines.zipIdx.mapM fun (l, i) =>
    let l := if ended i ∧ l.getLast? = some 13 then l.dropLast else l
    String.fromUTF8? ⟨l.toArray⟩

def isAsciiBlank (b : UInt8) : Bool := b = 9 || b = 10 || b = 12 || b = 13 || b = 32

def blankLine (s : String) : Bool := s.all Rfc3339.isBlank

/-- The events among the lines of a log from sequence number `fromSeq` on, skipping blank lines and
lines that are not events. -/
def eventsFrom (lines : List String) (fromSeq : Nat) : List Event :=
  lines.filterMap fun l =>
    if blankLine l then none
    else match Json.readText Read.event l with
      | .ok e => if e.seq ≥ fromSeq then some e else none
      | .error _ => none

def lastEventSeq? (pieces : List (List UInt8)) : Option Nat :=
  pieces.reverse.findSome? fun l =>
    if l.all isAsciiBlank then none
    else match Json.readBytes Read.event l with
      | .ok e => some e.seq
      | .error _ => none

/-- The last 64 KiB of a log split at line feeds; when that is not the whole log, the first piece,
which may start inside a line, is dropped. -/
def tailPieces (bytes : List UInt8) : List (List UInt8) :=
  let pieces := splitLines (bytes.reverse.take tailWindow).reverse
  if bytes.length > tailWindow then pieces.drop 1 else pieces

/-- The event log of the run in directory `dir`. -/
structure EventLog where
  dir : String
  deriving DecidableEq, Repr

namespace EventLog

def path (log : EventLog) : String := Path.join log.dir eventsFileName

def present (log : EventLog) : WorldM Bool := onDisk fun d cwd => d.exists_ cwd log.path

def lines (log : EventLog) : WorldE IoError (Option (List String)) := do
  if !(← log.present) then return none
  match ← ExceptT.lift (onDisk fun d cwd => d.read cwd log.path) with
  | .error e => throw e
  | .ok bytes =>
    match textLines bytes with
    | some ls => pure (some ls)
    | none => throw .invalidUtf8

def count (log : EventLog) : WorldE IoError Nat := do
  match ← log.lines with
  | none => pure 0
  | some ls => pure (ls.filter (!blankLine ·)).length

/-- The events from sequence number `fromSeq` on, skipping lines that are not events. -/
def readFrom (log : EventLog) (fromSeq : Nat) : WorldE IoError (List Event) := do
  match ← log.lines with
  | none => pure []
  | some ls => pure (eventsFrom ls fromSeq)

def readAll (log : EventLog) : WorldE IoError (List Event) := log.readFrom 1

def byteLen (log : EventLog) : WorldE IoError Nat := do
  match ← ExceptT.lift (onDisk fun d cwd => d.metadata cwd log.path) with
  | .ok (.file bytes _) => pure bytes.length
  | .ok (.dir _) => pure 4096
  | .error .notFound => pure 0
  | .error e => throw e

/-- The log's bytes, failing as opening and reading it does; none when it is missing. -/
def bytes? (log : EventLog) : WorldE IoError (Option (List UInt8)) := do
  match ← ExceptT.lift (onDisk fun d cwd => d.read cwd log.path) with
  | .ok b => pure (some b)
  | .error .notFound => pure none
  | .error e => throw e

def lastSeq (log : EventLog) : WorldE IoError Nat := do
  match ← log.bytes? with
  | none => pure 0
  | some bytes =>
    match lastEventSeq? (tailPieces bytes) with
    | some seq => pure seq
    | none =>
      if bytes.length > tailWindow then
        pure (((← log.readAll).map (·.seq)).foldl max 0)
      else pure 0

def tail (log : EventLog) : WorldE IoError LogTail := do
  pure { bytes := ← log.byteLen, seq := ← log.lastSeq }

def lastByte (log : EventLog) : WorldE IoError (Option UInt8) := do
  match ← log.bytes? with
  | none => pure none
  | some bytes => pure bytes.getLast?

/-- Adds bytes at the end of the log, making its directory when missing, and flushes it. -/
def write (log : EventLog) (bytes : List UInt8) : WorldE IoError Unit := do
  changeDisk fun d cwd => d.createDirAll cwd log.dir
  appendFile log.path bytes
  ioCheck

/-- Appends `e` with sequence number `seq`, making the directory when missing, and flushes the
log; gives the event as written. -/
def appendAt (log : EventLog) (e : Event) (seq : Nat) : WorldE IoError Event := do
  let e := { e with seq }
  let line := e.line ++ "\n"
  let line := if (← log.lastByte).any (· ≠ 10) then "\n" ++ line else line
  log.write line.toUTF8.toList
  pure e

/-- Appends `e` after the last event; the number after the largest 64-bit one is zero. -/
def append (log : EventLog) (e : Event) : WorldE IoError Event := do
  log.appendAt e (wordSucc (← log.lastSeq))

def truncate (log : EventLog) (len : Nat) : WorldE IoError Unit := do
  changeDisk fun d cwd => d.setLen cwd log.path len
  ioCheck

end EventLog

end RunJournal
