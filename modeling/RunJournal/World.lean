import RunJournal.Disk.Fs
import RunJournal.Time.Instant
/-!
# The world a ledger runs in

Everything outside the ledger's own logic that its calls see or change: the file system, the
working directory that relative paths start from, a clock, a source of fresh identifiers, what
each open store remembers about the logs it last wrote, and which of the coming writes fail. Stores
are numbered as they are opened, so a store opened later (a new process, say) starts with no memory.

Writes fail in two ways. The file system refuses what it cannot do (a missing parent, a directory
in the way), and the device fails the writes a fault schedule names, in the order they are made:
such a write changes nothing, except that an append may be torn, leaving only a prefix of its bytes
(or all of them, when only the flush after it failed). An empty schedule fails no write; so does
every world the ledger starts in.

The clock moves forward by one microsecond each time it is read, so instants taken one after the
other are distinct and ordered. Identifiers are version-4 UUID texts numbered in the order they
are handed out.
-/

namespace RunJournal

/-- The last known state of a run's log: its size in bytes and its last sequence number. -/
structure LogTail where
  bytes : Nat
  seq : Nat
  deriving DecidableEq, Repr, Inhabited

abbrev TailKey := Nat × String × String

/-- How a scheduled write fails. -/
inductive Fault where
  /-- The call fails before it changes anything. -/
  | fail
  /-- An append writes only its first `n` bytes, then the call fails. -/
  | tear (n : Nat)
  deriving DecidableEq, Repr

/-- The world a ledger runs in. -/
structure World where
  disk : Disk
  cwd : List String
  clock : Instant
  ids : Nat
  tails : List (TailKey × LogTail)
  /-- How many stores have been opened. -/
  stores : Nat
  /-- What happens to each coming fallible write, in order; `none` lets it through. -/
  faults : List (Option Fault) := []
  deriving Repr, Inhabited

abbrev WorldM := StateM World

abbrev WorldE (ε : Type) := ExceptT ε WorldM

namespace World

/-- A world with an empty disk, the given working directory (which is made) and clock. -/
def fresh (cwd : List String) (clock : Instant) : World :=
  let dirs := (List.range cwd.length).map fun i => (cwd.take (i + 1), Entry.dir Disk.dirMode)
  { disk := ⟨dirs⟩, cwd, clock, ids := 0, tails := [], stores := 0 }

end World

def now : WorldM Instant := do
  let w ← get
  set { w with clock := w.clock.addMicros 1 }
  pure w.clock

def hexLower (n width : Nat) : String :=
  let ds := Nat.toDigits 16 n
  String.ofList (List.replicate (width - ds.length) '0' ++ ds)

def freshUuid : WorldM String := do
  let w ← get
  set { w with ids := w.ids + 1 }
  pure ("00000000-0000-4000-8000-" ++ hexLower (w.ids + 1) 12)

/-- Opens a store: a fresh store number, under which nothing is remembered yet. -/
def openStore : WorldM Nat := do
  let w ← get
  set { w with stores := w.stores + 1 }
  pure w.stores

def rememberedTail (key : TailKey) : WorldM (Option LogTail) := do
  pure (((← get).tails.find? (·.1 == key)).map (·.2))

def rememberTail (key : TailKey) (tail : Option LogTail) : WorldM Unit :=
  modify fun w =>
    let others := w.tails.filter (·.1 != key)
    { w with tails := match tail with
      | some t => others ++ [(key, t)]
      | none => others }

def onDisk {α : Type} (f : Disk → List String → α) : WorldM α := do
  let w ← get
  pure (f w.disk w.cwd)

def nextFault : WorldM (Option Fault) := do
  let w ← get
  match w.faults with
  | [] => pure none
  | f :: rest =>
    set { w with faults := rest }
    pure f

/-- A fallible call that leaves nothing on disk by itself, such as making or flushing a file. -/
def ioCheck : WorldE IoError Unit := do
  if (← nextFault).isSome then throw .noSpace

def applyDisk (f : Disk → List String → Except IoError Disk) : WorldE IoError Unit := do
  let w ← get
  match f w.disk w.cwd with
  | .ok d => set { w with disk := d }
  | .error e => throw e

/-- Runs a file-system change, which a scheduled fault stops before it changes anything. -/
def changeDisk (f : Disk → List String → Except IoError Disk) : WorldE IoError Unit := do
  ioCheck
  applyDisk f

/-- Appends bytes to the file at `path`, making it when missing; a torn append leaves a prefix. -/
def appendFile (path : String) (bytes : List UInt8) : WorldE IoError Unit := do
  match ← nextFault with
  | none => applyDisk fun d cwd => d.append cwd path bytes
  | some .fail => throw .noSpace
  | some (.tear n) =>
    applyDisk fun d cwd => d.append cwd path (bytes.take n)
    throw .noSpace

/-- Lifts a world computation that fails with `ε` into one that fails with `ε'`. -/
def WorldE.mapError {ε ε' α : Type} (f : ε → ε') (m : WorldE ε α) : WorldE ε' α :=
  ExceptT.mk do
    match ← m.run with
    | .ok a => pure (.ok a)
    | .error e => pure (.error (f e))

end RunJournal
