import RunJournal.Disk.IoError
import RunJournal.Disk.Path
/-!
# A file system

A file system as a map from absolute paths (lists of names below the root) to what they hold: a
file with its bytes and permission bits, or a directory with its bits. The root always exists.
Entries keep the order they were made in, which is the order a directory lists them.

Calls resolve a path component by component from the root or from a working directory: every
component before the last must name an existing directory (else the call fails with "not found"
or "not a directory"), `..` steps up, and a name longer than 255 bytes is refused.

The calls are those of the owner of every entry, running without privileges: reading a file needs
its owner read bit, writing one its owner write bit, and making, removing or replacing an entry
needs the owner write and search bits of its directory; otherwise the call is refused with
"permission denied". Changing bits is always allowed. The search bits of the directories a path
passes through are not checked.

New directories get `755`, new files `644`, files written through a temporary file `600`.
-/

namespace RunJournal

/-- What a path holds. -/
inductive Entry where
  | file (bytes : List UInt8) (mode : Nat)
  | dir (mode : Nat)
  deriving DecidableEq, Repr, Inhabited

def Entry.mode : Entry → Nat
  | .file _ m => m
  | .dir m => m

def Entry.isDir : Entry → Bool
  | .dir _ => true
  | .file .. => false

/-- A file system. -/
structure Disk where
  entries : List (List String × Entry)
  deriving Repr, Inhabited

namespace Disk

def empty : Disk := ⟨[]⟩

def dirMode : Nat := 0o755

def fileMode : Nat := 0o644

/-- The bits of a file written through a temporary file. -/
def privateMode : Nat := 0o600

def canRead (m : Nat) : Bool := m.testBit 8

def canWrite (m : Nat) : Bool := m.testBit 7

/-- The owner may make, remove and rename entries of a directory with the bits `m`. -/
def canChange (m : Nat) : Bool := m.testBit 7 && m.testBit 6

def get? (d : Disk) (p : List String) : Option Entry :=
  if p.isEmpty then some (.dir dirMode) else (d.entries.find? (·.1 == p)).map (·.2)

/-- Sets what `p` holds, in place when it exists. -/
def put (d : Disk) (p : List String) (e : Entry) : Disk :=
  if d.entries.any (·.1 == p) then ⟨d.entries.map fun (q, f) => if q == p then (q, e) else (q, f)⟩
  else ⟨d.entries ++ [(p, e)]⟩

def erase (d : Disk) (p : List String) : Disk := ⟨d.entries.filter (·.1 != p)⟩

/-- The names directly below `p`, in the order they were made. -/
def children (d : Disk) (p : List String) : List String :=
  d.entries.filterMap fun (q, _) =>
    if q.length = p.length + 1 ∧ q.take p.length = p then q.getLast? else none

/-- Walks components from `acc`: each step into a name that more components follow must land on
a directory. -/
def walk (d : Disk) : List String → List Path.Component → Except IoError (List String)
  | acc, [] => .ok acc
  | acc, c :: rest =>
    match c with
    | .root => walk d [] rest
    | .current => walk d acc rest
    | .parent => walk d acc.dropLast rest
    | .normal n =>
      if n.utf8ByteSize > 255 then .error .nameTooLong
      else
        let next := acc ++ [n]
        if rest.isEmpty then .ok next
        else match d.get? next with
          | some (.dir _) => walk d next rest
          | some (.file ..) => .error .notADirectory
          | none => .error .notFound

def locate (d : Disk) (cwd : List String) (path : String) : Except IoError (List String) :=
  walk d (if Path.isAbsolute path then [] else cwd) (Path.components path)

def metadata (d : Disk) (cwd : List String) (path : String) : Except IoError Entry := do
  let p ← d.locate cwd path
  match d.get? p with
  | some e => pure e
  | none => throw .notFound

def exists_ (d : Disk) (cwd : List String) (path : String) : Bool :=
  (d.metadata cwd path).toBool

def isDirAt (d : Disk) (cwd : List String) (path : String) : Bool :=
  match d.metadata cwd path with
  | .ok e => e.isDir
  | .error _ => false

def read (d : Disk) (cwd : List String) (path : String) : Except IoError (List UInt8) := do
  match ← d.metadata cwd path with
  | .file bytes m => if canRead m then pure bytes else throw .permissionDenied
  | .dir _ => throw .isADirectory

def mkdir (d : Disk) (cwd : List String) (path : String) : Except IoError Disk := do
  let p ← d.locate cwd path
  if p.isEmpty then throw .alreadyExists
  match d.get? p with
  | some _ => throw .alreadyExists
  | none =>
    match d.get? p.dropLast with
    | some (.dir m) => if canChange m then pure (d.put p (.dir dirMode)) else throw .permissionDenied
    | some (.file ..) => throw .notADirectory
    | none => throw .notFound

/-- Makes a directory and its missing parents; an existing directory is fine. -/
def createDirAll (d : Disk) (cwd : List String) (path : String) : Except IoError Disk :=
  go ((Path.components path).length + 1) path
where
  go : Nat → String → Except IoError Disk
    | 0, _ => .error .notFound
    | fuel + 1, p =>
      if p.isEmpty then .ok d
      else
        match d.mkdir cwd p with
        | .ok d' => .ok d'
        | .error .notFound =>
          match Path.parent p with
          | none => .error .notFound
          | some up => do
            let d' ← go fuel up
            match d'.mkdir cwd p with
            | .ok d'' => .ok d''
            | .error e => if d'.isDirAt cwd p then .ok d' else .error e
        | .error e => if d.isDirAt cwd p then .ok d else .error e

/-- Opens `path` for writing, making an empty file when nothing is there: the absolute path and
the current bytes and bits. -/
def openWrite (d : Disk) (cwd : List String) (path : String) (create : Bool) :
    Except IoError (List String × List UInt8 × Nat) := do
  let p ← d.locate cwd path
  match d.get? p with
  | some (.file bytes mode) => if canWrite mode then pure (p, bytes, mode) else throw .permissionDenied
  | some (.dir _) => throw .isADirectory
  | none =>
    if !create then throw .notFound
    match d.get? p.dropLast with
    | some (.dir m) => if canChange m then pure (p, [], fileMode) else throw .permissionDenied
    | some (.file ..) => throw .notADirectory
    | none => throw .notFound

/-- Appends bytes to the file at `path`, making it when missing. -/
def append (d : Disk) (cwd : List String) (path : String) (bytes : List UInt8) : Except IoError Disk := do
  let (p, old, mode) ← d.openWrite cwd path true
  pure (d.put p (.file (old ++ bytes) mode))

/-- Replaces the bytes of the file at `path`, making it when missing. -/
def write (d : Disk) (cwd : List String) (path : String) (bytes : List UInt8) : Except IoError Disk := do
  let (p, _, mode) ← d.openWrite cwd path true
  pure (d.put p (.file bytes mode))

/-- Cuts or pads with zeros the existing file at `path` to `len` bytes. -/
def setLen (d : Disk) (cwd : List String) (path : String) (len : Nat) : Except IoError Disk := do
  let (p, old, mode) ← d.openWrite cwd path false
  pure (d.put p (.file (old.take len ++ List.replicate (len - old.length) 0) mode))

/-- Writes a whole new file `name` in the directory `dir` through a temporary file moved over the
old one: the file gets private bits, and a directory in its place refuses the move. Making the
temporary file needs the directory's write and search bits. -/
def replace (d : Disk) (cwd : List String) (dir name : String) (bytes : List UInt8) :
    Except IoError Disk := do
  match ← d.metadata cwd dir with
  | .dir m => if canChange m then pure () else throw .permissionDenied
  | .file .. => throw .notADirectory
  let p ← d.locate cwd (Path.join dir name)
  match d.get? p with
  | some (.dir _) => throw .isADirectory
  | _ => pure (d.put p (.file bytes privateMode))

def readDir (d : Disk) (cwd : List String) (path : String) : Except IoError (List String) := do
  let p ← d.locate cwd path
  match d.get? p with
  | some (.dir m) => if canRead m then pure (d.children p) else throw .permissionDenied
  | some (.file ..) => throw .notADirectory
  | none => throw .notFound

def chmod (d : Disk) (cwd : List String) (path : String) (mode : Nat) : Except IoError Disk := do
  let p ← d.locate cwd path
  match d.get? p with
  | some (.file bytes _) => pure (d.put p (.file bytes mode))
  | some (.dir _) => pure (d.put p (.dir mode))
  | none => throw .notFound

def removeFile (d : Disk) (cwd : List String) (path : String) : Except IoError Disk := do
  let p ← d.locate cwd path
  match d.get? p with
  | some (.file ..) =>
    if (d.get? p.dropLast).all (canChange ·.mode) then pure (d.erase p) else throw .permissionDenied
  | some (.dir _) => throw .isADirectory
  | none => throw .notFound

def copy (d : Disk) (cwd : List String) (src dst : String) : Except IoError Disk := do
  match ← d.metadata cwd src with
  | .file bytes mode =>
    if !canRead mode then throw .permissionDenied
    let (p, _, _) ← d.openWrite cwd dst true
    pure (d.put p (.file bytes mode))
  | .dir _ => throw .neitherFileNorLink

end Disk

end RunJournal
