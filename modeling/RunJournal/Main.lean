import RunJournal.Cli.Run
import Std.Time.DateTime.Timestamp
/-!
# The `runledger` program

The program runs the ledger's command line over the file system it is started in. What the
command can see, the workspace root and every path named on the line, is read into a disk value
(a file the process cannot open for writing reads as read-only); the command runs over it with the
wall clock as the world's clock; and the changes are written back: new directories, new and
changed files, removed entries and changed permissions. Then the program prints what the command
printed and exits with its status.
-/

namespace RunJournal.Cli

def hostPath (p : String) := System.mkFilePath [p]

def hostText (p : List String) : String := "/" ++ "/".intercalate p

/-- The components of `path`, starting from `cwd` when it is relative, with `.` and `..`
resolved by name. -/
def absoluteComponents (cwd : List String) (path : String) : List String :=
  (Path.components path).foldl (fun acc c =>
    match c with
    | .root => []
    | .current => acc
    | .parent => acc.dropLast
    | .normal n => acc ++ [n]) (if Path.isAbsolute path then [] else cwd)

def writable (path : String) : IO Bool := do
  try
    let _ ← IO.FS.Handle.mk (hostPath path) .append
    pure true
  catch _ => pure false

/-- Adds the entry at `place` and, for a directory, everything below it. -/
partial def loadEntry (disk : Disk) (place : List String) : IO Disk := do
  let path := hostText place
  match ← ((hostPath path).metadata.toBaseIO) with
  | .error _ => pure disk
  | .ok m =>
    if m.type == .dir then
      let disk := if (disk.get? place).isSome then disk else disk.put place (.dir Disk.dirMode)
      let names := ((← (hostPath path).readDir).map (·.fileName)).toList
      names.foldlM (fun d n => loadEntry d (place ++ [n])) disk
    else if m.type == .file then
      let bytes ← IO.FS.readBinFile (hostPath path)
      let mode := if ← writable path then Disk.fileMode else 0o444
      pure (disk.put place (.file bytes.toList mode))
    else pure disk

def withAncestors (disk : Disk) (place : List String) : Disk :=
  (List.range place.length).foldl (fun d i =>
    let p := place.take i
    if p.isEmpty || (d.get? p).isSome then d else d.put p (.dir Disk.dirMode)) disk

def accessOf (mode : Nat) : IO.FileRight :=
  let bits := fun (shift : Nat) =>
    ({ read := (mode >>> (shift + 2)) % 2 == 1, write := (mode >>> (shift + 1)) % 2 == 1,
       execution := (mode >>> shift) % 2 == 1 } : IO.AccessRight)
  { user := bits 6, group := bits 3, other := bits 0 }

def applyChanges (before after : Disk) : IO Unit := do
  for (p, e) in after.entries do
    match e, before.get? p with
    | .dir _, some (.dir _) => pure ()
    | .dir _, _ => IO.FS.createDirAll (hostPath (hostText p))
    | .file bytes _, old =>
      let changed := match old with
        | some (.file was _) => was != bytes
        | _ => true
      if changed then
        if let some (.file _ mode) := old then
          if (mode >>> 7) % 2 == 0 then IO.setAccessRights (hostPath (hostText p)) (accessOf 0o644)
        IO.FS.writeBinFile (hostPath (hostText p)) ⟨bytes.toArray⟩
  for (p, e) in before.entries.reverse do
    if (after.get? p).isNone then
      match e with
      | .file .. => try IO.FS.removeFile (hostPath (hostText p)) catch _ => pure ()
      | .dir _ => try IO.FS.removeDir (hostPath (hostText p)) catch _ => pure ()
  for (p, e) in after.entries.reverse do
    let was := (before.get? p).map (·.mode)
    if was != some e.mode && (was.isSome || e.mode != (if e.isDir then Disk.dirMode else Disk.fileMode)) then
      try IO.setAccessRights (hostPath (hostText p)) (accessOf e.mode) catch _ => pure ()

def wallClock : IO Instant := do
  let ns := (← Std.Time.Timestamp.now).toNanosecondsSinceUnixEpoch.val
  let perDay : Int := 86400 * 1000000000
  let within := (ns % perDay).toNat
  pure { day := ns / perDay, second := within / 1000000000, nano := within % 1000000000 }

end RunJournal.Cli

open RunJournal RunJournal.Cli in
/-- Runs the ledger's command line on the host. -/
def main (args : List String) : IO UInt32 := do
  let names := ["RUNLEDGER_ROOT", "RUNLEDGER_LOG", "RUNLEDGER_LOG_FORMAT"]
  let vars ← names.mapM fun n => do pure (n, ← IO.getEnv n)
  let env : Env := fun n => ((vars.find? (·.1 == n)).map (·.2)).join
  let cwd := absoluteComponents [] (← IO.currentDir).toString
  let root := (args.zip (args.drop 1)).find? (·.1 == "--root") |>.map (·.2)
  let seen := absoluteComponents cwd ((root.orElse fun _ => env "RUNLEDGER_ROOT").getD ".")
    :: (args.filter (!·.startsWith "-")).map (absoluteComponents cwd)
  let disk ← seen.foldlM (fun d p => loadEntry (withAncestors d p) p) (Disk.mk [])
  let disk := withAncestors disk cwd
  let clock ← wallClock
  let world : World := { disk, cwd, clock, ids := clock.nano, tails := [], stores := 0 }
  let (out, after) := (runLine env args).run world
  applyChanges disk after.disk
  IO.print out.stdout
  IO.eprint out.stderr
  pure out.code.toUInt32
