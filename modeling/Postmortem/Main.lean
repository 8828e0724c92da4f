import Postmortem.Rehearsal.Run

/-! # The rehearsal program

The command line of a rehearsal: a mode and a directory. The run itself is a function on the state
of a machine; this module fills that state from the directory, and afterwards shows the two streams
and writes the files that are new or have changed.
-/

namespace Postmortem.CommandLine

/-- What a system file says on its first line, if it can be read. -/
def firstLine (path : String) : IO (Option Bytes) :=
  try
    let content ← IO.FS.readFile path
    return (Bytes.lines (utf8 content)).head?
  catch _ => return none

/-- The process id, which is the first word of the status of the process. -/
def processId : IO Int := do
  match ← firstLine "/proc/self/stat" with
  | some line => return Decimal.value (line.takeWhile Bytes.isDigit)
  | none => return 0

/-- What the status file of the process says, if it can be read. -/
def statusFile : IO Tracer.Source :=
  try
    return [.ok (utf8 (← IO.FS.readFile "/proc/self/status"))]
  catch _ => return [.error .permissionDenied]

/-- The files of a directory with their content, if there is such a directory. -/
def filesIn (directory : String) : IO (Option (List (Bytes × Bytes))) :=
  try
    let mut files := []
    let place := (← IO.currentDir) / directory
    for entry in ← place.readDir do
      let content ← try
          let bytes ← IO.FS.readBinFile entry.path
          pure (some bytes.toList)
        catch _ => pure none
      match content with
      | some bytes => files := (utf8 entry.fileName, bytes) :: files
      | none => pure ()
    return some files
  catch _ => return none

/-- The letters and digits of the tails of temporary files. -/
def tailLetters : Array UInt8 :=
  (utf8 "ABCDEFGHIJKLMNOPQRSTUVWXYZabcdefghijklmnopqrstuvwxyz0123456789").toArray

/-- The tails of temporary files, by a number drawn at the start. -/
def tail (seed n : Nat) : Bytes :=
  (List.range 6).map fun place =>
    (tailLetters[(seed + 7919 * n) / Nat.pow tailLetters.size place % tailLetters.size]?).getD 65

/-- The place of an absolute path. -/
def placeOf (path : Bytes) : Place := (FileTree.components path).filter (· ≠ FileTree.here)

/-- The tree of files as far as a rehearsal has to do with it: the two programs that it runs, the
    working directory, and the directory for reports with what is in it. -/
def treeFor (working : Place) (directory : Option Bytes)
    (files : Option (List (Bytes × Bytes))) : FileTree :=
  let program (path : String) (p : Program) (tree : FileTree) :=
    tree.makeFile (placeOf (utf8 path)) [] (.program p)
  let tree := FileTree.empty.makeDirectories working
    |> program Rehearsal.shellPath Rehearsal.shell
    |> program Rehearsal.sleepPath Rehearsal.sleeper
  match directory, files with
  | some path, some files =>
    let place := FileTree.start working path ++ placeOf path
    files.foldl (fun tree (name, content) => tree.put (place ++ [name]) (.file content .forbidden))
      (tree.makeDirectories place)
  | _, _ => tree

/-- The machine at the start of a rehearsal. -/
def machineAtStart (working : Place) (files : FileTree) : IO Machine := do
  let seed ← IO.rand 0 UInt32.size
  return {
    files, working
    environment := ⟨[]⟩
    stdout := [], stderr := [], launches := []
    errno := ⟨0⟩
    pid := ← processId
    hostName := ← firstLine "/proc/sys/kernel/hostname"
    userSeconds := some 0
    clock := 0
    epochSeconds := 1
    executable := some Rehearsal.heading
    tails := tail seed
    tailsUsed := 0
    forkFailure := none
    dispositions := []
    calls := []
    circumstances := fun _ => ⟨0, 0⟩
    status := ← statusFile
    alarm := false
    children := 0
    fate := .running
    stack := []
    symbols := [] }

/-- A byte string as the system takes it. -/
def raw (bytes : Bytes) : ByteArray := ⟨bytes.toArray⟩

/-- Writes the files that differ from those at the start. -/
def writeChanges (before after : FileTree) : IO Unit := do
  for (place, entry) in after.entries do
    match entry with
    | .file content _ =>
      if before.entry? place ≠ some entry then
        IO.FS.writeBinFile (String.ofList (Utf8.decodeLossy (Machine.absolute place))) (raw content)
    | .directory | .foreign _ => pure ()

/-- The exit status that stands for the fate of a process. -/
def exitStatus : Fate → UInt32
  | .ended (.exited status) => .ofNat status
  | .ended (.killed signal) => .ofNat (128 + signal)
  | _ => 0

end Postmortem.CommandLine

open Postmortem CommandLine in
/-- Runs a rehearsal. -/
def main (args : List String) : IO UInt32 := do
  let working := placeOf (utf8 (toString (← IO.currentDir)))
  let directory := args[1]?
  let files ← match directory with
    | some path => filesIn path
    | none => pure none
  let tree := treeFor working (directory.map utf8) files
  let m ← machineAtStart working tree
  let (_, w) := (Rehearsal.run (args.map utf8)).run (World.start m)
  (← IO.getStdout).write (raw w.machine.stdout)
  (← IO.getStderr).write (raw w.machine.stderr)
  writeChanges tree w.machine.files
  return exitStatus w.machine.fate
