import WidgetView.Command.Dump
import WidgetView.Command.Fuzz
import WidgetView.Command.Lint

/-!
# The command line

The first argument names a command, the others are its arguments. The files that they name are read
before the command runs, and what it changed is written after it.
-/
namespace WidgetView.Main

open WidgetView.Command

/-- Take in one file, if it can be read. -/
def loadFile (files : FileSystem) (path : Pathname) : IO FileSystem := do
  try
    let bytes ← IO.FS.readBinFile path.toString
    return files.place path bytes.toList
  catch _ => return files

/-- Take in a view file and the file that it names, if it names one. -/
def loadView (files : FileSystem) (path : Pathname) : IO FileSystem := do
  let files ← loadFile files path
  match Source.origin files path with
  | .ok origin => if origin = path then return files else loadFile files origin
  | .error _ => return files

/-- No files yet, in the working directory of the process. -/
def emptyFiles : IO FileSystem := do
  return { cwd := (Pathname.ofString (← IO.currentDir).toString).parts }

def load (args : List String) : IO FileSystem := do
  (args.map Pathname.ofString).foldlM loadView (← emptyFiles)

def Interruption.message : Interruption → String
  | .file e => e.message
  | .template e => e.message

/-- Run a job on files, write what it changed and print what it printed. -/
def perform {α : Type} (files : FileSystem) (job : Job α) : IO (Option α) := do
  let finish (c : Console) : IO Unit := do
    for (names, bytes) in FileSystem.changedFrom files c.files do
      IO.FS.writeBinFile (Pathname.mk "/" names).toString ⟨bytes.toArray⟩
    (← IO.getStdout).putStr c.out
    (← IO.getStderr).putStr c.err
  match job { files := files } with
  | .ok a c =>
    finish c
    return some a
  | .error e c =>
    finish c
    (← IO.getStderr).putStrLn (Interruption.message e)
    return none

/-- The exit status of a command that was interrupted. -/
def interrupted : UInt32 := 1

def exitStatus (status : Option Nat) : UInt32 := (status.map Nat.toUInt32).getD interrupted

def drawsOfSeed (seed : Int) : Fuzz.Draws :=
  { generator := some (seed % (Nat.pow 2 64 : Nat)).toNat }

/-- The findings of a category are numbered. -/
def writeFindings (findings : List Fuzz.Finding) : IO Unit := do
  IO.FS.createDirAll Fuzz.findingsDirectory
  for (f, n) in findings.zipIdx 1 do
    IO.FS.writeFile s!"{Fuzz.findingsDirectory}/{f.cause.category}_{n}.txt" f.text

/-- The clock begins at the present time and counts a millisecond a reading. -/
def startClock : IO Fuzz.Clock := do
  let now ← IO.monoMsNow
  return { now := Float.ofNat now / 1000.0, tick := 0.001 }

def runFuzz (args : List String) : IO UInt32 := do
  let result ← perform (← emptyFiles) (fuzz args (← startClock) drawsOfSeed)
  match result with
  | some (status, findings) =>
    writeFindings findings
    return exitStatus (some status)
  | none => return interrupted

end WidgetView.Main

open WidgetView.Main in
def main (args : List String) : IO UInt32 := do
  match args with
  | "lint" :: args => return exitStatus (← perform (← load args) (WidgetView.Command.lint args))
  | "dump" :: args => return exitStatus (← perform (← load args) (WidgetView.Command.dump args))
  | "fuzz" :: args => runFuzz args
  | _ =>
    (← IO.getStderr).putStrLn "usage: (lint | dump | fuzz) argument ..."
    return 2
