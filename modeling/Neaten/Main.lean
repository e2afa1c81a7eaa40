import Neaten.Command.Reach
import Neaten.CommandLine.Request

/-! # The program

    Looks at the disk as far as a command needs it, runs the command on what
    was seen, and carries out the changes.  A server is announced and stays
    until the input of the program ends; requests reach it through whatever
    hands them to its answering function. -/

namespace Neaten.Program

/-- What stands at a location of the disk is added to what was seen. -/
def look (seen : FileSystem) (l : Location) : IO FileSystem := do
  let path := (← IO.currentDir) / String.ofList l.path
  if ← path.isDir then return seen.put l .directory
  else if ← path.pathExists then return seen.put l (.file (← IO.FS.readBinFile path).toList)
  else return seen

/-- What stands at some locations of the disk is added to what was seen. -/
def lookAll (seen : FileSystem) (ls : List Location) : IO FileSystem :=
  ls.eraseDups.foldlM look seen

/-- Carries out a change at a location of the disk. -/
def change (l : Location) (e : Entry) : IO Unit := do
  let path := (← IO.currentDir) / String.ofList l.path
  match e with
  | .directory => IO.FS.createDir path
  | .file data => IO.FS.writeBinFile path ⟨data.toArray⟩

/-- Carries out what was put into the files since they were seen. -/
def changeAll (seen after : FileSystem) : IO Unit :=
  (after.entries.take (after.entries.length - seen.entries.length)).reverse.forM
    fun (l, e) => change l e

/-- Prints a failure and gives the exit code. -/
def fail (f : Failure) : IO UInt32 := do
  IO.eprint (String.ofList ("Error: " ++ f.message ++ ['\n']))
  return 1

/-- Runs a command that looks at some locations. -/
def run (reach : FileSystem → List Location) (command : FileSystem → Command.Outcome) :
    IO UInt32 := do
  let first ← lookAll .empty (reach .empty)
  -- Only now is it known which paths are saved at.
  let seen ← lookAll first (reach first)
  let outcome := command seen
  changeAll seen outcome.files
  IO.print (String.ofList outcome.printed)
  match outcome.failure with
  | none => return 0
  | some f => fail f

/-- Waits for the end of the input. -/
partial def waitForEnd : IO Unit := do
  unless (← (← IO.getStdin).getLine).isEmpty do waitForEnd

/-- Announces a server and stays. -/
def serve (place : Place) (request : Command.ServeRequest) : IO UInt32 := do
  let first ← lookAll .empty (Command.configReach place)
  let seen ← lookAll first (Command.directoryReach place first)
  match request.prepare place seen fun _ _ => true with
  | .error f => fail f
  | .ok (s, port) =>
    IO.print (String.ofList (Command.announcement s (Text.decimal port.toNat)))
    waitForEnd
    IO.println "\nServer shutdown complete."
    return 0

/-- The place that the program runs in. -/
def place : IO Place := do
  let cwd := FileSystem.steps (← IO.currentDir).toString.toList
  let home := ((← IO.getEnv "HOME").getD "").toList
  return { cwd, home, settings := (← IO.getEnv "XDG_CONFIG_HOME").map String.toList }

/-- What is printed when help is asked for. -/
def usage : String := "Usage: codetidy [-v] <format|readme|serve> [OPTIONS] [INPUT]"

end Neaten.Program

open Neaten Neaten.Program in
/-- The program. -/
def main (words : List String) : IO UInt32 := do
  let place ← place
  match CommandLine.read (words.map String.toList) with
  | .error .help => IO.println usage; return 0
  | .error (.version command) =>
    IO.print (String.ofList (CommandLine.versionMessage command)); return 0
  | .error _ => IO.eprintln usage; return 2
  | .ok (.format request) => run (request.reach place) (Command.format place request)
  | .ok (.readme request) => run (request.reach place) (Command.readme place request)
  | .ok (.serve request) => serve place request
