/-
Module: ClassFactory.Main
Purpose: The command. All files it may need are read first; everything after that is pure.
Main exports: main
-/
import ClassFactory.Report

namespace ClassFactory

/-- Reads a file, or says why it cannot be read. -/
def readPath (path : String) : IO (String × Except String String) := do
  try
    return (path, .ok (← IO.FS.readFile path))
  catch error =>
    return (path, .error (toString error))

/-- Reads every file that a command may need. -/
def readAll (command : Except UsageError Command) : IO (List (String × Except String String)) :=
  match command with
  | .ok (.check request) => request.paths.mapM readPath
  | _ => return []

/-- A reader that knows the files read before. -/
def readerOf (readings : List (String × Except String String)) : FileReader := fun path =>
  (readings.lookup path).getD (.error "not read")

end ClassFactory

open ClassFactory in
/-- Runs the command on its arguments. -/
def main (arguments : List String) : IO UInt32 := do
  let readings ← readAll (Command.ofArguments arguments)
  let outcome := runArguments (readerOf readings) arguments
  IO.print outcome.output
  IO.eprint outcome.messages
  return UInt32.ofNat outcome.exitCode
