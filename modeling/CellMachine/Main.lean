import CellMachine.CommandLine.Session

/-!
# The program

Reads the one file a command needs, lets `Command.report` do the work, writes the file it asks for
and prints what it reports.
-/

namespace CellMachine

open CommandLine

/-- The number of an error of the operating system; some calls report it with its sign changed. -/
def errorNumber (code : UInt32) : UInt32 := if code < 0x80000000 then code else 0 - code

/-- A file error of the operating system as one of ours. -/
def ioErrorOf : IO.Error → IoError
  | .inappropriateType _ code _ => if errorNumber code = 20 then .notADirectory else .isADirectory
  | .invalidArgument _ code _ => if errorNumber code = 36 then .nameTooLong else .noSuchFile
  | _ => .noSuchFile

/-- The bytes of a file. -/
def readFile (path : String) : IO (Except IoError (List UInt8)) := do
  if Path.hasNul path then return .error .nulInPath
  try
    let bytes ← IO.FS.readBinFile path
    pure (.ok bytes.toList)
  catch e => pure (.error (ioErrorOf e))

/-- Writes a file. -/
def writeFile (path : String) (bytes : List UInt8) : IO (Except IoError Unit) := do
  if Path.hasNul path then return .error .nulInPath
  try
    IO.FS.writeBinFile path bytes.toByteArray
    pure (.ok ())
  catch e => pure (.error (ioErrorOf e))

/-- Carries out a command; its exit code. -/
def carryOut (c : Command) : IO UInt32 := do
  let input ← match c.input? with
    | some path => readFile path
    | none => pure (.error .noSuchFile)
  let r := c.report (fun _ => input) (1 <<< 40)
  let r ← match r.output with
    | some (path, bytes) => do pure (r.afterWriting (← writeFile path bytes))
    | none => pure r
  IO.print r.stdout
  match r.result with
  | .ok _ => pure ()
  | .error e => IO.eprint (errorLine e)
  pure (UInt32.ofNat r.exitCode)

end CellMachine

/-- The command line program. -/
def main (args : List String) : IO UInt32 := do
  match CellMachine.CommandLine.Command.parse? args with
  | some c => CellMachine.carryOut c
  | none =>
    IO.eprintln "Usage: run FILE [OPTIONS] | inspect FILE | demo FILE | --version"
    pure (UInt32.ofNat CellMachine.CommandLine.usageCode)
