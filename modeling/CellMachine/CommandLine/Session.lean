import CellMachine.CommandLine.Arguments
import CellMachine.Host.Assembly
import CellMachine.Host.Schedule
import CellMachine.Storage.FileTree

/-!
# What the commands do

`run` loads an image, runs it to its end on a standard machine and may show the registers. `inspect`
lists an image. `demo` makes a small image that greets three times. A `Report` is what a command
printed, whether it succeeded, and the file it wants written.
-/

namespace CellMachine.CommandLine

open Text

/-- What became of a command. -/
structure Report where
  stdout : String := ""
  result : Except Error Unit := .ok ()
  /-- A file to write, by its path. -/
  output : Option (String × List UInt8) := none

/-- The exit code of a report. -/
def Report.exitCode (r : Report) : Nat :=
  match r.result with
  | .ok _ => 0
  | .error _ => 1

/-- What an error prints. -/
def errorLine (e : Error) : String := "Error: " ++ e.message ++ "\n"

/-- What the program says about itself. -/
def versionLine : String := "burrow 0.1.0\n"

/-- The exit code for arguments that make no sense. -/
def usageCode : Nat := 2

/-- The way a command reads files. -/
abbrev FileReader := String → Except IoError (List UInt8)

/-! ## run -/

/-- The most registers a dump shows. -/
def dumpLimit : Nat := 16

/-- One line of a register dump. -/
def dumpLine (r : Nat) (c : Cell) : String :=
  let register := "r" ++ padRight 3 (Nat.repr r) ++ " "
  match c.text? with
  | some s => register ++ quote s ++ "\n"
  | none =>
    register ++ padLeft 20 (Int.repr c.toInt64.toInt) ++ " 0x" ++ hex 16 c.bits.toNat ++ "\n"

/-- The registers of a process, line by line. -/
def dump (registers : List Cell) : String :=
  let lines := (registers.take dumpLimit).zipIdx.map fun (c, r) => dumpLine r c
  let more :=
    if registers.length > dumpLimit then
      "... " ++ Nat.repr (registers.length - dumpLimit) ++ " more\n"
    else ""
  String.join lines ++ more

/-- The root directory and the name that `run` loads its image by. -/
def source (o : RunOptions) : Except Error (String × String) :=
  match o.storageRoot with
  | some root => .ok (root, o.file)
  | none =>
    match Path.fileName? o.file with
    | some name => .ok (Path.parent o.file, name)
    | none => .error (.misuse .noFileName)

/-- Runs an image to its end: the register dump and the result. -/
def runImage (o : RunOptions) (read : FileReader) (fuel : Nat) :
    HostM (String × Except Error Unit) := do
  let stream ← Host.addStream false
  let (root, name) ← Host.accept (source o)
  let m ← Host.buildStandard { o.config with storageRoot := root } stream read
  let p ← Host.loadProcess m name
  let r ← Host.run p
  let outcome ← Host.attempt (Host.join r fuel)
  let q ← Host.process p
  let h ← get
  let registers := if o.dumpRegisters then dump (h.store.read q.segments.registers) else ""
  match outcome with
  | .error .crash => throw .crash
  | .error (.error e) => pure (registers, .error e)
  | .ok _ =>
    if q.control.state = .stopped then
      Host.disposeMachine m
      pure (registers, .ok ())
    else pure (registers, .error (.misuse (.processEnded q.control.state.name)))

/-- What the first stream of a host received. -/
def printed (h : Host) : String := (h.streams[0]?.map Stream.text).getD ""

/-- The report of `run`. -/
def runReport (o : RunOptions) (read : FileReader) (fuel : Nat) : Report :=
  match (runImage o read fuel).run {} with
  | .ok (registers, result) h => { stdout := printed h ++ registers, result }
  | .error (.error e) h => { stdout := printed h, result := .error e }
  | .error .crash h => { stdout := printed h, result := .error (.crashed "main") }

/-! ## inspect -/

/-- The lines of a table, numbered. -/
def numbered (lines : List String) : String :=
  String.join (lines.zipIdx.map fun (line, i) => "  " ++ zeroPadded 4 i ++ "  " ++ line ++ "\n")

/-- An image in full. -/
def listing (file : String) (image : Image) : String :=
  "== " ++ file ++ " ==\n"
    ++ "instructions: " ++ Nat.repr image.instructions.length ++ "\n"
    ++ numbered (image.instructions.map Instruction.text)
    ++ "globals: " ++ Nat.repr image.globals.length ++ "\n"
    ++ numbered (image.globals.map Global.describe)

/-- The report of `inspect`. -/
def inspectReport (file : String) (read : FileReader) : Report :=
  match read file with
  | .error e => { result := .error (.io e) }
  | .ok bytes =>
    match Image.decode bytes with
    | .error e => { result := .error e }
    | .ok image => { stdout := listing file image }

/-! ## demo -/

/-- An image that prints its only global three times through the function `print`. -/
def greeting (print : FunctionId) (greetingAddress : UInt32) : Image where
  instructions :=
    [.make .movl 0 0 0 greetingAddress.toInt32,
     .make .ldr 1 0 0 0,
     .make .movl 2 0 0 3,
     .make .movl 3 0 0 1,
     .make .callp 1 1 4 print.raw,
     .make .sub 2 2 3 0,
     .make .bnz 2 0 0 4,
     .make .halt 0 0 0 0]
  globals := [.text "hello from burrow"]

/-- The stream of the greeting, linked against the firmware of a standard machine. -/
def greetingBytes : Except Error (List UInt8) := do
  match (Host.standardFirmware 0).resolve? "console" "print" with
  | none => throw (.unknownFunction (-1))
  | some print =>
    let address ← Address.compose .global 0
    (greeting print address).encode .little

/-- The report of `demo`. -/
def demoReport (file : String) : Report :=
  match greetingBytes with
  | .ok bytes => { output := some (file, bytes) }
  | .error e => { result := .error e }

/-! ## All commands -/

/-- The file that a command reads, if it gets that far. -/
def Command.input? : Command → Option String
  | .run o =>
    match source o with
    | .ok (root, name) => some (Storage.resolve root name)
    | .error _ => none
  | .inspect file => some file
  | _ => none

/-- What a command comes to, before any file is written. -/
def Command.report (c : Command) (read : FileReader) (fuel : Nat) : Report :=
  match c with
  | .version => { stdout := versionLine }
  | .run o => runReport o read fuel
  | .inspect file => inspectReport file read
  | .demo file => demoReport file

/-- The report after the file it wanted was written, or not. -/
def Report.afterWriting (r : Report) : Except IoError Unit → Report
  | .ok _ => r
  | .error e => { r with result := .error (.io e) }

/-- A command on files in memory. -/
def Command.runIn (c : Command) (files : FileTree) (fuel : Nat) : Report × FileTree :=
  let r := c.report files.read fuel
  match r.output with
  | none => (r, files)
  | some (path, bytes) =>
    match files.write path bytes with
    | .ok files => (r.afterWriting (.ok ()), files)
    | .error e => (r.afterWriting (.error e), files)

end CellMachine.CommandLine
