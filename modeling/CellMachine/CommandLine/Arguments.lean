import CellMachine.Config
import CellMachine.Text.Numeral

/-!
# Command line arguments

`run`, `inspect` and `demo` take one file each; `run` also takes options, before or after the file,
each at most once and with its value in the same argument after an equals sign or in the next one.
After two dashes everything is a file. Anything else is refused.
-/

namespace CellMachine.CommandLine

/-- How `run` is to build the machine and what it prints. -/
structure RunOptions where
  file : String
  config : Config
  storageRoot : Option String
  dumpRegisters : Bool
  deriving Repr

/-- What the program is asked to do. -/
inductive Command where
  | version
  | run (options : RunOptions)
  | inspect (file : String)
  | demo (file : String)
  deriving Repr

/-- What has been read of the arguments of a command. -/
structure Draft where
  file : Option String := none
  poolSize : Option Nat := none
  heapCells : Option Nat := none
  stackCells : Option Nat := none
  registers : Option Nat := none
  watchdogMs : Option Nat := none
  hostAllocator : Bool := false
  storageRoot : Option String := none
  dumpRegisters : Bool := false

/-- A 64 bit natural number. -/
def size? (s : String) : Option Nat :=
  match Text.natural? s with
  | some n => if n < 0x10000000000000000 then some n else none
  | none => none

/-- Fills an empty place; a full one refuses. -/
def fill {α : Type} (place : Option α) (value : Option α) : Option (Option α) :=
  match place, value with
  | none, some v => some (some v)
  | _, _ => none

/-- A path that is not empty. -/
def path? (s : String) : Option String := if s = "" then none else some s

/-- Whether an option of `run` takes a value. -/
def takesValue (name : String) : Bool :=
  ["pool-size", "heap-cells", "stack-cells", "registers", "watchdog-ms",
    "storage-root"].contains name

/-- The draft with an option that takes a value. -/
def Draft.setValue (d : Draft) (name value : String) : Option Draft :=
  match name with
  | "pool-size" => (fill d.poolSize (size? value)).map fun v => { d with poolSize := v }
  | "heap-cells" => (fill d.heapCells (size? value)).map fun v => { d with heapCells := v }
  | "stack-cells" => (fill d.stackCells (size? value)).map fun v => { d with stackCells := v }
  | "registers" => (fill d.registers (size? value)).map fun v => { d with registers := v }
  | "watchdog-ms" => (fill d.watchdogMs (size? value)).map fun v => { d with watchdogMs := v }
  | "storage-root" => (fill d.storageRoot (path? value)).map fun v => { d with storageRoot := v }
  | _ => none

/-- The draft with an option that takes no value. -/
def Draft.setFlag (d : Draft) (name : String) : Option Draft :=
  match name with
  | "host-allocator" => if d.hostAllocator then none else some { d with hostAllocator := true }
  | "dump-registers" => if d.dumpRegisters then none else some { d with dumpRegisters := true }
  | _ => none

/-- The draft with its file. -/
def Draft.setFile (d : Draft) (file : String) : Option Draft :=
  (fill d.file (path? file)).map fun v => { d with file := v }

/-- Whether an argument looks like an option: a dash with something after it. -/
def isOption (arg : String) : Bool :=
  match arg.toList with
  | '-' :: _ :: _ => true
  | _ => false

/-- The name of a long option and the value given with it, if any. -/
def splitOption (arg : String) : String × Option String :=
  let body := arg.toList.drop 2
  let name := String.ofList (body.takeWhile (· ≠ '='))
  match body.dropWhile (· ≠ '=') with
  | [] => (name, none)
  | _ :: value => (name, some (String.ofList value))

/-- Reads the arguments of a command; `literal` after two dashes. -/
def Draft.read (options : Bool) : Draft → (literal : Bool) → List String → Option Draft
  | d, _, [] => some d
  | d, true, arg :: rest => do Draft.read options (← d.setFile arg) true rest
  | d, false, arg :: rest =>
    if !isOption arg then do Draft.read options (← d.setFile arg) false rest
    else if arg = "--" then Draft.read options d true rest
    else if !options || (arg.toList.take 2 ≠ ['-', '-']) then none
    else
      match splitOption arg with
      | (name, some value) => do Draft.read options (← d.setValue name value) false rest
      | (name, none) =>
        if takesValue name then
          match rest with
          | [] => none
          | value :: rest =>
            if isOption value then none
            else do Draft.read options (← d.setValue name value) false rest
        else do Draft.read options (← d.setFlag name) false rest

/-- The configuration of a draft, with the usual sizes where it says nothing. -/
def Draft.config (d : Draft) : Config :=
  let usual : Config := {}
  { poolSize := d.poolSize.getD usual.poolSize
    heapCells := d.heapCells.getD usual.heapCells
    stackCells := d.stackCells.getD usual.stackCells
    registerCount := d.registers.getD usual.registerCount
    watchdogMs := d.watchdogMs.getD usual.watchdogMs
    hostAllocator := d.hostAllocator }

/-- Whether an argument asks for the version: its long name, or one dash and its letter, whatever
other letters follow. -/
def asksVersion (arg : String) : Bool :=
  arg = "--version" || arg.toList.take 2 = ['-', 'V']

/-- The command of a name with its arguments, if they are in order. -/
def Command.ofName? : (name : String) → (args : List String) → Option Command
  | "run", args => do
    let d ← Draft.read true {} false args
    let file ← d.file
    some (.run ⟨file, d.config, d.storageRoot, d.dumpRegisters⟩)
  | "inspect", args => do
    let d ← Draft.read false {} false args
    let file ← d.file
    some (.inspect file)
  | "demo", args => do
    let d ← Draft.read false {} false args
    let file ← d.file
    some (.demo file)
  | _, _ => none

/-- The command that arguments stand for, if they are in order. -/
def Command.parse? : List String → Option Command
  | [] => none
  | first :: args => if asksVersion first then some .version else Command.ofName? first args

end CellMachine.CommandLine
