import CellMachine.Peripheral.Registry
import CellMachine.Processor

/-!
# Firmware

The peripherals of a machine, numbered in the order they were installed. Scripts call a function by
the numbers of its peripheral and of the function in it; `resolve?` finds them by name, once, when a
script is linked.
-/

namespace CellMachine

/-- What sort of thing a peripheral is. -/
inductive PeripheralKind where
  | console
  | probe
  | gate
  | table
  deriving DecidableEq, Repr

namespace PeripheralKind

/-- All sorts of peripherals. -/
def all : List PeripheralKind := [console, probe, gate, table]

/-- The name of a sort. -/
def name : PeripheralKind → String
  | console => "console"
  | probe => "host"
  | gate => "gate"
  | table => "table"

/-- The sort of a name, if any. -/
def ofName? (s : String) : Option PeripheralKind := all.find? fun kind => kind.name == s

end PeripheralKind

/-- A named component of the host and the functions it offers, in the order it registers them. -/
structure Peripheral where
  name : String
  kind : PeripheralKind
  functions : List (String × HostFunction)

/-- A peripheral in its place. -/
structure Installed where
  name : String
  kind : PeripheralKind
  registry : Registry

/-- The peripherals of a machine. -/
structure Firmware where
  installed : List Installed := []

namespace Firmware

/-- The most peripherals a function id can tell apart. -/
def maxPeripherals : Nat := 65536

/-- Installs a peripheral; its number. A name can be used once. -/
def install (f : Firmware) (p : Peripheral) : Except Fault (Nat × Firmware) :=
  if f.installed.any fun i => i.name = p.name then
    .error (.error (.misuse (.peripheralInstalled p.name)))
  else if maxPeripherals ≤ f.installed.length then .error (.error (.misuse .tooManyPeripherals))
  else
    match ({} : Registry).registerAll p.functions with
    | .ok registry => .ok (f.installed.length, ⟨f.installed ++ [⟨p.name, p.kind, registry⟩]⟩)
    | .error e => .error e

/-- Installs peripherals in order; those that are refused are left out. -/
def ofPeripherals (ps : List Peripheral) : Firmware :=
  ps.foldl (fun f p => match f.install p with
    | .ok (_, f) => f
    | .error _ => f) {}

/-- The names of the peripherals in order. -/
def names (f : Firmware) : List String := f.installed.map Installed.name

/-- The sort of the peripheral of a name. -/
def kind? (f : Firmware) (name : String) : Option PeripheralKind :=
  (f.installed.find? fun i => i.name = name).map Installed.kind

/-- The id of a function by the names of its peripheral and its own; none when a number does not
fit its half of the id. -/
def resolve? (f : Firmware) (peripheral function : String) : Option FunctionId := do
  let index ← f.installed.findIdx? fun i => i.name = peripheral
  let i ← f.installed[index]?
  let id ← i.registry.resolve? function
  if index < 65536 ∧ id < 65536 then some (.make (UInt16.ofNat index) (UInt16.ofNat id)) else none

/-- The function of an id. -/
def function? (f : Firmware) (id : FunctionId) : Option HostFunction := do
  let i ← f.installed[id.peripheral]?
  i.registry.function? id.function

/-- Withdraws all functions. The peripherals stay. -/
def dispose (f : Firmware) : Firmware :=
  ⟨f.installed.map fun i => { i with registry := i.registry.clear }⟩

end Firmware

end CellMachine
