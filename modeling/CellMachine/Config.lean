import CellMachine.Address
import CellMachine.Text.Quoted

/-!
# Machine configuration

The sizes and choices a standard machine is built with, and the conditions they have to meet.
-/

namespace CellMachine

open Text

/-- The sizes of the segments that do not depend on the image, in cells. -/
structure Layout where
  heapCells : Nat
  stackCells : Nat
  registerCount : Nat
  deriving DecidableEq, Repr

/-- How a standard machine is built. -/
structure Config where
  /-- Bytes of the pool that all segments share. -/
  poolSize : Nat := 1048576
  heapCells : Nat := 4096
  stackCells : Nat := 1024
  registerCount : Nat := 16
  /-- Milliseconds a run may take; zero for no limit. -/
  watchdogMs : Nat := 1000
  /-- Whether every segment gets a pool of its own. -/
  hostAllocator : Bool := false
  /-- The directory that images are loaded from. -/
  storageRoot : String := "."
  deriving DecidableEq, Repr, Inhabited

namespace Config

/-- The fewest bytes a pool can have. -/
def minimumPoolBytes : Nat := 24

/-- The first condition that a configuration violates. -/
def defect? (c : Config) : Option ConfigDefect :=
  if c.poolSize < minimumPoolBytes then some .smallPool
  else if c.heapCells = 0 ∨ c.stackCells = 0 ∨ c.registerCount = 0 then some .emptySegment
  else if c.heapCells > Segment.maxCells ∨ c.stackCells > Segment.maxCells then some .wideSegment
  else if c.registerCount > 256 then some .manyRegisters
  else none

/-- The configuration, if it meets all conditions. -/
def validated (c : Config) : Except Error Config :=
  match c.defect? with
  | none => .ok c
  | some d => .error (.invalidConfig d)

/-- The segment sizes of a configuration. -/
def layout (c : Config) : Layout := ⟨c.heapCells, c.stackCells, c.registerCount⟩

/-- A configuration for people. -/
def describe (c : Config) : String :=
  "MachineConfig \x7b pool_size: " ++ Nat.repr c.poolSize
    ++ ", heap_cells: " ++ Nat.repr c.heapCells
    ++ ", stack_cells: " ++ Nat.repr c.stackCells
    ++ ", register_count: " ++ Nat.repr c.registerCount
    ++ ", watchdog_ms: " ++ Nat.repr c.watchdogMs
    ++ ", host_allocator: " ++ (if c.hostAllocator then "true" else "false")
    ++ ", storage_root: " ++ quote c.storageRoot ++ " \x7d"

end Config

end CellMachine
