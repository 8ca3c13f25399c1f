import CellMachine.Carver
import CellMachine.Job
import CellMachine.Peripheral.Firmware
import CellMachine.Process.Control
import CellMachine.Storage.Basic

/-!
# Machines and processes

A machine owns its parts until it is disposed of; a process knows the machine it came from by its
number but does not keep it. `Activity` is where a background run stands: a value that can be kept
while the host does something else, because a host call is put aside as the effects that are still
to come.
-/

namespace CellMachine

/-- The parts of a machine. The processor is the same for every machine and keeps nothing. -/
structure Parts where
  allocator : Allocator
  layout : Layout
  firmware : Firmware
  storage : Storage

/-- A machine. -/
structure Machine where
  /-- None once the machine has been torn down. -/
  parts : Option Parts
  /-- Whether the embedding program still holds on to it. -/
  held : Bool := true
  disposed : Bool := false
  nextProcessId : Nat := 0
  /-- The watchdog threshold of new processes, in milliseconds. -/
  watchdogMs : Nat := 1000
  /-- The processes it created, the oldest first. -/
  processes : List Nat := []
  /-- The parts torn down so far, in order. -/
  tornDown : List Part := []

namespace Machine

/-- The order in which parts are asked for. -/
def partOrder : List Part := [.processor, .memory, .firmware, .storage]

/-- The part of a name, if any. -/
def partOfName? (s : String) : Option Part := partOrder.find? fun part => part.name == s

/-- The order in which parts are torn down. -/
def teardownOrder : List Part := [.storage, .firmware, .memory, .processor]

/-- A machine for people. -/
def describe (m : Machine) : String :=
  "Machine \x7b disposed: " ++ (if m.disposed then "true" else "false") ++ ", next_process_id: "
    ++ Nat.repr m.nextProcessId ++ " \x7d"

end Machine

/-- A process: what it executes in, whose it is, and its control block. -/
structure Process where
  id : Int
  segments : Segments
  /-- The machine it was created by, if any. -/
  machine : Option Nat
  control : Control := {}
  /-- Whether the embedding program still holds on to it. -/
  held : Bool := true

/-- A process for people. -/
def Process.describe (p : Process) : String :=
  "Process \x7b id: " ++ Int.repr p.id ++ ", state: " ++ p.control.state.name
    ++ ", watchdog_ms: " ++ Nat.repr p.control.watchdogMs ++ " \x7d"

/-- A host call under way on behalf of a run. -/
structure Service where
  /-- The effects still to come. -/
  effects : List Effect
  reply : Reply
  /-- Where the run goes on. -/
  frame : Processor.Frame
  /-- The register for the result. -/
  result : Nat

/-- Where a background run stands. -/
inductive Activity where
  | executing (frame : Processor.Frame)
  | serving (service : Service)
  | sleeping (wakeAt : Nat) (service : Service)
  /-- At a gate, with the number of calls that came there before. -/
  | waiting (gate ticket : Nat) (service : Service)
  | finished

/-- Whether a run is inside a host call. -/
def Activity.inCall : Activity → Bool
  | .executing _ => false
  | .serving _ => true
  | .sleeping _ _ => true
  | .waiting _ _ _ => true
  | .finished => false

/-- A run of a process in the background. -/
structure BackgroundRun where
  process : Nat
  job : Job
  activity : Activity := .executing {}

end CellMachine
